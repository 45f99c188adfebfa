import ScriptShell.Library.Functions
import ScriptShell.Proofs.Evaluation.Running
import ScriptShell.Proofs.Heap.Contents
import ScriptShell.Proofs.Number.Order
import ScriptShell.Proofs.Text.Parts

namespace ScriptShell.Library

open Evaluation

variable {σ : Type} (s : State σ)

section Join

theorem text_text (h : Heap) (text : String) : h.text (.text text) = .ok text := by
  unfold Heap.text
  cases h.objects.size <;> rfl

def partsOf (text separator : String) : List String :=
  if separator.isEmpty then (Text.units text).map fun u => Text.ofUnits [u]
  else Text.splitAt separator text

theorem splitText_eq (text separator : String) :
    splitText text (some (.text separator)) s = .ok ((partsOf text separator).map .text) s := by
  refine (bind_of_ok (ask_of_ok (text_text _ separator)) _).trans ?_
  rw [partsOf]
  split
  · rw [List.map_map]
    rfl
  · rfl

theorem split_eq (text separator : String) :
    ∃ id t, method (.text text) "split" [.text separator] s = .ok (some (.object id)) t ∧
      (t.runtime.heap.object id).elements? =
        some ((partsOf text separator).map Value.text).toArray := by
  refine ⟨_, _, bind_of_ok (splitText_eq s text separator) _, ?_⟩
  change ((s.runtime.heap.allocate _).2.object _).elements? = _
  rw [Heap.object_allocate]
  exact congrArg Object.elements? (if_pos rfl)

theorem mapM_elementText (h : Heap) (parts : List String) :
    (parts.map .text).mapM (elementText h) = .ok parts := by
  induction parts with
  | nil => rfl
  | cons part parts ih =>
    have hpart : elementText h (.text part) = .ok part := text_text h part
    rw [List.map_cons, List.mapM_cons, hpart, ih]
    rfl

/-- Joining an array of texts. -/
theorem join_eq {id : ObjectId} {parts : List String}
    (h : (s.runtime.heap.object id).elements? = some (parts.map Value.text).toArray)
    (separator : String) :
    method (.object id) "join" [.text separator] s =
      .ok (some (.text (separator.intercalate parts))) s := by
  have harray : look (fun h => (h.object id).elements?.isNone) s = .ok false s :=
    congrArg (fun e : Option (Array Value) => EStateM.Result.ok e.isNone s) h
  have helements : elementsOf id s = .ok (parts.map Value.text).toArray s :=
    congrArg (fun e : Option (Array Value) => EStateM.Result.ok (e.getD #[]) s) h
  have hjoined : joined (parts.map Value.text) (some (.text separator)) s =
      .ok (.text (separator.intercalate parts)) s := by
    refine (bind_of_ok (ask_of_ok (text_text _ separator)) _).trans ?_
    exact bind_of_ok (ask_of_ok (mapM_elementText _ parts)) _
  have hmethod : arrayMethod id "join" [.text separator] s =
      .ok (some (.text (separator.intercalate parts))) s := by
    refine (bind_of_ok helements _).trans ?_
    exact bind_of_ok hjoined _
  refine (bind_of_ok harray _).trans ?_
  exact bind_of_ok hmethod _

theorem intercalate_partsOf (text separator : String) :
    separator.intercalate (partsOf text separator) =
      if separator = "" then Text.unitwise text else text := by
  rw [partsOf]
  by_cases hempty : separator = ""
  · subst hempty
    exact Text.intercalate_units text
  · rw [if_neg hempty, if_neg (by simpa using hempty), Text.intercalate_splitAt hempty]

end Join

section Cut

variable {x : Float} {length : Nat}

theorem clampedIndex_of_le (default : Nat) (h₀ : 0 ≤ x) (hx : x ≤ Number.ofNat length) :
    clampedIndex (some (.number x)) length default s = .ok (Number.toSize x) s := by
  change (if x.isNaN then pure 0 else pure (Number.toSize (if x < 0 then 0 else
    if Number.ofNat length < x then Number.ofNat length else x)) : Eval σ Nat) s = _
  rw [Number.isNaN_of_le h₀, if_neg Bool.false_ne_true, if_neg (Number.not_lt_of_le h₀),
    if_neg (Number.not_lt_of_le hx)]
  rfl

theorem relativeIndex_of_le (default : Nat) (h₀ : 0 ≤ x) (hx : x ≤ Number.ofNat length) :
    relativeIndex (some (.number x)) length default s = .ok (Number.toSize x) s := by
  have hlt := Number.not_truncate_lt_zero h₀
  change (let n := if x.isNaN then 0 else Number.truncate x
    if n < 0 then pure (Number.toSize (if Number.ofNat length + n < 0 then 0 else
      Number.ofNat length + n))
    else pure (Number.toSize (if n < Number.ofNat length then n else
      Number.ofNat length)) : Eval σ Nat) s = _
  rw [Number.isNaN_of_le h₀, if_neg Bool.false_ne_true]
  dsimp only
  rw [if_neg hlt, Number.toSize_truncate hx]
  rfl

theorem toSize_zero : Number.toSize 0 = 0 := by
  decide +kernel

variable {text : String}

theorem cut_front (k : Nat) : Text.cut text 0 k = Text.ofUnits ((Text.units text).take k) := by
  rw [Text.cut_eq, List.drop_zero, Nat.sub_zero]

theorem cut_back (k : Nat) {length : Nat} (hlength : (Text.units text).length ≤ length) :
    Text.cut text k length = Text.ofUnits ((Text.units text).drop k) := by
  rw [Text.cut_eq, List.take_of_length_le (by rw [List.length_drop]; omega)]

theorem cut_ordered (k : Nat) {length : Nat} (hlength : (Text.units text).length ≤ length) :
    Text.cut text (min k length) (max k length) = Text.cut text k length := by
  obtain hk | hk := Nat.le_total k length
  · rw [Nat.min_eq_left hk, Nat.max_eq_right hk]
  · rw [Nat.min_eq_right hk, Nat.max_eq_left hk, cut_back k hlength,
      cut_back length (hlength.trans hk), List.drop_of_length_le hlength,
      List.drop_of_length_le (hlength.trans hk)]

/-- Both methods cut a text at the same place. -/
theorem cut_eq (h₀ : 0 ≤ x) (hx : x ≤ Number.ofNat (Text.unitCount text)) {key : String}
    (hkey : key = "substring" ∨ key = "slice") :
    method (.text text) key [.number 0, .number x] s =
        .ok (some (.text (Text.ofUnits ((Text.units text).take (Number.toSize x))))) s ∧
      method (.text text) key [.number x] s =
        .ok (some (.text (Text.ofUnits ((Text.units text).drop (Number.toSize x))))) s := by
  have hstart : (0 : Float) ≤ 0 := by decide +kernel
  have hsize := Number.zero_le_ofNat (Text.unitCount text)
  have hlength := (Text.unitCount_eq text).ge
  rw [← cut_front, ← cut_back _ hlength]
  obtain rfl | rfl := hkey
  · have hfirst := clampedIndex_of_le s 0 hstart hsize
    have hplace := clampedIndex_of_le s (Text.unitCount text) h₀ hx
    have hplace' := clampedIndex_of_le s 0 h₀ hx
    rw [toSize_zero] at hfirst
    constructor
    · have hcut : substring text [.number 0, .number x] s =
          .ok (.text (Text.cut text (min 0 (Number.toSize x)) (max 0 (Number.toSize x)))) s :=
        (bind_of_ok hfirst _).trans (bind_of_ok hplace _)
      rw [Nat.zero_min, Nat.zero_max] at hcut
      exact bind_of_ok hcut _
    · have hcut : substring text [.number x] s =
          .ok (.text (Text.cut text (min (Number.toSize x) (Text.unitCount text))
            (max (Number.toSize x) (Text.unitCount text)))) s := bind_of_ok hplace' _
      rw [cut_ordered _ hlength] at hcut
      exact bind_of_ok hcut _
  · have hfirst := relativeIndex_of_le s 0 hstart hsize
    have hplace := relativeIndex_of_le s (Text.unitCount text) h₀ hx
    have hplace' := relativeIndex_of_le s 0 h₀ hx
    rw [toSize_zero] at hfirst
    constructor
    · have hbounds : sliceBounds (Text.unitCount text) [.number 0, .number x] s =
          .ok (0, Number.toSize x) s :=
        (bind_of_ok hfirst _).trans (bind_of_ok hplace _)
      exact bind_of_ok hbounds _
    · have hbounds : sliceBounds (Text.unitCount text) [.number x] s =
          .ok (Number.toSize x, Text.unitCount text) s := bind_of_ok hplace' _
      exact bind_of_ok hbounds _

end Cut

/-- A text that was split is joined to what it was, except that an empty separator leaves two
replacement characters of every character beyond the first plane. Cut at a number between zero
and its length, by either method, it is put together to what it was unless the place lies within
such a character. -/
theorem parts_together (text separator : String) :
    (∃ id t, method (.text text) "split" [.text separator] s = .ok (some (.object id)) t ∧
        method (.object id) "join" [.text separator] t =
          .ok (some (.text (if separator = "" then Text.unitwise text else text))) t) ∧
      ∀ x, 0 ≤ x → x ≤ Number.ofNat (Text.unitCount text) →
        ∀ key, key = "substring" ∨ key = "slice" →
          ∃ front back, method (.text text) key [.number 0, .number x] s =
              .ok (some (.text front)) s ∧
            method (.text text) key [.number x] s = .ok (some (.text back)) s ∧
            Text.Rejoined text (Number.toSize x) (front ++ back) := by
  constructor
  -- Joining reads the very array that splitting has allocated.
  · obtain ⟨id, t, hsplit, helements⟩ := split_eq s text separator
    refine ⟨id, t, hsplit, ?_⟩
    rw [join_eq t helements, intercalate_partsOf]
  · intro x h₀ hx key hkey
    obtain ⟨hfront, hback⟩ := cut_eq s h₀ hx hkey
    exact ⟨_, _, hfront, hback, Text.rejoined_ofUnits text _⟩

theorem parts_together_wide :
    (0 : Float) ≤ 2 ∧ (2 : Float) ≤ Number.ofNat (Text.unitCount "a😀b") ∧
      ∃ front back,
        method (.text "a😀b") "slice" [.number 0, .number 2] (State.initial ()) =
          .ok (some (.text front)) (.initial ()) ∧
        method (.text "a😀b") "slice" [.number 2] (State.initial ()) =
          .ok (some (.text back)) (.initial ()) ∧
        front ++ back = "a\uFFFD\uFFFDb" := by
  have h₀ : (0 : Float) ≤ 2 := by decide +kernel
  have hx : (2 : Float) ≤ Number.ofNat (Text.unitCount "a😀b") := by decide +kernel
  obtain ⟨front, back, hfront, hback, hboth⟩ :=
    (parts_together (.initial ()) "a😀b" "").2 2 h₀ hx "slice" (.inr rfl)
  have hplace : Text.Divides (Number.toSize 2) ['a'] '😀' ['b'] "a😀b" :=
    ⟨by decide, by decide, by decide +kernel⟩
  exact ⟨h₀, hx, front, back, hfront, hback, hboth.divided _ _ _ hplace⟩

theorem not_join_split_wide :
    ¬ ∃ id t, method (.text "😀") "split" [.text ""] (State.initial ()) = .ok (some (.object id)) t ∧
      method (.object id) "join" [.text ""] t = .ok (some (.text "😀")) t := by
  rintro ⟨id, t, hsplit, hjoin⟩
  obtain ⟨id', t', hsplit', helements⟩ := split_eq (.initial ()) "😀" ""
  rw [hsplit'] at hsplit
  cases hsplit
  rw [join_eq t helements, intercalate_partsOf, if_pos rfl] at hjoin
  have htext : Text.unitwise "😀" = "😀" :=
    Value.text.inj (Option.some.inj (EStateM.Result.ok.inj hjoin).1)
  revert htext
  decide

end ScriptShell.Library
