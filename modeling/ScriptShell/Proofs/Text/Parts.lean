import Mathlib.Data.List.Basic
import ScriptShell.Text.Split
import ScriptShell.Text.Units.Lemmas

namespace ScriptShell.Text

section Split

variable {α : Type} [BEq α]

theorem splitFrom_ne_nil (separator : List α) (skip : Nat) (list : List α) :
    splitFrom separator skip list ≠ [] := by
  fun_induction splitFrom separator skip list with
  | case2 => assumption
  | _ => nofun

/-- The parts with the separator between them make up the list again, but for the elements that
were skipped. -/
theorem intercalate_splitFrom [LawfulBEq α] {separator : List α} (hs : separator ≠ [])
    (skip : Nat) (list : List α) :
    separator.intercalate (splitFrom separator skip list) = list.drop skip := by
  fun_induction splitFrom separator skip list with
  | case1 skip => rw [List.intercalate_singleton, List.drop_nil]
  | case2 a rest n ih => exact ih
  | case3 a rest hprefix ih =>
    obtain ⟨back, hback⟩ := List.isPrefixOf_iff_prefix.mp hprefix
    obtain ⟨b, others, rfl⟩ := List.exists_cons_of_ne_nil hs
    obtain ⟨rfl, rfl⟩ := List.cons.inj hback
    rw [List.intercalate_cons_of_ne_nil (splitFrom_ne_nil _ _ _), ih, List.length_cons,
      Nat.add_sub_cancel, List.append_eq, List.drop_left]
    rfl
  | case4 a rest _ part parts hparts ih =>
    rw [hparts] at ih
    rw [List.intercalate_cons_cons_left, ih]
    rfl
  | case5 a rest _ hparts => exact absurd hparts (splitFrom_ne_nil _ _ _)

theorem intercalate_splitAt {separator : String} (hs : separator ≠ "") (text : String) :
    separator.intercalate (splitAt separator text) = text := by
  have hlist : separator.toList ≠ [] := fun h => hs (String.toList_inj.mp h)
  refine String.toList_inj.mp ?_
  rw [splitAt_eq, String.toList_intercalate, List.map_map]
  have hid : String.toList ∘ String.ofList = id := funext fun _ => String.toList_ofList
  rw [hid, List.map_id, intercalate_splitFrom hlist, List.drop_zero]

end Split

section Units

theorem readUnits_cons {u : Nat} (hu : isLeading u = false) (us : List Nat) :
    readUnits (u :: us) = loneChar u :: readUnits us := by
  cases us with
  | nil => rfl
  | cons v us => rw [readUnits, hu, Bool.false_and, if_neg Bool.false_ne_true]

def halved (c : Char) : List Char :=
  if c.toNat < 0x10000 then [c] else [replacement, replacement]

theorem loneChar_of_lt {c : Char} (hc : c.toNat < 0x10000) :
    isLeading c.toNat = false ∧ loneChar c.toNat = c := by
  have hvalid : c.toNat < 0xD800 ∨ 0xDFFF < c.toNat ∧ c.toNat < 0x110000 := c.valid
  have hleading : isLeading c.toNat = false := by simp [isLeading]; omega
  have htrailing : isTrailing c.toNat = false := by simp [isTrailing]; omega
  refine ⟨hleading, ?_⟩
  rw [loneChar, hleading, htrailing]
  exact Char.ofNat_toNat c

theorem unitsOf_of_le {c : Char} (hc : 0x10000 ≤ c.toNat) :
    ∃ u v, unitsOf c = [u, v] ∧ isLeading u = true ∧ isTrailing v = true ∧
      isLeading v = false ∧ joinPair u v = c := by
  have hvalid : c.toNat < 0xD800 ∨ 0xDFFF < c.toNat ∧ c.toNat < 0x110000 := c.valid
  refine ⟨_, _, if_neg (Nat.not_lt.mpr hc), ?_, ?_, ?_, ?_⟩
  · simp [isLeading]; omega
  · simp [isTrailing]; omega
  · simp [isLeading]
  · have hsum : 0x10000 + (0xD800 + (c.toNat - 0x10000) / 0x400 - 0xD800) * 0x400 +
        (0xDC00 + (c.toNat - 0x10000) % 0x400 - 0xDC00) = c.toNat := by omega
    rw [joinPair, hsum, Char.ofNat_toNat]

theorem readUnits_unitsOf_append (c : Char) (us : List Nat) :
    readUnits (unitsOf c ++ us) = c :: readUnits us := by
  by_cases hc : c.toNat < 0x10000
  · obtain ⟨hleading, hlone⟩ := loneChar_of_lt hc
    rw [unitsOf, if_pos hc, List.singleton_append, readUnits_cons hleading, hlone]
  · obtain ⟨u, v, huv, hu, hv, -, hjoin⟩ := unitsOf_of_le (Nat.not_lt.mp hc)
    rw [huv]
    change readUnits (u :: v :: us) = _
    rw [readUnits, hu, hv, Bool.and_self, if_pos rfl, hjoin]

theorem readUnits_units_append (cs : List Char) (us : List Nat) :
    readUnits (cs.flatMap unitsOf ++ us) = cs ++ readUnits us := by
  induction cs with
  | nil => rfl
  | cons c cs ih => rw [List.flatMap_cons, List.append_assoc, readUnits_unitsOf_append, ih]; rfl

theorem readUnits_units (cs : List Char) : readUnits (cs.flatMap unitsOf) = cs := by
  simpa [readUnits] using readUnits_units_append cs []

/-- A place lies between two characters or between the two units of one. -/
theorem place_cases (cs : List Char) (k : Nat) :
    (∃ front back, cs = front ++ back ∧ (cs.flatMap unitsOf).take k = front.flatMap unitsOf ∧
        (cs.flatMap unitsOf).drop k = back.flatMap unitsOf) ∨
      ∃ front c back, cs = front ++ c :: back ∧ 0x10000 ≤ c.toNat ∧
        k = (front.flatMap unitsOf).length + 1 := by
  induction cs generalizing k with
  | nil => exact .inl ⟨[], [], rfl, List.take_nil, List.drop_nil⟩
  | cons c cs ih =>
    by_cases hk : (unitsOf c).length ≤ k
    · obtain ⟨k, rfl⟩ := Nat.exists_eq_add_of_le hk
      rw [List.flatMap_cons, List.take_length_add_append, List.drop_length_add_append]
      obtain ⟨front, back, rfl, hfront, hback⟩ | ⟨front, d, back, rfl, hd, rfl⟩ := ih k
      · exact .inl ⟨c :: front, back, rfl, by rw [hfront, List.flatMap_cons], hback⟩
      · refine .inr ⟨c :: front, d, back, rfl, hd, ?_⟩
        rw [List.flatMap_cons, List.length_append, Nat.add_assoc]
    · cases k with
      | zero => exact .inl ⟨[], c :: cs, rfl, rfl, rfl⟩
      | succ k =>
        have hwide : 0x10000 ≤ c.toNat := Nat.le_of_not_lt fun hc => hk <| by
          rw [unitsOf, if_pos hc]
          exact Nat.le_add_left 1 k
        obtain ⟨u, v, huv, -⟩ := unitsOf_of_le hwide
        have hone : k = 0 := by
          rw [huv] at hk
          change ¬ 2 ≤ k + 1 at hk
          omega
        exact .inr ⟨[], c, cs, rfl, hwide, by rw [hone]; rfl⟩

/-- A place between the two units of a character. -/
structure Divides (k : Nat) (front : List Char) (c : Char) (back : List Char) (text : String) :
    Prop where
  text_eq : text.toList = front ++ c :: back
  wide : 0x10000 ≤ c.toNat
  place : k = (front.flatMap unitsOf).length + 1

/-- A text that was cut at a place and put together again. -/
structure Rejoined (text : String) (k : Nat) (result : String) : Prop where
  whole : (¬ ∃ front c back, Divides k front c back text) → result = text
  divided : ∀ front c back, Divides k front c back text →
    result = String.ofList (front ++ replacement :: replacement :: back)

theorem rejoined_ofUnits (text : String) (k : Nat) :
    Rejoined text k (ofUnits ((units text).take k) ++ ofUnits ((units text).drop k)) := by
  constructor
  · intro hnone
    obtain ⟨front, back, htext, hfront, hback⟩ | ⟨front, c, back, htext, hc, hk⟩ :=
      place_cases text.toList k
    · rw [ofUnits, ofUnits, units, hfront, hback, readUnits_units, readUnits_units,
        ← String.ofList_append, ← htext, String.ofList_toList]
    · exact absurd ⟨front, c, back, htext, hc, hk⟩ hnone
  · rintro front c back ⟨htext, hc, rfl⟩
    obtain ⟨u, v, huv, hu, hv, hv', -⟩ := unitsOf_of_le hc
    have hunits : units text = front.flatMap unitsOf ++ u :: v :: back.flatMap unitsOf := by
      rw [units, htext, List.flatMap_append, List.flatMap_cons, huv]
      rfl
    have hlone : readUnits (v :: back.flatMap unitsOf) = replacement :: back := by
      rw [readUnits_cons hv', readUnits_units, loneChar, hv, Bool.or_true, if_pos rfl]
    rw [ofUnits, ofUnits, hunits, List.take_length_add_append, List.drop_length_add_append]
    change String.ofList (readUnits (_ ++ [u])) ++ String.ofList (readUnits (v :: _)) = _
    rw [hlone, readUnits_units_append, readUnits, loneChar, hu, Bool.true_or, if_pos rfl,
      ← String.ofList_append, List.append_assoc]
    rfl

theorem flatMap_readUnits (text : String) :
    (units text).flatMap (fun u => readUnits [u]) = text.toList.flatMap halved := by
  have hchar : (fun c => (unitsOf c).flatMap fun u => readUnits [u]) = halved := by
    funext c
    by_cases hc : c.toNat < 0x10000
    · rw [unitsOf, halved, if_pos hc, if_pos hc]
      exact congrArg (fun d => [d]) (loneChar_of_lt hc).2
    · obtain ⟨u, v, huv, hu, hv, -⟩ := unitsOf_of_le (Nat.not_lt.mp hc)
      rw [huv, halved, if_neg hc]
      change [loneChar u, loneChar v] = _
      rw [loneChar, loneChar, hu, hv, Bool.true_or, Bool.or_true, if_pos rfl, if_pos rfl]
  rw [units, List.flatMap_assoc, hchar]

/-- A text of which every unit was read by itself. -/
def unitwise (text : String) : String :=
  String.ofList (text.toList.flatMap halved)

theorem toList_intercalate_empty (parts : List String) :
    ("".intercalate parts).toList = parts.flatMap String.toList := by
  induction parts with
  | nil => rfl
  | cons part parts ih =>
    cases parts with
    | nil => simp
    | cons next parts =>
      rw [String.intercalate_cons_cons, String.append_empty, String.toList_append, ih,
        ← List.flatMap_cons]

theorem intercalate_units (text : String) :
    "".intercalate ((units text).map fun u => ofUnits [u]) = unitwise text := by
  refine String.toList_inj.mp ?_
  rw [toList_intercalate_empty, List.flatMap_map, unitwise, String.toList_ofList,
    ← flatMap_readUnits]
  exact List.flatMap_congr fun u _ => String.toList_ofList

end Units

end ScriptShell.Text
