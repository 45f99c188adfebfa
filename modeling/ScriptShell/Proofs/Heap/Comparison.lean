import ScriptShell.Operator
import ScriptShell.Proofs.Heap.Endless

namespace ScriptShell

namespace Number

open Float.Model Float.Model.UnpackedFloat

theorem sign_compare_swap (s t : Sign) : (compare s t).swap = compare t s := by
  cases s <;> cases t <;> rfl

theorem compare_then_swap (e f : Int) (m n : Nat) :
    ((compare e f).then (compare m n)).swap = (compare f e).then (compare n m) := by
  rw [Ordering.swap_then, ← Std.OrientedCmp.eq_swap, ← Std.OrientedCmp.eq_swap]

theorem compare_swap (a b : UnpackedFloat) : (a.compare b).map Ordering.swap = b.compare a := by
  cases a with
  | notANumber => cases b <;> rfl
  | infinity s =>
    cases b with
    | infinity t => exact congrArg some (sign_compare_swap s t)
    | _ => cases s <;> rfl
  | zero s =>
    cases b with
    | infinity t => cases t <;> rfl
    | finite t => cases t <;> rfl
    | _ => rfl
  | finite s m e hm =>
    cases b with
    | infinity t => cases t <;> rfl
    | notANumber => rfl
    | zero => cases s <;> rfl
    | finite t n f hn =>
      have hfinite := compare_then_swap e f m n
      cases s with
      | positive =>
        cases t with
        | positive => exact congrArg some hfinite
        | negative => rfl
      | negative =>
        cases t with
        | positive => rfl
        | negative => exact congrArg (fun o => some o.swap) hfinite

theorem beq_comm (x y : Float) : (x == y) = (y == x) := by
  change (x.toModel.unpack.compare y.toModel.unpack == some .eq) =
    (y.toModel.unpack.compare x.toModel.unpack == some .eq)
  rw [← compare_swap]
  cases UnpackedFloat.compare y.toModel.unpack x.toModel.unpack with
  | none => rfl
  | some o => cases o <;> rfl

theorem compare_of_lt {x y : Float} (hxy : x < y) :
    x.toModel.unpack.compare y.toModel.unpack = some .lt :=
  eq_of_beq (of_decide_eq_true hxy)

theorem not_beq_of_lt {x y : Float} (hxy : x < y) : (x == y) = false := by
  change (x.toModel.unpack.compare y.toModel.unpack == some .eq) = false
  rw [compare_of_lt hxy]
  rfl

theorem not_lt_of_lt {x y : Float} (hxy : x < y) : ¬ y < x := by
  intro hyx
  have hmore := compare_of_lt hyx
  rw [← compare_swap, compare_of_lt hxy] at hmore
  cases hmore

theorem not_nan_lt_zero : ¬ nan < 0 := by
  decide +kernel

theorem not_zero_lt_nan : ¬ 0 < nan := by
  decide +kernel

end Number

theorem Value.strictEquals_comm (v w : Value) : v.strictEquals w = w.strictEquals v := by
  cases v <;> cases w <;> first
    | rfl
    | exact Number.beq_comm _ _
    | exact decide_eq_decide.mpr eq_comm

namespace Heap

variable {h : Heap} {v w : Value}

/-- Equality with conversion by rules of which the first that fits is taken, with at most so many
rules one after the other. -/
def looseWithin (h : Heap) : Nat → Value → Value → Option (Except Fault Bool)
  | 0, _, _ => none
  | n + 1, v, w =>
    match v, w with
    | .undefined, .undefined | .undefined, .null | .null, .undefined | .null, .null =>
      some (.ok true)
    | .undefined, _ | .null, _ | _, .undefined | _, .null => some (.ok false)
    | .number x, .text s => some (.ok (x == Number.ofText s))
    | .text s, .number x => some (.ok (Number.ofText s == x))
    | .bool b, w => looseWithin h n (.number (if b then 1 else 0)) w
    | v, .bool b => looseWithin h n v (.number (if b then 1 else 0))
    | .object id, .number _ | .object id, .text _ =>
      match h.text (.object id) with
      | .ok s => looseWithin h n (.text s) w
      | .error f => some (.error f)
    | .number _, .object id | .text _, .object id =>
      match h.text (.object id) with
      | .ok s => looseWithin h n v (.text s)
      | .error f => some (.error f)
    | v, w => some (.ok (v.strictEquals w))

theorem looseWithin_eq (h : Heap) (n : Nat) (v w : Value) :
    h.looseWithin (n + 3) v w = some (h.looseEquals v w) := by
  cases v with
  | object id =>
    cases w with
    | undefined | null | object => rfl
    | bool | number | text =>
      simp only [looseWithin, looseEquals, withoutBool, unboxedEquals]
      cases h.text (.object id) <;> rfl
  | bool | number | text =>
    cases w with
    | object id =>
      simp only [looseWithin, looseEquals, withoutBool, unboxedEquals]
      cases h.text (.object id) <;> rfl
    | _ => rfl
  | undefined | null => cases w <;> rfl

theorem unboxedEquals_comm (h : Heap) (v w : Value) :
    h.unboxedEquals v w = h.unboxedEquals w v := by
  have texts {id : ObjectId} {f g : String → Bool} (hfg : ∀ s, f s = g s) :
      (h.text (.object id) >>= fun s => Except.ok (f s)) =
        h.text (.object id) >>= fun s => .ok (g s) := by
    rw [funext hfg]
  cases v with
  | object id =>
    cases w with
    | object => exact congrArg Except.ok (decide_eq_decide.mpr eq_comm)
    | number => exact texts fun s => Number.beq_comm _ _
    | _ => exact texts fun s => Value.strictEquals_comm _ _
  | number x =>
    cases w with
    | object => exact texts fun s => Number.beq_comm _ _
    | text => exact congrArg Except.ok (Number.beq_comm _ _)
    | _ => exact congrArg Except.ok (Value.strictEquals_comm _ _)
  | text s =>
    cases w with
    | object => exact texts fun t => Value.strictEquals_comm _ _
    | number => exact congrArg Except.ok (Number.beq_comm _ _)
    | _ => exact congrArg Except.ok (Value.strictEquals_comm _ _)
  | _ =>
    cases w with
    | object => exact texts fun s => Value.strictEquals_comm _ _
    | _ => exact congrArg Except.ok (Value.strictEquals_comm _ _)

theorem looseEquals_comm (h : Heap) (v w : Value) : h.looseEquals v w = h.looseEquals w v := by
  rw [looseEquals, looseEquals, Bool.or_comm, Bool.and_comm, unboxedEquals_comm]

theorem looseEquals_of_strictEquals (heq : v.strictEquals w = true) :
    h.looseEquals v w = .ok true := by
  cases v <;> cases w <;> try cases heq
  case bool.bool a b =>
    obtain rfl := of_decide_eq_true heq
    cases a <;> rfl
  case number.number | text.text | object.object => exact congrArg Except.ok heq
  all_goals rfl

theorem compare_as_numbers {p q : Value} {x y : Float} (hp : h.primitive v = .ok p)
    (hq : h.primitive w = .ok q) (hx : h.number p = .ok x) (hy : h.number q = .ok y)
    (htexts : ¬ ∃ s t, p = .text s ∧ q = .text t) (texts : String → String → Bool)
    (numbers : Float → Float → Bool) :
    h.compare texts numbers v w = .ok (.bool (numbers x y)) := by
  simp only [compare, hp, hq, bind, Except.bind]
  split
  · exact (htexts ⟨_, _, rfl, rfl⟩).elim
  · rw [hx, hy]
    rfl

/-- Any comparison of two values is of the same two texts or the same two numbers, in either
direction. -/
theorem compare_cases (hv : h.HasText v) (hw : h.HasText w) :
    (∃ s t, ∀ texts numbers, h.compare texts numbers v w = .ok (.bool (texts s t)) ∧
        h.compare texts numbers w v = .ok (.bool (texts t s))) ∨
      ∃ x y, ∀ texts numbers, h.compare texts numbers v w = .ok (.bool (numbers x y)) ∧
        h.compare texts numbers w v = .ok (.bool (numbers y x)) := by
  obtain ⟨p, hp, hptext⟩ := primitive_ok hv
  obtain ⟨q, hq, hqtext⟩ := primitive_ok hw
  obtain ⟨x, hx⟩ := number_ok hptext
  obtain ⟨y, hy⟩ := number_ok hqtext
  by_cases htexts : ∃ s t, p = .text s ∧ q = .text t
  · obtain ⟨s, t, rfl, rfl⟩ := htexts
    refine .inl ⟨s, t, fun texts numbers => ?_⟩
    simp only [compare, hp, hq]
    exact ⟨rfl, rfl⟩
  · refine .inr ⟨x, y, fun texts numbers => ⟨?_, ?_⟩⟩
    · exact compare_as_numbers hp hq hx hy htexts texts numbers
    · refine compare_as_numbers hq hp hy hx ?_ texts numbers
      rintro ⟨t, s, ht, hs⟩
      exact htexts ⟨s, t, hs, ht⟩

/-- Values that are neither nothing nor both objects are equal if they compare as equal. -/
theorem looseEquals_eq_compare (hv : v.isNothing = false) (hw : w.isNothing = false)
    (hobjects : ¬ ∃ id id', v = .object id ∧ w = .object id') :
    (h.looseEquals v w).map .bool = h.compare (· = ·) (· == ·) v w := by
  cases v with
  | undefined | null => cases hv
  | object id =>
    cases w with
    | undefined | null => cases hw
    | object id' => exact (hobjects ⟨id, id', rfl, rfl⟩).elim
    | bool | number | text =>
      simp only [looseEquals, Value.isNothing, withoutBool, unboxedEquals, compare, primitive]
      cases h.text (.object id) <;> rfl
  | bool | number | text =>
    cases w with
    | undefined | null => cases hw
    | object id =>
      simp only [looseEquals, Value.isNothing, withoutBool, unboxedEquals, compare, primitive]
      cases h.text (.object id) <;> rfl
    | _ => rfl

theorem of_ok_decide {P : Prop} [Decidable P]
    (hless : (.ok (.bool (decide P)) : Except Fault Value) = .ok (.bool true)) : P :=
  of_decide_eq_true (Value.bool.inj (Except.ok.inj hless))

theorem not_less_self (hv : h.HasText v) : h.compare (· < ·) (· < ·) v v ≠ .ok (.bool true) := by
  intro hless
  rcases compare_cases hv hv with ⟨s, t, hcompare⟩ | ⟨x, y, hcompare⟩
  · obtain ⟨hst, hts⟩ := hcompare (· < ·) (· < ·)
    have hlt : s < t := of_ok_decide (hst.symm.trans hless)
    have hgt : t < s := of_ok_decide (hts.symm.trans hless)
    exact String.lt_asymm hlt hgt
  · obtain ⟨hxy, hyx⟩ := hcompare (· < ·) (· < ·)
    have hlt : x < y := of_ok_decide (hxy.symm.trans hless)
    have hgt : y < x := of_ok_decide (hyx.symm.trans hless)
    exact Number.not_lt_of_lt hlt hgt

theorem not_less_of_isNothing (hv : v.isNothing = true) (hw : w.isNothing = true) :
    h.compare (· < ·) (· < ·) v w ≠ .ok (.bool true) := by
  cases v with
  | undefined =>
    cases w with
    | undefined => exact not_less_self (hasText_of_not_object nofun)
    | null => exact fun hless => Number.not_nan_lt_zero (of_ok_decide hless)
    | _ => cases hw
  | null =>
    cases w with
    | undefined => exact fun hless => Number.not_zero_lt_nan (of_ok_decide hless)
    | null => exact not_less_self (hasText_of_not_object nofun)
    | _ => cases hw
  | _ => cases hv

/-- Of two values of which one is less neither equals the other. -/
theorem looseEquals_of_less (hv : h.HasText v) (hw : h.HasText w)
    (hless : h.compare (· < ·) (· < ·) v w = .ok (.bool true)) : h.looseEquals v w = .ok false := by
  by_cases hnothing : (v.isNothing || w.isNothing) = true
  · rw [looseEquals, if_pos hnothing]
    refine congrArg Except.ok (Bool.eq_false_iff.mpr fun hboth => ?_)
    obtain ⟨hvn, hwn⟩ := Bool.and_eq_true_iff.mp hboth
    exact not_less_of_isNothing hvn hwn hless
  obtain ⟨hvn, hwn⟩ := Bool.or_eq_false_iff.mp (Bool.not_eq_true _ ▸ hnothing)
  by_cases hobjects : ∃ id id', v = .object id ∧ w = .object id'
  · obtain ⟨id, id', rfl, rfl⟩ := hobjects
    refine congrArg Except.ok (decide_eq_false ?_)
    rintro rfl
    exact not_less_self hv hless
  · obtain ⟨b, hb⟩ := looseEquals_ok hv hw
    have hequal := looseEquals_eq_compare (h := h) hvn hwn hobjects
    rw [hb] at hequal ⊢
    rcases compare_cases hv hw with ⟨s, t, hcompare⟩ | ⟨x, y, hcompare⟩
    · rw [(hcompare _ _).1] at hless hequal
      cases hequal
      have hlt : s < t := of_ok_decide hless
      exact congrArg Except.ok (decide_eq_false (String.ne_of_lt hlt))
    · rw [(hcompare _ _).1] at hless hequal
      cases hequal
      have hlt : x < y := of_ok_decide hless
      exact congrArg Except.ok (Number.not_beq_of_lt hlt)

/-- Equality with conversion comes to an answer after at most three rules. Both equalities are the
same in either direction, and values that are equal without conversion are equal with it. Less is
greater in the other direction, for the strict order and for the other one, and values of which one
is less are not equal. -/
theorem equality_and_order (hh : h.Closed) (hv : h.Knows v ∧ ¬ h.Endless v)
    (hw : h.Knows w ∧ ¬ h.Endless w) :
    (∃ b, h.looseEquals v w = .ok b ∧ ∀ n, h.looseWithin (n + 3) v w = some (.ok b)) ∧
      h.looseEquals v w = h.looseEquals w v ∧
      v.strictEquals w = w.strictEquals v ∧
      (v.strictEquals w = true → h.looseEquals v w = .ok true) ∧
      (∃ b, h.binary .lt v w = .ok (.bool b) ∧ h.binary .gt w v = .ok (.bool b)) ∧
      (∃ b, h.binary .le v w = .ok (.bool b) ∧ h.binary .ge w v = .ok (.bool b)) ∧
      (h.binary .lt v w = .ok (.bool true) → h.looseEquals v w = .ok false) := by
  have hvt : h.HasText v := (text_ok_iff hh hv.1).mpr hv.2
  have hwt : h.HasText w := (text_ok_iff hh hw.1).mpr hw.2
  obtain ⟨b, hb⟩ := looseEquals_ok hvt hwt
  -- An order and the same order turned around are one comparison with its arguments exchanged.
  have turned (texts : String → String → Bool) (numbers : Float → Float → Bool) :
      ∃ b, h.compare texts numbers v w = .ok (.bool b) ∧
        h.compare (flip texts) (flip numbers) w v = .ok (.bool b) := by
    rcases compare_cases hvt hwt with ⟨s, t, hcompare⟩ | ⟨x, y, hcompare⟩
    · exact ⟨_, (hcompare texts numbers).1, (hcompare (flip texts) (flip numbers)).2⟩
    · exact ⟨_, (hcompare texts numbers).1, (hcompare (flip texts) (flip numbers)).2⟩
  refine ⟨⟨b, hb, fun n => ?_⟩, looseEquals_comm h v w, Value.strictEquals_comm v w,
    looseEquals_of_strictEquals, turned _ _, turned _ _, looseEquals_of_less hvt hwt⟩
  rw [looseWithin_eq, hb]

def textArray (s : String) : Heap :=
  ((new 1).allocate (.ofKind (.array #[.text s]))).2

theorem closed_textArray (s : String) : (textArray s).Closed := by
  refine (closed_new 1).allocate ?_
  rintro v (⟨elements, helements, hv⟩ | ⟨key, hkey⟩)
  · cases helements
    obtain rfl := Array.mem_singleton.mp hv
    nofun
  · cases (Dict.get?_empty key).symm.trans hkey

theorem equality_and_order_textArray :
    (textArray "10").Closed ∧ (textArray "10").Knows (.object 0) ∧
      ¬ (textArray "10").Endless (.object 0) ∧
      (textArray "10").binary .lt (.object 0) (.text "9") = .ok (.bool true) ∧
      (textArray "10").binary .gt (.text "9") (.object 0) = .ok (.bool true) ∧
      (textArray "10").looseEquals (.text "9") (.object 0) = .ok false := by
  have hclosed := closed_textArray "10"
  have hknown : (textArray "10").Knows (.object 0) := by
    rintro id ⟨⟩
    exact Nat.one_pos
  have hends : ¬ (textArray "10").Endless (.object 0) :=
    (text_ok_iff hclosed hknown).mp ⟨"10", rfl⟩
  have hlt : (textArray "10").binary .lt (.object 0) (.text "9") = .ok (.bool true) := rfl
  obtain ⟨-, hsymm, -, -, ⟨b, hb, hgt⟩, -, hexcludes⟩ :=
    equality_and_order hclosed ⟨hknown, hends⟩ (w := .text "9") ⟨nofun, not_endless nofun⟩
  cases hlt.symm.trans hb
  exact ⟨hclosed, hknown, hends, hlt, hgt, hsymm ▸ hexcludes hlt⟩

end Heap

end ScriptShell
