import Mathlib.Data.List.Basic
import ScriptShell.Location
import ScriptShell.Text.Lines

namespace ScriptShell

namespace Text

variable {c : Char} {x y : List Char}

@[simp] theorem byteSize_nil : byteSize [] = 0 := rfl

@[simp] theorem byteSize_cons : byteSize (c :: x) = c.utf8Size + byteSize x := rfl

@[simp] theorem byteSize_append : byteSize (x ++ y) = byteSize x + byteSize y := by
  induction x with
  | nil => simp
  | cons c x ih => simp [ih, Nat.add_assoc]

theorem splitAtByte_byteSize : splitAtByte (byteSize x) (x ++ y) = (x, y) := by
  induction x with
  | nil =>
    cases y with
    | nil => rfl
    | cons c y => simp [splitAtByte, Nat.ne_of_gt c.utf8Size_pos]
  | cons c x ih => simp [splitAtByte, ih]

theorem byteSize_toList (s : String) : byteSize s.toList = s.utf8ByteSize := by
  have hsize (x : List Char) : byteSize x = (String.ofList x).utf8ByteSize := by
    induction x with
    | nil => rfl
    | cons c x ih => simp [ih, String.ofList_cons, String.utf8ByteSize_append]
  rw [hsize, String.ofList_toList]

end Text

namespace Location

variable {l : Location} {c : Char} {x y : List Char} {n k : Nat}

def shift (n : Nat) (l : Location) : Location :=
  { l with offset := n + l.offset }

@[simp] theorem advance_nil : l.advance [] = l := rfl

@[simp] theorem advance_cons : l.advance (c :: x) = (l.after c).advance x := rfl

theorem offset_after : (l.after c).offset = l.offset + c.utf8Size := by
  unfold after
  split <;> rfl

theorem offset_advance : (l.advance x).offset = l.offset + Text.byteSize x := by
  induction x generalizing l with
  | nil => rfl
  | cons c x ih => rw [advance_cons, ih, offset_after, Text.byteSize_cons, Nat.add_assoc]

theorem line_after : (l.after c).line = l.line + [c].count '\n' := by
  unfold after
  split <;> simp_all

theorem line_advance : (l.advance x).line = l.line + x.count '\n' := by
  induction x generalizing l with
  | nil => rfl
  | cons c x ih =>
    rw [advance_cons, ih, line_after, Nat.add_assoc, ← List.count_append, List.singleton_append]

theorem column_advance (hx : '\n' ∉ x) : (l.advance x).column = l.column + x.length := by
  induction x generalizing l with
  | nil => rfl
  | cons c x ih =>
    rw [List.mem_cons, not_or] at hx
    have hcolumn : (l.after c).column = l.column + 1 := by
      unfold after
      rw [if_neg (Ne.symm hx.1)]
    rw [advance_cons, ih hx.2, hcolumn, List.length_cons]
    omega

theorem column_advance_of_getLast? (hx : x.getLast? = some '\n') : (l.advance x).column = 1 := by
  obtain ⟨y, rfl⟩ := List.getLast?_eq_some_iff.mp hx
  rw [advance_append]
  rfl

theorem shift_after : (l.shift n).after c = (l.after c).shift n := by
  unfold after
  split <;> simp [shift, Nat.add_assoc]

theorem shift_advance : (l.shift n).advance x = (l.advance x).shift n := by
  induction x generalizing l with
  | nil => rfl
  | cons c x ih => rw [advance_cons, shift_after, ih, advance_cons]

theorem advance_start (hx : x.getLast? = some '\n') :
    (start k).advance x = (start (k + x.count '\n')).shift (Text.byteSize x) := by
  have hcolumn := column_advance_of_getLast? (l := start k) hx
  have hline := line_advance (l := start k) (x := x)
  have hoffset := offset_advance (l := start k) (x := x)
  generalize (start k).advance x = l at hcolumn hline hoffset
  obtain ⟨line, column, offset⟩ := l
  dsimp only at hcolumn hline hoffset
  subst hcolumn hline hoffset
  simp [shift, start]

end Location

end ScriptShell
