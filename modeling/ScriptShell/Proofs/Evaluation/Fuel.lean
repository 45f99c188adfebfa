import ScriptShell.Proofs.Evaluation.Budget

namespace ScriptShell.Evaluation

variable {limit bound depth n slack size : Nat}

def need (limit bound depth size : Nat) : Nat :=
  (limit + 6) * size + (maxCallDepth - depth) * ((limit + 6) * bound)

theorem need_mono {size' : Nat} (h : size' ≤ size) :
    need limit bound depth size' ≤ need limit bound depth size :=
  Nat.add_le_add_right (Nat.mul_le_mul_left _ h) _

theorem need_succ : need limit bound depth (size + 1) = need limit bound depth size + (limit + 6) := by
  unfold need
  rw [Nat.mul_succ, Nat.add_right_comm]

theorem need_pos (h : 0 < size) : 0 < need limit bound depth size := by
  obtain ⟨less, rfl⟩ : ∃ less, size = less + 1 := ⟨size - 1, by omega⟩
  rw [need_succ]
  omega

theorem need_call (hroom : depth < maxCallDepth) (hsize : size ≤ bound) :
    need limit bound (depth + 1) size ≤ need limit bound depth 0 := by
  have hlevels : maxCallDepth - depth = maxCallDepth - (depth + 1) + 1 := by omega
  calc need limit bound (depth + 1) size
    _ ≤ (limit + 6) * bound + (maxCallDepth - (depth + 1)) * ((limit + 6) * bound) :=
      Nat.add_le_add_right (Nat.mul_le_mul_left _ hsize) _
    _ = (maxCallDepth - depth) * ((limit + 6) * bound) := by
      rw [hlevels]
      exact (Nat.add_comm _ _).trans (Nat.succ_mul _ _).symm
    _ = need limit bound depth 0 := by
      unfold need
      rw [Nat.mul_zero, Nat.zero_add]

structure Fits (limit bound depth n slack size : Nat) : Prop where
  within : size ≤ bound
  fuel : need limit bound depth size + slack ≤ n

namespace Fits

variable {slack' size' : Nat}

theorem of_lt (h : Fits limit bound depth (n + 1) slack size) (hlt : size' < size)
    (hslack : slack' ≤ slack + limit + 5) : Fits limit bound depth n slack' size' := by
  have hfuel := h.fuel
  have hneed : need limit bound depth (size' + 1) ≤ need limit bound depth size := need_mono hlt
  rw [need_succ] at hneed
  exact ⟨Nat.le_trans (Nat.le_of_lt hlt) h.within, by omega⟩

theorem of_le (h : Fits limit bound depth (n + 1) slack size) (hle : size' ≤ size)
    (hslack : slack' < slack) : Fits limit bound depth n slack' size' := by
  have hfuel := h.fuel
  have hneed : need limit bound depth size' ≤ need limit bound depth size := need_mono hle
  exact ⟨Nat.le_trans hle h.within, by omega⟩

theorem call (h : Fits limit bound depth (n + 1) (slack + 1) 0) (hroom : depth < maxCallDepth)
    (hsize : size ≤ bound) : Fits limit bound (depth + 1) n 0 size := by
  have hfuel := h.fuel
  have hneed : need limit bound (depth + 1) size ≤ need limit bound depth 0 :=
    need_call hroom hsize
  exact ⟨hsize, by omega⟩

theorem pos (h : Fits limit bound depth n slack size) (hpos : 0 < size ∨ 0 < slack) : n ≠ 0 := by
  have hfuel := h.fuel
  rcases hpos with hsize | hslack
  · have hneed : 0 < need limit bound depth size := need_pos hsize
    omega
  · omega

end Fits

end ScriptShell.Evaluation
