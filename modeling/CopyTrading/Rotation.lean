import Mathlib.Data.List.Rotate
import Mathlib.Logic.Function.Iterate

namespace Rotation

variable {α : Type}

/-- The working list after a pass over its first `w` entries: they go to the back. -/
def next (w : Nat) (xs : List α) : List α := xs.rotate (min w xs.length)

/-- So many passes are one rotation. -/
theorem iterate_next (w k : Nat) (xs : List α) :
    (next w)^[k] xs = xs.rotate (k * min w xs.length) := by
  induction k with
  | zero => simp
  | succ k ih =>
    rw [Function.iterate_succ_apply', ih, next, List.length_rotate, List.rotate_rotate]
    rw [Nat.succ_mul]

theorem iterate_next_perm (w k : Nat) (xs : List α) : ((next w)^[k] xs).Perm xs := by
  rw [iterate_next]
  exact List.rotate_perm xs _

theorem mem_iterate_next {w k : Nat} {xs : List α} {a : α} : a ∈ (next w)^[k] xs ↔ a ∈ xs :=
  (iterate_next_perm w k xs).mem_iff

/-- The entry at position `i` is in the slice of pass `i / w`. -/
theorem getElem_mem_take {w : Nat} (hw : 0 < w) (xs : List α) {i : Nat} (hi : i < xs.length) :
    xs[i] ∈ ((next w)^[i / w] xs).take w := by
  have split : w * (i / w) + i % w = i := Nat.div_add_mod i w
  have inside : i % w < w := Nat.mod_lt i hw
  have whole : i / w * min w xs.length + i % w = i := by
    rcases Nat.lt_or_ge xs.length w with short | long
    · rw [Nat.div_eq_of_lt (by omega), Nat.mod_eq_of_lt (by omega)]
      omega
    · rw [min_eq_left long, Nat.mul_comm]
      exact split
  have bound : i % w < xs.length := Nat.lt_of_le_of_lt (Nat.mod_le i w) hi
  have here : ((next w)^[i / w] xs)[i % w]? = some xs[i] := by
    rw [iterate_next, List.getElem?_rotate bound, Nat.add_comm, whole, Nat.mod_eq_of_lt hi]
    exact List.getElem?_eq_getElem hi
  refine List.mem_of_getElem? (i := i % w) ?_
  rw [List.getElem?_take_of_lt inside]
  exact here

/-- In any stretch of passes that together reach the length of the list, every entry is served. -/
theorem served {w : Nat} (hw : 0 < w) {xs : List α} {a : α} (mem : a ∈ xs) {n : Nat}
    (enough : xs.length ≤ n * w) (k : Nat) :
    ∃ j < n, a ∈ ((next w)^[k + j] xs).take w := by
  obtain ⟨i, hi, rfl⟩ := List.getElem_of_mem (mem_iterate_next (w := w) (k := k) |>.mpr mem)
  have length : ((next w)^[k] xs).length = xs.length := (iterate_next_perm w k xs).length_eq
  refine ⟨i / w, (Nat.div_lt_iff_lt_mul hw).mpr (by omega), ?_⟩
  rw [Nat.add_comm, Function.iterate_add_apply]
  exact getElem_mem_take hw _ hi

end Rotation
