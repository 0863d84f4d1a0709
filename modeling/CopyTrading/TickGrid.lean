import Mathlib.Algebra.Order.Floor.Ring
import Mathlib.Tactic.Linarith

namespace TickGrid

variable {α : Type} [Field α] [LinearOrder α] [IsStrictOrderedRing α] [FloorRing α]
  {step lo hi x : α}

def OnGrid (step x : α) : Prop := ∃ n : ℤ, x = n * step

/-- Some point of the grid lies between `lo` and `hi`. -/
def Between (step lo hi : α) : Prop := ∃ n : ℤ, lo ≤ n * step ∧ n * step ≤ hi

theorem fract_div_eq_zero_iff (pos : 0 < step) : Int.fract (x / step) = 0 ↔ OnGrid step x := by
  constructor
  · intro whole
    have eq : x / step = ⌊x / step⌋ := by
      have split := Int.floor_add_fract (x / step)
      rw [whole, add_zero] at split
      exact split.symm
    refine ⟨⌊x / step⌋, ?_⟩
    rw [← eq, div_mul_cancel₀ x pos.ne']
  · rintro ⟨n, rfl⟩
    rw [mul_div_cancel_right₀ _ pos.ne', Int.fract_intCast]

theorem floor_mul_le (pos : 0 < step) (x : α) : ⌊x / step⌋ * step ≤ x :=
  (le_div_iff₀ pos).mp (Int.floor_le _)

theorem le_ceil_mul (pos : 0 < step) (x : α) : x ≤ ⌈x / step⌉ * step :=
  (div_le_iff₀ pos).mp (Int.le_ceil _)

theorem between_iff_floor (pos : 0 < step) : Between step lo hi ↔ lo ≤ ⌊hi / step⌋ * step := by
  constructor
  · rintro ⟨n, low, high⟩
    have most : n ≤ ⌊hi / step⌋ := Int.le_floor.mpr ((le_div_iff₀ pos).mpr high)
    have cast : (n : α) ≤ ⌊hi / step⌋ := Int.cast_le.mpr most
    exact low.trans (mul_le_mul_of_nonneg_right cast pos.le)
  · intro low
    exact ⟨⌊hi / step⌋, low, floor_mul_le pos hi⟩

theorem between_iff_ceil (pos : 0 < step) : Between step lo hi ↔ ⌈lo / step⌉ * step ≤ hi := by
  constructor
  · rintro ⟨n, low, high⟩
    have least : ⌈lo / step⌉ ≤ n := Int.ceil_le.mpr ((div_le_iff₀ pos).mpr low)
    have cast : (⌈lo / step⌉ : α) ≤ n := Int.cast_le.mpr least
    exact (mul_le_mul_of_nonneg_right cast pos.le).trans high
  · intro high
    exact ⟨⌈lo / step⌉, le_ceil_mul pos lo, high⟩

/-- Rounding down and clamping ends on the grid at `t` or above exactly if the grid has a point
there that is still below. -/
theorem clamp_floor {low high t : α} (pos : 0 < step) (above : low ≤ x) (below : x ≤ high)
    (least : low ≤ t) :
    (OnGrid step (max low (min (⌊x / step⌋ * step) high)) ∧
      t ≤ max low (min (⌊x / step⌋ * step) high)) ↔ Between step t x := by
  have down := floor_mul_le pos x
  rw [min_eq_left (down.trans below)]
  constructor
  · rintro ⟨⟨n, eq⟩, reaches⟩
    rw [eq] at reaches
    refine ⟨n, reaches, ?_⟩
    rw [← eq]
    exact max_le above down
  · intro between
    have reaches := (between_iff_floor pos).mp between
    rw [max_eq_right (least.trans reaches)]
    exact ⟨⟨_, rfl⟩, reaches⟩

theorem clamp_ceil {low high t : α} (pos : 0 < step) (above : low ≤ x) (below : x ≤ high)
    (most : t ≤ high) :
    (OnGrid step (max low (min (⌈x / step⌉ * step) high)) ∧
      max low (min (⌈x / step⌉ * step) high) ≤ t) ↔ Between step x t := by
  have up := le_ceil_mul pos x
  rw [max_eq_right (above.trans (le_min up below))]
  constructor
  · rintro ⟨⟨n, eq⟩, reaches⟩
    rw [eq] at reaches
    refine ⟨n, ?_, reaches⟩
    rw [← eq]
    exact le_min up below
  · intro between
    have reaches := (between_iff_ceil pos).mp between
    rw [min_eq_left (reaches.trans most)]
    exact ⟨⟨_, rfl⟩, reaches⟩

end TickGrid
