import Mathlib.Algebra.Order.Field.Rat
import Mathlib.Algebra.Order.Ring.Abs
import Mathlib.Data.Rat.Floor
import Mathlib.Tactic.Linarith
import Mathlib.Tactic.NormNum
import Mathlib.Tactic.Positivity

/-- The nearest integer, and of two the even one. -/
def roundHalfEven (d : ℚ) : Int :=
  let low := ⌊d⌋
  let rest := d - low
  if rest < 1 / 2 then low
  else if rest > 1 / 2 then low + 1
  else if low % 2 = 0 then low else low + 1

theorem roundHalfEven_spec (d : ℚ) :
    |d - roundHalfEven d| < 1 / 2 ∨ |d - roundHalfEven d| = 1 / 2 ∧ roundHalfEven d % 2 = 0 := by
  have low := Int.floor_le d
  have high := Int.lt_floor_add_one d
  unfold roundHalfEven
  simp only
  split
  next less =>
    left
    rw [abs_of_nonneg (by linarith)]
    exact less
  next =>
    split
    next more =>
      left
      push_cast
      rw [abs_of_neg (by linarith)]
      linarith
    next le ge =>
      have half : d - ⌊d⌋ = 1 / 2 := le_antisymm (not_lt.mp ge) (not_lt.mp le)
      right
      split
      next even =>
        rw [half]
        exact ⟨by norm_num, even⟩
      next odd =>
        constructor
        · push_cast
          rw [abs_of_neg (by linarith)]
          linarith
        · omega

theorem roundHalfEven_error (d : ℚ) : |d - roundHalfEven d| ≤ 1 / 2 := by
  rcases roundHalfEven_spec d with less | ⟨half, _⟩
  · exact less.le
  · exact half.le

/-- What is nearer than half to an integer is rounded to it. -/
theorem roundHalfEven_eq_of_lt {d : ℚ} {n : Int} (h : |d - n| < 1 / 2) : roundHalfEven d = n := by
  have error := roundHalfEven_error d
  have near : |((n - roundHalfEven d : Int) : ℚ)| < 1 := by
    rw [abs_lt] at h ⊢
    rw [abs_le] at error
    push_cast
    constructor <;> linarith
  rw [← Int.cast_abs] at near
  have small : |n - roundHalfEven d| < 1 := by exact_mod_cast near
  have same := Int.abs_lt_one_iff.mp small
  omega

theorem roundHalfEven_eq_of_even {d : ℚ} {n : Int} (h : |d - n| = 1 / 2) (even : n % 2 = 0) :
    roundHalfEven d = n := by
  rcases roundHalfEven_spec d with less | ⟨half, even'⟩
  · -- the nearest integer would be nearer than half to two integers
    have gap : |((n - roundHalfEven d : Int) : ℚ)| < 1 := by
      have split_ : ((n - roundHalfEven d : Int) : ℚ) = (d - roundHalfEven d) - (d - n) := by
        push_cast
        ring
      rw [split_]
      exact (abs_sub _ _).trans_lt (by linarith)
    rw [← Int.cast_abs] at gap
    have small : |n - roundHalfEven d| < 1 := by exact_mod_cast gap
    have same := Int.abs_lt_one_iff.mp small
    omega
  · have gap : |((n - roundHalfEven d : Int) : ℚ)| ≤ 1 := by
      have split_ : ((n - roundHalfEven d : Int) : ℚ) = (d - roundHalfEven d) - (d - n) := by
        push_cast
        ring
      rw [split_]
      exact (abs_sub _ _).trans (by linarith)
    rw [← Int.cast_abs] at gap
    have small : |n - roundHalfEven d| ≤ 1 := by exact_mod_cast gap
    have bounds := abs_le.mp small
    omega

@[simp] theorem roundHalfEven_intCast (n : Int) : roundHalfEven (n : ℚ) = n :=
  roundHalfEven_eq_of_lt (by simp)

theorem roundHalfEven_neg (d : ℚ) : roundHalfEven (-d) = -roundHalfEven d := by
  have mirror : |-d - ((-roundHalfEven d : Int) : ℚ)| = |d - roundHalfEven d| := by
    rw [← abs_neg]
    congr 1
    push_cast
    ring
  rcases roundHalfEven_spec d with less | ⟨half, even⟩
  · exact roundHalfEven_eq_of_lt (mirror ▸ less)
  · exact roundHalfEven_eq_of_even (mirror ▸ half) (by omega)

theorem roundHalfEven_mono {d e : ℚ} (h : d ≤ e) : roundHalfEven d ≤ roundHalfEven e := by
  by_contra crossed
  have step : roundHalfEven e + 1 ≤ roundHalfEven d := by omega
  have step' : (roundHalfEven e : ℚ) + 1 ≤ roundHalfEven d := by exact_mod_cast step
  have low := abs_le.mp (roundHalfEven_error d)
  have high := abs_le.mp (roundHalfEven_error e)
  -- both are half way between the two integers, of which only one is even
  have same : d = e := le_antisymm h (by linarith)
  rw [same] at crossed
  exact crossed le_rfl

theorem lt_roundHalfEven {d : ℚ} {n : Int} (h : n + 1 / 2 < d) : n < roundHalfEven d := by
  have error := abs_le.mp (roundHalfEven_error d)
  have above : (n : ℚ) < roundHalfEven d := by linarith
  exact_mod_cast above

theorem le_of_le_roundHalfEven {d : ℚ} {n : Int} (h : n ≤ roundHalfEven d) : n - 1 / 2 ≤ d := by
  have error := abs_le.mp (roundHalfEven_error d)
  have cast : (n : ℚ) ≤ roundHalfEven d := by exact_mod_cast h
  linarith

/-- Decimal numbers of a bounded integer and a bounded number of places. -/
structure DecimalFormat where
  bound : ℕ
  places : ℕ
  /-- What is rounded up to the bound is rounded up with one place less, too. -/
  carries : 6 ≤ bound % 10

namespace DecimalFormat

variable {f : DecimalFormat} {x y a b : ℚ} {n s : ℕ}

/-- What the format can hold. -/
def Holds (f : DecimalFormat) (x : ℚ) : Prop :=
  ∃ m : ℤ, ∃ s : ℕ, |m| < f.bound ∧ s ≤ f.places ∧ x = m / 10 ^ s

/-- The integer that stands for `x` with `s` places. -/
def mantissa (x : ℚ) (s : ℕ) : Int := roundHalfEven (x * 10 ^ s)

def Fits (f : DecimalFormat) (x : ℚ) (s : ℕ) : Prop := |mantissa x s| < f.bound

instance (f : DecimalFormat) (x : ℚ) (s : ℕ) : Decidable (f.Fits x s) :=
  inferInstanceAs (Decidable (_ < _))

/-- Rounds to as many places as fit, from `n` down. -/
def roundFrom (f : DecimalFormat) (x : ℚ) : ℕ → Option ℚ
  | 0 => if f.Fits x 0 then some (mantissa x 0) else none
  | s + 1 => if f.Fits x (s + 1) then some (mantissa x (s + 1) / 10 ^ (s + 1)) else f.roundFrom x s

/-- What is held of an exact result; `none` where even its whole part is too large. -/
def round (f : DecimalFormat) (x : ℚ) : Option ℚ := f.roundFrom x f.places

theorem roundFrom_eq_some : f.roundFrom x n = some a ↔ ∃ s ≤ n, f.Fits x s ∧
    (∀ t, s < t → t ≤ n → ¬f.Fits x t) ∧ a = mantissa x s / 10 ^ s := by
  induction n with
  | zero =>
    unfold roundFrom
    constructor
    · intro h
      obtain ⟨fits, same⟩ := Option.ite_none_right_eq_some.mp h
      refine ⟨0, le_rfl, fits, by omega, ?_⟩
      rw [pow_zero, div_one]
      exact (Option.some.inj same).symm
    · rintro ⟨s, none_, fits, _, rfl⟩
      obtain rfl := Nat.le_zero.mp none_
      rw [if_pos fits, pow_zero, div_one]
  | succ n ih =>
    unfold roundFrom
    by_cases fits : f.Fits x (n + 1)
    · rw [if_pos fits]
      constructor
      · intro h
        exact ⟨n + 1, le_rfl, fits, by omega, (Option.some.inj h).symm⟩
      · rintro ⟨s, le, _, most, rfl⟩
        rcases Nat.lt_or_ge s (n + 1) with less | all
        · exact absurd fits (most (n + 1) less le_rfl)
        · rw [le_antisymm le all]
    · rw [if_neg fits, ih]
      constructor
      · rintro ⟨s, le, held, most, same⟩
        refine ⟨s, by omega, held, ?_, same⟩
        intro t less le'
        rcases Nat.lt_or_ge t (n + 1) with below | top
        · exact most t less (by omega)
        · rw [le_antisymm le' top]
          exact fits
      · rintro ⟨s, le, held, most, same⟩
        have other : s ≠ n + 1 := by
          rintro rfl
          exact fits held
        exact ⟨s, by omega, held, fun t less le' => most t less (by omega), same⟩

/-- With a number of places that fits, the search ends there at the latest. -/
theorem roundFrom_of_fits (fits : f.Fits x s) (le : s ≤ n) :
    ∃ t, s ≤ t ∧ f.roundFrom x n = some ((mantissa x t : ℚ) / 10 ^ t) := by
  induction n with
  | zero =>
    obtain rfl := Nat.le_zero.mp le
    exact ⟨0, le_rfl, by simp [roundFrom, fits]⟩
  | succ n ih =>
    unfold roundFrom
    split
    next => exact ⟨n + 1, le, rfl⟩
    next wide =>
      have other : s ≠ n + 1 := by
        rintro rfl
        exact wide fits
      exact ih (by omega)

theorem fits_of_le {x y : ℚ} (low : 0 ≤ x) (h : x ≤ y) (fits : f.Fits y s) : f.Fits x s := by
  have scale : (0 : ℚ) ≤ 10 ^ s := by positivity
  have nonneg : 0 ≤ mantissa x s := by
    have zero : mantissa 0 s = 0 := by
      unfold mantissa
      rw [zero_mul]
      exact roundHalfEven_intCast 0
    rw [← zero]
    exact roundHalfEven_mono (mul_le_mul_of_nonneg_right low scale)
  have le : mantissa x s ≤ mantissa y s := roundHalfEven_mono (mul_le_mul_of_nonneg_right h scale)
  unfold Fits at fits ⊢
  rw [abs_of_nonneg nonneg]
  exact le.trans_lt ((le_abs_self _).trans_lt fits)

theorem fits_abs : f.Fits |x| s ↔ f.Fits x s := by
  rcases abs_cases x with ⟨same, _⟩ | ⟨same, _⟩
  · rw [same]
  · rw [same]
    unfold Fits mantissa
    rw [neg_mul, roundHalfEven_neg, abs_neg]

/-- Whatever fits with one place more is no larger than what needs one place less. -/
theorem le_mantissa_of_not_fits (low : 0 ≤ y) (wide : ¬f.Fits y (s + 1)) {m : Int}
    (fits : m < f.bound) : (m : ℚ) / 10 ≤ mantissa y s := by
  have scale : (0 : ℚ) ≤ y * 10 ^ (s + 1) := by positivity
  have nonneg : 0 ≤ mantissa y (s + 1) := by
    have mono := roundHalfEven_mono scale
    rw [← Int.cast_zero, roundHalfEven_intCast] at mono
    exact mono
  have large : (f.bound : Int) ≤ mantissa y (s + 1) := by
    have := not_lt.mp wide
    rw [abs_of_nonneg nonneg] at this
    exact this
  have half := le_of_le_roundHalfEven large
  have carries := f.carries
  obtain ⟨k, least, most⟩ : ∃ k : Int, 10 * k + 6 ≤ f.bound ∧ m ≤ 10 * (k + 1) :=
    ⟨f.bound / 10, by omega, by omega⟩
  have least' : 10 * (k : ℚ) + 6 ≤ ((f.bound : Int) : ℚ) := by exact_mod_cast least
  have most' : (m : ℚ) ≤ 10 * (k + 1) := by exact_mod_cast most
  have up : k < mantissa y s := by
    refine lt_roundHalfEven ?_
    rw [pow_succ, ← mul_assoc] at half
    linarith
  have up' : (k : ℚ) + 1 ≤ mantissa y s := by exact_mod_cast up
  linarith

theorem round_mono_of_nonneg (low : 0 ≤ x) (h : x ≤ y) (hx : f.round x = some a)
    (hy : f.round y = some b) : a ≤ b := by
  obtain ⟨s, _, fits, most, rfl⟩ := roundFrom_eq_some.mp hx
  obtain ⟨t, le, fits', most', rfl⟩ := roundFrom_eq_some.mp hy
  have finer : t ≤ s := by
    by_contra coarser
    exact most t (not_le.mp coarser) le (fits_of_le low h fits')
  have scale : ∀ k : ℕ, (0 : ℚ) < 10 ^ k := fun k => by positivity
  rcases finer.eq_or_lt with rfl | less
  · have mono : mantissa x t ≤ mantissa y t :=
      roundHalfEven_mono (mul_le_mul_of_nonneg_right h (scale t).le)
    exact div_le_div_of_nonneg_right (by exact_mod_cast mono) (scale t).le
  · have nonneg : 0 ≤ mantissa x s := by
      have mono := roundHalfEven_mono (mul_nonneg low (scale s).le)
      rw [← Int.cast_zero, roundHalfEven_intCast] at mono
      exact mono
    have small : mantissa x s < f.bound := (le_abs_self _).trans_lt fits
    have above := le_mantissa_of_not_fits (low.trans h)
      (most' (t + 1) (Nat.lt_succ_self t) (by omega)) small
    have power : (10 : ℚ) ^ (t + 1) ≤ 10 ^ s := pow_le_pow_right₀ (by norm_num) less
    calc (mantissa x s : ℚ) / 10 ^ s ≤ mantissa x s / 10 ^ (t + 1) :=
          div_le_div_of_nonneg_left (by exact_mod_cast nonneg) (scale _) power
      _ = mantissa x s / 10 / 10 ^ t := by rw [pow_succ, div_div, mul_comm]
      _ ≤ mantissa y t / 10 ^ t := div_le_div_of_nonneg_right above (scale t).le

theorem round_neg : f.round (-x) = (f.round x).map Neg.neg := by
  have mirror : ∀ s, mantissa (-x) s = -mantissa x s := by
    intro s
    unfold mantissa
    rw [neg_mul, roundHalfEven_neg]
  have fits : ∀ s, f.Fits (-x) s ↔ f.Fits x s := by
    intro s
    unfold Fits
    rw [mirror, abs_neg]
  have from_ : ∀ n, f.roundFrom (-x) n = (f.roundFrom x n).map Neg.neg := by
    intro n
    induction n with
    | zero =>
      unfold roundFrom
      rw [if_congr (fits 0) rfl rfl, mirror]
      split <;> simp
    | succ n ih =>
      unfold roundFrom
      rw [if_congr (fits (n + 1)) rfl rfl, mirror, ih]
      split <;> simp [neg_div]
  exact from_ f.places

theorem round_of_holds (h : f.Holds x) : f.round x = some x := by
  obtain ⟨m, s, small, le, rfl⟩ := h
  have exact_ : ∀ t, s ≤ t → (m : ℚ) / 10 ^ s * 10 ^ t = ((m * 10 ^ (t - s) : Int) : ℚ) := by
    intro t more
    obtain ⟨k, rfl⟩ := Nat.exists_eq_add_of_le more
    rw [Nat.add_sub_cancel_left, pow_add]
    push_cast
    field_simp
  have whole : ∀ t, s ≤ t → mantissa ((m : ℚ) / 10 ^ s) t = m * 10 ^ (t - s) := by
    intro t more
    unfold mantissa
    rw [exact_ t more, roundHalfEven_intCast]
  have fits : f.Fits ((m : ℚ) / 10 ^ s) s := by
    unfold Fits
    rw [whole s le_rfl, Nat.sub_self, pow_zero, mul_one]
    exact small
  obtain ⟨t, more, rounded⟩ := roundFrom_of_fits fits le
  unfold round
  rw [rounded, whole t more, ← exact_ t more, mul_div_assoc, div_self (by positivity), mul_one]

theorem holds_of_round (h : f.round x = some a) : f.Holds a := by
  obtain ⟨s, le, fits, _, rfl⟩ := roundFrom_eq_some.mp h
  exact ⟨mantissa x s, s, fits, le, rfl⟩

theorem round_eq_self_iff : f.round x = some x ↔ f.Holds x :=
  ⟨holds_of_round, round_of_holds⟩

instance (f : DecimalFormat) (x : ℚ) : Decidable (f.Holds x) :=
  decidable_of_iff (f.round x = some x) round_eq_self_iff

theorem holds_zero (f : DecimalFormat) : f.Holds 0 := by
  have carries := f.carries
  refine ⟨0, 0, ?_, Nat.zero_le _, by simp⟩
  rw [abs_zero]
  omega

theorem Holds.neg (h : f.Holds x) : f.Holds (-x) := by
  obtain ⟨m, s, small, le, rfl⟩ := h
  refine ⟨-m, s, by rwa [abs_neg], le, ?_⟩
  push_cast
  ring

theorem round_nonneg (low : 0 ≤ x) (h : f.round x = some a) : 0 ≤ a :=
  round_mono_of_nonneg le_rfl low (round_of_holds f.holds_zero) h

theorem round_nonpos (low : x ≤ 0) (h : f.round x = some a) : a ≤ 0 := by
  have mirrored : f.round (-x) = some (-a) := by
    rw [round_neg, h]
    rfl
  have := round_nonneg (neg_nonneg.mpr low) mirrored
  linarith

/-- Rounding keeps the order. -/
theorem round_mono (h : x ≤ y) (hx : f.round x = some a) (hy : f.round y = some b) : a ≤ b := by
  rcases le_total 0 x with low | neg
  · exact round_mono_of_nonneg low h hx hy
  · rcases le_total 0 y with high | neg'
    · exact (round_nonpos neg hx).trans (round_nonneg high hy)
    · have hx' : f.round (-x) = some (-a) := by
        rw [round_neg, hx]
        rfl
      have hy' : f.round (-y) = some (-b) := by
        rw [round_neg, hy]
        rfl
      have := round_mono_of_nonneg (neg_nonneg.mpr neg') (neg_le_neg h) hy' hx'
      linarith

theorem le_of_round_le (held : f.Holds b) (h : x ≤ b) (hx : f.round x = some a) : a ≤ b :=
  round_mono h hx (round_of_holds held)

theorem le_round_of_le (held : f.Holds b) (h : b ≤ x) (hx : f.round x = some a) : b ≤ a :=
  round_mono h (round_of_holds held) hx

/-- Where all places fit, rounding moves a result by at most half of the last one. -/
theorem round_error (fits : f.Fits x f.places) (h : f.round x = some a) :
    |x - a| ≤ 1 / 2 / 10 ^ f.places := by
  obtain ⟨s, le, _, most, rfl⟩ := roundFrom_eq_some.mp h
  have all : s = f.places := by
    by_contra other
    exact most f.places (lt_of_le_of_ne le other) le_rfl fits
  rw [all]
  have scale : (0 : ℚ) < 10 ^ f.places := by positivity
  have error := roundHalfEven_error (x * 10 ^ f.places)
  rw [le_div_iff₀ scale, ← abs_of_pos scale, ← abs_mul, abs_of_pos scale, sub_mul,
    div_mul_cancel₀ _ scale.ne']
  exact error

end DecimalFormat
