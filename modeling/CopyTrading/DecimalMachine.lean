import CopyTrading.Calculation
import CopyTrading.DecimalFormat
import CopyTrading.Money

namespace CopyTrading

/-- `rust_decimal::Decimal`: an integer of 96 bits with up to 28 places. -/
def rustDecimal : DecimalFormat := ⟨2 ^ 96, 28, by norm_num⟩

/-- What a decimal can hold. -/
def Representable (d : Decimal) : Prop := rustDecimal.Holds d

instance (d : Decimal) : Decidable (Representable d) :=
  inferInstanceAs (Decidable (rustDecimal.Holds d))

theorem rustDecimal_places : rustDecimal.places = 28 := rfl

/-- Up to one, rounding moves a result by at most half of the last place. -/
theorem exists_round {x : Decimal} (h : |x| ≤ 1) :
    ∃ r, rustDecimal.round x = some r ∧ |x - r| ≤ 1 / 2 / 10 ^ 28 := by
  have one : rustDecimal.Fits 1 rustDecimal.places := by decide +kernel
  have fits := DecimalFormat.fits_of_le (abs_nonneg x) h one
  rw [DecimalFormat.fits_abs] at fits
  obtain ⟨t, _, rounds⟩ := DecimalFormat.roundFrom_of_fits fits le_rfl
  have error := DecimalFormat.round_error fits rounds
  rw [rustDecimal_places] at error
  exact ⟨_, rounds, error⟩

/-- What an operator of the program works on. -/
inductive Operands
  /-- A sum or a difference of numbers of shares. -/
  | sizes
  /-- A sum of fees. -/
  | fees
  /-- A sum of realised profits. -/
  | profits
  /-- What moves the account: a gain, a day's profit, its cash and its equity. -/
  | account
  /-- Anything else: a product, a quotient, a sum of notionals, prices or exposures. -/
  | other
  deriving DecidableEq

/-- A function of the program, with each of its decimal operators spelled out. -/
abbrev Calc (α : Type) := Calculation Operands Decimal α

namespace Calc

def sizes (x : Decimal) : Calc Decimal := .lift .sizes x

def fees (x : Decimal) : Calc Decimal := .lift .fees x

def profits (x : Decimal) : Calc Decimal := .lift .profits x

def account (x : Decimal) : Calc Decimal := .lift .account x

def op (x : Decimal) : Calc Decimal := .lift .other x

/-- The operators as `rust_decimal` runs them: the exact result, rounded half to even to what a
decimal can hold, with a panic where not even the whole part fits. Comparisons, negation, `floor`
and `ceil` are exact. -/
def rounded : Operands → Decimal → Option Decimal := fun _ => rustDecimal.round

/-- No operator of the computation has to round. -/
def Unrounded {α : Type} (p : Calc α) : Prop :=
  p.Along (fun _ => some) fun _ => Representable

section Unrounded

variable {α β : Type} {p : Calc α} {f : α → Calc β}

instance (p : Calc α) : Decidable p.Unrounded :=
  inferInstanceAs (Decidable (p.Along (fun _ => some) fun _ => Representable))

theorem Unrounded.run (h : p.Unrounded) : Calculation.run rounded p = some p.value :=
  Calculation.run_of_along h fun _ _ => DecimalFormat.round_of_holds

end Unrounded

/-- In a run with rounding, no result of these kinds has to be rounded. -/
def Keeps {α : Type} (kinds : Operands → Prop) (p : Calc α) : Prop :=
  p.Along rounded fun k x => kinds k → Representable x

section Keeps

variable {α : Type} {p : Calc α} {kinds : Operands → Prop} [DecidablePred kinds]

instance (p : Calc α) : Decidable (p.Keeps kinds) :=
  inferInstanceAs (Decidable (p.Along rounded fun k x => kinds k → Representable x))

/-- The machine that rounds, but ends where a result of these kinds has to be rounded. -/
def guarded (kinds : Operands → Prop) [DecidablePred kinds] :
    Operands → Decimal → Option Decimal :=
  fun k x => if kinds k ∧ ¬Representable x then none else rustDecimal.round x

theorem Keeps.run (h : p.Keeps kinds) :
    Calculation.run rounded p = Calculation.run (guarded kinds) p := by
  refine Calculation.run_congr h fun k x held => ?_
  exact (if_neg fun both => both.2 (held both.1)).symm

theorem guarded_eq_some {k : Operands} {x y : Decimal} (h : guarded kinds k x = some y) :
    rustDecimal.round x = some y ∧ (kinds k → y = x) := by
  obtain ⟨free, rounds⟩ := Option.ite_none_left_eq_some.mp h
  refine ⟨rounds, fun kind => ?_⟩
  by_cases held : Representable x
  · exact Option.some.inj (rounds.symm.trans (DecimalFormat.round_of_holds held))
  · exact absurd ⟨kind, held⟩ free

theorem guarded_rounded {a : α} (h : Calculation.run (guarded kinds) p = some a) :
    Calculation.run rounded p = some a :=
  Calculation.run_mono (fun _ _ _ held => (guarded_eq_some held).1) h

theorem op_guarded (exact_ : kinds .other) {x y : Decimal}
    (h : (op x).run (guarded kinds) = some y) : y = x := by
  unfold op at h
  rw [Calculation.run_lift] at h
  exact (guarded_eq_some h).2 exact_

theorem sizes_guarded (exact_ : kinds .sizes) {x y : Decimal}
    (h : (sizes x).run (guarded kinds) = some y) : y = x := by
  unfold sizes at h
  rw [Calculation.run_lift] at h
  exact (guarded_eq_some h).2 exact_

theorem fees_guarded (exact_ : kinds .fees) {x y : Decimal}
    (h : (fees x).run (guarded kinds) = some y) : y = x := by
  unfold fees at h
  rw [Calculation.run_lift] at h
  exact (guarded_eq_some h).2 exact_

end Keeps

end Calc

end CopyTrading
