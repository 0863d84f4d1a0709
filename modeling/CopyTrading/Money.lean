import Mathlib.Data.Rat.Floor
import Mathlib.Algebra.Order.Field.Rat
import Mathlib.Tactic.Linarith
import Mathlib.Tactic.NormNum
import Mathlib.Tactic.Positivity

namespace CopyTrading

/-- The numbers that decimals stand for. The operators of the plain model are exact on them; those
of `Calc` round. -/
abbrev Decimal := ℚ

abbrev Usd := ℚ

inductive MoneyError
  | priceOutOfRange (d : Decimal)
  | negativeQuantity (d : Decimal)
  | notFinite (text : String)
  deriving DecidableEq

structure Price where
  get : Decimal
  pos : 0 < get
  lt_one : get < 1
  deriving DecidableEq

/-- A share quantity. Direction lives in `Side`, never in a sign. -/
structure Qty where
  get : Decimal
  nonneg : 0 ≤ get
  deriving DecidableEq

def Price.new (d : Decimal) : Except MoneyError Price :=
  if h : 0 < d ∧ d < 1 then .ok ⟨d, h.1, h.2⟩ else .error (.priceOutOfRange d)

def Price.ofDecimal? (d : Decimal) : Option Price := (Price.new d).toOption

/-- Clamps into the tradable range `[0.0001, 0.9999]`. -/
def Price.saturating (d : Decimal) : Price :=
  ⟨max (1 / 10000) (min d (9999 / 10000)), lt_max_of_lt_left (by norm_num),
    max_lt (by norm_num) ((min_le_right _ _).trans_lt (by norm_num))⟩

def Qty.new (d : Decimal) : Except MoneyError Qty :=
  if h : 0 ≤ d then .ok ⟨d, h⟩ else .error (.negativeQuantity d)

def Qty.zero : Qty := ⟨0, le_rfl⟩

/-- At least nothing: `max(Decimal::ZERO)`. -/
def Qty.atLeastZero (d : Decimal) : Qty := ⟨max d 0, le_max_right _ _⟩

/-- A whole number of shares. -/
def Qty.whole (n : Nat) : Qty := ⟨n, Rat.natCast_nonneg⟩

def Qty.isZero (q : Qty) : Bool := q.get == 0

def Qty.notional (q : Qty) (p : Price) : Usd := q.get * p.get

def Qty.add (q r : Qty) : Qty := ⟨q.get + r.get, add_nonneg q.nonneg r.nonneg⟩

/-- A remaining quantity can never go negative. -/
def Qty.saturatingSub (q r : Qty) : Qty := ⟨max (q.get - r.get) 0, le_max_right _ _⟩

/-- Rounds down to a whole number of the venue's size increment. -/
def Qty.floorTo (q : Qty) (step : Decimal) : Qty :=
  if h : step ≤ 0 then q
  else ⟨⌊q.get / step⌋ * step, mul_nonneg
    (by exact_mod_cast Int.floor_nonneg.mpr (div_nonneg q.nonneg (not_le.mp h).le))
    (not_le.mp h).le⟩

@[ext] theorem Price.ext {p q : Price} (h : p.get = q.get) : p = q := by
  cases p; cases q; cases h; rfl

@[ext] theorem Qty.ext {q r : Qty} (h : q.get = r.get) : q = r := by
  cases q; cases r; cases h; rfl

@[simp] theorem Qty.zero_get : Qty.zero.get = 0 := rfl

@[simp] theorem Qty.whole_get (n : Nat) : (Qty.whole n).get = n := rfl

@[simp] theorem Qty.add_get (q r : Qty) : (q.add r).get = q.get + r.get := rfl

@[simp] theorem Qty.isZero_iff {q : Qty} : q.isZero = true ↔ q.get = 0 := beq_iff_eq

theorem Qty.isZero_false_iff {q : Qty} : q.isZero = false ↔ 0 < q.get := by
  rw [Bool.eq_false_iff, ne_eq, isZero_iff]
  exact ⟨fun some_ => lt_of_le_of_ne q.nonneg (Ne.symm some_), ne_of_gt⟩

theorem Qty.saturatingSub_get {q r : Qty} (h : r.get ≤ q.get) :
    (q.saturatingSub r).get = q.get - r.get :=
  max_eq_left (sub_nonneg.mpr h)

def sharesAt (u : Usd) (p : Price) : Qty := ⟨max (u / p.get) 0, le_max_right _ _⟩

inductive Side
  | buy
  | sell
  deriving DecidableEq

/-- One for a buy and minus one for a sell, for signed position arithmetic. -/
def Side.sign : Side → Decimal
  | .buy => 1
  | .sell => -1

def Side.asStr : Side → String
  | .buy => "BUY"
  | .sell => "SELL"

/-- Rounds to the tick on the side that is less aggressive. -/
def Price.roundToTick (p : Price) (tick : Decimal) (side : Side) : Price :=
  if tick ≤ 0 then p
  else match side with
    | .buy => .saturating (⌊p.get / tick⌋ * tick)
    | .sell => .saturating (⌈p.get / tick⌉ * tick)

/-- Realised slippage against a reference, in basis points; positive is worse for us. -/
def slippageBps (reference actual : Price) (side : Side) : Decimal :=
  if reference.get = 0 then 0
  else match side with
    | .buy => (actual.get - reference.get) / reference.get * 10000
    | .sell => (reference.get - actual.get) / reference.get * 10000

end CopyTrading
