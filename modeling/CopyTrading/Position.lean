import CopyTrading.Trade
import Mathlib.Tactic.FieldSimp
import Mathlib.Tactic.LinearCombination
import Mathlib.Tactic.Ring

namespace CopyTrading

structure Position where
  marketId : MarketId
  tokenId : TokenId
  outcome : String
  /-- Positive is long, negative is short. -/
  netQuantity : Decimal
  avgEntry : Decimal
  realizedPnl : Usd
  feesPaid : Usd
  markPrice : Option Price
  updatedAt : DateTime
  deriving DecidableEq

def Position.new (marketId : MarketId) (tokenId : TokenId) (outcome : String) (now : DateTime) :
    Position :=
  ⟨marketId, tokenId, outcome, 0, 0, 0, 0, none, now⟩

def Position.isFlat (p : Position) : Bool := p.netQuantity == 0

def Position.exposure (p : Position) : Usd :=
  |p.netQuantity * (p.markPrice.elim p.avgEntry Price.get)|

/-- `none` while unmarked: no mark is invented. -/
def Position.unrealizedPnl (p : Position) : Option Usd :=
  p.markPrice.map fun mark => p.netQuantity * (mark.get - p.avgEntry)

/-- What the current exposure cost. -/
def Position.costBasis (p : Position) : Usd := p.netQuantity * p.avgEntry

/-- What a fill of `signed` shares at `px` realises, and the average entry it leaves. -/
def Position.book (p : Position) (signed px : Decimal) : Decimal × Decimal :=
  let oldQty := p.netQuantity
  let newQty := oldQty + signed
  if oldQty = 0 ∨ (0 < oldQty ↔ 0 < signed) then
    -- opening or increasing: roll the weighted average, realise nothing
    (0, if newQty ≠ 0 then (oldQty * p.avgEntry + signed * px) / newQty else p.avgEntry)
  else
    let closing := min |signed| |oldQty|
    (if 0 < oldQty then closing * (px - p.avgEntry) else closing * (p.avgEntry - px),
      if newQty = 0 then 0
      -- crossed through zero: the residual is a new position
      else if ¬(0 < newQty ↔ 0 < oldQty) then px
      else p.avgEntry)

/-- Applies a fill and returns the realised PnL booked by this fill. -/
def Position.apply (p : Position) (side : Side) (qty : Qty) (price : Price) (fee : Usd)
    (at_ : DateTime) : Usd × Position :=
  let signed := side.sign * qty.get
  let (realized, avgEntry) := p.book signed price.get
  (realized - fee,
    { p with
      netQuantity := p.netQuantity + signed
      avgEntry := avgEntry
      realizedPnl := p.realizedPnl + realized - fee
      feesPaid := p.feesPaid + fee
      updatedAt := at_ })

def Position.mark (p : Position) (price : Price) (at_ : DateTime) : Position :=
  { p with markPrice := some price, updatedAt := at_ }

@[simp] theorem Position.new_costBasis (m : MarketId) (t : TokenId) (o : String) (now : DateTime) :
    (Position.new m t o now).costBasis = 0 := zero_mul _

/-- Adding on the side already held ends flat only from flat, by a fill of nothing. -/
theorem Position.flat_of_increase {p : Position} {signed : Decimal}
    (increase : p.netQuantity = 0 ∨ (0 < p.netQuantity ↔ 0 < signed))
    (flat : p.netQuantity + signed = 0) : p.netQuantity = 0 ∧ signed = 0 := by
  rcases increase with zero | sides
  · exact ⟨zero, by linarith⟩
  · rcases lt_trichotomy p.netQuantity 0 with neg | zero | pos
    · have := sides.mpr (by linarith)
      linarith
    · exact ⟨zero, by linarith⟩
    · have := sides.mp pos
      linarith

theorem Position.book_short {p : Position} {signed : Decimal} (px : Decimal)
    (short : p.netQuantity < 0) (buy : 0 < signed) :
    (p.netQuantity + signed) * (p.book signed px).2 =
      p.costBasis + signed * px + (p.book signed px).1 := by
  have reduce : ¬(p.netQuantity = 0 ∨ (0 < p.netQuantity ↔ 0 < signed)) := by
    rintro (zero | sides)
    · linarith
    · have := sides.mpr buy
      linarith
  unfold book costBasis
  simp only [if_neg reduce, if_neg (not_lt.mpr short.le), abs_of_pos buy, abs_of_neg short]
  by_cases flat : p.netQuantity + signed = 0
  · rw [if_pos flat, min_eq_left (by linarith)]
    linear_combination (-p.avgEntry) * flat
  · rw [if_neg flat]
    rcases lt_or_gt_of_ne flat with stays | crosses
    · rw [if_neg (not_not.mpr ⟨fun h => by linarith, fun h => by linarith⟩),
        min_eq_left (by linarith)]
      ring
    · rw [if_pos (fun h => absurd (h.mp crosses) (by linarith)), min_eq_right (by linarith)]
      ring

theorem Position.book_long {p : Position} {signed : Decimal} (px : Decimal)
    (long : 0 < p.netQuantity) (sell : signed ≤ 0) :
    (p.netQuantity + signed) * (p.book signed px).2 =
      p.costBasis + signed * px + (p.book signed px).1 := by
  have reduce : ¬(p.netQuantity = 0 ∨ (0 < p.netQuantity ↔ 0 < signed)) := by
    rintro (zero | sides)
    · linarith
    · have := sides.mp long
      linarith
  unfold book costBasis
  simp only [if_neg reduce, if_pos long, abs_of_nonpos sell, abs_of_pos long]
  by_cases flat : p.netQuantity + signed = 0
  · rw [if_pos flat, min_eq_left (by linarith)]
    linear_combination (-p.avgEntry) * flat
  · rw [if_neg flat]
    rcases lt_or_gt_of_ne flat with crosses | stays
    · rw [if_pos (fun h => absurd (h.mpr long) (by linarith)), min_eq_right (by linarith)]
      ring
    · rw [if_neg (not_not.mpr ⟨fun _ => long, fun _ => stays⟩), min_eq_left (by linarith)]
      ring

/-- The cost basis moves by what was paid and by what was realised, in every branch. -/
theorem Position.book_cost (p : Position) (signed px : Decimal) :
    (p.netQuantity + signed) * (p.book signed px).2 =
      p.costBasis + signed * px + (p.book signed px).1 := by
  by_cases increase : p.netQuantity = 0 ∨ (0 < p.netQuantity ↔ 0 < signed)
  · unfold book costBasis
    simp only [if_pos increase, add_zero]
    by_cases flat : p.netQuantity + signed = 0
    · obtain ⟨held, none⟩ := flat_of_increase increase flat
      rw [flat, held, none]
      ring
    · rw [if_pos flat]
      field_simp
  · rw [not_or] at increase
    obtain ⟨held, opposite⟩ := increase
    rcases lt_or_gt_of_ne held with short | long
    · refine p.book_short px short ?_
      by_contra h
      exact opposite ⟨fun l => absurd l (by linarith), fun s => absurd s h⟩
    · refine p.book_long px long ?_
      by_contra h
      exact opposite ⟨fun _ => by linarith, fun _ => long⟩

/-- One fill on a position: cost paid and profit realised account for the change of cost basis. -/
theorem Position.apply_costBasis (p : Position) (side : Side) (qty : Qty) (price : Price)
    (fee : Usd) (at_ : DateTime) :
    (p.apply side qty price fee at_).2.costBasis =
      p.costBasis + side.sign * qty.get * price.get + (p.apply side qty price fee at_).1 + fee := by
  have cost := p.book_cost (side.sign * qty.get) price.get
  show (p.netQuantity + _) * (p.book _ _).2 = _ + ((p.book _ _).1 - fee) + fee
  rw [cost]
  ring

end CopyTrading
