import CopyTrading.Portfolio

namespace CopyTrading

/-- The ways a portfolio changes while it runs. -/
inductive PortfolioEvent
  | applyFill (f : Fill) (outcomeName : String)
  | mark (t : TokenId) (price : Price) (at_ : DateTime)
  | attributeOrder (order : OrderId) (wallet : Address)
  | reset (now : DateTime)

def Portfolio.step (p : Portfolio) : PortfolioEvent → Portfolio
  | .applyFill f outcomeName => (p.applyFill f outcomeName).2
  | .mark t price at_ => p.mark t price at_
  | .attributeOrder order wallet => p.attributeOrder order wallet
  | .reset now => p.reset now

/-- Cash plus what the held positions cost is the starting cash plus what was realised. -/
def Portfolio.Balanced (p : Portfolio) : Prop :=
  p.cash + p.positions.total Position.costBasis = p.startingCash + p.realized

theorem Portfolio.new_balanced (startingCash : Usd) (now : DateTime) :
    (Portfolio.new startingCash now).Balanced := by
  show startingCash + 0 = startingCash + 0
  rfl

theorem Portfolio.applyFill_balanced {p : Portfolio} (h : p.Balanced) (f : Fill)
    (outcomeName : String) : (p.applyFill f outcomeName).2.Balanced := by
  unfold Balanced at h ⊢
  set held := (p.positions.lookup f.tokenId).getD
    (.new f.marketId f.tokenId outcomeName f.filledAt) with hheld
  have cost := held.apply_costBasis f.side f.quantity f.price f.fee f.filledAt
  have before : p.positions.total Position.costBasis =
      held.costBasis + (p.positions.erase f.tokenId).total Position.costBasis := by
    rw [AList.total_eq_lookup_add_erase _ p.positions f.tokenId, hheld]
    cases p.positions.lookup f.tokenId with
    | none => simp
    | some q => simp
  have cash := f.cashDelta_eq
  show p.cash + f.cashDelta + (p.positions.insert f.tokenId
      (held.apply f.side f.quantity f.price f.fee f.filledAt).2).total Position.costBasis =
    p.startingCash + (p.realized + (held.apply f.side f.quantity f.price f.fee f.filledAt).1)
  rw [AList.total_insert_eq, cost, cash]
  unfold Fill.signedQty
  linarith

theorem Portfolio.mark_balanced {p : Portfolio} (h : p.Balanced) (t : TokenId) (price : Price)
    (at_ : DateTime) : (p.mark t price at_).Balanced := by
  unfold mark
  cases held : p.positions.lookup t with
  | none => exact h
  | some q =>
    have same : (p.positions.insert t (q.mark price at_)).total Position.costBasis =
        p.positions.total Position.costBasis := by
      apply AList.total_insert_same
      rw [held]
      rfl
    show p.cash + (p.positions.insert t (q.mark price at_)).total Position.costBasis =
      p.startingCash + p.realized
    rw [same]
    exact h

theorem Portfolio.step_balanced {p : Portfolio} (h : p.Balanced) (e : PortfolioEvent) :
    (p.step e).Balanced := by
  cases e with
  | applyFill f outcomeName => exact applyFill_balanced h f outcomeName
  | mark t price at_ => exact mark_balanced h t price at_
  | attributeOrder order wallet => exact h
  | reset now => exact new_balanced p.startingCash now

theorem Portfolio.step_startingCash (p : Portfolio) (e : PortfolioEvent) :
    (p.step e).startingCash = p.startingCash := by
  cases e with
  | applyFill f outcomeName => rfl
  | mark t price at_ =>
    show (p.mark t price at_).startingCash = _
    unfold mark
    cases p.positions.lookup t <;> rfl
  | attributeOrder order wallet => rfl
  | reset now => rfl

theorem Portfolio.run_balanced (events : List PortfolioEvent) {p : Portfolio} (h : p.Balanced) :
    (events.foldl Portfolio.step p).Balanced ∧
      (events.foldl Portfolio.step p).startingCash = p.startingCash := by
  induction events generalizing p with
  | nil => exact ⟨h, rfl⟩
  | cons e events ih =>
    obtain ⟨balanced, same⟩ := ih (p.step_balanced h e)
    exact ⟨balanced, same.trans (p.step_startingCash e)⟩

theorem sum_costBasis_active (qs : List Position) :
    ((qs.filter fun q => !q.isFlat).map Position.costBasis).sum =
      (qs.map Position.costBasis).sum := by
  induction qs with
  | nil => rfl
  | cons q qs ih =>
    rw [List.filter_cons, List.map_cons, List.sum_cons, ← ih]
    by_cases flat : q.netQuantity = 0
    · simp [Position.isFlat, Position.costBasis, flat]
    · simp [Position.isFlat, flat]

theorem sum_marked_value (qs : List Position) (marked : ∀ q ∈ qs, q.markPrice ≠ none) :
    (qs.map fun q => q.netQuantity * q.markPrice.elim 0 Price.get).sum =
      (qs.map Position.costBasis).sum + (qs.filterMap Position.unrealizedPnl).sum := by
  induction qs with
  | nil => simp
  | cons q qs ih =>
    have rest := ih fun r hr => marked r (List.mem_cons_of_mem _ hr)
    obtain ⟨m, hm⟩ := Option.ne_none_iff_exists'.mp (marked q List.mem_cons_self)
    have gain : q.unrealizedPnl = some (q.netQuantity * (m.get - q.avgEntry)) := by
      unfold Position.unrealizedPnl
      rw [hm]
      rfl
    rw [List.map_cons, List.map_cons, List.sum_cons, List.sum_cons,
      List.filterMap_cons_some gain, List.sum_cons, rest, hm]
    unfold Position.costBasis
    simp only [Option.elim_some]
    ring

/-- Equity and PnL differ by cash at cost, whether or not the book is marked. -/
theorem Portfolio.equity_eq (p : Portfolio) :
    p.equity = p.cash + p.positions.total Position.costBasis + p.unrealizedPnl.getD 0 := by
  unfold equity positionValue unrealizedPnl
  by_cases unmarked : p.activePositions.any fun q => q.markPrice.isNone
  · have some_ : p.activePositions.isEmpty = false := by
      obtain ⟨q, hq, _⟩ := List.any_eq_true.mp unmarked
      simpa using List.ne_nil_of_mem hq
    simp [unmarked, some_]
  · have marked : ∀ q ∈ p.activePositions, q.markPrice ≠ none := by
      intro q hq none
      exact unmarked (List.any_eq_true.mpr ⟨q, hq, by rw [none]; rfl⟩)
    have value := sum_marked_value p.activePositions marked
    have cost : (p.activePositions.map Position.costBasis).sum =
        p.positions.total Position.costBasis := sum_costBasis_active p.positions.values
    simp only [unmarked, Bool.false_eq_true, if_false]
    rw [Option.getD_some, value, cost]
    by_cases empty : p.activePositions.isEmpty
    · rw [List.isEmpty_iff.mp empty]
      simp
    · simp only [empty, Bool.false_eq_true, if_false, Option.getD_some]
      ring

/-- The books of every run of fills, marks and resets balance. -/
theorem ledger_identity (startingCash : Usd) (now : DateTime) (events : List PortfolioEvent) :
    (events.foldl Portfolio.step (.new startingCash now)).cash +
        (events.foldl Portfolio.step (.new startingCash now)).positions.total
          Position.costBasis =
      startingCash + (events.foldl Portfolio.step (.new startingCash now)).realized ∧
    (events.foldl Portfolio.step (.new startingCash now)).equity - startingCash =
      (events.foldl Portfolio.step (.new startingCash now)).totalPnl := by
  obtain ⟨balanced, same⟩ :=
    Portfolio.run_balanced events (Portfolio.new_balanced startingCash now)
  unfold Portfolio.Balanced at balanced
  rw [same] at balanced
  refine ⟨balanced, ?_⟩
  rw [Portfolio.equity_eq, Portfolio.totalPnl, balanced]
  show startingCash + _ + _ - startingCash = _
  ring

end CopyTrading
