import CopyTrading.DailyBucket
import CopyTrading.PortfolioLedger

namespace CopyTrading

/-- The ways the application changes a portfolio, rehydration included. -/
inductive PortfolioChange
  | event (e : PortfolioEvent)
  | restore (cash : Usd) (positions : List Position) (realized fees : Usd)

def Portfolio.change (p : Portfolio) : PortfolioChange → Portfolio
  | .event e => p.step e
  | .restore cash positions realized fees => p.restore cash positions realized fees

/-- Some held position has no mark. -/
def Portfolio.Unmarked (p : Portfolio) : Prop :=
  ∃ t q, p.position t = some q ∧ q.netQuantity ≠ 0 ∧ q.markPrice = none

/-- A snapshot of `p` adds up, and its unrealised PnL is missing when a mark is. -/
def Portfolio.Coherent (p : Portfolio) (s : PnlSnapshot) : Prop :=
  s.equity = s.cash + s.positionValue ∧ (s.unrealizedPnl = none ↔ p.Unmarked)

theorem Portfolio.mem_activePositions {p : Portfolio} {q : Position} :
    q ∈ p.activePositions ↔ ∃ t, p.position t = some q ∧ q.netQuantity ≠ 0 := by
  unfold activePositions Position.isFlat
  rw [List.mem_filter, AList.mem_values]
  simp only [Bool.not_eq_true', beq_eq_false_iff_ne]
  exact exists_and_right.symm

theorem Portfolio.any_unmarked_iff (p : Portfolio) :
    (p.activePositions.any fun q => q.markPrice.isNone) = true ↔ p.Unmarked := by
  rw [List.any_eq_true]
  constructor
  · rintro ⟨q, held, unmarked⟩
    obtain ⟨t, stored, some_⟩ := mem_activePositions.mp held
    exact ⟨t, q, stored, some_, Option.isNone_iff_eq_none.mp unmarked⟩
  · rintro ⟨t, q, stored, some_, unmarked⟩
    exact ⟨q, mem_activePositions.mpr ⟨t, stored, some_⟩, Option.isNone_iff_eq_none.mpr unmarked⟩

theorem Portfolio.positionValue_eq_none_iff (p : Portfolio) :
    p.positionValue = none ↔ p.Unmarked := by
  rw [← any_unmarked_iff]
  unfold positionValue
  split
  next unmarked => exact iff_of_true rfl unmarked
  next marked => exact iff_of_false (Option.some_ne_none _) marked

theorem Portfolio.unrealizedPnl_eq_none_iff (p : Portfolio) :
    p.unrealizedPnl = none ↔ p.Unmarked := by
  rw [← any_unmarked_iff]
  unfold unrealizedPnl
  split
  next empty =>
    rw [List.isEmpty_iff.mp empty]
    exact iff_of_false (Option.some_ne_none _) Bool.false_ne_true
  next =>
    split
    next unmarked => exact iff_of_true rfl unmarked
    next marked => exact iff_of_false (Option.some_ne_none _) marked

/-- The two fallbacks of an unmarked book: nothing for the value, the cost for the equity. -/
theorem Portfolio.snapshot_equity_iff (p : Portfolio) (openOrders : Nat) (at_ : DateTime) :
    (p.snapshot openOrders at_).equity =
        (p.snapshot openOrders at_).cash + (p.snapshot openOrders at_).positionValue ↔
      ¬p.Unmarked ∨ p.positions.total Position.costBasis = 0 := by
  show p.cash + p.positionValue.getD (p.positions.total Position.costBasis) =
    p.cash + p.positionValue.getD 0 ↔ _
  rw [← positionValue_eq_none_iff, add_right_inj]
  cases value : p.positionValue with
  | none => simp
  | some v => simp

/-- In every state reached the snapshot is coherent exactly if no held position is unmarked, or the
costs of the held positions cancel. -/
theorem Portfolio.snapshot_coherent_iff (startingCash : Usd) (now : DateTime)
    (changes : List PortfolioChange) (openOrders : Nat) (at_ : DateTime) :
    let p := changes.foldl Portfolio.change (.new startingCash now)
    p.Coherent (p.snapshot openOrders at_) ↔
      ¬p.Unmarked ∨ p.positions.total Position.costBasis = 0 := by
  intro p
  have none : (p.snapshot openOrders at_).unrealizedPnl = none ↔ p.Unmarked :=
    p.unrealizedPnl_eq_none_iff
  unfold Coherent
  rw [and_iff_left none]
  exact p.snapshot_equity_iff openOrders at_

/-- One share bought for half a dollar and not marked: it is in the equity, and not in the value. -/
theorem snapshot_incoherent :
    ¬∀ (startingCash : Usd) (now : DateTime) (changes : List PortfolioChange) (openOrders : Nat)
      (at_ : DateTime), (changes.foldl Portfolio.change (.new startingCash now)).Coherent
        ((changes.foldl Portfolio.change (.new startingCash now)).snapshot openOrders at_) := by
  intro coherent
  obtain ⟨adds, _⟩ := coherent 1000 0 [.event (.applyFill (.oneShare 0 0) "Yes")] 0 0
  revert adds
  decide +kernel

end CopyTrading
