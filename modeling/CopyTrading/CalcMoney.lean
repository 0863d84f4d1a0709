import CopyTrading.Book
import CopyTrading.DecimalMachine

namespace CopyTrading

theorem Price.ofDecimal?_eq_some {d : Decimal} {p : Price} (h : Price.ofDecimal? d = some p) :
    p.get = d := by
  unfold ofDecimal? Price.new at h
  split at h
  next =>
    cases h
    rfl
  next => cases h

theorem Price.ofDecimal?_of {d : Decimal} (pos : 0 < d) (lt_one : d < 1) :
    Price.ofDecimal? d = some ⟨d, pos, lt_one⟩ := by
  unfold ofDecimal? Price.new
  rw [dif_pos ⟨pos, lt_one⟩]
  rfl

/-- A quantity of which 0.95 is no decimal any more. -/
def Qty.long : Qty := ⟨8526315789473684210526315789 / 10 ^ 26, by norm_num⟩

def Price.twoFifths : Price := ⟨2 / 5, by norm_num, by norm_num⟩

def Price.nineteenTwentieths : Price := ⟨19 / 20, by norm_num, by norm_num⟩

namespace Calc

def notional (q : Qty) (p : Price) : Calc Usd := op (q.get * p.get)

def sharesAt (u : Usd) (p : Price) : Calc Qty := do
  let shares ← op (u / p.get)
  pure (.atLeastZero shares)

def floorTo (q : Qty) (step : Decimal) : Calc Qty :=
  if step ≤ 0 then pure q
  else do
    let steps ← op (q.get / step)
    let back ← op (⌊steps⌋ * step)
    -- whole steps are not negative, and no rounding makes them so
    pure (.atLeastZero back)

/-- A sum of quantities; no rounding makes it negative. -/
def addQty (q r : Qty) : Calc Qty := do
  let total ← sizes (q.get + r.get)
  pure (.atLeastZero total)

/-- `saturating_sub`. -/
def saturatingSub (q r : Qty) : Calc Qty := do
  let left ← sizes (q.get - r.get)
  pure (.atLeastZero left)

def roundToTick (p : Price) (tick : Decimal) (side : Side) : Calc Price :=
  if tick ≤ 0 then pure p
  else do
    let steps ← op (p.get / tick)
    let rounded : Decimal := match side with
      | .buy => ⌊steps⌋
      | .sell => ⌈steps⌉
    let back ← op (rounded * tick)
    pure (.saturating back)

/-- `Bps::slippage`. -/
def slippage (reference actual : Price) (side : Side) : Calc Decimal :=
  if reference.get = 0 then pure 0
  else do
    let diff ← op (match side with
      | .buy => actual.get - reference.get
      | .sell => reference.get - actual.get)
    let ratio ← op (diff / reference.get)
    op (ratio * 10000)

def liquidityWithin (b : OrderBook) (side : Side) (limit : Price) : Calc Decimal :=
  ((b.takingSide side).takeWhile (·.within side limit)).foldlM
    (fun acc l => sizes (acc + l.size.get)) 0

def notionalWithin (b : OrderBook) (side : Side) (limit : Price) : Calc Usd :=
  ((b.takingSide side).takeWhile (·.within side limit)).foldlM
    (fun acc l => do
      let cost ← notional l.size l.price
      op (acc + cost)) 0

/-- The loop of `sweepVwap`, with its accumulators. -/
def sweep (side : Side) (limit : Price) :
    Decimal → Decimal → Decimal → List Level → Calc (Decimal × Decimal)
  | _, paid, taken, [] => pure (paid, taken)
  | remaining, paid, taken, l :: ls =>
    if !l.within side limit ∨ remaining ≤ 0 then pure (paid, taken)
    else do
      let take := min remaining l.size.get
      let cost ← op (take * l.price.get)
      let paid ← op (paid + cost)
      let taken ← sizes (taken + take)
      let remaining ← sizes (remaining - take)
      sweep side limit remaining paid taken ls

def sweepVwap (b : OrderBook) (side : Side) (qty : Qty) (limit : Price) :
    Calc (Option (Price × Qty)) := do
  let swept ← sweep side limit qty.get 0 0 (b.takingSide side)
  if swept.2 = 0 then pure none
  else do
    let vwap ← op (swept.1 / swept.2)
    pure ((Price.ofDecimal? vwap).map fun p => (p, (Qty.new swept.2).toOption.getD .zero))

/-- The walk of a sweep for the whole quantity. -/
abbrev walk (b : OrderBook) (side : Side) (qty : Qty) (limit : Price) : Calc (Decimal × Decimal) :=
  sweep side limit qty.get 0 0 (b.takingSide side)

section Guarded

variable {kinds : Operands → Prop} [DecidablePred kinds] {q r t : Qty}

theorem addQty_guarded (exact_ : kinds .sizes)
    (h : (addQty q r).run (guarded kinds) = some t) :
    t = q.add r ∧ Representable (q.get + r.get) := by
  unfold addQty sizes at h
  rw [Calculation.run_bind, Calculation.run_lift] at h
  obtain ⟨total, adds, h⟩ := Option.bind_eq_some_iff.mp h
  cases h
  obtain ⟨rounds, same⟩ := guarded_eq_some adds
  rw [same exact_] at rounds ⊢
  refine ⟨Qty.ext ?_, DecimalFormat.round_eq_self_iff.mp rounds⟩
  exact max_eq_left (add_nonneg q.nonneg r.nonneg)

theorem saturatingSub_guarded (exact_ : kinds .sizes)
    (h : (saturatingSub q r).run (guarded kinds) = some t) :
    t = q.saturatingSub r ∧ Representable (q.get - r.get) := by
  unfold saturatingSub sizes at h
  rw [Calculation.run_bind, Calculation.run_lift] at h
  obtain ⟨left, subtracts, h⟩ := Option.bind_eq_some_iff.mp h
  cases h
  obtain ⟨rounds, same⟩ := guarded_eq_some subtracts
  rw [same exact_] at rounds ⊢
  exact ⟨rfl, DecimalFormat.round_eq_self_iff.mp rounds⟩

end Guarded

end Calc

end CopyTrading
