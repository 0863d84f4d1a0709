import CopyTrading.CalcOrderManager
import CopyTrading.CalcPortfolio
import CopyTrading.CalcRisk
import CopyTrading.PipelineStages

namespace CopyTrading

namespace Calc

variable (E : AList.Enumeration TokenId Position)

/-- The risk engine's verdict; no source event is passed as already processed. -/
def verdict (app : AppState) (order : OrderRequest) (wallet : TargetWallet)
    (book : Option OrderBook) (now : DateTime) : Calc RiskVerdict := do
  let snap ← Portfolio.snapshot E app.portfolio app.orders.openCount now
  let market ← Portfolio.marketExposure E app.portfolio order.marketId
  let token ← Portfolio.tokenExposure app.portfolio order.tokenId
  check app.risk order
    { dailyPnl := snap.dailyPnl
      grossExposure := snap.grossExposure
      marketExposure := market
      walletExposure := 0
      tokenExposure := token
      openOrders := snap.openOrders
      equity := snap.equity }
    ⟨true, true, true, !app.repos.isEphemeral⟩ app.killSwitch book wallet.enabled wallet.nickname
    none none now

/-- The answer to a call's order. -/
def answer (app : AppState) (signal : CopySignal) (order : Order)
    (response : Except ExecutionError Acknowledgement) (now : DateTime) :
    Calc (AppState × Stage) := do
  let (outcome, om) ← submitFinish app.orders order response now
  let app := { app with orders := om }
  match outcome with
  | .acknowledged _ fills => pure (app, .booking signal fills)
  | _ => pure (app, .done)

def bookFill (signal : CopySignal) (app : AppState) (f : Fill) : Calc AppState := do
  let (_, portfolio) ← Portfolio.applyFill E app.portfolio f signal.outcome
  pure { app with portfolio := portfolio }

def report (app : AppState) (signal : CopySignal) (now : DateTime) : Calc AppState := do
  let app := match app.portfolio.position signal.tokenId with
    | some p => app.emit (.positionUpdated p now)
    | none => app
  let snap ← Portfolio.snapshot E app.portfolio app.orders.openCount now
  pure (app.emit (.pnlUpdated snap))

variable {E} {app : AppState} {now : DateTime}

section Verdict

variable {order : OrderRequest} {wallet : TargetWallet} {book : Option OrderBook}

/-- Where no sum of the check is rounded, what it approves fits the limits as it projects it. -/
theorem verdict_exposure (exact_ : (verdict E app order wallet book now).Keeps (· = .other))
    (approved : (verdict E app order wallet book now).run rounded = some .approved) :
    app.portfolio.tokenExposure order.tokenId + order.notional ≤ app.risk.limits.maxPositionUsd ∧
      app.portfolio.marketExposure order.marketId + order.notional ≤
        app.risk.limits.maxMarketExposureUsd ∧
      app.portfolio.grossExposure + order.notional ≤ app.risk.limits.maxPortfolioExposureUsd := by
  rw [exact_.run] at approved
  unfold verdict Portfolio.snapshot at approved
  simp only [Calculation.run_bind] at approved
  obtain ⟨snap, snaps, approved⟩ := Option.bind_eq_some_iff.mp approved
  obtain ⟨_, _, snaps⟩ := Option.bind_eq_some_iff.mp snaps
  obtain ⟨_, _, snaps⟩ := Option.bind_eq_some_iff.mp snaps
  obtain ⟨_, _, snaps⟩ := Option.bind_eq_some_iff.mp snaps
  obtain ⟨gross, totals, snaps⟩ := Option.bind_eq_some_iff.mp snaps
  cases snaps
  obtain ⟨market, markets, approved⟩ := Option.bind_eq_some_iff.mp approved
  obtain ⟨token, tokens, approved⟩ := Option.bind_eq_some_iff.mp approved
  obtain ⟨_, _, notional, cost, _, ⟨⟨_, adds, fits⟩, ⟨_, adds', fits'⟩, ⟨_, adds'', fits''⟩⟩, _⟩ :=
    check_approved.mp approved
  rw [(guarded_eq_some adds).2 rfl, (guarded_eq_some cost).2 rfl,
    Portfolio.tokenExposure_guarded (by rfl) tokens] at fits
  rw [(guarded_eq_some adds').2 rfl, (guarded_eq_some cost).2 rfl,
    Portfolio.marketExposure_guarded (by rfl) markets] at fits'
  rw [(guarded_eq_some adds'').2 rfl, (guarded_eq_some cost).2 rfl,
    Portfolio.grossExposure_guarded (by rfl) totals] at fits''
  exact ⟨fits, fits', fits''⟩

end Verdict

/-- What the answer changes: the order that was sent, and what the call goes on with. -/
theorem answer_run {kinds : Operands → Prop} [DecidablePred kinds] (exact_ : kinds .sizes)
    {signal : CopySignal} {order : Order} {response : Except ExecutionError Acknowledgement}
    {app' : AppState} {stage : Stage}
    (h : (answer app signal order response now).run (guarded kinds) = some (app', stage)) :
    app'.portfolio = app.portfolio ∧ app'.risk = app.risk ∧
    match response with
    | .ok ack => ∃ o' fills, (acknowledge order ack now).run (guarded kinds) = some (o', fills) ∧
        app'.orders.orders = app.orders.orders.insert order.id o' ∧ stage = .booking signal fills
    | .error e =>
        app'.orders.orders = app.orders.orders.insert order.id (order.answered (.error e) now) ∧
        stage = .done := by
  unfold answer at h
  simp only [Calculation.run_bind] at h
  obtain ⟨⟨outcome, om⟩, finishes, h⟩ := Option.bind_eq_some_iff.mp h
  have written := submitFinish_run exact_ finishes
  cases response with
  | ok ack =>
    obtain ⟨o', fills, acks, orders, applied⟩ := written
    unfold submitFinish at finishes
    simp only [Calculation.run_bind] at finishes
    obtain ⟨_, _, finishes⟩ := Option.bind_eq_some_iff.mp finishes
    cases finishes
    cases h
    exact ⟨rfl, rfl, o', fills, acks, orders, congrArg _ applied⟩
  | error e =>
    unfold submitFinish at finishes
    simp only at finishes
    split at finishes
    next =>
      cases finishes
      cases h
      exact ⟨rfl, rfl, written.1, rfl⟩
    next =>
      cases finishes
      cases h
      exact ⟨rfl, rfl, written.1, rfl⟩

theorem bookFill_run {machine : Operands → Decimal → Option Decimal} {signal : CopySignal}
    {f : Fill} {app' : AppState} (h : (bookFill E signal app f).run machine = some app') :
    ∃ gain booked q portfolio, Portfolio.FilledBy machine E app.portfolio f signal.outcome gain
      booked q portfolio ∧ app' = { app with portfolio := portfolio } := by
  unfold bookFill at h
  rw [Calculation.run_bind] at h
  obtain ⟨⟨q, portfolio⟩, fill, h⟩ := Option.bind_eq_some_iff.mp h
  cases h
  obtain ⟨gain, booked, filled⟩ := Portfolio.applyFill_run fill
  exact ⟨gain, booked, q, portfolio, filled, rfl⟩

theorem report_run {machine : Operands → Decimal → Option Decimal} {signal : CopySignal}
    {app' : AppState} (h : (report E app signal now).run machine = some app') :
    app'.portfolio = app.portfolio ∧ app'.orders.orders = app.orders.orders ∧
      app'.risk = app.risk := by
  unfold report at h
  simp only [Calculation.run_bind] at h
  obtain ⟨snap, _, h⟩ := Option.bind_eq_some_iff.mp h
  cases h
  split
  next => exact ⟨rfl, rfl, rfl⟩
  next => exact ⟨rfl, rfl, rfl⟩

end Calc

end CopyTrading
