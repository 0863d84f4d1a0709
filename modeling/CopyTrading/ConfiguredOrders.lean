import CopyTrading.Environment
import CopyTrading.OrderOrigins
import CopyTrading.RiskMonotone

namespace CopyTrading

open Holders StepRun

/-- The risk engine that the process is configured with. -/
def AppConfig.riskEngine (c : AppConfig) : RiskEngine := ⟨c.limits, c.mode, c.liveExecutionArmed⟩

namespace AppState

variable {cfg : StrategyConfig} {app app' : AppState} {env : CallEnv}

theorem decide_risk {trade : SourceTrade} {wallet : TargetWallet} {signal : CopySignal}
    {book : Option OrderBook} {orderId : OrderId} {now : DateTime} {d : Decision}
    (h : app.decide trade wallet signal book orderId now = (app', d)) : app'.risk = app.risk := by
  unfold decide at h
  simp only at h
  split at h
  next =>
    cases h
    rfl
  next => exact (handOver_spec h).2.1

/-- No segment of a call touches the risk engine. -/
theorem advance_risk {stage next : Stage} (h : app.advance cfg env stage = some (app', next)) :
    app'.risk = app.risk := by
  cases stage with
  | inserted trade =>
    have view := app.emit_sameView (.sourceTradeDetected trade)
    simp only [advance, received] at h
    split at h
    next eq =>
      obtain ⟨rfl, _⟩ := Prod.mk.inj eq
      cases h
      exact view.risk
    next app₁ wallet eq =>
      obtain ⟨rfl, _⟩ := Prod.mk.inj eq
      split at h
      next book _ => exact (toSignal_origin (Option.some.inj h)).1.risk.trans view.risk
      next =>
        cases h
        exact view.risk
  | fetching trade wallet =>
    have view := app.fetchedBook_sameView env.fetched
    exact (toSignal_origin (Option.some.inj h)).1.risk.trans view.risk
  | signalled trade wallet signal book =>
    simp only [advance] at h
    split at h
    next eq =>
      cases h
      exact decide_risk eq
    next eq =>
      cases h
      exact decide_risk eq
    next eq =>
      cases h
      exact decide_risk eq
  | refused signal r =>
    cases h
    unfold refuse
    split
    next => rfl
    next => rfl
  | submitting signal order => cases h
  | booking signal fills =>
    cases fills with
    | nil =>
      cases h
      exact (app.report_spec signal env.concludedAt).2.2
    | cons f fs =>
      cases h
      rfl
  | done => cases h

end AppState

/-- The rest of the process has no limits of its own to set. -/
def OriginEvent.KeepsRisk (risk : RiskEngine) : OriginEvent → Prop
  | .elsewhere app => app.risk = risk
  | _ => True

namespace OriginRun

variable {cfg : StrategyConfig} {s s' : OriginRun}

theorem step_risk {e : OriginEvent} (keeps : e.KeepsRisk s.app.risk)
    (taken : s.step cfg e = some s') : s'.app.risk = s.app.risk := by
  cases e with
  | handed executed trade =>
    cases taken
    rfl
  | advance i env =>
    simp only [step, advance] at taken
    split at taken
    next => cases taken
    next call _ =>
      obtain ⟨_, advanced, eq⟩ := Option.map_eq_some_iff.mp taken
      cases eq
      exact AppState.advance_risk advanced
  | answer i response now =>
    simp only [step, answer] at taken
    split at taken
    next => cases taken
    next call _ =>
      split at taken
      next signal order _ =>
        cases taken
        exact (s.app.answer_fills signal order response now).2.1
      next => cases taken
  | filled f =>
    simp only [step] at taken
    split at taken
    next => cases taken
    next =>
      cases taken
      rfl
  | cancelBegin id now =>
    simp only [step] at taken
    split at taken
    next => cases taken
    next =>
      cases taken
      rfl
  | cancelFinish i response now =>
    obtain ⟨_, _, rfl⟩ := Option.map_eq_some_iff.mp taken
    rfl
  | elsewhere app =>
    cases taken
    exact keeps

theorem run_risk {app : AppState} {es : List OriginEvent}
    (kept : ∀ e ∈ es, e.KeepsRisk app.risk) (run : Run (step cfg) Proper (start app) es s) :
    s.app.risk = app.risk := by
  induction run with
  | nil => rfl
  | snoc _ _ taken ih =>
    have before := ih fun e mem => kept e (List.mem_append_left _ mem)
    have last := kept _ (List.mem_append_right _ List.mem_cons_self)
    exact (step_risk (before ▸ last) taken).trans before

/-- In every run of a process that an environment configures, each order is for an amount between
the two that the environment sets, in live mode within the cap that it sets for live orders; and at
some point of the run there was room for it under the exposures that the environment sets, with the
day's loss and the orders then open within its limits. What is not set there is the default. -/
theorem orders_within_environment {F : Type} (p : Numbers F) (env : Env) {c : Settings F}
    (loaded : fromEnvInner p env = .ok c) {app : AppState} (engine : app.risk = c.app.riskEngine)
    (booted : app.orders.orders = ∅) (unattributed : app.portfolio.orderWallet = ∅)
    {es : List OriginEvent} (kept : ∀ e ∈ es, e.KeepsRisk app.risk)
    (run : Run (step cfg) Proper (start app) es s) {id : OrderId} {o : Order}
    (placed : s.app.orders.get id = some o) :
    ∃ r cap, RiskSet p env r ∧ UsdSet p env "MAX_LIVE_ORDER_USD" 50 cap ∧
      r.minTradeUsd ≤ o.request.notional ∧ o.request.notional ≤ r.maxTradeUsd ∧
      (envMode env = .ok .live → o.request.notional ≤ cap) ∧
      ∃ t now, Seen cfg app es t ∧
        t.app.portfolio.tokenExposure o.request.tokenId + o.request.notional ≤ r.maxPositionUsd ∧
        t.app.portfolio.marketExposure o.request.marketId + o.request.notional ≤
          r.maxMarketExposureUsd ∧
        t.app.portfolio.grossExposure + o.request.notional ≤ r.maxPortfolioExposureUsd ∧
        -r.maxDailyLossUsd ≤ t.app.portfolio.dailyPnl now ∧
        t.app.orders.openCount < r.maxOpenOrders := by
  have read := fromEnvInner_ok loaded
  have asked : s.app.request id = some o.request := by
    unfold AppState.request
    rw [placed]
    rfl
  obtain ⟨origins, _⟩ := run_origins booted unattributed run
  obtain ⟨_, _, call, _, _, wallet, book, _, now, _, _, _, t, seen, approved⟩ :=
    origins.origin id o.request asked
  have same : t.app.risk = c.app.riskEngine := by
    obtain ⟨es', earlier, reached⟩ := seen
    exact (run_risk (fun e mem => kept e (earlier.subset mem)) reached).trans engine
  obtain ⟨_, budget, size, exposure, _⟩ := RiskEngine.check_approved_iff.mp approved
  obtain ⟨loss, slots⟩ := RiskEngine.checkBudget_none_iff.mp budget
  obtain ⟨least, most, live⟩ := RiskEngine.checkNotional_none_iff.mp size
  obtain ⟨token, market, gross⟩ := RiskEngine.checkExposure_none_iff.mp exposure
  rw [same] at loss slots least most live token market gross
  obtain ⟨_, _, _, _, _, _, capSet⟩ := envLive_ok read.live
  refine ⟨c.app.risk, _, envRisk_ok read.risk, capSet, least, most, ?_, t, now, seen, token, market,
    gross, loss, slots⟩
  intro mode
  have isLive : c.app.mode = .live := by
    rw [read.mode] at mode
    exact Except.ok.inj mode
  refine live ?_
  rw [show c.app.riskEngine.mode = .live from isLive]
  rfl

/-- A trade is handed in and copied as far as to its order. -/
def oneCopy : List OriginEvent :=
  [.handed true .sample, .advance 0 .sample, .advance 0 .sample, .advance 0 .sample]

theorem orders_within_environment_unset : ∃ s o,
    Run (step .default) Proper (start .sample) oneCopy s ∧ s.app.orders.get ⟨0⟩ = some o ∧
      5 ≤ o.request.notional ∧ o.request.notional ≤ 100 := by
  have ran : (oneCopy.foldlM (fun s e => if Proper s e then step .default s e else none)
      (start .sample)).any (fun s => (s.app.orders.get ⟨0⟩).isSome) = true := by
    decide +kernel
  obtain ⟨s, executed, some_⟩ := (Option.any_eq_true _ _).mp ran
  obtain ⟨o, placed⟩ := Option.isSome_iff_exists.mp some_
  have run := run_of_foldlM executed
  have kept : ∀ e ∈ oneCopy, e.KeepsRisk AppState.sample.risk := by
    simp [oneCopy, OriginEvent.KeepsRisk]
  obtain ⟨r, _, set, _, least, most, _⟩ := orders_within_environment .blind (fun _ => none)
    fromEnvInner_unset rfl rfl rfl kept run placed
  have leastIs : r.minTradeUsd = 5 := set.minTrade
  have mostIs : r.maxTradeUsd = 100 := set.maxTrade
  exact ⟨s, o, run, placed, leastIs ▸ least, mostIs ▸ most⟩

end OriginRun

end CopyTrading
