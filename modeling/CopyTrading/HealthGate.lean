import CopyTrading.Feed
import CopyTrading.Health
import CopyTrading.PipelineGates

namespace CopyTrading

open StepRun

def timestampMillis (t : DateTime) : Int := t / 1000000

def silentFeedMs : Int := 90000

/-- The tasks that record the system's health, and the pipeline that is to be gated by it. -/
structure HealthRun (A : Type) where
  app : AppState
  venue : A
  health : HealthMonitor
  /-- Zero until a trade has arrived. -/
  lastSourceDataMs : Int
  startedAt : DateTime
  adapterName : String
  /-- What the adapter was handed while it was not ready, or a feed was held as down. -/
  sentDown : List OrderRequest

inductive HealthEvent (A : Type)
  /-- Any task, the market data one among them, reports on a component. -/
  | update (name : String) (state : HealthState) (detail : String) (now : DateTime)
  /-- A message of the source feed; a trade on it may be copied. -/
  | feed (m : FeedMessage) (corr : CorrelationId) (env : CallEnv) (now : DateTime)
  | housekeeping (now : DateTime)
  | evict (now : DateTime)
  /-- A trade from the backfill or from a replay. -/
  | trade (env : CallEnv) (t : SourceTrade)
  /-- Whatever else changes the state, or the venue's own. -/
  | elsewhere (app : AppState) (venue : A)

namespace HealthRun

variable {A : Type} (digest : List UInt8 → String) (cfg : StrategyConfig)
  (adapter : ExecutionAdapter A) (isReady : A → Bool)

def start (app : AppState) (venue : A) (startedAt : DateTime) (adapterName : String) :
    HealthRun A :=
  ⟨app, venue, .new, 0, startedAt, adapterName, []⟩

/-- The health gate has a reason to hold orders back. -/
def unhealthy (s : HealthRun A) : Bool :=
  s.health.isDown "source_feed" || s.health.isDown "market_data" || !isReady s.venue

def markSourceData (s : HealthRun A) (now : DateTime) : HealthRun A :=
  { s with lastSourceDataMs := timestampMillis now }

def sourceDataAgeMs (s : HealthRun A) (now : DateTime) : Option Int :=
  if s.lastSourceDataMs > 0 then some (timestampMillis now - s.lastSourceDataMs) else none

def uptimeSeconds (s : HealthRun A) (now : DateTime) : Int := (now - s.startedAt).tdiv 1000000000

def set (s : HealthRun A) (name : String) (state : HealthState) (detail : String)
    (now : DateTime) : HealthRun A :=
  { s with health := s.health.set name state detail now }

def call (s : HealthRun A) (env : CallEnv) (trade : SourceTrade) : HealthRun A :=
  let ((app, venue), order) := s.app.onSourceTrade cfg adapter s.venue env trade
  { s with
    app := app
    venue := venue
    sentDown := s.sentDown ++ if s.unhealthy isReady then order.toList else [] }

/-- A trade on the feed, as the tracker passes it on. -/
def observed (s : HealthRun A) (t : ParsedTrade) (corr : CorrelationId) (now : DateTime) :
    HealthRun A × Option SourceTrade :=
  let (d, tracker) := s.app.tracker.observeLive digest corr t
  ({ s.markSourceData now with app := { s.app with tracker := tracker } },
    match d with
    | .actionable trade => some trade
    | _ => none)

/-- What the periodic task records about the feed's silence. -/
def checkSilence (s : HealthRun A) (now : DateTime) : HealthRun A :=
  match s.sourceDataAgeMs now with
  | some age =>
    if age > silentFeedMs then
      s.set "source_feed" .degraded
        ("connected but silent for " ++ toString (age.tdiv 1000) ++ "s") now
    else s
  | none =>
    if s.uptimeSeconds now > silentFeedMs / 1000 then
      s.set "source_feed" .degraded "connected but no trade has ever arrived" now
    else s

def tick (s : HealthRun A) (now : DateTime) : HealthRun A :=
  let ephemeral := s.app.repos.isEphemeral
  let s := { s with
    app := s.app.emit (.pnlUpdated (s.app.portfolio.snapshot s.app.orders.openCount now)) }
  let s := s.set "database" (if ephemeral then .degraded else .healthy)
    (if ephemeral then "ephemeral: no durable audit" else "ok") now
  let s := s.set "execution" .healthy s.adapterName now
  let s := { s with health := s.health.expireStale 120000000000 now }
  s.checkSilence now

/-- The call that an event makes, with the state it is made in. -/
def calls (s : HealthRun A) : HealthEvent A → Option (HealthRun A × CallEnv × SourceTrade)
  | .feed (.trade _ t) corr env now =>
    let (s, trade) := s.observed digest t corr now
    trade.map fun trade => (s, env, trade)
  | .trade env t => some (s, env, t)
  | _ => none

def step (s : HealthRun A) : HealthEvent A → Option (HealthRun A)
  | .update name state detail now => some (s.set name state detail now)
  | .feed (.connected at_) _ _ now =>
    some { s.set "source_feed" .healthy "connected" now with
      app := s.app.emit (.feedReconnected "rtds" 0 at_) }
  | .feed (.disconnected at_ lastTradeAt reason) _ _ now =>
    some { s.set "source_feed" .down reason now with
      app := s.app.emit (.feedDisconnected "rtds" (lastTradeAt.getD at_) at_) }
  | .feed (.trade _ t) corr env now =>
    match s.observed digest t corr now with
    | (s, some trade) => some (s.call cfg adapter isReady env trade)
    | (s, none) => some s
  | .housekeeping now => some (s.tick now)
  | .evict now =>
    some { s with app := { s.app with tracker := s.app.tracker.evictStale now } }
  | .trade env t => some (s.call cfg adapter isReady env t)
  | .elsewhere app venue => some { s with app := app, venue := venue }

/-- A trade that comes while a feed is down, or the adapter is not ready, passes no gate. -/
def Withheld (s : HealthRun A) (e : HealthEvent A) : Prop :=
  ∀ c ∈ s.calls digest e, c.1.unhealthy isReady → c.1.app.passes cfg c.2.1 c.2.2 = false

variable {digest cfg adapter isReady}

theorem call_sentDown (s : HealthRun A) (env : CallEnv) (trade : SourceTrade) :
    (s.call cfg adapter isReady env trade).sentDown = [] ↔
      s.sentDown = [] ∧ (s.unhealthy isReady → s.app.passes cfg env trade = false) := by
  have gates := s.app.onSourceTrade_isSome cfg adapter s.venue env trade
  unfold call
  simp only
  rw [List.append_eq_nil_iff]
  refine and_congr_right fun _ => ?_
  rw [← gates]
  cases s.unhealthy isReady with
  | false => simp
  | true =>
    cases (s.app.onSourceTrade cfg adapter s.venue env trade).2 with
    | none => simp
    | some order => simp

theorem checkSilence_sentDown (s : HealthRun A) (now : DateTime) :
    (s.checkSilence now).sentDown = s.sentDown := by
  unfold checkSilence
  split
  · split
    · rfl
    · rfl
  · split
    · rfl
    · rfl

theorem tick_sentDown (s : HealthRun A) (now : DateTime) : (s.tick now).sentDown = s.sentDown := by
  unfold tick
  simp only
  rw [checkSilence_sentDown]
  rfl

/-- A step hands nothing over while the system is unhealthy exactly if its trade is withheld. -/
theorem step_sentDown {s s' : HealthRun A} {e : HealthEvent A}
    (taken : s.step digest cfg adapter isReady e = some s') :
    s'.sentDown = [] ↔ s.sentDown = [] ∧ s.Withheld digest cfg isReady e := by
  have quiet : s.calls digest e = none → s'.sentDown = s.sentDown →
      (s'.sentDown = [] ↔ s.sentDown = [] ∧ s.Withheld digest cfg isReady e) := by
    intro none_ same
    unfold Withheld
    rw [none_, same]
    simp
  cases e with
  | update name state detail now =>
    cases taken
    exact quiet rfl rfl
  | feed m corr env now =>
    cases m with
    | connected at_ =>
      cases taken
      exact quiet rfl rfl
    | disconnected at_ lastTradeAt reason =>
      cases taken
      exact quiet rfl rfl
    | trade fill t =>
      simp only [step] at taken
      split at taken
      next s₁ trade eq =>
        cases taken
        have called : s.calls digest (.feed (.trade fill t) corr env now) = some (s₁, env, trade) := by
          simp only [calls, eq, Option.map_some]
        have before : s₁.sentDown = s.sentDown := by
          have same := congrArg (fun c => c.1.sentDown) eq
          exact same.symm
        unfold Withheld
        rw [called, s₁.call_sentDown, before]
        simp
      next s₁ eq =>
        cases taken
        refine quiet ?_ ?_
        · simp only [calls, eq, Option.map_none]
        · have same := congrArg (fun c => c.1.sentDown) eq
          exact same.symm
  | housekeeping now =>
    cases taken
    exact quiet rfl (s.tick_sentDown now)
  | evict now =>
    cases taken
    exact quiet rfl rfl
  | trade env t =>
    cases taken
    rw [s.call_sentDown]
    unfold Withheld calls
    simp
  | elsewhere app venue =>
    cases taken
    exact quiet rfl rfl

/-- No task reports on the market data. -/
def LeavesMarketData (_ : HealthRun A) : HealthEvent A → Prop
  | .update name .. => name ≠ "market_data"
  | _ => True

theorem set_isDown {s : HealthRun A} {name other : String} (apart : other ≠ name)
    (state : HealthState) (detail : String) (now : DateTime) :
    (s.set name state detail now).health.isDown other = s.health.isDown other := by
  unfold set
  simp only
  rw [HealthMonitor.isDown_set, if_neg apart]

theorem tick_isDown (s : HealthRun A) (now : DateTime) :
    (s.tick now).health.isDown "market_data" = s.health.isDown "market_data" := by
  have silence : ∀ r : HealthRun A,
      (r.checkSilence now).health.isDown "market_data" = r.health.isDown "market_data" := by
    intro r
    unfold checkSilence
    split
    · split
      · exact set_isDown (by decide) _ _ _
      · rfl
    · split
      · exact set_isDown (by decide) _ _ _
      · rfl
  unfold tick
  simp only
  rw [silence]
  simp only
  rw [HealthMonitor.isDown_expireStale, set_isDown (by decide), set_isDown (by decide)]

/-- Market data that is down stays so through feed messages, housekeeping and trades. -/
theorem stays_down {es : List (HealthEvent A)} {s t : HealthRun A}
    (run : Run (HealthRun.step digest cfg adapter isReady) LeavesMarketData s es t)
    (down : s.health.isDown "market_data") : t.health.isDown "market_data" := by
  refine run.keeps (I := fun t => t.health.isDown "market_data") ?_ down
  intro t e u held leaves taken
  cases e with
  | update name state detail now =>
    cases taken
    rw [set_isDown (Ne.symm leaves)]
    exact held
  | feed m corr env now =>
    cases m with
    | connected at_ =>
      cases taken
      exact (set_isDown (by decide) _ _ _).trans held
    | disconnected at_ lastTradeAt reason =>
      cases taken
      exact (set_isDown (by decide) _ _ _).trans held
    | trade fill x =>
      simp only [step] at taken
      split at taken
      next r trade eq =>
        cases taken
        have same := congrArg (fun c => c.1.health) eq
        show r.health.isDown "market_data"
        rw [← same]
        exact held
      next r eq =>
        have same := congrArg (fun c => c.1.health) eq
        cases taken
        rw [← same]
        exact held
  | housekeeping now =>
    cases taken
    exact (t.tick_isDown now).trans held
  | evict now =>
    cases taken
    exact held
  | trade env x =>
    cases taken
    exact held
  | elsewhere app venue =>
    cases taken
    exact held

/-- The status that the monitor and the adapter amount to. -/
def status (isReady : A → Bool) (s : HealthRun A) : SystemStatus where
  marketDataHealthy := !s.health.isDown "market_data"
  sourceFeedHealthy := !s.health.isDown "source_feed"
  executionReady := isReady s.venue
  databaseHealthy := !s.app.repos.isEphemeral

/-- Told of it, the risk engine lets no order through. -/
theorem refused_of_unhealthy {s : HealthRun A} (h : s.unhealthy isReady) (order : OrderRequest)
    (snap : RiskSnapshot) (wallet : TargetWallet) (book : Option OrderBook) (now : DateTime) :
    s.app.risk.check order snap (s.status isReady) s.app.killSwitch book wallet.enabled
      wallet.nickname none none now ≠ .approved := by
  intro approved
  obtain ⟨gates, _⟩ := RiskEngine.check_approved_iff.mp approved
  obtain ⟨_, _, problem, _⟩ := RiskEngine.checkGates_none_iff.mp gates
  unfold SystemStatus.firstProblem status at problem
  unfold unhealthy at h
  simp only at problem
  cases ready : isReady s.venue with
  | false => simp [ready] at problem
  | true =>
    cases source : s.health.isDown "source_feed" with
    | true => simp [ready, source] at problem
    | false =>
      cases market : s.health.isDown "market_data" with
      | true => simp [ready, source, market] at problem
      | false => simp [ready, source, market] at h

end HealthRun

/-- Nothing was handed to the adapter while the system was unhealthy, exactly in the runs in which
every trade that came then was stopped by some other gate. -/
theorem health_gate_iff {A : Type} {digest : List UInt8 → String} {cfg : StrategyConfig}
    {adapter : ExecutionAdapter A} {isReady : A → Bool} {app : AppState} {venue : A}
    {startedAt : DateTime} {adapterName : String} {es : List (HealthEvent A)} {s : HealthRun A}
    (run : Run (HealthRun.step digest cfg adapter isReady) Anywhere
      (.start app venue startedAt adapterName) es s) :
    s.sentDown = [] ↔ Run (HealthRun.step digest cfg adapter isReady)
      (HealthRun.Withheld digest cfg isReady) (.start app venue startedAt adapterName) es s := by
  induction run with
  | nil => exact ⟨fun _ => .nil, fun _ => rfl⟩
  | snoc before _ taken ih =>
    rw [HealthRun.step_sentDown taken, ih]
    constructor
    · rintro ⟨withheld, last⟩
      exact withheld.snoc last taken
    · intro withheld
      obtain ⟨t, earlier, last, _⟩ := withheld.last
      rw [before.unique earlier]
      exact ⟨earlier, last⟩

/-- The feed goes down, and the backfill of the gap finds a trade. -/
def backfilledWhileDown : List (HealthEvent Unit) :=
  [.feed (.disconnected 0 none "closed") ⟨0⟩ .sample 0, .trade .sample .sample]

theorem health_gate_iff_backfilled : ∃ s,
    Run (HealthRun.step (fun _ => "") .default acceptingVenue fun _ => true) Anywhere
      (.start .sample () 0 "paper") backfilledWhileDown s ∧
    s.sentDown.length = 1 ∧
    (s.sentDown = [] ↔ Run (HealthRun.step (fun _ => "") .default acceptingVenue fun _ => true)
      (HealthRun.Withheld (fun _ => "") .default fun _ => true) (.start .sample () 0 "paper")
      backfilledWhileDown s) := by
  have ran : (backfilledWhileDown.foldlM (fun s e => if Anywhere s e then
      HealthRun.step (fun _ => "") .default acceptingVenue (fun _ => true) s e else none)
      (.start .sample () 0 "paper")).map (fun s => s.sentDown.length) = some 1 := by
    decide +kernel
  obtain ⟨s, executed, sent⟩ := Option.map_eq_some_iff.mp ran
  have run := run_of_foldlM executed
  exact ⟨s, run, sent, health_gate_iff run⟩

/-- The order of that trade reaches the adapter. -/
theorem submitted_while_down : ¬ ∀ (A : Type) (digest : List UInt8 → String)
    (cfg : StrategyConfig) (adapter : ExecutionAdapter A) (isReady : A → Bool) (app : AppState)
    (venue : A) (startedAt : DateTime) (adapterName : String) (es : List (HealthEvent A))
    (s : HealthRun A), Run (HealthRun.step digest cfg adapter isReady) Anywhere
      (.start app venue startedAt adapterName) es s →
    ∀ env trade, s.unhealthy isReady →
      (s.app.onSourceTrade cfg adapter s.venue env trade).2 = none := by
  intro all
  have ran : (([.feed (.disconnected 0 none "closed") ⟨0⟩ .sample 0] :
      List (HealthEvent Unit)).foldlM (fun s e => if Anywhere s e then
      HealthRun.step (fun _ => "") .default acceptingVenue (fun _ => true) s e else none)
      (.start .sample () 0 "paper")).any (fun s => s.unhealthy (fun _ => true) ∧
        (s.app.onSourceTrade .default acceptingVenue s.venue .sample .sample).2.isSome) = true := by
    decide +kernel
  obtain ⟨s, executed, both⟩ := (Option.any_eq_true _ _).mp ran
  obtain ⟨down, sent⟩ := of_decide_eq_true both
  have none_ := all _ _ _ _ _ _ _ _ _ _ s (run_of_foldlM executed) .sample .sample down
  rw [none_] at sent
  cases sent

end CopyTrading
