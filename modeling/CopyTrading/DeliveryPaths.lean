import CopyTrading.PipelineGates
import CopyTrading.Replay
import CopyTrading.StepRun

namespace CopyTrading

open StepRun

/-- The generator's trade is observed like one of the feed. -/
def demoTrade (t : SourceTrade) : ParsedTrade where
  trader := t.trader
  marketId := t.marketId
  tokenId := t.tokenId
  outcome := t.outcome
  side := t.side
  price := t.price
  quantity := t.quantity
  txHash := t.txHash
  sourceTs := t.sourceTs
  sourceIsCoarse := false
  detectedTs := t.detectedTs
  marketTitle := t.marketTitle
  marketSlug := t.marketSlug
  source := .demo

/-- A wallet of the file that is not configured, without a filter on the source size. -/
def replayWallet (trader : Address) : TargetWallet :=
  { TargetWallet.new trader ("replay-" ++ String.ofList (trader.asStr.toList.take 8)) with
    minSourceNotionalUsd := 0 }

/-- A configured wallet keeps its own settings. -/
def registerReplayed (tr : WalletTracker) (t : SourceTrade) : WalletTracker :=
  match tr.getWallet t.trader with
  | some _ => tr
  | none => tr.upsertWallet (replayWallet t.trader)

/-- A book of one tick around the replayed price. -/
def replayBook (t : SourceTrade) (now : DateTime) : Option OrderBook := do
  let tick : Decimal := 1 / 1000
  let bid ← Price.ofDecimal? (max (t.price.get - tick) (1 / 1000))
  let ask ← Price.ofDecimal? (min (t.price.get + tick) (999 / 1000))
  return {
    marketId := t.marketId
    tokenId := t.tokenId
    bids := [⟨bid, ⟨100000, by norm_num⟩⟩]
    asks := [⟨ask, ⟨100000, by norm_num⟩⟩]
    tickSize := tick
    minOrderSize := 5
    timestamp := now
    seq := 0 }

/-- What a session does before its first trade: wallets first, then books. -/
def AppState.openSession (app : AppState) (trades : List SourceTrade) (clock : Nat → DateTime) :
    AppState :=
  { app with
    tracker := trades.foldl registerReplayed app.tracker
    books := trades.zipIdx.foldl
      (fun books e => (replayBook e.1 (clock e.2)).elim books books.put) app.books }

/-- Stamped with the clock at the moment of processing. -/
def restamped (t : SourceTrade) (now : DateTime) : SourceTrade :=
  { t with sourceTs := now - milliseconds 400, detectedTs := now }

/-- The process as the four callers of the pipeline see it. -/
structure Deliveries (A : Type) where
  app : AppState
  venue : A
  /-- The rest of the session that is being replayed. -/
  replaying : List SourceTrade
  /-- The trades an order was handed to the adapter for, each with the wallet that was then
  configured for its trader. -/
  sent : List (Option TargetWallet × SourceTrade)

inductive PathEvent (A : Type)
  | live (corr : CorrelationId) (t : ParsedTrade) (env : CallEnv)
  | backfill (corr : CorrelationId) (t : ParsedTrade) (batch : BatchOrdinals) (env : CallEnv)
  | demo (corr : CorrelationId) (t : SourceTrade) (env : CallEnv)
  | openReplay (events : List ReplayEvent) (corr : Nat → CorrelationId) (now : DateTime)
    (clock : Nat → DateTime)
  | replayNext (now : DateTime) (env : CallEnv)
  /-- The rest of the process, changes of the configured wallets included. -/
  | elsewhere (app : AppState) (venue : A)

namespace Deliveries

variable {A : Type}

def start (app : AppState) (venue : A) : Deliveries A := ⟨app, venue, [], []⟩

section Step

variable (cfg : StrategyConfig) (adapter : ExecutionAdapter A) (digest : List UInt8 → String)
  (parse : String → Option Decimal)

def call (s : Deliveries A) (env : CallEnv) (trade : SourceTrade) : Deliveries A :=
  let ((app, venue), order) := s.app.onSourceTrade cfg adapter s.venue env trade
  { s with
    app := app
    venue := venue
    sent := s.sent ++
      if order.isSome then [(s.app.tracker.getWallet trade.trader, trade)] else [] }

/-- What the tracker makes of a trade, and the call if it is actionable. -/
def observed (s : Deliveries A) (env : CallEnv) (detection : Detection) (tracker : WalletTracker) :
    Deliveries A :=
  let s := { s with app := { s.app with tracker := tracker } }
  match detection with
  | .actionable trade => s.call cfg adapter env trade
  | _ => s

/-- Nothing is replayed of an empty file, or of one whose clock arithmetic panics. -/
def openReplay (s : Deliveries A) (events : List ReplayEvent) (corr : Nat → CorrelationId)
    (now : DateTime) (clock : Nat → DateTime) : Deliveries A :=
  match if events = [] then none else toSourceTrades parse corr now events with
  | none => s
  | some trades => { s with app := s.app.openSession trades clock, replaying := trades }

def step (s : Deliveries A) : PathEvent A → Option (Deliveries A)
  | .live corr t env =>
    let (detection, tracker) := s.app.tracker.observeLive digest corr t
    some (s.observed cfg adapter env detection tracker)
  | .backfill corr t batch env =>
    let (detection, tracker, _) := s.app.tracker.observeBackfill digest corr t batch
    some (s.observed cfg adapter env detection tracker)
  | .demo corr t env =>
    let (detection, tracker) := s.app.tracker.observeLive digest corr (demoTrade t)
    some (s.observed cfg adapter env detection tracker)
  | .openReplay events corr now clock =>
    if s.replaying = [] then some (s.openReplay parse events corr now clock) else none
  | .replayNext now env =>
    match s.replaying with
    | [] => none
    | t :: rest => some ({ s with replaying := rest }.call cfg adapter env (restamped t now))
  | .elsewhere app venue => some { s with app := app, venue := venue }

end Step

/-- Every order was handed over for a trade that the wallet configured for its trader admits. -/
def Admitted (s : Deliveries A) : Prop :=
  ∀ x ∈ s.sent, ∃ w, x.1 = some w ∧ w.admits x.2.marketId x.2.notional = .ok ()

/-- The next trade of a session is one that the wallet of its trader admits, unless the wallet is
disabled or only known from the file. -/
def SessionAdmitted (s : Deliveries A) : PathEvent A → Prop
  | .replayNext _ _ => ∀ t ∈ s.replaying.head?, ∀ w ∈ s.app.tracker.getWallet t.trader,
      w.enabled → w ≠ replayWallet t.trader → w.admits t.marketId t.notional = .ok ()
  | _ => True

instance (s : Deliveries A) (e : PathEvent A) : Decidable (s.SessionAdmitted e) :=
  match e with
  | .replayNext _ _ => inferInstanceAs (Decidable (∀ t ∈ s.replaying.head?,
      ∀ w ∈ s.app.tracker.getWallet t.trader, w.enabled → w ≠ replayWallet t.trader →
        w.admits t.marketId t.notional = .ok ()))
  | .live .. | .backfill .. | .demo .. | .openReplay .. | .elsewhere .. => isTrue trivial

end Deliveries

/-- What the tracker calls actionable was admitted first. -/
theorem WalletTracker.admitted_of_actionable {digest : List UInt8 → String} {tr : WalletTracker}
    {corr : CorrelationId} {t : ParsedTrade} {ordinal : Option Nat} {trade : SourceTrade}
    (h : (tr.observe digest corr t ordinal).1 = .actionable trade) : tr.Admitted t := by
  unfold observe at h
  simp only at h
  split at h
  next => cases h
  next w tracked =>
    split at h
    next => cases h
    next admits => exact ⟨w, tracked, admits⟩

namespace AppState

/-- The risk engine looks at the enabled flag once more. -/
theorem enabled_of_passesWith {cfg : StrategyConfig} {app : AppState} {env : CallEnv}
    {trade : SourceTrade} {wallet : TargetWallet} {book : Option OrderBook}
    (passed : app.passesWith cfg env trade wallet book) : wallet.enabled = true := by
  unfold passesWith at passed
  split at passed
  next => cases passed
  next =>
    have approved := of_decide_eq_true passed
    obtain ⟨gates, _⟩ := RiskEngine.check_approved_iff.mp approved
    obtain ⟨_, _, _, _, enabled, _⟩ := RiskEngine.checkGates_none_iff.mp gates
    exact enabled

/-- Only for an enabled wallet that is tracked does a trade pass. -/
theorem tracked_of_passes {cfg : StrategyConfig} {app : AppState} {env : CallEnv}
    {trade : SourceTrade} (passed : app.passes cfg env trade) :
    ∃ w, app.tracker.getWallet trade.trader = some w ∧ w.enabled = true := by
  unfold passes at passed
  split at passed
  next => cases passed
  next w tracked => exact ⟨w, tracked, enabled_of_passesWith passed⟩

end AppState

namespace Deliveries

variable {A : Type} {cfg : StrategyConfig} {adapter : ExecutionAdapter A}
  {digest : List UInt8 → String} {parse : String → Option Decimal}

/-- A call adds its trade where it passes strategy and risk engine, for an enabled wallet. -/
theorem call_sent (s : Deliveries A) (env : CallEnv) (trade : SourceTrade) :
    (s.call cfg adapter env trade).sent = s.sent ∨
      ∃ w, s.app.tracker.getWallet trade.trader = some w ∧ w.enabled = true ∧
        (s.call cfg adapter env trade).sent = s.sent ++ [(some w, trade)] := by
  have gates := s.app.onSourceTrade_isSome cfg adapter s.venue env trade
  have sent : (s.call cfg adapter env trade).sent = s.sent ++
      if s.app.passes cfg env trade then [(s.app.tracker.getWallet trade.trader, trade)]
      else [] := by
    rw [← gates]
    rfl
  rw [sent]
  split
  next passed =>
    obtain ⟨w, tracked, enabled⟩ := AppState.tracked_of_passes passed
    exact .inr ⟨w, tracked, enabled, by rw [tracked]⟩
  next => exact .inl (List.append_nil _)

theorem Admitted.call {s : Deliveries A} (h : s.Admitted) (env : CallEnv) {trade : SourceTrade}
    (admits : ∀ w, s.app.tracker.getWallet trade.trader = some w → w.enabled →
      w.admits trade.marketId trade.notional = .ok ()) :
    (s.call cfg adapter env trade).Admitted := by
  unfold Admitted
  rcases s.call_sent env trade with same | ⟨w, tracked, enabled, added⟩
  · rw [same]
    exact h
  · rw [added]
    intro x mem
    rcases List.mem_append.mp mem with earlier | now_
    · exact h x earlier
    · rw [List.mem_singleton.mp now_]
      exact ⟨w, rfl, admits w tracked enabled⟩

/-- A trade that comes through the tracker meets the same wallet in the pipeline. -/
theorem Admitted.observed {s : Deliveries A} (h : s.Admitted) (env : CallEnv)
    (corr : CorrelationId) (t : ParsedTrade) (ordinal : Option Nat) :
    (s.observed cfg adapter env (s.app.tracker.observe digest corr t ordinal).1
      (s.app.tracker.observe digest corr t ordinal).2).Admitted := by
  obtain ⟨wallets, _⟩ := s.app.tracker.observe_frame digest corr t ordinal
  have kept : Deliveries.Admitted { s with app := { s.app with
    tracker := (s.app.tracker.observe digest corr t ordinal).2 } } := h
  unfold Deliveries.observed
  simp only
  split
  next trade actionable =>
    obtain ⟨eventId, occurrence, rfl⟩ := WalletTracker.observe_actionable actionable
    obtain ⟨w, tracked, admits⟩ := WalletTracker.admitted_of_actionable actionable
    refine kept.call env fun w' tracked' _ => ?_
    have same : s.app.tracker.wallets.lookup t.trader = some w' := wallets ▸ tracked'
    cases tracked.symm.trans same
    exact admits
  next => exact h

/-- A wallet that only the file names lets all of the file through. -/
theorem replayWallet_admits (trader : Address) (t : SourceTrade) :
    (replayWallet trader).admits t.marketId t.notional = .ok () := by
  have enough : ¬ t.notional < (replayWallet trader).minSourceNotionalUsd :=
    not_lt.mpr (mul_nonneg t.quantity.nonneg t.price.pos.le)
  unfold TargetWallet.admits
  simp only [enough, if_false]
  simp [replayWallet, TargetWallet.new]

theorem Admitted.step {s s' : Deliveries A} (h : s.Admitted) {e : PathEvent A}
    (admitted : s.SessionAdmitted e) (taken : s.step cfg adapter digest parse e = some s') :
    s'.Admitted := by
  cases e with
  | live corr t env =>
    cases Option.some.inj taken
    exact h.observed env corr t none
  | backfill corr t batch env =>
    cases Option.some.inj taken
    exact h.observed env corr t (some (batch.next t.keyOf).1)
  | demo corr t env =>
    cases Option.some.inj taken
    exact h.observed env corr (demoTrade t) none
  | openReplay events corr now clock =>
    simp only [Deliveries.step] at taken
    split at taken
    next =>
      cases Option.some.inj taken
      unfold Deliveries.openReplay
      split <;> exact h
    next => cases taken
  | replayNext now env =>
    simp only [Deliveries.step] at taken
    split at taken
    next => cases taken
    next t rest pending =>
      cases Option.some.inj taken
      refine Admitted.call h env fun w tracked enabled => ?_
      by_cases named : w = replayWallet t.trader
      · rw [named]
        exact replayWallet_admits t.trader (restamped t now)
      · have first : t ∈ s.replaying.head? := by
          rw [pending]
          rfl
        exact admitted t first w tracked enabled named
  | elsewhere app venue =>
    cases Option.some.inj taken
    exact h

/-- Auto-registration takes nothing away from the operator. -/
theorem registerReplayed_keeps {tr : WalletTracker} {a : Address} {w : TargetWallet}
    (configured : tr.getWallet a = some w) (t : SourceTrade) :
    (registerReplayed tr t).getWallet a = some w := by
  unfold registerReplayed
  split
  next => exact configured
  next unknown =>
    have other : a ≠ t.trader := by
      rintro rfl
      cases configured.symm.trans unknown
    exact (AList.lookup_insert_ne other).trans configured

theorem openSession_keeps (app : AppState) (trades : List SourceTrade) (clock : Nat → DateTime)
    {a : Address} {w : TargetWallet} (configured : app.tracker.getWallet a = some w) :
    (app.openSession trades clock).tracker.getWallet a = some w := by
  have keeps : ∀ tr : WalletTracker, tr.getWallet a = some w →
      (trades.foldl registerReplayed tr).getWallet a = some w := by
    induction trades with
    | nil => exact fun _ held => held
    | cons t rest ih => exact fun tr held => ih _ (registerReplayed_keeps held t)
  exact keeps app.tracker configured

/-- An order goes out only for a trade its wallet admits, on every path, and opening a session
leaves the configured wallets alone, in every run that replays no trade its wallet would refuse. -/
theorem orders_admitted {app : AppState} {venue : A} {es : List (PathEvent A)}
    {s : Deliveries A}
    (run : Run (Deliveries.step cfg adapter digest parse) SessionAdmitted (.start app venue) es s) :
    s.Admitted ∧ ∀ (trades : List SourceTrade) (clock : Nat → DateTime) (a : Address)
      (w : TargetWallet), s.app.tracker.getWallet a = some w →
      (s.app.openSession trades clock).tracker.getWallet a = some w := by
  have none_ : (start app venue).Admitted := List.forall_mem_nil _
  refine ⟨run.keeps (fun _ _ _ held admitted taken => held.step admitted taken) none_, ?_⟩
  intro trades clock a w configured
  exact openSession_keeps s.app trades clock configured

/-- One row of a session. -/
def replayOne : List (PathEvent Unit) :=
  [.openReplay [.sample] (fun _ => ⟨0⟩) 0 fun _ => 0, .replayNext 0 .sample]

theorem orders_admitted_replayOne : ∃ s, Run (Deliveries.step .default acceptingVenue (fun _ => "")
      parseRecorded) SessionAdmitted (.start .sample ()) replayOne s ∧
    s.sent.length = 1 ∧ s.Admitted := by
  obtain ⟨s, executed, sent⟩ : ∃ s, replayOne.foldlM (fun s e =>
      if s.SessionAdmitted e then
        Deliveries.step .default acceptingVenue (fun _ => "") parseRecorded s e else none)
      (.start .sample ()) = some s ∧ s.sent.length = 1 := by
    apply Option.map_eq_some_iff.mp
    decide +kernel
  have run := run_of_foldlM executed
  exact ⟨s, run, sent, (orders_admitted run).1⟩

/-- The market of the row is on the block list of its wallet. -/
def blockingState : AppState :=
  { AppState.sample with
    tracker := .new [{ TargetWallet.new .zero "Target" with blockedMarkets := [.zero] }] }

theorem replay_trades_blocked_market : ¬ ∀ (cfg : StrategyConfig) (adapter : ExecutionAdapter Unit)
    (digest : List UInt8 → String) (parse : String → Option Decimal) (app : AppState)
    (es : List (PathEvent Unit)) (s : Deliveries Unit),
    Run (Deliveries.step cfg adapter digest parse) Anywhere (.start app ()) es s → s.Admitted := by
  intro claim
  obtain ⟨s, executed, sent⟩ : ∃ s, replayOne.foldlM (fun s e =>
      if Anywhere s e then
        Deliveries.step .default acceptingVenue (fun _ => "") parseRecorded s e else none)
      (.start blockingState ()) = some s ∧
      s.sent.map (fun x => x.1.map fun w => w.admits x.2.marketId x.2.notional) =
        [some (.error (.marketBlocked .zero))] := by
    apply Option.map_eq_some_iff.mp
    decide +kernel
  have admitted := claim _ _ _ _ _ _ s (run_of_foldlM executed)
  obtain ⟨x, listed⟩ := List.map_eq_singleton_iff.mp sent
  obtain ⟨w, known, admits⟩ := admitted x (by rw [listed.1]; exact List.mem_singleton.mpr rfl)
  have refused := listed.2
  rw [known, Option.map_some, admits] at refused
  cases refused

end Deliveries

end CopyTrading
