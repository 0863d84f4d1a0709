import Mathlib.Data.Prod.Lex
import CopyTrading.PipelineStages
import CopyTrading.StepRun

namespace CopyTrading

open StepRun

namespace SystemEvent

/-- The correlating id, where the event belongs to a trade's life. -/
def correlationId : SystemEvent → Option CorrelationId
  | .sourceTradeDetected trade => some trade.correlationId
  | .copySignalGenerated signal => some signal.correlationId
  | .sourceTradeSkipped _ corr _ _ => some corr
  | .orderRiskApproved _ corr _ _ => some corr
  | .orderRiskRejected corr _ _ _ => some corr
  | .orderSubmitted _ corr _ => some corr
  | .orderAcknowledged _ corr _ _ => some corr
  | .orderPartiallyFilled _ corr _ => some corr
  | .orderFilled _ corr _ => some corr
  | .orderCancelled _ corr _ => some corr
  | .orderRejected _ corr _ _ => some corr
  | .orderStateChanged _ corr _ _ _ => some corr
  | _ => none

/-- The event says what became of a trade, or that it is unknown. -/
def isOutcome : SystemEvent → Bool
  | .sourceTradeSkipped .. | .orderRiskRejected .. | .orderRejected .. | .orderAcknowledged ..
  | .orderPartiallyFilled .. | .orderFilled .. => true
  | .orderStateChanged _ _ _ to_ _ => to_ = .unknown
  | _ => false

end SystemEvent

def HasOutcome (corr : CorrelationId) (es : List SystemEvent) : Prop :=
  ∃ e ∈ es, e.isOutcome = true ∧ e.correlationId = some corr

instance (corr : CorrelationId) (es : List SystemEvent) : Decidable (HasOutcome corr es) :=
  inferInstanceAs (Decidable (∃ e ∈ es, _))

/-- The trade is announced, and what became of it after that. -/
def Reported (trade : SourceTrade) (es : List SystemEvent) : Prop :=
  ∃ rest, es = .sourceTradeDetected trade :: rest ∧ HasOutcome trade.correlationId rest

/-- One segment of a call, at the state that it finds. -/
inductive CallSegment
  | advance (app : AppState) (env : CallEnv)
  | answer (app : AppState) (response : Except ExecutionError Acknowledgement) (now : DateTime)

/-- A call between two segments, with the events it has emitted. -/
structure CallTrace where
  stage : Stage
  events : List SystemEvent

def emittedBy (app app' : AppState) : List SystemEvent :=
  app'.orders.events.drop app.orders.events.length

/-- Whatever other calls and tasks do between two segments shows in the state of the second. -/
def CallTrace.step (cfg : StrategyConfig) (c : CallTrace) : CallSegment → Option CallTrace
  | .advance app env =>
    (app.advance cfg env c.stage).map fun r => ⟨r.2, c.events ++ emittedBy app r.1⟩
  | .answer app response now =>
    match c.stage with
    | .submitting signal order =>
      let r := app.answer signal order response now
      some ⟨r.2, c.events ++ emittedBy app r.1⟩
    | _ => none

def CallTrace.start (trade : SourceTrade) : CallTrace := ⟨.inserted trade, []⟩

/-- The wallet has been removed, or the adapter does not know what became of the order. -/
inductive Silent : Stage → CallSegment → Prop
  | untracked {trade : SourceTrade} {app : AppState} (env : CallEnv)
      (removed : app.tracker.getWallet trade.trader = none) :
      Silent (.inserted trade) (.advance app env)
  | ambiguous (signal : CopySignal) (order : Order) (app : AppState) {e : ExecutionError}
      (now : DateTime) (unknown : e.requiresReconciliation = true) :
      Silent (.submitting signal order) (.answer app (.error e) now)

def Speaks (c : CallTrace) (segment : CallSegment) : Prop := ¬Silent c.stage segment

/-- What a call is still to report on. -/
def Stage.Awaits (corr : CorrelationId) : Stage → Prop
  | .inserted trade => trade.correlationId = corr
  | .fetching trade _ => trade.correlationId = corr
  | .signalled _ _ signal _ => signal.correlationId = corr ∧ signal.copyQuantity.isZero = false
  | .refused signal _ => signal.correlationId = corr
  | .submitting _ order => order.request.correlationId = corr
  | .booking .. | .done => False

def Stage.Closing : Stage → Prop
  | .booking .. | .done => True
  | _ => False

/-- What a segment makes of a call that is still to report: it ends in silence, or it speaks and
leaves the report to the next one or makes it. -/
def Tells (corr : CorrelationId) (stage : Stage) (segment : CallSegment) (stage' : Stage)
    (new : List SystemEvent) : Prop :=
  (Silent stage segment ∧ stage' = .done ∧ ∀ e ∈ new, e.isOutcome = false) ∨
  (¬Silent stage segment ∧
    ((stage'.Awaits corr ∧ ∀ e ∈ new, e.isOutcome = false) ∨
      (stage'.Closing ∧ HasOutcome corr new)))

/-- From `app` to `app'`, exactly the events `new` are emitted. -/
def Emits (app app' : AppState) (new : List SystemEvent) : Prop :=
  app'.orders.events = app.orders.events ++ new

theorem Emits.emittedBy {app app' : AppState} {new : List SystemEvent} (h : Emits app app' new) :
    emittedBy app app' = new := by
  unfold CopyTrading.emittedBy
  rw [h, List.drop_left]

theorem Emits.trans {app app' app'' : AppState} {new new' : List SystemEvent}
    (h : Emits app app' new) (h' : Emits app' app'' new') : Emits app app'' (new ++ new') := by
  unfold Emits at h h' ⊢
  rw [h', h, List.append_assoc]

theorem HasOutcome.append_left {corr : CorrelationId} {es : List SystemEvent}
    (h : HasOutcome corr es) (fs : List SystemEvent) : HasOutcome corr (es ++ fs) := by
  obtain ⟨e, mem, outcome⟩ := h
  exact ⟨e, List.mem_append_left _ mem, outcome⟩

theorem HasOutcome.append_right {corr : CorrelationId} (es : List SystemEvent)
    {fs : List SystemEvent} (h : HasOutcome corr fs) : HasOutcome corr (es ++ fs) := by
  obtain ⟨e, mem, outcome⟩ := h
  exact ⟨e, List.mem_append_right _ mem, outcome⟩

theorem not_hasOutcome_append {corr : CorrelationId} {es fs : List SystemEvent}
    (h : ¬HasOutcome corr es) (h' : ∀ f ∈ fs, f.isOutcome = false) :
    ¬HasOutcome corr (es ++ fs) := by
  rintro ⟨e, mem, outcome, own⟩
  rcases List.mem_append.mp mem with old | new
  · exact h ⟨e, old, outcome, own⟩
  · rw [h' e new] at outcome
    cases outcome

theorem OrderManager.foldl_emit_events (om : OrderManager) (fs : List Fill)
    (e : Fill → SystemEvent) :
    (fs.foldl (fun om f => om.emit (e f)) om).events = om.events ++ fs.map e := by
  induction fs generalizing om with
  | nil => exact (List.append_nil _).symm
  | cons f fs ih =>
    rw [List.foldl_cons, ih, List.map_cons]
    exact List.append_assoc _ [_] _

namespace AppState

/-- The strategy stage goes on with a signal, or reports that the trade is skipped. -/
theorem toSignal_emits (cfg : StrategyConfig) (app : AppState) (trade : SourceTrade)
    (wallet : TargetWallet) (book : Option OrderBook) (env : CallEnv) :
    (Emits app (app.toSignal cfg trade wallet book env).1 [] ∧
      (app.toSignal cfg trade wallet book env).2.Awaits trade.correlationId) ∨
    ((app.toSignal cfg trade wallet book env).2 = .done ∧
      ∃ new, Emits app (app.toSignal cfg trade wallet book env).1 new ∧
        HasOutcome trade.correlationId new) := by
  unfold toSignal priced
  cases signalled : app.signalFor cfg trade wallet book env.signalId env.pricedAt with
  | ok signal =>
    left
    have some_ := CopyTrader.onSourceTrade_ok_pos signalled
    obtain ⟨_, _, corr⟩ := CopyTrader.onSourceTrade_ok_copies signalled
    exact ⟨(List.append_nil _).symm, corr, some_⟩
  | error e =>
    right
    refine ⟨rfl, _, rfl, ?_⟩
    exact ⟨_, List.mem_singleton_self _, rfl, rfl⟩

/-- An order for something is announced as approved and submitted. -/
theorem handOver_emits (app : AppState) (signal : CopySignal) (request : OrderRequest)
    (some_ : request.quantity.isZero = false) (corr : request.correlationId = signal.correlationId)
    (stamps : LatencyStamps) (now : DateTime) :
    ∃ order, (app.handOver signal request stamps now).2 = .submitting order ∧
      order.request.correlationId = signal.correlationId ∧
      Emits app (app.handOver signal request stamps now).1
        [.orderRiskApproved request.orderId signal.correlationId signal.signalId now,
          .orderSubmitted request.orderId signal.correlationId now] := by
  obtain ⟨o, same, handed⟩ := app.handOver_of_some signal some_ stamps now
  have own : o.request.correlationId = signal.correlationId := by rw [same, corr]
  rw [handed]
  refine ⟨o.sent now, rfl, own, ?_⟩
  unfold Emits
  rw [corr]
  exact List.append_assoc _ [_] [_]

theorem decide_emits (app : AppState) (trade : SourceTrade) (wallet : TargetWallet)
    {signal : CopySignal} (some_ : signal.copyQuantity.isZero = false) (book : Option OrderBook)
    (orderId : OrderId) (now : DateTime) :
    (∃ r, (app.decide trade wallet signal book orderId now).2 = .refused r ∧
      Emits app (app.decide trade wallet signal book orderId now).1
        [.copySignalGenerated signal]) ∨
    ∃ order, (app.decide trade wallet signal book orderId now).2 = .submitting order ∧
      order.request.correlationId = signal.correlationId ∧
      Emits app (app.decide trade wallet signal book orderId now).1
        [.copySignalGenerated signal,
          .orderRiskApproved orderId signal.correlationId signal.signalId now,
          .orderSubmitted orderId signal.correlationId now] := by
  let generated := app.emit (.copySignalGenerated signal)
  have first : Emits app generated [.copySignalGenerated signal] := rfl
  unfold decide
  simp only
  cases generated.verdict (orderFor signal (tickOf book) orderId now) wallet book now with
  | rejected r => exact .inl ⟨r, rfl, first⟩
  | approved =>
    obtain ⟨order, ends, own, emits⟩ := generated.handOver_emits signal
      (orderFor signal (tickOf book) orderId now) some_ rfl (stampsFor trade signal now) now
    exact .inr ⟨order, ends, own, first.trans emits⟩

theorem refuse_emits (app : AppState) (signal : CopySignal) (r : RiskRejection)
    (now : DateTime) : ∃ new, Emits app (app.refuse signal r now) new ∧
      HasOutcome signal.correlationId new := by
  unfold refuse
  simp only
  split
  · refine ⟨[.orderRiskRejected signal.correlationId (some signal.signalId) r now,
      .killSwitchActivated ("auto: " ++ r.code) "risk-engine" now], ?_, ?_⟩
    · exact List.append_assoc _ [_] [_]
    · exact ⟨_, List.mem_cons_self, rfl, rfl⟩
  · exact ⟨_, rfl, _, List.mem_cons_self, rfl, rfl⟩

theorem report_emits (app : AppState) (signal : CopySignal) (now : DateTime) :
    ∃ new, Emits app (app.report signal now) new := by
  unfold report
  simp only
  split
  · exact ⟨_, List.append_assoc _ [_] [_]⟩
  · exact ⟨_, rfl⟩

/-- What the adapter answers is reported, unless the answer is ambiguous. -/
theorem answer_emits (app : AppState) (signal : CopySignal) (order : Order)
    (response : Except ExecutionError Acknowledgement) (now : DateTime) :
    (app.answer signal order response now).2.Closing ∧
    ((∃ e, response = .error e ∧ e.requiresReconciliation = true ∧
        (app.answer signal order response now).2 = .done ∧
        Emits app (app.answer signal order response now).1 []) ∨
      (∀ e, response = .error e → e.requiresReconciliation = false) ∧
        ∃ new, Emits app (app.answer signal order response now).1 new ∧
          HasOutcome order.request.correlationId new) := by
  cases response with
  | ok ack =>
    refine ⟨trivial, .inr ⟨nofun, ?_⟩⟩
    let corr := order.request.correlationId
    let reported := app.orders.emit (.orderAcknowledged order.id corr ack.venueOrderId now)
    have fills := (reported.store (order.acknowledge ack now).1).foldl_emit_events
      (order.acknowledge ack now).2 (fillEvent (order.acknowledge ack now).1.state order.id corr)
    refine ⟨_, fills.trans (List.append_assoc _ [_] _), ?_⟩
    exact ⟨_, List.mem_cons_self, rfl, rfl⟩
  | error e =>
    by_cases unknown : e.requiresReconciliation = true
    · simp only [answer, answered, OrderManager.submitFinish, if_pos unknown]
      refine ⟨trivial, .inl ⟨e, rfl, unknown, trivial, ?_⟩⟩
      exact (List.append_nil _).symm
    · simp only [answer, answered, OrderManager.submitFinish, if_neg unknown]
      refine ⟨trivial, .inr ⟨?_, _, rfl, ?_⟩⟩
      · intro e' same
        cases same
        exact Bool.eq_false_iff.mpr unknown
      · exact ⟨_, List.mem_singleton_self _, rfl, rfl⟩

def Reports (corr : CorrelationId) (stage : Stage) (segment : CallSegment) (app app' : AppState)
    (stage' : Stage) : Prop :=
  ∃ new, Emits app app' new ∧ Tells corr stage segment stage' new

theorem toSignal_reports {cfg : StrategyConfig} {app from_ app' : AppState} {trade : SourceTrade}
    {wallet : TargetWallet} {book : Option OrderBook} {env : CallEnv} {stage stage' : Stage}
    {segment : CallSegment} {seen : List SystemEvent} (speaks : ¬Silent stage segment)
    (before : Emits app from_ seen) (none_ : ∀ e ∈ seen, e.isOutcome = false)
    (h : from_.toSignal cfg trade wallet book env = (app', stage')) :
    Reports trade.correlationId stage segment app app' stage' := by
  have rest := from_.toSignal_emits cfg trade wallet book env
  rw [h] at rest
  rcases rest with ⟨emits, waits⟩ | ⟨ends, new, emits, outcome⟩
  · refine ⟨seen ++ [], before.trans emits, .inr ⟨speaks, .inl ⟨waits, ?_⟩⟩⟩
    rw [List.append_nil]
    exact none_
  · refine ⟨seen ++ new, before.trans emits, .inr ⟨speaks, .inr ⟨?_, ?_⟩⟩⟩
    · have ends : stage' = .done := ends
      rw [ends]
      trivial
    · exact outcome.append_right seen

theorem inserted_cases {cfg : StrategyConfig} {app app' : AppState} {env : CallEnv}
    {trade : SourceTrade} {stage' : Stage}
    (h : app.advance cfg env (.inserted trade) = some (app', stage')) :
    (app.tracker.getWallet trade.trader = none ∧ app' = app.emit (.sourceTradeDetected trade) ∧
      stage' = .done) ∨
    ∃ wallet, app.tracker.getWallet trade.trader = some wallet ∧
      ((app' = app.emit (.sourceTradeDetected trade) ∧ stage' = .fetching trade wallet) ∨
      ∃ b, (app.emit (.sourceTradeDetected trade)).toSignal cfg trade wallet (some b) env =
        (app', stage')) := by
  simp only [advance, received] at h
  cases tracked : app.tracker.getWallet trade.trader with
  | none =>
    rw [tracked] at h
    cases h
    exact .inl ⟨rfl, rfl, rfl⟩
  | some wallet =>
    simp only [tracked] at h
    refine .inr ⟨wallet, rfl, ?_⟩
    split at h
    next b _ => exact .inr ⟨b, Option.some.inj h⟩
    next => cases h; exact .inl ⟨rfl, rfl⟩

theorem inserted_reports {cfg : StrategyConfig} {app app' : AppState} {env : CallEnv}
    {trade : SourceTrade} {stage' : Stage}
    (h : app.advance cfg env (.inserted trade) = some (app', stage')) :
    Reports trade.correlationId (.inserted trade) (.advance app env) app app' stage' := by
  have first : Emits app (app.emit (.sourceTradeDetected trade)) [.sourceTradeDetected trade] :=
    rfl
  have none_ : ∀ e ∈ [SystemEvent.sourceTradeDetected trade], e.isOutcome = false := by
    intro e mem
    rw [List.mem_singleton.mp mem]
    rfl
  rcases inserted_cases h with ⟨removed, rfl, rfl⟩ | ⟨wallet, tracked, rest⟩
  · exact ⟨_, first, .inl ⟨.untracked env removed, rfl, none_⟩⟩
  · have speaks : ¬Silent (.inserted trade) (.advance app env) := by
      intro silent
      cases silent with
      | untracked _ removed => rw [tracked] at removed; cases removed
    rcases rest with ⟨rfl, rfl⟩ | ⟨b, rest⟩
    · exact ⟨_, first, .inr ⟨speaks, .inl ⟨rfl, none_⟩⟩⟩
    · exact toSignal_reports speaks first none_ rest

theorem inserted_announces {cfg : StrategyConfig} {app app' : AppState} {env : CallEnv}
    {trade : SourceTrade} {stage' : Stage}
    (h : app.advance cfg env (.inserted trade) = some (app', stage')) :
    ∃ rest, Emits app app' (.sourceTradeDetected trade :: rest) := by
  have first : Emits app (app.emit (.sourceTradeDetected trade)) [.sourceTradeDetected trade] :=
    rfl
  rcases inserted_cases h with ⟨_, rfl, _⟩ | ⟨wallet, _, ⟨rfl, _⟩ | ⟨b, rest⟩⟩
  · exact ⟨[], first⟩
  · exact ⟨[], first⟩
  · have emits := toSignal_emits cfg (app.emit (.sourceTradeDetected trade)) trade wallet
      (some b) env
    rw [rest] at emits
    rcases emits with ⟨emits, _⟩ | ⟨_, new, emits, _⟩
    · exact ⟨[], first.trans emits⟩
    · exact ⟨new, first.trans emits⟩

theorem signalled_reports {cfg : StrategyConfig} {app app' : AppState} {env : CallEnv}
    {trade : SourceTrade} {wallet : TargetWallet} {signal : CopySignal} {book : Option OrderBook}
    {stage' : Stage} (some_ : signal.copyQuantity.isZero = false)
    (h : app.advance cfg env (.signalled trade wallet signal book) = some (app', stage')) :
    Reports signal.correlationId (.signalled trade wallet signal book) (.advance app env) app app'
      stage' := by
  have speaks : ¬Silent (.signalled trade wallet signal book) (.advance app env) := by
    intro silent
    cases silent
  simp only [advance] at h
  rcases app.decide_emits trade wallet some_ book env.orderId env.decidedAt with
    ⟨r, ends, emits⟩ | ⟨order, ends, own, emits⟩
  · split at h
    next eq =>
      rw [eq] at ends emits
      cases h
      refine ⟨_, emits, .inr ⟨speaks, .inl ⟨rfl, ?_⟩⟩⟩
      intro e mem
      rw [List.mem_singleton.mp mem]
      rfl
    next eq => rw [eq] at ends; cases ends
    next eq => rw [eq] at ends; cases ends
  · split at h
    next eq => rw [eq] at ends; cases ends
    next eq => rw [eq] at ends; cases ends
    next eq =>
      rw [eq] at ends emits
      cases ends
      cases h
      refine ⟨_, emits, .inr ⟨speaks, .inl ⟨own, ?_⟩⟩⟩
      intro e mem
      simp only [List.mem_cons, List.not_mem_nil, or_false] at mem
      rcases mem with rfl | rfl | rfl <;> rfl

/-- A segment of a call that is still to report, with what it emits. -/
theorem advance_reports {cfg : StrategyConfig} {app app' : AppState} {env : CallEnv}
    {stage stage' : Stage} {corr : CorrelationId} (waits : stage.Awaits corr)
    (h : app.advance cfg env stage = some (app', stage')) :
    Reports corr stage (.advance app env) app app' stage' := by
  cases stage with
  | inserted trade =>
    cases waits
    exact inserted_reports h
  | fetching trade wallet =>
    cases waits
    have before : Emits app (app.fetchedBook env.fetched) [] := by
      unfold Emits fetchedBook
      split <;> exact (List.append_nil _).symm
    exact toSignal_reports nofun before (List.forall_mem_nil _) (Option.some.inj h)
  | signalled trade wallet signal book =>
    obtain ⟨rfl, some_⟩ := waits
    exact signalled_reports some_ h
  | refused signal r =>
    cases waits
    cases h
    obtain ⟨new, emits, outcome⟩ := app.refuse_emits signal r env.concludedAt
    exact ⟨new, emits, .inr ⟨nofun, .inr ⟨trivial, outcome⟩⟩⟩
  | submitting signal order => cases h
  | booking signal fills => exact waits.elim
  | done => exact waits.elim

theorem answer_reports (app : AppState) (signal : CopySignal) (order : Order)
    (response : Except ExecutionError Acknowledgement) (now : DateTime) :
    Reports order.request.correlationId (.submitting signal order) (.answer app response now) app
      (app.answer signal order response now).1 (app.answer signal order response now).2 := by
  obtain ⟨closing, ⟨e, rfl, unknown, ends, emits⟩ | ⟨known, new, emits, outcome⟩⟩ :=
    app.answer_emits signal order response now
  · exact ⟨[], emits, .inl ⟨.ambiguous signal order app now unknown, ends, List.forall_mem_nil _⟩⟩
  · refine ⟨new, emits, .inr ⟨?_, .inr ⟨closing, outcome⟩⟩⟩
    intro silent
    cases silent with
    | ambiguous _ _ _ _ unknown => rw [known _ rfl] at unknown; cases unknown

/-- Once reported, a call books its fills and ends. -/
theorem advance_closing {cfg : StrategyConfig} {app app' : AppState} {env : CallEnv}
    {stage stage' : Stage} (closing : stage.Closing)
    (h : app.advance cfg env stage = some (app', stage')) : stage'.Closing := by
  cases stage with
  | booking signal fills => cases fills <;> cases h <;> trivial
  | done => cases h
  | _ => exact closing.elim

end AppState

section Runs

variable {cfg : StrategyConfig} {trade : SourceTrade} {c c' : CallTrace}

theorem CallTrace.step_cases {segment : CallSegment} (h : c.step cfg segment = some c') :
    (∃ app env app', segment = .advance app env ∧
      app.advance cfg env c.stage = some (app', c'.stage) ∧
      c'.events = c.events ++ emittedBy app app') ∨
    ∃ app response now signal order, segment = .answer app response now ∧
      c.stage = .submitting signal order ∧
      c'.stage = (app.answer signal order response now).2 ∧
      c'.events = c.events ++ emittedBy app (app.answer signal order response now).1 := by
  cases segment with
  | advance app env =>
    obtain ⟨⟨app', stage'⟩, taken, rfl⟩ := Option.map_eq_some_iff.mp h
    exact .inl ⟨app, env, app', rfl, taken, rfl⟩
  | answer app response now =>
    unfold step at h
    simp only at h
    split at h
    next signal order eq =>
      cases h
      exact .inr ⟨app, response, now, signal, order, rfl, eq, rfl, rfl⟩
    next => cases h

/-- The steps of a call that is still to report. -/
theorem CallTrace.step_waits {segment : CallSegment} {corr : CorrelationId}
    (waits : c.stage.Awaits corr) (h : c.step cfg segment = some c') :
    ∃ new, c'.events = c.events ++ new ∧ Tells corr c.stage segment c'.stage new := by
  rcases step_cases h with ⟨app, env, app', rfl, taken, events⟩ |
    ⟨app, response, now, signal, order, rfl, at_, ends, events⟩
  · obtain ⟨new, emits, rest⟩ := AppState.advance_reports waits taken
    rw [emits.emittedBy] at events
    exact ⟨new, events, rest⟩
  · rw [at_] at waits
    cases waits
    obtain ⟨new, emits, rest⟩ := app.answer_reports signal order response now
    rw [emits.emittedBy] at events
    rw [at_, ends]
    exact ⟨new, events, rest⟩

theorem CallTrace.step_closing {segment : CallSegment} (closing : c.stage.Closing)
    (h : c.step cfg segment = some c') :
    c'.stage.Closing ∧ ¬Silent c.stage segment ∧ ∃ new, c'.events = c.events ++ new := by
  rcases step_cases h with ⟨app, env, app', rfl, taken, events⟩ |
    ⟨app, response, now, signal, order, rfl, at_, _⟩
  · refine ⟨AppState.advance_closing closing taken, ?_, _, events⟩
    intro silent
    cases stage : c.stage with
    | inserted trade => rw [stage] at closing; exact closing
    | _ => rw [stage] at silent; cases silent
  · rw [at_] at closing
    exact closing.elim

theorem CallTrace.step_of_done {segment : CallSegment} (done : c.stage = .done) :
    c.step cfg segment = none := by
  cases segment with
  | advance app env => simp only [step, done]; rfl
  | answer app response now => simp only [step, done]

/-- A call announces its trade before anything else. -/
theorem CallTrace.announced {segments : List CallSegment}
    (h : Run (CallTrace.step cfg) Anywhere (.start trade) segments c) :
    c = .start trade ∨ ∃ rest, c.events = .sourceTradeDetected trade :: rest := by
  refine h.keeps (I := fun c => c = .start trade ∨
    ∃ rest, c.events = .sourceTradeDetected trade :: rest) ?_ (.inl rfl)
  rintro t segment u (rfl | ⟨rest, events⟩) - taken
  · right
    rcases step_cases taken with ⟨app, env, app', rfl, taken, events⟩ | ⟨_, _, _, _, _, _, at_, _⟩
    · obtain ⟨rest, emits⟩ := AppState.inserted_announces taken
      rw [emits.emittedBy] at events
      exact ⟨rest, events⟩
    · cases at_
  · right
    rcases step_cases taken with ⟨app, env, app', _, _, more⟩ | ⟨_, _, _, _, _, _, _, _, more⟩
    · exact ⟨_, by rw [more, events, List.cons_append]⟩
    · exact ⟨_, by rw [more, events, List.cons_append]⟩

/-- While every segment speaks, a call is to report or has reported; else it ended in silence. -/
theorem CallTrace.phase {segments : List CallSegment}
    (h : Run (CallTrace.step cfg) Anywhere (.start trade) segments c) :
    (Run (CallTrace.step cfg) Speaks (.start trade) segments c ∧
      ((c.stage.Awaits trade.correlationId ∧ ¬HasOutcome trade.correlationId c.events) ∨
        (c.stage.Closing ∧ HasOutcome trade.correlationId c.events))) ∨
    (¬Run (CallTrace.step cfg) Speaks (.start trade) segments c ∧ c.stage = .done ∧
      ¬HasOutcome trade.correlationId c.events) := by
  induction h with
  | nil =>
    refine .inl ⟨.nil, .inl ⟨rfl, ?_⟩⟩
    rintro ⟨_, mem, _⟩
    cases mem
  | @snoc segments t u segment before _ taken ih =>
    rcases ih with ⟨spoken, ⟨waits, none_⟩ | ⟨closing, reported⟩⟩ | ⟨_, done, _⟩
    · obtain ⟨new, events, ⟨silent, ends, quiet⟩ | ⟨speaks, rest⟩⟩ := step_waits waits taken
      · right
        refine ⟨?_, ends, ?_⟩
        · intro spoken'
          obtain ⟨t', before', speaks, _⟩ := spoken'.last
          cases before.unique before'
          exact speaks silent
        · rw [events]
          exact not_hasOutcome_append none_ quiet
      · left
        refine ⟨spoken.snoc speaks taken, ?_⟩
        rw [events]
        rcases rest with ⟨waits, quiet⟩ | ⟨closing, outcome⟩
        · exact .inl ⟨waits, not_hasOutcome_append none_ quiet⟩
        · exact .inr ⟨closing, outcome.append_right _⟩
    · obtain ⟨closing, speaks, new, events⟩ := step_closing closing taken
      left
      refine ⟨spoken.snoc speaks taken, .inr ⟨closing, ?_⟩⟩
      rw [events]
      exact reported.append_left new
    · rw [step_of_done done] at taken
      cases taken

end Runs

/-- How far a call is from its end; the fills are known once the adapter has answered. -/
def Stage.rank : Stage → Nat ×ₗ Nat
  | .inserted .. => toLex (5, 0)
  | .fetching .. => toLex (4, 0)
  | .signalled .. => toLex (3, 0)
  | .refused .. | .submitting .. => toLex (2, 0)
  | .booking _ fills => toLex (1, fills.length)
  | .done => toLex (0, 0)

namespace AppState

theorem toSignal_rank (cfg : StrategyConfig) (app : AppState) (trade : SourceTrade)
    (wallet : TargetWallet) (book : Option OrderBook) (env : CallEnv) :
    (app.toSignal cfg trade wallet book env).2.rank < toLex (4, 0) := by
  unfold toSignal
  split
  · exact Prod.Lex.left _ _ (by omega)
  · exact Prod.Lex.left _ _ (by omega)

theorem advance_rank {cfg : StrategyConfig} {app app' : AppState} {env : CallEnv}
    {stage stage' : Stage} (h : app.advance cfg env stage = some (app', stage')) :
    stage'.rank < stage.rank := by
  cases stage with
  | inserted trade =>
    rcases inserted_cases h with ⟨_, _, rfl⟩ | ⟨wallet, _, ⟨_, rfl⟩ | ⟨b, rest⟩⟩
    · exact Prod.Lex.left _ _ (by omega)
    · exact Prod.Lex.left _ _ (by omega)
    · have below := toSignal_rank cfg (app.emit (.sourceTradeDetected trade)) trade wallet
        (some b) env
      rw [rest] at below
      exact below.trans (Prod.Lex.left _ _ (by omega))
  | fetching trade wallet =>
    have below := (app.fetchedBook env.fetched).toSignal_rank cfg trade wallet env.fetched env
    rw [Option.some.inj h] at below
    exact below
  | signalled trade wallet signal book =>
    simp only [advance] at h
    split at h <;> cases h
    · exact Prod.Lex.left _ _ (by omega)
    · exact Prod.Lex.left _ _ (by omega)
    · exact Prod.Lex.left _ _ (by omega)
  | refused signal r =>
    cases h
    exact Prod.Lex.left _ _ (by omega)
  | submitting signal order => cases h
  | booking signal fills =>
    cases fills with
    | nil => cases h; exact Prod.Lex.left _ _ (by omega)
    | cons f fs => cases h; exact Prod.Lex.right _ (Nat.lt_succ_self _)
  | done => cases h

theorem answer_rank (app : AppState) (signal : CopySignal) (order : Order)
    (response : Except ExecutionError Acknowledgement) (now : DateTime) :
    (app.answer signal order response now).2.rank < (Stage.submitting signal order).rank := by
  unfold answer
  split
  · exact Prod.Lex.left _ _ (by omega)
  · exact Prod.Lex.left _ _ (by omega)

end AppState

/-- No call goes on forever, whatever its segments find. -/
theorem CallTrace.step_wellFounded (cfg : StrategyConfig) :
    WellFounded (fun c' c : CallTrace => ∃ segment, c.step cfg segment = some c') := by
  refine (InvImage.wf (fun c : CallTrace => c.stage.rank) wellFounded_lt).mono ?_
  rintro c' c ⟨segment, taken⟩
  rcases step_cases taken with ⟨app, env, app', _, taken, _⟩ |
    ⟨app, response, now, signal, order, _, at_, ends, _⟩
  · exact AppState.advance_rank taken
  · have below := app.answer_rank signal order response now
    rw [← at_, ← ends] at below
    exact below

/-- What has not ended goes on: it advances, or it takes the adapter's answer. -/
theorem CallTrace.goes_on (cfg : StrategyConfig) {c : CallTrace} (running : c.stage ≠ .done)
    (app : AppState) (env : CallEnv) (response : Except ExecutionError Acknowledgement)
    (now : DateTime) : ∃ segment ∈ [CallSegment.advance app env, .answer app response now],
      (c.step cfg segment).isSome := by
  have taken : (∃ r, app.advance cfg env c.stage = some r) ∨
      ∃ signal order, c.stage = .submitting signal order := by
    cases stage : c.stage with
    | inserted trade =>
      left
      simp only [AppState.advance]
      split
      · exact ⟨_, rfl⟩
      · split <;> exact ⟨_, rfl⟩
    | fetching trade wallet => exact .inl ⟨_, rfl⟩
    | signalled trade wallet signal book =>
      left
      simp only [AppState.advance]
      split <;> exact ⟨_, rfl⟩
    | refused signal r => exact .inl ⟨_, rfl⟩
    | submitting signal order => exact .inr ⟨signal, order, rfl⟩
    | booking signal fills => cases fills <;> exact .inl ⟨_, rfl⟩
    | done => exact absurd stage running
  rcases taken with ⟨r, taken⟩ | ⟨signal, order, at_⟩
  · refine ⟨.advance app env, List.mem_cons_self, ?_⟩
    simp only [step, taken]
    rfl
  · refine ⟨.answer app response now, List.mem_cons_of_mem _ (List.mem_singleton_self _), ?_⟩
    simp only [step, at_]
    rfl

theorem Reported.hasOutcome {trade : SourceTrade} {es : List SystemEvent}
    (h : Reported trade es) : HasOutcome trade.correlationId es := by
  obtain ⟨rest, rfl, outcome⟩ := h
  exact outcome.append_right [_]

theorem reported_iff {trade : SourceTrade} {rest : List SystemEvent} :
    Reported trade (.sourceTradeDetected trade :: rest) ↔
      HasOutcome trade.correlationId (.sourceTradeDetected trade :: rest) := by
  refine ⟨Reported.hasOutcome, ?_⟩
  rintro ⟨e, mem, outcome, own⟩
  rcases List.mem_cons.mp mem with rfl | mem
  · cases outcome
  · exact ⟨rest, rfl, e, mem, outcome, own⟩

section RunToCompletion

/-- A call that began at `app₀` has come to `stage` with nothing in between. -/
def Traced (cfg : StrategyConfig) (trade : SourceTrade) (app₀ app : AppState) (stage : Stage) :
    Prop :=
  ∃ segments events, Run (CallTrace.step cfg) Anywhere (.start trade) segments ⟨stage, events⟩ ∧
    Emits app₀ app events

variable {cfg : StrategyConfig} {trade : SourceTrade} {app₀ app app' : AppState}
  {stage stage' : Stage}

theorem Traced.recorded (cfg : StrategyConfig) (trade : SourceTrade) (app : AppState)
    (executed : Bool) : Traced cfg trade app (app.recordSource executed trade) (.inserted trade) :=
  ⟨[], [], .nil, (List.append_nil _).symm⟩

theorem Traced.advance (h : Traced cfg trade app₀ app stage) (env : CallEnv)
    (taken : app.advance cfg env stage = some (app', stage')) :
    Traced cfg trade app₀ app' stage' := by
  obtain ⟨segments, events, run, emitted⟩ := h
  have grows : ∃ new, Emits app app' new := by
    rcases CallTrace.phase run with ⟨_, ⟨waits, _⟩ | ⟨closing, _⟩⟩ | ⟨_, done, _⟩
    · obtain ⟨new, emits, _⟩ := AppState.advance_reports waits taken
      exact ⟨new, emits⟩
    · cases stage with
      | booking signal fills =>
        cases fills with
        | nil => cases taken; exact app.report_emits signal env.concludedAt
        | cons f fs => cases taken; exact ⟨[], (List.append_nil _).symm⟩
      | done => cases taken
      | _ => exact closing.elim
    · cases done
      cases taken
  obtain ⟨new, emits⟩ := grows
  refine ⟨segments ++ [.advance app env], events ++ new, run.snoc trivial ?_, ?_⟩
  · simp only [CallTrace.step, taken, Option.map_some, emits.emittedBy]
  · exact emitted.trans emits

theorem Traced.answer {signal : CopySignal} {order : Order}
    (h : Traced cfg trade app₀ app (.submitting signal order))
    (response : Except ExecutionError Acknowledgement) (now : DateTime) :
    Traced cfg trade app₀ (app.answer signal order response now).1
      (app.answer signal order response now).2 := by
  obtain ⟨segments, events, run, emitted⟩ := h
  obtain ⟨new, emits, _⟩ := app.answer_reports signal order response now
  refine ⟨segments ++ [.answer app response now], events ++ new, run.snoc trivial ?_, ?_⟩
  · simp only [CallTrace.step, emits.emittedBy]
  · exact emitted.trans emits

theorem Traced.booked {signal : CopySignal} {fills : List Fill}
    (h : Traced cfg trade app₀ app (.booking signal fills)) (env : CallEnv) :
    Traced cfg trade app₀
      ((fills.foldl (AppState.bookFill signal) app).report signal env.concludedAt) .done := by
  induction fills generalizing app with
  | nil => exact h.advance env rfl
  | cons f fs ih => exact ih (h.advance env rfl)

theorem Traced.concluded {signal : CopySignal} {order : Order}
    (h : Traced cfg trade app₀ app (.submitting signal order))
    (response : Except ExecutionError Acknowledgement) (env : CallEnv) :
    Traced cfg trade app₀ (app.conclude signal order response env.concludedAt) .done := by
  have answered := h.answer response env.concludedAt
  unfold AppState.answer at answered
  unfold AppState.conclude
  rcases eq : app.answered order response env.concludedAt with ⟨outcome, app'⟩
  rw [eq] at answered
  cases outcome with
  | acknowledged id fills => exact answered.booked env
  | rejected id reason => exact answered
  | ambiguous id detail => exact answered

variable {A : Type} (adapter : ExecutionAdapter A) (a : A)

theorem Traced.placed {wallet : TargetWallet} {signal : CopySignal} {book : Option OrderBook}
    (h : Traced cfg trade app₀ app (.signalled trade wallet signal book)) (env : CallEnv) :
    Traced cfg trade app₀ (app.placed adapter a env trade wallet signal book).1.1 .done := by
  unfold AppState.placed
  rcases eq : app.decide trade wallet signal book env.orderId env.decidedAt with ⟨app', decision⟩
  cases decision with
  | refused r =>
    have refused : Traced cfg trade app₀ app' (.refused signal r) :=
      h.advance env (by simp only [AppState.advance, eq])
    exact refused.advance env rfl
  | unregistered => exact h.advance env (by simp only [AppState.advance, eq])
  | submitting order =>
    have submitting : Traced cfg trade app₀ app' (.submitting signal order) :=
      h.advance env (by simp only [AppState.advance, eq])
    exact submitting.concluded (adapter.submit a order.request).1 env

theorem Traced.copied {wallet : TargetWallet} {book : Option OrderBook} {env : CallEnv}
    (h : Traced cfg trade app₀ (app.toSignal cfg trade wallet book env).1
      (app.toSignal cfg trade wallet book env).2) :
    Traced cfg trade app₀ (app.copyTrade cfg adapter a env trade wallet book).1.1 .done := by
  unfold AppState.toSignal at h
  unfold AppState.copyTrade
  rcases eq : app.priced cfg trade wallet book env.signalId env.pricedAt with ⟨app', _ | signal⟩
  · rw [eq] at h
    exact h
  · rw [eq] at h
    exact h.placed adapter a env

/-- The whole call in one piece is a run of its segments. -/
theorem onSourceTrade_traced (cfg : StrategyConfig) (app : AppState) (env : CallEnv)
    (trade : SourceTrade) :
    Traced cfg trade app (app.onSourceTrade cfg adapter a env trade).1.1 .done := by
  have recorded := Traced.recorded cfg trade app env.executed
  unfold AppState.onSourceTrade AppState.received
  generalize app.recordSource env.executed trade = at_ at recorded
  cases tracked : at_.tracker.getWallet trade.trader with
  | none => exact recorded.advance env (by simp only [AppState.advance,
      AppState.received, tracked])
  | some wallet =>
    simp only [AppState.bookFor]
    split
    next b cached =>
      refine Traced.copied adapter a (recorded.advance env ?_)
      simp only [AppState.advance, AppState.received, tracked, cached]
    next cached =>
      have fetching : Traced cfg trade app (at_.emit (.sourceTradeDetected trade))
          (.fetching trade wallet) := by
        refine recorded.advance env ?_
        simp only [AppState.advance, AppState.received, tracked, cached]
      exact Traced.copied adapter a (fetching.advance env rfl)

end RunToCompletion

/-- A call always ends, and it has reported on its trade exactly when each of its segments found
the wallet tracked and the adapter sure of what became of the order. -/
theorem outcome_reported_iff (cfg : StrategyConfig) (trade : SourceTrade) :
    (∀ segments c, Run (CallTrace.step cfg) Anywhere (.start trade) segments c →
      c.stage = .done →
      (Reported trade c.events ↔ Run (CallTrace.step cfg) Speaks (.start trade) segments c)) ∧
    WellFounded (fun c' c : CallTrace => ∃ segment, c.step cfg segment = some c') ∧
    ∀ c : CallTrace, c.stage ≠ .done → ∀ app env response now,
      ∃ segment ∈ [CallSegment.advance app env, .answer app response now],
        (c.step cfg segment).isSome := by
  refine ⟨?_, CallTrace.step_wellFounded cfg, fun c running => CallTrace.goes_on cfg running⟩
  intro segments c run done
  rcases CallTrace.announced run with rfl | ⟨rest, events⟩
  · cases done
  rw [events, reported_iff, ← events]
  rcases CallTrace.phase run with ⟨spoken, ⟨waits, _⟩ | ⟨_, outcome⟩⟩ | ⟨silent, _, none_⟩
  · rw [done] at waits
    exact waits.elim
  · exact iff_of_true outcome spoken
  · exact iff_of_false none_ silent

theorem outcome_reported_sample : ∃ segments c,
    Run (CallTrace.step .default) Speaks (.start .sample) segments c ∧ c.stage = .done ∧
      Reported .sample c.events := by
  obtain ⟨segments, events, run, emitted⟩ :=
    onSourceTrade_traced acceptingVenue () .default .sample .sample .sample
  have accepted : HasOutcome SourceTrade.sample.correlationId (emittedBy .sample
      (AppState.sample.onSourceTrade .default acceptingVenue () .sample .sample).1.1) := by
    decide +kernel
  rw [emitted.emittedBy] at accepted
  rcases CallTrace.announced run with start | ⟨rest, announced⟩
  · cases start
  have announced : events = .sourceTradeDetected .sample :: rest := announced
  rw [announced] at run accepted
  have reported := reported_iff.mpr accepted
  obtain ⟨iff_, _⟩ := outcome_reported_iff .default .sample
  exact ⟨segments, _, (iff_ segments _ run rfl).mp reported, rfl, reported⟩

/-- A venue whose answers never arrive in time. -/
def silentVenue : ExecutionAdapter Unit where
  submit _ _ := (.error (.ambiguous "timeout after sending"), ())
  cancel _ _ _ := (.ok (), ())

theorem outcome_not_reported :
    (¬Reported .sample (emittedBy { AppState.sample with tracker := .new [] }
      (AppState.onSourceTrade .default acceptingVenue { AppState.sample with tracker := .new [] } ()
        .sample .sample).1.1)) ∧
    ¬Reported .sample (emittedBy .sample
      (AppState.sample.onSourceTrade .default silentVenue () .sample .sample).1.1) := by
  constructor
  · intro claim
    have outcome := claim.hasOutcome
    revert outcome
    decide +kernel
  · intro claim
    have outcome := claim.hasOutcome
    revert outcome
    decide +kernel

end CopyTrading
