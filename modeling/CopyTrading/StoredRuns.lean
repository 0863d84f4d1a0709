import CopyTrading.OrdersInFlight
import CopyTrading.StoredChain

namespace CopyTrading

open Holders StepRun

/-- The signal that a call is storing, before it decides on its order. -/
def Stage.signal : Stage → Option CopySignal
  | .signalled _ _ signal _ => some signal
  | _ => none

/-- A call of the pipeline, or another task, with the writes it awaits in turn. -/
structure Writer where
  stage : Stage
  todo : List Statement

def Writer.signal (w : Writer) : Option CopySignal := w.stage.signal

def Writer.pending (w : Writer) : Option Order := w.stage.pending

structure ChainRun where
  app : AppState
  writers : List Writer
  tables : CopyTables
  /-- The signals that the strategy has generated. -/
  generated : List CopySignal
  /-- The fills that were booked and handed to the store. -/
  booked : List Fill

inductive ChainEvent
  | spawn (env : CallEnv) (trade : SourceTrade)
  | advance (i : Nat) (env : CallEnv)
  | answer (i : Nat) (response : Except ExecutionError Acknowledgement) (now : DateTime)
  /-- A resting order fills on a book of the polling task, which writes order and fill. -/
  | polled (f : Fill)
  /-- A resting order fills on a book of the stream or of the demo, which write nothing. -/
  | streamed (f : Fill)
  | written (i : Nat) (executed : Bool)

namespace ChainRun

def start (app : AppState) (tables : CopyTables) : ChainRun := ⟨app, [], tables, [], []⟩

/-- The ids that are offered to a segment have not been drawn before. -/
def Fresh (s : ChainRun) (env : CallEnv) : Prop :=
  (s.app.orders.get env.orderId).isNone ∧ s.tables.stored env.orderId = false ∧
    s.tables.signalStored env.signalId = false ∧ ∀ g ∈ s.generated, g.signalId ≠ env.signalId

instance (s : ChainRun) (env : CallEnv) : Decidable (s.Fresh env) :=
  inferInstanceAs (Decidable (_ ∧ _))

/-- The fills that a segment books. -/
def books : Stage → List Fill
  | .booking _ (f :: _) => [f]
  | _ => []

/-- A segment ends by awaiting the store for its signal or for the fill that it has booked. -/
def advance (cfg : StrategyConfig) (s : ChainRun) (i : Nat) (env : CallEnv) : Option ChainRun :=
  if s.Fresh env then
    match s.writers[i]? with
    | some ⟨stage, []⟩ => (s.app.advance cfg env stage).map fun (app, next) => { s with
        app := app
        writers := s.writers.set i
          ⟨next, next.signal.toList.map .insertSignal ++ (books stage).map .insertFill⟩
        generated := s.generated ++ next.signal.toList
        booked := s.booked ++ books stage }
    | _ => none
  else none

/-- Every outcome of the submission is followed by a write of the order's row, before its fills. -/
def answer (s : ChainRun) (i : Nat) (response : Except ExecutionError Acknowledgement)
    (now : DateTime) : Option ChainRun :=
  match s.writers[i]? with
  | some ⟨.submitting signal order, []⟩ =>
    let (app, next) := s.app.answer signal order response now
    some { s with
      app := app
      writers := s.writers.set i ⟨next, (app.orders.get order.id).toList.map .upsertOrder⟩ }
  | _ => none

/-- A fill of a resting order, applied and booked. -/
def external (app : AppState) (f : Fill) : Option AppState :=
  match app.orders.applyExternalFill f with
  | .error _ => none
  | .ok om => some { app with orders := om, portfolio := (app.portfolio.applyFill f "").2 }

def step (cfg : StrategyConfig) (s : ChainRun) : ChainEvent → Option ChainRun
  | .spawn env trade => some { s with
      app := s.app.recordSource env.executed trade
      writers := s.writers ++ [⟨.inserted trade, []⟩] }
  | .advance i env => s.advance cfg i env
  | .answer i response now => s.answer i response now
  | .polled f => (external s.app f).map fun app => { s with
      app := app
      writers := s.writers ++
        [⟨.done, (app.orders.get f.orderId).toList.map .upsertOrder ++ [.insertFill f]⟩]
      booked := s.booked ++ [f] }
  | .streamed f => (external s.app f).map fun app => { s with app := app }
  | .written i executed =>
    match s.writers[i]? with
    | some ⟨stage, st :: rest⟩ => some { s with
        writers := s.writers.set i ⟨stage, rest⟩
        tables := if executed then s.tables.exec s.app.repos st else s.tables }
    | _ => none

end ChainRun

/-- An environment that offers these ids. -/
def CallEnv.drawing (k : Nat) : CallEnv := { CallEnv.sample with signalId := ⟨k⟩, orderId := ⟨k⟩ }

/-- What one step does to the orders, to the writers and to the tables. -/
inductive ChainEffect (s : ChainRun) : ChainEvent → ChainRun → Prop
  | spawned {env : CallEnv} {trade : SourceTrade} {app : AppState}
      (orders : app.orders.orders = s.app.orders.orders) :
      ChainEffect s (.spawn env trade)
        { s with app := app, writers := s.writers ++ [⟨.inserted trade, []⟩] }
  | moved {i : Nat} {env : CallEnv} {app : AppState} {old next : Stage} {fs : List Fill}
      (here : s.writers[i]? = some ⟨old, []⟩) (answered : old.pending = none)
      (orders : app.orders.orders = s.app.orders.orders) (signal : next.signal = none)
      (pending : next.pending = none) (unbooked : old.unbooked = fs ++ next.unbooked) :
      ChainEffect s (.advance i env) { s with
        app := app
        writers := s.writers.set i ⟨next, fs.map .insertFill⟩
        booked := s.booked ++ fs }
  | signalled {i : Nat} {env : CallEnv} {app : AppState} {old next : Stage} {g : CopySignal}
      (fresh : s.Fresh env) (here : s.writers[i]? = some ⟨old, []⟩) (answered : old.pending = none)
      (orders : app.orders.orders = s.app.orders.orders) (signal : next.signal = some g)
      (drawn : g.signalId = env.signalId) (pending : next.pending = none)
      (unbooked : next.unbooked = []) :
      ChainEffect s (.advance i env) { s with
        app := app
        writers := s.writers.set i ⟨next, [.insertSignal g]⟩
        generated := s.generated ++ [g] }
  | submitted {i : Nat} {env : CallEnv} {app : AppState} {old next : Stage} {g : CopySignal}
      {o : Order} (fresh : s.Fresh env) (here : s.writers[i]? = some ⟨old, []⟩)
      (answered : old.pending = none) (signal : old.signal = some g) (idle : next.signal = none)
      (pending : next.pending = some o) (unbooked : next.unbooked = []) (drawn : o.id = env.orderId)
      (refers : o.request.signalId = some g.signalId)
      (orders : app.orders.orders = s.app.orders.orders.insert o.id o) :
      ChainEffect s (.advance i env)
        { s with app := app, writers := s.writers.set i ⟨next, []⟩ }
  | answered {i : Nat} {response : Except ExecutionError Acknowledgement} {now : DateTime}
      {app : AppState} {old next : Stage} {o : Order} (here : s.writers[i]? = some ⟨old, []⟩)
      (pending : old.pending = some o) (signal : next.signal = none) (idle : next.pending = none)
      (fills : next.unbooked = o.appliedFills response now)
      (orders : app.orders.orders = s.app.orders.orders.insert o.id (o.answered response now)) :
      ChainEffect s (.answer i response now) { s with
        app := app
        writers := s.writers.set i ⟨next, [.upsertOrder (o.answered response now)]⟩ }
  | polled {f : Fill} {app : AppState} {o : Order} (held : s.app.orders.get f.orderId = some o)
      (orders : app.orders.orders = s.app.orders.orders.insert o.id (o.withFill f)) :
      ChainEffect s (.polled f) { s with
        app := app
        writers := s.writers ++
          [⟨.done, (app.orders.get f.orderId).toList.map .upsertOrder ++ [.insertFill f]⟩]
        booked := s.booked ++ [f] }
  | streamed {f : Fill} {app : AppState} {o : Order} (held : s.app.orders.get f.orderId = some o)
      (orders : app.orders.orders = s.app.orders.orders.insert o.id (o.withFill f)) :
      ChainEffect s (.streamed f) { s with app := app }
  | written {i : Nat} {executed : Bool} {stage : Stage} {st : Statement} {rest : List Statement}
      (here : s.writers[i]? = some ⟨stage, st :: rest⟩) :
      ChainEffect s (.written i executed) { s with
        writers := s.writers.set i ⟨stage, rest⟩
        tables := if executed then s.tables.exec s.app.repos st else s.tables }

/-- A segment that ends in a signal has drawn its id, one that ends at the adapter has had one. -/
theorem AppState.advance_signals {cfg : StrategyConfig} {app app' : AppState} {env : CallEnv}
    {stage next : Stage} (h : app.advance cfg env stage = some (app', next)) :
    (next.signal = none ∧ next.pending = none ∧
      stage.unbooked = ChainRun.books stage ++ next.unbooked) ∨
    (∃ g, next.signal = some g ∧ g.signalId = env.signalId ∧ next.pending = none ∧
      next.unbooked = [] ∧ ChainRun.books stage = []) ∨
    ∃ g o, stage.signal = some g ∧ next.signal = none ∧ next.pending = some o ∧
      next.unbooked = [] ∧ ChainRun.books stage = [] ∧ o.request.signalId = some g.signalId := by
  have priced : ∀ (app : AppState) (trade : SourceTrade) (wallet : TargetWallet)
      (book : Option OrderBook), app.toSignal cfg trade wallet book env = (app', next) →
      (next.signal = none ∧ next.pending = none ∧ next.unbooked = []) ∨
        ∃ g, next.signal = some g ∧ g.signalId = env.signalId ∧ next.pending = none ∧
          next.unbooked = [] := by
    intro app trade wallet book eq
    unfold toSignal AppState.priced at eq
    split at eq
    next signal found =>
      cases eq
      refine .inr ⟨signal, rfl, ?_, rfl, rfl⟩
      split at found
      next signal' generated =>
        cases found
        obtain ⟨_, _, _, _, _, _, _, rfl⟩ := CopyTrader.onSourceTrade_ok generated
        rfl
      next => cases found
    next => cases eq; exact .inl ⟨rfl, rfl, rfl⟩
  cases stage with
  | inserted trade =>
    simp only [advance, received] at h
    split at h
    next => cases h; exact .inl ⟨rfl, rfl, rfl⟩
    next app₁ wallet eq =>
      split at h
      next b _ =>
        rcases priced _ trade wallet (some b) (Option.some.inj h) with quiet | ⟨g, signal⟩
        · exact .inl ⟨quiet.1, quiet.2.1, by rw [quiet.2.2]; rfl⟩
        · exact .inr (.inl ⟨g, signal.1, signal.2.1, signal.2.2.1, signal.2.2.2, rfl⟩)
      next => cases h; exact .inl ⟨rfl, rfl, rfl⟩
  | fetching trade wallet =>
    rcases priced _ trade wallet env.fetched (Option.some.inj h) with quiet | ⟨g, signal⟩
    · exact .inl ⟨quiet.1, quiet.2.1, by rw [quiet.2.2]; rfl⟩
    · exact .inr (.inl ⟨g, signal.1, signal.2.1, signal.2.2.1, signal.2.2.2, rfl⟩)
  | signalled trade wallet signal book =>
    simp only [advance] at h
    rcases app.decide_cases trade wallet signal book env.orderId env.decidedAt with
      ⟨r, _, ends, _⟩ | ⟨_, ⟨_, ends, _⟩ | ⟨order, ends, handed⟩⟩
    · split at h
      next => cases h; exact .inl ⟨rfl, rfl, rfl⟩
      next => cases h; exact .inl ⟨rfl, rfl, rfl⟩
      next eq => rw [eq] at ends; cases ends
    · split at h
      next => cases h; exact .inl ⟨rfl, rfl, rfl⟩
      next => cases h; exact .inl ⟨rfl, rfl, rfl⟩
      next eq => rw [eq] at ends; cases ends
    · split at h
      next eq => rw [eq] at ends; cases ends
      next eq => rw [eq] at ends; cases ends
      next eq =>
        rw [eq] at ends
        cases ends
        cases h
        refine .inr (.inr ⟨signal, order, rfl, rfl, rfl, rfl, rfl, ?_⟩)
        rw [handed.request]
        rfl
  | refused signal r => cases h; exact .inl ⟨rfl, rfl, rfl⟩
  | submitting signal order => cases h
  | booking signal fills =>
    cases fills with
    | nil => cases h; exact .inl ⟨rfl, rfl, rfl⟩
    | cons f fs => cases h; exact .inl ⟨rfl, rfl, rfl⟩
  | done => cases h

/-- A call does not go on while the adapter has its order. -/
theorem AppState.advance_answered {cfg : StrategyConfig} {app app' : AppState} {env : CallEnv}
    {stage next : Stage} (h : app.advance cfg env stage = some (app', next)) :
    stage.pending = none := by
  cases stage with
  | submitting signal order => cases h
  | _ => rfl

namespace ChainRun

variable {cfg : StrategyConfig} {s s' : ChainRun}

theorem external_some {app app' : AppState} {f : Fill} (h : external app f = some app') :
    ∃ o, app.orders.get f.orderId = some o ∧
      app'.orders.orders = app.orders.orders.insert o.id (o.withFill f) := by
  unfold external at h
  split at h
  next => cases h
  next om accepted =>
    cases h
    obtain ⟨o, held, _, _, orders⟩ := OrderManager.applyExternalFill_ok accepted
    exact ⟨o, held, orders⟩

theorem advance_effect {i : Nat} {env : CallEnv} (taken : s.advance cfg i env = some s') :
    ChainEffect s (.advance i env) s' := by
  unfold advance at taken
  split at taken
  next fresh =>
    split at taken
    next old here =>
      obtain ⟨⟨app, next⟩, advanced, taken⟩ := Option.map_eq_some_iff.mp taken
      cases taken
      have orders := AppState.advance_cases advanced
      have answered := AppState.advance_answered advanced
      rcases AppState.advance_signals advanced with ⟨signal, pending, unbooked⟩ |
        ⟨g, signal, drawn, pending, unbooked, books⟩ |
        ⟨g, o, signal, idle, pending, unbooked, books, refers⟩
      · simp only [signal, Option.toList_none, List.map_nil, List.nil_append, List.append_nil]
        rcases orders with ⟨_, quiet⟩ | ⟨o, other, _⟩
        · exact .moved here answered quiet.orders signal pending unbooked
        · rw [pending] at other
          cases other
      · simp only [signal, books, Option.toList_some, List.map_cons, List.map_nil, List.append_nil]
        rcases orders with ⟨_, quiet⟩ | ⟨o, other, _⟩
        · exact .signalled fresh here answered quiet.orders signal drawn pending unbooked
        · rw [pending] at other
          cases other
      · simp only [idle, books, Option.toList_none, List.map_nil, List.append_nil]
        rcases orders with ⟨other, _⟩ | ⟨o', same, _, _, key, orders⟩
        · rw [pending] at other
          cases other
        · rw [pending] at same
          cases same
          rw [← key] at orders
          exact .submitted fresh here answered signal idle pending unbooked key refers orders
    next => cases taken
  next => cases taken

theorem answer_effect {i : Nat} {response : Except ExecutionError Acknowledgement} {now : DateTime}
    (taken : s.answer i response now = some s') : ChainEffect s (.answer i response now) s' := by
  unfold answer at taken
  split at taken
  next signal order here =>
    obtain ⟨idle, _, orders⟩ := s.app.answer_spec signal order response now
    obtain ⟨_, _, fills⟩ := s.app.answer_fills signal order response now
    have quiet : (s.app.answer signal order response now).2.signal = none := by
      unfold AppState.answer
      split
      · rfl
      · rfl
    have held : (s.app.answer signal order response now).1.orders.get order.id =
        some (order.answered response now) := by
      rw [OrderManager.get_insert orders, if_pos rfl]
    simp only [held, Option.toList_some, List.map_cons, List.map_nil] at taken
    cases taken
    exact .answered here rfl quiet idle fills orders
  next => cases taken

theorem step_effect {e : ChainEvent} (taken : s.step cfg e = some s') : ChainEffect s e s' := by
  cases e with
  | spawn env trade =>
    cases taken
    exact .spawned rfl
  | advance i env => exact advance_effect taken
  | answer i response now => exact answer_effect taken
  | polled f =>
    obtain ⟨app, applied, taken⟩ := Option.map_eq_some_iff.mp taken
    cases taken
    obtain ⟨o, held, orders⟩ := external_some applied
    exact .polled held orders
  | streamed f =>
    obtain ⟨app, applied, taken⟩ := Option.map_eq_some_iff.mp taken
    cases taken
    obtain ⟨o, held, orders⟩ := external_some applied
    exact .streamed held orders
  | written i executed =>
    simp only [step] at taken
    split at taken
    next stage st rest here =>
      cases taken
      exact .written here
    next => cases taken

end ChainRun

end CopyTrading
