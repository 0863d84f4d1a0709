import CopyTrading.PipelineStages
import CopyTrading.StepRun

namespace CopyTrading

open StepRun

/-- The handler that engages the kill switch and then cancels what is open. -/
inductive Handler
  | idle
  | auditing
  | sweeping (rest : List OrderId) (ok fail : Nat)
  /-- The adapter is awaited, with the copy of the order that will be written back. -/
  | awaiting (order : Order) (rest : List OrderId) (ok fail : Nat)
  | finished (ok fail : Nat)

/-- Calls of the pipeline beside one engagement of the kill switch. -/
structure HaltRace where
  app : AppState
  runs : List Stage
  handler : Handler
  /-- Acknowledged by the adapter as not finished, and neither cancelled nor finished there since. -/
  acked : List OrderId
  /-- Handed to the adapter after the handler had engaged the kill switch. -/
  late : List OrderId
  /-- The orders whose state refused the sweep's cancellation, with that state. -/
  refused : List (OrderId × Option OrderState)

inductive HaltEvent
  | spawn (env : CallEnv) (trade : SourceTrade)
  | advance (i : Nat) (env : CallEnv)
  | answer (i : Nat) (response : Except ExecutionError Acknowledgement) (now : DateTime)
  | engage (reason : String) (now : DateTime)
  /-- The sweep begins, in the order in which the map enumerates the open orders. -/
  | sweep (ids : List OrderId)
  | cancelNext (now : DateTime)
  | cancelled (response : Except ExecutionError Unit) (now : DateTime)
  /-- The venue fills what is left of an order. -/
  | finished (id : OrderId)

def Handler.isIdle : Handler → Bool
  | .idle => true
  | _ => false

def taken : Except ExecutionError Unit → Bool
  | .ok () => true
  | .error _ => false

/-- The ids that a response acknowledges as not finished. -/
def ackedBy (id : OrderId) : Except ExecutionError Acknowledgement → List OrderId
  | .ok ack => if ack.terminal then [] else [id]
  | .error _ => []

variable (cfg : StrategyConfig)

def HaltRace.start (app : AppState) : HaltRace := ⟨app, [], .idle, [], [], []⟩

def HaltRace.advance (s : HaltRace) (i : Nat) (env : CallEnv) : Option HaltRace :=
  -- order ids are freshly drawn
  if (s.app.orders.get env.orderId).isSome then none
  else do
    let stage ← s.runs[i]?
    let (app, stage) ← s.app.advance cfg env stage
    some { s with
      app := app
      runs := s.runs.set i stage
      late := s.late ++ if s.handler.isIdle then [] else (stage.pending.map Order.id).toList }

def HaltRace.answer (s : HaltRace) (i : Nat) (response : Except ExecutionError Acknowledgement)
    (now : DateTime) : Option HaltRace :=
  match s.runs[i]? with
  | some (.submitting signal order) =>
    let (app, stage) := s.app.answer signal order response now
    some { s with
      app := app
      runs := s.runs.set i stage
      acked := s.acked ++ ackedBy order.id response }
  | _ => none

def HaltRace.cancelNext (s : HaltRace) (now : DateTime) : Option HaltRace :=
  match s.handler with
  | .sweeping (id :: rest) ok fail =>
    match s.app.orders.cancelBegin id now with
    | .ok (order, om) => some { s with
        app := { s.app with orders := om }
        handler := .awaiting order rest ok fail }
    | .error _ => some { s with
        handler := .sweeping rest ok (fail + 1)
        refused := s.refused ++ [(id, (s.app.orders.get id).map Order.state)] }
  | .sweeping [] ok fail => some { s with handler := .finished ok fail }
  | _ => none

/-- The adapter answers the sweep. It does not refuse what it has acknowledged as unfinished. -/
def HaltRace.cancelled (s : HaltRace) (response : Except ExecutionError Unit) (now : DateTime) :
    Option HaltRace :=
  match s.handler with
  | .awaiting order rest ok fail =>
    if order.id ∈ s.acked ∧ !taken response then none
    else
      let (result, om) := s.app.orders.cancelFinish order response now
      let s := { s with
        app := { s.app with orders := om }
        acked := if taken response then s.acked.filter (· ≠ order.id) else s.acked }
      match result with
      | .ok () => some { s with handler := .sweeping rest (ok + 1) fail }
      | .error _ => some { s with handler := .sweeping rest ok (fail + 1) }
  | _ => none

def HaltRace.step (s : HaltRace) : HaltEvent → Option HaltRace
  | .spawn env trade => some { s with
      app := s.app.recordSource env.executed trade
      runs := s.runs ++ [.inserted trade] }
  | .advance i env => s.advance cfg i env
  | .answer i response now => s.answer i response now
  | .engage reason now =>
    if s.handler.isIdle then
      let app := { s.app with
        killSwitch := (s.app.killSwitch.setCancelOpenOrders true).engage reason "api" now }
      some { s with
        app := app.emit (.killSwitchActivated reason "api" now)
        handler := .auditing }
    else none
  | .sweep ids =>
    match s.handler with
    | .auditing =>
      if ids.Perm (s.app.orders.openOrders.map Order.id) then
        some { s with handler := .sweeping ids 0 0 }
      else none
    | _ => none
  | .cancelNext now => s.cancelNext now
  | .cancelled response now => s.cancelled response now
  | .finished id => some { s with acked := s.acked.filter (· ≠ id) }

def Stage.isDone : Stage → Bool
  | .done => true
  | _ => false

def HaltRace.returned (s : HaltRace) : Bool :=
  match s.handler with
  | .finished .. => s.runs.all Stage.isDone
  | _ => false

end CopyTrading
