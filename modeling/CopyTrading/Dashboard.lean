import CopyTrading.LatencyStages
import CopyTrading.OrderCalls
import CopyTrading.OrderRecovery
import CopyTrading.OrdersInFlight
import CopyTrading.RecentWindow

namespace CopyTrading

open RecentWindow

/-- A recent copy-trading row, joined for the dashboard. Amounts and times are not yet text. -/
structure CopyRow where
  correlationId : CorrelationId
  sourceEventId : SourceEventId
  wallet : Address
  walletNickname : String
  marketTitle : String
  outcome : String
  side : Side
  sourceNotional : Usd
  copyNotional : Usd
  sourcePrice : Price
  copyPrice : Option Price
  slippageBps : Option Int
  status : String
  detectionUs : Option Int
  executionUs : Option Int
  endToEndUs : Option Int
  at_ : DateTime
  deriving DecidableEq

/-- Recent activity, the newest first. -/
structure RecentActivity where
  sourceTrades : List SourceTrade
  copies : List CopyRow
  cap : Nat

namespace RecentActivity

def new (cap : Nat) : RecentActivity := ⟨[], [], cap⟩

variable (r : RecentActivity)

def addSourceTrade (t : SourceTrade) : RecentActivity :=
  { r with sourceTrades := push r.cap t r.sourceTrades }

def addCopy (c : CopyRow) : RecentActivity := { r with copies := push r.cap c r.copies }

def updateCopy (corr : CorrelationId) (f : CopyRow → CopyRow) : RecentActivity :=
  { r with copies := amend (fun c => c.correlationId = corr) f r.copies }

/-- What a request for so many rows is answered with. -/
def copiesUpTo (n : Nat) : List CopyRow := r.copies.take n

end RecentActivity

structure Metrics where
  sourceTradesTotal : UInt64
  sourceTradesSkippedTotal : UInt64
  copySignalsTotal : UInt64
  ordersSubmittedTotal : UInt64
  ordersAcknowledgedTotal : UInt64
  ordersFilledTotal : UInt64
  ordersRejectedTotal : UInt64
  riskRejectionsTotal : UInt64
  killSwitchActivationsTotal : UInt64
  rejectionsByCode : AList fun _ : String => UInt64
  latency : LatencyRecorder

namespace Metrics

def new : Metrics := ⟨0, 0, 0, 0, 0, 0, 0, 0, 0, ∅, .new⟩

def recordRejection (m : Metrics) (code : String) : Metrics :=
  { m with
    riskRejectionsTotal := m.riskRejectionsTotal + 1
    rejectionsByCode := m.rejectionsByCode.upsert code 0 (· + 1) }

end Metrics

/-- What has become of a copy. -/
inductive Fate
  /-- There is no verdict on it. -/
  | open_
  | refused (r : RiskRejection)
  | unregistered
  /-- The adapter has it. -/
  | sent
  | acknowledged (order : Order)
  | rejected
  | unknown

/-- A call of the pipeline with what it holds from one segment to the next. -/
structure CopyCall where
  stage : Stage
  trade : SourceTrade
  /-- The order as it was read when the adapter answered. -/
  orderRow : Option Order
  /-- A fill is being stored, and is counted after that. -/
  uncounted : Bool
  /-- The row that the call put on the dashboard. -/
  row : Option CopyRow
  fate : Fate

def CopyCall.start (trade : SourceTrade) : CopyCall :=
  ⟨.inserted trade, trade, none, false, none, .open_⟩

/-- `s.round().try_into().ok()`. -/
def toI64 (d : Decimal) : Option Int :=
  let r := roundHalfEven d
  if -i64Max - 1 ≤ r ∧ r ≤ i64Max then some r else none

/-- The row of a copy before there is a verdict. -/
def copyRow (trade : SourceTrade) (wallet : TargetWallet) (signal : CopySignal) (now : DateTime) :
    CopyRow where
  correlationId := signal.correlationId
  sourceEventId := signal.sourceEventId
  wallet := signal.targetWallet
  walletNickname := wallet.nickname
  marketTitle := trade.marketTitle
  outcome := signal.outcome
  side := signal.side
  sourceNotional := signal.targetNotional
  copyNotional := signal.copyNotional
  sourcePrice := signal.targetPrice
  copyPrice := none
  slippageBps := none
  status := "SIGNAL"
  detectionUs :=
    (LatencyStamps.fromSource trade.sourceTs false trade.detectedTs).detectionUs
  executionUs := none
  endToEndUs := none
  at_ := now

namespace CopyRow

def refused (r : RiskRejection) (c : CopyRow) : CopyRow :=
  { c with status := "REJECTED:" ++ r.code }

/-- The figures of the order as it was read, against the price and the side of the signal. -/
def executed (o : Order) (target : Price) (side : Side) (c : CopyRow) : CopyRow :=
  { c with
    status := o.state.asStr
    copyPrice := o.avgFillPrice
    slippageBps := o.avgFillPrice.bind fun p => toI64 (CopyTrading.slippageBps target p side)
    executionUs := o.latency.executionUs
    endToEndUs := o.latency.endToEndUs }

def withStatus (status : String) (c : CopyRow) : CopyRow := { c with status := status }

end CopyRow

/-- What one segment of a call writes to the dashboard. -/
def RecentActivity.advance (r : RecentActivity) (call : CopyCall) (env : CallEnv) :
    RecentActivity :=
  match call.stage with
  | .signalled trade wallet signal _ => r.addCopy (copyRow trade wallet signal env.decidedAt)
  | .refused signal rejection => r.updateCopy signal.correlationId (.refused rejection)
  | .booking signal [] =>
    match call.orderRow with
    | some o => r.updateCopy signal.correlationId (.executed o signal.targetPrice signal.side)
    | none => r
  | _ => r

/-- What one segment of a call counts, given where it ends. -/
def Metrics.advance (m : Metrics) (app : AppState) (call : CopyCall) (next : Stage) : Metrics :=
  match call.stage, next with
  | .inserted trade, next =>
    let m := { m with latency :=
      m.latency.recordAll (.fromSource trade.sourceTs false trade.detectedTs) }
    match next with
    | .signalled .. => { m with copySignalsTotal := m.copySignalsTotal + 1 }
    | .done =>
      if (app.tracker.getWallet trade.trader).isSome then
        { m with sourceTradesSkippedTotal := m.sourceTradesSkippedTotal + 1 }
      else m
    | _ => m
  | .fetching .., .signalled .. => { m with copySignalsTotal := m.copySignalsTotal + 1 }
  | .fetching .., _ => { m with sourceTradesSkippedTotal := m.sourceTradesSkippedTotal + 1 }
  | .signalled .., .refused _ r => m.recordRejection r.code
  | .signalled .., .submitting .. => { m with ordersSubmittedTotal := m.ordersSubmittedTotal + 1 }
  | .refused _ r, _ =>
    if RiskEngine.shouldAutoEngageKillSwitch r then
      { m with killSwitchActivationsTotal := m.killSwitchActivationsTotal + 1 }
    else m
  | .booking .., _ =>
    if call.uncounted then { m with ordersFilledTotal := m.ordersFilledTotal + 1 } else m
  | _, _ => m

/-- The call after one segment. -/
def CopyCall.advance (call : CopyCall) (next : Stage) (env : CallEnv) : CopyCall :=
  { call with
    stage := next
    uncounted := match call.stage with
      | .booking _ (_ :: _) => true
      | _ => false
    row := match call.stage with
      | .signalled trade wallet signal _ => some (copyRow trade wallet signal env.decidedAt)
      | _ => call.row
    fate := match call.stage, next with
      | .signalled .., .refused _ r => .refused r
      | .signalled .., .submitting .. => .sent
      | .signalled .., _ => .unregistered
      | _, _ => call.fate }

structure DeskRun where
  app : AppState
  calls : List CopyCall
  recent : RecentActivity
  metrics : Metrics
  /-- The calls that put a row on the dashboard, the latest first. -/
  shown : List Nat

inductive DeskEvent
  | spawn (executed : Bool) (trade : SourceTrade)
  | advance (i : Nat) (env : CallEnv)
  | answer (i : Nat) (response : Except ExecutionError Acknowledgement) (now : DateTime)
  /-- The rest of the process; some counters are not the pipeline's alone. -/
  | elsewhere (app : AppState) (skipped filled activations : UInt64)

namespace DeskRun

def start (app : AppState) (cap : Nat) : DeskRun := ⟨app, [], .new cap, .new, []⟩

def spawn (s : DeskRun) (executed : Bool) (trade : SourceTrade) : DeskRun :=
  { s with
    app := s.app.recordSource executed trade
    calls := s.calls ++ [.start trade]
    recent := s.recent.addSourceTrade trade
    metrics := { s.metrics with sourceTradesTotal := s.metrics.sourceTradesTotal + 1 } }

def advance (cfg : StrategyConfig) (s : DeskRun) (i : Nat) (env : CallEnv) : Option DeskRun :=
  match s.calls[i]? with
  | none => none
  | some call => (s.app.advance cfg env call.stage).map fun (app, next) =>
    { app := app
      calls := s.calls.set i (call.advance next env)
      recent := s.recent.advance call env
      metrics := s.metrics.advance s.app call next
      shown := match call.stage with
        | .signalled .. => i :: s.shown
        | _ => s.shown }

/-- The adapter's answer, up to the write of the order's row. -/
def answer (s : DeskRun) (i : Nat) (response : Except ExecutionError Acknowledgement)
    (now : DateTime) : Option DeskRun :=
  match s.calls[i]? with
  | none => none
  | some call =>
    match call.stage with
    | .submitting signal order =>
      let (app, next) := s.app.answer signal order response now
      match (s.app.answered order response now).1 with
      | .acknowledged .. =>
        let orderRow := app.orders.get order.id
        some { s with
          app := app
          calls := s.calls.set i { call with
            stage := next
            orderRow := orderRow
            fate := orderRow.elim call.fate .acknowledged }
          metrics := { s.metrics with
            ordersAcknowledgedTotal := s.metrics.ordersAcknowledgedTotal + 1
            latency := orderRow.elim s.metrics.latency fun o =>
              s.metrics.latency.recordAll o.latency } }
      | .rejected .. => some { s with
          app := app
          calls := s.calls.set i { call with stage := next, fate := .rejected }
          recent := s.recent.updateCopy signal.correlationId (.withStatus "REJECTED")
          metrics := { s.metrics with
            ordersRejectedTotal := s.metrics.ordersRejectedTotal + 1 } }
      | .ambiguous .. => some { s with
          app := app
          calls := s.calls.set i { call with stage := next, fate := .unknown }
          recent := s.recent.updateCopy signal.correlationId (.withStatus "UNKNOWN") }
    | _ => none

def step (cfg : StrategyConfig) (s : DeskRun) : DeskEvent → Option DeskRun
  | .spawn executed trade => some (s.spawn executed trade)
  | .advance i env => s.advance cfg i env
  | .answer i response now => s.answer i response now
  | .elsewhere app skipped filled activations => some { s with
      app := app
      metrics := { s.metrics with
        sourceTradesSkippedTotal := skipped
        ordersFilledTotal := filled
        killSwitchActivationsTotal := activations } }

end DeskRun

end CopyTrading
