import CopyTrading.AssocSum
import CopyTrading.Events
import CopyTrading.StepRun
import CopyTrading.Tracker

namespace CopyTrading

/-- A fill at the venue, as the live feed and as the Data API report it. -/
structure VenueFill where
  live : ParsedTrade
  row : ParsedTrade
  /-- The row's stamp, in whole seconds. -/
  timestamp : Int
  trader : row.trader = live.trader

/-- What the feed task emits. A trade carries the number of the fill it reports. -/
inductive FeedMessage
  | trade (fill : Nat) (t : ParsedTrade)
  | connected (at_ : DateTime)
  | disconnected (at_ : DateTime) (lastTradeAt : Option DateTime) (reason : String)

inductive Link
  | down
  | up
  /-- The subscription is over, and the client has not noticed. -/
  | ended
  deriving DecidableEq

/-- What the consumer of the channel is doing. -/
inductive Consumer
  | idle
  /-- The wallets still to ask for, and the rows of the last answer that are yet to be observed. -/
  | backfilling (since : DateTime) (wallets : List TargetWallet) (batch : BatchOrdinals)
      (rows : List (Nat × ParsedTrade)) (count : Nat)

/-- A backfill request: for whom, from when, and how many fills had happened. -/
structure RestCall where
  wallet : Address
  since : DateTime
  seen : Nat

/-- The venue, the feed task, the channel and its consumer. -/
structure FeedState where
  fills : List VenueFill
  link : Link
  lastTradeAt : Option DateTime
  wire : List Nat
  queue : List FeedMessage
  consumer : Consumer
  tracker : WalletTracker
  events : List SystemEvent
  /-- How many fills had happened at the first successful connection. -/
  first : Option Nat
  /-- How many fills had happened at the last successful connection. -/
  last : Nat
  /-- The fills that happened while no subscription was up. -/
  missed : List Nat
  calls : List RestCall
  /-- The fills whose report was put to the tracker. -/
  offered : List Nat

inductive FeedEvent
  /-- A fill anywhere on the platform. -/
  | happen (f : VenueFill)
  | connect (at_ : DateTime)
  | connectFailed (at_ : DateTime) (reason : String)
  | frame
  | end_
  | drop (at_ : DateTime) (reason : String)
  | consume (corr : CorrelationId)
  /-- The Data API answers with the wallet's fills, in its own order. -/
  | rest (answer : List Nat)
  | row (corr : CorrelationId)
  | finish (now : DateTime)

def FeedState.start (wallets : List TargetWallet) : FeedState where
  fills := []
  link := .down
  lastTradeAt := none
  wire := []
  queue := []
  consumer := .idle
  tracker := .new wallets
  events := []
  first := none
  last := 0
  missed := []
  calls := []
  offered := []

def backfillLimit : Nat := 500

namespace FeedState

def emit (s : FeedState) (e : SystemEvent) : FeedState := { s with events := s.events ++ [e] }

def send (s : FeedState) (m : FeedMessage) : FeedState := { s with queue := s.queue ++ [m] }

def fillsOf (s : FeedState) (a : Address) : List Nat :=
  (List.range s.fills.length).filter fun i => s.fills[i]?.any fun f => f.row.trader = a

/-- Bounded by `since` in whole seconds. -/
def backfillWalletTrades (s : FeedState) (answer : List Nat) (since : DateTime) :
    List (Nat × ParsedTrade) :=
  answer.filterMap fun i => s.fills[i]?.bind fun f =>
    if f.timestamp ≥ timestamp since then some (i, f.row) else none

section Step

variable (digest : List UInt8 → String)

def receive (s : FeedState) (corr : CorrelationId) : FeedMessage → FeedState
  | .connected at_ => s.emit (.feedReconnected "rtds" 0 at_)
  | .disconnected at_ lastTradeAt _ =>
    let gapFrom := lastTradeAt.getD at_
    { s.emit (.feedDisconnected "rtds" gapFrom at_) with
      consumer := .backfilling gapFrom s.tracker.listWallets .new [] 0 }
  | .trade i t => { s with
      tracker := (s.tracker.observeLive digest corr t).2
      offered := i :: s.offered }

def observeRow (s : FeedState) (corr : CorrelationId) (since : DateTime)
    (wallets : List TargetWallet) (batch : BatchOrdinals) (row : Nat × ParsedTrade)
    (rows : List (Nat × ParsedTrade)) (count : Nat) : FeedState :=
  let (detection, tracker, batch) := s.tracker.observeBackfill digest corr row.2 batch
  { s with
    tracker := tracker
    offered := row.1 :: s.offered
    consumer := .backfilling since wallets batch rows
      (if detection.isActionable then count + 1 else count) }

def step (s : FeedState) : FeedEvent → Option FeedState
  | .happen f => some { s with
      fills := s.fills ++ [f]
      wire := if s.link = .up then s.wire ++ [s.fills.length] else s.wire
      missed := if s.link = .up then s.missed else s.missed ++ [s.fills.length] }
  | .connect at_ =>
    if s.link = .down then
      some { s.send (.connected at_) with
        link := .up
        first := some (s.first.getD s.fills.length)
        last := s.fills.length }
    else none
  | .connectFailed at_ reason =>
    if s.link = .down then some (s.send (.disconnected at_ s.lastTradeAt reason)) else none
  | .frame =>
    match s.wire with
    | i :: wire => s.fills[i]?.map fun f =>
      { s.send (.trade i f.live) with wire := wire, lastTradeAt := some f.live.sourceTs }
    | [] => none
  | .end_ => if s.link = .up then some { s with link := .ended } else none
  | .drop at_ reason =>
    -- what was sent is read before the end of the stream is
    if s.link = .ended ∧ s.wire = [] then
      some { s.send (.disconnected at_ s.lastTradeAt reason) with link := .down }
    else none
  | .consume corr =>
    match s.consumer, s.queue with
    | .idle, m :: queue => some ({ s with queue := queue }.receive digest corr m)
    | _, _ => none
  | .rest answer =>
    match s.consumer with
    | .backfilling since (w :: wallets) batch [] count =>
      if !w.enabled then
        some { s with consumer := .backfilling since wallets batch [] count }
      else if answer.Perm (s.fillsOf w.address) ∧ answer.length ≤ backfillLimit then
        some { s with
          calls := ⟨w.address, since, s.fills.length⟩ :: s.calls
          consumer := .backfilling since wallets .new (s.backfillWalletTrades answer since) count }
      else none
    | _ => none
  | .row corr =>
    match s.consumer with
    | .backfilling since wallets batch (row :: rows) count =>
      some (s.observeRow digest corr since wallets batch row rows count)
    | _ => none
  | .finish now =>
    match s.consumer with
    | .backfilling _ [] _ [] count =>
      let s := { s with consumer := .idle }
      some (if count > 0 then s.emit (.feedReconnected "rtds-backfill" count now) else s)
    | _ => none

end Step

/-- Nothing is on its way to the tracker. -/
def drained (s : FeedState) : Bool :=
  match s.consumer with
  | .idle => s.wire.isEmpty && s.queue.isEmpty
  | _ => false

/-- An admitted wallet's fill, after the first connection and before a later one. -/
def Owed (s : FeedState) (i : Nat) : Prop :=
  ∃ f, s.fills[i]? = some f ∧ s.tracker.Admitted f.live ∧ (∃ n, s.first = some n ∧ n ≤ i) ∧
    i < s.last

/-- A request for the wallet's fills was made after this one, from no later second. -/
def Covered (s : FeedState) (i : Nat) : Prop :=
  ∃ f, s.fills[i]? = some f ∧ ∃ c ∈ s.calls, c.wallet = f.live.trader ∧ i < c.seen ∧
    timestamp c.since ≤ f.timestamp

end FeedState

end CopyTrading
