import CopyTrading.Clock
import CopyTrading.Ids
import CopyTrading.Money

namespace CopyTrading

inductive TradeSource
  | rtdsWebsocket
  | restBackfill
  | replay
  | demo
  deriving DecidableEq

/-- A trade parsed from the wire, before dedup assigns its identity. -/
structure ParsedTrade where
  trader : Address
  marketId : MarketId
  tokenId : TokenId
  outcome : String
  side : Side
  price : Price
  quantity : Qty
  txHash : TxHash
  sourceTs : DateTime
  /-- The second-resolution payload stamp had to be used. -/
  sourceIsCoarse : Bool
  detectedTs : DateTime
  marketTitle : String
  marketSlug : String
  source : TradeSource
  deriving DecidableEq

def Price.half : Price := ⟨1 / 2, by norm_num, by norm_num⟩

def ParsedTrade.sample : ParsedTrade where
  trader := .zero
  marketId := .zero
  tokenId := .zero
  outcome := "Down"
  side := .buy
  price := .half
  quantity := ⟨200, by norm_num⟩
  txHash := .zero
  sourceTs := 0
  sourceIsCoarse := false
  detectedTs := 0
  marketTitle := "T"
  marketSlug := "t"
  source := .rtdsWebsocket

structure SourceTrade where
  eventId : SourceEventId
  correlationId : CorrelationId
  trader : Address
  marketId : MarketId
  tokenId : TokenId
  outcome : String
  side : Side
  price : Price
  quantity : Qty
  txHash : TxHash
  /-- Tells genuinely identical fills of one transaction apart. -/
  occurrence : Nat
  sourceTs : DateTime
  detectedTs : DateTime
  source : TradeSource
  marketTitle : String
  marketSlug : String
  deriving DecidableEq

def SourceTrade.notional (t : SourceTrade) : Usd := t.quantity.notional t.price

def ParsedTrade.intoSourceTrade (t : ParsedTrade) (correlationId : CorrelationId)
    (eventId : SourceEventId) (occurrence : Nat) : SourceTrade where
  eventId := eventId
  correlationId := correlationId
  trader := t.trader
  marketId := t.marketId
  tokenId := t.tokenId
  outcome := t.outcome
  side := t.side
  price := t.price
  quantity := t.quantity
  txHash := t.txHash
  occurrence := occurrence
  sourceTs := t.sourceTs
  detectedTs := t.detectedTs
  source := t.source
  marketTitle := t.marketTitle
  marketSlug := t.marketSlug

inductive SignalSkipReason
  | duplicateEvent
  | walletNotTracked
  | walletDisabled
  | marketBlocked (market : MarketId)
  | marketNotAllowed (market : MarketId)
  | belowMinNotional (got min : Usd)
  | sizedToZero
  deriving DecidableEq

structure Fill where
  fillId : FillId
  orderId : OrderId
  correlationId : CorrelationId
  marketId : MarketId
  tokenId : TokenId
  side : Side
  quantity : Qty
  price : Price
  fee : Usd
  venueFillId : Option String
  isMaker : Bool
  filledAt : DateTime
  deriving DecidableEq

def Fill.notional (f : Fill) : Usd := f.quantity.notional f.price

/-- Signed cash impact: buying costs cash, selling returns it, fees always cost. -/
def Fill.cashDelta (f : Fill) : Usd :=
  match f.side with
  | .buy => -(f.notional + f.fee)
  | .sell => f.notional - f.fee

def Fill.signedQty (f : Fill) : Decimal := f.side.sign * f.quantity.get

theorem Fill.cashDelta_eq (f : Fill) : f.cashDelta = -(f.signedQty * f.price.get) - f.fee := by
  unfold cashDelta signedQty notional Qty.notional
  cases f.side <;> simp only [Side.sign] <;> ring

structure LatencyStamps where
  source : Option DateTime
  sourceIsCoarse : Bool
  detection : Option DateTime
  signal : Option DateTime
  riskCheck : Option DateTime
  submission : Option DateTime
  ack : Option DateTime
  fill : Option DateTime
  dashboard : Option DateTime
  deriving DecidableEq

def LatencyStamps.begin (detection : DateTime) : LatencyStamps :=
  ⟨none, false, some detection, none, none, none, none, none, none⟩

def LatencyStamps.fromSource (source : DateTime) (coarse : Bool) (detection : DateTime) :
    LatencyStamps :=
  { LatencyStamps.begin detection with source := some source, sourceIsCoarse := coarse }

structure CopySignal where
  signalId : SignalId
  correlationId : CorrelationId
  sourceEventId : SourceEventId
  targetWallet : Address
  marketId : MarketId
  tokenId : TokenId
  outcome : String
  side : Side
  targetPrice : Price
  targetQuantity : Qty
  targetNotional : Usd
  copyQuantity : Qty
  copyNotional : Usd
  /-- Worst price we accept, derived from the slippage budget. -/
  limitPrice : Price
  sizingMode : String
  confidence : ℚ
  sourceTs : DateTime
  detectionTs : DateTime
  signalTs : DateTime
  latency : LatencyStamps
  deriving DecidableEq

end CopyTrading
