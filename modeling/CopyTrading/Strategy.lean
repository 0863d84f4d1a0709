import CopyTrading.Book
import CopyTrading.Sizing

namespace CopyTrading

inductive SignalRefusal
  | sizing (e : SizingRefusal)
  | staleBook (ageMs maxAgeMs : Int)
  deriving DecidableEq

structure StrategyConfig where
  maxSlippageBps : Nat
  maxBookAgeMs : Int
  /-- Fall back to the source trader's own price without a usable touch. -/
  allowPricingWithoutBook : Bool

def StrategyConfig.default : StrategyConfig := ⟨50, 30000, true⟩

def OrderBook.ageMs (b : OrderBook) (now : DateTime) : Int := numMilliseconds (now - b.timestamp)

def OrderBook.touch (b : OrderBook) : Side → Option Price
  | .buy => b.bestAsk.map Level.price
  | .sell => b.bestBid.map Level.price

namespace CopyTrader

/-- Confidence in the signal; it falls with our own lag and with the age of the book. -/
def confidence (trade : SourceTrade) (bookAgeMs : Option Int) : ℚ :=
  let c : ℚ := match trade.source with
    | .rtdsWebsocket => 95 / 100
    | .restBackfill => 6 / 10
    | .replay => 9 / 10
    | .demo => 5 / 10
  let lag := max (numMilliseconds (trade.detectedTs - trade.sourceTs)) 0
  let c := if lag > 2000 then c * (7 / 10) else if lag > 1000 then c * (85 / 100) else c
  let c := match bookAgeMs with
    | some age => if age > 10000 then c * (7 / 10) else if age > 2000 then c * (9 / 10) else c
    | none => c
  max 0 (min c 1)

/-- The price the signal is based on: the live touch, or the trader's own fill. -/
def referencePrice (cfg : StrategyConfig) (trade : SourceTrade) (book : Option OrderBook)
    (now : DateTime) : Except SignalRefusal (Price × ℚ) :=
  let unpriced (fallback : ℚ) : Except SignalRefusal (Price × ℚ) :=
    if cfg.allowPricingWithoutBook then .ok (trade.price, fallback)
    else .error (.sizing .noLiquidity)
  match book with
  | some b =>
    let age := b.ageMs now
    if age > cfg.maxBookAgeMs then .error (.staleBook age cfg.maxBookAgeMs)
    else match b.touch trade.side with
      | some p => .ok (p, confidence trade (some age))
      | none => unpriced (4 / 10)
  | none => unpriced (5 / 10)

/-- What the strategy adds to the sizing context from the book. -/
def withBook (ctx : SizingContext) (book : Option OrderBook) (side : Side) (limit : Price) :
    SizingContext :=
  { ctx with
    availableLiquidity := book.elim ctx.availableLiquidity (·.notionalWithin side limit)
    minOrderSize :=
      if ctx.minOrderSize > 0 then ctx.minOrderSize else book.elim 1 OrderBook.minOrderSize }

/-- The signal that copies `trade` with the size that was worked out. -/
def signalFor (trade : SourceTrade) (signalId : SignalId) (sized : SizedOrder) (limit : Price)
    (confidence : ℚ) (now : DateTime) : CopySignal where
  signalId := signalId
  correlationId := trade.correlationId
  sourceEventId := trade.eventId
  targetWallet := trade.trader
  marketId := trade.marketId
  tokenId := trade.tokenId
  outcome := trade.outcome
  side := trade.side
  targetPrice := trade.price
  targetQuantity := trade.quantity
  targetNotional := trade.notional
  copyQuantity := sized.quantity
  copyNotional := sized.notional
  limitPrice := limit
  sizingMode := sized.mode
  confidence := confidence
  sourceTs := trade.sourceTs
  detectionTs := trade.detectedTs
  signalTs := now
  latency := { LatencyStamps.fromSource trade.sourceTs false trade.detectedTs with
    signal := some now }

def onSourceTrade (cfg : StrategyConfig) (trade : SourceTrade) (wallet : TargetWallet)
    (book : Option OrderBook) (ctx : SizingContext) (tickSize : Decimal) (signalId : SignalId)
    (now : DateTime) : Except SignalRefusal CopySignal :=
  match referencePrice cfg trade book now with
  | .error e => .error e
  | .ok (reference, confidence) =>
    let limit := SizingEngine.limitPrice reference trade.side cfg.maxSlippageBps tickSize
    match SizingEngine.size wallet trade.notional limit (withBook ctx book trade.side limit) with
    | .error e => .error (.sizing e)
    | .ok sized => .ok (signalFor trade signalId sized limit confidence now)

/-- With the daily budget gone there is no signal, whatever else is refused first. -/
theorem onSourceTrade_of_exhausted (cfg : StrategyConfig) (trade : SourceTrade)
    (wallet : TargetWallet) (book : Option OrderBook) {ctx : SizingContext} (tick : Decimal)
    (signalId : SignalId) (now : DateTime) (h : ctx.remainingDailyRisk ≤ 0) :
    ∃ e, onSourceTrade cfg trade wallet book ctx tick signalId now = .error e := by
  unfold onSourceTrade
  cases referencePrice cfg trade book now with
  | error e => exact ⟨e, rfl⟩
  | ok r =>
    obtain ⟨reference, confidence⟩ := r
    let limit := SizingEngine.limitPrice reference trade.side cfg.maxSlippageBps tick
    have spent : (withBook ctx book trade.side limit).remainingDailyRisk ≤ 0 := h
    exact ⟨.sizing .dailyRiskExhausted, by simp only [SizingEngine.size_of_exhausted spent, limit]⟩

/-- A signal is priced off the reference, sized at the limit and copied from the trade. -/
theorem onSourceTrade_ok {cfg : StrategyConfig} {trade : SourceTrade} {wallet : TargetWallet}
    {book : Option OrderBook} {ctx : SizingContext} {tick : Decimal} {signalId : SignalId}
    {now : DateTime} {signal : CopySignal}
    (h : onSourceTrade cfg trade wallet book ctx tick signalId now = .ok signal) :
    ∃ reference confidence limit sized,
      referencePrice cfg trade book now = .ok (reference, confidence) ∧
      limit = SizingEngine.limitPrice reference trade.side cfg.maxSlippageBps tick ∧
      SizingEngine.size wallet trade.notional limit (withBook ctx book trade.side limit) =
        .ok sized ∧
      signal = signalFor trade signalId sized limit confidence now := by
  unfold onSourceTrade at h
  split at h
  next => cases h
  next reference confidence priced =>
    simp only at h
    split at h
    next => cases h
    next sized sizes =>
      cases h
      exact ⟨reference, confidence, _, sized, priced, rfl, sizes, rfl⟩

theorem onSourceTrade_ok_pos {cfg : StrategyConfig} {trade : SourceTrade} {wallet : TargetWallet}
    {book : Option OrderBook} {ctx : SizingContext} {tick : Decimal} {signalId : SignalId}
    {now : DateTime} {signal : CopySignal}
    (h : onSourceTrade cfg trade wallet book ctx tick signalId now = .ok signal) :
    signal.copyQuantity.isZero = false := by
  obtain ⟨_, _, _, sized, _, _, sizes, rfl⟩ := onSourceTrade_ok h
  exact SizingEngine.size_ok_pos sizes

theorem onSourceTrade_ok_copies {cfg : StrategyConfig} {trade : SourceTrade}
    {wallet : TargetWallet} {book : Option OrderBook} {ctx : SizingContext} {tick : Decimal}
    {signalId : SignalId} {now : DateTime} {signal : CopySignal}
    (h : onSourceTrade cfg trade wallet book ctx tick signalId now = .ok signal) :
    signal.targetWallet = trade.trader ∧ signal.side = trade.side ∧
      signal.correlationId = trade.correlationId := by
  obtain ⟨_, _, _, _, _, _, _, rfl⟩ := onSourceTrade_ok h
  exact ⟨rfl, rfl, rfl⟩

end CopyTrader

end CopyTrading
