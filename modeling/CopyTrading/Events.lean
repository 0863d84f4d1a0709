import CopyTrading.Health
import CopyTrading.Order
import CopyTrading.Portfolio

namespace CopyTrading

inductive AppMode
  | paper
  | live
  | replay
  deriving DecidableEq

def AppMode.isLive : AppMode → Bool
  | .live => true
  | _ => false

inductive RiskRejection
  | maxTradeSizeExceeded (requested limit : Usd)
  | maxPositionExceeded (market : MarketId) (projected limit : Usd)
  | maxPortfolioExposureExceeded (projected limit : Usd)
  | maxMarketExposureExceeded (market : MarketId) (projected limit : Usd)
  | maxWalletExposureExceeded (wallet : String) (projected limit : Usd)
  | dailyLossLimitReached (dailyPnl limit : Usd)
  | maxOpenOrdersReached (opened limit : Nat)
  | slippageTooWide (estimatedBps : Int) (limitBps : Nat)
  | insufficientLiquidity (available required : Usd)
  | marketNotTradable (market : MarketId) (reason : String)
  | walletDisabled (wallet : String)
  | duplicateOrder (sourceEvent : SourceEventId)
  | killSwitchActive (reason : String)
  | systemUnhealthy (detail : String)
  | liveExecutionNotArmed
  | belowMinimumOrderSize (requested minimum : Usd)
  | staleMarketData (ageMs maxAgeMs : Int)
  deriving DecidableEq

def RiskRejection.code : RiskRejection → String
  | .maxTradeSizeExceeded .. => "max_trade_size"
  | .maxPositionExceeded .. => "max_position"
  | .maxPortfolioExposureExceeded .. => "max_portfolio_exposure"
  | .maxMarketExposureExceeded .. => "max_market_exposure"
  | .maxWalletExposureExceeded .. => "max_wallet_exposure"
  | .dailyLossLimitReached .. => "daily_loss_limit"
  | .maxOpenOrdersReached .. => "max_open_orders"
  | .slippageTooWide .. => "slippage_too_wide"
  | .insufficientLiquidity .. => "insufficient_liquidity"
  | .marketNotTradable .. => "market_not_tradable"
  | .walletDisabled .. => "wallet_disabled"
  | .duplicateOrder .. => "duplicate_order"
  | .killSwitchActive .. => "kill_switch"
  | .systemUnhealthy .. => "system_unhealthy"
  | .liveExecutionNotArmed => "live_not_armed"
  | .belowMinimumOrderSize .. => "below_min_order_size"
  | .staleMarketData .. => "stale_market_data"

inductive ComponentHealth
  | marketData (state : HealthState) (detail : String)
  | sourceFeed (state : HealthState) (detail : String)
  | database (state : HealthState) (detail : String)
  | redis (state : HealthState) (detail : String)
  | execution (state : HealthState) (detail : String)
  deriving DecidableEq

/-- Everything that happens in the system. -/
inductive SystemEvent
  | marketUpdated (market : MarketId) (token : TokenId) (bestBid bestAsk : Option Price)
      (seq : Nat) (at_ : DateTime)
  | sourceTradeDetected (trade : SourceTrade)
  | sourceTradeSkipped (eventId : SourceEventId) (corr : CorrelationId)
      (reason : SignalSkipReason) (at_ : DateTime)
  | copySignalGenerated (signal : CopySignal)
  | orderRiskApproved (order : OrderId) (corr : CorrelationId) (signal : SignalId)
      (at_ : DateTime)
  | orderRiskRejected (corr : CorrelationId) (signal : Option SignalId)
      (rejection : RiskRejection) (at_ : DateTime)
  | orderSubmitted (order : OrderId) (corr : CorrelationId) (at_ : DateTime)
  | orderAcknowledged (order : OrderId) (corr : CorrelationId) (venueOrderId : Option String)
      (at_ : DateTime)
  | orderPartiallyFilled (order : OrderId) (corr : CorrelationId) (fill : Fill)
  | orderFilled (order : OrderId) (corr : CorrelationId) (fill : Fill)
  | orderCancelled (order : OrderId) (corr : CorrelationId) (at_ : DateTime)
  | orderRejected (order : OrderId) (corr : CorrelationId) (reason : ExecutionError)
      (at_ : DateTime)
  | orderStateChanged (order : OrderId) (corr : CorrelationId) (from_ to_ : OrderState)
      (at_ : DateTime)
  | positionUpdated (position : Position) (at_ : DateTime)
  | pnlUpdated (snapshot : PnlSnapshot)
  | riskLimitBreached (rejection : RiskRejection) (at_ : DateTime)
  | killSwitchActivated (reason by_ : String) (at_ : DateTime)
  | killSwitchReset (by_ : String) (at_ : DateTime)
  /-- Never resolved automatically. -/
  | reconciliationMismatch (token : TokenId) (internal venue : Qty) (at_ : DateTime)
  | healthChanged (health : ComponentHealth) (at_ : DateTime)
  | feedDisconnected (source : String) (gapFrom at_ : DateTime)
  | feedReconnected (source : String) (backfilled : Nat) (at_ : DateTime)
  deriving DecidableEq

end CopyTrading
