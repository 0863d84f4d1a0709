import CopyTrading.DecimalFormat
import CopyTrading.Book
import CopyTrading.Events

namespace CopyTrading

structure RiskLimits where
  maxTradeUsd : Usd
  minTradeUsd : Usd
  maxPositionUsd : Usd
  maxMarketExposureUsd : Usd
  maxPortfolioExposureUsd : Usd
  maxDailyLossUsd : Usd
  maxOpenOrders : Nat
  maxSlippageBps : Nat
  minLiquidityUsd : Usd
  maxMarketDataAgeMs : Int
  /-- Additional, tighter cap that applies only in live mode. -/
  maxLiveOrderUsd : Usd
  requireMarketData : Bool
  deriving DecidableEq

def RiskLimits.default : RiskLimits where
  maxTradeUsd := 100
  minTradeUsd := 5
  maxPositionUsd := 1000
  maxMarketExposureUsd := 1000
  maxPortfolioExposureUsd := 5000
  maxDailyLossUsd := 100
  maxOpenOrders := 20
  maxSlippageBps := 50
  minLiquidityUsd := 50
  maxMarketDataAgeMs := 30000
  maxLiveOrderUsd := 50
  requireMarketData := false

structure KillSwitch where
  engaged : Bool
  reason : Option String
  engagedBy : Option String
  engagedAt : Option DateTime
  cancelOpenOrders : Bool
  activations : Nat
  deriving DecidableEq

def KillSwitch.new : KillSwitch := ⟨false, none, none, none, true, 0⟩

/-- Halts new orders; re-engaging keeps the original reason. -/
def KillSwitch.engage (k : KillSwitch) (reason by_ : String) (now : DateTime) : KillSwitch :=
  if k.engaged then k
  else { k with
    engaged := true
    reason := some reason
    engagedBy := some by_
    engagedAt := some now
    activations := k.activations + 1 }

def KillSwitch.setCancelOpenOrders (k : KillSwitch) (v : Bool) : KillSwitch :=
  { k with cancelOpenOrders := v }

structure RiskSnapshot where
  dailyPnl : Usd
  grossExposure : Usd
  marketExposure : Usd
  walletExposure : Usd
  tokenExposure : Usd
  openOrders : Nat
  equity : Usd

structure SystemStatus where
  marketDataHealthy : Bool
  sourceFeedHealthy : Bool
  executionReady : Bool
  databaseHealthy : Bool

def SystemStatus.firstProblem (s : SystemStatus) : Option String :=
  if !s.executionReady then some "execution adapter not ready"
  else if !s.sourceFeedHealthy then some "source trade feed disconnected"
  else if !s.marketDataHealthy then some "market data feed disconnected"
  -- a database outage is survivable
  else none

inductive RiskVerdict
  | approved
  | rejected (r : RiskRejection)
  deriving DecidableEq

structure RiskEngine where
  limits : RiskLimits
  mode : AppMode
  liveArmed : Bool

def i64Max : Int := 9223372036854775807

/-- `d.round().try_into().unwrap_or(i64::MAX)`. -/
def roundToI64 (d : Decimal) : Int :=
  let r := roundHalfEven d
  if -i64Max - 1 ≤ r ∧ r ≤ i64Max then r else i64Max

namespace RiskEngine

variable (engine : RiskEngine) (order : OrderRequest)

/-- The categorical refusals: kill switch, mode, health, idempotency, wallet and market. -/
def checkGates (status : SystemStatus) (kill : KillSwitch) (walletEnabled : Bool)
    (walletLabel : String) (marketTradable : Option (MarketId × Bool × String))
    (alreadyProcessed : Option SourceEventId) : Option RiskRejection :=
  if kill.engaged then some (.killSwitchActive (kill.reason.getD "engaged"))
  else if engine.mode.isLive && !engine.liveArmed then some .liveExecutionNotArmed
  else match status.firstProblem with
    | some detail => some (.systemUnhealthy detail)
    | none =>
      match alreadyProcessed with
      | some ev => some (.duplicateOrder ev)
      | none =>
        if !walletEnabled then some (.walletDisabled walletLabel)
        else match marketTradable with
          | some (m, tradable, why) => if !tradable then some (.marketNotTradable m why) else none
          | none => none

/-- Daily loss and open order slots. -/
def checkBudget (snap : RiskSnapshot) : Option RiskRejection :=
  if snap.dailyPnl < -engine.limits.maxDailyLossUsd then
    some (.dailyLossLimitReached snap.dailyPnl engine.limits.maxDailyLossUsd)
  else if snap.openOrders ≥ engine.limits.maxOpenOrders then
    some (.maxOpenOrdersReached snap.openOrders engine.limits.maxOpenOrders)
  else none

/-- The bounds on the size of a trade. -/
def checkNotional (notional : Usd) : Option RiskRejection :=
  if notional < engine.limits.minTradeUsd then
    some (.belowMinimumOrderSize notional engine.limits.minTradeUsd)
  else if notional > engine.limits.maxTradeUsd then
    some (.maxTradeSizeExceeded notional engine.limits.maxTradeUsd)
  else if engine.mode.isLive ∧ notional > engine.limits.maxLiveOrderUsd then
    some (.maxTradeSizeExceeded notional engine.limits.maxLiveOrderUsd)
  else none

def checkTradeSize : Option RiskRejection := engine.checkNotional order.notional

/-- The exposures that a full fill would lead to. -/
def checkExposure (snap : RiskSnapshot) : Option RiskRejection :=
  let token := snap.tokenExposure + order.notional
  let market := snap.marketExposure + order.notional
  let gross := snap.grossExposure + order.notional
  if token > engine.limits.maxPositionUsd then
    some (.maxPositionExceeded order.marketId token engine.limits.maxPositionUsd)
  else if market > engine.limits.maxMarketExposureUsd then
    some (.maxMarketExposureExceeded order.marketId market engine.limits.maxMarketExposureUsd)
  else if gross > engine.limits.maxPortfolioExposureUsd then
    some (.maxPortfolioExposureExceeded gross engine.limits.maxPortfolioExposureUsd)
  else none

/-- Age, liquidity and expected slippage of the book. -/
def checkBook (book : Option OrderBook) (now : DateTime) : Option RiskRejection :=
  match book with
  | some b =>
    let age := numMilliseconds (now - b.timestamp)
    let available := b.notionalWithin order.side order.limitPrice
    if age > engine.limits.maxMarketDataAgeMs then
      some (.staleMarketData age engine.limits.maxMarketDataAgeMs)
    else if available < engine.limits.minLiquidityUsd then
      some (.insufficientLiquidity available engine.limits.minLiquidityUsd)
    else match b.sweepVwap order.side order.quantity order.limitPrice with
      | some (vwap, _) =>
        let bps := slippageBps order.referencePrice vwap order.side
        if bps > engine.limits.maxSlippageBps then
          some (.slippageTooWide (roundToI64 bps) engine.limits.maxSlippageBps)
        else none
      | none => some (.insufficientLiquidity 0 engine.limits.minLiquidityUsd)
  | none =>
    if engine.limits.requireMarketData then
      some (.staleMarketData i64Max engine.limits.maxMarketDataAgeMs)
    else none

/-- Runs every pre-trade check; the verdict names the first limit breached. -/
def check (snap : RiskSnapshot) (status : SystemStatus) (kill : KillSwitch)
    (book : Option OrderBook) (walletEnabled : Bool) (walletLabel : String)
    (marketTradable : Option (MarketId × Bool × String))
    (alreadyProcessed : Option SourceEventId) (now : DateTime) : RiskVerdict :=
  let refusal :=
    engine.checkGates status kill walletEnabled walletLabel marketTradable alreadyProcessed <|>
    engine.checkBudget snap <|>
    engine.checkTradeSize order <|>
    engine.checkExposure order snap <|>
    engine.checkBook order book now
  match refusal with
  | some r => .rejected r
  | none => .approved

/-- Only a breach that shows the system to be in a bad state trips the kill switch. -/
def shouldAutoEngageKillSwitch : RiskRejection → Bool
  | .dailyLossLimitReached .. => true
  | _ => false

variable {engine order} {snap : RiskSnapshot} {status : SystemStatus} {kill : KillSwitch}
  {book : Option OrderBook} {walletEnabled : Bool} {walletLabel : String}
  {marketTradable : Option (MarketId × Bool × String)} {alreadyProcessed : Option SourceEventId}
  {now : DateTime}

/-- An order is approved when no stage of the checks refuses it. -/
theorem check_approved_iff : engine.check order snap status kill book walletEnabled walletLabel
      marketTradable alreadyProcessed now = .approved ↔
    engine.checkGates status kill walletEnabled walletLabel marketTradable alreadyProcessed = none ∧
      engine.checkBudget snap = none ∧ engine.checkTradeSize order = none ∧
      engine.checkExposure order snap = none ∧ engine.checkBook order book now = none := by
  unfold check
  simp only [Option.orElse_eq_orElse, Option.orElse_eq_or, ← Option.or_eq_none_iff]
  split
  next r refused =>
    rw [refused]
    simp
  next none_ => exact ⟨fun _ => none_, fun _ => rfl⟩

theorem checkGates_none_iff : engine.checkGates status kill walletEnabled walletLabel
      marketTradable alreadyProcessed = none ↔
    kill.engaged = false ∧ (engine.mode.isLive && !engine.liveArmed) = false ∧
      status.firstProblem = none ∧ alreadyProcessed = none ∧ walletEnabled = true ∧
      ∀ m tradable why, marketTradable = some (m, tradable, why) → tradable = true := by
  unfold checkGates
  cases engaged : kill.engaged with
  | true => exact iff_of_false nofun fun h => nomatch h.1
  | false =>
    cases armed : (engine.mode.isLive && !engine.liveArmed) with
    | true => exact iff_of_false nofun fun h => nomatch h.2.1
    | false =>
      cases problem : status.firstProblem with
      | some detail => exact iff_of_false nofun fun h => nomatch h.2.2.1
      | none =>
        cases processed : alreadyProcessed with
        | some ev => exact iff_of_false nofun fun h => nomatch h.2.2.2.1
        | none =>
          cases enabled : walletEnabled with
          | false => exact iff_of_false nofun fun h => nomatch h.2.2.2.2.1
          | true =>
            cases marketTradable with
            | none => exact iff_of_true rfl ⟨rfl, rfl, rfl, rfl, rfl, nofun⟩
            | some market =>
              obtain ⟨m, tradable, why⟩ := market
              cases tradable with
              | true =>
                refine iff_of_true rfl ⟨rfl, rfl, rfl, rfl, rfl, ?_⟩
                rintro _ _ _ ⟨⟩
                rfl
              | false =>
                refine iff_of_false nofun fun h => ?_
                cases h.2.2.2.2.2 m false why rfl

theorem checkExposure_none_iff : engine.checkExposure order snap = none ↔
    snap.tokenExposure + order.notional ≤ engine.limits.maxPositionUsd ∧
      snap.marketExposure + order.notional ≤ engine.limits.maxMarketExposureUsd ∧
      snap.grossExposure + order.notional ≤ engine.limits.maxPortfolioExposureUsd := by
  unfold checkExposure
  simp only
  split
  next above => exact ⟨fun h => (nomatch h), fun h => absurd h.1 (not_le.mpr above)⟩
  next token =>
    split
    next above => exact ⟨fun h => (nomatch h), fun h => absurd h.2.1 (not_le.mpr above)⟩
    next market =>
      split
      next above => exact ⟨fun h => (nomatch h), fun h => absurd h.2.2 (not_le.mpr above)⟩
      next gross => exact ⟨fun _ => ⟨not_lt.mp token, not_lt.mp market, not_lt.mp gross⟩, fun _ => rfl⟩

theorem disengaged_of_approved (h : engine.check order snap status kill book walletEnabled
    walletLabel marketTradable alreadyProcessed now = .approved) : kill.engaged = false := by
  obtain ⟨gates, _⟩ := check_approved_iff.mp h
  exact (checkGates_none_iff.mp gates).1

end RiskEngine

@[simp] theorem KillSwitch.engage_engaged (k : KillSwitch) (reason by_ : String)
    (now : DateTime) : (k.engage reason by_ now).engaged = true := by
  unfold engage
  split
  next engaged => exact engaged
  next => rfl

end CopyTrading
