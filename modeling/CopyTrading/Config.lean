import CopyTrading.Fallible
import CopyTrading.Risk
import CopyTrading.Wallet

namespace CopyTrading

/-- Global risk limits, as they are configured. -/
structure RiskConfig where
  maxTradeUsd : Usd
  minTradeUsd : Usd
  maxPositionUsd : Usd
  maxMarketExposureUsd : Usd
  maxPortfolioExposureUsd : Usd
  maxDailyLossUsd : Usd
  maxOpenOrders : Nat
  maxSlippageBps : Nat
  minLiquidityUsd : Usd
  maxMarketDataAgeMs : Int
  deriving DecidableEq

/-- A missing variable must tighten, never loosen. -/
def RiskConfig.default : RiskConfig where
  maxTradeUsd := 100
  minTradeUsd := 5
  maxPositionUsd := 1000
  maxMarketExposureUsd := 1000
  maxPortfolioExposureUsd := 5000
  maxDailyLossUsd := 100
  maxOpenOrders := 20
  maxSlippageBps := 50
  minLiquidityUsd := 50
  maxMarketDataAgeMs := 30000

def RiskLimits.fromConfig (r : RiskConfig) (maxLiveOrderUsd : Usd) (requireMarketData : Bool) :
    RiskLimits where
  maxTradeUsd := r.maxTradeUsd
  minTradeUsd := r.minTradeUsd
  maxPositionUsd := r.maxPositionUsd
  maxMarketExposureUsd := r.maxMarketExposureUsd
  maxPortfolioExposureUsd := r.maxPortfolioExposureUsd
  maxDailyLossUsd := r.maxDailyLossUsd
  maxOpenOrders := r.maxOpenOrders
  maxSlippageBps := r.maxSlippageBps
  minLiquidityUsd := r.minLiquidityUsd
  maxMarketDataAgeMs := r.maxMarketDataAgeMs
  maxLiveOrderUsd := maxLiveOrderUsd
  requireMarketData := requireMarketData

example : RiskLimits.fromConfig .default 50 false = RiskLimits.default := by decide +kernel

structure LiveConfig where
  tradingEnabled : Bool
  privateKey : String
  funderAddress : Option Address
  apiKey : String
  apiSecret : String
  apiPassphrase : String
  maxLiveOrderUsd : Usd

structure AppConfig where
  mode : AppMode
  risk : RiskConfig
  live : LiveConfig
  /-- `server.api_token` -/
  apiToken : String
  wallets : List TargetWallet
  demoData : Bool
  replayFile : Option String

inductive LimitProblem
  | demoInLive
  | minAboveMaxTrade (minTrade maxTrade : Usd)
  | tradeAbovePosition (maxTrade maxPosition : Usd)
  | positionAbovePortfolio (maxPosition maxPortfolio : Usd)
  | noOpenOrders
  | walletAboveGlobal (nickname : String) (maxTrade globalMaxTrade : Usd)
  deriving DecidableEq

inductive ConfigError
  | missing (key mode : String)
  | liveNotArmed
  | inconsistentLimits (problem : LimitProblem)
  deriving DecidableEq

namespace AppConfig

def checkLive (c : AppConfig) : Except ConfigError Unit :=
  if !c.mode.isLive then .ok ()
  else if !c.live.tradingEnabled then .error .liveNotArmed
  else if c.live.privateKey.isEmpty then .error (.missing "POLYMARKET_PRIVATE_KEY" "LIVE")
  else if c.live.apiKey.isEmpty || c.live.apiSecret.isEmpty || c.live.apiPassphrase.isEmpty then
    .error (.missing "POLYMARKET_API_KEY/SECRET/PASSPHRASE" "LIVE")
  else if c.live.funderAddress.isNone then .error (.missing "POLYMARKET_FUNDER_ADDRESS" "LIVE")
  -- an unauthenticated kill switch on a live book is not acceptable
  else if c.apiToken.isEmpty then .error (.missing "API_AUTH_TOKEN" "LIVE")
  else if c.demoData then .error (.inconsistentLimits .demoInLive)
  else .ok ()

def checkReplay (c : AppConfig) : Except ConfigError Unit :=
  if c.mode = .replay ∧ c.replayFile.isNone then .error (.missing "REPLAY_FILE" "REPLAY")
  else .ok ()

def checkLimits (r : RiskConfig) : Except ConfigError Unit :=
  if r.maxTradeUsd < r.minTradeUsd then
    .error (.inconsistentLimits (.minAboveMaxTrade r.minTradeUsd r.maxTradeUsd))
  else if r.maxPositionUsd < r.maxTradeUsd then
    .error (.inconsistentLimits (.tradeAbovePosition r.maxTradeUsd r.maxPositionUsd))
  else if r.maxPortfolioExposureUsd < r.maxPositionUsd then
    .error (.inconsistentLimits (.positionAbovePortfolio r.maxPositionUsd
      r.maxPortfolioExposureUsd))
  else if r.maxOpenOrders = 0 then .error (.inconsistentLimits .noOpenOrders)
  else .ok ()

/-- Per-wallet limits must sit inside global limits. -/
def checkWallets (r : RiskConfig) : List TargetWallet → Except ConfigError Unit
  | [] => .ok ()
  | w :: ws =>
    if r.maxTradeUsd < w.maxTradeUsd then
      .error (.inconsistentLimits (.walletAboveGlobal w.nickname w.maxTradeUsd r.maxTradeUsd))
    else checkWallets r ws

/-- Every cross-field rule the system depends on. -/
def validate (c : AppConfig) : Except ConfigError Unit := do
  c.checkLive
  c.checkReplay
  checkLimits c.risk
  checkWallets c.risk c.wallets

def limits (c : AppConfig) : RiskLimits :=
  .fromConfig c.risk c.live.maxLiveOrderUsd c.mode.isLive

theorem checkWallets_ok {r : RiskConfig} {ws : List TargetWallet} (h : checkWallets r ws = .ok ()) :
    ∀ w ∈ ws, w.maxTradeUsd ≤ r.maxTradeUsd := by
  induction ws with
  | nil => exact List.forall_mem_nil _
  | cons w ws ih =>
    unfold checkWallets at h
    split at h
    next => cases h
    next within => exact List.forall_mem_cons.mpr ⟨not_lt.mp within, ih h⟩

/-- No configured wallet is above the global cap once the configuration is accepted. -/
theorem validate_wallets {c : AppConfig} (h : c.validate = .ok ()) :
    ∀ w ∈ c.wallets, w.maxTradeUsd ≤ c.risk.maxTradeUsd := by
  obtain ⟨_, _, h⟩ := Fallible.bind_eq_ok h
  obtain ⟨_, _, h⟩ := Fallible.bind_eq_ok h
  obtain ⟨_, _, h⟩ := Fallible.bind_eq_ok h
  exact checkWallets_ok h

end AppConfig

end CopyTrading
