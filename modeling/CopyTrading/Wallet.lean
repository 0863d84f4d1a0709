import CopyTrading.Trade

namespace CopyTrading

inductive SizingMode
  | fixedRatio (ratio : Decimal)
  | fixedUsd (amount : Decimal)
  | portfolioPercent (pct : Decimal)
  | riskAdjusted (baseRatio liquidityCapPct : Decimal)
  deriving DecidableEq

def SizingMode.name : SizingMode → String
  | .fixedRatio _ => "fixed_ratio"
  | .fixedUsd _ => "fixed_usd"
  | .portfolioPercent _ => "portfolio_percent"
  | .riskAdjusted _ _ => "risk_adjusted"

structure TargetWallet where
  address : Address
  nickname : String
  enabled : Bool
  sizing : SizingMode
  maxTradeUsd : Usd
  maxExposureUsd : Usd
  minTradeUsd : Usd
  /-- Empty permits every market. -/
  allowedMarkets : List MarketId
  /-- Always denied, and checked before the allow list. -/
  blockedMarkets : List MarketId
  minSourceNotionalUsd : Usd
  deriving DecidableEq

def TargetWallet.new (address : Address) (nickname : String) : TargetWallet where
  address := address
  nickname := nickname
  enabled := true
  sizing := .fixedRatio (1 / 4)
  maxTradeUsd := 100
  maxExposureUsd := 1000
  minTradeUsd := 5
  allowedMarkets := []
  blockedMarkets := []
  minSourceNotionalUsd := 50

def TargetWallet.admits (w : TargetWallet) (market : MarketId) (sourceNotional : Usd) :
    Except SignalSkipReason Unit :=
  if !w.enabled then .error .walletDisabled
  -- the block list wins over the allow list
  else if market ∈ w.blockedMarkets then .error (.marketBlocked market)
  else if w.allowedMarkets ≠ [] ∧ market ∉ w.allowedMarkets then .error (.marketNotAllowed market)
  else if sourceNotional < w.minSourceNotionalUsd then
    .error (.belowMinNotional sourceNotional w.minSourceNotionalUsd)
  else .ok ()

end CopyTrading
