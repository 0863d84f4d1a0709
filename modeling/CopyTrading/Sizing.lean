import CopyTrading.Wallet

namespace CopyTrading

structure SizingContext where
  equity : Usd
  currentMarketExposure : Usd
  maxPositionUsd : Usd
  maxTradeUsd : Usd
  minTradeUsd : Usd
  availableLiquidity : Usd
  /-- Zero or less means stop. -/
  remainingDailyRisk : Usd
  minOrderSize : Decimal

inductive SizingRefusal
  | belowMinimum (sized minimum : Decimal)
  | noPositionHeadroom
  | dailyRiskExhausted
  | noLiquidity
  deriving DecidableEq

structure SizedOrder where
  quantity : Qty
  notional : Usd
  mode : String
  /-- Which cap, if any, bound the result. -/
  bindingConstraint : Option String
  deriving DecidableEq

namespace SizingEngine

def rawNotional (mode : SizingMode) (sourceNotional : Usd) (ctx : SizingContext) : Usd :=
  match mode with
  | .fixedRatio ratio => sourceNotional * ratio
  | .fixedUsd amount => amount
  | .portfolioPercent pct => ctx.equity * pct
  | .riskAdjusted baseRatio _ =>
    let used :=
      if ctx.maxPositionUsd > 0 then
        max 0 (min (ctx.currentMarketExposure / ctx.maxPositionUsd) 1)
      else 1
    sourceNotional * baseRatio * (1 - used)

/-- A notional with the cap that last reduced it. -/
abbrev Capped := Usd × Option String

def cap (limit : Usd) (name : String) (n : Capped) : Capped :=
  if n.1 > limit then (limit, some name) else n

/-- The liquidity cap, which only the risk-adjusted mode has. -/
def capLiquidity (mode : SizingMode) (ctx : SizingContext) (n : Capped) :
    Except SizingRefusal Capped :=
  match mode with
  | .riskAdjusted _ liquidityCapPct =>
    if ctx.availableLiquidity ≤ 0 then .error .noLiquidity
    else .ok (cap (ctx.availableLiquidity * liquidityCapPct) "liquidity" n)
  | _ => .ok n

def toShares (wallet : TargetWallet) (limitPrice : Price) (ctx : SizingContext) (n : Capped) :
    Except SizingRefusal SizedOrder :=
  let floor := max wallet.minTradeUsd ctx.minTradeUsd
  if n.1 < floor then .error (.belowMinimum n.1 floor)
  else
    -- rounding down keeps us inside every notional cap
    let shares := (sharesAt n.1 limitPrice).floorTo ctx.minOrderSize
    if shares.isZero then .error (.belowMinimum 0 ctx.minOrderSize)
    else .ok ⟨shares, shares.notional limitPrice, wallet.sizing.name, n.2⟩

def size (wallet : TargetWallet) (sourceNotional : Usd) (limitPrice : Price)
    (ctx : SizingContext) : Except SizingRefusal SizedOrder :=
  if ctx.remainingDailyRisk ≤ 0 then .error .dailyRiskExhausted
  else
    let headroom := max (ctx.maxPositionUsd - ctx.currentMarketExposure) 0
    if headroom ≤ 0 then .error .noPositionHeadroom
    else
      let raw : Capped := (rawNotional wallet.sizing sourceNotional ctx, none)
      let n := cap wallet.maxTradeUsd "wallet_max_trade" raw
      let n := cap ctx.maxTradeUsd "global_max_trade" n
      let n := cap headroom "position_headroom" n
      let n := cap wallet.maxExposureUsd "wallet_max_exposure" n
      let n := cap ctx.remainingDailyRisk "daily_risk_budget" n
      match capLiquidity wallet.sizing ctx n with
      | .error e => .error e
      | .ok n => toShares wallet limitPrice ctx n

/-- The worst price we will accept, given a slippage budget in basis points. -/
def limitPrice (reference : Price) (side : Side) (maxSlippageBps : Nat) (tick : Decimal) : Price :=
  let budget : Decimal := maxSlippageBps / 10000
  let adjusted := match side with
    | .buy => reference.get * (1 + budget)
    | .sell => reference.get * (1 - budget)
  (Price.saturating adjusted).roundToTick tick side

theorem size_of_exhausted {wallet : TargetWallet} {sourceNotional : Usd} {limit : Price}
    {ctx : SizingContext} (h : ctx.remainingDailyRisk ≤ 0) :
    size wallet sourceNotional limit ctx = .error .dailyRiskExhausted := by
  unfold size
  rw [if_pos h]

theorem size_ok_pos {wallet : TargetWallet} {sourceNotional : Usd} {limit : Price}
    {ctx : SizingContext} {sized : SizedOrder}
    (h : size wallet sourceNotional limit ctx = .ok sized) : sized.quantity.isZero = false := by
  unfold size at h
  simp only at h
  split at h
  next => cases h
  next =>
    split at h
    next => cases h
    next =>
      split at h
      next => cases h
      next =>
        unfold toShares at h
        simp only at h
        split at h
        next => cases h
        next =>
          split at h
          next => cases h
          next some_ =>
            cases h
            exact Bool.eq_false_of_not_eq_true some_

end SizingEngine

end CopyTrading
