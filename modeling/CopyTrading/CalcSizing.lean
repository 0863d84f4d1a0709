import CopyTrading.CalcMoney
import CopyTrading.SizingCaps

namespace CopyTrading

open SizingEngine

namespace Calc

/-- How full the market position is, between zero and one. -/
def used (ctx : SizingContext) : Calc Decimal :=
  if ctx.maxPositionUsd > 0 then do
    let share ← op (ctx.currentMarketExposure / ctx.maxPositionUsd)
    pure (max 0 (min share 1))
  else pure 1

def rawNotional (mode : SizingMode) (sourceNotional : Usd) (ctx : SizingContext) : Calc Usd :=
  match mode with
  | .fixedRatio ratio => op (sourceNotional * ratio)
  | .fixedUsd amount => pure amount
  | .portfolioPercent pct => op (ctx.equity * pct)
  | .riskAdjusted baseRatio _ => do
    let base ← op (sourceNotional * baseRatio)
    let used ← used ctx
    let left ← op (1 - used)
    op (base * left)

def capLiquidity (mode : SizingMode) (ctx : SizingContext) (n : Capped) :
    Calc (Except SizingRefusal Capped) :=
  match mode with
  | .riskAdjusted _ liquidityCapPct =>
    if ctx.availableLiquidity ≤ 0 then pure (.error .noLiquidity)
    else do
      let limit ← op (ctx.availableLiquidity * liquidityCapPct)
      pure (.ok (cap limit "liquidity" n))
  | _ => pure (.ok n)

def toShares (wallet : TargetWallet) (limit : Price) (ctx : SizingContext) (n : Capped) :
    Calc (Except SizingRefusal SizedOrder) :=
  let floor := max wallet.minTradeUsd ctx.minTradeUsd
  if n.1 < floor then pure (.error (.belowMinimum n.1 floor))
  else do
    let unrounded ← sharesAt n.1 limit
    let shares ← floorTo unrounded ctx.minOrderSize
    if shares.isZero then pure (.error (.belowMinimum 0 ctx.minOrderSize))
    else do
      let final ← notional shares limit
      pure (.ok ⟨shares, final, wallet.sizing.name, n.2⟩)

def size (wallet : TargetWallet) (sourceNotional : Usd) (limit : Price) (ctx : SizingContext) :
    Calc (Except SizingRefusal SizedOrder) :=
  if ctx.remainingDailyRisk ≤ 0 then pure (.error .dailyRiskExhausted)
  else do
    let raw ← rawNotional wallet.sizing sourceNotional ctx
    let room ← op (ctx.maxPositionUsd - ctx.currentMarketExposure)
    let headroom := max room 0
    if headroom ≤ 0 then pure (.error .noPositionHeadroom)
    else do
      let n := cap wallet.maxTradeUsd "wallet_max_trade" (raw, none)
      let n := cap ctx.maxTradeUsd "global_max_trade" n
      let n := cap headroom "position_headroom" n
      let n := cap wallet.maxExposureUsd "wallet_max_exposure" n
      let n := cap ctx.remainingDailyRisk "daily_risk_budget" n
      let capped ← capLiquidity wallet.sizing ctx n
      match capped with
      | .error e => pure (.error e)
      | .ok n => toShares wallet limit ctx n

def limitPrice (reference : Price) (side : Side) (maxSlippageBps : Nat) (tick : Decimal) :
    Calc Price := do
  let budget ← op (maxSlippageBps / 10000)
  let factor ← op (match side with
    | .buy => 1 + budget
    | .sell => 1 - budget)
  let adjusted ← op (reference.get * factor)
  roundToTick (.saturating adjusted) tick side

end Calc

end CopyTrading
