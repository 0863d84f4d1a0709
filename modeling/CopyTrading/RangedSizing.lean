import CopyTrading.RangedMoney
import CopyTrading.SizingCaps
import CopyTrading.Strategy

namespace CopyTrading

open RangedArith TickGrid SizingEngine

namespace Ranged

/-- How full the market position is, between zero and one. -/
def used (ctx : SizingContext) : Option Decimal :=
  if ctx.maxPositionUsd > 0 then do
    let share ← op (ctx.currentMarketExposure / ctx.maxPositionUsd)
    some (max 0 (min share 1))
  else some 1

def rawNotional (mode : SizingMode) (sourceNotional : Usd) (ctx : SizingContext) : Option Usd :=
  match mode with
  | .fixedRatio ratio => op (sourceNotional * ratio)
  | .fixedUsd amount => some amount
  | .portfolioPercent pct => op (ctx.equity * pct)
  | .riskAdjusted baseRatio _ => do
    let base ← op (sourceNotional * baseRatio)
    let used ← used ctx
    let left ← op (1 - used)
    op (base * left)

def capLiquidity (mode : SizingMode) (ctx : SizingContext) (n : Capped) :
    Option (Except SizingRefusal Capped) :=
  match mode with
  | .riskAdjusted _ liquidityCapPct =>
    if ctx.availableLiquidity ≤ 0 then some (.error .noLiquidity)
    else do
      let limit ← op (ctx.availableLiquidity * liquidityCapPct)
      some (.ok (cap limit "liquidity" n))
  | _ => some (.ok n)

def sharesAt (u : Usd) (p : Price) : Option Qty := do
  let shares ← op (u / p.get)
  some (.atLeastZero shares)

def floorTo (q : Qty) (step : Decimal) : Option Qty :=
  if step ≤ 0 then some q
  else do
    let steps ← op (q.get / step)
    let whole ← op (⌊steps⌋ * step)
    some ((Qty.new whole).toOption.getD .zero)

def toShares (wallet : TargetWallet) (limit : Price) (ctx : SizingContext) (n : Capped) :
    Option (Except SizingRefusal SizedOrder) :=
  let floor := max wallet.minTradeUsd ctx.minTradeUsd
  if n.1 < floor then some (.error (.belowMinimum n.1 floor))
  else do
    let unrounded ← sharesAt n.1 limit
    let shares ← floorTo unrounded ctx.minOrderSize
    if shares.isZero then some (.error (.belowMinimum 0 ctx.minOrderSize))
    else do
      let final ← notional shares limit
      some (.ok ⟨shares, final, wallet.sizing.name, n.2⟩)

def size (wallet : TargetWallet) (sourceNotional : Usd) (limit : Price) (ctx : SizingContext) :
    Option (Except SizingRefusal SizedOrder) :=
  if ctx.remainingDailyRisk ≤ 0 then some (.error .dailyRiskExhausted)
  else do
    let raw ← rawNotional wallet.sizing sourceNotional ctx
    let room ← op (ctx.maxPositionUsd - ctx.currentMarketExposure)
    let headroom := max room 0
    if headroom ≤ 0 then some (.error .noPositionHeadroom)
    else do
      let n := cap wallet.maxTradeUsd "wallet_max_trade" (raw, none)
      let n := cap ctx.maxTradeUsd "global_max_trade" n
      let n := cap headroom "position_headroom" n
      let n := cap wallet.maxExposureUsd "wallet_max_exposure" n
      let n := cap ctx.remainingDailyRisk "daily_risk_budget" n
      let capped ← capLiquidity wallet.sizing ctx n
      match capped with
      | .error e => some (.error e)
      | .ok n => toShares wallet limit ctx n

def depth (ctx : SizingContext) (book : Option OrderBook) (side : Side) (limit : Price) :
    Option Usd :=
  match book with
  | some b => notionalWithin b side limit
  | none => some ctx.availableLiquidity

def withBook (ctx : SizingContext) (book : Option OrderBook) (side : Side) (limit : Price) :
    Option SizingContext := do
  let liquidity ← depth ctx book side limit
  some { ctx with
    availableLiquidity := liquidity
    minOrderSize :=
      if ctx.minOrderSize > 0 then ctx.minOrderSize else book.elim 1 OrderBook.minOrderSize }

def onSourceTrade (cfg : StrategyConfig) (trade : SourceTrade) (wallet : TargetWallet)
    (book : Option OrderBook) (ctx : SizingContext) (tickSize : Decimal) (signalId : SignalId)
    (now : DateTime) : Option (Except SignalRefusal CopySignal) :=
  match CopyTrader.referencePrice cfg trade book now with
  | .error e => some (.error e)
  | .ok (reference, confidence) => do
    let limit ← limitPrice reference trade.side cfg.maxSlippageBps tickSize
    let ctx ← withBook ctx book trade.side limit
    let sourceNotional ← notional trade.quantity trade.price
    let result ← size wallet sourceNotional limit ctx
    match result with
    | .error e => some (.error (.sizing e))
    | .ok sized => do
      let targetNotional ← notional trade.quantity trade.price
      some (.ok { CopyTrader.signalFor trade signalId sized limit confidence now with
        targetNotional := targetNotional })

end Ranged

/-- The multiplications and divisions that the mode starts from. -/
def RawFits (mode : SizingMode) (sourceNotional : Usd) (ctx : SizingContext) : Prop :=
  match mode with
  | .fixedRatio ratio => InRange (sourceNotional * ratio)
  | .fixedUsd _ => True
  | .portfolioPercent pct => InRange (ctx.equity * pct)
  | .riskAdjusted baseRatio _ => InRange (sourceNotional * baseRatio) ∧
      (ctx.maxPositionUsd > 0 → InRange (ctx.currentMarketExposure / ctx.maxPositionUsd))

def LiquidityFits (mode : SizingMode) (ctx : SizingContext) : Prop :=
  match mode with
  | .riskAdjusted _ pct => InRange (ctx.availableLiquidity * pct)
  | _ => True

/-- A notional can be turned into shares, and those into whole increments. -/
structure ConversionFits (u : Usd) (limit : Price) (step : Decimal) : Prop where
  shares : InRange (u / limit.get)
  steps : 0 < step → InRange ((sharesAt u limit).get / step)

/-- Sizing stays in the range; what is behind a refusal is not worked out. -/
def SizingFits (wallet : TargetWallet) (sourceNotional : Usd) (limit : Price)
    (ctx : SizingContext) : Prop :=
  0 < ctx.remainingDailyRisk →
    RawFits wallet.sizing sourceNotional ctx ∧
    InRange (ctx.maxPositionUsd - ctx.currentMarketExposure) ∧
    (Open wallet ctx → LiquidityFits wallet.sizing ctx ∧
      (minTrade wallet ctx ≤ (capped wallet sourceNotional ctx).1 →
        ConversionFits (capped wallet sourceNotional ctx).1 limit ctx.minOrderSize))

def DepthFits (book : Option OrderBook) (side : Side) (limit : Price) : Prop :=
  ∀ b, book = some b → InRange (b.notionalWithin side limit)

/-- A trade that is priced has a book and a size that fit at its limit. -/
def SignalFits (cfg : StrategyConfig) (trade : SourceTrade) (wallet : TargetWallet)
    (book : Option OrderBook) (ctx : SizingContext) (tick : Decimal) (now : DateTime) : Prop :=
  ∀ reference confidence, CopyTrader.referencePrice cfg trade book now =
      .ok (reference, confidence) →
    DepthFits book trade.side
      (limitPrice reference trade.side cfg.maxSlippageBps tick) ∧
    SizingFits wallet trade.notional (limitPrice reference trade.side cfg.maxSlippageBps tick)
      (CopyTrader.withBook ctx book trade.side
        (limitPrice reference trade.side cfg.maxSlippageBps tick))

/-- The sizes of a book are decimals. -/
structure OrderBook.Held (b : OrderBook) : Prop where
  bids : ∀ l ∈ b.bids, Representable l.size.get
  asks : ∀ l ∈ b.asks, Representable l.size.get

theorem OrderBook.Held.taking {b : OrderBook} (h : b.Held) (side : Side) :
    ∀ l ∈ b.takingSide side, InRange l.size.get := by
  intro l mem
  cases side with
  | buy => exact (h.asks l mem).inRange
  | sell => exact (h.bids l mem).inRange

namespace Ranged

variable {wallet : TargetWallet} {sourceNotional : Usd} {limit : Price} {ctx : SizingContext}

theorem rawNotional_computes (mode : SizingMode) (sourceNotional : Usd) (ctx : SizingContext) :
    Computes (rawNotional mode sourceNotional ctx) (RawFits mode sourceNotional ctx)
      (SizingEngine.rawNotional mode sourceNotional ctx) := by
  cases mode with
  | fixedRatio ratio => exact op_computes _
  | fixedUsd amount => exact .pure amount
  | portfolioPercent pct => exact op_computes _
  | riskAdjusted baseRatio pct =>
    let share : Decimal :=
      if ctx.maxPositionUsd > 0 then
        max 0 (min (ctx.currentMarketExposure / ctx.maxPositionUsd) 1)
      else 1
    have low : 0 ≤ share := by
      simp only [share]
      split
      next => exact le_max_left _ _
      next => exact zero_le_one
    have high : share ≤ 1 := by
      simp only [share]
      split
      next => exact max_le zero_le_one (min_le_right _ _)
      next => exact le_rfl
    have full : Computes (used ctx)
        (ctx.maxPositionUsd > 0 → InRange (ctx.currentMarketExposure / ctx.maxPositionUsd))
        share := by
      unfold used
      refine .guarded ?_ ?_
      · intro none_
        simp only [share]
        rw [if_neg none_, if_neg none_]
      · intro some_
        simp only [share]
        rw [if_pos some_, if_pos some_]
        exact (op_computes _).map
    have left : InRange (1 - share) := inRange_of_lt (abs_lt.mpr ⟨by linarith, by linarith⟩)
    refine ((op_computes (sourceNotional * baseRatio)).bind fun base => full.bind fun _ =>
      (op_safe left).bind fun _ => op_safe (x := sourceNotional * baseRatio * (1 - share)) ?_).congr ?_
    · refine lt_of_le_of_lt ?_ base
      rw [abs_mul, abs_of_nonneg (by linarith : 0 ≤ 1 - share)]
      exact mul_le_of_le_one_right (abs_nonneg _) (by linarith)
    · simp only [and_true]
      rfl

theorem capLiquidity_computes (wet : ∀ baseRatio pct, wallet.sizing = .riskAdjusted baseRatio pct →
      0 < ctx.availableLiquidity) (n : Capped) :
    Computes (capLiquidity wallet.sizing ctx n) (LiquidityFits wallet.sizing ctx)
      (SizingEngine.capLiquidity wallet.sizing ctx n) := by
  unfold capLiquidity SizingEngine.capLiquidity LiquidityFits
  cases mode : wallet.sizing with
  | riskAdjusted baseRatio pct =>
    have some_ := not_le.mpr (wet baseRatio pct mode)
    simp only
    rw [if_neg some_, if_neg some_]
    exact (op_computes _).map
  | _ => exact .pure _

theorem sharesAt_computes (u : Usd) (p : Price) :
    Computes (sharesAt u p) (InRange (u / p.get)) (CopyTrading.sharesAt u p) :=
  (op_computes _).map

theorem floorTo_computes {q : Qty} (h : InRange q.get) (step : Decimal) :
    Computes (floorTo q step) (0 < step → InRange (q.get / step)) (q.floorTo step) := by
  unfold floorTo
  rcases le_or_gt step 0 with none_ | pos
  · rw [if_pos none_, Qty.floorTo_of_nonpos none_]
    exact .ends fun pos => absurd pos (not_lt.mpr none_)
  · have nonneg : 0 ≤ ⌊q.get / step⌋ * step := Qty.floorTo_get pos ▸ (q.floorTo step).nonneg
    have back : InRange (⌊q.get / step⌋ * step) := h.of_le nonneg (floor_mul_le pos q.get)
    have same : (Qty.new (⌊q.get / step⌋ * step)).toOption.getD .zero = q.floorTo step := by
      unfold Qty.new
      rw [dif_pos nonneg]
      exact Qty.ext (Qty.floorTo_get pos).symm
    rw [if_neg (not_le.mpr pos), ← same]
    refine ((op_computes _).bind fun _ => (op_safe back).map).congr ?_
    rw [and_true]
    exact ⟨fun within _ => within, fun within => within pos⟩

theorem shares_inRange {u : Usd} {p : Price} (within : InRange (u / p.get)) :
    InRange (CopyTrading.sharesAt u p).get := by
  rcases le_total (u / p.get) 0 with none_ | some_
  · have eq : (CopyTrading.sharesAt u p).get = 0 := max_eq_right none_
    rw [eq]
    exact inRange_of_lt (by norm_num)
  · have eq : (CopyTrading.sharesAt u p).get = u / p.get := max_eq_left some_
    rw [eq]
    exact within

theorem toShares_computes (wallet : TargetWallet) (limit : Price) (ctx : SizingContext)
    (n : Capped) : Computes (toShares wallet limit ctx n)
      (minTrade wallet ctx ≤ n.1 → ConversionFits n.1 limit ctx.minOrderSize)
      (SizingEngine.toShares wallet limit ctx n) := by
  unfold toShares SizingEngine.toShares minTrade
  refine .past not_lt fun reaches => ?_
  refine ((sharesAt_computes n.1 limit).bind fun within => ?_).congr
    ⟨fun h => ⟨h.1, h.2⟩, fun h => ⟨h.shares, h.steps⟩⟩
  have unrounded := shares_inRange within
  have rounded : InRange ((CopyTrading.sharesAt n.1 limit).floorTo ctx.minOrderSize).get :=
    unrounded.of_le (Qty.nonneg _) (Qty.floorTo_le _ _)
  refine (floorTo_computes unrounded ctx.minOrderSize).last ?_
  by_cases none_ : ((CopyTrading.sharesAt n.1 limit).floorTo ctx.minOrderSize).isZero = true
  · rw [if_pos none_, if_pos none_]
  · rw [if_neg none_, if_neg none_, notional_eq rounded]
    rfl

/-- Sizing panics exactly where its inputs do not fit. -/
theorem size_computes (wallet : TargetWallet) (sourceNotional : Usd) (limit : Price)
    (ctx : SizingContext) : Computes (size wallet sourceNotional limit ctx)
      (SizingFits wallet sourceNotional limit ctx)
      (SizingEngine.size wallet sourceNotional limit ctx) := by
  unfold size SizingEngine.size SizingFits
  refine .past not_le fun daily => ?_
  refine (rawNotional_computes _ _ _).bind fun _ => (op_computes _).bind fun _ => ?_
  simp only
  by_cases full : max (ctx.maxPositionUsd - ctx.currentMarketExposure) 0 ≤ 0
  · have closed : ¬Open wallet ctx := fun h =>
      absurd ((le_max_left _ _).trans full) (not_le.mpr (sub_pos.mpr h.headroom))
    rw [if_pos full, if_pos full]
    exact .ends fun h => absurd h closed
  · have room : 0 < ctx.maxPositionUsd - ctx.currentMarketExposure := by
      by_contra none_
      exact full (max_le (not_lt.mp none_) le_rfl)
    rw [max_eq_left room.le] at full ⊢
    rw [if_neg full, if_neg full]
    by_cases open_ : Open wallet ctx
    · refine ((capLiquidity_computes open_.liquid _).bind fun _ => ?_).congr
        ⟨fun h _ => h, fun h => h open_⟩
      rw [capLiquidity_of_open open_]
      unfold capped caps
      rw [CapChain.capAll_append]
      exact toShares_computes wallet limit ctx _
    · obtain ⟨baseRatio, pct, mode, empty⟩ := dry_of_closed daily (sub_pos.mp room) open_
      have refused : ∀ n, capLiquidity wallet.sizing ctx n = some (.error .noLiquidity) ∧
          SizingEngine.capLiquidity wallet.sizing ctx n = .error .noLiquidity := by
        intro n
        rw [mode]
        exact ⟨if_pos empty, if_pos empty⟩
      rw [(refused _).1, (refused _).2]
      exact .ends fun h => absurd h open_

theorem withBook_computes {book : Option OrderBook} (held : ∀ b, book = some b → b.Held)
    (ctx : SizingContext) (side : Side) (limit : Price) :
    Computes (withBook ctx book side limit) (DepthFits book side limit)
      (CopyTrader.withBook ctx book side limit) := by
  have found : Computes (depth ctx book side limit) (DepthFits book side limit)
      (book.elim ctx.availableLiquidity (·.notionalWithin side limit)) := by
    unfold depth DepthFits
    cases book with
    | none => exact .ends nofun
    | some b =>
      exact .only (Option.some_injective _)
        (notionalWithin_computes ((held b rfl).taking side) limit)
  exact found.map

theorem onSourceTrade_computes {cfg : StrategyConfig} {trade : SourceTrade}
    {book : Option OrderBook} {tick : Decimal} (bits : cfg.maxSlippageBps < 2 ^ 32)
    (quantity : InRange trade.quantity.get) (held : ∀ b, book = some b → b.Held)
    (ticks : Representable tick) (wallet : TargetWallet) (ctx : SizingContext)
    (signalId : SignalId) (now : DateTime) :
    Computes (onSourceTrade cfg trade wallet book ctx tick signalId now)
      (SignalFits cfg trade wallet book ctx tick now)
      (CopyTrader.onSourceTrade cfg trade wallet book ctx tick signalId now) := by
  unfold onSourceTrade CopyTrader.onSourceTrade SignalFits
  cases priced : CopyTrader.referencePrice cfg trade book now with
  | error e => exact .ends nofun
  | ok r =>
    obtain ⟨reference, confidence⟩ := r
    have cost : notional trade.quantity trade.price = some trade.notional :=
      notional_eq quantity trade.price
    simp only
    rw [limitPrice_eq ticks reference trade.side bits, cost]
    simp only [Option.bind_eq_bind, Option.bind_some]
    refine .only_pair (fun _ _ => Except.ok.inj)
      ((withBook_computes held ctx trade.side _).bind fun _ =>
        (size_computes wallet trade.notional _ _).last ?_)
    cases SizingEngine.size wallet trade.notional _ _ with
    | error e => rfl
    | ok sized => rfl

end Ranged

end CopyTrading
