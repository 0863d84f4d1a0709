import CopyTrading.SizingCaps

namespace CopyTrading

namespace SizingEngine

def NonnegativeMode : SizingMode → Prop
  | .fixedRatio ratio => 0 ≤ ratio
  | .fixedUsd amount => 0 ≤ amount
  | .portfolioPercent pct => 0 ≤ pct
  | .riskAdjusted baseRatio liquidityCapPct => 0 ≤ baseRatio ∧ 0 ≤ liquidityCapPct

/-- A second trade of the same mode and increment, with more room wherever it differs. -/
structure Looser (wallet wallet' : TargetWallet) (sourceNotional sourceNotional' : Usd)
    (ctx ctx' : SizingContext) : Prop where
  mode : wallet'.sizing = wallet.sizing
  walletTrade : wallet.maxTradeUsd ≤ wallet'.maxTradeUsd
  walletExposure : wallet.maxExposureUsd ≤ wallet'.maxExposureUsd
  walletMin : wallet'.minTradeUsd ≤ wallet.minTradeUsd
  source : sourceNotional ≤ sourceNotional'
  equity : ctx.equity ≤ ctx'.equity
  exposure : ctx'.currentMarketExposure ≤ ctx.currentMarketExposure
  maxPosition : ctx.maxPositionUsd ≤ ctx'.maxPositionUsd
  globalTrade : ctx.maxTradeUsd ≤ ctx'.maxTradeUsd
  globalMin : ctx'.minTradeUsd ≤ ctx.minTradeUsd
  liquidity : ctx.availableLiquidity ≤ ctx'.availableLiquidity
  dailyRisk : ctx.remainingDailyRisk ≤ ctx'.remainingDailyRisk
  increment : ctx'.minOrderSize = ctx.minOrderSize

/-- The quantity of an order, and nothing of a refusal. -/
def quantityOf : Except SizingRefusal SizedOrder → Decimal
  | .ok s => s.quantity.get
  | .error _ => 0

/-- How much of the position cap is taken, as a fraction. -/
def used (ctx : SizingContext) : Decimal :=
  if ctx.maxPositionUsd > 0 then max 0 (min (ctx.currentMarketExposure / ctx.maxPositionUsd) 1)
  else 1

theorem used_le_one (ctx : SizingContext) : used ctx ≤ 1 := by
  unfold used
  split
  · exact max_le (by norm_num) (min_le_right _ _)
  · exact le_rfl

theorem used_anti {ctx ctx' : SizingContext}
    (exposure : ctx'.currentMarketExposure ≤ ctx.currentMarketExposure)
    (maxPosition : ctx.maxPositionUsd ≤ ctx'.maxPositionUsd) : used ctx' ≤ used ctx := by
  by_cases pos : ctx.maxPositionUsd > 0
  · have pos' : ctx'.maxPositionUsd > 0 := lt_of_lt_of_le pos maxPosition
    unfold used
    rw [if_pos pos, if_pos pos']
    rcases le_total ctx'.currentMarketExposure 0 with none_ | some_
    · have low := div_nonpos_of_nonpos_of_nonneg none_ pos'.le
      rw [max_eq_left ((min_le_left _ _).trans low)]
      exact le_max_left _ _
    · have share : ctx'.currentMarketExposure / ctx'.maxPositionUsd ≤
          ctx.currentMarketExposure / ctx.maxPositionUsd :=
        div_le_div₀ (some_.trans exposure) exposure pos maxPosition
      exact max_le_max le_rfl (min_le_min share le_rfl)
  · have full : used ctx = 1 := if_neg pos
    rw [full]
    exact used_le_one ctx'

variable {wallet wallet' : TargetWallet} {sourceNotional sourceNotional' : Usd} {limit : Price}
  {ctx ctx' : SizingContext}

theorem rawNotional_mono (nonneg : NonnegativeMode wallet.sizing) (source : 0 ≤ sourceNotional)
    (h : Looser wallet wallet' sourceNotional sourceNotional' ctx ctx') :
    rawNotional wallet.sizing sourceNotional ctx ≤
      rawNotional wallet'.sizing sourceNotional' ctx' := by
  rw [h.mode]
  cases mode : wallet.sizing with
  | fixedRatio ratio =>
    rw [mode] at nonneg
    exact mul_le_mul_of_nonneg_right h.source nonneg
  | fixedUsd amount => exact le_rfl
  | portfolioPercent pct =>
    rw [mode] at nonneg
    exact mul_le_mul_of_nonneg_right h.equity nonneg
  | riskAdjusted baseRatio pct =>
    rw [mode] at nonneg
    have base : sourceNotional * baseRatio ≤ sourceNotional' * baseRatio :=
      mul_le_mul_of_nonneg_right h.source nonneg.1
    have rest : 1 - used ctx ≤ 1 - used ctx' := sub_le_sub_left (used_anti h.exposure h.maxPosition) 1
    have left : 0 ≤ 1 - used ctx := sub_nonneg.mpr (used_le_one ctx)
    exact mul_le_mul base rest left ((mul_nonneg source nonneg.1).trans base)

theorem liquidityCaps_mono (nonneg : NonnegativeMode wallet.sizing)
    (liquidity : ctx.availableLiquidity ≤ ctx'.availableLiquidity) :
    ∀ c' ∈ liquidityCaps wallet.sizing ctx', ∃ c ∈ liquidityCaps wallet.sizing ctx, c.2 ≤ c'.2 := by
  intro c' mem'
  cases mode : wallet.sizing with
  | riskAdjusted baseRatio pct =>
    rw [mode] at nonneg mem'
    rw [List.mem_singleton.mp mem']
    exact ⟨_, List.mem_singleton_self _, mul_le_mul_of_nonneg_right liquidity nonneg.2⟩
  | _ => rw [mode] at mem'; cases mem'

theorem caps_mono (nonneg : NonnegativeMode wallet.sizing)
    (h : Looser wallet wallet' sourceNotional sourceNotional' ctx ctx') :
    ∀ c' ∈ caps wallet' ctx', ∃ c ∈ caps wallet ctx, c.2 ≤ c'.2 := by
  have headroom : ctx.maxPositionUsd - ctx.currentMarketExposure ≤
      ctx'.maxPositionUsd - ctx'.currentMarketExposure := sub_le_sub h.maxPosition h.exposure
  intro c' mem'
  rcases List.mem_append.mp mem' with fixed | liquid
  · simp only [List.mem_cons, List.not_mem_nil, or_false] at fixed
    rcases fixed with rfl | rfl | rfl | rfl | rfl
    · exact ⟨("wallet_max_trade", _), by simp [caps], h.walletTrade⟩
    · exact ⟨("global_max_trade", _), by simp [caps], h.globalTrade⟩
    · exact ⟨("position_headroom", _), by simp [caps], headroom⟩
    · exact ⟨("wallet_max_exposure", _), by simp [caps], h.walletExposure⟩
    · exact ⟨("daily_risk_budget", _), by simp [caps], h.dailyRisk⟩
  · rw [h.mode] at liquid
    obtain ⟨c, mem, le⟩ := liquidityCaps_mono nonneg h.liquidity c' liquid
    exact ⟨c, List.mem_append_right _ mem, le⟩

/-- A gate that is closed leaves no shares either, so the minimum alone decides. -/
theorem quantityOf_size (nonneg : NonnegativeMode wallet.sizing) :
    quantityOf (size wallet sourceNotional limit ctx) =
      if minTrade wallet ctx ≤ (capped wallet sourceNotional ctx).1 then
        (sharesOf wallet sourceNotional limit ctx).get
      else 0 := by
  cases result : size wallet sourceNotional limit ctx with
  | ok sized =>
    obtain ⟨_, reaches, _, rfl⟩ := size_ok_iff.mp result
    rw [if_pos reaches]
    rfl
  | error e =>
    split
    next reaches =>
      by_contra some_
      have shares : (sharesOf wallet sourceNotional limit ctx).isZero = false :=
        Qty.isZero_false_iff.mpr (lt_of_le_of_ne (Qty.nonneg _) some_)
      have pos := capped_pos shares
      have open_ : Open wallet ctx := by
        refine ⟨pos.trans_le (CapChain.capAll_le_cap _ (c := ("daily_risk_budget", _)) ?_),
          sub_pos.mp (pos.trans_le (CapChain.capAll_le_cap _ (c := ("position_headroom", _)) ?_)), ?_⟩
        · simp [caps]
        · simp [caps]
        · intro baseRatio pct mode
          rw [mode] at nonneg
          have mem : ("liquidity", ctx.availableLiquidity * pct) ∈ caps wallet ctx :=
            liquidityCaps_of_riskAdjusted mode
          have liquid := pos.trans_le (CapChain.capAll_le_cap _ mem)
          by_contra dry
          have none_ := mul_nonpos_of_nonpos_of_nonneg (not_lt.mp dry) nonneg.2
          exact absurd liquid (not_lt.mpr none_)
      rw [size_ok_iff.mpr ⟨open_, reaches, shares, rfl⟩] at result
      cases result
    next => rfl

/-- More room never makes a smaller order. -/
theorem sizing_monotone (nonneg : NonnegativeMode wallet.sizing) (source : 0 ≤ sourceNotional)
    (h : Looser wallet wallet' sourceNotional sourceNotional' ctx ctx') :
    quantityOf (size wallet sourceNotional limit ctx) ≤
      quantityOf (size wallet' sourceNotional' limit ctx') := by
  have nonneg' : NonnegativeMode wallet'.sizing := h.mode ▸ nonneg
  have more : (capped wallet sourceNotional ctx).1 ≤ (capped wallet' sourceNotional' ctx').1 :=
    CapChain.capAll_mono (rawNotional_mono nonneg source h) (caps_mono nonneg h)
  have lower : minTrade wallet' ctx' ≤ minTrade wallet ctx := max_le_max h.walletMin h.globalMin
  rw [quantityOf_size nonneg, quantityOf_size nonneg']
  split
  next reaches =>
    rw [if_pos ((lower.trans reaches).trans more)]
    unfold sharesOf
    rw [h.increment]
    refine Qty.floorTo_mono _ ?_
    exact max_le_max (div_le_div_of_nonneg_right more limit.pos.le) le_rfl
  next =>
    split
    · exact Qty.nonneg _
    · exact le_rfl

/-- The source trades 40 rather than 28, where the global cap is half as large again. -/
theorem sizing_monotone_sample :
    quantityOf (size (.new .zero "Target") 28 .half .sample) ≤
      quantityOf (size (.new .zero "Target") 40 .half
        { SizingContext.sample with maxTradeUsd := 750 }) := by
  have nonneg : NonnegativeMode (TargetWallet.new .zero "Target").sizing := by
    show (0 : ℚ) ≤ 1 / 4
    norm_num
  refine sizing_monotone nonneg (by norm_num) ?_
  constructor <;> rfl

end SizingEngine

end CopyTrading
