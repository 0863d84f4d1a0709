import CopyTrading.CapChain
import CopyTrading.Sizing
import CopyTrading.TickGrid

namespace CopyTrading

open TickGrid

theorem Qty.floorTo_get {q : Qty} {step : Decimal} (pos : 0 < step) :
    (q.floorTo step).get = ⌊q.get / step⌋ * step := by
  unfold floorTo
  rw [dif_neg (not_le.mpr pos)]

theorem Qty.floorTo_of_nonpos {q : Qty} {step : Decimal} (h : step ≤ 0) : q.floorTo step = q := by
  unfold floorTo
  rw [dif_pos h]

theorem Qty.floorTo_le (q : Qty) (step : Decimal) : (q.floorTo step).get ≤ q.get := by
  rcases le_or_gt step 0 with none_ | pos
  · rw [floorTo_of_nonpos none_]
  · rw [floorTo_get pos]
    exact floor_mul_le pos q.get

theorem Qty.floorTo_mono {q r : Qty} (step : Decimal) (le : q.get ≤ r.get) :
    (q.floorTo step).get ≤ (r.floorTo step).get := by
  rcases le_or_gt step 0 with none_ | pos
  · rw [floorTo_of_nonpos none_, floorTo_of_nonpos none_]
    exact le
  · rw [floorTo_get pos, floorTo_get pos]
    have steps : ⌊q.get / step⌋ ≤ ⌊r.get / step⌋ :=
      Int.floor_le_floor (div_le_div_of_nonneg_right le pos.le)
    exact mul_le_mul_of_nonneg_right (Int.cast_le.mpr steps) pos.le

/-- What is left after rounding down to a positive step is nothing, or at least one step. -/
theorem Qty.floorTo_isZero {q : Qty} {step : Decimal} (pos : 0 < step) :
    (q.floorTo step).isZero = false ↔ step ≤ q.get := by
  rw [Bool.eq_false_iff, ne_eq, isZero_iff, floorTo_get pos, mul_eq_zero]
  constructor
  · intro some_
    by_contra short
    refine some_ (.inl ?_)
    have none_ : ⌊q.get / step⌋ = 0 := by
      rw [Int.floor_eq_zero_iff]
      exact ⟨div_nonneg q.nonneg pos.le, (div_lt_one pos).mpr (not_le.mp short)⟩
    rw [none_, Int.cast_zero]
  · intro enough none_
    have one : 1 ≤ ⌊q.get / step⌋ := by
      rw [Int.le_floor, Int.cast_one]
      exact (one_le_div pos).mpr enough
    rcases none_ with zero | zero
    · have zero' : ⌊q.get / step⌋ = 0 := Int.cast_eq_zero.mp zero
      omega
    · exact pos.ne' zero

/-- A quantity rounded to `step` reaches `least` exactly if the unrounded one reaches `least`
rounded up to `step`. -/
theorem Qty.le_floorTo_iff {q : Qty} {step least : Decimal} (pos : 0 < step)
    (some_ : (q.floorTo step).isZero = false) :
    least ≤ (q.floorTo step).get ↔ (q.floorTo (⌈least / step⌉ * step)).isZero = false := by
  rw [floorTo_get pos, ← between_iff_floor pos, between_iff_ceil pos]
  rcases le_or_gt (⌈least / step⌉ * step) 0 with low | high
  · rw [floorTo_of_nonpos low]
    have enough := (floorTo_isZero pos).mp some_
    constructor
    · intro _
      rw [Bool.eq_false_iff, ne_eq, isZero_iff]
      exact (pos.trans_le enough).ne'
    · intro _
      exact low.trans q.nonneg
  · rw [floorTo_isZero high]

namespace SizingEngine

def liquidityCaps (mode : SizingMode) (ctx : SizingContext) : List (String × Usd) :=
  match mode with
  | .riskAdjusted _ liquidityCapPct => [("liquidity", ctx.availableLiquidity * liquidityCapPct)]
  | _ => []

/-- The caps that sizing applies, in its order. -/
def caps (wallet : TargetWallet) (ctx : SizingContext) : List (String × Usd) :=
  [("wallet_max_trade", wallet.maxTradeUsd), ("global_max_trade", ctx.maxTradeUsd),
    ("position_headroom", ctx.maxPositionUsd - ctx.currentMarketExposure),
    ("wallet_max_exposure", wallet.maxExposureUsd),
    ("daily_risk_budget", ctx.remainingDailyRisk)] ++ liquidityCaps wallet.sizing ctx

/-- Nothing refuses the trade before its notional is compared with the minimum. -/
structure Open (wallet : TargetWallet) (ctx : SizingContext) : Prop where
  daily : 0 < ctx.remainingDailyRisk
  headroom : ctx.currentMarketExposure < ctx.maxPositionUsd
  liquid : ∀ baseRatio pct, wallet.sizing = .riskAdjusted baseRatio pct → 0 < ctx.availableLiquidity

/-- The notional before it is converted to shares, with the cap that bound it. -/
def capped (wallet : TargetWallet) (sourceNotional : Usd) (ctx : SizingContext) : Capped :=
  CapChain.capAll (caps wallet ctx) (rawNotional wallet.sizing sourceNotional ctx, none)

def minTrade (wallet : TargetWallet) (ctx : SizingContext) : Usd :=
  max wallet.minTradeUsd ctx.minTradeUsd

def sharesOf (wallet : TargetWallet) (sourceNotional : Usd) (limit : Price)
    (ctx : SizingContext) : Qty :=
  (sharesAt (capped wallet sourceNotional ctx).1 limit).floorTo ctx.minOrderSize

variable {wallet : TargetWallet} {sourceNotional : Usd} {limit : Price} {ctx : SizingContext}
  {sized : SizedOrder}

theorem dry_of_closed (daily : 0 < ctx.remainingDailyRisk)
    (headroom : ctx.currentMarketExposure < ctx.maxPositionUsd) (closed : ¬Open wallet ctx) :
    ∃ baseRatio pct, wallet.sizing = .riskAdjusted baseRatio pct ∧ ctx.availableLiquidity ≤ 0 := by
  by_contra wet
  refine closed ⟨daily, headroom, ?_⟩
  intro baseRatio pct mode
  by_contra empty
  exact wet ⟨baseRatio, pct, mode, not_lt.mp empty⟩

theorem capLiquidity_of_open (h : Open wallet ctx) (n : Capped) :
    capLiquidity wallet.sizing ctx n = .ok (CapChain.capAll (liquidityCaps wallet.sizing ctx) n) := by
  cases mode : wallet.sizing with
  | riskAdjusted baseRatio pct => exact if_neg (not_le.mpr (h.liquid baseRatio pct mode))
  | _ => rfl

theorem toShares_ok_iff {n : Capped} : toShares wallet limit ctx n = .ok sized ↔
    minTrade wallet ctx ≤ n.1 ∧ ((sharesAt n.1 limit).floorTo ctx.minOrderSize).isZero = false ∧
      sized = ⟨(sharesAt n.1 limit).floorTo ctx.minOrderSize,
        ((sharesAt n.1 limit).floorTo ctx.minOrderSize).notional limit, wallet.sizing.name, n.2⟩ := by
  unfold toShares minTrade
  simp only
  by_cases small : n.1 < max wallet.minTradeUsd ctx.minTradeUsd
  · rw [if_pos small]
    exact iff_of_false nofun fun h => absurd h.1 (not_le.mpr small)
  · rw [if_neg small]
    cases ((sharesAt n.1 limit).floorTo ctx.minOrderSize).isZero with
    | true => exact iff_of_false nofun fun h => by cases h.2.1
    | false =>
      constructor
      · intro ok
        cases ok
        exact ⟨not_lt.mp small, rfl, rfl⟩
      · rintro ⟨_, _, rfl⟩
        rfl

/-- What sizing answers when it answers with an order. -/
theorem size_ok_iff : size wallet sourceNotional limit ctx = .ok sized ↔
    Open wallet ctx ∧ minTrade wallet ctx ≤ (capped wallet sourceNotional ctx).1 ∧
      (sharesOf wallet sourceNotional limit ctx).isZero = false ∧
      sized = ⟨sharesOf wallet sourceNotional limit ctx,
        (sharesOf wallet sourceNotional limit ctx).notional limit, wallet.sizing.name,
        (capped wallet sourceNotional ctx).2⟩ := by
  unfold size
  simp only
  by_cases spent : ctx.remainingDailyRisk ≤ 0
  · rw [if_pos spent]
    exact iff_of_false nofun fun h => absurd h.1.daily (not_lt.mpr spent)
  rw [if_neg spent]
  by_cases full : ctx.maxPositionUsd - ctx.currentMarketExposure ≤ 0
  · rw [if_pos (max_le full le_rfl)]
    exact iff_of_false nofun fun h => absurd h.1.headroom (not_lt.mpr (sub_nonpos.mp full))
  have room := not_le.mp full
  rw [max_eq_left room.le, if_neg full]
  by_cases open_ : Open wallet ctx
  · rw [capLiquidity_of_open open_]
    unfold sharesOf capped caps
    rw [CapChain.capAll_append]
    exact toShares_ok_iff.trans (and_iff_right open_).symm
  · obtain ⟨baseRatio, pct, mode, empty⟩ :=
      dry_of_closed (not_le.mp spent) (sub_pos.mp room) open_
    have refused : ∀ n, capLiquidity wallet.sizing ctx n = .error .noLiquidity := by
      intro n
      rw [mode]
      exact if_pos empty
    rw [refused]
    exact iff_of_false nofun fun h => open_ h.1

/-- What an order owes to the caps: it is within each, and names the one that bound it. -/
structure Reduced (wallet : TargetWallet) (sourceNotional : Usd) (limit : Price)
    (ctx : SizingContext) (s : SizedOrder) : Prop where
  notional : s.notional = s.quantity.notional limit
  raw : s.notional ≤ rawNotional wallet.sizing sourceNotional ctx
  walletTrade : s.notional ≤ wallet.maxTradeUsd
  globalTrade : s.notional ≤ ctx.maxTradeUsd
  headroom : s.notional ≤ ctx.maxPositionUsd - ctx.currentMarketExposure
  walletExposure : s.notional ≤ wallet.maxExposureUsd
  dailyRisk : s.notional ≤ ctx.remainingDailyRisk
  liquidity : ∀ baseRatio pct, wallet.sizing = .riskAdjusted baseRatio pct →
    s.notional ≤ ctx.availableLiquidity * pct
  some_ : 0 < s.quantity.get
  whole : 0 < ctx.minOrderSize → OnGrid ctx.minOrderSize s.quantity.get
  /-- No cap is named exactly when none reduced the raw notional. -/
  unbound : s.bindingConstraint = none ↔
    (capped wallet sourceNotional ctx).1 = rawNotional wallet.sizing sourceNotional ctx
  bound : ∀ name, s.bindingConstraint = some name →
    (name, (capped wallet sourceNotional ctx).1) ∈ caps wallet ctx

theorem sharesOf_cost {wallet : TargetWallet} {sourceNotional : Usd} {ctx : SizingContext}
    (limit : Price) (nonneg : 0 ≤ (capped wallet sourceNotional ctx).1) :
    (sharesOf wallet sourceNotional limit ctx).notional limit ≤
      (capped wallet sourceNotional ctx).1 := by
  have shares : (sharesAt (capped wallet sourceNotional ctx).1 limit).get =
      (capped wallet sourceNotional ctx).1 / limit.get :=
    max_eq_left (div_nonneg nonneg limit.pos.le)
  have down := Qty.floorTo_le (sharesAt (capped wallet sourceNotional ctx).1 limit)
    ctx.minOrderSize
  rw [shares, le_div_iff₀ limit.pos] at down
  exact down

theorem liquidityCaps_of_riskAdjusted {baseRatio pct : Decimal}
    (mode : wallet.sizing = .riskAdjusted baseRatio pct) :
    ("liquidity", ctx.availableLiquidity * pct) ∈ caps wallet ctx := by
  unfold caps liquidityCaps
  rw [mode]
  exact List.mem_append_right _ (List.mem_singleton_self _)

/-- Sizing above a minimum that is not negative only ever reduces. -/
theorem caps_only_reduce (minimum : 0 ≤ minTrade wallet ctx)
    (h : size wallet sourceNotional limit ctx = .ok sized) :
    Reduced wallet sourceNotional limit ctx sized := by
  obtain ⟨_, reaches, some_, rfl⟩ := size_ok_iff.mp h
  have cost := sharesOf_cost limit (minimum.trans reaches)
  have within : ∀ c ∈ caps wallet ctx,
      (sharesOf wallet sourceNotional limit ctx).notional limit ≤ c.2 :=
    fun c mem => cost.trans (CapChain.capAll_le_cap _ mem)
  refine ⟨rfl, cost.trans (CapChain.capAll_le _ _),
    within ("wallet_max_trade", _) (by simp [caps]), within ("global_max_trade", _) (by simp [caps]),
    within ("position_headroom", _) (by simp [caps]),
    within ("wallet_max_exposure", _) (by simp [caps]),
    within ("daily_risk_budget", _) (by simp [caps]), ?_, Qty.isZero_false_iff.mp some_, ?_, ?_, ?_⟩
  · intro baseRatio pct mode
    exact within _ (liquidityCaps_of_riskAdjusted mode)
  · intro step
    exact ⟨_, Qty.floorTo_get step⟩
  · refine CapChain.capAll_none_iff.trans ?_
    constructor
    · intro free
      exact le_antisymm (CapChain.capAll_le _ _) (CapChain.le_capAll_iff.mpr ⟨le_rfl, free⟩)
    · intro same c mem
      have below := CapChain.capAll_le_cap
        (rawNotional wallet.sizing sourceNotional ctx, none) mem
      exact same.symm.trans_le below
  · intro name named
    rcases CapChain.capAll_named named with ⟨c, mem, rfl, least⟩ | stays
    · have same : c = (c.1, (capped wallet sourceNotional ctx).1) := Prod.ext rfl least
      exact same ▸ mem
    · simp only [capped] at named
      rw [stays] at named
      cases named

theorem capped_pos (some_ : (sharesOf wallet sourceNotional limit ctx).isZero = false) :
    0 < (capped wallet sourceNotional ctx).1 := by
  by_contra none_
  have shares : (sharesAt (capped wallet sourceNotional ctx).1 limit).get = 0 :=
    max_eq_right (div_nonpos_of_nonpos_of_nonneg (not_lt.mp none_) limit.pos.le)
  have below := Qty.floorTo_le (sharesAt (capped wallet sourceNotional ctx).1 limit)
    ctx.minOrderSize
  rw [shares] at below
  exact absurd (Qty.isZero_false_iff.mp some_) (not_lt.mpr below)

end SizingEngine

/-- A minimum of 6, and a venue that trades in fives. -/
def SizingContext.sample : SizingContext where
  equity := 10000
  currentMarketExposure := 0
  maxPositionUsd := 1000
  maxTradeUsd := 500
  minTradeUsd := 6
  availableLiquidity := 10000
  remainingDailyRisk := 1000
  minOrderSize := 5

namespace SizingEngine

/-- A quarter of 40 at a price of a half: twenty shares for 10. -/
def sampleOrder : SizedOrder := ⟨⟨20, Nat.ofNat_nonneg 20⟩, 10, "fixed_ratio", none⟩

theorem size_sample : size (.new .zero "Target") 40 .half .sample = .ok sampleOrder := by
  decide +kernel

theorem caps_only_reduce_sample : Reduced (.new .zero "Target") 40 .half .sample sampleOrder :=
  caps_only_reduce (by decide +kernel) size_sample

end SizingEngine

end CopyTrading
