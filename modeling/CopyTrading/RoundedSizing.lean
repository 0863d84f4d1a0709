import CopyTrading.CalcSizing
import CopyTrading.DecimalMachine

namespace CopyTrading

open SizingEngine

namespace Calc

def liquidityCaps (mode : SizingMode) (ctx : SizingContext) : Calc (List (String × Usd)) :=
  match mode with
  | .riskAdjusted _ liquidityCapPct => do
    let limit ← op (ctx.availableLiquidity * liquidityCapPct)
    pure [("liquidity", limit)]
  | _ => pure []

/-- The caps that every mode has, given the room that is left in the market's position. -/
def commonCaps (wallet : TargetWallet) (ctx : SizingContext) (room : Usd) :
    List (String × Usd) :=
  [("wallet_max_trade", wallet.maxTradeUsd), ("global_max_trade", ctx.maxTradeUsd),
    ("position_headroom", room), ("wallet_max_exposure", wallet.maxExposureUsd),
    ("daily_risk_budget", ctx.remainingDailyRisk)]

/-- The caps as the program computes them, in the order in which it applies them. -/
def caps (wallet : TargetWallet) (ctx : SizingContext) : Calc (List (String × Usd)) := do
  let room ← op (ctx.maxPositionUsd - ctx.currentMarketExposure)
  let liquidity ← liquidityCaps wallet.sizing ctx
  pure (commonCaps wallet ctx room ++ liquidity)

/-- How an order comes about on a machine: the raw notional, cut by the caps, is converted to
shares. -/
structure SizedBy (machine : Operands → Decimal → Option Decimal) (wallet : TargetWallet)
    (sourceNotional : Usd) (limit : Price) (ctx : SizingContext) (raw : Usd)
    (limits : List (String × Usd)) (s : SizedOrder) : Prop where
  starts : (rawNotional wallet.sizing sourceNotional ctx).run machine = some raw
  bound : (caps wallet ctx).run machine = some limits
  reaches : minTrade wallet ctx ≤ (CapChain.capAll limits (raw, none)).1
  shares : (do
    let unrounded ← sharesAt (CapChain.capAll limits (raw, none)).1 limit
    floorTo unrounded ctx.minOrderSize).run machine = some s.quantity
  some_ : s.quantity.isZero = false
  cost : (notional s.quantity limit).run machine = some s.notional

section SizedBy

variable {machine : Operands → Decimal → Option Decimal} {wallet : TargetWallet}
  {sourceNotional : Usd} {limit : Price} {ctx : SizingContext} {sized : SizedOrder}

theorem capLiquidity_run {n capped : Capped}
    (h : (capLiquidity wallet.sizing ctx n).run machine = some (.ok capped)) :
    ∃ liquidity, (liquidityCaps wallet.sizing ctx).run machine = some liquidity ∧
      capped = CapChain.capAll liquidity n := by
  unfold capLiquidity at h
  unfold liquidityCaps
  cases mode : wallet.sizing with
  | riskAdjusted baseRatio pct =>
    rw [mode] at h
    simp only at h
    split at h
    next => cases h
    next =>
      rw [Calculation.run_bind] at h ⊢
      obtain ⟨room, computed, h⟩ := Option.bind_eq_some_iff.mp h
      cases h
      rw [computed]
      exact ⟨_, rfl, rfl⟩
  | _ =>
    rw [mode] at h
    cases h
    exact ⟨[], rfl, rfl⟩

theorem toShares_run {n : Capped}
    (h : (toShares wallet limit ctx n).run machine = some (.ok sized)) :
    minTrade wallet ctx ≤ n.1 ∧ sized.quantity.isZero = false ∧
      (do
        let unrounded ← sharesAt n.1 limit
        floorTo unrounded ctx.minOrderSize).run machine = some sized.quantity ∧
      (notional sized.quantity limit).run machine = some sized.notional := by
  unfold toShares at h
  simp only at h
  split at h
  next => cases h
  next reaches =>
    rw [Calculation.run_bind] at h
    obtain ⟨unrounded, shares, h⟩ := Option.bind_eq_some_iff.mp h
    rw [Calculation.run_bind] at h
    obtain ⟨quantity, down, h⟩ := Option.bind_eq_some_iff.mp h
    split at h
    next => cases h
    next some_ =>
      rw [Calculation.run_bind] at h
      obtain ⟨final, cost, h⟩ := Option.bind_eq_some_iff.mp h
      cases h
      refine ⟨not_lt.mp reaches, Bool.eq_false_of_not_eq_true some_, ?_, cost⟩
      rw [Calculation.run_bind, shares]
      exact down

theorem size_ok (h : (size wallet sourceNotional limit ctx).run machine = some (.ok sized)) :
    ∃ raw limits, SizedBy machine wallet sourceNotional limit ctx raw limits sized := by
  unfold size at h
  split at h
  next => cases h
  next =>
    rw [Calculation.run_bind] at h
    obtain ⟨raw, starts, h⟩ := Option.bind_eq_some_iff.mp h
    rw [Calculation.run_bind] at h
    obtain ⟨room, left, h⟩ := Option.bind_eq_some_iff.mp h
    simp only at h
    split at h
    next => cases h
    next open_ =>
      have positive : 0 < room := by
        by_contra none_
        exact open_ (max_le (not_lt.mp none_) le_rfl)
      rw [max_eq_left positive.le, Calculation.run_bind] at h
      obtain ⟨capped, cut, h⟩ := Option.bind_eq_some_iff.mp h
      cases capped with
      | error e => cases h
      | ok n =>
        obtain ⟨liquidity, wet, rfl⟩ := capLiquidity_run cut
        obtain ⟨reaches, some_, shares, cost⟩ := toShares_run h
        refine ⟨raw, commonCaps wallet ctx room ++ liquidity, starts, ?_, ?_, ?_, some_, cost⟩
        · unfold caps
          rw [Calculation.run_bind, left, Option.bind_some, Calculation.run_bind, wet]
          rfl
        · rw [CapChain.capAll_append]
          exact reaches
        · rw [CapChain.capAll_append]
          exact shares

end SizedBy

end Calc

namespace SizingEngine

open Calc

/-- At the limit, a notional buys `q` shares or more. -/
def Buys (limit : Price) (q : Decimal) (u : Usd) : Prop :=
  ∀ shares, rustDecimal.round (u / limit.get) = some shares → q ≤ shares

/-- At the limit, a notional buys `k` increments or more. -/
def BuysIncrements (limit : Price) (step : Decimal) (k : ℤ) (u : Usd) : Prop :=
  ∀ shares steps, rustDecimal.round (u / limit.get) = some shares →
    rustDecimal.round (shares / step) = some steps → k ≤ steps

/-- Each of the amounts, taken alone, buys `q` shares at the limit: whole increments of them, if
there is an increment. -/
structure Affordable (limit : Price) (step : Decimal) (amounts : List Usd) (q : Decimal) :
    Prop where
  shares : step ≤ 0 → ∀ u ∈ amounts, Buys limit q u
  increments : 0 < step → ∃ k : ℤ, rustDecimal.round (k * step) = some q ∧
    ∀ u ∈ amounts, BuysIncrements limit step k u

variable {wallet : TargetWallet} {sourceNotional : Usd} {limit : Price} {ctx : SizingContext}
  {raw : Usd} {limits : List (String × Usd)} {sized : SizedOrder}

/-- The raw notional and the caps. -/
abbrev amounts (raw : Usd) (limits : List (String × Usd)) : List Usd := raw :: limits.map Prod.snd

theorem capAll_mem (raw : Usd) (limits : List (String × Usd)) :
    (CapChain.capAll limits (raw, none)).1 ∈ amounts raw limits := by
  rcases CapChain.capAll_reached limits (raw, none) with same | ⟨c, mem, same⟩
  · rw [same]
    exact List.mem_cons_self
  · rw [same]
    exact List.mem_cons_of_mem _ (List.mem_map_of_mem mem)

theorem capAll_le_of_mem {u : Usd} (mem : u ∈ amounts raw limits) :
    (CapChain.capAll limits (raw, none)).1 ≤ u := by
  rcases List.mem_cons.mp mem with rfl | cap
  · exact CapChain.capAll_le limits _
  · obtain ⟨c, within, rfl⟩ := List.mem_map.mp cap
    exact CapChain.capAll_le_cap _ within

theorem sharesAt_run {u : Usd} {shares : Qty}
    (h : (Calc.sharesAt u limit).run rounded = some shares) :
    ∃ s, rustDecimal.round (u / limit.get) = some s ∧ shares.get = max s 0 := by
  unfold Calc.sharesAt op at h
  rw [Calculation.run_bind, Calculation.run_lift] at h
  obtain ⟨s, divides, h⟩ := Option.bind_eq_some_iff.mp h
  cases h
  exact ⟨s, divides, rfl⟩

theorem floorTo_run {q shares : Qty} {step : Decimal} (pos : 0 < step)
    (h : (Calc.floorTo q step).run rounded = some shares) :
    ∃ steps back, rustDecimal.round (q.get / step) = some steps ∧
      rustDecimal.round (⌊steps⌋ * step) = some back ∧ shares.get = max back 0 := by
  unfold Calc.floorTo op at h
  rw [if_neg (not_le.mpr pos), Calculation.run_bind, Calculation.run_lift] at h
  obtain ⟨steps, divides, h⟩ := Option.bind_eq_some_iff.mp h
  rw [Calculation.run_bind, Calculation.run_lift] at h
  obtain ⟨back, multiplies, h⟩ := Option.bind_eq_some_iff.mp h
  cases h
  exact ⟨steps, back, divides, multiplies, rfl⟩

/-- The conversion of an order, with an increment or without. -/
theorem sizedBy_converted (h : SizedBy rounded wallet sourceNotional limit ctx raw limits sized) :
    ∃ s, rustDecimal.round ((CapChain.capAll limits (raw, none)).1 / limit.get) = some s ∧
      (ctx.minOrderSize ≤ 0 → sized.quantity.get = s) ∧
      (0 < ctx.minOrderSize → ∃ steps, rustDecimal.round (s / ctx.minOrderSize) = some steps ∧
        rustDecimal.round (⌊steps⌋ * ctx.minOrderSize) = some sized.quantity.get) := by
  have shares := h.shares
  rw [Calculation.run_bind] at shares
  obtain ⟨unrounded, buys, down⟩ := Option.bind_eq_some_iff.mp shares
  obtain ⟨s, divides, same⟩ := sharesAt_run buys
  have some_ := Qty.isZero_false_iff.mp h.some_
  refine ⟨s, divides, ?_, ?_⟩
  · intro none_
    unfold Calc.floorTo at down
    rw [if_pos none_] at down
    cases down
    rcases max_choice s 0 with more | zero
    · rw [same, more]
    · rw [same, zero] at some_
      exact absurd some_ (lt_irrefl 0)
  · intro pos
    obtain ⟨steps, back, counts, multiplies, quantity⟩ := floorTo_run pos down
    have kept : sized.quantity.get = back := by
      rcases max_choice back 0 with more | zero
      · rw [quantity, more]
      · rw [quantity, zero] at some_
        exact absurd some_ (lt_irrefl 0)
    have bought : unrounded.get = s := by
      rcases max_choice s 0 with more | zero
      · rw [same, more]
      · -- nothing would be left of no shares
        have zero_ := DecimalFormat.round_of_holds (DecimalFormat.holds_zero rustDecimal)
        rw [same, zero, zero_div, zero_] at counts
        cases counts
        rw [Int.floor_zero, Int.cast_zero, zero_mul, zero_] at multiplies
        cases multiplies
        rw [kept] at some_
        exact absurd some_ (lt_irrefl 0)
    rw [bought] at counts
    rw [kept]
    exact ⟨steps, counts, multiplies⟩

/-- An order is for the greatest number of shares that the raw notional and the caps can buy. -/
theorem sizedBy_greatest (h : SizedBy rounded wallet sourceNotional limit ctx raw limits sized) :
    IsGreatest {q | Affordable limit ctx.minOrderSize (amounts raw limits) q}
      sized.quantity.get := by
  obtain ⟨s, divides, plain, whole⟩ := sizedBy_converted h
  have more : ∀ u ∈ amounts raw limits, ∀ t, rustDecimal.round (u / limit.get) = some t →
      s ≤ t := by
    intro u mem t larger
    exact DecimalFormat.round_mono
      (div_le_div_of_nonneg_right (capAll_le_of_mem mem) limit.pos.le) divides larger
  constructor
  · refine ⟨?_, ?_⟩
    · intro none_ u mem t larger
      rw [plain none_]
      exact more u mem t larger
    · intro pos
      obtain ⟨steps, counts, back⟩ := whole pos
      refine ⟨⌊steps⌋, back, ?_⟩
      intro u mem t steps' larger counts'
      have order := DecimalFormat.round_mono
        (div_le_div_of_nonneg_right (more u mem t larger) pos.le) counts counts'
      exact (Int.floor_le steps).trans order
  · intro q affordable
    rcases le_or_gt ctx.minOrderSize 0 with none_ | pos
    · rw [plain none_]
      exact affordable.shares none_ _ (capAll_mem raw limits) s divides
    · obtain ⟨steps, counts, back⟩ := whole pos
      obtain ⟨k, multiplies, within⟩ := affordable.increments pos
      have most := Int.le_floor.mpr (within _ (capAll_mem raw limits) s steps divides counts)
      have cast : (k : ℚ) ≤ ⌊steps⌋ := Int.cast_le.mpr most
      exact DecimalFormat.round_mono (mul_le_mul_of_nonneg_right cast pos.le) multiplies back

/-- The amounts that an order comes from are those of its inputs. -/
def AffordableFrom (wallet : TargetWallet) (sourceNotional : Usd) (limit : Price)
    (ctx : SizingContext) (q : Decimal) : Prop :=
  ∃ raw limits, (Calc.rawNotional wallet.sizing sourceNotional ctx).run rounded = some raw ∧
    (Calc.caps wallet ctx).run rounded = some limits ∧
    Affordable limit ctx.minOrderSize (amounts raw limits) q

theorem affordableFrom_greatest
    (h : (Calc.size wallet sourceNotional limit ctx).run rounded = some (.ok sized)) :
    IsGreatest {q | AffordableFrom wallet sourceNotional limit ctx q} sized.quantity.get := by
  obtain ⟨raw, limits, by_⟩ := size_ok h
  constructor
  · exact ⟨raw, limits, by_.starts, by_.bound, (sizedBy_greatest by_).1⟩
  · rintro q ⟨raw', limits', starts, bound, affordable⟩
    cases by_.starts.symm.trans starts
    cases by_.bound.symm.trans bound
    exact (sizedBy_greatest by_).2 affordable

/-- Some number of shares that the raw notional and the caps can buy costs the minimum. -/
def MinimumFits (wallet : TargetWallet) (sourceNotional : Usd) (limit : Price)
    (ctx : SizingContext) : Prop :=
  ∃ q cost, AffordableFrom wallet sourceNotional limit ctx q ∧
    rustDecimal.round (q * limit.get) = some cost ∧ minTrade wallet ctx ≤ cost

/-- The order reaches the minimum trade size exactly if the minimum fits. -/
theorem minimum_kept_iff
    (h : (Calc.size wallet sourceNotional limit ctx).run rounded = some (.ok sized)) :
    max wallet.minTradeUsd ctx.minTradeUsd ≤ sized.notional ↔
      MinimumFits wallet sourceNotional limit ctx := by
  obtain ⟨raw, limits, by_⟩ := size_ok h
  have cost := by_.cost
  unfold Calc.notional op at cost
  rw [Calculation.run_lift] at cost
  obtain ⟨affordable, greatest⟩ := affordableFrom_greatest h
  constructor
  · intro reaches
    exact ⟨_, _, affordable, cost, reaches⟩
  · rintro ⟨q, least, can, costs, reaches⟩
    have more := DecimalFormat.round_mono
      (mul_le_mul_of_nonneg_right (greatest can) limit.pos.le) costs cost
    exact reaches.trans more

/-- Twenty shares for 10, of which 6 are asked. -/
theorem minimum_kept_sample : MinimumFits (.new .zero "Target") 40 .half .sample := by
  have sized : (Calc.size (.new .zero "Target") 40 .half .sample).run rounded =
      some (.ok sampleOrder) := by
    decide +kernel
  exact (minimum_kept_iff sized).mp (by decide +kernel)

/-- A price of 0.3. -/
def threeTenths : Price := ⟨3 / 10, by norm_num, by norm_num⟩

/-- A quarter of 28 is within the minimum, but fourteen shares are rounded down to ten; and the
shares that 7 buy at 0.3 cost less than 7. -/
theorem minimum_missed :
    (∃ (wallet : TargetWallet) (sourceNotional : Usd) (limit : Price) (ctx : SizingContext)
      (sized : SizedOrder),
      (Calc.size wallet sourceNotional limit ctx).run rounded = some (.ok sized) ∧
      ctx.minOrderSize = 5 ∧ sized.notional < max wallet.minTradeUsd ctx.minTradeUsd) ∧
    ∃ (wallet : TargetWallet) (sourceNotional : Usd) (limit : Price) (ctx : SizingContext)
      (sized : SizedOrder),
      (Calc.size wallet sourceNotional limit ctx).run rounded = some (.ok sized) ∧
      ctx.minOrderSize = 0 ∧ sized.notional < max wallet.minTradeUsd ctx.minTradeUsd := by
  constructor
  · have sized : (Calc.size (.new .zero "Target") 28 .half .sample).run rounded =
        some (.ok ⟨.whole 10, 5, "fixed_ratio", none⟩) := by
      decide +kernel
    exact ⟨_, _, _, _, _, sized, rfl, by decide +kernel⟩
  · have sized : (Calc.size { TargetWallet.new .zero "Target" with sizing := .fixedUsd 7 } 28
        threeTenths { SizingContext.sample with minTradeUsd := 7, minOrderSize := 0 }).run rounded =
        some (.ok ⟨⟨23333333333333333333333333333 / 10 ^ 27, by norm_num⟩,
          69999999999999999999999999999 / 10 ^ 28, "fixed_usd", none⟩) := by
      decide +kernel
    exact ⟨_, _, _, _, _, sized, rfl, by decide +kernel⟩

end SizingEngine

end CopyTrading
