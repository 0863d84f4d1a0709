import CopyTrading.OrderValidator
import CopyTrading.RoundedSizing

namespace CopyTrading

open TickGrid OrderValidator

abbrev PricedFills := List (Qty × Price)

namespace PricedFills

def quantity (fills : PricedFills) : Decimal := (fills.map fun f => f.1.get).sum

def notional (fills : PricedFills) : Usd := (fills.map fun f => f.1.notional f.2).sum

theorem notional_le_mul {fills : PricedFills} {bound : Decimal}
    (below : ∀ f ∈ fills, f.2.get ≤ bound) : fills.notional ≤ fills.quantity * bound := by
  induction fills with
  | nil => simp [notional, quantity]
  | cons f fills ih =>
    have head := mul_le_mul_of_nonneg_left (below f List.mem_cons_self) f.1.nonneg
    have tail := ih fun g mem => below g (List.mem_cons_of_mem f mem)
    simp only [notional, quantity, List.map_cons, List.sum_cons, add_mul]
    exact add_le_add head tail

end PricedFills

/-- What a venue may fill of `quantity`: no more of it, and no price beyond the limit. -/
structure Admissible (side : Side) (limit : Price) (quantity : Qty) (fills : PricedFills) :
    Prop where
  within : fills.quantity ≤ quantity.get
  faces : ∀ f ∈ fills, Faces limit f.2 side
  decimals : ∀ f ∈ fills, Representable f.1.get ∧ Representable f.2.get

/-- The highest price below one. -/
def Price.top : Price := ⟨1 - 1 / 10 ^ 28, by norm_num, by norm_num⟩

theorem representable_top : Representable Price.top.get := by decide +kernel

theorem Price.le_top {p : Price} (h : Representable p.get) : p.get ≤ Price.top.get := by
  obtain ⟨m, s, _, places, same⟩ := h
  rw [rustDecimal_places] at places
  have scale : (0 : ℚ) < 10 ^ s := by positivity
  have below := p.lt_one
  rw [same, div_lt_one scale] at below
  have below' : m < 10 ^ s := by exact_mod_cast below
  have step : (m : ℚ) ≤ 10 ^ s - 1 := by
    have : m ≤ 10 ^ s - 1 := by omega
    exact_mod_cast this
  have finer : (1 : ℚ) / 10 ^ 28 ≤ 1 / 10 ^ s :=
    one_div_le_one_div_of_le scale (pow_le_pow_right₀ (by norm_num) places)
  calc p.get ≤ (10 ^ s - 1) / 10 ^ s := same ▸ div_le_div_of_nonneg_right step scale.le
    _ = 1 - 1 / 10 ^ s := by rw [sub_div, div_self scale.ne']
    _ ≤ 1 - 1 / 10 ^ 28 := by linarith

/-- The highest price that an order with this limit can be filled at. -/
def dearest (side : Side) (limit : Price) : Price :=
  match side with
  | .buy => limit
  | .sell => .top

variable {side : Side} {limit : Price} {quantity : Qty} {most : Usd}

/-- A fill of everything at the highest price costs the most. -/
theorem admissible_within_iff (shares : Representable quantity.get)
    (priced : Representable limit.get) :
    (∀ fills : PricedFills, Admissible side limit quantity fills → fills.notional ≤ most) ↔
      quantity.get * (dearest side limit).get ≤ most := by
  constructor
  · intro all
    have faces : Faces limit (dearest side limit) side := by
      cases side with
      | buy => exact le_refl limit.get
      | sell => exact Price.le_top priced
    have decimal : Representable (dearest side limit).get := by
      cases side with
      | buy => exact priced
      | sell => exact representable_top
    have whole := all [(quantity, dearest side limit)] ⟨by simp [PricedFills.quantity], by simpa,
      by simpa using ⟨shares, decimal⟩⟩
    simpa [PricedFills.notional, Qty.notional] using whole
  · intro whole fills h
    have below : ∀ f ∈ fills, f.2.get ≤ (dearest side limit).get := by
      intro f mem
      cases side with
      | buy => exact h.faces f mem
      | sell => exact Price.le_top (h.decimals f mem).2
    have cost := fills.notional_le_mul below
    exact cost.trans ((mul_le_mul_of_nonneg_right h.within (dearest side limit).pos.le).trans whole)

theorem representable_saturating {d : Decimal} (h : Representable d) :
    Representable (Price.saturating d).get := by
  have low : Representable (1 / 10000) := by decide +kernel
  have high : Representable (9999 / 10000) := by decide +kernel
  show Representable (max (1 / 10000) (min d (9999 / 10000)))
  rcases max_choice (1 / 10000) (min d (9999 / 10000)) with same | same
  · rw [same]
    exact low
  · rw [same]
    rcases min_choice d (9999 / 10000) with same' | same'
    · rwa [same']
    · rwa [same']

theorem representable_roundToTick {p q : Price} {tick : Decimal} (h : Representable p.get)
    (rounds : (Calc.roundToTick p tick side).run Calc.rounded = some q) :
    Representable q.get := by
  unfold Calc.roundToTick at rounds
  split at rounds
  next =>
    cases rounds
    exact h
  next =>
    rw [Calculation.run_bind] at rounds
    obtain ⟨steps, _, rounds⟩ := Option.bind_eq_some_iff.mp rounds
    simp only at rounds
    rw [Calculation.run_bind, Calc.op, Calculation.run_lift] at rounds
    obtain ⟨back, multiplies, rounds⟩ := Option.bind_eq_some_iff.mp rounds
    cases rounds
    exact representable_saturating (DecimalFormat.holds_of_round multiplies)

namespace SizingEngine

open Calc

variable {wallet : TargetWallet} {sourceNotional : Usd} {ctx : SizingContext}
  {sized : SizedOrder} {reference : Price} {maxSlippageBps : Nat} {tick : Decimal}

theorem representable_limitPrice
    (h : (Calc.limitPrice reference side maxSlippageBps tick).run rounded = some limit) :
    Representable limit.get := by
  unfold Calc.limitPrice at h
  rw [Calculation.run_bind] at h
  obtain ⟨budget, _, h⟩ := Option.bind_eq_some_iff.mp h
  rw [Calculation.run_bind] at h
  obtain ⟨factor, _, h⟩ := Option.bind_eq_some_iff.mp h
  rw [Calculation.run_bind, op, Calculation.run_lift] at h
  obtain ⟨adjusted, multiplies, h⟩ := Option.bind_eq_some_iff.mp h
  exact representable_roundToTick
    (representable_saturating (DecimalFormat.holds_of_round multiplies)) h

theorem representable_quantity
    (h : (Calc.size wallet sourceNotional limit ctx).run rounded = some (.ok sized)) :
    Representable sized.quantity.get := by
  obtain ⟨raw, limits, by_⟩ := size_ok h
  obtain ⟨s, divides, plain, whole⟩ := sizedBy_converted by_
  rcases le_or_gt ctx.minOrderSize 0 with none_ | pos
  · rw [plain none_]
    exact DecimalFormat.holds_of_round divides
  · obtain ⟨_, _, back⟩ := whole pos
    exact DecimalFormat.holds_of_round back

/-- Whatever number of shares the raw notional and the caps can buy, at the highest price it is
within every cap. -/
def SharesFit (side : Side) (wallet : TargetWallet) (sourceNotional : Usd) (limit : Price)
    (ctx : SizingContext) : Prop :=
  ∀ q, AffordableFrom wallet sourceNotional limit ctx q →
    ∀ limits, (Calc.caps wallet ctx).run rounded = some limits →
      ∀ c ∈ limits, q * (dearest side limit).get ≤ c.2

/-- Whatever a venue fills of an order at its limit, the notional stays within the caps, exactly
if the shares fit. -/
theorem traded_within_caps_iff
    (priced : (Calc.limitPrice reference side maxSlippageBps tick).run rounded = some limit)
    (h : (Calc.size wallet sourceNotional limit ctx).run rounded = some (.ok sized)) :
    (∀ fills, Admissible side limit sized.quantity fills →
      ∀ limits, (Calc.caps wallet ctx).run rounded = some limits →
        ∀ c ∈ limits, fills.notional ≤ c.2) ↔
      SharesFit side wallet sourceNotional limit ctx := by
  obtain ⟨affordable, greatest⟩ := affordableFrom_greatest h
  have within : ∀ most : Usd, (∀ fills : PricedFills, Admissible side limit sized.quantity fills →
      fills.notional ≤ most) ↔ sized.quantity.get * (dearest side limit).get ≤ most :=
    fun _ => admissible_within_iff (representable_quantity h) (representable_limitPrice priced)
  constructor
  · intro all q can limits bound c mem
    have whole := (within c.2).mp fun fills admissible => all fills admissible limits bound c mem
    exact (mul_le_mul_of_nonneg_right (greatest can) (dearest side limit).pos.le).trans whole
  · intro fits fills admissible limits bound c mem
    exact (within c.2).mpr (fits _ affordable limits bound c mem) fills admissible

/-- Twenty shares are worth less than every cap at any price that they sell at. -/
theorem traded_within_caps_sample :
    (Calc.size (.new .zero "Target") 40 .half .sample).run rounded = some (.ok sampleOrder) ∧
    ∀ fills, Admissible .sell .half sampleOrder.quantity fills →
      ∀ limits, (Calc.caps (.new .zero "Target") .sample).run rounded = some limits →
        ∀ c ∈ limits, fills.notional ≤ c.2 := by
  have priced : (Calc.limitPrice .half .sell 0 (1 / 100)).run rounded = some .half := by
    decide +kernel
  have sized : (Calc.size (.new .zero "Target") 40 .half .sample).run rounded =
      some (.ok sampleOrder) := by
    decide +kernel
  refine ⟨sized, (traded_within_caps_iff priced sized).mpr ?_⟩
  intro q can limits bound c mem
  have bound' : (Calc.caps (.new .zero "Target") .sample).run rounded =
      some (Calc.commonCaps (.new .zero "Target") .sample 1000) := by
    decide +kernel
  cases bound'.symm.trans bound
  have above : ∀ c ∈ Calc.commonCaps (.new .zero "Target") .sample 1000, 20 ≤ c.2 := by
    decide +kernel
  have most : q ≤ 20 := (affordableFrom_greatest sized).2 can
  have top := Price.top.lt_one
  calc q * Price.top.get ≤ 20 * Price.top.get :=
        mul_le_mul_of_nonneg_right most Price.top.pos.le
    _ ≤ 20 := by linarith
    _ ≤ c.2 := above c mem

/-- A wallet whose trades are for 500, cut to 60. -/
def sixty : TargetWallet :=
  { TargetWallet.new .zero "Target" with sizing := .fixedUsd 500, maxTradeUsd := 60 }

/-- What 60 buy at 0.28, rounded up. -/
def roundedUp : Qty := ⟨21428571428571428571428571429 / 10 ^ 26, by norm_num⟩

/-- Some order can be filled within its limit for more than one of the caps. -/
def CapPassed (side : Side) : Prop :=
  ∃ (wallet : TargetWallet) (sourceNotional : Usd) (reference limit : Price)
    (maxSlippageBps : Nat) (tick : Decimal) (ctx : SizingContext) (sized : SizedOrder)
    (fills : PricedFills) (limits : List (String × Usd)),
    (Calc.limitPrice reference side maxSlippageBps tick).run rounded = some limit ∧
    (Calc.size wallet sourceNotional limit ctx).run rounded = some (.ok sized) ∧
    Admissible side limit sized.quantity fills ∧
    (Calc.caps wallet ctx).run rounded = some limits ∧ ∃ c ∈ limits, c.2 < fills.notional

/-- A quarter of 800 is cut to 100, but its 200 shares bring 120 when they sell at 3/5; and the
shares that 60 buy at 0.28 cost more than 60 there. -/
theorem sold_above_cap : CapPassed .sell ∧ CapPassed .buy := by
  constructor
  · have sized : (Calc.size (.new .zero "Target") 800 .half .sample).run rounded =
        some (.ok ⟨.whole 200, 100, "fixed_ratio", some "wallet_max_trade"⟩) := by
      decide +kernel
    refine ⟨_, _, .half, .half, 0, 1 / 100, _, _,
      [(.whole 200, (OrderRequest.sample .gtc).limitPrice)],
      Calc.commonCaps (.new .zero "Target") .sample 1000, by decide +kernel, sized,
      ⟨by decide +kernel, ?_, ?_⟩, by decide +kernel, ("wallet_max_trade", 100),
      by decide +kernel, by decide +kernel⟩
    · intro f mem
      cases List.mem_singleton.mp mem
      show (_ : ℚ) ≤ _
      decide +kernel
    · intro f mem
      cases List.mem_singleton.mp mem
      decide +kernel
  · let price : Price := ⟨28 / 100, by norm_num, by norm_num⟩
    have sized : (Calc.size sixty 500 price
        { SizingContext.sample with minOrderSize := 0 }).run rounded =
        some (.ok ⟨roundedUp, 60000000000000000000000000001 / 10 ^ 27, "fixed_usd",
          some "wallet_max_trade"⟩) := by
      decide +kernel
    refine ⟨_, _, price, price, 0, 1 / 100, _, _, [(roundedUp, price)],
      Calc.commonCaps sixty .sample 1000, by decide +kernel, sized, ⟨by decide +kernel, ?_, ?_⟩,
      by decide +kernel, ("wallet_max_trade", 60), by decide +kernel, by decide +kernel⟩
    · intro f mem
      cases List.mem_singleton.mp mem
      exact le_refl price.get
    · intro f mem
      cases List.mem_singleton.mp mem
      decide +kernel

end SizingEngine

end CopyTrading
