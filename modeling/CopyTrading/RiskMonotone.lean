import CopyTrading.CalcRisk
import CopyTrading.RoundedSweep

namespace CopyTrading

open Calc

/-- Every bound of `limits` as wide in `limits'` or wider. -/
structure RiskLimits.Loosened (limits limits' : RiskLimits) : Prop where
  maxTrade : limits.maxTradeUsd ≤ limits'.maxTradeUsd
  minTrade : limits'.minTradeUsd ≤ limits.minTradeUsd
  maxPosition : limits.maxPositionUsd ≤ limits'.maxPositionUsd
  maxMarketExposure : limits.maxMarketExposureUsd ≤ limits'.maxMarketExposureUsd
  maxPortfolioExposure : limits.maxPortfolioExposureUsd ≤ limits'.maxPortfolioExposureUsd
  maxDailyLoss : limits.maxDailyLossUsd ≤ limits'.maxDailyLossUsd
  maxOpenOrders : limits.maxOpenOrders ≤ limits'.maxOpenOrders
  maxSlippage : limits.maxSlippageBps ≤ limits'.maxSlippageBps
  minLiquidity : limits'.minLiquidityUsd ≤ limits.minLiquidityUsd
  maxMarketDataAge : limits.maxMarketDataAgeMs ≤ limits'.maxMarketDataAgeMs
  maxLiveOrder : limits.maxLiveOrderUsd ≤ limits'.maxLiveOrderUsd
  requireMarketData : limits'.requireMarketData = true → limits.requireMarketData = true

namespace RiskEngine

variable {engine : RiskEngine} {snap : RiskSnapshot}

theorem checkBudget_none_iff : engine.checkBudget snap = none ↔
    -engine.limits.maxDailyLossUsd ≤ snap.dailyPnl ∧
      snap.openOrders < engine.limits.maxOpenOrders := by
  unfold checkBudget
  split
  next above => exact ⟨fun h => (nomatch h), fun h => absurd h.1 (not_le.mpr above)⟩
  next loss =>
    split
    next full => exact ⟨fun h => (nomatch h), fun h => absurd h.2 (not_lt.mpr full)⟩
    next slots => exact ⟨fun _ => ⟨not_lt.mp loss, not_le.mp slots⟩, fun _ => rfl⟩

theorem checkNotional_none_iff {notional : Usd} : engine.checkNotional notional = none ↔
    engine.limits.minTradeUsd ≤ notional ∧ notional ≤ engine.limits.maxTradeUsd ∧
      (engine.mode.isLive = true → notional ≤ engine.limits.maxLiveOrderUsd) := by
  unfold checkNotional
  split
  next below => exact ⟨fun h => (nomatch h), fun h => absurd h.1 (not_le.mpr below)⟩
  next least =>
    split
    next above => exact ⟨fun h => (nomatch h), fun h => absurd h.2.1 (not_le.mpr above)⟩
    next most =>
      split
      next above =>
        exact ⟨fun h => (nomatch h), fun h => absurd (h.2.2 above.1) (not_le.mpr above.2)⟩
      next live =>
        refine ⟨fun _ => ⟨not_lt.mp least, not_lt.mp most, ?_⟩, fun _ => rfl⟩
        intro isLive
        by_contra above
        exact live ⟨isLive, not_le.mp above⟩

end RiskEngine

/-- The estimate of the slippage gets no larger with a price that is no worse. -/
theorem slippage_mono {reference p q : Price} {side : Side}
    (le : side.sign * p.get ≤ side.sign * q.get) {a b : Decimal}
    (ha : (slippage reference p side).run rounded = some a)
    (hb : (slippage reference q side).run rounded = some b) : a ≤ b := by
  have some_ := reference.pos
  unfold slippage at ha hb
  rw [if_neg some_.ne'] at ha hb
  simp only [Calculation.run_bind, op, Calculation.run_lift] at ha hb
  obtain ⟨diff, hd, ha⟩ := Option.bind_eq_some_iff.mp ha
  obtain ⟨ratio, hr, ha⟩ := Option.bind_eq_some_iff.mp ha
  obtain ⟨diff', hd', hb⟩ := Option.bind_eq_some_iff.mp hb
  obtain ⟨ratio', hr', hb⟩ := Option.bind_eq_some_iff.mp hb
  have diffs : diff ≤ diff' := by
    refine DecimalFormat.round_mono ?_ hd hd'
    cases side with
    | buy =>
      rw [Side.sign, one_mul, one_mul] at le
      exact sub_le_sub_right le _
    | sell =>
      rw [Side.sign] at le
      simp only
      linarith
  have ratios := DecimalFormat.round_mono (div_le_div_of_nonneg_right diffs some_.le) hr hr'
  exact DecimalFormat.round_mono (mul_le_mul_of_nonneg_right ratios (by norm_num)) ha hb

namespace Calc

variable {engine : RiskEngine} {order : OrderRequest} {snap : RiskSnapshot}

section Passes

variable {machine : Operands → Decimal → Option Decimal}

/-- Refuses nothing, if it returns. -/
def Passes (machine : Operands → Decimal → Option Decimal) (p : Calc (Option RiskRejection)) :
    Prop := ∀ r, p.run machine = some r → r = none

theorem firstOf_passes {check rest : Calc (Option RiskRejection)} (first : Passes machine check)
    (later : Passes machine rest) : Passes machine (firstOf check rest) := by
  intro r h
  unfold firstOf at h
  rw [Calculation.run_bind] at h
  obtain ⟨refusal, ran, h⟩ := Option.bind_eq_some_iff.mp h
  cases first refusal ran
  exact later r h

theorem limited_passes {x limit : Decimal} {refusal : Decimal → RiskRejection}
    {rest : Calc (Option RiskRejection)} (within : ∀ sum, machine .other x = some sum → sum ≤ limit)
    (later : Passes machine rest) : Passes machine
      (op x >>= fun sum => if sum > limit then pure (some (refusal sum)) else rest) := by
  intro r h
  rw [Calculation.run_bind, op, Calculation.run_lift] at h
  obtain ⟨sum, adds, h⟩ := Option.bind_eq_some_iff.mp h
  rw [if_neg (not_lt.mpr (within sum adds))] at h
  exact later r h

end Passes

theorem checkExposure_smaller {notional less : Usd} (le : less ≤ notional)
    (h : ExposureWithin rounded engine.limits snap notional) (order : OrderRequest) :
    Passes rounded (checkExposure engine order snap less) := by
  have smaller : ∀ exposure limit : Usd, SumWithin rounded (exposure + notional) limit →
      ∀ sum, rounded .other (exposure + less) = some sum → sum ≤ limit := by
    intro exposure limit within sum adds
    obtain ⟨whole, adds', within⟩ := within
    exact (DecimalFormat.round_mono (add_le_add_right le exposure) adds adds').trans within
  refine limited_passes (smaller _ _ h.token) ?_
  refine limited_passes (smaller _ _ h.market) ?_
  refine limited_passes (smaller _ _ h.gross) ?_
  rintro r ⟨⟩
  rfl

/-- A smaller order sweeps at a price that is no worse, where neither walk has to round. -/
theorem checkSlippage_smaller {b : OrderBook} (best : b.BestFirst) (decimals : b.Decimals)
    (held : Representable order.limitPrice.get) {less : Qty} (some_ : 0 < less.get)
    (le : less.get ≤ order.quantity.get)
    (walks : (walk b order.side order.quantity order.limitPrice).Unrounded)
    (walks' : (walk b order.side less order.limitPrice).Unrounded)
    (h : (checkSlippage engine order b).run rounded = some none) :
    Passes rounded (checkSlippage engine { order with quantity := less } b) := by
  obtain ⟨vwap, got, bps, sweeps, slips, within⟩ := checkSlippage_none.mp h
  obtain ⟨p, swept, rounds⟩ := sweepVwap_run_some walks sweeps
  obtain ⟨p', got', swept', better⟩ := OrderBook.sweepVwap_smaller best some_ le swept
  obtain ⟨vwap', sweeps', rounds', _⟩ :=
    OrderBook.sweepVwap_run_of_swept best decimals held walks' swept'
  intro r ran
  unfold checkSlippage at ran
  rw [Calculation.run_bind, sweeps', Option.bind_some, Calculation.run_bind] at ran
  obtain ⟨bps', slips', ran⟩ := Option.bind_eq_some_iff.mp ran
  have smaller := (slippage_mono (sign_round_mono better rounds' rounds) slips' slips).trans within
  rw [if_neg (not_lt.mpr smaller)] at ran
  cases ran
  rfl

variable {status : SystemStatus} {kill : KillSwitch} {book : Option OrderBook}
  {walletEnabled : Bool} {walletLabel : String} {marketTradable : Option (MarketId × Bool × String)}
  {alreadyProcessed : Option SourceEventId} {now : DateTime}

theorem checkBook_smaller (best : ∀ b, book = some b → b.BestFirst)
    (decimals : ∀ b, book = some b → b.Decimals) (held : Representable order.limitPrice.get)
    {less : Qty} (some_ : 0 < less.get) (le : less.get ≤ order.quantity.get)
    (walks : ∀ b, book = some b → (walk b order.side order.quantity order.limitPrice).Unrounded ∧
      (walk b order.side less order.limitPrice).Unrounded)
    (h : (checkBook engine order book now).run rounded = some none) :
    Passes rounded (checkBook engine { order with quantity := less } book now) := by
  obtain ⟨fillable, absent⟩ := checkBook_none.mp h
  cases book with
  | none =>
    unfold checkBook
    simp only
    rw [absent rfl]
    rintro r ⟨⟩
    rfl
  | some b =>
    obtain ⟨fresh, ⟨available, offers, deep⟩, slips⟩ := fillable b rfl
    obtain ⟨whole, part⟩ := walks b rfl
    have later := checkSlippage_smaller (best b rfl) (decimals b rfl) held some_ le whole part
      (checkSlippage_none.mpr slips)
    intro r ran
    unfold checkBook at ran
    simp only at ran
    rw [if_neg (not_lt.mpr fresh), Calculation.run_bind, offers, Option.bind_some,
      if_neg (not_lt.mpr deep)] at ran
    exact later r ran

theorem check_smaller (best : ∀ b, book = some b → b.BestFirst)
    (decimals : ∀ b, book = some b → b.Decimals) (held : Representable order.limitPrice.get)
    (h : (check engine order snap status kill book walletEnabled walletLabel marketTradable
      alreadyProcessed now).run rounded = some .approved) {less : Qty} (some_ : 0 < less.get)
    (le : less.get ≤ order.quantity.get)
    (walks : ∀ b, book = some b → (walk b order.side order.quantity order.limitPrice).Unrounded ∧
      (walk b order.side less order.limitPrice).Unrounded)
    {cost : Usd} (costs : (notional less order.limitPrice).run rounded = some cost)
    (enough : engine.limits.minTradeUsd ≤ cost) {verdict : RiskVerdict}
    (ran : (check engine { order with quantity := less } snap status kill book walletEnabled
      walletLabel marketTradable alreadyProcessed now).run rounded = some verdict) :
    verdict = .approved := by
  obtain ⟨gates, budget, whole, pass⟩ := check_approved.mp h
  have cheaper : cost ≤ whole := by
    rw [notional, op, Calculation.run_lift] at costs
    exact DecimalFormat.round_mono
      (mul_le_mul_of_nonneg_right le order.limitPrice.pos.le) costs pass.cost
  have size : engine.checkNotional cost = none := by
    obtain ⟨_, most, live⟩ := RiskEngine.checkNotional_none_iff.mp pass.size
    exact RiskEngine.checkNotional_none_iff.mpr
      ⟨enough, cheaper.trans most, fun isLive => cheaper.trans (live isLive)⟩
  have amounts : Passes rounded
      (checkOrder engine { order with quantity := less } snap book now) := by
    intro r h
    unfold checkOrder at h
    rw [Calculation.run_bind, costs, Option.bind_some] at h
    refine firstOf_passes ?_ (firstOf_passes ?_ ?_) r h
    · rintro r ⟨⟩
      exact size
    · exact checkExposure_smaller cheaper pass.exposure { order with quantity := less }
    · exact checkBook_smaller best decimals held some_ le walks pass.book
  have checks : Passes rounded (firstOf (pure (engine.checkGates status kill walletEnabled
      walletLabel marketTradable alreadyProcessed)) (firstOf (pure (engine.checkBudget snap))
      (checkOrder engine { order with quantity := less } snap book now))) := by
    refine firstOf_passes ?_ (firstOf_passes ?_ amounts)
    · rintro r ⟨⟩
      exact gates
    · rintro r ⟨⟩
      exact budget
  unfold check at ran
  rw [Calculation.run_bind] at ran
  obtain ⟨refusal, refuses, ran⟩ := Option.bind_eq_some_iff.mp ran
  cases checks refusal refuses
  exact (Option.some.inj ran).symm

theorem Fillable.loosened {limits limits' : RiskLimits} {b : OrderBook}
    (h : Fillable rounded limits order b now) (loose : limits.Loosened limits') :
    Fillable rounded limits' order b now := by
  obtain ⟨available, offers, deep⟩ := h.deep
  obtain ⟨vwap, got, bps, sweeps, slips, within⟩ := h.slips
  refine ⟨h.fresh.trans loose.maxMarketDataAge, ⟨available, offers, loose.minLiquidity.trans deep⟩,
    vwap, got, bps, sweeps, slips, within.trans ?_⟩
  exact_mod_cast loose.maxSlippage

theorem check_loosened {limits' : RiskLimits} (loose : engine.limits.Loosened limits')
    (h : (check engine order snap status kill book walletEnabled walletLabel marketTradable
      alreadyProcessed now).run rounded = some .approved) :
    (check { engine with limits := limits' } order snap status kill book walletEnabled walletLabel
      marketTradable alreadyProcessed now).run rounded = some .approved := by
  have wider : ∀ {x limit limit' : Decimal}, limit ≤ limit' → SumWithin rounded x limit →
      SumWithin rounded x limit' := by
    rintro x limit limit' le ⟨sum, adds, within⟩
    exact ⟨sum, adds, within.trans le⟩
  obtain ⟨gates, budget, cost, pass⟩ := check_approved.mp h
  refine check_approved.mpr ⟨gates, ?_, cost, pass.cost, ?_, ?_, ?_⟩
  · obtain ⟨loss, slots⟩ := RiskEngine.checkBudget_none_iff.mp budget
    refine RiskEngine.checkBudget_none_iff.mpr ⟨?_, slots.trans_le loose.maxOpenOrders⟩
    exact (neg_le_neg loose.maxDailyLoss).trans loss
  · obtain ⟨least, most, live⟩ := RiskEngine.checkNotional_none_iff.mp pass.size
    exact RiskEngine.checkNotional_none_iff.mpr ⟨loose.minTrade.trans least,
      most.trans loose.maxTrade, fun isLive => (live isLive).trans loose.maxLiveOrder⟩
  · exact ⟨wider loose.maxPosition pass.exposure.token,
      wider loose.maxMarketExposure pass.exposure.market,
      wider loose.maxPortfolioExposure pass.exposure.gross⟩
  · obtain ⟨fillable, absent⟩ := checkBook_none.mp pass.book
    refine checkBook_none.mpr ⟨fun b here => (fillable b here).loosened loose, ?_⟩
    intro none_
    cases required : limits'.requireMarketData with
    | false => rfl
    | true => exact absurd (loose.requireMarketData required) (by simp [absent none_])

/-- Whatever is approved stays approved when the limits are loosened, and when it is made smaller
and neither sweep has a sum or a product to round. -/
theorem check_monotone (best : ∀ b, book = some b → b.BestFirst)
    (decimals : ∀ b, book = some b → b.Decimals) (held : Representable order.limitPrice.get)
    (h : (check engine order snap status kill book walletEnabled walletLabel marketTradable
      alreadyProcessed now).run rounded = some .approved) :
    (∀ less : Qty, 0 < less.get → less.get ≤ order.quantity.get →
      (∀ b, book = some b → (walk b order.side order.quantity order.limitPrice).Unrounded ∧
        (walk b order.side less order.limitPrice).Unrounded) →
      ∀ cost, (notional less order.limitPrice).run rounded = some cost →
        engine.limits.minTradeUsd ≤ cost →
      ∀ verdict, (check engine { order with quantity := less } snap status kill book walletEnabled
          walletLabel marketTradable alreadyProcessed now).run rounded = some verdict →
        verdict = .approved) ∧
    ∀ limits', engine.limits.Loosened limits' →
      (check { engine with limits := limits' } order snap status kill book walletEnabled
        walletLabel marketTradable alreadyProcessed now).run rounded = some .approved := by
  constructor
  · intro less some_ le walks cost costs enough verdict ran
    exact check_smaller best decimals held h some_ le walks costs enough ran
  · intro limits' loose
    exact check_loosened loose h

/-- An engine that allows no slippage. -/
def strictEngine : RiskEngine :=
  ⟨{ RiskLimits.default with minLiquidityUsd := 20, maxSlippageBps := 0 }, .paper, false⟩

/-- A buy of the given quantity at 0.95, which is also its reference. -/
def deepOrder (qty : Qty) : OrderRequest :=
  { OrderRequest.sample .gtc with
    quantity := qty, limitPrice := .nineteenTwentieths, referencePrice := .nineteenTwentieths }

/-- Of 200 shares on offer at 0.95, a hundred are approved, and so are fifty. -/
theorem check_monotone_deep : (check strictEngine (deepOrder (.whole 50)) ⟨0, 0, 0, 0, 0, 0, 10000⟩
    ⟨true, true, true, true⟩ .new (some .deep) true "Target" none none 0).run rounded =
    some .approved := by
  have whole : (check strictEngine (deepOrder (.whole 100)) ⟨0, 0, 0, 0, 0, 0, 10000⟩
      ⟨true, true, true, true⟩ .new (some .deep) true "Target" none none 0).run rounded =
      some .approved := by
    decide +kernel
  have returns : ((check strictEngine (deepOrder (.whole 50)) ⟨0, 0, 0, 0, 0, 0, 10000⟩
      ⟨true, true, true, true⟩ .new (some .deep) true "Target" none none 0).run
        rounded).isSome := by
    decide +kernel
  obtain ⟨verdict, ran⟩ := Option.isSome_iff_exists.mp returns
  have best : ∀ b, some OrderBook.deep = some b → b.BestFirst := by
    rintro b ⟨⟩
    exact OrderBook.deep_bestFirst
  have decimals : ∀ b, some OrderBook.deep = some b → b.Decimals := by
    rintro b ⟨⟩
    exact OrderBook.deep_decimals
  have walks : ∀ b, some OrderBook.deep = some b →
      (walk b .buy (.whole 100) .nineteenTwentieths).Unrounded ∧
      (walk b .buy (.whole 50) .nineteenTwentieths).Unrounded := by
    rintro b ⟨⟩
    decide +kernel
  have fifty := (check_monotone best decimals (by decide +kernel) whole).1 (.whole 50)
    (by decide +kernel) (by decide +kernel) walks (475 / 10) (by decide +kernel)
    (by decide +kernel) verdict ran
  rw [ran, fifty]

/-- A hundred shares are approved and 85.26... are not: their price is rounded up. -/
theorem check_not_monotone :
    (check strictEngine (deepOrder (.whole 100)) ⟨0, 0, 0, 0, 0, 0, 10000⟩
      ⟨true, true, true, true⟩ .new (some .deep) true "Target" none none 0).run rounded =
      some .approved ∧
    Qty.long.get < (Qty.whole 100).get ∧
    (notional .long .nineteenTwentieths).run rounded = some 81 ∧
    strictEngine.limits.minTradeUsd ≤ 81 ∧
    (check strictEngine (deepOrder .long) ⟨0, 0, 0, 0, 0, 0, 10000⟩
      ⟨true, true, true, true⟩ .new (some .deep) true "Target" none none 0).run rounded =
      some (.rejected (.slippageTooWide 0 0)) := by
  decide +kernel

end Calc

end CopyTrading
