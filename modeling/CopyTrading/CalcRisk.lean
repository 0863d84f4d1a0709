import CopyTrading.CalcMoney
import CopyTrading.Risk

namespace CopyTrading

namespace Calc

/-- A check, and the rest of the checks where it refuses nothing. -/
def firstOf {β : Type} (check rest : Calc (Option β)) : Calc (Option β) := do
  match ← check with
  | some r => pure (some r)
  | none => rest

variable (engine : RiskEngine) (order : OrderRequest)

def checkExposure (snap : RiskSnapshot) (notional : Usd) : Calc (Option RiskRejection) := do
  let token ← op (snap.tokenExposure + notional)
  if token > engine.limits.maxPositionUsd then
    pure (some (.maxPositionExceeded order.marketId token engine.limits.maxPositionUsd))
  else do
    let market ← op (snap.marketExposure + notional)
    if market > engine.limits.maxMarketExposureUsd then
      pure (some (.maxMarketExposureExceeded order.marketId market
        engine.limits.maxMarketExposureUsd))
    else do
      let gross ← op (snap.grossExposure + notional)
      if gross > engine.limits.maxPortfolioExposureUsd then
        pure (some (.maxPortfolioExposureExceeded gross engine.limits.maxPortfolioExposureUsd))
      else pure none

def checkSlippage (b : OrderBook) : Calc (Option RiskRejection) := do
  match ← sweepVwap b order.side order.quantity order.limitPrice with
  | some (vwap, _) => do
    let bps ← slippage order.referencePrice vwap order.side
    if bps > engine.limits.maxSlippageBps then
      pure (some (.slippageTooWide (roundToI64 bps) engine.limits.maxSlippageBps))
    else pure none
  | none => pure (some (.insufficientLiquidity 0 engine.limits.minLiquidityUsd))

def checkBook (book : Option OrderBook) (now : DateTime) : Calc (Option RiskRejection) :=
  match book with
  | some b =>
    let age := numMilliseconds (now - b.timestamp)
    if age > engine.limits.maxMarketDataAgeMs then
      pure (some (.staleMarketData age engine.limits.maxMarketDataAgeMs))
    else do
      let available ← notionalWithin b order.side order.limitPrice
      if available < engine.limits.minLiquidityUsd then
        pure (some (.insufficientLiquidity available engine.limits.minLiquidityUsd))
      else checkSlippage engine order b
  | none =>
    pure (if engine.limits.requireMarketData then
      some (.staleMarketData i64Max engine.limits.maxMarketDataAgeMs)
    else none)

/-- The checks of the order itself, behind those that read no amount of it. -/
def checkOrder (snap : RiskSnapshot) (book : Option OrderBook) (now : DateTime) :
    Calc (Option RiskRejection) := do
  let notional ← notional order.quantity order.limitPrice
  firstOf (pure (engine.checkNotional notional)) <|
    firstOf (checkExposure engine order snap notional) <|
    checkBook engine order book now

def check (snap : RiskSnapshot) (status : SystemStatus) (kill : KillSwitch)
    (book : Option OrderBook) (walletEnabled : Bool) (walletLabel : String)
    (marketTradable : Option (MarketId × Bool × String))
    (alreadyProcessed : Option SourceEventId) (now : DateTime) : Calc RiskVerdict := do
  let refusal ←
    firstOf (pure (engine.checkGates status kill walletEnabled walletLabel marketTradable
      alreadyProcessed)) <|
    firstOf (pure (engine.checkBudget snap)) <|
    checkOrder engine order snap book now
  match refusal with
  | some r => pure (.rejected r)
  | none => pure .approved

variable {engine order} {machine : Operands → Decimal → Option Decimal}

/-- On any machine: nothing is refused exactly if both checks run and refuse nothing. -/
theorem firstOf_none {β : Type} {check rest : Calc (Option β)} :
    (firstOf check rest).run machine = some none ↔
      check.run machine = some none ∧ rest.run machine = some none := by
  unfold firstOf
  rw [Calculation.run_bind]
  cases check.run machine with
  | none => simp
  | some refusal =>
    cases refusal with
    | none => simp
    | some r => simp

/-- A sum that is asked to stay within a limit. -/
def SumWithin (machine : Operands → Decimal → Option Decimal) (x limit : Decimal) : Prop :=
  ∃ sum, machine .other x = some sum ∧ sum ≤ limit

/-- One limit, and what is checked behind it. -/
theorem limited_none {x limit : Decimal} {refusal : Decimal → RiskRejection}
    {rest : Calc (Option RiskRejection)} :
    (op x >>= fun sum => if sum > limit then pure (some (refusal sum)) else rest).run machine =
      some none ↔ SumWithin machine x limit ∧ rest.run machine = some none := by
  rw [Calculation.run_bind, op, Calculation.run_lift]
  unfold SumWithin
  cases machine .other x with
  | none => simp
  | some sum =>
    rw [Option.bind_some, Calculation.run_ite]
    by_cases above : sum > limit
    · rw [if_pos above]
      refine ⟨fun h => (nomatch Option.some.inj h), ?_⟩
      rintro ⟨⟨s, same, within⟩, _⟩
      cases same
      exact absurd within (not_le.mpr above)
    · rw [if_neg above]
      exact ⟨fun h => ⟨⟨sum, rfl, not_lt.mp above⟩, h⟩, And.right⟩

/-- The exposures after a full fill, as the machine adds them up. -/
structure ExposureWithin (machine : Operands → Decimal → Option Decimal) (limits : RiskLimits)
    (snap : RiskSnapshot) (notional : Usd) : Prop where
  token : SumWithin machine (snap.tokenExposure + notional) limits.maxPositionUsd
  market : SumWithin machine (snap.marketExposure + notional) limits.maxMarketExposureUsd
  gross : SumWithin machine (snap.grossExposure + notional) limits.maxPortfolioExposureUsd

theorem checkExposure_none {snap : RiskSnapshot} {notional : Usd} :
    (checkExposure engine order snap notional).run machine = some none ↔
      ExposureWithin machine engine.limits snap notional := by
  unfold checkExposure
  rw [limited_none, limited_none, limited_none]
  constructor
  · rintro ⟨token, market, gross, _⟩
    exact ⟨token, market, gross⟩
  · rintro ⟨token, market, gross⟩
    exact ⟨token, market, gross, rfl⟩

/-- The book is fresh, deep enough, and sweeps for the order within the slippage allowed. -/
structure Fillable (machine : Operands → Decimal → Option Decimal) (limits : RiskLimits)
    (order : OrderRequest) (b : OrderBook) (now : DateTime) : Prop where
  fresh : numMilliseconds (now - b.timestamp) ≤ limits.maxMarketDataAgeMs
  deep : ∃ available, (notionalWithin b order.side order.limitPrice).run machine = some available ∧
    limits.minLiquidityUsd ≤ available
  slips : ∃ vwap got bps,
    (sweepVwap b order.side order.quantity order.limitPrice).run machine =
      some (some (vwap, got)) ∧
    (slippage order.referencePrice vwap order.side).run machine = some bps ∧
    bps ≤ limits.maxSlippageBps

theorem checkSlippage_none {b : OrderBook} :
    (checkSlippage engine order b).run machine = some none ↔ ∃ vwap got bps,
      (sweepVwap b order.side order.quantity order.limitPrice).run machine =
        some (some (vwap, got)) ∧
      (slippage order.referencePrice vwap order.side).run machine = some bps ∧
      bps ≤ engine.limits.maxSlippageBps := by
  unfold checkSlippage
  rw [Calculation.run_bind]
  constructor
  · intro h
    obtain ⟨swept, sweeps, h⟩ := Option.bind_eq_some_iff.mp h
    split at h
    next vwap got =>
      rw [Calculation.run_bind] at h
      obtain ⟨bps, slips, h⟩ := Option.bind_eq_some_iff.mp h
      split at h
      next => cases h
      next within => exact ⟨vwap, got, bps, sweeps, slips, not_lt.mp within⟩
    next => cases h
  · rintro ⟨vwap, got, bps, sweeps, slips, within⟩
    rw [sweeps, Option.bind_some]
    simp only [Calculation.run_bind, slips, Option.bind_some, if_neg (not_lt.mpr within)]
    rfl

theorem checkBook_none {book : Option OrderBook} {now : DateTime} :
    (checkBook engine order book now).run machine = some none ↔
      (∀ b, book = some b → Fillable machine engine.limits order b now) ∧
      (book = none → engine.limits.requireMarketData = false) := by
  unfold checkBook
  cases book with
  | none =>
    cases engine.limits.requireMarketData with
    | true => simp
    | false => simp
  | some b =>
    simp only
    have one : ((∀ c, some b = some c → Fillable machine engine.limits order c now) ∧
        (some b = none → engine.limits.requireMarketData = false)) ↔
        Fillable machine engine.limits order b now := by
      constructor
      · intro h
        exact h.1 b rfl
      · intro h
        refine ⟨?_, fun none_ => by cases none_⟩
        intro c same
        cases same
        exact h
    rw [one]
    constructor
    · intro h
      split at h
      next => cases h
      next fresh =>
        rw [Calculation.run_bind] at h
        obtain ⟨available, offers, h⟩ := Option.bind_eq_some_iff.mp h
        split at h
        next => cases h
        next deep =>
          exact ⟨not_lt.mp fresh, ⟨available, offers, not_lt.mp deep⟩, checkSlippage_none.mp h⟩
    · intro h
      obtain ⟨available, offers, deep⟩ := h.deep
      rw [if_neg (not_lt.mpr h.fresh), Calculation.run_bind, offers, Option.bind_some,
        if_neg (not_lt.mpr deep)]
      exact checkSlippage_none.mpr h.slips

variable {snap : RiskSnapshot} {status : SystemStatus} {kill : KillSwitch}
  {book : Option OrderBook} {walletEnabled : Bool} {walletLabel : String}
  {marketTradable : Option (MarketId × Bool × String)} {alreadyProcessed : Option SourceEventId}
  {now : DateTime}

/-- What the machine's verdict asks of the amounts of an order. -/
structure AmountsPass (machine : Operands → Decimal → Option Decimal) (engine : RiskEngine)
    (order : OrderRequest) (snap : RiskSnapshot) (book : Option OrderBook) (now : DateTime)
    (notional : Usd) : Prop where
  cost : machine .other (order.quantity.get * order.limitPrice.get) = some notional
  size : engine.checkNotional notional = none
  exposure : ExposureWithin machine engine.limits snap notional
  book : (checkBook engine order book now).run machine = some none

/-- An order is approved when the machine runs every stage of the checks and none refuses it. -/
theorem check_approved : (check engine order snap status kill book walletEnabled walletLabel
      marketTradable alreadyProcessed now).run machine = some .approved ↔
    engine.checkGates status kill walletEnabled walletLabel marketTradable alreadyProcessed = none ∧
      engine.checkBudget snap = none ∧
      ∃ notional, AmountsPass machine engine order snap book now notional := by
  have answer : ∀ checked : Option (Option RiskRejection),
      (checked.bind fun refusal => Calculation.run machine (match refusal with
        | some r => (pure (.rejected r) : Calc RiskVerdict)
        | none => pure .approved)) = some .approved ↔ checked = some none := by
    intro checked
    cases checked with
    | none => simp
    | some refusal =>
      cases refusal with
      | none => simp
      | some r => simp
  unfold check
  rw [Calculation.run_bind, answer, firstOf_none, firstOf_none]
  simp only [Calculation.run_pure, Option.some.injEq]
  refine and_congr_right fun _ => and_congr_right fun _ => ?_
  unfold checkOrder notional
  rw [Calculation.run_bind, op, Calculation.run_lift]
  constructor
  · intro h
    obtain ⟨n, cost, h⟩ := Option.bind_eq_some_iff.mp h
    obtain ⟨size, h⟩ := firstOf_none.mp h
    obtain ⟨exposure, book⟩ := firstOf_none.mp h
    exact ⟨n, cost, Option.some.inj size, checkExposure_none.mp exposure, book⟩
  · rintro ⟨n, cost, size, exposure, book⟩
    rw [cost, Option.bind_some]
    refine firstOf_none.mpr ⟨?_, firstOf_none.mpr ⟨checkExposure_none.mpr exposure, book⟩⟩
    rw [size]
    rfl

end Calc

end CopyTrading
