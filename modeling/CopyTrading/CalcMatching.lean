import CopyTrading.CalcMoney
import CopyTrading.Matching

namespace CopyTrading

namespace Calc

def applySlippage (p : Price) (side : Side) (bps : Nat) : Calc Price :=
  if bps = 0 then pure p
  else do
    let f ← op (bps / 10000)
    let factor ← op (match side with
      | .buy => 1 + f
      | .sell => 1 - f)
    let slipped ← op (p.get * factor)
    pure (.saturating slipped)

/-- The fee of a fill: `quantity * price * bps / 10000`, operator by operator. -/
def fillFee (qty : Qty) (price : Price) (bps : Nat) : Calc Usd := do
  let cost ← notional qty price
  let charged ← op (cost * bps)
  op (charged / 10000)

variable {G : Type} (rng : Rng G)

def queueRisk (params : MatchParams) (available : Qty) (g : G) : Calc (Option Qty × G) :=
  if params.fillProbability < 1 then
    let (draw, g) := rng.unit g
    if draw > params.fillProbability then
      if !params.partialFillEnabled then pure (none, g)
      else
        let (frac, g) := rng.fraction g
        do
          let part ← op (available.get * frac)
          let qty := Qty.atLeastZero part
          pure (if qty.isZero then none else some qty, g)
    else pure (some available, g)
  else pure (some available, g)

def matchOrder (order : OrderRequest) (book : OrderBook) (params : MatchParams) (g : G) :
    Calc (SimOutcome × G) :=
  let (draw, g) := rng.unit g
  if draw < params.rejectProbability then pure (.rejected "simulated venue rejection", g)
  else if !isMarketable order book then
    match order.timeInForce with
    -- these cannot rest
    | .ioc | .fok => pure (.noLiquidity, g)
    | .gtc => pure (.resting, g)
  else do
    match ← sweepVwap book order.side order.quantity order.limitPrice with
    | none => pure (.noLiquidity, g)
    | some (vwap, available) =>
      let slipped ← applySlippage vwap order.side params.slippageBps
      let fillPrice := capAtLimit slipped order.limitPrice order.side
      if available.get < order.quantity.get ∧
          (order.timeInForce = .fok ∨ !params.partialFillEnabled) then pure (.noLiquidity, g)
      else
        match ← queueRisk rng params available g with
        | (none, g) => pure (.noLiquidity, g)
        | (some qty, g) =>
          let fee ← fillFee qty fillPrice params.feeBps
          pure (.filled qty fillPrice fee false, g)

variable {rng} {machine : Operands → Decimal → Option Decimal}

/-- What a fill says of the draws, the book and the operators. -/
structure FilledBy (machine : Operands → Decimal → Option Decimal) (rng : Rng G)
    (order : OrderRequest) (book : OrderBook) (params : MatchParams) (g : G) (vwap : Price)
    (available qty : Qty) (price : Price) (fee : Usd) (g' : G) : Prop where
  accepted : ¬(rng.unit g).1 < params.rejectProbability
  crosses : isMarketable order book = true
  swept : (sweepVwap book order.side order.quantity order.limitPrice).run machine =
    some (some (vwap, available))
  slipped : ∃ slipped, (applySlippage vwap order.side params.slippageBps).run machine =
    some slipped ∧ price = capAtLimit slipped order.limitPrice order.side
  passes : ¬(available.get < order.quantity.get ∧
    (order.timeInForce = .fok ∨ params.partialFillEnabled = false))
  drawn : (queueRisk rng params available (rng.unit g).2).run machine = some (some qty, g')
  charged : (fillFee qty price params.feeBps).run machine = some fee

theorem matchOrder_filled {order : OrderRequest} {book : OrderBook} {params : MatchParams}
    {g g' : G} {qty : Qty} {price : Price} {fee : Usd} {isMaker : Bool}
    (h : (matchOrder rng order book params g).run machine =
      some (.filled qty price fee isMaker, g')) :
    ∃ vwap available,
      FilledBy machine rng order book params g vwap available qty price fee g' := by
  unfold matchOrder at h
  simp only at h
  split at h
  next => cases h
  next accepted =>
    split at h
    next => split at h <;> cases h
    next crosses =>
      rw [Calculation.run_bind] at h
      obtain ⟨swept, sweeps, h⟩ := Option.bind_eq_some_iff.mp h
      split at h
      next => cases h
      next vwap available =>
        rw [Calculation.run_bind] at h
        obtain ⟨slipped, slips, h⟩ := Option.bind_eq_some_iff.mp h
        split at h
        next => cases h
        next passes =>
          rw [Calculation.run_bind] at h
          obtain ⟨drawn, draws, h⟩ := Option.bind_eq_some_iff.mp h
          split at h
          next => cases h
          next q g'' =>
            rw [Calculation.run_bind] at h
            obtain ⟨fee', charges, h⟩ := Option.bind_eq_some_iff.mp h
            cases h
            exact ⟨vwap, available, accepted, by simpa using crosses, sweeps,
              ⟨slipped, slips, rfl⟩, by simpa using passes, draws, charges⟩

section Held

variable {b : OrderBook} {side : Side} {qty : Qty} {limit : Price}

/-- What a sweep has taken is a decimal, and only grows. -/
theorem sweep_held {remaining paid taken : Decimal} (held : Representable taken) {ls : List Level}
    {swept : Decimal × Decimal}
    (h : (sweep side limit remaining paid taken ls).run rounded = some swept) :
    Representable swept.2 ∧ taken ≤ swept.2 := by
  induction ls generalizing remaining paid taken with
  | nil =>
    cases h
    exact ⟨held, le_rfl⟩
  | cons l ls ih =>
    unfold sweep at h
    split at h
    next =>
      cases h
      exact ⟨held, le_rfl⟩
    next goes =>
      obtain ⟨_, left⟩ := not_or.mp goes
      simp only [Calculation.run_bind, op, sizes, Calculation.run_lift] at h
      obtain ⟨cost, _, h⟩ := Option.bind_eq_some_iff.mp h
      obtain ⟨paid', _, h⟩ := Option.bind_eq_some_iff.mp h
      obtain ⟨taken', takes, h⟩ := Option.bind_eq_some_iff.mp h
      obtain ⟨rest, _, h⟩ := Option.bind_eq_some_iff.mp h
      have take : 0 ≤ min remaining l.size.get := le_min (not_le.mp left).le l.size.nonneg
      have more := DecimalFormat.le_round_of_le held (by linarith : taken ≤ taken + _) takes
      obtain ⟨held', le⟩ := ih (DecimalFormat.holds_of_round takes) h
      exact ⟨held', more.trans le⟩

/-- A sweep takes something, and its price and its quantity are decimals. -/
theorem sweepVwap_held {p : Price} {got : Qty}
    (h : (sweepVwap b side qty limit).run rounded = some (some (p, got))) :
    0 < got.get ∧ Representable p.get ∧ Representable got.get := by
  unfold sweepVwap at h
  rw [Calculation.run_bind] at h
  obtain ⟨swept, walks, h⟩ := Option.bind_eq_some_iff.mp h
  obtain ⟨held, low⟩ := sweep_held (DecimalFormat.holds_zero _) walks
  split at h
  next => cases h
  next some_ =>
    rw [Calculation.run_bind] at h
    obtain ⟨vwap, divides, h⟩ := Option.bind_eq_some_iff.mp h
    obtain ⟨p', price, same⟩ := Option.map_eq_some_iff.mp (Option.some.inj h)
    rw [op, Calculation.run_lift] at divides
    have taken : (Qty.new swept.2).toOption.getD .zero = ⟨swept.2, low⟩ := by
      unfold Qty.new
      rw [dif_pos low]
      rfl
    rw [taken] at same
    cases same
    refine ⟨lt_of_le_of_ne low (Ne.symm some_), ?_, held⟩
    rw [Price.ofDecimal?_eq_some price]
    exact DecimalFormat.holds_of_round divides

/-- Queue risk leaves something of what is available, and all of it if partial fills are
disabled. -/
theorem queueRisk_held {params : MatchParams} {available part : Qty} {g g' : G}
    (some_ : 0 < available.get) (held : Representable available.get)
    (h : (queueRisk rng params available g).run rounded = some (some part, g')) :
    0 < part.get ∧ part.get ≤ available.get ∧
      (params.partialFillEnabled = false → part = available) := by
  unfold queueRisk at h
  split at h
  next =>
    simp only at h
    split at h
    next =>
      split at h
      next => cases h
      next enabled =>
        rw [Calculation.run_bind, op, Calculation.run_lift] at h
        obtain ⟨x, rounds, h⟩ := Option.bind_eq_some_iff.mp h
        obtain ⟨low, high⟩ := (rng.fraction (rng.unit g).2).1.2
        have less := DecimalFormat.le_of_round_le held
          (mul_le_of_le_one_right some_.le (by linarith : _ ≤ (1 : Decimal))) rounds
        have drawn := congrArg Prod.fst (Option.some.inj h)
        simp only at drawn
        split at drawn
        next => cases drawn
        next positive =>
          cases drawn
          refine ⟨Qty.isZero_false_iff.mp (Bool.eq_false_of_not_eq_true positive),
            max_le less some_.le, ?_⟩
          intro disabled
          rw [disabled] at enabled
          exact absurd rfl enabled
    next =>
      cases h
      exact ⟨some_, le_rfl, fun _ => rfl⟩
  next =>
    cases h
    exact ⟨some_, le_rfl, fun _ => rfl⟩

end Held

section Guarded

variable {kinds : Operands → Prop} [DecidablePred kinds] {b : OrderBook} {side : Side} {qty : Qty}
  {limit : Price}

/-- With exact sums of sizes a sweep takes what the plain one takes. -/
theorem sweep_guarded (exact_ : kinds .sizes) {remaining paid taken : Decimal} {ls : List Level}
    {swept : Decimal × Decimal}
    (h : (sweep side limit remaining paid taken ls).run (guarded kinds) = some swept) :
    swept.2 = taken + (sweepLevels side limit remaining ls).2 := by
  induction ls generalizing remaining paid taken with
  | nil =>
    cases h
    exact (add_zero taken).symm
  | cons l ls ih =>
    unfold sweep at h
    unfold sweepLevels
    split at h
    next stops =>
      cases h
      rw [if_pos stops]
      exact (add_zero taken).symm
    next goes =>
      rw [if_neg goes]
      simp only [Calculation.run_bind] at h
      obtain ⟨cost, _, h⟩ := Option.bind_eq_some_iff.mp h
      obtain ⟨paid', _, h⟩ := Option.bind_eq_some_iff.mp h
      obtain ⟨taken', takes, h⟩ := Option.bind_eq_some_iff.mp h
      obtain ⟨rest, leaves, h⟩ := Option.bind_eq_some_iff.mp h
      rw [ih h, sizes_guarded exact_ takes, sizes_guarded exact_ leaves, add_assoc]

theorem sweepVwap_guarded (exact_ : kinds .sizes) {p : Price} {got : Qty}
    (h : (sweepVwap b side qty limit).run (guarded kinds) = some (some (p, got))) :
    got.get = min qty.get (b.liquidityWithin side limit).get := by
  have bounds := sweepLevels_taken side limit qty.get (b.takingSide side) qty.nonneg
  unfold sweepVwap at h
  rw [Calculation.run_bind] at h
  obtain ⟨swept, walks, h⟩ := Option.bind_eq_some_iff.mp h
  have taken := sweep_guarded exact_ walks
  rw [zero_add] at taken
  split at h
  next => cases h
  next =>
    rw [Calculation.run_bind] at h
    obtain ⟨vwap, _, h⟩ := Option.bind_eq_some_iff.mp h
    obtain ⟨p', _, same⟩ := Option.map_eq_some_iff.mp (Option.some.inj h)
    rw [taken, Qty.new, dif_pos bounds.1] at same
    cases same
    rw [OrderBook.liquidityWithin_get]
    exact sweepLevels_taken_eq side limit qty.get _ qty.nonneg

/-- Queue risk takes a share only by its draw. -/
theorem queueRisk_part {machine : Operands → Decimal → Option Decimal} {params : MatchParams}
    {available part : Qty} {g g' : G}
    (h : (queueRisk rng params available g).run machine = some (some part, g')) :
    part = available ∨ params.partialFillEnabled = true ∧ params.fillProbability < 1 ∧
      params.fillProbability < (rng.unit g).1 := by
  unfold queueRisk at h
  split at h
  next risky =>
    simp only at h
    split at h
    next hit =>
      split at h
      next => cases h
      next enabled => exact .inr ⟨by simpa using enabled, risky, hit⟩
    next =>
      cases h
      exact .inl rfl
  next =>
    cases h
    exact .inl rfl

variable {order : OrderRequest} {book : OrderBook} {params : MatchParams} {g g' : G}
  {vwap price : Price} {available : Qty} {fee : Usd}

theorem FilledBy.bounds (exact_ : kinds .sizes)
    (h : FilledBy (guarded kinds) rng order book params g vwap available qty price fee g') :
    0 < qty.get ∧ qty.get ≤ order.quantity.get := by
  obtain ⟨some_, _, held⟩ := sweepVwap_held (guarded_rounded h.swept)
  obtain ⟨pos, le, _⟩ := queueRisk_held some_ held (guarded_rounded h.drawn)
  have taken := sweepVwap_guarded exact_ h.swept
  exact ⟨pos, le.trans (taken ▸ min_le_left _ _)⟩

/-- What is filled in part leaves a remainder by the plain sums of the book, too. -/
theorem FilledBy.leavesRemainder (exact_ : kinds .sizes)
    (h : FilledBy (guarded kinds) rng order book params g vwap available qty price fee g')
    (less : qty.get < order.quantity.get) : LeavesRemainder rng order book params g := by
  obtain ⟨some_, _, _⟩ := sweepVwap_held (guarded_rounded h.swept)
  have taken := sweepVwap_guarded exact_ h.swept
  have offered : 0 < (book.liquidityWithin order.side order.limitPrice).get :=
    (lt_min_iff.mp (taken ▸ some_)).2
  have short : (book.liquidityWithin order.side order.limitPrice).get < order.quantity.get ↔
      available.get < order.quantity.get := by
    rw [taken, min_lt_iff]
    exact ⟨.inr, fun h => h.resolve_left (lt_irrefl _)⟩
  have notKilled : ¬((book.liquidityWithin order.side order.limitPrice).get < order.quantity.get ∧
      order.timeInForce = .fok) :=
    fun killed => h.passes ⟨short.mp killed.1, .inl killed.2⟩
  rcases queueRisk_part h.drawn with rfl | ⟨enabled, hit⟩
  · refine ⟨h.accepted, h.crosses, ?_, offered, notKilled, .inl (short.mpr less)⟩
    cases enabled : params.partialFillEnabled with
    | true => rfl
    | false => exact absurd ⟨less, .inr enabled⟩ h.passes
  · exact ⟨h.accepted, h.crosses, enabled, offered, notKilled, .inr hit⟩

end Guarded

end Calc

end CopyTrading
