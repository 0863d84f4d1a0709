import CopyTrading.Book
import CopyTrading.Order

namespace CopyTrading

inductive SimOutcome
  | filled (quantity : Qty) (price : Price) (fee : Usd) (isMaker : Bool)
  | resting
  | rejected (reason : String)
  | noLiquidity
  deriving DecidableEq

structure MatchParams where
  feeBps : Nat
  slippageBps : Nat
  partialFillEnabled : Bool
  fillProbability : ℚ
  rejectProbability : ℚ

/-- The draws of the seeded generator, from its state `G`. -/
structure Rng (G : Type) where
  /-- `gen::<f64>()`. -/
  unit : G → ℚ × G
  /-- `gen_range(0.2f64..0.8)`, as a decimal. -/
  fraction : G → {x : ℚ // 1 / 5 ≤ x ∧ x ≤ 4 / 5} × G
  /-- `gen_range(0..=n)`. -/
  upTo : Nat → G → Nat × G

def isMarketable (order : OrderRequest) (book : OrderBook) : Bool :=
  if order.orderType = .market then true
  else match order.side with
    | .buy => book.bestAsk.any fun a => a.price.get ≤ order.limitPrice.get
    | .sell => book.bestBid.any fun b => b.price.get ≥ order.limitPrice.get

def applySlippage (p : Price) (side : Side) (bps : Nat) : Price :=
  if bps = 0 then p
  else
    let f : Decimal := bps / 10000
    .saturating (match side with
      | .buy => p.get * (1 + f)
      | .sell => p.get * (1 - f))

/-- The slipped price, never beyond the order's own limit. -/
def capAtLimit (slipped limit : Price) : Side → Price
  | .buy => if slipped.get > limit.get then limit else slipped
  | .sell => if slipped.get < limit.get then limit else slipped

section Draws

variable {G : Type} (rng : Rng G)

/-- Queue and latency risk on an otherwise fillable quantity: `none` when nothing is left of it. -/
def queueRisk (params : MatchParams) (available : Qty) (g : G) : Option Qty × G :=
  if params.fillProbability < 1 then
    let (draw, g) := rng.unit g
    if draw > params.fillProbability then
      if !params.partialFillEnabled then (none, g)
      else
        let (frac, g) := rng.fraction g
        let qty : Qty := ⟨max (available.get * frac) 0, le_max_right _ _⟩
        (if qty.isZero then none else some qty, g)
    else (some available, g)
  else (some available, g)

def matchOrder (order : OrderRequest) (book : OrderBook) (params : MatchParams) (g : G) :
    SimOutcome × G :=
  let (draw, g) := rng.unit g
  if draw < params.rejectProbability then (.rejected "simulated venue rejection", g)
  else if !isMarketable order book then
    match order.timeInForce with
    -- these cannot rest
    | .ioc | .fok => (.noLiquidity, g)
    | .gtc => (.resting, g)
  else
    match book.sweepVwap order.side order.quantity order.limitPrice with
    | none => (.noLiquidity, g)
    | some (vwap, available) =>
      let slipped := applySlippage vwap order.side params.slippageBps
      let fillPrice := capAtLimit slipped order.limitPrice order.side
      if available.get < order.quantity.get ∧
          (order.timeInForce = .fok ∨ !params.partialFillEnabled) then (.noLiquidity, g)
      else
        match queueRisk rng params available g with
        | (none, g) => (.noLiquidity, g)
        | (some qty, g) =>
          (.filled qty fillPrice (qty.notional fillPrice * params.feeBps / 10000) false, g)

variable {rng}

theorem queueRisk_bounds {params : MatchParams} {available qty : Qty} {g g' : G}
    (pos : 0 < available.get) (h : queueRisk rng params available g = (some qty, g')) :
    0 < qty.get ∧ qty.get ≤ available.get := by
  unfold queueRisk at h
  split at h
  next =>
    simp only at h
    split at h
    next =>
      split at h
      next => cases h
      next =>
        obtain ⟨low, high⟩ := (rng.fraction (rng.unit g).2).1.2
        have frac : 0 ≤ available.get * ((rng.fraction (rng.unit g).2).1 : ℚ) := by
          apply mul_nonneg pos.le
          linarith
        have part := congrArg Prod.fst h
        simp only at part
        split at part
        next => cases part
        next some_ =>
          cases part
          have positive := Qty.isZero_false_iff.mp (Bool.eq_false_of_not_eq_true some_)
          have same := max_eq_left frac
          refine ⟨positive, ?_⟩
          show max _ _ ≤ _
          rw [same]
          nlinarith
    next => cases h; exact ⟨pos, le_rfl⟩
  next => cases h; exact ⟨pos, le_rfl⟩

/-- What a fill says of the draws and the book. -/
structure FilledBy (rng : Rng G) (order : OrderRequest) (book : OrderBook) (params : MatchParams)
    (g : G) (vwap : Price) (available qty : Qty) (g' : G) : Prop where
  accepted : ¬(rng.unit g).1 < params.rejectProbability
  crosses : isMarketable order book = true
  swept : book.sweepVwap order.side order.quantity order.limitPrice = some (vwap, available)
  passes : ¬(available.get < order.quantity.get ∧
    (order.timeInForce = .fok ∨ params.partialFillEnabled = false))
  drawn : queueRisk rng params available (rng.unit g).2 = (some qty, g')

theorem matchOrder_filled_iff {order : OrderRequest} {book : OrderBook} {params : MatchParams}
    {g g' : G} {qty : Qty} {price : Price} {fee : Usd} {isMaker : Bool} :
    matchOrder rng order book params g = (.filled qty price fee isMaker, g') ↔
      ∃ vwap available, FilledBy rng order book params g vwap available qty g' ∧
        price = capAtLimit (applySlippage vwap order.side params.slippageBps) order.limitPrice
          order.side ∧
        fee = qty.notional price * params.feeBps / 10000 ∧ isMaker = false := by
  constructor
  · intro h
    unfold matchOrder at h
    simp only at h
    split at h
    next => cases h
    next accepted =>
      split at h
      next => split at h <;> cases h
      next crosses =>
        split at h
        next => cases h
        next vwap available swept =>
          split at h
          next => cases h
          next passes =>
            split at h
            next => cases h
            next q g'' drawn =>
              cases h
              exact ⟨vwap, available,
                ⟨accepted, by simpa using crosses, swept, by simpa using passes, drawn⟩,
                rfl, rfl, rfl⟩
  · rintro ⟨vwap, available, by_, rfl, rfl, rfl⟩
    have passes : ¬(available.get < order.quantity.get ∧
        (order.timeInForce = .fok ∨ (!params.partialFillEnabled) = true)) := by
      simpa using by_.passes
    unfold matchOrder
    simp only [if_neg by_.accepted, by_.crosses, by_.swept, if_neg passes, by_.drawn,
      Bool.not_true, Bool.false_eq_true, if_false]

theorem matchOrder_filled {order : OrderRequest} {book : OrderBook} {params : MatchParams}
    {g g' : G} {qty : Qty} {price : Price} {fee : Usd} {isMaker : Bool}
    (h : matchOrder rng order book params g = (.filled qty price fee isMaker, g')) :
    0 < qty.get ∧ qty.get ≤ order.quantity.get := by
  obtain ⟨vwap, available, by_, _⟩ := matchOrder_filled_iff.mp h
  obtain ⟨some_, taken⟩ := OrderBook.sweepVwap_taken by_.swept
  obtain ⟨pos, le⟩ := queueRisk_bounds some_ by_.drawn
  exact ⟨pos, le.trans (taken ▸ min_le_left _ _)⟩

/-- The draws and the book let an order through, but not all of it. -/
structure LeavesRemainder (rng : Rng G) (order : OrderRequest) (book : OrderBook)
    (params : MatchParams) (g : G) : Prop where
  accepted : ¬(rng.unit g).1 < params.rejectProbability
  crosses : isMarketable order book
  enabled : params.partialFillEnabled
  offered : 0 < (book.liquidityWithin order.side order.limitPrice).get
  notKilled : ¬((book.liquidityWithin order.side order.limitPrice).get < order.quantity.get ∧
    order.timeInForce = .fok)
  /-- Too little is offered, or queue risk takes a share. -/
  short : (book.liquidityWithin order.side order.limitPrice).get < order.quantity.get ∨
    params.fillProbability < 1 ∧ params.fillProbability < (rng.unit (rng.unit g).2).1

instance (rng : Rng G) (order : OrderRequest) (book : OrderBook) (params : MatchParams) (g : G) :
    Decidable (LeavesRemainder rng order book params g) :=
  decidable_of_iff (¬(rng.unit g).1 < params.rejectProbability ∧ isMarketable order book ∧
    params.partialFillEnabled ∧ 0 < (book.liquidityWithin order.side order.limitPrice).get ∧
    ¬((book.liquidityWithin order.side order.limitPrice).get < order.quantity.get ∧
      order.timeInForce = .fok) ∧
    ((book.liquidityWithin order.side order.limitPrice).get < order.quantity.get ∨
      params.fillProbability < 1 ∧ params.fillProbability < (rng.unit (rng.unit g).2).1))
    ⟨fun ⟨a, b, c, d, e, f⟩ => ⟨a, b, c, d, e, f⟩, fun ⟨a, b, c, d, e, f⟩ => ⟨a, b, c, d, e, f⟩⟩

/-- Queue risk takes a share exactly when its draw says so. -/
theorem queueRisk_cases (rng : Rng G) (params : MatchParams) {available : Qty}
    (pos : 0 < available.get) (g : G) :
    (¬(params.fillProbability < 1 ∧ params.fillProbability < (rng.unit g).1) ∧
      ∃ g', queueRisk rng params available g = (some available, g')) ∨
    ((params.fillProbability < 1 ∧ params.fillProbability < (rng.unit g).1) ∧
      ((params.partialFillEnabled = false ∧ ∃ g', queueRisk rng params available g = (none, g')) ∨
      (params.partialFillEnabled ∧ ∃ qty g', queueRisk rng params available g = (some qty, g') ∧
        qty.get < available.get))) := by
  unfold queueRisk
  by_cases risky : params.fillProbability < 1
  · rw [if_pos risky]
    by_cases hit : params.fillProbability < (rng.unit g).1
    · right
      refine ⟨⟨risky, hit⟩, ?_⟩
      simp only [gt_iff_lt, if_pos hit]
      cases enabled : params.partialFillEnabled with
      | false => exact .inl ⟨rfl, _, rfl⟩
      | true =>
        right
        obtain ⟨low, high⟩ := (rng.fraction (rng.unit g).2).1.2
        have part : 0 < available.get * ((rng.fraction (rng.unit g).2).1 : ℚ) := by
          apply mul_pos pos
          linarith
        have same := max_eq_left part.le
        refine ⟨rfl, ⟨max (available.get * ((rng.fraction (rng.unit g).2).1 : ℚ)) 0,
          le_max_right _ _⟩, (rng.fraction (rng.unit g).2).2, ?_, ?_⟩
        · simp only [Bool.not_true, Bool.false_eq_true, if_false]
          rw [if_neg]
          rw [Qty.isZero_iff]
          show max _ _ ≠ _
          rw [same]
          exact ne_of_gt part
        · show max _ _ < _
          rw [same]
          nlinarith
    · left
      refine ⟨fun h => hit h.2, (rng.unit g).2, ?_⟩
      simp only [gt_iff_lt, if_neg hit]
  · left
    exact ⟨fun h => risky h.1, g, by rw [if_neg risky]⟩

/-- An order is filled in part exactly when the draws and the book leave a remainder of it. -/
theorem matchOrder_partial_iff {order : OrderRequest} {book : OrderBook} {params : MatchParams}
    {g : G} (asks : 0 < order.quantity.get) :
    (∃ qty price fee isMaker g', qty.get < order.quantity.get ∧
      matchOrder rng order book params g = (.filled qty price fee isMaker, g')) ↔
    LeavesRemainder rng order book params g := by
  constructor
  · rintro ⟨qty, price, fee, isMaker, g', less, h⟩
    obtain ⟨vwap, available, by_, _⟩ := matchOrder_filled_iff.mp h
    obtain ⟨some_, taken⟩ := OrderBook.sweepVwap_taken by_.swept
    have offered : 0 < (book.liquidityWithin order.side order.limitPrice).get :=
      (lt_min_iff.mp (taken ▸ some_)).2
    have short : (book.liquidityWithin order.side order.limitPrice).get <
        order.quantity.get ↔ available.get < order.quantity.get := by
      rw [taken, min_lt_iff]
      exact ⟨.inr, fun h => h.resolve_left (lt_irrefl _)⟩
    have notKilled : ¬((book.liquidityWithin order.side order.limitPrice).get <
        order.quantity.get ∧ order.timeInForce = .fok) :=
      fun killed => by_.passes ⟨short.mp killed.1, .inl killed.2⟩
    have drawn := by_.drawn
    rcases queueRisk_cases rng params some_ (rng.unit g).2 with ⟨_, _, eq⟩ |
      ⟨hit, ⟨_, _, eq⟩ | ⟨enabled, _, _, eq, _⟩⟩
    · rw [eq] at drawn
      cases drawn
      refine ⟨by_.accepted, by_.crosses, ?_, offered, notKilled, .inl (short.mpr less)⟩
      cases enabled : params.partialFillEnabled with
      | true => rfl
      | false => exact absurd ⟨less, .inr enabled⟩ by_.passes
    · rw [eq] at drawn
      cases drawn
    · exact ⟨by_.accepted, by_.crosses, enabled, offered, notKilled, .inr hit⟩
  · rintro ⟨accepted, crosses, enabled, offered, notKilled, short⟩
    obtain ⟨vwap, available, swept⟩ := OrderBook.sweepVwap_of_liquidity asks offered
    obtain ⟨some_, taken⟩ := OrderBook.sweepVwap_taken swept
    have within : available.get ≤ order.quantity.get := taken ▸ min_le_left _ _
    have passes : ¬(available.get < order.quantity.get ∧
        (order.timeInForce = .fok ∨ params.partialFillEnabled = false)) := by
      rintro ⟨less, fok | disabled⟩
      · rw [taken, min_lt_iff] at less
        exact notKilled ⟨less.resolve_left (lt_irrefl _), fok⟩
      · rw [enabled] at disabled
        cases disabled
    rcases queueRisk_cases rng params some_ (rng.unit g).2 with ⟨calm, g', eq⟩ |
      ⟨_, ⟨disabled, _, _⟩ | ⟨_, qty, g', eq, less⟩⟩
    · refine ⟨available, _, _, _, g', ?_, matchOrder_filled_iff.mpr
        ⟨vwap, available, ⟨accepted, crosses, swept, passes, eq⟩, rfl, rfl, rfl⟩⟩
      rw [taken, min_lt_iff]
      exact .inr (short.resolve_right calm)
    · rw [enabled] at disabled
      cases disabled
    · exact ⟨qty, _, _, _, g', less.trans_le within, matchOrder_filled_iff.mpr
        ⟨vwap, available, ⟨accepted, crosses, swept, passes, eq⟩, rfl, rfl, rfl⟩⟩

/-- Only a good-til-cancelled order rests. -/
theorem matchOrder_resting {order : OrderRequest} {book : OrderBook} {params : MatchParams}
    {g g' : G} (h : matchOrder rng order book params g = (.resting, g')) :
    order.timeInForce = .gtc := by
  unfold matchOrder at h
  simp only at h
  split at h
  next => cases h
  next =>
    split at h
    next =>
      split at h
      next => cases h
      next => cases h
      next gtc => exact gtc
    next =>
      split at h
      next => cases h
      next =>
        split at h
        next => cases h
        next => split at h <;> cases h

end Draws

end CopyTrading
