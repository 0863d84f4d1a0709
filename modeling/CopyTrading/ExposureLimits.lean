import CopyTrading.CalcPipeline
import CopyTrading.WorstExposure

namespace CopyTrading

/-- A fill of the order at a price that its limit admits. -/
def OrderRequest.MayFill (o : OrderRequest) (f : Fill) : Prop :=
  f.marketId = o.marketId ∧ f.tokenId = o.tokenId ∧ f.side = o.side ∧ o.admits f.price

instance (o : OrderRequest) (f : Fill) : Decidable (o.MayFill f) :=
  inferInstanceAs (Decidable (_ ∧ _))

/-- Such fills, of at most `left` shares together. -/
def OrderRequest.FillsWithin (o : OrderRequest) (left : Decimal) (fills : List Fill) : Prop :=
  (∀ f ∈ fills, o.MayFill f) ∧ (fills.map fun f => f.quantity.get).sum ≤ left

/-- The position that a fill of the order meets. -/
def Portfolio.heldFor (p : Portfolio) (o : OrderRequest) : Position :=
  (p.positions.lookup o.tokenId).getD (.new o.marketId o.tokenId "" 0)

/-- The three exposures of an order are within the limits. -/
structure WithinLimits (limits : RiskLimits) (o : OrderRequest) (p : Portfolio) : Prop where
  token : p.tokenExposure o.tokenId ≤ limits.maxPositionUsd
  market : p.marketExposure o.marketId ≤ limits.maxMarketExposureUsd
  gross : p.grossExposure ≤ limits.maxPortfolioExposureUsd

/-- The limits hold with the worst exposure that fills of the order can lead to. -/
def Portfolio.RoomFor (p : Portfolio) (limits : RiskLimits) (o : OrderRequest) : Prop :=
  let held := p.heldFor o
  let worst := held.worstExposure o.side o.quantity.get o.highestPrice
  worst ≤ limits.maxPositionUsd ∧
    (p.marketExposure o.marketId +
      if held.marketId = o.marketId then worst - held.exposure else 0) ≤
        limits.maxMarketExposureUsd ∧
    p.grossExposure - held.exposure + worst ≤ limits.maxPortfolioExposureUsd

instance (p : Portfolio) (limits : RiskLimits) (o : OrderRequest) :
    Decidable (p.RoomFor limits o) := by
  unfold Portfolio.RoomFor
  infer_instance

theorem Portfolio.tokenExposure_eq (p : Portfolio) (o : OrderRequest) :
    p.tokenExposure o.tokenId = (p.heldFor o).exposure := by
  unfold tokenExposure position heldFor
  cases p.positions.lookup o.tokenId with
  | some q => rfl
  | none =>
    show (0 : Usd) = |0 * (0 : Decimal)|
    rw [zero_mul, abs_zero]

/-- A position's share of the exposure of one market. -/
def Position.exposureIn (q : Position) (m : MarketId) : Usd :=
  if q.marketId = m then q.exposure else 0

theorem Portfolio.marketExposure_eq (p : Portfolio) (m : MarketId) :
    p.marketExposure m = p.positions.total fun q => q.exposureIn m := by
  unfold marketExposure AList.total
  induction p.positions.values with
  | nil => rfl
  | cons q qs ih =>
    rw [List.filter_cons, List.map_cons, List.sum_cons, ← ih]
    unfold Position.exposureIn
    by_cases here : q.marketId = m
    · simp [here]
    · simp [here]

/-- A total over the positions, split at the order's token. -/
theorem Portfolio.total_split {f : Position → Usd} (p : Portfolio) (o : OrderRequest)
    (none : f (.new o.marketId o.tokenId "" 0) = 0) :
    p.positions.total f = f (p.heldFor o) + (p.positions.erase o.tokenId).total f := by
  rw [AList.total_eq_lookup_add_erase f p.positions o.tokenId]
  unfold heldFor
  cases p.positions.lookup o.tokenId with
  | some q => rfl
  | none => rw [Option.getD_none, Option.elim_none, none]

section Booked

variable {o : OrderRequest} {p : Portfolio} {outcomeName : String} {left : Decimal}

theorem Position.new_exposure (m : MarketId) (t : TokenId) (name : String) (now : DateTime) :
    (Position.new m t name now).exposure = 0 := by
  show |0 * (0 : Decimal)| = 0
  rw [zero_mul, abs_zero]

theorem Position.new_exposureIn (m m' : MarketId) (t : TokenId) (name : String) (now : DateTime) :
    (Position.new m t name now).exposureIn m' = 0 := by
  unfold exposureIn
  split
  · exact new_exposure m t name now
  · rfl

/-- One fill of the order: the position it meets moves, every other stays. -/
theorem Portfolio.applyFill_spec (p : Portfolio) (outcomeName : String) (left : Decimal) {f : Fill}
    (market : f.marketId = o.marketId) (token : f.tokenId = o.tokenId) (side : f.side = o.side)
    (admitted : o.admits f.price) (within : f.quantity.get ≤ left) :
    let p' := (p.applyFill f outcomeName).2
    (p'.heldFor o).worstExposure o.side (left - f.quantity.get) o.highestPrice ≤
        (p.heldFor o).worstExposure o.side left o.highestPrice ∧
      (p'.heldFor o).marketId = (p.heldFor o).marketId ∧
      ∀ g : Position → Usd, (p'.positions.erase o.tokenId).total g =
        (p.positions.erase o.tokenId).total g := by
  let held := (p.positions.lookup f.tokenId).getD (.new f.marketId f.tokenId outcomeName f.filledAt)
  have booked : (p.applyFill f outcomeName).2.positions = p.positions.insert o.tokenId
      (held.apply f.side f.quantity f.price f.fee f.filledAt).2 := by
    rw [← token]
    rfl
  have after : (p.applyFill f outcomeName).2.heldFor o =
      (held.apply f.side f.quantity f.price f.fee f.filledAt).2 := by
    unfold heldFor
    rw [booked, AList.lookup_insert, Option.getD_some]
  have same : held.worstExposure o.side left o.highestPrice =
        (p.heldFor o).worstExposure o.side left o.highestPrice ∧
      held.marketId = (p.heldFor o).marketId := by
    show Position.worstExposure ((p.positions.lookup f.tokenId).getD _) _ _ _ = _ ∧
      ((p.positions.lookup f.tokenId).getD _).marketId = _
    unfold heldFor
    rw [token]
    cases p.positions.lookup o.tokenId with
    | some q => exact ⟨rfl, rfl⟩
    | none => exact ⟨rfl, market⟩
  simp only
  rw [after, side]
  refine ⟨?_, same.2, ?_⟩
  · rw [← same.1]
    exact Position.worstExposure_apply within (OrderRequest.admits_le admitted)
  · intro g
    have total := AList.total_eq_lookup_add_erase g (p.applyFill f outcomeName).2.positions
      o.tokenId
    rw [booked] at total ⊢
    rw [AList.lookup_insert, Option.elim_some, AList.total_insert_eq] at total
    exact (add_left_cancel total).symm

/-- Fills of the order keep its position's exposure under the worst case and touch no other. -/
theorem Portfolio.bookFills_spec (p : Portfolio) (outcomeName : String) {fills : List Fill}
    (h : o.FillsWithin left fills) :
    let p' := p.bookFills outcomeName fills
    p'.tokenExposure o.tokenId ≤ (p.heldFor o).worstExposure o.side left o.highestPrice ∧
      (p'.heldFor o).marketId = (p.heldFor o).marketId ∧
      ∀ g : Position → Usd, (p'.positions.erase o.tokenId).total g =
        (p.positions.erase o.tokenId).total g := by
  induction fills generalizing p left with
  | nil =>
    refine ⟨?_, rfl, fun _ => rfl⟩
    show p.tokenExposure o.tokenId ≤ _
    rw [p.tokenExposure_eq]
    exact Position.exposure_le_worst _ _ _ _
  | cons f fills ih =>
    obtain ⟨each, sum⟩ := h
    rw [List.map_cons, List.sum_cons] at sum
    obtain ⟨market, token, side, admitted⟩ := each f List.mem_cons_self
    have more : 0 ≤ (fills.map fun f => f.quantity.get).sum :=
      List.sum_nonneg (by
        intro d mem
        obtain ⟨f, _, rfl⟩ := List.mem_map.mp mem
        exact f.quantity.nonneg)
    have rest : o.FillsWithin (left - f.quantity.get) fills :=
      ⟨fun g mem => each g (List.mem_cons_of_mem _ mem), by linarith⟩
    obtain ⟨worst, kept, others⟩ := p.applyFill_spec outcomeName left market token side admitted
      (by linarith)
    obtain ⟨exposure, kept', others'⟩ := ih (p.applyFill f outcomeName).2 rest
    exact ⟨exposure.trans worst, kept'.trans kept, fun g => (others' g).trans (others g)⟩

end Booked

/-- What a full fill of the order at `price` reports. -/
def OrderRequest.fullFill (o : OrderRequest) (price : Price) : Fill where
  fillId := ⟨0⟩
  orderId := o.orderId
  correlationId := o.correlationId
  marketId := o.marketId
  tokenId := o.tokenId
  side := o.side
  quantity := o.quantity
  price := price
  fee := 0
  venueFillId := none
  isMaker := false
  filledAt := 0

section Exposures

variable {o : OrderRequest} {p : Portfolio} {limits : RiskLimits} {outcomeName : String}

theorem OrderRequest.fullFill_within {price : Price} (admitted : o.admits price) :
    o.FillsWithin o.quantity.get [o.fullFill price] := by
  constructor
  · intro f mem
    rw [List.mem_singleton] at mem
    subst mem
    exact ⟨rfl, rfl, rfl, admitted⟩
  · rw [List.map_singleton, List.sum_singleton]
    exact le_rfl

theorem Portfolio.fullFill_exposure (price : Price) :
    (p.bookFills outcomeName [o.fullFill price]).tokenExposure o.tokenId =
      ((p.heldFor o).apply o.side o.quantity price 0 0).2.exposure := by
  have booked : (p.bookFills outcomeName [o.fullFill price]).positions.lookup o.tokenId =
      some (((p.positions.lookup o.tokenId).getD (.new o.marketId o.tokenId outcomeName 0)).apply
        o.side o.quantity price 0 0).2 := AList.lookup_insert _
  unfold tokenExposure position heldFor
  rw [booked, Option.elim_some]
  cases p.positions.lookup o.tokenId with
  | some q => rfl
  | none => rfl

/-- The gross exposure moves as the order's own position does. -/
theorem Portfolio.bookFills_gross {fills : List Fill}
    (within : o.FillsWithin o.quantity.get fills) :
    (p.bookFills outcomeName fills).grossExposure =
      p.grossExposure - (p.heldFor o).exposure +
        (p.bookFills outcomeName fills).tokenExposure o.tokenId := by
  obtain ⟨_, _, others⟩ := p.bookFills_spec outcomeName within
  have before := p.total_split o (f := Position.exposure) (Position.new_exposure _ _ _ _)
  have after := (p.bookFills outcomeName fills).total_split o (f := Position.exposure)
    (Position.new_exposure _ _ _ _)
  rw [others] at after
  rw [tokenExposure_eq]
  unfold grossExposure
  rw [before, after]
  ring

/-- So does that of its market, if the position is one in that market. -/
theorem Portfolio.bookFills_market {fills : List Fill}
    (within : o.FillsWithin o.quantity.get fills) :
    (p.bookFills outcomeName fills).marketExposure o.marketId =
      p.marketExposure o.marketId +
        if (p.heldFor o).marketId = o.marketId then
          (p.bookFills outcomeName fills).tokenExposure o.tokenId - (p.heldFor o).exposure
        else 0 := by
  obtain ⟨_, kept, others⟩ := p.bookFills_spec outcomeName within
  have before := p.total_split o (f := fun q => q.exposureIn o.marketId)
    (Position.new_exposureIn _ _ _ _ _)
  have after := (p.bookFills outcomeName fills).total_split o
    (f := fun q => q.exposureIn o.marketId) (Position.new_exposureIn _ _ _ _ _)
  rw [others] at after
  rw [marketExposure_eq, marketExposure_eq, tokenExposure_eq, before, after]
  unfold Position.exposureIn
  rw [kept]
  split
  · ring
  · ring

theorem Portfolio.withinLimits_of_room {fills : List Fill} (room : p.RoomFor limits o)
    (within : o.FillsWithin o.quantity.get fills) :
    WithinLimits limits o (p.bookFills outcomeName fills) := by
  obtain ⟨token, market, gross⟩ := room
  obtain ⟨worst, _, _⟩ := p.bookFills_spec outcomeName within
  refine ⟨worst.trans token, ?_, ?_⟩
  · refine le_trans ?_ market
    rw [bookFills_market within]
    split
    next => linarith
    next => exact le_rfl
  · rw [bookFills_gross within]
    linarith

/-- If the limits hold however the order is filled, there is room for the worst of it. -/
theorem Portfolio.room_of_withinLimits
    (all : ∀ fills, o.FillsWithin o.quantity.get fills →
      WithinLimits limits o (p.bookFills outcomeName fills)) : p.RoomFor limits o := by
  have empty : o.FillsWithin o.quantity.get [] :=
    ⟨fun f mem => absurd mem List.not_mem_nil, o.quantity.nonneg⟩
  have now := all [] empty
  have held : p.tokenExposure o.tokenId = (p.heldFor o).exposure := p.tokenExposure_eq o
  have token := now.token
  have market := now.market
  have gross := now.gross
  change p.tokenExposure o.tokenId ≤ _ at token
  change p.marketExposure o.marketId ≤ _ at market
  change p.grossExposure ≤ _ at gross
  have full : ∀ price, o.admits price → ∃ exposure,
      ((p.heldFor o).apply o.side o.quantity price 0 0).2.exposure = exposure ∧
        exposure ≤ limits.maxPositionUsd ∧
        ((p.heldFor o).marketId = o.marketId → p.marketExposure o.marketId -
          (p.heldFor o).exposure + exposure ≤ limits.maxMarketExposureUsd) ∧
        p.grossExposure - (p.heldFor o).exposure + exposure ≤ limits.maxPortfolioExposureUsd := by
    intro price admitted
    have within := OrderRequest.fullFill_within admitted
    have limits_ := all [o.fullFill price] within
    refine ⟨_, (fullFill_exposure price).symm, limits_.token, ?_, ?_⟩
    · intro same
      have after := limits_.market
      rw [bookFills_market within, if_pos same] at after
      linarith
    · have after := limits_.gross
      rwa [bookFills_gross within] at after
  refine ⟨?_, ?_, ?_⟩
  · refine (p.heldFor o).worstExposure_le o 0 0 (by rw [← held]; exact token) ?_
    intro price admitted
    obtain ⟨_, rfl, fits, _, _⟩ := full price admitted
    exact fits
  · split
    next same =>
      have worst : (p.heldFor o).worstExposure o.side o.quantity.get o.highestPrice ≤
          limits.maxMarketExposureUsd - (p.marketExposure o.marketId - (p.heldFor o).exposure) := by
        refine (p.heldFor o).worstExposure_le o 0 0 (by linarith) ?_
        intro price admitted
        obtain ⟨_, rfl, _, fits, _⟩ := full price admitted
        have here := fits same
        linarith
      linarith
    next =>
      rw [add_zero]
      exact market
  · have worst : (p.heldFor o).worstExposure o.side o.quantity.get o.highestPrice ≤
        limits.maxPortfolioExposureUsd - (p.grossExposure - (p.heldFor o).exposure) := by
      refine (p.heldFor o).worstExposure_le o 0 0 (by linarith) ?_
      intro price admitted
      obtain ⟨_, rfl, _, _, fits⟩ := full price admitted
      linarith
    linarith

/-- In the plain model the limits hold however the order is filled, exactly where its worst fills
fit them. -/
theorem Portfolio.withinLimits_iff_room :
    (∀ fills, o.FillsWithin o.quantity.get fills →
      WithinLimits limits o (p.bookFills outcomeName fills)) ↔ p.RoomFor limits o := by
  constructor
  · exact room_of_withinLimits
  · intro room fills within
    exact withinLimits_of_room room within

end Exposures

/-- The positions are the same but for the money they made and paid. -/
def Portfolio.SameHoldings (p p' : Portfolio) : Prop :=
  p.positions.mapValues Position.bare = p'.positions.mapValues Position.bare

section SameHoldings

variable {p p' : Portfolio}

theorem Portfolio.SameHoldings.lookup (h : p.SameHoldings p') (t : TokenId) :
    (p.positions.lookup t).map Position.bare = (p'.positions.lookup t).map Position.bare := by
  rw [← AList.lookup_mapValues, ← AList.lookup_mapValues, h]

theorem Portfolio.SameHoldings.tokenExposure (h : p.SameHoldings p') (t : TokenId) :
    p.tokenExposure t = p'.tokenExposure t := by
  have bare : ∀ q : Option Position, q.elim 0 Position.exposure =
      (q.map Position.bare).elim 0 Position.exposure := by
    intro q
    cases q <;> rfl
  unfold Portfolio.tokenExposure position
  rw [bare, h.lookup t, ← bare]

/-- A sum over the positions that does not count their money. -/
theorem Portfolio.SameHoldings.total (h : p.SameHoldings p') {f : Position → Usd}
    (same : ∀ q : Position, f q.bare = f q) : p.positions.total f = p'.positions.total f := by
  rw [← AList.total_mapValues Position.bare same p.positions, h, AList.total_mapValues _ same]

theorem Portfolio.SameHoldings.marketExposure (h : p.SameHoldings p') (m : MarketId) :
    p.marketExposure m = p'.marketExposure m := by
  rw [marketExposure_eq, marketExposure_eq]
  exact h.total fun _ => rfl

theorem Portfolio.SameHoldings.grossExposure (h : p.SameHoldings p') :
    p.grossExposure = p'.grossExposure := h.total fun _ => rfl

end SameHoldings

namespace Calc

variable {E : AList.Enumeration TokenId Position}

/-- Quantities, and what exposures are made of. -/
def OfExposure (k : Operands) : Prop := k = .sizes ∨ k = .other

instance : DecidablePred OfExposure := fun k => inferInstanceAs (Decidable (k = _ ∨ k = _))

/-- Where these need no rounding, a fill leaves the holdings of the plain model. -/
theorem Portfolio.FilledBy.sameHoldings {p p' q₀ : Portfolio} {f : Fill} {outcomeName : String}
    {gain booked : Usd} {q : Position}
    (filled : FilledBy (guarded OfExposure) E p f outcomeName gain booked q p')
    (same : p.SameHoldings q₀) : p'.SameHoldings (q₀.applyFill f outcomeName).2 := by
  let held := (q₀.positions.lookup f.tokenId).getD
    (.new f.marketId f.tokenId outcomeName f.filledAt)
  have met : (bookedOn p f outcomeName).bare = held.bare := by
    have stored := same.lookup f.tokenId
    show ((p.positions.lookup f.tokenId).getD _).bare =
      ((q₀.positions.lookup f.tokenId).getD _).bare
    cases here : p.positions.lookup f.tokenId with
    | none =>
      rw [here] at stored
      rw [Option.map_eq_none_iff.mp stored.symm]
    | some r =>
      rw [here] at stored
      obtain ⟨r', there, bare⟩ := Option.map_eq_some_iff.mp stored.symm
      rw [there]
      exact bare.symm
  have after : q.bare = (held.apply f.side f.quantity f.price f.fee f.filledAt).2.bare := by
    rw [filled.applied.bare (.inl rfl) (.inr rfl)]
    -- a fill reads nothing of a position's money but to add to it
    have reads : ∀ r : Position, (r.apply f.side f.quantity f.price f.fee f.filledAt).2.bare =
        (r.bare.apply f.side f.quantity f.price f.fee f.filledAt).2.bare := fun _ => rfl
    rw [reads, met, ← reads]
  have booked₀ : (q₀.applyFill f outcomeName).2.positions = q₀.positions.insert f.tokenId
      (held.apply f.side f.quantity f.price f.fee f.filledAt).2 := rfl
  unfold CopyTrading.Portfolio.SameHoldings at same ⊢
  rw [filled.positions, booked₀, AList.mapValues_insert, AList.mapValues_insert, same, after]

theorem Portfolio.bookFills_sameHoldings {p p' q₀ : Portfolio} {outcomeName : String}
    {fills : List Fill} (same : p.SameHoldings q₀)
    (h : (bookFills E p outcomeName fills).run (guarded OfExposure) = some p') :
    p'.SameHoldings (q₀.bookFills outcomeName fills) := by
  induction fills generalizing p q₀ with
  | nil =>
    cases h
    exact same
  | cons f fills ih =>
    unfold bookFills at h
    rw [List.foldlM_cons, Calculation.run_bind] at h
    obtain ⟨p₁, first, rest⟩ := Option.bind_eq_some_iff.mp h
    rw [Calculation.run_bind] at first
    obtain ⟨⟨_, _⟩, fill, next⟩ := Option.bind_eq_some_iff.mp first
    cases next
    obtain ⟨_, _, filled⟩ := applyFill_run fill
    exact ih (filled.sameHoldings same) rest

variable (E)

/-- The order's three exposures once fills are booked. -/
def exposuresAfter (p : Portfolio) (o : OrderRequest) (outcomeName : String) (fills : List Fill) :
    Calc (Usd × Usd × Usd) := do
  let p ← Portfolio.bookFills E p outcomeName fills
  let token ← Portfolio.tokenExposure p o.tokenId
  let market ← Portfolio.marketExposure E p o.marketId
  let gross ← Portfolio.grossExposure E p
  pure (token, market, gross)

variable {E}

/-- Where nothing of them is rounded, the exposures after fills are those of the plain model. -/
theorem exposuresAfter_guarded {p : Portfolio} {o : OrderRequest} {outcomeName : String}
    {fills : List Fill} {token market gross : Usd}
    (h : (exposuresAfter E p o outcomeName fills).run (guarded OfExposure) =
      some (token, market, gross)) :
    token = (p.bookFills outcomeName fills).tokenExposure o.tokenId ∧
      market = (p.bookFills outcomeName fills).marketExposure o.marketId ∧
      gross = (p.bookFills outcomeName fills).grossExposure := by
  unfold exposuresAfter at h
  simp only [Calculation.run_bind] at h
  obtain ⟨p', books, h⟩ := Option.bind_eq_some_iff.mp h
  obtain ⟨_, tokens, h⟩ := Option.bind_eq_some_iff.mp h
  obtain ⟨_, markets, h⟩ := Option.bind_eq_some_iff.mp h
  obtain ⟨_, totals, h⟩ := Option.bind_eq_some_iff.mp h
  cases h
  have same : p'.SameHoldings (p.bookFills outcomeName fills) :=
    Portfolio.bookFills_sameHoldings rfl books
  have prices : OfExposure .other := .inr rfl
  refine ⟨?_, ?_, ?_⟩
  · rw [← same.tokenExposure]
    exact Portfolio.tokenExposure_guarded prices tokens
  · rw [← same.marketExposure]
    exact Portfolio.marketExposure_guarded prices markets
  · rw [← same.grossExposure]
    exact Portfolio.grossExposure_guarded prices totals

section Verdict

variable {app : AppState} {order : OrderRequest} {wallet : TargetWallet} {book : Option OrderBook}
  {now : DateTime}

/-- Without a mark the projection of a buy is the conservative one it is meant to be. -/
theorem room_of_unmarked_buy (exact_ : (verdict E app order wallet book now).Keeps (· = .other))
    (approved : (verdict E app order wallet book now).run rounded = some .approved)
    (buy : order.side = .buy) (unmarked : (app.portfolio.heldFor order).markPrice = none) :
    app.portfolio.RoomFor app.risk.limits order := by
  obtain ⟨token, market, gross⟩ := verdict_exposure exact_ approved
  have held := app.portfolio.tokenExposure_eq order
  have price : 0 ≤ order.highestPrice := by
    unfold OrderRequest.highestPrice
    rw [buy]
    exact order.limitPrice.pos.le
  have cost : order.quantity.get * order.highestPrice = order.notional := by
    unfold OrderRequest.highestPrice
    rw [buy]
    rfl
  have some_ : 0 ≤ order.notional := mul_nonneg order.quantity.nonneg order.limitPrice.pos.le
  have projected := Position.worstExposure_unmarked unmarked order.side order.quantity.nonneg price
  rw [cost] at projected
  refine ⟨?_, ?_, ?_⟩
  · linarith
  · split
    next => linarith
    next => linarith
  · linarith

end Verdict

/-- A position of 1400 bought at a half and marked at 0.7 since. -/
def markedUp : AppState :=
  { AppState.sample with
    portfolio := ((Portfolio.new 1000 0).applyFill
      { (OrderRequest.sample .ioc).fullFill .half with quantity := .whole 1400 }
      "Down").2.mark .zero (.saturating (7 / 10)) 0 }

/-- A position of 10 bought at a half, which a buy of 20 at 0.6 takes to the limit. -/
def nearLimit : AppState :=
  { AppState.sample with
    portfolio := ((Portfolio.new 1000 0).applyFill
      { (OrderRequest.sample .ioc).fullFill .half with quantity := .whole 10 } "Down").2
    risk := { AppState.sample.risk with
      limits := { AppState.sample.risk.limits with maxPositionUsd := 17 } } }

end Calc

end CopyTrading
