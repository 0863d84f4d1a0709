import CopyTrading.CalcMatching
import CopyTrading.EmittedOrders
import CopyTrading.RoundedSweep

namespace CopyTrading

open Calc OrderValidator

/-- What a simulated fill owes to its order, the swept price and the parameters. -/
structure FillRespects (order : OrderRequest) (params : MatchParams) (vwap : Price) (qty : Qty)
    (price : Price) (fee : Usd) : Prop where
  some_ : 0 < qty.get
  /-- Never worse than the limit. -/
  limit : Faces order.limitPrice price order.side
  /-- Never better than the swept price, if that lies within the limit. -/
  market : Faces price vwap order.side ∨ price = order.limitPrice
  charged : (fillFee qty price params.feeBps).run rounded = some fee
  exact_ : (fillFee qty price params.feeBps).Unrounded →
    fee = qty.get * price.get * params.feeBps / 10000
  whole : params.partialFillEnabled = false → order.quantity.get ≤ qty.get

/-- What it owes besides where the sweep has nothing to round but its price. -/
structure FillExact (order : OrderRequest) (params : MatchParams) (vwap : Price) (qty : Qty)
    (price : Price) (liquidity : Decimal) : Prop where
  ordered : qty.get ≤ order.quantity.get
  offered : qty.get ≤ liquidity
  /-- Never better than the book. -/
  market : Faces price vwap order.side
  whole : params.partialFillEnabled = false → qty.get = order.quantity.get

variable {side : Side}

theorem faces_refl (p : Price) : Faces p p side := by
  cases side <;> exact le_refl p.get

theorem faces_antisymm {p q : Price} (h : Faces p q side) (h' : Faces q p side) : p = q := by
  cases side with
  | buy => exact Price.ext (le_antisymm h' h)
  | sell => exact Price.ext (le_antisymm h h')

theorem faces_of_sign_le {limit reference : Price}
    (le : side.sign * reference.get ≤ side.sign * limit.get) : Faces limit reference side := by
  cases side with
  | buy =>
    rw [Side.sign, one_mul, one_mul] at le
    exact le
  | sell =>
    rw [Side.sign] at le
    show limit.get ≤ reference.get
    linarith

/-- Slippage is adverse; the clamp takes it back only from a price beyond the limit. -/
theorem applySlippage_adverse {vwap limit slipped : Price} (tradable : limit.Tradable)
    (held : Representable vwap.get) {bps : Nat}
    (h : (Calc.applySlippage vwap side bps).run rounded = some slipped) :
    Faces slipped vwap side ∨ Faces slipped limit side := by
  unfold Calc.applySlippage at h
  split at h
  next =>
    cases h
    exact .inl (faces_refl vwap)
  next =>
    have one : rustDecimal.Holds 1 := by decide +kernel
    have adverse : (0 : Decimal) ≤ bps / 10000 := by positivity
    have pos := vwap.pos
    rw [Calculation.run_bind] at h
    obtain ⟨f, hf, h⟩ := Option.bind_eq_some_iff.mp h
    rw [Calculation.run_bind] at h
    obtain ⟨factor, hfactor, h⟩ := Option.bind_eq_some_iff.mp h
    rw [Calculation.run_bind] at h
    obtain ⟨s, hs, h⟩ := Option.bind_eq_some_iff.mp h
    cases h
    rw [op, Calculation.run_lift] at hf hfactor hs
    have budget := DecimalFormat.round_nonneg adverse hf
    cases side with
    | buy =>
      have more := DecimalFormat.le_round_of_le one (by linarith : 1 ≤ 1 + f) hfactor
      have further := DecimalFormat.le_round_of_le held (le_mul_of_one_le_right pos.le more) hs
      rcases le_total s (9999 / 10000) with inside | beyond
      · exact .inl (le_max_of_le_right (le_min further (further.trans inside)))
      · exact .inr (le_max_of_le_right (le_min (tradable.2.trans beyond) tradable.2))
    | sell =>
      have less := DecimalFormat.le_of_round_le one (by linarith : 1 - f ≤ 1) hfactor
      have further := DecimalFormat.le_of_round_le held (mul_le_of_le_one_right pos.le less) hs
      rcases le_total (1 / 10000) vwap.get with inside | beyond
      · exact .inl (max_le inside ((min_le_left _ _).trans further))
      · exact .inr (max_le tradable.1
          ((min_le_left _ _).trans (further.trans (beyond.trans tradable.1))))

/-- The price of a fill is within the limit, and no better than the swept one unless it is the
limit itself. -/
theorem capAtLimit_between {vwap slipped limit : Price}
    (adverse : Faces slipped vwap side ∨ Faces slipped limit side) :
    Faces limit (capAtLimit slipped limit side) side ∧
      (Faces (capAtLimit slipped limit side) vwap side ∨ capAtLimit slipped limit side = limit) := by
  unfold capAtLimit
  cases side with
  | buy =>
    simp only
    split
    next => exact ⟨faces_refl limit, .inr rfl⟩
    next inside =>
      have within : Faces limit slipped .buy := not_lt.mp inside
      exact ⟨within, adverse.imp_right fun beyond => faces_antisymm beyond within⟩
  | sell =>
    simp only
    split
    next => exact ⟨faces_refl limit, .inr rfl⟩
    next inside =>
      have within : Faces limit slipped .sell := not_lt.mp inside
      exact ⟨within, adverse.imp_right fun beyond => faces_antisymm beyond within⟩

variable {limit : Price} {b : OrderBook} {qty : Qty}

variable {G : Type} {rng : Rng G}

theorem fillFee_value (qty : Qty) (price : Price) (bps : Nat) :
    (fillFee qty price bps).value = qty.get * price.get * bps / 10000 := rfl

theorem Calc.FilledBy.respects {order : OrderRequest} {book : OrderBook} {params : MatchParams}
    {g g' : G} {vwap price : Price} {available qty : Qty} {fee : Usd}
    (tradable : order.limitPrice.Tradable)
    (h : Calc.FilledBy rounded rng order book params g vwap available qty price fee g') :
    FillRespects order params vwap qty price fee := by
  obtain ⟨some_, vwapHeld, held⟩ := sweepVwap_held h.swept
  obtain ⟨pos, part, all⟩ := queueRisk_held some_ held h.drawn
  obtain ⟨slipped, slips, rfl⟩ := h.slipped
  obtain ⟨limit, market⟩ := capAtLimit_between (applySlippage_adverse tradable vwapHeld slips)
  refine ⟨pos, limit, market, h.charged, ?_, ?_⟩
  · intro plain
    have ran := plain.run
    rw [h.charged, fillFee_value] at ran
    exact Option.some.inj ran
  · intro disabled
    rw [all disabled]
    by_contra short
    exact h.passes ⟨not_le.mp short, .inr disabled⟩

theorem Calc.FilledBy.exact_ {order : OrderRequest} {book : OrderBook} {params : MatchParams}
    {g g' : G} {vwap price : Price} {available qty : Qty} {fee : Usd}
    (tradable : order.limitPrice.Tradable) (held : Representable order.limitPrice.get)
    (h : Calc.FilledBy rounded rng order book params g vwap available qty price fee g')
    (walks : (walk book order.side order.quantity order.limitPrice).Unrounded) :
    FillExact order params vwap qty price
      (book.liquidityWithin order.side order.limitPrice).get := by
  obtain ⟨some_, _, got⟩ := sweepVwap_held h.swept
  obtain ⟨pos, part, all⟩ := queueRisk_held some_ got h.drawn
  obtain ⟨p₀, swept, rounds⟩ := sweepVwap_run_some walks h.swept
  have respects := h.respects tradable
  have taken := (OrderBook.sweepVwap_taken swept).2
  have within : Faces order.limitPrice vwap order.side :=
    faces_of_sign_le (sign_round_le held (OrderBook.sweepVwap_within swept) rounds)
  rw [taken] at part
  have ordered := part.trans (min_le_left _ _)
  refine ⟨ordered, part.trans (min_le_right _ _), ?_, ?_⟩
  · rcases respects.market with market | same
    · exact market
    · rw [same]
      exact within
  · intro disabled
    exact le_antisymm ordered (respects.whole disabled)

/-- A rounded sum of sizes is no smaller than any of them. -/
theorem le_sizes_sum {acc total : Decimal} {ls : List Level}
    (decimals : ∀ l ∈ ls, Representable l.size.get) (held : Representable acc) (low : 0 ≤ acc)
    (h : (ls.foldlM (fun acc l => sizes (acc + l.size.get)) acc).run rounded = some total) :
    acc ≤ total ∧ ∀ l ∈ ls, l.size.get ≤ total := by
  induction ls generalizing acc with
  | nil =>
    cases h
    exact ⟨le_rfl, List.forall_mem_nil _⟩
  | cons l ls ih =>
    rw [List.foldlM_cons, Calculation.run_bind, sizes, Calculation.run_lift] at h
    obtain ⟨next, rounds, h⟩ := Option.bind_eq_some_iff.mp h
    have size := l.size.nonneg
    have more := DecimalFormat.le_round_of_le held (by linarith : acc ≤ acc + _) rounds
    have here := DecimalFormat.le_round_of_le (decimals l List.mem_cons_self)
      (by linarith : _ ≤ acc + l.size.get) rounds
    obtain ⟨rest, others⟩ := ih (fun m mem => decimals m (List.mem_cons_of_mem l mem))
      (DecimalFormat.holds_of_round rounds) (low.trans more) h
    refine ⟨more.trans rest, ?_⟩
    intro m mem
    rcases List.mem_cons.mp mem with rfl | behind
    · exact here.trans rest
    · exact others m behind

theorem sweep_of_empty {remaining paid : Decimal} {ls : List Level}
    (empty : ∀ l ∈ ls.takeWhile (·.within side limit), l.size.get = 0)
    {swept : Decimal × Decimal}
    (h : (sweep side limit remaining paid 0 ls).run rounded = some swept) : swept.2 = 0 := by
  induction ls generalizing remaining paid with
  | nil =>
    cases h
    rfl
  | cons l ls ih =>
    unfold sweep at h
    split at h
    next =>
      cases h
      rfl
    next goes =>
      obtain ⟨outside, left⟩ := not_or.mp goes
      have within : l.within side limit = true := by simpa using outside
      rw [List.takeWhile_cons_of_pos (p := fun l : Level => l.within side limit) within] at empty
      have nothing : min remaining l.size.get = 0 := by
        rw [empty l List.mem_cons_self]
        exact min_eq_right (not_le.mp left).le
      simp only [Calculation.run_bind, op, sizes, Calculation.run_lift, nothing] at h
      obtain ⟨cost, _, h⟩ := Option.bind_eq_some_iff.mp h
      obtain ⟨paid', _, h⟩ := Option.bind_eq_some_iff.mp h
      obtain ⟨taken, takes, h⟩ := Option.bind_eq_some_iff.mp h
      obtain ⟨rest, _, h⟩ := Option.bind_eq_some_iff.mp h
      have zero : taken = 0 := by
        rw [add_zero] at takes
        exact Option.some.inj
          (takes.symm.trans (DecimalFormat.round_of_holds (DecimalFormat.holds_zero _)))
      rw [zero] at h
      exact ih (fun m mem => empty m (List.mem_cons_of_mem l mem)) h

/-- Without liquidity within the limit nothing is swept. -/
theorem sweepVwap_of_no_liquidity (decimals : b.Decimals)
    (none_ : (Calc.liquidityWithin b side limit).run rounded = some 0)
    {swept : Option (Price × Qty)}
    (h : (Calc.sweepVwap b side qty limit).run rounded = some swept) : swept = none := by
  have listed : ∀ l ∈ (b.takingSide side).takeWhile (·.within side limit),
      Representable l.size.get :=
    fun l mem => (decimals side l (List.takeWhile_subset _ mem)).2
  obtain ⟨_, sizes⟩ := le_sizes_sum listed (DecimalFormat.holds_zero _) le_rfl none_
  unfold Calc.sweepVwap at h
  rw [Calculation.run_bind] at h
  obtain ⟨walked, walks, h⟩ := Option.bind_eq_some_iff.mp h
  have empty := sweep_of_empty (fun l mem => le_antisymm (sizes l mem) l.size.nonneg) walks
  rw [if_pos empty] at h
  exact (Option.some.inj h).symm

end CopyTrading
