import CopyTrading.CalcOrder
import Mathlib.Algebra.BigOperators.Ring.List

namespace CopyTrading

variable {fs : List BookedFill} {avg : Decimal}

/-- The fills that bought or sold something. -/
def BookedFill.positive (fs : List BookedFill) : List BookedFill :=
  fs.filter fun f => 0 < f.quantity.get

theorem BookedFill.mem_positive {f : BookedFill} (h : f ∈ positive fs) :
    f ∈ fs ∧ 0 < f.quantity.get := by
  obtain ⟨mem, pos⟩ := List.mem_filter.mp h
  exact ⟨mem, of_decide_eq_true pos⟩

theorem BookedFill.sum_positive (fs : List BookedFill) (g : BookedFill → Decimal)
    (zero : ∀ f : BookedFill, f.quantity.get = 0 → g f = 0) :
    ((positive fs).map g).sum = (fs.map g).sum := by
  unfold positive
  induction fs with
  | nil => rfl
  | cons f fs ih =>
    rw [List.map_cons, List.sum_cons]
    by_cases pos : 0 < f.quantity.get
    · rw [List.filter_cons_of_pos (by simpa using pos), List.map_cons, List.sum_cons, ih]
    · have none_ : f.quantity.get = 0 := le_antisymm (not_lt.mp pos) f.quantity.nonneg
      rw [List.filter_cons_of_neg (by simpa using pos), ih, zero f none_, zero_add]

/-- An average lies between two of the prices it is made of. -/
theorem BookedFill.average_between (some_ : 0 < (fs.map fun f => f.quantity.get).sum)
    (average : (fs.map notional).sum = avg * (fs.map fun f => f.quantity.get).sum) :
    (∃ f ∈ fs, 0 < f.quantity.get ∧ f.price.get ≤ avg) ∧
      ∃ f ∈ fs, 0 < f.quantity.get ∧ avg ≤ f.price.get := by
  have quantity := sum_positive fs (fun f => f.quantity.get) fun f none_ => none_
  have paid := sum_positive fs notional fun f none_ => by
    unfold notional Qty.notional
    rw [none_, zero_mul]
  have nonempty : positive fs ≠ [] := by
    intro empty
    rw [← quantity, empty] at some_
    exact absurd some_ (lt_irrefl _)
  have same : ((positive fs).map notional).sum =
      ((positive fs).map fun f => f.quantity.get * avg).sum := by
    rw [List.sum_map_mul_right, paid, quantity, average, mul_comm]
  constructor
  · obtain ⟨f, mem, le⟩ := List.exists_le_of_sum_le nonempty _ _ same.le
    obtain ⟨here, pos⟩ := mem_positive mem
    exact ⟨f, here, pos, le_of_mul_le_mul_left le pos⟩
  · obtain ⟨f, mem, le⟩ := List.exists_le_of_sum_le nonempty _ _ same.ge
    obtain ⟨here, pos⟩ := mem_positive mem
    exact ⟨f, here, pos, le_of_mul_le_mul_left le pos⟩

namespace Calc

def OrderCall.exec : OrderCall → OrderM Unit
  | .transition next at_ => OrderM.transition next at_
  | .applyFill qty price fee at_ => OrderM.applyFill qty price fee at_

/-- A call, with what has been accepted so far. -/
def call (s : Order × List BookedFill) (c : OrderCall) : Calc (Order × List BookedFill) := do
  match ← (OrderCall.exec c).on s.1 with
  | (.ok (), o) => pure (o, s.2 ++ c.fills)
  | (.error _, o) => pure (o, s.2)

/-- The order after a sequence of calls, with the fills it has accepted. -/
def orderAfter (o : Order) (cs : List OrderCall) : Calc (Order × List BookedFill) :=
  cs.foldlM call (o, [])

/-- The running sums over fills. -/
def filledSum (fs : List BookedFill) : Calc Qty := fs.foldlM (fun q f => addQty q f.quantity) .zero

def notionalSum (fs : List BookedFill) : Calc Usd :=
  fs.foldlM (fun n f => do
    let paid ← notional f.quantity f.price
    op (n + paid)) 0

def feeSum (fs : List BookedFill) : Calc Usd := fs.foldlM (fun n f => fees (n + f.fee)) 0

variable {machine : Operands → Decimal → Option Decimal} {o o' : Order} {request : OrderRequest}
  {s s' : Order × List BookedFill} {c : OrderCall} {cs : List OrderCall}

/-- What a call does: nothing, a transition, or one fill that is booked. -/
theorem call_run (h : (call s c).run machine = some s') :
    s' = s ∨
    (∃ state at_, s' = ({ s.1 with state := state, updatedAt := at_ }, s.2)) ∨
    ∃ qty price fee at_ left, c = .applyFill qty price fee at_ ∧
      (remaining s.1).run machine = some left ∧ qty.get ≤ left.get ∧
      BookedBy machine s.1 qty price fee at_ s'.1 ∧ s'.2 = s.2 ++ [⟨qty, price, fee⟩] := by
  obtain ⟨o, fs⟩ := s
  unfold call at h
  rw [Calculation.run_bind] at h
  obtain ⟨result, ran, h⟩ := Option.bind_eq_some_iff.mp h
  cases c with
  | transition next at_ =>
    unfold OrderCall.exec at ran
    rw [OrderM.transition_on] at ran
    cases ran
    cases moved : o.transition next at_ with
    | error e =>
      rw [moved] at h
      cases h
      exact .inl rfl
    | ok o' =>
      rw [moved] at h
      cases h
      obtain ⟨_, rfl⟩ := Order.transition_ok_iff.mp moved
      refine .inr (.inl ⟨next, at_, ?_⟩)
      simp [OrderCall.fills]
  | applyFill qty price fee at_ =>
    unfold OrderCall.exec at ran
    rw [OrderM.applyFill_on, map_eq_pure_bind, Calculation.run_bind] at ran
    obtain ⟨outcome, applies, ran⟩ := Option.bind_eq_some_iff.mp ran
    cases ran
    cases outcome with
    | error e =>
      cases h
      exact .inl rfl
    | ok o' =>
      cases h
      obtain ⟨_, ⟨left, remains, fits⟩, books⟩ := applyFill_run applies
      exact .inr (.inr ⟨qty, price, fee, at_, left, rfl, remains, fits, books, rfl⟩)

/-- A call that is refused leaves the whole order as it was. -/
theorem exec_error {e : OrderError} (h : ((OrderCall.exec c).on o).run machine =
    some (.error e, o')) : o' = o := by
  cases c with
  | transition next at_ =>
    unfold OrderCall.exec at h
    rw [OrderM.transition_on] at h
    cases moved : o.transition next at_ with
    | error e =>
      rw [moved] at h
      cases h
      rfl
    | ok o' =>
      rw [moved] at h
      cases h
  | applyFill qty price fee at_ =>
    unfold OrderCall.exec at h
    rw [OrderM.applyFill_on, map_eq_pure_bind, Calculation.run_bind] at h
    obtain ⟨outcome, _, h⟩ := Option.bind_eq_some_iff.mp h
    cases outcome with
    | error e =>
      cases h
      rfl
    | ok o' => cases h

/-- An accepted fill leaves the order filled exactly if nothing remains. -/
theorem applyFill_filled_iff {qty : Qty} {price : Price} {fee : Usd} {at_ : DateTime}
    (h : ((OrderM.applyFill qty price fee at_).on o).run machine = some (.ok (), o')) :
    ∃ left, (remaining o').run machine = some left ∧ (o'.state = .filled ↔ left.get = 0) := by
  rw [OrderM.applyFill_on, map_eq_pure_bind, Calculation.run_bind] at h
  obtain ⟨outcome, applies, h⟩ := Option.bind_eq_some_iff.mp h
  cases outcome with
  | error e => cases h
  | ok o'' =>
    cases h
    obtain ⟨_, _, books⟩ := applyFill_run applies
    obtain ⟨left, remains, state⟩ := books.left
    refine ⟨left, remains, ?_⟩
    rw [state, ← Qty.isZero_iff]
    split
    next none_ => exact iff_of_true rfl none_
    next some_ => exact iff_of_false (by intro eq; cases eq) some_

/-- The figures of an order are the running sums over the fills it has accepted. -/
structure Tallies (machine : Operands → Decimal → Option Decimal) (o : Order)
    (request : OrderRequest) (fs : List BookedFill) : Prop where
  request : o.request = request
  quantity : (filledSum fs).run machine = some o.filledQty
  notional : (notionalSum fs).run machine = some o.filledNotional
  fees : (feeSum fs).run machine = some o.feesPaid

theorem Tallies.call (h : Tallies machine s.1 request s.2)
    (ran : (Calc.call s c).run machine = some s') : Tallies machine s'.1 request s'.2 := by
  rcases call_run ran with rfl | ⟨state, at_, rfl⟩ |
    ⟨qty, price, fee, at_, left, _, _, _, books, fills⟩
  · exact h
  · exact ⟨h.request, h.quantity, h.notional, h.fees⟩
  · rw [fills]
    refine ⟨?_, ?_, ?_, ?_⟩
    · rw [books.rest]
      exact h.request
    · unfold filledSum
      rw [List.foldlM_append, Calculation.run_bind]
      have before := h.quantity
      unfold filledSum at before
      rw [before]
      simp [books.quantity]
    · unfold notionalSum
      rw [List.foldlM_append, Calculation.run_bind]
      have before := h.notional
      unfold notionalSum at before
      rw [before]
      have adds := books.notional
      simpa using adds
    · unfold feeSum
      rw [List.foldlM_append, Calculation.run_bind]
      have before := h.fees
      unfold feeSum at before
      rw [before]
      simp [books.fees]

theorem Tallies.after (h : Tallies machine o request [])
    (ran : (orderAfter o cs).run machine = some s) : Tallies machine s.1 request s.2 :=
  Calculation.run_foldlM_keeps (P := fun s => Tallies machine s.1 request s.2)
    (fun _ _ _ _ tallies turn => tallies.call turn) h ran

theorem Tallies.new {latency : LatencyStamps} (made : Order.new request latency = .ok o) :
    Tallies machine o request [] := by
  unfold Order.new at made
  split at made
  next => cases made
  next =>
    cases made
    exact ⟨rfl, rfl, rfl, rfl⟩

section Guarded

variable {kinds : Operands → Prop} [DecidablePred kinds] {fs : List BookedFill}

theorem Tallies.quantity_exact (h : Tallies (guarded kinds) o request fs)
    (exact_ : kinds .sizes) : o.filledQty.get = (fs.map fun f => f.quantity.get).sum := by
  have sum := Calculation.run_foldlM_sum Qty.get (fun f : BookedFill => f.quantity.get)
    (fun q f q' adds => by rw [(addQty_guarded exact_ adds).1, Qty.add_get]) h.quantity
  rw [sum, Qty.zero_get, zero_add]

theorem Tallies.fees_exact (h : Tallies (guarded kinds) o request fs) (exact_ : kinds .fees) :
    o.feesPaid = (fs.map BookedFill.fee).sum := by
  have sum := Calculation.run_foldlM_sum id BookedFill.fee (fun n f n' adds => by
    rw [Calc.fees, Calculation.run_lift] at adds
    exact (guarded_eq_some adds).2 exact_) h.fees
  exact sum.trans (zero_add _)

theorem Tallies.notional_exact (h : Tallies (guarded kinds) o request fs)
    (exact_ : kinds .other) : o.filledNotional = (fs.map BookedFill.notional).sum := by
  have sum := Calculation.run_foldlM_sum id BookedFill.notional (fun n f n' adds => by
    rw [Calculation.run_bind, Calc.notional, op, Calculation.run_lift] at adds
    obtain ⟨paid, costs, adds⟩ := Option.bind_eq_some_iff.mp adds
    rw [op, Calculation.run_lift] at adds
    rw [(guarded_eq_some costs).2 exact_] at adds
    exact (guarded_eq_some adds).2 exact_) h.notional
  exact sum.trans (zero_add _)

/-- What is filled is within the order's quantity, and what is left can be told exactly. -/
structure Within (o : Order) (request : OrderRequest) : Prop where
  asked : o.request = request
  within : o.filledQty.get ≤ request.quantity.get
  left : Representable (request.quantity.get - o.filledQty.get)

theorem Within.remaining (h : Within o request) : (Calc.remaining o).run rounded =
    some (request.quantity.saturatingSub o.filledQty) := by
  unfold Calc.remaining saturatingSub sizes
  rw [h.asked, Calculation.run_bind, Calculation.run_lift]
  have rounds : rounded .sizes (request.quantity.get - o.filledQty.get) = some _ :=
    DecimalFormat.round_of_holds h.left
  rw [rounds]
  rfl

theorem Within.call (exact_ : kinds .sizes) (h : Within s.1 request)
    (ran : (Calc.call s c).run (guarded kinds) = some s') : Within s'.1 request := by
  rcases call_run ran with rfl | ⟨state, at_, rfl⟩ |
    ⟨qty, price, fee, at_, left, _, remains, fits, books, _⟩
  · exact h
  · exact ⟨h.asked, h.within, h.left⟩
  · have request' : s'.1.request = request := by
      rw [books.rest]
      exact h.asked
    have filled := (addQty_guarded exact_ books.quantity).1
    obtain ⟨left', remains', _⟩ := books.left
    unfold Calc.remaining at remains remains'
    have room := (saturatingSub_guarded exact_ remains).1
    have rest := (saturatingSub_guarded exact_ remains').2
    rw [request'] at rest
    rw [room, h.asked, Qty.saturatingSub_get h.within] at fits
    refine ⟨request', ?_, rest⟩
    rw [filled, Qty.add_get]
    linarith

theorem Within.new {latency : LatencyStamps} (made : Order.new request latency = .ok o)
    (held : Representable request.quantity.get) : Within o request := by
  unfold Order.new at made
  split at made
  next => cases made
  next =>
    cases made
    refine ⟨rfl, request.quantity.nonneg, ?_⟩
    rw [Qty.zero_get, sub_zero]
    exact held

theorem Within.after (exact_ : kinds .sizes) (h : Within o request)
    (ran : (orderAfter o cs).run (guarded kinds) = some s) : Within s.1 request :=
  Calculation.run_foldlM_keeps (P := fun s => Within s.1 request)
    (fun _ _ _ _ within turn => within.call exact_ turn) h ran

end Guarded

/-- The price of a fill is a decimal. -/
def OrderCall.Priced : OrderCall → Prop
  | .transition .. => True
  | .applyFill _ price _ _ => Representable price.get

instance (c : OrderCall) : Decidable (OrderCall.Priced c) := by
  cases c <;> unfold OrderCall.Priced <;> infer_instance

theorem prices_after (priced : ∀ c ∈ cs, OrderCall.Priced c)
    (ran : (orderAfter o cs).run machine = some s) :
    ∀ f ∈ s.2, Representable f.price.get := by
  refine Calculation.run_foldlM_keeps (P := fun s => ∀ f ∈ s.2, Representable f.price.get) ?_
    (List.forall_mem_nil _) ran
  intro s c mem s' before turn
  rcases call_run turn with rfl | ⟨state, at_, rfl⟩ | ⟨qty, price, fee, at_, _, rfl, _, _, _, fills⟩
  · exact before
  · exact before
  · rw [fills]
    intro f listed
    rcases List.mem_append.mp listed with old | new
    · exact before f old
    · cases List.mem_singleton.mp new
      exact priced _ mem

/-- There is an average price once something is filled, between two of the prices filled at. -/
theorem avgFillPrice_exact {fs : List BookedFill} (prices : ∀ f ∈ fs, Representable f.price.get)
    (quantity : o.filledQty.get = (fs.map fun f => f.quantity.get).sum)
    (notional : o.filledNotional = (fs.map BookedFill.notional).sum) :
    ∃ average, (avgFillPrice o).run rounded = some average ∧
      (average.isSome ↔ 0 < o.filledQty.get) ∧ ∀ p, average = some p →
        (∃ f ∈ fs, 0 < f.quantity.get ∧ f.price.get ≤ p.get) ∧
          ∃ f ∈ fs, 0 < f.quantity.get ∧ p.get ≤ f.price.get := by
  unfold avgFillPrice
  cases none_ : o.filledQty.isZero with
  | true =>
    rw [Qty.isZero_iff] at none_
    refine ⟨none, rfl, ?_, nofun⟩
    rw [none_]
    exact iff_of_false (by simp) (lt_irrefl 0)
  | false =>
    have some_ := Qty.isZero_false_iff.mp none_
    have total := some_
    rw [quantity] at total
    have average : (fs.map BookedFill.notional).sum =
        o.filledNotional / o.filledQty.get * (fs.map fun f => f.quantity.get).sum := by
      rw [← notional, ← quantity, div_mul_cancel₀ _ (ne_of_gt some_)]
    obtain ⟨⟨f, mem, pos, low⟩, ⟨g, mem', pos', high⟩⟩ := BookedFill.average_between total average
    have small : |o.filledNotional / o.filledQty.get| ≤ 1 := by
      have below := g.price.lt_one
      rw [abs_of_pos (f.price.pos.trans_le low)]
      linarith
    obtain ⟨r, rounds, _⟩ := exists_round small
    have low' := DecimalFormat.le_round_of_le (prices f mem) low rounds
    have high' := DecimalFormat.le_of_round_le (prices g mem') high rounds
    have positive := f.price.pos.trans_le low'
    have below := high'.trans_lt g.price.lt_one
    have valid := Price.ofDecimal?_of positive below
    refine ⟨some ⟨r, positive, below⟩, ?_, iff_of_true rfl some_, ?_⟩
    · rw [if_neg Bool.false_ne_true, Calculation.run_bind, op, Calculation.run_lift]
      have rounds' : rounded .other (o.filledNotional / o.filledQty.get) = some r := rounds
      rw [rounds', Option.bind_some, Calculation.run_pure, valid]
    · rintro p ⟨⟩
      exact ⟨⟨f, mem, pos, low'⟩, ⟨g, mem', pos', high'⟩⟩

/-- The accounts of an order after any sequence of calls. They are the decimals' running sums over
the accepted fills; each is exact where its operators have nothing to round. -/
theorem accounting {o₀ : Order} {latency : LatencyStamps}
    (made : Order.new request latency = .ok o₀) (held : Representable request.quantity.get)
    (priced : ∀ c ∈ cs, OrderCall.Priced c) {fs : List BookedFill}
    (reached : (orderAfter o₀ cs).run rounded = some (o, fs)) :
    Tallies rounded o request fs ∧ 0 ≤ o.filledQty.get ∧
      (o.filledQty.get = 0 → (avgFillPrice o).run rounded = some none) ∧
      (∀ c e o', ((OrderCall.exec c).on o).run rounded = some (.error e, o') → o' = o) ∧
      (∀ qty price fee at_ o',
        ((OrderM.applyFill qty price fee at_).on o).run rounded = some (.ok (), o') →
        ∃ left, (remaining o').run rounded = some left ∧ (o'.state = .filled ↔ left.get = 0)) ∧
      ((orderAfter o₀ cs).Keeps (· = .sizes) →
        o.filledQty.get = (fs.map fun f => f.quantity.get).sum ∧
        o.filledQty.get ≤ request.quantity.get ∧
        ∃ left, (remaining o).run rounded = some left ∧
          o.filledQty.get + left.get = request.quantity.get) ∧
      ((orderAfter o₀ cs).Keeps (· = .fees) → o.feesPaid = (fs.map BookedFill.fee).sum) ∧
      ((orderAfter o₀ cs).Keeps (· = .other) →
        o.filledNotional = (fs.map BookedFill.notional).sum) ∧
      ((orderAfter o₀ cs).Keeps (· ≠ .fees) →
        ∃ average, (avgFillPrice o).run rounded = some average ∧
          (average.isSome ↔ 0 < o.filledQty.get) ∧ ∀ p, average = some p →
            (∃ f ∈ fs, 0 < f.quantity.get ∧ f.price.get ≤ p.get) ∧
              ∃ f ∈ fs, 0 < f.quantity.get ∧ p.get ≤ f.price.get) := by
  have tallies : Tallies rounded o request fs := (Tallies.new made).after reached
  refine ⟨tallies, o.filledQty.nonneg, ?_, fun c e o' => exec_error,
    fun qty price fee at_ o' => applyFill_filled_iff, ?_, ?_, ?_, ?_⟩
  · intro none_
    unfold avgFillPrice
    rw [if_pos (Qty.isZero_iff.mpr none_)]
    rfl
  · intro sums
    have ran := sums.run.symm.trans reached
    have whole := ((Tallies.new made).after ran).quantity_exact rfl
    have within : Within o request := by
      refine Within.after ?_ (Within.new made held) ran
      rfl
    refine ⟨whole, within.within, _, within.remaining, ?_⟩
    rw [Qty.saturatingSub_get within.within, add_sub_cancel]
  · intro sums
    exact ((Tallies.new made).after (sums.run.symm.trans reached)).fees_exact rfl
  · intro sums
    exact ((Tallies.new made).after (sums.run.symm.trans reached)).notional_exact rfl
  · intro sums
    have exact_ := (Tallies.new made).after (sums.run.symm.trans reached)
    exact avgFillPrice_exact (prices_after priced reached) (exact_.quantity_exact nofun)
      (exact_.notional_exact nofun)

/-- An order of 30 of which 10 are filled at one half and 5 at 3/5. -/
def twoFills : List OrderCall :=
  [.transition .validated 1, .transition .submitted 2, .applyFill (.whole 10) .half 0 3,
    .applyFill (.whole 5) (OrderRequest.sample .gtc).limitPrice 0 4]

theorem accounting_twoFills : ∃ o₀ o fs, Order.new (.sample .gtc) (.begin 0) = .ok o₀ ∧
    (orderAfter o₀ twoFills).run rounded = some (o, fs) ∧ fs.length = 2 ∧
    (∃ left, (remaining o).run rounded = some left ∧
      o.filledQty.get + left.get = (OrderRequest.sample .gtc).quantity.get) ∧
    o.filledNotional = (fs.map BookedFill.notional).sum ∧
    ∃ average, (avgFillPrice o).run rounded = some average ∧
      (average.isSome ↔ 0 < o.filledQty.get) := by
  obtain ⟨o₀, made⟩ : ∃ o₀, Order.new (.sample .gtc) (.begin 0) = .ok o₀ := ⟨_, rfl⟩
  have ran : ((orderAfter o₀ twoFills).run rounded).map (fun s => s.2.length) = some 2 := by
    cases made
    decide +kernel
  obtain ⟨⟨o, fs⟩, reached, two⟩ := Option.map_eq_some_iff.mp ran
  obtain ⟨_, _, _, _, _, sizes, _, sums, average⟩ := accounting made (by decide +kernel)
    (by decide +kernel) reached
  obtain ⟨_, _, whole⟩ := sizes (by cases made; decide +kernel)
  obtain ⟨a, priced, some_, _⟩ := average (by cases made; decide +kernel)
  exact ⟨o₀, o, fs, made, reached, two, whole, sums (by cases made; decide +kernel), a, priced,
    some_⟩

/-- Two quantities whose sum has 30 digits. -/
def cutFills : Qty × Qty :=
  (⟨21043771870557660 / 10 ^ 15, by norm_num⟩,
    ⟨41168219781289811700374007749 / 10 ^ 28, by norm_num⟩)

/-- One fill at 0.95 has a higher average price, and two fills have a rounded sum. -/
theorem accounting_rounds :
    (∃ (request : OrderRequest) (o₀ o : Order) (cs : List OrderCall) (f : BookedFill) (p : Price),
      Order.new request (.begin 0) = .ok o₀ ∧ (orderAfter o₀ cs).run rounded = some (o, [f]) ∧
      (avgFillPrice o).run rounded = some (some p) ∧ f.price.get < p.get) ∧
    ∃ (request : OrderRequest) (o₀ o : Order) (cs : List OrderCall) (fs : List BookedFill),
      Order.new request (.begin 0) = .ok o₀ ∧ (orderAfter o₀ cs).run rounded = some (o, fs) ∧
      o.filledQty.get ≠ (fs.map fun f => f.quantity.get).sum := by
  constructor
  · obtain ⟨o₀, made⟩ : ∃ o₀, Order.new { OrderRequest.sample .gtc with quantity := .whole 200 }
        (.begin 0) = .ok o₀ := ⟨_, rfl⟩
    have ran : ((orderAfter o₀ [.transition .validated 1, .transition .submitted 2,
          .applyFill .long .nineteenTwentieths 0 3]).run rounded).map
        (fun s => (s.2, ((avgFillPrice s.1).run rounded).join.map Price.get)) =
        some ([⟨.long, .nineteenTwentieths, 0⟩], some (9500000000000000000000000001 / 10 ^ 28)) := by
      cases made
      decide +kernel
    obtain ⟨⟨o, fs⟩, reached, both⟩ := Option.map_eq_some_iff.mp ran
    obtain ⟨rfl, priced⟩ := Prod.mk.inj both
    obtain ⟨p, average, same⟩ := Option.map_eq_some_iff.mp priced
    refine ⟨_, o₀, o, _, _, p, made, reached, Option.join_eq_some_iff.mp average, ?_⟩
    show (19 / 20 : ℚ) < p.get
    rw [same]
    norm_num
  · obtain ⟨o₀, made⟩ : ∃ o₀, Order.new (.sample .gtc) (.begin 0) = .ok o₀ := ⟨_, rfl⟩
    have ran : ((orderAfter o₀ [.transition .validated 1, .transition .submitted 2,
          .applyFill cutFills.1 .half 0 3, .applyFill cutFills.2 .half 0 4]).run rounded).map
        (fun s => s.1.filledQty.get == (s.2.map fun f => f.quantity.get).sum) = some false := by
      cases made
      decide +kernel
    obtain ⟨⟨o, fs⟩, reached, differ⟩ := Option.map_eq_some_iff.mp ran
    exact ⟨_, o₀, o, _, fs, made, reached, by simpa using differ⟩

end Calc

end CopyTrading
