import CopyTrading.DrawOrder
import CopyTrading.Paper

namespace CopyTrading

open DrawOrder

/-- What one pass gives a resting order that it fills. -/
structure Hit where
  quantity : Qty
  price : Price
  fee : Usd
  deriving DecidableEq

/-- A fill without its generated ids and its stamp. -/
def Fill.content (f : Fill) : Fill :=
  { f with fillId := ⟨0⟩, venueFillId := none, filledAt := 0 }

def Hit.content (h : Hit) (o : OrderRequest) : Fill where
  fillId := ⟨0⟩
  orderId := o.orderId
  correlationId := o.correlationId
  marketId := o.marketId
  tokenId := o.tokenId
  side := o.side
  quantity := h.quantity
  price := h.price
  fee := h.fee
  venueFillId := none
  isMaker := true
  filledAt := 0

/-- What is left resting of an order. -/
def RestingOrder.after (r : RestingOrder) : Option Hit → Option RestingOrder
  | none => some r
  | some h =>
    let left := r.remaining.saturatingSub h.quantity
    if left.isZero then none else some { r with remaining := left }

/-- Some of a resting order can be filled out of the book, draws permitting. -/
structure Fillable (book : OrderBook) (params : MatchParams) (r : RestingOrder) : Prop where
  crosses : isMarketable r.request book = true
  remains : 0 < r.remaining.get
  offered : 0 < (book.liquidityWithin r.request.side r.request.limitPrice).get
  passes : ¬((book.liquidityWithin r.request.side r.request.limitPrice).get < r.remaining.get ∧
    (r.request.timeInForce = .fok ∨ params.partialFillEnabled = false))

/-- As much of a resting order as the book can cover. -/
def RestingOrder.reach (r : RestingOrder) (book : OrderBook) : Decimal :=
  min r.remaining.get (book.liquidityWithin r.request.side r.request.limitPrice).get

instance (book : OrderBook) (params : MatchParams) (r : RestingOrder) :
    Decidable (Fillable book params r) :=
  decidable_of_iff (isMarketable r.request book = true ∧ 0 < r.remaining.get ∧
    0 < (book.liquidityWithin r.request.side r.request.limitPrice).get ∧
    ¬((book.liquidityWithin r.request.side r.request.limitPrice).get < r.remaining.get ∧
      (r.request.timeInForce = .fok ∨ params.partialFillEnabled = false)))
    ⟨fun ⟨a, b, c, d⟩ => ⟨a, b, c, d⟩, fun ⟨a, b, c, d⟩ => ⟨a, b, c, d⟩⟩

/-- A generator that draws what it is told to draw, and the least value after that. -/
def Rng.scripted : Rng (List {x : ℚ // 0 ≤ x ∧ x < 1}) where
  unit
    | [] => (0, [])
    | x :: l => (x.1, l)
  fraction
    | [] => (⟨1 / 5, by norm_num⟩, [])
    | x :: l => (⟨1 / 5 + 3 / 5 * x.1, by linarith [x.2.1], by linarith [x.2.2]⟩, l)
  upTo n
    | [] => (0, [])
    | x :: l => (⌊x.1 * (n + 1)⌋.toNat, l)

theorem Rng.scripted_unit (x : {x : ℚ // 0 ≤ x ∧ x < 1}) (l : List {x : ℚ // 0 ≤ x ∧ x < 1}) :
    Rng.scripted.unit (x :: l) = (x.1, l) := rfl

section Pass

variable {G : Type} (rng : Rng G)

/-- The draws of `gen::<f64>()` lie in the half-open unit interval. -/
def Rng.Lawful (rng : Rng G) : Prop := ∀ g, 0 ≤ (rng.unit g).1 ∧ (rng.unit g).1 < 1

theorem Rng.scripted_lawful : Rng.Lawful .scripted := by
  intro l
  cases l with
  | nil => exact ⟨le_rfl, one_pos⟩
  | cons x l => exact x.2

def hitOf (book : OrderBook) (params : MatchParams) (c : OrderId × RestingOrder) (g : G) :
    Option Hit × G :=
  if isMarketable c.2.request book then
    match matchOrder rng { c.2.request with quantity := c.2.remaining } book params g with
    | (.filled quantity price fee _, g) => (some ⟨quantity, price, fee⟩, g)
    | (_, g) => (none, g)
  else (none, g)

theorem hitOf_idle {book : OrderBook} {params : MatchParams} {c : OrderId × RestingOrder}
    (h : isMarketable c.2.request book = false) (g : G) :
    hitOf rng book params c g = (none, g) := by
  unfold hitOf
  rw [h]
  rfl

theorem hitOf_rejected {book : OrderBook} {params : MatchParams} {c : OrderId × RestingOrder}
    (crosses : isMarketable c.2.request book = true) {g : G}
    (h : (rng.unit g).1 < params.rejectProbability) :
    hitOf rng book params c g = (none, (rng.unit g).2) := by
  unfold hitOf matchOrder
  simp only [if_pos crosses, if_pos h]

theorem hitOf_unfillable {book : OrderBook} {params : MatchParams} {c : OrderId × RestingOrder}
    (crosses : isMarketable c.2.request book = true) (h : ¬Fillable book params c.2) (g : G) :
    hitOf rng book params c g = (none, (rng.unit g).2) := by
  by_cases rejected : (rng.unit g).1 < params.rejectProbability
  · exact hitOf_rejected rng crosses rejected
  · have probe : isMarketable { c.2.request with quantity := c.2.remaining } book = true := crosses
    unfold hitOf matchOrder
    simp only [if_pos crosses, if_neg rejected, probe, Bool.not_true, Bool.false_eq_true, if_false]
    cases swept : book.sweepVwap c.2.request.side c.2.remaining c.2.request.limitPrice with
    | none => rfl
    | some taken =>
      obtain ⟨vwap, available⟩ := taken
      obtain ⟨some_, eq⟩ := OrderBook.sweepVwap_taken swept
      obtain ⟨remains, offered⟩ := lt_min_iff.mp (eq ▸ some_)
      have killed : available.get < c.2.remaining.get ∧
          (c.2.request.timeInForce = .fok ∨ (!params.partialFillEnabled) = true) := by
        by_contra passes
        refine h ⟨crosses, remains, offered, ?_⟩
        rintro ⟨short, why⟩
        refine passes ⟨?_, why.imp_right fun off => by rw [off]; rfl⟩
        rw [eq]
        exact (min_le_right _ _).trans_lt short
      simp only [if_pos killed]

/-- A candidate that cannot be filled gets nothing, and takes one draw if it is marketable. -/
theorem hitOf_of_not_fillable {book : OrderBook} {params : MatchParams}
    {c : OrderId × RestingOrder} (h : ¬Fillable book params c.2) (g : G) :
    hitOf rng book params c g =
      (none, if isMarketable c.2.request book then (rng.unit g).2 else g) := by
  by_cases crosses : isMarketable c.2.request book = true
  · rw [if_pos crosses]
    exact hitOf_unfillable rng crosses h g
  · rw [if_neg crosses]
    rw [Bool.not_eq_true] at crosses
    exact hitOf_idle rng crosses g

/-- So does every candidate when all orders are rejected. -/
theorem hitOf_of_rejecting {rng : Rng G} (lawful : rng.Lawful) {book : OrderBook}
    {params : MatchParams} (h : 1 ≤ params.rejectProbability) (c : OrderId × RestingOrder) (g : G) :
    hitOf rng book params c g =
      (none, if isMarketable c.2.request book then (rng.unit g).2 else g) := by
  by_cases crosses : isMarketable c.2.request book = true
  · rw [if_pos crosses]
    exact hitOf_rejected rng crosses ((lawful g).2.trans_le h)
  · rw [if_neg crosses]
    rw [Bool.not_eq_true] at crosses
    exact hitOf_idle rng crosses g

/-- What a fillable order gets, once it is not rejected, is what queue risk leaves of its reach. -/
theorem hitOf_fillable {book : OrderBook} {params : MatchParams} {c : OrderId × RestingOrder}
    (h : Fillable book params c.2) : ∃ (available : Qty) (price : Price),
      available.get = c.2.reach book ∧ ∀ g, ¬(rng.unit g).1 < params.rejectProbability →
        hitOf rng book params c g =
          ((queueRisk rng params available (rng.unit g).2).1.map fun q =>
              ⟨q, price, q.notional price * params.feeBps / 10000⟩,
            (queueRisk rng params available (rng.unit g).2).2) := by
  obtain ⟨vwap, available, swept⟩ := OrderBook.sweepVwap_of_liquidity h.remains h.offered
  obtain ⟨_, taken⟩ := OrderBook.sweepVwap_taken swept
  refine ⟨available, capAtLimit (applySlippage vwap c.2.request.side params.slippageBps)
    c.2.request.limitPrice c.2.request.side, taken, ?_⟩
  intro g accepted
  have probe : isMarketable { c.2.request with quantity := c.2.remaining } book = true := h.crosses
  have passes : ¬(available.get < c.2.remaining.get ∧
      (c.2.request.timeInForce = .fok ∨ (!params.partialFillEnabled) = true)) := by
    rintro ⟨short, why⟩
    rw [taken, min_lt_iff] at short
    refine h.passes ⟨short.resolve_left (lt_irrefl _), why.imp_right fun off => ?_⟩
    cases enabled : params.partialFillEnabled with
    | false => rfl
    | true =>
      rw [enabled] at off
      cases off
  unfold hitOf matchOrder
  simp only [if_pos h.crosses, if_neg accepted, probe, swept, if_neg passes, Bool.not_true,
    Bool.false_eq_true, if_false]
  cases drawn : queueRisk rng params available (rng.unit g).2 with
  | mk left g' =>
    cases left with
    | none => rfl
    | some qty => rfl

variable {rng}

theorem PaperExecution.hitResting_none {p : PaperExecution G} {book : OrderBook} {now : DateTime}
    {fills : List Fill} {c : OrderId × RestingOrder}
    (h : (hitOf rng book p.params c p.rng).1 = none) :
    hitResting rng book now (p, fills) c =
      ({ p with rng := (hitOf rng book p.params c p.rng).2 }, fills) := by
  unfold hitOf at h ⊢
  unfold hitResting
  by_cases crosses : isMarketable c.2.request book = true
  · simp only [crosses, Bool.not_true, Bool.false_eq_true, if_false, if_true] at h ⊢
    cases outcome : matchOrder rng { c.2.request with quantity := c.2.remaining } book p.params
        p.rng with
    | mk out g =>
      rw [outcome] at h
      cases out with
      | filled quantity price fee isMaker => cases h
      | _ => rfl
  · rw [Bool.not_eq_true] at crosses
    simp only [crosses, Bool.not_false, Bool.false_eq_true, if_false, if_true]

theorem PaperExecution.hitResting_some {p : PaperExecution G} {book : OrderBook}
    (now : DateTime) (fills : List Fill) {c : OrderId × RestingOrder} {h : Hit}
    (got : (hitOf rng book p.params c p.rng).1 = some h) :
    ∃ f q, hitResting rng book now (p, fills) c = (q, fills ++ [f]) ∧
      f.content = h.content c.2.request ∧ q.params = p.params ∧
      q.rng = (hitOf rng book p.params c p.rng).2 ∧
      q.resting = hitMap p.resting c.1 c.2 h.quantity := by
  unfold hitOf at got ⊢
  unfold hitResting
  by_cases crosses : isMarketable c.2.request book = true
  · simp only [crosses, Bool.not_true, Bool.false_eq_true, if_false, if_true] at got ⊢
    cases outcome : matchOrder rng { c.2.request with quantity := c.2.remaining } book p.params
        p.rng with
    | mk out g =>
      rw [outcome] at got
      cases out with
      | filled quantity price fee isMaker =>
        cases got
        exact ⟨_, _, rfl, rfl, rfl, rfl, rfl⟩
      | _ => cases got
  · rw [Bool.not_eq_true] at crosses
    simp only [crosses, Bool.false_eq_true, if_false] at got
    cases got

theorem queueRisk_certain {params : MatchParams} (h : 1 ≤ params.fillProbability)
    (available : Qty) (g : G) : queueRisk rng params available g = (some available, g) := by
  unfold queueRisk
  rw [if_neg (not_lt.mpr h)]

theorem queueRisk_calm {params : MatchParams} {g : G} (risky : params.fillProbability < 1)
    (h : (rng.unit g).1 ≤ params.fillProbability) (available : Qty) :
    queueRisk rng params available g = (some available, (rng.unit g).2) := by
  unfold queueRisk
  simp only [if_pos risky, gt_iff_lt, if_neg (not_lt.mpr h)]

/-- Queue risk draws up to twice, and at least once unless every fill is certain. -/
theorem queueRisk_draws (rng : Rng G) (params : MatchParams) (available : Qty) (g : G) :
    1 ≤ params.fillProbability ∧ (queueRisk rng params available g).2 = g ∨
    (queueRisk rng params available g).2 = (rng.unit g).2 ∨
    (queueRisk rng params available g).2 = (rng.fraction (rng.unit g).2).2 := by
  by_cases risky : params.fillProbability < 1
  · right
    by_cases against : params.fillProbability < (rng.unit g).1
    · unfold queueRisk
      simp only [if_pos risky, gt_iff_lt, if_pos against]
      cases params.partialFillEnabled with
      | false => exact .inl rfl
      | true => exact .inr rfl
    · rw [queueRisk_calm risky (not_lt.mp against)]
      exact .inl rfl
  · exact .inl ⟨not_lt.mp risky, by rw [queueRisk_certain (not_lt.mp risky)]⟩

def Hit.amount (x : Option Hit) : Decimal := x.elim 0 fun h => h.quantity.get

/-- What is left of an order is what it did not get. -/
theorem RestingOrder.after_remaining {r : RestingOrder} {x : Option Hit}
    (fits : Hit.amount x ≤ r.remaining.get) :
    ((r.after x).elim 0 fun left => left.remaining.get) = r.remaining.get - Hit.amount x := by
  cases x with
  | none => exact (sub_zero _).symm
  | some h =>
    have left := Qty.saturatingSub_get fits
    unfold after
    simp only
    split
    next zero =>
      rw [Qty.isZero_iff, left] at zero
      exact zero.symm
    next => exact left

/-- A candidate gets no more than its reach, and nothing unless it is fillable. -/
theorem amount_hitOf (rng : Rng G) (book : OrderBook) (params : MatchParams)
    (c : OrderId × RestingOrder) (g : G) :
    0 ≤ Hit.amount (hitOf rng book params c g).1 ∧
      Hit.amount (hitOf rng book params c g).1 ≤
        if Fillable book params c.2 then c.2.reach book else 0 := by
  refine ⟨?_, ?_⟩
  · cases (hitOf rng book params c g).1 with
    | none => exact le_rfl
    | some h => exact h.quantity.nonneg
  · by_cases fillable : Fillable book params c.2
    · rw [if_pos fillable]
      have reach : 0 < c.2.reach book := lt_min fillable.remains fillable.offered
      by_cases rejected : (rng.unit g).1 < params.rejectProbability
      · rw [hitOf_rejected rng fillable.crosses rejected]
        exact reach.le
      · obtain ⟨available, price, eq, hits⟩ := hitOf_fillable rng fillable
        rw [hits g rejected]
        cases drawn : queueRisk rng params available (rng.unit g).2 with
        | mk got g' =>
          cases got with
          | none => exact reach.le
          | some qty =>
            have within := (queueRisk_bounds (eq ▸ reach) drawn).2
            rw [eq] at within
            exact within
    · rw [if_neg fillable, hitOf_of_not_fillable rng fillable]
      exact le_rfl

/-- A fillable order gets all of its reach when neither draw is against it. -/
theorem amount_whole (rng : Rng G) {book : OrderBook} {params : MatchParams}
    {c : OrderId × RestingOrder} {g : G}
    (h : Fillable book params c.2) (accepted : ¬(rng.unit g).1 < params.rejectProbability)
    (calm : (rng.unit (rng.unit g).2).1 ≤ params.fillProbability) :
    Hit.amount (hitOf rng book params c g).1 = c.2.reach book := by
  obtain ⟨available, price, eq, hits⟩ := hitOf_fillable rng h
  rw [hits g accepted]
  by_cases risky : params.fillProbability < 1
  · rw [queueRisk_calm risky calm]
    exact eq
  · rw [queueRisk_certain (not_lt.mp risky)]
    exact eq

/-- It gets less when the draw for queue risk is against it. -/
theorem amount_short (rng : Rng G) {book : OrderBook} {params : MatchParams}
    {c : OrderId × RestingOrder} {g : G}
    (h : Fillable book params c.2) (accepted : ¬(rng.unit g).1 < params.rejectProbability)
    (risky : params.fillProbability < 1)
    (against : params.fillProbability < (rng.unit (rng.unit g).2).1) :
    Hit.amount (hitOf rng book params c g).1 < c.2.reach book := by
  have reach : 0 < c.2.reach book := lt_min h.remains h.offered
  obtain ⟨available, price, eq, hits⟩ := hitOf_fillable rng h
  rw [hits g accepted]
  have pos : 0 < available.get := eq ▸ reach
  rcases queueRisk_cases rng params pos (rng.unit g).2 with ⟨calm, _⟩ |
    ⟨_, ⟨_, g', got⟩ | ⟨_, qty, g', got, less⟩⟩
  · exact absurd ⟨risky, against⟩ calm
  · rw [got]
    exact reach
  · rw [got, ← eq]
    exact less

theorem RestingOrder.lookup_after {m : AList fun _ : OrderId => RestingOrder} {id : OrderId}
    {r : RestingOrder} (held : m.lookup id = some r) (h : Hit) :
    (hitMap m id r h.quantity).lookup id = r.after (some h) := by
  unfold hitMap after
  simp only
  split
  · exact AList.lookup_erase id m
  · rw [held, Option.isSome_some, if_pos rfl, AList.lookup_insert]

/-- What the fills of a pass say, in terms of what each candidate got. -/
def contents (outcomes : List ((OrderId × RestingOrder) × Option Hit)) : List Fill :=
  outcomes.filterMap fun x => x.2.map fun h => h.content x.1.2.request

/-- One candidate: what it got, and that the others are left alone. -/
theorem PaperExecution.hitResting_spec (rng : Rng G) (p : PaperExecution G) (book : OrderBook)
    (now : DateTime) (fills : List Fill) {c : OrderId × RestingOrder}
    (held : p.resting.lookup c.1 = some c.2) :
    ∃ q fills', hitResting rng book now (p, fills) c = (q, fills') ∧ q.params = p.params ∧
      q.rng = (hitOf rng book p.params c p.rng).2 ∧
      fills'.map Fill.content =
        fills.map Fill.content ++ contents [(c, (hitOf rng book p.params c p.rng).1)] ∧
      q.resting.lookup c.1 = c.2.after (hitOf rng book p.params c p.rng).1 ∧
      ∀ j, j ≠ c.1 → q.resting.lookup j = p.resting.lookup j := by
  cases got : (hitOf rng book p.params c p.rng).1 with
  | none =>
    refine ⟨_, _, hitResting_none got, rfl, rfl, ?_, held, fun j _ => rfl⟩
    simp [contents]
  | some h =>
    obtain ⟨f, q, eq, content, params, state, resting⟩ :=
      hitResting_some now fills got
    refine ⟨q, fills ++ [f], eq, params, state, ?_, ?_, ?_⟩
    · simp [contents, content]
    · rw [resting]
      exact RestingOrder.lookup_after held h
    · intro j other
      rw [resting]
      exact lookup_hitMap_ne _ _ _ other

theorem PaperExecution.Candidates.mem {p : PaperExecution G} {book : OrderBook}
    {cs : List (OrderId × RestingOrder)} (h : p.Candidates book cs) {c : OrderId × RestingOrder} :
    c ∈ cs ↔ p.resting.lookup c.1 = some c.2 ∧ c.2.request.tokenId = book.tokenId := by
  rw [List.Perm.mem_iff h, List.mem_map]
  constructor
  · rintro ⟨e, listed, rfl⟩
    obtain ⟨entry, token⟩ := List.mem_filter.mp listed
    exact ⟨AList.mem_entries_iff.mp entry, of_decide_eq_true token⟩
  · rintro ⟨held, token⟩
    refine ⟨⟨c.1, c.2⟩, List.mem_filter.mpr ⟨?_, decide_eq_true token⟩, rfl⟩
    exact AList.mem_entries_iff.mpr held

theorem PaperExecution.Candidates.nodup {p : PaperExecution G} {book : OrderBook}
    {cs : List (OrderId × RestingOrder)} (h : p.Candidates book cs) : cs.Nodup :=
  h.held.2.of_map

/-- What a pass over the candidates leaves, in terms of what each of them got. -/
structure Passed (p q : PaperExecution G) (cs : List (OrderId × RestingOrder))
    (outcomes : List ((OrderId × RestingOrder) × Option Hit)) : Prop where
  params : q.params = p.params
  after : ∀ x ∈ outcomes, q.resting.lookup x.1.1 = x.1.2.after x.2
  others : ∀ id, id ∉ cs.map Prod.fst → q.resting.lookup id = p.resting.lookup id

theorem PaperExecution.hits_spec (rng : Rng G) (book : OrderBook) (now : DateTime)
    (cs : List (OrderId × RestingOrder)) (p : PaperExecution G) (fills : List Fill)
    (held : ∀ c ∈ cs, p.resting.lookup c.1 = some c.2) (nodup : (cs.map Prod.fst).Nodup) :
    Passed p (cs.foldl (hitResting rng book now) (p, fills)).1 cs
        (runAll (hitOf rng book p.params) cs p.rng).1 ∧
      (cs.foldl (hitResting rng book now) (p, fills)).1.rng =
        (runAll (hitOf rng book p.params) cs p.rng).2 ∧
      (cs.foldl (hitResting rng book now) (p, fills)).2.map Fill.content =
        fills.map Fill.content ++ contents (runAll (hitOf rng book p.params) cs p.rng).1 := by
  induction cs generalizing p fills with
  | nil =>
    refine ⟨⟨rfl, ?_, fun _ _ => rfl⟩, rfl, by simp [contents, runAll]⟩
    intro x mem
    cases mem
  | cons c cs ih =>
    have first := held c List.mem_cons_self
    obtain ⟨q, fills', eq, params, state, content, here, others⟩ :=
      p.hitResting_spec rng book now fills first
    rw [List.map_cons, List.nodup_cons] at nodup
    have later : ∀ d ∈ cs, q.resting.lookup d.1 = some d.2 := by
      intro d mem
      have other : d.1 ≠ c.1 := fun same => nodup.1 (List.mem_map.mpr ⟨d, mem, same⟩)
      rw [others d.1 other]
      exact held d (List.mem_cons_of_mem _ mem)
    obtain ⟨passed, state', content'⟩ := ih q fills' later nodup.2
    rw [params, state] at passed state' content'
    rw [List.foldl_cons, eq, runAll_cons]
    refine ⟨⟨passed.params.trans params, ?_, ?_⟩, state', ?_⟩
    · intro x mem
      rcases List.mem_cons.mp mem with rfl | mem
      · rw [passed.others c.1 nodup.1]
        exact here
      · exact passed.after x mem
    · intro id absent
      rw [List.map_cons, List.mem_cons, not_or] at absent
      rw [passed.others id absent.2, others id absent.1]
    · rw [content', content, List.append_assoc]
      congr 1
      simp only [contents]
      rw [← List.filterMap_append, List.singleton_append]

/-- A book update is a pass over its candidates, and leaves the rest of the venue alone. -/
theorem PaperExecution.onBookUpdate_spec (rng : Rng G) {p : PaperExecution G}
    {book : OrderBook} {cs : List (OrderId × RestingOrder)}
    (candidates : p.Candidates book cs) (now : DateTime) :
    Passed p (p.onBookUpdate rng book cs now).2 cs
        (runAll (hitOf rng book p.params) cs p.rng).1 ∧
      (p.onBookUpdate rng book cs now).2.rng = (runAll (hitOf rng book p.params) cs p.rng).2 ∧
      (p.onBookUpdate rng book cs now).1.map Fill.content =
        contents (runAll (hitOf rng book p.params) cs p.rng).1 := by
  obtain ⟨⟨params, after, others⟩, state, content⟩ := hits_spec rng book now cs p []
    candidates.held.1 candidates.held.2
  exact ⟨⟨params, after, others⟩, state, content⟩

/-- What a book update does not touch. -/
theorem PaperExecution.onBookUpdate_frame (rng : Rng G) {p : PaperExecution G}
    {book : OrderBook} {cs : List (OrderId × RestingOrder)}
    (candidates : p.Candidates book cs) (now : DateTime) :
    (p.onBookUpdate rng book cs now).2.books = p.books ∧
      (p.onBookUpdate rng book cs now).2.latencyMs = p.latencyMs ∧
      (p.onBookUpdate rng book cs now).2.latencyJitterMs = p.latencyJitterMs ∧
      (p.onBookUpdate rng book cs now).2.seq = p.seq ∧
      (p.onBookUpdate rng book cs now).2.pendingFills =
        p.pendingFills ++ (p.onBookUpdate rng book cs now).1 := by
  let P : PaperExecution G → List Fill → Prop := fun q _ => q.books = p.books ∧
    q.latencyMs = p.latencyMs ∧ q.latencyJitterMs = p.latencyJitterMs ∧ q.seq = p.seq ∧
    q.pendingFills = p.pendingFills
  have start : P p [] := ⟨rfl, rfl, rfl, rfl, rfl⟩
  have frame : P (cs.foldl (hitResting rng book now) (p, [])).1
      (cs.foldl (hitResting rng book now) (p, [])).2 :=
    hits_keep rng book now (fun _ _ _ h => h) (fun _ _ _ _ _ _ _ h _ _ _ => h) cs
      candidates.held.1 candidates.held.2 start
  obtain ⟨books, latencyMs, latencyJitterMs, seq, pending⟩ := frame
  refine ⟨books, latencyMs, latencyJitterMs, seq, ?_⟩
  unfold onBookUpdate
  simp only [pending]

end Pass

end CopyTrading
