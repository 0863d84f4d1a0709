import CopyTrading.RestingMatch

namespace CopyTrading

variable {G : Type} {rng : Rng G} {kinds : Operands → Prop} [DecidablePred kinds]
  {E : AList.Enumeration TokenId Position} {s s' : PaperSession G}

/-- A submitted order that the venue answers where no quantity has to be rounded: it is refused,
it rests, or one fill is made. -/
inductive Answered (rng : Rng G) (kinds : Operands → Prop) [DecidablePred kinds]
    (E : AList.Enumeration TokenId Position) (s s' : PaperSession G) (o o' : Order)
    (outcomeName : String) : Prop
  | refused (resting : s'.paper.resting = s.paper.resting)
      (positions : s'.paper.positions = s.paper.positions)
      (closed : o'.state = .rejected) (filled : o'.filledQty = o.filledQty)
      (fees : o'.feesPaid = o.feesPaid) (portfolio : s'.portfolio = s.portfolio)
  | rested (resting : s'.paper.resting =
        s.paper.resting.insert o.request.orderId ⟨o.request, o.request.quantity⟩)
      (positions : s'.paper.positions = s.paper.positions)
      (state : o'.state = .acknowledged) (filled : o'.filledQty = o.filledQty)
      (fees : o'.feesPaid = o.feesPaid) (portfolio : s'.portfolio = s.portfolio)
  | filled (p : Order) (f : Fill) (book : OrderBook) (isMaker : Bool) (g : G)
      (request : p.request = o.request) (unfilled : p.filledQty = o.filledQty)
      (unpaid : p.feesPaid = o.feesPaid)
      (fill : FillOf o.request f) (fits : f.quantity.get ≤ o.request.quantity.get)
      (cached : s.paper.books.get o.request.tokenId = some book)
      (matched : (Calc.matchOrder rng o.request book s.paper.params
        (s.paper.simulateLatency rng).rng).run (Calc.guarded kinds) =
          some (.filled f.quantity f.price f.fee isMaker, g))
      (took : Calc.Took kinds p f o')
      (positions : s'.paper.positions = s.paper.positions.upsert o.request.tokenId 0
        (· + o.request.side.sign * f.quantity.get))
      (resting : s'.paper.resting =
        if f.quantity.get < o.request.quantity.get ∧ o.request.timeInForce = .gtc then
          s.paper.resting.insert o.request.orderId
            ⟨o.request, o.request.quantity.saturatingSub f.quantity⟩
        else s.paper.resting)
      (booked : ∃ gain booked q, Calc.Portfolio.FilledBy (Calc.guarded kinds) E s.portfolio f
        outcomeName gain booked q s'.portfolio)

/-- An acknowledgement with one fill that the order has room for books that fill. -/
theorem Calc.acknowledge_single (exact_ : kinds .sizes) {o o' : Order} {ack : Acknowledgement}
    {f : Fill} {now : DateTime} {fills : List Fill} (sent : o.state = .submitted)
    (one : ack.immediateFills = [f]) (fits : f.quantity.get ≤ o.remaining.get)
    (h : (Calc.acknowledge o ack now).run (Calc.guarded kinds) = some (o', fills)) :
    Calc.Took kinds (o.acked ack now) f o' ∧ fills = [f] := by
  rw [Calc.acknowledge_eq sent, one, List.foldlM_cons, Calculation.run_bind] at h
  obtain ⟨acc, receives, h⟩ := Option.bind_eq_some_iff.mp h
  cases h
  rcases Calc.receiveFill_guarded exact_ receives with ⟨took, taken⟩ | ⟨refused, _⟩
  · exact ⟨took, taken⟩
  · exact absurd ⟨rfl, fits⟩ refused

theorem Calc.Portfolio.bookFills_single {machine : Operands → Decimal → Option Decimal}
    {p p' : Portfolio} {f : Fill} {outcomeName : String}
    (h : (bookFills E p outcomeName [f]).run machine = some p') :
    ∃ gain booked q, FilledBy machine E p f outcomeName gain booked q p' := by
  unfold bookFills at h
  simp only [List.foldlM_cons, List.foldlM_nil, Calculation.run_bind] at h
  obtain ⟨_, turn, same⟩ := Option.bind_eq_some_iff.mp h
  cases same
  obtain ⟨⟨q, _⟩, applies, same⟩ := Option.bind_eq_some_iff.mp turn
  cases same
  obtain ⟨gain, booked, filled⟩ := applyFill_run applies
  exact ⟨gain, booked, q, filled⟩

/-- A submission that does not start changes nothing; one that starts writes its order. -/
theorem PaperSession.submit_cases (exact_ : kinds .sizes) (h : OrdersMatch s.paper s.orders [])
    {id : OrderId} {outcomeName : String} {now at_ : DateTime}
    (ran : (Calc.PaperSession.submit rng E s id outcomeName now at_).run (Calc.guarded kinds) =
      some s') :
    s' = s ∨
    ∃ o o', s.orders.get id = some o ∧ o.state = .validated ∧ o'.request = o.request ∧
      s'.orders.orders = s.orders.orders.insert id o' ∧
      Answered rng kinds E s s' o o' outcomeName := by
  unfold Calc.PaperSession.submit at ran
  cases begin_ : s.orders.submitBegin id now with
  | error outcome =>
    rw [begin_] at ran
    cases ran
    exact .inl rfl
  | ok started =>
    obtain ⟨sent, om⟩ := started
    rw [begin_] at ran
    obtain ⟨o, stored, validated, rfl, begun⟩ := OrderManager.submitBegin_ok begin_
    have key : (o.sent now).id = id := h.ids id o stored
    simp only [Calculation.run_bind] at ran
    obtain ⟨⟨response, paper⟩, answers, ran⟩ := Option.bind_eq_some_iff.mp ran
    obtain ⟨⟨outcome, om'⟩, finishes, ran⟩ := Option.bind_eq_some_iff.mp ran
    obtain ⟨portfolio, books, ran⟩ := Option.bind_eq_some_iff.mp ran
    cases ran
    have written := Calc.submitFinish_run exact_ finishes
    simp only at answers books
    refine .inr ⟨o, ?_⟩
    rcases Calc.PaperExecution.submit_guarded exact_ answers with ⟨e, g, definite, rfl, rfl⟩ |
      ⟨ack, g, n, none, rfl, rfl⟩ |
      ⟨ack, f, g, n, m, book, isMaker, fill, fits, one, cached, matched, rfl, rfl⟩
    · obtain ⟨orders, nothing⟩ := written
      obtain ⟨state, filled, fees⟩ := o.answered_error e now at_
      rw [definite] at state
      rw [nothing] at books
      cases books
      rw [begun, key, AList.insert_insert] at orders
      exact ⟨(o.sent now).answered (.error e) at_, stored, validated,
        (o.sent now).answered_request (.error e) at_, orders,
        .refused rfl rfl state filled fees rfl⟩
    · obtain ⟨o', fills, acks, orders, applied⟩ := written
      rw [Calc.acknowledge_eq rfl, none] at acks
      cases acks
      rw [applied] at books
      cases books
      rw [begun, key, AList.insert_insert] at orders
      exact ⟨(o.sent now).acked ack at_, stored, validated, rfl, orders,
        .rested rfl rfl rfl rfl rfl rfl⟩
    · obtain ⟨o', fills, acks, orders, applied⟩ := written
      have room : f.quantity.get ≤ (o.sent now).remaining.get := by
        show f.quantity.get ≤ o.remaining.get
        rw [Order.remaining_of_unfilled (h.unsent id o stored validated).1]
        exact fits
      obtain ⟨took, rfl⟩ := Calc.acknowledge_single exact_ rfl one room acks
      rw [applied] at books
      have booked := Calc.Portfolio.bookFills_single books
      rw [begun, key, AList.insert_insert] at orders
      exact ⟨o', stored, validated, took.request, orders,
        .filled ((o.sent now).acked ack at_) f book isMaker g rfl rfl rfl fill fits cached matched
          took rfl rfl booked⟩

variable (rng) in
/-- A cancellation of an order that is not working changes nothing; one of a working order takes
it off the venue and closes it. -/
theorem PaperSession.cancel_cases (h : OrdersMatch s.paper s.orders []) (id : OrderId)
    (now at_ : DateTime) :
    s.cancel rng id now at_ = s ∨
    ∃ o g, s.orders.get id = some o ∧ o.state.Working ∧
      (s.cancel rng id now at_).orders.orders =
        s.orders.orders.insert id { o with state := .cancelled, updatedAt := at_ } ∧
      (s.cancel rng id now at_).paper =
        { s.paper with rng := g, resting := s.paper.resting.erase id } ∧
      (s.cancel rng id now at_).portfolio = s.portfolio := by
  by_cases idle : ∀ o, s.orders.get id = some o → ¬o.state.Working
  · left
    have same :=
      OrderManager.cancel_of_not_working (paperAdapter rng at_) s.paper now at_ idle
    unfold cancel
    simp only [same]
  · right
    push Not at idle
    obtain ⟨o, stored, working⟩ := idle
    obtain ⟨venue, gone, _⟩ := OrderManager.cancel_of_working (paperAdapter rng at_) s.paper now
      at_ stored working (h.ids id o stored)
    have paper : (s.cancel rng id now at_).paper =
      (s.orders.cancel (paperAdapter rng at_) s.paper id now at_).2.2 := rfl
    have answer : (paperAdapter rng at_).cancel s.paper id o.venueOrderId =
      s.paper.cancel rng id := rfl
    rw [venue, answer] at paper
    rw [answer] at gone
    rcases s.paper.cancel_cases rng id with ⟨g, r, _, eq⟩ | ⟨g, none, eq⟩
    · rw [eq] at paper gone
      exact ⟨o, g, stored, working, gone trivial, paper, rfl⟩
    · rw [eq] at paper gone
      refine ⟨o, g, stored, working, gone trivial, ?_, rfl⟩
      rw [paper, AList.erase_of_lookup_none none]

theorem OrdersMatch.submit (exact_ : kinds .sizes) (h : OrdersMatch s.paper s.orders [])
    {id : OrderId} {outcomeName : String} {now at_ : DateTime}
    (ran : (Calc.PaperSession.submit rng E s id outcomeName now at_).run (Calc.guarded kinds) =
      some s') : OrdersMatch s'.paper s'.orders [] := by
  rcases PaperSession.submit_cases exact_ h ran with rfl |
    ⟨o, o', stored, validated, request, orders, answered⟩
  · exact h
  · have key : o'.id = id := (Order.id_of_request request).trans (h.ids id o stored)
    obtain ⟨unfilled, some_⟩ := h.unsent id o stored validated
    have none : s.paper.resting.lookup id = none := by
      apply h.not_resting
      intro p hp working
      cases stored.symm.trans hp
      rw [validated] at working
      rcases working with eq | eq <;> cases eq
    have place : o.request.orderId = id := h.ids id o stored
    cases answered with
    | refused resting _ closed =>
      refine h.update key orders ?_ ?_ ?_
      · intro v
        rw [closed] at v
        cases v
      · intro j _
        rw [resting]
      · intro r here
        rw [resting, none] at here
        cases here
    | rested resting _ state filled =>
      refine h.update key orders ?_ ?_ ?_
      · intro v
        rw [state] at v
        cases v
      · intro j other
        rw [resting, place]
        exact AList.lookup_insert_ne other
      · intro r here
        rw [resting, place, AList.lookup_insert] at here
        cases here
        refine ⟨some_, request, .inl state, ?_⟩
        rw [Order.remaining_of_unfilled (filled.trans unfilled), request]
    | filled p f _ _ _ before unfilled' _ fill fits _ _ took _ resting =>
      have left : o'.remaining.get = o.request.quantity.get - f.quantity.get := by
        rw [took.remaining, Order.remaining_of_unfilled (unfilled'.trans unfilled), before]
      refine h.update key orders ?_ ?_ ?_
      · intro v
        rw [took.state] at v
        split at v <;> cases v
      · intro j other
        rw [resting, place]
        split
        · exact AList.lookup_insert_ne other
        · rfl
      · intro r here
        rw [resting, place] at here
        split at here
        next rests =>
          rw [AList.lookup_insert] at here
          cases here
          have same : (o.request.quantity.saturatingSub f.quantity).get = o'.remaining.get := by
            rw [left, Qty.saturatingSub_get fits]
          have some_ : 0 < o'.remaining.get := by
            rw [left]
            linarith [rests.1]
          exact ⟨some_.trans_eq same.symm, request, took.working some_, same.symm⟩
        next => rw [none] at here; cases here

theorem OrdersMatch.cancel (h : OrdersMatch s.paper s.orders [])
    (id : OrderId) (now at_ : DateTime) :
    OrdersMatch (s.cancel rng id now at_).paper (s.cancel rng id now at_).orders [] := by
  rcases PaperSession.cancel_cases rng h id now at_ with same |
    ⟨o, g, stored, _, orders, paper, _⟩
  · rw [same]
    exact h
  · have key := h.ids id o stored
    rw [paper]
    have closed : Order.id { o with state := .cancelled, updatedAt := at_ } = id := key
    refine h.update closed orders (by intro v; cases v) ?_ ?_
    · intro j other
      exact AList.lookup_erase_ne other
    · intro r here
      rw [AList.lookup_erase] at here
      cases here

theorem OrdersMatch.register {om : OrderManager} {req : OrderRequest}
    {latency : LatencyStamps} {now : DateTime} {id : OrderId}
    (h : OrdersMatch s.paper s.orders []) (fresh : s.orders.get req.orderId = none)
    (registered : s.orders.registerValidated req latency now = .ok (id, om)) :
    OrdersMatch s.paper om [] := by
  obtain ⟨o, key, request, _, unfilled, _, _, some_, rfl, _⟩ :=
    OrderManager.registerValidated_ok registered
  have none : s.paper.resting.lookup req.orderId = none :=
    h.not_resting fun o held => by rw [fresh] at held; cases held
  have orders := s.orders.store_orders o
  rw [key] at orders
  refine h.update key orders ?_ (fun _ _ => rfl) ?_
  · intro _
    rw [request]
    exact ⟨unfilled, some_⟩
  · intro r here
    rw [none] at here
    cases here

/-- A book update hands every fill the venue makes to the order manager. -/
theorem OrdersMatch.bookUpdate (exact_ : kinds .sizes) {P : PaperSession G → List Fill → Prop}
    (keep : ∀ s f ahead s', OrdersMatch s.paper s.orders (f :: ahead) → P s (f :: ahead) →
      (Calc.PaperSession.settle E s f).run (Calc.guarded kinds) = some s' → P s' ahead)
    {book : OrderBook} {cs : List (OrderId × RestingOrder)} {now : DateTime}
    (h : OrdersMatch s.paper s.orders []) (candidates : s.paper.Candidates book cs)
    (start : ∀ portfolio paper fills,
      (Calc.PaperSession.markBook E s.portfolio book now).run (Calc.guarded kinds) =
        some portfolio →
      (Calc.PaperExecution.onBookUpdate rng s.paper book cs now).run (Calc.guarded kinds) =
        some (fills, paper) → P ⟨paper, s.orders, portfolio⟩ fills)
    (ran : (Calc.PaperSession.bookUpdate rng E s book cs now).run (Calc.guarded kinds) =
      some s') : ∃ t, OrdersMatch t.paper t.orders [] ∧ P t [] ∧ s' = t.cacheBook book := by
  unfold Calc.PaperSession.bookUpdate at ran
  simp only [Calculation.run_bind] at ran
  obtain ⟨portfolio, marks, ran⟩ := Option.bind_eq_some_iff.mp ran
  obtain ⟨⟨fills, paper⟩, hits, ran⟩ := Option.bind_eq_some_iff.mp ran
  obtain ⟨t, settles, ran⟩ := Option.bind_eq_some_iff.mp ran
  cases ran
  obtain ⟨orders, holds⟩ := settle_all (s := ⟨paper, s.orders, portfolio⟩) exact_ keep
    (h.hits exact_ candidates hits) (start portfolio paper fills marks hits) settles
  exact ⟨t, orders, holds, rfl⟩

/-- A generator that cuts the first two fills it is asked for, and no other. -/
def Rng.cutsTwice : Rng Nat where
  unit n := (if n < 7 then 1 / 2 else 0, n + 1)
  fraction n :=
    (if n = 3 then ⟨701459062351922 / 10 ^ 15, by norm_num, by norm_num⟩
      else ⟨459660240743032 / 10 ^ 15, by norm_num, by norm_num⟩, n + 1)
  upTo n g := (n / 2, g + 1)

def OrderBook.thirty : OrderBook := { OrderBook.sample with asks := [⟨.half, .whole 30⟩] }

/-- A buy of 30 that rests is hit for 21.04377187055766 and for 4.1168219781289811700374007749 of
them, and then for the rest. -/
def restAndCut : List SessionEvent :=
  [.fetchBook { OrderBook.sample with asks := [] }, .register (.sample .gtc) (.begin 0) 0,
    .submit ⟨0⟩ "Yes" 0 0, .bookUpdate .thirty [(⟨0⟩, ⟨.sample .gtc, .whole 30⟩)] 0,
    .bookUpdate .thirty [(⟨0⟩, ⟨.sample .gtc, ⟨895622812944234 / 10 ^ 14, by norm_num⟩⟩)] 0,
    .bookUpdate .thirty [(⟨0⟩,
      ⟨.sample .gtc, ⟨48394061513133588299625992251 / 10 ^ 28, by norm_num⟩⟩)] 0]

/-- Queue risk takes a share of three fills in four. -/
def MatchParams.risky : MatchParams := { MatchParams.plain with fillProbability := 1 / 4 }

end CopyTrading
