import CopyTrading.CalcMatching
import CopyTrading.CalcOrderManager
import CopyTrading.CalcPortfolio
import CopyTrading.PaperSession

namespace CopyTrading

namespace Calc

def OrderBook.mid (b : OrderBook) : Calc (Option Price) :=
  match b.bestBid, b.bestAsk with
  | some bid, some ask => do
    let sum ← op (bid.price.get + ask.price.get)
    let half ← op (sum / 2)
    pure (Price.ofDecimal? half)
  | _, _ => pure none

variable {G : Type} (rng : Rng G)

namespace PaperExecution

/-- Multiplying by the sign of a side is exact. -/
def recordFill (p : PaperExecution G) (o : OrderRequest) (qty : Qty) (price : Price) (fee : Usd)
    (isMaker : Bool) (now : DateTime) : Calc (Fill × PaperExecution G) := do
  let held ← sizes (p.position o.tokenId + o.side.sign * qty.get)
  let (f, recorded) := p.recordFill o qty price fee isMaker now
  pure (f, { recorded with positions := p.positions.insert o.tokenId held })

def hitResting (book : OrderBook) (now : DateTime) (acc : PaperExecution G × List Fill)
    (c : OrderId × RestingOrder) : Calc (PaperExecution G × List Fill) :=
  let p := acc.1
  if !isMarketable c.2.request book then pure acc
  else do
    let probe := { c.2.request with quantity := c.2.remaining }
    match ← matchOrder rng probe book p.params p.rng with
    | (.filled quantity price fee _, g) =>
      -- a resting order that gets hit was providing liquidity
      let (f, p) ← recordFill { p with rng := g } c.2.request quantity price fee true now
      let left ← saturatingSub c.2.remaining quantity
      pure ({ p with resting :=
          if left.isZero then p.resting.erase c.1
          else if (p.resting.lookup c.1).isSome then
            p.resting.insert c.1 { c.2 with remaining := left }
          else p.resting },
        acc.2 ++ [f])
    | (_, g) => pure ({ p with rng := g }, acc.2)

def onBookUpdate (p : PaperExecution G) (book : OrderBook) (cs : List (OrderId × RestingOrder))
    (now : DateTime) : Calc (List Fill × PaperExecution G) := do
  let (p, fills) ← cs.foldlM (hitResting rng book now) (p, [])
  pure (fills, { p with pendingFills := p.pendingFills ++ fills })

/-- The remainder of a good-til-cancelled order rests, as it would at the venue. -/
def restRemainder (resting : AList fun _ : OrderId => RestingOrder) (order : OrderRequest)
    (quantity : Qty) : Calc (AList fun _ : OrderId => RestingOrder) :=
  let complete := quantity.get ≥ order.quantity.get
  if ¬complete ∧ order.timeInForce = .gtc then do
    let left ← saturatingSub order.quantity quantity
    pure (resting.insert order.orderId ⟨order, left⟩)
  else pure resting

def submit (p : PaperExecution G) (order : OrderRequest) (now : DateTime) :
    Calc (Except ExecutionError Acknowledgement × PaperExecution G) :=
  let p := p.simulateLatency rng
  match p.books.get order.tokenId with
  | none =>
    pure (.error (.notReady ("no order book cached for token " ++ order.tokenId.asStr)), p)
  | some book => do
    match ← matchOrder rng order book p.params p.rng with
    | (.rejected reason, g) => pure (.error (.rejected reason), { p with rng := g })
    | (.noLiquidity, g) =>
      pure (.error (.rejected "insufficient liquidity within limit price"), { p with rng := g })
    | (.resting, g) =>
      let (venueId, p) := CopyTrading.PaperExecution.nextVenueId { p with
        rng := g
        resting := p.resting.insert order.orderId ⟨order, order.quantity⟩ }
      pure (.ok ⟨order.orderId, some venueId, now, [], false⟩, p)
    | (.filled quantity price fee isMaker, g) =>
      let (fill, p) ← recordFill { p with rng := g } order quantity price fee isMaker now
      let complete := quantity.get ≥ order.quantity.get
      let resting ← restRemainder p.resting order quantity
      let (venueId, p) := CopyTrading.PaperExecution.nextVenueId { p with resting := resting }
      pure (.ok ⟨order.orderId, some venueId, now, [fill],
        complete ∨ order.timeInForce ≠ .gtc⟩, p)

end PaperExecution

namespace PaperSession

variable (E : AList.Enumeration TokenId Position)

def markBook (p : Portfolio) (book : OrderBook) (now : DateTime) : Calc Portfolio := do
  match ← OrderBook.mid book with
  | some mid => Portfolio.mark E p book.tokenId mid now
  | none => pure p

def settle (s : PaperSession G) (f : Fill) : Calc (PaperSession G) := do
  match ← applyExternalFill s.orders f with
  | .ok orders =>
    let (_, portfolio) ← Portfolio.applyFill E s.portfolio f ""
    pure { s with orders := orders, portfolio := portfolio }
  | .error _ => pure s

def bookUpdate (s : PaperSession G) (book : OrderBook) (cs : List (OrderId × RestingOrder))
    (now : DateTime) : Calc (PaperSession G) := do
  let portfolio ← markBook E s.portfolio book now
  let (fills, paper) ← PaperExecution.onBookUpdate rng s.paper book cs now
  let s ← fills.foldlM (settle E) ⟨paper, s.orders, portfolio⟩
  pure (s.cacheBook book)

def submit (s : PaperSession G) (id : OrderId) (outcomeName : String) (now at_ : DateTime) :
    Calc (PaperSession G) :=
  match s.orders.submitBegin id now with
  | .error _ => pure s
  | .ok (order, om) => do
    let (response, paper) ← PaperExecution.submit rng s.paper order.request at_
    let (outcome, om) ← submitFinish om order response at_
    let portfolio ← Portfolio.bookFills E s.portfolio outcomeName outcome.fills
    pure ⟨paper, om, portfolio⟩

/-- What an event computes, where it can take place. -/
def eval (s : PaperSession G) : SessionEvent → Option (Calc (PaperSession G))
  | .submit id outcomeName now at_ => some (submit rng E s id outcomeName now at_)
  | .bookUpdate book cs now =>
    if s.paper.Candidates book cs then some (bookUpdate rng E s book cs now) else none
  -- the others have no sum to round
  | e => (s.step rng e).map pure

def step (s : PaperSession G) (e : SessionEvent) : Option (PaperSession G) :=
  (eval rng E s e).bind (Calculation.run rounded)

/-- The event rounds no result of these kinds. -/
def Exact (kinds : Operands → Prop) (s : PaperSession G) (e : SessionEvent) : Prop :=
  ∀ p ∈ eval rng E s e, p.Keeps kinds

instance (kinds : Operands → Prop) [DecidablePred kinds] (s : PaperSession G) (e : SessionEvent) :
    Decidable (Exact rng E kinds s e) :=
  inferInstanceAs (Decidable (∀ p ∈ eval rng E s e, p.Keeps kinds))

end PaperSession

section Guarded

variable {rng} {kinds : Operands → Prop} [DecidablePred kinds] {p p' : PaperExecution G}

theorem PaperExecution.recordFill_guarded (exact_ : kinds .sizes) {o : OrderRequest} {qty : Qty}
    {price : Price} {fee : Usd} {isMaker : Bool} {now : DateTime} {f : Fill}
    (h : (recordFill p o qty price fee isMaker now).run (guarded kinds) = some (f, p')) :
    (f, p') = p.recordFill o qty price fee isMaker now := by
  unfold recordFill at h
  rw [Calculation.run_bind] at h
  obtain ⟨held, adds, h⟩ := Option.bind_eq_some_iff.mp h
  cases h
  rw [sizes_guarded exact_ adds]
  rfl

theorem PaperExecution.restRemainder_guarded (exact_ : kinds .sizes)
    {resting resting' : AList fun _ : OrderId => RestingOrder} {order : OrderRequest}
    {quantity : Qty}
    (h : (restRemainder resting order quantity).run (guarded kinds) = some resting') :
    resting' = if quantity.get < order.quantity.get ∧ order.timeInForce = .gtc then
      resting.insert order.orderId ⟨order, order.quantity.saturatingSub quantity⟩ else resting := by
  unfold restRemainder at h
  simp only [ge_iff_le, not_le] at h
  split at h
  next partial_ =>
    rw [Calculation.run_bind] at h
    obtain ⟨left, subtracts, h⟩ := Option.bind_eq_some_iff.mp h
    cases h
    rw [if_pos partial_, (saturatingSub_guarded exact_ subtracts).1]
  next whole =>
    cases h
    exact (if_neg whole).symm

/-- The three ways a submission ends where no quantity has to be rounded: refused, resting in
full, or filled. -/
theorem PaperExecution.submit_guarded (exact_ : kinds .sizes) {order : OrderRequest}
    {now : DateTime} {response : Except ExecutionError Acknowledgement}
    (h : (submit rng p order now).run (guarded kinds) = some (response, p')) :
    (∃ e g, e.requiresReconciliation = false ∧ response = .error e ∧ p' = { p with rng := g }) ∨
    (∃ ack g n, ack.immediateFills = [] ∧ response = .ok ack ∧ p' = { p with
        rng := g
        seq := n
        resting := p.resting.insert order.orderId ⟨order, order.quantity⟩ }) ∨
    (∃ ack f g n m book isMaker, FillOf order f ∧ f.quantity.get ≤ order.quantity.get ∧
      ack.immediateFills = [f] ∧ p.books.get order.tokenId = some book ∧
      (matchOrder rng order book p.params (p.simulateLatency rng).rng).run (guarded kinds) =
        some (.filled f.quantity f.price f.fee isMaker, g) ∧
      response = .ok ack ∧ p' = { p with
        rng := g
        seq := n
        nextFillId := m
        positions := p.positions.upsert order.tokenId 0 (· + order.side.sign * f.quantity.get)
        resting :=
          if f.quantity.get < order.quantity.get ∧ order.timeInForce = .gtc then
            p.resting.insert order.orderId ⟨order, order.quantity.saturatingSub f.quantity⟩
          else p.resting }) := by
  obtain ⟨g₀, latency⟩ := p.simulateLatency_eq rng
  unfold submit at h
  simp only [latency] at h ⊢
  cases cached : p.books.get order.tokenId with
  | none =>
    simp only [cached] at h
    cases h
    exact .inl ⟨_, g₀, rfl, rfl, rfl⟩
  | some book =>
    simp only [cached] at h
    rw [Calculation.run_bind] at h
    obtain ⟨⟨outcome, g⟩, matched, h⟩ := Option.bind_eq_some_iff.mp h
    cases outcome with
    | rejected reason =>
      cases h
      exact .inl ⟨_, g, rfl, rfl, rfl⟩
    | noLiquidity =>
      cases h
      exact .inl ⟨_, g, rfl, rfl, rfl⟩
    | resting =>
      cases h
      exact .inr (.inl ⟨_, g, _, rfl, rfl, rfl⟩)
    | filled quantity price fee isMaker =>
      obtain ⟨vwap, available, by_⟩ := matchOrder_filled matched
      obtain ⟨pos, within⟩ := by_.bounds exact_
      simp only [Calculation.run_bind] at h
      obtain ⟨⟨f, recorded⟩, records, h⟩ := Option.bind_eq_some_iff.mp h
      obtain ⟨resting, rests, h⟩ := Option.bind_eq_some_iff.mp h
      cases h
      cases recordFill_guarded exact_ records
      rw [restRemainder_guarded exact_ rests]
      exact .inr (.inr ⟨_, _, g, _, _, book, isMaker, ⟨rfl, rfl, rfl, pos⟩, within, rfl, rfl,
        matched, rfl, rfl⟩)

/-- A resting order is either left alone or filled within what remains of it. -/
theorem PaperExecution.hitResting_guarded (exact_ : kinds .sizes) {book : OrderBook}
    {now : DateTime} {fills : List Fill} {id : OrderId} {r : RestingOrder}
    {acc : PaperExecution G × List Fill}
    (h : (hitResting rng book now (p, fills) (id, r)).run (guarded kinds) = some acc) :
    (∃ g, acc = ({ p with rng := g }, fills)) ∨
    (∃ f g n, FillOf r.request f ∧ f.quantity.get ≤ r.remaining.get ∧ acc = ({ p with
        rng := g
        nextFillId := n
        positions := p.positions.upsert r.request.tokenId 0
          (· + r.request.side.sign * f.quantity.get)
        resting := hitMap p.resting id r f.quantity }, fills ++ [f])) := by
  unfold hitResting at h
  simp only at h
  split at h
  next =>
    cases h
    exact .inl ⟨p.rng, rfl⟩
  next =>
    rw [Calculation.run_bind] at h
    obtain ⟨⟨outcome, g⟩, matched, h⟩ := Option.bind_eq_some_iff.mp h
    cases outcome with
    | rejected reason =>
      cases h
      exact .inl ⟨g, rfl⟩
    | noLiquidity =>
      cases h
      exact .inl ⟨g, rfl⟩
    | resting =>
      cases h
      exact .inl ⟨g, rfl⟩
    | filled quantity price fee isMaker =>
      obtain ⟨vwap, available, by_⟩ := matchOrder_filled matched
      obtain ⟨pos, within⟩ := by_.bounds exact_
      simp only [Calculation.run_bind] at h
      obtain ⟨⟨f, recorded⟩, records, h⟩ := Option.bind_eq_some_iff.mp h
      obtain ⟨left, subtracts, h⟩ := Option.bind_eq_some_iff.mp h
      cases h
      cases recordFill_guarded exact_ records
      rw [(saturatingSub_guarded exact_ subtracts).1]
      exact .inr ⟨(CopyTrading.PaperExecution.recordFill { p with rng := g } r.request quantity
        price fee true now).1, g, _, ⟨rfl, rfl, rfl, pos⟩, within, rfl⟩

/-- What every miss and every hit keep, a pass over the candidates keeps. -/
theorem PaperExecution.hits_keep (exact_ : kinds .sizes)
    {P : PaperExecution G → List Fill → Prop} {book : OrderBook} {now : DateTime}
    (miss : ∀ p g fills, P p fills → P { p with rng := g } fills)
    (hit : ∀ p fills id r f g n, P p fills → p.resting.lookup id = some r → FillOf r.request f →
      f.quantity.get ≤ r.remaining.get → P { p with
        rng := g
        nextFillId := n
        positions := p.positions.upsert r.request.tokenId 0
          (· + r.request.side.sign * f.quantity.get)
        resting := hitMap p.resting id r f.quantity } (fills ++ [f]))
    {cs : List (OrderId × RestingOrder)} {fills fills' : List Fill}
    (held : ∀ c ∈ cs, p.resting.lookup c.1 = some c.2) (nodup : (cs.map Prod.fst).Nodup)
    (start : P p fills)
    (h : (cs.foldlM (hitResting rng book now) (p, fills)).run (guarded kinds) =
      some (p', fills')) : P p' fills' := by
  induction cs generalizing p fills with
  | nil =>
    cases h
    exact start
  | cons c cs ih =>
    obtain ⟨id, r⟩ := c
    have first := held (id, r) List.mem_cons_self
    have later : ∀ c ∈ cs, p.resting.lookup c.1 = some c.2 :=
      fun c mem => held c (List.mem_cons_of_mem _ mem)
    rw [List.map_cons, List.nodup_cons] at nodup
    rw [List.foldlM_cons, Calculation.run_bind] at h
    obtain ⟨acc, one, h⟩ := Option.bind_eq_some_iff.mp h
    rcases hitResting_guarded exact_ one with ⟨g, rfl⟩ | ⟨f, g, n, fill, fits, rfl⟩
    · exact ih (p := { p with rng := g }) later nodup.2 (miss p g fills start) h
    · refine ih ?_ nodup.2 (hit p fills id r f g n start first fill fits) h
      intro c mem
      have other : c.1 ≠ id := fun same => nodup.1 (List.mem_map.mpr ⟨c, mem, same⟩)
      exact (lookup_hitMap_ne _ _ _ other).trans (later c mem)

/-- So does a whole book update, which keeps the new fills for the next poll. -/
theorem PaperExecution.onBookUpdate_keeps (exact_ : kinds .sizes)
    {P : PaperExecution G → List Fill → Prop} {book : OrderBook} {now : DateTime}
    (miss : ∀ p g fills, P p fills → P { p with rng := g } fills)
    (hit : ∀ p fills id r f g n, P p fills → p.resting.lookup id = some r → FillOf r.request f →
      f.quantity.get ≤ r.remaining.get → P { p with
        rng := g
        nextFillId := n
        positions := p.positions.upsert r.request.tokenId 0
          (· + r.request.side.sign * f.quantity.get)
        resting := hitMap p.resting id r f.quantity } (fills ++ [f]))
    (queued : ∀ p pending fills, P p fills → P { p with pendingFills := pending } fills)
    {cs : List (OrderId × RestingOrder)} (candidates : p.Candidates book cs) (start : P p [])
    {fills : List Fill}
    (h : (onBookUpdate rng p book cs now).run (guarded kinds) = some (fills, p')) :
    P p' fills := by
  unfold onBookUpdate at h
  rw [Calculation.run_bind] at h
  obtain ⟨⟨q, made⟩, hits, h⟩ := Option.bind_eq_some_iff.mp h
  cases h
  exact queued _ _ _ (hits_keep exact_ miss hit candidates.held.1 candidates.held.2 start hits)

variable {E : AList.Enumeration TokenId Position} {s s' : PaperSession G}

theorem PaperSession.markBook_guarded {portfolio portfolio' : Portfolio} {book : OrderBook}
    {now : DateTime} (h : (markBook E portfolio book now).run (guarded kinds) = some portfolio') :
    (∀ t, portfolio'.netQuantity t = portfolio.netQuantity t) ∧
      portfolio'.fees = portfolio.fees := by
  unfold markBook at h
  rw [Calculation.run_bind] at h
  obtain ⟨mid, _, h⟩ := Option.bind_eq_some_iff.mp h
  cases mid with
  | none =>
    cases h
    exact ⟨fun _ => rfl, rfl⟩
  | some mid =>
    refine ⟨Portfolio.mark_netQuantity h, ?_⟩
    rw [(Portfolio.mark_run h).2]

/-- What a step does that rounds nothing of these kinds. -/
theorem PaperSession.step_guarded {e : SessionEvent} (exact_ : Exact rng E kinds s e)
    (taken : step rng E s e = some s') :
    match e with
    | .submit id outcomeName now at_ =>
      (submit rng E s id outcomeName now at_).run (guarded kinds) = some s'
    | .bookUpdate book cs now => s.paper.Candidates book cs ∧
      (bookUpdate rng E s book cs now).run (guarded kinds) = some s'
    | e => s.step rng e = some s' := by
  obtain ⟨p, computes, ran⟩ := Option.bind_eq_some_iff.mp taken
  rw [(exact_ p computes).run] at ran
  cases e with
  | submit id outcomeName now at_ =>
    cases computes
    exact ran
  | bookUpdate book cs now =>
    obtain ⟨candidates, same⟩ := Option.ite_none_right_eq_some.mp computes
    cases same
    exact ⟨candidates, ran⟩
  | register | cancel | fetchBook | paperReset =>
    simp only [eval] at computes
    obtain ⟨t, plain, rfl⟩ := Option.map_eq_some_iff.mp computes
    cases ran
    exact plain

end Guarded

end Calc

end CopyTrading
