import CopyTrading.Matching
import CopyTrading.OrderManager

namespace CopyTrading

structure RestingOrder where
  request : OrderRequest
  remaining : Qty
  deriving DecidableEq

/-- The simulated venue: its view of the books, its generator and what it holds. -/
structure PaperExecution (G : Type) where
  books : BookCache
  params : MatchParams
  latencyMs : Nat
  latencyJitterMs : Nat
  rng : G
  resting : AList fun _ : OrderId => RestingOrder
  positions : AList fun _ : TokenId => Decimal
  pendingFills : List Fill
  seq : Nat
  /-- Supply of the random ids that fills are given. -/
  nextFillId : Nat

section Venue

variable {G : Type} (rng : Rng G)

def PaperExecution.new (books : BookCache) (params : MatchParams) (latencyMs jitterMs : Nat)
    (seeded : G) : PaperExecution G :=
  ⟨books, params, latencyMs, jitterMs, seeded, ∅, ∅, [], 0, 0⟩

def PaperExecution.position (p : PaperExecution G) (t : TokenId) : Decimal :=
  (p.positions.lookup t).getD 0

/-- `PAPER-` and the next sequence number, in twelve digits. -/
def PaperExecution.nextVenueId (p : PaperExecution G) : String × PaperExecution G :=
  let digits := toString (p.seq + 1)
  ("PAPER-" ++ String.ofList (List.replicate (12 - digits.length) '0') ++ digits,
    { p with seq := p.seq + 1 })

/-- The round trip's sleep; only its draw leaves a trace. -/
def PaperExecution.simulateLatency (p : PaperExecution G) : PaperExecution G :=
  if p.latencyJitterMs > 0 then { p with rng := (rng.upTo p.latencyJitterMs p.rng).2 } else p

def PaperExecution.recordFill (p : PaperExecution G) (o : OrderRequest) (qty : Qty)
    (price : Price) (fee : Usd) (isMaker : Bool) (now : DateTime) : Fill × PaperExecution G :=
  ({ fillId := ⟨p.nextFillId⟩
     orderId := o.orderId
     correlationId := o.correlationId
     marketId := o.marketId
     tokenId := o.tokenId
     side := o.side
     quantity := qty
     price := price
     fee := fee
     venueFillId := some ("PAPERFILL-" ++ toString (p.nextFillId + 1))
     isMaker := isMaker
     filledAt := now },
    { p with
      positions := p.positions.upsert o.tokenId 0 (· + o.side.sign * qty.get)
      nextFillId := p.nextFillId + 2 })

/-- One resting order against a new book; the fills so far are carried along. -/
def PaperExecution.hitResting (book : OrderBook) (now : DateTime)
    (acc : PaperExecution G × List Fill) (c : OrderId × RestingOrder) :
    PaperExecution G × List Fill :=
  let p := acc.1
  if !isMarketable c.2.request book then acc
  else
    let probe := { c.2.request with quantity := c.2.remaining }
    match matchOrder rng probe book p.params p.rng with
    | (.filled quantity price fee _, g) =>
      -- a resting order that gets hit was providing liquidity
      let (f, p) := { p with rng := g }.recordFill c.2.request quantity price fee true now
      let left := c.2.remaining.saturatingSub quantity
      ({ p with resting :=
          if left.isZero then p.resting.erase c.1
          else if (p.resting.lookup c.1).isSome then
            p.resting.insert c.1 { c.2 with remaining := left }
          else p.resting },
        acc.2 ++ [f])
    | (_, g) => ({ p with rng := g }, acc.2)

/-- The resting orders on a book's token, in one of the orders the map may enumerate them. -/
def PaperExecution.Candidates (p : PaperExecution G) (book : OrderBook)
    (cs : List (OrderId × RestingOrder)) : Prop :=
  cs.Perm ((p.resting.entries.filter fun e => e.2.request.tokenId = book.tokenId).map
    fun e => (e.1, e.2))

instance (p : PaperExecution G) (book : OrderBook) (cs : List (OrderId × RestingOrder)) :
    Decidable (p.Candidates book cs) := by
  unfold PaperExecution.Candidates; infer_instance

theorem PaperExecution.Candidates.held {p : PaperExecution G} {book : OrderBook}
    {cs : List (OrderId × RestingOrder)} (h : p.Candidates book cs) :
    (∀ c ∈ cs, p.resting.lookup c.1 = some c.2) ∧ (cs.map Prod.fst).Nodup := by
  constructor
  · intro c mem
    obtain ⟨e, listed, rfl⟩ := List.mem_map.mp (h.mem_iff.mp mem)
    exact AList.mem_entries_iff.mp (List.mem_of_mem_filter listed)
  · rw [(h.map Prod.fst).nodup_iff, List.map_map]
    exact p.resting.nodupKeys.sublist List.filter_sublist

def PaperExecution.onBookUpdate (p : PaperExecution G) (book : OrderBook)
    (cs : List (OrderId × RestingOrder)) (now : DateTime) : List Fill × PaperExecution G :=
  let (p, fills) := cs.foldl (hitResting rng book now) (p, [])
  (fills, { p with pendingFills := p.pendingFills ++ fills })

/-- Hands over the fills since the last poll. -/
def PaperExecution.pollFills (p : PaperExecution G) : List Fill × PaperExecution G :=
  (p.pendingFills, { p with pendingFills := [] })

def PaperExecution.reset (p : PaperExecution G) : PaperExecution G :=
  { p with resting := ∅, positions := ∅, pendingFills := [] }

def PaperExecution.submit (p : PaperExecution G) (order : OrderRequest) (now : DateTime) :
    Except ExecutionError Acknowledgement × PaperExecution G :=
  let p := p.simulateLatency rng
  match p.books.get order.tokenId with
  | none =>
    (.error (.notReady ("no order book cached for token " ++ order.tokenId.asStr)), p)
  | some book =>
    match matchOrder rng order book p.params p.rng with
    | (.rejected reason, g) => (.error (.rejected reason), { p with rng := g })
    | (.noLiquidity, g) =>
      (.error (.rejected "insufficient liquidity within limit price"), { p with rng := g })
    | (.resting, g) =>
      let (venueId, p) := PaperExecution.nextVenueId { p with
        rng := g
        resting := p.resting.insert order.orderId ⟨order, order.quantity⟩ }
      (.ok ⟨order.orderId, some venueId, now, [], false⟩, p)
    | (.filled quantity price fee isMaker, g) =>
      let (fill, p) := { p with rng := g }.recordFill order quantity price fee isMaker now
      let complete := quantity.get ≥ order.quantity.get
      let p :=
        if ¬complete ∧ order.timeInForce = .gtc then
          -- the remainder rests, as it would at the venue
          { p with
            resting := p.resting.insert order.orderId
              ⟨order, order.quantity.saturatingSub quantity⟩ }
        else p
      let (venueId, p) := p.nextVenueId
      (.ok ⟨order.orderId, some venueId, now, [fill],
        complete ∨ order.timeInForce ≠ .gtc⟩, p)

def PaperExecution.cancel (p : PaperExecution G) (id : OrderId) :
    Except ExecutionError Unit × PaperExecution G :=
  let p := p.simulateLatency rng
  match p.resting.lookup id with
  | some _ => (.ok (), { p with resting := p.resting.erase id })
  | none => (.error (.unknownOrder id), p)

/-- The paper venue behind the seam, answering at `now`. -/
def paperAdapter (now : DateTime) : ExecutionAdapter (PaperExecution G) where
  submit p order := p.submit rng order now
  cancel p id _ := p.cancel rng id

theorem PaperExecution.simulateLatency_eq (p : PaperExecution G) :
    ∃ g, p.simulateLatency rng = { p with rng := g } := by
  unfold simulateLatency
  split
  · exact ⟨_, rfl⟩
  · exact ⟨p.rng, rfl⟩

/-- What a fill of `request` recorded by the venue looks like. -/
structure FillOf (request : OrderRequest) (f : Fill) : Prop where
  order : f.orderId = request.orderId
  token : f.tokenId = request.tokenId
  side : f.side = request.side
  pos : 0 < f.quantity.get

/-- The three ways a submission ends: refused, resting in full, or filled. -/
theorem PaperExecution.submit_cases (p : PaperExecution G) (order : OrderRequest)
    (now : DateTime) :
    (∃ e g, e.requiresReconciliation = false ∧
      p.submit rng order now = (.error e, { p with rng := g })) ∨
    (∃ ack g n, order.timeInForce = .gtc ∧ ack.immediateFills = [] ∧
      p.submit rng order now = (.ok ack, { p with
        rng := g
        seq := n
        resting := p.resting.insert order.orderId ⟨order, order.quantity⟩ })) ∨
    (∃ ack f g n m book isMaker, FillOf order f ∧ f.quantity.get ≤ order.quantity.get ∧
      ack.immediateFills = [f] ∧ p.books.get order.tokenId = some book ∧
      matchOrder rng order book p.params (p.simulateLatency rng).rng =
        (.filled f.quantity f.price f.fee isMaker, g) ∧
      p.submit rng order now = (.ok ack, { p with
        rng := g
        seq := n
        nextFillId := m
        positions := p.positions.upsert order.tokenId 0 (· + order.side.sign * f.quantity.get)
        resting :=
          if f.quantity.get < order.quantity.get ∧ order.timeInForce = .gtc then
            p.resting.insert order.orderId ⟨order, order.quantity.saturatingSub f.quantity⟩
          else p.resting })) := by
  obtain ⟨g₀, latency⟩ := p.simulateLatency_eq rng
  unfold submit
  simp only [latency]
  cases cached : p.books.get order.tokenId with
  | none => exact .inl ⟨_, g₀, rfl, rfl⟩
  | some book =>
    simp only
    cases outcome : matchOrder rng order book p.params g₀ with
    | mk out g =>
      cases out with
      | rejected reason => exact .inl ⟨_, g, rfl, rfl⟩
      | noLiquidity => exact .inl ⟨_, g, rfl, rfl⟩
      | resting => exact .inr (.inl ⟨_, g, _, matchOrder_resting outcome, rfl, rfl⟩)
      | filled quantity price fee isMaker =>
        obtain ⟨pos, within⟩ := matchOrder_filled outcome
        let f := (recordFill { p with rng := g } order quantity price fee isMaker now).1
        let venueId := (nextVenueId p).1
        refine .inr (.inr ⟨⟨order.orderId, some venueId, now, [f],
          quantity.get ≥ order.quantity.get ∨ order.timeInForce ≠ .gtc⟩, f, g, p.seq + 1,
          p.nextFillId + 2, book, isMaker, ⟨rfl, rfl, rfl, pos⟩, within, rfl, rfl, outcome, ?_⟩)
        have size : f.quantity = quantity := rfl
        rw [size]
        by_cases partial_ : quantity.get < order.quantity.get ∧ order.timeInForce = .gtc
        · have open_ : ¬(quantity.get ≥ order.quantity.get) ∧ order.timeInForce = .gtc :=
            ⟨not_le.mpr partial_.1, partial_.2⟩
          simp only [recordFill, open_, partial_]
          rfl
        · have done : ¬(¬(quantity.get ≥ order.quantity.get) ∧ order.timeInForce = .gtc) :=
            fun h => partial_ ⟨not_le.mp h.1, h.2⟩
          simp only [recordFill, if_neg done, if_neg partial_]
          rfl

/-- A resting order is either left alone or filled within what remains of it. -/
theorem PaperExecution.hitResting_cases (book : OrderBook) (now : DateTime)
    (p : PaperExecution G) (fills : List Fill) (id : OrderId) (r : RestingOrder) :
    (∃ g, hitResting rng book now (p, fills) (id, r) = ({ p with rng := g }, fills)) ∨
    (∃ f g n, FillOf r.request f ∧ f.quantity.get ≤ r.remaining.get ∧
      hitResting rng book now (p, fills) (id, r) = ({ p with
        rng := g
        nextFillId := n
        positions := p.positions.upsert r.request.tokenId 0
          (· + r.request.side.sign * f.quantity.get)
        resting :=
          if (r.remaining.saturatingSub f.quantity).isZero then p.resting.erase id
          else if (p.resting.lookup id).isSome then
            p.resting.insert id { r with remaining := r.remaining.saturatingSub f.quantity }
          else p.resting }, fills ++ [f])) := by
  unfold hitResting
  simp only
  split
  · exact .inl ⟨p.rng, rfl⟩
  · cases outcome : matchOrder rng { r.request with quantity := r.remaining } book p.params
        p.rng with
    | mk out g =>
      cases out with
      | rejected reason => exact .inl ⟨g, rfl⟩
      | noLiquidity => exact .inl ⟨g, rfl⟩
      | resting => exact .inl ⟨g, rfl⟩
      | filled quantity price fee isMaker =>
        obtain ⟨pos, within⟩ := matchOrder_filled outcome
        exact .inr ⟨(recordFill { p with rng := g } r.request quantity price fee true now).1, g,
          _, ⟨rfl, rfl, rfl, pos⟩, within, rfl⟩

/-- What a pass over the candidates leaves alone. -/
theorem PaperExecution.hits_frame (book : OrderBook) (now : DateTime)
    (cs : List (OrderId × RestingOrder)) (acc : PaperExecution G × List Fill) :
    (cs.foldl (hitResting rng book now) acc).1.books = acc.1.books ∧
      (cs.foldl (hitResting rng book now) acc).1.params = acc.1.params ∧
      (cs.foldl (hitResting rng book now) acc).1.pendingFills = acc.1.pendingFills := by
  induction cs generalizing acc with
  | nil => exact ⟨rfl, rfl, rfl⟩
  | cons c cs ih =>
    rw [List.foldl_cons]
    obtain ⟨books, params, pending⟩ := ih (hitResting rng book now acc c)
    rw [books, params, pending]
    rcases acc.1.hitResting_cases rng book now acc.2 c.1 c.2 with ⟨g, eq⟩ | ⟨f, g, n, _, _, eq⟩
    · rw [eq]
      exact ⟨rfl, rfl, rfl⟩
    · rw [eq]
      exact ⟨rfl, rfl, rfl⟩

theorem PaperExecution.cancel_cases (p : PaperExecution G) (id : OrderId) :
    (∃ g r, p.resting.lookup id = some r ∧
      p.cancel rng id = (.ok (), { p with rng := g, resting := p.resting.erase id })) ∨
    (∃ g, p.resting.lookup id = none ∧
      p.cancel rng id = (.error (.unknownOrder id), { p with rng := g })) := by
  obtain ⟨g, latency⟩ := p.simulateLatency_eq rng
  unfold cancel
  simp only [latency]
  cases held : p.resting.lookup id with
  | none => exact .inr ⟨g, rfl, rfl⟩
  | some r => exact .inl ⟨g, r, rfl, rfl⟩

def hitMap (m : AList fun _ : OrderId => RestingOrder) (id : OrderId) (r : RestingOrder)
    (qty : Qty) : AList fun _ : OrderId => RestingOrder :=
  if (r.remaining.saturatingSub qty).isZero then m.erase id
  else if (m.lookup id).isSome then
    m.insert id { r with remaining := r.remaining.saturatingSub qty }
  else m

theorem lookup_hitMap_ne (m : AList fun _ : OrderId => RestingOrder) {id j : OrderId}
    (r : RestingOrder) (qty : Qty) (other : j ≠ id) : (hitMap m id r qty).lookup j = m.lookup j := by
  unfold hitMap
  split
  · exact AList.lookup_erase_ne other
  · split
    · exact AList.lookup_insert_ne other
    · rfl

/-- A filled resting order is gone, or rests on with what the fill left. -/
theorem lookup_hitMap {m : AList fun _ : OrderId => RestingOrder} {id : OrderId}
    {r : RestingOrder} {qty : Qty} (held : m.lookup id = some r)
    (fits : qty.get ≤ r.remaining.get) :
    ((hitMap m id r qty).lookup id = none ∧ r.remaining.get = qty.get) ∨
    ∃ left : Qty, (hitMap m id r qty).lookup id = some { r with remaining := left } ∧
      left.get = r.remaining.get - qty.get ∧ 0 < left.get := by
  have left := Qty.saturatingSub_get fits
  unfold hitMap
  by_cases zero : (r.remaining.saturatingSub qty).isZero = true
  · refine .inl ⟨by rw [if_pos zero, AList.lookup_erase], ?_⟩
    rw [Qty.isZero_iff, left] at zero
    linarith
  · refine .inr ⟨r.remaining.saturatingSub qty, ?_, left, ?_⟩
    · rw [if_neg zero, held, if_pos (by rfl), AList.lookup_insert]
    · exact Qty.isZero_false_iff.mp (Bool.eq_false_of_not_eq_true zero)

/-- What every miss and every hit keep, a pass over the candidates keeps. -/
theorem PaperExecution.hits_keep {P : PaperExecution G → List Fill → Prop} (book : OrderBook)
    (now : DateTime) (miss : ∀ p g fills, P p fills → P { p with rng := g } fills)
    (hit : ∀ p fills id r f g n, P p fills → p.resting.lookup id = some r → FillOf r.request f →
      f.quantity.get ≤ r.remaining.get → P { p with
        rng := g
        nextFillId := n
        positions := p.positions.upsert r.request.tokenId 0
          (· + r.request.side.sign * f.quantity.get)
        resting := hitMap p.resting id r f.quantity } (fills ++ [f]))
    (cs : List (OrderId × RestingOrder)) {p : PaperExecution G} {fills : List Fill}
    (held : ∀ c ∈ cs, p.resting.lookup c.1 = some c.2) (nodup : (cs.map Prod.fst).Nodup)
    (h : P p fills) : P (cs.foldl (hitResting rng book now) (p, fills)).1
      (cs.foldl (hitResting rng book now) (p, fills)).2 := by
  induction cs generalizing p fills with
  | nil => exact h
  | cons c cs ih =>
    obtain ⟨id, r⟩ := c
    have first := held (id, r) List.mem_cons_self
    have later : ∀ c ∈ cs, p.resting.lookup c.1 = some c.2 :=
      fun c mem => held c (List.mem_cons_of_mem _ mem)
    rw [List.map_cons, List.nodup_cons] at nodup
    rw [List.foldl_cons]
    rcases p.hitResting_cases rng book now fills id r with ⟨g, eq⟩ | ⟨f, g, n, fill, fits, eq⟩
    · rw [eq]
      exact ih later nodup.2 (miss p g fills h)
    · rw [eq]
      refine ih ?_ nodup.2 (hit p fills id r f g n h first fill fits)
      intro c mem
      have other : c.1 ≠ id := fun same => nodup.1 (List.mem_map.mpr ⟨c, mem, same⟩)
      exact (lookup_hitMap_ne _ _ _ other).trans (later c mem)

end Venue

end CopyTrading
