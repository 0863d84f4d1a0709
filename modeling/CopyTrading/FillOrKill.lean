import CopyTrading.PaperSession

namespace CopyTrading

variable {G : Type} {rng : Rng G}

/-- The book covers the whole order, and then queue risk takes a share of it. -/
structure QueueCuts (rng : Rng G) (order : OrderRequest) (book : OrderBook) (params : MatchParams)
    (g : G) : Prop where
  asks : 0 < order.quantity.get
  accepted : ¬(rng.unit g).1 < params.rejectProbability
  crosses : isMarketable order book = true
  enabled : params.partialFillEnabled = true
  covers : order.quantity.get ≤ (book.liquidityWithin order.side order.limitPrice).get
  risky : params.fillProbability < 1
  drawn : params.fillProbability < (rng.unit (rng.unit g).2).1

theorem queueCuts_iff {order : OrderRequest} {book : OrderBook} {params : MatchParams} {g : G}
    (fok : order.timeInForce = .fok) (asks : 0 < order.quantity.get) :
    LeavesRemainder rng order book params g ↔ QueueCuts rng order book params g := by
  constructor
  · intro h
    have covers : order.quantity.get ≤ (book.liquidityWithin order.side order.limitPrice).get := by
      by_contra short
      exact h.notKilled ⟨not_le.mp short, fok⟩
    obtain ⟨risky, drawn⟩ := h.short.resolve_left (not_lt.mpr covers)
    exact ⟨asks, h.accepted, h.crosses, h.enabled, covers, risky, drawn⟩
  · intro h
    exact ⟨h.accepted, h.crosses, h.enabled, asks.trans_le h.covers,
      fun killed => absurd killed.1 (not_lt.mpr h.covers), .inr ⟨h.risky, h.drawn⟩⟩

/-- A fill-or-kill order is filled whole unless queue risk cuts it. -/
theorem matchOrder_fok_iff {order : OrderRequest} {book : OrderBook} {params : MatchParams} {g : G}
    (fok : order.timeInForce = .fok) :
    (∀ qty price fee isMaker g',
      matchOrder rng order book params g = (.filled qty price fee isMaker, g') →
      qty = order.quantity) ↔ ¬ QueueCuts rng order book params g := by
  constructor
  · intro whole cuts
    obtain ⟨qty, price, fee, isMaker, g', less, h⟩ :=
      (matchOrder_partial_iff cuts.asks).mpr ((queueCuts_iff fok cuts.asks).mpr cuts)
    rw [whole qty price fee isMaker g' h] at less
    exact absurd less (lt_irrefl _)
  · intro calm qty price fee isMaker g' h
    obtain ⟨pos, within⟩ := matchOrder_filled h
    have asks := pos.trans_le within
    refine Qty.ext (le_antisymm within ?_)
    by_contra less
    have cut := (matchOrder_partial_iff asks).mp
      ⟨qty, price, fee, isMaker, g', not_le.mp less, h⟩
    exact calm ((queueCuts_iff fok asks).mp cut)

namespace PaperExecution

variable {p : PaperExecution G} {order : OrderRequest} {now : DateTime}

/-- A fill is acknowledged as the one immediate fill. -/
theorem submit_filled {book : OrderBook} (cached : p.books.get order.tokenId = some book)
    {qty : Qty} {price : Price} {fee : Usd} {isMaker : Bool} {g' : G}
    (h : matchOrder rng order book p.params (p.simulateLatency rng).rng =
      (.filled qty price fee isMaker, g')) :
    ∃ ack f p', p.submit rng order now = (.ok ack, p') ∧ ack.immediateFills = [f] ∧
      f.quantity = qty := by
  obtain ⟨g, latency⟩ := p.simulateLatency_eq rng
  rw [latency] at h
  unfold submit
  simp only [latency, cached, h]
  exact ⟨_, _, _, rfl, rfl, rfl⟩

/-- The venue acknowledges a fill-or-kill order whole unless queue risk cuts it. -/
theorem submit_fok_iff (fok : order.timeInForce = .fok) :
    (∀ ack p', p.submit rng order now = (.ok ack, p') →
      ∀ f ∈ ack.immediateFills, f.quantity = order.quantity) ↔
    ∀ book, p.books.get order.tokenId = some book →
      ¬ QueueCuts rng order book p.params (p.simulateLatency rng).rng := by
  constructor
  · intro whole book cached
    refine (matchOrder_fok_iff fok).mp ?_
    intro qty price fee isMaker g' h
    obtain ⟨ack, f, p', ok, fills, rfl⟩ := submit_filled cached h
    refine whole ack p' ok f ?_
    rw [fills]
    exact List.mem_singleton_self f
  · intro calm ack p' ok f mem
    rcases p.submit_cases rng order now with ⟨_, _, _, eq⟩ | ⟨_, _, _, gtc, _⟩ |
      ⟨_, f', _, _, _, book, _, _, _, fills, cached, h, eq⟩
    · rw [eq] at ok
      cases ok
    · rw [fok] at gtc
      cases gtc
    · rw [eq] at ok
      cases ok
      rw [fills] at mem
      rw [List.mem_singleton.mp mem]
      exact (matchOrder_fok_iff fok).mpr (calm book cached) _ _ _ _ _ h

end PaperExecution

/-- A venue that fills at once with a probability of a quarter. -/
def MatchParams.queued : MatchParams := { MatchParams.plain with fillProbability := 1 / 4 }

def OrderRequest.fokTen : OrderRequest :=
  { OrderRequest.sample .fok with
    quantity := OrderBook.sample.liquidityWithin .buy (OrderRequest.sample .fok).limitPrice }

end CopyTrading
