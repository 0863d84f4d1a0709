import CopyTrading.MarketWs
import CopyTrading.PaperSession

namespace CopyTrading

/-- The market stream: the builder of the current connection, and the cache it publishes to. -/
structure MarketStream where
  builder : BookBuilder
  books : BookCache

inductive StreamEvent
  | market (ev : MarketEvent) (at_ : DateTime)
  /-- The connection ended: the next one starts with an empty builder. -/
  | reconnect

/-- A published book, as far as the cache is concerned. -/
def MarketStream.onBook (s : MarketStream) (b : OrderBook) : MarketStream :=
  { s with books := s.books.put b }

def MarketStream.step (s : MarketStream) : StreamEvent → MarketStream
  | .market ev at_ =>
    let (changed, builder) := s.builder.apply ev at_
    let s := { s with builder := builder }
    match changed with
    | some tok =>
      match s.builder.get tok with
      | some b => s.onBook b
      | none => s
    | none => s
  | .reconnect => { s with builder := .new }

def MarketStream.run (s : MarketStream) (es : List StreamEvent) : MarketStream :=
  es.foldl MarketStream.step s

def StreamEvent.IsSnapshotOf (t : TokenId) : StreamEvent → Prop
  | .market (.snapshot b) _ => b.tokenId = t
  | _ => False

/-- The event makes the builder drop the book it held for a token. -/
def MarketStream.Drops (s : MarketStream) (t : TokenId) (old : OrderBook) : StreamEvent → Prop
  | .market ev at_ => s.builder.get t = some old ∧ (s.builder.apply ev at_).2.get t = none
  | .reconnect => False

/-- A level change whose best prices do not disagree with the held book once it is applied. -/
def MarketStream.Agrees (s : MarketStream) : StreamEvent → Prop
  | .market (.levelChange t side price size bestBid bestAsk) at_ =>
    ∀ b, s.builder.get t = some b →
      (b.changeLevel side price size at_).drifted bestBid bestAsk = false
  | _ => True

/-- From a drop on, and until the next snapshot of the token, the cache does not answer with the
book that was dropped. -/
def DriftedUnused (s : MarketStream) (es : List StreamEvent) : Prop :=
  ∀ before e after t old, (before ++ e :: after) <+: es → (s.run before).Drops t old e →
    (∀ e' ∈ after, ¬e'.IsSnapshotOf t) → (s.run (before ++ e :: after)).books.get t ≠ some old

theorem MarketStream.step_builder (s : MarketStream) (ev : MarketEvent) (at_ : DateTime) :
    (s.step (.market ev at_)).builder = (s.builder.apply ev at_).2 := by
  simp only [step]
  split
  · split <;> rfl
  · rfl

/-- A step publishes the book that the event's token is left with, if any. -/
theorem MarketStream.step_books (s : MarketStream) (ev : MarketEvent) (at_ : DateTime) :
    (s.step (.market ev at_)).books =
      match (s.builder.apply ev at_).1.bind (s.builder.apply ev at_).2.get with
      | some b => s.books.put b
      | none => s.books := by
  simp only [step]
  cases (s.builder.apply ev at_).1 with
  | none => rfl
  | some tok =>
    rw [Option.bind_some]
    simp only
    cases (s.builder.apply ev at_).2.get tok with
    | none => rfl
    | some b => rfl

/-- Nothing is published for a token that the event leaves without a book. -/
theorem MarketStream.step_books_unbuilt {s : MarketStream} (keyed : s.builder.Keyed)
    {ev : MarketEvent} {at_ : DateTime} {t : TokenId}
    (unbuilt : (s.builder.apply ev at_).2.get t = none) :
    (s.step (.market ev at_)).books.get t = s.books.get t := by
  rw [step_books]
  split
  next b published =>
    obtain ⟨tok, returned, left⟩ := Option.bind_eq_some_iff.mp published
    have other : t ≠ b.tokenId := by
      rintro rfl
      rw [keyed.apply ev at_ tok b left, left] at unbuilt
      cases unbuilt
    exact AList.lookup_insert_ne other
  next => rfl

/-- What the builder holds is keyed by its own token and has been published. -/
structure MarketStream.Published (s : MarketStream) : Prop where
  keyed : s.builder.Keyed
  cached : ∀ t b, s.builder.get t = some b → s.books.get t = some b

theorem MarketStream.published_start (books : BookCache) : Published ⟨.new, books⟩ := by
  refine ⟨?_, ?_⟩
  · intro t b held
    cases held
  · intro t b held
    cases held

theorem MarketStream.Published.step {s : MarketStream} (h : s.Published) (e : StreamEvent) :
    (s.step e).Published := by
  cases e with
  | reconnect => exact published_start s.books
  | market ev at_ =>
    have keyed : (s.builder.apply ev at_).2.Keyed := h.keyed.apply ev at_
    refine ⟨by rw [step_builder]; exact keyed, ?_⟩
    intro t b held
    rw [step_builder] at held
    rw [step_books]
    by_cases about : ev.token = some t
    · rw [BookBuilder.apply_returns held about, Option.bind_some, held]
      have own : b.tokenId = t := keyed t b held
      subst own
      exact AList.lookup_insert s.books.books
    · have before := h.cached t b (by rw [← BookBuilder.apply_get_other _ at_ about]; exact held)
      split
      next b' published =>
        obtain ⟨tok, returned, left⟩ := Option.bind_eq_some_iff.mp published
        have token := BookBuilder.token_of_apply returned
        have other : t ≠ b'.tokenId := by
          rintro rfl
          exact about (by rw [token, keyed tok b' left])
        exact (AList.lookup_insert_ne other).trans before
      next => exact before

theorem MarketStream.Published.run {s : MarketStream} (h : s.Published) (es : List StreamEvent) :
    (s.run es).Published := by
  induction es generalizing s with
  | nil => exact h
  | cons e es ih => exact ih (h.step e)

/-- A token without a built book keeps its cached book until its next snapshot. -/
theorem MarketStream.step_unbuilt {s : MarketStream} {t : TokenId}
    (none_ : s.builder.get t = none) {e : StreamEvent} (fresh : ¬e.IsSnapshotOf t) :
    (s.step e).builder.get t = none ∧
      (s.builder.Keyed → (s.step e).books.get t = s.books.get t) := by
  cases e with
  | reconnect => exact ⟨rfl, fun _ => rfl⟩
  | market ev at_ =>
    have unbuilt : (s.builder.apply ev at_).2.get t = none := by
      by_cases about : ev.token = some t
      · cases ev with
        | ignored => cases about
        | snapshot b =>
          cases about
          exact absurd rfl fresh
        | tickSizeChanged tok ts =>
          cases about
          rw [BookBuilder.apply_tickSizeChanged_get, if_pos rfl, none_, Option.map_none]
        | levelChange tok side price size bestBid bestAsk =>
          cases about
          rw [BookBuilder.apply_levelChange_get, if_pos rfl, none_, Option.bind_none]
      · rw [BookBuilder.apply_get_other _ at_ about]
        exact none_
    refine ⟨by rw [step_builder]; exact unbuilt, ?_⟩
    intro keyed
    exact step_books_unbuilt keyed unbuilt

/-- The dropped book stays in the cache for as long as no snapshot of its token arrives. -/
theorem MarketStream.run_unbuilt {s : MarketStream} (h : s.Published) {t : TokenId}
    (none_ : s.builder.get t = none) {es : List StreamEvent}
    (fresh : ∀ e ∈ es, ¬e.IsSnapshotOf t) : (s.run es).books.get t = s.books.get t := by
  induction es generalizing s with
  | nil => rfl
  | cons e es ih =>
    obtain ⟨unbuilt, same⟩ := step_unbuilt none_ (fresh e List.mem_cons_self)
    have rest := ih (h.step e) unbuilt fun e' mem => fresh e' (List.mem_cons_of_mem _ mem)
    exact rest.trans (same h.keyed)

/-- Only a level change that disagrees with the held book makes the builder drop it. -/
theorem MarketStream.drops_iff (s : MarketStream) (e : StreamEvent) :
    (∃ t old, s.Drops t old e) ↔ ¬s.Agrees e := by
  cases e with
  | reconnect => exact ⟨fun ⟨_, _, no⟩ => no.elim, fun no => (no trivial).elim⟩
  | market ev at_ =>
    constructor
    · rintro ⟨t, old, held, gone⟩ agrees
      by_cases about : ev.token = some t
      · cases ev with
        | ignored => cases about
        | snapshot b =>
          cases about
          rw [BookBuilder.apply_snapshot_get, if_pos rfl] at gone
          cases gone
        | tickSizeChanged tok ts =>
          cases about
          rw [BookBuilder.apply_tickSizeChanged_get, if_pos rfl, held] at gone
          cases gone
        | levelChange tok side price size bestBid bestAsk =>
          cases about
          rw [BookBuilder.apply_levelChange_get, if_pos rfl, held, Option.bind_some,
            if_neg (by rw [agrees old held]; exact Bool.false_ne_true)] at gone
          cases gone
      · rw [BookBuilder.apply_get_other _ at_ about, held] at gone
        cases gone
    · intro disagrees
      cases ev with
      | levelChange tok side price size bestBid bestAsk =>
        simp only [Agrees, not_forall, Bool.not_eq_false] at disagrees
        obtain ⟨old, held, drifted⟩ := disagrees
        refine ⟨tok, old, held, ?_⟩
        rw [BookBuilder.apply_levelChange_get, if_pos rfl, held, Option.bind_some, if_pos drifted]
      | _ => exact absurd trivial disagrees

/-- After a drop the cache answers with the dropped book until the token's next snapshot. -/
theorem MarketStream.Drops.stays {s : MarketStream} (h : s.Published) {t : TokenId}
    {old : OrderBook} {e : StreamEvent} (drop : s.Drops t old e) {after : List StreamEvent}
    (fresh : ∀ e' ∈ after, ¬e'.IsSnapshotOf t) :
    (s.run (e :: after)).books.get t = some old := by
  cases e with
  | reconnect => exact drop.elim
  | market ev at_ =>
    obtain ⟨held, gone⟩ := drop
    have unbuilt : (s.step (.market ev at_)).builder.get t = none := by
      rw [step_builder]
      exact gone
    have kept : (s.step (.market ev at_)).books.get t = some old := by
      rw [step_books_unbuilt h.keyed gone]
      exact h.cached t old held
    exact (run_unbuilt (h.step _) unbuilt fresh).trans kept

/-- Exactly in the runs in which no change disagrees with the held book. -/
theorem driftedUnused_iff (books : BookCache) (es : List StreamEvent) :
    DriftedUnused ⟨.new, books⟩ es ↔
      ∀ before e, (before ++ [e]) <+: es → (MarketStream.run ⟨.new, books⟩ before).Agrees e := by
  have published := MarketStream.published_start books
  constructor
  · intro unused before e reached
    by_contra disagrees
    obtain ⟨t, old, drop⟩ := (MarketStream.drops_iff _ e).mpr disagrees
    refine unused before e [] t old reached drop (by simp) ?_
    unfold MarketStream.run
    rw [List.foldl_append]
    exact drop.stays (published.run before) (by simp)
  · intro agrees before e after t old reached drop _
    have here : (before ++ [e]) <+: es := by
      refine List.IsPrefix.trans ⟨after, ?_⟩ reached
      simp
    exact absurd ⟨t, old, drop⟩ (mt (MarketStream.drops_iff _ e).mp (not_not.mpr (agrees _ e here)))

/-- The best ask of the book is changed, and the venue reports a worse one as its best. -/
def driftingChange : StreamEvent :=
  .market (.levelChange .zero .sell .half 5 none (some (OrderRequest.sample .gtc).limitPrice)) 1

def driftingStream : List StreamEvent := [.market (.snapshot .sample) 0, driftingChange]

theorem driftingStream_serves_dropped_book : ¬DriftedUnused ⟨.new, .new⟩ driftingStream := by
  intro unused
  refine unused [.market (.snapshot .sample) 0] driftingChange [] .zero .sample
    (List.prefix_refl _) ?_ (by simp) ?_
  · constructor <;> decide +kernel
  · decide +kernel

end CopyTrading
