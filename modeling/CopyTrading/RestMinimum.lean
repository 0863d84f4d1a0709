import CopyTrading.BookWriters

namespace CopyTrading

open StepRun

variable {parse : String → Option Decimal}

/-- A snapshot of a message carries the default of its frames. -/
theorem snapshot_minOrderSize {frames : List WireFrame} {seq : Nat} {at_ : DateTime}
    {book : OrderBook} (h : .snapshot book ∈ parseMarketFrames parse frames seq at_) :
    book.minOrderSize = 5 := by
  simp only [parseMarketFrames] at h
  split at h
  next => cases List.mem_singleton.mp h
  next =>
    obtain ⟨events, made, mem⟩ := List.mem_flatten.mp h
    obtain ⟨⟨f, i⟩, _, rfl⟩ := List.mem_map.mp made
    obtain ⟨_, _, _, default⟩ := toBook_eq_some (snapshot_of_frame mem)
    exact default

/-- A builder that has been told no minimum, and holds books with the default. -/
structure BookBuilder.Untold (bb : BookBuilder) : Prop where
  told : bb.minOrderSize = ∅
  default : ∀ t b, bb.get t = some b → b.minOrderSize = 5

theorem BookBuilder.untold_new : BookBuilder.new.Untold := ⟨rfl, nofun⟩

theorem BookBuilder.apply_minOrderSize (bb : BookBuilder) (ev : MarketEvent) (at_ : DateTime) :
    (bb.apply ev at_).2.minOrderSize = bb.minOrderSize := by
  cases ev with
  | ignored => rfl
  | snapshot b => rfl
  | tickSizeChanged tok ts =>
    simp only [apply]
    split <;> rfl
  | levelChange tok side price size bestBid bestAsk =>
    simp only [apply]
    split
    · rfl
    · split <;> rfl

theorem OrderBook.changeLevel_minOrderSize (b : OrderBook) (side : Side) (price : Price)
    (size : Decimal) (at_ : DateTime) :
    (b.changeLevel side price size at_).minOrderSize = b.minOrderSize := by
  cases side <;> rfl

theorem BookBuilder.Untold.apply {bb : BookBuilder} (h : bb.Untold) {ev : MarketEvent}
    (at_ : DateTime) (default : ∀ b, ev = .snapshot b → b.minOrderSize = 5) :
    (bb.apply ev at_).2.Untold := by
  refine ⟨(apply_minOrderSize bb ev at_).trans h.told, ?_⟩
  intro t b held
  cases ev with
  | ignored => exact h.default t b held
  | snapshot new =>
    rw [apply_snapshot_get, h.told] at held
    split at held
    next =>
      cases held
      exact default new rfl
    next => exact h.default t b held
  | tickSizeChanged tok ts =>
    rw [apply_tickSizeChanged_get] at held
    split at held
    · obtain ⟨old, before, rfl⟩ := Option.map_eq_some_iff.mp held
      exact h.default t old before
    · exact h.default t b held
  | levelChange tok side price size bestBid bestAsk =>
    rw [apply_levelChange_get] at held
    split at held
    · obtain ⟨old, before, kept⟩ := Option.bind_eq_some_iff.mp held
      split at kept
      · cases kept
      · cases kept
        rw [OrderBook.changeLevel_minOrderSize]
        exact h.default t old before
    · exact h.default t b held

namespace BookWriters

variable {s s' : BookWriters} {e : WriterEvent}

/-- The last book that a REST path has put for a token. -/
def latestRest (s : BookWriters) (t : TokenId) : Option OrderBook :=
  (s.puts.filterMap fun p => if p.1 = .rest ∧ p.2.tokenId = t then some p.2 else none).getLast?

/-- For each token the cache answers with the minimum order size of its latest REST book. -/
def RestMinimum (s : BookWriters) : Prop :=
  ∀ t r, s.latestRest t = some r → ∃ b, s.cached t = some b ∧ b.minOrderSize = r.minOrderSize

/-- The stream publishes no book of a token that REST gave another minimum than the default. -/
def StreamsDefault (s : BookWriters) (e : WriterEvent) : Prop :=
  ∀ b, s.writing e = some (.stream, b) → ∀ r ∈ s.latestRest b.tokenId, r.minOrderSize = 5

/-- No minimum order size reaches the stream: its books, held or still to come, have the default. -/
structure Untold (s : BookWriters) : Prop where
  builder : s.stream.builder.Untold
  pending : ∀ b, .snapshot b ∈ s.events → b.minOrderSize = 5

theorem untold_start : start.Untold := ⟨BookBuilder.untold_new, nofun⟩

theorem Untold.step (h : s.Untold) (taken : s.step parse e = some s') : s'.Untold := by
  cases e with
  | message frames seq at_ =>
    obtain ⟨_, rfl⟩ := step_cases taken
    exact ⟨h.builder, fun _ mem => snapshot_minOrderSize mem⟩
  | apply =>
    obtain ⟨ev, rest, events, rfl⟩ := step_cases taken
    have pending := h.pending
    rw [events] at pending
    refine ⟨?_, fun b mem => pending b (List.mem_cons_of_mem _ mem)⟩
    simp only [MarketStream.step_builder]
    refine h.builder.apply s.receivedAt fun b is => pending b ?_
    rw [is]
    exact List.mem_cons_self
  | reconnect =>
    obtain ⟨_, rfl⟩ := step_cases taken
    exact ⟨BookBuilder.untold_new, h.pending⟩
  | answer b =>
    cases step_cases taken
    exact ⟨h.builder, h.pending⟩
  | put i =>
    obtain ⟨b, _, rfl⟩ := step_cases taken
    exact ⟨h.builder, h.pending⟩

/-- Whatever book the stream puts has the default minimum. -/
theorem Untold.writing {b : OrderBook} (h : s.Untold) (writes : s.writing e = some (.stream, b)) :
    b.minOrderSize = 5 := by
  cases e with
  | message frames seq receivedAt => cases writes
  | reconnect => cases writes
  | answer b => cases writes
  | put i =>
    obtain ⟨_, _, same⟩ := Option.map_eq_some_iff.mp writes
    cases same
  | apply =>
    obtain ⟨ev, first, writes⟩ := Option.bind_eq_some_iff.mp writes
    obtain ⟨b', published, same⟩ := Option.bind_eq_some_iff.mp writes
    cases same
    obtain ⟨t, _, held⟩ := Option.bind_eq_some_iff.mp published
    have mem : ev ∈ s.events := List.mem_of_mem_head? first
    have after := h.builder.apply s.receivedAt fun b' is => h.pending b' (is ▸ mem)
    exact after.default t b held

theorem latestRest_snoc {p : BookSource × OrderBook} (puts : s'.puts = s.puts ++ [p])
    (t : TokenId) : s'.latestRest t =
      if p.1 = .rest ∧ p.2.tokenId = t then some p.2 else s.latestRest t := by
  unfold latestRest
  rw [puts, List.filterMap_append, List.getLast?_append]
  split
  next rest => simp [rest]
  next other => simp [other]

theorem restMinimum_step_iff (untold : s.Untold) (authoritative : s.RestMinimum)
    (taken : s.step parse e = some s') : s'.RestMinimum ↔ s.StreamsDefault e := by
  obtain ⟨puts, cached⟩ := step_puts taken
  unfold StreamsDefault
  cases writes : s.writing e with
  | none =>
    rw [writes, Option.toList_none, List.append_nil] at puts
    simp only [writes] at cached
    refine iff_of_true (fun t r latest => ?_) nofun
    rw [cached]
    refine authoritative t r ?_
    unfold latestRest at latest ⊢
    rw [← puts]
    exact latest
  | some p =>
    rw [writes, Option.toList_some] at puts
    simp only [writes] at cached
    obtain ⟨src, b⟩ := p
    cases src with
    | rest =>
      refine iff_of_true (fun t r latest => ?_) nofun
      rw [latestRest_snoc puts] at latest
      rw [cached]
      split at latest
      next own =>
        cases latest
        exact ⟨b, if_pos own.2.symm, rfl⟩
      next other =>
        have ne : t ≠ b.tokenId := fun same => other ⟨rfl, same.symm⟩
        rw [if_neg ne]
        exact authoritative t r latest
    | stream =>
      have default := untold.writing writes
      have unchanged (t : TokenId) : s'.latestRest t = s.latestRest t := by
        rw [latestRest_snoc puts]
        exact if_neg fun rest => nomatch rest.1
      constructor
      · rintro after b' ⟨⟩ r latest
        obtain ⟨held, found, same⟩ := after b.tokenId r ((unchanged _).trans latest)
        rw [cached, if_pos rfl] at found
        cases found
        exact same.symm.trans default
      · intro defaults t r latest
        rw [unchanged] at latest
        rw [cached]
        split
        next own =>
          subst own
          exact ⟨b, rfl, default.trans (defaults b rfl r latest).symm⟩
        next => exact authoritative t r latest

/-- The cache answers with the REST minimum, in every state of exactly the runs in which the
stream publishes no book of a token whose latest REST minimum is not the default. -/
theorem rest_minimum_iff {es : List WriterEvent} {s : BookWriters}
    (run : Run (step parse) Anywhere start es s) :
    (∀ before u, before <+: es → Run (step parse) Anywhere start before u → u.RestMinimum) ↔
      Run (step parse) StreamsDefault start es s := by
  have none_put : start.RestMinimum := nofun
  refine run.always_iff (W := Untold) ?_ ?_ untold_start none_put
  · exact fun t e u untold taken => untold.step taken
  · exact fun t e u untold authoritative taken => restMinimum_step_iff untold authoritative taken

instance (s : BookWriters) (e : WriterEvent) : Decidable (s.StreamsDefault e) :=
  decidable_of_iff (∀ p ∈ s.writing e, p.1 = .stream → ∀ r ∈ s.latestRest p.2.tokenId,
    r.minOrderSize = 5)
    ⟨fun h _ writes => h _ writes rfl, fun h p writes streamed => h p.2 (streamed ▸ writes)⟩

/-- A REST book with a minimum order size is put, then the stream publishes a snapshot. -/
def restThenStream (minimum : Decimal) : List WriterEvent :=
  [.answer { OrderBook.sample with minOrderSize := minimum }, .put 0,
    .message [⟨"book", MarketId.zero.asStr, "0", none, [], [], none, [], none⟩] 0 0, .apply]

theorem rest_minimum_default : ∃ s, Run (step fun _ => none) Anywhere start (restThenStream 5) s ∧
    ∀ before u, before <+: restThenStream 5 → Run (step fun _ => none) Anywhere start before u →
      u.RestMinimum := by
  obtain ⟨s, executed, _⟩ : ∃ s, (restThenStream 5).foldlM (fun s e =>
      if s.StreamsDefault e then step (fun _ => none) s e else none) start = some s ∧
      s.puts.map Prod.fst = [.rest, .stream] := by
    apply Option.map_eq_some_iff.mp
    decide +kernel
  have defaults := run_of_foldlM executed
  have run := defaults.mono fun _ _ _ => trivial
  exact ⟨s, run, (rest_minimum_iff run).mpr defaults⟩

theorem stream_resets_minimum : ¬ ∀ (parse : String → Option Decimal) (es : List WriterEvent)
    (s : BookWriters), Run (step parse) Anywhere start es s → s.RestMinimum := by
  intro claim
  obtain ⟨s, executed, held⟩ : ∃ s, (restThenStream 15).foldlM (fun s e =>
      if Anywhere s e then step (fun _ => none) s e else none) start = some s ∧
      ((s.latestRest .zero).map OrderBook.minOrderSize,
        (s.cached .zero).map OrderBook.minOrderSize) = (some 15, some 5) := by
    apply Option.map_eq_some_iff.mp
    decide +kernel
  obtain ⟨rest, answer⟩ := Prod.ext_iff.mp held
  obtain ⟨r, latest, fifteen⟩ := Option.map_eq_some_iff.mp rest
  obtain ⟨b, found, same⟩ := claim _ _ s (run_of_foldlM executed) .zero r latest
  simp only [found, Option.map_some, Option.some.injEq] at answer
  rw [fifteen, answer] at same
  exact absurd same (by decide +kernel)

end BookWriters

end CopyTrading
