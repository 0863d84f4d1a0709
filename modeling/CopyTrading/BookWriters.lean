import CopyTrading.MarketStream
import CopyTrading.StepRun

namespace CopyTrading

open StepRun

inductive BookSource
  | stream
  | rest
  deriving DecidableEq

/-- The tasks that write the book cache. -/
structure BookWriters where
  stream : MarketStream
  /-- The events of the message that the stream is handling. -/
  events : List MarketEvent
  receivedAt : DateTime
  /-- Books that a REST path has been answered with and has not put yet. -/
  answered : List OrderBook
  /-- Every book that was put, in order. -/
  puts : List (BookSource × OrderBook)

inductive WriterEvent
  | message (frames : List WireFrame) (seq : Nat) (receivedAt : DateTime)
  | apply
  | reconnect
  /-- The periodic poll or an on-demand fetch is answered. -/
  | answer (b : OrderBook)
  | put (i : Nat)

namespace BookWriters

def start : BookWriters := ⟨⟨.new, .new⟩, [], 0, [], []⟩

def cached (s : BookWriters) (t : TokenId) : Option OrderBook := s.stream.books.get t

/-- The book that an event leaves the builder with for its token is published. -/
def published (s : BookWriters) (ev : MarketEvent) : Option OrderBook :=
  let (changed, builder) := s.stream.builder.apply ev s.receivedAt
  changed.bind builder.get

def step (parse : String → Option Decimal) (s : BookWriters) : WriterEvent → Option BookWriters
  | .message frames seq receivedAt =>
    if s.events = [] then some { s with
      events := parseMarketFrames parse frames seq receivedAt
      receivedAt := receivedAt }
    else none
  | .apply =>
    match s.events with
    | [] => none
    | ev :: rest => some { s with
      stream := s.stream.step (.market ev s.receivedAt)
      events := rest
      puts := s.puts ++ (s.published ev).toList.map fun b => (.stream, b) }
  | .reconnect => if s.events = [] then some { s with stream := s.stream.step .reconnect } else none
  | .answer b => some { s with answered := s.answered ++ [b] }
  | .put i => do
    let b ← s.answered[i]?
    return { s with
      stream := s.stream.onBook b
      answered := s.answered.eraseIdx i
      puts := s.puts ++ [(.rest, b)] }

/-- The book an event puts, and who puts it. -/
def writing (s : BookWriters) : WriterEvent → Option (BookSource × OrderBook)
  | .apply => do
    let b ← s.published (← s.events.head?)
    return (.stream, b)
  | .put i => s.answered[i]?.map fun b => (.rest, b)
  | _ => none

variable {parse : String → Option Decimal} {s s' : BookWriters} {e : WriterEvent}

/-- What one step does, and when it is taken. -/
theorem step_cases (taken : s.step parse e = some s') :
    match e with
    | .message frames seq at_ => s.events = [] ∧
        s' = { s with events := parseMarketFrames parse frames seq at_, receivedAt := at_ }
    | .apply => ∃ ev rest, s.events = ev :: rest ∧ s' = { s with
        stream := s.stream.step (.market ev s.receivedAt)
        events := rest
        puts := s.puts ++ (s.published ev).toList.map fun b => (.stream, b) }
    | .reconnect => s.events = [] ∧ s' = { s with stream := s.stream.step .reconnect }
    | .answer b => s' = { s with answered := s.answered ++ [b] }
    | .put i => ∃ b, s.answered[i]? = some b ∧ s' = { s with
        stream := s.stream.onBook b
        answered := s.answered.eraseIdx i
        puts := s.puts ++ [(.rest, b)] } := by
  cases e with
  | message frames seq at_ =>
    obtain ⟨idle, same⟩ := Option.ite_none_right_eq_some.mp taken
    exact ⟨idle, (Option.some.inj same).symm⟩
  | apply =>
    simp only [step] at taken
    split at taken
    next => cases taken
    next ev rest events => exact ⟨ev, rest, events, (Option.some.inj taken).symm⟩
  | reconnect =>
    obtain ⟨idle, same⟩ := Option.ite_none_right_eq_some.mp taken
    exact ⟨idle, (Option.some.inj same).symm⟩
  | answer b => exact (Option.some.inj taken).symm
  | put i =>
    obtain ⟨b, held, same⟩ := Option.bind_eq_some_iff.mp taken
    exact ⟨b, held, (Option.some.inj same).symm⟩

theorem put_get (books : BookCache) (b : OrderBook) (t : TokenId) :
    (books.put b).get t = if t = b.tokenId then some b else books.get t := by
  split
  next same =>
    rw [same]
    exact AList.lookup_insert books.books
  next other => exact AList.lookup_insert_ne other

/-- A step puts the book it writes, and otherwise leaves the cache alone. -/
theorem step_puts (taken : s.step parse e = some s') :
    s'.puts = s.puts ++ (s.writing e).toList ∧
      ∀ t, s'.cached t =
        match s.writing e with
        | some p => if t = p.2.tokenId then some p.2 else s.cached t
        | none => s.cached t := by
  cases e with
  | message frames seq at_ =>
    obtain ⟨_, rfl⟩ := step_cases taken
    exact ⟨(List.append_nil _).symm, fun _ => rfl⟩
  | apply =>
    obtain ⟨ev, rest, events, rfl⟩ := step_cases taken
    have books := s.stream.step_books ev s.receivedAt
    have writes : s.writing .apply = (s.published ev).map fun b => (.stream, b) := by
      simp only [writing, events, List.head?_cons, Option.bind_eq_bind, Option.bind_some]
      cases s.published ev <;> rfl
    rw [writes]
    unfold cached
    rw [books]
    cases published : s.published ev with
    | none =>
      have none_ : (s.stream.builder.apply ev s.receivedAt).1.bind
        (s.stream.builder.apply ev s.receivedAt).2.get = none := published
      rw [none_]
      exact ⟨rfl, fun _ => rfl⟩
    | some b =>
      have some_ : (s.stream.builder.apply ev s.receivedAt).1.bind
        (s.stream.builder.apply ev s.receivedAt).2.get = some b := published
      rw [some_]
      exact ⟨rfl, fun t => put_get s.stream.books b t⟩
  | reconnect =>
    obtain ⟨_, rfl⟩ := step_cases taken
    exact ⟨(List.append_nil _).symm, fun _ => rfl⟩
  | answer b =>
    cases step_cases taken
    exact ⟨(List.append_nil _).symm, fun _ => rfl⟩
  | put i =>
    obtain ⟨b, held, rfl⟩ := step_cases taken
    have writes : s.writing (.put i) = some (.rest, b) := congrArg (Option.map _) held
    rw [writes]
    exact ⟨rfl, fun t => put_get s.stream.books b t⟩

/-- For each token the cache answers with a book that was put for it, and with no older one than
any other that was. -/
def Freshest (s : BookWriters) : Prop :=
  ∀ p ∈ s.puts, ∃ b, s.cached p.2.tokenId = some b ∧ b.tokenId = p.2.tokenId ∧
    (∃ src, (src, b) ∈ s.puts) ∧ p.2.timestamp ≤ b.timestamp

/-- The book that is put is not older than one that was put before for its token. -/
def PutsNewer (s : BookWriters) (e : WriterEvent) : Prop :=
  ∀ p ∈ s.writing e, ∀ q ∈ s.puts, q.2.tokenId = p.2.tokenId → q.2.timestamp ≤ p.2.timestamp

theorem freshest_step_iff (fresh : s.Freshest) (taken : s.step parse e = some s') :
    s'.Freshest ↔ s.PutsNewer e := by
  obtain ⟨puts, cached⟩ := step_puts taken
  unfold PutsNewer
  cases writes : s.writing e with
  | none =>
    rw [writes, Option.toList_none, List.append_nil] at puts
    simp only [writes] at cached
    refine iff_of_true (fun p mem => ?_) nofun
    rw [cached, puts]
    exact fresh p (puts ▸ mem)
  | some p =>
    rw [writes, Option.toList_some] at puts
    simp only [writes] at cached
    constructor
    · rintro fresh' p' ⟨⟩ q mem same
      obtain ⟨b, found, _, _, newer⟩ := fresh' q (puts ▸ List.mem_append_left _ mem)
      rw [cached, if_pos same] at found
      cases found
      exact newer
    · intro newer q mem
      rw [cached, puts]
      rw [puts] at mem
      split
      next same =>
        refine ⟨p.2, rfl, same.symm, ⟨p.1, List.mem_append_right _ List.mem_cons_self⟩, ?_⟩
        rcases List.mem_append.mp mem with earlier | new
        · exact newer p rfl q earlier same
        · rw [List.mem_singleton.mp new]
      next other =>
        rcases List.mem_append.mp mem with earlier | new
        · obtain ⟨b, found, key, ⟨src, held⟩, later⟩ := fresh q earlier
          exact ⟨b, found, key, ⟨src, List.mem_append_left _ held⟩, later⟩
        · rw [List.mem_singleton.mp new] at other
          exact absurd rfl other

/-- The cache keeps the freshest book, in every state of exactly the runs in which no book is put
after a fresher one of its token. -/
theorem freshest_iff {es : List WriterEvent} (run : Run (step parse) Anywhere start es s) :
    (∀ before u, before <+: es → Run (step parse) Anywhere start before u → u.Freshest) ↔
      Run (step parse) PutsNewer start es s := by
  have empty : start.Freshest := List.forall_mem_nil _
  refine run.always_iff (W := fun _ => True) (fun _ _ _ _ _ => trivial) ?_ trivial empty
  exact fun t e u _ fresh taken => freshest_step_iff fresh taken

instance (s : BookWriters) (e : WriterEvent) : Decidable (s.PutsNewer e) :=
  inferInstanceAs (Decidable (∀ p ∈ s.writing e, _))

/-- Two answers are put in the order of their timestamps. -/
def inOrder : List WriterEvent :=
  [.answer .sample, .answer { OrderBook.sample with timestamp := 1 }, .put 0, .put 0]

theorem freshest_inOrder : ∃ s, Run (step fun _ => none) Anywhere start inOrder s ∧
    ∀ before u, before <+: inOrder → Run (step fun _ => none) Anywhere start before u →
      u.Freshest := by
  obtain ⟨s, executed, _⟩ : ∃ s, inOrder.foldlM (fun s e =>
      if s.PutsNewer e then step (fun _ => none) s e else none) start = some s ∧
      s.puts.length = 2 := by
    apply Option.map_eq_some_iff.mp
    decide +kernel
  have ordered := run_of_foldlM executed
  have run := ordered.mono fun _ _ _ => trivial
  exact ⟨s, run, (freshest_iff run).mpr ordered⟩

/-- REST is asked, the stream publishes a snapshot, and only then is the answer put. -/
def lateAnswer : List WriterEvent :=
  [.answer { OrderBook.sample with timestamp := 1 },
    .message [⟨"book", MarketId.zero.asStr, "0", some "2", [], [], none, [], none⟩] 0 2,
    .apply, .put 0]

theorem late_answer_replaces_fresher : ¬ ∀ (parse : String → Option Decimal)
    (es : List WriterEvent) (s : BookWriters), Run (step parse) Anywhere start es s →
    s.Freshest := by
  intro claim
  obtain ⟨s, executed, held⟩ : ∃ s, lateAnswer.foldlM (fun s e =>
      if Anywhere s e then step (fun _ => none) s e else none) start = some s ∧
      (s.puts.map fun p => p.2.timestamp, (s.cached .zero).map OrderBook.timestamp,
        s.puts.map fun p => p.2.tokenId) =
        ([2000000000, 1], some 1, [TokenId.zero, TokenId.zero]) := by
    apply Option.map_eq_some_iff.mp
    decide +kernel
  obtain ⟨stamps, held⟩ := Prod.ext_iff.mp held
  obtain ⟨answer, tokens⟩ := Prod.ext_iff.mp held
  obtain ⟨p, rest, puts, first, _⟩ := List.map_eq_cons_iff.mp stamps
  have fresh := claim _ _ s (run_of_foldlM executed) p (by rw [puts]; exact List.mem_cons_self)
  simp only [puts, List.map_cons, List.cons.injEq] at tokens
  obtain ⟨b, found, _, _, newer⟩ := fresh
  rw [tokens.1] at found
  simp only [found, Option.map_some, Option.some.injEq] at answer
  rw [first, answer] at newer
  exact absurd newer (by decide)

end BookWriters

end CopyTrading
