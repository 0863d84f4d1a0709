import CopyTrading.BookFeeds
import CopyTrading.Health
import CopyTrading.Markets
import CopyTrading.PaperSession
import CopyTrading.Rotation

namespace CopyTrading

open StepRun

/-- How many books one tick of the refresh loop asks for. -/
def refreshSlice : Nat := 20

/-- How many markets the loop is seeded with. -/
def seedMarkets : Nat := 40

/-- The row of an open market of 25 legs with a name, and one without. -/
def JsonValue.sampleRow : JsonValue :=
  let named (k : Nat) : JsonValue :=
    .object [("token_id", .string (toString k)), ("outcome", .string ("Leg " ++ toString k))]
  .object [("condition_id", .string MarketId.zero.asStr), ("active", .bool true),
    ("closed", .bool false), ("accepting_orders", .bool true),
    ("tokens", .array ((List.range 25).map named ++ [.object [("token_id", .string "25")]]))]

/-- The refresh loop of the market data task. -/
structure MarketData (G : Type) where
  tokens : List TokenId
  seq : Nat
  /-- Within a tick: the tokens still to ask for, and how many answers were good. -/
  pending : Option (List TokenId × Nat)
  health : HealthMonitor
  /-- What the loop shares with the other tasks. -/
  session : PaperSession G
  /-- The requests made, each with its sequence number. -/
  asked : List (TokenId × Nat)
  /-- The ticks completed. -/
  ticks : Nat

/-- A book as the venue answers it, when it arrives, and how the resting map enumerates the
orders on it. -/
structure BookAnswer where
  raw : ClobBook
  at_ : DateTime
  candidates : List (OrderId × RestingOrder)

inductive RefreshEvent
  | tick
  /-- The next request of the tick, and its answer if there is one. -/
  | answer (a : Option BookAnswer)
  | finish (now : DateTime)
  /-- A step of another task. -/
  | other (e : SessionEvent)

/-- The outcome tokens of the first tradable markets. -/
def seedTokens (ms : List Market) : List TokenId :=
  ((ms.filter Market.isTradable).take seedMarkets).flatMap fun m => m.outcomes.map Outcome.tokenId

theorem mem_seedTokens {ms : List Market} {t : TokenId} (h : t ∈ seedTokens ms) :
    ∃ m ∈ ms, m.isTradable = true ∧ ∃ o ∈ m.outcomes, o.tokenId = t := by
  obtain ⟨m, kept, leg⟩ := List.mem_flatMap.mp h
  obtain ⟨listed, tradable⟩ := List.mem_filter.mp (List.mem_of_mem_take kept)
  exact ⟨m, listed, tradable, List.mem_map.mp leg⟩

namespace MarketData

variable {G : Type}

def seeded (ms : List Market) (health : HealthMonitor) (session : PaperSession G) :
    MarketData G where
  tokens := seedTokens ms
  seq := 0
  pending := none
  health := health
  session := session
  asked := []
  ticks := 0

/-- What the loop reports of itself once a tick is over. -/
def report (s : MarketData G) (ok : Nat) (now : DateTime) : HealthMonitor :=
  if 0 < ok then s.health.set "market_data" .healthy (toString ok ++ " books refreshed") now
  else if s.tokens ≠ [] then s.health.set "market_data" .degraded "no books refreshed" now
  else s.health

section Step

-- `str::parse::<Decimal>`
variable (parse : String → Option Decimal) (rng : Rng G)

/-- A good answer is marked, filled against and cached; a bad one is only logged. -/
def receive (s : MarketData G) (ok : Nat) (a : Option BookAnswer) :
    Option (PaperSession G × Nat) :=
  match a with
  | none => some (s.session, ok)
  | some a =>
    match parseBookValue parse a.raw s.seq a.at_ with
    | .error _ => some (s.session, ok)
    | .ok b =>
      if s.session.paper.Candidates b a.candidates then
        some (s.session.bookUpdate rng b a.candidates a.at_, ok + 1)
      else none

def step (s : MarketData G) : RefreshEvent → Option (MarketData G)
  | .tick =>
    match s.pending with
    | none => some { s with pending := some (s.tokens.take refreshSlice, 0) }
    | some _ => none
  | .answer a =>
    match s.pending with
    | some (t :: rest, ok) => do
      let s := { s with seq := s.seq + 1, asked := s.asked ++ [(t, s.seq + 1)] }
      let (session, ok) ← s.receive parse rng ok a
      return { s with session := session, pending := some (rest, ok) }
    | _ => none
  | .finish now =>
    match s.pending with
    | some ([], ok) => some { s with
        pending := none
        health := s.report ok now
        tokens := Rotation.next refreshSlice s.tokens
        ticks := s.ticks + 1 }
    | _ => none
  | .other e => do
    let session ← s.session.step rng e
    return { s with session := session }

end Step

/-- The tokens that the first `n` ticks ask for, in order. -/
def slices (seed : List TokenId) (n : Nat) : List TokenId :=
  (List.range n).flatMap fun k => ((Rotation.next refreshSlice)^[k] seed).take refreshSlice

theorem slices_succ (seed : List TokenId) (n : Nat) : slices seed (n + 1) =
    slices seed n ++ ((Rotation.next refreshSlice)^[n] seed).take refreshSlice := by
  unfold slices
  rw [List.range_succ, List.flatMap_append, List.flatMap_singleton]

/-- The requests are the slices of the rotating seed, numbered from one. -/
structure Scheduled (seed : List TokenId) (s : MarketData G) : Prop where
  rotated : s.tokens = (Rotation.next refreshSlice)^[s.ticks] seed
  numbered : s.asked.map Prod.snd = List.range' 1 s.seq
  idle : s.pending = none → s.asked.map Prod.fst = slices seed s.ticks
  within : ∀ rest ok, s.pending = some (rest, ok) → ∃ done,
    s.asked.map Prod.fst = slices seed s.ticks ++ done ∧ done ++ rest = s.tokens.take refreshSlice

variable {parse : String → Option Decimal} {rng : Rng G}

theorem scheduled_seeded (ms : List Market) (health : HealthMonitor) (session : PaperSession G) :
    (seeded ms health session).Scheduled (seedTokens ms) := by
  refine ⟨rfl, rfl, fun _ => rfl, ?_⟩
  intro rest ok h
  cases h

/-- What a step does to the schedule. -/
theorem step_cases {s s' : MarketData G} {e : RefreshEvent} (taken : s.step parse rng e = some s') :
    match e with
    | .tick => s.pending = none ∧ s' = { s with pending := some (s.tokens.take refreshSlice, 0) }
    | .answer _ => ∃ t rest ok ok' session, s.pending = some (t :: rest, ok) ∧ s' = { s with
        seq := s.seq + 1, asked := s.asked ++ [(t, s.seq + 1)], session := session,
        pending := some (rest, ok') }
    | .finish now => ∃ ok, s.pending = some ([], ok) ∧ s' = { s with
        pending := none, health := s.report ok now, tokens := Rotation.next refreshSlice s.tokens,
        ticks := s.ticks + 1 }
    | .other _ => ∃ session, s' = { s with session := session } := by
  cases e with
  | tick =>
    simp only [step] at taken
    split at taken
    next idle => exact ⟨idle, (Option.some.inj taken).symm⟩
    next => cases taken
  | answer a =>
    simp only [step] at taken
    split at taken
    next t rest ok pending =>
      obtain ⟨⟨session, ok'⟩, _, same⟩ := Option.bind_eq_some_iff.mp taken
      exact ⟨t, rest, ok, ok', session, pending, (Option.some.inj same).symm⟩
    next => cases taken
  | finish now =>
    simp only [step] at taken
    split at taken
    next ok pending => exact ⟨ok, pending, (Option.some.inj taken).symm⟩
    next => cases taken
  | other e =>
    obtain ⟨session, _, same⟩ := Option.bind_eq_some_iff.mp taken
    exact ⟨session, (Option.some.inj same).symm⟩

theorem Scheduled.step {seed : List TokenId} {s s' : MarketData G} {e : RefreshEvent}
    (h : s.Scheduled seed) (taken : s.step parse rng e = some s') : s'.Scheduled seed := by
  have cases_ := step_cases taken
  cases e with
  | tick =>
    obtain ⟨idle, rfl⟩ := cases_
    refine ⟨h.rotated, h.numbered, ?_, ?_⟩
    · intro busy
      cases busy
    · intro rest ok same
      cases same
      exact ⟨[], by rw [h.idle idle, List.append_nil], rfl⟩
  | answer a =>
    obtain ⟨t, rest, ok, ok', session, pending, rfl⟩ := cases_
    refine ⟨h.rotated, ?_, ?_, ?_⟩
    · rw [List.map_append, h.numbered, List.range'_1_concat, Nat.add_comm 1]
      rfl
    · intro busy
      cases busy
    · intro rest' ok'' same
      cases same
      obtain ⟨done, asked, slice⟩ := h.within _ _ pending
      refine ⟨done ++ [t], ?_, ?_⟩
      · rw [List.map_append, asked, List.append_assoc]
        rfl
      · rw [List.append_assoc]
        exact slice
  | finish now =>
    obtain ⟨ok, pending, rfl⟩ := cases_
    refine ⟨?_, h.numbered, ?_, ?_⟩
    · rw [Function.iterate_succ_apply', ← h.rotated]
    · intro _
      obtain ⟨done, asked, slice⟩ := h.within _ _ pending
      rw [List.append_nil] at slice
      rw [slices_succ, ← h.rotated, ← slice]
      exact asked
    · intro rest ok same
      cases same
  | other e =>
    obtain ⟨session, rfl⟩ := cases_
    exact ⟨h.rotated, h.numbered, h.idle, h.within⟩

theorem Scheduled.run {seed : List TokenId} {s s' : MarketData G} {es : List RefreshEvent}
    (h : s.Scheduled seed) (run : Run (MarketData.step parse rng) Anywhere s es s') :
    s'.Scheduled seed :=
  run.keeps (fun _ _ _ before _ taken => before.step taken) h

/-- Requests are only added. -/
theorem asked_prefix {s s' : MarketData G} {es : List RefreshEvent}
    (run : Run (MarketData.step parse rng) Anywhere s es s') : s.asked <+: s'.asked := by
  refine run.keeps (I := fun u => s.asked <+: u.asked) ?_ List.prefix_rfl
  intro t e u before _ taken
  have cases_ := step_cases taken
  cases e with
  | tick =>
    obtain ⟨_, rfl⟩ := cases_
    exact before
  | answer a =>
    obtain ⟨_, _, _, _, _, _, rfl⟩ := cases_
    exact before.trans (List.prefix_append _ _)
  | finish now =>
    obtain ⟨_, _, rfl⟩ := cases_
    exact before
  | other e =>
    obtain ⟨_, rfl⟩ := cases_
    exact before

theorem slices_add (seed : List TokenId) (m n : Nat) : slices seed (m + n) =
    slices seed m ++ (List.range n).flatMap fun j =>
      ((Rotation.next refreshSlice)^[m + j] seed).take refreshSlice := by
  unfold slices
  rw [List.range_add, List.flatMap_append, List.flatMap_map]

/-- What has been asked for reaches at least as far as the completed ticks. -/
theorem Scheduled.slices_prefix {seed : List TokenId} {s : MarketData G} (h : s.Scheduled seed) :
    slices seed s.ticks <+: s.asked.map Prod.fst := by
  cases pending : s.pending with
  | none => rw [h.idle pending]
  | some busy =>
    obtain ⟨done, asked, _⟩ := h.within _ _ pending
    rw [asked]
    exact List.prefix_append _ _

theorem mem_slices {seed : List TokenId} {n : Nat} {t : TokenId} (h : t ∈ slices seed n) :
    t ∈ seed := by
  obtain ⟨k, _, here⟩ := List.mem_flatMap.mp h
  exact Rotation.mem_iterate_next.mp (List.mem_of_mem_take here)

theorem Scheduled.asked_mem {seed : List TokenId} {s : MarketData G} (h : s.Scheduled seed)
    {q : TokenId × Nat} (mem : q ∈ s.asked) : q.1 ∈ seed := by
  have asked : q.1 ∈ s.asked.map Prod.fst := List.mem_map_of_mem mem
  cases pending : s.pending with
  | none =>
    rw [h.idle pending] at asked
    exact mem_slices asked
  | some busy =>
    obtain ⟨done, same, slice⟩ := h.within _ _ pending
    rw [same] at asked
    rcases List.mem_append.mp asked with earlier | now
    · exact mem_slices earlier
    · have taken : q.1 ∈ s.tokens.take refreshSlice := by
        rw [← slice]
        exact List.mem_append_left _ now
      rw [h.rotated] at taken
      exact Rotation.mem_iterate_next.mp (List.mem_of_mem_take taken)

/-- Between two ticks, the requests of the next ticks that together reach the length of the seed
cover every seeded token, whatever the answers and whatever the other tasks do; they carry the next
sequence numbers, each once. -/
theorem refreshed_in_turn (ms : List Market) (health : HealthMonitor) (session : PaperSession G)
    {es es' : List RefreshEvent} {s s' : MarketData G}
    (before : Run (MarketData.step parse rng) Anywhere (seeded ms health session) es s)
    (idle : s.pending = none) (after : Run (MarketData.step parse rng) Anywhere s es' s')
    (enough : (seedTokens ms).length ≤ (s'.ticks - s.ticks) * refreshSlice) :
    ∃ later, s'.asked = s.asked ++ later ∧ (∀ t ∈ seedTokens ms, t ∈ later.map Prod.fst) ∧
      later.map Prod.snd = List.range' (s.seq + 1) later.length := by
  have early := (scheduled_seeded ms health session).run before
  have late := early.run after
  obtain ⟨later, extended⟩ := asked_prefix after
  refine ⟨later, extended.symm, ?_, ?_⟩
  · intro t mem
    obtain ⟨j, below, here⟩ := Rotation.served (w := refreshSlice) (by decide) mem enough s.ticks
    have reached : s'.ticks = s.ticks + (s'.ticks - s.ticks) := by omega
    have covered := late.slices_prefix
    rw [reached, slices_add, ← early.idle idle, ← extended, List.map_append] at covered
    have inLater := (List.prefix_append_right_inj _).mp covered
    exact inLater.subset (List.mem_flatMap.mpr ⟨j, List.mem_range.mpr below, here⟩)
  · have numbers := late.numbered
    rw [← extended, List.map_append, early.numbered] at numbers
    have length : s.seq + later.length = s'.seq := by
      have total := congrArg List.length numbers
      rwa [List.length_append, List.length_range', List.length_map, List.length_range'] at total
    rw [← length, ← List.range'_append_1, Nat.add_comm 1] at numbers
    exact List.append_cancel_left numbers

/-- Two ticks of which every request fails. -/
def twoTicks : List RefreshEvent :=
  let tick : List RefreshEvent := .tick :: List.replicate refreshSlice (.answer none) ++ [.finish 0]
  tick ++ tick

def sampleSession : PaperSession Unit := .start .new .plain 0 0 () 1000 0

def sampleMarkets : List Market := samplingMarkets (fun _ => none) [.sampleRow]

theorem twoTicks_runs : ∃ s, Run (MarketData.step (fun _ => none) .steady) Anywhere
    (seeded sampleMarkets .new sampleSession) twoTicks s ∧ s.ticks = 2 := by
  obtain ⟨s, executed, ticks⟩ : ∃ s, twoTicks.foldlM (fun s e =>
      if Anywhere s e then MarketData.step (fun _ => none) .steady s e else none)
      (seeded sampleMarkets .new sampleSession) = some s ∧ s.ticks = 2 := by
    apply Option.map_eq_some_iff.mp
    decide +kernel
  exact ⟨s, run_of_foldlM executed, ticks⟩

theorem refreshed_in_turn_twoTicks : ∃ s later,
    Run (MarketData.step (fun _ => none) .steady) Anywhere
      (seeded sampleMarkets .new sampleSession) twoTicks s ∧ s.asked = later ∧
      (seedTokens sampleMarkets).length = 25 ∧
      ∀ t ∈ seedTokens sampleMarkets, t ∈ later.map Prod.fst := by
  obtain ⟨s, run, ticks⟩ := twoTicks_runs
  have legs : (seedTokens sampleMarkets).length = 25 := by decide +kernel
  have enough : (seedTokens sampleMarkets).length ≤ (s.ticks - 0) * refreshSlice := by
    rw [ticks, legs]
    decide
  obtain ⟨later, asked, all, _⟩ :=
    refreshed_in_turn sampleMarkets .new sampleSession .nil rfl run enough
  exact ⟨s, later, run, asked, legs, all⟩

/-- Nothing is ever asked for but the tokens of rows that say themselves that their market is
active, not closed and accepting orders. -/
theorem asked_says_tradable (tryFrom : FeedF64 → Option Decimal) (rows : List JsonValue)
    (health : HealthMonitor) (session : PaperSession G) {es : List RefreshEvent} {s : MarketData G}
    (run : Run (MarketData.step parse rng) Anywhere
      (seeded (samplingMarkets tryFrom rows) health session) es s) :
    ∀ q ∈ s.asked, ∃ v ∈ rows, SaysTradable v ∧ ListsToken v q.1 := by
  intro q mem
  have asked := (scheduled_seeded _ health session).run run
  obtain ⟨m, sampled, tradable, o, leg, same⟩ := mem_seedTokens (asked.asked_mem mem)
  obtain ⟨v, listed, parsed⟩ := List.mem_filterMap.mp sampled
  have ok := Fallible.toOption_eq_some parsed
  refine ⟨v, listed, clobMarketToDomain_tradable ok tradable, ?_⟩
  rw [← same]
  exact clobMarketToDomain_outcome ok leg

theorem asked_says_tradable_twoTicks : ∃ s, Run (MarketData.step (fun _ => none) .steady) Anywhere
    (seeded sampleMarkets .new sampleSession) twoTicks s ∧
    ∀ q ∈ s.asked, ∃ v ∈ [JsonValue.sampleRow], SaysTradable v ∧ ListsToken v q.1 := by
  obtain ⟨s, run, _⟩ := twoTicks_runs
  exact ⟨s, run, asked_says_tradable _ _ _ _ run⟩

end MarketData

end CopyTrading
