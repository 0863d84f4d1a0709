import CopyTrading.MarketStream
import Mathlib.Data.Finset.Sort
import Mathlib.Data.String.Basic

namespace CopyTrading

open StepRun

/-- A long-running process must not subscribe to unbounded tokens. -/
def maxSubscribedTokens : Nat := 400

/-- How long after a change of the token set the stream reconnects to pick it up. -/
def resubscribeDebounce : Int := 5000000000

/-- The order of a `BTreeSet` of tokens. -/
def TokenId.le (a b : TokenId) : Prop := a.asStr ≤ b.asStr

instance : DecidableRel TokenId.le := fun a b => inferInstanceAs (Decidable (a.asStr ≤ b.asStr))

instance : IsTrans TokenId TokenId.le := ⟨fun _ _ _ => le_trans (α := String)⟩

instance : Std.Antisymm TokenId.le where
  antisymm a b h h' := by
    obtain ⟨x, _⟩ := a
    obtain ⟨y, _⟩ := b
    have same : x = y := le_antisymm h h'
    subst same
    rfl

instance : Std.Total TokenId.le := ⟨fun a b => le_total a.asStr b.asStr⟩

/-- The tokens the stream should follow, at most so many of them. -/
structure TokenSubscriptions where
  tokens : Finset TokenId
  dirty : Bool
  bounded : tokens.card ≤ maxSubscribedTokens

namespace TokenSubscriptions

def new : TokenSubscriptions := ⟨∅, false, Nat.zero_le _⟩

/-- Adds a token. True if it was not already followed and there was room. -/
def add (s : TokenSubscriptions) (t : TokenId) : Bool × TokenSubscriptions :=
  if h : s.tokens.card ≥ maxSubscribedTokens ∨ t ∈ s.tokens then (false, s)
  else
    (true, ⟨insert t s.tokens, true, by
      rw [Finset.card_insert_of_notMem fun mem => h (.inr mem)]
      exact not_le.mp fun full => h (.inl full)⟩)

def snapshot (s : TokenSubscriptions) : List TokenId := s.tokens.sort TokenId.le

def takeDirty (s : TokenSubscriptions) : Bool × TokenSubscriptions :=
  (s.dirty, { s with dirty := false })

theorem mem_snapshot {s : TokenSubscriptions} {t : TokenId} : t ∈ s.snapshot ↔ t ∈ s.tokens :=
  Finset.mem_sort _

theorem snapshot_nodup (s : TokenSubscriptions) : s.snapshot.Nodup := Finset.sort_nodup _ _

/-- What adding a token does. -/
theorem add_cases (s : TokenSubscriptions) (t : TokenId) : (s.add t).2 = s ∨
    t ∉ s.tokens ∧ (s.add t).2.tokens = insert t s.tokens ∧ (s.add t).2.dirty = true := by
  unfold add
  split
  next => exact .inl rfl
  next fresh => exact .inr ⟨fun mem => fresh (.inr mem), rfl, rfl⟩

theorem subset_add (s : TokenSubscriptions) (t : TokenId) : s.tokens ⊆ (s.add t).2.tokens := by
  rcases s.add_cases t with same | ⟨_, tokens, _⟩
  · rw [same]
  · rw [tokens]
    exact Finset.subset_insert t s.tokens

/-- Followed tokens of which a connection carries some: it carries them all exactly if their
numbers agree. -/
theorem length_eq_iff {s : TokenSubscriptions} {carried : List TokenId} (nodup : carried.Nodup)
    (followed : ∀ t ∈ carried, t ∈ s.tokens) :
    s.tokens.card = carried.length ↔ ∀ t ∈ s.tokens, t ∈ carried := by
  have card : carried.toFinset.card = carried.length := List.toFinset_card_of_nodup nodup
  have subset : carried.toFinset ⊆ s.tokens := fun t mem => followed t (List.mem_toFinset.mp mem)
  constructor
  · intro same t mem
    have whole := Finset.eq_of_subset_of_card_le subset (by omega)
    rw [← whole] at mem
    exact List.mem_toFinset.mp mem
  · intro all
    have superset : s.tokens ⊆ carried.toFinset := fun t mem => List.mem_toFinset.mpr (all t mem)
    rw [← card]
    exact le_antisymm (Finset.card_le_card superset) (Finset.card_le_card subset)

end TokenSubscriptions

/-- Where the streaming task is. -/
inductive StreamPhase
  | top
  /-- Nothing to follow yet. -/
  | idle
  | connecting (tokens : List TokenId)
  | subscribing (tokens : List TokenId)
  /-- At the top of the inner loop. -/
  | polling (tokens : List TokenId) (sinceChange : DateTime)
  /-- The dirty flag has been taken. -/
  | deciding (tokens : List TokenId) (sinceChange : DateTime)
  | selecting (tokens : List TokenId) (sinceChange : DateTime)
  /-- The connection is over, and the next attempt is delayed. -/
  | waiting
  | stopped
  deriving DecidableEq

/-- The tokens the current attempt was made for. -/
def StreamPhase.carried : StreamPhase → List TokenId
  | .connecting tokens | .subscribing tokens => tokens
  | .polling tokens _ | .deciding tokens _ | .selecting tokens _ => tokens
  | _ => []

/-- The streaming task, beside the tasks that discover tokens. -/
structure StreamLoop where
  subs : TokenSubscriptions
  phase : StreamPhase
  stream : MarketStream
  reconnects : Nat
  /-- How often a change put the debounce back to its start. -/
  postponed : Nat

inductive LoopEvent
  /-- The trading path has seen a token. -/
  | add (t : TokenId)
  | look
  | wake
  | connected
  | connectFailed
  | subscribed (now : DateTime)
  | subscribeFailed
  | poll (now : DateTime)
  | decide (now : DateTime)
  | frame (evs : List MarketEvent) (at_ : DateTime)
  /-- A timeout, a ping, or a frame that tells nothing. -/
  | quiet
  | broken
  | waited
  | shutdown

namespace StreamLoop

def start (books : BookCache) : StreamLoop where
  subs := .new
  phase := .top
  stream := ⟨.new, books⟩
  reconnects := 0
  postponed := 0

def fail (s : StreamLoop) : StreamLoop :=
  { s with phase := .waiting, reconnects := s.reconnects + 1 }

def step (s : StreamLoop) : LoopEvent → Option StreamLoop
  | .add t => some { s with subs := (s.subs.add t).2 }
  | .look =>
    if s.phase = .top then
      some { s with
        phase := if s.subs.snapshot.isEmpty then .idle else .connecting s.subs.snapshot }
    else none
  | .wake => if s.phase = .idle then some { s with phase := .top } else none
  | .connected =>
    match s.phase with
    | .connecting tokens => some { s with phase := .subscribing tokens }
    | _ => none
  | .connectFailed =>
    match s.phase with
    | .connecting _ => some s.fail
    | _ => none
  | .subscribed now =>
    match s.phase with
    | .subscribing tokens => some { s with
        -- what was discovered during the handshake is no longer marked
        subs := s.subs.takeDirty.2
        phase := .polling tokens now
        stream := s.stream.step .reconnect }
    | _ => none
  | .subscribeFailed =>
    match s.phase with
    | .subscribing _ => some s.fail
    | _ => none
  | .poll now =>
    match s.phase with
    | .polling tokens sinceChange =>
      let (changed, subs) := s.subs.takeDirty
      some { s with
        subs := subs
        phase := .deciding tokens (if changed then now else sinceChange)
        postponed := if changed then s.postponed + 1 else s.postponed }
    | _ => none
  | .decide now =>
    match s.phase with
    | .deciding tokens sinceChange =>
      if now - sinceChange > resubscribeDebounce ∧ s.subs.tokens.card ≠ tokens.length then some s.fail
      else some { s with phase := .selecting tokens sinceChange }
    | _ => none
  | .frame evs at_ =>
    match s.phase with
    | .selecting tokens sinceChange => some { s with
        phase := .polling tokens sinceChange
        stream := s.stream.run (evs.map (.market · at_)) }
    | _ => none
  | .quiet =>
    match s.phase with
    | .selecting tokens sinceChange => some { s with phase := .polling tokens sinceChange }
    | _ => none
  | .broken =>
    match s.phase with
    | .selecting _ _ => some s.fail
    | _ => none
  | .waited => if s.phase = .waiting then some { s with phase := .top } else none
  | .shutdown => some { s with phase := .stopped }

/-- What the task relies on: the current attempt was made for followed tokens only, each once. -/
structure Follows (s : StreamLoop) : Prop where
  nodup : s.phase.carried.Nodup
  followed : ∀ t ∈ s.phase.carried, t ∈ s.subs.tokens
  /-- Every change that has postponed a reconnect, or still may, is a token followed since. -/
  counted : s.postponed + s.subs.dirty.toNat ≤ s.subs.tokens.card

theorem follows_start (books : BookCache) : (start books).Follows := by
  refine ⟨List.nodup_nil, ?_, Nat.zero_le _⟩
  intro t mem
  cases mem

/-- What a step makes of the task: a token is added, the mark is taken, or the task goes on, with
the connection that it has, with none, or with a new one. -/
inductive Move (s : StreamLoop) : StreamLoop → Prop
  | added (t : TokenId) : Move s { s with subs := (s.subs.add t).2 }
  | marked (es : List StreamEvent) {p : StreamPhase} {postponed : Nat}
      (same : p.carried = s.phase.carried) (bound : postponed ≤ s.postponed + s.subs.dirty.toNat) :
      Move s { s with
        subs := s.subs.takeDirty.2, phase := p, stream := s.stream.run es, postponed := postponed }
  | gone (es : List StreamEvent) {p : StreamPhase} {reconnects : Nat}
      (carried : p.carried = s.phase.carried ∨ p.carried = [] ∨ p.carried = s.subs.snapshot) :
      Move s { s with phase := p, stream := s.stream.run es, reconnects := reconnects }

theorem Move.stays {s : StreamLoop} {p p' : StreamPhase} (phase : s.phase = p)
    (same : p'.carried = p.carried) : Move s { s with phase := p' } :=
  .gone [] (.inl (same.trans (congrArg StreamPhase.carried phase).symm))

theorem Move.leaves (s : StreamLoop) {p : StreamPhase} (none_ : p.carried = []) (reconnects : Nat) :
    Move s { s with phase := p, reconnects := reconnects } :=
  .gone [] (.inr (.inl none_))

theorem move {s s' : StreamLoop} {e : LoopEvent} (taken : s.step e = some s') : s.Move s' := by
  cases e with
  | add t =>
    cases taken
    exact .added t
  | look =>
    obtain ⟨_, same⟩ := Option.ite_none_right_eq_some.mp taken
    cases same
    refine .gone [] ?_
    split
    · exact .inr (.inl rfl)
    · exact .inr (.inr rfl)
  | wake | waited =>
    obtain ⟨_, same⟩ := Option.ite_none_right_eq_some.mp taken
    cases same
    exact .leaves s rfl s.reconnects
  | shutdown =>
    cases taken
    exact .leaves s rfl s.reconnects
  | connected | quiet =>
    simp only [step] at taken
    split at taken
    next phase =>
      cases taken
      exact .stays phase rfl
    next => cases taken
  | connectFailed | subscribeFailed | broken =>
    simp only [step] at taken
    split at taken
    next =>
      cases taken
      exact .leaves s rfl _
    next => cases taken
  | subscribed now =>
    simp only [step] at taken
    split at taken
    next phase =>
      cases taken
      exact .marked [.reconnect] (congrArg StreamPhase.carried phase).symm
        (Nat.le_add_right _ _)
    next => cases taken
  | poll now =>
    simp only [step] at taken
    split at taken
    next phase =>
      cases taken
      refine .marked [] (congrArg StreamPhase.carried phase).symm ?_
      unfold TokenSubscriptions.takeDirty
      cases s.subs.dirty
      · exact le_rfl
      · exact le_rfl
    next => cases taken
  | decide now =>
    simp only [step] at taken
    split at taken
    next phase =>
      split at taken
      · cases taken
        exact .leaves s rfl _
      · cases taken
        exact .stays phase rfl
    next => cases taken
  | frame evs at_ =>
    simp only [step] at taken
    split at taken
    next phase =>
      cases taken
      exact .gone (evs.map (.market · at_)) (.inl (congrArg StreamPhase.carried phase).symm)
    next => cases taken

theorem Follows.step {s s' : StreamLoop} {e : LoopEvent} (h : s.Follows)
    (taken : s.step e = some s') : s'.Follows := by
  cases move taken with
  | added t =>
    refine ⟨h.nodup, fun u mem => s.subs.subset_add t (h.followed u mem), ?_⟩
    have counted := h.counted
    rcases s.subs.add_cases t with none | ⟨fresh, tokens, dirty⟩
    · rw [none]
      exact counted
    · have card : (s.subs.add t).2.tokens.card = s.subs.tokens.card + 1 := by
        rw [tokens, Finset.card_insert_of_notMem fresh]
      have mark : (s.subs.add t).2.dirty.toNat = 1 := by rw [dirty]; rfl
      show s.postponed + (s.subs.add t).2.dirty.toNat ≤ (s.subs.add t).2.tokens.card
      omega
  | marked es same bound =>
    refine ⟨same ▸ h.nodup, fun t mem => h.followed t (same ▸ mem), ?_⟩
    exact bound.trans h.counted
  | gone es carried =>
    rcases carried with same | none | snapshot
    · exact ⟨same ▸ h.nodup, fun t mem => h.followed t (same ▸ mem), h.counted⟩
    · refine ⟨none ▸ List.nodup_nil, ?_, h.counted⟩
      intro t mem
      rw [none] at mem
      cases mem
    · refine ⟨snapshot ▸ s.subs.snapshot_nodup, ?_, h.counted⟩
      intro t mem
      rw [snapshot] at mem
      exact TokenSubscriptions.mem_snapshot.mp mem

theorem Follows.run {s s' : StreamLoop} {es : List LoopEvent} (h : s.Follows)
    (run : Run StreamLoop.step Anywhere s es s') : s'.Follows :=
  run.keeps (fun _ _ _ before _ taken => before.step taken) h

/-- In every run, also one in which a token is discovered while its mark is being cleared, a
connection carries followed tokens only, and it is given up at a decision exactly if the debounce
is over and some followed token is missing from it. -/
theorem resubscribes_iff {books : BookCache} {es : List LoopEvent} {s s' : StreamLoop}
    {tokens : List TokenId} {since now : DateTime}
    (run : Run StreamLoop.step Anywhere (start books) es s)
    (phase : s.phase = .deciding tokens since) (taken : s.step (.decide now) = some s') :
    (∀ t ∈ tokens, t ∈ s.subs.tokens) ∧
      (s'.phase = .waiting ↔
        now - since > resubscribeDebounce ∧ ∃ t ∈ s.subs.tokens, t ∉ tokens) := by
  have follows := (follows_start books).run run
  have carried : s.phase.carried = tokens := congrArg StreamPhase.carried phase
  have nodup := follows.nodup
  have followed := follows.followed
  rw [carried] at nodup followed
  refine ⟨followed, ?_⟩
  have all := TokenSubscriptions.length_eq_iff nodup followed
  have missing : s.subs.tokens.card ≠ tokens.length ↔ ∃ t ∈ s.subs.tokens, t ∉ tokens := by
    rw [ne_eq, all]
    simp only [not_forall, exists_prop]
  simp only [StreamLoop.step, phase] at taken
  split at taken
  next due =>
    cases taken
    exact iff_of_true rfl ⟨due.1, missing.mp due.2⟩
  next early =>
    cases taken
    refine iff_of_false ?_ ?_
    · intro waiting
      cases waiting
    · rintro ⟨due, some_⟩
      exact early ⟨due, missing.mpr some_⟩

/-- What the builder of the connection holds is what the cache answers, all along. -/
theorem published {books : BookCache} {es : List LoopEvent} {s : StreamLoop}
    (run : Run StreamLoop.step Anywhere (start books) es s) : s.stream.Published := by
  refine run.keeps (I := fun s => s.stream.Published) ?_ (MarketStream.published_start books)
  intro s e s' before _ taken
  cases move taken with
  | added t => exact before
  | marked es => exact before.run es
  | gone es => exact before.run es

/-- A token is discovered during the handshake, which then clears its mark. -/
def handshake : List LoopEvent :=
  [.add .zero, .look, .connected, .add .one, .subscribed 0, .poll 6000000000]

theorem handshake_runs : ∃ s, Run StreamLoop.step Anywhere (start .new) handshake s ∧
    s.phase = .deciding [.zero] 0 ∧ s.subs.tokens = {.one, .zero} := by
  obtain ⟨s, executed, shape⟩ : ∃ s, handshake.foldlM (fun s e =>
      if Anywhere s e then StreamLoop.step s e else none) (start .new) = some s ∧
      (s.phase, s.subs.tokens) = (.deciding [.zero] 0, {.one, .zero}) := by
    apply Option.map_eq_some_iff.mp
    decide +kernel
  obtain ⟨phase, tokens⟩ := Prod.ext_iff.mp shape
  exact ⟨s, run_of_foldlM executed, phase, tokens⟩

/-- The token is picked up all the same. -/
theorem resubscribes_iff_handshake : ∃ s s',
    Run StreamLoop.step Anywhere (start .new) handshake s ∧
    s.step (.decide 6000000000) = some s' ∧ s'.phase = .waiting := by
  obtain ⟨s, run, phase, tokens⟩ := handshake_runs
  obtain ⟨s', taken⟩ : ∃ s', s.step (.decide 6000000000) = some s' := by
    simp only [StreamLoop.step, phase]
    split
    · exact ⟨_, rfl⟩
    · exact ⟨_, rfl⟩
  refine ⟨s, s', run, taken, (resubscribes_iff run phase taken).2.mpr ⟨by decide, .one, ?_⟩⟩
  rw [tokens]
  decide

/-- However busy the discovery of tokens is, it cannot put the reconnect off for ever: over a whole
run the debounce starts again at most once for each followed token, so at most 400 times. -/
theorem postponed_le {books : BookCache} {es : List LoopEvent} {s : StreamLoop}
    (run : Run StreamLoop.step Anywhere (start books) es s) :
    s.postponed ≤ s.subs.tokens.card ∧ s.postponed ≤ maxSubscribedTokens := by
  have counted := ((follows_start books).run run).counted
  have bounded := s.subs.bounded
  omega

/-- A token is discovered between two looks at the flag, which puts the debounce back once. -/
def lateDiscovery : List LoopEvent :=
  [.add .zero, .look, .connected, .subscribed 0, .poll 0, .decide 0, .add .one, .quiet,
    .poll 4000000000]

theorem postponed_le_lateDiscovery : ∃ s,
    Run StreamLoop.step Anywhere (start .new) lateDiscovery s ∧ s.postponed = 1 ∧
      1 ≤ s.subs.tokens.card := by
  obtain ⟨s, executed, postponed⟩ : ∃ s, lateDiscovery.foldlM (fun s e =>
      if Anywhere s e then StreamLoop.step s e else none) (start .new) = some s ∧
      s.postponed = 1 := by
    apply Option.map_eq_some_iff.mp
    decide +kernel
  have run := run_of_foldlM executed
  exact ⟨s, run, postponed, postponed ▸ (postponed_le run).1⟩

end StreamLoop

end CopyTrading
