import CopyTrading.PipelineGates
import CopyTrading.StepRun

namespace CopyTrading

open StepRun

/-- The pipeline over the process's life, restarts included. -/
structure Intake (A : Type) where
  app : AppState
  venue : A
  /-- The orders the adapter was handed, each with the event it copies. -/
  sent : List (SourceEventId × OrderRequest)
  /-- The events that reached the adapter although their row was already there. -/
  repeated : List SourceEventId

inductive IntakeEvent (A : Type)
  | call (env : CallEnv) (trade : SourceTrade)
  /-- The rest of the process, evictions and restarts included. The table stays. -/
  | elsewhere (app : AppState) (venue : A)

variable {A : Type} (cfg : StrategyConfig) (adapter : ExecutionAdapter A)

def Intake.start (app : AppState) (venue : A) : Intake A := ⟨app, venue, [], []⟩

/-- The row of the trade is already in the table when the call inserts it. -/
def AppState.found (app : AppState) (env : CallEnv) (trade : SourceTrade) : Bool :=
  (app.repos.insertSourceEvent env.executed trade).1 = .ok false

def Intake.call (s : Intake A) (env : CallEnv) (trade : SourceTrade) : Intake A :=
  let ((app, venue), order) := s.app.onSourceTrade cfg adapter s.venue env trade
  { app := app
    venue := venue
    sent := s.sent ++ order.toList.map fun o => (trade.eventId, o)
    repeated := s.repeated ++
      if order.isSome ∧ s.app.found env trade then [trade.eventId] else [] }

def Intake.step (s : Intake A) : IntakeEvent A → Option (Intake A)
  | .call env trade => some (s.call cfg adapter env trade)
  | .elsewhere app venue => some { s with app := { app with repos := s.app.repos }, venue := venue }

/-- At most one order per source event, and none for an event that was found in the table. -/
structure OnePerEvent (s : Intake A) : Prop where
  once : (s.sent.map Prod.fst).Nodup
  fresh : s.repeated = []

/-- No trade passes the gates whose event was sent before or is found in the table. -/
def Unseen (s : Intake A) : IntakeEvent A → Prop
  | .call env trade => s.app.passes cfg env trade →
      trade.eventId ∉ s.sent.map Prod.fst ∧ s.app.found env trade = false
  | .elsewhere .. => True

theorem Intake.call_sent (s : Intake A) (env : CallEnv) (trade : SourceTrade) :
    (s.app.passes cfg env trade = false ∧ (s.call cfg adapter env trade).sent = s.sent ∧
      (s.call cfg adapter env trade).repeated = s.repeated) ∨
    (s.app.passes cfg env trade ∧
      (s.call cfg adapter env trade).sent.map Prod.fst = s.sent.map Prod.fst ++ [trade.eventId] ∧
      (s.call cfg adapter env trade).repeated =
        s.repeated ++ if s.app.found env trade then [trade.eventId] else []) := by
  have gates := s.app.onSourceTrade_isSome cfg adapter s.venue env trade
  unfold call
  cases handed : (s.app.onSourceTrade cfg adapter s.venue env trade).2 with
  | none =>
    rw [handed] at gates
    refine .inl ⟨gates.symm, ?_, ?_⟩
    · simp [handed]
    · simp [handed]
  | some order =>
    rw [handed] at gates
    refine .inr ⟨gates.symm, ?_, ?_⟩
    · simp [handed]
    · simp [handed]

theorem Intake.step_onePerEvent {s s' : Intake A} {e : IntakeEvent A}
    (taken : s.step cfg adapter e = some s') :
    OnePerEvent s' ↔ OnePerEvent s ∧ Unseen cfg s e := by
  cases e with
  | elsewhere app venue =>
    cases taken
    exact ⟨fun h => ⟨⟨h.once, h.fresh⟩, trivial⟩, fun h => ⟨h.1.once, h.1.fresh⟩⟩
  | call env trade =>
    cases taken
    rcases s.call_sent cfg adapter env trade with ⟨stopped, sent, repeated⟩ |
      ⟨passes, sent, repeated⟩
    · constructor
      · intro h
        refine ⟨⟨by rw [← sent]; exact h.once, by rw [← repeated]; exact h.fresh⟩, ?_⟩
        intro passes
        rw [stopped] at passes
        cases passes
      · rintro ⟨h, _⟩
        exact ⟨by rw [sent]; exact h.once, by rw [repeated]; exact h.fresh⟩
    · have once : ((s.call cfg adapter env trade).sent.map Prod.fst).Nodup ↔
          (s.sent.map Prod.fst).Nodup ∧ trade.eventId ∉ s.sent.map Prod.fst := by
        rw [sent, ← List.concat_eq_append, List.nodup_concat]
        exact and_comm
      have fresh : (s.call cfg adapter env trade).repeated = [] ↔
          s.repeated = [] ∧ s.app.found env trade = false := by
        rw [repeated, List.append_eq_nil_iff]
        refine and_congr_right fun _ => ?_
        cases s.app.found env trade <;> simp
      constructor
      · intro h
        obtain ⟨before, new⟩ := once.mp h.once
        obtain ⟨none, absent⟩ := fresh.mp h.fresh
        exact ⟨⟨before, none⟩, fun _ => ⟨new, absent⟩⟩
      · rintro ⟨h, unseen⟩
        obtain ⟨new, absent⟩ := unseen passes
        exact ⟨once.mpr ⟨h.once, new⟩, fresh.mpr ⟨h.fresh, absent⟩⟩

/-- A run keeps to one order per source event exactly when every step of it is unseen. -/
theorem onePerEvent_iff {app : AppState} {venue : A} {es : List (IntakeEvent A)} {s : Intake A}
    (run : Run (Intake.step cfg adapter) Anywhere (.start app venue) es s) :
    OnePerEvent s ↔ Run (Intake.step cfg adapter) (Unseen cfg) (.start app venue) es s := by
  induction run with
  | nil => exact ⟨fun _ => .nil, fun _ => ⟨List.nodup_nil, rfl⟩⟩
  | snoc before _ taken ih =>
    rw [Intake.step_onePerEvent cfg adapter taken, ih]
    constructor
    · rintro ⟨unseen, last⟩
      exact unseen.snoc last taken
    · intro unseen
      obtain ⟨t, earlier, last, _⟩ := unseen.last
      rw [before.unique earlier]
      exact ⟨earlier, last⟩

def deliveredTwice : List (IntakeEvent Unit) :=
  [.call .sample .sample, .call { CallEnv.sample with signalId := ⟨1⟩, orderId := ⟨1⟩ } .sample]

theorem onePerEvent_deliveredTwice : ∃ s, Run (Intake.step .default acceptingVenue) Anywhere
    (.start .sample ()) deliveredTwice s ∧ s.sent.length = 2 ∧
    (OnePerEvent s ↔
      Run (Intake.step .default acceptingVenue) (Unseen .default) (.start .sample ())
        deliveredTwice s) := by
  have ran : (deliveredTwice.foldlM (fun s e => if Anywhere s e then
      Intake.step .default acceptingVenue s e else none) (.start .sample ())).map
        (fun s => s.sent.length) = some 2 := by
    decide +kernel
  obtain ⟨s, executed, sent⟩ := Option.map_eq_some_iff.mp ran
  have run := run_of_foldlM executed
  exact ⟨s, run, sent, onePerEvent_iff .default acceptingVenue run⟩

/-- The second delivery of a trade is copied again, although its row is found. -/
theorem copied_twice : ¬ ∀ (A : Type) (cfg : StrategyConfig) (adapter : ExecutionAdapter A)
    (app : AppState) (venue : A) (es : List (IntakeEvent A)) (s : Intake A),
    Run (Intake.step cfg adapter) Anywhere (.start app venue) es s → OnePerEvent s := by
  intro claim
  have ran : (deliveredTwice.foldlM (fun s e => if Anywhere s e then
      Intake.step .default acceptingVenue s e else none) (.start .sample ())).map
        (fun s => s.repeated.length) = some 1 := by
    decide +kernel
  obtain ⟨s, executed, found⟩ := Option.map_eq_some_iff.mp ran
  have law := claim _ _ _ _ _ _ s (run_of_foldlM executed)
  rw [law.fresh] at found
  cases found

end CopyTrading
