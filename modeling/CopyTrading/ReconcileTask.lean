import CopyTrading.Pipeline
import CopyTrading.KillSwitchHistory
import CopyTrading.ReconciliationHalt
import CopyTrading.Since

namespace CopyTrading

open StepRun

def ReconciliationReport.summary (r : ReconciliationReport) : String :=
  if r.isClean then "clean: " ++ toString r.checked ++ " positions agree"
  else toString r.mismatches.length ++ " mismatches, " ++
    toString r.unexpectedVenuePositions.length ++ " unexpected at venue, " ++
    toString r.missingAtVenue.length ++ " missing at venue"

/-- What stands in the books need not be reported, a halt always is. -/
theorem ReconciliationReport.not_clean_of_warrantsHalt {r : ReconciliationReport}
    {tolerance : Decimal} (warrants : r.warrantsHalt tolerance = true) : r.isClean = false := by
  unfold warrantsHalt at warrants
  unfold isClean
  cases unexpected : r.unexpectedVenuePositions.isEmpty with
  | false => simp
  | true =>
    rw [unexpected, Bool.not_true, Bool.false_or] at warrants
    obtain ⟨m, mem, _⟩ := List.any_eq_true.mp warrants
    have some_ : r.mismatches.isEmpty = false := List.isEmpty_eq_false_iff_exists_mem.mpr ⟨m, mem⟩
    rw [some_]
    rfl

def reconcileTolerance : Decimal := 1 / 1000000

def haltTolerance : Decimal := 1

/-- What the reconciliation task reads and writes. -/
structure ReconcileRun (A : Type) where
  portfolio : Portfolio
  orders : OrderManager
  venue : A
  killSwitch : KillSwitch
  reconciliationMismatchesTotal : UInt64
  killSwitchActivationsTotal : UInt64

inductive ReconcileEvent (A : Type)
  /-- The venue has answered the query of one tick. -/
  | tick (positions : Except ExecutionError (List VenuePosition)) (now : DateTime)
    (cancelAt : OrderId → DateTime)
  | kill (e : KillEvent)
  /-- The rest of the process. -/
  | elsewhere (portfolio : Portfolio) (orders : OrderManager) (venue : A) (activations : UInt64)

def Mismatch.event (now : DateTime) (m : Mismatch) : SystemEvent :=
  .reconciliationMismatch m.tokenId ⟨|m.internal|, abs_nonneg _⟩ ⟨|m.venue|, abs_nonneg _⟩ now

def ReconciliationReport.haltReason (r : ReconciliationReport) : String :=
  "reconciliation mismatch: " ++ r.summary

namespace ReconcileRun

variable {A : Type} (mode : AppMode) (adapter : ExecutionAdapter A)

def report (s : ReconcileRun A) (venue : List VenuePosition) (now : DateTime) :
    ReconciliationReport :=
  reconcile s.portfolio.exposureMap venue reconcileTolerance now

/-- The disagreements are counted and sent out. -/
def reported (s : ReconcileRun A) (r : ReconciliationReport) (now : DateTime) : ReconcileRun A :=
  { s with
    reconciliationMismatchesTotal :=
      s.reconciliationMismatchesTotal + UInt64.ofNat r.mismatches.length
    orders := r.mismatches.foldl (fun om m => om.emit (m.event now)) s.orders }

/-- Trading stops, and what is open is cancelled. -/
def halted (s : ReconcileRun A) (reason : String) (now : DateTime)
    (cancelAt : OrderId → DateTime) : ReconcileRun A :=
  let orders := s.orders.emit (.killSwitchActivated reason "reconciler" now)
  let (_, orders, venue) := orders.cancelAll adapter s.venue cancelAt cancelAt
  { s with
    orders := orders
    venue := venue
    killSwitch := s.killSwitch.engage reason "reconciler" now
    killSwitchActivationsTotal := s.killSwitchActivationsTotal + 1 }

def tick (s : ReconcileRun A) (positions : Except ExecutionError (List VenuePosition))
    (now : DateTime) (cancelAt : OrderId → DateTime) : ReconcileRun A :=
  match positions with
  | .error _ => s
  | .ok venue =>
    let r := s.report venue now
    if r.isClean then s
    else
      let s := s.reported r now
      if mode = .live ∧ r.warrantsHalt haltTolerance then
        s.halted adapter r.haltReason now cancelAt
      else s

def step (s : ReconcileRun A) : ReconcileEvent A → Option (ReconcileRun A)
  | .tick positions now cancelAt => some (s.tick mode adapter positions now cancelAt)
  | .kill e => some { s with killSwitch := s.killSwitch.step e }
  | .elsewhere portfolio orders venue activations => some { s with
      portfolio := portfolio
      orders := orders
      venue := venue
      killSwitchActivationsTotal := activations }

/-- The venue lists every token once. -/
def ListsOnce (_ : ReconcileRun A) : ReconcileEvent A → Prop
  | .tick (.ok venue) _ _ => (venue.map VenuePosition.tokenId).Nodup
  | _ => True

/-- What halts trading: someone does, or the venue, in live mode, holds something we know nothing
of, or holds more than a share more or less of a token than we do. -/
def Halts (s : ReconcileRun A) (e : ReconcileEvent A) (c : HaltCause) : Prop :=
  match e with
  | .kill e => e.cause = some c
  | .tick (.ok venue) now _ => mode = .live ∧
    (UnknownAtVenue s.portfolio.exposureMap venue reconcileTolerance ∨
      ListedApart s.portfolio.exposureMap venue haltTolerance) ∧
    c = ⟨(s.report venue now).haltReason, "reconciler", now⟩
  | _ => False

end ReconcileRun

def ReconcileEvent.resets {A : Type} : ReconcileEvent A → Bool
  | .kill e => e.resets
  | _ => false

/-- Why trading is halted, if it is. -/
def KillSwitch.cause (k : KillSwitch) : Option HaltCause :=
  if k.engaged then some ⟨k.reason.getD "engaged", k.engagedBy.getD "", k.engagedAt.getD 0⟩
  else none

namespace KillSwitch

theorem cause_of_off {k : KillSwitch} (off : k.engaged = false) : k.cause = none := by
  unfold cause
  rw [off]
  rfl

theorem cause_none_iff {k : KillSwitch} : k.cause = none ↔ k.engaged = false := by
  unfold cause
  cases k.engaged <;> simp

theorem cause_engage (k : KillSwitch) (c : HaltCause) :
    (k.engage c.reason c.by_ c.at_).cause = k.cause.or (some c) := by
  unfold engage
  cases engaged : k.engaged with
  | true =>
    rw [if_pos rfl]
    unfold cause
    rw [engaged]
    rfl
  | false =>
    rw [if_neg Bool.false_ne_true, cause_of_off engaged]
    rfl

theorem cause_step (k : KillSwitch) (e : KillEvent) :
    (k.step e).cause = if e.resets then none else k.cause.or e.cause := by
  cases e with
  | engage c => exact k.cause_engage c
  | reset by_ => rfl
  | setCancelOpenOrders v => exact (Option.or_none).symm

end KillSwitch

namespace ReconcileRun

variable {A : Type} {mode : AppMode} {adapter : ExecutionAdapter A}

/-- The cause that a step gives, whether or not trading is halted already. -/
def cause (mode : AppMode) (s : ReconcileRun A) : ReconcileEvent A → Option HaltCause
  | .kill e => e.cause
  | .tick (.ok venue) now _ =>
    if mode = .live ∧ (s.report venue now).warrantsHalt haltTolerance then
      some ⟨(s.report venue now).haltReason, "reconciler", now⟩
    else none
  | _ => none

theorem step_cause (s t : ReconcileRun A) (e : ReconcileEvent A)
    (taken : s.step mode adapter e = some t) : t.killSwitch.cause =
      if e.resets then none else s.killSwitch.cause.or (s.cause mode e) := by
  cases e with
  | kill e =>
    cases taken
    exact s.killSwitch.cause_step e
  | elsewhere =>
    cases taken
    exact (Option.or_none).symm
  | tick positions now cancelAt =>
    cases taken
    show (s.tick mode adapter positions now cancelAt).killSwitch.cause = _
    cases positions with
    | error e => exact (Option.or_none).symm
    | ok venue =>
      show _ = s.killSwitch.cause.or (s.cause mode (.tick (.ok venue) now cancelAt))
      unfold tick cause
      simp only
      by_cases halts : mode = .live ∧ (s.report venue now).warrantsHalt haltTolerance = true
      · have dirty := ReconciliationReport.not_clean_of_warrantsHalt halts.2
        rw [dirty, if_neg Bool.false_ne_true, if_pos halts, if_pos halts]
        exact s.killSwitch.cause_engage
          ⟨(s.report venue now).haltReason, "reconciler", now⟩
      · rw [if_neg halts, if_neg halts, Option.or_none]
        split
        · rfl
        · rfl

theorem cause_iff {s : ReconcileRun A} {e : ReconcileEvent A} (listed : s.ListsOnce e)
    (c : HaltCause) : s.cause mode e = some c ↔ s.Halts mode e c := by
  cases e with
  | kill e => exact Iff.rfl
  | elsewhere => exact iff_of_false (fun none_ => by cases none_) id
  | tick positions now cancelAt =>
    cases positions with
    | error e => exact iff_of_false (fun none_ => by cases none_) id
    | ok venue =>
      have le : reconcileTolerance ≤ haltTolerance := by
        norm_num [reconcileTolerance, haltTolerance]
      have warrants : (s.report venue now).warrantsHalt haltTolerance = true ↔ _ :=
        warrantsHalt_iff listed le now
      unfold cause Halts
      simp only
      rw [← warrants]
      constructor
      · intro given
        split at given
        next halts => cases given; exact ⟨halts.1, halts.2, rfl⟩
        next => cases given
      · rintro ⟨live, halts, rfl⟩
        exact if_pos ⟨live, halts⟩

theorem resets_of_cause {s : ReconcileRun A} {e : ReconcileEvent A} {c : HaltCause}
    (given : s.cause mode e = some c) : e.resets = false := by
  cases e with
  | kill e =>
    cases e with
    | reset by_ => cases given
    | _ => rfl
  | _ => rfl

/-- A step halts trading for a cause, or finds it halted for it and does not resume it. -/
theorem step_cause_iff {s t : ReconcileRun A} {e : ReconcileEvent A} (listed : s.ListsOnce e)
    (taken : s.step mode adapter e = some t) (c : HaltCause) : t.killSwitch.cause = some c ↔
      (s.killSwitch.engaged = false ∧ s.Halts mode e c) ∨
        s.killSwitch.cause = some c ∧ e.resets = false := by
  rw [step_cause s t e taken, ← cause_iff listed c, ← KillSwitch.cause_none_iff]
  cases resets : e.resets with
  | true =>
    refine iff_of_false (fun none_ => by cases none_) ?_
    rintro (⟨_, given⟩ | ⟨_, kept⟩)
    · exact nomatch resets.symm.trans (resets_of_cause given)
    · cases kept
  | false =>
    rw [if_neg Bool.false_ne_true, Option.or_eq_some_iff]
    simp only [and_true]
    exact or_comm

/-- In every run trading is halted for a cause exactly if that cause was given while it was not
halted and nobody has resumed it since: by whoever engages the switch, or in live mode by a tick at
which the venue's holdings and ours disagree. And while it is halted every order is refused for it.
-/
theorem halted_for_iff {s t : ReconcileRun A} {es : List (ReconcileEvent A)}
    (off : s.killSwitch.engaged = false) (run : Run (step mode adapter) ListsOnce s es t)
    (c : HaltCause) :
    (t.killSwitch.cause = some c ↔ Since.Holds (step mode adapter) ListsOnce
      (fun u e => u.killSwitch.engaged = false ∧ u.Halts mode e c)
      (fun _ e => e.resets = false) s es) ∧
    (t.killSwitch.cause = some c → ∀ (engine : RiskEngine) (order : OrderRequest)
      (snap : RiskSnapshot) (status : SystemStatus) (book : Option OrderBook) (enabled : Bool)
      (label : String) (tradable : Option (MarketId × Bool × String))
      (processed : Option SourceEventId) (now : DateTime),
      engine.check order snap status t.killSwitch book enabled label tradable processed now =
        .rejected (.killSwitchActive c.reason)) := by
  constructor
  · refine Since.holds_iff (fun u e v listed taken => step_cause_iff listed taken c) ?_ run
    rw [KillSwitch.cause_of_off off]
    exact nofun
  · intro held engine order snap status book enabled label tradable processed now
    unfold KillSwitch.cause at held
    split at held
    next engaged =>
      cases held
      exact engine.check_engaged engaged
    next => cases held

def holdingNothing : ReconcileRun Unit := ⟨.new 1000 0, .new, (), .new, 0, 0⟩

/-- The venue reports five shares of a token that was never traded here. -/
def unknownHolding : ReconcileEvent Unit := .tick (.ok [⟨.zero, .whole 5⟩]) 7 fun _ => 0

theorem halted_for_iff_unknownHolding : ∃ t,
    Run (step .live acceptingVenue) ListsOnce holdingNothing [unknownHolding] t ∧
      t.killSwitch.cause = some ⟨"reconciliation mismatch: 0 mismatches, 1 unexpected at venue, " ++
        "0 missing at venue", "reconciler", 7⟩ := by
  have listed : holdingNothing.ListsOnce unknownHolding := List.nodup_singleton _
  have run : Run (step .live acceptingVenue) ListsOnce holdingNothing [unknownHolding] _ :=
    .single listed rfl
  have reason : (holdingNothing.report [⟨.zero, .whole 5⟩] 7).haltReason =
      "reconciliation mismatch: 0 mismatches, 1 unexpected at venue, " ++ "0 missing at venue" := by
    decide +kernel
  have unknown : UnknownAtVenue holdingNothing.portfolio.exposureMap [⟨.zero, .whole 5⟩]
      reconcileTolerance := by
    refine ⟨_, List.mem_cons_self, rfl, ?_⟩
    norm_num [reconcileTolerance, Qty.whole]
  refine ⟨_, run, ((halted_for_iff rfl run _).1.mpr ?_)⟩
  exact ⟨[], _, [], _, rfl, .nil, ⟨rfl, rfl, .inl unknown, by rw [reason]⟩, .nil _ _⟩

end ReconcileRun

end CopyTrading
