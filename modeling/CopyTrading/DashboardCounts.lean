import CopyTrading.DashboardRows

namespace CopyTrading

open StepRun

/-- What only the pipeline counts. -/
inductive Tally
  | received
  | signals
  | refusals
  | refusedWith (code : String)
  | submitted
  | acknowledged
  | rejected

namespace Tally

def read (m : Metrics) : Tally → UInt64
  | .received => m.sourceTradesTotal
  | .signals => m.copySignalsTotal
  | .refusals => m.riskRejectionsTotal
  | .refusedWith code => (m.rejectionsByCode.lookup code).getD 0
  | .submitted => m.ordersSubmittedTotal
  | .acknowledged => m.ordersAcknowledgedTotal
  | .rejected => m.ordersRejectedTotal

def countsFate : Tally → Fate → Bool
  | .refusals, .refused _ => true
  | .refusedWith code, .refused r => r.code = code
  | .submitted, .sent | .submitted, .acknowledged _ | .submitted, .rejected
  | .submitted, .unknown => true
  | .acknowledged, .acknowledged _ => true
  | .rejected, .rejected => true
  | _, _ => false

def counts : Tally → CopyCall → Bool
  | .received, _ => true
  | .signals, call => call.stage.signal.isSome || call.row.isSome
  | t, call => t.countsFate call.fate

end Tally

/-- The counters go up by one for a call that is counted from now on. -/
def Metrics.Follows (m m' : Metrics) (old new : CopyCall) : Prop :=
  ∀ t : Tally, t.read m' + (t.counts old).toUInt64 = t.read m + (t.counts new).toUInt64

theorem Metrics.Follows.same {m m' : Metrics} {old new : CopyCall}
    (reads : ∀ t : Tally, t.read m' = t.read m)
    (counts : ∀ t : Tally, t.counts new = t.counts old) :
    m.Follows m' old new := by
  intro t
  rw [reads, counts]

theorem counted_once (n : UInt64) : n + 1 + false.toUInt64 = n + true.toUInt64 :=
  UInt64.add_zero _

theorem Metrics.advance_follows {call : CopyCall} {next : Stage} (coherent : call.Coherent)
    (leads : call.stage.Leads next) (m : Metrics) (app : AppState) (env : CallEnv) :
    m.Follows (m.advance app call next) call (call.advance next env) := by
  obtain ⟨stage, trade, orderRow, uncounted, row, fate⟩ := call
  cases leads with
  | ends =>
    obtain ⟨rfl, rfl, rfl⟩ := coherent
    refine .same (fun t => ?_) fun t => by cases t <;> rfl
    simp only [advance]
    split
    · cases t <;> rfl
    · cases t <;> rfl
  | fetches =>
    obtain ⟨rfl, rfl, rfl⟩ := coherent
    exact .same (fun t => by cases t <;> rfl) fun t => by cases t <;> rfl
  | prices =>
    obtain ⟨rfl, rfl, rfl⟩ := coherent
    intro t
    cases t with
    | signals => exact counted_once _
    | _ => rfl
  | endsFetched =>
    obtain ⟨rfl, rfl, rfl⟩ := coherent
    exact .same (fun t => by cases t <;> rfl) fun t => by cases t <;> rfl
  | pricesFetched =>
    obtain ⟨rfl, rfl, rfl⟩ := coherent
    intro t
    cases t with
    | signals => exact counted_once _
    | _ => rfl
  | @refuses trade wallet signal book r =>
    obtain ⟨rfl, rfl, rfl, _⟩ := coherent
    intro t
    cases t with
    | refusals => exact counted_once _
    | refusedWith code =>
      show ((m.rejectionsByCode.upsert r.code 0 (· + 1)).lookup code).getD 0 + false.toUInt64 =
        (m.rejectionsByCode.lookup code).getD 0 + (decide (r.code = code)).toUInt64
      by_cases same : r.code = code
      · rw [same, AList.lookup_upsert, decide_eq_true rfl]
        exact counted_once _
      · rw [AList.lookup_upsert_ne _ _ (Ne.symm same), decide_eq_false same]
    | _ => rfl
  | empty none_ =>
    obtain ⟨_, _, _, _, some_⟩ := coherent
    cases none_.symm.trans some_
  | submits =>
    obtain ⟨rfl, rfl, rfl, _⟩ := coherent
    intro t
    cases t with
    | submitted => exact counted_once _
    | _ => rfl
  | reports =>
    refine .same (fun t => ?_) fun t => by cases t <;> rfl
    simp only [advance]
    split
    · cases t <;> rfl
    · rfl
  | books =>
    refine .same (fun t => ?_) fun t => by cases t <;> rfl
    simp only [advance]
    split
    · cases t <;> rfl
    · rfl
  | concludes =>
    refine .same (fun t => ?_) fun t => by cases t <;> rfl
    simp only [advance]
    split
    · cases t <;> rfl
    · rfl

/-- How often a list counts when one entry is replaced. -/
theorem countP_replaced {α : Type} {p : α → Bool} {xs : List α} {i : Nat} {old : α}
    (here : xs[i]? = some old) (new : α) :
    UInt64.ofNat ((xs.set i new).countP p) + (p old).toUInt64 =
      UInt64.ofNat (xs.countP p) + (p new).toUInt64 := by
  obtain ⟨inside, at_⟩ := List.getElem?_eq_some_iff.mp here
  have within : (if p xs[i] then 1 else 0) ≤ xs.countP p := List.boole_getElem_le_countP inside
  have moved : (xs.set i new).countP p + (p old).toNat = xs.countP p + (p new).toNat := by
    rw [List.countP_set inside, at_]
    rw [at_] at within
    cases was : p old with
    | true =>
      simp only [was, if_true] at within ⊢
      cases p new with
      | true => simp only [Bool.toNat_true, if_true]; omega
      | false => simp only [Bool.toNat_true, Bool.toNat_false, Bool.false_eq_true, if_false]; omega
    | false => cases p new <;> rfl
  have units : ∀ b : Bool, b.toUInt64 = UInt64.ofNat b.toNat := by decide
  rw [units, units, ← UInt64.ofNat_add, ← UInt64.ofNat_add, moved]

namespace DeskRun

variable {s s' : DeskRun} {i : Nat} {old new : CopyCall}

/-- Each of these counters is the number of calls that it is about. -/
def Counted (s : DeskRun) : Prop :=
  ∀ t : Tally, t.read s.metrics = UInt64.ofNat (s.calls.countP t.counts)

theorem Counted.replaced (h : s.Counted) (here : s.calls[i]? = some old)
    (calls : s'.calls = s.calls.set i new) (follows : s.metrics.Follows s'.metrics old new) :
    s'.Counted := by
  intro t
  have counts := countP_replaced (p := t.counts) here new
  have reads := follows t
  rw [h t, ← counts] at reads
  rw [calls]
  exact (UInt64.add_left_inj _).mp reads

theorem Counted.advance {cfg : StrategyConfig} {env : CallEnv} (h : s.Counted) (shows : s.Shows)
    (taken : s.advance cfg i env = some s') : s'.Counted := by
  unfold DeskRun.advance at taken
  split at taken
  next => cases taken
  next call here =>
    obtain ⟨⟨app, next⟩, advanced, eq⟩ := Option.map_eq_some_iff.mp taken
    cases eq
    have coherent := shows.coherent call (List.mem_of_getElem? here)
    have leads := AppState.advance_leads advanced
    exact h.replaced here rfl (Metrics.advance_follows coherent leads s.metrics s.app env)

theorem Counted.answer {response : Except ExecutionError Acknowledgement} {now : DateTime}
    (h : s.Counted) (shows : s.Shows) (taken : s.answer i response now = some s') :
    s'.Counted := by
  obtain ⟨call, signal, order, here, stage, answers⟩ := answer_cases taken
  have coherent := shows.coherent call (List.mem_of_getElem? here)
  obtain ⟨_, trade, orderRow, uncounted, row, fate⟩ := call
  cases stage
  obtain ⟨⟨row, of⟩, rfl⟩ := coherent
  obtain ⟨rfl, _⟩ := of
  cases answers with
  | acknowledged =>
    refine h.replaced here rfl fun t => ?_
    cases t with
    | acknowledged => exact counted_once _
    | _ => rfl
  | rejected =>
    refine h.replaced here rfl fun t => ?_
    cases t with
    | rejected => exact counted_once _
    | _ => rfl
  | unknown => exact h.replaced here rfl fun t => by cases t <;> rfl

theorem Counted.step {cfg : StrategyConfig} {e : DeskEvent} (h : s.Counted) (shows : s.Shows)
    (taken : s.step cfg e = some s') : s'.Counted := by
  cases e with
  | spawn executed trade =>
    cases taken
    intro t
    have before := h t
    have length : (s.spawn executed trade).calls.countP t.counts =
        s.calls.countP t.counts + (t.counts (.start trade)).toNat := by
      show (s.calls ++ [CopyCall.start trade]).countP t.counts = _
      rw [List.countP_append, List.countP_singleton]
      cases t.counts (.start trade) <;> rfl
    rw [length, UInt64.ofNat_add, ← before]
    cases t with
    | received => rfl
    | _ => exact (UInt64.add_zero _).symm
  | advance i env => exact h.advance shows taken
  | answer i response now => exact h.answer shows taken
  | elsewhere app skipped filled activations =>
    cases taken
    intro t
    rw [← h t]
    cases t <;> rfl

/-- A signal that is being stored, or whose verdict is not there. -/
def awaitsVerdict (call : CopyCall) : Bool := call.stage.signal.isSome

/-- An order that the adapter has, or may have. -/
def unresolved (call : CopyCall) : Bool :=
  match call.fate with
  | .sent | .unknown => true
  | _ => false

/-- A signal awaits its verdict, was refused or was submitted. -/
theorem signal_parts {call : CopyCall} (h : call.Coherent) :
    (Tally.signals.counts call).toNat = (Tally.refusals.counts call).toNat +
      (Tally.submitted.counts call).toNat + (awaitsVerdict call).toNat := by
  obtain ⟨stage, trade, orderRow, uncounted, row, fate⟩ := call
  cases stage with
  | inserted | fetching | signalled =>
    obtain ⟨_, rfl, rfl, _⟩ := h
    rfl
  | refused signal r | submitting signal order =>
    obtain ⟨⟨row, of⟩, rfl⟩ := h
    obtain ⟨rfl, _⟩ := of
    rfl
  | booking signal fills =>
    obtain ⟨⟨row, of⟩, o, _, rfl⟩ := h
    obtain ⟨rfl, _⟩ := of
    rfl
  | done =>
    rcases h with ⟨rfl, rfl⟩ | ⟨⟨row, signal, of⟩, final⟩
    · rfl
    · obtain ⟨rfl, _⟩ := of
      cases fate with
      | open_ | unregistered | sent => cases final
      | _ => rfl

/-- A submitted order was acknowledged, was rejected or is unresolved. -/
theorem submitted_parts (call : CopyCall) :
    (Tally.submitted.counts call).toNat = (Tally.acknowledged.counts call).toNat +
      (Tally.rejected.counts call).toNat + (unresolved call).toNat := by
  obtain ⟨stage, trade, orderRow, uncounted, row, fate⟩ := call
  cases fate <;> rfl

/-- A count splits as what it counts does. -/
theorem countP_parts {α : Type} {p q r u : α → Bool} {xs : List α}
    (parts : ∀ x ∈ xs, (p x).toNat = (q x).toNat + (r x).toNat + (u x).toNat) :
    xs.countP p = xs.countP q + xs.countP r + xs.countP u := by
  induction xs with
  | nil => rfl
  | cons x xs ih =>
    have one : ∀ f : α → Bool, (x :: xs).countP f = xs.countP f + (f x).toNat := by
      intro f
      rw [List.countP_cons]
      cases f x <;> rfl
    have here := parts x List.mem_cons_self
    have rest := ih fun y mem => parts y (List.mem_cons_of_mem x mem)
    rw [one, one, one, one, rest, here]
    omega

/-- Whatever calls run at once, each counter is the number of calls it is about; the signals are the
refused and the submitted ones and those without a verdict; and the orders submitted are those
acknowledged, those rejected and those that the venue may still have. -/
theorem counters_balance {cfg : StrategyConfig} {app : AppState} {cap : Nat} {es : List DeskEvent}
    (run : Run (DeskRun.step cfg) NewTrade (.start app cap) es s) :
    (∀ t : Tally, t.read s.metrics = UInt64.ofNat (s.calls.countP t.counts)) ∧
      s.metrics.copySignalsTotal = s.metrics.riskRejectionsTotal +
        s.metrics.ordersSubmittedTotal + UInt64.ofNat (s.calls.countP awaitsVerdict) ∧
      s.metrics.ordersSubmittedTotal = s.metrics.ordersAcknowledgedTotal +
        s.metrics.ordersRejectedTotal + UInt64.ofNat (s.calls.countP unresolved) := by
  obtain ⟨shows, counted⟩ : s.Shows ∧ s.Counted := by
    refine run.keeps (I := fun s => s.Shows ∧ s.Counted) ?_
      ⟨.start app cap, fun t => by cases t <;> rfl⟩
    rintro t e u ⟨shows, counted⟩ new taken
    exact ⟨shows.step new taken, counted.step shows taken⟩
  have signals := countP_parts fun call mem => signal_parts (shows.coherent call mem)
  have submitted := countP_parts fun call (_ : call ∈ s.calls) => submitted_parts call
  refine ⟨counted, ?_, ?_⟩
  · have read : s.metrics.copySignalsTotal = _ := counted .signals
    rw [read, signals, UInt64.ofNat_add, UInt64.ofNat_add, ← counted .refusals,
      ← counted .submitted]
    rfl
  · have read : s.metrics.ordersSubmittedTotal = _ := counted .submitted
    rw [read, submitted, UInt64.ofNat_add, UInt64.ofNat_add, ← counted .acknowledged,
      ← counted .rejected]
    rfl

/-- One of two orders is acknowledged, and the other is still with the adapter. -/
theorem counters_balance_twoCopies : ∃ s,
    Run (DeskRun.step .default) NewTrade (.start .sample 2) twoCopies s ∧
      s.metrics.ordersSubmittedTotal = 2 ∧ s.metrics.ordersAcknowledgedTotal = 1 ∧
      UInt64.ofNat (s.calls.countP unresolved) = 1 := by
  have ran : (twoCopies.foldlM (fun s e => if NewTrade s e then DeskRun.step .default s e else none)
      (.start .sample 2)).any (fun s => s.metrics.ordersSubmittedTotal = 2 ∧
        s.metrics.ordersAcknowledgedTotal = 1 ∧ s.metrics.ordersRejectedTotal = 0) = true := by
    decide +kernel
  obtain ⟨s, executed, totals⟩ := (Option.any_eq_true _ _).mp ran
  obtain ⟨two, one, none_⟩ := of_decide_eq_true totals
  have run := run_of_foldlM executed
  obtain ⟨_, _, orders⟩ := counters_balance run
  rw [two, one, none_, UInt64.add_zero] at orders
  have left : (1 : UInt64) + 1 = 1 + UInt64.ofNat (s.calls.countP unresolved) := orders
  exact ⟨s, run, two, one, ((UInt64.add_right_inj 1).mp left).symm⟩

end DeskRun

end CopyTrading
