import CopyTrading.DedupWindow
import CopyTrading.KillSwitchInvariant
import CopyTrading.LedgerTables

namespace CopyTrading

open Holders StepRun

def OrderState.asStr : OrderState → String
  | .created => "CREATED"
  | .validated => "VALIDATED"
  | .submitted => "SUBMITTED"
  | .acknowledged => "ACKNOWLEDGED"
  | .partiallyFilled => "PARTIALLY_FILLED"
  | .filled => "FILLED"
  | .cancelRequested => "CANCEL_REQUESTED"
  | .cancelled => "CANCELLED"
  | .rejected => "REJECTED"
  | .failed => "FAILED"
  | .unknown => "UNKNOWN"

structure OrderRow where
  orderId : OrderId
  state : String
  venueOrderId : Option String
  filledQty : Decimal
  filledNotional : Decimal
  feesPaid : Decimal
  deriving DecidableEq

def OrderRow.needsReconciliation (r : OrderRow) : Bool :=
  ["SUBMITTED", "ACKNOWLEDGED", "PARTIALLY_FILLED", "CANCEL_REQUESTED", "UNKNOWN"].contains r.state

def Order.row (o : Order) : OrderRow where
  orderId := o.id
  state := o.state.asStr
  venueOrderId := o.venueOrderId
  filledQty := numeric 10 o.filledQty.get
  filledNotional := numeric 6 o.filledNotional
  feesPaid := numeric 6 o.feesPaid

/-- What a restart reads besides the source events. -/
structure StoredTables where
  ledger : LedgerTables
  orders : AList fun _ : OrderId => OrderRow
  wallets : List TargetWallet

def StoredTables.upsertOrder (t : StoredTables) (o : Order) : StoredTables :=
  { t with orders := t.orders.insert o.id o.row }

/-- Loads orders that were still working when the process stopped. -/
def StoredTables.loadOpenOrders (t : StoredTables) : List OrderRow :=
  t.orders.values.filter fun r => ["CREATED", "VALIDATED", "SUBMITTED", "ACKNOWLEDGED",
    "PARTIALLY_FILLED", "CANCEL_REQUESTED", "UNKNOWN"].contains r.state

/-- Rehydrates orders from persistence; no caller. -/
def OrderManager.restore (om : OrderManager) (orders : List Order) : OrderManager :=
  { om with orders := orders.foldl (fun m o => m.insert o.id o) om.orders }

/-- The start-up's `recover`: the state it leaves, and how many orders it warns about. -/
def AppState.recover (app : AppState) (t : StoredTables) (now : DateTime) : AppState × Nat :=
  if app.repos.isEphemeral then (app, 0)
  else
    ({ app with
        tracker := t.wallets.foldl WalletTracker.upsertWallet (app.tracker.recoverDedup app.repos now)
        portfolio := app.portfolio.recover t.ledger.recover },
      (t.loadOpenOrders.filter OrderRow.needsReconciliation).length)

/-- Calls of the pipeline, and what they have written when the process stops. -/
structure CrashRun where
  app : AppState
  runs : List Stage
  tables : StoredTables
  /-- The order rows whose write is awaited. -/
  writes : List Order
  /-- The orders for which the adapter's `submit` was invoked. -/
  sent : List OrderId

inductive CrashEvent
  | spawn (env : CallEnv) (trade : SourceTrade)
  | advance (i : Nat) (env : CallEnv)
  | answer (i : Nat) (response : Except ExecutionError Acknowledgement) (now : DateTime)
  | orderWritten (k : Nat) (executed : Bool)

def CrashRun.start (app : AppState) (tables : StoredTables) : CrashRun := ⟨app, [], tables, [], []⟩

def CrashRun.advance (cfg : StrategyConfig) (s : CrashRun) (i : Nat) (env : CallEnv) :
    Option CrashRun :=
  -- order ids are freshly drawn
  if (s.app.orders.get env.orderId).isSome then none
  else do
    let stage ← s.runs[i]?
    let (app, stage) ← s.app.advance cfg env stage
    some { s with
      app := app
      runs := s.runs.set i stage
      sent := s.sent ++ (stage.pending.map Order.id).toList }

/-- Every outcome of the submission is followed by a write of the order's row. -/
def CrashRun.answer (s : CrashRun) (i : Nat) (response : Except ExecutionError Acknowledgement)
    (now : DateTime) : Option CrashRun :=
  match s.runs[i]? with
  | some (.submitting signal order) =>
    let (app, stage) := s.app.answer signal order response now
    some { s with
      app := app
      runs := s.runs.set i stage
      writes := s.writes ++ (app.orders.get order.id).toList }
  | _ => none

def CrashRun.step (cfg : StrategyConfig) (s : CrashRun) : CrashEvent → Option CrashRun
  | .spawn env trade => some { s with
      app := s.app.recordSource env.executed trade
      runs := s.runs ++ [.inserted trade] }
  | .advance i env => s.advance cfg i env
  | .answer i response now => s.answer i response now
  | .orderWritten k executed => s.writes[k]?.map fun o => { s with
      writes := s.writes.eraseIdx k
      tables := if executed then s.tables.upsertOrder o else s.tables }

/-- The process starts again as it did, on the database as it is. -/
def CrashRun.restarted (s : CrashRun) (boot : AppState) (now : DateTime) : AppState :=
  (AppState.recover { boot with repos := s.app.repos } s.tables now).1

/-- The order is known to have reached a terminal state. -/
def CrashRun.finished (s : CrashRun) (id : OrderId) : Bool :=
  (s.app.orders.get id).any fun o => o.state.isTerminal

/-- The order manager holds the orders that were sent, and no other. -/
structure SentHeld (s : CrashRun) : Prop where
  ids : ∀ id o, s.app.orders.get id = some o → o.id = id
  held : ∀ id, id ∈ s.sent ↔ (s.app.orders.get id).isSome
  pending : ∀ i o, heldAt Stage.pending s.runs i = some o → o.id ∈ s.sent

theorem SentHeld.start {app : AppState} (booted : app.orders.orders = ∅) (tables : StoredTables) :
    SentHeld (.start app tables) := by
  have none : ∀ id, app.orders.get id = none := by
    intro id
    unfold OrderManager.get
    rw [booted]
    rfl
  refine ⟨?_, ?_, ?_⟩
  · intro id o stored
    rw [CrashRun.start, none id] at stored
    cases stored
  · intro id
    rw [CrashRun.start, none id]
    simp
  · intro i o waiting
    cases waiting

section Step

variable {cfg : StrategyConfig} {s s' : CrashRun}

/-- An order that is sent, or its answer, is written under its own id. -/
theorem SentHeld.written (h : SentHeld s) {app : AppState} {runs : List Stage} {o : Order}
    {sent : List OrderId} {writes : List Order}
    (orders : app.orders.orders = s.app.orders.orders.insert o.id o)
    (more : ∀ id, id ∈ sent ↔ id ∈ s.sent ∨ id = o.id)
    (pending : ∀ i o', heldAt Stage.pending runs i = some o' → o'.id ∈ sent) :
    SentHeld { s with app := app, runs := runs, writes := writes, sent := sent } := by
  have get_ := OrderManager.get_insert orders
  refine ⟨?_, ?_, pending⟩
  · intro id o' stored
    rw [get_] at stored
    split at stored
    next here =>
      cases Option.some.inj stored
      exact here.symm
    next => exact h.ids id o' stored
  · intro id
    rw [more, get_]
    by_cases here : id = o.id
    · simp [here]
    · rw [if_neg here]
      constructor
      · intro known
        exact (h.held id).mp (known.resolve_right here)
      · intro stored
        exact .inl ((h.held id).mpr stored)

theorem SentHeld.quiet (h : SentHeld s) (app : AppState) {runs : List Stage} (writes : List Order)
    (tables : StoredTables) (orders : app.orders.orders = s.app.orders.orders)
    (fewer : ∀ i o, heldAt Stage.pending runs i = some o → heldAt Stage.pending s.runs i = some o) :
    SentHeld { s with app := app, runs := runs, writes := writes, tables := tables } := by
  have get_ : ∀ id, app.orders.get id = s.app.orders.get id :=
    fun id => congrArg (AList.lookup id) orders
  refine ⟨?_, ?_, fun i o waiting => h.pending i o (fewer i o waiting)⟩
  · intro id o stored
    exact h.ids id o ((get_ id).symm.trans stored)
  · intro id
    rw [get_]
    exact h.held id

theorem SentHeld.advance (h : SentHeld s) {i : Nat} {env : CallEnv}
    (taken : s.advance cfg i env = some s') : SentHeld s' := by
  unfold CrashRun.advance at taken
  split at taken
  next => cases taken
  next =>
    obtain ⟨old, here, taken⟩ := Option.bind_eq_some_iff.mp taken
    obtain ⟨⟨app, new⟩, advanced, taken⟩ := Option.bind_eq_some_iff.mp taken
    cases taken
    rcases AppState.advance_cases advanced with ⟨idle, quiet⟩ |
      ⟨order, handed, _, _, key, orders⟩
    · rw [idle, Option.map_none, Option.toList_none, List.append_nil]
      refine h.quiet _ _ _ quiet.orders ?_
      intro j o waiting
      exact (heldAt_set_idle here idle waiting).2
    · rw [← key] at orders
      have more : ∀ id, id ∈ s.sent ++ (new.pending.map Order.id).toList ↔
          id ∈ s.sent ∨ id = order.id := by
        intro id
        rw [handed, List.mem_append]
        simp
      refine h.written orders more ?_
      intro j o waiting
      rw [more]
      rw [heldAt_set here] at waiting
      split at waiting
      next =>
        rw [handed] at waiting
        cases waiting
        exact .inr rfl
      next => exact .inl (h.pending j o waiting)

theorem SentHeld.answer (h : SentHeld s) {i : Nat}
    {response : Except ExecutionError Acknowledgement} {now : DateTime}
    (taken : s.answer i response now = some s') : SentHeld s' := by
  unfold CrashRun.answer at taken
  split at taken
  next signal order here =>
    obtain ⟨idle, _, orders⟩ := s.app.answer_spec signal order response now
    cases taken
    have waiting : heldAt Stage.pending s.runs i = some order := heldAt_of_get here
    have known : order.id ∈ s.sent := h.pending i order waiting
    rw [← order.answered_id response now] at orders known
    refine h.written orders ?_ ?_
    · intro id
      constructor
      · exact .inl
      · rintro (old | rfl)
        · exact old
        · exact known
    · intro j o later
      exact h.pending j o (heldAt_set_idle here idle later).2
  next => cases taken

theorem SentHeld.step {e : CrashEvent} (h : SentHeld s) (taken : s.step cfg e = some s') :
    SentHeld s' := by
  cases e with
  | spawn env trade =>
    cases taken
    refine h.quiet _ s.writes s.tables rfl ?_
    intro j o waiting
    rw [heldAt_concat_idle rfl] at waiting
    exact waiting
  | advance i env => exact h.advance taken
  | answer i response now => exact h.answer taken
  | orderWritten k executed =>
    obtain ⟨o, _, rfl⟩ := Option.map_eq_some_iff.mp taken
    exact h.quiet s.app _ _ rfl fun _ _ waiting => waiting

end Step

theorem AppState.recover_orders (app : AppState) (t : StoredTables) (now : DateTime) :
    (app.recover t now).1.orders = app.orders := by
  unfold recover
  split
  · rfl
  · rfl

/-- The recovery leaves the order manager empty, so nothing is forgotten exactly when no order was
open. -/
theorem SentHeld.forgotten_iff {s : CrashRun} (h : SentHeld s) (boot : AppState)
    (booted : boot.orders.orders = ∅) (now : DateTime) :
    (∀ id ∈ s.sent, s.finished id = false → ((s.restarted boot now).orders.get id).isSome) ↔
      s.app.orders.openCount = 0 := by
  have empty : ∀ id, (s.restarted boot now).orders.get id = none := by
    intro id
    unfold CrashRun.restarted OrderManager.get
    rw [AppState.recover_orders, booted]
    rfl
  constructor
  · intro present
    unfold OrderManager.openCount
    rw [List.length_eq_zero_iff]
    refine List.eq_nil_iff_forall_not_mem.mpr ?_
    intro o listed
    obtain ⟨member, open_⟩ := List.mem_filter.mp listed
    obtain ⟨id, stored⟩ := AList.mem_values.mp member
    have held : s.app.orders.get id = some o := stored
    have sent : id ∈ s.sent := (h.held id).mpr (by rw [held]; rfl)
    have unfinished : s.finished id = false := by
      unfold CrashRun.finished
      rw [held, Option.any_some]
      rw [OrderState.isOpen_eq_not_isTerminal] at open_
      simpa using open_
    have here := present id sent unfinished
    rw [empty id] at here
    cases here
  · intro none id sent unfinished
    obtain ⟨o, held⟩ := Option.isSome_iff_exists.mp ((h.held id).mp sent)
    have open_ : o.state.isOpen = true := by
      unfold CrashRun.finished at unfinished
      rw [held, Option.any_some] at unfinished
      rw [OrderState.isOpen_eq_not_isTerminal, unfinished]
      rfl
    have listed : o ∈ s.app.orders.openOrders :=
      List.mem_filter.mpr ⟨AList.mem_values.mpr ⟨id, held⟩, open_⟩
    unfold OrderManager.openCount at none
    rw [List.length_eq_zero_iff] at none
    rw [none] at listed
    cases listed

theorem CrashRun.run_held {cfg : StrategyConfig} {boot : AppState} {tables : StoredTables}
    {es : List CrashEvent} {s : CrashRun} (booted : boot.orders.orders = ∅)
    (run : Run (CrashRun.step cfg) Anywhere (.start boot tables) es s) : SentHeld s :=
  run.keeps (fun _ _ _ h _ taken => h.step taken) (.start booted tables)

/-- Wherever the process stops, every order that was sent and is not known to be finished is back
after the restart exactly if the order manager held no open order. -/
theorem none_forgotten_iff {cfg : StrategyConfig} {boot : AppState} {tables : StoredTables}
    {es : List CrashEvent} {s : CrashRun} {now : DateTime} (booted : boot.orders.orders = ∅)
    (run : Run (CrashRun.step cfg) Anywhere (.start boot tables) es s) :
    (∀ id ∈ s.sent, s.finished id = false → ((s.restarted boot now).orders.get id).isSome) ↔
      s.app.orders.openCount = 0 := by
  exact (CrashRun.run_held booted run).forgotten_iff boot booted now

def StoredTables.empty : StoredTables := ⟨.empty, ∅, []⟩

/-- An order is with the adapter when the process stops. -/
def stoppedInFlight : List CrashEvent :=
  [.spawn .sample .sample, .advance 0 .sample, .advance 0 .sample, .advance 0 .sample]

theorem stoppedInFlight_run : ∃ s, Run (CrashRun.step .default) Anywhere (.start .sample .empty)
    stoppedInFlight s ∧ s.sent = [⟨0⟩] ∧ s.app.orders.openCount = 1 := by
  have ran : (stoppedInFlight.foldlM (fun s e => if Anywhere s e then CrashRun.step .default s e
      else none) (.start .sample .empty)).map (fun s => (s.sent, s.app.orders.openCount)) =
        some ([⟨0⟩], 1) := by
    decide +kernel
  obtain ⟨s, executed, figures⟩ := Option.map_eq_some_iff.mp ran
  obtain ⟨sent, count⟩ := Prod.mk.inj figures
  exact ⟨s, run_of_foldlM executed, sent, count⟩

theorem none_forgotten_iff_stoppedInFlight : ∃ s, Run (CrashRun.step .default) Anywhere
    (.start .sample .empty) stoppedInFlight s ∧ s.sent = [⟨0⟩] ∧
    ((∀ id ∈ s.sent, s.finished id = false →
      ((s.restarted .sample 1).orders.get id).isSome) ↔ s.app.orders.openCount = 0) := by
  obtain ⟨s, run, sent, _⟩ := stoppedInFlight_run
  exact ⟨s, run, sent, none_forgotten_iff rfl run⟩

/-- An order whose submission is awaited when the process stops is forgotten. -/
theorem order_forgotten : ¬ ∀ (cfg : StrategyConfig) (boot : AppState) (tables : StoredTables)
    (es : List CrashEvent) (s : CrashRun) (now : DateTime), boot.orders.orders = ∅ →
    Run (CrashRun.step cfg) Anywhere (.start boot tables) es s →
    ∀ id ∈ s.sent, s.finished id = false → ((s.restarted boot now).orders.get id).isSome := by
  intro claim
  obtain ⟨s, run, _, count⟩ := stoppedInFlight_run
  have held : SentHeld s := CrashRun.run_held rfl run
  have none := (held.forgotten_iff .sample rfl 1).mp
    (claim .default .sample .empty stoppedInFlight s 1 rfl run)
  omega

end CopyTrading
