import CopyTrading.StoredOnce

namespace CopyTrading

open Holders StepRun

def Writer.Awaits (w : Writer) (id : OrderId) : Prop :=
  (∃ o, w.pending = some o ∧ o.id = id) ∨ ∃ o, .upsertOrder o ∈ w.todo ∧ o.id = id

namespace ChainRun

/-- The database executes every write, and the adapter answers with fills of the order it was
given. -/
def Sturdy (s : ChainRun) : ChainEvent → Prop
  | .answer i (.ok ack) _ =>
    ∀ o ∈ heldAt Writer.pending s.writers i, ∀ f ∈ ack.immediateFills, f.orderId = o.id
  | .written _ executed => executed = true ∧ s.app.repos.isEphemeral = false
  | _ => True

instance (s : ChainRun) : ∀ e, Decidable (s.Sturdy e)
  | .answer i (.ok ack) _ => inferInstanceAs (Decidable
    (∀ o ∈ heldAt Writer.pending s.writers i, ∀ f ∈ ack.immediateFills, f.orderId = o.id))
  | .written _ _ => inferInstanceAs (Decidable (_ ∧ _))
  | .answer _ (.error _) _ => isTrue trivial
  | .spawn .. => isTrue trivial
  | .advance .. => isTrue trivial
  | .polled _ => isTrue trivial
  | .streamed _ => isTrue trivial

/-- The order's signal is not among the rows. -/
def Unsigned (s : ChainRun) (id : OrderId) : Prop :=
  ∃ q g, s.request id = some q ∧ q.signalId = some g ∧ s.tables.signalStored g = false

/-- The adapter has the order, or a write of it is awaited. -/
def Awaited (s : ChainRun) (id : OrderId) : Prop := ∃ w ∈ s.writers, w.Awaits id

/-- After these writes the order has its row, unless it is without a signal. -/
def Ready (s : ChainRun) (todo : List Statement) (id : OrderId) : Prop :=
  (∃ o, .upsertOrder o ∈ todo ∧ o.id = id) ∨ s.tables.stored id = true ∨ s.Unsigned id

def FillStored (s : ChainRun) (f : Fill) : Prop := ∃ r ∈ s.tables.fills, r.Same f.row

def FillAwaited (s : ChainRun) (f : Fill) : Prop := ∃ w ∈ s.writers, .insertFill f ∈ w.todo

/-- Every order and every fill is stored or about to be, but for what has no signal. -/
structure Whole (s : ChainRun) : Prop where
  orders : ∀ id q, s.request id = some q →
    s.Awaited id ∨ s.tables.stored id = true ∨ s.Unsigned id
  fills : ∀ f ∈ s.booked, s.FillAwaited f ∨ s.FillStored f ∨ s.Unsigned f.orderId
  ordered : ∀ w ∈ s.writers, ∀ before f after, w.todo = before ++ .insertFill f :: after →
    s.Ready before f.orderId
  unbooked : ∀ w ∈ s.writers, ∀ f ∈ w.stage.unbooked, s.Ready w.todo f.orderId

theorem Whole.start {app : AppState} (booted : app.orders.orders = ∅) (tables : CopyTables) :
    Whole (.start app tables) := by
  refine ⟨?_, ?_, ?_, ?_⟩
  · intro id q held
    unfold request OrderManager.get ChainRun.start at held
    rw [booted] at held
    cases held
  · intro f mem
    cases mem
  · intro w mem
    cases mem
  · intro w mem
    cases mem

/-- What is there stays, and what has no signal never gets one. -/
structure Onward (s s' : ChainRun) : Prop where
  stored : ∀ id, s.tables.stored id = true → s'.tables.stored id = true
  fills : ∀ r ∈ s.tables.fills, r ∈ s'.tables.fills
  unsigned : ∀ id, s.Unsigned id → s'.Unsigned id

theorem Onward.ready {s s' : ChainRun} (h : s.Onward s') {todo todo' : List Statement}
    {id : OrderId} (kept : ∀ st ∈ todo, st ∈ todo') (ready : s.Ready todo id) :
    s'.Ready todo' id := by
  rcases ready with ⟨o, awaited, same⟩ | stored | unsigned
  · exact .inl ⟨o, kept _ awaited, same⟩
  · exact .inr (.inl (h.stored id stored))
  · exact .inr (.inr (h.unsigned id unsigned))

theorem Onward.fillStored {s s' : ChainRun} (h : s.Onward s') {f : Fill}
    (stored : s.FillStored f) : s'.FillStored f := by
  obtain ⟨r, mem, same⟩ := stored
  exact ⟨r, h.fills r mem, same⟩

/-- Without a write, only the requests have to stay. -/
theorem onward_of_request {s s' : ChainRun} (tables : s'.tables = s.tables)
    (request : ∀ id q, s.request id = some q → s'.request id = some q) : s.Onward s' := by
  refine ⟨?_, ?_, ?_⟩
  · rw [tables]
    exact fun _ => id
  · rw [tables]
    exact fun _ => id
  · rintro id ⟨q, g, asked, refers, unstored⟩
    refine ⟨q, g, request id q asked, refers, ?_⟩
    rw [tables]
    exact unstored

variable {s s' : ChainRun} {e : ChainEvent}

/-- A signal is stored by its own call alone, before there is an order of it. -/
theorem Chained.onward_written (h : s.Chained) {i : Nat} (executed : Bool) {stage : Stage}
    {st : Statement} {rest : List Statement} (here : s.writers[i]? = some ⟨stage, st :: rest⟩) :
    s.Onward { s with
      writers := s.writers.set i ⟨stage, rest⟩
      tables := if executed then s.tables.exec s.app.repos st else s.tables } := by
  cases executed with
  | false => exact onward_of_request rfl fun _ _ => id
  | true =>
    refine ⟨fun id => CopyTables.stored_exec st, ?_, ?_⟩
    · exact fun r mem => (s.tables.fills_exec s.app.repos st).subset mem
    · rintro id ⟨q, g, asked, refers, unstored⟩
      refine ⟨q, g, asked, refers, ?_⟩
      rcases s.tables.exec_signals s.app.repos st with same | ⟨g', rfl, grown⟩
      · show (s.tables.exec s.app.repos st).signalStored g = false
        unfold CopyTables.signalStored
        rw [same]
        exact unstored
      · have own := h.signals _ (List.mem_of_getElem? here) g' List.mem_cons_self
        have others := (h.storing i g' ((heldAt_of_get here).trans own)).2 id q asked
        show (s.tables.exec s.app.repos (.insertSignal g')).signalStored g = false
        unfold CopyTables.signalStored at unstored ⊢
        rw [grown, List.any_append, unstored]
        simp only [List.any_cons, List.any_nil, Bool.or_false, Bool.false_or,
          decide_eq_false_iff_not]
        exact fun same => others (same ▸ refers)

/-- Where every write is executed, a write of an order leaves its row, or its signal is missing. -/
theorem Chained.stored_written (h : s.Chained) {id : OrderId} {w : Writer} {o : Order}
    (mem : w ∈ s.writers) (awaited : .upsertOrder o ∈ w.todo) (same : o.id = id)
    (up : s.app.repos.isEphemeral = false) :
    (s.tables.exec s.app.repos (.upsertOrder o)).stored id = true ∨ s.Unsigned id := by
  have asked := h.orders w mem o awaited
  obtain ⟨g, _, refers⟩ := h.copies _ _ asked
  rw [← same]
  cases known : s.tables.signalStored g.signalId with
  | true =>
    refine .inl (CopyTables.stored_upsertOrder up o ?_)
    rw [refers, Option.all_some]
    exact known
  | false => exact .inr ⟨_, _, asked, refers, known⟩

theorem mem_of_todo {todo before after : List Statement} {f : Fill}
    (split : todo = before ++ .insertFill f :: after) : .insertFill f ∈ todo := by
  rw [split]
  exact List.mem_append_right _ List.mem_cons_self

/-- One writer is replaced: what it awaited is still awaited, or settled. -/
theorem Whole.set (h : s.Whole) (onward : s.Onward s') {i : Nat} {old new : Writer}
    (here : s.writers[i]? = some old) (writers : s'.writers = s.writers.set i new)
    (requests : ∀ id q, s'.request id = some q → s.request id = some q ∨ new.Awaits id)
    (orders : ∀ id, old.Awaits id →
      new.Awaits id ∨ s'.tables.stored id = true ∨ s'.Unsigned id)
    (booked : ∀ f ∈ s'.booked, f ∈ s.booked ∨ .insertFill f ∈ new.todo)
    (fills : ∀ f, .insertFill f ∈ old.todo →
      .insertFill f ∈ new.todo ∨ s'.FillStored f ∨ s'.Unsigned f.orderId)
    (ordered : ∀ before f after, new.todo = before ++ .insertFill f :: after →
      s'.Ready before f.orderId)
    (unbooked : ∀ f ∈ new.stage.unbooked, s'.Ready new.todo f.orderId) : s'.Whole := by
  have there : new ∈ s'.writers := writers ▸ mem_set_self here new
  have others : ∀ w ∈ s.writers, w ≠ old → w ∈ s'.writers := by
    intro w mem other
    rw [writers]
    exact mem_set_of_ne here mem other
  have cases_ : ∀ w ∈ s'.writers, w ∈ s.writers ∨ w = new := by
    intro w mem
    rw [writers] at mem
    exact List.mem_or_eq_of_mem_set mem
  refine ⟨?_, ?_, ?_, ?_⟩
  · intro id q asked
    rcases requests id q asked with before | awaits
    · rcases h.orders id q before with ⟨w, mem, awaits⟩ | stored | unsigned
      · by_cases replaced : w = old
        · subst replaced
          exact (orders id awaits).imp_left fun later => ⟨new, there, later⟩
        · exact .inl ⟨w, others w mem replaced, awaits⟩
      · exact .inr (.inl (onward.stored id stored))
      · exact .inr (.inr (onward.unsigned id unsigned))
    · exact .inl ⟨new, there, awaits⟩
  · intro f mem
    rcases booked f mem with before | awaits
    · rcases h.fills f before with ⟨w, mem, awaits⟩ | stored | unsigned
      · by_cases replaced : w = old
        · subst replaced
          exact (fills f awaits).imp_left fun later => ⟨new, there, later⟩
        · exact .inl ⟨w, others w mem replaced, awaits⟩
      · exact .inr (.inl (onward.fillStored stored))
      · exact .inr (.inr (onward.unsigned _ unsigned))
    · exact .inl ⟨new, there, awaits⟩
  · intro w mem before f after todo
    rcases cases_ w mem with old_ | rfl
    · exact onward.ready (fun _ => id) (h.ordered w old_ before f after todo)
    · exact ordered before f after todo
  · intro w mem f here'
    rcases cases_ w mem with old_ | rfl
    · exact onward.ready (fun _ => id) (h.unbooked w old_ f here')
    · exact unbooked f here'

/-- Another writer comes, with what it books. -/
theorem Whole.concat (h : s.Whole) (onward : s.Onward s') {new : Writer}
    (writers : s'.writers = s.writers ++ [new])
    (requests : ∀ id q, s'.request id = some q → s.request id = some q)
    (booked : ∀ f ∈ s'.booked, f ∈ s.booked ∨ .insertFill f ∈ new.todo)
    (ordered : ∀ before f after, new.todo = before ++ .insertFill f :: after →
      s'.Ready before f.orderId)
    (unbooked : new.stage.unbooked = []) : s'.Whole := by
  have there : new ∈ s'.writers := writers ▸ List.mem_append_right _ List.mem_cons_self
  have others : ∀ w ∈ s.writers, w ∈ s'.writers :=
    fun w mem => writers ▸ List.mem_append_left _ mem
  have cases_ : ∀ w ∈ s'.writers, w ∈ s.writers ∨ w = new := by
    intro w mem
    rw [writers] at mem
    exact (List.mem_append.mp mem).imp_right List.mem_singleton.mp
  refine ⟨?_, ?_, ?_, ?_⟩
  · intro id q asked
    rcases h.orders id q (requests id q asked) with ⟨w, mem, awaits⟩ | stored | unsigned
    · exact .inl ⟨w, others w mem, awaits⟩
    · exact .inr (.inl (onward.stored id stored))
    · exact .inr (.inr (onward.unsigned id unsigned))
  · intro f mem
    rcases booked f mem with before | awaits
    · rcases h.fills f before with ⟨w, mem, awaits⟩ | stored | unsigned
      · exact .inl ⟨w, others w mem, awaits⟩
      · exact .inr (.inl (onward.fillStored stored))
      · exact .inr (.inr (onward.unsigned _ unsigned))
    · exact .inl ⟨new, there, awaits⟩
  · intro w mem before f after todo
    rcases cases_ w mem with old_ | rfl
    · exact onward.ready (fun _ => id) (h.ordered w old_ before f after todo)
    · exact ordered before f after todo
  · intro w mem f here
    rcases cases_ w mem with old_ | rfl
    · exact onward.ready (fun _ => id) (h.unbooked w old_ f here)
    · rw [unbooked] at here
      cases here

/-- A write settles what it is about, and the next writes of its writer come after it. -/
theorem Whole.written (h : s.Whole) (chained : s.Chained) {i : Nat} {stage : Stage}
    {st : Statement} {rest : List Statement} (here : s.writers[i]? = some ⟨stage, st :: rest⟩)
    (up : s.app.repos.isEphemeral = false) :
    Whole { s with
      writers := s.writers.set i ⟨stage, rest⟩
      tables := s.tables.exec s.app.repos st } := by
  have onward : s.Onward { s with
      writers := s.writers.set i ⟨stage, rest⟩
      tables := s.tables.exec s.app.repos st } := chained.onward_written true here
  have mem := List.mem_of_getElem? here
  have settles : ∀ {todo : List Statement} {id}, s.Ready (st :: todo) id →
      ChainRun.Ready { s with
        writers := s.writers.set i ⟨stage, rest⟩
        tables := s.tables.exec s.app.repos st } todo id := by
    intro todo id ready
    rcases ready with ⟨o, awaited, same⟩ | settled
    · rcases List.mem_cons.mp awaited with eq | later
      · cases eq
        rcases chained.stored_written mem List.mem_cons_self same up with stored | unsigned
        · exact .inr (.inl stored)
        · exact .inr (.inr (onward.unsigned id unsigned))
      · exact .inl ⟨o, later, same⟩
    · exact onward.ready (fun _ kept => kept) (.inr settled)
  refine h.set onward here rfl (fun _ _ => .inl) ?_ (fun _ => .inl) ?_ ?_ ?_
  · intro id awaits
    rcases awaits with waits | awaited
    · exact .inl (.inl waits)
    · exact (settles (.inl awaited)).imp_left .inr
  · intro f awaited
    rcases List.mem_cons.mp awaited with eq | later
    · cases eq
      rcases h.ordered _ mem [] f rest rfl with ⟨o, none_, _⟩ | stored | unsigned
      · cases none_
      · exact .inr (.inl (CopyTables.same_insertFill up f stored))
      · exact .inr (.inr (onward.unsigned _ unsigned))
    · exact .inl later
  · intro before f after todo
    exact settles (h.ordered _ mem (st :: before) f after (congrArg (st :: ·) todo))
  · exact fun f booking => settles (h.unbooked _ mem f booking)

/-- The fills of an answer come after the row of its order. -/
theorem Whole.answered (h : s.Whole) (chained : s.Chained) {i : Nat} {app : AppState}
    {old next : Stage} {o : Order} {response : Except ExecutionError Acknowledgement}
    {now : DateTime} (here : s.writers[i]? = some ⟨old, []⟩) (pending : old.pending = some o)
    (signal : next.signal = none) (idle : next.pending = none)
    (orders : app.orders.orders = s.app.orders.orders.insert o.id (o.answered response now))
    (own : ∀ f ∈ next.unbooked, f.orderId = o.id) : Whole { s with
      app := app
      writers := s.writers.set i ⟨next, [.upsertOrder (o.answered response now)]⟩ } := by
  have idles := chained.answered here pending signal idle orders
  have onward := onward_of_request idles.tables fun id q asked => (idles.request id).trans asked
  refine h.set onward here rfl ?_ ?_ (fun _ => .inl) ?_ ?_ ?_
  · exact fun id q asked => .inl ((idles.request id).symm.trans asked)
  · intro id awaits
    rcases awaits with ⟨o', pending', same⟩ | ⟨o', awaited, _⟩
    · cases pending.symm.trans pending'
      refine .inl (.inr ⟨_, List.mem_cons_self, ?_⟩)
      rw [Order.answered_id]
      exact same
    · cases awaited
  · intro f awaited
    cases awaited
  · intro before f after todo
    exact nomatch List.mem_singleton.mp (mem_of_todo todo)
  · intro f booking
    refine .inl ⟨_, List.mem_cons_self, ?_⟩
    rw [Order.answered_id]
    exact (own f booking).symm

theorem appliedFills_subset (o : Order) (response : Except ExecutionError Acknowledgement)
    (now : DateTime) : ∀ f ∈ o.appliedFills response now,
      ∃ ack, response = .ok ack ∧ f ∈ ack.immediateFills := by
  have fold : ∀ (fs : List Fill) (acc : Order × List Fill),
      ∀ f ∈ (fs.foldl (receiveFill now) acc).2, f ∈ acc.2 ∨ f ∈ fs := by
    intro fs
    induction fs with
    | nil => exact fun acc f mem => .inl mem
    | cons g fs ih =>
      intro acc f mem
      rcases ih _ f mem with earlier | later
      · unfold receiveFill at earlier
        simp only at earlier
        split at earlier
        · rcases List.mem_append.mp earlier with before | here
          · exact .inl before
          · exact .inr (List.mem_singleton.mp here ▸ List.mem_cons_self)
        · exact .inl earlier
      · exact .inr (List.mem_cons_of_mem _ later)
  intro f mem
  cases response with
  | ok ack =>
    refine ⟨ack, rfl, ?_⟩
    exact (fold ack.immediateFills _ f mem).resolve_left List.not_mem_nil
  | error e => cases mem

/-- A writer that awaits nothing is replaced. -/
theorem Whole.set_free (h : s.Whole) (onward : s.Onward s') {i : Nat} {old : Stage} {new : Writer}
    (here : s.writers[i]? = some ⟨old, []⟩) (answered : old.pending = none)
    (writers : s'.writers = s.writers.set i new)
    (requests : ∀ id q, s'.request id = some q → s.request id = some q ∨ new.Awaits id)
    (booked : ∀ f ∈ s'.booked, f ∈ s.booked ∨ .insertFill f ∈ new.todo)
    (ordered : ∀ before f after, new.todo = before ++ .insertFill f :: after →
      s'.Ready before f.orderId)
    (unbooked : ∀ f ∈ new.stage.unbooked, s'.Ready new.todo f.orderId) : s'.Whole := by
  refine h.set onward here writers requests ?_ booked ?_ ordered unbooked
  · intro id awaits
    rcases awaits with ⟨o, waits, _⟩ | ⟨o, awaited, _⟩
    · exact nomatch answered.symm.trans waits
    · cases awaited
  · intro f awaited
    cases awaited

theorem Whole.spawned (h : s.Whole) (trade : SourceTrade) {app : AppState}
    (orders : app.orders.orders = s.app.orders.orders) :
    Whole { s with app := app, writers := s.writers ++ [⟨.inserted trade, []⟩] } := by
  have same := request_of_orders (s.writers ++ [⟨.inserted trade, []⟩]) s.tables s.generated
    s.booked orders
  refine h.concat (onward_of_request rfl fun id q asked => (same id).trans asked) rfl
    (fun id q asked => (same id).symm.trans asked) (fun _ => .inl) ?_ rfl
  intro before f after todo
  exact absurd todo (by simp)

/-- The fills that a call hands to the store come after the row of their order. -/
theorem Whole.moved (h : s.Whole) {i : Nat} {app : AppState} {old next : Stage} {fs : List Fill}
    (here : s.writers[i]? = some ⟨old, []⟩) (answered : old.pending = none)
    (orders : app.orders.orders = s.app.orders.orders) (signal : next.signal = none)
    (pending : next.pending = none) (unbooked : old.unbooked = fs ++ next.unbooked) :
    Whole { s with
      app := app
      writers := s.writers.set i ⟨next, fs.map .insertFill⟩
      booked := s.booked ++ fs } := by
  have idles := idles_moved fs here orders signal pending
  have onward := onward_of_request idles.tables fun id q asked => (idles.request id).trans asked
  have due := h.unbooked _ (List.mem_of_getElem? here)
  simp only [unbooked, List.mem_append] at due
  refine h.set_free onward here answered rfl ?_ ?_ ?_ ?_
  · exact fun id q asked => .inl ((idles.request id).symm.trans asked)
  · intro f mem
    exact (List.mem_append.mp mem).imp_right fun new => List.mem_map.mpr ⟨f, new, rfl⟩
  · intro before f after todo
    obtain ⟨f', there, eq⟩ := List.mem_map.mp (mem_of_todo todo)
    cases eq
    exact onward.ready (fun _ none_ => absurd none_ List.not_mem_nil) (due f (.inl there))
  · intro f later
    exact onward.ready (fun _ none_ => absurd none_ List.not_mem_nil) (due f (.inr later))

theorem Whole.signalled (h : s.Whole) {i : Nat} {app : AppState} {old next : Stage}
    {g : CopySignal} (here : s.writers[i]? = some ⟨old, []⟩) (answered : old.pending = none)
    (orders : app.orders.orders = s.app.orders.orders) (unbooked : next.unbooked = []) :
    Whole { s with
      app := app
      writers := s.writers.set i ⟨next, [.insertSignal g]⟩
      generated := s.generated ++ [g] } := by
  have same := request_of_orders (s.writers.set i ⟨next, [.insertSignal g]⟩) s.tables
    (s.generated ++ [g]) s.booked orders
  refine h.set_free (onward_of_request rfl fun id q asked => (same id).trans asked) here answered
    rfl ?_ (fun _ => .inl) ?_ ?_
  · exact fun id q asked => .inl ((same id).symm.trans asked)
  · intro before f after todo
    exact nomatch List.mem_singleton.mp (mem_of_todo todo)
  · intro f later
    rw [unbooked] at later
    cases later

/-- A new order is asked for, and is at the adapter. -/
theorem Whole.submitted (h : s.Whole) {i : Nat} {env : CallEnv} {app : AppState}
    {old next : Stage} {o : Order} (fresh : s.Fresh env) (here : s.writers[i]? = some ⟨old, []⟩)
    (answered : old.pending = none) (pending : next.pending = some o)
    (unbooked : next.unbooked = []) (drawn : o.id = env.orderId)
    (orders : app.orders.orders = s.app.orders.orders.insert o.id o) :
    Whole { s with app := app, writers := s.writers.set i ⟨next, []⟩ } := by
  have adds := extends_submitted (s.writers.set i ⟨next, []⟩) fresh drawn orders
  refine h.set_free (onward_of_request rfl fun id q known => (adds.older known).2) here answered
    rfl ?_ (fun _ => .inl) ?_ ?_
  · intro id q held
    rcases adds.new_or_older held with ⟨same, _⟩ | before
    · exact .inr (.inl ⟨o, pending, same.symm⟩)
    · exact .inl before
  · intro before f after todo
    exact absurd todo (by simp)
  · intro f later
    rw [unbooked] at later
    cases later

/-- A polled fill is handed to the store behind its order. -/
theorem Whole.polled (h : s.Whole) (chained : s.Chained) {f : Fill} {app : AppState} {o : Order}
    (held : s.app.orders.get f.orderId = some o)
    (orders : app.orders.orders = s.app.orders.orders.insert o.id (o.withFill f)) :
    Whole { s with
      app := app
      writers := s.writers ++
        [⟨.done, (app.orders.get f.orderId).toList.map .upsertOrder ++ [.insertFill f]⟩]
      booked := s.booked ++ [f] } := by
  obtain ⟨key, _⟩ := chained.request_filled held
  have idles := chained.polled held orders
  have onward := onward_of_request idles.tables fun id q asked => (idles.request id).trans asked
  refine h.concat onward rfl (fun id q asked => (idles.request id).symm.trans asked) ?_ ?_ rfl
  · intro g mem
    refine (List.mem_append.mp mem).imp_right fun new => ?_
    rw [List.mem_singleton.mp new]
    exact List.mem_append_right _ List.mem_cons_self
  · intro before g after todo
    rw [OrderManager.get_insert orders, if_pos key.symm] at todo
    cases before with
    | nil => exact absurd todo (by simp)
    | cons st before =>
      obtain ⟨first, rest⟩ := List.cons.inj todo
      refine .inl ⟨o.withFill f, ?_, ?_⟩
      · rw [← first]
        exact List.mem_cons_self
      · cases List.mem_singleton.mp (mem_of_todo rest)
        rw [Order.withFill_id]
        exact key

theorem Whole.streamed (h : s.Whole) (chained : s.Chained) {f : Fill} {app : AppState} {o : Order}
    (held : s.app.orders.get f.orderId = some o)
    (orders : app.orders.orders = s.app.orders.orders.insert o.id (o.withFill f)) :
    Whole { s with app := app } := by
  have idles := chained.streamed held orders
  have onward := onward_of_request idles.tables fun id q asked => (idles.request id).trans asked
  refine ⟨?_, ?_, ?_, ?_⟩
  · intro id q held
    rcases h.orders id q ((idles.request id).symm.trans held) with awaited | settled
    · exact .inl awaited
    · exact .inr (settled.imp_right (onward.unsigned id))
  · intro g mem
    rcases h.fills g mem with awaited | settled
    · exact .inl awaited
    · exact .inr (settled.imp_right (onward.unsigned _))
  · exact fun w mem before g after todo =>
      onward.ready (fun _ => id) (h.ordered w mem before g after todo)
  · exact fun w mem g booking => onward.ready (fun _ => id) (h.unbooked w mem g booking)

theorem Whole.step (h : s.Whole) (chained : s.Chained) (sturdy : s.Sturdy e)
    (effect : ChainEffect s e s') : s'.Whole := by
  cases effect with
  | spawned orders => exact h.spawned _ orders
  | moved here answered orders signal pending unbooked =>
    exact h.moved here answered orders signal pending unbooked
  | signalled fresh here answered orders signal drawn pending unbooked =>
    exact h.signalled here answered orders unbooked
  | submitted fresh here answered signal idle pending unbooked drawn refers orders =>
    exact h.submitted fresh here answered pending unbooked drawn orders
  | answered here pending signal idle fills orders =>
    refine h.answered chained here pending signal idle orders ?_
    intro f booking
    rw [fills] at booking
    obtain ⟨ack, rfl, mem⟩ := appliedFills_subset _ _ _ f booking
    exact sturdy _ ((heldAt_of_get here).trans pending) f mem
  | polled held orders => exact h.polled chained held orders
  | streamed held orders => exact h.streamed chained held orders
  | written here =>
    obtain ⟨executed, up⟩ := sturdy
    subst executed
    exact h.written chained here up

/-- In every run in which the database executes every write and the venue answers with fills of the
order it was given: an order that is not awaited has its row exactly if its signal has one, and with
its row every fill of it that was handed to the store and is not awaited has one as well. -/
theorem stored_iff_signal {cfg : StrategyConfig} {boot : AppState} {tables : CopyTables}
    {es : List ChainEvent} (booted : boot.orders.orders = ∅)
    (run : Run (ChainRun.step cfg) Sturdy (.start boot tables) es s) {id : OrderId}
    {q : OrderRequest} {g : SignalId} (asked : s.request id = some q)
    (refers : q.signalId = some g) (settled : ¬s.Awaited id) :
    (s.tables.stored id = true ↔ s.tables.signalStored g = true) ∧
      (s.tables.stored id = true → ∀ f ∈ s.booked, f.orderId = id → ¬s.FillAwaited f →
        s.FillStored f) := by
  obtain ⟨chained, whole⟩ : s.Chained ∧ s.Whole := by
    refine run.keeps (I := fun s => s.Chained ∧ s.Whole) ?_
      ⟨.start booted tables, .start booted tables⟩
    rintro t e u ⟨chained, whole⟩ sturdy taken
    have effect := step_effect taken
    exact ⟨chained.step effect, whole.step chained sturdy effect⟩
  have missing : s.Unsigned id → s.tables.signalStored g = false := by
    rintro ⟨q', g', asked', refers', unstored⟩
    cases asked.symm.trans asked'
    cases refers.symm.trans refers'
    exact unstored
  have signed : s.tables.stored id = true → s.tables.signalStored g = true := by
    intro stored
    obtain ⟨row, held⟩ := Option.isSome_iff_exists.mp stored
    have same := (chained.stored id row q held asked).trans refers
    exact CopyTables.signalStored_iff.mpr (s.tables.signalled id row held g same)
  refine ⟨⟨signed, fun known => ?_⟩, ?_⟩
  · rcases whole.orders id q asked with awaited | stored | unsigned
    · exact absurd awaited settled
    · exact stored
    · exact nomatch known.symm.trans (missing unsigned)
  · intro stored f mem same waits
    rcases whole.fills f mem with awaited | there | unsigned
    · exact absurd awaited waits
    · exact there
    · rw [same] at unsigned
      exact nomatch (signed stored).symm.trans (missing unsigned)

def ownFill : Fill where
  fillId := ⟨0⟩
  orderId := ⟨1⟩
  correlationId := ⟨0⟩
  marketId := .zero
  tokenId := .zero
  side := .buy
  quantity := .whole 10
  price := .half
  fee := 0
  venueFillId := none
  isMaker := false
  filledAt := 0

/-- A call whose order is filled in part on the way back. -/
def filledCall : List ChainEvent :=
  [.spawn (.drawing 0) .sample, .advance 0 (.drawing 0), .advance 0 (.drawing 0), .written 0 true,
    .advance 0 (.drawing 1), .answer 0 (.ok ⟨⟨1⟩, none, 0, [ownFill], false⟩) 0, .written 0 true,
    .advance 0 (.drawing 2), .written 0 true]

/-- Nothing is awaited, and the order is there with its signal and its fill. -/
def AllWritten (s : ChainRun) : Prop :=
  (∀ w ∈ s.writers, w.pending.isNone ∧ w.todo.isEmpty) ∧
    (s.request ⟨1⟩).map (·.signalId) = some (some ⟨0⟩) ∧
    s.tables.signalStored ⟨0⟩ = true ∧ ownFill ∈ s.booked

instance (s : ChainRun) : Decidable s.AllWritten := inferInstanceAs (Decidable (_ ∧ _))

theorem stored_iff_signal_filledCall : ∃ s, Run (ChainRun.step .default) Sturdy
    (.start .sample .empty) filledCall s ∧ s.tables.stored ⟨1⟩ = true ∧ s.FillStored ownFill := by
  have ran : (filledCall.foldlM (fun s e => if Sturdy s e then ChainRun.step .default s e
      else none) (.start .sample .empty)).any (fun s => s.AllWritten) = true := by
    decide +kernel
  obtain ⟨s, executed, written⟩ := (Option.any_eq_true _ _).mp ran
  have run := run_of_foldlM executed
  obtain ⟨idle, refers, known, booked⟩ := of_decide_eq_true written
  obtain ⟨q, asked, refers⟩ := Option.map_eq_some_iff.mp refers
  have settled : ¬s.Awaited ⟨1⟩ := by
    rintro ⟨w, mem, ⟨o, pending, _⟩ | ⟨o, awaited, _⟩⟩
    · have none_ := Option.isNone_iff_eq_none.mp (idle w mem).1
      exact nomatch none_.symm.trans pending
    · rw [List.isEmpty_iff.mp (idle w mem).2] at awaited
      cases awaited
  have waits : ¬s.FillAwaited ownFill := by
    rintro ⟨w, mem, awaited⟩
    rw [List.isEmpty_iff.mp (idle w mem).2] at awaited
    cases awaited
  obtain ⟨same, fills⟩ := stored_iff_signal rfl run asked refers settled
  have stored := same.mpr known
  exact ⟨s, run, stored, fills stored ownFill booked rfl waits⟩

end ChainRun

end CopyTrading
