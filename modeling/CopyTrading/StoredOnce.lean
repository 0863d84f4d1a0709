import CopyTrading.StoredRuns

namespace CopyTrading

open Holders StepRun

namespace ChainRun

/-- What an order of this run asks for; it never changes. -/
def request (s : ChainRun) (id : OrderId) : Option OrderRequest :=
  (s.app.orders.get id).map Order.request

/-- Which signal each order and each row belongs to. -/
structure Chained (s : ChainRun) : Prop where
  keyed : ∀ id q, s.request id = some q → q.orderId = id
  copies : ∀ id q, s.request id = some q → ∃ g ∈ s.generated, q.signalId = some g.signalId
  single : ∀ id id' q q', s.request id = some q → s.request id' = some q' →
    q.signalId = q'.signalId → id = id'
  distinct : s.generated.Pairwise fun g g' => g.signalId ≠ g'.signalId
  storing : ∀ i g, heldAt Writer.signal s.writers i = some g → g ∈ s.generated ∧
    ∀ id q, s.request id = some q → q.signalId ≠ some g.signalId
  apart : Apart Writer.signal CopySignal.signalId s.writers
  pending : ∀ i o, heldAt Writer.pending s.writers i = some o → s.request o.id = some o.request
  signals : ∀ w ∈ s.writers, ∀ g, .insertSignal g ∈ w.todo → w.signal = some g
  orders : ∀ w ∈ s.writers, ∀ o, .upsertOrder o ∈ w.todo → s.request o.id = some o.request
  rows : ∀ r ∈ s.tables.signals, ∀ g ∈ s.generated, r.signalId = g.signalId →
    r.sourceEventId = g.sourceEventId
  stored : ∀ id r q, s.tables.orders.lookup id = some r → s.request id = some q →
    r.signalId = q.signalId

theorem Chained.start {app : AppState} (booted : app.orders.orders = ∅) (tables : CopyTables) :
    Chained (.start app tables) := by
  have none_ : ∀ id, (ChainRun.start app tables).request id = none := by
    intro id
    unfold request OrderManager.get ChainRun.start
    rw [booted]
    rfl
  refine ⟨?_, ?_, ?_, List.Pairwise.nil, ?_, Apart.nil, ?_, ?_, ?_, ?_, ?_⟩
  · intro id q held
    rw [none_] at held
    cases held
  · intro id q held
    rw [none_] at held
    cases held
  · intro id id' q q' held
    rw [none_] at held
    cases held
  · intro i g held
    cases held
  · intro i o held
    cases held
  · intro w mem
    cases mem
  · intro w mem
    cases mem
  · intro r _ g generated
    cases generated
  · intro id r q _ held
    rw [none_] at held
    cases held

/-- No new signal, no new order, and nothing is stored. -/
structure Idles (s s' : ChainRun) : Prop where
  request : ∀ id, s'.request id = s.request id
  generated : s'.generated = s.generated
  tables : s'.tables = s.tables
  signal : ∀ j g, heldAt Writer.signal s'.writers j = some g →
    heldAt Writer.signal s.writers j = some g
  pending : ∀ j o, heldAt Writer.pending s'.writers j = some o →
    heldAt Writer.pending s.writers j = some o
  todo : ∀ w ∈ s'.writers, w ∈ s.writers ∨ ∀ st ∈ w.todo, (∃ f, st = .insertFill f) ∨
    ∃ o, st = .upsertOrder o ∧ s.request o.id = some o.request

theorem Chained.idles {s s' : ChainRun} (h : s.Chained) (idles : s.Idles s') : s'.Chained := by
  refine ⟨?_, ?_, ?_, ?_, ?_, ?_, ?_, ?_, ?_, ?_, ?_⟩
  · simpa only [idles.request] using h.keyed
  · simpa only [idles.request, idles.generated] using h.copies
  · simpa only [idles.request] using h.single
  · rw [idles.generated]
    exact h.distinct
  · intro i g held
    simpa only [idles.request, idles.generated] using h.storing i g (idles.signal i g held)
  · intro i j a b first second
    exact h.apart i j a b (idles.signal i a first) (idles.signal j b second)
  · intro i o held
    rw [idles.request]
    exact h.pending i o (idles.pending i o held)
  · intro w mem g awaits
    rcases idles.todo w mem with before | others
    · exact h.signals w before g awaits
    · rcases others _ awaits with ⟨f, eq⟩ | ⟨o, eq, _⟩
      · cases eq
      · cases eq
  · intro w mem o awaits
    rw [idles.request]
    rcases idles.todo w mem with before | others
    · exact h.orders w before o awaits
    · rcases others _ awaits with ⟨f, eq⟩ | ⟨o', eq, known⟩
      · cases eq
      · cases eq
        exact known
  · rw [idles.tables, idles.generated]
    exact h.rows
  · intro id r q row held
    rw [idles.tables] at row
    rw [idles.request] at held
    exact h.stored id r q row held

/-- Signals of one id are one signal. -/
theorem eq_of_same {gs : List CopySignal} (distinct : gs.Pairwise fun g g' => g.signalId ≠ g'.signalId)
    {g g' : CopySignal} (mem : g ∈ gs) (mem' : g' ∈ gs) (same : g.signalId = g'.signalId) :
    g = g' := by
  have symm : Std.Symm fun g g' : CopySignal => g.signalId ≠ g'.signalId :=
    ⟨fun _ _ ne => ne.symm⟩
  by_contra apart
  exact distinct.forall mem mem' apart same

section Requests

variable {s : ChainRun} {app : AppState} (writers : List Writer) (tables : CopyTables)
  (generated : List CopySignal) (booked : List Fill)

theorem request_of_orders (orders : app.orders.orders = s.app.orders.orders) (id : OrderId) :
    request ⟨app, writers, tables, generated, booked⟩ id = s.request id := by
  unfold request OrderManager.get
  rw [orders]

/-- A write of the same request leaves every request as it is. -/
theorem request_of_insert {id : OrderId} {o : Order} (held : s.request id = some o.request)
    (orders : app.orders.orders = s.app.orders.orders.insert id o) (id' : OrderId) :
    request ⟨app, writers, tables, generated, booked⟩ id' = s.request id' := by
  unfold request at held ⊢
  simp only [OrderManager.get_insert orders]
  split
  next same =>
    rw [same, held]
    rfl
  next => rfl

end Requests

variable {s s' : ChainRun} {e : ChainEvent}

/-- A writer moves on, with neither a signal nor an order at the adapter. -/
theorem set_idle {i : Nat} {old next : Stage} {todo todo' : List Statement}
    (here : s.writers[i]? = some ⟨old, todo⟩) (signal : next.signal = none)
    (pending : next.pending = none) :
    (∀ j g, heldAt Writer.signal (s.writers.set i ⟨next, todo'⟩) j = some g →
      heldAt Writer.signal s.writers j = some g) ∧
    ∀ j o, heldAt Writer.pending (s.writers.set i ⟨next, todo'⟩) j = some o →
      heldAt Writer.pending s.writers j = some o := by
  constructor
  · intro j g held
    rcases heldAt_set_some here held with ⟨_, takes⟩ | ⟨_, before⟩
    · exact nomatch signal.symm.trans takes
    · exact before
  · intro j o held
    rcases heldAt_set_some here held with ⟨_, takes⟩ | ⟨_, before⟩
    · exact nomatch pending.symm.trans takes
    · exact before

/-- Another writer that holds neither. -/
theorem concat_idle (stage : Stage) (todo : List Statement) (signal : stage.signal = none)
    (pending : stage.pending = none) :
    (∀ j g, heldAt Writer.signal (s.writers ++ [⟨stage, todo⟩]) j = some g →
      heldAt Writer.signal s.writers j = some g) ∧
    ∀ j o, heldAt Writer.pending (s.writers ++ [⟨stage, todo⟩]) j = some o →
      heldAt Writer.pending s.writers j = some o := by
  constructor
  · intro j g held
    rcases heldAt_concat_some held with ⟨_, takes⟩ | before
    · exact nomatch signal.symm.trans takes
    · exact before
  · intro j o held
    rcases heldAt_concat_some held with ⟨_, takes⟩ | before
    · exact nomatch pending.symm.trans takes
    · exact before

/-- A fill that is applied leaves the requests as they are. -/
theorem Chained.request_filled (h : s.Chained) {f : Fill} {o : Order}
    (held : s.app.orders.get f.orderId = some o) :
    o.id = f.orderId ∧ s.request o.id = some (o.withFill f).request := by
  have asked : s.request f.orderId = some o.request := by
    unfold request
    rw [held]
    rfl
  have key : o.id = f.orderId := h.keyed _ _ asked
  refine ⟨key, ?_⟩
  rw [key, Order.withFill_request]
  exact asked

theorem idles_moved (fs : List Fill) {i : Nat} {app : AppState} {old next : Stage}
    (here : s.writers[i]? = some ⟨old, []⟩)
    (orders : app.orders.orders = s.app.orders.orders) (signal : next.signal = none)
    (pending : next.pending = none) : s.Idles { s with
      app := app
      writers := s.writers.set i ⟨next, fs.map .insertFill⟩
      booked := s.booked ++ fs } := by
  obtain ⟨signals, waiting⟩ := set_idle here signal pending
  refine ⟨request_of_orders _ _ _ _ orders, rfl, rfl, signals, waiting, ?_⟩
  intro w mem
  rcases List.mem_or_eq_of_mem_set mem with before | rfl
  · exact .inl before
  · refine .inr fun st awaits => .inl ?_
    obtain ⟨f, _, rfl⟩ := List.mem_map.mp awaits
    exact ⟨f, rfl⟩

theorem Chained.answered (h : s.Chained) {i : Nat} {app : AppState} {old next : Stage} {o : Order}
    {response : Except ExecutionError Acknowledgement} {now : DateTime}
    (here : s.writers[i]? = some ⟨old, []⟩) (pending : old.pending = some o)
    (signal : next.signal = none) (idle : next.pending = none)
    (orders : app.orders.orders = s.app.orders.orders.insert o.id (o.answered response now)) :
    s.Idles { s with
      app := app
      writers := s.writers.set i ⟨next, [.upsertOrder (o.answered response now)]⟩ } := by
  have before := heldAt_of_get (f := Writer.pending) here
  have asked := h.pending _ _ (before.trans pending)
  have written : s.request o.id = some (o.answered response now).request := by
    rw [Order.answered_request]
    exact asked
  obtain ⟨signals, waiting⟩ := set_idle here signal idle
  refine ⟨request_of_insert _ _ _ _ written orders, rfl, rfl, signals, waiting, ?_⟩
  intro w mem
  rcases List.mem_or_eq_of_mem_set mem with before | rfl
  · exact .inl before
  · refine .inr fun st awaits => .inr ⟨_, List.mem_singleton.mp awaits, ?_⟩
    rw [Order.answered_id]
    exact written

theorem Chained.polled (h : s.Chained) {f : Fill} {app : AppState} {o : Order}
    (held : s.app.orders.get f.orderId = some o)
    (orders : app.orders.orders = s.app.orders.orders.insert o.id (o.withFill f)) :
    s.Idles { s with
      app := app
      writers := s.writers ++
        [⟨.done, (app.orders.get f.orderId).toList.map .upsertOrder ++ [.insertFill f]⟩]
      booked := s.booked ++ [f] } := by
  obtain ⟨key, asked⟩ := h.request_filled held
  have found : app.orders.get f.orderId = some (o.withFill f) := by
    rw [OrderManager.get_insert orders, if_pos key.symm]
  obtain ⟨signal, pending⟩ := concat_idle (s := s) .done
    ((app.orders.get f.orderId).toList.map .upsertOrder ++ [.insertFill f]) rfl rfl
  refine ⟨request_of_insert _ _ _ _ asked orders, rfl, rfl, signal, pending, ?_⟩
  intro w mem
  rcases List.mem_append.mp mem with before | new
  · exact .inl before
  · cases List.mem_singleton.mp new
    refine .inr fun st awaits => ?_
    rw [found] at awaits
    rcases List.mem_append.mp awaits with order | fill
    · refine .inr ⟨_, List.mem_singleton.mp order, ?_⟩
      rw [Order.withFill_id]
      exact asked
    · exact .inl ⟨f, List.mem_singleton.mp fill⟩

theorem Chained.streamed (h : s.Chained) {f : Fill} {app : AppState} {o : Order}
    (held : s.app.orders.get f.orderId = some o)
    (orders : app.orders.orders = s.app.orders.orders.insert o.id (o.withFill f)) :
    s.Idles { s with app := app } := by
  obtain ⟨_, asked⟩ := h.request_filled held
  exact ⟨request_of_insert _ _ _ _ asked orders, rfl, rfl, fun _ _ => id, fun _ _ => id,
    fun _ mem => .inl mem⟩

/-- A signal is new, so nothing refers to it yet. -/
theorem Chained.signalled (h : s.Chained) {i : Nat} {env : CallEnv} {app : AppState}
    {old next : Stage} {g : CopySignal} (fresh : s.Fresh env)
    (here : s.writers[i]? = some ⟨old, []⟩) (orders : app.orders.orders = s.app.orders.orders)
    (signal : next.signal = some g) (drawn : g.signalId = env.signalId)
    (pending : next.pending = none) : Chained { s with
      app := app
      writers := s.writers.set i ⟨next, [.insertSignal g]⟩
      generated := s.generated ++ [g] } := by
  obtain ⟨_, _, notStored, new⟩ := fresh
  rw [← drawn] at notStored new
  have same := request_of_orders (s.writers.set i ⟨next, [.insertSignal g]⟩) s.tables
    (s.generated ++ [g]) s.booked orders
  have unused : ∀ id q, s.request id = some q → q.signalId ≠ some g.signalId := by
    intro id q held refers
    obtain ⟨g', known, refers'⟩ := h.copies id q held
    exact new g' known (Option.some.inj (refers'.symm.trans refers))
  refine ⟨?_, ?_, ?_, ?_, ?_, ?_, ?_, ?_, ?_, ?_, ?_⟩
  · simpa only [same] using h.keyed
  · intro id q held
    rw [same] at held
    obtain ⟨g', known, refers⟩ := h.copies id q held
    exact ⟨g', List.mem_append_left _ known, refers⟩
  · simpa only [same] using h.single
  · refine List.pairwise_append.mpr ⟨h.distinct, List.pairwise_singleton _ _, ?_⟩
    intro g' known g'' here'
    cases List.mem_singleton.mp here'
    exact new g' known
  · intro j g' held
    simp only [same]
    rcases heldAt_set_some here held with ⟨_, takes⟩ | ⟨_, before⟩
    · cases signal.symm.trans takes
      exact ⟨List.mem_append_right _ List.mem_cons_self, unused⟩
    · obtain ⟨known, others⟩ := h.storing j g' before
      exact ⟨List.mem_append_left _ known, others⟩
  · refine h.apart.set here fun g' takes => .inr fun j a held => ?_
    cases signal.symm.trans takes
    exact new a (h.storing j a held).1
  · intro j o held
    rw [same]
    rcases heldAt_set_some here held with ⟨_, takes⟩ | ⟨_, before⟩
    · exact nomatch pending.symm.trans takes
    · exact h.pending j o before
  · intro w mem g' awaits
    rcases List.mem_or_eq_of_mem_set mem with before | rfl
    · exact h.signals w before g' awaits
    · cases List.mem_singleton.mp awaits
      exact signal
  · intro w mem o awaits
    rw [same]
    rcases List.mem_or_eq_of_mem_set mem with before | rfl
    · exact h.orders w before o awaits
    · exact nomatch List.mem_singleton.mp awaits
  · intro r row g' known eq
    rcases List.mem_append.mp known with before | here'
    · exact h.rows r row g' before eq
    · cases List.mem_singleton.mp here'
      rw [Bool.eq_false_iff, Ne, CopyTables.signalStored_iff] at notStored
      exact absurd (List.mem_map.mpr ⟨r, row, eq⟩) notStored
  · intro id r q row held
    rw [same] at held
    exact h.stored id r q row held

section Submitted

variable {o : Order}

/-- One new order is asked for. -/
theorem extends_submitted {env : CallEnv} {app : AppState} (writers : List Writer)
    (fresh : s.Fresh env) (drawn : o.id = env.orderId)
    (orders : app.orders.orders = s.app.orders.orders.insert o.id o) :
    Extends s.request (request { s with app := app, writers := writers }) o.id o.request := by
  constructor
  · unfold request
    rw [drawn, Option.isNone_iff_eq_none.mp fresh.1]
    rfl
  · intro id
    unfold request
    rw [OrderManager.get_insert orders]
    split
    · rfl
    · rfl

/-- No two orders have one signal, when the new one has a signal that no order had. -/
theorem Chained.single_extends (h : s.Chained)
    (adds : Extends s.request s'.request o.id o.request) {g : SignalId}
    (refers : o.request.signalId = some g)
    (unused : ∀ id q, s.request id = some q → q.signalId ≠ some g) (id id' : OrderId)
    (q q' : OrderRequest) (held : s'.request id = some q) (held' : s'.request id' = some q')
    (same : q.signalId = q'.signalId) : id = id' := by
  rcases adds.new_or_older held with ⟨rfl, rfl⟩ | before
  · rcases adds.new_or_older held' with ⟨rfl, rfl⟩ | before'
    · rfl
    · exact absurd (same.symm.trans refers) (unused id' q' before')
  · rcases adds.new_or_older held' with ⟨rfl, rfl⟩ | before'
    · exact absurd (same.trans refers) (unused id q before)
    · exact h.single id id' q q' before before' same

/-- A signal that another writer has is still without an order. -/
theorem Chained.unused_extends (h : s.Chained)
    (adds : Extends s.request s'.request o.id o.request) {i j : Nat} {g g' : CopySignal}
    (refers : o.request.signalId = some g.signalId)
    (own : heldAt Writer.signal s.writers i = some g)
    (other : heldAt Writer.signal s.writers j = some g') (apart : i ≠ j) (id : OrderId)
    (q : OrderRequest) (held : s'.request id = some q) : q.signalId ≠ some g'.signalId := by
  rcases adds.new_or_older held with ⟨_, rfl⟩ | before
  · intro shared
    have same : g.signalId = g'.signalId := Option.some.inj (refers.symm.trans shared)
    exact apart (h.apart i j g g' own other same)
  · exact (h.storing j g' other).2 id q before

end Submitted

/-- An order takes over the signal of its call, and no other order has it. -/
theorem Chained.submitted (h : s.Chained) {i : Nat} {env : CallEnv} {app : AppState}
    {old next : Stage} {g : CopySignal} {o : Order} (fresh : s.Fresh env)
    (here : s.writers[i]? = some ⟨old, []⟩) (signal : old.signal = some g)
    (idle : next.signal = none) (pending : next.pending = some o) (drawn : o.id = env.orderId)
    (refers : o.request.signalId = some g.signalId)
    (orders : app.orders.orders = s.app.orders.orders.insert o.id o) :
    Chained { s with app := app, writers := s.writers.set i ⟨next, []⟩ } := by
  have own : heldAt Writer.signal s.writers i = some g := (heldAt_of_get here).trans signal
  have storing := h.storing i g own
  have adds := extends_submitted (s.writers.set i ⟨next, []⟩) fresh drawn orders
  refine ⟨?_, ?_, h.single_extends adds refers storing.2, h.distinct, ?_, ?_, ?_, ?_, ?_, h.rows,
    ?_⟩
  · intro id q held
    rcases adds.new_or_older held with ⟨rfl, rfl⟩ | before
    · rfl
    · exact h.keyed id q before
  · intro id q held
    rcases adds.new_or_older held with ⟨_, rfl⟩ | before
    · exact ⟨g, storing.1, refers⟩
    · exact h.copies id q before
  · intro j g' held
    rcases heldAt_set_some here held with ⟨_, takes⟩ | ⟨apart, before⟩
    · exact nomatch idle.symm.trans takes
    · exact ⟨(h.storing j g' before).1, h.unused_extends adds refers own before apart⟩
  · exact h.apart.set here fun b takes => nomatch idle.symm.trans takes
  · intro j o' held
    rcases heldAt_set_some here held with ⟨_, takes⟩ | ⟨_, before⟩
    · cases pending.symm.trans takes
      exact adds.new
    · exact (adds.older (h.pending j o' before)).2
  · intro w mem g' awaits
    rcases List.mem_or_eq_of_mem_set mem with before | rfl
    · exact h.signals w before g' awaits
    · cases awaits
  · intro w mem o' awaits
    rcases List.mem_or_eq_of_mem_set mem with before | rfl
    · exact (adds.older (h.orders w before o' awaits)).2
    · cases awaits
  · intro id r q row held
    rcases adds.new_or_older held with ⟨rfl, _⟩ | before
    · have unstored : s.tables.stored o.id = false := drawn ▸ fresh.2.1
      unfold CopyTables.stored at unstored
      rw [row] at unstored
      cases unstored
    · exact h.stored id r q row before

/-- A write stores the rows of what it is about, and the writer goes on to the next. -/
theorem Chained.written (h : s.Chained) {i : Nat} {executed : Bool} {stage : Stage}
    {st : Statement} {rest : List Statement} (here : s.writers[i]? = some ⟨stage, st :: rest⟩) :
    Chained { s with
      writers := s.writers.set i ⟨stage, rest⟩
      tables := if executed then s.tables.exec s.app.repos st else s.tables } := by
  have mem := List.mem_of_getElem? here
  have same : ∀ {β : Type} (f : Stage → Option β) {j b},
      heldAt (fun w : Writer => f w.stage) (s.writers.set i ⟨stage, rest⟩) j = some b →
      heldAt (fun w : Writer => f w.stage) s.writers j = some b := by
    intro β f j b held
    rcases heldAt_set_some here held with ⟨rfl, takes⟩ | ⟨_, before⟩
    · exact (heldAt_of_get here).trans takes
    · exact before
  refine ⟨h.keyed, h.copies, h.single, h.distinct, fun j g held => h.storing j g (same _ held),
    ?_, fun j o held => h.pending j o (same _ held), ?_, ?_, ?_, ?_⟩
  · intro j k a b first second
    exact h.apart j k a b (same _ first) (same _ second)
  · intro w later g awaits
    rcases List.mem_or_eq_of_mem_set later with before | rfl
    · exact h.signals w before g awaits
    · exact h.signals _ mem g (List.mem_cons_of_mem _ awaits)
  · intro w later o awaits
    rcases List.mem_or_eq_of_mem_set later with before | rfl
    · exact h.orders w before o awaits
    · exact h.orders _ mem o (List.mem_cons_of_mem _ awaits)
  · intro r row g known eq
    split at row
    next =>
      rcases s.tables.exec_signals s.app.repos st with unchanged | ⟨g', rfl, grown⟩
      · rw [unchanged] at row
        exact h.rows r row g known eq
      · rw [grown] at row
        rcases List.mem_append.mp row with before | new
        · exact h.rows r before g known eq
        · cases List.mem_singleton.mp new
          have held := h.signals _ mem g' List.mem_cons_self
          have known' := (h.storing i g' ((heldAt_of_get here).trans held)).1
          rw [eq_of_same h.distinct known' known eq]
    next => exact h.rows r row g known eq
  · intro id r q row held
    split at row
    next =>
      rcases CopyTables.exec_orders row with ⟨r', before, refers⟩ | ⟨o, rfl, rfl, refers⟩
      · rw [← refers]
        exact h.stored id r' q before held
      · have asked := h.orders _ mem o List.mem_cons_self
        cases held.symm.trans asked
        exact refers
    next => exact h.stored id r q row held

theorem Chained.step (h : s.Chained) (effect : ChainEffect s e s') : s'.Chained := by
  cases effect with
  | spawned orders =>
    obtain ⟨signal, pending⟩ := concat_idle (s := s) (.inserted _) [] rfl rfl
    refine h.idles ⟨request_of_orders _ _ _ _ orders, rfl, rfl, signal, pending, ?_⟩
    intro w mem
    rcases List.mem_append.mp mem with before | new
    · exact .inl before
    · cases List.mem_singleton.mp new
      exact .inr fun st awaits => nomatch awaits
  | moved here _ orders signal pending => exact h.idles (idles_moved _ here orders signal pending)
  | signalled fresh here _ orders signal drawn pending =>
    exact h.signalled fresh here orders signal drawn pending
  | submitted fresh here _ signal idle pending _ drawn refers orders =>
    exact h.submitted fresh here signal idle pending drawn refers orders
  | answered here pending signal idle _ orders =>
    exact h.idles (h.answered here pending signal idle orders)
  | polled held orders => exact h.idles (h.polled held orders)
  | streamed held orders => exact h.idles (h.streamed held orders)
  | written here => exact h.written here

theorem Chained.run {cfg : StrategyConfig} {boot : AppState} {tables : CopyTables}
    {ok : ChainRun → ChainEvent → Prop} {es : List ChainEvent} (booted : boot.orders.orders = ∅)
    (run : Run (ChainRun.step cfg) ok (.start boot tables) es s) : s.Chained :=
  run.keeps (fun _ _ _ h _ taken => h.step (step_effect taken)) (.start booted tables)

/-- The rows there are at the start stay, and none of them is a signal of this run. -/
structure Outlives (tables : CopyTables) (s : ChainRun) : Prop where
  kept : tables.signals <+: s.tables.signals
  older : ∀ r ∈ tables.signals, ∀ g ∈ s.generated, r.signalId ≠ g.signalId

theorem Outlives.step {tables : CopyTables} (h : Outlives tables s) (effect : ChainEffect s e s') :
    Outlives tables s' := by
  cases effect with
  | signalled fresh _ _ _ _ drawn =>
    refine ⟨h.kept, ?_⟩
    intro r row g known same
    rcases List.mem_append.mp known with before | new
    · exact h.older r row g before same
    · cases List.mem_singleton.mp new
      have unstored := fresh.2.2.1
      rw [Bool.eq_false_iff, Ne, CopyTables.signalStored_iff, ← drawn] at unstored
      exact unstored (List.mem_map.mpr ⟨r, h.kept.subset row, same⟩)
  | @written _ _ _ st _ here =>
    refine ⟨h.kept.trans ?_, h.older⟩
    simp only
    split
    · rcases s.tables.exec_signals s.app.repos st with same | ⟨g, _, grown⟩
      · rw [same]
      · rw [grown]
        exact List.prefix_append _ _
    · exact List.prefix_rfl
  | _ => exact ⟨h.kept, h.older⟩

/-- The order was made from a signal of this source event. -/
def Copies (s : ChainRun) (id : OrderId) (event : SourceEventId) : Prop :=
  ∃ q, s.request id = some q ∧
    ∃ g ∈ s.generated, q.signalId = some g.signalId ∧ g.sourceEventId = event

/-- The row of an order comes with the row of its own signal, on its own source event. -/
theorem Chained.own_signal (h : s.Chained) {id : OrderId} {event : SourceEventId}
    (copies : s.Copies id event) (stored : s.tables.stored id = true) :
    ∃ q r, s.request id = some q ∧ r ∈ s.tables.signals ∧ q.signalId = some r.signalId ∧
      r.sourceEventId = event := by
  obtain ⟨q, asked, g, known, refers, rfl⟩ := copies
  obtain ⟨row, held⟩ := Option.isSome_iff_exists.mp stored
  have same := (h.stored id row q held asked).trans refers
  obtain ⟨r, mem, eq⟩ := List.mem_map.mp (s.tables.signalled id row held _ same)
  exact ⟨q, r, asked, mem, eq ▸ refers, h.rows r mem g known eq⟩

theorem CopyTables.eq_of_event {t : CopyTables} {r r' : SignalRow} (mem : r ∈ t.signals)
    (mem' : r' ∈ t.signals) (same : r.sourceEventId = r'.sourceEventId) : r = r' := by
  have symm : Std.Symm fun r r' : SignalRow =>
      r.sourceEventId ≠ r'.sourceEventId ∧ r.signalId ≠ r'.signalId :=
    ⟨fun _ _ ne => ⟨ne.1.symm, ne.2.symm⟩⟩
  by_contra apart
  exact (t.apart.forall mem mem' apart).1 same

/-- However often a source event is handed to the pipeline, whatever the interleaving and whichever
writes fail: of all the orders that copy it at most one ever has a row in the database, and none if
the database already had a signal for it. The others are sent all the same. -/
theorem stored_once {cfg : StrategyConfig} {boot : AppState} {tables : CopyTables}
    {es : List ChainEvent} (booted : boot.orders.orders = ∅)
    (run : Run (ChainRun.step cfg) Anywhere (.start boot tables) es s) (event : SourceEventId) :
    (∀ a b, s.Copies a event → s.Copies b event → s.tables.stored a = true →
      s.tables.stored b = true → a = b) ∧
    ∀ a, s.Copies a event → s.tables.stored a = true →
      ∀ r ∈ tables.signals, r.sourceEventId ≠ event := by
  have chained := Chained.run booted run
  have outlives : Outlives tables s :=
    run.keeps (fun _ _ _ h _ taken => h.step (step_effect taken)) 
      ⟨List.prefix_rfl, fun _ _ _ known => nomatch known⟩
  constructor
  · intro a b first second storedA storedB
    obtain ⟨q, r, asked, mem, refers, of⟩ := chained.own_signal first storedA
    obtain ⟨q', r', asked', mem', refers', of'⟩ := chained.own_signal second storedB
    have same := CopyTables.eq_of_event mem mem' (of.trans of'.symm)
    rw [← same] at refers'
    exact chained.single a b q q' asked asked' (refers.trans refers'.symm)
  · intro a copies stored old before same
    obtain ⟨q, r, asked, mem, refers, of⟩ := chained.own_signal copies stored
    have eq := CopyTables.eq_of_event mem (outlives.kept.subset before) (of.trans same.symm)
    obtain ⟨q', asked', g, known, refers', _⟩ := copies
    cases asked.symm.trans asked'
    have shared := Option.some.inj (refers.symm.trans refers')
    exact outlives.older old before g known (eq ▸ shared)

/-- One call from its start to the row of its order, which the venue fills nothing of. -/
def wholeCall (i k : Nat) (trade : SourceTrade) : List ChainEvent :=
  let order : OrderId := ⟨k + 1⟩
  [.spawn (.drawing k) trade, .advance i (.drawing k), .advance i (.drawing k), .written i true,
    .advance i (.drawing (k + 1)), .answer i (.ok ⟨order, none, 0, [], false⟩) 0, .written i true]

/-- A source event is handed to the pipeline twice. -/
def handedTwice : List ChainEvent := wholeCall 0 0 .sample ++ wholeCall 1 2 .sample

/-- The first order has its row, and both are there. -/
def Twice (s : ChainRun) : Prop :=
  s.tables.stored ⟨1⟩ = true ∧ (s.request ⟨1⟩).map (·.signalId) = some (some ⟨0⟩) ∧
    (s.request ⟨3⟩).map (·.signalId) = some (some ⟨2⟩) ∧
    s.generated.map (fun g => (g.signalId, g.sourceEventId)) =
      [(⟨0⟩, SourceTrade.sample.eventId), (⟨2⟩, SourceTrade.sample.eventId)]

instance (s : ChainRun) : Decidable s.Twice := inferInstanceAs (Decidable (_ ∧ _))

theorem handedTwice_runs : ∃ s, Run (ChainRun.step .default) Anywhere (.start .sample .empty)
    handedTwice s ∧ s.Twice := by
  have ran : (handedTwice.foldlM (fun s e => if Anywhere s e then ChainRun.step .default s e
      else none) (.start .sample .empty)).any (fun s => s.Twice) = true := by
    decide +kernel
  obtain ⟨s, executed, twice⟩ := (Option.any_eq_true _ _).mp ran
  exact ⟨s, run_of_foldlM executed, of_decide_eq_true twice⟩

theorem Twice.copies {s : ChainRun} (h : s.Twice) :
    s.Copies ⟨1⟩ SourceTrade.sample.eventId ∧ s.Copies ⟨3⟩ SourceTrade.sample.eventId := by
  obtain ⟨_, first, second, signals⟩ := h
  have generated : ∀ n : Nat, (⟨n⟩, SourceTrade.sample.eventId) ∈
      s.generated.map (fun g => (g.signalId, g.sourceEventId)) →
      ∃ g ∈ s.generated, g.signalId = ⟨n⟩ ∧ g.sourceEventId = SourceTrade.sample.eventId := by
    intro n mem
    obtain ⟨g, known, eq⟩ := List.mem_map.mp mem
    exact ⟨g, known, (Prod.mk.inj eq).1, (Prod.mk.inj eq).2⟩
  have copies : ∀ (id : OrderId) (n : Nat), (s.request id).map (·.signalId) = some (some ⟨n⟩) →
      (⟨n⟩, SourceTrade.sample.eventId) ∈
        s.generated.map (fun g => (g.signalId, g.sourceEventId)) →
      s.Copies id SourceTrade.sample.eventId := by
    intro id n refers mem
    obtain ⟨q, asked, signal⟩ := Option.map_eq_some_iff.mp refers
    obtain ⟨g, known, same, of⟩ := generated n mem
    exact ⟨q, asked, g, known, same ▸ signal, of⟩
  rw [signals] at copies
  exact ⟨copies _ 0 first (by simp), copies _ 2 second (by simp)⟩

/-- The second order has no row. -/
theorem stored_once_handedTwice : ∃ s, Run (ChainRun.step .default) Anywhere
    (.start .sample .empty) handedTwice s ∧ s.Copies ⟨1⟩ SourceTrade.sample.eventId ∧
    s.Copies ⟨3⟩ SourceTrade.sample.eventId ∧ s.tables.stored ⟨1⟩ = true ∧
    s.tables.stored ⟨3⟩ = false := by
  obtain ⟨s, run, twice⟩ := handedTwice_runs
  obtain ⟨first, second⟩ := twice.copies
  refine ⟨s, run, first, second, twice.1, Bool.eq_false_iff.mpr fun stored => ?_⟩
  have same := (stored_once rfl run SourceTrade.sample.eventId).1 _ _ first second twice.1 stored
  cases same

end ChainRun

end CopyTrading
