import CopyTrading.Holders
import CopyTrading.OrderRecovery

namespace CopyTrading

/-- A row of `copy_signals`, with the source event it refers to. -/
structure SignalRow where
  signalId : SignalId
  sourceEventId : SourceEventId
  deriving DecidableEq

/-- A row of `orders`, with the signal it refers to. -/
structure SignalledOrderRow where
  row : OrderRow
  signalId : Option SignalId
  deriving DecidableEq

/-- A row of `fills`, with the order it refers to. -/
structure FillRow where
  fillId : FillId
  orderId : OrderId
  venueFillId : Option String
  deriving DecidableEq

def Fill.row (f : Fill) : FillRow := ⟨f.fillId, f.orderId, f.venueFillId⟩

/-- The rows agree on one of the unique columns of `fills`; a missing venue id agrees with none. -/
def FillRow.Same (r r' : FillRow) : Prop :=
  r.fillId = r'.fillId ∨ (r.venueFillId = r'.venueFillId ∧ r.venueFillId.isSome)

instance FillRow.decidableSame (r r' : FillRow) : Decidable (r.Same r') :=
  inferInstanceAs (Decidable (_ ∨ _))

/-- The tables a copy leaves its traces in, with the constraints that the database keeps. -/
structure CopyTables where
  signals : List SignalRow
  orders : AList fun _ : OrderId => SignalledOrderRow
  fills : List FillRow
  /-- `UNIQUE (source_event_id)`, and the primary key. -/
  apart : signals.Pairwise fun r r' =>
    r.sourceEventId ≠ r'.sourceEventId ∧ r.signalId ≠ r'.signalId
  /-- `signal_id UUID REFERENCES copy_signals(signal_id)` -/
  signalled : ∀ id r, orders.lookup id = some r → ∀ s, r.signalId = some s →
    s ∈ signals.map SignalRow.signalId
  /-- `order_id UUID NOT NULL REFERENCES orders(order_id)` -/
  ordered : ∀ r ∈ fills, (orders.lookup r.orderId).isSome

/-- A write that a call awaits. What it answers is only logged. -/
inductive Statement
  | insertSignal (signal : CopySignal)
  | upsertOrder (order : Order)
  | insertFill (fill : Fill)

namespace CopyTables

def empty : CopyTables := ⟨[], ∅, [], .nil, nofun, nofun⟩

def stored (t : CopyTables) (id : OrderId) : Bool := (t.orders.lookup id).isSome

def signalStored (t : CopyTables) (id : SignalId) : Bool :=
  t.signals.any fun r => r.signalId = id

theorem signalStored_iff {t : CopyTables} {id : SignalId} :
    t.signalStored id = true ↔ id ∈ t.signals.map SignalRow.signalId := by
  simp [signalStored]

/-- `ON CONFLICT (source_event_id) DO NOTHING`; a conflict on the primary key passes for success. -/
def insertSignal (t : CopyTables) (events : List SourceEventRow) (s : CopySignal) : CopyTables :=
  if known : ∃ r ∈ t.signals, r.sourceEventId = s.sourceEventId ∨ r.signalId = s.signalId then t
  -- the reference to `source_events`
  else if events.any fun e => e.eventId = s.sourceEventId then
    { t with
      signals := t.signals ++ [⟨s.signalId, s.sourceEventId⟩]
      apart := by
        rw [List.pairwise_append]
        refine ⟨t.apart, List.pairwise_singleton _ _, ?_⟩
        intro r mem r' here
        cases List.mem_singleton.mp here
        exact ⟨fun same => known ⟨r, mem, .inl same⟩, fun same => known ⟨r, mem, .inr same⟩⟩
      signalled := by
        intro id r held s' refers
        rw [List.map_append]
        exact List.mem_append_left _ (t.signalled id r held s' refers) }
  else t

/-- `ON CONFLICT (order_id) DO UPDATE`, which leaves the reference to the signal as it was. -/
def upsertOrder (t : CopyTables) (o : Order) : CopyTables :=
  let ordered := fun (r : SignalledOrderRow) (x : FillRow) (mem : x ∈ t.fills) =>
    show ((t.orders.insert o.id r).lookup x.orderId).isSome by
      by_cases here : x.orderId = o.id
      · rw [here, AList.lookup_insert]
        rfl
      · rw [AList.lookup_insert_ne here]
        exact t.ordered x mem
  match held : t.orders.lookup o.id with
  | some old =>
    { t with
      orders := t.orders.insert o.id { old with row := o.row }
      signalled := by
        intro id r held' s refers
        by_cases here : id = o.id
        · rw [here, AList.lookup_insert] at held'
          cases held'
          exact t.signalled o.id old held s refers
        · rw [AList.lookup_insert_ne here] at held'
          exact t.signalled id r held' s refers
      ordered := ordered _ }
  | none =>
    if known : o.request.signalId.all t.signalStored then
      { t with
        orders := t.orders.insert o.id ⟨o.row, o.request.signalId⟩
        signalled := by
          intro id r held' s refers
          by_cases here : id = o.id
          · rw [here, AList.lookup_insert] at held'
            cases held'
            simp only at refers
            rw [refers, Option.all_some] at known
            exact signalStored_iff.mp known
          · rw [AList.lookup_insert_ne here] at held'
            exact t.signalled id r held' s refers
        ordered := ordered _ }
    else t

/-- `ON CONFLICT DO NOTHING`, on the primary key or on the venue's id of the fill. -/
def insertFill (t : CopyTables) (f : Fill) : CopyTables :=
  if ∃ r ∈ t.fills, r.Same f.row then t
  else if known : t.stored f.orderId then
    { t with
      fills := t.fills ++ [f.row]
      ordered := by
        intro r mem
        rcases List.mem_append.mp mem with before | here
        · exact t.ordered r before
        · cases List.mem_singleton.mp here
          exact known }
  else t

/-- Nothing is written where there is no database. -/
def exec (t : CopyTables) (repos : Repositories) (st : Statement) : CopyTables :=
  match repos.sourceEvents with
  | none => t
  | some events =>
    match st with
    | .insertSignal s => t.insertSignal events s
    | .upsertOrder o => t.upsertOrder o
    | .insertFill f => t.insertFill f

section Operations

variable {t : CopyTables} {repos : Repositories}

theorem insertSignal_frame (t : CopyTables) (events : List SourceEventRow) (s : CopySignal) :
    (t.insertSignal events s).orders = t.orders ∧ (t.insertSignal events s).fills = t.fills ∧
      ((t.insertSignal events s).signals = t.signals ∨
        (t.insertSignal events s).signals = t.signals ++ [⟨s.signalId, s.sourceEventId⟩]) := by
  unfold insertSignal
  split
  · exact ⟨rfl, rfl, .inl rfl⟩
  · split
    · exact ⟨rfl, rfl, .inr rfl⟩
    · exact ⟨rfl, rfl, .inl rfl⟩

/-- The row of an order is there already, or its signal is, or nothing is written. -/
theorem upsertOrder_cases (t : CopyTables) (o : Order) :
    (t.upsertOrder o).signals = t.signals ∧ (t.upsertOrder o).fills = t.fills ∧
      ((∃ old, t.orders.lookup o.id = some old ∧
          (t.upsertOrder o).orders = t.orders.insert o.id { old with row := o.row }) ∨
        (t.orders.lookup o.id = none ∧ o.request.signalId.all t.signalStored = true ∧
          (t.upsertOrder o).orders = t.orders.insert o.id ⟨o.row, o.request.signalId⟩) ∨
        (o.request.signalId.all t.signalStored = false ∧
          (t.upsertOrder o).orders = t.orders)) := by
  unfold upsertOrder
  split
  next old held => exact ⟨rfl, rfl, .inl ⟨old, held, rfl⟩⟩
  next held =>
    split
    next known => exact ⟨rfl, rfl, .inr (.inl ⟨held, known, rfl⟩)⟩
    next unknown => exact ⟨rfl, rfl, .inr (.inr ⟨Bool.eq_false_iff.mpr unknown, rfl⟩)⟩

theorem insertFill_frame (t : CopyTables) (f : Fill) :
    (t.insertFill f).signals = t.signals ∧ (t.insertFill f).orders = t.orders ∧
      t.fills <+: (t.insertFill f).fills := by
  unfold insertFill
  split
  · exact ⟨rfl, rfl, List.prefix_rfl⟩
  · split
    · exact ⟨rfl, rfl, List.prefix_append _ _⟩
    · exact ⟨rfl, rfl, List.prefix_rfl⟩

theorem exec_signals (t : CopyTables) (repos : Repositories) (st : Statement) :
    (t.exec repos st).signals = t.signals ∨ ∃ s, st = .insertSignal s ∧
      (t.exec repos st).signals = t.signals ++ [⟨s.signalId, s.sourceEventId⟩] := by
  unfold exec
  split
  · exact .inl rfl
  · cases st with
    | insertSignal s =>
      rcases (t.insertSignal_frame _ s).2.2 with same | grown
      · exact .inl same
      · exact .inr ⟨s, rfl, grown⟩
    | upsertOrder o => exact .inl (t.upsertOrder_cases o).1
    | insertFill f => exact .inl (t.insertFill_frame f).1

/-- A row refers to the signal it has always referred to, or to that of the order just written. -/
theorem exec_orders {st : Statement} {id : OrderId} {r : SignalledOrderRow}
    (held : (t.exec repos st).orders.lookup id = some r) :
    (∃ old, t.orders.lookup id = some old ∧ old.signalId = r.signalId) ∨
      ∃ o, st = .upsertOrder o ∧ o.id = id ∧ r.signalId = o.request.signalId := by
  unfold exec at held
  split at held
  next => exact .inl ⟨r, held, rfl⟩
  next =>
    cases st with
    | insertSignal s =>
      rw [(t.insertSignal_frame _ s).1] at held
      exact .inl ⟨r, held, rfl⟩
    | insertFill f =>
      rw [(t.insertFill_frame f).2.1] at held
      exact .inl ⟨r, held, rfl⟩
    | upsertOrder o =>
      by_cases here : id = o.id
      · subst here
        rcases (t.upsertOrder_cases o).2.2 with ⟨old, before, eq⟩ | ⟨_, _, eq⟩ | ⟨_, eq⟩
        · rw [eq, AList.lookup_insert] at held
          cases held
          exact .inl ⟨old, before, rfl⟩
        · rw [eq, AList.lookup_insert] at held
          cases held
          exact .inr ⟨o, rfl, rfl, rfl⟩
        · rw [eq] at held
          exact .inl ⟨r, held, rfl⟩
      · rcases (t.upsertOrder_cases o).2.2 with ⟨_, _, eq⟩ | ⟨_, _, eq⟩ | ⟨_, eq⟩
        · rw [eq, AList.lookup_insert_ne here] at held
          exact .inl ⟨r, held, rfl⟩
        · rw [eq, AList.lookup_insert_ne here] at held
          exact .inl ⟨r, held, rfl⟩
        · rw [eq] at held
          exact .inl ⟨r, held, rfl⟩

/-- No row is ever taken back. -/
theorem stored_exec {id : OrderId} (st : Statement) (held : t.stored id = true) :
    (t.exec repos st).stored id = true := by
  unfold exec
  split
  · exact held
  · cases st with
    | insertSignal s =>
      unfold stored
      rw [(t.insertSignal_frame _ s).1]
      exact held
    | insertFill f =>
      unfold stored
      rw [(t.insertFill_frame f).2.1]
      exact held
    | upsertOrder o =>
      show ((t.upsertOrder o).orders.lookup id).isSome
      by_cases here : id = o.id
      · subst here
        rcases (t.upsertOrder_cases o).2.2 with ⟨_, _, eq⟩ | ⟨_, _, eq⟩ | ⟨_, eq⟩
        · rw [eq, AList.lookup_insert]
          rfl
        · rw [eq, AList.lookup_insert]
          rfl
        · rw [eq]
          exact held
      · rcases (t.upsertOrder_cases o).2.2 with ⟨_, _, eq⟩ | ⟨_, _, eq⟩ | ⟨_, eq⟩
        · rw [eq, AList.lookup_insert_ne here]
          exact held
        · rw [eq, AList.lookup_insert_ne here]
          exact held
        · rw [eq]
          exact held

theorem fills_exec (t : CopyTables) (repos : Repositories) (st : Statement) :
    t.fills <+: (t.exec repos st).fills := by
  unfold exec
  split
  · exact List.prefix_rfl
  · cases st with
    | insertSignal s => rw [(t.insertSignal_frame _ s).2.1]
    | upsertOrder o => rw [(t.upsertOrder_cases o).2.1]
    | insertFill f => exact (t.insertFill_frame f).2.2

/-- Where there is a database, an order is written if its signal is there. -/
theorem stored_upsertOrder (up : repos.isEphemeral = false) (o : Order)
    (known : o.request.signalId.all t.signalStored = true) :
    (t.exec repos (.upsertOrder o)).stored o.id = true := by
  unfold Repositories.isEphemeral at up
  unfold exec
  split
  next none_ =>
    rw [none_] at up
    cases up
  next =>
    show ((t.upsertOrder o).orders.lookup o.id).isSome
    rcases (t.upsertOrder_cases o).2.2 with ⟨_, _, eq⟩ | ⟨_, _, eq⟩ | ⟨unknown, _⟩
    · rw [eq, AList.lookup_insert]
      rfl
    · rw [eq, AList.lookup_insert]
      rfl
    · rw [known] at unknown
      cases unknown

/-- Where there is a database, a fill is written if its order is there. -/
theorem same_insertFill (up : repos.isEphemeral = false) (f : Fill)
    (known : t.stored f.orderId = true) :
    ∃ r ∈ (t.exec repos (.insertFill f)).fills, r.Same f.row := by
  unfold Repositories.isEphemeral at up
  unfold exec
  split
  next none_ =>
    rw [none_] at up
    cases up
  next =>
    show ∃ r ∈ (t.insertFill f).fills, r.Same f.row
    unfold insertFill
    split
    next there => exact there
    next => exact ⟨f.row, List.mem_append_right _ List.mem_cons_self, .inl rfl⟩

end Operations

end CopyTables

end CopyTrading
