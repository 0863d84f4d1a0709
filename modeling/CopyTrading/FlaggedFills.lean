import CopyTrading.OrderEvents
import CopyTrading.OrderRace

namespace CopyTrading

/-- What is left of a room after each fill that fits in it has taken its part. -/
def leftAfter : Decimal → List Fill → Decimal
  | room, [] => room
  | room, f :: fs =>
    leftAfter (if f.quantity.get ≤ room then room - f.quantity.get else room) fs

theorem leftAfter_nonneg {room : Decimal} (some_ : 0 ≤ room) (fs : List Fill) :
    0 ≤ leftAfter room fs := by
  induction fs generalizing room with
  | nil => exact some_
  | cons f fs ih =>
    unfold leftAfter
    split
    next fits => exact ih (sub_nonneg.mpr fits)
    next => exact ih some_

/-- An order in the loop over the fills of an acknowledgement: it is filled exactly if it has no
room left. -/
structure Order.Receiving (o : Order) (room : Decimal) : Prop where
  may : o.state.mayHaveExecuted
  left : o.remaining.get = room
  filled : o.state = .filled ↔ room = 0

namespace Order.Receiving

variable {o : Order} {room : Decimal} {f : Fill} {acc : Order × List Fill}

theorem refuses_iff (h : o.Receiving room) :
    (∃ e, (o.stampFill f.filledAt).applyFill f.quantity f.price f.fee f.filledAt = .error e) ↔
      room < f.quantity.get := by
  constructor
  · rintro ⟨e, refused⟩
    by_contra fits
    have accepted := (o.stamped_applyFill_ok_iff f).mpr ⟨h.may, h.left ▸ not_lt.mp fits, rfl⟩
    rw [accepted] at refused
    cases refused
  · intro beyond
    cases result : (o.stampFill f.filledAt).applyFill f.quantity f.price f.fee f.filledAt with
    | error e => exact ⟨e, rfl⟩
    | ok o' =>
      have fits := ((o.stamped_applyFill_ok_iff f).mp result).2.1
      rw [h.left] at fits
      exact absurd beyond (not_lt.mpr fits)

/-- A fill that fits is booked: it leaves the order open or filled. -/
theorem accepts (h : acc.1.Receiving room) (now : DateTime) (fits : f.quantity.get ≤ room) :
    (receiveFill now acc f).1.Receiving (room - f.quantity.get) ∧
      (receiveFill now acc f).1.state ≠ .unknown := by
  have rest : (acc.1.withFill f).remaining.get = room - f.quantity.get := by
    rw [withFill_remaining, Qty.saturatingSub_get (h.left ▸ fits), h.left]
  have booked : (receiveFill now acc f).1 = acc.1.withFill f :=
    congrArg Prod.fst (receiveFill_of now acc.2 h.may (h.left ▸ fits))
  have state := acc.1.withFill_state f
  rw [booked]
  by_cases none_ : room - f.quantity.get = 0
  · rw [if_pos (Qty.isZero_iff.mpr (rest.trans none_))] at state
    exact ⟨⟨by rw [state]; rfl, rest, iff_of_true state none_⟩, by rw [state]; exact nofun⟩
  · rw [if_neg fun empty => none_ (rest.symm.trans (Qty.isZero_iff.mp empty))] at state
    refine ⟨⟨by rw [state]; rfl, rest, iff_of_false ?_ none_⟩, by rw [state]; exact nofun⟩
    rw [state]
    exact nofun

/-- A fill that does not fit flags the order unless it is filled already. -/
theorem refuses (h : acc.1.Receiving room) (now : DateTime) (beyond : room < f.quantity.get) :
    (receiveFill now acc f).1.Receiving room ∧
      ((receiveFill now acc f).1.state = .unknown ↔ room ≠ 0) := by
  obtain ⟨e, refused⟩ := (h.refuses_iff (f := f)).mpr beyond
  obtain ⟨_, eq⟩ := acc.1.stampFill_eq f.filledAt
  have flagged : (receiveFill now acc f).1 =
      (acc.1.stampFill f.filledAt).tryTransition .unknown now := by
    unfold receiveFill
    simp only [refused]
  rw [flagged, tryTransition_eq, eq]
  by_cases filled : acc.1.state = .filled
  · have none_ := h.filled.mp filled
    rw [if_neg (by rw [filled]; decide)]
    refine ⟨⟨h.may, h.left, h.filled⟩, iff_of_false ?_ (not_not.mpr none_)⟩
    rw [filled]
    exact nofun
  · have some_ : room ≠ 0 := fun none_ => filled (h.filled.mpr none_)
    have open_ : acc.1.state.canTransitionTo .unknown := by
      have may := h.may
      cases state : acc.1.state <;> rw [state] at may filled <;>
        first | rfl | exact absurd rfl filled | cases may
    rw [if_pos open_]
    exact ⟨⟨rfl, h.left, iff_of_false nofun some_⟩, iff_of_true rfl some_⟩

/-- The fold over the fills leaves what the fills that fit have left. -/
theorem fold (h : acc.1.Receiving room) (now : DateTime) (fs : List Fill) :
    (fs.foldl (receiveFill now) acc).1.Receiving (leftAfter room fs) := by
  induction fs generalizing acc room with
  | nil => exact h
  | cons f fs ih =>
    rw [List.foldl_cons, leftAfter]
    split
    next fits => exact ih (h.accepts now fits).1
    next beyond => exact ih (h.refuses now (not_le.mp beyond)).1

/-- The last fill decides whether the order ends up flagged. -/
theorem fold_unknown_iff (h : acc.1.Receiving room) (fresh : acc.1.state ≠ .unknown)
    (now : DateTime) (fs : List Fill) :
    (fs.foldl (receiveFill now) acc).1.state = .unknown ↔
      ∃ init f, fs = init ++ [f] ∧ leftAfter room init ≠ 0 ∧
        leftAfter room init < f.quantity.get := by
  rcases List.eq_nil_or_concat fs with rfl | ⟨init, f, rfl⟩
  · refine iff_of_false fresh ?_
    rintro ⟨init, f, eq, _⟩
    exact absurd eq (by simp)
  · rw [List.concat_eq_append, List.foldl_append, List.foldl_cons, List.foldl_nil]
    have before := h.fold now init
    constructor
    · intro unknown
      by_cases fits : f.quantity.get ≤ leftAfter room init
      · exact absurd unknown (before.accepts now fits).2
      · have beyond := not_le.mp fits
        exact ⟨init, f, rfl, (before.refuses now beyond).2.mp unknown, beyond⟩
    · rintro ⟨init', f', eq, some_, beyond⟩
      obtain ⟨rfl, same⟩ := List.append_inj' eq rfl
      cases same
      exact (before.refuses now beyond).2.mpr some_

end Order.Receiving

/-- One of the fills of the acknowledgement is refused, in the state that the fills before it have
left the order in. -/
def Order.RefusesFill (order : Order) (ack : Acknowledgement) (now : DateTime) : Prop :=
  ∃ before f after, ack.immediateFills = before ++ f :: after ∧
    ∃ e, ((order.acknowledge { ack with immediateFills := before } now).1.stampFill
      f.filledAt).applyFill f.quantity f.price f.fee f.filledAt = .error e

/-- Every fill fits in what the fills before it have left. -/
def AllFit (room : Decimal) (fs : List Fill) : Prop :=
  ∀ before f after, fs = before ++ f :: after → f.quantity.get ≤ leftAfter room before

/-- The last fill is larger than what is left, and something is. -/
def LastExceeds (room : Decimal) (fs : List Fill) : Prop :=
  ∃ init f, fs = init ++ [f] ∧ 0 < leftAfter room init ∧ leftAfter room init < f.quantity.get

namespace Order.NewlyValidated

variable {o : Order} {req : OrderRequest}

theorem receiving (h : o.NewlyValidated req) (ack : Acknowledgement) (now at_ : DateTime) :
    ((o.sent now).acked ack at_).Receiving req.quantity.get := by
  obtain ⟨_, request, unfilled, _, some_⟩ := h.fields
  refine ⟨rfl, ?_, iff_of_false nofun some_.ne'⟩
  have left : ((o.sent now).acked ack at_).remaining.get =
      ((o.sent now).acked ack at_).request.quantity.get := remaining_of_unfilled unfilled
  have same : ((o.sent now).acked ack at_).request = o.request := rfl
  rw [left, same, request]

theorem refusesFill_iff (h : o.NewlyValidated req) (ack : Acknowledgement) (now at_ : DateTime) :
    (o.sent now).RefusesFill ack at_ ↔ ¬AllFit req.quantity.get ack.immediateFills := by
  have sent : (o.sent now).state = .submitted := rfl
  have before_ : ∀ before : List Fill,
      ((o.sent now).acknowledge { ack with immediateFills := before } at_).1.Receiving
        (leftAfter req.quantity.get before) := by
    intro before
    rw [acknowledge_eq sent]
    exact (h.receiving { ack with immediateFills := before } now at_).fold at_ before
  constructor
  · rintro ⟨before, f, after, eq, refused⟩ all
    have beyond := (before_ before).refuses_iff.mp refused
    exact absurd (all before f after eq) (not_le.mpr beyond)
  · intro some_
    unfold AllFit at some_
    push Not at some_
    obtain ⟨before, f, after, eq, beyond⟩ := some_
    exact ⟨before, f, after, eq, (before_ before).refuses_iff.mpr beyond⟩

theorem answered_unknown_iff (h : o.NewlyValidated req) (ack : Acknowledgement)
    (now at_ : DateTime) : ((o.sent now).answered (.ok ack) at_).state = .unknown ↔
      LastExceeds req.quantity.get ack.immediateFills := by
  have sent : (o.sent now).state = .submitted := rfl
  have start : ((o.sent now).acked ack at_, ([] : List Fill)).1.Receiving req.quantity.get :=
    h.receiving ack now at_
  have loop := start.fold_unknown_iff nofun at_ ack.immediateFills
  have eq : ((o.sent now).answered (.ok ack) at_) =
      (ack.immediateFills.foldl (receiveFill at_) ((o.sent now).acked ack at_, [])).1 := by
    rw [← acknowledge_eq sent]
    rfl
  rw [eq, loop]
  have positive : ∀ init : List Fill, leftAfter req.quantity.get init ≠ 0 ↔
      0 < leftAfter req.quantity.get init := by
    intro init
    have low := leftAfter_nonneg req.quantity.nonneg init
    exact ⟨fun some_ => lt_of_le_of_ne low some_.symm, ne_of_gt⟩
  simp only [positive]
  rfl

end Order.NewlyValidated

theorem OrderManager.mem_unknownOrders {om : OrderManager} {id : OrderId} {o : Order}
    (stored : om.get id = some o) (unknown : o.state = .unknown) : o ∈ om.unknownOrders :=
  List.mem_filter.mpr ⟨AList.mem_values.mpr ⟨id, stored⟩, decide_eq_true unknown⟩

/-- A venue that acknowledges every order in the same way and takes every cancellation. -/
def answering (ack : Acknowledgement) : ExecutionAdapter Unit where
  submit _ _ := (.ok ack, ())
  cancel _ _ _ := (.ok (), ())

def Acknowledgement.filling (quantities : List Qty) : Acknowledgement :=
  { Acknowledgement.sample with
    immediateFills := quantities.map fun q => { Fill.sample with quantity := q } }

end CopyTrading
