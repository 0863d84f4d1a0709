import CopyTrading.OrderCalls
import CopyTrading.StepRun

namespace CopyTrading

open StepRun

namespace OrderCall

/-- A call on a terminal order is refused and changes nothing, and what a call writes is a
transition the state machine allows. -/
def Absorbed (o : Order) (c : OrderCall) : Prop :=
  (o.state.isTerminal → ∃ e, c.exec.on o = (.error e, o)) ∧
    ∀ o', c.exec.on o = (.ok (), o') → o.state.canTransitionTo o'.state

/-- A fill on a filled order that is no larger than what remains of it. -/
def FillsFilled (o : Order) : OrderCall → Prop
  | transition .. => False
  | applyFill qty _ _ _ => o.state = .filled ∧ qty.get ≤ o.remaining.get

theorem exec_ok {c : OrderCall} {o o' : Order} (h : c.exec.on o = (.ok (), o')) :
    c.result o = .ok o' := by
  rw [exec_on] at h
  cases result : c.result o with
  | error _ =>
    rw [result] at h
    cases h
  | ok _ =>
    rw [result] at h
    cases h
    rfl

theorem exec_refused {c : OrderCall} {o : Order} {e : OrderError} (h : c.result o = .error e) :
    c.exec.on o = (.error e, o) := by
  rw [exec_on, h]
  rfl

/-- Of the states that take a fill only the filled one is left for nowhere. -/
theorem canTransitionTo_filled {s : OrderState} (may : s.mayHaveExecuted) (h : s ≠ .filled)
    (none_ : Bool) : s.canTransitionTo (if none_ then .filled else .partiallyFilled) := by
  cases s <;> cases none_ <;> first | rfl | exact absurd rfl h | cases may

theorem mayHaveExecuted_terminal {s : OrderState} (terminal : s.isTerminal)
    (may : s.mayHaveExecuted) : s = .filled := by
  cases s with
  | filled => rfl
  | cancelled | rejected | failed => cases may
  | _ => cases terminal

theorem applyFill_of_filled {o : Order} (filled : o.state = .filled) {qty : Qty}
    (fits : qty.get ≤ o.remaining.get) (price : Price) (fee : Usd) (at_ : DateTime) :
    (OrderM.applyFill qty price fee at_).on o = (.ok (), o.booked qty price fee at_) := by
  have accepted : o.applyFill qty price fee at_ = .ok (o.booked qty price fee at_) :=
    Order.applyFill_ok_iff.mpr ⟨by rw [filled]; rfl, fits, rfl⟩
  rw [OrderM.applyFill_on, accepted]
  rfl

/-- Both guards agree on every call but a fitting fill on a filled order. -/
theorem absorbed_iff (o : Order) (c : OrderCall) : Absorbed o c ↔ ¬FillsFilled o c := by
  cases c with
  | transition next at_ =>
    refine iff_of_true ⟨?_, ?_⟩ not_false
    · intro terminal
      have stuck := OrderState.canTransitionTo_terminal terminal next
      refine ⟨.illegalTransition o.state next, exec_refused ?_⟩
      show o.transition next at_ = _
      unfold Order.transition
      rw [stuck]
      rfl
    · intro o' accepted
      obtain ⟨can, rfl⟩ := Order.transition_ok_iff.mp (exec_ok accepted)
      exact can
  | applyFill qty price fee at_ =>
    constructor
    · rintro ⟨absorbs, _⟩ ⟨filled, fits⟩
      obtain ⟨e, refused⟩ := absorbs (by rw [filled]; rfl)
      rw [exec, applyFill_of_filled filled fits] at refused
      cases refused
    · intro other
      constructor
      · intro terminal
        cases result : o.applyFill qty price fee at_ with
        | error e => exact ⟨e, exec_refused result⟩
        | ok o' =>
          obtain ⟨may, fits, _⟩ := Order.applyFill_ok_iff.mp result
          exact absurd ⟨mayHaveExecuted_terminal terminal may, fits⟩ other
      · intro o' accepted
        obtain ⟨may, fits, rfl⟩ := Order.applyFill_ok_iff.mp (exec_ok accepted)
        exact canTransitionTo_filled may (fun filled => other ⟨filled, fits⟩) _

def step (s : Order × List BookedFill) (c : OrderCall) : Option (Order × List BookedFill) :=
  some (call s c)

/-- Steps that book nothing on a filled order. -/
def LeavesFilled (s : Order × List BookedFill) (c : OrderCall) : Prop := ¬FillsFilled s.1 c

/-- A terminal order stays as it is, along with all it has accepted. -/
theorem terminal_stays {s t : Order × List BookedFill} {cs : List OrderCall}
    (h : Run step LeavesFilled s cs t) (terminal : s.1.state.isTerminal) : t = s := by
  refine h.keeps (I := fun t => t = s) ?_ rfl
  rintro _ c u rfl admitted taken
  obtain ⟨e, refused⟩ := ((absorbed_iff _ c).mpr admitted).1 terminal
  cases taken
  unfold call
  rw [refused]

end OrderCall

/-- Terminal states absorb every call exactly if no fill that fits is applied to a filled order. -/
theorem Order.terminal_absorbs_iff (o₀ : Order) (cs : List OrderCall) :
    (∀ c, OrderCall.Absorbed (o₀.after cs).1 c ↔ ¬OrderCall.FillsFilled (o₀.after cs).1 c) ∧
      ∀ ds t, Run OrderCall.step OrderCall.LeavesFilled (o₀.after cs) ds t →
        (o₀.after cs).1.state.isTerminal → t = o₀.after cs := by
  refine ⟨OrderCall.absorbed_iff _, ?_⟩
  intro ds t run terminal
  exact OrderCall.terminal_stays run terminal

/-- A working order that the order manager's calls have taken to the venue. -/
def OrderCall.working : List OrderCall :=
  [.transition .validated 1, .transition .submitted 2, .transition .acknowledged 3]

/-- A cancelled order refuses a fill of 10. -/
theorem Order.terminal_absorbs_cancelled :
    ∃ o₀, Order.new (.sample .gtc) (.begin 0) = .ok o₀ ∧
      Run OrderCall.step OrderCall.LeavesFilled
        (o₀.after (OrderCall.working ++ [.transition .cancelled 4]))
        [.applyFill (.whole 10) .half 0 5]
        (o₀.after (OrderCall.working ++ [.transition .cancelled 4])) := by
  obtain ⟨o₀, made⟩ : ∃ o₀, Order.new (.sample .gtc) (.begin 0) = .ok o₀ := ⟨_, rfl⟩
  refine ⟨o₀, made, ?_⟩
  have cancelled : (o₀.after (OrderCall.working ++ [.transition .cancelled 4])).1.state =
      .cancelled := by
    cases made
    rfl
  have admitted : OrderCall.LeavesFilled
      (o₀.after (OrderCall.working ++ [.transition .cancelled 4]))
      (.applyFill (.whole 10) .half 0 5) := by
    rintro ⟨filled, _⟩
    rw [cancelled] at filled
    cases filled
  have run : Run OrderCall.step OrderCall.LeavesFilled _ _ _ := .single admitted rfl
  have stays := (terminal_absorbs_iff o₀ (OrderCall.working ++ [.transition .cancelled 4])).2
    _ _ run (by rw [cancelled]; rfl)
  rw [stays] at run
  exact run

/-- An order that is moved to filled while all of it remains takes a fill of 10 and is open
again, and an order that is filled takes a fill of nothing with a fee of 1. -/
theorem Order.filled_not_absorbing :
    ∃ o₀, Order.new (.sample .gtc) (.begin 0) = .ok o₀ ∧
      (∃ o o', (o₀.after (OrderCall.working ++ [.transition .filled 4])).1 = o ∧
        o.state = .filled ∧
        (OrderM.applyFill (.whole 10) .half 0 5).on o = (.ok (), o') ∧
        o'.state = .partiallyFilled ∧ o.state.canTransitionTo o'.state = false) ∧
      ∃ o o', (o₀.after (OrderCall.working ++
          [.applyFill (.whole 30) .half 0 4])).1 = o ∧
        o.state = .filled ∧
        (OrderM.applyFill .zero .half 1 5).on o = (.ok (), o') ∧ o.feesPaid = 0 ∧
        o'.feesPaid = 1 := by
  obtain ⟨o₀, made⟩ : ∃ o₀, Order.new (.sample .gtc) (.begin 0) = .ok o₀ := ⟨_, rfl⟩
  refine ⟨o₀, made, ⟨_, _, rfl, ?_, OrderCall.applyFill_of_filled ?_ ?_ _ _ _, ?_, ?_⟩,
    _, _, rfl, ?_, OrderCall.applyFill_of_filled ?_ ?_ _ _ _, ?_, ?_⟩
  all_goals
    cases made
    decide +kernel

end CopyTrading
