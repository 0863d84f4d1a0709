import CopyTrading.Latch
import CopyTrading.Risk

namespace CopyTrading

/-- Why, by whom and when trading was halted. -/
structure HaltCause where
  reason : String
  by_ : String
  at_ : DateTime
  deriving DecidableEq

/-- What any component may do to the kill switch. -/
inductive KillEvent
  | engage (cause : HaltCause)
  | reset (by_ : String)
  | setCancelOpenOrders (v : Bool)

def KillEvent.cause : KillEvent → Option HaltCause
  | .engage c => some c
  | _ => none

def KillEvent.resets : KillEvent → Bool
  | .reset _ => true
  | _ => false

def KillEvent.sweep : KillEvent → Option Bool
  | .setCancelOpenOrders v => some v
  | _ => none

namespace RiskEngine

variable (engine : RiskEngine) {order : OrderRequest} {snap : RiskSnapshot} {status : SystemStatus}
  {kill : KillSwitch} {book : Option OrderBook} {walletEnabled : Bool} {walletLabel : String}
  {marketTradable : Option (MarketId × Bool × String)} {alreadyProcessed : Option SourceEventId}
  {now : DateTime}

theorem check_engaged (engaged : kill.engaged = true) :
    engine.check order snap status kill book walletEnabled walletLabel marketTradable
      alreadyProcessed now = .rejected (.killSwitchActive (kill.reason.getD "engaged")) := by
  unfold check checkGates
  rw [if_pos engaged]
  rfl

/-- While it is not engaged, no stage of the checks names the kill switch. -/
theorem check_not_engaged (off : kill.engaged = false) {reason : String} :
    engine.check order snap status kill book walletEnabled walletLabel marketTradable
      alreadyProcessed now ≠ .rejected (.killSwitchActive reason) := by
  have gates : engine.checkGates status kill walletEnabled walletLabel marketTradable
      alreadyProcessed ≠ some (.killSwitchActive reason) := by
    unfold checkGates
    rw [off]
    grind
  have budget : engine.checkBudget snap ≠ some (.killSwitchActive reason) := by
    unfold checkBudget
    grind
  have size : engine.checkTradeSize order ≠ some (.killSwitchActive reason) := by
    unfold checkTradeSize checkNotional
    grind
  have exposure : engine.checkExposure order snap ≠ some (.killSwitchActive reason) := by
    unfold checkExposure
    grind
  have depth : engine.checkBook order book now ≠ some (.killSwitchActive reason) := by
    unfold checkBook
    grind
  intro refused
  unfold check at refused
  simp only [Option.orElse_eq_orElse, Option.orElse_eq_or] at refused
  split at refused
  next r found =>
    cases refused
    rcases Option.or_eq_some_iff.mp found with here | ⟨_, found⟩
    · exact gates here
    rcases Option.or_eq_some_iff.mp found with here | ⟨_, found⟩
    · exact budget here
    rcases Option.or_eq_some_iff.mp found with here | ⟨_, found⟩
    · exact size here
    rcases Option.or_eq_some_iff.mp found with here | ⟨_, found⟩
    · exact exposure here
    · exact depth found
  next => cases refused

end RiskEngine

namespace KillSwitch

/-- Resumes trading. Always explicit and attributed. -/
def reset (k : KillSwitch) (by_ : String) : KillSwitch :=
  { k with engaged := false, reason := none, engagedBy := some by_, engagedAt := none }

def step (k : KillSwitch) : KillEvent → KillSwitch
  | .engage c => k.engage c.reason c.by_ c.at_
  | .reset by_ => k.reset by_
  | .setCancelOpenOrders v => k.setCancelOpenOrders v

def history (es : List KillEvent) : KillSwitch := es.foldl step .new

/-- The switch shows this cause, or is not engaged if there is none. -/
structure Shows (k : KillSwitch) (cause : Option HaltCause) : Prop where
  engaged : k.engaged = cause.isSome
  reason : k.reason = cause.map HaltCause.reason
  engagedAt : k.engagedAt = cause.map HaltCause.at_
  engagedBy : ∀ c, cause = some c → k.engagedBy = some c.by_

theorem Shows.step {k : KillSwitch} {s : Option HaltCause × Nat} (h : k.Shows s.1)
    (count : k.activations = s.2) (e : KillEvent) :
    (k.step e).Shows (Latch.step KillEvent.cause KillEvent.resets s e).1 ∧
      (k.step e).activations = (Latch.step KillEvent.cause KillEvent.resets s e).2 := by
  obtain ⟨cause, n⟩ := s
  cases e with
  | reset by_ =>
    rw [Latch.step_clear rfl]
    exact ⟨⟨rfl, rfl, rfl, fun c none_ => by cases none_⟩, count⟩
  | setCancelOpenOrders v =>
    cases cause with
    | some c =>
      rw [Latch.step_held rfl]
      exact ⟨⟨h.engaged, h.reason, h.engagedAt, h.engagedBy⟩, count⟩
    | none =>
      rw [Latch.step_open rfl]
      exact ⟨⟨h.engaged, h.reason, h.engagedAt, h.engagedBy⟩, count⟩
  | engage c =>
    have engaged := h.engaged
    cases cause with
    | some first =>
      have same : k.step (.engage c) = k := if_pos engaged
      rw [Latch.step_held rfl, same]
      exact ⟨h, count⟩
    | none =>
      have fresh : k.step (.engage c) = { k with
          engaged := true, reason := some c.reason, engagedBy := some c.by_,
          engagedAt := some c.at_, activations := k.activations + 1 } :=
        if_neg (Bool.eq_false_iff.mp engaged)
      rw [Latch.step_open rfl, fresh]
      refine ⟨⟨rfl, rfl, rfl, ?_⟩, ?_⟩
      · intro c' same
        cases same
        rfl
      · exact congrArg (· + 1) count

theorem history_state (es : List KillEvent) :
    (history es).Shows (Latch.held KillEvent.cause KillEvent.resets es) ∧
      (history es).activations = Latch.closings KillEvent.cause KillEvent.resets es := by
  have run : (history es).Shows (Latch.run KillEvent.cause KillEvent.resets es).1 ∧
      (history es).activations = (Latch.run KillEvent.cause KillEvent.resets es).2 := by
    induction es using List.reverseRecOn with
    | nil => exact ⟨⟨rfl, rfl, rfl, fun c none_ => by cases none_⟩, rfl⟩
    | append_singleton es e ih =>
      unfold history Latch.run
      rw [List.foldl_append, List.foldl_append]
      exact ih.1.step ih.2 e
  rw [Latch.run_held, Latch.run_closings] at run
  exact run

/-- In every history the switch shows the first cause since the last reset: engaging it again
changes nothing, and it has been activated once for each stretch between resets with a cause. -/
theorem history_shows_first_cause (es : List KillEvent) :
    (history es).Shows (Latch.held KillEvent.cause KillEvent.resets es) ∧
    (history es).activations = Latch.closings KillEvent.cause KillEvent.resets es ∧
    (history es).cancelOpenOrders = (es.reverse.findSome? KillEvent.sweep).getD true := by
  obtain ⟨shows_, activations⟩ := history_state es
  refine ⟨shows_, activations, ?_⟩
  clear shows_ activations
  induction es using List.reverseRecOn with
  | nil => rfl
  | append_singleton es e ih =>
    unfold history at ih ⊢
    rw [List.foldl_append, List.reverse_append]
    cases e with
    | engage c =>
      show ((es.foldl KillSwitch.step .new).engage _ _ _).cancelOpenOrders = _
      unfold engage
      split
      · exact ih
      · exact ih
    | reset by_ => exact ih
    | setCancelOpenOrders v => rfl

/-- Whatever the order, the limits, the books and the health: while the switch is engaged the risk
engine refuses with the first reason given since the last reset, and with none once it is reset. -/
theorem refuses_iff_halted (es : List KillEvent) (engine : RiskEngine) (order : OrderRequest)
    (snap : RiskSnapshot) (status : SystemStatus) (book : Option OrderBook) (walletEnabled : Bool)
    (walletLabel : String) (marketTradable : Option (MarketId × Bool × String))
    (alreadyProcessed : Option SourceEventId) (now : DateTime) (reason : String) :
    engine.check order snap status (history es) book walletEnabled walletLabel marketTradable
      alreadyProcessed now = .rejected (.killSwitchActive reason) ↔
    ∃ c, Latch.held KillEvent.cause KillEvent.resets es = some c ∧ c.reason = reason := by
  have shows_ := (history_state es).1
  cases held : Latch.held KillEvent.cause KillEvent.resets es with
  | some c =>
    rw [held] at shows_
    rw [engine.check_engaged shows_.engaged, shows_.reason]
    simp
  | none =>
    rw [held] at shows_
    refine iff_of_false ?_ (by simp)
    exact engine.check_not_engaged shows_.engaged

end KillSwitch

end CopyTrading
