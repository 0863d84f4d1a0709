import CopyTrading.Config
import CopyTrading.ConfirmedCancels
import CopyTrading.PaperSession
import CopyTrading.PolymarketOrder

namespace CopyTrading

open StepRun

/-- `EoaSigner::new` of a private key, the maker's account and how the venue validates. -/
abbrev NewSigner := String → Option String → SignatureType → Except String OrderSigner

namespace AppConfig

/-- True when orders may actually reach the venue. -/
def liveExecutionArmed (c : AppConfig) : Bool := c.mode.isLive && c.live.tradingEnabled

/-- The signer of the configured key, on behalf of the proxy wallet if there is one. -/
def signer (c : AppConfig) (newSigner : NewSigner) : Except String OrderSigner :=
  match c.live.funderAddress with
  | some a => newSigner c.live.privateKey (some a.asStr) .polyProxy
  | none => newSigner c.live.privateKey none .eoa

/-- The adapter of live mode, as the process starts with it. -/
def liveExecution (c : AppConfig) (newSigner : NewSigner) : LiveExecution where
  creds := some ⟨c.live.apiKey, c.live.apiSecret, c.live.apiPassphrase⟩
  signer := if c.live.privateKey.isEmpty then none else (c.signer newSigner).toOption
  armed := c.liveExecutionArmed
  funderAddress := c.live.funderAddress.map Address.asStr

/-- A live process whose adapter is not ready starts halted. -/
def startKillSwitch (c : AppConfig) (newSigner : NewSigner) (now : DateTime) : KillSwitch :=
  let gaps := (c.liveExecution newSigner).readinessGaps
  if c.mode.isLive ∧ gaps ≠ [] then
    KillSwitch.new.engage ("live adapter not ready: " ++ ", ".intercalate gaps) "startup" now
  else .new

/-- The configured key is one that can sign. -/
def KeyUsable (c : AppConfig) (newSigner : NewSigner) : Prop :=
  c.live.privateKey.isEmpty = false ∧ ∃ s, c.signer newSigner = .ok s

theorem signer_isSome_iff (c : AppConfig) (newSigner : NewSigner) :
    (c.liveExecution newSigner).signer.isSome = true ↔ c.KeyUsable newSigner := by
  unfold liveExecution KeyUsable
  cases key : c.live.privateKey.isEmpty with
  | true => simp
  | false =>
    simp only [Bool.false_eq_true, if_false, true_and]
    cases c.signer newSigner with
    | error e => simp [Except.toOption]
    | ok s => simp [Except.toOption]

end AppConfig

theorem LiveExecution.readinessGaps_eq_nil {live : LiveExecution} :
    live.readinessGaps = [] ↔ live.armed = true ∧ live.creds.isSome = true ∧
      live.signer.isSome = true ∧ live.funderAddress.isSome = true := by
  unfold readinessGaps
  cases live.armed <;> cases live.creds <;> cases live.signer <;> cases live.funderAddress <;> simp

theorem AppConfig.ready_iff (c : AppConfig) (newSigner : NewSigner) :
    (c.liveExecution newSigner).readinessGaps = [] ↔ c.mode = .live ∧
      c.live.tradingEnabled = true ∧ c.KeyUsable newSigner ∧ c.live.funderAddress.isSome = true := by
  rw [LiveExecution.readinessGaps_eq_nil, c.signer_isSome_iff]
  have mode : c.mode.isLive = true ↔ c.mode = .live := by cases c.mode <;> decide
  simp [liveExecution, liveExecutionArmed, mode, and_assoc]

/-- An adapter beside another one that is not used. -/
def ExecutionAdapter.onFst {A B : Type} (adapter : ExecutionAdapter A) :
    ExecutionAdapter (A × B) where
  submit s order :=
    let (response, a) := adapter.submit s.1 order
    (response, (a, s.2))
  cancel s id venueOrderId :=
    let (response, a) := adapter.cancel s.1 id venueOrderId
    (response, (a, s.2))

def ExecutionAdapter.onSnd {A B : Type} (adapter : ExecutionAdapter B) :
    ExecutionAdapter (A × B) where
  submit s order :=
    let (response, b) := adapter.submit s.2 order
    (response, (s.1, b))
  cancel s id venueOrderId :=
    let (response, b) := adapter.cancel s.2 id venueOrderId
    (response, (s.1, b))

section Selected

variable {N G : Type} (client : HttpClient N) (parse : String → Option JsonValue) (rng : Rng G)

/-- The adapter that the process starts with: the one of live mode, or the paper venue, which
answers at `now`. -/
def AppConfig.adapter (c : AppConfig) (newSigner : NewSigner) (now : DateTime) :
    ExecutionAdapter (Wire N × PaperExecution G) :=
  if c.mode.isLive then ((c.liveExecution newSigner).adapter client parse).onFst
  else (paperAdapter rng now).onSnd

/-- When the adapter answers a call. -/
def OrderEvent.answeredAt : OrderEvent → DateTime
  | .register _ _ now => now
  | .submit _ _ at_ => at_
  | .externalFill f => f.filledAt
  | .cancel _ _ at_ => at_

/-- A call on the order manager of the process. -/
def AppConfig.orderStep (c : AppConfig) (newSigner : NewSigner)
    (s : OrderManager × (Wire N × PaperExecution G)) (e : OrderEvent) :
    Option (OrderManager × (Wire N × PaperExecution G)) :=
  e.step (c.adapter client parse rng newSigner e.answeredAt) s

end Selected

section NothingSent

variable {N B : Type} {client : HttpClient N} {parse : String → Option JsonValue}
  {live : LiveExecution} {s t : OrderManager × (Wire N × B)} {e : OrderEvent}

/-- An adapter that is not ready refuses an order without a word to the venue. -/
theorem LiveExecution.submit_of_gaps (gaps : live.readinessGaps ≠ []) (w : Wire N)
    (order : OrderRequest) : ∃ e, live.submit client parse w order = (.error e, w) := by
  unfold submit
  split
  next _ none_ _ => exact absurd none_ gaps
  next => exact ⟨_, rfl⟩

theorem LiveExecution.cancel_none (live : LiveExecution) (client : HttpClient N) (w : Wire N)
    (id : OrderId) : (live.cancel client w id none).2 = w := by
  unfold cancel
  cases live.creds with
  | none => rfl
  | some _ => rfl

/-- Nothing was sent, and no order has an id at the venue to be cancelled by. -/
structure NothingSent (w : Wire N) (s : OrderManager × (Wire N × B)) : Prop where
  keyed : s.1.Keyed
  sent : s.2.1 = w
  unknown : ∀ id o, s.1.get id = some o → o.venueOrderId = none

theorem Order.withFill_venueOrderId (o : Order) (f : Fill) :
    (o.withFill f).venueOrderId = o.venueOrderId := by
  unfold withFill
  obtain ⟨latency, eq⟩ := o.stampFill_eq f.filledAt
  rw [eq]
  rfl

theorem Order.answered_error_venueOrderId (o : Order) (e : ExecutionError) (now at_ : DateTime) :
    ((o.sent now).answered (.error e) at_).venueOrderId = o.venueOrderId := by
  simp only [answered, refused, tryTransition_eq]
  split <;> rfl

theorem NothingSent.effect {w : Wire N} (h : NothingSent w s) (gaps : live.readinessGaps ≠ [])
    (effect : OrderEffect (live.adapter client parse).onFst s e t) : NothingSent w t := by
  have keyed := effect.keyed h.keyed
  have written : ∀ {om : OrderManager} {id : OrderId} {o : Order},
      om.orders = s.1.orders.insert id o → o.venueOrderId = none →
      ∀ id' o', om.get id' = some o' → o'.venueOrderId = none := by
    intro om id o orders none_ id' o' stored
    rw [OrderManager.get_insert orders] at stored
    split at stored
    next =>
      cases stored
      exact none_
    next => exact h.unknown id' o' stored
  have cancelled : ∀ {id : OrderId} {o : Order}, s.1.get id = some o →
      ((live.adapter client parse).onFst.cancel s.2 id o.venueOrderId).2.1 = w := by
    intro id o stored
    rw [h.unknown id o stored]
    exact (live.cancel_none client s.2.1 id).trans h.sent
  cases effect with
  | kept => exact h
  | registered _ validated orders =>
    exact ⟨keyed, h.sent, written orders validated.fields.2.2.2.1⟩
  | @submitted _ _ now at_ o stored _ orders =>
    have refusal : ∃ e, live.submit client parse s.2.1 o.request = (.error e, s.2.1) :=
      LiveExecution.submit_of_gaps gaps s.2.1 o.request
    obtain ⟨e, answer⟩ := refusal
    have refused : (live.adapter client parse).onFst.submit s.2 o.request = (.error e, s.2) := by
      show (((live.submit client parse s.2.1 o.request).1,
        ((live.submit client parse s.2.1 o.request).2, s.2.2)) : _ × _) = _
      rw [answer]
    rw [refused] at orders ⊢
    refine ⟨keyed, h.sent, written orders ?_⟩
    rw [Order.answered_error_venueOrderId]
    exact h.unknown _ o stored
  | filled stored _ _ orders =>
    refine ⟨keyed, h.sent, written orders ?_⟩
    rw [Order.withFill_venueOrderId]
    exact h.unknown _ _ stored
  | cancelled stored _ _ orders =>
    have none_ := h.unknown _ _ stored
    exact ⟨keyed, cancelled stored, written orders none_⟩
  | requested stored _ _ orders =>
    have none_ := h.unknown _ _ stored
    exact ⟨keyed, cancelled stored, written orders none_⟩

end NothingSent

section Selected

variable {N G : Type} {client : HttpClient N} {parse : String → Option JsonValue} {rng : Rng G}
  {newSigner : NewSigner} {c : AppConfig} {w : Wire N}
  {s : OrderManager × (Wire N × PaperExecution G)}

/-- The paper venue sends nothing. -/
theorem OrderEffect.onSnd_fst {A B : Type} {adapter : ExecutionAdapter B}
    {s t : OrderManager × (A × B)} {e : OrderEvent} (effect : OrderEffect adapter.onSnd s e t) :
    t.2.1 = s.2.1 := by
  cases effect <;> rfl

/-- Only an adapter that is ready sends anything, and only live mode has it. -/
theorem AppConfig.ready_of_sent {p : PaperExecution G} {es : List OrderEvent}
    (run : Run (c.orderStep client parse rng newSigner) Anywhere (.new, (w, p)) es s)
    (sent : s.2.1.sent ≠ w.sent) : (c.liveExecution newSigner).readinessGaps = [] := by
  by_contra gaps
  cases mode : c.mode.isLive with
  | true =>
    have start : NothingSent w (OrderManager.new, (w, p)) :=
      ⟨OrderManager.keyed_new, rfl, fun _ _ stored => nomatch stored⟩
    have unsent : NothingSent w s := by
      refine run.keeps (fun s e t h _ taken => ?_) start
      simp only [orderStep, adapter, mode, if_true] at taken
      exact h.effect gaps (OrderEvent.effect h.keyed taken)
    exact sent (congrArg Wire.sent unsent.sent)
  | false =>
    have unsent : s.1.Keyed ∧ s.2.1 = w := by
      refine run.keeps (I := fun s => s.1.Keyed ∧ s.2.1 = w) (fun s e t h _ taken => ?_)
        ⟨OrderManager.keyed_new, rfl⟩
      simp only [orderStep, adapter, mode, Bool.false_eq_true, if_false] at taken
      have effect := OrderEvent.effect h.1 taken
      exact ⟨effect.keyed h.1, effect.onSnd_fst.trans h.2⟩
    exact sent (congrArg Wire.sent unsent.2)

end Selected

/-- Whatever the configuration: in every run of the order manager over the adapter that the process
starts with, something is sent to the venue only in live mode, with trading enabled, a key that can
sign and a funder; and a live process with anything of these missing starts halted. -/
theorem AppConfig.sends_only_ready {N G : Type} (c : AppConfig) (newSigner : NewSigner)
    (client : HttpClient N) (parse : String → Option JsonValue) (rng : Rng G) (w : Wire N)
    (paper : PaperExecution G) (now : DateTime) {es : List OrderEvent}
    {s : OrderManager × (Wire N × PaperExecution G)}
    (run : Run (c.orderStep client parse rng newSigner) Anywhere (.new, (w, paper)) es s) :
    (s.2.1.sent ≠ w.sent → c.mode = .live ∧ c.live.tradingEnabled = true ∧
      c.KeyUsable newSigner ∧ c.live.funderAddress.isSome = true) ∧
    (c.mode = .live → ((c.startKillSwitch newSigner now).engaged = false ↔
      c.live.tradingEnabled = true ∧ c.KeyUsable newSigner ∧
        c.live.funderAddress.isSome = true)) := by
  constructor
  · intro sent
    rw [← c.ready_iff newSigner]
    exact AppConfig.ready_of_sent run sent
  · intro live
    have ready := c.ready_iff newSigner
    simp only [live, true_and] at ready
    rw [← ready]
    unfold startKillSwitch
    simp only [live, AppMode.isLive, true_and]
    by_cases gaps : (c.liveExecution newSigner).readinessGaps = []
    · simp [gaps, KillSwitch.new]
    · simp [gaps, KillSwitch.new, KillSwitch.engage]

/-- Every switch for live trading is on. -/
def AppConfig.switchedOn : AppConfig where
  mode := .live
  risk := .default
  live := ⟨true, "key", some .zero, "k", "s", "p", 50⟩
  apiToken := "t"
  wallets := []
  demoData := false
  replayFile := none

example : AppConfig.switchedOn.validate = .ok () := by decide +kernel

def acceptsKey : NewSigner := fun _ _ _ => .ok ⟨fun _ _ => .ok ⟨.null, "0x1"⟩, "0x1"⟩

def rejectsKey : NewSigner := fun _ _ _ => .error "expected 32 bytes, got 1"

/-- The process with every switch on, over a venue that accepts everything. -/
def AppConfig.switchedOnStep (newSigner : NewSigner) :=
  AppConfig.switchedOn.orderStep (.constant (.ok ⟨200, "200 OK", some "accepted"⟩)) parseSample
    Rng.steady newSigner

/-- Before the first request. -/
def AppConfig.unsent : OrderManager × (Wire Unit × PaperExecution Unit) :=
  (.new, (⟨(), []⟩, .new .new .plain 0 0 ()))

/-- With a key that can sign an order reaches the venue. -/
theorem AppConfig.switchedOn_sends :
    ∃ s, Run (switchedOnStep acceptsKey) Anywhere unsent cancelAfterAck s ∧ s.2.1.sent ≠ [] := by
  have start : Run (switchedOnStep acceptsKey) Anywhere unsent [] _ := .nil
  have registered := start.snoc (a := .register (.sample .gtc) (.begin 0) 1) trivial rfl
  have submitted := registered.snoc (a := .submit ⟨0⟩ 2 3) trivial rfl
  have cancelled := submitted.snoc (a := .cancel ⟨0⟩ 4 5) trivial rfl
  exact ⟨_, cancelled, List.cons_ne_nil _ _⟩

/-- With a key that cannot sign the same calls send nothing. -/
theorem AppConfig.sends_only_ready_switchedOn :
    (∃ s, Run (switchedOnStep acceptsKey) Anywhere unsent cancelAfterAck s ∧ s.2.1.sent ≠ [] ∧
        AppConfig.switchedOn.KeyUsable acceptsKey) ∧
    (∃ s, Run (switchedOnStep rejectsKey) Anywhere unsent cancelAfterAck s ∧
        s.2.1.sent = []) := by
  constructor
  · obtain ⟨s, run, sent⟩ := AppConfig.switchedOn_sends
    have ready := (sends_only_ready _ acceptsKey _ _ _ _ _ 0 run).1 sent
    exact ⟨s, run, sent, ready.2.2.1⟩
  · have start : Run (switchedOnStep rejectsKey) Anywhere unsent [] _ := .nil
    have registered := start.snoc (a := .register (.sample .gtc) (.begin 0) 1) trivial rfl
    have submitted := registered.snoc (a := .submit ⟨0⟩ 2 3) trivial rfl
    have cancelled := submitted.snoc (a := .cancel ⟨0⟩ 4 5) trivial rfl
    refine ⟨_, cancelled, ?_⟩
    by_contra sent
    obtain ⟨_, _, ⟨_, _, usable⟩, _⟩ := (sends_only_ready _ rejectsKey _ _ _ _ _ 0 cancelled).1 sent
    cases usable

end CopyTrading
