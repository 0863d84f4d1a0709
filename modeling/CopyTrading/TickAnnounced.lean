import CopyTrading.MarketWs
import CopyTrading.StepRun

namespace CopyTrading

open StepRun

/-- An event of a message, with the tick size that its frame announces. -/
structure Told where
  event : MarketEvent
  tick : Option Decimal
  at_ : DateTime

section Announcements

-- `str::parse::<Decimal>`
variable (parse : String → Option Decimal)

def WireFrame.tick (f : WireFrame) : MarketEvent → Option Decimal
  | .snapshot _ => f.tickSize.bind parse
  | .tickSizeChanged _ tick => some tick
  | _ => none

/-- What one message tells. -/
def told (frames : List WireFrame) (seq : Nat) (receivedAt : DateTime) : List Told :=
  (frames.zipIdx.map fun (f, i) =>
    (f.events parse seq i receivedAt).map fun ev => ⟨ev, f.tick parse ev, receivedAt⟩).flatten

end Announcements

/-- A snapshot of the token that does not carry a tick size. -/
def Told.IsBare (x : Told) (t : TokenId) : Prop :=
  x.tick = none ∧ ∃ b, x.event = .snapshot b ∧ b.tokenId = t

/-- A builder, and the last tick size that was announced for each token. -/
structure TickStream where
  builder : BookBuilder
  announced : AList fun _ : TokenId => Decimal

namespace TickStream

def start : TickStream := ⟨.new, ∅⟩

def step (s : TickStream) (x : Told) : TickStream where
  builder := (s.builder.apply x.event x.at_).2
  announced :=
    match x.event.token, x.tick with
    | some t, some tick => s.announced.insert t tick
    | _, _ => s.announced

def run (es : List Told) : TickStream := es.foldl step start

/-- Each book that is held has the last tick size that was announced for its token. -/
def Current (s : TickStream) : Prop :=
  ∀ t b, s.builder.get t = some b → ∀ tick ∈ s.announced.lookup t, b.tickSize = tick

/-- A snapshot that does not carry a tick size is of a token whose last announced one, if any, is
the default. -/
def DefaultTick (s : TickStream) (x : Told) : Prop :=
  ∀ t, x.IsBare t → ∀ tick ∈ s.announced.lookup t, tick = 1 / 100

end TickStream

/-- The tick size of a book is never stale. -/
structure TickNeverStale (es : List Told) : Prop where
  current : ∀ before, before <+: es → (TickStream.run before).Current
  /-- A snapshot that does not carry a tick size does not change it. -/
  kept : ∀ before x t b, before ++ [x] <+: es → x.IsBare t →
    (TickStream.run before).builder.get t = some b →
    ∃ b', (TickStream.run (before ++ [x])).builder.get t = some b' ∧ b'.tickSize = b.tickSize

variable {parse : String → Option Decimal}

/-- The tick size of a snapshot is the one that is announced with it, or else the default. -/
def Told.Faithful (x : Told) : Prop :=
  match x.event with
  | .snapshot b => b.tickSize = x.tick.getD (1 / 100)
  | .tickSizeChanged _ tick => x.tick = some tick
  | _ => x.tick = none

theorem mem_told {frames : List WireFrame} {seq : Nat} {at_ : DateTime} {x : Told}
    (h : x ∈ told parse frames seq at_) :
    ∃ f i ev, ev ∈ WireFrame.events parse f seq i at_ ∧ x = ⟨ev, f.tick parse ev, at_⟩ := by
  obtain ⟨events, made, mem⟩ := List.mem_flatten.mp h
  obtain ⟨⟨f, i⟩, _, rfl⟩ := List.mem_map.mp made
  obtain ⟨ev, listed, rfl⟩ := List.mem_map.mp mem
  exact ⟨f, i, ev, listed, rfl⟩

theorem told_faithful {frames : List WireFrame} {seq : Nat} {at_ : DateTime} {x : Told}
    (h : x ∈ told parse frames seq at_) : x.Faithful := by
  obtain ⟨f, i, ev, listed, rfl⟩ := mem_told h
  cases ev with
  | snapshot b =>
    obtain ⟨_, _, carried, _⟩ := toBook_eq_some (snapshot_of_frame listed)
    exact carried
  | levelChange t side price size bestBid bestAsk => rfl
  | tickSizeChanged t tick => rfl
  | ignored => rfl

/-- What a message tells is what the builder is given of it. -/
theorem told_applied (frames : List WireFrame) (seq : Nat) (at_ : DateTime) (s : TickStream) :
    ((told parse frames seq at_).foldl TickStream.step s).builder =
      (parseMarketFrames parse frames seq at_).foldl (fun bb ev => (bb.apply ev at_).2)
        s.builder := by
  have events : (frames.zipIdx.map fun (f, i) => f.events parse seq i at_).flatten =
      (told parse frames seq at_).map Told.event := by
    unfold told
    rw [List.map_flatten, List.map_map]
    congr 2
    funext ⟨f, i⟩
    simp only [Function.comp_apply, List.map_map]
    exact (List.map_id _).symm
  have at_same : ∀ x ∈ told parse frames seq at_, x.at_ = at_ := by
    intro x mem
    obtain ⟨f, i, ev, _, rfl⟩ := mem_told mem
    rfl
  have fold : ∀ (es : List Told) (s : TickStream), (∀ x ∈ es, x.at_ = at_) →
      (es.foldl TickStream.step s).builder =
        (es.map Told.event).foldl (fun bb ev => (bb.apply ev at_).2) s.builder := by
    intro es
    induction es with
    | nil => exact fun _ _ => rfl
    | cons x es ih =>
      intro s same
      obtain ⟨here, rest⟩ := List.forall_mem_cons.mp same
      rw [List.foldl_cons, List.map_cons, List.foldl_cons, ih _ rest, ← here]
      rfl
  rw [fold _ s at_same]
  simp only [parseMarketFrames, events]
  split
  next empty =>
    rw [List.isEmpty_iff.mp empty]
    rfl
  next => rfl

namespace TickStream

variable {s : TickStream} {x : Told}

/-- A book of a token that no tick size was announced for has the default. -/
def Defaulted (s : TickStream) : Prop :=
  ∀ t b, s.builder.get t = some b → s.announced.lookup t = none → b.tickSize = 1 / 100

/-- Only an event of the token that carries a tick size announces one for it. -/
theorem step_announced (s : TickStream) (x : Told) (t : TokenId) :
    (s.step x).announced.lookup t =
      if x.event.token = some t then x.tick.or (s.announced.lookup t)
      else s.announced.lookup t := by
  unfold step
  cases token : x.event.token with
  | none => rfl
  | some t' =>
    cases tick : x.tick with
    | none => simp
    | some tick =>
      simp only [Option.some.injEq, Option.some_or]
      split
      next same =>
        subst same
        exact AList.lookup_insert s.announced
      next other => exact AList.lookup_insert_ne (Ne.symm other)

/-- What does not announce a tick size for the token leaves the last one. -/
theorem step_announced_of_none {t : TokenId} (silent : x.event.token = some t → x.tick = none) :
    (s.step x).announced.lookup t = s.announced.lookup t := by
  rw [step_announced]
  split
  next about => rw [silent about, Option.none_or]
  next => rfl

/-- The book that is left for a token has the tick size that is announced with the event, or the
default after a snapshot without one, or the tick size it had. -/
theorem step_tickSize (faithful : x.Faithful) {t : TokenId} {b : OrderBook}
    (held : (s.step x).builder.get t = some b) :
    (x.event.token = some t ∧ x.tick = some b.tickSize) ∨
      (x.IsBare t ∧ b.tickSize = 1 / 100) ∨
      ((x.event.token = some t → x.tick = none) ∧
        ∃ old, s.builder.get t = some old ∧ b.tickSize = old.tickSize) := by
  obtain ⟨event, tick, at_⟩ := x
  unfold step at held
  cases event with
  | ignored => exact .inr (.inr ⟨nofun, b, held, rfl⟩)
  | snapshot new =>
    simp only [BookBuilder.apply_snapshot_get] at held
    split at held
    next same =>
      cases held
      have carried : new.tickSize = tick.getD (1 / 100) := faithful
      cases tick with
      | none => exact .inr (.inl ⟨⟨rfl, new, rfl, same.symm⟩, carried⟩)
      | some tick => exact .inl ⟨congrArg some same.symm, congrArg some carried.symm⟩
    next other =>
      refine .inr (.inr ⟨fun about => ?_, b, held, rfl⟩)
      exact absurd (Option.some.inj about).symm other
  | tickSizeChanged tok ts =>
    have carried : tick = some ts := faithful
    simp only [BookBuilder.apply_tickSizeChanged_get] at held
    split at held
    next same =>
      obtain ⟨old, before, rfl⟩ := Option.map_eq_some_iff.mp held
      exact .inl ⟨congrArg some same.symm, carried⟩
    next other =>
      refine .inr (.inr ⟨fun about => ?_, b, held, rfl⟩)
      exact absurd (Option.some.inj about).symm other
  | levelChange tok side price size bestBid bestAsk =>
    refine .inr (.inr ⟨fun _ => faithful, ?_⟩)
    simp only [BookBuilder.apply_levelChange_get] at held
    split at held
    next =>
      obtain ⟨old, before, kept⟩ := Option.bind_eq_some_iff.mp held
      split at kept
      · cases kept
      · cases kept
        exact ⟨old, before, by cases side <;> rfl⟩
    next => exact ⟨b, held, rfl⟩

/-- A snapshot without a tick size leaves a book with the default. -/
theorem step_bare (faithful : x.Faithful) {t : TokenId} (bare : x.IsBare t) :
    ∃ b, (s.step x).builder.get t = some b ∧ b.tickSize = 1 / 100 := by
  obtain ⟨event, tick, at_⟩ := x
  obtain ⟨untold, b, is, token⟩ := bare
  cases is
  cases untold
  subst token
  refine ⟨_, (BookBuilder.apply_snapshot_get _ _ at_ _).trans (if_pos rfl), ?_⟩
  exact faithful

theorem Defaulted.step (defaulted : s.Defaulted) (faithful : x.Faithful) :
    (s.step x).Defaulted := by
  intro t b held silent
  rcases step_tickSize faithful held with ⟨about, tick⟩ | ⟨_, default⟩ |
    ⟨nothing, old, before, same⟩
  · rw [step_announced, if_pos about, tick] at silent
    cases silent
  · exact default
  · rw [step_announced_of_none nothing] at silent
    exact same.trans (defaulted t old before silent)

theorem current_step_iff (faithful : x.Faithful) (current : s.Current) :
    (s.step x).Current ↔ s.DefaultTick x := by
  constructor
  · intro after t bare tick announced
    obtain ⟨b, held, default⟩ := step_bare faithful bare
    rw [← step_announced_of_none (x := x) fun _ => bare.1] at announced
    exact (after t b held tick announced).symm.trans default
  · intro default t b held tick announced
    rcases step_tickSize faithful held with ⟨about, told⟩ | ⟨bare, tickSize⟩ |
      ⟨silent, old, before, same⟩
    · rw [step_announced, if_pos about, told] at announced
      exact Option.some.inj announced
    · rw [step_announced_of_none fun _ => bare.1] at announced
      exact tickSize.trans (default t bare tick announced).symm
    · rw [step_announced_of_none silent] at announced
      exact same.trans (current t old before tick announced)

theorem DefaultTick.kept (faithful : x.Faithful) (defaulted : s.Defaulted) (current : s.Current)
    (default : s.DefaultTick x) {t : TokenId} {b : OrderBook} (bare : x.IsBare t)
    (held : s.builder.get t = some b) :
    ∃ b', (s.step x).builder.get t = some b' ∧ b'.tickSize = b.tickSize := by
  obtain ⟨b', held', tickSize⟩ := step_bare faithful bare
  refine ⟨b', held', tickSize.trans ?_⟩
  cases announced : s.announced.lookup t with
  | none => exact (defaulted t b held announced).symm
  | some tick =>
    have last := current t b held tick announced
    exact (last.trans (default t bare tick announced)).symm

theorem run_defaulted {es : List Told} (faithful : ∀ x ∈ es, x.Faithful) :
    (run es).Defaulted := by
  induction es using List.reverseRecOn with
  | nil => exact nofun
  | append_singleton es x ih =>
    unfold run
    rw [List.foldl_append]
    have before := ih fun y mem => faithful y (List.mem_append_left _ mem)
    exact before.step (faithful x (List.mem_append_right _ List.mem_cons_self))

end TickStream

open TickStream

/-- The tick size is never stale in exactly the streams in which each snapshot that does not carry
a tick size is of a token whose last announced one, if any, is the default. -/
theorem tickNeverStale_iff (messages : List (List WireFrame × Nat × DateTime)) :
    TickNeverStale (messages.flatMap fun (frames, seq, at_) => told parse frames seq at_) ↔
      ∀ before x,
        before ++ [x] <+: messages.flatMap (fun (frames, seq, at_) => told parse frames seq at_) →
        (run before).DefaultTick x := by
  generalize eq : messages.flatMap (fun (frames, seq, at_) => told parse frames seq at_) = es
  have faithful : ∀ x ∈ es, x.Faithful := by
    intro x mem
    rw [← eq] at mem
    obtain ⟨⟨frames, seq, at_⟩, _, told⟩ := List.mem_flatMap.mp mem
    exact told_faithful told
  have always : (∀ before, before <+: es → (run before).Current) ↔
      ∀ before x, before ++ [x] <+: es → (run before).DefaultTick x :=
    always_foldl_iff (W := fun _ => True) (fun _ _ _ _ => trivial)
      (fun s x mem _ current => current_step_iff (faithful x mem) current) trivial nofun
  constructor
  · intro never
    exact always.mp never.current
  · intro default
    have current := always.mpr default
    refine ⟨current, ?_⟩
    intro before x t b h bare held
    have shorter : before <+: es := (List.prefix_append _ _).trans h
    have mem : x ∈ es := h.subset (List.mem_append_right _ List.mem_cons_self)
    have defaulted : (run before).Defaulted :=
      run_defaulted fun y listed => faithful y (shorter.subset listed)
    have kept := (default before x h).kept (faithful x mem) defaulted (current before shorter)
      bare held
    unfold run at kept ⊢
    rw [List.foldl_append]
    exact kept

/-- A tick size is announced before the first snapshot of the token, which does not carry one. -/
def announcedFirst : List (List WireFrame × Nat × DateTime) :=
  [([⟨"tick_size_change", "", "0", none, [], [], none, [], some "0.001"⟩], 0, 0),
    ([⟨"book", MarketId.zero.asStr, "0", none, [], [], none, [], none⟩], 1, 1)]

def parseThousandth (text : String) : Option Decimal :=
  if text = "0.001" then some (1 / 1000) else none

theorem announced_tick_forgotten : ¬ ∀ (parse : String → Option Decimal)
    (messages : List (List WireFrame × Nat × DateTime)),
    TickNeverStale
      (messages.flatMap fun (frames, seq, at_) => told parse frames seq at_) := by
  intro claim
  have current := (claim parseThousandth announcedFirst).current _ (List.prefix_refl _)
  generalize final : run (announcedFirst.flatMap fun (frames, seq, at_) =>
    told parseThousandth frames seq at_) = s at current
  have announced : s.announced.lookup .zero = some (1 / 1000) := by
    rw [← final]
    decide +kernel
  have held : (s.builder.get .zero).map OrderBook.tickSize = some (1 / 100) := by
    rw [← final]
    decide +kernel
  obtain ⟨b, found, default⟩ := Option.map_eq_some_iff.mp held
  have same := current .zero b found _ announced
  rw [default] at same
  exact absurd same (by decide +kernel)

end CopyTrading
