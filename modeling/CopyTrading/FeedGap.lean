import CopyTrading.Feed

namespace CopyTrading

open StepRun

def Consumer.pending : Consumer → List Nat
  | .idle => []
  | .backfilling _ _ _ rows _ => rows.map Prod.fst

namespace FeedState

/-- The live report is on its way to the consumer. -/
def Travelling (s : FeedState) (i : Nat) : Prop := i ∈ s.wire ∨ ∃ t, .trade i t ∈ s.queue

/-- A report was put to the tracker, or a backfilled row of it will be. -/
def Offering (s : FeedState) (i : Nat) : Prop := i ∈ s.consumer.pending ∨ i ∈ s.offered

theorem mem_fillsOf {s : FeedState} {a : Address} {i : Nat} :
    i ∈ s.fillsOf a ↔ ∃ f, s.fills[i]? = some f ∧ f.row.trader = a := by
  unfold fillsOf
  rw [List.mem_filter, List.mem_range, Option.any_eq_true]
  constructor
  · rintro ⟨_, f, held, same⟩
    exact ⟨f, held, of_decide_eq_true same⟩
  · rintro ⟨f, held, same⟩
    exact ⟨(List.getElem?_eq_some_iff.mp held).1, f, held, decide_eq_true same⟩

theorem mem_backfillWalletTrades {s : FeedState} {answer : List Nat} {since : DateTime} {i : Nat} :
    i ∈ (s.backfillWalletTrades answer since).map Prod.fst ↔
      i ∈ answer ∧ ∃ f, s.fills[i]? = some f ∧ timestamp since ≤ f.timestamp := by
  unfold backfillWalletTrades
  rw [List.mem_map]
  constructor
  · rintro ⟨⟨j, t⟩, mem, rfl⟩
    obtain ⟨k, asked, row⟩ := List.mem_filterMap.mp mem
    obtain ⟨f, held, recent⟩ := Option.bind_eq_some_iff.mp row
    obtain ⟨late, same⟩ := Option.ite_none_right_eq_some.mp recent
    cases same
    exact ⟨asked, f, held, late⟩
  · rintro ⟨asked, f, held, late⟩
    refine ⟨(i, f.row), List.mem_filterMap.mpr ⟨i, asked, ?_⟩, rfl⟩
    rw [held, Option.bind_some, if_pos late]

end FeedState

/-- Where every fill stands, at every point of every interleaving. -/
structure FeedInv (s : FeedState) : Prop where
  known : ∀ i, i ∈ s.missed ∨ s.Travelling i ∨ s.Offering i → i < s.fills.length
  sent : ∀ i, i < s.fills.length → i ∉ s.missed → s.Travelling i ∨ i ∈ s.offered
  apart : ∀ i, s.Travelling i → i ∉ s.missed
  seen : ∀ c ∈ s.calls, c.seen ≤ s.fills.length
  asked : ∀ i, s.Covered i → s.Offering i
  sound : ∀ i ∈ s.missed, s.Offering i → s.Covered i

theorem FeedInv.start (wallets : List TargetWallet) : FeedInv (.start wallets) := by
  refine ⟨?_, ?_, ?_, ?_, ?_, ?_⟩
  · rintro i (mem | (mem | ⟨_, mem⟩) | (mem | mem)) <;> cases mem
  · intro i short
    cases short
  · rintro i (mem | ⟨_, mem⟩) <;> cases mem
  · intro c mem
    cases mem
  · rintro i ⟨f, held, _⟩
    cases held
  · intro i mem
    cases mem

/-- Reports move on towards the tracker, and none is dropped. -/
theorem FeedInv.onward {s s' : FeedState} (h : FeedInv s) (fills : s'.fills = s.fills)
    (missed : s'.missed = s.missed) (calls : s'.calls = s.calls)
    (travel : ∀ i, s'.Travelling i → s.Travelling i)
    (live : ∀ i, s.Travelling i ∨ i ∈ s.offered → s'.Travelling i ∨ i ∈ s'.offered)
    (kept : ∀ i, s.Offering i → s'.Offering i)
    (new : ∀ i, s'.Offering i → s.Offering i ∨ s.Travelling i) : FeedInv s' := by
  have covered : ∀ i, s'.Covered i ↔ s.Covered i := by
    intro i
    unfold FeedState.Covered
    rw [fills, calls]
  refine ⟨?_, ?_, ?_, ?_, ?_, ?_⟩
  · intro i place
    rw [fills]
    rw [missed] at place
    apply h.known
    rcases place with mem | moving | offering
    · exact .inl mem
    · exact .inr (.inl (travel i moving))
    · rcases new i offering with old | moving
      · exact .inr (.inr old)
      · exact .inr (.inl moving)
  · intro i short up
    rw [fills] at short
    rw [missed] at up
    exact live i (h.sent i short up)
  · intro i moving
    rw [missed]
    exact h.apart i (travel i moving)
  · rw [calls, fills]
    exact h.seen
  · intro i cover
    exact kept i (h.asked i ((covered i).mp cover))
  · intro i mem offering
    rw [missed] at mem
    apply (covered i).mpr
    rcases new i offering with old | moving
    · exact h.sound i mem old
    · exact absurd mem (h.apart i moving)

theorem FeedInv.send {s s' : FeedState} (h : FeedInv s) {m : FeedMessage}
    (other : ∀ i t, m ≠ .trade i t) (fills : s'.fills = s.fills) (missed : s'.missed = s.missed)
    (calls : s'.calls = s.calls) (wire : s'.wire = s.wire) (queue : s'.queue = s.queue ++ [m])
    (consumer : s'.consumer = s.consumer) (offered : s'.offered = s.offered) : FeedInv s' := by
  have queued : ∀ i t, FeedMessage.trade i t ∈ s'.queue ↔ FeedMessage.trade i t ∈ s.queue := by
    intro i t
    rw [queue, List.mem_append, List.mem_singleton]
    exact or_iff_left (other i t).symm
  have travel : ∀ i, s'.Travelling i ↔ s.Travelling i := by
    intro i
    unfold FeedState.Travelling
    rw [wire]
    exact or_congr_right (exists_congr (queued i))
  have offering : ∀ i, s'.Offering i ↔ s.Offering i := by
    intro i
    unfold FeedState.Offering
    rw [consumer, offered]
  refine h.onward fills missed calls (fun i => (travel i).mp) ?_ (fun i => (offering i).mpr)
    (fun i more => .inl ((offering i).mp more))
  intro i place
  rw [travel, offered]
  exact place

/-- The venue fills an order; the report goes on the wire if there is one. -/
def FeedState.filled (s : FeedState) (f : VenueFill) : FeedState :=
  { s with
    fills := s.fills ++ [f]
    wire := if s.link = .up then s.wire ++ [s.fills.length] else s.wire
    missed := if s.link = .up then s.missed else s.missed ++ [s.fills.length] }

theorem FeedState.filled_travelling (s : FeedState) (f : VenueFill) (i : Nat) :
    (s.filled f).Travelling i ↔ s.Travelling i ∨ s.link = .up ∧ i = s.fills.length := by
  show (i ∈ (if s.link = .up then s.wire ++ [s.fills.length] else s.wire) ∨ _) ↔ _
  unfold FeedState.Travelling
  split
  next up =>
    rw [List.mem_append, List.mem_singleton]
    constructor
    · rintro ((mem | eq) | queued)
      · exact .inl (.inl mem)
      · exact .inr ⟨up, eq⟩
      · exact .inl (.inr queued)
    · rintro ((mem | queued) | ⟨_, eq⟩)
      · exact .inl (.inl mem)
      · exact .inr queued
      · exact .inl (.inr eq)
  next down => exact (or_iff_left fun new => down new.1).symm

theorem FeedState.filled_missed (s : FeedState) (f : VenueFill) (i : Nat) :
    i ∈ (s.filled f).missed ↔ i ∈ s.missed ∨ s.link ≠ .up ∧ i = s.fills.length := by
  show i ∈ (if s.link = .up then s.missed else s.missed ++ [s.fills.length]) ↔ _
  split
  next up => exact (or_iff_left fun new => new.1 up).symm
  next down =>
    rw [List.mem_append, List.mem_singleton]
    exact or_congr_right (and_iff_right down).symm

/-- The requests so far have not seen a fill that is new. -/
theorem FeedInv.filled_covered {s : FeedState} (h : FeedInv s) (f : VenueFill) (i : Nat) :
    (s.filled f).Covered i ↔ s.Covered i := by
  have held : i < s.fills.length → (s.filled f).fills[i]? = s.fills[i]? :=
    fun short => List.getElem?_append_left short
  constructor
  · rintro ⟨g, at_, c, mem, wallet, before, recent⟩
    rw [held (lt_of_lt_of_le before (h.seen c mem))] at at_
    exact ⟨g, at_, c, mem, wallet, before, recent⟩
  · rintro ⟨g, at_, c, mem, wallet, before, recent⟩
    rw [← held (lt_of_lt_of_le before (h.seen c mem))] at at_
    exact ⟨g, at_, c, mem, wallet, before, recent⟩

theorem FeedInv.happen {s : FeedState} (h : FeedInv s) (f : VenueFill) :
    FeedInv (s.filled f) := by
  have longer : (s.filled f).fills.length = s.fills.length + 1 := List.length_append
  refine ⟨?_, ?_, ?_, ?_, ?_, ?_⟩
  · intro i place
    rw [longer]
    rw [s.filled_missed, s.filled_travelling] at place
    rcases place with (mem | ⟨_, eq⟩) | (moving | ⟨_, eq⟩) | offering
    · exact Nat.lt_succ_of_lt (h.known i (.inl mem))
    · omega
    · exact Nat.lt_succ_of_lt (h.known i (.inr (.inl moving)))
    · omega
    · exact Nat.lt_succ_of_lt (h.known i (.inr (.inr offering)))
  · intro i short up
    rw [s.filled_missed, not_or] at up
    rw [s.filled_travelling]
    by_cases new : i = s.fills.length
    · have connected : s.link = .up := by
        by_contra down
        exact up.2 ⟨down, new⟩
      exact .inl (.inr ⟨connected, new⟩)
    · have old : i < s.fills.length := by omega
      rcases h.sent i old up.1 with moving | offered
      · exact .inl (.inl moving)
      · exact .inr offered
  · intro i moving
    rw [s.filled_travelling] at moving
    rw [s.filled_missed]
    rintro (mem | ⟨down, new⟩)
    · rcases moving with old | ⟨_, eq⟩
      · exact h.apart i old mem
      · have := h.known i (.inl mem)
        omega
    · rcases moving with old | ⟨up, _⟩
      · have := h.known i (.inr (.inl old))
        omega
      · exact down up
  · intro c mem
    rw [longer]
    exact Nat.le_succ_of_le (h.seen c mem)
  · intro i cover
    exact h.asked i ((h.filled_covered f i).mp cover)
  · intro i mem offering
    rw [s.filled_missed] at mem
    apply (h.filled_covered f i).mpr
    rcases mem with old | ⟨_, new⟩
    · exact h.sound i old offering
    · have := h.known i (.inr (.inr offering))
      omega

/-- A request for one wallet's fills covers those that it returns. -/
theorem FeedInv.rest {s : FeedState} (h : FeedInv s) {since : DateTime} {w : TargetWallet}
    {wallets : List TargetWallet} {batch : BatchOrdinals} {count : Nat} {answer : List Nat}
    (busy : s.consumer = .backfilling since (w :: wallets) batch [] count)
    (all : answer.Perm (s.fillsOf w.address)) : FeedInv { s with
      calls := ⟨w.address, since, s.fills.length⟩ :: s.calls
      consumer := .backfilling since wallets .new (s.backfillWalletTrades answer since) count } := by
  let s' : FeedState := { s with
    calls := ⟨w.address, since, s.fills.length⟩ :: s.calls
    consumer := .backfilling since wallets .new (s.backfillWalletTrades answer since) count }
  have before : ∀ i, s.Offering i → i ∈ s.offered := by
    rintro i (row | offered)
    · rw [busy] at row
      cases row
    · exact offered
  have returned : ∀ i, i ∈ s'.consumer.pending ↔ ∃ f, s.fills[i]? = some f ∧
      f.row.trader = w.address ∧ timestamp since ≤ f.timestamp := by
    intro i
    refine FeedState.mem_backfillWalletTrades.trans ?_
    rw [all.mem_iff, FeedState.mem_fillsOf]
    constructor
    · rintro ⟨⟨f, held, wallet⟩, g, held', recent⟩
      rw [held] at held'
      cases held'
      exact ⟨f, held, wallet, recent⟩
    · rintro ⟨f, held, wallet, recent⟩
      exact ⟨⟨f, held, wallet⟩, f, held, recent⟩
  have kept : ∀ i, s.Covered i → s'.Covered i := by
    rintro i ⟨f, held, c, mem, rest⟩
    exact ⟨f, held, c, List.mem_cons_of_mem _ mem, rest⟩
  show FeedInv s'
  refine ⟨?_, h.sent, h.apart, ?_, ?_, ?_⟩
  · rintro i (mem | moving | row | offered)
    · exact h.known i (.inl mem)
    · exact h.known i (.inr (.inl moving))
    · obtain ⟨f, held, _⟩ := (returned i).mp row
      exact (List.getElem?_eq_some_iff.mp held).1
    · exact h.known i (.inr (.inr (.inr offered)))
  · intro c mem
    rcases List.mem_cons.mp mem with rfl | old
    · exact le_rfl
    · exact h.seen c old
  · rintro i ⟨f, held, c, mem, wallet, short, recent⟩
    rcases List.mem_cons.mp mem with rfl | old
    · exact .inl ((returned i).mpr ⟨f, held, f.trader.trans wallet.symm, recent⟩)
    · exact .inr (before i (h.asked i ⟨f, held, c, old, wallet, short, recent⟩))
  · rintro i missed (row | offered)
    · obtain ⟨f, held, wallet, recent⟩ := (returned i).mp row
      refine ⟨f, held, _, List.mem_cons_self, ?_, (List.getElem?_eq_some_iff.mp held).1, recent⟩
      exact wallet.symm.trans f.trader
    · exact kept i (h.sound i missed (.inr offered))

theorem FeedInv.consume {digest : List UInt8 → String} {s : FeedState} (h : FeedInv s)
    {m : FeedMessage} {queue : List FeedMessage} (idle : s.consumer = .idle)
    (next : s.queue = m :: queue) (corr : CorrelationId) :
    FeedInv ({ s with queue := queue }.receive digest corr m) := by
  have none : ∀ i, i ∉ s.consumer.pending := by
    intro i mem
    rw [idle] at mem
    cases mem
  have later : ∀ i t, .trade i t ∈ queue → s.Travelling i := by
    intro i t mem
    refine .inr ⟨t, ?_⟩
    rw [next]
    exact List.mem_cons_of_mem m mem
  have travel : ∀ i, i ∈ s.wire ∨ (∃ t, .trade i t ∈ queue) → s.Travelling i := by
    rintro i (mem | ⟨t, mem⟩)
    · exact .inl mem
    · exact later i t mem
  have queued : ∀ i t, .trade i t ∈ s.queue → .trade i t = m ∨ .trade i t ∈ queue := by
    intro i t mem
    rw [next] at mem
    exact List.mem_cons.mp mem
  cases m with
  | connected at_ =>
    refine h.onward rfl rfl rfl travel ?_ (fun i same => same) (fun i same => .inl same)
    rintro i ((mem | ⟨t, mem⟩) | offered)
    · exact .inl (.inl mem)
    · rcases queued i t mem with eq | mem
      · cases eq
      · exact .inl (.inr ⟨t, mem⟩)
    · exact .inr offered
  | disconnected at_ lastTradeAt reason =>
    refine h.onward rfl rfl rfl travel ?_ ?_ ?_
    · rintro i ((mem | ⟨t, mem⟩) | offered)
      · exact .inl (.inl mem)
      · rcases queued i t mem with eq | mem
        · cases eq
        · exact .inl (.inr ⟨t, mem⟩)
      · exact .inr offered
    · rintro i (row | offered)
      · exact absurd row (none i)
      · exact .inr offered
    · rintro i (row | offered)
      · cases row
      · exact .inl (.inr offered)
  | trade j u =>
    refine h.onward rfl rfl rfl travel ?_ ?_ ?_
    · rintro i ((mem | ⟨t, mem⟩) | offered)
      · exact .inl (.inl mem)
      · rcases queued i t mem with eq | mem
        · cases eq
          exact .inr List.mem_cons_self
        · exact .inl (.inr ⟨t, mem⟩)
      · exact .inr (List.mem_cons_of_mem j offered)
    · rintro i (row | offered)
      · exact .inl row
      · exact .inr (List.mem_cons_of_mem j offered)
    · rintro i (row | offered)
      · exact .inl (.inl row)
      · rcases List.mem_cons.mp offered with rfl | old
        · refine .inr (.inr ⟨u, ?_⟩)
          rw [next]
          exact List.mem_cons_self
        · exact .inl (.inr old)

/-- A report leaves the wire for the channel. -/
theorem FeedInv.frame {s : FeedState} (h : FeedInv s) {i : Nat} {wire : List Nat}
    (sent : s.wire = i :: wire) (f : VenueFill) : FeedInv { s.send (.trade i f.live) with
      wire := wire
      lastTradeAt := some f.live.sourceTs } := by
  have travel : ∀ j, (j ∈ wire ∨ ∃ t, .trade j t ∈ s.queue ++ [.trade i f.live]) ↔
      s.Travelling j := by
    intro j
    unfold FeedState.Travelling
    simp only [sent, List.mem_cons, List.mem_append, List.not_mem_nil, or_false]
    constructor
    · rintro (mem | ⟨t, mem | eq⟩)
      · exact .inl (.inr mem)
      · exact .inr ⟨t, mem⟩
      · cases eq
        exact .inl (.inl rfl)
    · rintro ((rfl | mem) | ⟨t, mem⟩)
      · exact .inr ⟨f.live, .inr rfl⟩
      · exact .inl mem
      · exact .inr ⟨t, .inl mem⟩
  refine h.onward rfl rfl rfl (fun j => (travel j).mp) ?_ (fun j same => same)
    (fun j same => .inl same)
  rintro j (moving | offered)
  · exact .inl ((travel j).mpr moving)
  · exact .inr offered

/-- The consumer moves on with no row left. -/
theorem FeedInv.turn {s : FeedState} (h : FeedInv s) {c : Consumer}
    (before : s.consumer.pending = []) (after : c.pending = []) :
    FeedInv { s with consumer := c } := by
  have offering : ∀ i, FeedState.Offering { s with consumer := c } i ↔ s.Offering i := by
    intro i
    unfold FeedState.Offering
    simp only
    rw [before, after]
  exact h.onward rfl rfl rfl (fun _ same => same) (fun _ same => same)
    (fun i => (offering i).mpr) (fun i more => .inl ((offering i).mp more))

/-- A backfilled row is put to the tracker. -/
theorem FeedInv.row {digest : List UInt8 → String} {s : FeedState} (h : FeedInv s)
    {since : DateTime} {wallets : List TargetWallet} {batch : BatchOrdinals}
    {row : Nat × ParsedTrade} {rows : List (Nat × ParsedTrade)} {count : Nat}
    (busy : s.consumer = .backfilling since wallets batch (row :: rows) count)
    (corr : CorrelationId) :
    FeedInv (s.observeRow digest corr since wallets batch row rows count) := by
  have pending : s.consumer.pending = row.1 :: rows.map Prod.fst := by
    rw [busy]
    rfl
  refine h.onward rfl rfl rfl (fun _ same => same) ?_ ?_ ?_
  · rintro i (moving | offered)
    · exact .inl moving
    · exact .inr (List.mem_cons_of_mem _ offered)
  · rintro i (mem | offered)
    · rw [pending] at mem
      rcases List.mem_cons.mp mem with rfl | later
      · exact .inr List.mem_cons_self
      · exact .inl later
    · exact .inr (List.mem_cons_of_mem _ offered)
  · rintro i (later | offered)
    · refine .inl (.inl ?_)
      rw [pending]
      exact List.mem_cons_of_mem _ later
    · rcases List.mem_cons.mp offered with rfl | old
      · refine .inl (.inl ?_)
        rw [pending]
        exact List.mem_cons_self
      · exact .inl (.inr old)

theorem FeedInv.step {digest : List UInt8 → String} {s s' : FeedState} {e : FeedEvent}
    (h : FeedInv s) (taken : s.step digest e = some s') : FeedInv s' := by
  cases e with
  | happen f =>
    cases taken
    exact h.happen f
  | connect at_ =>
    obtain ⟨_, eq⟩ := Option.ite_none_right_eq_some.mp taken
    cases eq
    exact h.send (m := .connected at_) (fun _ _ => nofun) rfl rfl rfl rfl rfl rfl rfl
  | connectFailed at_ reason =>
    obtain ⟨_, eq⟩ := Option.ite_none_right_eq_some.mp taken
    cases eq
    exact h.send (m := .disconnected at_ s.lastTradeAt reason) (fun _ _ => nofun) rfl rfl rfl rfl
      rfl rfl rfl
  | frame =>
    unfold FeedState.step at taken
    simp only at taken
    split at taken
    next i wire sent =>
      obtain ⟨f, _, eq⟩ := Option.map_eq_some_iff.mp taken
      cases eq
      exact h.frame sent f
    next => cases taken
  | end_ =>
    obtain ⟨_, eq⟩ := Option.ite_none_right_eq_some.mp taken
    cases eq
    exact h.onward rfl rfl rfl (fun _ same => same) (fun _ same => same) (fun _ same => same)
      (fun _ same => .inl same)
  | drop at_ reason =>
    obtain ⟨_, eq⟩ := Option.ite_none_right_eq_some.mp taken
    cases eq
    exact h.send (m := .disconnected at_ s.lastTradeAt reason) (fun _ _ => nofun) rfl rfl rfl rfl
      rfl rfl rfl
  | consume corr =>
    unfold FeedState.step at taken
    simp only at taken
    split at taken
    next m queue idle next =>
      cases taken
      exact h.consume idle next corr
    next => cases taken
  | rest answer =>
    unfold FeedState.step at taken
    simp only at taken
    split at taken
    next since w wallets batch count busy =>
      split at taken
      next =>
        cases taken
        exact h.turn (congrArg Consumer.pending busy) rfl
      next =>
        obtain ⟨⟨all, _⟩, eq⟩ := Option.ite_none_right_eq_some.mp taken
        cases eq
        exact h.rest busy all
    next => cases taken
  | row corr =>
    unfold FeedState.step at taken
    simp only at taken
    split at taken
    next since wallets batch row rows count busy =>
      cases taken
      exact h.row busy corr
    next => cases taken
  | finish now =>
    unfold FeedState.step at taken
    simp only at taken
    split at taken
    next since batch count busy =>
      cases taken
      have done : FeedInv { s with consumer := .idle } :=
        h.turn (congrArg Consumer.pending busy) rfl
      split
      · exact done.onward rfl rfl rfl (fun _ same => same) (fun _ same => same)
          (fun _ same => same) (fun _ same => .inl same)
      · exact done
    next => cases taken

end CopyTrading
