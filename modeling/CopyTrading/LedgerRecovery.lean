import CopyTrading.LedgerTables
import CopyTrading.StepRun

namespace CopyTrading

open StepRun

/-- Where the housekeeping task is: its snapshot on the way, or the positions left to write. -/
inductive HousekeepingStage
  | storing (s : StoredSnapshot)
  | flushing (rest : List Position)

structure LedgerState where
  portfolio : Portfolio
  tables : LedgerTables
  /-- The snapshots of pipeline calls that are not written yet. -/
  pipeline : List StoredSnapshot
  housekeeping : HousekeepingStage

/-- What one task does between two awaits; `executed` tells whether a write took place. -/
inductive LedgerEvent
  | portfolio (e : PortfolioEvent)
  | snapshotTaken (openOrders : Nat) (now : DateTime)
  | snapshotWritten (i : Nat) (executed : Bool)
  | tick (openOrders : Nat) (now : DateTime)
  | tickWritten (executed : Bool)
  | positionWritten (executed : Bool)

def Portfolio.takeSnapshot (p : Portfolio) (openOrders : Nat) (now : DateTime) : StoredSnapshot :=
  ⟨p.snapshot openOrders now, p⟩

/-- `Portfolio::positions`, by decreasing exposure. -/
def Portfolio.positionsByExposure (p : Portfolio) : List Position :=
  p.positions.values.mergeSort fun a b => b.exposure ≤ a.exposure

def LedgerState.start (startingCash : Usd) (now : DateTime) : LedgerState :=
  ⟨.new startingCash now, .empty, [], .flushing []⟩

def LedgerState.step (s : LedgerState) : LedgerEvent → Option LedgerState
  | .portfolio e => some { s with portfolio := s.portfolio.step e }
  | .snapshotTaken openOrders now =>
    some { s with pipeline := s.pipeline ++ [s.portfolio.takeSnapshot openOrders now] }
  | .snapshotWritten i executed =>
    s.pipeline[i]?.map fun w => { s with
      pipeline := s.pipeline.eraseIdx i
      tables := if executed then s.tables.insertPnlSnapshot w else s.tables }
  | .tick openOrders now =>
    match s.housekeeping with
    | .flushing [] =>
      some { s with housekeeping := .storing (s.portfolio.takeSnapshot openOrders now) }
    | _ => none
  | .tickWritten executed =>
    match s.housekeeping with
    | .storing w => some { s with
        tables := if executed then s.tables.insertPnlSnapshot w else s.tables
        housekeeping := .flushing s.portfolio.positionsByExposure }
    | _ => none
  | .positionWritten executed =>
    match s.housekeeping with
    | .flushing (p :: rest) => some { s with
        tables := if executed then s.tables.upsertPosition p else s.tables
        housekeeping := .flushing rest }
    | _ => none

/-- A snapshot of a portfolio whose books balance. -/
structure StoredSnapshot.Sound (startingCash : Usd) (s : StoredSnapshot) : Prop where
  balanced : s.taken.Balanced
  starting : s.taken.startingCash = startingCash
  cash : s.row.cash = s.taken.cash
  realized : s.row.realizedPnl = s.taken.realized

/-- What holds of every snapshot when it is taken holds of all that are written or on the way. -/
structure LedgerState.Snapshots (P : StoredSnapshot → Prop) (s : LedgerState) : Prop where
  stored : ∀ w ∈ s.tables.pnlSnapshots, P w
  pipeline : ∀ w ∈ s.pipeline, P w
  housekeeping : ∀ w, s.housekeeping = .storing w → P w

theorem LedgerTables.written_snapshots {P : StoredSnapshot → Prop} {t : LedgerTables}
    (h : ∀ w ∈ t.pnlSnapshots, P w) {w : StoredSnapshot} (here : P w) (executed : Bool) :
    ∀ v ∈ (if executed then t.insertPnlSnapshot w else t).pnlSnapshots, P v := by
  cases executed with
  | false => exact h
  | true =>
    intro v mem
    rcases List.mem_append.mp mem with old | last
    · exact h v old
    · rw [List.mem_singleton.mp last]
      exact here

theorem LedgerState.Snapshots.step {P : StoredSnapshot → Prop} {s s' : LedgerState}
    {e : LedgerEvent} (h : s.Snapshots P)
    (taking : ∀ openOrders now, P (s.portfolio.takeSnapshot openOrders now))
    (taken : s.step e = some s') : s'.Snapshots P := by
  cases e with
  | portfolio e =>
    cases taken
    exact ⟨h.stored, h.pipeline, h.housekeeping⟩
  | snapshotTaken openOrders now =>
    cases taken
    refine ⟨h.stored, ?_, h.housekeeping⟩
    intro w mem
    rcases List.mem_append.mp mem with old | last
    · exact h.pipeline w old
    · rw [List.mem_singleton.mp last]
      exact taking openOrders now
  | snapshotWritten i executed =>
    obtain ⟨w, waiting, rfl⟩ := Option.map_eq_some_iff.mp taken
    have here := h.pipeline w (List.mem_of_getElem? waiting)
    refine ⟨LedgerTables.written_snapshots h.stored here executed, ?_, h.housekeeping⟩
    intro v mem
    exact h.pipeline v (List.mem_of_mem_eraseIdx mem)
  | tick openOrders now =>
    simp only [LedgerState.step] at taken
    split at taken
    next =>
      cases taken
      refine ⟨h.stored, h.pipeline, ?_⟩
      intro w here
      cases here
      exact taking openOrders now
    next => cases taken
  | tickWritten executed =>
    simp only [LedgerState.step] at taken
    split at taken
    next w storing =>
      cases taken
      refine ⟨LedgerTables.written_snapshots h.stored (h.housekeeping w storing) executed,
        h.pipeline, ?_⟩
      intro v here
      cases here
    next => cases taken
  | positionWritten executed =>
    simp only [LedgerState.step] at taken
    split at taken
    next p rest _ =>
      cases taken
      refine ⟨?_, h.pipeline, ?_⟩
      · cases executed with
        | false => exact h.stored
        | true => exact h.stored
      · intro v here
        cases here
    next => cases taken

/-- The live books balance, and every snapshot was taken when they did. -/
structure LedgerInv (startingCash : Usd) (s : LedgerState) : Prop where
  balanced : s.portfolio.Balanced
  starting : s.portfolio.startingCash = startingCash
  keyed : s.tables.Keyed
  stored : ∀ w ∈ s.tables.pnlSnapshots, w.Sound startingCash
  pipeline : ∀ w ∈ s.pipeline, w.Sound startingCash
  housekeeping : ∀ w, s.housekeeping = .storing w → w.Sound startingCash

theorem LedgerInv.start (startingCash : Usd) (now : DateTime) :
    LedgerInv startingCash (.start startingCash now) where
  balanced := Portfolio.new_balanced startingCash now
  starting := rfl
  keyed := fun k p held => by cases held
  stored := fun w mem => by cases mem
  pipeline := fun w mem => by cases mem
  housekeeping := fun w here => by cases here

section Step

variable {startingCash : Usd} {s s' : LedgerState} {e : LedgerEvent}

/-- Apart from the snapshots, a step is one of the portfolio's own or writes a position. -/
theorem LedgerState.step_frame (taken : s.step e = some s') :
    (s'.portfolio = s.portfolio ∨ ∃ event, s'.portfolio = s.portfolio.step event) ∧
      (s.tables.Keyed → s'.tables.Keyed) := by
  cases e with
  | portfolio event =>
    cases taken
    exact ⟨.inr ⟨event, rfl⟩, id⟩
  | snapshotTaken openOrders now =>
    cases taken
    exact ⟨.inl rfl, id⟩
  | snapshotWritten i executed =>
    obtain ⟨w, _, rfl⟩ := Option.map_eq_some_iff.mp taken
    exact ⟨.inl rfl, by cases executed <;> exact id⟩
  | tick openOrders now =>
    simp only [step] at taken
    split at taken
    next => cases taken; exact ⟨.inl rfl, id⟩
    next => cases taken
  | tickWritten executed =>
    simp only [step] at taken
    split at taken
    next => cases taken; exact ⟨.inl rfl, by cases executed <;> exact id⟩
    next => cases taken
  | positionWritten executed =>
    simp only [step] at taken
    split at taken
    next p rest _ =>
      cases taken
      refine ⟨.inl rfl, ?_⟩
      intro keyed
      cases executed with
      | false => exact keyed
      | true => exact keyed.upsertPosition p
    next => cases taken

theorem LedgerInv.step (h : LedgerInv startingCash s) (taken : s.step e = some s') :
    LedgerInv startingCash s' := by
  have before : s.Snapshots (StoredSnapshot.Sound startingCash) :=
    ⟨h.stored, h.pipeline, h.housekeeping⟩
  have taking : ∀ openOrders now,
      (s.portfolio.takeSnapshot openOrders now).Sound startingCash :=
    fun _ _ => ⟨h.balanced, h.starting, rfl, rfl⟩
  obtain ⟨stored, pipeline, housekeeping⟩ := before.step taking taken
  obtain ⟨portfolio, keyed⟩ := LedgerState.step_frame taken
  have books : s'.portfolio.Balanced ∧ s'.portfolio.startingCash = startingCash := by
    rcases portfolio with same | ⟨event, moved⟩
    · rw [same]
      exact ⟨h.balanced, h.starting⟩
    · rw [moved]
      exact ⟨s.portfolio.step_balanced h.balanced event,
        (s.portfolio.step_startingCash event).trans h.starting⟩
  exact ⟨books.1, books.2, keyed h.keyed, stored, pipeline, housekeeping⟩

end Step

theorem LedgerState.run_inv {startingCash : Usd} {began : DateTime} {es : List LedgerEvent}
    {s : LedgerState} (run : Run LedgerState.step Anywhere (.start startingCash began) es s) :
    LedgerInv startingCash s :=
  run.keeps (fun _ _ _ h _ taken => h.step taken) (.start startingCash began)

theorem LedgerInv.recover_iff {startingCash : Usd} {s : LedgerState}
    (h : LedgerInv startingCash s) (restart : DateTime) :
    s.tables.BooksBalance ((Portfolio.new startingCash restart).recover s.tables.recover) ↔
      s.tables.SameCost := by
  refine LedgerTables.recover_balance_iff h.keyed ?_
  intro w mem
  have sound := h.stored w mem
  exact ⟨sound.balanced, sound.starting, sound.cash, sound.realized⟩

/-- Wherever the process stops, the recovered books balance exactly if the stored positions cost
what the positions cost when the last stored snapshot was taken. -/
theorem recovered_books_iff {startingCash : Usd} {began restart : DateTime}
    {es : List LedgerEvent} {s : LedgerState}
    (run : Run LedgerState.step Anywhere (.start startingCash began) es s) :
    s.tables.BooksBalance ((Portfolio.new startingCash restart).recover s.tables.recover) ↔
      s.tables.SameCost := by
  exact (LedgerState.run_inv run).recover_iff restart

instance (t : LedgerTables) : Decidable t.SameCost := inferInstanceAs (Decidable (_ = _))

def Fill.bought : Fill where
  fillId := ⟨0⟩
  orderId := ⟨0⟩
  correlationId := ⟨0⟩
  marketId := .zero
  tokenId := .zero
  side := .buy
  quantity := ParsedTrade.sample.quantity
  price := .half
  fee := 0
  venueFillId := none
  isMaker := false
  filledAt := 0

/-- A fill, its snapshot, and a tick that writes the position. -/
def flushedFill : List LedgerEvent :=
  [.portfolio (.applyFill .bought "Down"), .snapshotTaken 0 0, .snapshotWritten 0 true,
    .tick 0 1, .tickWritten true, .positionWritten true]

theorem recovered_books_iff_flushedFill : ∃ s,
    Run LedgerState.step Anywhere (.start 1000 0) flushedFill s ∧ s.tables.SameCost ∧
    (s.tables.BooksBalance ((Portfolio.new 1000 2).recover s.tables.recover) ↔
      s.tables.SameCost) := by
  have ran : (flushedFill.foldlM (fun s e => if Anywhere s e then LedgerState.step s e else none)
      (.start 1000 0)).any (fun s => s.tables.SameCost) = true := by
    decide +kernel
  obtain ⟨s, executed, same⟩ := (Option.any_eq_true _ _).mp ran
  have run := run_of_foldlM executed
  exact ⟨s, run, of_decide_eq_true same, recovered_books_iff run⟩

/-- The snapshot of a fill is written with the trade, its position only by the next tick. -/
theorem recovered_books_miss_position :
    ¬ ∀ (startingCash : Usd) (began restart : DateTime) (es : List LedgerEvent) (s : LedgerState),
      Run LedgerState.step Anywhere (.start startingCash began) es s →
      s.tables.BooksBalance ((Portfolio.new startingCash restart).recover s.tables.recover) := by
  intro claim
  have ran : ((flushedFill.take 3).foldlM (fun s e => if Anywhere s e then LedgerState.step s e
      else none) (.start 1000 0)).any (fun s => ¬s.tables.SameCost) = true := by
    decide +kernel
  obtain ⟨s, executed, differ⟩ := (Option.any_eq_true _ _).mp ran
  have run := run_of_foldlM executed
  exact of_decide_eq_true differ
    (((LedgerState.run_inv run).recover_iff 1).mp (claim 1000 0 1 _ s run))

end CopyTrading
