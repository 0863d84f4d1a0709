import CopyTrading.LedgerRecovery

namespace AList

variable {κ β : Type} [DecidableEq κ] {m : AList fun _ : κ => β}

/-- In a map whose values know their keys, a value is found by its key. -/
theorem find?_values (key : β → κ) (f : β → β)
    (keyed : ∀ k v, m.lookup k = some v → key (f v) = k) (p : β → Bool) (k : κ) :
    ((m.values.map f).filter p).find? (fun x => key x = k) = ((m.lookup k).map f).filter p := by
  rw [List.find?_filter, List.find?_map]
  cases found : m.values.find? _ with
  | none =>
    rw [Option.map_none]
    cases held : m.lookup k with
    | none => rfl
    | some v =>
      have unlike := List.find?_eq_none.mp found v (mem_values.mpr ⟨k, held⟩)
      have fails : p (f v) = false := by simpa [keyed k v held] using unlike
      rw [Option.map_some, Option.filter, fails]
      rfl
  | some w =>
    have alike := List.find?_some found
    obtain ⟨j, held⟩ := mem_values.mp (List.mem_of_find?_eq_some found)
    obtain ⟨passes, here⟩ : p (f w) = true ∧ key (f w) = k := by simpa using alike
    have same : j = k := (keyed j w held).symm.trans here
    rw [← same, held, Option.map_some, Option.filter, passes]
    rfl

end AList

namespace CopyTrading

open StepRun

/-- What is worth keeping of a position; the market and the outcome of a stored row never change. -/
def Position.figures (p : Position) : Decimal × Decimal × Usd × Usd × Option Price :=
  (p.netQuantity, p.avgEntry, p.realizedPnl, p.feesPaid, p.markPrice)

/-- What the database gives back of a row: nothing of a position that is flat in its column. -/
def Position.given (p : Position) : Option Position :=
  if p.columns.isFlat then none else some p.columns

namespace LedgerTables

variable (t : LedgerTables)

def writePositions (executed : TokenId → Bool) (ps : List Position) : LedgerTables :=
  ps.foldl (fun t p => if executed p.tokenId then t.upsertPosition p else t) t

/-- What the row of a token gives back. -/
def given (k : TokenId) : Option Position := (t.positions.lookup k).bind Position.given

variable {t : LedgerTables}

theorem upsertPosition_ne {p : Position} {k : TokenId} (other : k ≠ p.tokenId) :
    (t.upsertPosition p).positions.lookup k = t.positions.lookup k :=
  AList.lookup_insert_ne other

theorem upsertPosition_row (p : Position) :
    ∃ row, (t.upsertPosition p).positions.lookup p.tokenId = some row ∧
      row.columns.figures = p.columns.figures ∧ row.columns.isFlat = p.columns.isFlat := by
  unfold upsertPosition
  rw [AList.lookup_insert]
  cases t.positions.lookup p.tokenId with
  | none => exact ⟨_, rfl, rfl, rfl⟩
  | some row => exact ⟨_, rfl, rfl, rfl⟩

/-- A position that is stored is given back with its figures. -/
theorem given_upsertPosition (p : Position) :
    ((t.upsertPosition p).given p.tokenId).map Position.figures =
      p.given.map Position.figures := by
  obtain ⟨row, here, figures, flat⟩ := t.upsertPosition_row p
  unfold given Position.given
  rw [here, Option.bind_some, flat]
  split
  next => rfl
  next =>
    rw [Option.map_some, Option.map_some, figures]

theorem writePositions_ne {executed : TokenId → Bool} {ps : List Position} {k : TokenId}
    (other : ∀ p ∈ ps, k ≠ p.tokenId) :
    (t.writePositions executed ps).positions.lookup k = t.positions.lookup k := by
  unfold writePositions
  induction ps generalizing t with
  | nil => rfl
  | cons p ps ih =>
    rw [List.foldl_cons, ih fun q mem => other q (List.mem_cons_of_mem p mem)]
    split
    next => exact upsertPosition_ne (other p List.mem_cons_self)
    next => rfl

theorem given_writePositions {ps : List Position} (nodup : (ps.map Position.tokenId).Nodup)
    {p : Position} (mem : p ∈ ps) :
    ((t.writePositions (fun _ => true) ps).given p.tokenId).map Position.figures =
      p.given.map Position.figures := by
  induction ps generalizing t with
  | nil => cases mem
  | cons q ps ih =>
    obtain ⟨absent, nodup⟩ := List.nodup_cons.mp nodup
    rcases List.mem_cons.mp mem with rfl | later
    · have rest : ∀ q ∈ ps, p.tokenId ≠ q.tokenId := by
        intro q mem same
        exact absent (same ▸ List.mem_map_of_mem mem)
      have same : (t.writePositions (fun _ => true) (p :: ps)).given p.tokenId =
          (t.upsertPosition p).given p.tokenId := by
        have others : ((t.upsertPosition p).writePositions (fun _ => true) ps).positions.lookup
            p.tokenId = (t.upsertPosition p).positions.lookup p.tokenId := writePositions_ne rest
        unfold given
        rw [← others]
        rfl
      rw [same]
      exact given_upsertPosition p
    · exact ih nodup later

theorem Keyed.writePositions (h : t.Keyed) (executed : TokenId → Bool) (ps : List Position) :
    (t.writePositions executed ps).Keyed := by
  unfold LedgerTables.writePositions
  induction ps generalizing t with
  | nil => exact h
  | cons p ps ih =>
    rw [List.foldl_cons]
    refine ih ?_
    split
    next => exact h.upsertPosition p
    next => exact h

theorem writePositions_snapshots (executed : TokenId → Bool) (ps : List Position) :
    (t.writePositions executed ps).pnlSnapshots = t.pnlSnapshots := by
  unfold writePositions
  induction ps generalizing t with
  | nil => rfl
  | cons p ps ih =>
    rw [List.foldl_cons, ih]
    split
    next => rfl
    next => rfl

/-- The recovered portfolio holds what the rows give back. -/
theorem recover_position (keyed : t.Keyed) (p : Portfolio) (k : TokenId) :
    (p.recover t.recover).position k = t.given k := by
  have nodup : (t.loadPositions.map Position.tokenId).Nodup := by
    unfold loadPositions
    rw [List.filter_map, List.map_map]
    exact AList.nodup_map_key keyed _
  show (t.loadPositions.foldl (fun (m : AList fun _ : TokenId => Position) q =>
    m.insert q.tokenId q) ∅).lookup k = _
  rw [AList.lookup_foldl_insert Position.tokenId nodup, AList.lookup_empty, Option.or_none]
  refine (AList.find?_values Position.tokenId Position.columns keyed _ k).trans ?_
  unfold given
  cases t.positions.lookup k with
  | none => rfl
  | some row =>
    unfold Position.given
    rw [Option.map_some, Option.bind_some, Option.filter]
    cases row.columns.isFlat with
    | true => rfl
    | false => rfl

end LedgerTables

/-- What happens to a ledger over the lives of the process. -/
inductive LedgerLife
  | running (e : LedgerEvent)
  /-- The end of `run`, once the tasks have stopped; the flags tell which writes took place. -/
  | shutDown (openOrders : Nat) (now : DateTime) (snapshotStored : Bool) (executed : TokenId → Bool)
  /-- A new process, whether the last one was shut down or died. -/
  | restart (startingCash : Usd) (now : DateTime)

namespace LedgerState

/-- A last snapshot, then every position. -/
def shutDown (s : LedgerState) (openOrders : Nat) (now : DateTime) (snapshotStored : Bool)
    (executed : TokenId → Bool) : LedgerState :=
  let snap := s.portfolio.takeSnapshot openOrders now
  let tables := if snapshotStored then s.tables.insertPnlSnapshot snap else s.tables
  { s with tables := tables.writePositions executed s.portfolio.positionsByExposure }

def restart (s : LedgerState) (startingCash : Usd) (now : DateTime) : LedgerState :=
  ⟨(Portfolio.new startingCash now).recover s.tables.recover, s.tables, [], .flushing []⟩

def live (s : LedgerState) : LedgerLife → Option LedgerState
  | .running e => s.step e
  | .shutDown openOrders now snapshotStored executed =>
    some (s.shutDown openOrders now snapshotStored executed)
  | .restart startingCash now => some (s.restart startingCash now)

/-- Each is stored under its own token. -/
structure Keyed (s : LedgerState) : Prop where
  portfolio : ∀ k p, s.portfolio.positions.lookup k = some p → p.tokenId = k
  tables : s.tables.Keyed

/-- Nothing is in the tables or on its way there that the portfolio does not know of. -/
structure NoStray (s : LedgerState) : Prop where
  rows : ∀ k, s.portfolio.position k = none → s.tables.given k = none
  pending : ∀ rest, s.housekeeping = .flushing rest →
    ∀ p ∈ rest, s.portfolio.position p.tokenId ≠ none

end LedgerState

/-- Everything but a paper reset, which forgets positions whose rows stay. -/
def LedgerLife.KeepsPositions : LedgerLife → Prop
  | .running (.portfolio (.reset _)) => False
  | _ => True

namespace Portfolio

variable {p : Portfolio}

theorem step_keyed (h : ∀ k q, p.positions.lookup k = some q → q.tokenId = k) (e : PortfolioEvent) :
    ∀ k q, (p.step e).positions.lookup k = some q → q.tokenId = k := by
  have inserted {t : TokenId} {new : Position} (own : new.tokenId = t) (k : TokenId) (q : Position)
      (held : (p.positions.insert t new).lookup k = some q) : q.tokenId = k := by
    by_cases here : k = t
    · rw [here, AList.lookup_insert] at held
      cases held
      exact own.trans here.symm
    · rw [AList.lookup_insert_ne here] at held
      exact h k q held
  cases e with
  | applyFill f outcomeName =>
    refine inserted ?_
    show ((p.positions.lookup f.tokenId).getD _).tokenId = f.tokenId
    cases held : p.positions.lookup f.tokenId with
    | none => rfl
    | some q => exact h _ q held
  | mark t price at_ =>
    show ∀ k q, (p.mark t price at_).positions.lookup k = some q → q.tokenId = k
    unfold mark
    split
    next old held =>
      have own : (old.mark price at_).tokenId = t := h t old held
      exact inserted own
    next => exact h
  | attributeOrder order wallet => exact h
  | reset now =>
    intro k q held
    cases held

/-- A token that the portfolio knows stays known until a reset. -/
theorem step_known {e : PortfolioEvent} (keeps : (LedgerLife.running (.portfolio e)).KeepsPositions)
    {k : TokenId} (known : p.position k ≠ none) : (p.step e).position k ≠ none := by
  have inserted (t : TokenId) (new : Position) : (p.positions.insert t new).lookup k ≠ none := by
    by_cases here : k = t
    · rw [here, AList.lookup_insert]
      exact Option.some_ne_none new
    · rw [AList.lookup_insert_ne here]
      exact known
  cases e with
  | applyFill f outcomeName => exact inserted f.tokenId _
  | mark t price at_ =>
    show (p.mark t price at_).position k ≠ none
    unfold mark
    split
    next => exact inserted t _
    next => exact known
  | attributeOrder order wallet => exact known
  | reset now => exact keeps.elim

end Portfolio

namespace LedgerTables

variable {t : LedgerTables} {p : Portfolio}

/-- Writing a position that is known puts nothing unknown into the table. -/
theorem noStray_upsert (rows : ∀ k, p.position k = none → t.given k = none) {q : Position}
    (known : p.position q.tokenId ≠ none) :
    ∀ k, p.position k = none → (t.upsertPosition q).given k = none := by
  intro k unknown
  have other : k ≠ q.tokenId := by
    rintro rfl
    exact known unknown
  unfold given
  rw [upsertPosition_ne other]
  exact rows k unknown

end LedgerTables

namespace LedgerState

variable {s s' : LedgerState}

theorem known_of_mem (h : s.Keyed) {q : Position} (mem : q ∈ s.portfolio.positionsByExposure) :
    s.portfolio.position q.tokenId = some q := by
  have listed := (List.mergeSort_perm _ _).mem_iff.mp mem
  obtain ⟨k, held⟩ := AList.mem_values.mp listed
  rw [h.portfolio k q held]
  exact held

theorem nodup_positions (h : s.Keyed) :
    (s.portfolio.positionsByExposure.map Position.tokenId).Nodup := by
  have perm : (s.portfolio.positionsByExposure.map Position.tokenId).Perm
      (s.portfolio.positions.values.map Position.tokenId) :=
    (List.mergeSort_perm _ _).map _
  have nodup := AList.nodup_map_key h.portfolio fun _ => true
  rw [List.filter_true] at nodup
  exact perm.nodup_iff.mpr nodup

theorem Keyed.live (h : s.Keyed) {e : LedgerLife} (taken : s.live e = some s') : s'.Keyed := by
  cases e with
  | running e =>
    obtain ⟨portfolio, tables⟩ := step_frame taken
    refine ⟨?_, tables h.tables⟩
    rcases portfolio with same | ⟨event, moved⟩
    · rw [same]
      exact h.portfolio
    · rw [moved]
      exact Portfolio.step_keyed h.portfolio event
  | shutDown openOrders now snapshotStored executed =>
    cases taken
    refine ⟨h.portfolio, ?_⟩
    cases snapshotStored with
    | true =>
      exact LedgerTables.Keyed.writePositions (t := s.tables.insertPnlSnapshot _) h.tables _ _
    | false => exact h.tables.writePositions _ _
  | restart startingCash now =>
    cases taken
    refine ⟨?_, h.tables⟩
    intro k p held
    refine AList.keyed_foldl_insert Position.tokenId ?_ s.tables.loadPositions k p held
    intro k p none_
    cases none_

theorem NoStray.step (h : s.NoStray) (keyed : s.Keyed) {e : LedgerEvent}
    (keeps : (LedgerLife.running e).KeepsPositions) (taken : s.step e = some s') : s'.NoStray := by
  cases e with
  | portfolio e =>
    cases taken
    have known := fun k => Portfolio.step_known (p := s.portfolio) (k := k) keeps
    refine ⟨?_, ?_⟩
    · intro k unknown
      by_contra given
      exact known k (fun before => given (h.rows k before)) unknown
    · intro rest flushing p mem
      exact known p.tokenId (h.pending rest flushing p mem)
  | snapshotTaken openOrders now =>
    cases taken
    exact ⟨h.rows, h.pending⟩
  | snapshotWritten i executed =>
    obtain ⟨w, _, rfl⟩ := Option.map_eq_some_iff.mp taken
    refine ⟨?_, h.pending⟩
    cases executed with
    | true => exact h.rows
    | false => exact h.rows
  | tick openOrders now =>
    simp only [LedgerState.step] at taken
    split at taken
    next =>
      cases taken
      refine ⟨h.rows, ?_⟩
      intro rest flushing
      cases flushing
    next => cases taken
  | tickWritten executed =>
    simp only [LedgerState.step] at taken
    split at taken
    next =>
      cases taken
      refine ⟨?_, ?_⟩
      · cases executed with
        | true => exact h.rows
        | false => exact h.rows
      · intro rest flushing p mem
        cases flushing
        have known := known_of_mem keyed mem
        show s.portfolio.position p.tokenId ≠ none
        rw [known]
        exact Option.some_ne_none p
    next => cases taken
  | positionWritten executed =>
    simp only [LedgerState.step] at taken
    split at taken
    next p rest flushing =>
      cases taken
      have known := h.pending _ flushing
      refine ⟨?_, ?_⟩
      · cases executed with
        | false => exact h.rows
        | true => exact LedgerTables.noStray_upsert h.rows (known p List.mem_cons_self)
      · intro rest' flushing' q mem
        cases flushing'
        exact known q (List.mem_cons_of_mem p mem)
    next => cases taken

theorem NoStray.live (h : s.NoStray) (keyed : s.Keyed) {e : LedgerLife} (keeps : e.KeepsPositions)
    (taken : s.live e = some s') : s'.NoStray := by
  cases e with
  | running e => exact h.step keyed keeps taken
  | shutDown openOrders now snapshotStored executed =>
    cases taken
    have written (ps : List Position) (known : ∀ p ∈ ps, s.portfolio.position p.tokenId ≠ none)
        (t : LedgerTables) (rows : ∀ k, s.portfolio.position k = none → t.given k = none) :
        ∀ k, s.portfolio.position k = none → (t.writePositions executed ps).given k = none := by
      induction ps generalizing t with
      | nil => exact rows
      | cons p ps ih =>
        refine ih (fun q mem => known q (List.mem_cons_of_mem p mem)) _ ?_
        show ∀ k, s.portfolio.position k = none →
          (if executed p.tokenId then t.upsertPosition p else t).given k = none
        split
        next => exact LedgerTables.noStray_upsert rows (known p List.mem_cons_self)
        next => exact rows
    refine ⟨written _ ?_ _ ?_, h.pending⟩
    · intro p mem
      rw [known_of_mem keyed mem]
      exact Option.some_ne_none p
    · cases snapshotStored with
      | true => exact h.rows
      | false => exact h.rows
  | restart startingCash now =>
    cases taken
    refine ⟨?_, ?_⟩
    · intro k unknown
      have back := LedgerTables.recover_position keyed.tables (.new startingCash now) k
      exact back.symm.trans unknown
    · intro rest flushing p mem
      cases flushing
      cases mem

theorem start_keyed (startingCash : Usd) (began : DateTime) : (start startingCash began).Keyed := by
  refine ⟨?_, ?_⟩
  · intro k p held
    cases held
  · intro k p held
    cases held

theorem start_noStray (startingCash : Usd) (began : DateTime) :
    (start startingCash began).NoStray := by
  refine ⟨fun k _ => rfl, ?_⟩
  intro rest flushing p mem
  cases flushing
  cases mem

end LedgerState

namespace LedgerTables

variable {t : LedgerTables} {w : StoredSnapshot}

/-- A snapshot that is dated after the stored ones is the one that is read back. -/
theorem latest_insert (clock : ∀ v ∈ t.pnlSnapshots, v.row.at_ < w.row.at_) :
    (t.insertPnlSnapshot w).latest = some w := by
  unfold latest insertPnlSnapshot
  rw [List.foldl_append, List.foldl_cons, List.foldl_nil]
  have before : ¬(t.latest.any fun b => w.row.at_ < b.row.at_) := by
    intro later
    obtain ⟨b, best, after⟩ := (Option.any_eq_true _ _).mp later
    exact absurd (clock b (mem_of_latest best)) (not_lt_of_gt (of_decide_eq_true after))
  unfold laterSnapshot
  exact if_neg before

theorem recover_fees (t : LedgerTables) (p : Portfolio) :
    (p.recover t.recover).fees = t.latest.elim 0 (fun s => numeric 6 s.row.feesPaid) := by
  unfold recover latestPnlSnapshot
  cases t.latest with
  | none => rfl
  | some s => rfl

end LedgerTables

/-- The ledger is as it was, but for the rounding of the columns: the money, and the figures of
every position that is not flat in its column. -/
structure Portfolio.Survives (p q : Portfolio) : Prop where
  cash : q.cash = numeric 6 p.cash
  realized : q.realized = numeric 6 p.realized
  fees : q.fees = numeric 6 p.fees
  positions : ∀ k, (q.position k).map Position.figures =
    ((p.position k).bind Position.given).map Position.figures

namespace LedgerState

variable {s : LedgerState}

/-- What comes back after a shutdown that wrote everything. -/
theorem restart_shutDown (keyed : s.Keyed) {now : DateTime}
    (clock : ∀ w ∈ s.tables.pnlSnapshots, w.row.at_ < now) (openOrders : Nat) (startingCash : Usd)
    (restarted : DateTime) :
    s.portfolio.Survives
        ((s.shutDown openOrders now true fun _ => true).restart startingCash restarted).portfolio ↔
      ∀ k, s.portfolio.position k = none → s.tables.given k = none := by
  set t := (s.shutDown openOrders now true fun _ => true).tables with tables
  have written : t = (s.tables.insertPnlSnapshot
      (s.portfolio.takeSnapshot openOrders now)).writePositions (fun _ => true)
        s.portfolio.positionsByExposure := rfl
  have keyedTables : t.Keyed := by
    rw [written]
    exact LedgerTables.Keyed.writePositions (t := s.tables.insertPnlSnapshot _) keyed.tables _ _
  have latest : t.latest = some (s.portfolio.takeSnapshot openOrders now) := by
    have inserted := LedgerTables.latest_insert
      (w := s.portfolio.takeSnapshot openOrders now) clock
    unfold LedgerTables.latest at inserted ⊢
    rw [written, LedgerTables.writePositions_snapshots]
    exact inserted
  obtain ⟨cash, realized⟩ := t.recover_money (.new startingCash restarted)
  have fees := t.recover_fees (.new startingCash restarted)
  rw [latest] at cash realized fees
  have back := LedgerTables.recover_position keyedTables (.new startingCash restarted)
  have held : ∀ k p, s.portfolio.position k = some p →
      (t.given k).map Position.figures = p.given.map Position.figures := by
    intro k p here
    have own := keyed.portfolio k p here
    have mem : p ∈ s.portfolio.positionsByExposure :=
      (List.mergeSort_perm _ _).mem_iff.mpr (AList.mem_values.mpr ⟨k, here⟩)
    rw [written, ← own]
    exact LedgerTables.given_writePositions (nodup_positions keyed) mem
  have unheld : ∀ k, s.portfolio.position k = none → t.given k = s.tables.given k := by
    intro k none_
    have other : ∀ p ∈ s.portfolio.positionsByExposure, k ≠ p.tokenId := by
      rintro p mem rfl
      rw [known_of_mem keyed mem] at none_
      cases none_
    unfold LedgerTables.given
    rw [written, LedgerTables.writePositions_ne other]
    rfl
  constructor
  · intro survives k none_
    have same := survives.positions k
    rw [none_, Option.bind_none, Option.map_none, Option.map_eq_none_iff] at same
    rw [← unheld k none_, ← back k]
    exact same
  · intro noStray
    refine ⟨cash, realized, fees, ?_⟩
    intro k
    show (((Portfolio.new startingCash restarted).recover t.recover).position k).map _ = _
    rw [back k]
    cases here : s.portfolio.position k with
    | none =>
      rw [unheld k here, noStray k here]
      rfl
    | some p => exact held k p here

theorem run_keyed {initial : Usd} {began : DateTime} {es : List LedgerLife}
    (run : Run LedgerState.live Anywhere (.start initial began) es s) : s.Keyed :=
  run.keeps (fun _ _ _ h _ taken => h.live taken) (start_keyed initial began)

theorem run_noStray {initial : Usd} {began : DateTime} {es : List LedgerLife}
    (run : Run LedgerState.live Anywhere (.start initial began) es s)
    (keeps : ∀ e ∈ es, e.KeepsPositions) : s.NoStray := by
  induction run with
  | nil => exact start_noStray initial began
  | snoc before _ taken ih =>
    have earlier := ih fun e mem => keeps e (List.mem_append_left _ mem)
    exact earlier.live (run_keyed before) (keeps _ List.mem_concat_self) taken

/-- Over any lives of the process, with writes failing and processes dying anywhere: a shutdown
after every stored snapshot that writes everything loses nothing and brings nothing back, unless the
table has a row of a token that the portfolio does not know of, and only a paper reset leaves such a
row. -/
theorem graceful_restart {began : DateTime} {initial : Usd} {es : List LedgerLife}
    (run : Run LedgerState.live Anywhere (.start initial began) es s) {now : DateTime}
    (clock : ∀ w ∈ s.tables.pnlSnapshots, w.row.at_ < now) (openOrders : Nat) (startingCash : Usd)
    (restarted : DateTime) :
    (s.portfolio.Survives
        ((s.shutDown openOrders now true fun _ => true).restart startingCash restarted).portfolio ↔
      ∀ k, s.portfolio.position k = none → s.tables.given k = none) ∧
    ((∀ e ∈ es, e.KeepsPositions) →
      ∀ k, s.portfolio.position k = none → s.tables.given k = none) := by
  exact ⟨restart_shutDown (run_keyed run) clock openOrders startingCash restarted,
    fun keeps => (run_noStray run keeps).rows⟩

/-- A fill whose position is never flushed, a death, and another fill. -/
def twoLives : List LedgerLife :=
  [.running (.portfolio (.applyFill .bought "Down")), .running (.snapshotTaken 0 0),
    .running (.snapshotWritten 0 true), .restart 1000 1,
    .running (.portfolio (.applyFill .bought "Down"))]

theorem graceful_restart_twoLives : ∃ s, Run LedgerState.live Anywhere (.start 1000 0) twoLives s ∧
    s.portfolio.Survives
      ((s.shutDown 0 2 true fun _ => true).restart 1000 3).portfolio := by
  have ran : (twoLives.foldlM (fun s e => if Anywhere s e then LedgerState.live s e else none)
      (.start 1000 0)).any (fun s => ∀ w ∈ s.tables.pnlSnapshots, w.row.at_ < 2) = true := by
    decide +kernel
  obtain ⟨s, executed, clock⟩ := (Option.any_eq_true _ _).mp ran
  have run := run_of_foldlM executed
  obtain ⟨survives, noStray⟩ := graceful_restart run (of_decide_eq_true clock) 0 1000 3
  refine ⟨s, run, survives.mpr (noStray ?_)⟩
  intro e mem
  simp only [twoLives, List.mem_cons, List.not_mem_nil, or_false] at mem
  rcases mem with rfl | rfl | rfl | rfl | rfl <;> trivial

end LedgerState

end CopyTrading
