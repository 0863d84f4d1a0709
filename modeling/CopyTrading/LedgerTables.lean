import CopyTrading.Order
import CopyTrading.PortfolioLedger
import CopyTrading.SourceEvents

namespace CopyTrading

structure StoredSnapshot where
  row : PnlSnapshot
  /-- The portfolio the row was taken of. Not a column. -/
  taken : Portfolio

/-- The rows as they were handed to the columns, which round them. -/
structure LedgerTables where
  pnlSnapshots : List StoredSnapshot
  positions : AList fun _ : TokenId => Position

def LedgerTables.empty : LedgerTables := ⟨[], ∅⟩

def LedgerTables.insertPnlSnapshot (t : LedgerTables) (s : StoredSnapshot) : LedgerTables :=
  { t with pnlSnapshots := t.pnlSnapshots ++ [s] }

/-- On a conflict the market and the outcome of the row stay. -/
def LedgerTables.upsertPosition (t : LedgerTables) (p : Position) : LedgerTables :=
  { t with positions := t.positions.insert p.tokenId (match t.positions.lookup p.tokenId with
      | some row => { p with marketId := row.marketId, outcome := row.outcome }
      | none => p) }

/-- What the NUMERIC columns keep of a position. -/
def Position.columns (p : Position) : Position :=
  { p with
    netQuantity := numeric 10 p.netQuantity
    avgEntry := numeric 10 p.avgEntry
    realizedPnl := numeric 6 p.realizedPnl
    feesPaid := numeric 6 p.feesPaid
    markPrice := p.markPrice.bind fun m => Price.ofDecimal? (numeric 10 m.get) }

/-- `SELECT * FROM positions WHERE net_quantity <> 0`. -/
def LedgerTables.loadPositions (t : LedgerTables) : List Position :=
  (t.positions.values.map Position.columns).filter fun p => !p.isFlat

def laterSnapshot (best : Option StoredSnapshot) (s : StoredSnapshot) : Option StoredSnapshot :=
  if best.any fun b => s.row.at_ < b.row.at_ then best else some s

/-- `ORDER BY at DESC LIMIT 1`; of equal stamps the later row. -/
def LedgerTables.latest (t : LedgerTables) : Option StoredSnapshot :=
  t.pnlSnapshots.foldl laterSnapshot none

def LedgerTables.latestPnlSnapshot (t : LedgerTables) : Option (Usd × Usd × Usd) :=
  t.latest.map fun s => (numeric 6 s.row.cash, numeric 6 s.row.realizedPnl,
    numeric 6 s.row.feesPaid)

structure RecoveredState where
  orders : List Order
  positions : List Position
  cash : Option Usd
  realizedPnl : Usd
  feesPaid : Usd

/-- `Repositories::recover`, without the wallets and the dedup entries. -/
def LedgerTables.recover (t : LedgerTables) : RecoveredState :=
  let (cash, realized, fees) := match t.latestPnlSnapshot with
    | some (c, r, f) => (some c, r, f)
    | none => (none, 0, 0)
  { orders := []
    positions := t.loadPositions
    cash := cash
    realizedPnl := realized
    feesPaid := fees }

/-- The portfolio part of the start-up's `recover`, on a portfolio of that starting cash. -/
def Portfolio.recover (p : Portfolio) (r : RecoveredState) : Portfolio :=
  p.restore (r.cash.getD p.startingCash) r.positions r.realizedPnl r.feesPaid

/-- A row is stored under the token of its position. -/
def LedgerTables.Keyed (t : LedgerTables) : Prop :=
  ∀ k p, t.positions.lookup k = some p → p.tokenId = k

theorem LedgerTables.Keyed.upsertPosition {t : LedgerTables} (h : t.Keyed) (p : Position) :
    (t.upsertPosition p).Keyed := by
  intro k q held
  unfold LedgerTables.upsertPosition at held
  by_cases here : k = p.tokenId
  · subst here
    rw [AList.lookup_insert] at held
    cases Option.some.inj held
    cases t.positions.lookup p.tokenId with
    | none => rfl
    | some row => rfl
  · rw [AList.lookup_insert_ne here] at held
    exact h k q held

theorem LedgerTables.mem_of_latest {t : LedgerTables} {s : StoredSnapshot}
    (h : t.latest = some s) : s ∈ t.pnlSnapshots := by
  have fold : ∀ (rows : List StoredSnapshot) (best : Option StoredSnapshot),
      rows.foldl laterSnapshot best = some s → best = some s ∨ s ∈ rows := by
    intro rows
    induction rows with
    | nil => exact fun best same => .inl same
    | cons row rows ih =>
      intro best same
      rcases ih _ same with found | later
      · unfold laterSnapshot at found
        split at found
        next => exact .inl found
        next =>
          cases Option.some.inj found
          exact .inr List.mem_cons_self
      · exact .inr (List.mem_cons_of_mem _ later)
  rcases fold t.pnlSnapshots none h with absurd_ | mem
  · cases absurd_
  · exact mem

/-- The restored positions cost together what the loaded rows cost. -/
theorem total_restored {f : Position → Decimal} (qs : List Position)
    (m : AList fun _ : TokenId => Position) (nodup : (qs.map Position.tokenId).Nodup)
    (fresh : ∀ q ∈ qs, m.lookup q.tokenId = none) :
    (qs.foldl (fun m q => m.insert q.tokenId q) m).total f = m.total f + (qs.map f).sum := by
  induction qs generalizing m with
  | nil => simp
  | cons q qs ih =>
    obtain ⟨absent, rest⟩ := List.nodup_cons.mp nodup
    have others : ∀ q' ∈ qs, (m.insert q.tokenId q).lookup q'.tokenId = none := by
      intro q' mem
      have other : q'.tokenId ≠ q.tokenId := by
        intro same
        exact absent (same ▸ List.mem_map_of_mem mem)
      exact (AList.lookup_insert_ne other).trans (fresh q' (List.mem_cons_of_mem _ mem))
    have here := fresh q List.mem_cons_self
    rw [List.foldl_cons, ih _ rest others, AList.total_insert_eq,
      AList.erase_of_lookup_none here, List.map_cons, List.sum_cons]
    ring

/-- By how much the rounding of the columns moves the two sides of the ledger apart. -/
def LedgerTables.rounding (t : LedgerTables) : Decimal :=
  t.latest.elim 0 (fun s => (numeric 6 s.row.cash - s.row.cash) -
    (numeric 6 s.row.realizedPnl - s.row.realizedPnl)) +
  t.positions.total fun p => p.columns.costBasis - p.costBasis

/-- Cash at cost is starting cash and realised profit, up to the rounding of the columns. -/
def LedgerTables.BooksBalance (t : LedgerTables) (p : Portfolio) : Prop :=
  p.cash + p.positions.total Position.costBasis = p.startingCash + p.realized + t.rounding

/-- What the stored positions cost, and what the positions of the last stored snapshot did. -/
def LedgerTables.SameCost (t : LedgerTables) : Prop :=
  t.positions.total Position.costBasis =
    t.latest.elim 0 fun s => s.taken.positions.total Position.costBasis

/-- The recovered positions cost what the stored ones do, but for the rounding of their columns. -/
theorem LedgerTables.recover_costs {t : LedgerTables} (keyed : t.Keyed) (p : Portfolio) :
    (p.recover t.recover).positions.total Position.costBasis =
      t.positions.total Position.costBasis +
        t.positions.total fun q => q.columns.costBasis - q.costBasis := by
  have nodup : (t.loadPositions.map Position.tokenId).Nodup := by
    unfold loadPositions
    rw [List.filter_map, List.map_map]
    exact AList.nodup_map_key keyed _
  have restored := total_restored (f := Position.costBasis) t.loadPositions ∅ nodup
    fun _ _ => rfl
  have active := sum_costBasis_active (t.positions.values.map Position.columns)
  show (t.loadPositions.foldl (fun (m : AList fun _ : TokenId => Position) q =>
    m.insert q.tokenId q) ∅).total _ = _
  rw [restored]
  unfold loadPositions
  rw [active, List.map_map]
  unfold AList.total
  rw [← List.sum_map_add]
  show 0 + _ = _
  rw [zero_add]
  congr 1
  refine List.map_congr_left ?_
  intro q _
  show q.columns.costBasis = q.costBasis + (q.columns.costBasis - q.costBasis)
  ring

/-- Cash and realised PnL are those of the last stored snapshot. -/
theorem LedgerTables.recover_money (t : LedgerTables) (p : Portfolio) :
    (p.recover t.recover).cash = t.latest.elim p.startingCash (fun s => numeric 6 s.row.cash) ∧
      (p.recover t.recover).realized =
        t.latest.elim 0 (fun s => numeric 6 s.row.realizedPnl) := by
  unfold recover latestPnlSnapshot
  cases t.latest with
  | none => exact ⟨rfl, rfl⟩
  | some s => exact ⟨rfl, rfl⟩

/-- The recovered books balance exactly if the stored positions cost what the positions cost when
the last stored snapshot was taken. -/
theorem LedgerTables.recover_balance_iff {t : LedgerTables} (keyed : t.Keyed) {p : Portfolio}
    (sound : ∀ s ∈ t.pnlSnapshots, s.taken.Balanced ∧ s.taken.startingCash = p.startingCash ∧
      s.row.cash = s.taken.cash ∧ s.row.realizedPnl = s.taken.realized) :
    t.BooksBalance (p.recover t.recover) ↔ t.SameCost := by
  obtain ⟨cash, realized⟩ := t.recover_money p
  have starting : (p.recover t.recover).startingCash = p.startingCash := rfl
  unfold BooksBalance SameCost rounding
  rw [recover_costs keyed, cash, realized, starting]
  cases last : t.latest with
  | none =>
    simp only [Option.elim_none]
    constructor
    · intro h
      linarith
    · intro h
      linarith
  | some s =>
    obtain ⟨balanced, same, takenCash, takenRealized⟩ := sound s (mem_of_latest last)
    unfold Portfolio.Balanced at balanced
    rw [same] at balanced
    simp only [Option.elim_some]
    rw [takenCash, takenRealized]
    constructor
    · intro h
      linarith
    · intro h
      linarith

end CopyTrading
