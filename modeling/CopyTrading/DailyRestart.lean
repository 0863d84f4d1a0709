import CopyTrading.DailyBucket
import CopyTrading.LedgerRecovery
import CopyTrading.Pipeline

namespace CopyTrading

open StepRun

theorem LedgerState.run_snapshots {P : StoredSnapshot → Prop}
    (taking : ∀ (p : Portfolio) openOrders now, P (p.takeSnapshot openOrders now))
    {startingCash : Usd} {began : DateTime} {es : List LedgerEvent} {s : LedgerState}
    (run : Run LedgerState.step Anywhere (.start startingCash began) es s) : s.Snapshots P := by
  refine run.keeps (fun t _ _ h _ taken => h.step (taking t.portfolio) taken) ⟨?_, ?_, ?_⟩
  · intro w mem
    cases mem
  · intro w mem
    cases mem
  · intro w here
    cases here

theorem ordinal_of_dayNumber {t u : DateTime} (same : dayNumber t = dayNumber u) :
    ordinal t = ordinal u := by
  unfold ordinal dayOfEra
  rw [same]

theorem Portfolio.dailyPnl_sameDay (p : Portfolio) {t u : DateTime}
    (same : dayNumber t = dayNumber u) : p.dailyPnl t = p.dailyPnl u := by
  unfold dailyPnl
  rw [ordinal_of_dayNumber same]

/-- Nothing is restored into the daily bucket. -/
theorem Portfolio.recover_dailyPnl (startingCash : Usd) (restart now : DateTime)
    (r : RecoveredState) : ((Portfolio.new startingCash restart).recover r).dailyPnl now = 0 :=
  ite_self (0 : Usd)

/-- The application with the daily bucket of before the restart. -/
def AppState.withDaily (app : AppState) (daily : Nat × Usd) : AppState :=
  { app with portfolio := { app.portfolio with daily := daily } }

/-- The daily figure is the one of the snapshot, and sizing and the risk engine decide from it as
they would with the bucket that the snapshot was taken of. -/
structure DailyKept (w : StoredSnapshot) (app : AppState) (now : DateTime) : Prop where
  figure : app.portfolio.dailyPnl now = w.row.dailyPnl
  sizing : ∀ trade, app.sizingContext trade now =
    (app.withDaily w.taken.daily).sizingContext trade now
  risk : ∀ order wallet book, app.verdict order wallet book now =
    (app.withDaily w.taken.daily).verdict order wallet book now

theorem DailyKept.of_figure {w : StoredSnapshot} {app : AppState} {now : DateTime}
    (row : w.row.dailyPnl = w.taken.dailyPnl w.row.at_)
    (sameDay : dayNumber now = dayNumber w.row.at_)
    (figure : app.portfolio.dailyPnl now = w.row.dailyPnl) : DailyKept w app now := by
  have before : (app.withDaily w.taken.daily).portfolio.dailyPnl now =
      app.portfolio.dailyPnl now := by
    rw [figure, row, ← w.taken.dailyPnl_sameDay sameDay]
    rfl
  have snap : ∀ n, app.portfolio.snapshot n now =
      (app.withDaily w.taken.daily).portfolio.snapshot n now := by
    intro n
    unfold Portfolio.snapshot
    rw [before]
    rfl
  refine ⟨figure, ?_, ?_⟩
  · intro trade
    unfold AppState.sizingContext
    rw [snap]
    rfl
  · intro order wallet book
    unfold AppState.verdict
    rw [snap]
    rfl

/-- Nothing net was booked into the bucket of the day. -/
def Portfolio.NothingBooked (p : Portfolio) (t : DateTime) : Prop :=
  p.daily.1 = ordinal t → p.daily.2 = 0

instance (p : Portfolio) (t : DateTime) : Decidable (p.NothingBooked t) :=
  inferInstanceAs (Decidable (_ → _))

theorem Portfolio.dailyPnl_zero_iff (p : Portfolio) (t : DateTime) :
    p.dailyPnl t = 0 ↔ p.NothingBooked t := by
  unfold dailyPnl NothingBooked
  by_cases today : p.daily.1 = ordinal t
  · simp [today]
  · simp [today]

/-- A restart on the day of the last stored snapshot keeps the daily loss exactly if there was
nothing to keep. -/
theorem restart_keeps_daily_iff {startingCash : Usd} {began restart now : DateTime}
    {es : List LedgerEvent} {s : LedgerState} {w : StoredSnapshot} {app : AppState}
    (run : Run LedgerState.step Anywhere (.start startingCash began) es s)
    (last : s.tables.latest = some w) (sameDay : dayNumber now = dayNumber w.row.at_)
    (recovered : app.portfolio = (Portfolio.new startingCash restart).recover s.tables.recover) :
    DailyKept w app now ↔ w.taken.NothingBooked w.row.at_ := by
  have snapshots := LedgerState.run_snapshots
    (P := fun w => w.row.dailyPnl = w.taken.dailyPnl w.row.at_) (fun _ _ _ => rfl) run
  have row := snapshots.stored w (LedgerTables.mem_of_latest last)
  have fresh : app.portfolio.dailyPnl now = 0 := by
    rw [recovered]
    exact Portfolio.recover_dailyPnl startingCash restart now _
  rw [← Portfolio.dailyPnl_zero_iff, ← row]
  constructor
  · intro kept
    rw [← kept.figure]
    exact fresh
  · intro zero
    exact .of_figure row sameDay (fresh.trans zero.symm)

/-- The application that comes up with a recovered portfolio. -/
def AppState.restarted (startingCash : Usd) (restart : DateTime) (t : LedgerTables) : AppState :=
  { AppState.sample with portfolio := (Portfolio.new startingCash restart).recover t.recover }

/-- Ten shares bought at 0.5; half of them are sold with a profit, and half with the same loss, and
a snapshot of it is written. -/
def breakEvenDay : List LedgerEvent :=
  let trade (side : Side) (n : Nat) (px : Decimal) : LedgerEvent := .portfolio (.applyFill
    { Fill.oneShare 0 0 with side := side, quantity := .whole n, price := .saturating px } "Yes")
  [trade .buy 10 (1 / 2), trade .sell 5 (3 / 5), trade .sell 5 (2 / 5), .snapshotTaken 0 0,
    .snapshotWritten 0 true]

theorem restart_keeps_daily_breakEven : ∃ s w,
    Run LedgerState.step Anywhere (.start 1000 0) breakEvenDay s ∧ s.tables.latest = some w ∧
      w.taken.NothingBooked w.row.at_ ∧ DailyKept w (.restarted 1000 1 s.tables) 2 := by
  have ran : (breakEvenDay.foldlM (fun s e => if Anywhere s e then LedgerState.step s e else none)
      (.start 1000 0)).any (fun s => s.tables.latest.any fun w =>
        w.taken.NothingBooked w.row.at_ ∧ dayNumber 2 = dayNumber w.row.at_) = true := by
    decide +kernel
  obtain ⟨s, executed, found⟩ := (Option.any_eq_true _ _).mp ran
  obtain ⟨w, last, day⟩ := (Option.any_eq_true _ _).mp found
  obtain ⟨nothing, sameDay⟩ := of_decide_eq_true day
  have run := run_of_foldlM executed
  exact ⟨s, w, run, last, nothing,
    (restart_keeps_daily_iff run last sameDay rfl).mpr nothing⟩

/-- A loss of 1, and a snapshot of it, written. -/
def losingDay : List LedgerEvent :=
  [.portfolio (.applyFill (.oneShare 0 1) "Yes"), .snapshotTaken 0 0, .snapshotWritten 0 true]

/-- After the loss of the day is stored, a restart on that day starts from zero. -/
theorem restart_forgets_daily_loss : ¬ ∀ (startingCash : Usd) (began restart now : DateTime)
    (es : List LedgerEvent) (s : LedgerState) (w : StoredSnapshot) (app : AppState),
    Run LedgerState.step Anywhere (.start startingCash began) es s → s.tables.latest = some w →
    dayNumber now = dayNumber w.row.at_ →
    app.portfolio = (Portfolio.new startingCash restart).recover s.tables.recover →
    DailyKept w app now := by
  intro claim
  have ran : (losingDay.foldlM (fun s e => if Anywhere s e then LedgerState.step s e else none)
      (.start 1000 0)).any (fun s => s.tables.latest.any fun w =>
        w.row.dailyPnl = -1 ∧ dayNumber 2 = dayNumber w.row.at_) = true := by
    decide +kernel
  obtain ⟨s, executed, found⟩ := (Option.any_eq_true _ _).mp ran
  obtain ⟨w, last, day⟩ := (Option.any_eq_true _ _).mp found
  obtain ⟨loss, sameDay⟩ := of_decide_eq_true day
  have kept := claim 1000 0 1 2 _ s w (.restarted 1000 1 s.tables) (run_of_foldlM executed) last
    sameDay rfl
  have figure := kept.figure
  rw [loss] at figure
  have fresh := Portfolio.recover_dailyPnl 1000 1 2 s.tables.recover
  have same : (0 : Usd) = -1 := fresh.symm.trans figure
  norm_num at same

end CopyTrading
