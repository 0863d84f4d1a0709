import CopyTrading.Dashboard
import CopyTrading.Holders
import CopyTrading.StoredRuns

namespace CopyTrading

open Holders RecentWindow StepRun

/-- What one segment of a call can end in. -/
inductive Stage.Leads : Stage → Stage → Prop
  | ends {trade : SourceTrade} : Leads (.inserted trade) .done
  | fetches {trade : SourceTrade} {wallet : TargetWallet} :
      Leads (.inserted trade) (.fetching trade wallet)
  | prices {trade : SourceTrade} {wallet : TargetWallet} {signal : CopySignal}
      {book : Option OrderBook} (copies : signal.correlationId = trade.correlationId)
      (some_ : signal.copyQuantity.isZero = false) :
      Leads (.inserted trade) (.signalled trade wallet signal book)
  | endsFetched {trade : SourceTrade} {wallet : TargetWallet} :
      Leads (.fetching trade wallet) .done
  | pricesFetched {trade : SourceTrade} {wallet : TargetWallet} {signal : CopySignal}
      {book : Option OrderBook} (copies : signal.correlationId = trade.correlationId)
      (some_ : signal.copyQuantity.isZero = false) :
      Leads (.fetching trade wallet) (.signalled trade wallet signal book)
  | refuses {trade : SourceTrade} {wallet : TargetWallet} {signal : CopySignal}
      {book : Option OrderBook} {r : RiskRejection} :
      Leads (.signalled trade wallet signal book) (.refused signal r)
  | empty {trade : SourceTrade} {wallet : TargetWallet} {signal : CopySignal}
      {book : Option OrderBook} (none_ : signal.copyQuantity.isZero = true) :
      Leads (.signalled trade wallet signal book) .done
  | submits {trade : SourceTrade} {wallet : TargetWallet} {signal : CopySignal}
      {book : Option OrderBook} {order : Order} :
      Leads (.signalled trade wallet signal book) (.submitting signal order)
  | reports {signal : CopySignal} {r : RiskRejection} : Leads (.refused signal r) .done
  | books {signal : CopySignal} {f : Fill} {fs : List Fill} :
      Leads (.booking signal (f :: fs)) (.booking signal fs)
  | concludes {signal : CopySignal} : Leads (.booking signal []) .done

namespace AppState

variable {cfg : StrategyConfig} {app app' : AppState} {env : CallEnv} {next : Stage}

/-- The strategy gives a signal for something, which copies the trade, or ends the call. -/
theorem toSignal_cases {trade : SourceTrade} {wallet : TargetWallet} {book : Option OrderBook}
    (h : app.toSignal cfg trade wallet book env = (app', next)) :
    next = .done ∨ ∃ signal : CopySignal, next = .signalled trade wallet signal book ∧
      signal.correlationId = trade.correlationId ∧ signal.copyQuantity.isZero = false := by
  unfold toSignal priced at h
  split at h
  next signal eq =>
    split at eq
    next signal' generated =>
      cases eq
      cases h
      obtain ⟨_, _, corr⟩ := CopyTrader.onSourceTrade_ok_copies generated
      exact .inr ⟨signal, rfl, corr, CopyTrader.onSourceTrade_ok_pos generated⟩
    next => cases eq
  next => cases h; exact .inl rfl

theorem advance_leads {stage : Stage} (h : app.advance cfg env stage = some (app', next)) :
    stage.Leads next := by
  cases stage with
  | inserted trade =>
    simp only [advance, received] at h
    split at h
    next => cases h; exact .ends
    next =>
      split at h
      next =>
        rcases toSignal_cases (Option.some.inj h) with rfl | ⟨signal, rfl, copies, some_⟩
        · exact .ends
        · exact .prices copies some_
      next => cases h; exact .fetches
  | fetching trade wallet =>
    rcases toSignal_cases (Option.some.inj h) with rfl | ⟨signal, rfl, copies, some_⟩
    · exact .endsFetched
    · exact .pricesFetched copies some_
  | signalled trade wallet signal book =>
    have cases_ := app.decide_cases trade wallet signal book env.orderId env.decidedAt
    simp only [advance] at h
    split at h
    next => cases h; exact .refuses
    next eq =>
      rw [eq] at cases_
      cases h
      rcases cases_ with ⟨_, _, other, _⟩ | ⟨_, ⟨none_, _⟩ | ⟨_, other, _⟩⟩
      · cases other
      · exact .empty none_
      · cases other
    next => cases h; exact .submits
  | refused signal r => cases h; exact .reports
  | submitting signal order => cases h
  | booking signal fills =>
    cases fills with
    | nil => cases h; exact .concludes
    | cons f fs => cases h; exact .books
  | done => cases h

end AppState

namespace Fate

/-- What the row of a copy shows in the end. -/
def show_ : Fate → CopyRow → CopyRow
  | .refused r, row => row.refused r
  | .acknowledged o, row => row.executed o row.sourcePrice row.side
  | .rejected, row => row.withStatus "REJECTED"
  | .unknown, row => row.withStatus "UNKNOWN"
  | .open_, row | .unregistered, row | .sent, row => row

/-- The call has come to its end with a verdict. -/
def isFinal : Fate → Bool
  | .refused _ | .acknowledged _ | .rejected | .unknown => true
  | .open_ | .unregistered | .sent => false

theorem show_correlationId (fate : Fate) (row : CopyRow) :
    (fate.show_ row).correlationId = row.correlationId := by
  cases fate <;> rfl

theorem show_status {fate : Fate} (final : fate.isFinal) (row : CopyRow) :
    (fate.show_ row).status ≠ "SIGNAL" := by
  cases fate with
  | refused r =>
    intro same
    have texts := congrArg String.toList same
    simp [show_, CopyRow.refused] at texts
  | acknowledged o =>
    show o.state.asStr ≠ "SIGNAL"
    cases o.state <;> decide
  | rejected => simp [show_, CopyRow.withStatus]
  | unknown => simp [show_, CopyRow.withStatus]
  | open_ => cases final
  | unregistered => cases final
  | sent => cases final

end Fate

namespace CopyCall

/-- The row of a call as the dashboard is to show it. -/
def view (call : CopyCall) : Option CopyRow :=
  call.row.map fun row => if call.stage.isDone then call.fate.show_ row else row

/-- The call has put the row of its signal on the dashboard. -/
structure Rowed (call : CopyCall) (row : CopyRow) (signal : CopySignal) : Prop where
  held : call.row = some row
  corr : row.correlationId = call.trade.correlationId
  copies : signal.correlationId = call.trade.correlationId
  price : row.sourcePrice = signal.targetPrice
  side : row.side = signal.side
  status : row.status = "SIGNAL"

/-- What a call knows at each of its stages. -/
def Coherent (call : CopyCall) : Prop :=
  match call.stage with
  | .inserted trade | .fetching trade _ =>
    trade = call.trade ∧ call.row = none ∧ call.fate = .open_
  | .signalled trade _ signal _ => trade = call.trade ∧ call.row = none ∧ call.fate = .open_ ∧
    signal.correlationId = trade.correlationId ∧ signal.copyQuantity.isZero = false
  | .refused signal r => (∃ row, call.Rowed row signal) ∧ call.fate = .refused r
  | .submitting signal _ => (∃ row, call.Rowed row signal) ∧ call.fate = .sent
  | .booking signal _ => (∃ row, call.Rowed row signal) ∧
    ∃ o, call.orderRow = some o ∧ call.fate = .acknowledged o
  | .done => (call.row = none ∧ call.fate = .open_) ∨
    (∃ row signal, call.Rowed row signal) ∧ call.fate.isFinal

/-- A row is of the trade of its call, and says so until there is a verdict. -/
theorem Coherent.row {call : CopyCall} (h : call.Coherent) {row : CopyRow}
    (held : call.row = some row) :
    row.correlationId = call.trade.correlationId ∧ row.status = "SIGNAL" ∧
      (call.stage.isDone = true → call.fate.isFinal = true) := by
  have rowed : ∀ {row' signal}, call.Rowed row' signal →
      row.correlationId = call.trade.correlationId ∧ row.status = "SIGNAL" := by
    intro row' signal rowed
    cases held.symm.trans rowed.held
    exact ⟨rowed.corr, rowed.status⟩
  unfold Coherent at h
  cases stage : call.stage with
  | inserted trade | fetching trade wallet =>
    rw [stage] at h
    cases held.symm.trans h.2.1
  | signalled trade wallet signal book =>
    rw [stage] at h
    cases held.symm.trans h.2.1
  | refused signal r =>
    rw [stage] at h
    obtain ⟨⟨row', of⟩, _⟩ := h
    exact ⟨(rowed of).1, (rowed of).2, nofun⟩
  | submitting signal order =>
    rw [stage] at h
    obtain ⟨⟨row', of⟩, _⟩ := h
    exact ⟨(rowed of).1, (rowed of).2, nofun⟩
  | booking signal fills =>
    rw [stage] at h
    obtain ⟨⟨row', of⟩, _⟩ := h
    exact ⟨(rowed of).1, (rowed of).2, nofun⟩
  | done =>
    rw [stage] at h
    rcases h with ⟨none_, _⟩ | ⟨⟨row', signal, of⟩, final⟩
    · cases held.symm.trans none_
    · exact ⟨(rowed of).1, (rowed of).2, fun _ => final⟩

/-- A row says that its copy is under way exactly as long as it is. -/
theorem Coherent.status_iff {call : CopyCall} (h : call.Coherent) {row : CopyRow}
    (seen : call.view = some row) : row.status = "SIGNAL" ↔ call.stage.isDone = false := by
  obtain ⟨row', held, rfl⟩ := Option.map_eq_some_iff.mp seen
  obtain ⟨_, underway, final⟩ := h.row held
  cases done : call.stage.isDone with
  | true =>
    simp only [if_true, Bool.true_eq_false, iff_false]
    exact Fate.show_status (final done) row'
  | false => simp only [Bool.false_eq_true, if_false, iff_true]; exact underway

theorem Coherent.view_correlationId {call : CopyCall} (h : call.Coherent) {row : CopyRow}
    (seen : call.view = some row) : row.correlationId = call.trade.correlationId := by
  obtain ⟨row', held, rfl⟩ := Option.map_eq_some_iff.mp seen
  obtain ⟨corr, _⟩ := h.row held
  split
  · rw [Fate.show_correlationId, corr]
  · exact corr

end CopyCall

namespace DeskRun

/-- What a call would show, by its place. -/
def viewAt (s : DeskRun) (i : Nat) : Option CopyRow := heldAt CopyCall.view s.calls i

def tradeOf (call : CopyCall) : Option SourceTrade := some call.trade

/-- The dashboard keeps the latest of the rows that the calls are to show. -/
structure Shows (s : DeskRun) : Prop where
  coherent : ∀ call ∈ s.calls, call.Coherent
  apart : Apart tradeOf SourceTrade.correlationId s.calls
  nodup : s.shown.Nodup
  rowed : ∀ i, i ∈ s.shown ↔ (s.viewAt i).isSome
  copies : s.recent.copies = (s.shown.filterMap s.viewAt).take s.recent.cap

theorem Shows.start (app : AppState) (cap : Nat) : (start app cap).Shows := by
  refine ⟨List.forall_mem_nil _, .nil, List.nodup_nil, ?_, ?_⟩
  · intro i
    exact iff_of_false List.not_mem_nil Bool.false_ne_true
  · exact List.take_nil.symm

/-- One call has moved on. -/
structure Replaced (s s' : DeskRun) (i : Nat) (old new : CopyCall) : Prop where
  here : s.calls[i]? = some old
  calls : s'.calls = s.calls.set i new
  cap : s'.recent.cap = s.recent.cap
  coherent : new.Coherent
  trade : new.trade = old.trade

variable {s s' : DeskRun} {i : Nat} {old new : CopyCall}

theorem Replaced.viewAt (h : Replaced s s' i old new) (j : Nat) :
    s'.viewAt j = if i = j then new.view else s.viewAt j := by
  unfold DeskRun.viewAt
  rw [h.calls, heldAt_set h.here]

theorem Replaced.all_coherent (h : Replaced s s' i old new) (before : s.Shows) :
    ∀ call ∈ s'.calls, call.Coherent := by
  intro call mem
  rw [h.calls] at mem
  rcases List.mem_or_eq_of_mem_set mem with old_ | rfl
  · exact before.coherent call old_
  · exact h.coherent

theorem Replaced.apart (h : Replaced s s' i old new) (before : s.Shows) :
    Apart tradeOf SourceTrade.correlationId s'.calls := by
  rw [h.calls]
  refine before.apart.set h.here fun trade takes => .inl ?_
  rw [← takes]
  exact congrArg some h.trade.symm

theorem Shows.kept (before : s.Shows) (h : Replaced s s' i old new) (view : new.view = old.view)
    (copies : s'.recent.copies = s.recent.copies) (shown : s'.shown = s.shown) : s'.Shows := by
  have same : s'.viewAt = s.viewAt := by
    funext j
    rw [h.viewAt]
    split
    next at_ =>
      subst at_
      exact view.trans (heldAt_of_get h.here).symm
    next => rfl
  refine ⟨h.all_coherent before, h.apart before, ?_, ?_, ?_⟩
  · rw [shown]
    exact before.nodup
  · rw [shown, same]
    exact before.rowed
  · rw [copies, shown, same, h.cap]
    exact before.copies

/-- A row is put in front of the others. -/
theorem Shows.added (before : s.Shows) (h : Replaced s s' i old new) {row : CopyRow}
    (fresh : old.view = none) (view : new.view = some row)
    (copies : s'.recent.copies = push s.recent.cap row s.recent.copies)
    (shown : s'.shown = i :: s.shown) : s'.Shows := by
  have absent : i ∉ s.shown := by
    intro mem
    have some_ := (before.rowed i).mp mem
    rw [DeskRun.viewAt, heldAt_of_get h.here, fresh] at some_
    cases some_
  have own : s'.viewAt i = some row := by rw [h.viewAt, if_pos rfl, view]
  have others : ∀ j ∈ s.shown, s'.viewAt j = s.viewAt j := by
    intro j mem
    have ne : i ≠ j := fun eq => absent (eq ▸ mem)
    rw [h.viewAt, if_neg ne]
  refine ⟨h.all_coherent before, h.apart before, ?_, ?_, ?_⟩
  · rw [shown]
    exact List.nodup_cons.mpr ⟨absent, before.nodup⟩
  · intro j
    rw [shown, List.mem_cons, h.viewAt]
    split
    next at_ => simp [at_, view]
    next ne => rw [before.rowed j, or_iff_right (Ne.symm ne)]
  · rw [copies, before.copies, push_take, shown, List.filterMap_cons_some own, h.cap,
      List.filterMap_congr others]
    rfl

/-- The row of a call is found by its correlation id. -/
theorem Shows.amended (before : s.Shows) (h : Replaced s s' i old new) {row : CopyRow}
    {f : CopyRow → CopyRow} (held : old.view = some row) (view : new.view = some (f row))
    (copies : s'.recent.copies =
      amend (fun c => c.correlationId = old.trade.correlationId) f s.recent.copies)
    (shown : s'.shown = s.shown) : s'.Shows := by
  have was : s.viewAt i = some row := (heldAt_of_get h.here).trans held
  have now : s'.viewAt i = (s.viewAt i).map f := by
    rw [h.viewAt, if_pos rfl, view, was, Option.map_some]
  have others : ∀ j, j ≠ i → s'.viewAt j = s.viewAt j := by
    intro j ne
    rw [h.viewAt, if_neg ne.symm]
  have alone : ∀ j ∈ s.shown, ∀ x, s.viewAt j = some x →
      (decide (x.correlationId = old.trade.correlationId) = true ↔ j = i) := by
    intro j _ x seen
    obtain ⟨call, there, sees⟩ := Option.bind_eq_some_iff.mp seen
    have corr := (before.coherent call (List.mem_of_getElem? there)).view_correlationId sees
    rw [decide_eq_true_iff, corr]
    constructor
    · intro same
      exact before.apart j i call.trade old.trade (heldAt_of_get there) (heldAt_of_get h.here) same
    · rintro rfl
      cases there.symm.trans h.here
      rfl
  refine ⟨h.all_coherent before, h.apart before, ?_, ?_, ?_⟩
  · rw [shown]
    exact before.nodup
  · intro j
    rw [shown, before.rowed j, h.viewAt]
    split
    next at_ =>
      subst at_
      rw [was, view]
      rfl
    next => rfl
  · rw [copies, before.copies, amend_take, amend_filterMap before.nodup alone now others, shown,
      h.cap]

/-- The correlation id of a trade that is handed in is new. -/
def NewTrade (s : DeskRun) : DeskEvent → Prop
  | .spawn _ trade => ∀ call ∈ s.calls, call.trade.correlationId ≠ trade.correlationId
  | _ => True

instance (s : DeskRun) : ∀ e, Decidable (s.NewTrade e)
  | .spawn _ trade => inferInstanceAs
    (Decidable (∀ call ∈ s.calls, call.trade.correlationId ≠ trade.correlationId))
  | .advance .. | .answer .. | .elsewhere .. => isTrue trivial

theorem Shows.spawn (h : s.Shows) (executed : Bool) {trade : SourceTrade}
    (new : ∀ call ∈ s.calls, call.trade.correlationId ≠ trade.correlationId) :
    (s.spawn executed trade).Shows := by
  have same : (s.spawn executed trade).viewAt = s.viewAt := by
    funext j
    exact heldAt_concat_idle rfl j
  refine ⟨?_, ?_, h.nodup, ?_, ?_⟩
  · intro call mem
    rcases List.mem_append.mp mem with before | last
    · exact h.coherent call before
    · cases List.mem_singleton.mp last
      exact ⟨rfl, rfl, rfl⟩
  · refine h.apart.concat fun t takes j t' held => ?_
    cases takes
    obtain ⟨call, mem, eq⟩ := heldAt_mem held
    cases eq
    exact new call mem
  · intro j
    rw [same]
    exact h.rowed j
  · rw [same]
    exact h.copies

theorem Shows.advance {cfg : StrategyConfig} {env : CallEnv} (h : s.Shows)
    (taken : s.advance cfg i env = some s') : s'.Shows := by
  unfold DeskRun.advance at taken
  split at taken
  next => cases taken
  next call here =>
    obtain ⟨⟨app, next⟩, advanced, eq⟩ := Option.map_eq_some_iff.mp taken
    cases eq
    have coherent := h.coherent call (List.mem_of_getElem? here)
    have leads := AppState.advance_leads advanced
    obtain ⟨stage, trade, orderRow, uncounted, row, fate⟩ := call
    cases leads with
    | ends =>
      obtain ⟨rfl, rfl, rfl⟩ := coherent
      exact h.kept ⟨here, rfl, rfl, .inl ⟨rfl, rfl⟩, rfl⟩ rfl rfl rfl
    | fetches =>
      obtain ⟨rfl, rfl, rfl⟩ := coherent
      exact h.kept ⟨here, rfl, rfl, ⟨rfl, rfl, rfl⟩, rfl⟩ rfl rfl rfl
    | prices copies some_ =>
      obtain ⟨rfl, rfl, rfl⟩ := coherent
      exact h.kept ⟨here, rfl, rfl, ⟨rfl, rfl, rfl, copies, some_⟩, rfl⟩ rfl rfl rfl
    | endsFetched =>
      obtain ⟨rfl, rfl, rfl⟩ := coherent
      exact h.kept ⟨here, rfl, rfl, .inl ⟨rfl, rfl⟩, rfl⟩ rfl rfl rfl
    | pricesFetched copies some_ =>
      obtain ⟨rfl, rfl, rfl⟩ := coherent
      exact h.kept ⟨here, rfl, rfl, ⟨rfl, rfl, rfl, copies, some_⟩, rfl⟩ rfl rfl rfl
    | refuses =>
      obtain ⟨rfl, rfl, rfl, copies, _⟩ := coherent
      exact h.added
        ⟨here, rfl, rfl, ⟨⟨_, rfl, copies, copies, rfl, rfl, rfl⟩, rfl⟩, rfl⟩ rfl rfl rfl rfl
    | empty none_ =>
      obtain ⟨_, _, _, _, some_⟩ := coherent
      cases none_.symm.trans some_
    | submits =>
      obtain ⟨rfl, rfl, rfl, copies, _⟩ := coherent
      exact h.added
        ⟨here, rfl, rfl, ⟨⟨_, rfl, copies, copies, rfl, rfl, rfl⟩, rfl⟩, rfl⟩ rfl rfl rfl rfl
    | @reports signal r =>
      obtain ⟨⟨row', of⟩, rfl⟩ := coherent
      obtain ⟨rfl, corr, copies, price, side, status⟩ := of
      refine h.amended (f := .refused r)
        ⟨here, rfl, rfl, .inr ⟨⟨row', signal, ?_⟩, rfl⟩, rfl⟩ rfl rfl ?_ rfl
      · exact ⟨rfl, corr, copies, price, side, status⟩
      · rw [← copies]
        rfl
    | books =>
      obtain ⟨⟨row', of⟩, o, held, rfl⟩ := coherent
      obtain ⟨rfl, corr, copies, price, side, status⟩ := of
      exact h.kept
        ⟨here, rfl, rfl, ⟨⟨row', rfl, corr, copies, price, side, status⟩, o, held, rfl⟩, rfl⟩
        rfl rfl rfl
    | @concludes signal =>
      obtain ⟨⟨row', of⟩, o, rfl, rfl⟩ := coherent
      obtain ⟨rfl, corr, copies, price, side, status⟩ := of
      refine h.amended (f := .executed o signal.targetPrice signal.side)
        ⟨here, rfl, rfl, .inr ⟨⟨row', signal, ?_⟩, rfl⟩, rfl⟩ rfl ?_ ?_ rfl
      · exact ⟨rfl, corr, copies, price, side, status⟩
      · show some (row'.executed o row'.sourcePrice row'.side) = _
        rw [price, side]
        rfl
      · rw [← copies]
        rfl

/-- The three outcomes of a submission; `o` is the order that was written back. -/
inductive Answers (s : DeskRun) (i : Nat) (call : CopyCall) (signal : CopySignal) (o : Order) :
    DeskRun → Prop
  | acknowledged {app : AppState} {fills : List Fill} : Answers s i call signal o { s with
      app := app
      calls := s.calls.set i { call with
        stage := .booking signal fills
        orderRow := some o
        fate := .acknowledged o }
      metrics := { s.metrics with
        ordersAcknowledgedTotal := s.metrics.ordersAcknowledgedTotal + 1
        latency := s.metrics.latency.recordAll o.latency } }
  | rejected {app : AppState} : Answers s i call signal o { s with
      app := app
      calls := s.calls.set i { call with stage := .done, fate := .rejected }
      recent := s.recent.updateCopy signal.correlationId (.withStatus "REJECTED")
      metrics := { s.metrics with ordersRejectedTotal := s.metrics.ordersRejectedTotal + 1 } }
  | unknown {app : AppState} : Answers s i call signal o { s with
      app := app
      calls := s.calls.set i { call with stage := .done, fate := .unknown }
      recent := s.recent.updateCopy signal.correlationId (.withStatus "UNKNOWN") }

theorem answer_cases {response : Except ExecutionError Acknowledgement} {now : DateTime}
    (taken : s.answer i response now = some s') :
    ∃ call signal order, s.calls[i]? = some call ∧ call.stage = .submitting signal order ∧
      Answers s i call signal (order.answered response now) s' := by
  unfold DeskRun.answer at taken
  split at taken
  next => cases taken
  next call here =>
    split at taken
    next signal order stage =>
      obtain ⟨_, _, orders⟩ := s.app.answer_spec signal order response now
      have held := OrderManager.get_insert orders order.id
      rw [if_pos rfl] at held
      refine ⟨call, signal, order, here, stage, ?_⟩
      unfold AppState.answer at taken held
      generalize s.app.answered order response now = answered at taken held
      obtain ⟨outcome, app⟩ := answered
      cases outcome with
      | acknowledged id fills =>
        simp only [held] at taken
        cases taken
        exact .acknowledged
      | rejected id e => cases taken; exact .rejected
      | ambiguous id e => cases taken; exact .unknown
    next => cases taken

theorem Shows.answer {response : Except ExecutionError Acknowledgement} {now : DateTime}
    (h : s.Shows) (taken : s.answer i response now = some s') : s'.Shows := by
  obtain ⟨call, signal, order, here, stage, answers⟩ := answer_cases taken
  have coherent := h.coherent call (List.mem_of_getElem? here)
  obtain ⟨_, trade, orderRow, uncounted, row, fate⟩ := call
  cases stage
  obtain ⟨⟨row, of⟩, rfl⟩ := coherent
  obtain ⟨rfl, corr, copies, price, side, status⟩ := of
  cases answers with
  | acknowledged =>
    exact h.kept
      ⟨here, rfl, rfl, ⟨⟨row, rfl, corr, copies, price, side, status⟩, _, rfl, rfl⟩, rfl⟩
      rfl rfl rfl
  | rejected =>
    refine h.amended (f := .withStatus "REJECTED")
      ⟨here, rfl, rfl, .inr ⟨⟨row, signal, ?_⟩, rfl⟩, rfl⟩ rfl rfl ?_ rfl
    · exact ⟨rfl, corr, copies, price, side, status⟩
    · rw [← copies]
      rfl
  | unknown =>
    refine h.amended (f := .withStatus "UNKNOWN")
      ⟨here, rfl, rfl, .inr ⟨⟨row, signal, ?_⟩, rfl⟩, rfl⟩ rfl rfl ?_ rfl
    · exact ⟨rfl, corr, copies, price, side, status⟩
    · rw [← copies]
      rfl

theorem Shows.step {cfg : StrategyConfig} {e : DeskEvent} (h : s.Shows) (new : s.NewTrade e)
    (taken : s.step cfg e = some s') : s'.Shows := by
  cases e with
  | spawn executed trade => cases taken; exact h.spawn executed new
  | advance i env => exact h.advance taken
  | answer i response now => exact h.answer taken
  | elsewhere app skipped filled activations =>
    cases taken
    exact ⟨h.coherent, h.apart, h.nodup, h.rowed, h.copies⟩

theorem recent_cap_advance (r : RecentActivity) (call : CopyCall) (env : CallEnv) :
    (r.advance call env).cap = r.cap := by
  unfold RecentActivity.advance
  split
  · rfl
  · rfl
  · split <;> rfl
  · rfl

theorem recent_cap {cfg : StrategyConfig} {e : DeskEvent} (taken : s.step cfg e = some s') :
    s'.recent.cap = s.recent.cap := by
  cases e with
  | spawn executed trade => cases taken; rfl
  | advance i env =>
    simp only [DeskRun.step, DeskRun.advance] at taken
    split at taken
    next => cases taken
    next call here =>
      obtain ⟨_, _, eq⟩ := Option.map_eq_some_iff.mp taken
      cases eq
      exact recent_cap_advance s.recent call env
  | answer i response now =>
    obtain ⟨_, _, _, _, _, answers⟩ := answer_cases taken
    cases answers <;> rfl
  | elsewhere app skipped filled activations => cases taken; rfl

/-- Whatever calls run at once: the dashboard is given the rows of the latest signals, each as its
own call left it. A row says that its copy is under way exactly as long as the call runs, and in the
end shows the verdict of the risk engine or the answer of the venue. -/
theorem dashboard_shows_latest {cfg : StrategyConfig} {app : AppState} {cap : Nat}
    {es : List DeskEvent} (run : Run (DeskRun.step cfg) NewTrade (.start app cap) es s) (n : Nat) :
    s.recent.copiesUpTo n = (s.shown.filterMap s.viewAt).take (min n cap) ∧
      ∀ i ∈ s.shown, ∃ call row, s.calls[i]? = some call ∧ s.viewAt i = some row ∧
        row.correlationId = call.trade.correlationId ∧
        (row.status = "SIGNAL" ↔ call.stage.isDone = false) ∧
        (call.stage.isDone = true → call.fate.isFinal = true) := by
  obtain ⟨shows, kept⟩ : s.Shows ∧ s.recent.cap = cap := by
    refine run.keeps (I := fun s => s.Shows ∧ s.recent.cap = cap) ?_ ⟨.start app cap, rfl⟩
    rintro t e u ⟨shows, kept⟩ new taken
    exact ⟨shows.step new taken, (recent_cap taken).trans kept⟩
  constructor
  · unfold RecentActivity.copiesUpTo
    rw [shows.copies, List.take_take, kept]
  · intro i mem
    obtain ⟨row, seen⟩ := Option.isSome_iff_exists.mp ((shows.rowed i).mp mem)
    obtain ⟨call, here, view⟩ := Option.bind_eq_some_iff.mp seen
    have coherent := shows.coherent call (List.mem_of_getElem? here)
    obtain ⟨row', held, _⟩ := Option.map_eq_some_iff.mp view
    obtain ⟨_, _, final⟩ := coherent.row held
    exact ⟨call, row, here, seen, coherent.view_correlationId view, coherent.status_iff view, final⟩

/-- One copy is acknowledged, a later one is with the adapter. -/
def twoCopies : List DeskEvent :=
  [.spawn true .sample, .advance 0 (.drawing 0), .advance 0 (.drawing 0),
    .spawn true { SourceTrade.sample with correlationId := ⟨1⟩ }, .advance 0 (.drawing 1),
    .advance 1 (.drawing 2), .answer 0 (.ok ⟨⟨1⟩, none, 0, [], false⟩) 0,
    .advance 1 (.drawing 2), .advance 1 (.drawing 3), .advance 0 (.drawing 1)]

theorem dashboard_shows_latest_twoCopies : ∃ s,
    Run (DeskRun.step .default) NewTrade (.start .sample 2) twoCopies s ∧
      s.recent.copiesUpTo 1 = (s.shown.filterMap s.viewAt).take 1 ∧
      s.recent.copies.map CopyRow.status = ["SIGNAL", "ACKNOWLEDGED"] := by
  have ran : (twoCopies.foldlM (fun s e => if NewTrade s e then DeskRun.step .default s e else none)
      (.start .sample 2)).any (fun s =>
        s.recent.copies.map CopyRow.status = ["SIGNAL", "ACKNOWLEDGED"]) = true := by
    decide +kernel
  obtain ⟨s, executed, statuses⟩ := (Option.any_eq_true _ _).mp ran
  have run := run_of_foldlM executed
  exact ⟨s, run, (dashboard_shows_latest run 1).1, of_decide_eq_true statuses⟩

end DeskRun

end CopyTrading
