import CopyTrading.ApiAudit
import CopyTrading.SourceEvents

namespace CopyTrading

def marketTexts (ms : List MarketId) : List String := ms.map MarketId.asStr

def readMarkets (texts : List String) : List MarketId :=
  texts.filterMap fun m => (MarketId.new m).toOption

/-- What the columns keep of a wallet. -/
def TargetWallet.columns (w : TargetWallet) : TargetWallet :=
  { w with
    maxTradeUsd := numeric 6 w.maxTradeUsd
    maxExposureUsd := numeric 6 w.maxExposureUsd
    minTradeUsd := numeric 6 w.minTradeUsd
    minSourceNotionalUsd := numeric 6 w.minSourceNotionalUsd
    allowedMarkets := readMarkets (marketTexts w.allowedMarkets)
    blockedMarkets := readMarkets (marketTexts w.blockedMarkets) }

/-- `SELECT * FROM target_wallets` -/
def loadWallets (rows : AList fun _ : Address => TargetWallet) : List TargetWallet :=
  rows.values.map TargetWallet.columns

theorem readMarkets_marketTexts (ms : List MarketId) : readMarkets (marketTexts ms) = ms := by
  induction ms with
  | nil => rfl
  | cons m ms ih =>
    have read : (MarketId.new m.asStr).toOption = some m := by rw [m.new_asStr]; rfl
    have first : readMarkets (marketTexts (m :: ms)) = m :: readMarkets (marketTexts ms) :=
      List.filterMap_cons_some read
    rw [first, ih]

/-- The columns only round the amounts. -/
theorem TargetWallet.columns_eq (w : TargetWallet) : w.columns = { w with
    maxTradeUsd := numeric 6 w.maxTradeUsd
    maxExposureUsd := numeric 6 w.maxExposureUsd
    minTradeUsd := numeric 6 w.minTradeUsd
    minSourceNotionalUsd := numeric 6 w.minSourceNotionalUsd } := by
  unfold columns
  rw [readMarkets_marketTexts, readMarkets_marketTexts]

/-- The wallets of a start that finds nothing in the database. -/
def AppConfig.configured (c : AppConfig) : WalletTracker := c.startTracker []

namespace ApiState

variable {A : Type} (adapter : ExecutionAdapter A) (paper : Option (A → A))

/-- A process started over the database that another one leaves. Its wallets are stored again at
once, each write executed; what has nothing to do with wallets is as `fresh` has it. -/
def restart (s : ApiState A) (c : AppConfig) (fresh : ApiState A) : ApiState A :=
  let tracker := c.startTracker (loadWallets s.walletRows)
  { fresh with
    config := c
    tracker := tracker
    walletRows := tracker.listWallets.foldl (fun m w => m.insert w.address w) s.walletRows
    auditLogs := s.auditLogs }

inductive LifeEvent (A : Type)
  | request (r : ApiRequest)
  | restart (c : AppConfig) (fresh : ApiState A)

def LifeEvent.Executed : LifeEvent A → Prop
  | .request r => r.executed = true
  | .restart _ _ => True

def live (s : ApiState A) : LifeEvent A → ApiState A
  | .request r => (s.serve adapter paper r).2
  | .restart c fresh => s.restart c fresh

def liveAll (s : ApiState A) (es : List (LifeEvent A)) : ApiState A :=
  es.foldl (live adapter paper) s

/-- The table holds the tracked wallets and nothing else. -/
structure Stored (s : ApiState A) : Prop where
  keyed : ∀ a w, s.tracker.getWallet a = some w → w.address = a
  same : ∀ a, s.walletRows.lookup a = s.tracker.getWallet a

/-- What a start tracks: the stored wallets, and under other addresses the configured ones. -/
theorem getWallet_startTracker (c : AppConfig) {rows : AList fun _ : Address => TargetWallet}
    (keyed : ∀ a w, rows.lookup a = some w → w.address = a) (a : Address) :
    (c.startTracker (loadWallets rows)).getWallet a =
      ((rows.lookup a).map TargetWallet.columns).or (c.configured.getWallet a) := by
  unfold AppConfig.startTracker WalletTracker.getWallet
  rw [WalletTracker.foldl_upsert]
  exact AList.lookup_foldl_insert_values TargetWallet.address TargetWallet.columns keyed
    (List.Perm.refl _) _ a

theorem keyed_startTracker (c : AppConfig) (ws : List TargetWallet) (a : Address)
    (w : TargetWallet) (tracked : (c.startTracker ws).getWallet a = some w) : w.address = a := by
  unfold AppConfig.startTracker WalletTracker.getWallet at tracked
  rw [WalletTracker.foldl_upsert] at tracked
  refine AList.keyed_foldl_insert TargetWallet.address ?_ ws a w tracked
  refine AList.keyed_foldl_insert TargetWallet.address ?_ _
  intro a w held
  cases held

theorem Stored.restart {s : ApiState A} (h : s.Stored) (c : AppConfig) (fresh : ApiState A) :
    (s.restart c fresh).Stored := by
  have keyed := keyed_startTracker c (loadWallets s.walletRows)
  have rows : ∀ a w, s.walletRows.lookup a = some w → w.address = a :=
    fun a w held => h.keyed a w ((h.same a).symm.trans held)
  refine ⟨keyed, fun a => ?_⟩
  have listed : (c.startTracker (loadWallets s.walletRows)).listWallets.Perm
      ((c.startTracker (loadWallets s.walletRows)).wallets.values.map id) := by
    rw [List.map_id]
    exact List.mergeSort_perm _ _
  have stored := AList.lookup_foldl_insert_values TargetWallet.address id keyed listed
    s.walletRows a
  have tracked := getWallet_startTracker c rows a
  refine stored.trans ?_
  show ((c.startTracker (loadWallets s.walletRows)).getWallet a |>.map id).or _ =
    (c.startTracker (loadWallets s.walletRows)).getWallet a
  rw [Option.map_id, tracked]
  cases s.walletRows.lookup a with
  | some w => rfl
  | none => exact Option.or_none

theorem putWallet_wallets (s : ApiState A) {r : ApiRequest} (executed : r.executed = true)
    (action : String) (answer : Except WalletRefusal TargetWallet) :
    ((s.putWallet r action answer).2.tracker = s.tracker ∧
      (s.putWallet r action answer).2.walletRows = s.walletRows) ∨
    ∃ w, (s.putWallet r action answer).2.tracker = s.tracker.upsertWallet w ∧
      (s.putWallet r action answer).2.walletRows = s.walletRows.insert w.address w := by
  cases answer with
  | error e => exact .inl ⟨rfl, rfl⟩
  | ok w =>
    refine .inr ⟨w, ?_, ?_⟩
    · simp only [putWallet, audit_executed _ executed, storeWallet, if_pos executed]
    · simp only [putWallet, audit_executed _ executed, storeWallet, if_pos executed]

theorem handle_wallets (s : ApiState A) {r : ApiRequest} (executed : r.executed = true) :
    ((s.handle adapter paper r).2.tracker = s.tracker ∧
      (s.handle adapter paper r).2.walletRows = s.walletRows) ∨
    (∃ w, (s.handle adapter paper r).2.tracker = s.tracker.upsertWallet w ∧
      (s.handle adapter paper r).2.walletRows = s.walletRows.insert w.address w) ∨
    ∃ a, (s.handle adapter paper r).2.tracker = (s.tracker.removeWallet a).2 ∧
      (s.handle adapter paper r).2.walletRows = s.walletRows.erase a := by
  unfold handle
  split
  next reason cancel _ =>
    unfold killSwitchEngage
    simp only [audit_executed _ executed]
    cases cancel
    · exact .inl ⟨rfl, rfl⟩
    · exact .inl ⟨rfl, rfl⟩
  next =>
    exact .inl (by simp only [killSwitchReset, audit_executed _ executed, and_self])
  next b _ => exact (s.putWallet_wallets executed _ _).imp_right .inl
  next id b _ => exact (s.putWallet_wallets executed _ _).imp_right .inl
  next id _ =>
    unfold deleteWallet
    split
    next => exact .inl ⟨rfl, rfl⟩
    next a _ =>
      split
      next => exact .inl ⟨rfl, rfl⟩
      next w tracker removed =>
        refine .inr (.inr ⟨a, ?_, ?_⟩)
        · simp only [audit_executed _ executed, if_pos executed, removed]
        · simp only [audit_executed _ executed, if_pos executed]
  next =>
    unfold paperReset
    split
    · exact .inl ⟨rfl, rfl⟩
    · cases paper with
      | none => exact .inl ⟨rfl, rfl⟩
      | some reset => exact .inl (by simp only [audit_executed _ executed, and_self])
  next => exact .inl ⟨rfl, rfl⟩

/-- What a served request does to the wallets, in the tracker and in the table. -/
theorem serve_wallets (s : ApiState A) {r : ApiRequest} (executed : r.executed = true) :
    ((s.serve adapter paper r).2.tracker = s.tracker ∧
      (s.serve adapter paper r).2.walletRows = s.walletRows) ∨
    (∃ w, (s.serve adapter paper r).2.tracker = s.tracker.upsertWallet w ∧
      (s.serve adapter paper r).2.walletRows = s.walletRows.insert w.address w) ∨
    ∃ a, (s.serve adapter paper r).2.tracker = (s.tracker.removeWallet a).2 ∧
      (s.serve adapter paper r).2.walletRows = s.walletRows.erase a := by
  unfold serve
  split
  · split
    · exact .inl ⟨rfl, rfl⟩
    · exact s.handle_wallets adapter paper executed
  · exact s.handle_wallets adapter paper executed

theorem Stored.serve {s : ApiState A} (h : s.Stored) {r : ApiRequest}
    (executed : r.executed = true) : (s.serve adapter paper r).2.Stored := by
  rcases s.serve_wallets adapter paper executed with ⟨tracker, rows⟩ | ⟨w, tracker, rows⟩ |
    ⟨b, tracker, rows⟩
  · refine ⟨?_, ?_⟩
    · rw [tracker]
      exact h.keyed
    · rw [tracker, rows]
      exact h.same
  · refine ⟨?_, fun a => ?_⟩
    · rw [tracker]
      exact AList.keyed_foldl_insert TargetWallet.address h.keyed [w]
    · rw [tracker, rows]
      by_cases here : a = w.address
      · subst here
        exact (AList.lookup_insert _).trans (AList.lookup_insert s.tracker.wallets).symm
      · refine (AList.lookup_insert_ne here).trans ((h.same a).trans ?_)
        exact (AList.lookup_insert_ne here).symm
  · refine ⟨fun a w => ?_, fun a => ?_⟩
    · rw [tracker]
      by_cases here : a = b
      · subst here
        intro held
        rw [WalletTracker.getWallet, WalletTracker.removeWallet, AList.lookup_erase] at held
        cases held
      · intro held
        exact h.keyed a w ((AList.lookup_erase_ne here).symm.trans held)
    · rw [tracker, rows]
      by_cases here : a = b
      · subst here
        exact (AList.lookup_erase _ _).trans (AList.lookup_erase a s.tracker.wallets).symm
      · refine (AList.lookup_erase_ne here).trans ((h.same a).trans ?_)
        exact (AList.lookup_erase_ne here).symm

theorem Stored.liveAll {s : ApiState A} (h : s.Stored) {es : List (LifeEvent A)}
    (executed : ∀ e ∈ es, e.Executed) : (s.liveAll adapter paper es).Stored := by
  induction es generalizing s with
  | nil => exact h
  | cons e es ih =>
    obtain ⟨here, later⟩ := List.forall_mem_cons.mp executed
    cases e with
    | request r => exact ih (h.serve adapter paper here) later
    | restart c fresh => exact ih (h.restart c fresh) later

/-- A process started over an empty database. -/
def firstStart (c : AppConfig) (fresh : ApiState A) : ApiState A :=
  restart { fresh with walletRows := ∅ } c fresh

theorem stored_firstStart (c : AppConfig) (fresh : ApiState A) : (firstStart c fresh).Stored := by
  have empty : Stored { fresh with walletRows := ∅, tracker := .new [] } := by
    refine ⟨?_, fun a => rfl⟩
    intro a w held
    cases held
  exact empty.restart c fresh

/-- Over any lives of the process, its requests and its restarts with whatever configurations, in
which the database executes each write: the next start tracks every wallet that was tracked as it
was, but for the rounding of its amounts, whatever the new configuration says of it, or nothing of
it; and beyond these it tracks the wallets of the new configuration. -/
theorem restart_keeps_wallets (c : AppConfig) (fresh : ApiState A) {es : List (LifeEvent A)}
    (executed : ∀ e ∈ es, e.Executed) (c' : AppConfig) (fresh' : ApiState A) (a : Address) :
    (((firstStart c fresh).liveAll adapter paper es).restart c' fresh').tracker.getWallet a =
      ((((firstStart c fresh).liveAll adapter paper es).tracker.getWallet a).map
        TargetWallet.columns).or (c'.configured.getWallet a) := by
  have stored := (stored_firstStart c fresh).liveAll adapter paper executed
  have rows := fun a w held => stored.keyed a w ((stored.same a).symm.trans held)
  rw [← stored.same a]
  exact getWallet_startTracker c' rows a

/-- A wallet is added that no configuration has. -/
def addThenDrop : List (LifeEvent Unit) :=
  [.request (ask (some "Bearer t") (.addWallet ⟨Address.zero.asStr, some "Whale", none, none, none,
    none, none, none, none, none, none⟩))]

theorem restart_keeps_wallets_addThenDrop :
    let s := (firstStart sampleLive.config sampleLive).liveAll idleAdapter none addThenDrop
    (s.restart sampleLive.config sampleLive).tracker.getWallet .zero =
      ((s.tracker.getWallet .zero).map TargetWallet.columns).or
        (sampleLive.config.configured.getWallet .zero) := by
  have executed : ∀ e ∈ addThenDrop, e.Executed := by
    intro e mem
    cases List.mem_singleton.mp mem
    rfl
  exact restart_keeps_wallets idleAdapter none sampleLive.config sampleLive executed
    sampleLive.config sampleLive .zero

end ApiState

end CopyTrading
