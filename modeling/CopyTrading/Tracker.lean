import CopyTrading.Dedup
import CopyTrading.Wallet

namespace CopyTrading

inductive Detection
  | actionable (trade : SourceTrade)
  | skipped (trader : Address) (reason : SignalSkipReason)
  | notTracked
  deriving DecidableEq

def Detection.isActionable : Detection → Bool
  | .actionable _ => true
  | _ => false

structure TrackerStats where
  framesExamined : Nat
  walletMatches : Nat
  duplicatesSuppressed : Nat
  actionable : Nat
  skipped : Nat
  deriving DecidableEq

structure WalletTracker where
  wallets : AList fun _ : Address => TargetWallet
  dedup : DedupIndex
  stats : TrackerStats

def WalletTracker.new (wallets : List TargetWallet) : WalletTracker where
  wallets := wallets.foldl (fun m w => m.insert w.address w) ∅
  dedup := .default
  stats := ⟨0, 0, 0, 0, 0⟩

def WalletTracker.listWallets (tr : WalletTracker) : List TargetWallet :=
  tr.wallets.values.mergeSort fun a b => a.nickname ≤ b.nickname

def WalletTracker.getWallet (tr : WalletTracker) (a : Address) : Option TargetWallet :=
  tr.wallets.lookup a

def WalletTracker.upsertWallet (tr : WalletTracker) (w : TargetWallet) : WalletTracker :=
  { tr with wallets := tr.wallets.insert w.address w }

def WalletTracker.removeWallet (tr : WalletTracker) (a : Address) :
    Option TargetWallet × WalletTracker :=
  (tr.wallets.lookup a, { tr with wallets := tr.wallets.erase a })

def ParsedTrade.keyOf (t : ParsedTrade) : ContentKey :=
  .new t.txHash t.trader t.tokenId t.side t.price t.quantity

section Observe

variable (digest : List UInt8 → String)

/-- The idempotency stage: the verdict of one of the two delivery paths. -/
def DedupIndex.observe (d : DedupIndex) (t : ParsedTrade) (backfillOrdinal : Option Nat) :
    DedupVerdict × DedupIndex :=
  match backfillOrdinal with
  | some o => d.observeBackfill digest t.keyOf o t.detectedTs
  | none => d.observeLive digest t.keyOf t.detectedTs

/-- One trade through the tracker; `corr` is the correlation id an actionable trade is given. -/
def WalletTracker.observe (tr : WalletTracker) (corr : CorrelationId) (t : ParsedTrade)
    (backfillOrdinal : Option Nat) : Detection × WalletTracker :=
  let stats := { tr.stats with framesExamined := tr.stats.framesExamined + 1 }
  match tr.wallets.lookup t.trader with
  | none => (.notTracked, { tr with stats := stats })
  | some wallet =>
    let stats := { stats with walletMatches := stats.walletMatches + 1 }
    match wallet.admits t.marketId (t.quantity.notional t.price) with
    | .error reason =>
      (.skipped t.trader reason,
        { tr with stats := { stats with skipped := stats.skipped + 1 } })
    | .ok () =>
      match tr.dedup.observe digest t backfillOrdinal with
      | (.new eventId occurrence, dedup) =>
        (.actionable (t.intoSourceTrade corr eventId occurrence),
          { tr with
            dedup := dedup
            stats := { stats with actionable := stats.actionable + 1 } })
      | (.duplicate _ _, dedup) =>
        (.skipped t.trader .duplicateEvent,
          { tr with
            dedup := dedup
            stats := { stats with
              duplicatesSuppressed := stats.duplicatesSuppressed + 1
              skipped := stats.skipped + 1 } })

def WalletTracker.observeLive (tr : WalletTracker) (corr : CorrelationId) (t : ParsedTrade) :
    Detection × WalletTracker :=
  tr.observe digest corr t none

/-- The row's ordinal is taken before any wallet is looked up. -/
def WalletTracker.observeBackfill (tr : WalletTracker) (corr : CorrelationId) (t : ParsedTrade)
    (batch : BatchOrdinals) : Detection × WalletTracker × BatchOrdinals :=
  let (ordinal, batch) := batch.next t.keyOf
  let (detection, tr) := tr.observe digest corr t (some ordinal)
  (detection, tr, batch)

end Observe

def WalletTracker.restoreDedup (tr : WalletTracker) (entries : List (ContentKey × Nat × DateTime)) :
    WalletTracker :=
  { tr with dedup := entries.foldl (fun d e => d.restore e.1 e.2.1 e.2.2) tr.dedup }

def WalletTracker.evictStale (tr : WalletTracker) (now : DateTime) : WalletTracker :=
  { tr with dedup := tr.dedup.evictOlderThan now }

/-- The configured wallet of the trade's trader lets the trade through. -/
def WalletTracker.Admitted (tr : WalletTracker) (t : ParsedTrade) : Prop :=
  ∃ w, tr.wallets.lookup t.trader = some w ∧
    w.admits t.marketId (t.quantity.notional t.price) = .ok ()

instance (tr : WalletTracker) (t : ParsedTrade) : Decidable (tr.Admitted t) :=
  match h : tr.wallets.lookup t.trader with
  | none => isFalse (by rintro ⟨w, tracked, _⟩; rw [h] at tracked; cases tracked)
  | some w =>
    if admits : w.admits t.marketId (t.quantity.notional t.price) = .ok () then
      isTrue ⟨w, h, admits⟩
    else isFalse (by rintro ⟨w', tracked, ok⟩; rw [h] at tracked; cases tracked; exact admits ok)

/-- A trade comes out of the tracker as it went in, with an identity. -/
theorem WalletTracker.observe_actionable {digest : List UInt8 → String} {tr : WalletTracker}
    {corr : CorrelationId} {t : ParsedTrade} {ordinal : Option Nat} {trade : SourceTrade}
    (h : (tr.observe digest corr t ordinal).1 = .actionable trade) :
    ∃ eventId occurrence, trade = t.intoSourceTrade corr eventId occurrence := by
  unfold observe at h
  simp only at h
  split at h
  next => cases h
  next =>
    split at h
    next => cases h
    next =>
      split at h
      next eventId occurrence _ _ =>
        cases h
        exact ⟨eventId, occurrence, rfl⟩
      next => cases h

/-- An admitted trade is actionable exactly when its path's verdict is new. -/
theorem WalletTracker.observe_admitted (digest : List UInt8 → String) {tr : WalletTracker}
    (corr : CorrelationId) {t : ParsedTrade} (ordinal : Option Nat) (h : tr.Admitted t) :
    (tr.observe digest corr t ordinal).1.isActionable =
      (tr.dedup.observe digest t ordinal).1.isNew ∧
    (tr.observe digest corr t ordinal).2.dedup = (tr.dedup.observe digest t ordinal).2 := by
  obtain ⟨w, tracked, admits⟩ := h
  simp only [observe, tracked, admits]
  cases tr.dedup.observe digest t ordinal with
  | mk verdict dedup => cases verdict <;> exact ⟨rfl, rfl⟩

/-- An admitted live row moves its key's count by one if it is actionable, and is below the cap. -/
theorem WalletTracker.observeLive_count (digest : List UInt8 → String) {tr : WalletTracker}
    (corr : CorrelationId) {t : ParsedTrade} (h : tr.Admitted t) :
    ((tr.observeLive digest corr t).1.isActionable = false ∧ 64 ≤ tr.dedup.count t.keyOf ∧
      (tr.observeLive digest corr t).2.dedup.count t.keyOf = tr.dedup.count t.keyOf) ∨
    ((tr.observeLive digest corr t).1.isActionable = true ∧ tr.dedup.count t.keyOf < 64 ∧
      (tr.observeLive digest corr t).2.dedup.count t.keyOf = tr.dedup.count t.keyOf + 1) := by
  obtain ⟨fst, snd⟩ := tr.observe_admitted digest corr none h
  unfold observeLive
  rw [fst, snd]
  show ((tr.dedup.observeLive digest t.keyOf t.detectedTs).1.isNew = false ∧ _ ∧
      (tr.dedup.observeLive digest t.keyOf t.detectedTs).2.count _ = _) ∨
    ((tr.dedup.observeLive digest t.keyOf t.detectedTs).1.isNew = true ∧ _ ∧
      (tr.dedup.observeLive digest t.keyOf t.detectedTs).2.count _ = _)
  rcases tr.dedup.observeLive_cases digest t.keyOf t.detectedTs with ⟨full, eq⟩ | ⟨under, eq⟩
  · exact .inl ⟨by rw [eq]; rfl, full, by rw [eq]; rfl⟩
  · refine .inr ⟨by rw [eq]; rfl, under, ?_⟩
    rw [eq]
    exact (DedupIndex.count_insert ..).trans (if_pos rfl)

/-- An admitted backfilled row is actionable exactly when its ordinal is the next of its key. -/
theorem WalletTracker.observe_ordinal_count (digest : List UInt8 → String) {tr : WalletTracker}
    (corr : CorrelationId) {t : ParsedTrade} (i : Nat) (h : tr.Admitted t) :
    ((tr.observe digest corr t (some i)).1.isActionable = false ∧
      (64 ≤ i ∨ i < tr.dedup.count t.keyOf) ∧
      (tr.observe digest corr t (some i)).2.dedup.count t.keyOf = tr.dedup.count t.keyOf) ∨
    ((tr.observe digest corr t (some i)).1.isActionable = true ∧ i < 64 ∧
      tr.dedup.count t.keyOf ≤ i ∧
      (tr.observe digest corr t (some i)).2.dedup.count t.keyOf = i + 1) := by
  obtain ⟨fst, snd⟩ := tr.observe_admitted digest corr (some i) h
  rw [fst, snd]
  show ((tr.dedup.observeBackfill digest t.keyOf i t.detectedTs).1.isNew = false ∧ _ ∧
      (tr.dedup.observeBackfill digest t.keyOf i t.detectedTs).2.count _ = _) ∨
    ((tr.dedup.observeBackfill digest t.keyOf i t.detectedTs).1.isNew = true ∧ _ ∧ _ ∧
      (tr.dedup.observeBackfill digest t.keyOf i t.detectedTs).2.count _ = _)
  rcases tr.dedup.observeBackfill_cases digest t.keyOf i t.detectedTs with
    ⟨full, eq⟩ | ⟨_, held, eq⟩ | ⟨under, fresh, eq⟩
  · exact .inl ⟨by rw [eq]; rfl, .inl full, by rw [eq]; rfl⟩
  · exact .inl ⟨by rw [eq]; rfl, .inr held, by rw [eq]⟩
  · refine .inr ⟨by rw [eq]; rfl, under, fresh, ?_⟩
    rw [eq]
    exact (DedupIndex.count_insert ..).trans (if_pos rfl)

/-- Observing a trade does not touch the wallet registry, nor the count of another key. -/
theorem WalletTracker.observe_frame (digest : List UInt8 → String) (tr : WalletTracker)
    (corr : CorrelationId) (t : ParsedTrade) (ordinal : Option Nat) :
    (tr.observe digest corr t ordinal).2.wallets = tr.wallets ∧
    ∀ k, k ≠ t.keyOf →
      (tr.observe digest corr t ordinal).2.dedup.count k = tr.dedup.count k := by
  have others : ∀ k, k ≠ t.keyOf →
      (tr.dedup.observe digest t ordinal).2.count k = tr.dedup.count k := by
    intro k other
    cases ordinal with
    | none =>
      show (tr.dedup.observeLive digest t.keyOf t.detectedTs).2.count k = _
      rcases tr.dedup.observeLive_cases digest t.keyOf t.detectedTs with ⟨_, eq⟩ | ⟨_, eq⟩
      · rw [eq]; rfl
      · rw [eq]
        exact (DedupIndex.count_insert ..).trans (if_neg other)
    | some i =>
      show (tr.dedup.observeBackfill digest t.keyOf i t.detectedTs).2.count k = _
      rcases tr.dedup.observeBackfill_cases digest t.keyOf i t.detectedTs with
        ⟨_, eq⟩ | ⟨_, _, eq⟩ | ⟨_, _, eq⟩
      · rw [eq]; rfl
      · rw [eq]
      · rw [eq]
        exact (DedupIndex.count_insert ..).trans (if_neg other)
  unfold observe
  cases tr.wallets.lookup t.trader with
  | none => exact ⟨rfl, fun _ _ => rfl⟩
  | some w =>
    simp only
    cases w.admits t.marketId (t.quantity.notional t.price) with
    | error reason => exact ⟨rfl, fun _ _ => rfl⟩
    | ok _ =>
      revert others
      cases tr.dedup.observe digest t ordinal with
      | mk verdict dedup =>
        cases verdict <;> exact fun others => ⟨rfl, others⟩

end CopyTrading
