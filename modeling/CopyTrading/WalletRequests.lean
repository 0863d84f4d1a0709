import CopyTrading.Config
import CopyTrading.StepRun
import CopyTrading.Tracker

namespace CopyTrading

open StepRun

/-- The body of both requests; a field that is absent changes nothing. -/
structure WalletBody where
  address : String
  nickname : Option String
  enabled : Option Bool
  copyRatio : Option Decimal
  fixedUsd : Option Decimal
  portfolioPct : Option Decimal
  maxTradeUsd : Option Decimal
  maxExposureUsd : Option Decimal
  minSourceNotionalUsd : Option Decimal
  allowedMarkets : Option (List String)
  blockedMarkets : Option (List String)

inductive WalletRefusal
  | invalidAddress (e : IdError)
  | alreadyTracked
  | notTracked
  /-- Not within `(0, 10]`. -/
  | copyRatio (ratio : Decimal)
  | aboveGlobal (maxTrade globalMaxTrade : Usd)
  deriving DecidableEq

/-- The status code of the answer. -/
def WalletRefusal.status : WalletRefusal → Nat
  | .alreadyTracked => 409
  | .notTracked => 404
  | .invalidAddress _ | .copyRatio _ | .aboveGlobal _ _ => 400

namespace WalletBody

/-- The last of the three sizing fields wins. -/
def sizingFor (b : WalletBody) (held : SizingMode) : Except WalletRefusal SizingMode :=
  match b.copyRatio.filter fun r => r ≤ 0 ∨ 10 < r with
  | some r => .error (.copyRatio r)
  | none =>
    let ratio := b.copyRatio.elim held .fixedRatio
    let fixed := b.fixedUsd.elim ratio .fixedUsd
    .ok (b.portfolioPct.elim fixed .portfolioPercent)

/-- A per-wallet limit must never exceed the global one. -/
def capFor (b : WalletBody) (limits : RiskLimits) (held : Usd) : Except WalletRefusal Usd :=
  match b.maxTradeUsd with
  | none => .ok held
  | some v => if limits.maxTradeUsd < v then .error (.aboveGlobal v limits.maxTradeUsd) else .ok v

/-- Markets that cannot be read are left out. -/
def marketsFor (texts : Option (List String)) (held : List MarketId) : List MarketId :=
  texts.elim held fun ms => ms.filterMap fun m => (MarketId.new m).toOption

def applyBody (b : WalletBody) (limits : RiskLimits) (w : TargetWallet) :
    Except WalletRefusal TargetWallet := do
  let sizing ← b.sizingFor w.sizing
  let maxTradeUsd ← b.capFor limits w.maxTradeUsd
  return { w with
    nickname := b.nickname.getD w.nickname
    enabled := b.enabled.getD w.enabled
    sizing := sizing
    maxTradeUsd := maxTradeUsd
    maxExposureUsd := b.maxExposureUsd.getD w.maxExposureUsd
    minSourceNotionalUsd := b.minSourceNotionalUsd.getD w.minSourceNotionalUsd
    allowedMarkets := marketsFor b.allowedMarkets w.allowedMarkets
    blockedMarkets := marketsFor b.blockedMarkets w.blockedMarkets }

end WalletBody

namespace WalletTracker

variable (limits : RiskLimits)

def addWallet (tr : WalletTracker) (b : WalletBody) : Except WalletRefusal TargetWallet := do
  let addr ← (Address.new b.address).mapError .invalidAddress
  if (tr.getWallet addr).isSome then .error .alreadyTracked
  else
    let short := String.ofList (addr.asStr.toList.take 8) ++ "…"
    b.applyBody limits (.new addr (b.nickname.getD short))

def updateWallet (tr : WalletTracker) (id : String) (b : WalletBody) :
    Except WalletRefusal TargetWallet := do
  let addr ← (Address.new id).mapError .invalidAddress
  match tr.getWallet addr with
  | none => .error .notTracked
  | some w => b.applyBody limits w

end WalletTracker

inductive WalletRequest
  | add (b : WalletBody)
  | update (id : String) (b : WalletBody)

namespace WalletTracker

/-- The answer to a request, and the tracker after it: only an accepted one is stored. -/
def handle (limits : RiskLimits) (tr : WalletTracker) (r : WalletRequest) :
    Except WalletRefusal TargetWallet × WalletTracker :=
  let answer := match r with
    | .add b => tr.addWallet limits b
    | .update id b => tr.updateWallet limits id b
  match answer with
  | .ok w => (.ok w, tr.upsertWallet w)
  | .error e => (.error e, tr)

def requested (limits : RiskLimits) (tr : WalletTracker) (r : WalletRequest) :
    Option WalletTracker :=
  some (tr.handle limits r).2

end WalletTracker

/-- The wallets of the generator, of which the configuration check knows nothing. -/
def demoWallets : List TargetWallet :=
  [(⟨"0x000000000000000000000000000000000000dea0", by decide⟩, "DEMO Whale", 1 / 4, 300),
    (⟨"0x000000000000000000000000000000000000dea1", by decide⟩, "DEMO Sharp", 1 / 2, 200),
    (⟨"0x000000000000000000000000000000000000dea2", by decide⟩, "DEMO Scalper", 1 / 10, 100)].map
    fun (d : Address × String × Decimal × Usd) =>
      { TargetWallet.new d.1 d.2.1 with
        sizing := .fixedRatio d.2.2.1
        maxTradeUsd := d.2.2.2
        maxExposureUsd := 1000
        minSourceNotionalUsd := 10 }

/-- The tracker once the process is up: configured, demo and recovered wallets, in this order. -/
def AppConfig.startTracker (c : AppConfig) (recovered : List TargetWallet) : WalletTracker :=
  recovered.foldl WalletTracker.upsertWallet
    (.new (c.wallets ++ if c.demoData then demoWallets else []))

/-- Every tracked wallet's own cap is within the global one. -/
def WalletTracker.Capped (globalMax : Usd) (tr : WalletTracker) : Prop :=
  ∀ a w, tr.getWallet a = some w → w.maxTradeUsd ≤ globalMax

/-- A wallet that is added names its cap, or the default of a new wallet fits. -/
def CarriesCap (limits : RiskLimits) (_ : WalletTracker) : WalletRequest → Prop
  | .add b => b.maxTradeUsd = none → 100 ≤ limits.maxTradeUsd
  | .update _ _ => True

instance (limits : RiskLimits) (tr : WalletTracker) (r : WalletRequest) :
    Decidable (CarriesCap limits tr r) :=
  match r with
  | .add b => inferInstanceAs (Decidable (b.maxTradeUsd = none → 100 ≤ limits.maxTradeUsd))
  | .update _ _ => isTrue trivial

namespace WalletBody

variable {b : WalletBody} {limits : RiskLimits} {w w' : TargetWallet}

theorem capFor_ok {held cap : Usd} (h : b.capFor limits held = .ok cap)
    (within : b.maxTradeUsd = none → held ≤ limits.maxTradeUsd) : cap ≤ limits.maxTradeUsd := by
  unfold capFor at h
  split at h
  next none_ =>
    cases h
    exact within none_
  next =>
    split at h
    next => cases h
    next below =>
      cases h
      exact not_lt.mp below

/-- What a body leaves within the global cap: a cap it names, or the one it finds. -/
theorem applyBody_ok (h : b.applyBody limits w = .ok w')
    (within : b.maxTradeUsd = none → w.maxTradeUsd ≤ limits.maxTradeUsd) :
    w'.maxTradeUsd ≤ limits.maxTradeUsd := by
  obtain ⟨sizing, _, h⟩ := Fallible.bind_eq_ok h
  obtain ⟨cap, capped, h⟩ := Fallible.bind_eq_ok h
  cases h
  exact capFor_ok capped within

end WalletBody

namespace WalletTracker

variable {limits : RiskLimits} {tr tr' : WalletTracker} {r : WalletRequest}

theorem getWallet_upsert (tr : WalletTracker) (w : TargetWallet) (a : Address) :
    (tr.upsertWallet w).getWallet a = if a = w.address then some w else tr.getWallet a := by
  unfold getWallet upsertWallet
  split
  next same => rw [same, AList.lookup_insert]
  next other => exact AList.lookup_insert_ne other

theorem Capped.upsert {globalMax : Usd} (h : tr.Capped globalMax) {w : TargetWallet}
    (within : w.maxTradeUsd ≤ globalMax) : (tr.upsertWallet w).Capped globalMax := by
  intro a w' tracked
  rw [getWallet_upsert] at tracked
  split at tracked
  next =>
    cases tracked
    exact within
  next => exact h a w' tracked

theorem Capped.upserts {globalMax : Usd} {ws : List TargetWallet} (h : tr.Capped globalMax)
    (within : ∀ w ∈ ws, w.maxTradeUsd ≤ globalMax) :
    (ws.foldl upsertWallet tr).Capped globalMax := by
  induction ws generalizing tr with
  | nil => exact h
  | cons w ws ih =>
    obtain ⟨here, rest⟩ := List.forall_mem_cons.mp within
    exact ih (h.upsert here) rest

theorem foldl_upsert (ws : List TargetWallet) (tr : WalletTracker) :
    ws.foldl upsertWallet tr =
      { tr with wallets := ws.foldl (fun m w => m.insert w.address w) tr.wallets } := by
  induction ws generalizing tr with
  | nil => rfl
  | cons w ws ih => exact ih (tr.upsertWallet w)

theorem capped_new {globalMax : Usd} {ws : List TargetWallet}
    (within : ∀ w ∈ ws, w.maxTradeUsd ≤ globalMax) : (new ws).Capped globalMax := by
  have empty : (new []).Capped globalMax := by
    intro a w tracked
    cases tracked
  have eq : ws.foldl upsertWallet (new []) = new ws := foldl_upsert ws (new [])
  exact eq ▸ empty.upserts within

/-- An accepted request stores a wallet within the global cap. -/
theorem Capped.handle (h : tr.Capped limits.maxTradeUsd) (carries : CarriesCap limits tr r) :
    (tr.handle limits r).2.Capped limits.maxTradeUsd := by
  unfold WalletTracker.handle
  simp only
  split
  next w answer =>
    refine h.upsert ?_
    cases r with
    | add b =>
      obtain ⟨addr, _, answer⟩ := Fallible.bind_eq_ok answer
      split at answer
      next => cases answer
      next => exact WalletBody.applyBody_ok answer carries
    | update id b =>
      obtain ⟨addr, _, answer⟩ := Fallible.bind_eq_ok answer
      split at answer
      next => cases answer
      next held tracked => exact WalletBody.applyBody_ok answer fun _ => h addr held tracked
  next => exact h

/-- A refused request leaves the tracker as it was. -/
theorem handle_refused {e : WalletRefusal} (h : (tr.handle limits r).1 = .error e) :
    (tr.handle limits r).2 = tr := by
  unfold handle at h ⊢
  simp only at h ⊢
  split at h
  next => cases h
  next => rfl

end WalletTracker

/-- The wallets that the configuration check does not see. -/
def AppConfig.unchecked (c : AppConfig) (recovered : List TargetWallet) : List TargetWallet :=
  recovered ++ if c.demoData then demoWallets else []

theorem AppConfig.capped_startTracker {c : AppConfig} {recovered : List TargetWallet}
    (validated : c.validate = .ok ())
    (unchecked : ∀ w ∈ c.unchecked recovered, w.maxTradeUsd ≤ c.risk.maxTradeUsd) :
    (c.startTracker recovered).Capped c.limits.maxTradeUsd := by
  obtain ⟨stored, demo⟩ := List.forall_mem_append.mp unchecked
  have configured := List.forall_mem_append.mpr ⟨AppConfig.validate_wallets validated, demo⟩
  exact (WalletTracker.capped_new configured).upserts stored

/-- From a validated configuration on, no wallet has a cap above the global one, in every run of
requests whose additions name a cap or get a default that fits. -/
theorem wallet_caps_within {c : AppConfig} {recovered : List TargetWallet}
    {rs : List WalletRequest} {tr : WalletTracker} (validated : c.validate = .ok ())
    (unchecked : ∀ w ∈ c.unchecked recovered, w.maxTradeUsd ≤ c.risk.maxTradeUsd)
    (run : Run (WalletTracker.requested c.limits) (CarriesCap c.limits)
      (c.startTracker recovered) rs tr) :
    (∀ a w, tr.getWallet a = some w → w.maxTradeUsd ≤ c.limits.maxTradeUsd) ∧
      ∀ r e, (tr.handle c.limits r).1 = .error e → (tr.handle c.limits r).2 = tr := by
  refine ⟨run.keeps ?_ (AppConfig.capped_startTracker validated unchecked),
    fun _ _ refused => WalletTracker.handle_refused refused⟩
  intro tr r tr' capped carries taken
  cases Option.some.inj taken
  exact WalletTracker.Capped.handle capped carries

/-- The default configuration with a tighter cap on a trade. -/
def AppConfig.tight : AppConfig where
  mode := .paper
  risk := { RiskConfig.default with maxTradeUsd := 50 }
  live := ⟨false, "", none, "", "", "", 50⟩
  apiToken := ""
  wallets := []
  demoData := false
  replayFile := none

/-- Nothing but an address. -/
def WalletBody.bare : WalletBody :=
  ⟨Address.zero.asStr, none, none, none, none, none, none, none, none, none, none⟩

theorem wallet_caps_within_named : ∃ tr, Run (WalletTracker.requested AppConfig.tight.limits)
      (CarriesCap AppConfig.tight.limits) (AppConfig.tight.startTracker [])
      [.add { WalletBody.bare with maxTradeUsd := some 20 }, .update Address.zero.asStr .bare] tr ∧
    (tr.getWallet .zero).map TargetWallet.maxTradeUsd = some 20 ∧
    ∀ a w, tr.getWallet a = some w → w.maxTradeUsd ≤ AppConfig.tight.limits.maxTradeUsd := by
  obtain ⟨tr, executed, stored⟩ : ∃ tr,
      [WalletRequest.add { WalletBody.bare with maxTradeUsd := some 20 },
        .update Address.zero.asStr .bare].foldlM (fun tr r =>
          if CarriesCap AppConfig.tight.limits tr r then
            WalletTracker.requested AppConfig.tight.limits tr r else none)
        (AppConfig.tight.startTracker []) = some tr ∧
      (tr.getWallet .zero).map TargetWallet.maxTradeUsd = some 20 := by
    apply Option.map_eq_some_iff.mp
    decide +kernel
  have run := run_of_foldlM executed
  exact ⟨tr, run, stored, (wallet_caps_within (by rfl) (List.forall_mem_nil _) run).1⟩

/-- The default of a new wallet is not held against the global cap. -/
theorem default_cap_above_global : ¬ ∀ (c : AppConfig) (recovered : List TargetWallet)
    (rs : List WalletRequest) (tr : WalletTracker), c.validate = .ok () →
    (∀ w ∈ c.unchecked recovered, w.maxTradeUsd ≤ c.risk.maxTradeUsd) →
    Run (WalletTracker.requested c.limits) Anywhere (c.startTracker recovered) rs tr →
    ∀ a w, tr.getWallet a = some w → w.maxTradeUsd ≤ c.limits.maxTradeUsd := by
  intro claim
  obtain ⟨tr, executed, stored⟩ : ∃ tr, [WalletRequest.add .bare].foldlM (fun tr r =>
      if Anywhere tr r then WalletTracker.requested AppConfig.tight.limits tr r else none)
        (AppConfig.tight.startTracker []) = some tr ∧
      (tr.getWallet .zero).map TargetWallet.maxTradeUsd = some 100 := by
    apply Option.map_eq_some_iff.mp
    decide +kernel
  obtain ⟨w, tracked, cap⟩ := Option.map_eq_some_iff.mp stored
  have within := claim .tight [] _ tr (by rfl) (List.forall_mem_nil _) (run_of_foldlM executed)
    .zero w tracked
  rw [cap] at within
  exact absurd within (by decide +kernel)

end CopyTrading
