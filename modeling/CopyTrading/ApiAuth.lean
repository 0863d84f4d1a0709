import CopyTrading.ApiServer

namespace CopyTrading

theorem xor_fold_eq_zero (ps : List (UInt8 × UInt8)) (d : UInt8) :
    ps.foldl (fun diff p => diff ||| (p.1 ^^^ p.2)) d = 0 ↔ d = 0 ∧ ∀ p ∈ ps, p.1 = p.2 := by
  induction ps generalizing d with
  | nil => simp
  | cons p ps ih =>
    rw [List.foldl_cons, ih, UInt8.or_eq_zero_iff, UInt8.xor_eq_zero_iff, and_assoc,
      List.forall_mem_cons]

/-- The comparison that looks at every byte is equality. -/
theorem secureEq_iff (a b : String) : secureEq a b = true ↔ a = b := by
  constructor
  · intro same
    unfold secureEq at same
    simp only at same
    split at same
    next => cases same
    next lengths =>
      have lengths := not_not.mp lengths
      obtain ⟨_, bytes⟩ := (xor_fold_eq_zero _ _).mp (eq_of_beq same)
      refine Utf8Text.toUTF8_inj (List.ext_getElem lengths fun i left right => ?_)
      exact bytes (_, _) (List.mem_iff_getElem.mpr ⟨i, by simpa using ⟨left, right⟩, by simp⟩)
  · rintro rfl
    unfold secureEq
    simp only
    rw [if_neg (by simp)]
    refine beq_iff_eq.mpr ((xor_fold_eq_zero _ _).mpr ⟨rfl, ?_⟩)
    intro p mem
    obtain ⟨i, inside, rfl⟩ := List.mem_iff_getElem.mp mem
    simp

/-- Behind a configured token, or in live mode, the guard passes on exactly the token's bearer. -/
theorem requireAuth_eq {mode : AppMode} {configured : String} (authorization : Option String)
    (closed : configured ≠ "" ∨ mode.isLive = true) :
    requireAuth mode configured authorization =
      if configured ≠ "" ∧ bearer authorization = some configured then .ok ()
      else .error .unauthorized := by
  unfold requireAuth
  split
  next empty =>
    have none_ : configured = "" := String.isEmpty_iff.mp empty
    rw [if_pos (closed.resolve_left (not_not.mpr none_)), if_neg fun both => both.1 none_]
  next given =>
    have given : configured ≠ "" := fun none_ => given (String.isEmpty_iff.mpr none_)
    cases bearer authorization with
    | none => simp
    | some t => simp [secureEq_iff, given]

namespace ApiState

variable {A : Type} {adapter : ExecutionAdapter A} {paper : Option (A → A)}

/-- Every call that is not a view goes through the guard. -/
theorem view_of_unprotected {c : ApiCall} (open_ : c.isProtected = false) :
    ∃ path, c = .view path := by
  cases c with
  | view path => exact ⟨path, rfl⟩
  | _ => cases open_

theorem putWallet_config (s : ApiState A) (r : ApiRequest) (action : String)
    (answer : Except WalletRefusal TargetWallet) :
    (s.putWallet r action answer).2.config = s.config := by
  unfold putWallet storeWallet audit
  grind

/-- No request changes the configuration. -/
theorem handle_config (s : ApiState A) (r : ApiRequest) :
    (s.handle adapter paper r).2.config = s.config := by
  unfold handle
  split
  next => unfold killSwitchEngage audit; grind
  next => unfold killSwitchReset audit; grind
  next => exact s.putWallet_config r _ _
  next => exact s.putWallet_config r _ _
  next => unfold deleteWallet audit; grind
  next => unfold paperReset audit; grind
  next => rfl

variable (adapter paper)

theorem serve_config (s : ApiState A) (r : ApiRequest) :
    (s.serve adapter paper r).2.config = s.config := by
  unfold serve
  split
  · split
    · rfl
    · exact s.handle_config r
  · exact s.handle_config r

/-- A request without the token changes nothing, and is refused if it asks for a change. -/
theorem serve_without_token {s : ApiState A} {r : ApiRequest}
    (closed : s.config.apiToken ≠ "" ∨ s.config.mode.isLive = true)
    (without : bearer r.authorization ≠ some s.config.apiToken) :
    (s.serve adapter paper r).2 = s ∧
      (r.call.isProtected = true → (s.serve adapter paper r).1 = .error .unauthorized) := by
  have refused : requireAuth s.config.mode s.config.apiToken r.authorization =
      .error .unauthorized := by
    rw [requireAuth_eq r.authorization closed, if_neg fun both => without both.2]
  cases guarded : r.call.isProtected with
  | true =>
    unfold serve
    rw [if_pos guarded, refused]
    exact ⟨rfl, fun _ => rfl⟩
  | false =>
    obtain ⟨path, view⟩ := view_of_unprotected guarded
    refine ⟨?_, fun h => by cases h⟩
    unfold serve handle
    rw [guarded, view]
    rfl

/-- Behind a token the requests that do not carry it might as well not have been sent. -/
theorem serveAll_filter (s : ApiState A) (rs : List ApiRequest)
    (closed : s.config.apiToken ≠ "" ∨ s.config.mode.isLive = true) :
    s.serveAll adapter paper rs = s.serveAll adapter paper
      (rs.filter fun r => bearer r.authorization = some s.config.apiToken) := by
  induction rs generalizing s with
  | nil => rfl
  | cons r rs ih =>
    have config := s.serve_config adapter paper r
    have rest := ih (s.serve adapter paper r).2 (by rw [config]; exact closed)
    rw [config] at rest
    by_cases carries : bearer r.authorization = some s.config.apiToken
    · rw [List.filter_cons_of_pos (by simpa using carries)]
      exact rest
    · have same := (serve_without_token adapter paper closed carries).1
      rw [List.filter_cons_of_neg (by simpa using carries)]
      rw [same] at rest
      calc s.serveAll adapter paper (r :: rs)
          = (s.serve adapter paper r).2.serveAll adapter paper rs := rfl
        _ = s.serveAll adapter paper rs := by rw [same]
        _ = _ := rest

theorem serveAll_config (s : ApiState A) (rs : List ApiRequest) :
    (s.serveAll adapter paper rs).config = s.config := by
  induction rs generalizing s with
  | nil => rfl
  | cons r rs ih => exact (ih _).trans (s.serve_config adapter paper r)

/-- With a token configured, and in live mode always, only its bearers change anything: whatever
else is requested, in any order, the state is the one that their requests alone lead to, and every
other request for a change is refused. -/
theorem changes_need_token (s : ApiState A) (rs : List ApiRequest)
    (closed : s.config.apiToken ≠ "" ∨ s.config.mode.isLive = true) :
    s.serveAll adapter paper rs = s.serveAll adapter paper
      (rs.filter fun r => bearer r.authorization = some s.config.apiToken) ∧
    ∀ before r after, rs = before ++ r :: after → r.call.isProtected = true →
      bearer r.authorization ≠ some s.config.apiToken →
      ((s.serveAll adapter paper before).serve adapter paper r).1 = .error .unauthorized := by
  refine ⟨s.serveAll_filter adapter paper rs closed, ?_⟩
  intro before r after _ guarded without
  have config := s.serveAll_config adapter paper before
  rw [← config] at closed without
  exact (serve_without_token adapter paper closed without).2 guarded

/-- A live process with a token, and a client that knows it. -/
def sampleLive : ApiState Unit where
  config := {
    mode := .live
    risk := .default
    live := ⟨true, "key", some .zero, "k", "s", "p", 50⟩
    apiToken := "t"
    wallets := []
    demoData := false
    replayFile := none }
  killSwitch := .new
  tracker := .new []
  orders := .new
  venue := ()
  portfolio := .new 1000 0
  walletRows := ∅
  auditLogs := []
  events := []
  killSwitchActivationsTotal := 0

def idleAdapter : ExecutionAdapter Unit where
  submit a _ := (.error (.notReady ""), a)
  cancel a _ _ := (.ok (), a)

def ask (authorization : Option String) (call : ApiCall) : ApiRequest :=
  ⟨authorization, call, 0, fun _ => 0, true⟩

/-- The switch is engaged with the token; without it, it cannot be reset. -/
def haltAndProbe : List ApiRequest :=
  [ask (some "Bearer t") (.killSwitchEngage none true), ask none .killSwitchReset,
    ask (some "Basic t") .killSwitchReset]

theorem changes_need_token_haltAndProbe :
    sampleLive.serveAll idleAdapter none haltAndProbe =
      sampleLive.serveAll idleAdapter none
        [ask (some "Bearer t") (.killSwitchEngage none true)] :=
  (changes_need_token idleAdapter none sampleLive haltAndProbe (.inr rfl)).1

end ApiState

end CopyTrading
