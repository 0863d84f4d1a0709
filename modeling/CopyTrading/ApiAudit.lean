import CopyTrading.ApiAuth

namespace CopyTrading

/-- The entry that an accepted call leaves in the audit log; a view leaves none. -/
def ApiCall.auditEntry : ApiCall → ApiReply → Option AuditEntry
  | .killSwitchEngage reason _, _ =>
    let reason := reason.getD "manual activation via API"
    some ⟨"api", "kill_switch_engage", none, .reason reason⟩
  | .killSwitchReset, _ => some ⟨"api", "kill_switch_reset", none, .nothing⟩
  | .addWallet _, .wallet w => some ⟨"api", "wallet_add", some w.address.asStr, .wallet w⟩
  | .updateWallet _ _, .wallet w => some ⟨"api", "wallet_update", some w.address.asStr, .wallet w⟩
  | .deleteWallet _, .deleted a => some ⟨"api", "wallet_delete", some a.asStr, .nothing⟩
  | .paperReset, _ => some ⟨"api", "paper_reset", none, .nothing⟩
  | _, _ => none

/-- The entries owed for a list of requests and their answers. -/
def auditTrail (rs : List ApiRequest) (answers : List (Except ApiRefusal ApiReply)) :
    List AuditEntry :=
  (rs.zip answers).filterMap fun p => p.2.toOption.bind p.1.call.auditEntry

namespace ApiState

variable {A : Type} (adapter : ExecutionAdapter A) (paper : Option (A → A))

theorem audit_executed (s : ApiState A) {r : ApiRequest} (executed : r.executed = true)
    (action : String) (target : Option String) (detail : AuditDetail) :
    s.audit r action target detail =
      { s with auditLogs := s.auditLogs ++ [⟨"api", action, target, detail⟩] } :=
  if_pos executed

/-- What one handled request adds to the log. -/
theorem handle_audit (s : ApiState A) {r : ApiRequest} (executed : r.executed = true) :
    (s.handle adapter paper r).2.auditLogs = s.auditLogs ++
      ((s.handle adapter paper r).1.toOption.bind r.call.auditEntry).toList := by
  unfold handle
  split
  next reason cancel call =>
    rw [call]
    unfold killSwitchEngage
    simp only [audit_executed _ executed]
    cases cancel <;> rfl
  next call =>
    rw [call]
    unfold killSwitchReset
    simp only [audit_executed _ executed]
    rfl
  next b call =>
    rw [call]
    unfold addWallet putWallet
    cases s.tracker.addWallet s.limits b with
    | error e => exact (List.append_nil _).symm
    | ok w =>
      simp only [audit_executed _ executed, storeWallet, if_pos executed]
      rfl
  next id b call =>
    rw [call]
    unfold updateWallet putWallet
    cases s.tracker.updateWallet s.limits id b with
    | error e => exact (List.append_nil _).symm
    | ok w =>
      simp only [audit_executed _ executed, storeWallet, if_pos executed]
      rfl
  next id call =>
    rw [call]
    unfold deleteWallet
    cases Address.new id with
    | error e => exact (List.append_nil _).symm
    | ok a =>
      simp only
      split
      · exact (List.append_nil _).symm
      · simp only [audit_executed _ executed, if_pos executed]
        rfl
  next call =>
    rw [call]
    unfold paperReset
    split
    · exact (List.append_nil _).symm
    · cases paper with
      | none => exact (List.append_nil _).symm
      | some reset =>
        simp only [audit_executed _ executed]
        rfl
  next path call =>
    rw [call]
    exact (List.append_nil _).symm

theorem serve_audit (s : ApiState A) {r : ApiRequest} (executed : r.executed = true) :
    (s.serve adapter paper r).2.auditLogs = s.auditLogs ++
      ((s.serve adapter paper r).1.toOption.bind r.call.auditEntry).toList := by
  unfold serve
  split
  · split
    · exact (List.append_nil _).symm
    · exact s.handle_audit adapter paper executed
  · exact s.handle_audit adapter paper executed

/-- While the database executes each write, the audit log holds one entry for each accepted change
made through the API, in the order they were made, and nothing for what was refused or only looked
at. -/
theorem auditLogs_serveAll (s : ApiState A) (rs : List ApiRequest)
    (executed : ∀ r ∈ rs, r.executed = true) :
    (s.serveAll adapter paper rs).auditLogs =
      s.auditLogs ++ auditTrail rs (s.answers adapter paper rs) := by
  induction rs generalizing s with
  | nil => exact (List.append_nil _).symm
  | cons r rs ih =>
    obtain ⟨here, later⟩ := List.forall_mem_cons.mp executed
    have rest := ih (s.serve adapter paper r).2 later
    rw [s.serve_audit adapter paper here, List.append_assoc] at rest
    refine rest.trans (congrArg (s.auditLogs ++ ·) ?_)
    have first : s.answers adapter paper (r :: rs) = (s.serve adapter paper r).1 ::
        (s.serve adapter paper r).2.answers adapter paper rs := rfl
    unfold auditTrail
    rw [first, List.zip_cons_cons, List.filterMap_cons]
    cases (s.serve adapter paper r).1.toOption.bind r.call.auditEntry with
    | none => rfl
    | some entry => rfl

theorem auditLogs_serveAll_haltAndProbe :
    (sampleLive.serveAll idleAdapter none haltAndProbe).auditLogs =
      auditTrail haltAndProbe (sampleLive.answers idleAdapter none haltAndProbe) :=
  auditLogs_serveAll idleAdapter none sampleLive haltAndProbe (by decide)

end ApiState

end CopyTrading
