import CopyTrading.KillSwitchHistory
import CopyTrading.Paper
import CopyTrading.Portfolio
import CopyTrading.Utf8Text
import CopyTrading.WalletRequests

namespace CopyTrading

/-- Every byte is compared, whatever the earlier ones were. -/
def secureEq (a b : String) : Bool :=
  let x := a.toUTF8.toList
  let y := b.toUTF8.toList
  if x.length ≠ y.length then false
  else (x.zip y).foldl (fun diff p => diff ||| (p.1 ^^^ p.2)) 0 == 0

/-- `str::split_once` -/
def splitOnce (c : Char) (s : List Char) : Option (List Char × List Char) :=
  match s.dropWhile (· ≠ c) with
  | [] => none
  | _ :: rest => some (s.takeWhile (· ≠ c), rest)

/-- The token of an `Authorization` header. -/
def bearer (h : Option String) : Option String := do
  let v ← h
  let (scheme, token) ← splitOnce ' ' v.toList
  if scheme.map Char.toLower = "bearer".toList then some (String.ofList (trim token)) else none

inductive HttpMethod
  | get
  | post
  | patch
  | delete
  deriving DecidableEq

/-- What a client asks for. -/
inductive ApiCall
  | killSwitchEngage (reason : Option String) (cancelOpenOrders : Bool)
  | killSwitchReset
  | addWallet (b : WalletBody)
  | updateWallet (id : String) (b : WalletBody)
  | deleteWallet (id : String)
  | paperReset
  /-- One of the views; none of them changes anything. -/
  | view (path : String)

def ApiCall.route : ApiCall → HttpMethod × String
  | .killSwitchEngage .. => (.post, "/api/risk/kill-switch")
  | .killSwitchReset => (.post, "/api/risk/kill-switch/reset")
  | .addWallet _ => (.post, "/api/target-wallets")
  | .updateWallet .. => (.patch, "/api/target-wallets/:id")
  | .deleteWallet _ => (.delete, "/api/target-wallets/:id")
  | .paperReset => (.post, "/api/paper/reset")
  | .view path => (.get, path)

/-- Anything that can change trading behaviour. -/
def protectedRoutes : List (HttpMethod × String) :=
  [(.post, "/api/risk/kill-switch"), (.post, "/api/risk/kill-switch/reset"),
    (.post, "/api/target-wallets"), (.patch, "/api/target-wallets/:id"),
    (.delete, "/api/target-wallets/:id"), (.post, "/api/paper/reset")]

def ApiCall.isProtected (c : ApiCall) : Bool := protectedRoutes.contains c.route

inductive AuditDetail
  | reason (text : String)
  | wallet (w : TargetWallet)
  | nothing
  deriving DecidableEq

structure AuditEntry where
  actor : String
  action : String
  target : Option String
  detail : AuditDetail
  deriving DecidableEq

inductive ApiRefusal
  | unauthorized
  | wallet (e : WalletRefusal)
  /-- Wiping the book in live mode would desynchronise us from the venue. -/
  | resetInLive
  | noPaperAdapter
  deriving DecidableEq

def ApiRefusal.status : ApiRefusal → Nat
  | .unauthorized => 401
  | .wallet e => e.status
  | .resetInLive => 403
  | .noPaperAdapter => 400

inductive ApiReply
  /-- The sweep's successes and failures, if there was one. -/
  | killSwitch (state : KillSwitch) (sweep : Option (Nat × Nat))
  | wallet (w : TargetWallet)
  | deleted (a : Address)
  | reset (cash : Usd)
  | view

/-- What the handlers reach. -/
structure ApiState (A : Type) where
  config : AppConfig
  killSwitch : KillSwitch
  tracker : WalletTracker
  orders : OrderManager
  venue : A
  portfolio : Portfolio
  /-- `target_wallets` -/
  walletRows : AList fun _ : Address => TargetWallet
  /-- `audit_logs` -/
  auditLogs : List AuditEntry
  events : List SystemEvent
  killSwitchActivationsTotal : Nat

/-- A request as it comes in, the times its handler reads, and whether the database executes its
writes. -/
structure ApiRequest where
  authorization : Option String
  call : ApiCall
  now : DateTime
  cancelAt : OrderId → DateTime
  executed : Bool

def requireAuth (mode : AppMode) (configured : String) (authorization : Option String) :
    Except ApiRefusal Unit :=
  if configured.isEmpty then
    -- permitted for zero-setup demos, but never in live
    if mode.isLive then .error .unauthorized else .ok ()
  else
    match bearer authorization with
    | some t => if secureEq t configured then .ok () else .error .unauthorized
    | none => .error .unauthorized

namespace ApiState

variable {A : Type}

/-- A failed write is ignored. -/
def audit (s : ApiState A) (r : ApiRequest) (action : String) (target : Option String)
    (detail : AuditDetail) : ApiState A :=
  if r.executed then { s with auditLogs := s.auditLogs ++ [⟨"api", action, target, detail⟩] }
  else s

def storeWallet (s : ApiState A) (r : ApiRequest) (w : TargetWallet) : ApiState A :=
  if r.executed then { s with walletRows := s.walletRows.insert w.address w } else s

def limits (s : ApiState A) : RiskLimits := s.config.limits

section Handlers

-- `PaperExecution::reset`, where the paper adapter is the active one
variable (adapter : ExecutionAdapter A) (paper : Option (A → A))

def killSwitchEngage (s : ApiState A) (r : ApiRequest) (reason : Option String)
    (cancelOpenOrders : Bool) : Except ApiRefusal ApiReply × ApiState A :=
  let reason := reason.getD "manual activation via API"
  let state := (s.killSwitch.setCancelOpenOrders cancelOpenOrders).engage reason "api" r.now
  let s := { s with
    killSwitch := state
    killSwitchActivationsTotal := s.killSwitchActivationsTotal + 1
    events := s.events ++ [SystemEvent.killSwitchActivated reason "api" r.now] }
  let s := s.audit r "kill_switch_engage" none (.reason reason)
  if cancelOpenOrders then
    let (counts, orders, venue) := s.orders.cancelAll adapter s.venue r.cancelAt r.cancelAt
    (.ok (.killSwitch state (some counts)), { s with orders := orders, venue := venue })
  else (.ok (.killSwitch state none), s)

def killSwitchReset (s : ApiState A) (r : ApiRequest) : Except ApiRefusal ApiReply × ApiState A :=
  let state := s.killSwitch.reset "api"
  let s := { s with
    killSwitch := state
    events := s.events ++ [SystemEvent.killSwitchReset "api" r.now] }
  (.ok (.killSwitch state none), s.audit r "kill_switch_reset" none .nothing)

/-- A wallet that a body leaves is tracked, stored and audited. -/
def putWallet (s : ApiState A) (r : ApiRequest) (action : String)
    (answer : Except WalletRefusal TargetWallet) : Except ApiRefusal ApiReply × ApiState A :=
  match answer with
  | .error e => (.error (.wallet e), s)
  | .ok w =>
    let s := { s with tracker := s.tracker.upsertWallet w }
    (.ok (.wallet w), (s.storeWallet r w).audit r action (some w.address.asStr) (.wallet w))

def addWallet (s : ApiState A) (r : ApiRequest) (b : WalletBody) :
    Except ApiRefusal ApiReply × ApiState A :=
  s.putWallet r "wallet_add" (s.tracker.addWallet s.limits b)

def updateWallet (s : ApiState A) (r : ApiRequest) (id : String) (b : WalletBody) :
    Except ApiRefusal ApiReply × ApiState A :=
  s.putWallet r "wallet_update" (s.tracker.updateWallet s.limits id b)

def deleteWallet (s : ApiState A) (r : ApiRequest) (id : String) :
    Except ApiRefusal ApiReply × ApiState A :=
  match Address.new id with
  | .error e => (.error (.wallet (.invalidAddress e)), s)
  | .ok addr =>
    match s.tracker.removeWallet addr with
    | (none, _) => (.error (.wallet .notTracked), s)
    | (some _, tracker) =>
      let s := { s with tracker := tracker }
      let s := if r.executed then { s with walletRows := s.walletRows.erase addr } else s
      (.ok (.deleted addr), s.audit r "wallet_delete" (some addr.asStr) .nothing)

def paperReset (s : ApiState A) (r : ApiRequest) : Except ApiRefusal ApiReply × ApiState A :=
  if s.config.mode.isLive then (.error .resetInLive, s)
  else
    match paper with
    | none => (.error .noPaperAdapter, s)
    | some reset =>
      let s := { s with venue := reset s.venue, portfolio := s.portfolio.reset r.now }
      (.ok (.reset s.portfolio.cash), s.audit r "paper_reset" none .nothing)

def handle (s : ApiState A) (r : ApiRequest) : Except ApiRefusal ApiReply × ApiState A :=
  match r.call with
  | .killSwitchEngage reason cancel => s.killSwitchEngage adapter r reason cancel
  | .killSwitchReset => s.killSwitchReset r
  | .addWallet b => s.addWallet r b
  | .updateWallet id b => s.updateWallet r id b
  | .deleteWallet id => s.deleteWallet r id
  | .paperReset => s.paperReset paper r
  | .view _ => (.ok .view, s)

/-- One request through the router: a protected route goes through the guard first. -/
def serve (s : ApiState A) (r : ApiRequest) : Except ApiRefusal ApiReply × ApiState A :=
  if r.call.isProtected then
    match requireAuth s.config.mode s.config.apiToken r.authorization with
    | .error e => (.error e, s)
    | .ok () => s.handle adapter paper r
  else s.handle adapter paper r

def serveAll (s : ApiState A) (rs : List ApiRequest) : ApiState A :=
  rs.foldl (fun s r => (s.serve adapter paper r).2) s

/-- The answers to a list of requests, in order. -/
def answers (s : ApiState A) : List ApiRequest → List (Except ApiRefusal ApiReply)
  | [] => []
  | r :: rs => (s.serve adapter paper r).1 :: (s.serve adapter paper r).2.answers rs

end Handlers

end ApiState

end CopyTrading
