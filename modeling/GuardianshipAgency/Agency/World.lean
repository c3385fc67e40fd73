import GuardianshipAgency.Agency.Services
import GuardianshipAgency.Async.Machine
import GuardianshipAgency.Js.Double
import GuardianshipAgency.Store.Expiring

/-!
# Cache, container runtime, multitenant server and timers

The world around the services, and what each awaited call does to it in one atomic step. `system` lets any number
of calls of the services run side by side.
-/

namespace GuardianshipAgency.Agency

open Js Async Expiring

/-! ## The world -/

structure Container where
  config : AgentConfig
  started : Bool

/-- The objects of the container runtime by name. A container that is stopped is removed. -/
structure Runtime where
  containers : String → Option Container
  pods : String → Option AgentConfig
  services : String → Option AgentConfig

/-- The configuration with which the agent named `id` was started, if it runs. -/
def Runtime.running (rt : Runtime) (managerType : ManagerType) (id : String) : Option AgentConfig :=
  match managerType with
  | .docker => (rt.containers id).bind fun c => if c.started then some c.config else none
  | .k8s => if (rt.services id).isSome then rt.pods id else none

structure Wallet where
  id : String
  name : String
  key : String
deriving DecidableEq

/-- The multitenant server. `registered` remembers removed wallets too, and `issued` every token with its
wallet. -/
structure Server where
  wallets : List Wallet
  registered : List Wallet
  issued : List (String × Wallet)

/-- A timer set by `setSpinDownJob`. -/
structure Timer where
  agentId : String
  due : ℚ
deriving DecidableEq

/-- Times are in milliseconds. -/
structure World where
  now : ℚ
  cache : Store (WithTop ℚ) String CacheEntry
  runtime : Runtime
  server : Server
  timers : List Timer

def World.empty : World where
  now := 0
  cache := Store.empty
  runtime := { containers := fun _ => none, pods := fun _ => none, services := fun _ => none }
  server := { wallets := [], registered := [], issued := [] }
  timers := []

namespace World

variable (w : World)

def lookup (key : String) : Option CacheEntry := w.cache.lookup (w.now : WithTop ℚ) key

def get (env : Env) (key : String) : Lookup :=
  match w.lookup key with
  | some e => .entry e
  | none => Lookup.missing env

/-- An entry can be read for exactly as long as the store keeps it, and never if that is not positive. -/
def set (env : Env) (key : String) (entry : CacheEntry) (ttl : WithTop ℚ) : World :=
  { w with cache := w.cache.write key entry ((w.now : WithTop ℚ) + (env.kept ttl).map (· * 1000)) }

def del (key : String) : World := { w with cache := w.cache.erase key }

def running (env : Env) (id : String) : Option AgentConfig := w.runtime.running env.managerType id

/-- An agent accepts requests on its admin port with its key. The multitenant server accepts its admin key,
together with the token of a wallet it has. -/
def accepts (env : Env) (target : AdminTarget) : Bool :=
  match target.host with
  | .agent agentId adminPort =>
      match w.running env agentId with
      | some config => adminPort.reaches config.adminPort && target.apiKey == config.adminApiKey
      | none => false
  | .multitenant =>
      target.apiKey == env.acapyAdminApiKey &&
        w.server.issued.any fun p => some p.1 == target.token && p.2 ∈ w.server.wallets

def setContainer (name : String) (c : Option Container) : World :=
  { w with runtime := { w.runtime with containers := Function.update w.runtime.containers name c } }

def setPod (name : String) (config : Option AgentConfig) : World :=
  { w with runtime := { w.runtime with pods := Function.update w.runtime.pods name config } }

def setService (name : String) (config : Option AgentConfig) : World :=
  { w with runtime := { w.runtime with services := Function.update w.runtime.services name config } }

def register (wallet : Wallet) (token : String) : World :=
  { w with server :=
      { wallets := w.server.wallets ++ [wallet]
        registered := w.server.registered ++ [wallet]
        issued := w.server.issued ++ [(token, wallet)] } }

def issue (wallet : Wallet) (token : String) : World :=
  { w with server := { w.server with issued := w.server.issued ++ [(token, wallet)] } }

def unregister (walletId : String) : World :=
  { w with server := { w.server with wallets := w.server.wallets.filter fun wallet => wallet.id != walletId } }

end World

/-! ## Answers -/

/-- What the other side of a call comes up with. -/
inductive Detail where
  | plain
  | status (code : Nat)
  | invitation (invitation : Option Json)
  | wallet (id token : String)
  /-- All wallets, in the order in which the server lists them. -/
  | listed (wallets : List Wallet)
  | token (token : String)
  | data (data : Option Json)
  | elapsed (ms : ℚ)

/-- What a call does when it takes effect, and what it gives. Names of containers, pods and services are unique,
and so are the names of the wallets a server has. Wallet ids are never used again, and no token is issued for two
wallets. A token is issued only for the key with which the wallet was registered. -/
def effect (env : Env) (op : Op) (d : Detail) (w : World) : Option (op.Val × World) :=
  match op, d with
  | .createContainer config, .plain =>
      if (w.runtime.containers config.agentId).isNone then
        some ((), w.setContainer config.agentId (some { config, started := false }))
      else none
  | .startContainer name, .plain =>
      match w.runtime.containers name with
      | some c => if c.started then none else some ((), w.setContainer name (some { c with started := true }))
      | none => none
  | .stopContainer name, .plain =>
      match w.runtime.containers name with
      | some c => if c.started then some ((), w.setContainer name none) else none
      | none => none
  | .createNamespacedPod config, .plain =>
      if (w.runtime.pods config.agentId).isNone then some ((), w.setPod config.agentId (some config)) else none
  | .createNamespacedService config, .plain =>
      if (w.runtime.services config.agentId).isNone then
        some ((), w.setService config.agentId (some config))
      else none
  | .deleteNamespacedService id, .plain =>
      if (w.runtime.services id).isSome then some ((), w.setService id none) else none
  | .deleteNamespacedPod id, .plain =>
      if (w.runtime.pods id).isSome then some ((), w.setPod id none) else none
  | .cacheGet key, .plain => some (w.get env key, w)
  | .cacheSet key entry ttl, .plain => some ((), w.set env key entry ttl)
  | .cacheDel key, .plain => some ((), w.del key)
  | .status target, .status code => if w.accepts env target then some (code, w) else none
  | .createInvitation target, .invitation invitation =>
      if w.accepts env target then some (invitation, w) else none
  | .createWallet _ data, .wallet id token =>
      if w.server.wallets.any (·.name == data.walletName) || w.server.registered.any (·.id == id) ||
          w.server.issued.any (·.1 == token) then
        none
      else some ((id, token), w.register { id, name := data.walletName, key := data.walletKey } token)
  | .getAllWallets _, .listed wallets =>
      if wallets.Perm w.server.wallets then
        some (wallets.map fun wallet => { walletId := wallet.id, walletName := wallet.name }, w)
      else none
  | .getToken _ walletId walletKey, .token token =>
      match w.server.wallets.find? fun wallet => wallet.id == walletId && wallet.key == walletKey with
      | some wallet =>
          if w.server.issued.all fun p => p.1 != token || p.2 == wallet then
            some (token, w.issue wallet token)
          else none
      | none => none
  | .removeWallet _ (some walletId) _, .data data =>
      if w.server.wallets.any (·.id == walletId) then some (data, w.unregister walletId) else none
  | .handleAcapyWebhookMsg _, .data data => some (data, w)
  | .getTime, .plain => some (w.now, w)
  | .delay ms, .elapsed d => if ms ≤ d then some ((), { w with now := w.now + d }) else none
  | .setTimeout agentId ms, .plain =>
      some ((), { w with timers := w.timers ++ [{ agentId, due := w.now + timerDelay ms }] })
  | .register _ _, .data data => some (data, w)
  | _, _ => none

/-- The answer of a call that took effect can be lost. Then the call rejects, or `requestWithRetry` sends it again. The
retry is another package's, which may well resend no call that took effect; that it can is an assumption, so that what
holds of every run holds with either retry. -/
inductive Outcome where
  | answered
  | rejected (e : JsError)
  | unanswered

/-- A call fails without effect, or it takes effect whatever its outcome. -/
inductive Choice where
  | failed (e : JsError)
  | done (d : Detail) (o : Outcome)

def Op.remote : Op → Bool
  | .getTime | .delay _ | .setTimeout _ _ => false
  | _ => true

/-- Calls through `requestWithRetry`, which are assumed to be sent again at times (see `Outcome`). -/
def Op.retried : Op → Bool
  | .createInvitation _ | .createWallet _ _ | .getAllWallets _ | .getToken _ _ _ | .removeWallet _ _ _
  | .register _ _ => true
  | _ => false

def answer (env : Env) (op : Op) (ch : Choice) (w : World) : Option (Option (Except JsError op.Val) × World) :=
  match ch with
  | .failed e => if op.remote then some (some (.error e), w) else none
  | .done d o =>
      match effect env op d w with
      | none => none
      | some (v, w') =>
          match o with
          | .answered => some (some (.ok v), w')
          | .rejected e => if op.remote then some (some (.error e), w') else none
          | .unanswered => if op.retried then some (none, w') else none

def machine (env : Env) : Machine JsError Op.Val World Choice := { answer := answer env }

/-! ## Calls -/

inductive Call where
  | spinUpAgent (agentDto : AgentCreateDto)
  | spinDownAgent (agentId : String)
  | connectAgent (agentId adminApiKey : String)
  | createWallet (body : WalletCreateDto)
  | removeWallet (walletName walletKey : String)
  | handleRequest (agentId route topic : String) (body : Json)
  | createAgentConnection (agentId : String)
  | registerWithTDC (agentId : String) (body : RegisterTdcDto)
deriving DecidableEq

inductive Reply where
  | agent (reply : AgentManagerService.AgentReply)
  | wallet (reply : MultitenantService.WalletReply)
  | data (data : Option Json)
  | nothing

def Call.body (env : Env) : Call → Prog JsError Op.Val Reply
  | .spinUpAgent agentDto => do return .agent (← AgentManagerService.spinUpAgent env agentDto)
  | .spinDownAgent agentId => do
      AgentManagerService.spinDownAgent env agentId
      return .nothing
  | .connectAgent agentId adminApiKey => do
      return .agent (← AgentManagerService.connectAgent env agentId adminApiKey)
  | .createWallet body => do return .wallet (← MultitenantService.createWallet env body)
  | .removeWallet walletName walletKey => do
      return .data (← MultitenantService.removeWallet env walletName walletKey)
  | .handleRequest agentId route topic body => do
      return .data (← AgentControllerService.handleRequest env agentId route topic body)
  | .createAgentConnection agentId => do
      return .data (← TransactionService.createAgentConnection env agentId)
  | .registerWithTDC agentId body => do
      return .data (← TransactionService.registerWithTDC env agentId body)

inductive Event where
  | pass (ms : ℚ)
  /-- The cache drops an entry. -/
  | evict (key : String)
  | fire (t : Timer)

def event : Event → World → Option (World × List Call)
  | .pass ms, w => if 0 ≤ ms then some ({ w with now := w.now + ms }, []) else none
  | .evict key, w => some (w.del key, [])
  | .fire t, w =>
      if t ∈ w.timers ∧ t.due ≤ w.now then
        some ({ w with timers := w.timers.erase t }, [.spinDownAgent t.agentId])
      else none

def system (env : Env) : System JsError Op.Val World Choice Call Event Reply :=
  { machine env with
    body := Call.body env
    env := event }

end GuardianshipAgency.Agency
