import GuardianshipAgency.Agency.Config
import GuardianshipAgency.Async.Prog

/-!
# The services

`DockerService`, `K8sService`, `AgentManagerService`, `MultitenantService`, `AgentControllerService` and the
connections of `TransactionService`. Awaited calls first, then the functions service by service. Log lines are left
out.
-/

namespace GuardianshipAgency.Agency

open Js Async

/-! ## Awaited calls -/

/-- The body of the request that creates a wallet, less its constant fields. -/
structure WalletData where
  label : String
  walletName : String
  walletKey : String
  walletWebhookUrl : String

/-- A wallet as the list of all wallets shows it: `wallet_id` and `settings['wallet.name']`. -/
structure WalletRecord where
  walletId : String
  walletName : String
deriving DecidableEq

structure WebhookMsg where
  agentUrl : String
  agentId : String
  adminApiKey : String
  route : String
  topic : String
  body : Json
  token : Option String
deriving DecidableEq

/-- The body of the request that registers with a TDC, less its constant field. `label` stands in it as `alias`. -/
structure RegisterData where
  label : Option Json
  invitation : Option Json

inductive Op where
  | createContainer (config : AgentConfig)
  | startContainer (name : String)
  | stopContainer (name : String)
  | createNamespacedPod (config : AgentConfig)
  | createNamespacedService (config : AgentConfig)
  | deleteNamespacedService (id : String)
  | deleteNamespacedPod (id : String)
  | cacheGet (key : String)
  | cacheSet (key : String) (entry : CacheEntry) (ttl : WithTop ℚ)
  | cacheDel (key : String)
  | status (target : AdminTarget)
  | createInvitation (target : AdminTarget)
  | createWallet (target : AdminTarget) (data : WalletData)
  | getAllWallets (target : AdminTarget)
  | getToken (target : AdminTarget) (walletId walletKey : String)
  | removeWallet (target : AdminTarget) (walletId : Option String) (walletKey : String)
  | handleAcapyWebhookMsg (msg : WebhookMsg)
  | register (url : String) (data : RegisterData)
  | getTime
  | delay (ms : ℚ)
  | setTimeout (agentId : String) (ms : ℚ)

/-- `status` gives the status code, `createInvitation` the field `invitation`, `createWallet` the fields
`wallet_id` and `token`. `setTimeout` is set to spin down an agent. It does not suspend the caller, but stands as a
call of its own here because it changes the world. -/
abbrev Op.Val : Op → Type
  | .cacheGet _ => Lookup
  | .status _ => Nat
  | .createInvitation _ => Option Json
  | .createWallet _ _ => String × String
  | .getAllWallets _ => List WalletRecord
  | .getToken _ _ _ => String
  | .removeWallet _ _ _ => Option Json
  | .handleAcapyWebhookMsg _ => Option Json
  | .register _ _ => Option Json
  | .getTime => ℚ
  | _ => Unit

/-! ## `DockerService` -/

def DockerService.startAgent (config : AgentConfig) : Prog JsError Op.Val Unit := do
  Prog.call (Op.createContainer config)
  Prog.call (Op.startContainer config.agentId)

def DockerService.stopAgent (id : String) : Prog JsError Op.Val Unit :=
  Prog.call (Op.stopContainer id)

/-! ## `K8sService` -/

def K8sService.startAgent (config : AgentConfig) : Prog JsError Op.Val Unit := do
  Prog.call (Op.createNamespacedPod config)
  Prog.call (Op.createNamespacedService config)

def K8sService.stopAgent (id : String) : Prog JsError Op.Val Unit := do
  Prog.call (Op.deleteNamespacedService id)
  Prog.call (Op.deleteNamespacedPod id)

/-! ## `AgentManagerService` -/

namespace AgentManagerService

def startAgent (env : Env) (config : AgentConfig) : Prog JsError Op.Val Unit :=
  match env.managerType with
  | .docker => DockerService.startAgent config
  | .k8s => K8sService.startAgent config

def stopAgent (env : Env) (id : String) : Prog JsError Op.Val Unit :=
  match env.managerType with
  | .docker => DockerService.stopAgent id
  | .k8s => K8sService.stopAgent id

def cacheTtl (config : AgentConfig) : WithTop ℚ := if config.ttl < 0 then config.ttl else config.ttl + 1

def cacheEntry (config : AgentConfig) : CacheEntry := .agent config.adminApiKey config.adminPort config.ttl

def setAgentCache (config : AgentConfig) : Prog JsError Op.Val Unit :=
  Prog.call (Op.cacheSet config.agentId (cacheEntry config) (cacheTtl config))

def setSpinDownJob (config : AgentConfig) : Prog JsError Op.Val Unit :=
  match config.ttl with
  | none => return ()
  | some ttl => if 0 < ttl then Prog.call (Op.setTimeout config.agentId (ttl * 1000)) else return ()

def createConnection (agentId : String) (adminPort : AdminPort) (adminApiKey : String) :
    Prog JsError Op.Val (Option Json) :=
  Prog.call (Op.createInvitation { host := .agent agentId adminPort, apiKey := adminApiKey })

def isAgentServerUp (agentId : String) (adminPort : AdminPort) (adminApiKey : String) :
    Prog JsError Op.Val Bool :=
  tryCatch
    (do
      let status : Nat ← Prog.call (Op.status { host := .agent agentId adminPort, apiKey := adminApiKey })
      return status == 200)
    fun _ => return false

def neverUp (agentId : String) : JsError :=
  { name := "ProtocolException", code := "Agent"
    message := "Never got a good status code from agent " ++ agentId }

/-- The rounds of the loop. Each lasts at least a second, so that the condition of the loop fails before the
rounds run out. -/
def pingRounds (agentId : String) (adminPort : AdminPort) (adminApiKey : String) (durationMS startOf : ℚ) :
    Nat → Prog JsError Op.Val Unit
  | 0 => throw (neverUp agentId)
  | n + 1 => do
      let now : ℚ ← Prog.call Op.getTime
      if now - startOf < durationMS then
        Prog.call (Op.delay 1000)
        let up ← isAgentServerUp agentId adminPort adminApiKey
        if up then
          return ()
        else
          pingRounds agentId adminPort adminApiKey durationMS startOf n
      else
        throw (neverUp agentId)

/-- No time is less than a duration that is `NaN`. -/
def pingConnectionWithRetry (agentId : String) (adminPort : AdminPort) (adminApiKey : String)
    (durationMS : Option ℚ) : Prog JsError Op.Val Unit := do
  let startOf : ℚ ← Prog.call Op.getTime
  match durationMS with
  | none => throw (neverUp agentId)
  | some durationMS =>
      pingRounds agentId adminPort adminApiKey durationMS startOf ((durationMS / 1000).ceil.toNat + 1)

/-- The first part of `handleAlreadyRunningContainer`. -/
def agentDataOrAdded (config : AgentConfig) : Prog JsError Op.Val Lookup := do
  let agentData : Lookup ← Prog.call (Op.cacheGet config.agentId)
  if agentData = .undefined then
    setAgentCache config
    Prog.call (Op.cacheGet config.agentId)
  else
    return agentData

def handleAlreadyRunningContainer (config : AgentConfig) (autoConnect : Option Bool) (e : JsError) :
    Prog JsError Op.Val Unit := do
  let agentData ← agentDataOrAdded config
  match agentData with
  | .entry _ =>
      if autoConnect = some true then do
        let _ ← createConnection config.agentId (.number config.adminPort) config.adminApiKey
        return ()
      else
        return ()
  | _ => throw e

/-- The field `connectionData` is `{}` unless a connection was created. -/
structure AgentReply where
  agentId : String
  connectionData : Option Json

/-- The part of `spinUpAgent` after its `try ... catch`. -/
def finishSpinUp (env : Env) (agentDto : AgentCreateDto) : Prog JsError Op.Val AgentReply := do
  let config := AgentConfig.new env agentDto
  setAgentCache config
  setSpinDownJob config
  if agentDto.autoConnect = some true then
    pingConnectionWithRetry config.agentId (.number config.adminPort) config.adminApiKey
      (parseInt env.agentRetryDuration)
    let connectionData ← createConnection config.agentId (.number config.adminPort) config.adminApiKey
    return { agentId := config.agentId, connectionData }
  else
    return { agentId := config.agentId, connectionData := some (.obj []) }

def spinUpAgent (env : Env) (agentDto : AgentCreateDto) : Prog JsError Op.Val AgentReply := do
  let config := AgentConfig.new env agentDto
  tryCatch (startAgent env config) fun e => handleAlreadyRunningContainer config agentDto.autoConnect e
  finishSpinUp env agentDto

def spinDownAgent (env : Env) (agentId : String) : Prog JsError Op.Val Unit :=
  tryCatch
    (do
      Prog.call (Op.cacheDel agentId)
      stopAgent env agentId)
    fun _ => return ()

def connectAgent (env : Env) (agentId adminApiKey : String) : Prog JsError Op.Val AgentReply := do
  let agentCache : Lookup ← Prog.call (Op.cacheGet agentId)
  let adminPort := match agentCache with
    | .entry e => e.adminApiPort
    | _ => .number (parseInt env.agentAdminPort)
  pingConnectionWithRetry agentId adminPort adminApiKey (parseInt env.agentRetryDuration)
  let connectionData ← createConnection agentId adminPort adminApiKey
  return { agentId, connectionData }

end AgentManagerService

/-! ## `MultitenantService` -/

namespace MultitenantService

def defaultTtlSeconds : ℚ := 3600

def internalServerError (message : String) : JsError :=
  { name := "ProtocolException", code := "INTERNAL_SERVER_ERROR", message }

def target (env : Env) : AdminTarget := { host := .multitenant, apiKey := env.acapyAdminApiKey }

def callCreateWallet (env : Env) (body : WalletCreateDto) : Prog JsError Op.Val (String × String) :=
  Prog.call (Op.createWallet (target env)
    { label := orElse body.label "multitenant"
      walletName := body.walletName
      walletKey := body.walletKey
      walletWebhookUrl :=
        orElse body.controllerUrl (env.internalUrl ++ "/v1/controller/" ++ body.walletName) })

def callCreateConnection (env : Env) (token : String) : Prog JsError Op.Val (Option Json) :=
  Prog.call (Op.createInvitation { target env with token := some token })

def isLineTerminator (c : Char) : Bool := c == '\n' || c == '\r' || c == '\u2028' || c == '\u2029'

/-- `.+` and then `tail`. -/
def matchesSome (tail : List Char) : List Char → Bool
  | [] => false
  | c :: cs => !isLineTerminator c && (tail.isPrefixOf cs || matchesSome tail cs)

/-- `/Wallet with .+ already exists/` -/
def matchesAlreadyExists : List Char → Bool
  | [] => false
  | c :: cs =>
      ("Wallet with ".toList.isPrefixOf (c :: cs) &&
        matchesSome " already exists".toList ((c :: cs).drop "Wallet with ".length)) ||
      matchesAlreadyExists cs

def alreadyExists (e : JsError) : Bool := e.details.any fun details => matchesAlreadyExists details.toList

def addWalletToCache (env : Env) (walletName walletKey walletId token : String) (ttl : ℚ) :
    Prog JsError Op.Val Unit :=
  let ttl : WithTop ℚ := if ttl = 0 then ⊤ else ttl
  Prog.call (Op.cacheSet walletName (.wallet env.acapyAdminApiKey token walletId walletKey ttl) ttl)

def handleCacheMiss (env : Env) (walletName walletKey : String) : Prog JsError Op.Val (String × String) := do
  let allWallets : List WalletRecord ← Prog.call (Op.getAllWallets (target env))
  match allWallets.find? fun wallet => wallet.walletName == walletName with
  | none => throw (internalServerError "Error creating wallet on multitenant")
  | some wallet =>
      if wallet.walletId = "" then
        throw (internalServerError "Error creating wallet on multitenant")
      else
        let token : String ← Prog.call (Op.getToken (target env) wallet.walletId walletKey)
        return (wallet.walletId, token)

def getTokenAndWalletId (env : Env) (walletName walletKey : String) :
    Prog JsError Op.Val (String × String) := do
  let agent : Lookup ← Prog.call (Op.cacheGet walletName)
  match agent with
  | .entry (.wallet _ token walletId key _) =>
      if key = walletKey then
        return (walletId, token)
      else
        throw (internalServerError "Error creating wallet on multitenant")
  -- the `walletKey` of an agent's entry is `undefined`
  | .entry (.agent _ _ _) => throw (internalServerError "Error creating wallet on multitenant")
  | _ => handleCacheMiss env walletName walletKey

structure WalletReply where
  invitation : Option Json
  token : Option String

/-- The first part of `createWallet`: the wallet id and the token. -/
def createOrFindWallet (env : Env) (body : WalletCreateDto) : Prog JsError Op.Val (String × String) :=
  tryCatch (callCreateWallet env body) fun e =>
    if alreadyExists e then
      getTokenAndWalletId env body.walletName body.walletKey
    else
      throw (internalServerError "Error creating wallet on multitenant")

def invitationFor (env : Env) (body : WalletCreateDto) (token : String) : Prog JsError Op.Val (Option Json) :=
  if body.autoConnect = some true then callCreateConnection env token else return some .null

def createWallet (env : Env) (body : WalletCreateDto) : Prog JsError Op.Val WalletReply := do
  let idAndToken ← createOrFindWallet env body
  let ttl := body.ttl.getD defaultTtlSeconds
  addWalletToCache env body.walletName body.walletKey idAndToken.1 idAndToken.2 ttl
  let invitation ← invitationFor env body idAndToken.2
  return { invitation, token := if body.returnToken = some true then some idAndToken.2 else none }

def removeWallet (env : Env) (walletName walletKey : String) : Prog JsError Op.Val (Option Json) := do
  let agent : Lookup ← Prog.call (Op.cacheGet walletName)
  match agent with
  | .entry e => Prog.call (Op.removeWallet (target env) e.walletId walletKey)
  | _ => throw (internalServerError "Error removing wallet on multitenant")

end MultitenantService

/-! ## `AgentControllerService` -/

def AgentControllerService.handleRequest (env : Env) (agentId route topic : String) (body : Json) :
    Prog JsError Op.Val (Option Json) := do
  let cached : Lookup ← Prog.call (Op.cacheGet agentId)
  let agent ← Prog.ofExcept (cached.deref "multitenant")
  let host : AdminHost := if agent.multitenant then .multitenant else .agent agentId agent.adminApiPort
  Prog.ofExcept (env.getHandler topic)
  Prog.call (Op.handleAcapyWebhookMsg
    { agentUrl := host.url env, agentId, adminApiKey := agent.adminApiKey, route, topic, body
      token := agent.token })

/-! ## `TransactionService` -/

def TransactionService.getAgentAdminApiKey (agentId : String) : Prog JsError Op.Val String := do
  let agentData : Lookup ← Prog.call (Op.cacheGet agentId)
  if agentData = .undefined then
    throw { name := "ProtocolException", code := "INVALID_BACKEND_OPERATION", message := "agent expected but not found" }
  else
    let agent ← Prog.ofExcept (agentData.deref "adminApiKey")
    return agent.adminApiKey

def TransactionService.createAgentConnection (env : Env) (agentId : String) :
    Prog JsError Op.Val (Option Json) := do
  let adminApiKey ← TransactionService.getAgentAdminApiKey agentId
  Prog.call (Op.createInvitation { host := .agent agentId (.text env.agentAdminPort), apiKey := adminApiKey })

structure RegisterTdcDto where
  tdcEndpoint : String
deriving DecidableEq

/-- `result.data.connectionData` -/
def TransactionService.registerWithTDC (env : Env) (agentId : String) (body : RegisterTdcDto) :
    Prog JsError Op.Val (Option Json) := do
  let invitation ← TransactionService.createAgentConnection env agentId
  let label ← Prog.ofExcept (Json.prop invitation "label")
  let data : Option Json ← Prog.call (Op.register (body.tdcEndpoint ++ "/v2/register") { label, invitation })
  Prog.ofExcept (Json.prop data "connectionData")

end GuardianshipAgency.Agency
