import GuardianshipAgency.Js.Json
import GuardianshipAgency.Js.Number

/-!
# Requests, agent configurations and cache entries
-/

namespace GuardianshipAgency.Agency

open Js

inductive ManagerType where
  | docker
  | k8s
deriving DecidableEq

/-- What the services read from `process.env`, and what is left to other packages: `HandlersFactory.getHandler`, which
finds the handler for a topic or throws, and how many seconds the cache store keeps an entry that is set with a negative
ttl. -/
structure Env where
  managerType : ManagerType
  redisEnabled : Bool
  agentAdminPort : String
  agentHttpPort : String
  agentRetryDuration : String
  acapyAdminApiKey : String
  multitenantUrl : String
  internalUrl : String
  publicUrl : String
  getHandler : String → Except JsError Unit
  negativeTtl : WithTop ℚ

/-- A field that is `undefined` or `null` is `none`. -/
structure AgentCreateDto where
  agentId : String
  adminApiKey : String
  ttl : Option ℚ := none
  controllerUrl : Option String := none
  adminApiPort : Option ℚ := none
  autoConnect : Option Bool := none
deriving DecidableEq

structure WalletCreateDto where
  walletName : String
  walletKey : String
  label : Option String := none
  ttl : Option ℚ := none
  controllerUrl : Option String := none
  autoConnect : Option Bool := none
  returnToken : Option Bool := none
deriving DecidableEq

def orElse (a : Option String) (b : String) : String :=
  match a with
  | none => b
  | some s => if s == "" then b else s

/-! ## `AgentConfig` -/

/-- `Infinity` is `⊤`, and a port that is `NaN` is `none`. -/
structure AgentConfig where
  agentId : String
  adminApiKey : String
  adminPort : Option ℚ
  httpPort : Option ℚ
  ttl : WithTop ℚ
  webhookUrl : String
  endpoint : String
deriving DecidableEq

def AgentConfig.defaultTtlSeconds : WithTop ℚ := (3600 : ℚ)

def AgentConfig.new (env : Env) (agentDto : AgentCreateDto) : AgentConfig where
  agentId := agentDto.agentId
  adminApiKey := agentDto.adminApiKey
  adminPort :=
    match agentDto.adminApiPort with
    | none => parseInt env.agentAdminPort
    | some p => if p = 0 then parseInt env.agentAdminPort else some p
  httpPort := parseInt env.agentHttpPort
  ttl :=
    match agentDto.ttl with
    | none => AgentConfig.defaultTtlSeconds
    | some t => if t = 0 then ⊤ else t
  webhookUrl := orElse agentDto.controllerUrl (env.internalUrl ++ "/v1/controller/" ++ agentDto.agentId)
  endpoint := env.publicUrl ++ "/v1/router/" ++ agentDto.agentId

@[simp] theorem AgentConfig.new_agentId (env : Env) (agentDto : AgentCreateDto) :
    (AgentConfig.new env agentDto).agentId = agentDto.agentId := rfl

/-! ## Cache entries -/

/-- The two kinds of entries. They are written by `AgentManagerService` and `MultitenantService`. -/
inductive CacheEntry where
  | agent (adminApiKey : String) (adminApiPort : Option ℚ) (ttl : WithTop ℚ)
  | wallet (adminApiKey token walletId walletKey : String) (ttl : WithTop ℚ)
deriving DecidableEq

namespace CacheEntry

/-! A field that an entry does not have reads as `undefined`. -/

def adminApiKey : CacheEntry → String
  | .agent adminApiKey _ _ => adminApiKey
  | .wallet adminApiKey _ _ _ _ => adminApiKey

def multitenant : CacheEntry → Bool
  | .agent _ _ _ => false
  | .wallet _ _ _ _ _ => true

def token : CacheEntry → Option String
  | .agent _ _ _ => none
  | .wallet _ token _ _ _ => some token

def walletId : CacheEntry → Option String
  | .agent _ _ _ => none
  | .wallet _ _ walletId _ _ => some walletId

def walletKey : CacheEntry → Option String
  | .agent _ _ _ => none
  | .wallet _ _ _ walletKey _ => some walletKey

end CacheEntry

/-- How many seconds the cache store keeps an entry that is set with this ttl. -/
def Env.kept (env : Env) (ttl : WithTop ℚ) : WithTop ℚ := if ttl < 0 then env.negativeTtl else ttl

/-- An entry that is set with this ttl can never be read. -/
def Env.Drops (env : Env) (ttl : WithTop ℚ) : Prop := ttl < 0 ∧ env.negativeTtl ≤ 0

instance (env : Env) (ttl : WithTop ℚ) : Decidable (env.Drops ttl) :=
  inferInstanceAs (Decidable (ttl < 0 ∧ env.negativeTtl ≤ 0))

/-- What `cache.get` answers. A missing key is `undefined` in the file system store and `null` in the redis
store. -/
inductive Lookup where
  | entry (e : CacheEntry)
  | undefined
  | null
deriving DecidableEq

def Lookup.missing (env : Env) : Lookup := if env.redisEnabled then .null else .undefined

def Lookup.deref (key : String) : Lookup → Except JsError CacheEntry
  | .entry e => .ok e
  | .undefined => .error (Json.typeError ("Cannot read properties of undefined (reading '" ++ key ++ "')"))
  | .null => .error (Json.typeError ("Cannot read properties of null (reading '" ++ key ++ "')"))

/-! ## Targets of admin requests -/

/-- The port of an agent's admin API as it stands in a URL: a number, the text of a variable, or `undefined`. -/
inductive AdminPort where
  | number (p : Option ℚ)
  | text (s : String)
  | undefined
deriving DecidableEq

/-- Whether a URL with this port reaches an API that listens on `p`. Different numbers have different texts. -/
def AdminPort.reaches (p : Option ℚ) : AdminPort → Bool
  | .number p' => p' == p
  | .text s => s == numberText p
  | .undefined => false

def AdminPort.toText : AdminPort → String
  | .number p => numberText p
  | .text s => s
  | .undefined => "undefined"

def CacheEntry.adminApiPort : CacheEntry → AdminPort
  | .agent _ adminApiPort _ => .number adminApiPort
  | .wallet _ _ _ _ _ => .undefined

inductive AdminHost where
  | agent (agentId : String) (adminPort : AdminPort)
  | multitenant
deriving DecidableEq

def AdminHost.url (env : Env) : AdminHost → String
  | .agent agentId adminPort => "http://" ++ agentId ++ ":" ++ adminPort.toText
  | .multitenant => env.multitenantUrl

/-- Where an admin request goes, with its header `x-api-key` and its bearer token. -/
structure AdminTarget where
  host : AdminHost
  apiKey : String
  token : Option String := none
deriving DecidableEq

end GuardianshipAgency.Agency
