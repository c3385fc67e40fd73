import GuardianshipAgency.Agency.Config
import GuardianshipAgency.Js.Stringify

/-!
# What agents are deployed with

The remaining fields of `AgentConfig`, the command line of an agent, and the objects that `DockerService` and
`K8sService` ask their runtimes for.
-/

namespace GuardianshipAgency.Deployment

open Js

/-- What is read from `process.env` besides `Agency.Env`, and the genesis file. A variable that is not set is `none`. -/
structure Settings where
  agentDockerImage : Option String
  indyPoolName : Option String
  networkName : Option String
  agentLogLevel : Option String
  genesisFile : String
  walletDbHost : Option String
  walletDbPort : Option String
  walletDbUser : Option String
  walletDbPass : Option String
  walletDbAdminUser : Option String
  walletDbAdminPass : Option String
  maxRequestSize : Option String
  tailsUrl : Option String
  ddEnv : Option String
  ddTags : Option String
  /-- Whether `NODE_ENV` is `Constants.LOCAL`. -/
  isLocal : Bool

structure AgentCreateDto extends Agency.AgentCreateDto where
  walletId : String
  walletKey : String
  label : Option String := none
  seed : Option String := none
  useTailsServer : Option Bool := none
deriving DecidableEq

/-! ## `AgentConfig` -/

structure AgentConfig extends Agency.AgentConfig where
  inboundTransport : String
  outboundTransport : String
  dockerImage : Option String
  ledgerPoolName : Option String
  networkName : Option String
  logLevel : Option String
  genesisTransactions : String
  walletType : String
  walletStorageType : String
  walletName : String
  walletKey : String
  walletStorageConfig : String
  walletStorageCreds : String
  admin : String
  label : Option String
  seed : Option String
  useTailsServer : Bool
  maxRequestSize : String

namespace AgentConfig

def defaultMaxRequestSize : String := "16"

/-- In a sum of strings `undefined` stands as its name. -/
def getWalletStorageConfig (settings : Settings) : Json :=
  Json.ofFields
    [("url", some (.str (settings.walletDbHost.getD "undefined" ++ ":" ++ settings.walletDbPort.getD "undefined"))),
      ("wallet_scheme", some (.str "MultiWalletSingleTable"))]

def getWalletStorageCreds (settings : Settings) : Json :=
  Json.ofFields
    [("account", settings.walletDbUser.map .str), ("password", settings.walletDbPass.map .str),
      ("admin_account", settings.walletDbAdminUser.map .str), ("admin_password", settings.walletDbAdminPass.map .str)]

def new (env : Agency.Env) (settings : Settings) (agentDto : AgentCreateDto) : AgentConfig :=
  let config := Agency.AgentConfig.new env agentDto.toAgentCreateDto
  { config with
    inboundTransport := "http 0.0.0.0 " ++ numberText config.httpPort
    outboundTransport := "http"
    dockerImage := settings.agentDockerImage
    ledgerPoolName := settings.indyPoolName
    networkName := settings.networkName
    logLevel := settings.agentLogLevel
    genesisTransactions := settings.genesisFile
    walletType := "indy"
    walletStorageType := "postgres_storage"
    walletName := agentDto.walletId
    walletKey := agentDto.walletKey
    walletStorageConfig := Json.stringify (getWalletStorageConfig settings)
    walletStorageCreds := Json.stringify (getWalletStorageCreds settings)
    admin := "0.0.0.0 " ++ numberText config.adminPort
    label := agentDto.label
    seed := agentDto.seed
    useTailsServer := agentDto.useTailsServer = some true
    maxRequestSize := Agency.orElse settings.maxRequestSize defaultMaxRequestSize }

/-- `text.split(' ')` -/
def split (text : String) : List String := (text.toList.splitOn ' ').map String.ofList

/-- An argument that is `undefined` is `none`. -/
def getStartArgs (settings : Settings) (config : AgentConfig) : List (Option String) :=
  let inboundTransportSplit := split config.inboundTransport
  let adminSplit := split config.admin
  let args :=
    [some "start",
      some "--inbound-transport", inboundTransportSplit[0]?, inboundTransportSplit[1]?, inboundTransportSplit[2]?,
      some "--outbound-transport", some config.outboundTransport,
      some "--ledger-pool-name", config.ledgerPoolName,
      some "--genesis-transactions", some config.genesisTransactions,
      some "--wallet-type", some config.walletType,
      some "--wallet-storage-type", some config.walletStorageType,
      some "--endpoint", some config.endpoint,
      some "--wallet-name", some config.walletName,
      some "--wallet-key", some config.walletKey,
      some "--wallet-storage-config", some config.walletStorageConfig,
      some "--wallet-storage-creds", some config.walletStorageCreds,
      some "--admin", adminSplit[0]?, adminSplit[1]?,
      some "--admin-api-key", some config.adminApiKey,
      some "--label", config.label,
      some "--webhook-url", some config.webhookUrl,
      some "--log-level", config.logLevel,
      some "--wallet-local-did",
      some "--auto-provision",
      some "--admin-client-max-request-size", some config.maxRequestSize]
  let args := if config.useTailsServer then args ++ [some "--tails-server-base-url", settings.tailsUrl] else args
  if config.seed.getD "" = "" then args else args ++ [some "--seed", config.seed]

end AgentConfig

/-! ## `K8sService` -/

structure Port where
  name : String
  port : Option ℚ
deriving DecidableEq

/-- The constant fields for resources, tolerations and affinity are left out. -/
structure V1Pod where
  name : String
  labels : List (String × String)
  containerName : String
  image : Option String
  ports : List Port
  args : List (Option String)
  env : List (String × Option String)
  livenessPort : Option ℚ
  readinessPort : Option ℚ

structure V1Service where
  name : String
  labels : List (String × String)
  ports : List Port
  selector : List (String × String)

/-- The pod that `createPod` asks for. -/
def K8sService.createPod (settings : Settings) (config : AgentConfig) : V1Pod where
  name := config.agentId
  labels := [("app.kubernetes.io/instance", config.agentId), ("app.kubernetes.io/name", config.agentId),
    ("agent", "true")]
  containerName := config.agentId
  image := config.dockerImage
  ports := [{ name := "http", port := config.httpPort }, { name := "admin", port := config.adminPort }]
  args := config.getStartArgs settings
  env := [("DD_ENV", settings.ddEnv), ("DD_TAGS", settings.ddTags)]
  livenessPort := config.httpPort
  readinessPort := config.httpPort

/-- The service that `createService` asks for. -/
def K8sService.createService (config : AgentConfig) : V1Service where
  name := config.agentId
  labels := [("agent", "true")]
  ports := [{ name := "http", port := config.httpPort }, { name := "admin", port := config.adminPort }]
  selector := [("app.kubernetes.io/instance", config.agentId), ("app.kubernetes.io/name", config.agentId)]

/-- A service sends its traffic to the pods that have all labels of its selector. -/
def V1Service.Selects (service : V1Service) (pod : V1Pod) : Prop := ∀ label ∈ service.selector, label ∈ pod.labels

/-! ## `DockerService` -/

/-- The constant fields `Tty` and `AutoRemove` are left out. A port binding is a port of the container with its port of
the host. -/
structure ContainerCreateOptions where
  image : Option String
  name : String
  networkMode : Option String
  portBindings : List (String × String)
  cmd : List (Option String)
  exposedPorts : List String

/-- `===` on numbers -/
def sameNumber (p p' : Option ℚ) : Bool := p.isSome && p == p'

/-- The options with which `startAgent` creates the container. Equal keys of an object are one. -/
def DockerService.startAgent (env : Agency.Env) (settings : Settings) (config : AgentConfig) :
    ContainerCreateOptions where
  image := config.dockerImage
  name := config.agentId
  networkMode := config.networkName
  portBindings :=
    [(numberText config.adminPort ++ "/tcp", numberText config.adminPort),
      (numberText config.httpPort ++ "/tcp", numberText config.httpPort)].dedup
  cmd := config.getStartArgs settings
  exposedPorts :=
    if !sameNumber config.adminPort (parseInt env.agentAdminPort) && settings.isLocal then
      [numberText config.adminPort ++ "/tcp"]
    else []

end GuardianshipAgency.Deployment
