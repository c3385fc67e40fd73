import GuardianshipAgency.Agency.World
import GuardianshipAgency.Async.Lemmas.Ensures

/-!
# The calls that each service makes
-/

namespace GuardianshipAgency.Agency

open Js Async

variable (env : Env)

/-! ## What each call may await -/

def StartOp (config : AgentConfig) : Op → Prop
  | .createContainer c | .createNamespacedPod c | .createNamespacedService c => c = config
  | .startContainer name => name = config.agentId
  | _ => False

/-- What `spinUpAgent` may await after `startAgent`. -/
def ManageOp (config : AgentConfig) : Op → Prop
  | .cacheGet key => key = config.agentId
  | .cacheSet key entry ttl =>
      key = config.agentId ∧ entry = AgentManagerService.cacheEntry config ∧
        ttl = AgentManagerService.cacheTtl config
  | .status t | .createInvitation t =>
      t = { host := .agent config.agentId (.number config.adminPort), apiKey := config.adminApiKey }
  | .getTime => True
  | .delay ms => ms = 1000
  | .setTimeout agentId ms => agentId = config.agentId ∧ ∃ ttl : ℚ, config.ttl = ttl ∧ 0 < ttl ∧ ms = ttl * 1000
  | _ => False

def SpinUpOp (config : AgentConfig) (op : Op) : Prop := StartOp config op ∨ ManageOp config op

def SpinDownOp (id : String) : Op → Prop
  | .cacheDel key => key = id
  | .stopContainer name => name = id
  | .deleteNamespacedService name | .deleteNamespacedPod name => name = id
  | _ => False

/-- For how long the entry of a wallet is asked to be kept. -/
def walletTtl (body : WalletCreateDto) : WithTop ℚ :=
  let ttl := body.ttl.getD MultitenantService.defaultTtlSeconds
  if ttl = 0 then ⊤ else ttl

def CreateWalletOp (body : WalletCreateDto) : Op → Prop
  | .createWallet _ data => data.walletName = body.walletName ∧ data.walletKey = body.walletKey
  | .cacheGet key => key = body.walletName
  | .getAllWallets _ => True
  | .getToken _ _ walletKey => walletKey = body.walletKey
  | .cacheSet key entry ttl => key = body.walletName ∧ ttl = walletTtl body ∧
      ∃ token walletId, entry = .wallet env.acapyAdminApiKey token walletId body.walletKey (walletTtl body)
  | .createInvitation t => t.host = .multitenant
  | _ => False

/-- The calls of the other services leave cache and runtime as they are, and wait for a second at a time. -/
def ReadOp : Op → Prop
  | .cacheGet _ | .status _ | .createInvitation _ | .removeWallet _ _ _ | .handleAcapyWebhookMsg _ | .register _ _
  | .getTime => True
  | .delay ms => ms = 1000
  | _ => False

def Call.Makes : Call → Op → Prop
  | .spinUpAgent agentDto => SpinUpOp (AgentConfig.new env agentDto)
  | .spinDownAgent agentId => SpinDownOp agentId
  | .createWallet body => CreateWalletOp env body
  | _ => ReadOp

/-! ## `AgentManagerService` -/

namespace AgentManagerService

theorem startAgent_calls (config : AgentConfig) : (startAgent env config).Calls (StartOp config) := by
  unfold startAgent
  cases env.managerType with
  | docker => exact .bind (.call rfl) fun _ => .call rfl
  | k8s => exact .bind (.call rfl) fun _ => .call rfl

theorem setAgentCache_calls (config : AgentConfig) : (setAgentCache config).Calls (ManageOp config) :=
  .call ⟨rfl, rfl, rfl⟩

theorem setSpinDownJob_calls (config : AgentConfig) : (setSpinDownJob config).Calls (ManageOp config) := by
  unfold setSpinDownJob
  split
  · trivial
  · rename_i ttl httl
    split
    · rename_i hpos
      exact .call ⟨rfl, ttl, httl, hpos, rfl⟩
    · trivial

theorem isAgentServerUp_calls (G : Op → Prop) {agentId : String} {adminPort : AdminPort} {adminApiKey : String}
    (h : G (.status { host := .agent agentId adminPort, apiKey := adminApiKey })) :
    (isAgentServerUp agentId adminPort adminApiKey).Calls G :=
  .tryCatch (.bind (.call h) fun _ => trivial) fun _ => trivial

theorem pingRounds_calls (G : Op → Prop) {agentId : String} {adminPort : AdminPort} {adminApiKey : String}
    (h : G (.status { host := .agent agentId adminPort, apiKey := adminApiKey })) (ht : G .getTime)
    (hd : G (.delay 1000)) (durationMS startOf : ℚ) (n : Nat) :
    (pingRounds agentId adminPort adminApiKey durationMS startOf n).Calls G := by
  induction n with
  | zero => trivial
  | succ n ih =>
      refine .bind (.call ht) fun now => ?_
      split
      · refine .bind (.call hd) fun _ => .bind (isAgentServerUp_calls G h) fun up => ?_
        cases up with
        | true => trivial
        | false => exact ih
      · trivial

theorem pingConnectionWithRetry_calls (G : Op → Prop) {agentId : String} {adminPort : AdminPort}
    {adminApiKey : String} (h : G (.status { host := .agent agentId adminPort, apiKey := adminApiKey }))
    (ht : G .getTime) (hd : G (.delay 1000)) (durationMS : Option ℚ) :
    (pingConnectionWithRetry agentId adminPort adminApiKey durationMS).Calls G := by
  refine .bind (.call ht) fun startOf => ?_
  cases durationMS with
  | none => trivial
  | some d => exact pingRounds_calls G h ht hd _ _ _

theorem agentDataOrAdded_calls (config : AgentConfig) : (agentDataOrAdded config).Calls (ManageOp config) := by
  refine .bind (.call rfl) fun agentData => ?_
  split
  · exact .bind (setAgentCache_calls config) fun _ => .call rfl
  · trivial

theorem handleAlreadyRunningContainer_calls (config : AgentConfig) (autoConnect : Option Bool) (e : JsError) :
    (handleAlreadyRunningContainer config autoConnect e).Calls (ManageOp config) := by
  refine .bind (agentDataOrAdded_calls config) fun agentData => ?_
  cases agentData with
  | entry e =>
      dsimp only
      split
      · exact .bind (.call rfl) fun _ => trivial
      · trivial
  | _ => trivial

theorem finishSpinUp_calls (agentDto : AgentCreateDto) :
    (finishSpinUp env agentDto).Calls (ManageOp (AgentConfig.new env agentDto)) := by
  refine .bind (setAgentCache_calls _) fun _ => .bind (setSpinDownJob_calls _) fun _ => ?_
  split
  · exact .bind (pingConnectionWithRetry_calls (ManageOp _) rfl trivial rfl _) fun _ =>
      .bind (.call rfl) fun _ => trivial
  · trivial

theorem spinUpAgent_calls (agentDto : AgentCreateDto) :
    (spinUpAgent env agentDto).Calls (SpinUpOp (AgentConfig.new env agentDto)) :=
  .bind (.tryCatch ((startAgent_calls env _).mono fun _ => .inl) fun e =>
    (handleAlreadyRunningContainer_calls _ _ e).mono fun _ => .inr) fun _ =>
      (finishSpinUp_calls env agentDto).mono fun _ => .inr

theorem spinDownAgent_calls (agentId : String) : (spinDownAgent env agentId).Calls (SpinDownOp agentId) := by
  refine .tryCatch (.bind (.call rfl) fun _ => ?_) fun _ => trivial
  unfold stopAgent
  cases env.managerType with
  | docker => exact .call rfl
  | k8s => exact .bind (.call rfl) fun _ => .call rfl

theorem connectAgent_calls (agentId adminApiKey : String) :
    (connectAgent env agentId adminApiKey).Calls ReadOp :=
  .bind (.call trivial) fun _ => .bind (pingConnectionWithRetry_calls ReadOp trivial trivial rfl _)
    fun _ => .bind (.call trivial) fun _ => trivial

end AgentManagerService

/-! ## `MultitenantService` -/

namespace MultitenantService

theorem handleCacheMiss_calls (body : WalletCreateDto) :
    (handleCacheMiss env body.walletName body.walletKey).Calls (CreateWalletOp env body) := by
  refine .bind (.call trivial) fun allWallets => ?_
  split
  · trivial
  · split
    · trivial
    · exact .bind (.call rfl) fun _ => trivial

theorem getTokenAndWalletId_calls (body : WalletCreateDto) :
    (getTokenAndWalletId env body.walletName body.walletKey).Calls (CreateWalletOp env body) := by
  refine .bind (.call rfl) fun agent => ?_
  split
  · split
    · trivial
    · trivial
  · trivial
  · exact handleCacheMiss_calls env body

theorem createOrFindWallet_calls (body : WalletCreateDto) :
    (createOrFindWallet env body).Calls (CreateWalletOp env body) := by
  refine .tryCatch (.call ⟨rfl, rfl⟩) fun e => ?_
  split
  · exact getTokenAndWalletId_calls env body
  · trivial

theorem invitationFor_calls (body : WalletCreateDto) (token : String) :
    (invitationFor env body token).Calls (CreateWalletOp env body) := by
  unfold invitationFor
  split
  · exact .call rfl
  · trivial

theorem createWallet_calls (body : WalletCreateDto) :
    (createWallet env body).Calls (CreateWalletOp env body) :=
  .bind (createOrFindWallet_calls env body) fun _ => .bind (.call ⟨rfl, rfl, _, _, rfl⟩) fun _ =>
    .bind (invitationFor_calls env body _) fun _ => trivial

theorem removeWallet_calls (walletName walletKey : String) :
    (removeWallet env walletName walletKey).Calls ReadOp := by
  refine .bind (.call trivial) fun agent => ?_
  split
  · exact .call trivial
  · trivial

end MultitenantService

/-! ## The other services -/

theorem AgentControllerService.handleRequest_calls (agentId route topic : String) (body : Json) :
    (AgentControllerService.handleRequest env agentId route topic body).Calls ReadOp := by
  refine .bind (.call trivial) fun cached => .bind ?_ fun agent => .bind ?_ fun _ => .call trivial
  · trivial
  · trivial

theorem TransactionService.createAgentConnection_calls (agentId : String) :
    (TransactionService.createAgentConnection env agentId).Calls ReadOp := by
  refine .bind (.bind (.call trivial) fun agentData => ?_) fun _ => .call trivial
  split
  · trivial
  · exact .bind trivial fun _ => trivial

theorem TransactionService.registerWithTDC_calls (agentId : String) (body : RegisterTdcDto) :
    (TransactionService.registerWithTDC env agentId body).Calls ReadOp :=
  .bind (TransactionService.createAgentConnection_calls env agentId) fun _ => .bind trivial fun _ =>
    .bind (.call trivial) fun _ => trivial

theorem Call.body_calls (k : Call) : (k.body env).Calls (k.Makes env) := by
  cases k with
  | spinUpAgent agentDto => exact .bind (AgentManagerService.spinUpAgent_calls env agentDto) fun _ => trivial
  | spinDownAgent agentId => exact .bind (AgentManagerService.spinDownAgent_calls env agentId) fun _ => trivial
  | connectAgent agentId adminApiKey =>
      exact .bind (AgentManagerService.connectAgent_calls env agentId adminApiKey) fun _ => trivial
  | createWallet body => exact .bind (MultitenantService.createWallet_calls env body) fun _ => trivial
  | removeWallet walletName walletKey =>
      exact .bind (MultitenantService.removeWallet_calls env walletName walletKey) fun _ => trivial
  | handleRequest agentId route topic body =>
      exact .bind (AgentControllerService.handleRequest_calls env agentId route topic body) fun _ => trivial
  | createAgentConnection agentId =>
      exact .bind (TransactionService.createAgentConnection_calls env agentId) fun _ => trivial
  | registerWithTDC agentId body =>
      exact .bind (TransactionService.registerWithTDC_calls env agentId body) fun _ => trivial

end GuardianshipAgency.Agency
