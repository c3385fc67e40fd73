import GuardianshipAgency.Agency.Lemmas.Calls
import GuardianshipAgency.Async.Lease
import GuardianshipAgency.Ownership.Lemmas.Objects

/-!
# The second halves of starts and stops

A start creates a container and then starts it, or creates a pod and then its service. On K8s a stop deletes the service
and then the pod. Whoever has done the first half holds a lease of the agent's name.
-/

namespace GuardianshipAgency.Agency

open Js Async

/-! ## Pods and services -/

inductive PodSecond (id : String) : Op → Prop where
  | create {config : AgentConfig} (hid : config.agentId = id) : PodSecond id (.createNamespacedService config)
  | delete : PodSecond id (.deleteNamespacedPod id)

inductive PodGives (id : String) : Op → Op → Prop where
  | create {config : AgentConfig} (hid : config.agentId = id) :
      PodGives id (.createNamespacedPod config) (.createNamespacedService config)
  | delete : PodGives id (.deleteNamespacedService id) (.deleteNamespacedPod id)

/-- The pod is there without its service. Before a service is created, it is the pod of the same configuration. -/
inductive PodAgrees (id : String) : Op → Objects → Prop where
  | create {config : AgentConfig} {o : Objects} (hid : config.agentId = id) (hpod : o.pod = some config)
      (hservice : o.service = none) : PodAgrees id (.createNamespacedService config) o
  | delete {config : AgentConfig} {o : Objects} (hpod : o.pod = some config) (hservice : o.service = none) :
      PodAgrees id (.deleteNamespacedPod id) o

/-- The service of an agent is created after its pod, with the same configuration, and deleted before it. -/
def podLease (id : String) : Lease Call Op World where
  uses := PodSecond id
  gives _ := PodGives id
  inv w := ∀ config, (w.runtime.objects id).service = some config → (w.runtime.objects id).pod = some config
  agrees _ op w := PodAgrees id op (w.runtime.objects id)

theorem PodAgrees.half {id : String} {op : Op} {o : Objects} (h : PodAgrees id op o) :
    o.service = none ∧ ∃ config, o.pod = some config := by
  cases h with
  | create hid hpod hservice => exact ⟨hservice, _, hpod⟩
  | delete hpod hservice => exact ⟨hservice, _, hpod⟩

/-! ## Containers -/

inductive ContainerGives (env : Env) (id : String) : Call → Op → Op → Prop where
  | create {agentDto : AgentCreateDto} (hid : agentDto.agentId = id) :
      ContainerGives env id (.spinUpAgent agentDto) (.createContainer (AgentConfig.new env agentDto))
        (.startContainer id)

/-- The container that the call has created is still there, and nobody has started it. -/
inductive ContainerAgrees (env : Env) (id : String) : Call → Op → Objects → Prop where
  | create {agentDto : AgentCreateDto} {o : Objects} (hid : agentDto.agentId = id)
      (hcreated : o.container = some { config := AgentConfig.new env agentDto, started := false }) :
      ContainerAgrees env id (.spinUpAgent agentDto) (.startContainer id) o

def containerLease (env : Env) (id : String) : Lease Call Op World where
  uses op := op = .startContainer id
  gives := ContainerGives env id
  inv _ := True
  agrees k op w := ContainerAgrees env id k op (w.runtime.objects id)

theorem ContainerAgrees.half {env : Env} {id : String} {k : Call} {op : Op} {o : Objects}
    (h : ContainerAgrees env id k op o) : ∃ config, o.container = some { config, started := false } := by
  cases h with
  | create hid hcreated => exact ⟨_, hcreated⟩

variable {env : Env}

/-! ## Calls that start and stop nothing -/

theorem readOp_ne {op : Op} (h : ReadOp op) : (∀ id, ¬PodSecond id op) ∧ ∀ id, op ≠ .startContainer id := by
  refine ⟨fun id hsecond => ?_, fun id he => ?_⟩
  · cases hsecond <;> exact h
  · subst he
    exact h

theorem manageOp_ne {config : AgentConfig} {op : Op} (h : ManageOp config op) :
    (∀ id, ¬PodSecond id op) ∧ ∀ id, op ≠ .startContainer id := by
  refine ⟨fun id hsecond => ?_, fun id he => ?_⟩
  · cases hsecond <;> exact h
  · subst he
    exact h

theorem createWalletOp_ne {body : WalletCreateDto} {op : Op} (h : CreateWalletOp env body op) :
    (∀ id, ¬PodSecond id op) ∧ ∀ id, op ≠ .startContainer id := by
  refine ⟨fun id hsecond => ?_, fun id he => ?_⟩
  · cases hsecond <;> exact h
  · subst he
    exact h

/-- A lease that only starts and stops use. -/
theorem body_leased {uses : Op → Prop} {gives : Call → Op → Op → Prop}
    (hread : ∀ op, ReadOp op → ¬uses op) (hmanage : ∀ config op, ManageOp config op → ¬uses op)
    (hwallet : ∀ body op, CreateWalletOp env body op → ¬uses op)
    (hstart : ∀ agentDto, (AgentManagerService.startAgent env (AgentConfig.new env agentDto)).Leased uses
      (gives (.spinUpAgent agentDto)) fun _ => False)
    (hdel : ∀ key, ¬uses (.cacheDel key))
    (hstop : ∀ id, (AgentManagerService.stopAgent env id).Leased uses (gives (.spinDownAgent id)) fun _ => False)
    (k : Call) : (k.body env).Leased uses (gives k) fun _ => False := by
  cases k with
  | spinUpAgent agentDto =>
      have hcatch (e : JsError) :=
        (AgentManagerService.handleAlreadyRunningContainer_calls (AgentConfig.new env agentDto)
          agentDto.autoConnect e).mono (hmanage _)
      have hrest := (AgentManagerService.finishSpinUp_calls env agentDto).mono (hmanage _)
      exact .bind (.bind (.tryCatch (hstart agentDto) fun e => .of_calls (hcatch e)) fun _ => .of_calls hrest)
        fun _ => trivial
  | spinDownAgent agentId =>
      have hfirst : (AgentManagerService.spinDownAgent env agentId).Leased uses (gives (.spinDownAgent agentId))
          fun _ => False := by
        refine .tryCatch (.bind ?_ fun _ => hstop agentId) fun _ => trivial
        exact ⟨fun hop => absurd hop (hdel agentId), fun _ => trivial, fun _ => trivial⟩
      exact .bind hfirst fun _ => trivial
  | createWallet body =>
      have hcalls := (MultitenantService.createWallet_calls env body).mono (hwallet _)
      exact .bind (.of_calls hcalls) fun _ => trivial
  | connectAgent agentId adminApiKey =>
      exact .of_calls ((Call.body_calls env (.connectAgent agentId adminApiKey)).mono hread)
  | removeWallet walletName walletKey =>
      exact .of_calls ((Call.body_calls env (.removeWallet walletName walletKey)).mono hread)
  | handleRequest agentId route topic body =>
      exact .of_calls ((Call.body_calls env (.handleRequest agentId route topic body)).mono hread)
  | createAgentConnection agentId => exact .of_calls ((Call.body_calls env (.createAgentConnection agentId)).mono hread)
  | registerWithTDC agentId body => exact .of_calls ((Call.body_calls env (.registerWithTDC agentId body)).mono hread)

end GuardianshipAgency.Agency
