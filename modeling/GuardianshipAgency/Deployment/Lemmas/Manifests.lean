import GuardianshipAgency.Deployment.Lemmas.CommandLine
import GuardianshipAgency.Ownership.Lemmas.Halves
import GuardianshipAgency.Provenance.Theorems

/-!
# Services and the pods behind them, and containers
-/

namespace GuardianshipAgency.Deployment

open Js Async
open Agency hiding AgentConfig AgentCreateDto

variable {env : Env} {settings : Settings}

/-- What the runtime keeps as `config` was created as this pod. -/
def PodOf (env : Env) (settings : Settings) (config : Agency.AgentConfig) (pod : V1Pod) : Prop :=
  ∃ agentDto, (AgentConfig.new env settings agentDto).toAgentConfig = config ∧
    pod = K8sService.createPod settings (AgentConfig.new env settings agentDto)

def ServiceOf (env : Env) (settings : Settings) (config : Agency.AgentConfig) (service : V1Service) : Prop :=
  ∃ agentDto, (AgentConfig.new env settings agentDto).toAgentConfig = config ∧
    service = K8sService.createService (AgentConfig.new env settings agentDto)

/-- The option that makes an agent listen on a port. -/
def listenOption (port : Port) : Option String × List (Option String) :=
  if port.name = "http" then (some "--inbound-transport", [some "http", some "0.0.0.0", some (numberText port.port)])
  else (some "--admin", [some "0.0.0.0", some (numberText port.port)])

/-- The agent in the pod is told to listen on the ports of the pod. -/
def V1Pod.Listens (pod : V1Pod) : Prop :=
  ∃ options, Cli.read arity pod.args.tail = some options ∧ ∀ port ∈ pod.ports, listenOption port ∈ options

/-- The service has the name `id`. It sends its traffic to the pod of that name, which is there, and to no other, and
the agent in the pod listens on the ports of the service. -/
structure Reaches (env : Env) (settings : Settings) (rt : Runtime) (id : String) (service : V1Service) : Prop where
  name : service.name = id
  pod : ∃ config pod, rt.pods id = some config ∧ PodOf env settings config pod
  selects : ∀ id' config pod, rt.pods id' = some config → PodOf env settings config pod →
    (service.Selects pod ↔ id' = id)
  ports : ∀ config pod, rt.pods id = some config → PodOf env settings config pod →
    service.ports = pod.ports ∧ pod.Listens

theorem PodOf.listens {config : Agency.AgentConfig} {pod : V1Pod} (h : PodOf env settings config pod) :
    pod.Listens := by
  obtain ⟨agentDto, -, rfl⟩ := h
  refine ⟨_, read_getStartArgs env settings agentDto, fun port hport => ?_⟩
  simp only [K8sService.createPod, List.mem_cons, List.not_mem_nil, or_false] at hport
  rcases hport with rfl | rfl
  · exact inbound_mem_options _ _
  · exact admin_mem_options _ _

theorem selects_iff {config config' : Agency.AgentConfig} {service : V1Service} {pod : V1Pod}
    (hservice : ServiceOf env settings config service) (hpod : PodOf env settings config' pod) :
    service.Selects pod ↔ config'.agentId = config.agentId := by
  obtain ⟨agentDto, rfl, rfl⟩ := hservice
  obtain ⟨agentDto', rfl, rfl⟩ := hpod
  simp [V1Service.Selects, K8sService.createService, K8sService.createPod, eq_comm]

theorem ports_eq {config : Agency.AgentConfig} {service : V1Service} {pod : V1Pod}
    (hservice : ServiceOf env settings config service) (hpod : PodOf env settings config pod) :
    service.ports = pod.ports := by
  obtain ⟨agentDto, rfl, rfl⟩ := hservice
  obtain ⟨agentDto', hsame, rfl⟩ := hpod
  exact congrArg (fun config : Agency.AgentConfig =>
    [({ name := "http", port := config.httpPort } : Port), { name := "admin", port := config.adminPort }]) hsame.symm

theorem http_mem_ports {config : Agency.AgentConfig} {service : V1Service}
    (hservice : ServiceOf env settings config service) :
    { name := "http", port := config.httpPort } ∈ service.ports := by
  obtain ⟨agentDto, rfl, rfl⟩ := hservice
  exact .head _

theorem configFrom_agentId {asked : Call → Prop} {id : String} {config : Agency.AgentConfig}
    (h : ConfigFrom env asked id config) : config.agentId = id := by
  obtain ⟨agentDto, -, hid, rfl⟩ := h
  exact hid

theorem service_reaches {ls : List (Label Choice Call Event)} {c : Config JsError Op.Val World Call Reply}
    (hrun : (system env).run (.init .empty) ls = some c) {id : String} {config : Agency.AgentConfig}
    (hsome : c.world.runtime.services id = some config) {service : V1Service}
    (hservice : ServiceOf env settings config service) : Reaches env settings c.world.runtime id service := by
  have hinit : (podLease id).inv World.empty := fun config h => by cases h
  have hpod := (Lease.Ok.run (podLease_sound env id) hinit hrun).inv config hsome
  have horigins := (originsOk hrun).inv.objects
  have hid := configFrom_agentId ((horigins id).2.2 config hsome)
  refine ⟨?_, ?_, fun id' config' pod hsome' hpodOf => ?_, fun config' pod hsome' hpodOf => ⟨?_, hpodOf.listens⟩⟩
  · obtain ⟨agentDto, rfl, rfl⟩ := hservice
    exact hid
  · obtain ⟨agentDto, hconfig, -⟩ := hservice
    exact ⟨config, _, hpod, agentDto, hconfig, rfl⟩
  · rw [selects_iff hservice hpodOf, hid, configFrom_agentId ((horigins id').2.1 config' hsome')]
  · have hsame : config' = config := Option.some.inj (hsome'.symm.trans hpod)
    exact ports_eq hservice (hsame ▸ hpodOf)

/-! ## Containers -/

end GuardianshipAgency.Deployment
