import GuardianshipAgency.Agency.Theorems
import GuardianshipAgency.Ownership.Lemmas.Halves

/-!
# Starts and stops do not get in each other's way
-/

namespace GuardianshipAgency.Agency

open Js Async

variable {env : Env}

def Awaits (th : Thread JsError Op.Val World Call Reply) (op : Op) : Prop := ∃ next, th.prog = .await op next

/-! ## Pods and services -/

/-- In every run, a service has its pod, of the same configuration. A call that is about to create the service or to
delete the pod of an agent is the only one, and still finds the pod, without a service, as it left it. -/
theorem pods_and_services {ls : List (Label Choice Call Event)} {c : Config JsError Op.Val World Call Reply}
    (hrun : (system env).run (.init .empty) ls = some c) (id : String) :
    (∀ config, c.world.runtime.services id = some config → c.world.runtime.pods id = some config) ∧
    ∀ (i : ℕ) th op, c.threads[i]? = some th → PodSecond id op → Awaits th op →
      c.world.runtime.services id = none ∧
      (∀ config, op = .createNamespacedService config → c.world.runtime.pods id = some config) ∧
      (∃ config, c.world.runtime.pods id = some config) ∧
      ∀ (j : ℕ) th' op', c.threads[j]? = some th' → PodSecond id op' → Awaits th' op' → j = i := by
  have hinit : (podLease id).inv World.empty := fun config h => by cases h
  have hok := Lease.Ok.run (podLease_sound env id) hinit hrun
  refine ⟨hok.inv, fun i th op hth hop hawaits => ?_⟩
  have hagrees : PodAgrees id op _ := hok.agrees th (List.mem_of_getElem? hth) op ⟨hop, hawaits⟩
  obtain ⟨hservice, hpod⟩ := hagrees.half
  refine ⟨hservice, ?_, hpod, fun j th' op' hth' hop' hawaits' => ?_⟩
  · rintro config rfl
    cases hagrees with
    | create _ hpod _ => exact hpod
  · exact hok.alone j i th' th op' op hth' hth ⟨hop', hawaits'⟩ ⟨hop, hawaits⟩

/-- Another spin-up comes between the pod and its service. -/
def podCreated : List (Label Choice Call Event) :=
  [.begin (.spinUpAgent sampleAgent), .answer 0 fine, .begin (.spinUpAgent sampleAgent),
    .answer 1 (.failed (Json.typeError "exists"))]

theorem pods_and_services_podCreated : ∃ c, (system sampleEnv).run (.init .empty) podCreated = some c ∧
    ∃ th, c.threads[0]? = some th ∧
      Awaits th (.createNamespacedService (AgentConfig.new sampleEnv sampleAgent)) ∧
      c.world.runtime.pods "agent" = some (AgentConfig.new sampleEnv sampleAgent) := by
  have hrun : ∃ c, (system sampleEnv).run (.init .empty) podCreated = some c ∧ ∃ th, c.threads[0]? = some th ∧
    Awaits th (.createNamespacedService (AgentConfig.new sampleEnv sampleAgent)) := ⟨_, rfl, _, rfl, _, rfl⟩
  obtain ⟨c, hc, th, hth, hawaits⟩ := hrun
  exact ⟨c, hc, th, hth, hawaits, ((pods_and_services hc "agent").2 0 th _ hth (.create rfl) hawaits).2.1 _ rfl⟩

/-! ## Containers -/

/-- In every run, a call that is about to start a container is the spin-up that created it, and the container still
has the configuration of that call and has not been started. No other call is about to start it. -/
theorem containers_started_by_creator {ls : List (Label Choice Call Event)}
    {c : Config JsError Op.Val World Call Reply} (hrun : (system env).run (.init .empty) ls = some c) {id : String}
    {i : ℕ} {th : Thread JsError Op.Val World Call Reply} (hth : c.threads[i]? = some th)
    (hawaits : Awaits th (.startContainer id)) :
    (∃ agentDto, th.call = .spinUpAgent agentDto ∧ agentDto.agentId = id ∧
      c.world.runtime.containers id = some { config := AgentConfig.new env agentDto, started := false }) ∧
    ∀ (j : ℕ) th', c.threads[j]? = some th' → Awaits th' (.startContainer id) → j = i := by
  have hok := Lease.Ok.run (containerLease_sound env id) trivial hrun
  have hagrees : ContainerAgrees env id th.call _ _ := hok.agrees th (List.mem_of_getElem? hth) _ ⟨rfl, hawaits⟩
  refine ⟨?_, fun j th' hth' hawaits' => hok.alone j i th' th _ _ hth' hth ⟨rfl, hawaits'⟩ ⟨rfl, hawaits⟩⟩
  generalize hk : th.call = k at hagrees
  cases hagrees with
  | @create agentDto _ hid hcreated => exact ⟨agentDto, rfl, hid, hcreated⟩

def dockerEnv : Env := { sampleEnv with managerType := .docker }

theorem containers_started_by_creator_podCreated : ∃ c, (system dockerEnv).run (.init .empty) podCreated = some c ∧
    ∃ th, c.threads[0]? = some th ∧ Awaits th (.startContainer "agent") ∧
      (∃ agentDto, th.call = .spinUpAgent agentDto ∧ agentDto.agentId = "agent" ∧
        c.world.runtime.containers "agent" = some { config := AgentConfig.new dockerEnv agentDto, started := false }) ∧
      ∀ (j : ℕ) th', c.threads[j]? = some th' → Awaits th' (.startContainer "agent") → j = 0 := by
  have hrun : ∃ c, (system dockerEnv).run (.init .empty) podCreated = some c ∧ ∃ th, c.threads[0]? = some th ∧
    Awaits th (.startContainer "agent") := ⟨_, rfl, _, rfl, _, rfl⟩
  obtain ⟨c, hc, th, hth, hawaits⟩ := hrun
  exact ⟨c, hc, th, hth, hawaits, containers_started_by_creator hc hth hawaits⟩

/-! ## Agents that are half made -/

/-- The first object of an agent is there without the second, and no call is about to complete or to delete it. -/
def HalfMade (env : Env) (id : String) (config : AgentConfig) (c : Config JsError Op.Val World Call Reply) : Prop :=
  match env.managerType with
  | .docker => c.world.runtime.containers id = some { config, started := false } ∧
      ∀ th ∈ c.threads, ¬Awaits th (.startContainer id)
  | .k8s => (c.world.runtime.pods id = some config ∧ c.world.runtime.services id = none) ∧
      ∀ th ∈ c.threads, ∀ op, PodSecond id op → ¬Awaits th op

theorem container_barred (env : Env) (id : String) (config : AgentConfig) :
    Lease.Barred (system env) (containerLease env id)
      fun w => w.runtime.containers id = some { config, started := false } where
  gives k op op' ch w v w' hw hgives hans := by
    cases hgives with
    | create hid =>
        obtain ⟨d, -, heffect⟩ := answer_ok hans
        obtain ⟨hfree, -⟩ := effect_createContainer heffect
        rw [AgentConfig.new_agentId, hid] at hfree
        cases hfree.symm.trans hw
  keeps op ch w a w' hop hw hans := by
    rcases answer_touches id hans with ⟨rfl, -⟩ | htouches
    · exact hw
    · change (w'.runtime.objects id).container = _
      generalize w'.runtime.objects id = o' at htouches
      cases htouches with
      | createContainer _ hfree => cases hfree.symm.trans hw
      | startContainer _ => exact absurd rfl hop
      | stopContainer hstarted => cases hstarted.symm.trans hw
      | createPod _ _ => exact hw
      | createService _ _ => exact hw
      | deleteService _ => exact hw
      | deletePod _ => exact hw
      | apart _ => exact hw
  arrive _ _ hw := hw
  env e w w' ks hw henv := by
    have hruntime : w'.runtime = w.runtime := event_runtime henv
    rwa [hruntime]

theorem pod_barred (env : Env) (id : String) (config : AgentConfig) :
    Lease.Barred (system env) (podLease id)
      fun w => w.runtime.pods id = some config ∧ w.runtime.services id = none where
  gives k op op' ch w v w' hw hgives hans := by
    obtain ⟨d, -, heffect⟩ := answer_ok hans
    cases hgives with
    | create hid =>
        obtain ⟨hfree, -⟩ := effect_createNamespacedPod heffect
        rw [hid] at hfree
        cases hfree.symm.trans hw.1
    | delete =>
        have htouches := effect_touches id heffect
        generalize w'.runtime.objects id = o' at htouches
        cases htouches with
        | deleteService hcreated => cases hw.2.symm.trans hcreated
        | apart hapart => exact hapart rfl
  keeps op ch w a w' hop hw hans := by
    rcases answer_touches id hans with ⟨rfl, -⟩ | htouches
    · exact hw
    · change (w'.runtime.objects id).pod = _ ∧ (w'.runtime.objects id).service = _
      generalize w'.runtime.objects id = o' at htouches
      cases htouches with
      | createContainer _ _ => exact hw
      | startContainer _ => exact hw
      | stopContainer _ => exact hw
      | createPod _ hfree => cases hfree.symm.trans hw.1
      | createService hid _ => exact absurd (.create hid) hop
      | deleteService hcreated => cases hw.2.symm.trans hcreated
      | deletePod _ => exact absurd .delete hop
      | apart _ => exact hw
  arrive _ _ hw := hw
  env e w w' ks hw henv := by
    have hruntime : w'.runtime = w.runtime := event_runtime henv
    rwa [hruntime]

/-- Once an agent is half made it stays so, whatever calls follow and however they go: it never runs again. -/
theorem half_made_stays {ls ls' : List (Label Choice Call Event)} {c c' : Config JsError Op.Val World Call Reply}
    (hrun : (system env).run (.init .empty) ls = some c) {id : String} {config : AgentConfig}
    (hhalf : HalfMade env id config c) (hrun' : (system env).run c ls' = some c') :
    HalfMade env id config c' ∧ c'.world.running env id = none := by
  have hbody := System.InBody.run hrun
  unfold HalfMade at hhalf ⊢
  unfold World.running Runtime.running
  cases henv : env.managerType with
  | docker =>
      rw [henv] at hhalf
      obtain ⟨hcreated, hnone⟩ := hhalf
      have hidle := Lease.Idle.run (containerLease_sound env id) (container_barred env id config) hbody
        ⟨hcreated, fun th hth op hop => hnone th hth (hop.1 ▸ hop.2)⟩ hrun'
      refine ⟨⟨hidle.world, fun th hth hawaits => hidle.free th hth _ ⟨rfl, hawaits⟩⟩, ?_⟩
      simp [hidle.world]
  | k8s =>
      rw [henv] at hhalf
      obtain ⟨hcreated, hnone⟩ := hhalf
      have hidle := Lease.Idle.run (podLease_sound env id) (pod_barred env id config) hbody
        ⟨hcreated, fun th hth op hop => hnone th hth op hop.1 hop.2⟩ hrun'
      refine ⟨⟨hidle.world, fun th hth op hop hawaits => hidle.free th hth op ⟨hop, hawaits⟩⟩, ?_⟩
      simp [hidle.world]

/-- The pod is created, its service is not. -/
def serviceFailed : List (Label Choice Call Event) :=
  [.begin (.spinUpAgent sampleAgent), .answer 0 fine, .answer 0 (.failed (Json.typeError "no service"))]

def stoppedAndStarted : List (Label Choice Call Event) :=
  [.begin (.spinDownAgent "agent"), .answer 1 fine, .answer 1 (.failed (Json.typeError "not found")),
    .begin (.spinUpAgent sampleAgent), .answer 2 (.failed (Json.typeError "exists"))]

theorem half_made_stays_serviceFailed : ∃ c c', (system sampleEnv).run (.init .empty) serviceFailed = some c ∧
    (system sampleEnv).run c stoppedAndStarted = some c' ∧
    HalfMade sampleEnv "agent" (AgentConfig.new sampleEnv sampleAgent) c' ∧
    c'.world.running sampleEnv "agent" = none := by
  have hruns : ∃ c c', (system sampleEnv).run (.init .empty) serviceFailed = some c ∧
      (system sampleEnv).run c stoppedAndStarted = some c' ∧
      c.world.runtime.pods "agent" = some (AgentConfig.new sampleEnv sampleAgent) ∧
      c.world.runtime.services "agent" = none ∧
      ∃ th, c.threads = [th] ∧ ∃ next, th.prog = .await (.cacheGet "agent") next :=
    ⟨_, _, rfl, rfl, rfl, rfl, _, rfl, _, rfl⟩
  obtain ⟨c, c', hc, hc', hpod, hservice, th, hths, next, hprog⟩ := hruns
  have hhalf : HalfMade sampleEnv "agent" (AgentConfig.new sampleEnv sampleAgent) c := by
    refine ⟨⟨hpod, hservice⟩, fun th' hth' op hop hawaits => ?_⟩
    rw [hths, List.mem_singleton] at hth'
    obtain ⟨next', hprog'⟩ := hawaits
    rw [hth', hprog] at hprog'
    cases hop <;> cases hprog'
  exact ⟨c, c', hc, hc', half_made_stays hc hhalf hc'⟩

end GuardianshipAgency.Agency
