import GuardianshipAgency.Ownership.Leases

/-!
# The leases are sound
-/

namespace GuardianshipAgency.Agency

open Js Async

variable {env : Env} {id : String}

theorem event_runtime {e : Event} {w w' : World} {ks : List Call} (h : event e w = some (w', ks)) :
    w'.runtime = w.runtime := by
  rcases event_cases h with ⟨ms, -, rfl, -⟩ | ⟨key, rfl, -⟩ | ⟨t, -, -, rfl, -⟩ <;> rfl

theorem answer_unanswered {op : Op} {ch : Choice} {w w' : World} (h : answer env op ch w = some (none, w')) :
    op.retried = true := by
  rcases answer_cases h with ⟨-, e, ha, -⟩ | ⟨d, o, v, -, -, ⟨ha, -⟩ | ⟨e, ha, -⟩ | ⟨-, -, hretried⟩⟩
  · cases ha
  · cases ha
  · cases ha
  · exact hretried

/-! ## Pods and services -/

/-- A call that disturbs nobody who has the pod without its service. -/
theorem PodAgrees.keeps {op op' : Op} {o o' : Objects} (hop : ¬PodSecond id op) (h : Touches id op o o')
    (hagrees : PodAgrees id op' o) : PodAgrees id op' o' := by
  obtain ⟨hservice, config, hpod⟩ := hagrees.half
  cases h with
  | createContainer hid hfree =>
      cases hagrees with
      | create hid hpod hservice => exact .create hid hpod hservice
      | delete hpod hservice => exact .delete hpod hservice
  | startContainer hcreated =>
      cases hagrees with
      | create hid hpod hservice => exact .create hid hpod hservice
      | delete hpod hservice => exact .delete hpod hservice
  | stopContainer hstarted =>
      cases hagrees with
      | create hid hpod hservice => exact .create hid hpod hservice
      | delete hpod hservice => exact .delete hpod hservice
  | createPod hid hfree => cases hfree.symm.trans hpod
  | createService hid hfree => exact absurd (.create hid) hop
  | deleteService hcreated => cases hservice.symm.trans hcreated
  | deletePod hcreated => exact absurd .delete hop
  | apart _ => exact hagrees

theorem PodGives.agrees {op op' : Op} {o o' : Objects} (hgives : PodGives id op op') (h : Touches id op o o')
    (hinv : ∀ config, o.service = some config → o.pod = some config) :
    PodAgrees id op' o' ∧ ∀ op'', ¬PodAgrees id op'' o := by
  cases hgives with
  | @create config hid =>
      cases h with
      | createPod _ hfree =>
          have hservice : o.service = none := by
            cases hs : o.service with
            | none => rfl
            | some config' => cases hfree.symm.trans (hinv config' hs)
          refine ⟨.create hid rfl hservice, fun op'' hagrees => ?_⟩
          obtain ⟨-, config', hpod⟩ := hagrees.half
          cases hfree.symm.trans hpod
      | apart hop => exact absurd hid hop
  | delete =>
      cases h with
      | @deleteService config _ hcreated =>
          refine ⟨.delete (hinv config hcreated) rfl, fun op'' hagrees => ?_⟩
          cases hagrees.half.1.symm.trans hcreated
      | apart hop => exact absurd rfl hop

theorem podInv_touches {op : Op} {o o' : Objects} (h : Touches id op o o')
    (hinv : ∀ config, o.service = some config → o.pod = some config) (hagrees : PodSecond id op → PodAgrees id op o) :
    ∀ config, o'.service = some config → o'.pod = some config := by
  cases h with
  | createContainer hid hfree => exact hinv
  | startContainer hcreated => exact hinv
  | stopContainer hstarted => exact hinv
  | createPod hid hfree => exact fun config' hs => by cases hfree.symm.trans (hinv config' hs)
  | createService hid hfree =>
      intro config' hs
      cases hs
      cases hagrees (.create hid) with
      | create _ hpod _ => exact hpod
  | deleteService hcreated => exact fun config' hs => by cases hs
  | deletePod hcreated =>
      intro config' hs
      cases (hagrees .delete).half.1.symm.trans hs
  | apart _ => exact hinv

theorem podLease_start (config : AgentConfig) :
    (AgentManagerService.startAgent env config).Leased (PodSecond id) (PodGives id) fun _ => False := by
  unfold AgentManagerService.startAgent
  cases env.managerType with
  | docker => exact .call_call (by rintro ⟨⟩) (by rintro ⟨⟩)
  | k8s =>
      refine .call_call (by rintro ⟨⟩) fun hsecond => ?_
      cases hsecond with
      | create hid => exact .create hid

theorem podLease_stop (agentId : String) :
    (AgentManagerService.stopAgent env agentId).Leased (PodSecond id) (PodGives id) fun _ => False := by
  unfold AgentManagerService.stopAgent
  cases env.managerType with
  | docker => exact ⟨by rintro ⟨⟩, fun _ => trivial, fun _ => trivial⟩
  | k8s =>
      refine .call_call (by rintro ⟨⟩) fun hsecond => ?_
      cases hsecond with
      | delete => exact .delete

theorem podLease_sound (env : Env) (id : String) : (podLease id).Sound (system env) where
  body k := body_leased (fun op h => (readOp_ne h).1 id) (fun config op h => (manageOp_ne h).1 id)
    (fun body op h => (createWalletOp_ne h).1 id) (fun agentDto => podLease_start _) (fun key h => nomatch h)
    podLease_stop k
  once op ch w w' hop hans := by
    have hretried := answer_unanswered hans
    cases hop <;> cases hretried
  inv k op ch w a w' hinv hagrees hans := by
    rcases answer_touches id hans with ⟨rfl, -⟩ | htouches
    · exact hinv
    · exact podInv_touches htouches hinv hagrees
  gives k op op' ch w v w' hinv hgives hans := by
    rcases answer_touches id hans with ⟨-, e, he⟩ | htouches
    · cases he
    · obtain ⟨hagrees, hnone⟩ := hgives.agrees htouches hinv
      exact ⟨hagrees, fun _ op'' _ => hnone op''⟩
  keeps k op op' ch w a w' hop _ _ hagrees hans := by
    rcases answer_touches id hans with ⟨rfl, -⟩ | htouches
    · exact hagrees
    · exact hagrees.keeps hop htouches
  arrive k w hinv := ⟨hinv, fun _ _ hagrees => hagrees⟩
  env e w w' ks hinv henv := by
    have hruntime : w'.runtime = w.runtime := event_runtime henv
    simp only [podLease, hruntime]
    exact ⟨hinv, fun _ _ hagrees => hagrees⟩

/-! ## Containers -/

theorem ContainerAgrees.keeps {k : Call} {op op' : Op} {o o' : Objects} (hop : op ≠ .startContainer id)
    (h : Touches id op o o') (hagrees : ContainerAgrees env id k op' o) : ContainerAgrees env id k op' o' := by
  cases hagrees with
  | @create agentDto _ hid hcreated =>
      cases h with
      | createContainer _ hfree => cases hfree.symm.trans hcreated
      | startContainer _ => exact absurd rfl hop
      | stopContainer hstarted => cases hstarted.symm.trans hcreated
      | createPod _ _ => exact .create hid hcreated
      | createService _ _ => exact .create hid hcreated
      | deleteService _ => exact .create hid hcreated
      | deletePod _ => exact .create hid hcreated
      | apart _ => exact .create hid hcreated

theorem ContainerGives.agrees {k : Call} {op op' : Op} {o o' : Objects} (hgives : ContainerGives env id k op op')
    (h : Touches id op o o') : ContainerAgrees env id k op' o' ∧ ∀ k' op'', ¬ContainerAgrees env id k' op'' o := by
  cases hgives with
  | @create agentDto hid =>
      cases h with
      | createContainer _ hfree =>
          refine ⟨.create hid rfl, fun k' op'' hagrees => ?_⟩
          obtain ⟨config, hcreated⟩ := hagrees.half
          cases hfree.symm.trans hcreated
      | apart hop => exact absurd hid hop

theorem containerLease_start (agentDto : AgentCreateDto) :
    (AgentManagerService.startAgent env (AgentConfig.new env agentDto)).Leased (fun op => op = .startContainer id)
      (ContainerGives env id (.spinUpAgent agentDto)) fun _ => False := by
  unfold AgentManagerService.startAgent
  cases env.managerType with
  | docker =>
      refine .call_call (by rintro ⟨⟩) fun hop => ?_
      cases hop
      exact .create rfl
  | k8s => exact .call_call (by rintro ⟨⟩) (by rintro ⟨⟩)

theorem containerLease_stop (agentId : String) :
    (AgentManagerService.stopAgent env agentId).Leased (fun op => op = .startContainer id)
      (ContainerGives env id (.spinDownAgent agentId)) fun _ => False := by
  unfold AgentManagerService.stopAgent
  cases env.managerType with
  | docker => exact ⟨by rintro ⟨⟩, fun _ => trivial, fun _ => trivial⟩
  | k8s => exact .call_call (by rintro ⟨⟩) (by rintro ⟨⟩)

theorem containerLease_sound (env : Env) (id : String) : (containerLease env id).Sound (system env) where
  body k := body_leased (fun op h => (readOp_ne h).2 id) (fun config op h => (manageOp_ne h).2 id)
    (fun body op h => (createWalletOp_ne h).2 id) containerLease_start (fun key h => nomatch h) containerLease_stop k
  once op ch w w' hop hans := by
    have hretried := answer_unanswered hans
    cases hop
    cases hretried
  inv _ _ _ _ _ _ _ _ _ := trivial
  gives k op op' ch w v w' _ hgives hans := by
    rcases answer_touches id hans with ⟨-, e, he⟩ | htouches
    · cases he
    · obtain ⟨hagrees, hnone⟩ := hgives.agrees htouches
      exact ⟨hagrees, fun k' op'' _ => hnone k' op''⟩
  keeps k op op' ch w a w' hop _ _ hagrees hans := by
    rcases answer_touches id hans with ⟨rfl, -⟩ | htouches
    · exact hagrees
    · exact hagrees.keeps hop htouches
  arrive _ _ _ := ⟨trivial, fun _ _ hagrees => hagrees⟩
  env e w w' ks _ henv := by
    have hruntime : w'.runtime = w.runtime := event_runtime henv
    simp only [containerLease, hruntime]
    exact ⟨trivial, fun _ _ hagrees => hagrees⟩

end GuardianshipAgency.Agency
