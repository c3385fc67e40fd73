import GuardianshipAgency.Agency.Theorems
import GuardianshipAgency.Neighbours.Lemmas.Knowledge
import GuardianshipAgency.Provenance.Lemmas.Requests

/-!
# Nothing that nobody asked for
-/

namespace GuardianshipAgency.Agency

open Js Async Expiring

variable {env : Env} {asked : Call → Prop}

def originsRely (env : Env) (asked : Call → Prop) : Rely World where
  inv := Origins env asked
  rel _ _ := True
  refl _ := trivial
  trans _ _ := trivial

def originsTerms (env : Env) (asked : Call → Prop) : Terms World Op Choice where
  guard _ _ op := RequestFrom env asked op

theorem known_answer {w w' : World} (hw : Origins env asked w) {op : Op} {ch : Choice} {a}
    (h : answer env op ch w = some (a, w')) : ∀ r, a = some r → Known env asked op r := by
  rintro r rfl
  cases op with
  | cacheGet key =>
      intro e he
      subst he
      obtain ⟨d, -, heffect⟩ := answer_ok h
      obtain ⟨-, hget, -⟩ := effect_cacheGet heffect
      unfold World.get at hget
      split at hget
      · next e' hlookup =>
          cases hget
          exact hw.cache.lookup hlookup
      · unfold Lookup.missing at hget
        split at hget <;> cases hget
  | _ => trivial

theorem originsSound : (system env).Sound (originsRely env asked) (Allowed env asked)
    (fun _ _ => originsTerms env asked) (fun _ _ _ _ => True) where
  arrive _ _ _ hinv := ⟨hinv, trivial⟩
  body k w hk _ _ := by
    refine .of_callsIf ((body_requestFrom hk).and_calls (Call.body_calls env k)) (fun op _ _ hop _ _ => hop.1)
      (fun op ch w a w' hop hw ha => ?_) fun _ _ _ => trivial
    exact ⟨⟨Origins.answer hk hop.2 hw ha, trivial⟩, known_answer hw ha⟩
  env e w w' ks hinv h := by
    obtain ⟨hinv', hks⟩ := Origins.event hinv h
    exact ⟨hinv', trivial, fun k hk => (hks k hk).allowed⟩

variable {ls : List (Label Choice Call Event)} {l : Label Choice Call Event}
variable {c c' : Config JsError Op.Val World Call Reply}

abbrev OriginsOk (env : Env) (asked : Call → Prop) (c : Config JsError Op.Val World Call Reply) : Prop :=
  c.Ok (system env) (originsRely env asked) (Allowed env asked) (fun _ _ => originsTerms env asked) fun _ _ _ _ => True

theorem stepOk_of_asked (hl : ∀ k, l = .begin k → asked k) :
    Config.StepOk (Allowed env asked) (fun _ _ => originsTerms env asked) c l := by
  cases l with
  | begin k => exact .inl (hl k rfl)
  | answer i ch => exact fun _ _ _ _ _ => trivial
  | env e => trivial

def Asked (ls : List (Label Choice Call Event)) (k : Call) : Prop := .begin k ∈ ls

theorem originsOk (hrun : (system env).run (.init .empty) ls = some c) : OriginsOk env (Asked ls) c :=
  Config.Ok.run originsSound (.init .empty)
    (System.along_of_mem (fun _ hl _ => stepOk_of_asked fun k he => show .begin k ∈ ls from he ▸ hl) _) hrun

def AllBegun (env : Env) (asked : Call → Prop) (c : Config JsError Op.Val World Call Reply) : Prop :=
  ∀ th ∈ c.threads, Begun env asked th.call th.began

theorem AllBegun.step (hc : AllBegun env asked c) (hworld : Origins env asked c.world)
    (hl : ∀ k, l = .begin k → asked k) (h : (system env).step c l = some c') : AllBegun env asked c' := by
  intro th hth
  cases l with
  | begin k =>
      cases h
      rcases System.mem_beginAll (fun _ _ => rfl) hth with hth | ⟨k', hk', rfl⟩
      · exact hc th hth
      · exact .inl (List.mem_singleton.mp hk' ▸ hl k rfl)
  | answer i ch =>
      obtain ⟨th₁, op, next, a, w, hth₁, -, -, -, ⟨-, hths⟩ | ⟨r, -, hths⟩⟩ := System.step_answer h
      · exact hc th (hths ▸ hth)
      · rw [hths] at hth
        rcases List.mem_or_eq_of_mem_set hth with hth | rfl
        · exact hc th hth
        · exact hc th₁ (List.mem_of_getElem? hth₁)
  | env e =>
      obtain ⟨w, ks, hevent, rfl⟩ := System.step_env h
      obtain ⟨-, hks⟩ := Origins.event hworld hevent
      rcases System.mem_beginAll (fun _ _ => rfl) hth with hth | ⟨k, hk, rfl⟩
      · exact hc th hth
      · exact hks k hk

theorem allBegun (hrun : (system env).run (.init .empty) ls = some c) : AllBegun env (Asked ls) c := by
  have hstep (c : Config JsError Op.Val World Call Reply) (l : Label Choice Call Event)
      (c' : Config JsError Op.Val World Call Reply) (hc : OriginsOk env (Asked ls) c ∧ AllBegun env (Asked ls) c)
      (hl : ∀ k, l = .begin k → Asked ls k) (h : (system env).step c l = some c') :
      OriginsOk env (Asked ls) c' ∧ AllBegun env (Asked ls) c' :=
    ⟨hc.1.step originsSound (stepOk_of_asked hl) h, hc.2.step hc.1.inv hl h⟩
  have hinit : AllBegun env (Asked ls) (.init .empty) := fun th hth => by cases hth
  have hasked : (system env).Along (fun _ l => ∀ k, l = .begin k → Asked ls k) (.init .empty) ls :=
    System.along_of_mem (fun l hl _ k (he : l = .begin k) => show .begin k ∈ ls from he ▸ hl) _
  exact (System.run_invariant hstep ⟨.init .empty, hinit⟩ hasked hrun).2

/-- In every run, each container, pod and service, each cache entry and each timer is one that a call of the run asked
for under its name: with the configuration of that call, with its keys and its ttl, or with the delay of its ttl. A
call under way was begun from outside, or it is the spin-down of a timer of a spin-up with a limited lifetime, which was
due when the call began. -/
theorem nothing_unasked (hrun : (system env).run (.init .empty) ls = some c) :
    Origins env (Asked ls) c.world ∧
      ∀ th ∈ c.threads, Asked ls th.call ∨ ∃ t, th.call = .spinDownAgent t.agentId ∧
        TimerFrom env (Asked ls) th.began.now t ∧ t.due ≤ th.began.now :=
  ⟨(originsOk hrun).inv, allBegun hrun⟩

/-- The timer of a spin-up fires. -/
def stoppedByTimer : List (Label Choice Call Event) :=
  [.begin (.spinUpAgent sampleAgent), .answer 0 fine, .answer 0 fine, .answer 0 fine, .answer 0 fine,
    .env (.pass 3600000), .env (.fire { agentId := "agent", due := 3600000 })]

theorem nothing_unasked_stoppedByTimer : ∃ c, (system sampleEnv).run (.init .empty) stoppedByTimer = some c ∧
    c.threads.length = 2 ∧ Origins sampleEnv (Asked stoppedByTimer) c.world ∧
    ∀ th ∈ c.threads, Asked stoppedByTimer th.call ∨ ∃ t, th.call = .spinDownAgent t.agentId ∧
      TimerFrom sampleEnv (Asked stoppedByTimer) th.began.now t ∧ t.due ≤ th.began.now := by
  have hrun : ((system sampleEnv).run (.init .empty) stoppedByTimer).map (fun c => c.threads.length) = some 2 := by
    decide +kernel
  obtain ⟨c, hc, hlength⟩ := Option.map_eq_some_iff.mp hrun
  exact ⟨c, hc, hlength, nothing_unasked hc⟩

/-- In every run, each admin request goes to the host of an agent with a key that a caller gave for that agent, or to
the multitenant server with its admin key. Only where a caller asks for a connection of a wallet as if it were an agent
does that admin key go to a host named like the wallet. A webhook is passed on with the URL and the key of one agent,
or with those of the multitenant server and a token of the wallet of that name. -/
theorem requests_from_asked (hrun : (system env).run (.init .empty) ls = some c)
    {th : Thread JsError Op.Val World Call Reply} (hth : th ∈ c.threads) {op : Op}
    {next : Except JsError op.Val → Prog JsError Op.Val Reply} (hprog : th.prog = .await op next) :
    RequestFrom env (Asked ls) op ∧ ∀ msg token, op = .handleAcapyWebhookMsg msg → msg.token = some token →
      (Sharing.Fact.token token).Only msg.agentId c.world.server := by
  refine ⟨(originsOk hrun).guard hth hprog, ?_⟩
  rintro msg token rfl htoken
  have hok := Sharing.namesOk hrun
  have hknows := hok.guard hth hprog
  rw [hknows.webhook]
  exact (hknows.needs (.token token) (by simp [Sharing.needs, htoken])).only hok.inv.server

def webhook? : Prog JsError Op.Val Reply → Option WebhookMsg
  | .await (.handleAcapyWebhookMsg msg) _ => some msg
  | _ => none

theorem webhook?_eq_some {p : Prog JsError Op.Val Reply} {msg : WebhookMsg} (h : webhook? p = some msg) :
    ∃ next, p = .await (.handleAcapyWebhookMsg msg) next := by
  unfold webhook? at h
  split at h
  · cases h
    exact ⟨_, rfl⟩
  · cases h

/-- A wallet is created, and the multitenant server has a webhook for it. -/
def walletNotified : List (Label Choice Call Event) :=
  [.begin (.createWallet plainWallet), .answer 0 created, .answer 0 fine,
    .begin (.handleRequest "wallet" "topic" "connections" .null), .answer 1 fine]

def walletMsg : WebhookMsg :=
  { agentUrl := "http://multitenant:3021", agentId := "wallet", adminApiKey := "adminApiKey", route := "topic"
    topic := "connections", body := .null, token := some "token" }

theorem requests_from_asked_walletNotified :
    ∃ c, (system sampleEnv).run (.init .empty) walletNotified = some c ∧ ∃ th ∈ c.threads, ∃ next,
      th.prog = .await (.handleAcapyWebhookMsg walletMsg) next ∧
      RequestFrom sampleEnv (Asked walletNotified) (.handleAcapyWebhookMsg walletMsg) ∧
      (Sharing.Fact.token "token").Only "wallet" c.world.server := by
  have hrun : ((system sampleEnv).run (.init .empty) walletNotified).bind (fun c =>
      c.threads[1]?.bind fun th => webhook? th.prog) = some walletMsg := by decide +kernel
  obtain ⟨c, hc, hrun⟩ := Option.bind_eq_some_iff.mp hrun
  obtain ⟨th, hth, hmsg⟩ := Option.bind_eq_some_iff.mp hrun
  obtain ⟨next, hprog⟩ := webhook?_eq_some hmsg
  have hmem := List.mem_of_getElem? hth
  obtain ⟨hfrom, htoken⟩ := requests_from_asked hc hmem hprog
  exact ⟨c, hc, th, hmem, next, hprog, hfrom, htoken walletMsg "token" rfl rfl⟩

end GuardianshipAgency.Agency
