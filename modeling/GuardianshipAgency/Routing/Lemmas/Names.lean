import GuardianshipAgency.Routing.Lemmas.Rewriting

/-!
# Names in URLs

What the routes read back from the URLs that are built from a name.
-/

namespace GuardianshipAgency.Routing

open Js Agency Text AgentControllerController

/-! ## Names -/

/-- A name that stands in a URL as it is: not empty, and nothing in it separates, ends the path or escapes. -/
def UrlSafe (name : String) : Prop :=
  name ≠ "" ∧ ∀ c ∈ name.toList, c ∉ ['/', '?', '#', '%']

theorem UrlSafe.inSegment {name : String} (h : UrlSafe name) : ∀ c ∈ name.toList, Text.inSegment c = true := by
  intro c hc
  have hnot := h.2 c hc
  simp only [List.mem_cons, not_or] at hnot
  simp [Text.inSegment, hnot]

theorem UrlSafe.slash {name : String} (h : UrlSafe name) : '/' ∉ name.toList := fun hmem => by
  simpa using h.2 '/' hmem

theorem UrlSafe.inPath {name : String} (h : UrlSafe name) : ∀ c ∈ name.toList, c ≠ '?' ∧ c ≠ '#' := by
  intro c hc
  have hnot := h.2 c hc
  simp only [List.mem_cons, not_or] at hnot
  exact ⟨hnot.2.1, hnot.2.2.1⟩

theorem param?_of_urlSafe {name : String} (h : UrlSafe name) : param? name.toList = some name := by
  have hne : name.toList ≠ [] := by simpa using h.1
  have hplain : '%' ∉ name.toList := fun hmem => by simpa using h.2 '%' hmem
  rw [param?, if_neg hne, decodeURIComponent_of_notMem hplain]
  simp

/-- What stands before the first separator reads as the name only if that is all of it. -/
theorem param?_takeWhile_iff (name : String) :
    param? (name.toList.takeWhile Text.inSegment) = some name ↔ UrlSafe name := by
  constructor
  · intro h
    simp only [param?] at h
    split at h
    · simp at h
    · next hne =>
        obtain ⟨cs, hcs, hname⟩ := Option.map_eq_some_iff.mp h
        obtain rfl : cs = name.toList := by
          rw [← hname, String.toList_ofList]
        have hprefix : name.toList.takeWhile Text.inSegment <+: name.toList := List.takeWhile_prefix _
        obtain ⟨hle, hplain⟩ := decodeURIComponent_length hcs
        have hall := hprefix.eq_of_length (le_antisymm hprefix.length_le hle)
        rw [hall] at hne hplain
        refine ⟨by simpa using hne, fun c hc => ?_⟩
        have hseg := List.takeWhile_eq_self_iff.mp hall c hc
        have hpercent : c ≠ '%' := ne_of_mem_of_not_mem hc (hplain rfl)
        simp only [Text.inSegment, Bool.and_eq_true, bne_iff_ne] at hseg
        simp [hseg, hpercent]
  · intro h
    rw [List.takeWhile_eq_self_iff.mpr h.inSegment]
    exact param?_of_urlSafe h

/-! ## Paths -/

theorem requestPath_append (base : String) (cs : List Char) :
    requestPath base (base.toList ++ cs) = pathname cs := by
  rw [requestPath, List.drop_left]

theorem toList_url (base path name : String) : (base ++ path ++ name).toList =
    base.toList ++ (path.toList ++ name.toList) := by
  simp only [String.toList_append, List.append_assoc]

/-! ## Webhooks -/

def controllerPath : List Char := "/v1/controller/".toList

theorem segments_controllerPath (cs : List Char) :
    segments (controllerPath ++ cs) = [] :: "v1".toList :: "controller".toList :: segments cs := by
  have h : controllerPath ++ cs =
      [] ++ '/' :: ("v1".toList ++ '/' :: ("controller".toList ++ '/' :: cs)) := rfl
  rw [h, segments_append_slash (by decide), segments_append_slash (by decide), segments_append_slash (by decide)]

theorem param?_of_params? {agentId route subroute : List Char} {params : RouteParams}
    (h : params? agentId route subroute = some params) : param? agentId = some params.agentId := by
  simp only [params?, Option.bind_eq_bind, Option.bind_eq_some_iff, Option.pure_def, Option.some_inj] at h
  obtain ⟨agentId, hagentId, -, -, -, -, rfl⟩ := h
  exact hagentId

theorem route?_eq_some {cs : List Char} {params : RouteParams} (h : route? (controllerPath ++ cs) = some params) :
    ((segments cs).head?.bind param?) = some params.agentId := by
  rw [route?, segments_controllerPath] at h
  split at h
  · next hsegs =>
      simp only [List.cons.injEq] at hsegs
      obtain ⟨-, -, -, hsegs⟩ := hsegs
      split at h
      · rw [hsegs]
        exact param?_of_params? h
      · simp at h
  · next hsegs =>
      simp only [List.cons.injEq] at hsegs
      obtain ⟨-, -, -, hsegs⟩ := hsegs
      split at h
      · rw [hsegs]
        exact param?_of_params? h
      · simp at h
  · simp at h

theorem route?_of_urlSafe {name route subroute : String} (hname : UrlSafe name) (hroute : UrlSafe route)
    (hsubroute : UrlSafe subroute) :
    route? (controllerPath ++ (name.toList ++ '/' :: (route.toList ++ '/' :: subroute.toList))) =
      some { agentId := name, route, subroute } := by
  have hsegments : segments (name.toList ++ '/' :: (route.toList ++ '/' :: subroute.toList)) =
      [name.toList, route.toList, subroute.toList] := by
    rw [segments_append_slash hname.slash, segments_append_slash hroute.slash, segments_eq_singleton hsubroute.slash]
  rw [route?, segments_controllerPath, hsegments]
  simp [params?, param?_of_urlSafe, hname, hroute, hsubroute]

/-- A webhook that is posted to the URL gets to `handleRequest` with the name, whatever the topic. -/
def WebhooksArrive (env : Env) (webhookUrl name : String) : Prop :=
  ∀ topic : String, UrlSafe topic → ∃ params : RouteParams,
    route? (requestPath env.internalUrl (webhookUrl ++ "/topic/" ++ topic).toList) = some params ∧
      params.agentId = name

theorem pathname_controllerPath (cs : List Char) : pathname (controllerPath ++ cs) = controllerPath ++ pathname cs :=
  rfl

theorem webhookPath (env : Env) (name topic : String) :
    requestPath env.internalUrl (env.internalUrl ++ "/v1/controller/" ++ name ++ "/topic/" ++ topic).toList =
      controllerPath ++ pathname (name.toList ++ '/' :: ("topic".toList ++ '/' :: topic.toList)) := by
  have htopic : ("/topic/" ++ topic).toList = '/' :: ("topic".toList ++ '/' :: topic.toList) := by simp
  have hurl := toList_url env.internalUrl "/v1/controller/" name
  rw [String.append_assoc, String.toList_append, hurl, htopic, List.append_assoc, List.append_assoc,
    requestPath_append]
  exact pathname_controllerPath _

theorem urlSafe_topic : UrlSafe "topic" := ⟨by decide, by simp⟩

theorem webhooksArrive_iff (env : Env) (name : String) :
    WebhooksArrive env (env.internalUrl ++ "/v1/controller/" ++ name) name ↔ UrlSafe name := by
  constructor
  · intro h
    obtain ⟨params, hroute, hname⟩ := h "topic" urlSafe_topic
    rw [webhookPath] at hroute
    have hparam := route?_eq_some hroute
    rw [segments_pathname_head?, takeWhile_inSegment_append (by simp [Text.inSegment]), Option.bind_some,
      hname] at hparam
    exact (param?_takeWhile_iff name).mp hparam
  · intro h topic htopic
    have hplain : ∀ c ∈ name.toList ++ '/' :: ("topic".toList ++ '/' :: topic.toList), c ≠ '?' ∧ c ≠ '#' := by
      intro c hc
      simp only [List.mem_append, List.mem_cons] at hc
      rcases hc with hc | rfl | hc | rfl | hc
      · exact h.inPath c hc
      · decide
      · exact urlSafe_topic.inPath c hc
      · decide
      · exact htopic.inPath c hc
    rw [webhookPath, pathname_eq_self hplain]
    exact ⟨_, route?_of_urlSafe h urlSafe_topic htopic, rfl⟩

/-! ## Endpoints -/

theorem pathname_routerPath (cs : List Char) : pathname (routerPath ++ cs) = routerPath ++ pathname cs :=
  rfl

/-- A request to the endpoint, with anything behind it that does not go on with the name, is for the agent. -/
def EndpointNames (env : Env) (endpoint agentId : String) : Prop :=
  ∀ subpath : List Char, (∀ c, subpath.head? = some c → inSegment c = false) →
    AgentRouterService.agentId? (requestPath env.publicUrl (endpoint.toList ++ subpath)) = some agentId.toList

theorem endpointNames_iff (env : Env) (agentId : String) :
    EndpointNames env (env.publicUrl ++ "/v1/router/" ++ agentId) agentId ↔
      ∀ c ∈ agentId.toList, inSegment c = true := by
  have hrouted (subpath : List Char) (hsub : ∀ c, subpath.head? = some c → inSegment c = false) :
      AgentRouterService.agentId? (requestPath env.publicUrl
          ((env.publicUrl ++ "/v1/router/" ++ agentId).toList ++ subpath)) =
        some (agentId.toList.takeWhile inSegment) := by
    rw [toList_url, List.append_assoc, List.append_assoc, requestPath_append]
    refine (congrArg AgentRouterService.agentId? (pathname_routerPath _)).trans ?_
    rw [agentId?_routerPath, ← segments_head?, segments_pathname_head?, takeWhile_inSegment_append hsub]
  constructor
  · intro h
    have hall := h [] (by simp)
    rw [hrouted [] (by simp), Option.some_inj] at hall
    exact List.takeWhile_eq_self_iff.mp hall
  · intro h subpath hsub
    rw [hrouted subpath hsub, List.takeWhile_eq_self_iff.mpr h]

end GuardianshipAgency.Routing
