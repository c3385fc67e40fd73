import GuardianshipAgency.Deployment.Lemmas.Manifests
import GuardianshipAgency.Routing.Lemmas.Names

/-!
# Requests below an endpoint
-/

namespace GuardianshipAgency.Deployment

open Js Agency Routing Text

theorem endpointPath {env : Env} {id : String} (hid : ∀ c ∈ id.toList, inSegment c = true) {rest : List Char}
    (hrest : ∀ c ∈ rest, c ≠ '?' ∧ c ≠ '#') :
    requestPath env.publicUrl ((env.publicUrl ++ "/v1/router/" ++ id).toList ++ '/' :: rest) =
      routerPath ++ (id.toList ++ '/' :: rest) := by
  have hplain : ∀ c ∈ id.toList ++ '/' :: rest, c ≠ '?' ∧ c ≠ '#' := by
    intro c hc
    rcases List.mem_append.mp hc with hc | hc
    · have hseg := hid c hc
      simp only [inSegment, Bool.and_eq_true, bne_iff_ne] at hseg
      exact ⟨hseg.1.2, hseg.2⟩
    · rcases List.mem_cons.mp hc with rfl | hc
      · decide
      · exact hrest c hc
  rw [toList_url, List.append_assoc, List.append_assoc, requestPath_append]
  refine (pathname_routerPath _).trans ?_
  rw [pathname_eq_self hplain]

theorem forwarded_endpoint {id rest : List Char} (hid : id ≠ []) (hslash : '/' ∉ id)
    {u : AgentRouterModule.RequestUrl} (hu : u.path = routerPath ++ (id ++ '/' :: rest)) :
    AgentRouterModule.forwarded u = rest ++ u.query := by
  have hurl : u.url = routerPath ++ (id ++ '/' :: (rest ++ u.query)) := by
    simp [AgentRouterModule.RequestUrl.url, hu]
  have hhead : ∀ c, ('/' :: (rest ++ u.query)).head? = some c → c = '/' := by simp
  have hstripped := rest?_pathRewrite_append hid hslash hhead
  rw [AgentRouterModule.forwarded, Pattern.strip, hurl, hstripped]
  rfl

end GuardianshipAgency.Deployment
