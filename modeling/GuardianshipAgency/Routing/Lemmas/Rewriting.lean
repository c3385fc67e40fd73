import GuardianshipAgency.Routing.Services

/-!
# Routing and rewriting

The id that the router reads off the path, and what the rewriting leaves of the URL.
-/

namespace GuardianshipAgency.Routing

open Text AgentRouterModule

def routerPath : List Char := "/v1/router/".toList

def dropSlash : List Char → List Char
  | '/' :: cs => cs
  | cs => cs

theorem dropSlash_of_head {cs : List Char} (h : ∀ c, cs.head? = some c → c ≠ '/') : dropSlash cs = cs := by
  unfold dropSlash
  split
  · exact absurd rfl (h '/' rfl)
  · rfl

theorem length_dropSlash_le (cs : List Char) : (dropSlash cs).length ≤ cs.length := by
  unfold dropSlash
  split
  · simp
  · exact le_rfl

theorem bne_slash_of_notMem {cs : List Char} (h : '/' ∉ cs) : ∀ c ∈ cs, (c != '/') = true := fun c hc => by
  simpa using ne_of_mem_of_not_mem hc h

/-! ## The router -/

theorem segments_routerPath (cs : List Char) :
    segments (routerPath ++ cs) = [] :: "v1".toList :: "router".toList :: segments cs := by
  have h : routerPath ++ cs = [] ++ '/' :: ("v1".toList ++ '/' :: ("router".toList ++ '/' :: cs)) := rfl
  rw [h, segments_append_slash (by decide), segments_append_slash (by decide), segments_append_slash (by decide)]

theorem agentId?_routerPath (cs : List Char) :
    AgentRouterService.agentId? (routerPath ++ cs) = some (cs.takeWhile (· != '/')) := by
  rw [AgentRouterService.agentId?, segments_routerPath, ← segments_head?]
  simp [List.head?_eq_getElem?]

/-! ## The rewriting -/

theorem rest?_optional_slash (cs : List Char) :
    (Pattern.optional (.one (· == '/'))).rest? cs = some (dropSlash cs) := by
  cases cs with
  | nil => rfl
  | cons c cs =>
      by_cases hc : c = '/'
      · subst hc
        rfl
      · rw [Pattern.rest?_optional_one_of_not (by simpa using hc), dropSlash_of_head (by simpa using hc)]

/-- The segment is everything up to the next slash, wherever that is in the URL. -/
theorem rest?_segment (cs : List Char) :
    (Pattern.seq (.oneOrMore (· != '/')) (.optional (.one (· == '/')))).rest? cs =
      if cs.takeWhile (· != '/') = [] then none else some (dropSlash (cs.dropWhile (· != '/'))) := by
  have hopt (ds : List Char) : (Pattern.optional (.one (· == '/'))).rests ds ≠ [] := by
    simp [Pattern.rests]
  rw [Pattern.rest?_seq hopt]
  cases cs with
  | nil => rfl
  | cons c cs =>
      by_cases hc : c = '/'
      · subst hc
        rw [Pattern.rest?_oneOrMore_eq_none (by simp)]
        simp
      · rw [Pattern.rest?_oneOrMore (by simpa using hc)]
        simp [hc, rest?_optional_slash]

theorem rest?_routerPath (s : Pattern Char) (cs : List Char) :
    (Pattern.seq (.literal routerPath) s).rest? (routerPath ++ cs) = s.rest? cs :=
  Pattern.rest?_seq_literal routerPath

theorem rest?_pathRewrite (cs : List Char) : pathRewrite.rest? (routerPath ++ cs) =
    if cs.takeWhile (· != '/') = [] then none else some (dropSlash (cs.dropWhile (· != '/'))) :=
  (rest?_routerPath _ cs).trans (rest?_segment cs)

/-- The match is a segment `id` and the slash behind it, if there is one. -/
theorem rest?_pathRewrite_append {id : List Char} (hid : id ≠ []) (hslash : '/' ∉ id) {cs : List Char}
    (hcs : ∀ c, cs.head? = some c → c = '/') :
    pathRewrite.rest? (routerPath ++ (id ++ cs)) = some (dropSlash cs) := by
  have hsegment := bne_slash_of_notMem hslash
  have hnone : cs.takeWhile (· != '/') = [] := by
    cases cs with
    | nil => rfl
    | cons c cs => simp [hcs c rfl]
  have hall : cs.dropWhile (· != '/') = cs := by
    cases cs with
    | nil => rfl
    | cons c cs => simp [hcs c rfl]
  rw [rest?_pathRewrite, List.takeWhile_append_of_pos hsegment, List.dropWhile_append_of_pos hsegment, hnone, hall]
  simp [hid]

/-! ## Agreement -/

/--
The router chooses the segment `id`, the pattern strips it from the URL with a slash after it if there is one, and the
agent gets what the path has behind them and the query.
-/
def RoutesRight (u : RequestUrl) : Prop :=
  ∃ id slash tail, id ≠ [] ∧ '/' ∉ id ∧ (slash = [] ∨ slash = ['/']) ∧
    u.path = routerPath ++ (id ++ (slash ++ tail)) ∧
    AgentRouterService.agentId? u.path = some id ∧
    pathRewrite.rest? u.url = some (tail ++ u.query) ∧
    forwarded u = tail ++ u.query

/-- After the router's path comes an id with a slash behind it, or an id that ends the URL. -/
def Addressed (u : RequestUrl) : Prop :=
  ∃ id rest, id ≠ [] ∧ '/' ∉ id ∧ u.path = routerPath ++ (id ++ rest) ∧
    ((∃ cs, rest = '/' :: cs) ∨ (rest = [] ∧ u.query = []))

theorem RoutesRight.addressed {u : RequestUrl} (h : RoutesRight u) : Addressed u := by
  obtain ⟨id, slash, tail, hid, hslash, -, hpath, hrouted, hrest, -⟩ := h
  have hsegment := bne_slash_of_notMem hslash
  refine ⟨id, slash ++ tail, hid, hslash, hpath, ?_⟩
  rw [hpath, agentId?_routerPath, List.takeWhile_append_of_pos hsegment, Option.some_inj] at hrouted
  have htail : (slash ++ tail).takeWhile (· != '/') = [] := by simpa using hrouted
  cases hcs : slash ++ tail with
  | cons c cs =>
      have hc : c = '/' := by
        rw [hcs] at htail
        by_contra hc
        simp [hc] at htail
      exact .inl ⟨cs, by rw [hc]⟩
  | nil =>
      -- The segment that the pattern strips goes on into the query.
      refine .inr ⟨rfl, ?_⟩
      obtain ⟨-, rfl⟩ := List.append_eq_nil_iff.mp hcs
      rw [RequestUrl.url, hpath, hcs, List.append_nil, List.append_assoc, rest?_pathRewrite,
        List.takeWhile_append_of_pos hsegment, List.dropWhile_append_of_pos hsegment, if_neg (by simp [hid]),
        Option.some_inj, List.nil_append] at hrest
      have hlength := length_dropSlash_le (u.query.dropWhile (· != '/'))
      rw [hrest] at hlength
      rcases u.query_start with hquery | ⟨q, hquery⟩
      · exact hquery
      · rw [hquery, List.dropWhile_cons_of_pos (by decide)] at hlength
        have hdrop := (List.dropWhile_suffix (· != '/') : q.dropWhile (· != '/') <:+ q).length_le
        simp only [List.length_cons] at hlength
        omega

theorem Addressed.routesRight {u : RequestUrl} (h : Addressed u) : RoutesRight u := by
  obtain ⟨id, rest, hid, hslash, hpath, hrest⟩ := h
  have hsegment := bne_slash_of_notMem hslash
  have hurl : u.url = routerPath ++ (id ++ (rest ++ u.query)) := by
    simp [RequestUrl.url, hpath]
  have hrouted : AgentRouterService.agentId? u.path = some (id ++ rest.takeWhile (· != '/')) := by
    rw [hpath, agentId?_routerPath, List.takeWhile_append_of_pos hsegment]
  rcases hrest with ⟨cs, rfl⟩ | ⟨rfl, hquery⟩
  · have hstripped : pathRewrite.rest? u.url = some (cs ++ u.query) := by
      rw [hurl, rest?_pathRewrite_append hid hslash (by simp)]
      rfl
    refine ⟨id, ['/'], cs, hid, hslash, .inr rfl, hpath, ?_, hstripped, ?_⟩
    · simpa using hrouted
    · simp [forwarded, Pattern.strip, hstripped]
  · have hstripped : pathRewrite.rest? u.url = some ([] ++ u.query) := by
      rw [hurl, hquery, rest?_pathRewrite_append hid hslash (by simp)]
      rfl
    refine ⟨id, [], [], hid, hslash, .inl rfl, hpath, ?_, hstripped, ?_⟩
    · simpa using hrouted
    · simp [forwarded, Pattern.strip, hstripped]

end GuardianshipAgency.Routing
