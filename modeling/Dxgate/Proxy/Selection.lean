import Dxgate.Core.Routing
import Dxgate.Proxy.Forward
import Mathlib.Data.List.Find

/-! # The query string in route selection

The handler matches the whole request target, the query string included, against the path matches of
the routes. A prefix does not see the query; an exact path never equals a target that has one.
-/

namespace Dxgate

set_option autoImplicit false

open Collections

/-- The route the handler forwards by, when there is one. -/
def selectedRoute (cfg : RuntimeConfig) (req : Request) : Option Route :=
  (cfg.routeFor HTTP_LISTENER_PORT req.matchInput).toOption

theorem selectClusters_toOption (cfg : RuntimeConfig) (req : Request) :
    (selectClusters cfg req).toOption = (selectedRoute cfg req).map (·.weightedClusters) := by
  rw [selectClusters, selectedRoute]
  cases cfg.routeFor HTTP_LISTENER_PORT req.matchInput <;> rfl

def PathMatch.text : PathMatch → String
  | .pathPrefix head => head
  | .pathExact path => path

/-- The match holds and its path is a prefix. -/
def RouteMatch.matchesByPrefix (m : RouteMatch) (input : MatchInput) : Bool :=
  match m.path with
  | .pathPrefix _ => m.matchesInput input
  | .pathExact _ => false

/-- The route matches for another reason than an exact path. -/
def Route.matchesByPrefix (route : Route) (input : MatchInput) : Bool :=
  route.routeMatches.isEmpty || route.routeMatches.any (·.matchesByPrefix input)

def Route.QueryFree (route : Route) : Prop := ∀ m ∈ route.routeMatches, '?' ∉ m.path.text.toList

def RuntimeConfig.QueryFree (cfg : RuntimeConfig) : Prop :=
  ∀ listener ∈ cfg.listeners, ∀ vh ∈ listener.virtualHosts, ∀ route ∈ vh.routes, route.QueryFree

section Query

variable {host path : String} {headers : List (String × String)} (query : String)

theorem RouteMatch.matchesInput_query {m : RouteMatch} (hFree : '?' ∉ m.path.text.toList) :
    m.matchesInput ⟨host, path ++ "?" ++ query, headers⟩ = m.matchesByPrefix ⟨host, path, headers⟩ := by
  rw [matchesByPrefix]
  cases hPath : m.path with
  | pathPrefix head =>
    rw [hPath, PathMatch.text] at hFree
    simp only [matchesInput, hPath, PathMatch.matchesPath, HeaderMatch.matchesInput]
    rw [Text.startsWith_append_sep query rfl hFree]
  | pathExact exactPath =>
    have hNe : path ++ "?" ++ query ≠ exactPath := by
      rintro rfl
      rw [hPath, PathMatch.text] at hFree
      exact hFree (by simp)
    simp only [matchesInput, hPath, PathMatch.matchesPath, decide_eq_false hNe, Bool.false_and]

theorem Route.matchesInput_query {route : Route} (hFree : route.QueryFree) :
    route.matchesInput ⟨host, path ++ "?" ++ query, headers⟩ =
      route.matchesByPrefix ⟨host, path, headers⟩ := by
  have hAny : (route.routeMatches.any (·.matchesInput ⟨host, path ++ "?" ++ query, headers⟩)) =
      route.routeMatches.any (·.matchesByPrefix ⟨host, path, headers⟩) := by
    rw [Bool.eq_iff_iff, List.any_eq_true, List.any_eq_true]
    refine exists_congr fun m => and_congr_right fun hm => ?_
    rw [RouteMatch.matchesInput_query query (hFree m hm)]
  rw [matchesInput, matchesByPrefix, hAny]

end Query

theorem RouteMatch.matchesInput_of_prefix {m : RouteMatch} {input : MatchInput}
    (h : m.matchesByPrefix input) : m.matchesInput input := by
  rw [matchesByPrefix] at h
  split at h
  · exact h
  · cases h

theorem Route.matchesInput_of_prefix {route : Route} {input : MatchInput}
    (h : route.matchesByPrefix input) : route.matchesInput input := by
  rw [matchesByPrefix, Bool.or_eq_true, List.any_eq_true] at h
  rw [matchesInput, Bool.or_eq_true, List.any_eq_true]
  exact h.imp id fun ⟨m, hm, hMatch⟩ => ⟨m, hm, RouteMatch.matchesInput_of_prefix hMatch⟩

/-- Among the routes a request is compared with, each one that matches by an exact path alone stands
behind one that matches otherwise. -/
def ExactBehindPrefix (routes : List Route) (input : MatchInput) : Prop :=
  ∀ before route after, routes = before ++ route :: after → route.matchesInput input →
    ¬ route.matchesByPrefix input → ∃ earlier ∈ before, earlier.matchesByPrefix input

theorem selectedRoute_query_iff (cfg : RuntimeConfig) (headers : List (String × HeaderValue))
    (path query : String) (hPaths : cfg.QueryFree) :
    selectedRoute cfg ⟨some (path ++ "?" ++ query), headers⟩ = selectedRoute cfg ⟨some path, headers⟩ ↔
      ∀ listener, cfg.listenerByPort HTTP_LISTENER_PORT = some listener →
        ExactBehindPrefix (listener.candidates ((hostHeader headers).getD "*"))
          (Request.matchInput ⟨some path, headers⟩) := by
  rw [selectedRoute, selectedRoute, RuntimeConfig.routeFor_toOption, RuntimeConfig.routeFor_toOption]
  cases hListener : cfg.listenerByPort HTTP_LISTENER_PORT with
  | none => simp
  | some listener =>
    have hFree : ∀ route ∈ listener.candidates ((hostHeader headers).getD "*"), route.QueryFree := by
      intro route hRoute
      obtain ⟨vh, hVh, -, hMem⟩ := Listener.mem_candidates.mp hRoute
      exact hPaths listener (List.mem_of_find?_eq_some hListener) vh hVh route hMem
    have hQuery : (listener.candidates ((hostHeader headers).getD "*")).find?
        (·.matchesInput (Request.matchInput ⟨some (path ++ "?" ++ query), headers⟩)) =
        (listener.candidates ((hostHeader headers).getD "*")).find?
          (·.matchesByPrefix (Request.matchInput ⟨some path, headers⟩)) := by
      apply List.find?_congr
      intro route hRoute
      exact Route.matchesInput_query query (hFree route hRoute)
    simp only [Option.some.injEq, forall_eq', Option.bind_some]
    change List.find? _ (listener.candidates ((hostHeader headers).getD "*")) =
      List.find? _ (listener.candidates ((hostHeader headers).getD "*")) ↔ _
    rw [hQuery, find?_strong_eq_weak_iff fun route _ => Route.matchesInput_of_prefix]
    rfl

/-- An exact route for the admin page in front of a route for everything else. -/
def adminConfig : RuntimeConfig where
  version := "1"
  listeners := [⟨"http", ⟨.UNSPECIFIED, 80, 0, 0⟩, .http,
    [⟨"all", ["*"], [⟨"admin", [⟨.pathExact "/admin", []⟩], [⟨"admin", 100⟩]⟩,
      ⟨"default", [⟨.pathPrefix "/", []⟩], [⟨"default", 100⟩]⟩]⟩], none⟩]
  clusters := [⟨"admin", [], none⟩, ⟨"default", [], none⟩]
  secrets := []

theorem adminConfig_queryFree : adminConfig.QueryFree := by
  unfold RuntimeConfig.QueryFree Route.QueryFree
  decide

theorem adminConfig_users_unaffected : adminConfig.QueryFree ∧
    ∀ listener, adminConfig.listenerByPort HTTP_LISTENER_PORT = some listener →
      ExactBehindPrefix (listener.candidates "*") (Request.matchInput ⟨some "/users", []⟩) :=
  ⟨adminConfig_queryFree,
    (selectedRoute_query_iff adminConfig [] "/users" "id=1" adminConfig_queryFree).mp (by decide)⟩

theorem adminConfig_query_changes_route : adminConfig.QueryFree ∧
    selectedRoute adminConfig ⟨some ("/admin" ++ "?" ++ "tab=1"), []⟩ ≠
      selectedRoute adminConfig ⟨some "/admin", []⟩ := by
  refine ⟨adminConfig_queryFree, ?_⟩
  decide

end Dxgate
