import Dxgate.Core.Validate
import Dxgate.Lib.Search

/-! # Which route a request takes

A request is compared with the routes of the matching virtual hosts of one listener, in order. This
module says when that search sees every route of the port, and which hosts a wildcard domain captures.
-/

namespace Dxgate

set_option autoImplicit false

open Collections

/-- The routes a request for `host` is compared with, in order. -/
def Listener.candidates (listener : Listener) (host : String) : List Route :=
  (listener.virtualHosts.filter (·.matchesHost host)).flatMap (·.routes)

/-- Some route of a matching virtual host matches the request. -/
def Listener.Routes (listener : Listener) (input : MatchInput) : Prop :=
  ∃ vh ∈ listener.virtualHosts, vh.matchesHost input.host ∧ ∃ route ∈ vh.routes, route.matchesInput input

theorem Listener.mem_candidates {listener : Listener} {host : String} {route : Route} :
    route ∈ listener.candidates host ↔
      ∃ vh ∈ listener.virtualHosts, vh.matchesHost host ∧ route ∈ vh.routes := by
  rw [candidates, List.mem_flatMap]
  constructor
  · rintro ⟨vh, hVh, hRoute⟩
    obtain ⟨hMem, hHost⟩ := List.mem_filter.mp hVh
    exact ⟨vh, hMem, hHost, hRoute⟩
  · rintro ⟨vh, hMem, hHost, hRoute⟩
    exact ⟨vh, List.mem_filter.mpr ⟨hMem, hHost⟩, hRoute⟩

theorem Listener.routes_iff {listener : Listener} {input : MatchInput} :
    listener.Routes input ↔
      ((listener.candidates input.host).find? (·.matchesInput input)).isSome := by
  rw [List.find?_isSome]
  constructor
  · rintro ⟨vh, hVh, hHost, route, hRoute, hMatch⟩
    exact ⟨route, mem_candidates.mpr ⟨vh, hVh, hHost, hRoute⟩, hMatch⟩
  · rintro ⟨route, hRoute, hMatch⟩
    obtain ⟨vh, hVh, hHost, hMem⟩ := mem_candidates.mp hRoute
    exact ⟨vh, hVh, hHost, route, hMem, hMatch⟩

namespace RuntimeConfig

theorem routeFor_toOption (cfg : RuntimeConfig) (port : UInt16) (input : MatchInput) :
    (cfg.routeFor port input).toOption = (cfg.listenerByPort port).bind fun listener =>
      (listener.candidates input.host).find? (·.matchesInput input) := by
  rw [routeFor]
  cases cfg.listenerByPort port with
  | none => rfl
  | some listener =>
    simp only [Option.bind_some, Listener.candidates]
    split
    · rename_i hNone
      rw [hNone]
      rfl
    · rename_i route hFound
      rw [hFound]
      rfl

theorem routeFor_found_iff_first {cfg : RuntimeConfig} {port : UInt16} {input : MatchInput} :
    (∃ route, cfg.routeFor port input = .ok route) ↔
      ∃ listener, cfg.listenerByPort port = some listener ∧ listener.Routes input := by
  have hSome : (∃ route, cfg.routeFor port input = .ok route) ↔
      (cfg.routeFor port input).toOption.isSome := by
    cases cfg.routeFor port input <;> simp [Except.toOption]
  rw [hSome, routeFor_toOption]
  cases cfg.listenerByPort port with
  | none => simp
  | some listener => simp [Listener.routes_iff]

/-! ## Several listeners on one port -/

/-- A request to the port is routed exactly when some listener of the port has a route for it. -/
def RoutesWholePort (cfg : RuntimeConfig) (port : UInt16) (input : MatchInput) : Prop :=
  (∃ route, cfg.routeFor port input = .ok route) ↔
    ∃ listener ∈ cfg.listeners, listener.bind.port = port ∧ listener.Routes input

/-- What a later listener of the port routes is routed by the first one as well. -/
def FirstRoutesForAll (cfg : RuntimeConfig) (port : UInt16) (input : MatchInput) : Prop :=
  ∀ before first after, cfg.listeners = before ++ first :: after →
    (∀ listener ∈ before, listener.bind.port ≠ port) → first.bind.port = port →
    ∀ later ∈ after, later.bind.port = port → later.Routes input → first.Routes input

theorem listenerByPort_eq_some {cfg : RuntimeConfig} {port : UInt16} {first : Listener} :
    cfg.listenerByPort port = some first ↔ first.bind.port = port ∧
      ∃ before after, cfg.listeners = before ++ first :: after ∧
        ∀ listener ∈ before, listener.bind.port ≠ port := by
  rw [listenerByPort, List.find?_eq_some_iff_append]
  simp

theorem routesWholePort_iff (cfg : RuntimeConfig) (port : UInt16) (input : MatchInput) :
    cfg.RoutesWholePort port input ↔ cfg.FirstRoutesForAll port input := by
  rw [RoutesWholePort, routeFor_found_iff_first]
  constructor
  · intro hWhole before first after hSplit hBefore hPort later hLater hLaterPort hRoutes
    have hMem : later ∈ cfg.listeners := by
      rw [hSplit]
      exact List.mem_append_right _ (List.mem_cons_of_mem _ hLater)
    obtain ⟨listener, hFound, hListener⟩ := hWhole.mpr ⟨later, hMem, hLaterPort, hRoutes⟩
    have hFirst := listenerByPort_eq_some.mpr ⟨hPort, before, after, hSplit, hBefore⟩
    rw [hFirst] at hFound
    cases hFound
    exact hListener
  · intro hAll
    constructor
    · rintro ⟨listener, hFound, hRoutes⟩
      have hPort := (listenerByPort_eq_some.mp hFound).1
      exact ⟨listener, List.mem_of_find?_eq_some hFound, hPort, hRoutes⟩
    · rintro ⟨listener, hMem, hPort, hRoutes⟩
      have hSome : (cfg.listenerByPort port).isSome := by
        rw [listenerByPort, List.find?_isSome]
        exact ⟨listener, hMem, decide_eq_true hPort⟩
      obtain ⟨first, hFirst⟩ := Option.isSome_iff_exists.mp hSome
      obtain ⟨hFirstPort, before, after, hSplit, hBefore⟩ := listenerByPort_eq_some.mp hFirst
      refine ⟨first, hFirst, ?_⟩
      rw [hSplit] at hMem
      rcases List.mem_append.mp hMem with hEarly | hLate
      · exact absurd hPort (hBefore listener hEarly)
      · rcases List.mem_cons.mp hLate with rfl | hAfter
        · exact hRoutes
        · exact hAll before first after hSplit hBefore hFirstPort listener hAfter hPort hRoutes

/-- Two plaintext listeners on one bind address; only the second one has routes. -/
def sharedBind : RuntimeConfig where
  version := "1"
  listeners := [⟨"first", ⟨.UNSPECIFIED, 80, 0, 0⟩, .http, [], none⟩,
    ⟨"second", ⟨.UNSPECIFIED, 80, 0, 0⟩, .http,
      [⟨"all", ["*"], [⟨"r", [], [⟨"c", 100⟩]⟩]⟩], none⟩]
  clusters := [⟨"c", [], none⟩]
  secrets := []

theorem sharedBind_hides_second : sharedBind.validate = .ok () ∧
    ¬ sharedBind.RoutesWholePort 80 ⟨"example.com", "/", []⟩ := by
  refine ⟨by decide, ?_⟩
  intro hWhole
  obtain ⟨route, hFound⟩ := hWhole.mpr
    ⟨_, List.mem_cons_of_mem _ List.mem_cons_self, by decide, _, List.mem_cons_self, by decide, _,
      List.mem_cons_self, by decide⟩
  have hNone : sharedBind.routeFor 80 ⟨"example.com", "/", []⟩ =
      .error (.routeNotFound "example.com" "/") := rfl
  rw [hNone] at hFound
  cases hFound

/-- The same listeners, and the same cluster under every name that a route of theirs has. -/
structure Alike (cfg cfg' : RuntimeConfig) : Prop where
  listeners : cfg.listeners = cfg'.listeners
  clusters : ∀ listener ∈ cfg.listeners, ∀ vh ∈ listener.virtualHosts, ∀ route ∈ vh.routes,
    ∀ dst ∈ route.weightedClusters, cfg.cluster dst.name = cfg'.cluster dst.name

theorem Alike.routeFor {cfg cfg' : RuntimeConfig} (h : cfg.Alike cfg') (port : UInt16) (input : MatchInput) :
    cfg.routeFor port input = cfg'.routeFor port input := by
  rw [RuntimeConfig.routeFor, RuntimeConfig.routeFor, listenerByPort, listenerByPort, h.listeners]

end RuntimeConfig

/-! ## Wildcard domains -/

/-- The domain accounts for the host by whole labels: it is the star, the host itself, or a wildcard
whose part after the star ends the host behind at least one character. -/
def CoversHost (domain host : String) : Prop :=
  domain = "*" ∨ Text.eqIgnoreAsciiCase domain host ∨
    ∃ rest front tail, domain = "*." ++ rest ∧ host = front ++ tail ∧ front ≠ "" ∧
      Text.eqIgnoreAsciiCase tail ("." ++ rest)

/-- What stands in front of a wildcard's suffix is not a name with its dot. -/
def CutsLabel (front : String) : Prop := ∀ name, name ≠ "" → front ≠ name ++ "."

theorem VirtualHost.matchesHost_iff {vh : VirtualHost} {host : String} :
    vh.matchesHost host ↔ ∃ domain ∈ vh.domains, domain = "*" ∨ Text.eqIgnoreAsciiCase domain host ∨
      ∃ rest front, domain = "*." ++ rest ∧ host = front ++ rest := by
  rw [matchesHost, List.any_eq_true]
  refine exists_congr fun domain => and_congr_right fun _ => ?_
  rw [Bool.or_eq_true, Bool.or_eq_true, decide_eq_true_iff, or_assoc]
  refine or_congr_right (or_congr_right ?_)
  cases hDrop : Text.dropHead domain "*." with
  | none =>
    constructor
    · intro h
      cases h
    · rintro ⟨rest, front, hDomain, -⟩
      rw [Text.dropHead_eq_some.mpr hDomain] at hDrop
      cases hDrop
  | some rest =>
    have hDomain := Text.dropHead_eq_some.mp hDrop
    change Text.endsWith host rest ↔ _
    rw [Text.endsWith_iff]
    constructor
    · rintro ⟨front, hHost⟩
      exact ⟨rest, front, hDomain, hHost⟩
    · rintro ⟨rest', front, hDomain', hHost⟩
      rw [Text.dropHead_eq_some.mpr hDomain'] at hDrop
      cases hDrop
      exact ⟨front, hHost⟩

/-- A match of the host is by whole labels. -/
def VirtualHost.RespectsLabels (vh : VirtualHost) (host : String) : Prop :=
  vh.matchesHost host → ∃ domain ∈ vh.domains, CoversHost domain host

theorem VirtualHost.respectsLabels_iff (vh : VirtualHost) (host : String) :
    vh.RespectsLabels host ↔
      ((∃ rest front, "*." ++ rest ∈ vh.domains ∧ host = front ++ rest ∧ CutsLabel front) →
        ∃ domain ∈ vh.domains, CoversHost domain host) := by
  constructor
  · rintro hRespects ⟨rest, front, hMem, hHost, -⟩
    exact hRespects (matchesHost_iff.mpr ⟨_, hMem, .inr (.inr ⟨rest, front, rfl, hHost⟩)⟩)
  · intro hCut hMatches
    obtain ⟨domain, hMem, rfl | hEq | ⟨rest, front, rfl, rfl⟩⟩ := matchesHost_iff.mp hMatches
    · exact ⟨_, hMem, .inl rfl⟩
    · exact ⟨_, hMem, .inr (.inl hEq)⟩
    · by_cases hCuts : CutsLabel front
      · exact hCut ⟨rest, front, hMem, rfl, hCuts⟩
      · rw [CutsLabel] at hCuts
        push Not at hCuts
        obtain ⟨name, hName, rfl⟩ := hCuts
        refine ⟨_, hMem, .inr (.inr ⟨rest, name, "." ++ rest, rfl, String.append_assoc, hName, ?_⟩)⟩
        exact Text.eqIgnoreAsciiCase_refl _

def exampleHost : VirtualHost := ⟨"example", ["*.example.com"], []⟩

theorem exampleHost_captures_neighbour : ¬ exampleHost.RespectsLabels "xexample.com" := by
  intro hRespects
  obtain ⟨domain, hMem, hCovers⟩ := hRespects (by decide)
  rw [exampleHost, List.mem_singleton] at hMem
  subst hMem
  rcases hCovers with hStar | hSame | ⟨rest, front, tail, hDomain, hHost, hFront, hTail⟩
  · exact absurd hStar (by decide)
  · exact absurd hSame (by decide)
  · obtain rfl : "example.com" = rest := by
      have := Text.dropHead_eq_some.mpr hDomain
      rw [show Text.dropHead "*.example.com" "*." = some "example.com" by decide] at this
      exact Option.some.inj this
    -- the host is as long as the dotted suffix, so nothing is left in front of it
    have hLength := congrArg (fun s : String => s.toList.length) hHost
    have hTailLength := Text.length_eq_of_eqIgnoreAsciiCase hTail
    simp only [String.toList_append, List.length_append] at hLength
    apply hFront
    apply String.toList_eq_nil_iff.mp
    apply List.length_eq_zero_iff.mp
    have : "xexample.com".toList.length = 12 := by decide
    have : ("." ++ "example.com").toList.length = 12 := by decide
    omega

end Dxgate
