import Dxgate.Core.Routing
import Dxgate.Lib.Runs

/-! # Letter case in host names

A domain that is compared as a whole is compared without regard to ASCII case; the suffix of a wildcard
is compared letter for letter. Two spellings of one host, or of the domains, can therefore lead to
different routes. A route is named by its position, since two routes may have the same content.
-/

namespace Dxgate

set_option autoImplicit false

open Collections

/-- Some route of the virtual host matches the request; the host plays no part in it. -/
def VirtualHost.serves (vh : VirtualHost) (input : MatchInput) : Bool := vh.routes.any (·.matchesInput input)

/-- Virtual host and route that a request takes, by their positions. -/
def Listener.routePosition (listener : Listener) (input : MatchInput) : Option (Nat × Nat) :=
  (listener.virtualHosts.findIdx? fun vh => vh.matchesHost input.host && vh.serves input).bind fun j =>
    listener.virtualHosts[j]?.bind fun vh =>
      (vh.routes.findIdx? (·.matchesInput input)).map fun r => (j, r)

namespace RuntimeConfig

def routePosition (cfg : RuntimeConfig) (port : UInt16) (input : MatchInput) : Option (Nat × Nat) :=
  (cfg.listenerByPort port).bind (·.routePosition input)

def routeAt (cfg : RuntimeConfig) (port : UInt16) (position : Nat × Nat) : Option Route :=
  (cfg.listenerByPort port).bind fun listener =>
    listener.virtualHosts[position.1]?.bind (·.routes[position.2]?)

end RuntimeConfig

/-! ## The position of the route -/

theorem Listener.find?_candidates (listener : Listener) (input : MatchInput) :
    (listener.candidates input.host).find? (·.matchesInput input) =
      (listener.virtualHosts.find? fun vh => vh.matchesHost input.host && vh.serves input).bind
        fun vh => vh.routes.find? (·.matchesInput input) := by
  rw [candidates]
  induction listener.virtualHosts with
  | nil => rfl
  | cons vh rest ih =>
    rw [List.filter_cons]
    by_cases hHost : vh.matchesHost input.host
    · rw [if_pos hHost, List.flatMap_cons, List.find?_append, ih]
      cases hFound : vh.routes.find? (·.matchesInput input) with
      | none =>
        have hServes : vh.serves input = false := by
          rw [VirtualHost.serves, List.any_eq_false]
          exact List.find?_eq_none.mp hFound
        rw [List.find?_cons_of_neg (by simp [hServes]), Option.none_or]
      | some route =>
        have hMatch : route.matchesInput input := 
          List.find?_some (p := fun route : Route => route.matchesInput input) hFound
        have hServes : vh.serves input :=
          List.any_eq_true.mpr ⟨route, List.mem_of_find?_eq_some hFound, hMatch⟩
        rw [List.find?_cons_of_pos (by simp [hHost, hServes]), Option.bind_some, hFound, Option.some_or]
    · rw [if_neg hHost, ih, List.find?_cons_of_neg (by simp [hHost])]

theorem RuntimeConfig.routeFor_eq_routeAt (cfg : RuntimeConfig) (port : UInt16) (input : MatchInput) :
    (cfg.routeFor port input).toOption = (cfg.routePosition port input).bind (cfg.routeAt port) := by
  rw [routeFor_toOption, routePosition]
  cases hListener : cfg.listenerByPort port with
  | none => rfl
  | some listener =>
    rw [Option.bind_some, Option.bind_some, Listener.find?_candidates, Listener.routePosition,
      find?_eq_bind_findIdx?, Option.bind_assoc, Option.bind_assoc]
    congr 1
    funext j
    cases hHost : listener.virtualHosts[j]? with
    | none => rfl
    | some vh =>
      rw [Option.bind_some, Option.bind_some, find?_eq_bind_findIdx?, Option.bind_map]
      congr 1
      funext r
      simp only [Function.comp_apply, routeAt, hListener, Option.bind_some, hHost]

/-! ## Spellings -/

/-- The same configuration, with some letters of the domains in the other case. -/
structure VirtualHost.CaseVariant (vh vh' : VirtualHost) : Prop where
  name : vh'.name = vh.name
  domains : List.Forall₂ (fun domain domain' => Text.eqIgnoreAsciiCase domain domain') vh.domains vh'.domains
  routes : vh'.routes = vh.routes

structure Listener.CaseVariant (listener listener' : Listener) : Prop where
  name : listener'.name = listener.name
  bind : listener'.bind = listener.bind
  protocol : listener'.protocol = listener.protocol
  virtualHosts : List.Forall₂ VirtualHost.CaseVariant listener.virtualHosts listener'.virtualHosts
  tlsSecret : listener'.tlsSecret = listener.tlsSecret

structure RuntimeConfig.CaseVariant (cfg cfg' : RuntimeConfig) : Prop where
  version : cfg'.version = cfg.version
  listeners : List.Forall₂ Listener.CaseVariant cfg.listeners cfg'.listeners
  clusters : cfg'.clusters = cfg.clusters
  secrets : cfg'.secrets = cfg.secrets

/-- The star, or a domain that is the host up to case. -/
def VirtualHost.MatchesAnyCase (vh : VirtualHost) (host : String) : Prop :=
  ∃ domain ∈ vh.domains, domain = "*" ∨ Text.eqIgnoreAsciiCase domain host

/-- A wildcard whose suffix ends the host letter for letter. -/
def VirtualHost.MatchesLetters (vh : VirtualHost) (host : String) : Prop :=
  ∃ rest front, "*." ++ rest ∈ vh.domains ∧ host = front ++ rest

theorem VirtualHost.matchesHost_iff_or {vh : VirtualHost} {host : String} :
    vh.matchesHost host ↔ vh.MatchesAnyCase host ∨ vh.MatchesLetters host := by
  rw [matchesHost_iff]
  constructor
  · rintro ⟨domain, hMem, hStar | hSame | ⟨rest, front, rfl, hHost⟩⟩
    · exact .inl ⟨domain, hMem, .inl hStar⟩
    · exact .inl ⟨domain, hMem, .inr hSame⟩
    · exact .inr ⟨rest, front, hMem, hHost⟩
  · rintro (⟨domain, hMem, hStar | hSame⟩ | ⟨rest, front, hMem, hHost⟩)
    · exact ⟨domain, hMem, .inl hStar⟩
    · exact ⟨domain, hMem, .inr (.inl hSame)⟩
    · exact ⟨_, hMem, .inr (.inr ⟨rest, front, rfl, hHost⟩)⟩

theorem VirtualHost.CaseVariant.symm {vh vh' : VirtualHost} (h : vh.CaseVariant vh') : vh'.CaseVariant vh :=
  ⟨h.name.symm, h.domains.flip.imp fun _ _ hCase => Text.eqIgnoreAsciiCase_symm hCase, h.routes.symm⟩

theorem VirtualHost.CaseVariant.matchesAnyCase {vh vh' : VirtualHost} (h : vh.CaseVariant vh')
    {host host' : String} (hHost : Text.eqIgnoreAsciiCase host host') (hMatch : vh.MatchesAnyCase host) :
    vh'.MatchesAnyCase host' := by
  obtain ⟨domain, hMem, hDomain⟩ := hMatch
  obtain ⟨domain', hMem', hCase⟩ := Runs.exists_of_forall₂_right h.domains.flip hMem
  refine ⟨domain', hMem', ?_⟩
  rcases hDomain with rfl | hSame
  · exact .inl (Text.eq_of_eqIgnoreAsciiCase_symbol (Text.eqIgnoreAsciiCase_symm hCase) (by decide) rfl)
  · rw [← Text.eqIgnoreAsciiCase_congr hCase hHost]
    exact .inr hSame

/-- Where the first virtual host with a route for the request that takes the host in one of the two
spellings does so by a wildcard, it does so letter for letter in both spellings, unless another of its
domains takes the host in any case. -/
def Listener.WildcardInBoth (listener listener' : Listener) (host host' path : String)
    (headers : List (String × String)) : Prop :=
  ∀ (j : Nat) (vh vh' : VirtualHost),
    listener.virtualHosts[j]? = some vh → listener'.virtualHosts[j]? = some vh' →
    vh.serves ⟨host, path, headers⟩ →
    (∀ i < j, ∀ earlier earlier' : VirtualHost,
      listener.virtualHosts[i]? = some earlier → listener'.virtualHosts[i]? = some earlier' →
      earlier.serves ⟨host, path, headers⟩ → ¬ earlier.matchesHost host ∧ ¬ earlier'.matchesHost host') →
    vh.MatchesLetters host ∨ vh'.MatchesLetters host' →
      vh.MatchesAnyCase host ∨ (vh.MatchesLetters host ∧ vh'.MatchesLetters host')

theorem Listener.routePosition_fst (listener : Listener) (input : MatchInput) :
    (listener.routePosition input).map (·.1) =
      listener.virtualHosts.findIdx? fun vh => vh.matchesHost input.host && vh.serves input := by
  rw [routePosition]
  cases hFound : listener.virtualHosts.findIdx? fun vh => vh.matchesHost input.host && vh.serves input with
  | none => rfl
  | some j =>
    obtain ⟨vh, hHost, hTest, -⟩ := findIdx?_eq_some_iff_getElem?.mp hFound
    obtain ⟨-, hServes⟩ := Bool.and_eq_true_iff.mp hTest
    have hRoute : (vh.routes.findIdx? (·.matchesInput input)).isSome := by
      rw [List.findIdx?_isSome]
      exact hServes
    obtain ⟨r, hRoute⟩ := Option.isSome_iff_exists.mp hRoute
    rw [Option.bind_some, hHost, Option.bind_some, hRoute]
    rfl

section Variants

variable {listener listener' : Listener} {host host' path : String} {headers : List (String × String)}

theorem Listener.CaseVariant.bind_routes {γ : Type} (h : listener.CaseVariant listener') (j : Nat)
    (f : List Route → Option γ) : (listener'.virtualHosts[j]?.bind fun vh => f vh.routes) =
      listener.virtualHosts[j]?.bind fun vh => f vh.routes := by
  have hRoutes : listener'.virtualHosts.map (·.routes) = listener.virtualHosts.map (·.routes) :=
    Runs.map_eq_map_of_forall₂ h.virtualHosts fun _ _ hVariant => hVariant.routes
  have hAt := congrArg (·[j]?) hRoutes
  simp only [List.getElem?_map] at hAt
  have hBind := congrArg (Option.bind · f) hAt
  rwa [Option.bind_map, Option.bind_map] at hBind

/-- Virtual hosts at one position have the same routes, so the position of the host decides. -/
theorem Listener.CaseVariant.routePosition_eq_iff (h : listener.CaseVariant listener') :
    listener.routePosition ⟨host, path, headers⟩ = listener'.routePosition ⟨host', path, headers⟩ ↔
      AgreeAtFirst (fun vh : VirtualHost => vh.matchesHost host && vh.serves ⟨host, path, headers⟩)
        (fun vh : VirtualHost => vh.matchesHost host' && vh.serves ⟨host', path, headers⟩)
        listener.virtualHosts listener'.virtualHosts := by
  have hLength := h.virtualHosts.length_eq
  rw [← findIdx?_eq_findIdx?_iff hLength]
  constructor
  · intro hSame
    have hFirst := congrArg (Option.map (·.1)) hSame
    rwa [routePosition_fst, routePosition_fst] at hFirst
  · intro hSame
    rw [routePosition, routePosition]
    dsimp only
    rw [← hSame]
    congr 1
    funext j
    exact (h.bind_routes j fun routes =>
      (routes.findIdx? (·.matchesInput ⟨host, path, headers⟩)).map fun r => (j, r)).symm

theorem VirtualHost.CaseVariant.serves_eq {vh vh' : VirtualHost} (h : vh.CaseVariant vh') :
    vh'.serves ⟨host', path, headers⟩ = vh.serves ⟨host, path, headers⟩ := by
  rw [serves, serves, h.routes]
  rfl

theorem VirtualHost.CaseVariant.matchesBoth_iff {vh vh' : VirtualHost} (h : vh.CaseVariant vh')
    (hHost : Text.eqIgnoreAsciiCase host host') :
    vh.matchesHost host ∧ vh'.matchesHost host' ↔
      vh.MatchesAnyCase host ∨ (vh.MatchesLetters host ∧ vh'.MatchesLetters host') := by
  rw [matchesHost_iff_or, matchesHost_iff_or]
  have hForth := h.matchesAnyCase hHost
  have hBack := h.symm.matchesAnyCase (Text.eqIgnoreAsciiCase_symm hHost)
  tauto

theorem Listener.CaseVariant.agreeAtFirst_iff (h : listener.CaseVariant listener')
    (hHost : Text.eqIgnoreAsciiCase host host') :
    AgreeAtFirst (fun vh : VirtualHost => vh.matchesHost host && vh.serves ⟨host, path, headers⟩)
        (fun vh : VirtualHost => vh.matchesHost host' && vh.serves ⟨host', path, headers⟩)
        listener.virtualHosts listener'.virtualHosts ↔
      listener.WildcardInBoth listener' host host' path headers := by
  have hServes : ∀ (j : Nat) (vh vh' : VirtualHost), listener.virtualHosts[j]? = some vh →
      listener'.virtualHosts[j]? = some vh' → (vh'.serves ⟨host', path, headers⟩ ↔
        vh.serves ⟨host, path, headers⟩) := by
    intro j vh vh' hvh hvh'
    rw [(Runs.rel_getElem? h.virtualHosts hvh hvh').serves_eq]
  simp only [AgreeAtFirst, Listener.WildcardInBoth, Bool.and_eq_true]
  constructor
  · intro hAgree j vh vh' hvh hvh' hTakes hNone hLetters
    have hVariant := Runs.rel_getElem? h.virtualHosts hvh hvh'
    have hBefore : ∀ i < j, ∀ earlier earlier' : VirtualHost, listener.virtualHosts[i]? = some earlier →
        listener'.virtualHosts[i]? = some earlier' →
        ¬ (earlier.matchesHost host ∧ earlier.serves ⟨host, path, headers⟩) ∧
          ¬ (earlier'.matchesHost host' ∧ earlier'.serves ⟨host', path, headers⟩) := by
      intro i hi earlier earlier' he he'
      rw [hServes i earlier earlier' he he', ← not_or, ← or_and_right]
      rintro ⟨hEither, hServed⟩
      obtain ⟨hFirst, hSecond⟩ := hNone i hi earlier earlier' he he' hServed
      exact hEither.elim hFirst hSecond
    have hEither : (vh.matchesHost host ∧ vh.serves ⟨host, path, headers⟩) ∨
        (vh'.matchesHost host' ∧ vh'.serves ⟨host', path, headers⟩) := by
      rw [hServes j vh vh' hvh hvh', ← or_and_right, VirtualHost.matchesHost_iff_or,
        VirtualHost.matchesHost_iff_or]
      exact ⟨hLetters.imp .inr .inr, hTakes⟩
    obtain ⟨⟨hFirst, -⟩, hSecond, -⟩ := hAgree j vh vh' hvh hvh' hBefore hEither
    exact (hVariant.matchesBoth_iff hHost).mp ⟨hFirst, hSecond⟩
  · intro hBoth j vh vh' hvh hvh' hNone hEither
    have hVariant := Runs.rel_getElem? h.virtualHosts hvh hvh'
    rw [hServes j vh vh' hvh hvh'] at hEither ⊢
    obtain ⟨hMatches, hTakes⟩ := or_and_right.mpr hEither
    have hBefore : ∀ i < j, ∀ earlier earlier' : VirtualHost, listener.virtualHosts[i]? = some earlier →
        listener'.virtualHosts[i]? = some earlier' → earlier.serves ⟨host, path, headers⟩ →
          ¬ earlier.matchesHost host ∧ ¬ earlier'.matchesHost host' := by
      intro i hi earlier earlier' he he' hServed
      obtain ⟨hFirst, hSecond⟩ := hNone i hi earlier earlier' he he'
      exact ⟨fun hMatch => hFirst ⟨hMatch, hServed⟩,
        fun hMatch => hSecond ⟨hMatch, (hServes i earlier earlier' he he').mpr hServed⟩⟩
    have hTaken : vh.matchesHost host ∧ vh'.matchesHost host' := by
      rw [hVariant.matchesBoth_iff hHost]
      rw [VirtualHost.matchesHost_iff_or, VirtualHost.matchesHost_iff_or] at hMatches
      rcases hMatches with (hAny | hLetters) | (hAny | hLetters)
      · exact .inl hAny
      · exact hBoth j vh vh' hvh hvh' hTakes hBefore (.inl hLetters)
      · exact .inl (hVariant.symm.matchesAnyCase (Text.eqIgnoreAsciiCase_symm hHost) hAny)
      · exact hBoth j vh vh' hvh hvh' hTakes hBefore (.inr hLetters)
    exact ⟨⟨hTaken.1, hTakes⟩, hTaken.2, hTakes⟩

end Variants

/-- Two spellings of the host and of the domains select the same route exactly when the wildcard of the
deciding virtual host matches both of them. -/
theorem RuntimeConfig.routePosition_spelling_iff (cfg cfg' : RuntimeConfig) (port : UInt16)
    (host host' path : String) (headers : List (String × String)) (hConfig : cfg.CaseVariant cfg')
    (hHost : Text.eqIgnoreAsciiCase host host') :
    (cfg.routePosition port ⟨host, path, headers⟩ = cfg'.routePosition port ⟨host', path, headers⟩ ↔
      ∀ listener listener', cfg.listenerByPort port = some listener →
        cfg'.listenerByPort port = some listener' →
          listener.WildcardInBoth listener' host host' path headers) ∧
    (cfg.routePosition port ⟨host, path, headers⟩ = cfg'.routePosition port ⟨host', path, headers⟩ →
      (cfg.routeFor port ⟨host, path, headers⟩).toOption =
        (cfg'.routeFor port ⟨host', path, headers⟩).toOption) := by
  have hListener : Option.Rel Listener.CaseVariant (cfg.listenerByPort port) (cfg'.listenerByPort port) := by
    refine Runs.rel_find? hConfig.listeners fun listener listener' hVariant => ?_
    rw [hVariant.bind]
  refine ⟨?_, fun hSame => ?_⟩
  · rw [routePosition, routePosition]
    generalize cfg.listenerByPort port = first at hListener
    generalize cfg'.listenerByPort port = second at hListener
    cases hListener with
    | none => simp
    | some hVariant =>
      rw [Option.bind_some, Option.bind_some, hVariant.routePosition_eq_iff, hVariant.agreeAtFirst_iff hHost]
      simp
  · rw [routeFor_eq_routeAt, routeFor_eq_routeAt, hSame]
    congr 1
    funext position
    rw [routeAt, routeAt]
    generalize cfg.listenerByPort port = first at hListener
    generalize cfg'.listenerByPort port = second at hListener
    cases hListener with
    | none => rfl
    | some hVariant => exact (hVariant.bind_routes position.1 (·[position.2]?)).symm

/-- One virtual host for all names below a domain, and one for everything else. -/
def spelledConfig (domain : String) : RuntimeConfig where
  version := "1"
  listeners := [⟨"http", { ip := .UNSPECIFIED, port := 80 }, .http,
    [⟨"below", [domain], [⟨"below", [], [⟨"below", 100⟩]⟩]⟩,
      ⟨"all", ["*"], [⟨"all", [], [⟨"all", 100⟩]⟩]⟩], none⟩]
  clusters := [⟨"below", [], none⟩, ⟨"all", [], none⟩]
  secrets := []

theorem spelledConfig_caseVariant {domain domain' : String} (h : Text.eqIgnoreAsciiCase domain domain') :
    (spelledConfig domain).CaseVariant (spelledConfig domain') := by
  refine ⟨rfl, .cons ⟨rfl, rfl, rfl, ?_, rfl⟩ .nil, rfl, rfl⟩
  refine .cons ⟨rfl, .cons h .nil, rfl⟩ (.cons ⟨rfl, .cons ?_ .nil, rfl⟩ .nil)
  exact Text.eqIgnoreAsciiCase_refl _

/-- The exact domain is found in every spelling. -/
theorem exactDomain_any_spelling :
    ((spelledConfig "api.example.com").routeFor 80 ⟨"API.example.com", "/", []⟩).toOption =
      ((spelledConfig "api.EXAMPLE.com").routeFor 80 ⟨"api.example.COM", "/", []⟩).toOption := by
  obtain ⟨hIff, hValue⟩ := RuntimeConfig.routePosition_spelling_iff (spelledConfig "api.example.com")
    (spelledConfig "api.EXAMPLE.com") 80 "API.example.com" "api.example.COM" "/" []
    (spelledConfig_caseVariant (by decide)) (by decide)
  refine hValue (hIff.mpr ?_)
  intro listener listener' hListener hListener' j vh vh' hvh hvh' _ _ _
  cases hListener
  cases hListener'
  left
  match j with
  | 0 =>
    cases hvh
    exact ⟨"api.example.com", by decide, .inr (by decide)⟩
  | 1 =>
    cases hvh
    exact ⟨"*", by decide, .inl rfl⟩
  | j + 2 => cases hvh

/-- The wildcard takes a host in lower case and leaves the same host in upper case to the next virtual
host; with its own letters in upper case it is the other way round. -/
theorem wildcard_minds_case :
    (spelledConfig "*.example.com").validate = .ok () ∧
    Text.eqIgnoreAsciiCase "api.example.com" "api.EXAMPLE.com" ∧
    ((spelledConfig "*.example.com").routeFor 80 ⟨"api.example.com", "/", []⟩).toOption ≠
      ((spelledConfig "*.example.com").routeFor 80 ⟨"api.EXAMPLE.com", "/", []⟩).toOption ∧
    (spelledConfig "*.example.com").CaseVariant (spelledConfig "*.EXAMPLE.com") ∧
    ((spelledConfig "*.example.com").routeFor 80 ⟨"api.example.com", "/", []⟩).toOption ≠
      ((spelledConfig "*.EXAMPLE.com").routeFor 80 ⟨"api.example.com", "/", []⟩).toOption :=
  ⟨by decide, by decide, by decide, spelledConfig_caseVariant (by decide), by decide⟩

end Dxgate
