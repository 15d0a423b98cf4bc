import Dxgate.Lib.Search
import Dxgate.Proxy.Selection

/-! # The port in the Host header

The handler takes the host for the part of the Host header in front of the first colon. That strips the
port of a name and cuts an IPv6 literal, whose brackets have colons between them. Header matches still
see the header as it was sent, port included.
-/

namespace Dxgate

set_option autoImplicit false

open Collections

/-- The first Host header carries the value. -/
def withHost (before : List (String × HeaderValue)) (value : HeaderValue) (after : List (String × HeaderValue)) :
    List (String × HeaderValue) :=
  before ++ ("host", value) :: after

/-- The host survives with and without the port: the handler reads it, selects one route for both
requests, and every virtual host that lists it matches. -/
structure KeepsHost (cfg : RuntimeConfig) (target : Option String)
    (headers portHeaders : List (String × HeaderValue)) (host : String) : Prop where
  plain : hostHeader headers = some host
  withPort : hostHeader portHeaders = some host
  sameRoute : selectedRoute cfg ⟨target, portHeaders⟩ = selectedRoute cfg ⟨target, headers⟩
  ownDomain : ∀ vh : VirtualHost, host ∈ vh.domains →
    vh.matchesHost (Request.matchInput ⟨target, headers⟩).host ∧
      vh.matchesHost (Request.matchInput ⟨target, portHeaders⟩).host

/-- No route asks for a value of the Host header. -/
def RuntimeConfig.IgnoresHostHeader (cfg : RuntimeConfig) : Prop :=
  ∀ listener ∈ cfg.listeners, ∀ vh ∈ listener.virtualHosts, ∀ route ∈ vh.routes,
    ∀ m ∈ route.routeMatches, ∀ header ∈ m.headers, ¬ Text.eqIgnoreAsciiCase "host" header.name

section Host

variable {before after : List (String × HeaderValue)} {value : HeaderValue} {host text : String}

theorem hostHeader_withHost (after : List (String × HeaderValue))
    (hBefore : ∀ header ∈ before, header.1 ≠ "host") (hValue : value.toStr = some text) :
    hostHeader (withHost before value after) = some ((Text.split text ':').headD text) := by
  have hNone : before.find? (·.1 = "host") = none := by
    rw [List.find?_eq_none]
    simpa using hBefore
  rw [hostHeader, withHost, List.find?_append, hNone, Option.none_or,
    List.find?_cons_of_pos (by simp), Option.bind_some, hValue, Option.map_some]

theorem VirtualHost.matchesHost_of_mem {vh : VirtualHost} (h : host ∈ vh.domains) : vh.matchesHost host :=
  matchesHost_iff.mpr ⟨host, h, .inr (.inl (Text.eqIgnoreAsciiCase_refl host))⟩

/-- A match that does not ask for the Host header does not see its value. -/
theorem HeaderMatch.matchesInput_withHost {header : HeaderMatch}
    (h : ¬ Text.eqIgnoreAsciiCase "host" header.name) (anyHost path : String) (value other : HeaderValue) :
    header.matchesInput ⟨anyHost, path, headerPairs (withHost before value after)⟩ =
      header.matchesInput ⟨anyHost, path, headerPairs (withHost before other after)⟩ := by
  have hWithout (value : HeaderValue) :
      header.matchesInput ⟨anyHost, path, headerPairs (withHost before value after)⟩ =
        header.matchesInput ⟨anyHost, path, headerPairs (before ++ after)⟩ := by
    rw [matchesInput, matchesInput, headerPairs, headerPairs, withHost, List.filterMap_append,
      List.filterMap_append, List.filterMap_cons]
    cases hText : value.toStr with
    | none => simp only [hText, Option.map_none]
    | some text => simp [hText, h]
  rw [hWithout value, hWithout other]

theorem Route.matchesInput_withHost {route : Route}
    (h : ∀ m ∈ route.routeMatches, ∀ header ∈ m.headers, ¬ Text.eqIgnoreAsciiCase "host" header.name)
    (anyHost path : String) (value other : HeaderValue) :
    route.matchesInput ⟨anyHost, path, headerPairs (withHost before value after)⟩ =
      route.matchesInput ⟨anyHost, path, headerPairs (withHost before other after)⟩ := by
  rw [matchesInput, matchesInput]
  congr 1
  rw [Bool.eq_iff_iff, List.any_eq_true, List.any_eq_true]
  refine exists_congr fun m => and_congr_right fun hm => ?_
  rw [RouteMatch.matchesInput, RouteMatch.matchesInput, Bool.and_eq_true, Bool.and_eq_true, List.all_eq_true,
    List.all_eq_true]
  refine and_congr_right fun _ => forall_congr' fun header => imp_congr_right fun hHeader => ?_
  rw [HeaderMatch.matchesInput_withHost (h m hm header hHeader) anyHost path value other]

/-- When the host is read alike, the requests go the same way if they do so at the first route that
matches one of them. -/
theorem selectedRoute_eq_iff (cfg : RuntimeConfig) (target : Option String)
    {headers portHeaders : List (String × HeaderValue)} (hPlain : hostHeader headers = some host)
    (hWithPort : hostHeader portHeaders = some host) :
    selectedRoute cfg ⟨target, portHeaders⟩ = selectedRoute cfg ⟨target, headers⟩ ↔
      ∀ listener, cfg.listenerByPort HTTP_LISTENER_PORT = some listener →
        AgreeAtFirst (fun route : Route => route.matchesInput (Request.matchInput ⟨target, portHeaders⟩))
          (fun route : Route => route.matchesInput (Request.matchInput ⟨target, headers⟩))
          (listener.candidates host) (listener.candidates host) := by
  have hHosts : (Request.matchInput ⟨target, headers⟩).host = host ∧
      (Request.matchInput ⟨target, portHeaders⟩).host = host := by
    simp only [Request.matchInput, hPlain, hWithPort, Option.getD_some, and_self]
  rw [selectedRoute, selectedRoute, RuntimeConfig.routeFor_toOption, RuntimeConfig.routeFor_toOption]
  cases hListener : cfg.listenerByPort HTTP_LISTENER_PORT with
  | none => simp
  | some listener =>
    rw [Option.bind_some, Option.bind_some, hHosts.1, hHosts.2, find?_eq_find?_iff]
    simp

end Host

/-- The host survives exactly when there is no colon in it and the first route that matches one of the two
requests matches both. Without header matches on Host only the colon counts. -/
theorem keepsHost_iff (cfg : RuntimeConfig) (target : Option String)
    (before after : List (String × HeaderValue)) (value portValue : HeaderValue) (host port : String)
    (hBefore : ∀ header ∈ before, header.1 ≠ "host") (hValue : value.toStr = some host)
    (hPort : portValue.toStr = some (host ++ ":" ++ port)) :
    (KeepsHost cfg target (withHost before value after) (withHost before portValue after) host ↔
      ':' ∉ host.toList ∧ ∀ listener, cfg.listenerByPort HTTP_LISTENER_PORT = some listener →
        AgreeAtFirst
          (fun route : Route => route.matchesInput (Request.matchInput ⟨target, withHost before portValue after⟩))
          (fun route : Route => route.matchesInput (Request.matchInput ⟨target, withHost before value after⟩))
          (listener.candidates host) (listener.candidates host)) ∧
    (cfg.IgnoresHostHeader →
      (KeepsHost cfg target (withHost before value after) (withHost before portValue after) host ↔
        ':' ∉ host.toList)) := by
  have hPlain := hostHeader_withHost after hBefore hValue
  have hWithPort := hostHeader_withHost after hBefore hPort
  have hFree : hostHeader (withHost before value after) = some host ↔ ':' ∉ host.toList := by
    rw [hPlain, Option.some.injEq, Text.headD_split_eq_self_iff]
  have hStripped (h : ':' ∉ host.toList) : hostHeader (withHost before portValue after) = some host := by
    rw [hWithPort, Text.headD_split_append rfl h]
  have hKeeps : KeepsHost cfg target (withHost before value after) (withHost before portValue after) host ↔
      ':' ∉ host.toList ∧ ∀ listener, cfg.listenerByPort HTTP_LISTENER_PORT = some listener →
        AgreeAtFirst
          (fun route : Route => route.matchesInput (Request.matchInput ⟨target, withHost before portValue after⟩))
          (fun route : Route => route.matchesInput (Request.matchInput ⟨target, withHost before value after⟩))
          (listener.candidates host) (listener.candidates host) := by
    constructor
    · intro hKept
      have hNoColon := hFree.mp hKept.plain
      exact ⟨hNoColon, (selectedRoute_eq_iff cfg target hKept.plain hKept.withPort).mp hKept.sameRoute⟩
    · rintro ⟨hNoColon, hAgree⟩
      have hRead := hFree.mpr hNoColon
      have hReadPort := hStripped hNoColon
      refine ⟨hRead, hReadPort, (selectedRoute_eq_iff cfg target hRead hReadPort).mpr hAgree, ?_⟩
      intro vh hDomain
      rw [Request.matchInput, Request.matchInput, hRead, hReadPort]
      exact ⟨VirtualHost.matchesHost_of_mem hDomain, VirtualHost.matchesHost_of_mem hDomain⟩
  refine ⟨hKeeps, fun hIgnores => hKeeps.trans ⟨fun h => h.1, fun hNoColon => ⟨hNoColon, ?_⟩⟩⟩
  intro listener hListener
  rw [← find?_eq_find?_iff]
  apply List.find?_congr
  intro route hRoute
  obtain ⟨vh, hVh, -, hMem⟩ := Listener.mem_candidates.mp hRoute
  have hMatches := hIgnores listener (List.mem_of_find?_eq_some hListener) vh hVh route hMem
  rw [Request.matchInput, Request.matchInput, hFree.mpr hNoColon, hStripped hNoColon]
  exact Route.matchesInput_withHost hMatches _ _ portValue value

/-- One virtual host, for a single domain. -/
def domainConfig (domain : String) : RuntimeConfig where
  version := "1"
  listeners := [⟨"http", { ip := .UNSPECIFIED, port := 80 }, .http,
    [⟨"only", [domain], [⟨"only", [], [⟨"only", 100⟩]⟩]⟩], none⟩]
  clusters := [⟨"only", [], none⟩]
  secrets := []

/-- The value of a text in visible ASCII characters. -/
def asciiValue (text : String) : HeaderValue := ⟨text.toUTF8.toList, some text⟩

/-- The host `a` and `a:80`. -/
theorem name_keepsHost :
    KeepsHost (domainConfig "a") (some "/") (withHost [] (asciiValue "a") [])
      (withHost [] (asciiValue "a:80") []) "a" := by
  refine ((keepsHost_iff (domainConfig "a") (some "/") [] [] (asciiValue "a") (asciiValue "a:80") "a" "80"
    (by decide) (by decide) (by decide)).2 ?_).mpr (by decide)
  unfold RuntimeConfig.IgnoresHostHeader
  decide

/-- Of the host `[::1]`, with or without the port 80, only the bracket is left, and the virtual host for it
is not found. -/
theorem loopback_not_keepsHost :
    (asciiValue "[::1]").toStr = some "[::1]" ∧
    (asciiValue "[::1]:80").toStr = some ("[::1]" ++ ":" ++ "80") ∧
    hostHeader (withHost [] (asciiValue "[::1]") []) = some "[" ∧
    hostHeader (withHost [] (asciiValue "[::1]:80") []) = some "[" ∧
    (domainConfig "[::1]").validate = .ok () ∧
    selectedRoute (domainConfig "[::1]") ⟨some "/", withHost [] (asciiValue "[::1]") []⟩ = none ∧
    ¬ KeepsHost (domainConfig "[::1]") (some "/") (withHost [] (asciiValue "[::1]") [])
      (withHost [] (asciiValue "[::1]:80") []) "[::1]" := by
  refine ⟨by decide, by decide, by decide, by decide, by decide, by decide, fun hKeeps => ?_⟩
  exact absurd hKeeps.plain (by decide)

end Dxgate
