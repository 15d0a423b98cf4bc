import Dxgate.Core.Routing
import Dxgate.Xds.Convert
import Mathlib.Data.List.Find

/-! # What a list of discovered virtual hosts means

The meaning of the hosts as the control plane sends them, walked in order, against the first-match
search over the converted hosts. The conversion keeps the routes that name a cluster and drops the
others, so it forwards by the first route that could be forwarded by. The last part is about single
matches: which of their conditions the conversion loses.
-/

namespace Dxgate

set_option autoImplicit false

open Collections

namespace Proto

def HeaderMatcher.holds (header : HeaderMatcher) (input : MatchInput) : Bool :=
  match header.headerMatchSpecifier with
  | some (.exactMatch expected) =>
    input.headers.any fun (name, value) => Text.eqIgnoreAsciiCase name header.name && value = expected
  | _ => false

/-- An absent path specifier stands for the default path match, every absolute path. -/
def RouteMatch.pathHolds (m : RouteMatch) (path : String) : Bool :=
  match m.pathSpecifier with
  | some (.pathPrefix head) => Text.startsWith path head
  | some (.path exactPath) => path = exactPath
  | some (.safeRegex _) => false
  | none => Text.startsWith path "/"

def RouteMatch.holds (m : RouteMatch) (input : MatchInput) : Bool :=
  m.pathHolds input.path && m.headers.all (·.holds input)

/-- No regular expression, and every header matcher is exact. -/
structure RouteMatch.Plain (m : RouteMatch) : Prop where
  path : ∀ regex, m.pathSpecifier ≠ some (.safeRegex regex)
  headers : ∀ header ∈ m.headers, ∃ value, header.headerMatchSpecifier = some (.exactMatch value)

/-- The clusters an action names, those without a name left out. -/
def RouteAction.destinations (action : RouteAction) : List WeightedCluster :=
  let named : List WeightedCluster := match action.clusterSpecifier with
    | some (.cluster name) => [⟨name, 100⟩]
    | some (.weightedClusters clusters) => clusters.map fun c => ⟨c.name, c.weight.getD 1⟩
    | none => []
  named.filter (·.name ≠ "")

namespace Route

def destinations (route : Route) : List WeightedCluster :=
  match route.action with
  | some (.route action) => action.destinations
  | _ => []

def holds (route : Route) (input : MatchInput) : Bool := route.routeMatch.all (·.holds input)

/-- The walk stops here, to forward the request or to refuse it. -/
def decides (route : Route) (input : MatchInput) : Bool := route.action.isSome && route.holds input

/-- The walk may stop here to forward the request. -/
def forwards (route : Route) (input : MatchInput) : Bool :=
  !route.destinations.isEmpty && route.holds input

theorem decides_of_forwards {route : Route} {input : MatchInput} (h : route.forwards input) :
    route.decides input := by
  rw [forwards, Bool.and_eq_true] at h
  rw [decides, h.2, Bool.and_true]
  cases hAction : route.action with
  | none =>
    rw [destinations, hAction] at h
    exact absurd h.1 (by decide)
  | some action => rfl

end Route

def VirtualHost.matchesHost (vh : VirtualHost) (host : String) : Bool :=
  Dxgate.VirtualHost.matchesHost ⟨vh.name, vh.domains, []⟩ host

/-- The routes a request is walked along. -/
def walk (vhosts : List VirtualHost) (host : String) : List Route :=
  (vhosts.filter (·.matchesHost host)).flatMap (·.routes)

/-- Where the request goes when the first route that matches and has an action decides. -/
def outcome (vhosts : List VirtualHost) (input : MatchInput) : Option (List WeightedCluster) :=
  (((walk vhosts input.host).find? (·.decides input)).map (·.destinations)).filter (! ·.isEmpty)

/-- Where the request goes when routes that cannot be forwarded by are passed over. -/
def forwardingOutcome (vhosts : List VirtualHost) (input : MatchInput) :
    Option (List WeightedCluster) :=
  ((walk vhosts input.host).find? (·.forwards input)).map (·.destinations)

def Plain (vhosts : List VirtualHost) : Prop :=
  ∀ vh ∈ vhosts, ∀ route ∈ vh.routes, ∀ m, route.routeMatch = some m → m.Plain

/-- No route that would refuse the request stands in front of the first one that forwards it. -/
def RefusalsBehind (vhosts : List VirtualHost) (input : MatchInput) : Prop :=
  ∀ before route after, walk vhosts input.host = before ++ route :: after → route.forwards input →
    (∀ earlier ∈ before, ¬ earlier.forwards input) → ∀ earlier ∈ before, ¬ earlier.decides input

end Proto

/-! ## The conversion -/

theorem convertRouteAction_eq (action : Proto.RouteAction) :
    convertRouteAction action = action.destinations := by
  rw [convertRouteAction, Proto.RouteAction.destinations]
  cases action.clusterSpecifier with
  | none => rfl
  | some specifier =>
    cases specifier with
    | cluster name =>
      by_cases hName : name = ""
      · simp [hName]
      · simp [hName]
    | weightedClusters clusters =>
      simp only [List.filter_map]
      rfl

theorem convertHeaders_of_exact {headers : List Proto.HeaderMatcher}
    (hExact : ∀ header ∈ headers, ∃ value, header.headerMatchSpecifier = some (.exactMatch value)) :
    ∃ converted, convertHeaders headers = some converted ∧
      ∀ input, converted.all (·.matchesInput input) = headers.all (·.holds input) := by
  induction headers with
  | nil => exact ⟨[], rfl, fun _ => rfl⟩
  | cons header rest ih =>
    obtain ⟨value, hValue⟩ := hExact header List.mem_cons_self
    obtain ⟨converted, hRest, hSame⟩ := ih fun other hOther => hExact other (List.mem_cons_of_mem _ hOther)
    refine ⟨⟨header.name, value⟩ :: converted, ?_, fun input => ?_⟩
    · simp only [convertHeaders, hValue, hRest, Option.map_some]
    · rw [List.all_cons, List.all_cons, hSame, HeaderMatch.matchesInput, Proto.HeaderMatcher.holds,
        hValue]

theorem convertRouteMatch_eq_some {m : Proto.RouteMatch} {converted : RouteMatch}
    (h : convertRouteMatch m = some converted) :
    convertHeaders m.headers = some converted.headers ∧
      ∀ text, converted.path.matchesPath text = m.pathHolds text := by
  have hParts : ∀ path : PathMatch,
      (convertHeaders m.headers).bind (fun headers => some ⟨path, headers⟩) = some converted →
        convertHeaders m.headers = some converted.headers ∧ converted.path = path := by
    intro path hPath
    obtain ⟨headers, hHeaders, hConverted⟩ := Option.bind_eq_some_iff.mp hPath
    cases hConverted
    exact ⟨hHeaders, rfl⟩
  rw [convertRouteMatch] at h
  cases hSpecifier : m.pathSpecifier with
  | none =>
    rw [hSpecifier] at h
    obtain ⟨hHeaders, hPath⟩ := hParts _ h
    refine ⟨hHeaders, fun text => ?_⟩
    rw [hPath, Proto.RouteMatch.pathHolds, hSpecifier, PathMatch.matchesPath]
  | some specifier =>
    rw [hSpecifier] at h
    cases specifier with
    | pathPrefix head =>
      obtain ⟨hHeaders, hPath⟩ := hParts _ h
      refine ⟨hHeaders, fun text => ?_⟩
      rw [hPath, Proto.RouteMatch.pathHolds, hSpecifier, PathMatch.matchesPath]
    | path exactPath =>
      obtain ⟨hHeaders, hPath⟩ := hParts _ h
      refine ⟨hHeaders, fun text => ?_⟩
      rw [hPath, Proto.RouteMatch.pathHolds, hSpecifier, PathMatch.matchesPath]
    | safeRegex regex => cases h

theorem convertRouteMatch_of_plain {m : Proto.RouteMatch} (hPlain : m.Plain) :
    ∃ converted, convertRouteMatch m = some converted ∧
      ∀ input, converted.matchesInput input = m.holds input := by
  obtain ⟨headers, hHeaders, hSame⟩ := convertHeaders_of_exact hPlain.headers
  have hSome : ∃ converted, convertRouteMatch m = some converted := by
    rw [convertRouteMatch, hHeaders]
    cases hSpecifier : m.pathSpecifier with
    | none => exact ⟨_, rfl⟩
    | some specifier =>
      cases specifier with
      | pathPrefix head => exact ⟨_, rfl⟩
      | path exactPath => exact ⟨_, rfl⟩
      | safeRegex regex => exact absurd hSpecifier (hPlain.path regex)
  obtain ⟨converted, hConverted⟩ := hSome
  obtain ⟨hConvertedHeaders, hPath⟩ := convertRouteMatch_eq_some hConverted
  rw [hHeaders] at hConvertedHeaders
  refine ⟨converted, hConverted, fun input => ?_⟩
  rw [RouteMatch.matchesInput, Proto.RouteMatch.holds, hPath, ← hSame, Option.some.inj hConvertedHeaders]

theorem convertRoute_of_no_destination {route : Proto.Route} (hNone : route.destinations = []) :
    convertRoute route = none := by
  rw [Proto.Route.destinations] at hNone
  rw [convertRoute]
  cases hAction : route.action with
  | none => rfl
  | some action =>
    rw [hAction] at hNone
    cases action with
    | route action =>
      change action.destinations = [] at hNone
      simp [convertRouteAction_eq, hNone]
    | nonForwardingAction => rfl

theorem convertRoute_of_destination {route : Proto.Route}
    (hPlain : ∀ m, route.routeMatch = some m → m.Plain) (hSome : route.destinations ≠ []) :
    ∃ converted, convertRoute route = some converted ∧
      converted.weightedClusters = route.destinations ∧
      ∀ input, converted.matchesInput input = route.holds input := by
  obtain ⟨action, hAction⟩ : ∃ action, route.action = some (.route action) := by
    rw [Proto.Route.destinations] at hSome
    split at hSome
    · exact ⟨_, ‹_›⟩
    · exact absurd rfl hSome
  have hDestinations : convertRouteAction action = route.destinations := by
    rw [convertRouteAction_eq, Proto.Route.destinations, hAction]
  cases hMatch : route.routeMatch with
  | none =>
    refine ⟨⟨route.name, [], route.destinations⟩, ?_, rfl, fun input => ?_⟩
    · simp [convertRoute, hAction, hMatch, hDestinations, hSome]
    · rw [Proto.Route.holds, hMatch]
      rfl
  | some m =>
    obtain ⟨converted, hConverted, hSame⟩ := convertRouteMatch_of_plain (hPlain m hMatch)
    refine ⟨⟨route.name, [converted], route.destinations⟩, ?_, rfl, fun input => ?_⟩
    · simp [convertRoute, hAction, hMatch, hDestinations, hSome, hConverted]
    · rw [Proto.Route.holds, hMatch, Option.all_some, ← hSame, Route.matchesInput]
      simp

/-- A converted route matches what the original forwards, and sends it to the same clusters. -/
theorem convertRoute_spec {route : Proto.Route} (hPlain : ∀ m, route.routeMatch = some m → m.Plain) :
    (∀ input, (convertRoute route).any (·.matchesInput input) = route.forwards input) ∧
      ∀ converted, convertRoute route = some converted →
        converted.weightedClusters = route.destinations := by
  by_cases hNone : route.destinations = []
  · rw [convertRoute_of_no_destination hNone]
    refine ⟨fun input => ?_, fun converted h => by cases h⟩
    rw [Proto.Route.forwards, hNone]
    rfl
  · obtain ⟨converted, hConverted, hClusters, hSame⟩ := convertRoute_of_destination hPlain hNone
    rw [hConverted]
    refine ⟨fun input => ?_, fun other h => by cases h; exact hClusters⟩
    rw [Option.any_some, hSame, Proto.Route.forwards]
    simp [hNone]

theorem candidates_convert {listener : Listener} {vhosts : List Proto.VirtualHost}
    (hHosts : listener.virtualHosts = convertVirtualHosts vhosts) (host : String) :
    listener.candidates host = (Proto.walk vhosts host).filterMap convertRoute := by
  rw [Listener.candidates, hHosts, convertVirtualHosts, Proto.walk, List.filter_map, List.flatMap_map,
    List.filterMap_flatMap]
  rfl

theorem routeFor_convert {cfg : RuntimeConfig} {port : UInt16} {listener : Listener}
    {vhosts : List Proto.VirtualHost} (input : MatchInput)
    (hListener : cfg.listenerByPort port = some listener)
    (hHosts : listener.virtualHosts = convertVirtualHosts vhosts) (hPlain : Proto.Plain vhosts) :
    (cfg.routeFor port input).toOption.map (·.weightedClusters) =
      Proto.forwardingOutcome vhosts input := by
  have hSpec : ∀ route ∈ Proto.walk vhosts input.host, ∀ m, route.routeMatch = some m → m.Plain := by
    intro route hRoute
    obtain ⟨vh, hVh, hMem⟩ := List.mem_flatMap.mp hRoute
    exact hPlain vh (List.mem_filter.mp hVh).1 route hMem
  rw [RuntimeConfig.routeFor_toOption, hListener, Option.bind_some, candidates_convert hHosts,
    List.find?_filterMap, Proto.forwardingOutcome]
  have hSearch : (Proto.walk vhosts input.host).find?
      (fun route => (convertRoute route).any (·.matchesInput input)) =
      (Proto.walk vhosts input.host).find? (·.forwards input) := by
    apply List.find?_congr
    intro route hRoute
    exact (convertRoute_spec (hSpec route hRoute)).1 input
  rw [hSearch]
  cases hFound : (Proto.walk vhosts input.host).find? (·.forwards input) with
  | none => rfl
  | some route =>
    have hRoute := hSpec route (List.mem_of_find?_eq_some hFound)
    have hForwards := List.find?_some hFound
    rw [← (convertRoute_spec hRoute).1 input] at hForwards
    obtain ⟨converted, hConverted⟩ := Option.isSome_iff_exists.mp (Option.isSome_of_any hForwards)
    rw [Option.bind_some, hConverted, Option.map_some, Option.map_some,
      (convertRoute_spec hRoute).2 converted hConverted]

theorem forwardingOutcome_eq_outcome_iff (vhosts : List Proto.VirtualHost) (input : MatchInput) :
    Proto.forwardingOutcome vhosts input = Proto.outcome vhosts input ↔
      Proto.RefusalsBehind vhosts input := by
  have hWeaker : ∀ route ∈ Proto.walk vhosts input.host, route.forwards input → route.decides input :=
    fun route _ => Proto.Route.decides_of_forwards
  rw [Proto.RefusalsBehind, ← find?_strong_eq_filter_iff hWeaker, Proto.forwardingOutcome, Proto.outcome]
  cases hFirst : (Proto.walk vhosts input.host).find? (·.decides input) with
  | none => simp [find?_strong_of_none hWeaker hFirst]
  | some first =>
    have hDecides := List.find?_some hFirst
    rw [Proto.Route.decides, Bool.and_eq_true] at hDecides
    have hForwards : first.forwards input = !first.destinations.isEmpty := by
      rw [Proto.Route.forwards, hDecides.2, Bool.and_true]
    rw [Option.map_some, Option.filter_some, Option.filter_some, ← hForwards]
    by_cases hStrong : first.forwards input
    · rw [find?_strong_of_first hWeaker hFirst hStrong, if_pos hStrong, if_pos hStrong]
      simp
    · rw [if_neg hStrong, if_neg hStrong, Option.map_eq_none_iff]

/-- Converted hosts send a request along the first route that matches it and names a cluster. That is
where the hosts as received send it exactly when no refusal stands in front. -/
theorem routeFor_convert_meaning {cfg : RuntimeConfig} {port : UInt16} {listener : Listener}
    {vhosts : List Proto.VirtualHost} (input : MatchInput)
    (hListener : cfg.listenerByPort port = some listener)
    (hHosts : listener.virtualHosts = convertVirtualHosts vhosts) (hPlain : Proto.Plain vhosts) :
    (cfg.routeFor port input).toOption.map (·.weightedClusters) =
        Proto.forwardingOutcome vhosts input ∧
      ((cfg.routeFor port input).toOption.map (·.weightedClusters) = Proto.outcome vhosts input ↔
        Proto.RefusalsBehind vhosts input) := by
  have hSame := routeFor_convert input hListener hHosts hPlain
  exact ⟨hSame, by rw [hSame]; exact forwardingOutcome_eq_outcome_iff vhosts input⟩

/-- The admin pages are refused, everything else goes to the web cluster. -/
def guardedHosts : List Proto.VirtualHost :=
  [⟨"all", ["*"], [⟨"blocked", some ⟨some (.pathPrefix "/admin"), []⟩, some .nonForwardingAction⟩,
    ⟨"default", none, some (.route ⟨some (.cluster "web")⟩)⟩]⟩]

def guardedListener : Listener :=
  ⟨"http", ⟨.UNSPECIFIED, 80, 0, 0⟩, .http, convertVirtualHosts guardedHosts, none⟩

def guardedConfig : RuntimeConfig := ⟨"1", [guardedListener], [⟨"web", [], none⟩], []⟩

theorem guardedHosts_plain : Proto.Plain guardedHosts := by
  intro vh hVh route hRoute m hMatch
  rw [guardedHosts, List.mem_singleton] at hVh
  subst hVh
  rcases List.mem_cons.mp hRoute with rfl | hRoute
  · cases hMatch
    exact ⟨nofun, nofun⟩
  · rw [List.mem_singleton] at hRoute
    subst hRoute
    cases hMatch

theorem guardedConfig_listener : guardedConfig.listenerByPort 80 = some guardedListener := rfl

theorem guardedConfig_forwards_users :
    (guardedConfig.routeFor 80 ⟨"example.com", "/users", []⟩).toOption.map (·.weightedClusters) =
        some [⟨"web", 100⟩] ∧
      (guardedConfig.routeFor 80 ⟨"example.com", "/users", []⟩).toOption.map (·.weightedClusters) =
        Proto.forwardingOutcome guardedHosts ⟨"example.com", "/users", []⟩ :=
  ⟨by decide, (routeFor_convert_meaning _ guardedConfig_listener rfl guardedHosts_plain).1⟩

theorem guardedConfig_passes_refusal :
    guardedConfig.listenerByPort 80 = some guardedListener ∧
      guardedListener.virtualHosts = convertVirtualHosts guardedHosts ∧ Proto.Plain guardedHosts ∧
      (guardedConfig.routeFor 80 ⟨"example.com", "/admin", []⟩).toOption.map (·.weightedClusters) ≠
        Proto.outcome guardedHosts ⟨"example.com", "/admin", []⟩ :=
  ⟨guardedConfig_listener, rfl, guardedHosts_plain, by decide⟩

/-! ## Conditions that are lost -/

namespace Proto

def HeaderMatcher.named (header : HeaderMatcher) (name : String) : Bool :=
  Text.eqIgnoreAsciiCase name header.name

/-- A header of that name, with the given value for an exact matcher. An unset specifier, or one that the
schema does not know, still asks for the header. -/
def HeaderMatcher.demands (header : HeaderMatcher) (input : MatchInput) : Bool :=
  match header.headerMatchSpecifier with
  | some (.exactMatch expected) => input.headers.any fun (name, value) => header.named name && value = expected
  | _ => input.headers.any fun (name, _) => header.named name

/-- What the converted match accepts fulfils every condition of the original. -/
def RouteMatch.NotWidenedBy (m : RouteMatch) (converted : Dxgate.RouteMatch) : Prop :=
  ∀ input, converted.matchesInput input →
    m.pathHolds input.path ∧ ∀ header ∈ m.headers, header.demands input

/-- An exact matcher asks for the same header. -/
def RouteMatch.CoveredByExact (m : RouteMatch) (header : HeaderMatcher) : Prop :=
  ∃ other ∈ m.headers, ∃ value, other.headerMatchSpecifier = some (.exactMatch value) ∧
    header.named other.name

end Proto

theorem convertHeaders_eq_some {headers : List Proto.HeaderMatcher} {converted : List HeaderMatch}
    (h : convertHeaders headers = some converted) :
    (∀ header ∈ headers, ∀ regex, header.headerMatchSpecifier ≠ some (.safeRegexMatch regex)) ∧
    ∀ name value, ⟨name, value⟩ ∈ converted ↔
      ∃ header ∈ headers, header.name = name ∧ header.headerMatchSpecifier = some (.exactMatch value) := by
  induction headers generalizing converted with
  | nil =>
    cases h
    simp
  | cons header rest ih =>
    rw [convertHeaders] at h
    split at h
    · rename_i expected hSpecifier
      obtain ⟨tail, hTail, rfl⟩ := Option.map_eq_some_iff.mp h
      obtain ⟨hNoRegex, hMem⟩ := ih hTail
      refine ⟨?_, fun name value => ?_⟩
      · simpa [hSpecifier] using hNoRegex
      · simp [hMem, hSpecifier, eq_comm]
    · cases h
    · rename_i hSpecifier
      obtain ⟨hNoRegex, hMem⟩ := ih h
      refine ⟨?_, fun name value => ?_⟩
      · simpa [hSpecifier] using hNoRegex
      · simp [hMem, hSpecifier]

/-- The request with just the headers that a match asks for. -/
def RouteMatch.leastInput (m : RouteMatch) : MatchInput :=
  ⟨"*", match m.path with
    | .pathPrefix head => head
    | .pathExact path => path, m.headers.map fun header => (header.name, header.value)⟩

theorem RouteMatch.matchesInput_leastInput (m : RouteMatch) : m.matchesInput m.leastInput := by
  rw [matchesInput, Bool.and_eq_true, List.all_eq_true]
  constructor
  · rw [leastInput]
    cases m.path with
    | pathPrefix head => exact Text.startsWith_iff.mpr ⟨"", (String.append_empty).symm⟩
    | pathExact path => exact decide_eq_true rfl
  · intro header hMem
    rw [HeaderMatch.matchesInput, List.any_eq_true]
    refine ⟨(header.name, header.value), List.mem_map_of_mem hMem, ?_⟩
    simp [Text.eqIgnoreAsciiCase_refl]

/-- A conversion keeps every condition exactly when each matcher without a specifier asks for a header that
an exact matcher asks for as well. -/
theorem convertRouteMatch_notWidened_iff (m : Proto.RouteMatch) (converted : RouteMatch)
    (hConverted : convertRouteMatch m = some converted) :
    m.NotWidenedBy converted ↔
      ∀ header ∈ m.headers, header.headerMatchSpecifier = none → m.CoveredByExact header := by
  obtain ⟨hHeaders, hPath⟩ := convertRouteMatch_eq_some hConverted
  obtain ⟨hNoRegex, hMem⟩ := convertHeaders_eq_some hHeaders
  constructor
  · intro hNarrow header hHeader hUnset
    have hDemands := (hNarrow _ converted.matchesInput_leastInput).2 header hHeader
    rw [Proto.HeaderMatcher.demands, hUnset] at hDemands
    obtain ⟨pair, hPair, hName⟩ := List.any_eq_true.mp hDemands
    obtain ⟨found, hFound, rfl⟩ := List.mem_map.mp hPair
    obtain ⟨other, hOther, hSame, hExact⟩ := (hMem found.name found.value).mp hFound
    exact ⟨other, hOther, found.value, hExact, by rw [hSame]; exact hName⟩
  · intro hCovered input hMatch
    rw [RouteMatch.matchesInput, Bool.and_eq_true, List.all_eq_true] at hMatch
    -- a header that an exact matcher asks for is in the input, under a name that is the same up to case
    have hCarried : ∀ other ∈ m.headers, ∀ value, other.headerMatchSpecifier = some (.exactMatch value) →
        ∃ name, (name, value) ∈ input.headers ∧ other.named name := by
      intro other hOther value hExact
      have hFound := hMatch.2 _ ((hMem other.name value).mpr ⟨other, hOther, rfl, hExact⟩)
      rw [HeaderMatch.matchesInput, List.any_eq_true] at hFound
      obtain ⟨⟨name, carried⟩, hInput, hBoth⟩ := hFound
      obtain ⟨hName, hValue⟩ := Bool.and_eq_true_iff.mp hBoth
      obtain rfl : carried = value := of_decide_eq_true hValue
      exact ⟨name, hInput, hName⟩
    refine ⟨hPath input.path ▸ hMatch.1, fun header hHeader => ?_⟩
    rw [Proto.HeaderMatcher.demands]
    split
    · rename_i expected hExact
      obtain ⟨name, hInput, hName⟩ := hCarried header hHeader expected hExact
      exact List.any_eq_true.mpr ⟨_, hInput, by simp [hName]⟩
    · rename_i hNotExact
      have hUnset : header.headerMatchSpecifier = none := by
        cases hSpecifier : header.headerMatchSpecifier with
        | none => rfl
        | some specifier =>
          cases specifier with
          | exactMatch value => exact absurd hSpecifier (hNotExact value)
          | safeRegexMatch regex => exact absurd hSpecifier (hNoRegex header hHeader regex)
      obtain ⟨other, hOther, value, hExact, hName⟩ := hCovered header hHeader hUnset
      obtain ⟨name, hInput, hCarries⟩ := hCarried other hOther value hExact
      refine List.any_eq_true.mpr ⟨_, hInput, ?_⟩
      change Text.eqIgnoreAsciiCase name header.name
      rw [Text.eqIgnoreAsciiCase_congr hCarries (Text.eqIgnoreAsciiCase_refl _)]
      exact hName

theorem coveredMatch_notWidened :
    Proto.RouteMatch.NotWidenedBy ⟨none, [⟨"X-User", none⟩, ⟨"x-user", some (.exactMatch "a")⟩]⟩
      ⟨.pathPrefix "/", [⟨"x-user", "a"⟩]⟩ := by
  refine (convertRouteMatch_notWidened_iff ⟨none, [⟨"X-User", none⟩, ⟨"x-user", some (.exactMatch "a")⟩]⟩
    ⟨.pathPrefix "/", [⟨"x-user", "a"⟩]⟩ (by decide)).mpr ?_
  intro header hMem hUnset
  rcases List.mem_cons.mp hMem with rfl | hMem
  · exact ⟨⟨"x-user", some (.exactMatch "a")⟩, by decide, "a", rfl, by decide⟩
  · rw [List.mem_singleton] at hMem
    subst hMem
    cases hUnset

/-- The route asks for a header; the converted one takes every request. -/
theorem unsetMatcher_widens :
    convertRouteMatch ⟨some (.pathPrefix "/"), [⟨"x-canary", none⟩]⟩ = some ⟨.pathPrefix "/", []⟩ ∧
    RouteMatch.matchesInput ⟨.pathPrefix "/", []⟩ ⟨"example.com", "/", []⟩ ∧
    ¬ Proto.RouteMatch.NotWidenedBy ⟨some (.pathPrefix "/"), [⟨"x-canary", none⟩]⟩ ⟨.pathPrefix "/", []⟩ := by
  refine ⟨by decide, by decide, fun hNarrow => ?_⟩
  have hDemands := (hNarrow ⟨"example.com", "/", []⟩ (by decide)).2 ⟨"x-canary", none⟩ (by decide)
  exact absurd hDemands (by decide)

end Dxgate
