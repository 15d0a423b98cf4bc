import Dxgate.Xds.Staleness

/-! # Published configurations and their routes

A configuration is held back while a route names a missing cluster, but not while a listener names a
missing route configuration: the assembly skips the name and validation never sees it. The results say
at which responses this happens.
-/

namespace Dxgate

set_option autoImplicit false

open Collections

namespace AdsState

/-- Every route configuration that a stored listener names is stored. -/
def RoutesComplete (s : AdsState) : Prop :=
  ∀ snapshot ∈ s.listeners.values, ∀ route ∈ snapshot.routeNames, route ∈ s.routes.keys

instance (s : AdsState) : Decidable s.RoutesComplete := by unfold RoutesComplete; infer_instance

/-- A condition on the state before a response: every route name that the stored listeners will have is
covered. A listener response must bring no name that is not stored yet; a route response must carry the
names that it removes. -/
def RoutesSupplied (codec : Proto.Codec) (s : AdsState) (resp : Proto.DiscoveryResponse) : Prop :=
  if resp.typeUrl = LISTENER_TYPE then
    ∀ snapshot, Leaves s.listeners (s.subscription LISTENER_TYPE) (carriedListeners codec resp) snapshot →
      ∀ route ∈ snapshot.routeNames, route ∈ s.routes.keys
  else if resp.typeUrl = ROUTE_TYPE then
    ∀ snapshot ∈ s.listeners.values, ∀ route ∈ snapshot.routeNames,
      route ∈ (carriedRoutes codec resp).map (·.1) ∨
        (s.subscription ROUTE_TYPE ≠ [] ∧ route ∉ s.subscription ROUTE_TYPE ∧ route ∈ s.routes.keys)
  else s.RoutesComplete

theorem Applied.routesComplete_iff {codec : Proto.Codec} {s s' : AdsState}
    {resp : Proto.DiscoveryResponse} {u : DiscoveryUpdates} (h : Applied codec s resp s' u) :
    s'.RoutesComplete ↔ RoutesSupplied codec s resp := by
  unfold RoutesComplete RoutesSupplied
  rw [h.listeners_eq, h.routes_eq]
  by_cases hListener : resp.typeUrl = LISTENER_TYPE
  · simp only [hListener, if_true, mem_values_insertAll_prune, types_distinct,
      if_false]
  · by_cases hRoute : resp.typeUrl = ROUTE_TYPE
    · simp only [hRoute, if_true, if_false, SortedMap.mem_keys_insertAll,
        mem_keys_pruneRequested, types_distinct]
      refine forall₂_congr fun snapshot _ => forall₂_congr fun route _ => or_congr Iff.rfl ?_
      tauto
    · simp only [hListener, hRoute, if_false]
      rfl

end AdsState

section Publication

variable (codec : Proto.Codec) (channels : Channels) (cfg : XdsClientConfig) (watch : RuntimeConfig)

/-- Whenever the stream sends a configuration, every route name of a stored listener is stored. -/
def PublishesComplete (responses : List Proto.DiscoveryResponse) : Prop :=
  ∀ cs resp cs', Processes codec channels cfg watch responses cs resp cs' →
    cs'.published ≠ cs.published → cs'.stream.ads.RoutesComplete

variable {codec channels cfg watch}

theorem handleResponse_routesComplete_iff {cs cs' : ClientState} {resp : Proto.DiscoveryResponse}
    (h : handleResponse codec channels cfg.node cs resp = (cs', none)) :
    cs'.stream.ads.RoutesComplete ↔ AdsState.RoutesSupplied codec cs.stream.ads resp := by
  obtain ⟨ads, u, hApplied, hAds⟩ := handleResponse_applied h
  rw [← hApplied.routesComplete_iff, hAds]
  unfold AdsState.RoutesComplete
  rw [AdsState.settle_listeners, AdsState.settle_routes]

/-- A run is complete at every publication exactly when each response that is published meets
`RoutesSupplied`; in particular when all of its responses do. -/
theorem publishesComplete_iff (codec : Proto.Codec) (channels : Channels) (cfg : XdsClientConfig)
    (watch : RuntimeConfig) (responses : List Proto.DiscoveryResponse) :
    (PublishesComplete codec channels cfg watch responses ↔
      ∀ cs resp cs', Processes codec channels cfg watch responses cs resp cs' →
        cs'.published ≠ cs.published → AdsState.RoutesSupplied codec cs.stream.ads resp) ∧
    ((∀ cs resp cs', Processes codec channels cfg watch responses cs resp cs' →
        AdsState.RoutesSupplied codec cs.stream.ads resp) →
      ∀ cs resp cs', Processes codec channels cfg watch responses cs resp cs' →
        cs'.stream.ads.RoutesComplete) := by
  apply Processes.published_iff (P := fun cs => cs.stream.ads.RoutesComplete)
  rintro cs resp cs' ⟨before, after, _, _, hHandle⟩
  exact handleResponse_routesComplete_iff hHandle

end Publication

/-! ## The first listener response after a reconnect -/

/-- What an earlier stream left in the watch channel: listener "l" serves the route to cluster "c". -/
def routableConfig : RuntimeConfig where
  version := "1"
  listeners := [⟨"l", { ip := .UNSPECIFIED, port := 80 }, .http,
    convertVirtualHosts (routeToCluster "c").virtualHosts, none⟩]
  clusters := [⟨"c", [], none⟩]
  secrets := []

/-- The stream is opened again and answers with the same listener: a valid configuration with a virtual
host is replaced by one without any. -/
theorem reconnect_publishes_without_routes :
    routableConfig.WellFormed ∧ (routableConfig.listeners.map (·.virtualHosts.length)) = [1] ∧
    (runOnce movingRouteCodec .alwaysOpen sampleClient routableConfig
      (.opened [.message rdsListenerResponse])).1.watch.listeners.map (·.virtualHosts) = [[]] ∧
    ¬ PublishesComplete movingRouteCodec .alwaysOpen sampleClient routableConfig
      ([] ++ [rdsListenerResponse]) := by
  refine ⟨by decide, by decide, by decide, ?_⟩
  intro h
  have hStep := Processes.last movingRouteCodec .alwaysOpen sampleClient routableConfig []
    rdsListenerResponse (by decide) (by decide)
  exact absurd (h _ _ _ hStep (by decide)) (by decide)

end Dxgate
