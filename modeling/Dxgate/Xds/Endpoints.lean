import Dxgate.Xds.Coverage

/-! # Published configurations and their endpoints

A cluster whose endpoints have not been received is assembled with an empty endpoint list, which
validation accepts. The results say at which responses a configuration goes out before the endpoints of
a cluster that its routes name.
-/

namespace Dxgate

set_option autoImplicit false

open Collections

namespace AdsState

/-- For every cluster that a route of the assembled configuration names, endpoints were received. -/
def EndpointsComplete (s : AdsState) : Prop :=
  ∀ version, ∀ listener ∈ (s.runtimeConfig version).listeners, ∀ vh ∈ listener.virtualHosts,
    ∀ route ∈ vh.routes, ∀ dst ∈ route.weightedClusters, ∀ cluster ∈ s.clusters.values,
      cluster.name = dst.name → cluster.edsServiceName ∈ s.endpoints.keys

/-- A route of one of the listeners names the cluster, inline or in a route configuration. -/
def Names (listeners : ListenerSnapshot → Prop) (vhosts : String → List VirtualHost)
    (cluster : String) : Prop :=
  ∃ snapshot, listeners snapshot ∧ (cluster ∈ routeClusterNames snapshot.inlineVirtualHosts ∨
    ∃ route ∈ snapshot.routeNames, cluster ∈ routeClusterNames (vhosts route))

def vhostsOf (s : AdsState) (route : String) : List VirtualHost := (s.routes.get route).getD []

/-- The virtual hosts of a route name after a route response. -/
def vhostsAfter (codec : Proto.Codec) (s : AdsState) (resp : Proto.DiscoveryResponse)
    (route : String) : List VirtualHost :=
  match SortedMap.lastValue (carriedRoutes codec resp) route with
  | some vhosts => vhosts
  | none =>
    if s.subscription ROUTE_TYPE = [] ∨ route ∈ s.subscription ROUTE_TYPE then [] else s.vhostsOf route

/-- A condition on the state before a response, for the clusters that will be stored and named by a
route: a listener or route response needs their endpoints to be there, a cluster response needs them
there or inline, an endpoint response has to carry them. -/
def EndpointsSupplied (codec : Proto.Codec) (s : AdsState) (resp : Proto.DiscoveryResponse) : Prop :=
  if resp.typeUrl = LISTENER_TYPE then
    ∀ cluster ∈ s.clusters.values,
      Names (Leaves s.listeners (s.subscription LISTENER_TYPE) (carriedListeners codec resp)) s.vhostsOf
        cluster.name → cluster.edsServiceName ∈ s.endpoints.keys
  else if resp.typeUrl = ROUTE_TYPE then
    ∀ cluster ∈ s.clusters.values,
      Names (· ∈ s.listeners.values) (vhostsAfter codec s resp) cluster.name →
        cluster.edsServiceName ∈ s.endpoints.keys
  else if resp.typeUrl = CLUSTER_TYPE then
    ∀ cluster, Leaves s.clusters (s.subscription CLUSTER_TYPE)
        ((named (carriedClusters codec resp)).map fun c => (c.name, clusterSnapshot codec c)) cluster →
      Names (· ∈ s.listeners.values) s.vhostsOf cluster.name →
        cluster.edsServiceName ∈ (inlineAssignments (carriedClusters codec resp)).map (·.1) ∨
          cluster.edsServiceName ∈ s.endpoints.keys
  else if resp.typeUrl = ENDPOINT_TYPE then
    ∀ cluster ∈ s.clusters.values, Names (· ∈ s.listeners.values) s.vhostsOf cluster.name →
      cluster.edsServiceName ∈ (carriedAssignments codec resp).map (·.1)
  else s.EndpointsComplete

theorem mem_routeClusterNames_snapshot {s : AdsState} {snapshot : ListenerSnapshot} {cluster : String} :
    cluster ∈ routeClusterNames (s.snapshotVirtualHosts snapshot) ↔
      cluster ∈ routeClusterNames snapshot.inlineVirtualHosts ∨
        ∃ route ∈ snapshot.routeNames, cluster ∈ routeClusterNames (s.vhostsOf route) := by
  rw [snapshotVirtualHosts, routeClusterNames, List.flatMap_append, List.mem_append]
  refine or_congr Iff.rfl ?_
  rw [List.flatMap_assoc, List.mem_flatMap]
  rfl

theorem endpointsComplete_iff {s : AdsState} :
    s.EndpointsComplete ↔ ∀ cluster ∈ s.clusters.values,
      Names (· ∈ s.listeners.values) s.vhostsOf cluster.name →
        cluster.edsServiceName ∈ s.endpoints.keys := by
  constructor
  · rintro hComplete cluster hCluster ⟨snapshot, hSnapshot, hNames⟩
    obtain ⟨vh, hVh, route, hRoute, dst, hDst, hName⟩ :=
      mem_routeClusterNames.mp (mem_routeClusterNames_snapshot.mpr hNames)
    exact hComplete "" (s.runtimeListener snapshot) (List.mem_map_of_mem hSnapshot) vh hVh route hRoute
      dst hDst cluster hCluster hName.symm
  · intro hComplete version listener hListener vh hVh route hRoute dst hDst cluster hCluster hName
    obtain ⟨snapshot, hSnapshot, rfl⟩ := List.mem_map.mp hListener
    apply hComplete cluster hCluster
    refine ⟨snapshot, hSnapshot, mem_routeClusterNames_snapshot.mp ?_⟩
    exact mem_routeClusterNames.mpr ⟨vh, hVh, route, hRoute, dst, hDst, hName.symm⟩

theorem Applied.vhostsOf_eq {codec : Proto.Codec} {s s' : AdsState} {resp : Proto.DiscoveryResponse}
    {u : DiscoveryUpdates} (h : Applied codec s resp s' u) :
    s'.vhostsOf = if resp.typeUrl = ROUTE_TYPE then vhostsAfter codec s resp else s.vhostsOf := by
  funext route
  rw [vhostsOf, h.routes_eq]
  split
  · rw [SortedMap.get_insertAll, get_pruneRequested, vhostsAfter]
    cases SortedMap.lastValue (carriedRoutes codec resp) route with
    | some vhosts => rfl
    | none =>
      rw [Option.none_or]
      split
      · rfl
      · rfl
  · rfl

theorem Applied.endpointsComplete_iff {codec : Proto.Codec} {s s' : AdsState}
    {resp : Proto.DiscoveryResponse} {u : DiscoveryUpdates} (h : Applied codec s resp s' u)
    (hCovered : s.DerivedCovered) : s'.EndpointsComplete ↔ EndpointsSupplied codec s resp := by
  rw [AdsState.endpointsComplete_iff, EndpointsSupplied, h.vhostsOf_eq, h.listeners_eq, h.clusters_eq,
    h.endpoints_eq]
  by_cases hListener : resp.typeUrl = LISTENER_TYPE
  · simp only [hListener, if_true, if_false, types_distinct,
      mem_values_insertAll_prune]
  by_cases hRoute : resp.typeUrl = ROUTE_TYPE
  · simp only [hRoute, if_true, if_false, types_distinct]
  by_cases hCluster : resp.typeUrl = CLUSTER_TYPE
  · simp only [hCluster, if_true, if_false, types_distinct,
      mem_values_insertAll_prune, SortedMap.mem_keys_insertAll]
  by_cases hEndpoint : resp.typeUrl = ENDPOINT_TYPE
  · simp only [hEndpoint, if_true, if_false, types_distinct,
      SortedMap.mem_keys_insertAll, mem_keys_pruneRequested]
    refine forall₂_congr fun cluster hStored => forall_congr' fun _ => ?_
    -- the stored clusters are all subscribed, so an assignment that is not carried is removed
    have hSubscribed := hCovered.endpoints cluster hStored
    exact or_iff_left fun hKept => hKept.2.2 hSubscribed
  · simp only [hListener, hRoute, hCluster, hEndpoint, if_false]
    exact AdsState.endpointsComplete_iff.symm

end AdsState

section Publication

variable (codec : Proto.Codec) (channels : Channels) (cfg : XdsClientConfig) (watch : RuntimeConfig)

/-- Whenever the stream sends a configuration, the endpoints of every cluster that its routes name have
been received. -/
def PublishesEndpoints (responses : List Proto.DiscoveryResponse) : Prop :=
  ∀ cs resp cs', Processes codec channels cfg watch responses cs resp cs' →
    cs'.published ≠ cs.published → cs'.stream.ads.EndpointsComplete

variable {codec channels cfg watch}

theorem Processes.endpointsComplete_iff {responses : List Proto.DiscoveryResponse} {cs cs' : ClientState}
    {resp : Proto.DiscoveryResponse} (h : Processes codec channels cfg watch responses cs resp cs') :
    cs'.stream.ads.EndpointsComplete ↔ AdsState.EndpointsSupplied codec cs.stream.ads resp := by
  obtain ⟨before, after, _, hServes, hHandle⟩ := h
  obtain ⟨ads, u, hApplied, hAds⟩ := handleResponse_applied hHandle
  rw [← hApplied.endpointsComplete_iff hServes.derivedCovered, hAds,
    AdsState.endpointsComplete_iff, AdsState.endpointsComplete_iff]
  unfold AdsState.vhostsOf
  rw [AdsState.settle_listeners, AdsState.settle_routes, AdsState.settle_clusters,
    AdsState.settle_endpoints]

/-- A run has the endpoints at every publication exactly when each response that is published meets
`EndpointsSupplied`; in particular when all of its responses do. -/
theorem publishesEndpoints_iff (codec : Proto.Codec) (channels : Channels) (cfg : XdsClientConfig)
    (watch : RuntimeConfig) (responses : List Proto.DiscoveryResponse) :
    (PublishesEndpoints codec channels cfg watch responses ↔
      ∀ cs resp cs', Processes codec channels cfg watch responses cs resp cs' →
        cs'.published ≠ cs.published → AdsState.EndpointsSupplied codec cs.stream.ads resp) ∧
    ((∀ cs resp cs', Processes codec channels cfg watch responses cs resp cs' →
        AdsState.EndpointsSupplied codec cs.stream.ads resp) →
      ∀ cs resp cs', Processes codec channels cfg watch responses cs resp cs' →
        cs'.stream.ads.EndpointsComplete) := by
  apply Processes.published_iff (P := fun cs => cs.stream.ads.EndpointsComplete)
  intro cs resp cs' hProcess
  exact hProcess.endpointsComplete_iff

end Publication

/-- The first bring-up: the cluster response completes the routes and is published, with no endpoints
received for the cluster. -/
theorem bringUp_publishes_without_endpoints :
    ¬ PublishesEndpoints movingRouteCodec .alwaysOpen sampleClient (.empty "bootstrap")
      ([rdsListenerResponse, routeResponse 0x63] ++ [clusterResponse 0x63]) := by
  intro h
  have hStep := Processes.last movingRouteCodec .alwaysOpen sampleClient (.empty "bootstrap")
    [rdsListenerResponse, routeResponse 0x63] (clusterResponse 0x63) (by decide) (by decide)
  have hReceived := h _ _ _ hStep (by decide) "1"
    ⟨"l", { ip := .UNSPECIFIED, port := 80 }, .http,
      convertVirtualHosts (routeToCluster "c").virtualHosts, none⟩ (by decide)
    _ List.mem_cons_self _ List.mem_cons_self _ List.mem_cons_self ⟨"c", "c", none⟩ (by decide) rfl
  exact absurd hReceived (by decide)

end Dxgate
