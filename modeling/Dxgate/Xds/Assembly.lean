import Dxgate.Xds.Coverage

/-! # What an assembled configuration can fail on

The stores keep every resource under its own name and the conversions leave out routes without a
destination, so of all the things validation looks for only a missing cluster can be found.
-/

namespace Dxgate

set_option autoImplicit false

open Collections

/-- No route is without a destination. -/
def Destined (vhosts : List VirtualHost) : Prop :=
  ∀ vh ∈ vhosts, ∀ route ∈ vh.routes, route.weightedClusters ≠ []

theorem convertRoute_destined {source : Proto.Route} {route : Route} (h : convertRoute source = some route) :
    route.weightedClusters ≠ [] := by
  simp only [convertRoute, Option.bind_eq_bind, Option.bind_eq_some_iff] at h
  obtain ⟨action, _, h⟩ := h
  cases action with
  | nonForwardingAction => simp at h
  | route action =>
    dsimp only at h
    split at h
    · cases h
    · rename_i hSome
      cases hMatch : source.routeMatch with
      | none =>
        rw [hMatch] at h
        cases h
        exact hSome
      | some routeMatch =>
        rw [hMatch] at h
        obtain ⟨routeMatches, _, hRoute⟩ := Option.bind_eq_some_iff.mp h
        cases hRoute
        exact hSome

theorem convertVirtualHosts_destined (vhosts : List Proto.VirtualHost) :
    Destined (convertVirtualHosts vhosts) := by
  intro vh hVh route hRoute
  obtain ⟨source, _, rfl⟩ := List.mem_map.mp hVh
  obtain ⟨sourceRoute, _, hConvert⟩ := List.mem_filterMap.mp hRoute
  exact convertRoute_destined hConvert

/-- What `listenerSnapshot` makes of any listener. -/
structure ListenerSnapshot.Regular (snapshot : ListenerSnapshot) : Prop where
  protocol : snapshot.listener.protocol = if snapshot.listener.bind.port = 443 then .https else .http
  tls : snapshot.listener.tlsSecret = none
  inline : Destined snapshot.inlineVirtualHosts

theorem listenerSnapshot_ok {codec : Proto.Codec} {listener : Proto.Listener} {snapshot : ListenerSnapshot}
    (h : listenerSnapshot codec listener = .ok snapshot) :
    ∃ hcms, httpConnectionManagers codec listener = .ok hcms ∧ snapshot = {
      listener := {
        name := listener.name
        bind := { ip := .UNSPECIFIED, port := (listenerPort listener).getD 80 }
        protocol := if (listenerPort listener).getD 80 = 443 then .https else .http
        virtualHosts := []
        tlsSecret := none }
      routeNames := sortedUnique (hcms.filterMap rdsRouteName)
      inlineVirtualHosts := hcms.flatMap inlineVirtualHosts } := by
  rw [listenerSnapshot] at h
  cases hHcms : httpConnectionManagers codec listener with
  | error err =>
    rw [hHcms] at h
    cases h
  | ok hcms =>
    rw [hHcms] at h
    cases h
    exact ⟨hcms, rfl, rfl⟩

theorem listenerSnapshot_regular {codec : Proto.Codec} {listener : Proto.Listener}
    {snapshot : ListenerSnapshot} (h : listenerSnapshot codec listener = .ok snapshot) :
    snapshot.Regular := by
  obtain ⟨hcms, _, rfl⟩ := listenerSnapshot_ok h
  refine ⟨rfl, rfl, ?_⟩
  intro vh hVh
  obtain ⟨hcm, _, hInline⟩ := List.mem_flatMap.mp hVh
  rw [inlineVirtualHosts] at hInline
  split at hInline
  · exact convertVirtualHosts_destined _ vh hInline
  · cases hInline

namespace AdsState

structure Regular (s : AdsState) : Prop where
  listeners : ∀ name snapshot, s.listeners.get name = some snapshot →
    snapshot.listener.name = name ∧ snapshot.Regular
  routes : ∀ name vhosts, s.routes.get name = some vhosts → Destined vhosts
  clusters : s.ClustersKeyed

theorem Regular.of_stores {s t : AdsState} (h : s.Regular) (hListeners : t.listeners = s.listeners)
    (hRoutes : t.routes = s.routes) (hClusters : t.clusters = s.clusters) : t.Regular := by
  refine ⟨?_, ?_, ?_⟩
  · rw [hListeners]
    exact h.listeners
  · rw [hRoutes]
    exact h.routes
  · unfold ClustersKeyed
    rw [hClusters]
    exact h.clusters

theorem default_regular : default.Regular := by
  refine ⟨?_, ?_, ?_⟩
  · intro name snapshot hGet
    cases hGet
  · intro name vhosts hGet
    cases hGet
  · intro name cluster hGet
    cases hGet

theorem get_of_get_pruneRequested {T : Type} {m : SortedMap String T} {requested : List String}
    {name : String} {value : T} (h : (pruneRequested m requested).get name = some value) :
    m.get name = some value := by
  rw [get_pruneRequested] at h
  split at h
  · cases h
  · exact h

theorem Regular.putListener {s : AdsState} (h : s.Regular) {snapshot : ListenerSnapshot}
    (hSnapshot : snapshot.Regular) : (s.putListener snapshot).Regular := by
  refine ⟨?_, h.routes, h.clusters⟩
  intro name stored hGet
  simp only [AdsState.putListener, SortedMap.get_insert] at hGet
  split at hGet
  · rename_i hEq
    cases hGet
    exact ⟨hEq.symm, hSnapshot⟩
  · exact h.listeners name stored hGet

theorem Regular.putRoute {s : AdsState} (h : s.Regular) (config : Proto.RouteConfiguration) :
    (s.putRoute config).Regular := by
  refine ⟨h.listeners, ?_, h.clusters⟩
  intro name stored hGet
  simp only [AdsState.putRoute, SortedMap.get_insert] at hGet
  split at hGet
  · cases hGet
    exact convertVirtualHosts_destined _
  · exact h.routes name stored hGet

theorem Regular.putCluster {s : AdsState} (h : s.Regular) (codec : Proto.Codec) (cluster : Proto.Cluster) :
    (s.putCluster codec cluster).Regular := by
  rw [AdsState.putCluster]
  split
  · exact h
  · refine ⟨h.listeners, h.routes, ?_⟩
    intro name stored hGet
    simp only [SortedMap.get_insert] at hGet
    split at hGet
    · rename_i hEq
      cases hGet
      exact hEq.symm
    · exact h.clusters name stored hGet

theorem Regular.putAssignment {s : AdsState} (h : s.Regular) (assignment : Proto.ClusterLoadAssignment) :
    (s.putAssignment assignment).Regular := by
  rw [AdsState.putAssignment]
  split
  · exact h
  · exact h.of_stores rfl rfl rfl

theorem decodeListener_regular {codec : Proto.Codec} {resource : Proto.Any} {snapshot : ListenerSnapshot}
    (h : decodeListener codec resource = .ok snapshot) : snapshot.Regular := by
  simp only [decodeListener, bind, Except.bind] at h
  split at h
  · cases h
  · exact listenerSnapshot_regular h

/-- Every response keeps the stores regular, also one that fails half way. -/
theorem Regular.applyResponse {s : AdsState} (h : s.Regular) (codec : Proto.Codec)
    (resp : Proto.DiscoveryResponse) : (s.applyResponse codec resp).1.Regular := by
  rw [AdsState.applyResponse]
  split
  · refine applyWith_invariant (I := Regular) ?_ ?_ _
    · intro s r snapshot hDecode hs
      exact hs.putListener (decodeListener_regular hDecode)
    · exact ⟨fun name stored hGet => h.listeners name stored (get_of_get_pruneRequested hGet), h.routes,
        h.clusters⟩
  split
  · refine applyWith_invariant (I := Regular) ?_ ?_ _
    · intro s r config _ hs
      exact hs.putRoute config
    · exact ⟨h.listeners, fun name stored hGet => h.routes name stored (get_of_get_pruneRequested hGet),
        h.clusters⟩
  split
  · refine applyWith_invariant (I := Regular) ?_ ?_ _
    · intro s r cluster _ hs
      exact hs.putCluster codec cluster
    · exact ⟨h.listeners, h.routes,
        fun name stored hGet => h.clusters name stored (get_of_get_pruneRequested hGet)⟩
  split
  · refine applyWith_invariant (I := Regular) ?_ ?_ _
    · intro s r assignment _ hs
      exact hs.putAssignment assignment
    · exact h.of_stores rfl rfl rfl
  · exact h

theorem Regular.clusterNames_eq {s : AdsState} (h : s.Regular) (version : String) :
    (s.runtimeConfig version).clusters.map (·.name) = s.clusters.keys := by
  rw [runtimeConfig_clusters]
  exact SortedMap.map_values_eq_keys h.clusters

theorem Regular.consistent {s : AdsState} (h : s.Regular) (version : String) :
    (s.runtimeConfig version).Consistent := by
  have hListenerNames : (s.runtimeConfig version).listeners.map (·.name) = s.listeners.keys := by
    rw [runtimeConfig, List.map_map]
    exact SortedMap.map_values_eq_keys fun name snapshot hGet => (h.listeners name snapshot hGet).1
  have hSnapshots : ∀ snapshot ∈ s.listeners.values, snapshot.Regular := by
    intro snapshot hSnapshot
    obtain ⟨name, hGet⟩ := SortedMap.mem_values_iff.mp hSnapshot
    exact (h.listeners name snapshot hGet).2
  refine ⟨?_, ?_, ?_, ?_⟩
  · rw [hListenerNames]
    exact s.listeners.sorted.imp ne_of_lt
  · refine List.pairwise_of_forall_mem_list ?_
    intro a ha b hb hBind
    obtain ⟨left, hLeft, rfl⟩ := List.mem_map.mp ha
    obtain ⟨right, hRight, rfl⟩ := List.mem_map.mp hb
    have hLeft := hSnapshots left hLeft
    have hRight := hSnapshots right hRight
    have hBind : left.listener.bind = right.listener.bind := hBind
    simp only [Listener.mode, runtimeListener]
    rw [hLeft.protocol, hRight.protocol, hLeft.tls, hRight.tls, hBind]
  · rw [h.clusterNames_eq]
    exact s.clusters.sorted.imp ne_of_lt
  · intro listener hListener vh hVh route hRoute
    obtain ⟨snapshot, hSnapshot, rfl⟩ := List.mem_map.mp hListener
    rcases mem_snapshotVirtualHosts hVh with hInline | ⟨vhosts, hVhosts, hMem⟩
    · exact (hSnapshots snapshot hSnapshot).inline vh hInline route hRoute
    · obtain ⟨name, hGet⟩ := SortedMap.mem_values_iff.mp hVhosts
      exact h.routes name vhosts hGet vh hMem route hRoute

/-- A regular state fails validation only on a cluster that is not stored. -/
theorem Regular.wellFormed_iff {s : AdsState} (h : s.Regular) (version : String) :
    (s.runtimeConfig version).WellFormed ↔ ∀ listener ∈ (s.runtimeConfig version).listeners,
      ∀ vh ∈ listener.virtualHosts, ∀ route ∈ vh.routes, ∀ dst ∈ route.weightedClusters,
        dst.name ∈ s.clusters.keys := by
  rw [(h.consistent version).wellFormed_iff, h.clusterNames_eq]

/-- The states that calls on the default state reach, whether a call returned an error or not. -/
inductive Called (codec : Proto.Codec) : AdsState → Prop where
  | default : Called codec default
  | setSubscription {s : AdsState} (typeUrl : String) (names : List String) (h : Called codec s) :
      Called codec (s.setSubscription typeUrl names).1
  | applyResponse {s : AdsState} (resp : Proto.DiscoveryResponse) (h : Called codec s) :
      Called codec (s.applyResponse codec resp).1

theorem Regular.setSubscription {s : AdsState} (h : s.Regular) (typeUrl : String) (names : List String) :
    (s.setSubscription typeUrl names).1.Regular := by
  rw [AdsState.setSubscription]
  split
  · exact h
  · exact h.of_stores rfl rfl rfl

theorem Called.regular {codec : Proto.Codec} {s : AdsState} (h : Called codec s) : s.Regular := by
  induction h with
  | default => exact default_regular
  | setSubscription typeUrl names _ ih => exact ih.setSubscription typeUrl names
  | applyResponse resp _ ih => exact ih.applyResponse codec resp

/-- Validation of an assembled configuration asks for the clusters of its routes and nothing else. -/
theorem Called.validate_runtimeConfig {codec : Proto.Codec} {s : AdsState} (h : Called codec s)
    (version : String) :
    ((s.runtimeConfig version).validate = .ok () ↔ ∀ listener ∈ (s.runtimeConfig version).listeners,
      ∀ vh ∈ listener.virtualHosts, ∀ route ∈ vh.routes, ∀ dst ∈ route.weightedClusters,
        dst.name ∈ s.clusters.keys) ∧
    ∀ conflicts, (s.runtimeConfig version).validate = .error conflicts →
      ∀ conflict ∈ conflicts, conflict.kind = "missing-cluster" := by
  have hRegular := h.regular
  constructor
  · rw [RuntimeConfig.validate_ok_iff]
    exact hRegular.wellFormed_iff version
  · intro conflicts hError conflict hConflict
    rw [(RuntimeConfig.validate_error_iff.mp hError).2] at hConflict
    obtain ⟨route, cluster, rfl⟩ := (hRegular.consistent version).mem_conflicts hConflict
    rfl

/-- A listener and its routes without the cluster they name. -/
def clusterless : AdsState :=
  ((default.applyResponse movingRouteCodec rdsListenerResponse).1.applyResponse movingRouteCodec
    (routeResponse 0x63)).1

theorem clusterless_conflicts :
    Called movingRouteCodec clusterless ∧ (clusterless.runtimeConfig "1").validate ≠ .ok () ∧
      ∀ conflicts, (clusterless.runtimeConfig "1").validate = .error conflicts →
        ∀ conflict ∈ conflicts, conflict.kind = "missing-cluster" :=
  have hCalled : Called movingRouteCodec clusterless := .applyResponse _ (.applyResponse _ .default)
  ⟨hCalled, by decide, (hCalled.validate_runtimeConfig "1").2⟩

end AdsState

theorem Serves.regular {codec : Proto.Codec} {channels : Channels} {cfg : XdsClientConfig}
    {watch : RuntimeConfig} {responses : List Proto.DiscoveryResponse} {cs : ClientState}
    (h : Serves codec channels cfg watch responses cs) : cs.stream.ads.Regular := by
  refine h.invariant (I := fun cs => cs.stream.ads.Regular) ?_ ?_
  · intro stream hOpen
    obtain ⟨hListeners, hRoutes, hClusters, _⟩ := openStream_stores hOpen
    exact AdsState.default_regular.of_stores hListeners hRoutes hClusters
  · intro cs cs' resp hs hHandle
    obtain ⟨ads, u, hApply, _, hStream⟩ := respond_ok (handleResponse_ok hHandle).1
    have hNext := hs.applyResponse codec resp
    rw [hApply] at hNext
    rw [hStream]
    exact hNext.of_stores (AdsState.settle_listeners _ _) (AdsState.settle_routes _ _)
      (AdsState.settle_clusters _ _)

end Dxgate
