import Dxgate.Xds.Requests

/-! # The stores across responses

What a response leaves in the store of its type: the resources it carries, and the stored ones that
were not subscribed. A name that has left the subscription is therefore never removed again, unless the
subscription is empty.
-/

namespace Dxgate

set_option autoImplicit false

open Collections

theorem get_pruneRequested {T : Type} (m : SortedMap String T) (requested : List String) (name : String) :
    (pruneRequested m requested).get name =
      if requested = [] ∨ name ∈ requested then none else m.get name := by
  rw [pruneRequested]
  split
  · rename_i hNil
    simp [hNil]
  · rename_i hCons
    rw [SortedMap.get_removeAll]
    simp [hCons]

theorem mem_keys_pruneRequested {T : Type} {m : SortedMap String T} {requested : List String}
    {name : String} : name ∈ (pruneRequested m requested).keys ↔
      name ∈ m.keys ∧ requested ≠ [] ∧ name ∉ requested := by
  rw [SortedMap.mem_keys_iff_isSome, SortedMap.mem_keys_iff_isSome, get_pruneRequested]
  split
  · rename_i hGone
    simp only [Option.isSome_none, Bool.false_eq_true, false_iff]
    rintro ⟨_, hCons, hNot⟩
    exact hGone.elim hCons hNot
  · rename_i hKept
    rw [not_or] at hKept
    simp [hKept]

/-- The value is stored after a response: the response carries it as the last one of its name, or it was
stored, is not subscribed and is not carried. -/
def Leaves {T : Type} (stored : SortedMap String T) (requested : List String)
    (carried : List (String × T)) (value : T) : Prop :=
  ∃ name, SortedMap.lastValue carried name = some value ∨
    (name ∉ carried.map (·.1) ∧ requested ≠ [] ∧ name ∉ requested ∧ stored.get name = some value)

theorem mem_values_insertAll_prune {T : Type} {stored : SortedMap String T} {requested : List String}
    {carried : List (String × T)} {value : T} :
    value ∈ ((pruneRequested stored requested).insertAll carried).values ↔
      Leaves stored requested carried value := by
  rw [SortedMap.mem_values_iff]
  refine exists_congr fun name => ?_
  rw [SortedMap.get_insertAll, Option.or_eq_some_iff, get_pruneRequested,
    SortedMap.lastValue_eq_none_iff]
  refine or_congr Iff.rfl (and_congr_right fun _ => ?_)
  split
  · rename_i hGone
    constructor
    · intro h
      cases h
    · rintro ⟨hCons, hNot, _⟩
      exact absurd hGone (by simp [hCons, hNot])
  · rename_i hKept
    rw [not_or] at hKept
    simp [hKept]

def decoded {T : Type} (decode : Proto.Any → Except XdsError T) (resources : List Proto.Any) : List T :=
  resources.filterMap fun r => (decode r).toOption

theorem decoded_eq {T : Type} {decode : Proto.Any → Except XdsError T} {resources : List Proto.Any}
    {values : List T} (h : List.Forall₂ (fun r v => decode r = .ok v) resources values) :
    decoded decode resources = values := by
  induction h with
  | nil => rfl
  | cons hHead _ ih =>
    rw [decoded, List.filterMap_cons, hHead]
    exact congrArg _ ih

namespace AdsState

def carriedListeners (codec : Proto.Codec) (resp : Proto.DiscoveryResponse) :
    List (String × ListenerSnapshot) :=
  (decoded (decodeListener codec) resp.resources).map fun l => (l.listener.name, l)

def carriedRoutes (codec : Proto.Codec) (resp : Proto.DiscoveryResponse) :
    List (String × List VirtualHost) :=
  (decoded (decodeResource codec.routeConfiguration ROUTE_TYPE) resp.resources).map fun c =>
    (c.name, convertVirtualHosts c.virtualHosts)

def carriedClusters (codec : Proto.Codec) (resp : Proto.DiscoveryResponse) : List Proto.Cluster :=
  decoded (decodeResource codec.cluster CLUSTER_TYPE) resp.resources

def carriedAssignments (codec : Proto.Codec) (resp : Proto.DiscoveryResponse) :
    List (String × List Endpoint) :=
  ((decoded (decodeResource codec.clusterLoadAssignment ENDPOINT_TYPE) resp.resources).filter
    (·.clusterName ≠ "")).map fun a => (a.clusterName, endpointsFromAssignment a)

theorem Applied.listeners_eq {codec : Proto.Codec} {s s' : AdsState} {resp : Proto.DiscoveryResponse}
    {u : DiscoveryUpdates} (h : Applied codec s resp s' u) : s'.listeners =
      if resp.typeUrl = LISTENER_TYPE then
        (pruneRequested s.listeners (s.subscription LISTENER_TYPE)).insertAll (carriedListeners codec resp)
      else s.listeners := by
  cases h with
  | listeners snapshots hType hDecode hState =>
    rw [if_pos hType, hState, carriedListeners, decoded_eq hDecode]
  | routes _ hType _ hState => rw [hState, hType, if_neg (by decide)]
  | clusters _ hType _ hState => rw [hState, hType, if_neg (by decide)]
  | endpoints _ hType _ hState => rw [hState, hType, if_neg (by decide)]
  | unknown hListener => rw [if_neg hListener]

theorem Applied.routes_eq {codec : Proto.Codec} {s s' : AdsState} {resp : Proto.DiscoveryResponse}
    {u : DiscoveryUpdates} (h : Applied codec s resp s' u) : s'.routes =
      if resp.typeUrl = ROUTE_TYPE then
        (pruneRequested s.routes (s.subscription ROUTE_TYPE)).insertAll (carriedRoutes codec resp)
      else s.routes := by
  cases h with
  | listeners _ hType _ hState => rw [hState, hType, if_neg (by decide)]
  | routes configs hType hDecode hState =>
    rw [if_pos hType, hState, carriedRoutes, decoded_eq hDecode]
  | clusters _ hType _ hState => rw [hState, hType, if_neg (by decide)]
  | endpoints _ hType _ hState => rw [hState, hType, if_neg (by decide)]
  | unknown _ hRoute => rw [if_neg hRoute]

theorem Applied.clusters_eq {codec : Proto.Codec} {s s' : AdsState} {resp : Proto.DiscoveryResponse}
    {u : DiscoveryUpdates} (h : Applied codec s resp s' u) : s'.clusters =
      if resp.typeUrl = CLUSTER_TYPE then
        (pruneRequested s.clusters (s.subscription CLUSTER_TYPE)).insertAll
          ((named (carriedClusters codec resp)).map fun c => (c.name, clusterSnapshot codec c))
      else s.clusters := by
  cases h with
  | listeners _ hType _ hState => rw [hState, hType, if_neg (by decide)]
  | routes _ hType _ hState => rw [hState, hType, if_neg (by decide)]
  | clusters resources hType hDecode hState =>
    rw [if_pos hType, hState, carriedClusters, decoded_eq hDecode]
  | endpoints _ hType _ hState => rw [hState, hType, if_neg (by decide)]
  | unknown _ _ hCluster => rw [if_neg hCluster]

theorem Applied.endpoints_eq {codec : Proto.Codec} {s s' : AdsState} {resp : Proto.DiscoveryResponse}
    {u : DiscoveryUpdates} (h : Applied codec s resp s' u) : s'.endpoints =
      if resp.typeUrl = ENDPOINT_TYPE then
        (pruneRequested s.endpoints (s.subscription ENDPOINT_TYPE)).insertAll
          (carriedAssignments codec resp)
      else if resp.typeUrl = CLUSTER_TYPE then
        s.endpoints.insertAll (inlineAssignments (carriedClusters codec resp))
      else s.endpoints := by
  cases h with
  | listeners _ hType _ hState => rw [hState, hType, if_neg (by decide), if_neg (by decide)]
  | routes _ hType _ hState => rw [hState, hType, if_neg (by decide), if_neg (by decide)]
  | clusters resources hType hDecode hState =>
    rw [hType, if_neg (by decide), if_pos rfl, hState, carriedClusters, decoded_eq hDecode]
  | endpoints assignments hType hDecode hState =>
    rw [if_pos hType, hState, carriedAssignments, decoded_eq hDecode]
  | unknown _ _ hCluster hEndpoint => rw [if_neg hEndpoint, if_neg hCluster]

@[simp] theorem settle_listeners (s : AdsState) (t : String) : (s.settle t).listeners = s.listeners := by
  unfold settle
  split
  · split <;> rfl
  · rfl

@[simp] theorem settle_routes (s : AdsState) (t : String) : (s.settle t).routes = s.routes := by
  unfold settle
  split
  · split <;> rfl
  · rfl

@[simp] theorem settle_clusters (s : AdsState) (t : String) : (s.settle t).clusters = s.clusters := by
  unfold settle
  split
  · split <;> rfl
  · rfl

@[simp] theorem settle_endpoints (s : AdsState) (t : String) : (s.settle t).endpoints = s.endpoints := by
  unfold settle
  split
  · split <;> rfl
  · rfl

end AdsState

theorem handleResponse_applied {codec : Proto.Codec} {channels : Channels} {node : Proto.Node}
    {cs cs' : ClientState} {resp : Proto.DiscoveryResponse}
    (h : handleResponse codec channels node cs resp = (cs', none)) :
    ∃ ads u, AdsState.Applied codec cs.stream.ads resp ads u ∧
      cs'.stream.ads = ads.settle resp.typeUrl := by
  obtain ⟨ads, u, _, hApplied, hStream⟩ := respond_ok (handleResponse_ok h).1
  exact ⟨ads, u, hApplied, by rw [hStream]⟩

theorem openStream_stores {channels : Channels} {cfg : XdsClientConfig} {stream : Stream}
    (h : openStream channels cfg = (stream, none)) : stream.ads.listeners = .empty ∧
      stream.ads.routes = .empty ∧ stream.ads.clusters = .empty ∧ stream.ads.endpoints = .empty := by
  rw [openStream_ok h]
  exact ⟨rfl, rfl, rfl, rfl⟩

/-! ## Names that stay behind -/

namespace AdsState

def storeKeys (s : AdsState) (typeUrl : String) : List String :=
  if typeUrl = LISTENER_TYPE then s.listeners.keys
  else if typeUrl = ROUTE_TYPE then s.routes.keys
  else if typeUrl = CLUSTER_TYPE then s.clusters.keys
  else []

def carriedNames (codec : Proto.Codec) (resp : Proto.DiscoveryResponse) : List String :=
  if resp.typeUrl = LISTENER_TYPE then (carriedListeners codec resp).map (·.1)
  else if resp.typeUrl = ROUTE_TYPE then (carriedRoutes codec resp).map (·.1)
  else if resp.typeUrl = CLUSTER_TYPE then (carriedClusters codec resp).map (·.name)
  else []

/-- A response stores only names it carries, and keeps exactly the unsubscribed ones. -/
theorem Applied.mem_storeKeys {codec : Proto.Codec} {s s' : AdsState} {resp : Proto.DiscoveryResponse}
    {u : DiscoveryUpdates} (h : Applied codec s resp s' u) (key : String) :
    (key ∈ s'.storeKeys resp.typeUrl → key ∈ carriedNames codec resp ∨
      key ∈ s.storeKeys resp.typeUrl ∧ key ∉ s.subscription resp.typeUrl) ∧
    (s.subscription resp.typeUrl ≠ [] → key ∈ s.storeKeys resp.typeUrl →
      key ∉ s.subscription resp.typeUrl → key ∈ s'.storeKeys resp.typeUrl) := by
  unfold storeKeys carriedNames
  by_cases hListener : resp.typeUrl = LISTENER_TYPE
  · simp only [hListener, if_true, h.listeners_eq, SortedMap.mem_keys_insertAll, mem_keys_pruneRequested]
    tauto
  by_cases hRoute : resp.typeUrl = ROUTE_TYPE
  · simp only [hRoute, if_true, if_false, h.routes_eq, SortedMap.mem_keys_insertAll,
      mem_keys_pruneRequested, types_distinct]
    tauto
  by_cases hCluster : resp.typeUrl = CLUSTER_TYPE
  · have hNamed : key ∈ ((named (carriedClusters codec resp)).map fun c =>
        (c.name, clusterSnapshot codec c)).map (·.1) → key ∈ (carriedClusters codec resp).map (·.name) := by
      rw [List.map_map]
      intro hMem
      obtain ⟨c, hc, hName⟩ := List.mem_map.mp hMem
      exact List.mem_map.mpr ⟨c, (List.mem_filter.mp hc).1, hName⟩
    simp only [hCluster, if_true, if_false, h.clusters_eq, SortedMap.mem_keys_insertAll,
      mem_keys_pruneRequested, types_distinct]
    tauto
  · simp [hListener, hRoute, hCluster]

theorem runtimeConfig_clusters (s : AdsState) (version : String) :
    (s.runtimeConfig version).clusters.map (·.name) = s.clusters.values.map (·.name) := by
  simp [runtimeConfig, runtimeCluster]

/-- Stored clusters stand under their own names. -/
def ClustersKeyed (s : AdsState) : Prop := ∀ name c, s.clusters.get name = some c → c.name = name

theorem Applied.clustersKeyed {codec : Proto.Codec} {s s' : AdsState} {resp : Proto.DiscoveryResponse}
    {u : DiscoveryUpdates} (h : Applied codec s resp s' u) (hs : s.ClustersKeyed) : s'.ClustersKeyed := by
  unfold ClustersKeyed
  rw [h.clusters_eq]
  split
  · refine SortedMap.forall_get_insertAll ?_ ?_
    · intro name c hGet
      rw [get_pruneRequested] at hGet
      split at hGet
      · cases hGet
      · exact hs name c hGet
    · intro e he
      obtain ⟨c, _, rfl⟩ := List.mem_map.mp he
      rfl
  · exact hs

theorem ClustersKeyed.mem_keys {s : AdsState} (hs : s.ClustersKeyed) {version name : String}
    (h : name ∈ (s.runtimeConfig version).clusters.map (·.name)) : name ∈ s.clusters.keys := by
  rw [runtimeConfig_clusters] at h
  obtain ⟨c, hc, hName⟩ := List.mem_map.mp h
  obtain ⟨key, hGet⟩ := SortedMap.mem_values_iff.mp hc
  rw [SortedMap.mem_keys_iff]
  exact ⟨c, by rw [← hName, hs key c hGet]; exact hGet⟩

end AdsState

theorem Serves.clustersKeyed {codec : Proto.Codec} {channels : Channels} {cfg : XdsClientConfig}
    {watch : RuntimeConfig} {responses : List Proto.DiscoveryResponse} {cs : ClientState}
    (h : Serves codec channels cfg watch responses cs) : cs.stream.ads.ClustersKeyed := by
  refine h.invariant (I := fun cs => cs.stream.ads.ClustersKeyed) ?_ ?_
  · intro stream hOpen name c hGet
    rw [(openStream_stores hOpen).2.2.1] at hGet
    cases hGet
  · intro cs cs' resp hKeyed hStep
    obtain ⟨ads, u, hApplied, hAds⟩ := handleResponse_applied hStep
    have hNext := hApplied.clustersKeyed hKeyed
    rw [hAds]
    intro name c hGet
    rw [AdsState.settle_clusters] at hGet
    exact hNext name c hGet

/-! ## Current clusters -/

namespace AdsState

/-- The cluster is the last resource of its name in the response. -/
def CarriesLast (codec : Proto.Codec) (resp : Proto.DiscoveryResponse) (cluster : Proto.Cluster) : Prop :=
  SortedMap.lastValue ((named (carriedClusters codec resp)).map fun c => (c.name, c)) cluster.name =
    some cluster

theorem Applied.get_carried {codec : Proto.Codec} {s s' : AdsState} {resp : Proto.DiscoveryResponse}
    {u : DiscoveryUpdates} (h : Applied codec s resp s' u) (hType : resp.typeUrl = CLUSTER_TYPE)
    {cluster : Proto.Cluster} (hLast : CarriesLast codec resp cluster) :
    s'.clusters.get cluster.name = some (clusterSnapshot codec cluster) := by
  have hValue := SortedMap.lastValue_map (clusterSnapshot codec)
    ((named (carriedClusters codec resp)).map fun c => (c.name, c)) cluster.name
  rw [List.map_map, hLast] at hValue
  rw [h.clusters_eq, if_pos hType, SortedMap.get_insertAll]
  exact (congrArg (Option.or · _) hValue).trans rfl

theorem Applied.get_not_carried {codec : Proto.Codec} {s s' : AdsState} {resp : Proto.DiscoveryResponse}
    {u : DiscoveryUpdates} (h : Applied codec s resp s' u) {name : String}
    (hNot : resp.typeUrl = CLUSTER_TYPE → name ∉ (carriedClusters codec resp).map (·.name))
    {snapshot : ClusterSnapshot} (hGet : s'.clusters.get name = some snapshot) :
    s.clusters.get name = some snapshot := by
  rw [h.clusters_eq] at hGet
  split at hGet
  · rename_i hType
    have hAbsent : SortedMap.lastValue ((named (carriedClusters codec resp)).map fun c =>
        (c.name, clusterSnapshot codec c)) name = none := by
      rw [SortedMap.lastValue_eq_none_iff, List.map_map]
      intro hMem
      obtain ⟨c, hc, hName⟩ := List.mem_map.mp hMem
      exact hNot hType (List.mem_map.mpr ⟨c, (List.mem_filter.mp hc).1, hName⟩)
    rw [SortedMap.get_insertAll, hAbsent, Option.none_or, get_pruneRequested] at hGet
    split at hGet
    · cases hGet
    · exact hGet
  · exact hGet

end AdsState

section Current

variable {codec : Proto.Codec} {channels : Channels} {cfg : XdsClientConfig} {watch : RuntimeConfig}

/-- The cluster is the current resource of its name: the last one received, and still stored. -/
def CurrentCluster (codec : Proto.Codec) (responses : List Proto.DiscoveryResponse) (cs : ClientState)
    (cluster : Proto.Cluster) : Prop :=
  cluster.name ∈ cs.stream.ads.clusters.keys ∧ ∃ before resp after, responses = before ++ resp :: after ∧
    resp.typeUrl = CLUSTER_TYPE ∧ AdsState.CarriesLast codec resp cluster ∧
    ∀ later ∈ after, later.typeUrl = CLUSTER_TYPE →
      cluster.name ∉ (AdsState.carriedClusters codec later).map (·.name)

theorem Serves.get_after {before after : List Proto.DiscoveryResponse} {resp : Proto.DiscoveryResponse}
    {cluster : Proto.Cluster} (hType : resp.typeUrl = CLUSTER_TYPE)
    (hLast : AdsState.CarriesLast codec resp cluster)
    (hAfter : ∀ later ∈ after, later.typeUrl = CLUSTER_TYPE →
      cluster.name ∉ (AdsState.carriedClusters codec later).map (·.name))
    {cs : ClientState} (h : Serves codec channels cfg watch (before ++ resp :: after) cs)
    {snapshot : ClusterSnapshot} (hGet : cs.stream.ads.clusters.get cluster.name = some snapshot) :
    snapshot = clusterSnapshot codec cluster := by
  induction after using List.reverseRecOn generalizing cs with
  | nil =>
    obtain ⟨mid, _, hHandle⟩ := serves_concat.mp h
    obtain ⟨ads, u, hApplied, hAds⟩ := handleResponse_applied hHandle
    rw [hAds, AdsState.settle_clusters, hApplied.get_carried hType hLast] at hGet
    exact (Option.some.inj hGet).symm
  | append_singleton earlier last ih =>
    have hSplit : before ++ resp :: (earlier ++ [last]) = before ++ resp :: earlier ++ [last] := by simp
    rw [hSplit] at h
    obtain ⟨mid, hMid, hHandle⟩ := serves_concat.mp h
    obtain ⟨ads, u, hApplied, hAds⟩ := handleResponse_applied hHandle
    rw [hAds, AdsState.settle_clusters] at hGet
    have hBefore := hApplied.get_not_carried (hAfter last (by simp)) hGet
    exact ih (fun later hLater => hAfter later (List.mem_append_left _ hLater)) hMid hBefore

end Current

end Dxgate
