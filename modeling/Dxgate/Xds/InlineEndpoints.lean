import Dxgate.Xds.Endpoints

/-! # Inline endpoints

A cluster resource may bring its endpoints with it. They go into the endpoint store under the EDS
service name, which is subscribed from then on; so every endpoint response removes them again, whichever
clusters it is for. The last response that touches the name decides.
-/

namespace Dxgate

set_option autoImplicit false

open Collections

namespace AdsState

/-- What the response leaves under a subscribed EDS service name that it has no assignment for: nothing
if it is an endpoint response, the last inline assignment if it is a cluster response with one. -/
def brings (codec : Proto.Codec) (eds : String) (resp : Proto.DiscoveryResponse) :
    Option (List Endpoint) :=
  if resp.typeUrl = ENDPOINT_TYPE then some []
  else if resp.typeUrl = CLUSTER_TYPE then
    SortedMap.lastValue (inlineAssignments (carriedClusters codec resp)) eds
  else none

/-- What the last of the responses that touch the name leaves under it. -/
def lastBrought (codec : Proto.Codec) (eds : String) (responses : List Proto.DiscoveryResponse) :
    Option (List Endpoint) :=
  responses.reverse.findSome? (brings codec eds)

theorem lastBrought_concat (codec : Proto.Codec) (eds : String)
    (responses : List Proto.DiscoveryResponse) (resp : Proto.DiscoveryResponse) :
    lastBrought codec eds (responses ++ [resp]) =
      (brings codec eds resp).or (lastBrought codec eds responses) := by
  rw [lastBrought, List.reverse_append, List.reverse_singleton, List.singleton_append,
    List.findSome?_cons, lastBrought]
  cases brings codec eds resp with
  | none => rfl
  | some endpoints => rfl

/-- The endpoints that the assembled configuration gives a cluster of this EDS service name. -/
def endpointsOf (s : AdsState) (eds : String) : List Endpoint := (s.endpoints.get eds).getD []

theorem Applied.endpointsOf_eq {codec : Proto.Codec} {s s' : AdsState} {resp : Proto.DiscoveryResponse}
    {u : DiscoveryUpdates} (h : Applied codec s resp s' u) (eds : String)
    (hSubscribed : resp.typeUrl = ENDPOINT_TYPE → eds ∈ s.subscription ENDPOINT_TYPE)
    (hAbsent : resp.typeUrl = ENDPOINT_TYPE → eds ∉ (carriedAssignments codec resp).map (·.1)) :
    s'.endpointsOf eds = (brings codec eds resp).getD (s.endpointsOf eds) := by
  rw [endpointsOf, brings, h.endpoints_eq]
  by_cases hEndpoint : resp.typeUrl = ENDPOINT_TYPE
  · rw [if_pos hEndpoint, if_pos hEndpoint, SortedMap.get_insertAll,
      SortedMap.lastValue_eq_none_iff.mpr (hAbsent hEndpoint), Option.none_or, get_pruneRequested,
      if_pos (.inr (hSubscribed hEndpoint))]
    rfl
  rw [if_neg hEndpoint, if_neg hEndpoint]
  by_cases hCluster : resp.typeUrl = CLUSTER_TYPE
  · rw [if_pos hCluster, if_pos hCluster, SortedMap.get_insertAll, endpointsOf]
    cases SortedMap.lastValue (inlineAssignments (carriedClusters codec resp)) eds with
    | none => rfl
    | some endpoints => rfl
  · rw [if_neg hCluster, if_neg hCluster]
    rfl

theorem CarriesLast.mem_named {codec : Proto.Codec} {resp : Proto.DiscoveryResponse}
    {cluster : Proto.Cluster} (h : CarriesLast codec resp cluster) :
    cluster ∈ named (carriedClusters codec resp) := by
  have hMem := SortedMap.lastValue_mem h
  obtain ⟨c, hc, hPair⟩ := List.mem_map.mp hMem
  exact (Prod.mk.inj hPair).2 ▸ hc

/-- A cluster response with an inline assignment touches its EDS service name. -/
theorem CarriesLast.brings_isSome {codec : Proto.Codec} {resp : Proto.DiscoveryResponse}
    {cluster : Proto.Cluster} {assignment : Proto.ClusterLoadAssignment}
    (h : CarriesLast codec resp cluster) (hType : resp.typeUrl = CLUSTER_TYPE)
    (hInline : cluster.loadAssignment = some assignment) :
    ∃ endpoints, brings codec (edsServiceName cluster) resp = some endpoints := by
  rw [brings, hType, if_neg (by decide), if_pos rfl]
  cases hLast : SortedMap.lastValue (inlineAssignments (carriedClusters codec resp))
      (edsServiceName cluster) with
  | some endpoints => exact ⟨endpoints, rfl⟩
  | none =>
    refine absurd ?_ (SortedMap.lastValue_eq_none_iff.mp hLast)
    have hMem : (edsServiceName cluster, endpointsFromAssignment assignment) ∈
        inlineAssignments (carriedClusters codec resp) :=
      List.mem_filterMap.mpr ⟨cluster, h.mem_named, by rw [hInline]; rfl⟩
    exact List.mem_map.mpr ⟨_, hMem, rfl⟩

end AdsState

section Inline

variable {codec : Proto.Codec} {channels : Channels} {cfg : XdsClientConfig} {watch : RuntimeConfig}

/-- The cluster is stored, `resp` brought its current resource with an inline assignment, no other
stored cluster has its EDS service name, and no assignment for that name has come since. -/
structure InlineCurrent (codec : Proto.Codec) (cs : ClientState) (cluster : Proto.Cluster)
    (assignment : Proto.ClusterLoadAssignment) (resp : Proto.DiscoveryResponse)
    (after : List Proto.DiscoveryResponse) : Prop where
  stored : cluster.name ∈ cs.stream.ads.clusters.keys
  type : resp.typeUrl = CLUSTER_TYPE
  carried : AdsState.CarriesLast codec resp cluster
  last : ∀ later ∈ after, later.typeUrl = CLUSTER_TYPE →
    cluster.name ∉ (AdsState.carriedClusters codec later).map (·.name)
  inline : cluster.loadAssignment = some assignment
  alone : ∀ other ∈ cs.stream.ads.clusters.values, other.edsServiceName = edsServiceName cluster →
    other.name = cluster.name
  unassigned : ∀ later ∈ after, later.typeUrl = ENDPOINT_TYPE →
    edsServiceName cluster ∉ (AdsState.carriedAssignments codec later).map (·.1)

/-- The configuration has the inline endpoints for the cluster. -/
def KeepsInline (cs : ClientState) (cluster : Proto.Cluster)
    (assignment : Proto.ClusterLoadAssignment) : Prop :=
  ∀ version, ∀ entry ∈ (cs.stream.ads.runtimeConfig version).clusters, entry.name = cluster.name →
    entry.endpoints = endpointsFromAssignment assignment

/-- After any responses the last one that touched the name decides its endpoints. -/
theorem Serves.endpointsOf_eq {before after : List Proto.DiscoveryResponse}
    {resp : Proto.DiscoveryResponse} {cluster : Proto.Cluster} {endpoints : List Endpoint}
    (hType : resp.typeUrl = CLUSTER_TYPE)
    (hBrings : AdsState.brings codec (edsServiceName cluster) resp = some endpoints)
    (hLast : ∀ later ∈ after, later.typeUrl = CLUSTER_TYPE →
      cluster.name ∉ (AdsState.carriedClusters codec later).map (·.name))
    (hUnassigned : ∀ later ∈ after, later.typeUrl = ENDPOINT_TYPE →
      edsServiceName cluster ∉ (AdsState.carriedAssignments codec later).map (·.1))
    {cs : ClientState} (h : Serves codec channels cfg watch (before ++ resp :: after) cs)
    (hGet : cs.stream.ads.clusters.get cluster.name = some (clusterSnapshot codec cluster)) :
    AdsState.lastBrought codec (edsServiceName cluster) (resp :: after) =
      some (cs.stream.ads.endpointsOf (edsServiceName cluster)) := by
  induction after using List.reverseRecOn generalizing cs with
  | nil =>
    obtain ⟨mid, _, hHandle⟩ := serves_concat.mp h
    obtain ⟨ads, u, hApplied, hAds⟩ := handleResponse_applied hHandle
    have hNot : resp.typeUrl ≠ ENDPOINT_TYPE := by
      rw [hType]
      decide
    have hStep := hApplied.endpointsOf_eq (edsServiceName cluster)
      (fun hEndpoint => absurd hEndpoint hNot) (fun hEndpoint => absurd hEndpoint hNot)
    rw [hBrings, Option.getD_some] at hStep
    rw [← List.nil_append [resp], AdsState.lastBrought_concat, hBrings, Option.some_or, hAds,
      AdsState.endpointsOf, AdsState.settle_endpoints, ← hStep]
    rfl
  | append_singleton earlier last ih =>
    have hSplit : before ++ resp :: (earlier ++ [last]) = before ++ resp :: earlier ++ [last] := by simp
    rw [hSplit] at h
    obtain ⟨mid, hMid, hHandle⟩ := serves_concat.mp h
    obtain ⟨ads, u, hApplied, hAds⟩ := handleResponse_applied hHandle
    rw [hAds, AdsState.settle_clusters] at hGet
    have hStored := hApplied.get_not_carried (hLast last (by simp)) hGet
    have hBefore := ih (fun later hLater => hLast later (List.mem_append_left _ hLater))
      (fun later hLater => hUnassigned later (List.mem_append_left _ hLater)) hMid hStored
    -- the cluster was stored before the last response, so its EDS service name was subscribed
    have hSubscribed : edsServiceName cluster ∈ mid.stream.ads.subscription ENDPOINT_TYPE :=
      hMid.derivedCovered.endpoints _ (SortedMap.mem_values_iff.mpr ⟨_, hStored⟩)
    have hStep := hApplied.endpointsOf_eq _ (fun _ => hSubscribed) (hUnassigned last (by simp))
    have hEntry : cs.stream.ads.endpointsOf (edsServiceName cluster) =
        ads.endpointsOf (edsServiceName cluster) := by
      rw [AdsState.endpointsOf, hAds, AdsState.settle_endpoints, AdsState.endpointsOf]
    rw [← List.cons_append, AdsState.lastBrought_concat, hBefore, hEntry, hStep]
    cases AdsState.brings codec (edsServiceName cluster) last with
    | none => rfl
    | some endpoints => rfl

theorem keepsInline_iff_endpointsOf {cs : ClientState} {cluster : Proto.Cluster}
    {assignment : Proto.ClusterLoadAssignment} (hKeyed : cs.stream.ads.ClustersKeyed)
    (hGet : cs.stream.ads.clusters.get cluster.name = some (clusterSnapshot codec cluster)) :
    KeepsInline cs cluster assignment ↔
      cs.stream.ads.endpointsOf (edsServiceName cluster) = endpointsFromAssignment assignment := by
  constructor
  · intro hKeeps
    have hStored : clusterSnapshot codec cluster ∈ cs.stream.ads.clusters.values :=
      SortedMap.mem_values_iff.mpr ⟨_, hGet⟩
    exact hKeeps "" _ (List.mem_map_of_mem hStored) rfl
  · intro hEndpoints version entry hEntry hName
    obtain ⟨snapshot, hSnapshot, rfl⟩ := List.mem_map.mp hEntry
    obtain ⟨key, hKey⟩ := SortedMap.mem_values_iff.mp hSnapshot
    have hSame : key = cluster.name := (hKeyed key snapshot hKey).symm.trans hName
    rw [hSame, hGet] at hKey
    cases hKey
    exact hEndpoints

/-- Inline endpoints are kept exactly while the last response that touches their EDS service name leaves
them there: the one that brought them, or one that happens to bring the same list again. -/
theorem keepsInline_iff {before after : List Proto.DiscoveryResponse} {resp : Proto.DiscoveryResponse}
    {cs : ClientState} {cluster : Proto.Cluster} {assignment : Proto.ClusterLoadAssignment}
    (h : Serves codec channels cfg watch (before ++ resp :: after) cs)
    (hCurrent : InlineCurrent codec cs cluster assignment resp after) :
    KeepsInline cs cluster assignment ↔
      AdsState.lastBrought codec (edsServiceName cluster) (resp :: after) =
        some (endpointsFromAssignment assignment) := by
  obtain ⟨snapshot, hGet⟩ := SortedMap.mem_keys_iff.mp hCurrent.stored
  rw [h.get_after hCurrent.type hCurrent.carried hCurrent.last hGet] at hGet
  obtain ⟨endpoints, hBrings⟩ := hCurrent.carried.brings_isSome hCurrent.type hCurrent.inline
  rw [keepsInline_iff_endpointsOf h.clustersKeyed hGet,
    h.endpointsOf_eq hCurrent.type hBrings hCurrent.last hCurrent.unassigned hGet, Option.some.injEq]

end Inline

/-! ## An endpoint response for another cluster -/

def inlineCluster : Proto.Cluster := { plainCluster "c" with loadAssignment := some oneEndpoint }

def inlineClusterBytes : Proto.Bytes := plainClusterBytes 0x63 ++ [0x8a, 0x02, 0x12] ++ oneEndpointBytes

def emptyAssignmentBytes : Proto.Bytes := [0x0a, 0x01, 0x64]

def inlineClusterCodec : Proto.Codec :=
  { movingRouteCodec with
    cluster := Proto.tableDecoder [(inlineClusterBytes, inlineCluster),
      (plainClusterBytes 0x64, plainCluster "d")]
    clusterLoadAssignment := Proto.tableDecoder [(emptyAssignmentBytes, ⟨"d", []⟩)] }

/-- Cluster "c" with an inline endpoint, and cluster "d", whose endpoints are discovered. -/
def inlineClusterResponse : Proto.DiscoveryResponse :=
  ⟨"1", [⟨CLUSTER_TYPE, inlineClusterBytes⟩, ⟨CLUSTER_TYPE, plainClusterBytes 0x64⟩], CLUSTER_TYPE, "n1"⟩

def otherEndpointResponse : Proto.DiscoveryResponse :=
  ⟨"1", [⟨ENDPOINT_TYPE, emptyAssignmentBytes⟩], ENDPOINT_TYPE, "n2"⟩

def inlineRun (after : List Proto.DiscoveryResponse) : ClientState :=
  (runOnce inlineClusterCodec .alwaysOpen sampleClient (.empty "bootstrap")
    (.opened ((inlineClusterResponse :: after).map .message))).1

theorem inlineRun_current :
    InlineCurrent inlineClusterCodec (inlineRun []) inlineCluster oneEndpoint inlineClusterResponse [] := by
  refine ⟨by decide, rfl, ?_, nofun, rfl, by decide, nofun⟩
  unfold AdsState.CarriesLast
  decide

theorem inlineRun_keepsInline : (inlineRun []).stream.ads.clusters.keys = ["c", "d"] ∧
    KeepsInline (inlineRun []) inlineCluster oneEndpoint := by
  have hServes : Serves inlineClusterCodec .alwaysOpen sampleClient (.empty "bootstrap")
      ([] ++ inlineClusterResponse :: []) (inlineRun []) := Prod.ext rfl (by decide)
  exact ⟨by decide, (keepsInline_iff hServes inlineRun_current).mpr (by decide)⟩

/-- The endpoint response for "d" leaves "c" without endpoints. -/
theorem otherEndpoints_clear_inline :
    Serves inlineClusterCodec .alwaysOpen sampleClient (.empty "bootstrap")
      [inlineClusterResponse, otherEndpointResponse] (inlineRun [otherEndpointResponse]) ∧
    InlineCurrent inlineClusterCodec (inlineRun [otherEndpointResponse]) inlineCluster oneEndpoint
      inlineClusterResponse [otherEndpointResponse] ∧
    ¬ KeepsInline (inlineRun [otherEndpointResponse]) inlineCluster oneEndpoint := by
  refine ⟨Prod.ext rfl (by decide), ⟨by decide, rfl, ?_, by decide, rfl, by decide, by decide⟩, ?_⟩
  · unfold AdsState.CarriesLast
    decide
  · intro hKeeps
    exact absurd (hKeeps "1") (by decide)

end Dxgate
