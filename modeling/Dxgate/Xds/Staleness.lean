import Dxgate.Xds.Stores

/-! # Stale resources

Removal works by deleting the subscribed names before inserting. A stored name that has dropped out of
the subscription is out of reach of that, so it stays until the subscription is empty.
-/

namespace Dxgate

set_option autoImplicit false

open Collections

section Staleness

variable (codec : Proto.Codec) (channels : Channels) (cfg : XdsClientConfig) (watch : RuntimeConfig)

/-- After each listener, route or cluster response to a non-empty subscription, every stored name is
subscribed or carried by the response, and so is every cluster of a configuration built then. -/
def NoStaleResources (responses : List Proto.DiscoveryResponse) : Prop :=
  ∀ cs resp cs', Processes codec channels cfg watch responses cs resp cs' →
    cs.stream.ads.subscription resp.typeUrl ≠ [] →
    (∀ key ∈ cs'.stream.ads.storeKeys resp.typeUrl, key ∈ cs.stream.ads.subscription resp.typeUrl ∨
      key ∈ AdsState.carriedNames codec resp) ∧
    (resp.typeUrl = CLUSTER_TYPE → ∀ version,
      ∀ name ∈ (cs'.stream.ads.runtimeConfig version).clusters.map (·.name),
        name ∈ cs.stream.ads.subscription CLUSTER_TYPE ∨ name ∈ AdsState.carriedNames codec resp)

/-- Before each such response every stored name is still subscribed, or the response carries it again. -/
def StoredNamesRequested (responses : List Proto.DiscoveryResponse) : Prop :=
  ∀ cs resp cs', Processes codec channels cfg watch responses cs resp cs' →
    cs.stream.ads.subscription resp.typeUrl ≠ [] →
    ∀ key ∈ cs.stream.ads.storeKeys resp.typeUrl, key ∈ cs.stream.ads.subscription resp.typeUrl ∨
      key ∈ AdsState.carriedNames codec resp

variable {codec channels cfg watch}

theorem storeKeys_settle (s : AdsState) (t typeUrl : String) :
    (s.settle t).storeKeys typeUrl = s.storeKeys typeUrl := by
  simp only [AdsState.storeKeys, AdsState.settle_listeners, AdsState.settle_routes, AdsState.settle_clusters]

/-- One response: the stored names are requested afterwards exactly when they were before. -/
theorem storeKeys_requested_iff {cs cs' : ClientState} {resp : Proto.DiscoveryResponse}
    (h : handleResponse codec channels cfg.node cs resp = (cs', none))
    (hSubscribed : cs.stream.ads.subscription resp.typeUrl ≠ []) :
    (∀ key ∈ cs'.stream.ads.storeKeys resp.typeUrl, key ∈ cs.stream.ads.subscription resp.typeUrl ∨
      key ∈ AdsState.carriedNames codec resp) ↔
    ∀ key ∈ cs.stream.ads.storeKeys resp.typeUrl, key ∈ cs.stream.ads.subscription resp.typeUrl ∨
      key ∈ AdsState.carriedNames codec resp := by
  obtain ⟨ads, u, hApplied, hAds⟩ := handleResponse_applied h
  rw [hAds, storeKeys_settle]
  constructor
  · intro hAfter key hKey
    by_cases hSub : key ∈ cs.stream.ads.subscription resp.typeUrl
    · exact Or.inl hSub
    · exact hAfter key ((hApplied.mem_storeKeys key).2 hSubscribed hKey hSub)
  · intro hBefore key hKey
    rcases (hApplied.mem_storeKeys key).1 hKey with hCarried | ⟨hStored, _⟩
    · exact Or.inr hCarried
    · exact hBefore key hStored

theorem noStaleResources_iff (codec : Proto.Codec) (channels : Channels) (cfg : XdsClientConfig)
    (watch : RuntimeConfig) (responses : List Proto.DiscoveryResponse) :
    NoStaleResources codec channels cfg watch responses ↔
      StoredNamesRequested codec channels cfg watch responses := by
  constructor
  · intro h cs resp cs' hStep hSubscribed
    obtain ⟨before, after, hSplit, hServes, hHandle⟩ := hStep
    exact (storeKeys_requested_iff hHandle hSubscribed).mp
      (h cs resp cs' ⟨before, after, hSplit, hServes, hHandle⟩ hSubscribed).1
  · intro h cs resp cs' hStep hSubscribed
    have hBefore := h cs resp cs' hStep hSubscribed
    obtain ⟨before, after, _, hServes, hHandle⟩ := hStep
    have hAfter := (storeKeys_requested_iff hHandle hSubscribed).mpr hBefore
    refine ⟨hAfter, ?_⟩
    intro hType version name hName
    have hKeyed : cs'.stream.ads.ClustersKeyed :=
      (serves_concat.mpr ⟨cs, hServes, hHandle⟩ : Serves codec channels cfg watch (before ++ [resp]) cs')
        |>.clustersKeyed
    have hKey := hKeyed.mem_keys hName
    rw [hType] at hAfter
    exact hAfter name (by simpa [AdsState.storeKeys, types_distinct] using hKey)

end Staleness

/-! ## A route that moves to another cluster -/

def routeToCluster (cluster : String) : Proto.RouteConfiguration :=
  ⟨"r", [⟨"", ["*"], [⟨"", none, some (.route ⟨some (.cluster cluster)⟩)⟩]⟩]⟩

def routeToClusterBytes (letter : UInt8) : Proto.Bytes :=
  [0x0a, 0x01, 0x72, 0x12, 0x0a, 0x12, 0x01, 0x2a, 0x1a, 0x05, 0x1a, 0x03, 0x0a, 0x01, letter]

def plainCluster (name : String) : Proto.Cluster := ⟨name, none, none, none⟩

def plainClusterBytes (letter : UInt8) : Proto.Bytes := [0x0a, 0x01, letter]

def oneEndpoint : Proto.ClusterLoadAssignment :=
  ⟨"c", [⟨[⟨some (.endpoint ⟨some ⟨some (.socketAddress ⟨"h", some (.portValue 80)⟩)⟩⟩), 0⟩]⟩]⟩

def oneEndpointBytes : Proto.Bytes :=
  [0x0a, 0x01, 0x63, 0x12, 0x0d, 0x12, 0x0b, 0x0a, 0x09, 0x0a, 0x07, 0x0a, 0x05, 0x12, 0x01, 0x68, 0x18, 0x50]

def movingRouteCodec : Proto.Codec :=
  { rdsListenerCodec with
    routeConfiguration := Proto.tableDecoder [(routeToClusterBytes 0x63, routeToCluster "c"),
      (routeToClusterBytes 0x64, routeToCluster "d")]
    cluster := Proto.tableDecoder [(plainClusterBytes 0x63, plainCluster "c"),
      (plainClusterBytes 0x64, plainCluster "d")] }

def routeResponse (letter : UInt8) : Proto.DiscoveryResponse :=
  ⟨"1", [⟨ROUTE_TYPE, routeToClusterBytes letter⟩], ROUTE_TYPE, "n2"⟩

def clusterResponse (letter : UInt8) : Proto.DiscoveryResponse :=
  ⟨"1", [⟨CLUSTER_TYPE, plainClusterBytes letter⟩], CLUSTER_TYPE, "n3"⟩

/-- The route moves from "c" to "d"; "c" leaves the subscription but not the configuration. -/
theorem movedRoute_keepsStaleCluster :
    ¬ NoStaleResources movingRouteCodec .alwaysOpen sampleClient (.empty "bootstrap")
      ([rdsListenerResponse, routeResponse 0x63, clusterResponse 0x63, routeResponse 0x64] ++
        [clusterResponse 0x64]) := by
  intro h
  have hStep := Processes.last movingRouteCodec .alwaysOpen sampleClient (.empty "bootstrap")
    [rdsListenerResponse, routeResponse 0x63, clusterResponse 0x63, routeResponse 0x64]
    (clusterResponse 0x64) (by decide) (by decide)
  have hStale := (h _ _ _ hStep (by decide)).2 rfl "1" "c" (by decide)
  exact absurd hStale (by decide)

end Dxgate
