import Dxgate.Proxy.Forward
import Dxgate.Xds.Staleness

/-! # Upstream TLS from the control plane to the wire

A cluster whose transport socket is an upstream TLS context is called with mutual TLS when the context
decodes. When it does not, the cluster is stored as one without TLS and is called in plaintext.
-/

namespace Dxgate

set_option autoImplicit false

open Collections

namespace AdsState

/-- The transport socket of the cluster announces an upstream TLS context with these bytes. -/
def AnnouncesTls (cluster : Proto.Cluster) (bytes : Proto.Bytes) : Prop :=
  ∃ socket any, cluster.transportSocket = some socket ∧ socket.typedConfig = some any ∧
    Text.endsWith any.typeUrl UPSTREAM_TLS_SUFFIX ∧ any.value = bytes

theorem AnnouncesTls.tls_isSome_iff {cluster : Proto.Cluster} {bytes : Proto.Bytes} (codec : Proto.Codec)
    (h : AnnouncesTls cluster bytes) :
    (upstreamTlsFromCluster codec cluster).isSome ↔ ∃ context, codec.upstreamTlsContext bytes = .ok context := by
  obtain ⟨socket, any, hSocket, hConfig, hSuffix, rfl⟩ := h
  simp only [upstreamTlsFromCluster, hSocket, hConfig, Option.bind_eq_bind, Option.bind_some, hSuffix,
    if_true]
  cases codec.upstreamTlsContext any.value with
  | error err => simp [Except.toOption]
  | ok context => simp [Except.toOption]

end AdsState

section Downgrade

variable {codec : Proto.Codec} {channels : Channels} {cfg : XdsClientConfig} {watch : RuntimeConfig}

theorem CurrentCluster.tls_eq {responses : List Proto.DiscoveryResponse} {cs : ClientState}
    {cluster : Proto.Cluster} (h : Serves codec channels cfg watch responses cs)
    (hCurrent : CurrentCluster codec responses cs cluster) {version : String} {entry : Cluster}
    (hEntry : entry ∈ (cs.stream.ads.runtimeConfig version).clusters) (hName : entry.name = cluster.name) :
    entry.tls = upstreamTlsFromCluster codec cluster := by
  obtain ⟨_, before, resp, after, rfl, hType, hLast, hAfter⟩ := hCurrent
  obtain ⟨snapshot, hSnapshot, rfl⟩ := List.mem_map.mp hEntry
  obtain ⟨key, hGet⟩ := SortedMap.mem_values_iff.mp hSnapshot
  have hKey : key = cluster.name := (h.clustersKeyed key snapshot hGet).symm.trans hName
  rw [hKey] at hGet
  rw [h.get_after hType hLast hAfter hGet]
  rfl

/-- While the cluster is current, every configuration carries TLS settings for it and every request to
it is secured. -/
def NeverDowngraded (codec : Proto.Codec) (cluster : Proto.Cluster) : Prop :=
  ∀ channels cfg watch responses cs, Serves codec channels cfg watch responses cs →
    CurrentCluster codec responses cs cluster → ∀ version,
      (∀ entry ∈ (cs.stream.ads.runtimeConfig version).clusters, entry.name = cluster.name →
        entry.tls.isSome) ∧
      ∀ up server req target, server.state.config = cs.stream.ads.runtimeConfig version →
        (forward up server req).2.target = some target → target.cluster.name = cluster.name →
          (forward up server req).2.Secured

theorem forward_secured {up : Upstream} {server : ProxyServer} {req : Request} {target : Target}
    (hTarget : (forward up server req).2.target = some target)
    (hTls : ∀ entry ∈ server.state.config.clusters, entry.name = target.cluster.name → entry.tls.isSome) :
    (forward up server req).2.Secured := by
  rcases forward_cases up server req with hNone | ⟨server', found, hMem, hDispatch⟩
  · rw [hNone] at hTarget
    cases hTarget
  · rw [hDispatch, dispatch_target] at hTarget
    cases hTarget
    rw [hDispatch]
    exact dispatch_secured up server' req (hTls _ hMem rfl)

theorem exists_current {codec : Proto.Codec} {resource : Proto.Any} {cluster : Proto.Cluster}
    (cfg : XdsClientConfig) (watch : RuntimeConfig)
    (hDecode : decodeResource codec.cluster CLUSTER_TYPE resource = .ok cluster) (hName : cluster.name ≠ "") :
    ∃ responses cs, Serves codec .alwaysOpen cfg watch responses cs ∧
      CurrentCluster codec responses cs cluster := by
  obtain ⟨start, hStart⟩ : ∃ start, Serves codec .alwaysOpen cfg watch [] start :=
    serves_open codec cfg watch fun _ => rfl
  have hAll : List.Forall₂ (fun r c => decodeResource codec.cluster CLUSTER_TYPE r = .ok c)
      [resource] [cluster] := .cons hDecode .nil
  obtain ⟨_, _, hApply⟩ : ∃ s' u, start.stream.ads.applyResponse codec
      ⟨"", [resource], CLUSTER_TYPE, ""⟩ = (s', .ok u) := by
    rw [AdsState.applyResponse_clusters _ rfl]
    exact ⟨_, _, AdsState.applyWith_decoded hAll⟩
  obtain ⟨cs, hHandle, hServes⟩ := hStart.extend (fun _ => rfl) (fun _ => rfl) hApply
  have hCarried : AdsState.CarriesLast codec ⟨"", [resource], CLUSTER_TYPE, ""⟩ cluster := by
    rw [AdsState.CarriesLast, AdsState.carriedClusters, decoded_eq hAll]
    simp [AdsState.named, hName, SortedMap.lastValue]
  obtain ⟨ads, u, hApplied, hAds⟩ := handleResponse_applied hHandle
  refine ⟨_, cs, hServes, ?_, [], _, [], rfl, rfl, hCarried, ?_⟩
  · rw [hAds, AdsState.settle_clusters, SortedMap.mem_keys_iff]
    exact ⟨_, hApplied.get_carried rfl hCarried⟩
  · intro later hLater
    cases hLater

theorem neverDowngraded_iff (codec : Proto.Codec) (resource : Proto.Any) (cluster : Proto.Cluster)
    (bytes : Proto.Bytes) (hDecode : decodeResource codec.cluster CLUSTER_TYPE resource = .ok cluster)
    (hName : cluster.name ≠ "") (hTls : AdsState.AnnouncesTls cluster bytes) :
    NeverDowngraded codec cluster ↔ ∃ context, codec.upstreamTlsContext bytes = .ok context := by
  rw [← hTls.tls_isSome_iff]
  constructor
  · intro h
    obtain ⟨responses, cs, hServes, hCurrent⟩ := exists_current sampleClient (.empty "bootstrap") hDecode hName
    have hEntries := (h _ _ _ _ _ hServes hCurrent "").1
    obtain ⟨snapshot, hGet⟩ := SortedMap.mem_keys_iff.mp hCurrent.1
    have hEntry : cs.stream.ads.runtimeCluster snapshot ∈ (cs.stream.ads.runtimeConfig "").clusters :=
      List.mem_map_of_mem (SortedMap.mem_values_iff.mpr ⟨_, hGet⟩)
    have hEntryName : (cs.stream.ads.runtimeCluster snapshot).name = cluster.name :=
      hServes.clustersKeyed _ _ hGet
    rw [← hCurrent.tls_eq hServes hEntry hEntryName]
    exact hEntries _ hEntry hEntryName
  · intro hSome channels cfg watch responses cs hServes hCurrent version
    have hEntries : ∀ entry ∈ (cs.stream.ads.runtimeConfig version).clusters, entry.name = cluster.name →
        entry.tls.isSome := by
      intro entry hEntry hEntryName
      rw [hCurrent.tls_eq hServes hEntry hEntryName]
      exact hSome
    refine ⟨hEntries, ?_⟩
    intro up server req target hConfig hTarget hTargetName
    refine forward_secured hTarget ?_
    rw [hConfig, hTargetName]
    exact hEntries

end Downgrade

/-! ## A TLS context that does not decode -/

def lengthDelimited (tag payload : Proto.Bytes) : Proto.Bytes :=
  tag ++ UInt8.ofNat payload.length :: payload

def asciiBytes (s : String) : Proto.Bytes := s.toList.map fun c => UInt8.ofNat c.toNat

def TLS_CONTEXT_TYPE : String := "type.googleapis.com/" ++ UPSTREAM_TLS_SUFFIX

/-- Cluster "c" with one inline endpoint and a TLS context of the given bytes. -/
def tlsCluster (context : Proto.Bytes) : Proto.Cluster where
  name := "c"
  edsClusterConfig := none
  loadAssignment := some ⟨"c", [⟨[⟨some (.endpoint ⟨some ⟨some (.socketAddress
    ⟨"10.0.0.1", some (.portValue 1)⟩)⟩⟩), 0⟩]⟩]⟩
  transportSocket := some ⟨some ⟨TLS_CONTEXT_TYPE, context⟩⟩

def tlsClusterBytes (context : Proto.Bytes) : Proto.Bytes :=
  lengthDelimited [0x0a] (asciiBytes "c") ++
    lengthDelimited [0xc2, 0x01] (lengthDelimited [0x1a]
      (lengthDelimited [0x0a] (asciiBytes TLS_CONTEXT_TYPE) ++ lengthDelimited [0x12] context)) ++
    lengthDelimited [0x8a, 0x02] (lengthDelimited [0x0a] (asciiBytes "c") ++
      lengthDelimited [0x12] (lengthDelimited [0x12] (lengthDelimited [0x0a] (lengthDelimited [0x0a]
        (lengthDelimited [0x0a] (lengthDelimited [0x12] (asciiBytes "10.0.0.1") ++ [0x18, 0x01]))))))

/-- The empty context decodes to the default message; a lone tag is a truncated message. -/
def tlsClusterCodec : Proto.Codec :=
  { movingRouteCodec with
    cluster := Proto.tableDecoder [(tlsClusterBytes [], tlsCluster []),
      (tlsClusterBytes [0x0a], tlsCluster [0x0a])]
    upstreamTlsContext := Proto.tableDecoder [([], ⟨none, ""⟩)] }

def tlsClusterResponse (context : Proto.Bytes) : Proto.DiscoveryResponse :=
  ⟨"1", [⟨CLUSTER_TYPE, tlsClusterBytes context⟩], CLUSTER_TYPE, "n3"⟩

def tlsClusterRun (context : Proto.Bytes) : ClientState × Option XdsError :=
  runOnce tlsClusterCodec .alwaysOpen sampleClient (.empty "bootstrap")
    (.opened ([rdsListenerResponse, routeResponse 0x63, tlsClusterResponse context].map .message))

theorem tlsCluster_announcesTls (context : Proto.Bytes) :
    AdsState.AnnouncesTls (tlsCluster context) context :=
  ⟨_, _, rfl, rfl, show Text.endsWith TLS_CONTEXT_TYPE UPSTREAM_TLS_SUFFIX by decide, rfl⟩

theorem decodableContext_neverDowngraded : NeverDowngraded tlsClusterCodec (tlsCluster []) :=
  (neverDowngraded_iff tlsClusterCodec ⟨CLUSTER_TYPE, tlsClusterBytes []⟩ (tlsCluster []) []
    (by decide) (by decide) (tlsCluster_announcesTls [])).mpr ⟨⟨none, ""⟩, by decide⟩

/-- The cluster with the truncated context is published without TLS and called in plaintext. -/
theorem truncatedContext_sent_in_plaintext :
    decodeResource tlsClusterCodec.cluster CLUSTER_TYPE ⟨CLUSTER_TYPE, tlsClusterBytes [0x0a]⟩ =
      .ok (tlsCluster [0x0a]) ∧
    AdsState.AnnouncesTls (tlsCluster [0x0a]) [0x0a] ∧
    (forward sampleUpstream (sampleServer (tlsClusterRun [0x0a]).1.watch) sampleRequest).2.call =
      some ⟨.plaintext, "http://10.0.0.1:1/", []⟩ ∧
    ¬ NeverDowngraded tlsClusterCodec (tlsCluster [0x0a]) := by
  refine ⟨by decide, tlsCluster_announcesTls _, by decide, ?_⟩
  intro h
  have hServes : Serves tlsClusterCodec .alwaysOpen sampleClient (.empty "bootstrap")
      ([rdsListenerResponse, routeResponse 0x63] ++ [tlsClusterResponse [0x0a]])
      (tlsClusterRun [0x0a]).1 := Prod.ext rfl (by decide)
  have hCurrent : CurrentCluster tlsClusterCodec
      ([rdsListenerResponse, routeResponse 0x63] ++ [tlsClusterResponse [0x0a]])
      (tlsClusterRun [0x0a]).1 (tlsCluster [0x0a]) := by
    refine ⟨by decide, _, _, [], rfl, rfl, ?_, ?_⟩
    · unfold AdsState.CarriesLast
      decide
    · intro later hLater
      cases hLater
  exact absurd (h _ _ _ _ _ hServes hCurrent "1").1 (by decide)

end Dxgate
