import Dxgate.Xds.Publication

/-! # Subscriptions and what the state needs

Route names are derived from the listener store, cluster names from the route store and endpoint names
from the cluster store, each whenever the store changes. Clusters named by an inline route
configuration of a listener are in none of these, so only they can be left out.
-/

namespace Dxgate

set_option autoImplicit false

open Collections

namespace AdsState

/-- Everything the current state needs is subscribed. -/
structure Covered (s : AdsState) : Prop where
  routes : ∀ snapshot ∈ s.listeners.values, ∀ route ∈ snapshot.routeNames,
    route ∈ s.subscription ROUTE_TYPE
  clusters : ∀ version, ∀ listener ∈ (s.runtimeConfig version).listeners, ∀ vh ∈ listener.virtualHosts,
    ∀ route ∈ vh.routes, ∀ dst ∈ route.weightedClusters, dst.name ∈ s.subscription CLUSTER_TYPE
  endpoints : ∀ cluster ∈ s.clusters.values, cluster.edsServiceName ∈ s.subscription ENDPOINT_TYPE

/-- The part of it that is reached through discovered resources alone. -/
structure DerivedCovered (s : AdsState) : Prop where
  routes : ∀ snapshot ∈ s.listeners.values, ∀ route ∈ snapshot.routeNames,
    route ∈ s.subscription ROUTE_TYPE
  clusters : ∀ vhosts ∈ s.routes.values, ∀ name ∈ routeClusterNames vhosts,
    name ∈ s.subscription CLUSTER_TYPE
  endpoints : ∀ cluster ∈ s.clusters.values, cluster.edsServiceName ∈ s.subscription ENDPOINT_TYPE

def InlineCovered (s : AdsState) : Prop :=
  ∀ snapshot ∈ s.listeners.values, ∀ name ∈ routeClusterNames snapshot.inlineVirtualHosts,
    name ∈ s.subscription CLUSTER_TYPE

theorem mem_routeClusterNames {vhosts : List VirtualHost} {name : String} :
    name ∈ routeClusterNames vhosts ↔ ∃ vh ∈ vhosts, ∃ route ∈ vh.routes,
      ∃ dst ∈ route.weightedClusters, dst.name = name := by
  simp only [routeClusterNames, List.mem_flatMap, List.mem_map]

theorem mem_snapshotVirtualHosts {s : AdsState} {snapshot : ListenerSnapshot} {vh : VirtualHost}
    (h : vh ∈ s.snapshotVirtualHosts snapshot) :
    vh ∈ snapshot.inlineVirtualHosts ∨ ∃ vhosts ∈ s.routes.values, vh ∈ vhosts := by
  rw [snapshotVirtualHosts, List.mem_append] at h
  refine h.imp_right fun hRds => ?_
  obtain ⟨name, _, hVh⟩ := List.mem_flatMap.mp hRds
  cases hGet : s.routes.get name with
  | none => rw [hGet] at hVh; cases hVh
  | some vhosts =>
    rw [hGet] at hVh
    exact ⟨vhosts, SortedMap.mem_values_iff.mpr ⟨name, hGet⟩, hVh⟩

theorem DerivedCovered.covered_iff {s : AdsState} (h : s.DerivedCovered) :
    s.Covered ↔ s.InlineCovered := by
  constructor
  · intro hCovered snapshot hSnapshot name hName
    obtain ⟨vh, hVh, route, hRoute, dst, hDst, rfl⟩ := mem_routeClusterNames.mp hName
    refine hCovered.clusters "" (s.runtimeListener snapshot) (List.mem_map_of_mem hSnapshot) vh ?_
      route hRoute dst hDst
    exact List.mem_append_left _ hVh
  · intro hInline
    refine ⟨h.routes, ?_, h.endpoints⟩
    intro version listener hListener vh hVh route hRoute dst hDst
    obtain ⟨snapshot, hSnapshot, rfl⟩ := List.mem_map.mp hListener
    rcases mem_snapshotVirtualHosts hVh with hVh | ⟨vhosts, hVhosts, hVh⟩
    · exact hInline snapshot hSnapshot _ (mem_routeClusterNames.mpr ⟨vh, hVh, route, hRoute, dst, hDst, rfl⟩)
    · exact h.clusters vhosts hVhosts _ (mem_routeClusterNames.mpr ⟨vh, hVh, route, hRoute, dst, hDst, rfl⟩)

/-! ## One response -/

theorem mem_routeNames {s : AdsState} {name : String} :
    name ∈ s.routeNames ↔ ∃ snapshot ∈ s.listeners.values, name ∈ snapshot.routeNames := by
  rw [routeNames, mem_sortedUnique, List.mem_flatMap]

theorem mem_clusterNames {s : AdsState} {name : String} :
    name ∈ s.clusterNames ↔ ∃ vhosts ∈ s.routes.values, name ∈ routeClusterNames vhosts := by
  rw [clusterNames, mem_sortedUnique, List.mem_flatMap]

theorem mem_edsNames {s : AdsState} {name : String} :
    name ∈ s.edsNames ↔ ∃ cluster ∈ s.clusters.values, cluster.edsServiceName = name := by
  rw [edsNames, mem_sortedUnique, List.mem_map]

theorem mem_subscription_settle {s : AdsState} {typeUrl next name : String}
    (hNext : nextType typeUrl = some next) (hName : name ∈ s.derivedNames typeUrl) :
    name ∈ (s.settle typeUrl).subscription next := by
  rw [settle_subscription, if_pos ⟨hNext, List.ne_nil_of_mem hName⟩]
  exact hName

theorem subscription_settle_of_ne {s : AdsState} {typeUrl t : String} (h : nextType typeUrl ≠ some t) :
    (s.settle typeUrl).subscription t = s.subscription t := by
  rw [settle_subscription, if_neg fun hNext => h hNext.1]

theorem Applied.derivedCovered {codec : Proto.Codec} {s s' : AdsState} {resp : Proto.DiscoveryResponse}
    {u : DiscoveryUpdates} (h : Applied codec s resp s' u) (hs : s.DerivedCovered) :
    (s'.settle resp.typeUrl).DerivedCovered := by
  constructor
  · intro snapshot hSnapshot route hRoute
    rw [settle_listeners] at hSnapshot
    by_cases hType : resp.typeUrl = LISTENER_TYPE
    · refine mem_subscription_settle (by rw [hType]; rfl) ?_
      rw [hType]
      exact mem_routeNames.mpr ⟨snapshot, hSnapshot, hRoute⟩
    · rw [h.listeners_eq, if_neg hType] at hSnapshot
      rw [subscription_settle_of_ne, h.subscription_eq]
      · exact hs.routes snapshot hSnapshot route hRoute
      · rw [nextType, if_neg hType]
        split
        · decide
        · split <;> decide
  · intro vhosts hVhosts name hName
    rw [settle_routes] at hVhosts
    by_cases hType : resp.typeUrl = ROUTE_TYPE
    · refine mem_subscription_settle (by rw [hType]; rfl) ?_
      rw [hType]
      exact mem_clusterNames.mpr ⟨vhosts, hVhosts, hName⟩
    · rw [h.routes_eq, if_neg hType] at hVhosts
      rw [subscription_settle_of_ne, h.subscription_eq]
      · exact hs.clusters vhosts hVhosts name hName
      · rw [nextType, if_neg hType]
        split
        · decide
        · split <;> decide
  · intro cluster hCluster
    rw [settle_clusters] at hCluster
    by_cases hType : resp.typeUrl = CLUSTER_TYPE
    · refine mem_subscription_settle (by rw [hType]; rfl) ?_
      rw [hType]
      exact mem_edsNames.mpr ⟨cluster, hCluster, rfl⟩
    · rw [h.clusters_eq, if_neg hType] at hCluster
      rw [subscription_settle_of_ne, h.subscription_eq]
      · exact hs.endpoints cluster hCluster
      · rw [nextType, if_neg hType]
        split
        · decide
        · split <;> decide

/-- The cluster is named by a route configuration that is stored after a route response. -/
def NamesCluster (codec : Proto.Codec) (s : AdsState) (resp : Proto.DiscoveryResponse)
    (cluster : String) : Prop :=
  ∃ vhosts, Leaves s.routes (s.subscription ROUTE_TYPE) (carriedRoutes codec resp) vhosts ∧
    cluster ∈ routeClusterNames vhosts

/-- A condition on the state before a response: a listener response must name inline only clusters that
are subscribed already; a route response that names any cluster must name those of the inline routes. -/
def InlineSubscribed (codec : Proto.Codec) (s : AdsState) (resp : Proto.DiscoveryResponse) : Prop :=
  if resp.typeUrl = LISTENER_TYPE then
    ∀ name snapshot, SortedMap.lastValue (carriedListeners codec resp) name = some snapshot →
      ∀ cluster ∈ routeClusterNames snapshot.inlineVirtualHosts, cluster ∈ s.subscription CLUSTER_TYPE
  else if resp.typeUrl = ROUTE_TYPE then
    (∃ cluster, NamesCluster codec s resp cluster) → ∀ snapshot ∈ s.listeners.values,
      ∀ cluster ∈ routeClusterNames snapshot.inlineVirtualHosts, NamesCluster codec s resp cluster
  else True

theorem Applied.mem_clusterNames_iff {codec : Proto.Codec} {s s' : AdsState}
    {resp : Proto.DiscoveryResponse} {u : DiscoveryUpdates} (h : Applied codec s resp s' u)
    (hType : resp.typeUrl = ROUTE_TYPE) (cluster : String) :
    cluster ∈ s'.clusterNames ↔ NamesCluster codec s resp cluster := by
  rw [mem_clusterNames, h.routes_eq, if_pos hType]
  exact exists_congr fun vhosts => and_congr_left fun _ => mem_values_insertAll_prune

theorem Applied.inlineCovered_iff {codec : Proto.Codec} {s s' : AdsState}
    {resp : Proto.DiscoveryResponse} {u : DiscoveryUpdates} (h : Applied codec s resp s' u)
    (hs : s.InlineCovered) :
    (s'.settle resp.typeUrl).InlineCovered ↔ InlineSubscribed codec s resp := by
  unfold InlineCovered InlineSubscribed
  rw [settle_listeners, h.listeners_eq]
  by_cases hListener : resp.typeUrl = LISTENER_TYPE
  · have hSub : (s'.settle resp.typeUrl).subscription CLUSTER_TYPE = s.subscription CLUSTER_TYPE := by
      rw [subscription_settle_of_ne (by rw [hListener]; decide), h.subscription_eq]
    rw [hSub, if_pos hListener, if_pos hListener]
    constructor
    · intro hAfter name snapshot hLast
      exact hAfter snapshot (mem_values_insertAll_prune.mpr ⟨name, Or.inl hLast⟩)
    · intro hCarried snapshot hSnapshot
      obtain ⟨name, hLast | ⟨_, _, _, hStored⟩⟩ := mem_values_insertAll_prune.mp hSnapshot
      · exact hCarried name snapshot hLast
      · exact hs snapshot (SortedMap.mem_values_iff.mpr ⟨name, hStored⟩)
  rw [if_neg hListener, if_neg hListener]
  by_cases hRoute : resp.typeUrl = ROUTE_TYPE
  · have hDerived : s'.derivedNames resp.typeUrl = s'.clusterNames := by
      rw [hRoute]
      rfl
    rw [if_pos hRoute, settle_subscription, hDerived, h.subscription_eq, hRoute]
    by_cases hNone : s'.clusterNames = []
    · have hNoName : ¬ ∃ cluster, NamesCluster codec s resp cluster := by
        rintro ⟨cluster, hNames⟩
        rw [← h.mem_clusterNames_iff hRoute, hNone] at hNames
        cases hNames
      rw [if_neg fun hSome => hSome.2 hNone]
      exact ⟨fun _ hSome => absurd hSome hNoName, fun _ => hs⟩
    · obtain ⟨cluster, hCluster⟩ := List.exists_mem_of_ne_nil _ hNone
      have hSome : ∃ cluster, NamesCluster codec s resp cluster :=
        ⟨cluster, (h.mem_clusterNames_iff hRoute cluster).mp hCluster⟩
      rw [if_pos ⟨by decide, hNone⟩]
      simp only [h.mem_clusterNames_iff hRoute, hSome, forall_const]
  · have hSub : (s'.settle resp.typeUrl).subscription CLUSTER_TYPE = s.subscription CLUSTER_TYPE := by
      rw [subscription_settle_of_ne, h.subscription_eq]
      rw [nextType, if_neg hListener, if_neg hRoute]
      split <;> decide
    rw [hSub, if_neg hRoute]
    exact ⟨fun _ => trivial, fun _ => hs⟩

end AdsState

/-! ## Runs -/

section Coverage

variable (codec : Proto.Codec) (channels : Channels) (cfg : XdsClientConfig) (watch : RuntimeConfig)

/-- After each response everything the state needs is subscribed. -/
def SubscriptionsCover (responses : List Proto.DiscoveryResponse) : Prop :=
  ∀ cs resp cs', Processes codec channels cfg watch responses cs resp cs' → cs'.stream.ads.Covered

variable {codec channels cfg watch}

theorem serves_nil_covered {cs : ClientState} (h : Serves codec channels cfg watch [] cs) :
    cs.stream.ads.DerivedCovered ∧ cs.stream.ads.InlineCovered := by
  obtain ⟨hListeners, hRoutes, hClusters, _⟩ := openStream_stores (serves_nil h).1
  refine ⟨⟨?_, ?_, ?_⟩, ?_⟩
  · rw [hListeners]
    intro snapshot hSnapshot
    cases hSnapshot
  · rw [hRoutes]
    intro vhosts hVhosts
    cases hVhosts
  · rw [hClusters]
    intro cluster hCluster
    cases hCluster
  · intro snapshot hSnapshot
    rw [hListeners] at hSnapshot
    cases hSnapshot

theorem handleResponse_derivedCovered {cs cs' : ClientState} {resp : Proto.DiscoveryResponse}
    (hs : cs.stream.ads.DerivedCovered)
    (h : handleResponse codec channels cfg.node cs resp = (cs', none)) :
    cs'.stream.ads.DerivedCovered := by
  obtain ⟨ads, u, hApplied, hAds⟩ := handleResponse_applied h
  rw [hAds]
  exact hApplied.derivedCovered hs

theorem Serves.derivedCovered {responses : List Proto.DiscoveryResponse} {cs : ClientState}
    (h : Serves codec channels cfg watch responses cs) : cs.stream.ads.DerivedCovered := by
  induction responses using List.reverseRecOn generalizing cs with
  | nil => exact (serves_nil_covered h).1
  | append_singleton before resp ih =>
    obtain ⟨mid, hBefore, hLast⟩ := serves_concat.mp h
    exact handleResponse_derivedCovered (ih hBefore) hLast

theorem handleResponse_covered_iff {cs cs' : ClientState} {resp : Proto.DiscoveryResponse}
    (hs : cs.stream.ads.DerivedCovered) (hInline : cs.stream.ads.InlineCovered)
    (h : handleResponse codec channels cfg.node cs resp = (cs', none)) :
    cs'.stream.ads.Covered ↔ AdsState.InlineSubscribed codec cs.stream.ads resp := by
  rw [(handleResponse_derivedCovered hs h).covered_iff]
  obtain ⟨ads, u, hApplied, hAds⟩ := handleResponse_applied h
  rw [hAds]
  exact hApplied.inlineCovered_iff hInline

/-- Coverage holds throughout a run exactly when no response leaves an inline cluster out. -/
theorem subscriptionsCover_iff (codec : Proto.Codec) (channels : Channels) (cfg : XdsClientConfig)
    (watch : RuntimeConfig) (responses : List Proto.DiscoveryResponse) :
    SubscriptionsCover codec channels cfg watch responses ↔
      ∀ cs resp cs', Processes codec channels cfg watch responses cs resp cs' →
        AdsState.InlineSubscribed codec cs.stream.ads resp := by
  constructor
  · intro h cs resp cs' hProcess
    have hBefore : cs.stream.ads.DerivedCovered ∧ cs.stream.ads.InlineCovered := by
      refine hProcess.before (P := fun cs => cs.stream.ads.DerivedCovered ∧ cs.stream.ads.InlineCovered)
        (fun cs hServes => serves_nil_covered hServes) ?_
      rintro earlier r later ⟨before, after, hSplit, hServes, hHandle⟩
      have hDerived := handleResponse_derivedCovered hServes.derivedCovered hHandle
      exact ⟨hDerived, hDerived.covered_iff.mp
        (h earlier r later ⟨before, after, hSplit, hServes, hHandle⟩)⟩
    have hAfter := h cs resp cs' hProcess
    obtain ⟨_, _, _, _, hHandle⟩ := hProcess
    exact (handleResponse_covered_iff hBefore.1 hBefore.2 hHandle).mp hAfter
  · intro h cs resp cs' hProcess
    have hAfter : cs'.stream.ads.DerivedCovered ∧ cs'.stream.ads.InlineCovered := by
      refine Processes.invariant
        (I := fun cs => cs.stream.ads.DerivedCovered ∧ cs.stream.ads.InlineCovered)
        (C := fun cs resp => AdsState.InlineSubscribed codec cs.stream.ads resp)
        (fun cs hServes => serves_nil_covered hServes) ?_ h hProcess
      intro cs resp cs' hBefore hCond hHandle
      have hDerived := handleResponse_derivedCovered hBefore.1 hHandle
      exact ⟨hDerived, hDerived.covered_iff.mp
        ((handleResponse_covered_iff hBefore.1 hBefore.2 hHandle).mpr hCond)⟩
    exact hAfter.1.covered_iff.mpr hAfter.2

end Coverage

/-! ## A listener with inline routes -/

/-- The wire form of a connection manager whose inline routes send everything to cluster "c". -/
def inlineManagerBytes : Proto.Bytes :=
  [0x22, 0x0c, 0x12, 0x0a, 0x12, 0x01, 0x2a, 0x1a, 0x05, 0x1a, 0x03, 0x0a, 0x01, 0x63]

def inlineListenerBytes : Proto.Bytes :=
  [0x0a, 0x01, 0x6c, 0x9a, 0x01, 0x12, 0x0a, 0x10, 0x12, 0x0e] ++ inlineManagerBytes

def inlineListenerCodec : Proto.Codec :=
  { rdsListenerCodec with
    listener := Proto.tableDecoder
      [(inlineListenerBytes, ⟨"l", none, [], some ⟨some ⟨"", inlineManagerBytes⟩⟩⟩)]
    httpConnectionManager := Proto.tableDecoder
      [(inlineManagerBytes, ⟨some (.routeConfig { routeToCluster "c" with name := "" })⟩)] }

/-- The one cluster of the inline routes is not subscribed after the listener response. -/
theorem inlineRoutes_cluster_not_subscribed :
    ¬ SubscriptionsCover inlineListenerCodec .alwaysOpen sampleClient (.empty "bootstrap")
      ([] ++ [⟨"1", [⟨LISTENER_TYPE, inlineListenerBytes⟩], LISTENER_TYPE, "n1"⟩]) := by
  intro h
  have hStep := Processes.last inlineListenerCodec .alwaysOpen sampleClient (.empty "bootstrap") []
    ⟨"1", [⟨LISTENER_TYPE, inlineListenerBytes⟩], LISTENER_TYPE, "n1"⟩ (by decide) (by decide)
  have hCovered := (h _ _ _ hStep).clusters "1"
  exact absurd hCovered (by decide)

end Dxgate
