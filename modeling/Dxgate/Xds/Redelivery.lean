import Dxgate.Xds.Staleness

/-! # Responses that say nothing new

A server may deliver a response again, or another one with the same content. Pruning and inserting once
more leaves the stores as they are, the derived names are the ones already followed, and the
configuration is the one in the watch channel; what goes out is the acknowledgement.
-/

namespace Dxgate

set_option autoImplicit false

open Collections

attribute [ext] AdsState

namespace AdsState

theorem pruneRequested_insertAll_again {T : Type} (m : SortedMap String T) (requested : List String)
    (carried : List (String × T)) :
    (pruneRequested ((pruneRequested m requested).insertAll carried) requested).insertAll carried =
      (pruneRequested m requested).insertAll carried := by
  ext1 name
  simp only [SortedMap.get_insertAll, get_pruneRequested]
  cases SortedMap.lastValue carried name with
  | some value => rfl
  | none =>
    split
    · rfl
    · rfl

theorem insertAll_again {T : Type} (m : SortedMap String T) (carried : List (String × T)) :
    (m.insertAll carried).insertAll carried = m.insertAll carried := by
  ext1 name
  simp only [SortedMap.get_insertAll]
  rw [← Option.or_assoc, Option.or_self]

/-- Whether a response decodes does not depend on the state. -/
theorem Applied.applyResponse_again {codec : Proto.Codec} {s s' : AdsState} {resp : Proto.DiscoveryResponse}
    {u : DiscoveryUpdates} (h : Applied codec s resp s' u) (t : AdsState) :
    ∃ t' u', t.applyResponse codec resp = (t', .ok u') := by
  cases h with
  | listeners _ hType hDecode =>
    rw [t.applyResponse_listeners hType]
    exact ⟨_, _, applyWith_decoded hDecode⟩
  | routes _ hType hDecode =>
    rw [t.applyResponse_routes hType]
    exact ⟨_, _, applyWith_decoded hDecode⟩
  | clusters _ hType hDecode =>
    rw [t.applyResponse_clusters hType]
    exact ⟨_, _, applyWith_decoded hDecode⟩
  | endpoints _ hType hDecode =>
    rw [t.applyResponse_endpoints hType]
    exact ⟨_, _, applyWith_decoded hDecode⟩
  | unknown hListener hRoute hCluster hEndpoint =>
    rw [applyResponse, if_neg hListener, if_neg hRoute, if_neg hCluster, if_neg hEndpoint]
    exact ⟨_, _, rfl⟩

theorem nextType_ne_self (typeUrl : String) : nextType typeUrl ≠ some typeUrl := by
  unfold nextType
  split
  · rename_i hType
    rw [hType]
    decide
  split
  · rename_i hType
    rw [hType]
    decide
  split
  · rename_i hType
    rw [hType]
    decide
  · nofun

theorem settle_subscription_self (s : AdsState) (typeUrl : String) :
    (s.settle typeUrl).subscription typeUrl = s.subscription typeUrl := by
  rw [settle_subscription, if_neg fun h => nextType_ne_self typeUrl h.1]

theorem derivedNames_settle (s : AdsState) (t typeUrl : String) :
    (s.settle t).derivedNames typeUrl = s.derivedNames typeUrl := by
  simp only [derivedNames, routeNames, clusterNames, edsNames, settle_listeners, settle_routes,
    settle_clusters]

theorem settle_get {s : AdsState} {typeUrl next : String} (hNext : nextType typeUrl = some next)
    (hNames : s.derivedNames typeUrl ≠ []) :
    (s.settle typeUrl).subscriptions.get next = some (s.derivedNames typeUrl) := by
  rw [settle, hNext]
  dsimp only
  rw [if_pos hNames, SortedMap.get_insert, if_pos rfl]

/-- Two responses of one type and version that put the same values under the same names. -/
structure SameContent (codec : Proto.Codec) (resp other : Proto.DiscoveryResponse) : Prop where
  typeUrl : other.typeUrl = resp.typeUrl
  versionInfo : other.versionInfo = resp.versionInfo
  listeners : resp.typeUrl = LISTENER_TYPE → carriedListeners codec other = carriedListeners codec resp
  routes : resp.typeUrl = ROUTE_TYPE → carriedRoutes codec other = carriedRoutes codec resp
  clusters : resp.typeUrl = CLUSTER_TYPE →
    (named (carriedClusters codec other)).map (fun c => (c.name, clusterSnapshot codec c)) =
      (named (carriedClusters codec resp)).map fun c => (c.name, clusterSnapshot codec c)
  inline : resp.typeUrl = CLUSTER_TYPE → inlineAssignments (carriedClusters codec other) =
    inlineAssignments (carriedClusters codec resp)
  endpoints : resp.typeUrl = ENDPOINT_TYPE → carriedAssignments codec other = carriedAssignments codec resp

theorem SameContent.refl (codec : Proto.Codec) (resp : Proto.DiscoveryResponse) :
    SameContent codec resp resp :=
  ⟨rfl, rfl, fun _ => rfl, fun _ => rfl, fun _ => rfl, fun _ => rfl, fun _ => rfl⟩

/-- The same content again changes nothing. -/
theorem Applied.again {codec : Proto.Codec} {s first second : AdsState}
    {resp other : Proto.DiscoveryResponse} {u u' : DiscoveryUpdates}
    (hFirst : Applied codec s resp first u) (hContent : SameContent codec resp other)
    (hSecond : Applied codec (first.settle resp.typeUrl) other second u') :
    second = first.settle resp.typeUrl := by
  have hSubscription : (first.settle resp.typeUrl).subscription resp.typeUrl =
      s.subscription resp.typeUrl := by
    rw [settle_subscription_self, hFirst.subscription_eq]
  apply AdsState.ext
  · rw [hSecond.subscriptions_eq]
  · rw [hSecond.listeners_eq, settle_listeners, hFirst.listeners_eq, hContent.typeUrl]
    split
    · rename_i hType
      rw [← hType, hSubscription, hContent.listeners hType, pruneRequested_insertAll_again]
    · rfl
  · rw [hSecond.routes_eq, settle_routes, hFirst.routes_eq, hContent.typeUrl]
    split
    · rename_i hType
      rw [← hType, hSubscription, hContent.routes hType, pruneRequested_insertAll_again]
    · rfl
  · rw [hSecond.clusters_eq, settle_clusters, hFirst.clusters_eq, hContent.typeUrl]
    split
    · rename_i hType
      rw [← hType, hSubscription, hContent.clusters hType, pruneRequested_insertAll_again]
    · rfl
  · rw [hSecond.endpoints_eq, settle_endpoints, hFirst.endpoints_eq, hContent.typeUrl]
    split
    · rename_i hType
      rw [← hType, hSubscription, hContent.endpoints hType, pruneRequested_insertAll_again]
    split
    · rename_i hType
      rw [hContent.inline hType, insertAll_again]
    · rfl

end AdsState

section Client

variable {codec : Proto.Codec} {channels : Channels} {node : Proto.Node}

theorem follow_again {st : Stream} {typeUrl : String} {names : List String}
    (hSorted : names.Pairwise (· < ·)) (h : st.ads.subscriptions.get typeUrl = some names) :
    follow channels node st (typeUrl, names) = (st, none) := by
  rw [follow, AdsState.setSubscription, sortedUnique_of_sorted hSorted, if_pos h]

/-- A response that changes nothing and brings up no name that is not followed is acknowledged. -/
theorem respond_again {st : Stream} {resp : Proto.DiscoveryResponse} {u : DiscoveryUpdates}
    (hApply : st.ads.applyResponse codec resp = (st.ads, .ok u))
    (hFollowed : ∀ next, AdsState.nextType resp.typeUrl = some next →
      st.ads.derivedNames resp.typeUrl ≠ [] →
        st.ads.subscriptions.get next = some (st.ads.derivedNames resp.typeUrl)) :
    respond codec channels node st resp = sendDiscoveryRequest channels st (discoveryRequest node
      resp.typeUrl (st.ads.subscription resp.typeUrl) resp.versionInfo resp.nonce) := by
  have hUpdates := (AdsState.applyResponse_ok hApply).subscriptions
  simp only [respond, hApply]
  split
  · rename_i st' err hSend
    exact hSend.symm
  · rename_i st' hSend
    have hAds : st'.ads = st.ads := by rw [sendDiscoveryRequest_ok hSend]
    rw [hSend, hUpdates]
    cases hNext : AdsState.nextType resp.typeUrl with
    | none => rfl
    | some next =>
      dsimp only
      split
      · rename_i hNames
        rw [Runs.tryFold_cons_ok (follow_again (st.ads.derivedNames_sorted _)
          (by rw [hAds]; exact hFollowed next hNext hNames)), Runs.tryFold_nil]
      · rfl

theorem publish_watched {cs : ClientState} {versionInfo : String}
    (h : (cs.stream.ads.runtimeConfig versionInfo).WellFormed →
      cs.watch = cs.stream.ads.runtimeConfig versionInfo) :
    publish channels cs versionInfo = (cs, none) := by
  rw [publish]
  split
  · rename_i hValid
    rw [if_neg (not_not.mpr (h ((RuntimeConfig.validate_ok_iff _).mp hValid)).symm)]
  · rfl

/-- What the client does with a response of the same content as the one before. -/
def acknowledged (channels : Channels) (node : Proto.Node) (cs : ClientState)
    (resp : Proto.DiscoveryResponse) : ClientState × Option XdsError :=
  if channels.requestOpen cs.stream.requests.length then
    ({ cs with stream := { cs.stream with
      requests := cs.stream.requests ++ [discoveryRequest node resp.typeUrl
        (cs.stream.ads.subscription resp.typeUrl) resp.versionInfo resp.nonce] } }, none)
  else (cs, some .requestChannelClosed)

theorem handleResponse_sameContent {cs cs' : ClientState} {resp other : Proto.DiscoveryResponse}
    (h : handleResponse codec channels node cs resp = (cs', none))
    (hContent : AdsState.SameContent codec resp other)
    (hDecodes : ∃ ads u, cs'.stream.ads.applyResponse codec other = (ads, .ok u)) :
    handleResponse codec channels node cs' other = acknowledged channels node cs' other := by
  obtain ⟨ads, u, hFirst, hAds⟩ := handleResponse_applied h
  obtain ⟨second, u', hApply⟩ := hDecodes
  have hSame : second = cs'.stream.ads := by
    rw [hAds] at hApply ⊢
    exact hFirst.again hContent (AdsState.applyResponse_ok hApply)
  rw [hSame] at hApply
  have hFollowed : ∀ next, AdsState.nextType other.typeUrl = some next →
      cs'.stream.ads.derivedNames other.typeUrl ≠ [] →
        cs'.stream.ads.subscriptions.get next = some (cs'.stream.ads.derivedNames other.typeUrl) := by
    intro next hNext hNames
    rw [hContent.typeUrl] at hNext hNames ⊢
    rw [hAds, AdsState.derivedNames_settle] at hNames ⊢
    exact AdsState.settle_get hNext hNames
  have hWatch : (cs'.stream.ads.runtimeConfig other.versionInfo).WellFormed →
      cs'.watch = cs'.stream.ads.runtimeConfig other.versionInfo := by
    rw [hContent.versionInfo]
    exact handleResponse_watch h
  rw [handleResponse, respond_again hApply hFollowed, sendDiscoveryRequest, acknowledged]
  by_cases hOpen : channels.requestOpen cs'.stream.requests.length
  · rw [if_pos hOpen, if_pos hOpen]
    exact publish_watched hWatch
  · rw [if_neg hOpen, if_neg hOpen]

theorem acknowledged_keeps (channels : Channels) (node : Proto.Node) (cs : ClientState)
    (resp : Proto.DiscoveryResponse) :
    (acknowledged channels node cs resp).1.stream.ads = cs.stream.ads ∧
      (acknowledged channels node cs resp).1.watch = cs.watch ∧
      (acknowledged channels node cs resp).1.published = cs.published := by
  rw [acknowledged]
  split
  · exact ⟨rfl, rfl, rfl⟩
  · exact ⟨rfl, rfl, rfl⟩

/-- Processed a second time, a response leaves the stores, the subscriptions and the watch channel as
they are; all that goes out is its acknowledgement. -/
theorem handleResponse_again {cs cs' : ClientState} {resp : Proto.DiscoveryResponse}
    (h : handleResponse codec channels node cs resp = (cs', none)) :
    handleResponse codec channels node cs' resp = acknowledged channels node cs' resp ∧
    (handleResponse codec channels node cs' resp).1.stream.ads = cs'.stream.ads ∧
    (handleResponse codec channels node cs' resp).1.watch = cs'.watch ∧
    (handleResponse codec channels node cs' resp).1.published = cs'.published := by
  obtain ⟨ads, u, hApplied, -⟩ := handleResponse_applied h
  have hAgain := handleResponse_sameContent h (.refl codec resp)
    (hApplied.applyResponse_again cs'.stream.ads)
  refine ⟨hAgain, ?_⟩
  rw [hAgain]
  exact acknowledged_keeps channels node cs' resp

end Client

/-- The client after the listener and its routes, when the cluster has not come yet. -/
def clusterMissing : ClientState :=
  (runOnce movingRouteCodec .alwaysOpen sampleClient (.empty "bootstrap")
    (.opened [.message rdsListenerResponse, .message (routeResponse 0x63)])).1

/-- The cluster response comes twice: the first one is published, the second one only acknowledged. -/
theorem clusterResponse_again :
    (handleResponse movingRouteCodec .alwaysOpen sampleClient.node clusterMissing
      (clusterResponse 0x63)).1.published.length = clusterMissing.published.length + 1 ∧
    handleResponse movingRouteCodec .alwaysOpen sampleClient.node
        (handleResponse movingRouteCodec .alwaysOpen sampleClient.node clusterMissing
          (clusterResponse 0x63)).1 (clusterResponse 0x63) =
      acknowledged .alwaysOpen sampleClient.node (handleResponse movingRouteCodec .alwaysOpen
        sampleClient.node clusterMissing (clusterResponse 0x63)).1 (clusterResponse 0x63) := by
  have hFirst : handleResponse movingRouteCodec .alwaysOpen sampleClient.node clusterMissing
      (clusterResponse 0x63) = ((handleResponse movingRouteCodec .alwaysOpen sampleClient.node
        clusterMissing (clusterResponse 0x63)).1, none) := Prod.ext rfl (by decide)
  exact ⟨by decide, (handleResponse_again hFirst).1⟩

end Dxgate
