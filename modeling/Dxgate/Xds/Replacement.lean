import Dxgate.Xds.Staleness

/-! # What a response replaces

A response speaks for the subscribed names of its type and for the names it carries, and for every name
while nothing is subscribed. On those the store afterwards does not depend on the store before; the rest
is left alone. The one write outside its own store is that of inline load assignments.
-/

namespace Dxgate

set_option autoImplicit false

open Collections

inductive ResourceType where
  | listener
  | route
  | cluster
  | endpoint
  deriving DecidableEq

namespace ResourceType

def typeUrl : ResourceType → String
  | listener => LISTENER_TYPE
  | route => ROUTE_TYPE
  | cluster => CLUSTER_TYPE
  | endpoint => ENDPOINT_TYPE

def Stored : ResourceType → Type
  | listener => ListenerSnapshot
  | route => List VirtualHost
  | cluster => ClusterSnapshot
  | endpoint => List Endpoint

/-- What a response of the type puts into the store, by name and in order. -/
def carried (codec : Proto.Codec) (resp : Proto.DiscoveryResponse) :
    (t : ResourceType) → List (String × t.Stored)
  | listener => AdsState.carriedListeners codec resp
  | route => AdsState.carriedRoutes codec resp
  | cluster => (AdsState.named (AdsState.carriedClusters codec resp)).map fun c =>
    (c.name, clusterSnapshot codec c)
  | endpoint => AdsState.carriedAssignments codec resp

def Decodes (codec : Proto.Codec) (resp : Proto.DiscoveryResponse) : ResourceType → Prop
  | listener => ∀ r ∈ resp.resources, ∃ l, AdsState.decodeListener codec r = .ok l
  | route => ∀ r ∈ resp.resources, ∃ c, decodeResource codec.routeConfiguration ROUTE_TYPE r = .ok c
  | cluster => ∀ r ∈ resp.resources, ∃ c, decodeResource codec.cluster CLUSTER_TYPE r = .ok c
  | endpoint => ∀ r ∈ resp.resources, ∃ a, decodeResource codec.clusterLoadAssignment ENDPOINT_TYPE r = .ok a

end ResourceType

namespace AdsState

def store (s : AdsState) : (t : ResourceType) → SortedMap String t.Stored
  | .listener => s.listeners
  | .route => s.routes
  | .cluster => s.clusters
  | .endpoint => s.endpoints

/-- What the response of a type changes and what it leaves. -/
structure Replaced (codec : Proto.Codec) (resp : Proto.DiscoveryResponse) (t : ResourceType)
    (s s' : AdsState) : Prop where
  replaced : ∀ name, s.subscription t.typeUrl = [] ∨ name ∈ s.subscription t.typeUrl ∨
    name ∈ (t.carried codec resp).map (·.1) →
      (s'.store t).get name = SortedMap.lastValue (t.carried codec resp) name
  kept : s.subscription t.typeUrl ≠ [] → ∀ name, name ∉ s.subscription t.typeUrl →
    name ∉ (t.carried codec resp).map (·.1) → (s'.store t).get name = (s.store t).get name
  others : ∀ other, other ≠ t → ¬ (t = .cluster ∧ other = .endpoint) → s'.store other = s.store other
  inline : t = .cluster → ∀ name, s'.endpoints.get name =
    (SortedMap.lastValue (inlineAssignments (carriedClusters codec resp)) name).or (s.endpoints.get name)
  subscriptions : s'.subscriptions = s.subscriptions

theorem applyWith_of_decodes {T : Type} {decode : Proto.Any → Except XdsError T}
    {put : AdsState → T → AdsState} {updates : AdsState → DiscoveryUpdates} (s : AdsState)
    {resources : List Proto.Any} (h : ∀ r ∈ resources, ∃ v, decode r = .ok v) :
    ∃ s' u, applyWith decode put updates s resources = (s', .ok u) := by
  have hAll : ∃ values, List.Forall₂ (fun r v => decode r = .ok v) resources values := by
    induction resources with
    | nil => exact ⟨[], .nil⟩
    | cons r rs ih =>
      obtain ⟨v, hv⟩ := h r List.mem_cons_self
      obtain ⟨vs, hvs⟩ := ih fun r' hr' => h r' (List.mem_cons_of_mem _ hr')
      exact ⟨v :: vs, .cons hv hvs⟩
  obtain ⟨values, hValues⟩ := hAll
  exact ⟨_, _, applyWith_decoded hValues⟩

theorem applyResponse_of_decodes {codec : Proto.Codec} {resp : Proto.DiscoveryResponse}
    {t : ResourceType} (s : AdsState) (hType : resp.typeUrl = t.typeUrl) (hDecodes : t.Decodes codec resp) :
    ∃ s' u, s.applyResponse codec resp = (s', .ok u) := by
  cases t with
  | listener =>
    rw [s.applyResponse_listeners hType]
    exact applyWith_of_decodes _ hDecodes
  | route =>
    rw [s.applyResponse_routes hType]
    exact applyWith_of_decodes _ hDecodes
  | cluster =>
    rw [s.applyResponse_clusters hType]
    exact applyWith_of_decodes _ hDecodes
  | endpoint =>
    rw [s.applyResponse_endpoints hType]
    exact applyWith_of_decodes _ hDecodes

/-- All four stores are replaced the same way. -/
theorem Applied.store_eq {codec : Proto.Codec} {s s' : AdsState} {resp : Proto.DiscoveryResponse}
    {u : DiscoveryUpdates} (h : Applied codec s resp s' u) {t : ResourceType}
    (hType : resp.typeUrl = t.typeUrl) :
    s'.store t = (pruneRequested (s.store t) (s.subscription t.typeUrl)).insertAll (t.carried codec resp) := by
  cases t with
  | listener => exact h.listeners_eq.trans (if_pos hType)
  | route => exact h.routes_eq.trans (if_pos hType)
  | cluster => exact h.clusters_eq.trans (if_pos hType)
  | endpoint => exact h.endpoints_eq.trans (if_pos hType)

theorem Applied.store_other {codec : Proto.Codec} {s s' : AdsState} {resp : Proto.DiscoveryResponse}
    {u : DiscoveryUpdates} (h : Applied codec s resp s' u) {t other : ResourceType}
    (hType : resp.typeUrl = t.typeUrl) (hOther : other ≠ t)
    (hInline : ¬ (t = .cluster ∧ other = .endpoint)) : s'.store other = s.store other := by
  have hUrl : resp.typeUrl ≠ other.typeUrl := by
    rw [hType]
    cases t <;> cases other <;> first | exact absurd rfl hOther | decide
  cases other with
  | listener => exact h.listeners_eq.trans (if_neg hUrl)
  | route => exact h.routes_eq.trans (if_neg hUrl)
  | cluster => exact h.clusters_eq.trans (if_neg hUrl)
  | endpoint =>
    refine h.endpoints_eq.trans ((if_neg hUrl).trans (if_neg ?_))
    rw [hType]
    cases t with
    | cluster => exact absurd ⟨rfl, rfl⟩ hInline
    | listener => decide
    | route => decide
    | endpoint => exact absurd rfl hOther

theorem Applied.replaced {codec : Proto.Codec} {s s' : AdsState} {resp : Proto.DiscoveryResponse}
    {u : DiscoveryUpdates} (h : Applied codec s resp s' u) {t : ResourceType}
    (hType : resp.typeUrl = t.typeUrl) : Replaced codec resp t s s' where
  replaced name hName := by
    rw [h.store_eq hType, SortedMap.get_insertAll, get_pruneRequested]
    by_cases hCarried : name ∈ (t.carried codec resp).map (·.1)
    · cases hLast : SortedMap.lastValue (t.carried codec resp) name with
      | none => exact absurd hCarried (SortedMap.lastValue_eq_none_iff.mp hLast)
      | some value => rfl
    · rw [if_pos (hName.imp_right fun hRest => hRest.resolve_right hCarried), Option.or_none]
  kept hSubscribed name hName hCarried := by
    rw [h.store_eq hType, SortedMap.get_insertAll, get_pruneRequested,
      SortedMap.lastValue_eq_none_iff.mpr hCarried, if_neg (not_or.mpr ⟨hSubscribed, hName⟩),
      Option.none_or]
  others other hOther hInline := h.store_other hType hOther hInline
  inline hCluster name := by
    have hUrl : resp.typeUrl = CLUSTER_TYPE := by
      rw [hType, hCluster]
      rfl
    rw [h.endpoints_eq, hUrl, if_neg (by decide), if_pos rfl, SortedMap.get_insertAll]
  subscriptions := h.subscriptions_eq

end AdsState

/-- Two states with the same subscription: on the names a response speaks for they agree afterwards, and
each keeps the rest of what it had. -/
theorem applyResponse_replaces {codec : Proto.Codec} {resp : Proto.DiscoveryResponse} {t : ResourceType}
    (s₁ s₂ : AdsState) (hType : resp.typeUrl = t.typeUrl) (hDecodes : t.Decodes codec resp)
    (hSame : s₁.subscription t.typeUrl = s₂.subscription t.typeUrl) :
    (∀ name, s₁.subscription t.typeUrl = [] ∨ name ∈ s₁.subscription t.typeUrl ∨
      name ∈ (t.carried codec resp).map (·.1) →
        ((s₁.applyResponse codec resp).1.store t).get name =
          ((s₂.applyResponse codec resp).1.store t).get name) ∧
    AdsState.Replaced codec resp t s₁ (s₁.applyResponse codec resp).1 ∧
    AdsState.Replaced codec resp t s₂ (s₂.applyResponse codec resp).1 := by
  obtain ⟨s₁', u₁, hApply₁⟩ := AdsState.applyResponse_of_decodes s₁ hType hDecodes
  obtain ⟨s₂', u₂, hApply₂⟩ := AdsState.applyResponse_of_decodes s₂ hType hDecodes
  have hReplaced₁ := (AdsState.applyResponse_ok hApply₁).replaced hType
  have hReplaced₂ := (AdsState.applyResponse_ok hApply₂).replaced hType
  rw [hApply₁, hApply₂]
  refine ⟨?_, hReplaced₁, hReplaced₂⟩
  intro name hName
  rw [hReplaced₁.replaced name hName, hReplaced₂.replaced name (hSame ▸ hName)]

/-- A state that follows the cluster "c" and has stored the given clusters. -/
def followingC (clusters : SortedMap String ClusterSnapshot) : AdsState :=
  { AdsState.default with
    subscriptions := SortedMap.empty.insert CLUSTER_TYPE ["c"]
    clusters := clusters }

def storedD : SortedMap String ClusterSnapshot := SortedMap.empty.insert "d" ⟨"d", "d", none⟩

theorem followingC_replaces :
    (((followingC storedD).applyResponse movingRouteCodec (clusterResponse 0x63)).1.store .cluster).get "c" =
      (((followingC .empty).applyResponse movingRouteCodec (clusterResponse 0x63)).1.store .cluster).get "c" ∧
    AdsState.Replaced movingRouteCodec (clusterResponse 0x63) .cluster (followingC storedD)
      ((followingC storedD).applyResponse movingRouteCodec (clusterResponse 0x63)).1 := by
  have hDecodes : ResourceType.cluster.Decodes movingRouteCodec (clusterResponse 0x63) := by
    intro r hr
    rw [clusterResponse, List.mem_singleton] at hr
    subst hr
    exact ⟨plainCluster "c", rfl⟩
  have hReplaces := applyResponse_replaces (followingC storedD) (followingC .empty) rfl hDecodes rfl
  exact ⟨hReplaces.1 "c" (by decide), hReplaces.2.1⟩

end Dxgate
