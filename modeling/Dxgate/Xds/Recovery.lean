import Dxgate.Core.Routing
import Dxgate.Xds.BringUp
import Dxgate.Xds.Ordering

/-! # Recovering from any history

A stream may have been sent anything: resources of another database, clusters nobody asked for, endpoints
that came with a cluster. Once the control plane has sent what its database has, a response for each type
in the order of the chain, the client serves this database. What is left behind in the stores is never
looked at, so nothing has to be removed for it.
-/

namespace Dxgate

set_option autoImplicit false

open Collections

theorem get_insertAll_answer {T V : Type} (stored : SortedMap String V) {requested order : List String}
    (hOrder : order.Perm requested) {g : String → Option T} {key : T → String} (val : T → V)
    (hKey : ∀ name value, g name = some value → key value = name) (name : String) :
    ((pruneRequested stored requested).insertAll
      ((order.filterMap g).map fun value => (key value, val value))).get name =
        if name ∈ requested then (g name).map val
        else if requested = [] then none else stored.get name := by
  have hPairs : (order.filterMap g).map (fun value => (key value, val value)) =
      order.filterMap fun name => ((g name).map val).map fun v => (name, v) := by
    rw [List.map_filterMap]
    refine List.filterMap_congr fun name _ => ?_
    cases hValue : g name with
    | none => rfl
    | some value => rw [Option.map_some, Option.map_some, Option.map_some, hKey name value hValue]
  rw [hPairs, SortedMap.get_insertAll, SortedMap.lastValue_filterMap, get_pruneRequested]
  by_cases hMem : name ∈ requested
  · rw [if_pos (hOrder.mem_iff.mpr hMem), if_pos hMem, if_pos (Or.inr hMem), Option.or_none]
  · rw [if_neg fun h => hMem (hOrder.mem_iff.mp h), if_neg hMem, Option.none_or]
    simp only [hMem, or_false]

/-- The listener names are never derived. -/
theorem AdsState.nextType_ne_listener (typeUrl : String) : nextType typeUrl ≠ some LISTENER_TYPE := by
  unfold nextType
  split
  · decide
  split
  · decide
  split
  · decide
  · exact (Option.some_ne_none _).symm

namespace Database

variable (codec : Proto.Codec) (enc : Encoder) (db : Database)

/-- The response carries what the database has under the names that the client follows. -/
def Current (s : AdsState) (resp : Proto.DiscoveryResponse) : Prop :=
  ∃ order : List String, order.Perm (s.subscription resp.typeUrl) ∧
    resp.resources = order.filterMap (db.resource enc resp.typeUrl)

section Stored

variable {codec enc db} {s s' : AdsState} {resp : Proto.DiscoveryResponse} {u : DiscoveryUpdates}

theorem RdsOnly.snapshot_name (hRds : db.RdsOnly codec) {name : String} {value : ListenerSnapshot}
    (h : db.snapshot codec name = some value) : value.listener.name = name := by
  obtain ⟨l, hGet, _⟩ := Option.bind_eq_some_iff.mp h
  obtain ⟨stored, _, hSnapshot, hName, _⟩ := hRds.snapshot hGet
  rw [hSnapshot] at h
  cases h
  exact hName

theorem decoded_listeners (hDecodes : db.Decodes codec enc) (hRds : db.RdsOnly codec)
    (order : List String) : decoded (AdsState.decodeListener codec)
      (order.filterMap (db.resource enc LISTENER_TYPE)) = order.filterMap (db.snapshot codec) := by
  refine decoded_eq (Runs.forall₂_filterMap ?_ order)
  intro name
  rw [resource, if_pos rfl]
  cases hGet : db.listeners.get name with
  | none =>
    rw [snapshot, hGet]
    exact .none
  | some l =>
    obtain ⟨value, hValue, hSnapshot, _⟩ := hRds.snapshot hGet
    rw [hSnapshot]
    refine .some ?_
    rw [AdsState.decodeListener, decodeResource, hDecodes.listener name l hGet]
    exact hValue

theorem Current.get_listeners (hDecodes : db.Decodes codec enc) (hRds : db.RdsOnly codec)
    (h : db.Current enc s resp) (hApplied : AdsState.Applied codec s resp s' u)
    (hType : resp.typeUrl = LISTENER_TYPE) (name : String) : s'.listeners.get name =
      if name ∈ s.subscription LISTENER_TYPE then db.snapshot codec name
      else if s.subscription LISTENER_TYPE = [] then none else s.listeners.get name := by
  obtain ⟨order, hOrder, hResources⟩ := h
  rw [hType] at hOrder hResources
  have hGet := get_insertAll_answer s.listeners hOrder (fun l => l) (fun _ _ => hRds.snapshot_name) name
  rw [Option.map_id'] at hGet
  rw [hApplied.listeners_eq, if_pos hType, AdsState.carriedListeners, hResources,
    decoded_listeners hDecodes hRds]
  exact hGet

theorem Current.get_routes (hDecodes : db.Decodes codec enc) (h : db.Current enc s resp)
    (hApplied : AdsState.Applied codec s resp s' u) (hType : resp.typeUrl = ROUTE_TYPE) {name : String}
    (hName : name ∈ s.subscription ROUTE_TYPE) : s'.routes.get name = db.virtualHosts name := by
  obtain ⟨order, hOrder, hResources⟩ := h
  rw [hType] at hOrder hResources
  have hDecoded : decoded (decodeResource codec.routeConfiguration ROUTE_TYPE)
      (order.filterMap (db.resource enc ROUTE_TYPE)) = order.filterMap db.routes.get :=
    decoded_eq (Runs.forall₂_filterMap (fun name => rel_map_encode ROUTE_TYPE (hDecodes.route name)) order)
  rw [hApplied.routes_eq, if_pos hType, AdsState.carriedRoutes, hResources, hDecoded]
  have hGet := get_insertAll_answer s.routes hOrder (fun r => convertVirtualHosts r.virtualHosts)
    (fun name r hGet => (db.routesNamed name r hGet).1) name
  rw [if_pos hName] at hGet
  exact hGet

/-- The clusters of a database have names and leave their endpoints to the endpoint type. -/
theorem Current.carriedClusters (hDecodes : db.Decodes codec enc) (h : db.Current enc s resp)
    (hType : resp.typeUrl = CLUSTER_TYPE) : ∃ order : List String,
      order.Perm (s.subscription CLUSTER_TYPE) ∧
      AdsState.named (AdsState.carriedClusters codec resp) = order.filterMap db.clusters.get ∧
      AdsState.inlineAssignments (AdsState.carriedClusters codec resp) = [] := by
  obtain ⟨order, hOrder, hResources⟩ := h
  rw [hType] at hOrder hResources
  have hDecoded : AdsState.carriedClusters codec resp = order.filterMap db.clusters.get := by
    rw [AdsState.carriedClusters, hResources]
    exact decoded_eq
      (Runs.forall₂_filterMap (fun name => rel_map_encode CLUSTER_TYPE (hDecodes.cluster name)) order)
  have hPlain : ∀ c ∈ order.filterMap db.clusters.get, c.name ≠ "" ∧ c.loadAssignment = none := by
    intro c hMem
    obtain ⟨name, _, hGet⟩ := List.mem_filterMap.mp hMem
    obtain ⟨hName, hNonempty, hLoad⟩ := db.clustersNamed name c hGet
    exact ⟨hName ▸ hNonempty, hLoad⟩
  have hNamed : AdsState.named (order.filterMap db.clusters.get) = order.filterMap db.clusters.get :=
    List.filter_eq_self.mpr fun c hMem => by simpa using (hPlain c hMem).1
  refine ⟨order, hOrder, by rw [hDecoded, hNamed], ?_⟩
  rw [hDecoded, AdsState.inlineAssignments, hNamed, List.filterMap_eq_nil_iff]
  intro c hMem
  rw [(hPlain c hMem).2]
  rfl

theorem Current.get_clusters (hDecodes : db.Decodes codec enc) (h : db.Current enc s resp)
    (hApplied : AdsState.Applied codec s resp s' u) (hType : resp.typeUrl = CLUSTER_TYPE) {name : String}
    (hName : name ∈ s.subscription CLUSTER_TYPE) : s'.clusters.get name = db.clusterSnapshot codec name := by
  obtain ⟨order, hOrder, hNamed, _⟩ := h.carriedClusters hDecodes hType
  rw [hApplied.clusters_eq, if_pos hType, hNamed]
  have hGet := get_insertAll_answer s.clusters hOrder (Dxgate.clusterSnapshot codec)
    (fun name c hGet => (db.clustersNamed name c hGet).1) name
  rw [if_pos hName] at hGet
  exact hGet

theorem Current.get_endpoints (hDecodes : db.Decodes codec enc) (h : db.Current enc s resp)
    (hApplied : AdsState.Applied codec s resp s' u) (hType : resp.typeUrl = ENDPOINT_TYPE) {name : String}
    (hName : name ∈ s.subscription ENDPOINT_TYPE) : s'.endpoints.get name = db.assigned name := by
  obtain ⟨order, hOrder, hResources⟩ := h
  rw [hType] at hOrder hResources
  have hDecoded : decoded (decodeResource codec.clusterLoadAssignment ENDPOINT_TYPE)
      (order.filterMap (db.resource enc ENDPOINT_TYPE)) = order.filterMap db.endpoints.get :=
    decoded_eq
      (Runs.forall₂_filterMap (fun name => rel_map_encode ENDPOINT_TYPE (hDecodes.assignment name)) order)
  have hNamed : (order.filterMap db.endpoints.get).filter (·.clusterName ≠ "") =
      order.filterMap db.endpoints.get := by
    refine List.filter_eq_self.mpr ?_
    intro a hMem
    obtain ⟨name, _, hGet⟩ := List.mem_filterMap.mp hMem
    obtain ⟨hName, hNonempty⟩ := db.endpointsNamed name a hGet
    simpa [hName] using hNonempty
  rw [hApplied.endpoints_eq, if_pos hType, AdsState.carriedAssignments, hResources, hDecoded, hNamed]
  have hGet := get_insertAll_answer s.endpoints hOrder endpointsFromAssignment
    (fun name a hGet => (db.endpointsNamed name a hGet).1) name
  rw [if_pos hName] at hGet
  exact hGet

/-- Clusters of the database do not touch the endpoints. -/
theorem Current.endpoints_eq (hDecodes : db.Decodes codec enc) (h : db.Current enc s resp)
    (hApplied : AdsState.Applied codec s resp s' u) (hType : resp.typeUrl ≠ ENDPOINT_TYPE) :
    s'.endpoints = s.endpoints := by
  rw [hApplied.endpoints_eq, if_neg hType]
  split
  · rename_i hCluster
    obtain ⟨_, _, _, hInline⟩ := h.carriedClusters hDecodes hCluster
    rw [hInline]
    rfl
  · rfl

end Stored

/-! ## One type after the other -/

section Stages

variable (names : List String)

/-- The store of the stage's type has what the database has, under the names that the stage needs. -/
def Agrees (s : AdsState) : Nat → Prop
  | 0 => s.listeners = .tabulate names (db.snapshot codec)
  | 1 => ∀ name ∈ db.routeNames codec names, s.routes.get name = db.virtualHosts name
  | 2 => ∀ name ∈ db.clusterNames codec names, s.clusters.get name = db.clusterSnapshot codec name
  | 3 => ∀ name ∈ db.edsNames codec names, s.endpoints.get name = db.assigned name
  | _ => True

/-- The first `k` stages agree with the database, and the names of the next one are followed. -/
structure InSync (k : Nat) (s : AdsState) : Prop where
  asked : s.subscription LISTENER_TYPE = names
  owned : ∀ name ∈ s.listeners.keys, name ∈ names
  agrees : ∀ j < k, db.Agrees codec names s j
  follows : ∀ j ≤ k, ∀ name ∈ db.stageNames codec names j, name ∈ s.subscription (stageType j)

variable {codec enc db names} {s s' : AdsState} {resp : Proto.DiscoveryResponse} {u : DiscoveryUpdates}

theorem agrees_settle {j : Nat} {t : String} :
    db.Agrees codec names (s.settle t) j ↔ db.Agrees codec names s j := by
  unfold Agrees
  simp only [AdsState.settle_listeners, AdsState.settle_routes, AdsState.settle_clusters,
    AdsState.settle_endpoints]

/-- A stage that agrees brings up all the names that the next one needs. -/
theorem Agrees.derived (hSorted : names.Pairwise (· < ·)) {j : Nat} (h : db.Agrees codec names s j)
    {name : String} (hName : name ∈ db.stageNames codec names (j + 1)) :
    name ∈ s.derivedNames (stageType j) := by
  match j with
  | 0 =>
    have h : s.listeners = .tabulate names (db.snapshot codec) := h
    change name ∈ sortedUnique _
    rw [h, SortedMap.values_tabulate hSorted]
    exact hName
  | 1 =>
    have hName : name ∈ db.clusterNames codec names := hName
    obtain ⟨vhosts, hVhosts, hMem⟩ := List.mem_flatMap.mp (mem_sortedUnique.mp hName)
    obtain ⟨route, hRoute, hStored⟩ := List.mem_filterMap.mp hVhosts
    have hGet : s.routes.get route = some vhosts := (h route hRoute).trans hStored
    exact mem_sortedUnique.mpr
      (List.mem_flatMap.mpr ⟨vhosts, SortedMap.mem_values_iff.mpr ⟨route, hGet⟩, hMem⟩)
  | 2 =>
    have hName : name ∈ db.edsNames codec names := hName
    obtain ⟨cluster, hCluster, hEds⟩ := List.mem_map.mp (mem_sortedUnique.mp hName)
    obtain ⟨key, hKey, hStored⟩ := List.mem_filterMap.mp hCluster
    have hGet : s.clusters.get key = some cluster := (h key hKey).trans hStored
    exact mem_sortedUnique.mpr
      (List.mem_map.mpr ⟨cluster, SortedMap.mem_values_iff.mpr ⟨key, hGet⟩, hEds⟩)
  | _ + 3 => cases hName

/-- A response for another type leaves a stage as it is. -/
theorem Agrees.other (hDecodes : db.Decodes codec enc) (hCurrent : db.Current enc s resp)
    (hApplied : AdsState.Applied codec s resp s' u) {j : Nat} (hType : resp.typeUrl ≠ stageType j)
    (h : db.Agrees codec names s j) : db.Agrees codec names s' j := by
  match j with
  | 0 =>
    have hSame : s'.listeners = s.listeners := hApplied.listeners_eq.trans (if_neg hType)
    exact hSame.trans h
  | 1 =>
    have hSame : s'.routes = s.routes := hApplied.routes_eq.trans (if_neg hType)
    intro name hName
    rw [hSame]
    exact h name hName
  | 2 =>
    have hSame : s'.clusters = s.clusters := hApplied.clusters_eq.trans (if_neg hType)
    intro name hName
    rw [hSame]
    exact h name hName
  | 3 =>
    intro name hName
    rw [hCurrent.endpoints_eq hDecodes hApplied hType]
    exact h name hName
  | _ + 4 => trivial

/-- A response with what the database has brings its own stage in agreement. -/
theorem InSync.answered (hDecodes : db.Decodes codec enc) (hRds : db.RdsOnly codec) {k : Nat}
    (hs : db.InSync codec names k s) (hCurrent : db.Current enc s resp)
    (hApplied : AdsState.Applied codec s resp s' u) {j : Nat} (hLe : j ≤ k)
    (hType : resp.typeUrl = stageType j) : db.Agrees codec names s' j := by
  have hFollows := hs.follows j hLe
  match j with
  | 0 =>
    change s'.listeners = _
    ext1 name
    rw [hCurrent.get_listeners hDecodes hRds hApplied hType, hs.asked, SortedMap.get_tabulate]
    split
    · rfl
    · rename_i hMem
      split
      · rfl
      · by_contra hSome
        exact hMem (hs.owned name (SortedMap.mem_keys_iff_isSome.mpr (Option.isSome_iff_ne_none.mpr hSome)))
  | 1 => exact fun name hName => hCurrent.get_routes hDecodes hApplied hType (hFollows name hName)
  | 2 => exact fun name hName => hCurrent.get_clusters hDecodes hApplied hType (hFollows name hName)
  | 3 => exact fun name hName => hCurrent.get_endpoints hDecodes hApplied hType (hFollows name hName)
  | _ + 4 => trivial

theorem InSync.owned_applied (hDecodes : db.Decodes codec enc) (hRds : db.RdsOnly codec) {k : Nat}
    (hs : db.InSync codec names k s) (hCurrent : db.Current enc s resp)
    (hApplied : AdsState.Applied codec s resp s' u) : ∀ name ∈ s'.listeners.keys, name ∈ names := by
  by_cases hType : resp.typeUrl = LISTENER_TYPE
  · intro name hName
    have hAgrees : s'.listeners = _ := hs.answered hDecodes hRds hCurrent hApplied (Nat.zero_le k) hType
    rw [hAgrees, SortedMap.mem_keys_iff_isSome, SortedMap.get_tabulate] at hName
    split at hName
    · assumption
    · cases hName
  · rw [hApplied.listeners_eq, if_neg hType]
    exact hs.owned

/-- No response of the database loses a stage, and the one for the next type gains it. -/
theorem InSync.step (hSorted : names.Pairwise (· < ·)) (hDecodes : db.Decodes codec enc)
    (hRds : db.RdsOnly codec) {k m : Nat} (hs : db.InSync codec names k s) (hCurrent : db.Current enc s resp)
    (hApplied : AdsState.Applied codec s resp s' u)
    (hm : m ≤ k ∨ m = k + 1 ∧ resp.typeUrl = stageType k) :
    db.InSync codec names m (s'.settle resp.typeUrl) := by
  have hAgrees : ∀ j < m, db.Agrees codec names s' j := by
    intro j hj
    by_cases hType : resp.typeUrl = stageType j
    · exact hs.answered hDecodes hRds hCurrent hApplied (by omega) hType
    · refine (hs.agrees j ?_).other hDecodes hCurrent hApplied hType
      rcases hm with hLe | ⟨rfl, hNext⟩
      · omega
      · have hNe : j ≠ k := fun hEq => hType (hEq ▸ hNext)
        omega
  refine ⟨?_, ?_, fun j hj => agrees_settle.mpr (hAgrees j hj), ?_⟩
  · rw [AdsState.subscription_settle_of_ne, hApplied.subscription_eq, hs.asked]
    exact AdsState.nextType_ne_listener _
  · rw [AdsState.settle_listeners]
    exact hs.owned_applied hDecodes hRds hCurrent hApplied
  · intro j hj name hName
    have hStage := stageNames_lt (List.ne_nil_of_mem hName)
    match j with
    | 0 =>
      change name ∈ (s'.settle resp.typeUrl).subscription LISTENER_TYPE
      rw [AdsState.subscription_settle_of_ne (AdsState.nextType_ne_listener _), hApplied.subscription_eq]
      exact hs.follows 0 (Nat.zero_le k) name hName
    | i + 1 =>
      by_cases hType : resp.typeUrl = stageType i
      · rw [hType]
        refine AdsState.mem_subscription_settle ?_ ((hAgrees i (by omega)).derived hSorted hName)
        rw [nextType_stageType, if_pos (by omega)]
      · have hOther : AdsState.nextType resp.typeUrl ≠ some (stageType (i + 1)) := by
          intro hNext
          refine hType (AdsState.nextType_injective hNext ?_)
          rw [nextType_stageType, if_pos (by omega)]
        rw [AdsState.subscription_settle_of_ne hOther, hApplied.subscription_eq]
        refine hs.follows (i + 1) ?_ name hName
        rcases hm with hLe | ⟨rfl, hNext⟩
        · omega
        · have hNe : i ≠ k := fun hEq => hType (hEq ▸ hNext)
          omega

end Stages

/-! ## What the four stages mean -/

section Meaning

variable {codec db} {names : List String} {s : AdsState}

theorem InSync.runtimeListeners (hs : db.InSync codec names 4 s) (hSorted : names.Pairwise (· < ·))
    (hRds : db.RdsOnly codec) (version version' : String) :
    (s.runtimeConfig version).listeners = (db.closure codec names version').listeners := by
  have hListeners : s.listeners = _ := hs.agrees 0 (by omega)
  have hRoutes : ∀ name ∈ db.routeNames codec names, s.routes.get name = db.virtualHosts name :=
    hs.agrees 1 (by omega)
  change s.listeners.values.map s.runtimeListener = _
  rw [hListeners, SortedMap.values_tabulate hSorted]
  refine List.map_congr_left ?_
  intro snapshot hSnapshot
  have hHosts : s.snapshotVirtualHosts snapshot =
      snapshot.routeNames.flatMap fun name => (db.virtualHosts name).getD [] := by
    rw [AdsState.snapshotVirtualHosts, hRds.inline_nil hSnapshot, List.nil_append]
    refine List.flatMap_congr ?_
    intro name hName
    rw [hRoutes name (mem_routeNames hSnapshot hName)]
  rw [AdsState.runtimeListener, closureListener, hHosts]

theorem cluster_runtimeConfig (hKeyed : s.ClustersKeyed) (version name : String) :
    (s.runtimeConfig version).cluster name = (s.clusters.get name).map s.runtimeCluster := by
  rw [RuntimeConfig.cluster, AdsState.runtimeConfig, List.find?_map]
  exact congrArg _ (SortedMap.find?_values (f := ClusterSnapshot.name) hKeyed name)

theorem cluster_closure (version name : String) : (db.closure codec names version).cluster name =
    if name ∈ db.clusterNames codec names then (db.clusterSnapshot codec name).map db.closureCluster
    else none := by
  have hKeyed : ∀ name c, (SortedMap.tabulate (db.clusterNames codec names)
      (db.clusterSnapshot codec)).get name = some c → c.name = name := by
    intro name c hGet
    rw [SortedMap.get_tabulate] at hGet
    split at hGet
    · obtain ⟨stored, hStored, rfl⟩ := Option.map_eq_some_iff.mp hGet
      exact (db.clustersNamed name stored hStored).1
    · cases hGet
  rw [RuntimeConfig.cluster, closure, List.find?_map, ← SortedMap.values_tabulate clusterNames_sorted]
  refine (congrArg _ (SortedMap.find?_values (f := ClusterSnapshot.name) hKeyed name)).trans ?_
  rw [SortedMap.get_tabulate]
  split <;> rfl

theorem InSync.cluster (hs : db.InSync codec names 4 s) (hKeyed : s.ClustersKeyed) (version version' : String)
    {name : String} (hName : name ∈ db.clusterNames codec names) :
    (s.runtimeConfig version).cluster name = (db.closure codec names version').cluster name := by
  have hClusters : ∀ name ∈ db.clusterNames codec names, s.clusters.get name = db.clusterSnapshot codec name :=
    hs.agrees 2 (by omega)
  have hEndpoints : ∀ name ∈ db.edsNames codec names, s.endpoints.get name = db.assigned name :=
    hs.agrees 3 (by omega)
  rw [cluster_runtimeConfig hKeyed, cluster_closure, if_pos hName, hClusters name hName]
  cases hStored : db.clusterSnapshot codec name with
  | none => rfl
  | some cluster =>
    have hEds : cluster.edsServiceName ∈ db.edsNames codec names :=
      mem_sortedUnique.mpr (List.mem_map.mpr ⟨cluster, List.mem_filterMap.mpr ⟨name, hName, hStored⟩, rfl⟩)
    rw [Option.map_some, Option.map_some, AdsState.runtimeCluster, closureCluster, hEndpoints _ hEds]

/-- Every destination of the listeners of a database is one of its cluster names. -/
theorem mem_clusterNames {version : String} {listener : Listener}
    (hListener : listener ∈ (db.closure codec names version).listeners) {vh : VirtualHost}
    (hVh : vh ∈ listener.virtualHosts) {route : Route} (hRoute : route ∈ vh.routes) {dst : WeightedCluster}
    (hDst : dst ∈ route.weightedClusters) : dst.name ∈ db.clusterNames codec names := by
  obtain ⟨snapshot, hSnapshot, rfl⟩ := List.mem_map.mp hListener
  obtain ⟨name, hName, hVh⟩ := List.mem_flatMap.mp hVh
  cases hStored : db.virtualHosts name with
  | none =>
    rw [hStored] at hVh
    cases hVh
  | some vhosts =>
    rw [hStored] at hVh
    refine mem_sortedUnique.mpr (List.mem_flatMap.mpr ⟨vhosts, ?_, ?_⟩)
    · exact List.mem_filterMap.mpr ⟨name, mem_routeNames hSnapshot hName, hStored⟩
    · exact AdsState.mem_routeClusterNames.mpr ⟨vh, hVh, route, hRoute, dst, hDst, rfl⟩

theorem InSync.alike (hs : db.InSync codec names 4 s) (hSorted : names.Pairwise (· < ·))
    (hRds : db.RdsOnly codec) (hKeyed : s.ClustersKeyed) (version version' : String) :
    (s.runtimeConfig version).Alike (db.closure codec names version') := by
  have hListeners := hs.runtimeListeners hSorted hRds version version'
  refine ⟨hListeners, ?_⟩
  intro listener hListener vh hVh route hRoute dst hDst
  rw [hListeners] at hListener
  exact hs.cluster hKeyed version version' (mem_clusterNames hListener hVh hRoute hDst)

theorem InSync.wellFormed (hs : db.InSync codec names 4 s) (hSorted : names.Pairwise (· < ·))
    (hRds : db.RdsOnly codec) (hRegular : s.Regular) (hComplete : db.Complete codec names) (version : String) :
    (s.runtimeConfig version).WellFormed := by
  have hClusters : ∀ name ∈ db.clusterNames codec names, s.clusters.get name = db.clusterSnapshot codec name :=
    hs.agrees 2 (by omega)
  rw [hRegular.wellFormed_iff, hs.runtimeListeners hSorted hRds version version]
  intro listener hListener vh hVh route hRoute dst hDst
  have hName := mem_clusterNames hListener hVh hRoute hDst
  obtain ⟨cluster, hGet⟩ := SortedMap.mem_keys_iff.mp (hComplete dst.name hName)
  refine SortedMap.mem_keys_iff.mpr ⟨Dxgate.clusterSnapshot codec cluster, ?_⟩
  rw [hClusters _ hName, clusterSnapshot, hGet]
  rfl

end Meaning

end Database

/-! ## Streams that are sent the database again -/

/-- The stream has processed `before`, whatever that was, and then responses that each carried what the
database had under the names followed at that time. -/
inductive Resent (codec : Proto.Codec) (enc : Encoder) (db : Database) (cfg : XdsClientConfig)
    (before : List Proto.DiscoveryResponse) : List Proto.DiscoveryResponse → Stream → Prop where
  | start {stream : Stream} (h : Received codec cfg before stream) : Resent codec enc db cfg before [] stream
  | resend {after : List Proto.DiscoveryResponse} {channels : Channels} {st st' : Stream}
      {resp : Proto.DiscoveryResponse} (h : Resent codec enc db cfg before after st)
      (hCurrent : db.Current enc st.ads resp)
      (hRespond : respond codec channels cfg.node st resp = (st', none)) :
      Resent codec enc db cfg before (after ++ [resp]) st'

/-- Every listener that the responses carry was asked for. -/
def ListenersAskedFor (codec : Proto.Codec) (cfg : XdsClientConfig)
    (responses : List Proto.DiscoveryResponse) : Prop :=
  ∀ resp ∈ responses, resp.typeUrl = LISTENER_TYPE →
    ∀ name ∈ AdsState.carriedNames codec resp, name ∈ cfg.listenerNames

section Resent

variable {codec : Proto.Codec} {enc : Encoder} {db : Database} {cfg : XdsClientConfig}
  {before after : List Proto.DiscoveryResponse} {stream : Stream}

theorem Resent.received (h : Resent codec enc db cfg before after stream) :
    Received codec cfg (before ++ after) stream := by
  induction h with
  | start h =>
    rw [List.append_nil]
    exact h
  | resend _ _ hRespond ih =>
    rw [← List.append_assoc]
    exact ih.responded hRespond

theorem resent_concat {resp : Proto.DiscoveryResponse}
    (h : Resent codec enc db cfg before (after ++ [resp]) stream) :
    ∃ st, Resent codec enc db cfg before after st ∧ db.Current enc st.ads resp ∧
      ∃ channels, respond codec channels cfg.node st resp = (stream, none) := by
  generalize hAll : after ++ [resp] = all at h
  cases h with
  | start => exact absurd hAll (by simp)
  | resend hBefore hCurrent hRespond =>
    obtain ⟨rfl, hResp⟩ := List.append_inj' hAll rfl
    cases hResp
    exact ⟨_, hBefore, hCurrent, _, hRespond⟩

theorem Received.regular {responses : List Proto.DiscoveryResponse} (h : Received codec cfg responses stream) :
    stream.ads.Regular := by
  induction h with
  | opened hOpen =>
    obtain ⟨hListeners, hRoutes, hClusters, _⟩ := openStream_stores hOpen
    exact AdsState.default_regular.of_stores hListeners hRoutes hClusters
  | @responded _ _ _ _ resp _ hRespond ih =>
    obtain ⟨ads, u, hApply, _, rfl⟩ := respond_ok hRespond
    have hNext := ih.applyResponse codec resp
    rw [hApply] at hNext
    exact hNext.of_stores (AdsState.settle_listeners _ _) (AdsState.settle_routes _ _)
      (AdsState.settle_clusters _ _)

theorem Received.inSync_zero {responses : List Proto.DiscoveryResponse}
    (h : Received codec cfg responses stream) (hAsked : ListenersAskedFor codec cfg responses) :
    db.InSync codec (sortedUnique cfg.listenerNames) 0 stream.ads := by
  have hBoth : stream.ads.subscription LISTENER_TYPE = sortedUnique cfg.listenerNames ∧
      ∀ name ∈ stream.ads.listeners.keys, name ∈ sortedUnique cfg.listenerNames := by
    induction h with
    | opened hOpen =>
      rw [openStream_ok hOpen]
      refine ⟨?_, nofun⟩
      rw [AdsState.subscription, SortedMap.get_insert, if_pos rfl]
      rfl
    | @responded earlier _ _ _ resp _ hRespond ih =>
      obtain ⟨hSubscribed, hOwned⟩ := ih fun other hOther => hAsked other (List.mem_append_left _ hOther)
      obtain ⟨ads, u, _, hApplied, rfl⟩ := respond_ok hRespond
      refine ⟨?_, ?_⟩
      · rw [AdsState.subscription_settle_of_ne (AdsState.nextType_ne_listener _), hApplied.subscription_eq]
        exact hSubscribed
      · intro name hName
        rw [AdsState.settle_listeners] at hName
        by_cases hType : resp.typeUrl = LISTENER_TYPE
        · have hKeys := (hApplied.mem_storeKeys name).1
          rw [AdsState.storeKeys, AdsState.storeKeys, if_pos hType, if_pos hType] at hKeys
          rcases hKeys hName with hCarried | ⟨hOld, _⟩
          · exact mem_sortedUnique.mpr (hAsked resp (by simp) hType name hCarried)
          · exact hOwned name hOld
        · rw [hApplied.listeners_eq, if_neg hType] at hName
          exact hOwned name hName
  refine ⟨hBoth.1, hBoth.2, fun j hj => absurd hj (Nat.not_lt_zero j), ?_⟩
  intro j hj name hName
  obtain rfl : j = 0 := Nat.le_zero.mp hj
  change name ∈ stream.ads.subscription LISTENER_TYPE
  rw [hBoth.1]
  exact hName

/-- The types, each followed by the one whose names it brings up. -/
def chain : List String := [LISTENER_TYPE, ROUTE_TYPE, CLUSTER_TYPE, ENDPOINT_TYPE]

theorem Resent.inSync (hDecodes : db.Decodes codec enc) (hRds : db.RdsOnly codec)
    (hAsked : ListenersAskedFor codec cfg before) (h : Resent codec enc db cfg before after stream)
    (hOrder : chain.Sublist (after.map (·.typeUrl))) :
    db.InSync codec (sortedUnique cfg.listenerNames) 4 stream.ads := by
  have hSorted := sortedUnique_sorted cfg.listenerNames
  refine Runs.stage_of_sublist
    (fun st resp st' => db.Current enc st.ads resp ∧
      ∃ channels, respond codec channels cfg.node st resp = (st', none))
    (fun after st => Resent codec enc db cfg before after st) (·.typeUrl) chain
    (fun k st => db.InSync codec (sortedUnique cfg.listenerNames) k st.ads) ?_ ?_ ?_ ?_ h hOrder
  · exact fun earlier resp st hAll => resent_concat hAll
  · intro st hStart
    have hReceived := hStart.received
    rw [List.append_nil] at hReceived
    exact hReceived.inSync_zero hAsked
  · rintro k st resp st' hs ⟨hCurrent, channels, hRespond⟩
    obtain ⟨ads, u, _, hApplied, rfl⟩ := respond_ok hRespond
    exact hs.step hSorted hDecodes hRds hCurrent hApplied (.inl le_rfl)
  · rintro k st resp st' hs ⟨hCurrent, channels, hRespond⟩ hType
    obtain ⟨ads, u, _, hApplied, rfl⟩ := respond_ok hRespond
    refine hs.step hSorted hDecodes hRds hCurrent hApplied (.inr ⟨rfl, ?_⟩)
    match k with
    | 0 | 1 | 2 | 3 => exact (Option.some.inj hType).symm
    | _ + 4 => cases hType

end Resent

/-- Whatever a stream has been sent before, listeners nobody asked for apart: when the responses of a database
have come for every type in the order of the chain, in between and afterwards as many more as there may be,
the client routes as the database says. With all clusters in the database, its configuration is valid. -/
theorem resent_database_restores (codec : Proto.Codec) (enc : Encoder) (db : Database) (cfg : XdsClientConfig)
    (hDecodes : db.Decodes codec enc) (hRds : db.RdsOnly codec)
    {before after : List Proto.DiscoveryResponse} {stream : Stream}
    (hAsked : ListenersAskedFor codec cfg before) (h : Resent codec enc db cfg before after stream)
    (hOrder : chain.Sublist (after.map (·.typeUrl))) (version : String) :
    (stream.ads.runtimeConfig version).Alike (db.closure codec (sortedUnique cfg.listenerNames) version) ∧
      (db.Complete codec (sortedUnique cfg.listenerNames) →
        (stream.ads.runtimeConfig version).validate = .ok ()) := by
  have hs := h.inSync hDecodes hRds hAsked hOrder
  have hSorted := sortedUnique_sorted cfg.listenerNames
  have hRegular := h.received.regular
  refine ⟨hs.alike hSorted hRds hRegular.clusters version version, ?_⟩
  intro hComplete
  exact (RuntimeConfig.validate_ok_iff _).mpr (hs.wellFormed hSorted hRds hRegular hComplete version)

/-! ## A route that has moved back -/

/-- What the database has for the names that the stream follows. -/
def resendOf (enc : Encoder) (db : Database) (st : Stream) (typeUrl : String) : Proto.DiscoveryResponse :=
  ⟨"1", (st.ads.subscription typeUrl).filterMap (db.resource enc typeUrl), typeUrl, "n"⟩

def resendAll (codec : Proto.Codec) (enc : Encoder) (db : Database) (node : Proto.Node) :
    Stream → List String → Stream × Option XdsError :=
  Runs.tryFold fun st typeUrl => respond codec .alwaysOpen node st (resendOf enc db st typeUrl)

theorem resendAll_resent {codec : Proto.Codec} {enc : Encoder} {db : Database} {cfg : XdsClientConfig}
    {watch : RuntimeConfig} {before : List Proto.DiscoveryResponse} {cs : ClientState} {st : Stream}
    (hStart : Serves codec .alwaysOpen cfg watch before cs) {types : List String}
    (h : resendAll codec enc db cfg.node cs.stream types = (st, none)) :
    ∃ after, after.map (·.typeUrl) = types ∧ Resent codec enc db cfg before after st ∧
      ∃ cs', Serves codec .alwaysOpen cfg watch (before ++ after) cs' ∧ cs'.stream = st := by
  induction types using List.reverseRecOn generalizing st with
  | nil =>
    cases h
    refine ⟨[], rfl, .start hStart.received, cs, ?_, rfl⟩
    rw [List.append_nil]
    exact hStart
  | append_singleton types typeUrl ih =>
    obtain ⟨mid, hMid, hLast⟩ := Runs.tryFold_concat_ok.mp h
    obtain ⟨after, hTypes, hAfter, hServes⟩ := ih hMid
    refine ⟨after ++ [resendOf enc db mid typeUrl], ?_, hAfter.resend ⟨_, List.Perm.refl _, rfl⟩ hLast, ?_⟩
    · rw [List.map_append, hTypes]
      rfl
    · rw [← List.append_assoc]
      exact (serves_respond fun _ => rfl).mpr ⟨mid, hServes, hLast⟩

/-- The route has gone to another cluster, and that cluster has been sent. -/
def movedAway : List Proto.DiscoveryResponse := [rdsListenerResponse, routeResponse 0x64, clusterResponse 0x64]

def movedAwayClient : ClientState :=
  (runOnce oneOfEachCodec .alwaysOpen sampleClient (.empty "bootstrap") (.opened (movedAway.map .message))).1

theorem movedAway_serves :
    Serves oneOfEachCodec .alwaysOpen sampleClient (.empty "bootstrap") movedAway movedAwayClient :=
  serves_of_ok (by decide +kernel)

theorem movedAway_askedFor : ListenersAskedFor oneOfEachCodec sampleClient movedAway := by
  unfold ListenersAskedFor
  decide +kernel

def movedBack : Stream :=
  (resendAll oneOfEachCodec oneOfEachEncoder oneOfEach sampleClient.node movedAwayClient.stream chain).1

theorem resendAll_movedBack :
    resendAll oneOfEachCodec oneOfEachEncoder oneOfEach sampleClient.node movedAwayClient.stream chain =
      (movedBack, none) :=
  Prod.ext rfl (by decide +kernel)

theorem oneOfEach_complete : oneOfEach.Complete oneOfEachCodec (sortedUnique sampleClient.listenerNames) := by
  unfold Database.Complete
  decide

/-- The cluster of the other route stays behind in the store. -/
theorem movedBack_restored : "d" ∈ movedBack.ads.clusters.keys ∧
    (movedBack.ads.runtimeConfig "1").Alike (oneOfEach.closure oneOfEachCodec ["l"] "1") ∧
    (movedBack.ads.runtimeConfig "1").validate = .ok () := by
  obtain ⟨after, hTypes, hResent, -⟩ := resendAll_resent movedAway_serves resendAll_movedBack
  have hOrder : chain.Sublist (after.map (·.typeUrl)) := by
    rw [hTypes]
  obtain ⟨hAlike, hValid⟩ := resent_database_restores oneOfEachCodec oneOfEachEncoder oneOfEach sampleClient
    oneOfEach_decodes oneOfEach_rdsOnly movedAway_askedFor hResent hOrder "1"
  exact ⟨by decide +kernel, hAlike, hValid oneOfEach_complete⟩

end Dxgate
