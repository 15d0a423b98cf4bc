import Dxgate.Xds.Assembly

/-! # A control plane with a fixed database

What the control plane holds under each name, how it answers a request, and the configuration that the
database means for a list of listener names. The meaning is a direct lookup: listeners, the routes they
name, the clusters those name, the endpoints of these.
-/

namespace Dxgate

set_option autoImplicit false

open Collections

/-- Every resource stands under its own name, and clusters come without endpoints of their own. -/
structure Database where
  listeners : SortedMap String Proto.Listener
  routes : SortedMap String Proto.RouteConfiguration
  clusters : SortedMap String Proto.Cluster
  endpoints : SortedMap String Proto.ClusterLoadAssignment
  listenersNamed : ∀ name l, listeners.get name = some l → l.name = name ∧ name ≠ ""
  routesNamed : ∀ name r, routes.get name = some r → r.name = name ∧ name ≠ ""
  clustersNamed : ∀ name c, clusters.get name = some c →
    c.name = name ∧ name ≠ "" ∧ c.loadAssignment = none
  endpointsNamed : ∀ name a, endpoints.get name = some a → a.clusterName = name ∧ name ≠ ""

structure Encoder where
  listener : Proto.Listener → Proto.Bytes
  routeConfiguration : Proto.RouteConfiguration → Proto.Bytes
  cluster : Proto.Cluster → Proto.Bytes
  clusterLoadAssignment : Proto.ClusterLoadAssignment → Proto.Bytes

namespace Database

variable (codec : Proto.Codec) (enc : Encoder) (db : Database)

/-- The client decodes what the control plane encodes, for the resources of the database. -/
structure Decodes : Prop where
  listener : ∀ name l, db.listeners.get name = some l → codec.listener (enc.listener l) = .ok l
  route : ∀ name r, db.routes.get name = some r →
    codec.routeConfiguration (enc.routeConfiguration r) = .ok r
  cluster : ∀ name c, db.clusters.get name = some c → codec.cluster (enc.cluster c) = .ok c
  assignment : ∀ name a, db.endpoints.get name = some a →
    codec.clusterLoadAssignment (enc.clusterLoadAssignment a) = .ok a

/-- The connection managers of every listener decode and take no inline routes. -/
def RdsOnly : Prop :=
  ∀ name l, db.listeners.get name = some l → ∃ hcms, httpConnectionManagers codec l = .ok hcms ∧
    ∀ hcm ∈ hcms, ∀ config, hcm.routeSpecifier ≠ some (.routeConfig config)

/-! ## Answers -/

def resource (typeUrl name : String) : Option Proto.Any :=
  if typeUrl = LISTENER_TYPE then (db.listeners.get name).map fun l => ⟨LISTENER_TYPE, enc.listener l⟩
  else if typeUrl = ROUTE_TYPE then
    (db.routes.get name).map fun r => ⟨ROUTE_TYPE, enc.routeConfiguration r⟩
  else if typeUrl = CLUSTER_TYPE then (db.clusters.get name).map fun c => ⟨CLUSTER_TYPE, enc.cluster c⟩
  else if typeUrl = ENDPOINT_TYPE then
    (db.endpoints.get name).map fun a => ⟨ENDPOINT_TYPE, enc.clusterLoadAssignment a⟩
  else none

/-- The response carries exactly the requested resources that there are, in any order. Its version or
its nonce tells the acknowledgement from a subscription. -/
structure Answers (request : Proto.DiscoveryRequest) (resp : Proto.DiscoveryResponse) : Prop where
  type : resp.typeUrl = request.typeUrl
  tagged : ¬ (resp.versionInfo = "" ∧ resp.nonce = "")
  resources : ∃ order : List String, order.Perm request.resourceNames ∧
    resp.resources = order.filterMap (db.resource enc request.typeUrl)

/-! ## The meaning of the database -/

def snapshot (name : String) : Option ListenerSnapshot :=
  (db.listeners.get name).bind fun l => (listenerSnapshot codec l).toOption

def virtualHosts (name : String) : Option (List VirtualHost) :=
  (db.routes.get name).map fun r => convertVirtualHosts r.virtualHosts

def clusterSnapshot (name : String) : Option ClusterSnapshot :=
  (db.clusters.get name).map (Dxgate.clusterSnapshot codec)

def assigned (name : String) : Option (List Endpoint) :=
  (db.endpoints.get name).map endpointsFromAssignment

def routeNames (listenerNames : List String) : List String :=
  sortedUnique ((listenerNames.filterMap (db.snapshot codec)).flatMap (·.routeNames))

def clusterNames (listenerNames : List String) : List String :=
  sortedUnique (((db.routeNames codec listenerNames).filterMap db.virtualHosts).flatMap routeClusterNames)

def edsNames (listenerNames : List String) : List String :=
  sortedUnique (((db.clusterNames codec listenerNames).filterMap (db.clusterSnapshot codec)).map
    (·.edsServiceName))

def closureListener (snapshot : ListenerSnapshot) : Listener :=
  { snapshot.listener with
    virtualHosts := snapshot.routeNames.flatMap fun name => (db.virtualHosts name).getD [] }

def closureCluster (snapshot : ClusterSnapshot) : Cluster :=
  ⟨snapshot.name, (db.assigned snapshot.edsServiceName).getD [], snapshot.tls⟩

/-- The configuration that the database means for the sorted listener names. -/
def closure (listenerNames : List String) (version : String) : RuntimeConfig where
  version := version
  listeners := (listenerNames.filterMap (db.snapshot codec)).map db.closureListener
  clusters := ((db.clusterNames codec listenerNames).filterMap (db.clusterSnapshot codec)).map
    db.closureCluster
  secrets := []

/-- Every cluster that the routes name is in the database. -/
def Complete (listenerNames : List String) : Prop :=
  ∀ name ∈ db.clusterNames codec listenerNames, name ∈ db.clusters.keys

/-! ## The stages of a bring-up

A fresh client is answered once for each type. `stage k` is its state after `k` answers.
-/

section Stages

variable (listenerNames : List String)

def stageType : Nat → String
  | 0 => LISTENER_TYPE
  | 1 => ROUTE_TYPE
  | 2 => CLUSTER_TYPE
  | 3 => ENDPOINT_TYPE
  | _ => ""

def stageNames : Nat → List String
  | 0 => listenerNames
  | 1 => db.routeNames codec listenerNames
  | 2 => db.clusterNames codec listenerNames
  | 3 => db.edsNames codec listenerNames
  | _ => []

/-- The store of the stage's type holds what there is under the names of the stage. -/
def fill (s : AdsState) : Nat → AdsState
  | 0 => { s with listeners := .tabulate listenerNames (db.snapshot codec) }
  | 1 => { s with routes := .tabulate (db.routeNames codec listenerNames) db.virtualHosts }
  | 2 => { s with clusters := .tabulate (db.clusterNames codec listenerNames) (db.clusterSnapshot codec) }
  | 3 => { s with endpoints := .tabulate (db.edsNames codec listenerNames) db.assigned }
  | _ => s

def stage : Nat → AdsState
  | 0 => { AdsState.default with subscriptions := SortedMap.empty.insert LISTENER_TYPE listenerNames }
  | k + 1 => (db.fill codec listenerNames (stage k) k).settle (stageType k)

variable {codec enc db listenerNames}

theorem routeNames_sorted : (db.routeNames codec listenerNames).Pairwise (· < ·) := sortedUnique_sorted _

theorem clusterNames_sorted : (db.clusterNames codec listenerNames).Pairwise (· < ·) :=
  sortedUnique_sorted _

theorem stageNames_lt {k : Nat} (h : db.stageNames codec listenerNames k ≠ []) : k < 4 := by
  by_contra hLate
  obtain ⟨d, rfl⟩ := Nat.exists_eq_add_of_le' (Nat.le_of_not_lt hLate)
  exact h rfl

theorem derivedNames_fill (hSorted : listenerNames.Pairwise (· < ·)) (s : AdsState) (k : Nat) :
    (db.fill codec listenerNames s k).derivedNames (stageType k) =
      db.stageNames codec listenerNames (k + 1) := by
  match k with
  | 0 =>
    change sortedUnique _ = sortedUnique _
    rw [fill, SortedMap.values_tabulate hSorted]
  | 1 =>
    change sortedUnique _ = sortedUnique _
    rw [fill, SortedMap.values_tabulate routeNames_sorted]
  | 2 =>
    change sortedUnique _ = sortedUnique _
    rw [fill, SortedMap.values_tabulate clusterNames_sorted]
  | 3 => rfl
  | _ + 4 => rfl

theorem settle_fill (hSorted : listenerNames.Pairwise (· < ·)) {k : Nat}
    (hNone : db.stageNames codec listenerNames (k + 1) = []) (s : AdsState) :
    (db.fill codec listenerNames s k).settle (stageType k) = db.fill codec listenerNames s k := by
  rw [AdsState.settle, derivedNames_fill hSorted, hNone]
  split <;> simp

theorem stageNames_succ_nil {k : Nat} (hStage : 0 < k) (hNone : db.stageNames codec listenerNames k = []) :
    db.stageNames codec listenerNames (k + 1) = [] := by
  rcases k with _ | _ | _ | k
  · omega
  · have hNone : db.routeNames codec listenerNames = [] := hNone
    change db.clusterNames codec listenerNames = []
    rw [clusterNames, hNone]
    rfl
  · have hNone : db.clusterNames codec listenerNames = [] := hNone
    change db.edsNames codec listenerNames = []
    rw [edsNames, hNone]
    rfl
  · rfl

theorem stage_routes : (db.stage codec listenerNames 1).routes = .empty := by
  simp only [stage, AdsState.settle_routes, fill]
  rfl

theorem stage_clusters : (db.stage codec listenerNames 2).clusters = .empty := by
  simp only [stage, AdsState.settle_clusters, fill]
  rfl

theorem stage_endpoints {k : Nat} (h : k < 4) : (db.stage codec listenerNames k).endpoints = .empty := by
  match k with
  | 0 | 1 | 2 | 3 =>
    simp only [stage, AdsState.settle_endpoints, fill]
    rfl

theorem stage_succ_eq (hSorted : listenerNames.Pairwise (· < ·)) {k : Nat} (hStage : 0 < k)
    (hNone : db.stageNames codec listenerNames k = []) :
    db.stage codec listenerNames (k + 1) = db.stage codec listenerNames k := by
  rw [stage, settle_fill hSorted (stageNames_succ_nil hStage hNone)]
  rcases k with _ | _ | _ | _ | k
  · omega
  · have hNone : db.routeNames codec listenerNames = [] := hNone
    rw [fill, hNone, SortedMap.tabulate_nil, ← stage_routes]
  · have hNone : db.clusterNames codec listenerNames = [] := hNone
    rw [fill, hNone, SortedMap.tabulate_nil, ← stage_clusters]
  · have hNone : db.edsNames codec listenerNames = [] := hNone
    rw [fill, hNone, SortedMap.tabulate_nil, ← stage_endpoints (by omega : 3 < 4)]
  · rfl

/-- Once there are no names left, the last stage is reached. -/
theorem stage_eq_last (hSorted : listenerNames.Pairwise (· < ·)) {k : Nat} (hStage : 0 < k) (hLast : k ≤ 4)
    (hNone : db.stageNames codec listenerNames k = []) :
    db.stage codec listenerNames k = db.stage codec listenerNames 4 := by
  obtain ⟨d, hd⟩ := Nat.exists_eq_add_of_le hLast
  -- by induction on the stages still to come: none of them has names, so none of them changes anything
  have hAll : ∀ d, db.stage codec listenerNames (k + d) = db.stage codec listenerNames k ∧
      db.stageNames codec listenerNames (k + d) = [] := by
    intro d
    induction d with
    | zero => exact ⟨rfl, hNone⟩
    | succ d ih =>
      have hPos : 0 < k + d := by omega
      exact ⟨(stage_succ_eq hSorted hPos ih.2).trans ih.1, stageNames_succ_nil hPos ih.2⟩
  rw [hd]
  exact (hAll d).1.symm

theorem nextType_stageType (k : Nat) :
    AdsState.nextType (stageType k) = if k < 3 then some (stageType (k + 1)) else none := by
  match k with
  | 0 | 1 | 2 | 3 => decide
  | _ + 4 =>
    rw [if_neg (by omega)]
    exact (by decide : AdsState.nextType "" = none)

theorem stageType_ne {j k : Nat} (hlt : j < k) (hk : k < 4) : stageType j ≠ stageType k := by
  have hAll : ∀ k < 4, ∀ j < k, stageType j ≠ stageType k := by decide
  exact hAll k hk j hlt

theorem subscriptions_fill (s : AdsState) (k : Nat) :
    (db.fill codec listenerNames s k).subscriptions = s.subscriptions := by
  unfold fill
  split <;> rfl

theorem subscription_fill (s : AdsState) (k : Nat) (typeUrl : String) :
    (db.fill codec listenerNames s k).subscription typeUrl = s.subscription typeUrl := by
  rw [AdsState.subscription, subscriptions_fill, AdsState.subscription]

theorem stage_subscription_later {k j : Nat} (hlt : k < j) (hj : j < 4) :
    (db.stage codec listenerNames k).subscription (stageType j) = [] := by
  induction k with
  | zero =>
    have hNe : stageType j ≠ LISTENER_TYPE := (stageType_ne hlt hj).symm
    rw [stage, AdsState.subscription, SortedMap.get_insert, if_neg hNe]
    rfl
  | succ k ih =>
    have hNe : AdsState.nextType (stageType k) ≠ some (stageType j) := by
      rw [nextType_stageType]
      split
      · exact fun hEq => stageType_ne hlt hj (Option.some.inj hEq)
      · exact fun hEq => by cases hEq
    rw [stage, AdsState.subscription_settle_of_ne hNe, subscription_fill]
    exact ih (by omega)

def stageRequests (codec : Proto.Codec) (db : Database) (listenerNames : List String) (node : Proto.Node)
    (k : Nat) : List Proto.DiscoveryRequest :=
  if db.stageNames codec listenerNames k ≠ [] then
    [discoveryRequest node (stageType k) (db.stageNames codec listenerNames k) "" ""]
  else []

theorem followRequests_fill (hSorted : listenerNames.Pairwise (· < ·)) (node : Proto.Node) (k : Nat) :
    (db.fill codec listenerNames (db.stage codec listenerNames k) k).followRequests node (stageType k) =
      db.stageRequests codec listenerNames node (k + 1) := by
  rw [AdsState.followRequests, nextType_stageType, derivedNames_fill hSorted, stageRequests]
  by_cases hk : k < 3
  · rw [if_pos hk]
    dsimp only
    rw [subscription_fill, stage_subscription_later (by omega) (by omega)]
    refine if_congr ?_ rfl rfl
    exact ⟨fun h => h.1, fun h => ⟨h, Ne.symm h⟩⟩
  · rw [if_neg hk, if_neg]
    exact fun hNames => hk (by have := stageNames_lt hNames; omega)

end Stages

/-! ## What an answer does at its stage -/

section Applying

variable {codec enc db}

theorem RdsOnly.snapshot (hRds : db.RdsOnly codec) {name : String} {l : Proto.Listener}
    (h : db.listeners.get name = some l) :
    ∃ snapshot, listenerSnapshot codec l = .ok snapshot ∧ db.snapshot codec name = some snapshot ∧
      snapshot.listener.name = name ∧ snapshot.inlineVirtualHosts = [] := by
  obtain ⟨hcms, hHcms, hNoInline⟩ := hRds name l h
  cases hSnapshot : listenerSnapshot codec l with
  | error err =>
    rw [listenerSnapshot, hHcms] at hSnapshot
    cases hSnapshot
  | ok snapshot =>
    refine ⟨snapshot, rfl, ?_, ?_, ?_⟩
    · rw [Database.snapshot, h, Option.bind_some, hSnapshot]
      rfl
    · obtain ⟨_, _, rfl⟩ := listenerSnapshot_ok hSnapshot
      exact (db.listenersNamed name l h).1
    · obtain ⟨decoded, hDecoded, rfl⟩ := listenerSnapshot_ok hSnapshot
      rw [hHcms] at hDecoded
      cases hDecoded
      refine List.flatMap_eq_nil_iff.mpr ?_
      intro hcm hMem
      rw [inlineVirtualHosts]
      split
      · rename_i config hConfig
        exact absurd hConfig (hNoInline hcm hMem config)
      · rfl

theorem insertAll_named {T V : Type} {stored : SortedMap String V} (hEmpty : stored = .empty)
    (requested : List String) {order names : List String} (hOrder : order.Perm names)
    {g : String → Option T} {key : T → String} (val : T → V)
    (hKey : ∀ name value, g name = some value → key value = name) :
    (pruneRequested stored requested).insertAll
      ((order.filterMap g).map fun value => (key value, val value)) =
        .tabulate names fun name => (g name).map val := by
  have hPruned : pruneRequested stored requested = .empty := by
    ext1 name
    rw [get_pruneRequested, hEmpty]
    split <;> rfl
  have hPairs : (order.filterMap g).map (fun value => (key value, val value)) =
      order.filterMap fun name => ((g name).map val).map fun v => (name, v) := by
    rw [List.map_filterMap]
    refine List.filterMap_congr fun name _ => ?_
    cases hValue : g name with
    | none => rfl
    | some value => rw [Option.map_some, Option.map_some, Option.map_some, hKey name value hValue]
  rw [hPruned, hPairs, ← SortedMap.tabulate_congr (fun _ => hOrder.mem_iff), SortedMap.tabulate]

theorem Answers.decoded {T : Type} {decode : Proto.Any → Except XdsError T} {g : String → Option T}
    {node : Proto.Node} {typeUrl : String} {names : List String} {resp : Proto.DiscoveryResponse}
    (h : db.Answers enc (discoveryRequest node typeUrl names "" "") resp)
    (hDecode : ∀ name, Option.Rel (fun r v => decode r = .ok v) (db.resource enc typeUrl name) (g name)) :
    resp.typeUrl = typeUrl ∧ ∃ order : List String, order.Perm names ∧
      List.Forall₂ (fun r v => decode r = .ok v) resp.resources (order.filterMap g) := by
  obtain ⟨order, hOrder, hResources⟩ := h.resources
  refine ⟨h.type, order, hOrder, ?_⟩
  rw [hResources]
  exact Runs.forall₂_filterMap hDecode order

theorem rel_map_encode {M : Type} {decode : Proto.Bytes → Except Proto.DecodeError M}
    {encode : M → Proto.Bytes} (typeUrl : String) {stored : Option M}
    (h : ∀ m, stored = some m → decode (encode m) = .ok m) :
    Option.Rel (fun r v => decodeResource decode typeUrl r = .ok v)
      (stored.map fun m => ⟨typeUrl, encode m⟩) stored := by
  cases stored with
  | none => exact .none
  | some m =>
    refine .some ?_
    rw [decodeResource, h m rfl]
    rfl

variable {node : Proto.Node} {names : List String} {resp : Proto.DiscoveryResponse} {s : AdsState}

theorem applied_listeners (hDecodes : db.Decodes codec enc) (hRds : db.RdsOnly codec)
    (hEmpty : s.listeners = .empty)
    (h : db.Answers enc (discoveryRequest node LISTENER_TYPE names "" "") resp) :
    ∃ u, s.applyResponse codec resp = (db.fill codec names s 0, .ok u) := by
  have hDecode : ∀ name, Option.Rel (fun r v => AdsState.decodeListener codec r = .ok v)
      (db.resource enc LISTENER_TYPE name) (db.snapshot codec name) := by
    intro name
    rw [resource, if_pos rfl]
    cases hGet : db.listeners.get name with
    | none =>
      rw [snapshot, hGet]
      exact .none
    | some l =>
      obtain ⟨value, hValue, hSnapshot, _⟩ := hRds.snapshot hGet
      rw [hSnapshot]
      refine .some ?_
      rw [AdsState.decodeListener, decodeResource, hDecodes.listener name l hGet]
      exact hValue
  have hKey : ∀ name value, db.snapshot codec name = some value → value.listener.name = name := by
    intro name value hValue
    obtain ⟨l, hGet, _⟩ := Option.bind_eq_some_iff.mp hValue
    obtain ⟨stored, _, hSnapshot, hName, _⟩ := hRds.snapshot hGet
    rw [hSnapshot] at hValue
    cases hValue
    exact hName
  obtain ⟨hType, order, hOrder, hDecoded⟩ := h.decoded hDecode
  have hStore := insertAll_named hEmpty (s.subscription LISTENER_TYPE) hOrder (fun l => l) hKey
  simp only [Option.map_id'] at hStore
  have hFill : (order.filterMap (db.snapshot codec)).foldl AdsState.putListener
      { s with listeners := pruneRequested s.listeners (s.subscription LISTENER_TYPE) } =
        db.fill codec names s 0 :=
    (AdsState.foldl_putListener _ _).trans (congrArg (fun l => { s with listeners := l }) hStore)
  rw [s.applyResponse_listeners hType, AdsState.applyListeners, AdsState.applyWith_decoded hDecoded, hFill]
  exact ⟨_, rfl⟩

theorem applied_routes (hDecodes : db.Decodes codec enc) (hEmpty : s.routes = .empty)
    (h : db.Answers enc (discoveryRequest node ROUTE_TYPE (db.routeNames codec names) "" "") resp) :
    ∃ u, s.applyResponse codec resp = (db.fill codec names s 1, .ok u) := by
  obtain ⟨hType, order, hOrder, hDecoded⟩ :=
    h.decoded (fun name => rel_map_encode ROUTE_TYPE (hDecodes.route name))
  have hStore := insertAll_named hEmpty (s.subscription ROUTE_TYPE) hOrder
    (fun r => convertVirtualHosts r.virtualHosts) (fun name r hGet => (db.routesNamed name r hGet).1)
  have hFill : (order.filterMap db.routes.get).foldl AdsState.putRoute
      { s with routes := pruneRequested s.routes (s.subscription ROUTE_TYPE) } = db.fill codec names s 1 :=
    (AdsState.foldl_putRoute _ _).trans (congrArg (fun r => { s with routes := r }) hStore)
  rw [s.applyResponse_routes hType, AdsState.applyRoutes, AdsState.applyWith_decoded hDecoded, hFill]
  exact ⟨_, rfl⟩

theorem applied_clusters (hDecodes : db.Decodes codec enc) (hEmpty : s.clusters = .empty)
    (h : db.Answers enc (discoveryRequest node CLUSTER_TYPE (db.clusterNames codec names) "" "") resp) :
    ∃ u, s.applyResponse codec resp = (db.fill codec names s 2, .ok u) := by
  obtain ⟨hType, order, hOrder, hDecoded⟩ :=
    h.decoded (fun name => rel_map_encode CLUSTER_TYPE (hDecodes.cluster name))
  have hPlain : ∀ c ∈ order.filterMap db.clusters.get, c.name ≠ "" ∧ c.loadAssignment = none := by
    intro c hMem
    obtain ⟨name, _, hGet⟩ := List.mem_filterMap.mp hMem
    obtain ⟨hName, hNonempty, hLoad⟩ := db.clustersNamed name c hGet
    exact ⟨hName ▸ hNonempty, hLoad⟩
  have hNamed : AdsState.named (order.filterMap db.clusters.get) = order.filterMap db.clusters.get :=
    List.filter_eq_self.mpr fun c hMem => by simpa using (hPlain c hMem).1
  have hInline : AdsState.inlineAssignments (order.filterMap db.clusters.get) = [] := by
    rw [AdsState.inlineAssignments, hNamed, List.filterMap_eq_nil_iff]
    intro c hMem
    rw [(hPlain c hMem).2]
    rfl
  have hStore := insertAll_named hEmpty (s.subscription CLUSTER_TYPE) hOrder (Dxgate.clusterSnapshot codec)
    (fun name c hGet => (db.clustersNamed name c hGet).1)
  have hFill : (order.filterMap db.clusters.get).foldl (AdsState.putCluster codec)
      { s with clusters := pruneRequested s.clusters (s.subscription CLUSTER_TYPE) } =
        db.fill codec names s 2 := by
    rw [AdsState.foldl_putCluster, hNamed, hInline]
    exact congrArg (fun c => { s with clusters := c }) hStore
  rw [s.applyResponse_clusters hType, AdsState.applyClusters, AdsState.applyWith_decoded hDecoded, hFill]
  exact ⟨_, rfl⟩

theorem applied_endpoints (hDecodes : db.Decodes codec enc) (hEmpty : s.endpoints = .empty)
    (h : db.Answers enc (discoveryRequest node ENDPOINT_TYPE (db.edsNames codec names) "" "") resp) :
    ∃ u, s.applyResponse codec resp = (db.fill codec names s 3, .ok u) := by
  obtain ⟨hType, order, hOrder, hDecoded⟩ :=
    h.decoded (fun name => rel_map_encode ENDPOINT_TYPE (hDecodes.assignment name))
  have hNamed : (order.filterMap db.endpoints.get).filter (·.clusterName ≠ "") =
      order.filterMap db.endpoints.get := by
    refine List.filter_eq_self.mpr ?_
    intro a hMem
    obtain ⟨name, _, hGet⟩ := List.mem_filterMap.mp hMem
    obtain ⟨hName, hNonempty⟩ := db.endpointsNamed name a hGet
    simpa [hName] using hNonempty
  have hStore := insertAll_named hEmpty (s.subscription ENDPOINT_TYPE) hOrder endpointsFromAssignment
    (fun name a hGet => (db.endpointsNamed name a hGet).1)
  have hFill : (order.filterMap db.endpoints.get).foldl AdsState.putAssignment
      { s with endpoints := pruneRequested s.endpoints (s.subscription ENDPOINT_TYPE) } =
        db.fill codec names s 3 := by
    rw [AdsState.foldl_putAssignment, hNamed]
    exact congrArg (fun e => { s with endpoints := e }) hStore
  rw [s.applyResponse_endpoints hType, AdsState.applyEndpoints, AdsState.applyWith_decoded hDecoded, hFill]
  exact ⟨_, rfl⟩

/-- The answer to the request of a stage is accepted and fills the store of its type. -/
theorem Answers.applied (hDecodes : db.Decodes codec enc) (hRds : db.RdsOnly codec) {k : Nat} (hStage : k < 4)
    (h : db.Answers enc (discoveryRequest node (stageType k) (db.stageNames codec names k) "" "") resp) :
    ∃ u, (db.stage codec names k).applyResponse codec resp =
      (db.fill codec names (db.stage codec names k) k, .ok u) := by
  rcases k with _ | _ | _ | _ | k
  · exact applied_listeners hDecodes hRds rfl h
  · exact applied_routes hDecodes stage_routes h
  · exact applied_clusters hDecodes stage_clusters h
  · exact applied_endpoints hDecodes (stage_endpoints hStage) h
  · omega

end Applying

/-! ## The last stage holds the meaning of the database -/

section Meaning

/-- The stores hold what the database has for the listener names, and nothing else. -/
structure Holds (listenerNames : List String) (s : AdsState) : Prop where
  listeners : s.listeners = .tabulate listenerNames (db.snapshot codec)
  routes : s.routes = .tabulate (db.routeNames codec listenerNames) db.virtualHosts
  clusters : s.clusters = .tabulate (db.clusterNames codec listenerNames) (db.clusterSnapshot codec)
  endpoints : s.endpoints = .tabulate (db.edsNames codec listenerNames) db.assigned

variable {codec db} {listenerNames : List String}

theorem stage_holds : db.Holds codec listenerNames (db.stage codec listenerNames 4) := by
  constructor
  · simp only [stage, AdsState.settle_listeners, fill]
  · simp only [stage, AdsState.settle_routes, fill]
  · simp only [stage, AdsState.settle_clusters, fill]
  · simp only [stage, AdsState.settle_endpoints, fill]

theorem mem_routeNames {name : String} {snapshot : ListenerSnapshot}
    (hSnapshot : snapshot ∈ listenerNames.filterMap (db.snapshot codec)) (hName : name ∈ snapshot.routeNames) :
    name ∈ db.routeNames codec listenerNames :=
  mem_sortedUnique.mpr (List.mem_flatMap.mpr ⟨snapshot, hSnapshot, hName⟩)

theorem RdsOnly.inline_nil (hRds : db.RdsOnly codec) {snapshot : ListenerSnapshot}
    (h : snapshot ∈ listenerNames.filterMap (db.snapshot codec)) : snapshot.inlineVirtualHosts = [] := by
  obtain ⟨name, _, hValue⟩ := List.mem_filterMap.mp h
  obtain ⟨l, hGet, _⟩ := Option.bind_eq_some_iff.mp hValue
  obtain ⟨stored, _, hSnapshot, _, hInline⟩ := hRds.snapshot hGet
  rw [hSnapshot] at hValue
  cases hValue
  exact hInline

variable {s : AdsState}

theorem Holds.runtimeListeners (h : db.Holds codec listenerNames s) (hSorted : listenerNames.Pairwise (· < ·))
    (hRds : db.RdsOnly codec) : s.listeners.values.map s.runtimeListener =
      (listenerNames.filterMap (db.snapshot codec)).map db.closureListener := by
  rw [h.listeners, SortedMap.values_tabulate hSorted]
  refine List.map_congr_left ?_
  intro snapshot hSnapshot
  have hHosts : s.snapshotVirtualHosts snapshot =
      snapshot.routeNames.flatMap fun name => (db.virtualHosts name).getD [] := by
    rw [AdsState.snapshotVirtualHosts, hRds.inline_nil hSnapshot, List.nil_append, h.routes]
    refine List.flatMap_congr ?_
    intro name hName
    rw [SortedMap.get_tabulate, if_pos (mem_routeNames hSnapshot hName)]
  rw [AdsState.runtimeListener, closureListener, hHosts]

theorem Holds.runtimeClusters (h : db.Holds codec listenerNames s) : s.clusters.values.map s.runtimeCluster =
    ((db.clusterNames codec listenerNames).filterMap (db.clusterSnapshot codec)).map db.closureCluster := by
  rw [h.clusters, SortedMap.values_tabulate clusterNames_sorted]
  refine List.map_congr_left ?_
  intro cluster hCluster
  have hName : cluster.edsServiceName ∈ db.edsNames codec listenerNames :=
    mem_sortedUnique.mpr (List.mem_map.mpr ⟨cluster, hCluster, rfl⟩)
  rw [AdsState.runtimeCluster, closureCluster, h.endpoints, SortedMap.get_tabulate, if_pos hName]

theorem Holds.runtimeConfig (h : db.Holds codec listenerNames s) (hSorted : listenerNames.Pairwise (· < ·))
    (hRds : db.RdsOnly codec) (version : String) : s.runtimeConfig version =
      db.closure codec listenerNames (if version = "" then "ads" else version) := by
  rw [AdsState.runtimeConfig, closure, h.runtimeListeners hSorted hRds, h.runtimeClusters]

theorem Holds.wellFormed (h : db.Holds codec listenerNames s) (hSorted : listenerNames.Pairwise (· < ·))
    (hRds : db.RdsOnly codec) (hRegular : s.Regular) (hComplete : db.Complete codec listenerNames)
    (version : String) : (s.runtimeConfig version).WellFormed := by
  rw [hRegular.wellFormed_iff, h.runtimeConfig hSorted hRds]
  intro listener hListener vh hVh route hRoute dst hDst
  obtain ⟨snapshot, hSnapshot, rfl⟩ := List.mem_map.mp hListener
  obtain ⟨name, hName, hVh⟩ := List.mem_flatMap.mp hVh
  cases hStored : db.virtualHosts name with
  | none =>
    rw [hStored] at hVh
    cases hVh
  | some vhosts =>
    rw [hStored] at hVh
    have hCluster : dst.name ∈ db.clusterNames codec listenerNames := by
      refine mem_sortedUnique.mpr (List.mem_flatMap.mpr ⟨vhosts, ?_, ?_⟩)
      · exact List.mem_filterMap.mpr ⟨name, mem_routeNames hSnapshot hName, hStored⟩
      · exact AdsState.mem_routeClusterNames.mpr ⟨vh, hVh, route, hRoute, dst, hDst, rfl⟩
    obtain ⟨cluster, hGet⟩ := SortedMap.mem_keys_iff.mp (hComplete dst.name hCluster)
    rw [h.clusters]
    refine SortedMap.mem_keys_iff.mpr ⟨Dxgate.clusterSnapshot codec cluster, ?_⟩
    rw [SortedMap.get_tabulate, if_pos hCluster, clusterSnapshot, hGet]
    rfl

end Meaning

end Database

end Dxgate
