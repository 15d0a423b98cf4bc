import Dxgate.Lib.Runs
import Dxgate.Xds.Convert

/-! # The state of one discovery stream

Four stores of resources and the subscribed names of each type. A response first removes the
subscribed names of its type and then inserts what it carries; when a resource does not decode the
stores keep whatever was already changed.
-/

namespace Dxgate

set_option autoImplicit false

open Collections

structure AdsState where
  subscriptions : SortedMap String (List String)
  listeners : SortedMap String ListenerSnapshot
  routes : SortedMap String (List VirtualHost)
  clusters : SortedMap String ClusterSnapshot
  endpoints : SortedMap String (List Endpoint)
  deriving DecidableEq

/-- Names that a response asks the client to follow, by the type they belong to. -/
structure DiscoveryUpdates where
  routeNames : List String := []
  clusterNames : List String := []
  edsNames : List String := []
  deriving DecidableEq

def DiscoveryUpdates.subscriptions (updates : DiscoveryUpdates) : List (String × List String) :=
  (if updates.routeNames ≠ [] then [(ROUTE_TYPE, updates.routeNames)] else []) ++
    (if updates.clusterNames ≠ [] then [(CLUSTER_TYPE, updates.clusterNames)] else []) ++
    (if updates.edsNames ≠ [] then [(ENDPOINT_TYPE, updates.edsNames)] else [])

def pruneRequested {T : Type} (resources : SortedMap String T) (requested : List String) :
    SortedMap String T :=
  if requested = [] then .empty else resources.removeAll requested

def routeClusterNames (vhosts : List VirtualHost) : List String :=
  vhosts.flatMap fun vh => vh.routes.flatMap fun route => route.weightedClusters.map (·.name)

namespace AdsState

def default : AdsState := ⟨.empty, .empty, .empty, .empty, .empty⟩

instance : Inhabited AdsState := ⟨default⟩

def subscription (s : AdsState) (typeUrl : String) : List String :=
  (s.subscriptions.get typeUrl).getD []

/-- Stores the sorted names and tells whether they differ from the stored ones. -/
def setSubscription (s : AdsState) (typeUrl : String) (names : List String) : AdsState × Bool :=
  if s.subscriptions.get typeUrl = some (sortedUnique names) then (s, false)
  else ({ s with subscriptions := s.subscriptions.insert typeUrl (sortedUnique names) }, true)

def routeNames (s : AdsState) : List String :=
  sortedUnique (s.listeners.values.flatMap (·.routeNames))

def clusterNames (s : AdsState) : List String :=
  sortedUnique (s.routes.values.flatMap routeClusterNames)

def edsNames (s : AdsState) : List String :=
  sortedUnique (s.clusters.values.map (·.edsServiceName))

/-! ## Applying a response -/

def storeResource {T : Type} (decode : Proto.Any → Except XdsError T) (put : AdsState → T → AdsState)
    (s : AdsState) (resource : Proto.Any) : AdsState × Option XdsError :=
  match decode resource with
  | .error err => (s, some err)
  | .ok value => (put s value, none)

/-- One pass over the resources of a response: decode, store, stop at the first failure. -/
def applyWith {T : Type} (decode : Proto.Any → Except XdsError T) (put : AdsState → T → AdsState)
    (updates : AdsState → DiscoveryUpdates) (s : AdsState) (resources : List Proto.Any) :
    AdsState × Except XdsError DiscoveryUpdates :=
  match Runs.tryFold (storeResource decode put) s resources with
  | (s', some err) => (s', .error err)
  | (s', none) => (s', .ok (updates s'))

def decodeListener (codec : Proto.Codec) (resource : Proto.Any) : Except XdsError ListenerSnapshot := do
  listenerSnapshot codec (← decodeResource codec.listener LISTENER_TYPE resource)

def putListener (s : AdsState) (snapshot : ListenerSnapshot) : AdsState :=
  { s with listeners := s.listeners.insert snapshot.listener.name snapshot }

def applyListeners (codec : Proto.Codec) (s : AdsState) (resources : List Proto.Any) :
    AdsState × Except XdsError DiscoveryUpdates :=
  applyWith (decodeListener codec) putListener (fun s => { routeNames := s.routeNames })
    { s with listeners := pruneRequested s.listeners (s.subscription LISTENER_TYPE) } resources

def putRoute (s : AdsState) (route : Proto.RouteConfiguration) : AdsState :=
  { s with routes := s.routes.insert route.name (convertVirtualHosts route.virtualHosts) }

def applyRoutes (codec : Proto.Codec) (s : AdsState) (resources : List Proto.Any) :
    AdsState × Except XdsError DiscoveryUpdates :=
  applyWith (decodeResource codec.routeConfiguration ROUTE_TYPE) putRoute
    (fun s => { clusterNames := s.clusterNames })
    { s with routes := pruneRequested s.routes (s.subscription ROUTE_TYPE) } resources

/-- An inline load assignment goes to the endpoint store under the EDS service name. -/
def putCluster (codec : Proto.Codec) (s : AdsState) (cluster : Proto.Cluster) : AdsState :=
  if cluster.name = "" then s
  else
    let endpoints := match cluster.loadAssignment with
      | some assignment => s.endpoints.insert (edsServiceName cluster) (endpointsFromAssignment assignment)
      | none => s.endpoints
    { s with
      endpoints := endpoints
      clusters := s.clusters.insert cluster.name (clusterSnapshot codec cluster) }

def applyClusters (codec : Proto.Codec) (s : AdsState) (resources : List Proto.Any) :
    AdsState × Except XdsError DiscoveryUpdates :=
  applyWith (decodeResource codec.cluster CLUSTER_TYPE) (putCluster codec)
    (fun s => { edsNames := s.edsNames })
    { s with clusters := pruneRequested s.clusters (s.subscription CLUSTER_TYPE) } resources

def putAssignment (s : AdsState) (assignment : Proto.ClusterLoadAssignment) : AdsState :=
  if assignment.clusterName = "" then s
  else { s with
    endpoints := s.endpoints.insert assignment.clusterName (endpointsFromAssignment assignment) }

def applyEndpoints (codec : Proto.Codec) (s : AdsState) (resources : List Proto.Any) :
    AdsState × Except XdsError DiscoveryUpdates :=
  applyWith (decodeResource codec.clusterLoadAssignment ENDPOINT_TYPE) putAssignment (fun _ => {})
    { s with endpoints := pruneRequested s.endpoints (s.subscription ENDPOINT_TYPE) } resources

def applyResponse (codec : Proto.Codec) (s : AdsState) (resp : Proto.DiscoveryResponse) :
    AdsState × Except XdsError DiscoveryUpdates :=
  if resp.typeUrl = LISTENER_TYPE then s.applyListeners codec resp.resources
  else if resp.typeUrl = ROUTE_TYPE then s.applyRoutes codec resp.resources
  else if resp.typeUrl = CLUSTER_TYPE then s.applyClusters codec resp.resources
  else if resp.typeUrl = ENDPOINT_TYPE then s.applyEndpoints codec resp.resources
  else (s, .ok {})

/-! ## The configuration of a state -/

/-- Route names that are not stored contribute nothing. -/
def snapshotVirtualHosts (s : AdsState) (snapshot : ListenerSnapshot) : List VirtualHost :=
  snapshot.inlineVirtualHosts ++ snapshot.routeNames.flatMap fun name => (s.routes.get name).getD []

def runtimeListener (s : AdsState) (snapshot : ListenerSnapshot) : Listener :=
  { snapshot.listener with virtualHosts := s.snapshotVirtualHosts snapshot }

def runtimeCluster (s : AdsState) (cluster : ClusterSnapshot) : Cluster where
  name := cluster.name
  endpoints := (s.endpoints.get cluster.edsServiceName).getD []
  tls := cluster.tls

def runtimeConfig (s : AdsState) (version : String) : RuntimeConfig where
  version := if version = "" then "ads" else version
  listeners := s.listeners.values.map s.runtimeListener
  clusters := s.clusters.values.map s.runtimeCluster
  secrets := []

/-! ## What an accepted response does -/

theorem applyWith_ok {T : Type} {decode : Proto.Any → Except XdsError T} {put : AdsState → T → AdsState}
    {updates : AdsState → DiscoveryUpdates} {s s' : AdsState} {resources : List Proto.Any}
    {u : DiscoveryUpdates} (h : applyWith decode put updates s resources = (s', .ok u)) :
    ∃ values, List.Forall₂ (fun r v => decode r = .ok v) resources values ∧
      s' = values.foldl put s ∧ u = updates s' := by
  rw [applyWith] at h
  have hOk : ∀ s r v, decode r = .ok v → storeResource decode put s r = (put s v, none) := by
    intro s r v hValue
    rw [storeResource, hValue]
  have hError : ∀ s r err, decode r = .error err → storeResource decode put s r = (s, some err) := by
    intro s r err hFailed
    rw [storeResource, hFailed]
  rcases Runs.tryFold_decode hOk hError s resources with ⟨values, hAll, hRun⟩ | ⟨values, err, hRun, _⟩
  · rw [hRun] at h
    cases h
    exact ⟨values, hAll, rfl, rfl⟩
  · rw [hRun] at h
    cases h

theorem applyWith_decoded {T : Type} {decode : Proto.Any → Except XdsError T} {put : AdsState → T → AdsState}
    {updates : AdsState → DiscoveryUpdates} {s : AdsState} {resources : List Proto.Any} {values : List T}
    (h : List.Forall₂ (fun r v => decode r = .ok v) resources values) :
    applyWith decode put updates s resources =
      (values.foldl put s, .ok (updates (values.foldl put s))) := by
  have hRun : Runs.tryFold (storeResource decode put) s resources = (values.foldl put s, none) := by
    induction h generalizing s with
    | nil => rfl
    | cons hHead _ ih =>
      rw [Runs.tryFold_cons_ok (by rw [storeResource, hHead]), ih, List.foldl_cons]
  rw [applyWith, hRun]

theorem applyWith_invariant {T : Type} {decode : Proto.Any → Except XdsError T}
    {put : AdsState → T → AdsState} {updates : AdsState → DiscoveryUpdates} {I : AdsState → Prop}
    (hPut : ∀ s r v, decode r = .ok v → I s → I (put s v)) {s : AdsState} (hs : I s)
    (resources : List Proto.Any) : I (applyWith decode put updates s resources).1 := by
  have hStep : ∀ s r, I s → I (storeResource decode put s r).1 := by
    intro s r hI
    rw [storeResource]
    split
    · exact hI
    · rename_i value hDecode
      exact hPut s r value hDecode hI
  have hRun := Runs.tryFold_invariant I hStep hs resources
  rw [applyWith]
  split <;> rename_i hEq <;> rw [hEq] at hRun <;> exact hRun

theorem foldl_putListener (s : AdsState) (snapshots : List ListenerSnapshot) :
    snapshots.foldl putListener s = { s with
      listeners := s.listeners.insertAll (snapshots.map fun l => (l.listener.name, l)) } := by
  induction snapshots generalizing s with
  | nil => rfl
  | cons l ls ih => rw [List.foldl_cons, ih]; rfl

theorem foldl_putRoute (s : AdsState) (routes : List Proto.RouteConfiguration) :
    routes.foldl putRoute s = { s with
      routes := s.routes.insertAll (routes.map fun r => (r.name, convertVirtualHosts r.virtualHosts)) } := by
  induction routes generalizing s with
  | nil => rfl
  | cons r rs ih => rw [List.foldl_cons, ih]; rfl

/-- The clusters of a response that are stored. -/
def named (clusters : List Proto.Cluster) : List Proto.Cluster := clusters.filter (·.name ≠ "")

/-- The endpoint entries that the inline load assignments of clusters set. -/
def inlineAssignments (clusters : List Proto.Cluster) : List (String × List Endpoint) :=
  (named clusters).filterMap fun c => c.loadAssignment.map fun a =>
    (Dxgate.edsServiceName c, endpointsFromAssignment a)

theorem foldl_putCluster (codec : Proto.Codec) (s : AdsState) (clusters : List Proto.Cluster) :
    clusters.foldl (putCluster codec) s = { s with
      clusters := s.clusters.insertAll ((named clusters).map fun c => (c.name, clusterSnapshot codec c))
      endpoints := s.endpoints.insertAll (inlineAssignments clusters) } := by
  induction clusters generalizing s with
  | nil => rfl
  | cons c cs ih =>
    rw [List.foldl_cons, ih]
    by_cases hName : c.name = ""
    · simp [putCluster, hName, named, inlineAssignments]
    · cases hLoad : c.loadAssignment <;>
        simp [putCluster, hName, named, inlineAssignments, hLoad, SortedMap.insertAll]

theorem foldl_putAssignment (s : AdsState) (assignments : List Proto.ClusterLoadAssignment) :
    assignments.foldl putAssignment s = { s with
      endpoints := s.endpoints.insertAll ((assignments.filter (·.clusterName ≠ "")).map fun a =>
        (a.clusterName, endpointsFromAssignment a)) } := by
  induction assignments generalizing s with
  | nil => rfl
  | cons a as ih =>
    rw [List.foldl_cons, ih]
    by_cases hName : a.clusterName = "" <;> simp [putAssignment, hName, SortedMap.insertAll]

/-- The four kinds of accepted response and the unknown one, each with all it changes. -/
inductive Applied (codec : Proto.Codec) (s : AdsState) (resp : Proto.DiscoveryResponse) :
    AdsState → DiscoveryUpdates → Prop where
  | listeners {s' : AdsState} (snapshots : List ListenerSnapshot) (hType : resp.typeUrl = LISTENER_TYPE)
      (hDecode : List.Forall₂ (fun r l => decodeListener codec r = .ok l) resp.resources snapshots)
      (hState : s' = { s with
        listeners := (pruneRequested s.listeners (s.subscription LISTENER_TYPE)).insertAll
          (snapshots.map fun l => (l.listener.name, l)) }) :
      Applied codec s resp s' { routeNames := s'.routeNames }
  | routes {s' : AdsState} (configs : List Proto.RouteConfiguration) (hType : resp.typeUrl = ROUTE_TYPE)
      (hDecode : List.Forall₂ (fun r c => decodeResource codec.routeConfiguration ROUTE_TYPE r = .ok c)
        resp.resources configs)
      (hState : s' = { s with
        routes := (pruneRequested s.routes (s.subscription ROUTE_TYPE)).insertAll
          (configs.map fun c => (c.name, convertVirtualHosts c.virtualHosts)) }) :
      Applied codec s resp s' { clusterNames := s'.clusterNames }
  | clusters {s' : AdsState} (resources : List Proto.Cluster) (hType : resp.typeUrl = CLUSTER_TYPE)
      (hDecode : List.Forall₂ (fun r c => decodeResource codec.cluster CLUSTER_TYPE r = .ok c)
        resp.resources resources)
      (hState : s' = { s with
        clusters := (pruneRequested s.clusters (s.subscription CLUSTER_TYPE)).insertAll
          ((named resources).map fun c => (c.name, clusterSnapshot codec c))
        endpoints := s.endpoints.insertAll (inlineAssignments resources) }) :
      Applied codec s resp s' { edsNames := s'.edsNames }
  | endpoints {s' : AdsState} (assignments : List Proto.ClusterLoadAssignment)
      (hType : resp.typeUrl = ENDPOINT_TYPE)
      (hDecode : List.Forall₂ (fun r a => decodeResource codec.clusterLoadAssignment ENDPOINT_TYPE r = .ok a)
        resp.resources assignments)
      (hState : s' = { s with
        endpoints := (pruneRequested s.endpoints (s.subscription ENDPOINT_TYPE)).insertAll
          ((assignments.filter (·.clusterName ≠ "")).map fun a =>
            (a.clusterName, endpointsFromAssignment a)) }) :
      Applied codec s resp s' {}
  | unknown (hListener : resp.typeUrl ≠ LISTENER_TYPE) (hRoute : resp.typeUrl ≠ ROUTE_TYPE)
      (hCluster : resp.typeUrl ≠ CLUSTER_TYPE) (hEndpoint : resp.typeUrl ≠ ENDPOINT_TYPE) :
      Applied codec s resp s {}

section Dispatch

variable {codec : Proto.Codec} (s : AdsState) {resp : Proto.DiscoveryResponse}

theorem applyResponse_listeners (hType : resp.typeUrl = LISTENER_TYPE) :
    s.applyResponse codec resp = s.applyListeners codec resp.resources := by
  rw [applyResponse, if_pos hType]

theorem applyResponse_routes (hType : resp.typeUrl = ROUTE_TYPE) :
    s.applyResponse codec resp = s.applyRoutes codec resp.resources := by
  rw [applyResponse, hType, if_neg (by decide), if_pos rfl]

theorem applyResponse_clusters (hType : resp.typeUrl = CLUSTER_TYPE) :
    s.applyResponse codec resp = s.applyClusters codec resp.resources := by
  rw [applyResponse, hType, if_neg (by decide), if_neg (by decide), if_pos rfl]

theorem applyResponse_endpoints (hType : resp.typeUrl = ENDPOINT_TYPE) :
    s.applyResponse codec resp = s.applyEndpoints codec resp.resources := by
  rw [applyResponse, hType, if_neg (by decide), if_neg (by decide), if_neg (by decide), if_pos rfl]

end Dispatch

theorem applyResponse_ok {codec : Proto.Codec} {s s' : AdsState} {resp : Proto.DiscoveryResponse}
    {u : DiscoveryUpdates} (h : s.applyResponse codec resp = (s', .ok u)) : Applied codec s resp s' u := by
  rw [applyResponse] at h
  split at h
  · rename_i hType
    obtain ⟨snapshots, hDecode, hState, hUpdates⟩ := applyWith_ok h
    rw [foldl_putListener] at hState
    exact hUpdates ▸ .listeners snapshots hType hDecode hState
  split at h
  · rename_i hType
    obtain ⟨configs, hDecode, hState, hUpdates⟩ := applyWith_ok h
    rw [foldl_putRoute] at hState
    exact hUpdates ▸ .routes configs hType hDecode hState
  split at h
  · rename_i hType
    obtain ⟨resources, hDecode, hState, hUpdates⟩ := applyWith_ok h
    rw [foldl_putCluster] at hState
    exact hUpdates ▸ .clusters resources hType hDecode hState
  split at h
  · rename_i hType
    obtain ⟨assignments, hDecode, hState, hUpdates⟩ := applyWith_ok h
    rw [foldl_putAssignment] at hState
    exact hUpdates ▸ .endpoints assignments hType hDecode hState
  · cases h
    exact .unknown (by assumption) (by assumption) (by assumption) (by assumption)

end AdsState

end Dxgate
