import Dxgate.Lib.Text

/-! # The runtime configuration and request matching

What the gateway serves: listeners with virtual hosts and routes, and the clusters that the routes
name. Both configuration sources, the static file and the discovery client, produce this type.
-/

namespace Dxgate

set_option autoImplicit false

def HTTP_LISTENER_PORT : UInt16 := 80

inductive IpAddr where
  | v4 (a b c d : UInt8)
  | v6 (segments : Vector UInt16 8)
  deriving DecidableEq

structure SocketAddr where
  ip : IpAddr
  port : UInt16
  /-- Zero for an IPv4 address. -/
  flowinfo : UInt32 := 0
  scopeId : UInt32 := 0
  deriving DecidableEq

def IpAddr.UNSPECIFIED : IpAddr := .v4 0 0 0 0

def hex (n : UInt16) : String := String.ofList (Nat.toDigits 16 n.toNat)

/-- Start and length of the run of zero segments that ends at the current one, and of the first
longest run so far. -/
structure ZeroRuns where
  current : Nat × Nat
  longest : Nat × Nat

def ZeroRuns.next (runs : ZeroRuns) (i : Nat) (segment : UInt16) : ZeroRuns :=
  if segment = 0 then
    let current := (if runs.current.2 = 0 then i else runs.current.1, runs.current.2 + 1)
    ⟨current, if current.2 > runs.longest.2 then current else runs.longest⟩
  else ⟨(0, 0), runs.longest⟩

def longestZeroRun (segments : List UInt16) : Nat × Nat :=
  (segments.zipIdx.foldl (fun (runs : ZeroRuns) e => runs.next e.2 e.1) ⟨(0, 0), (0, 0)⟩).longest

def displayV4 (a b c d : UInt8) : String :=
  Text.joinWith "." ([a, b, c, d].map fun octet => toString octet.toNat)

def displayV6 (segments : List UInt16) : String :=
  match segments with
  | [0, 0, 0, 0, 0, 0xffff, hi, lo] =>
    "::ffff:" ++ displayV4 (hi >>> 8).toUInt8 hi.toUInt8 (lo >>> 8).toUInt8 lo.toUInt8
  | _ =>
    let (start, len) := longestZeroRun segments
    if len > 1 then
      Text.joinWith ":" ((segments.take start).map hex) ++ "::" ++
        Text.joinWith ":" ((segments.drop (start + len)).map hex)
    else Text.joinWith ":" (segments.map hex)

def SocketAddr.display (addr : SocketAddr) : String :=
  match addr.ip with
  | .v4 a b c d => displayV4 a b c d ++ ":" ++ toString addr.port.toNat
  | .v6 segments =>
    let scope := if addr.scopeId = 0 then "" else "%" ++ toString addr.scopeId.toNat
    "[" ++ displayV6 segments.toList ++ scope ++ "]:" ++ toString addr.port.toNat

inductive ListenerProtocol where
  | http
  | https
  deriving DecidableEq

inductive PathMatch where
  | pathPrefix (head : String)
  | pathExact (path : String)
  deriving DecidableEq

structure HeaderMatch where
  name : String
  value : String
  deriving DecidableEq

structure RouteMatch where
  path : PathMatch
  headers : List HeaderMatch
  deriving DecidableEq

structure WeightedCluster where
  name : String
  weight : UInt32
  deriving DecidableEq

structure Route where
  name : String
  routeMatches : List RouteMatch
  weightedClusters : List WeightedCluster
  deriving DecidableEq

structure VirtualHost where
  name : String
  domains : List String
  routes : List Route
  deriving DecidableEq

structure Listener where
  name : String
  bind : SocketAddr
  protocol : ListenerProtocol
  virtualHosts : List VirtualHost
  tlsSecret : Option String
  deriving DecidableEq

structure UpstreamTls where
  sni : Option String
  certificateProvider : Option String
  validationProvider : Option String
  alpnProtocols : List String
  deriving DecidableEq

structure Endpoint where
  address : String
  port : UInt16
  healthy : Bool
  nodeName : Option String
  deriving DecidableEq

structure Cluster where
  name : String
  endpoints : List Endpoint
  tls : Option UpstreamTls
  deriving DecidableEq

def Cluster.healthyEndpoints (cluster : Cluster) : List Endpoint :=
  cluster.endpoints.filter (·.healthy)

structure TlsSecret where
  name : String
  certificateChainPem : String
  privateKeyPem : String
  deriving DecidableEq

structure RuntimeConfig where
  version : String
  listeners : List Listener
  clusters : List Cluster
  secrets : List TlsSecret
  deriving DecidableEq

def RuntimeConfig.empty (version : String) : RuntimeConfig := ⟨version, [], [], []⟩

structure MatchInput where
  host : String
  path : String
  headers : List (String × String)

structure ConfigConflict where
  kind : String
  message : String
  deriving DecidableEq

inductive DxgateError where
  | invalidConfig (reason : String)
  | routeNotFound (host path : String)
  | clusterNotFound (name : String)
  | noHealthyEndpoints (cluster : String)
  | ioError (reason : String)
  deriving DecidableEq

def DxgateError.message : DxgateError → String
  | .invalidConfig reason => "invalid runtime config: " ++ reason
  | .routeNotFound host path => "route not found for host=" ++ host ++ " path=" ++ path
  | .clusterNotFound name => "cluster " ++ name ++ " not found"
  | .noHealthyEndpoints cluster => "cluster " ++ cluster ++ " has no healthy endpoints"
  | .ioError reason => "io error: " ++ reason

/-! ## Matching -/

def VirtualHost.matchesHost (vh : VirtualHost) (host : String) : Bool :=
  vh.domains.any fun domain =>
    domain = "*" || Text.eqIgnoreAsciiCase domain host ||
      ((Text.dropHead domain "*.").map fun rest => Text.endsWith host rest).getD false

def PathMatch.matchesPath : PathMatch → String → Bool
  | .pathPrefix head, path => Text.startsWith path head
  | .pathExact exactPath, path => path = exactPath

def HeaderMatch.matchesInput (h : HeaderMatch) (input : MatchInput) : Bool :=
  input.headers.any fun (name, value) => Text.eqIgnoreAsciiCase name h.name && value = h.value

def RouteMatch.matchesInput (m : RouteMatch) (input : MatchInput) : Bool :=
  m.path.matchesPath input.path && m.headers.all (·.matchesInput input)

def Route.matchesInput (route : Route) (input : MatchInput) : Bool :=
  route.routeMatches.isEmpty || route.routeMatches.any (·.matchesInput input)

namespace RuntimeConfig

def listenerByPort (cfg : RuntimeConfig) (port : UInt16) : Option Listener :=
  cfg.listeners.find? (·.bind.port = port)

def cluster (cfg : RuntimeConfig) (name : String) : Option Cluster :=
  cfg.clusters.find? (·.name = name)

def routeFor (cfg : RuntimeConfig) (port : UInt16) (input : MatchInput) : Except DxgateError Route :=
  match cfg.listenerByPort port with
  | none => .error (.routeNotFound input.host input.path)
  | some listener =>
    match ((listener.virtualHosts.filter (·.matchesHost input.host)).flatMap (·.routes)).find?
        (·.matchesInput input) with
    | none => .error (.routeNotFound input.host input.path)
    | some route => .ok route

theorem routeFor_mem {cfg : RuntimeConfig} {port : UInt16} {input : MatchInput} {route : Route}
    (h : cfg.routeFor port input = .ok route) :
    ∃ listener ∈ cfg.listeners, ∃ vh ∈ listener.virtualHosts, route ∈ vh.routes := by
  rw [routeFor] at h
  split at h
  · cases h
  · rename_i listener hListener
    split at h
    · cases h
    · rename_i found hFound
      cases h
      obtain ⟨vh, hVh, hRoute⟩ := List.mem_flatMap.mp (List.mem_of_find?_eq_some hFound)
      exact ⟨listener, List.mem_of_find?_eq_some hListener, vh, (List.mem_filter.mp hVh).1, hRoute⟩

theorem cluster_eq_some {cfg : RuntimeConfig} {name : String} {cluster : Cluster}
    (h : cfg.cluster name = some cluster) : cluster ∈ cfg.clusters ∧ cluster.name = name :=
  ⟨List.mem_of_find?_eq_some h, by simpa using List.find?_some h⟩

theorem cluster_isSome {cfg : RuntimeConfig} {name : String} (h : name ∈ cfg.clusters.map (·.name)) :
    ∃ cluster, cfg.cluster name = some cluster := by
  obtain ⟨cluster, hMem, hName⟩ := List.mem_map.mp h
  exact Option.isSome_iff_exists.mp (List.find?_isSome.mpr ⟨cluster, hMem, by simpa using hName⟩)

end RuntimeConfig

end Dxgate
