import Dxgate.Core.Config
import Dxgate.Xds.Proto

/-! # From discovery resources to runtime values

Listeners become snapshots, route configurations become virtual hosts, load assignments become
endpoint lists and TLS contexts become upstream TLS settings. Every conversion is a pure function;
only the listener conversion can fail, when an embedded connection manager does not decode.
-/

namespace Dxgate

set_option autoImplicit false

open Collections

def CLUSTER_TYPE : String := "type.googleapis.com/cluster.v1.Cluster"
def ENDPOINT_TYPE : String := "type.googleapis.com/endpoint.v1.ClusterLoadAssignment"
def LISTENER_TYPE : String := "type.googleapis.com/listener.v1.Listener"
def ROUTE_TYPE : String := "type.googleapis.com/route.v1.RouteConfiguration"

theorem types_distinct :
    (LISTENER_TYPE ≠ ROUTE_TYPE ∧ LISTENER_TYPE ≠ CLUSTER_TYPE ∧ LISTENER_TYPE ≠ ENDPOINT_TYPE) ∧
    (ROUTE_TYPE ≠ LISTENER_TYPE ∧ ROUTE_TYPE ≠ CLUSTER_TYPE ∧ ROUTE_TYPE ≠ ENDPOINT_TYPE) ∧
    (CLUSTER_TYPE ≠ LISTENER_TYPE ∧ CLUSTER_TYPE ≠ ROUTE_TYPE ∧ CLUSTER_TYPE ≠ ENDPOINT_TYPE) ∧
    ENDPOINT_TYPE ≠ LISTENER_TYPE ∧ ENDPOINT_TYPE ≠ ROUTE_TYPE ∧ ENDPOINT_TYPE ≠ CLUSTER_TYPE := by
  decide

def HCM_TYPE : String :=
  "type.googleapis.com/extensions.filters.network.http_connection_manager.v1.HttpConnectionManager"

inductive XdsError where
  | invalidEndpoint (endpoint source : String)
  | connect (endpoint source : String)
  | streamOpen (status : String)
  | streamReceive (status : String)
  | requestChannelClosed
  | decode (typeUrl : String) (source : Proto.DecodeError)
  | runtimeConfigClosed
  deriving DecidableEq

def decodeResource {T : Type} (decode : Proto.Bytes → Except Proto.DecodeError T) (typeUrl : String)
    (resource : Proto.Any) : Except XdsError T :=
  (decode resource.value).mapError fun source => .decode typeUrl source

/-! ## Routes -/

def convertRouteAction (action : Proto.RouteAction) : List WeightedCluster :=
  match action.clusterSpecifier with
  | some (.cluster name) => if name ≠ "" then [⟨name, 100⟩] else []
  | some (.weightedClusters clusters) =>
    (clusters.filter (·.name ≠ "")).map fun cluster => ⟨cluster.name, cluster.weight.getD 1⟩
  | none => []

/-- The exact matchers in order; a regular expression makes the match unusable and a matcher without
a specifier is dropped. -/
def convertHeaders : List Proto.HeaderMatcher → Option (List HeaderMatch)
  | [] => some []
  | header :: rest =>
    match header.headerMatchSpecifier with
    | some (.exactMatch value) => (convertHeaders rest).map (⟨header.name, value⟩ :: ·)
    | some (.safeRegexMatch _) => none
    | none => convertHeaders rest

def convertRouteMatch (routeMatch : Proto.RouteMatch) : Option RouteMatch := do
  let path ← match routeMatch.pathSpecifier with
    | some (.pathPrefix head) => some (PathMatch.pathPrefix head)
    | some (.path path) => some (.pathExact path)
    | some (.safeRegex _) => none
    | none => some (.pathPrefix "/")
  let headers ← convertHeaders routeMatch.headers
  some ⟨path, headers⟩

def convertRoute (route : Proto.Route) : Option Route := do
  let weightedClusters := match ← route.action with
    | .route action => convertRouteAction action
    | .nonForwardingAction => []
  if weightedClusters = [] then none
  else
    let routeMatches ← match route.routeMatch with
      | some routeMatch => (convertRouteMatch routeMatch).map ([·])
      | none => some []
    some ⟨route.name, routeMatches, weightedClusters⟩

def convertVirtualHosts (vhosts : List Proto.VirtualHost) : List VirtualHost :=
  vhosts.map fun vh => ⟨vh.name, vh.domains, vh.routes.filterMap convertRoute⟩

/-! ## Endpoints -/

def socketAddress (address : Option Proto.Address) : Option (String × UInt16) :=
  match address.bind (·.address) with
  | some (.socketAddress socket) =>
    match socket.portSpecifier with
    | some (.portValue port) =>
      if port.toNat < 65536 then some (socket.address, port.toUInt16) else none
    | none => none
  | _ => none

def endpointIsHealthy (status : Int) : Bool :=
  match (Proto.HealthStatus.tryFrom status).getD .unknown with
  | .unhealthy | .draining | .timeout => false
  | _ => true

def endpointOf (lbEndpoint : Proto.LbEndpoint) : Option Endpoint :=
  match lbEndpoint.hostIdentifier with
  | some (.endpoint endpoint) =>
    (socketAddress endpoint.address).map fun (address, port) =>
      ⟨address, port, endpointIsHealthy lbEndpoint.healthStatus, none⟩
  | _ => none

def Endpoint.le (a b : Endpoint) : Prop := a.address < b.address ∨ a.address = b.address ∧ a.port ≤ b.port

instance : DecidableRel Endpoint.le := fun a b => by unfold Endpoint.le; infer_instance

def endpointsFromAssignment (assignment : Proto.ClusterLoadAssignment) : List Endpoint :=
  (assignment.endpoints.flatMap fun locality => locality.lbEndpoints.filterMap endpointOf).insertionSort
    Endpoint.le

/-! ## Upstream TLS -/

def UPSTREAM_TLS_SUFFIX : String := "extensions.transport_sockets.tls.v1.UpstreamTlsContext"

def instanceName (inst : Proto.CertificateProviderInstance) : Option String :=
  if inst.instanceName = "" then none else some inst.instanceName

def certificateProviderName (common : Proto.CommonTlsContext) : Option String :=
  common.tlsCertificateCertificateProviderInstance.bind instanceName

def validationProviderName (common : Proto.CommonTlsContext) : Option String :=
  common.combinedValidationContext.bind fun combined =>
    combined.validationContextCertificateProviderInstance.bind instanceName

def clusterAuthority (name : String) : Option String :=
  ((Text.split name '|')[3]?).filter (· ≠ "")

def firstNonEmpty (value : String) (fallback : Option String) : Option String :=
  if value = "" then fallback else some value

def upstreamTlsOf (clusterName : String) (tls : Proto.UpstreamTlsContext) : UpstreamTls where
  sni := firstNonEmpty tls.sni (clusterAuthority clusterName)
  certificateProvider := tls.commonTlsContext.bind certificateProviderName
  validationProvider := tls.commonTlsContext.bind validationProviderName
  alpnProtocols := (tls.commonTlsContext.map (·.alpnProtocols)).getD []

def upstreamTlsFromCluster (codec : Proto.Codec) (cluster : Proto.Cluster) : Option UpstreamTls := do
  let typedConfig ← (← cluster.transportSocket).typedConfig
  if Text.endsWith typedConfig.typeUrl UPSTREAM_TLS_SUFFIX then
    let tls ← (codec.upstreamTlsContext typedConfig.value).toOption
    some (upstreamTlsOf cluster.name tls)
  else none

/-- The name under which endpoints of the cluster are looked up. -/
def edsServiceName (cluster : Proto.Cluster) : String :=
  ((cluster.edsClusterConfig.filter (·.serviceName ≠ "")).map (·.serviceName)).getD cluster.name

structure ClusterSnapshot where
  name : String
  edsServiceName : String
  tls : Option UpstreamTls
  deriving DecidableEq

def clusterSnapshot (codec : Proto.Codec) (cluster : Proto.Cluster) : ClusterSnapshot where
  name := cluster.name
  edsServiceName := edsServiceName cluster
  tls := upstreamTlsFromCluster codec cluster

/-! ## Listeners -/

structure ListenerSnapshot where
  listener : Listener
  routeNames : List String
  inlineVirtualHosts : List VirtualHost
  deriving DecidableEq

def listenerPort (listener : Proto.Listener) : Option UInt16 :=
  ((socketAddress listener.address).map (·.2)).or
    ((Text.afterLast listener.name ':').bind fun port =>
      (Text.parseBelow 65536 port).map UInt16.ofNat)

def isHttpConnectionManager (name : String) (any : Proto.Any) : Bool :=
  Text.contains name "http_connection_manager" ||
    Text.endsWith any.typeUrl
      "extensions.filters.network.http_connection_manager.v1.HttpConnectionManager"

/-- The configurations decoded as connection managers, in the order they are decoded. -/
def managerConfigs (listener : Proto.Listener) : List Proto.Any :=
  (listener.apiListener.bind (·.apiListener)).toList ++
    listener.filterChains.flatMap fun chain => chain.filters.filterMap fun filter =>
      filter.typedConfig.filter (isHttpConnectionManager filter.name)

def decodeHcms (codec : Proto.Codec) :
    List Proto.Any → Except XdsError (List Proto.HttpConnectionManager)
  | [] => .ok []
  | any :: rest => do
    let hcm ← decodeResource codec.httpConnectionManager HCM_TYPE any
    return hcm :: (← decodeHcms codec rest)

def httpConnectionManagers (codec : Proto.Codec) (listener : Proto.Listener) :
    Except XdsError (List Proto.HttpConnectionManager) :=
  decodeHcms codec (managerConfigs listener)

def rdsRouteName (hcm : Proto.HttpConnectionManager) : Option String :=
  match hcm.routeSpecifier with
  | some (.rds rds) => if rds.routeConfigName ≠ "" then some rds.routeConfigName else none
  | _ => none

def inlineVirtualHosts (hcm : Proto.HttpConnectionManager) : List VirtualHost :=
  match hcm.routeSpecifier with
  | some (.routeConfig config) => convertVirtualHosts config.virtualHosts
  | _ => []

def listenerSnapshot (codec : Proto.Codec) (listener : Proto.Listener) :
    Except XdsError ListenerSnapshot := do
  let port := (listenerPort listener).getD 80
  let hcms ← httpConnectionManagers codec listener
  return {
    listener := {
      name := listener.name
      bind := { ip := .UNSPECIFIED, port := port }
      protocol := if port = 443 then .https else .http
      virtualHosts := []
      tlsSecret := none }
    routeNames := sortedUnique (hcms.filterMap rdsRouteName)
    inlineVirtualHosts := hcms.flatMap inlineVirtualHosts }

end Dxgate
