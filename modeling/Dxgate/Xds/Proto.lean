import Dxgate.Lib.SortedMap
import Mathlib.Data.String.Basic

/-! # Discovery messages

The messages of the control plane, with the fields that the client reads. A oneof is an option of its
cases; a oneof with a single case is an option of its payload. The wire format belongs to the protobuf
library and enters only as a `Codec`, one decoder for each message type.
-/

namespace Dxgate.Proto

set_option autoImplicit false

abbrev Bytes := List UInt8

structure Any where
  typeUrl : String
  value : Bytes
  deriving DecidableEq

/-! ## Addresses and endpoints -/

inductive PortSpecifier where
  | portValue (port : UInt32)
  deriving DecidableEq

structure SocketAddress where
  address : String
  portSpecifier : Option PortSpecifier
  deriving DecidableEq

inductive AddressKind where
  | socketAddress (socket : SocketAddress)
  | pipe (path : String)
  deriving DecidableEq

structure Address where
  address : Option AddressKind
  deriving DecidableEq

structure Endpoint where
  address : Option Address
  deriving DecidableEq

inductive HostIdentifier where
  | endpoint (endpoint : Endpoint)
  | endpointName (name : String)
  deriving DecidableEq

structure LbEndpoint where
  hostIdentifier : Option HostIdentifier
  healthStatus : Int
  deriving DecidableEq

structure LocalityLbEndpoints where
  lbEndpoints : List LbEndpoint
  deriving DecidableEq

structure ClusterLoadAssignment where
  clusterName : String
  endpoints : List LocalityLbEndpoints
  deriving DecidableEq

inductive HealthStatus where
  | unknown
  | healthy
  | unhealthy
  | draining
  | timeout
  | degraded
  deriving DecidableEq

def HealthStatus.tryFrom : Int → Option HealthStatus
  | 0 => some .unknown
  | 1 => some .healthy
  | 2 => some .unhealthy
  | 3 => some .draining
  | 4 => some .timeout
  | 5 => some .degraded
  | _ => none

/-! ## Routes -/

structure RegexMatcher where
  regex : String
  deriving DecidableEq

inductive PathSpecifier where
  | pathPrefix (head : String)
  | path (path : String)
  | safeRegex (regex : RegexMatcher)
  deriving DecidableEq

inductive HeaderMatchSpecifier where
  | exactMatch (value : String)
  | safeRegexMatch (regex : RegexMatcher)
  deriving DecidableEq

structure HeaderMatcher where
  name : String
  headerMatchSpecifier : Option HeaderMatchSpecifier
  deriving DecidableEq

structure RouteMatch where
  pathSpecifier : Option PathSpecifier
  headers : List HeaderMatcher
  deriving DecidableEq

structure ClusterWeight where
  name : String
  weight : Option UInt32
  deriving DecidableEq

inductive ClusterSpecifier where
  | cluster (name : String)
  | weightedClusters (clusters : List ClusterWeight)
  deriving DecidableEq

structure RouteAction where
  clusterSpecifier : Option ClusterSpecifier
  deriving DecidableEq

inductive Action where
  | route (action : RouteAction)
  | nonForwardingAction
  deriving DecidableEq

structure Route where
  name : String
  routeMatch : Option RouteMatch
  action : Option Action
  deriving DecidableEq

structure VirtualHost where
  name : String
  domains : List String
  routes : List Route
  deriving DecidableEq

structure RouteConfiguration where
  name : String
  virtualHosts : List VirtualHost
  deriving DecidableEq

/-! ## Listeners -/

structure Rds where
  routeConfigName : String
  deriving DecidableEq

inductive RouteSpecifier where
  | rds (rds : Rds)
  | routeConfig (config : RouteConfiguration)
  deriving DecidableEq

structure HttpConnectionManager where
  routeSpecifier : Option RouteSpecifier
  deriving DecidableEq

structure Filter where
  name : String
  typedConfig : Option Any
  deriving DecidableEq

structure FilterChain where
  filters : List Filter
  deriving DecidableEq

structure ApiListener where
  apiListener : Option Any
  deriving DecidableEq

structure Listener where
  name : String
  address : Option Address
  filterChains : List FilterChain
  apiListener : Option ApiListener
  deriving DecidableEq

/-! ## Clusters and upstream TLS -/

structure CertificateProviderInstance where
  instanceName : String
  deriving DecidableEq

structure CombinedCertificateValidationContext where
  validationContextCertificateProviderInstance : Option CertificateProviderInstance
  deriving DecidableEq

structure CommonTlsContext where
  tlsCertificateCertificateProviderInstance : Option CertificateProviderInstance
  alpnProtocols : List String
  combinedValidationContext : Option CombinedCertificateValidationContext
  deriving DecidableEq

structure UpstreamTlsContext where
  commonTlsContext : Option CommonTlsContext
  sni : String
  deriving DecidableEq

structure TransportSocket where
  typedConfig : Option Any
  deriving DecidableEq

structure EdsClusterConfig where
  serviceName : String
  deriving DecidableEq

structure Cluster where
  name : String
  edsClusterConfig : Option EdsClusterConfig
  loadAssignment : Option ClusterLoadAssignment
  transportSocket : Option TransportSocket
  deriving DecidableEq

/-! ## The discovery service -/

/-- `metadata` holds the string values of the protobuf struct. -/
structure Node where
  id : String
  cluster : String
  metadata : Collections.SortedMap String String
  deriving DecidableEq

structure DiscoveryRequest where
  versionInfo : String
  node : Option Node
  resourceNames : List String
  typeUrl : String
  responseNonce : String
  deriving DecidableEq

structure DiscoveryResponse where
  versionInfo : String
  resources : List Any
  typeUrl : String
  nonce : String
  deriving DecidableEq

structure DecodeError where
  description : String
  deriving DecidableEq

/-- The decoders of the protobuf library, each an arbitrary partial function on bytes. -/
structure Codec where
  listener : Bytes → Except DecodeError Listener
  routeConfiguration : Bytes → Except DecodeError RouteConfiguration
  cluster : Bytes → Except DecodeError Cluster
  clusterLoadAssignment : Bytes → Except DecodeError ClusterLoadAssignment
  httpConnectionManager : Bytes → Except DecodeError HttpConnectionManager
  upstreamTlsContext : Bytes → Except DecodeError UpstreamTlsContext

/-- The decoder that knows the listed encodings and rejects everything else. -/
def tableDecoder {T : Type} (entries : List (Bytes × T)) (bytes : Bytes) : Except DecodeError T :=
  match entries.lookup bytes with
  | some message => .ok message
  | none => .error ⟨"invalid wire type"⟩

end Dxgate.Proto
