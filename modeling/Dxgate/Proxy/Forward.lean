import Dxgate.Proxy.State
import Dxgate.Proxy.Mtls

/-! # Forwarding a request

One request reads the configuration once, picks a cluster of the matching route and a healthy endpoint
of the cluster, and goes upstream in plaintext or with mutual TLS as the cluster says. `forward` is the
handler without interruption; `Handler.step` is the same handler cut at its accesses to shared state.
-/

namespace Dxgate

set_option autoImplicit false

/-- The value of a header, with the text that the HTTP library reads in its bytes. -/
structure HeaderValue where
  bytes : List UInt8
  toStr : Option String
  deriving DecidableEq

structure Request where
  pathAndQuery : Option String
  /-- In the order of the header map, with names in lower case. -/
  headers : List (String × HeaderValue)
  deriving DecidableEq

inductive StatusCode where
  | notFound
  | badGateway
  | serviceUnavailable
  deriving DecidableEq

structure Failure where
  status : StatusCode
  message : String
  deriving DecidableEq

structure Response where
  status : UInt16
  deriving DecidableEq

inductive UpstreamClient where
  | plaintext
  | mtls (client : MtlsClient)
  deriving DecidableEq

structure Call where
  client : UpstreamClient
  uri : String
  headers : List (String × HeaderValue)
  deriving DecidableEq

/-- Under every name the same values, in the same order. The names may come in another order. -/
def SameHeaders (headers others : List (String × HeaderValue)) : Prop :=
  ∀ name, headers.filter (·.1 = name) = others.filter (·.1 = name)

/-- The HTTP libraries: why a text is not a URI, what an upstream call comes to, and how a header is taken
out of the map. -/
structure Upstream where
  tls : TlsOracle
  uriError : String → Option String
  request : Call → Except String Response
  remove : String → List (String × HeaderValue) → List (String × HeaderValue)
  /-- The last name of the map moves into the gap, so that only the order of the names is lost. -/
  remove_same : ∀ name headers, SameHeaders (remove name headers) (headers.filter (·.1 ≠ name))

/-- Where a request is sent: positions in the route's clusters and in the healthy endpoints. -/
structure Target where
  clusterIndex : Nat
  cluster : Cluster
  endpointIndex : Nat
  endpoint : Endpoint
  deriving DecidableEq

structure Forwarded where
  target : Option Target
  call : Option Call
  reply : Except Failure Response

structure ProxyServer where
  state : ProxyState
  mtls : MtlsSupport
  deriving DecidableEq

/-! ## Reading the request -/

def hostHeader (headers : List (String × HeaderValue)) : Option String :=
  ((headers.find? (·.1 = "host")).bind fun header => header.2.toStr).map fun host =>
    (Text.split host ':').headD host

def headerPairs (headers : List (String × HeaderValue)) : List (String × String) :=
  headers.filterMap fun (name, value) => value.toStr.map fun value => (name, value)

def Request.path (req : Request) : String := req.pathAndQuery.getD "/"

def Request.matchInput (req : Request) : MatchInput :=
  ⟨(hostHeader req.headers).getD "*", req.path, headerPairs req.headers⟩

def endpointAuthority (endpoint : Endpoint) : String :=
  if Text.contains endpoint.address ":" && !Text.startsWith endpoint.address "[" then
    "[" ++ endpoint.address ++ "]:" ++ toString endpoint.port.toNat
  else endpoint.address ++ ":" ++ toString endpoint.port.toNat

/-! ## The stages of the handler -/

def selectClusters (cfg : RuntimeConfig) (req : Request) : Except Failure (List WeightedCluster) :=
  match cfg.routeFor HTTP_LISTENER_PORT req.matchInput with
  | .error err => .error ⟨.notFound, err.message⟩
  | .ok route => .ok route.weightedClusters

def resolveCluster (cfg : RuntimeConfig) (pick : Option (Nat × WeightedCluster)) :
    Except Failure (Nat × Cluster) :=
  match pick with
  | none => .error ⟨.serviceUnavailable, "route has no clusters"⟩
  | some (i, weighted) =>
    match cfg.cluster weighted.name with
    | none => .error ⟨.serviceUnavailable, "cluster " ++ weighted.name ++ " not found"⟩
    | some cluster => .ok (i, cluster)

def mtlsClient (oracle : TlsOracle) (cluster : Cluster) (tls : UpstreamTls) :
    MtlsSupport → MtlsSupport × Except Failure MtlsClient
  | .available pool =>
    match pool.clientFor oracle tls with
    | (pool, .ok client) => (.available pool, .ok client)
    | (pool, .error err) =>
      (.available pool,
        .error ⟨.badGateway, "cluster " ++ cluster.name ++ " mTLS setup failed: " ++ err⟩)
  | .disabled =>
    (.disabled, .error ⟨.badGateway, "cluster " ++ cluster.name ++
      " requires mTLS but GRPC_XDS_BOOTSTRAP is not configured"⟩)
  | .error err =>
    (.error err, .error ⟨.badGateway, "cluster " ++ cluster.name ++
      " requires mTLS but bootstrap loading failed: " ++ err⟩)

def upstreamUri (target : Target) (req : Request) : String :=
  (if target.cluster.tls.isSome then "https" else "http") ++ "://" ++
    endpointAuthority target.endpoint ++ req.path

def send (up : Upstream) (target : Target) (call : Call) : Forwarded where
  target := some target
  call := some call
  reply := (up.request call).mapError fun err => ⟨.badGateway, err⟩

def dispatch (up : Upstream) (server : ProxyServer) (target : Target) (req : Request) :
    ProxyServer × Forwarded :=
  let uri := upstreamUri target req
  match up.uriError uri with
  | some err => (server, ⟨some target, none, .error ⟨.badGateway, "invalid upstream uri: " ++ err⟩⟩)
  | none =>
    let headers := up.remove "host" req.headers
    match target.cluster.tls with
    | none => (server, send up target ⟨.plaintext, uri, headers⟩)
    | some tls =>
      match mtlsClient up.tls target.cluster tls server.mtls with
      | (mtls, .error failure) => ({ server with mtls := mtls }, ⟨some target, none, .error failure⟩)
      | (mtls, .ok client) => ({ server with mtls := mtls }, send up target ⟨.mtls client, uri, headers⟩)

def Forwarded.failed (failure : Failure) : Forwarded := ⟨none, none, .error failure⟩

def forward (up : Upstream) (server : ProxyServer) (req : Request) : ProxyServer × Forwarded :=
  let cfg := server.state.config
  match selectClusters cfg req with
  | .error failure => (server, .failed failure)
  | .ok clusters =>
    let (st, pick) := server.state.pickCluster clusters
    match resolveCluster cfg pick with
    | .error failure => ({ server with state := st }, .failed failure)
    | .ok (i, cluster) =>
      match st.pickEndpoint cluster.name cluster.endpoints with
      | (st, .error err) =>
        ({ server with state := st }, .failed ⟨.serviceUnavailable, err.message⟩)
      | (st, .ok (j, endpoint)) => dispatch up { server with state := st } ⟨i, cluster, j, endpoint⟩ req

/-- Requests handled one after another, with no other traffic. -/
def forwardAll (up : Upstream) : ProxyServer → List Request → ProxyServer × List Forwarded
  | server, [] => (server, [])
  | server, req :: rest =>
    let (server, out) := forward up server req
    let (server, outs) := forwardAll up server rest
    (server, out :: outs)

/-! ## The handler between its accesses to shared state -/

inductive Handler where
  | received (req : Request)
  | routed (req : Request) (cfg : RuntimeConfig) (clusters : List WeightedCluster)
  | resolved (req : Request) (clusterIndex : Nat) (cluster : Cluster)
  | targeted (req : Request) (target : Target)
  | answered (out : Forwarded)

def Handler.step (up : Upstream) : ProxyServer × Handler → ProxyServer × Handler
  | (server, .received req) =>
    match selectClusters server.state.config req with
    | .error failure => (server, .answered (.failed failure))
    | .ok clusters => (server, .routed req server.state.config clusters)
  | (server, .routed req cfg clusters) =>
    match resolveCluster cfg (server.state.pickCluster clusters).2 with
    | .error failure =>
      ({ server with state := (server.state.pickCluster clusters).1 }, .answered (.failed failure))
    | .ok (i, cluster) =>
      ({ server with state := (server.state.pickCluster clusters).1 }, .resolved req i cluster)
  | (server, .resolved req i cluster) =>
    match server.state.pickEndpoint cluster.name cluster.endpoints with
    | (st, .error err) =>
      ({ server with state := st }, .answered (.failed ⟨.serviceUnavailable, err.message⟩))
    | (st, .ok (j, endpoint)) => ({ server with state := st }, .targeted req ⟨i, cluster, j, endpoint⟩)
  | (server, .targeted req target) =>
    ((dispatch up server target req).1, .answered (dispatch up server target req).2)
  | (server, .answered out) => (server, .answered out)

theorem dispatch_state (up : Upstream) (server : ProxyServer) (target : Target) (req : Request) :
    (dispatch up server target req).1.state = server.state := by
  rw [dispatch]
  dsimp only
  split
  · rfl
  · split
    · rfl
    · split <;> rfl

theorem dispatch_target (up : Upstream) (server : ProxyServer) (target : Target) (req : Request) :
    (dispatch up server target req).2.target = some target := by
  rw [dispatch]
  dsimp only
  split
  · rfl
  · split
    · rfl
    · split <;> rfl

theorem mtlsClient_failure {oracle : TlsOracle} {cluster : Cluster} {tls : UpstreamTls}
    {support support' : MtlsSupport} {failure : Failure}
    (h : mtlsClient oracle cluster tls support = (support', .error failure)) :
    failure.status = .badGateway := by
  cases support with
  | disabled => cases h; rfl
  | error err => cases h; rfl
  | available pool =>
    rw [mtlsClient] at h
    split at h <;> cases h
    rfl

theorem dispatch_failure {up : Upstream} {server : ProxyServer} {target : Target} {req : Request}
    {failure : Failure} (h : (dispatch up server target req).2.reply = .error failure) :
    failure.status = .badGateway := by
  have hSend (call : Call) (hReply : (send up target call).reply = .error failure) :
      failure.status = .badGateway := by
    simp only [send] at hReply
    cases hRequest : up.request call with
    | ok response => rw [hRequest] at hReply; cases hReply
    | error err => rw [hRequest] at hReply; cases hReply; rfl
  rw [dispatch] at h
  dsimp only at h
  split at h
  · cases h
    rfl
  · split at h
    · exact hSend _ h
    · split at h
      · rename_i hClient
        cases h
        exact mtlsClient_failure hClient
      · exact hSend _ h

/-- The request goes upstream with mutual TLS, or a bad gateway is answered. -/
def Forwarded.Secured (out : Forwarded) : Prop :=
  (∃ call client, out.call = some call ∧ call.client = .mtls client) ∨
    (out.call = none ∧ ∃ failure, out.reply = .error failure ∧ failure.status = .badGateway)

/-- A cluster with TLS settings is never called in plaintext. -/
theorem dispatch_secured (up : Upstream) (server : ProxyServer) {target : Target} (req : Request)
    (hTls : target.cluster.tls.isSome) : (dispatch up server target req).2.Secured := by
  obtain ⟨tls, hTls⟩ := Option.isSome_iff_exists.mp hTls
  simp only [dispatch, hTls]
  split
  · exact Or.inr ⟨rfl, _, rfl, rfl⟩
  · split
    · rename_i hClient
      exact Or.inr ⟨rfl, _, rfl, mtlsClient_failure hClient⟩
    · exact Or.inl ⟨_, _, rfl, rfl⟩

theorem forward_cases (up : Upstream) (server : ProxyServer) (req : Request) :
    (forward up server req).2.target = none ∨
      ∃ server' target, target.cluster ∈ server.state.config.clusters ∧
        forward up server req = dispatch up server' target req := by
  simp only [forward]
  split
  · exact Or.inl rfl
  · split
    · exact Or.inl rfl
    · rename_i i cluster hResolve
      split
      · exact Or.inl rfl
      · refine Or.inr ⟨_, _, ?_, rfl⟩
        unfold resolveCluster at hResolve
        split at hResolve
        · cases hResolve
        · split at hResolve
          · cases hResolve
          · rename_i hCluster
            cases hResolve
            exact (RuntimeConfig.cluster_eq_some hCluster).1

/-! ## Sample traffic -/

def sampleRoute (weighted : List WeightedCluster) : Route := ⟨"default", [], weighted⟩

def sampleConfig (weighted : List WeightedCluster) (clusters : List Cluster) : RuntimeConfig where
  version := "1"
  listeners := [⟨"http", { ip := .UNSPECIFIED, port := 80 }, .http,
    [⟨"wildcard", ["*"], [sampleRoute weighted]⟩], none⟩]
  clusters := clusters
  secrets := []

def sampleCluster (name : String) (ports : List UInt16) : Cluster :=
  ⟨name, ports.map fun port => ⟨"10.0.0.1", port, true, none⟩, none⟩

/-- The proxy right after it has accepted the configuration, before any request. -/
def sampleServer (cfg : RuntimeConfig) : ProxyServer := ⟨⟨cfg, [], true, 0⟩, .disabled⟩

def sampleRequest : Request := ⟨some "/", [("host", ⟨[0x61], some "a"⟩)]⟩

/-- Every URI parses and every call succeeds; there are no certificate files. -/
def sampleUpstream : Upstream where
  tls := ⟨fun s => "\"" ++ s ++ "\"", fun path _ => .error ("open " ++ path),
    fun path => .error ("open " ++ path), fun path => .error ("open " ++ path), fun _ _ => none⟩
  uriError _ := none
  request _ := .ok ⟨200⟩
  remove name headers := headers.filter (·.1 ≠ name)
  remove_same _ _ _ := rfl

end Dxgate
