import Dxgate.Xds.Wire

/-! # What the program starts with

`main` takes its settings from the command line and the environment, lets a bootstrap file override them,
and makes the identity of the router and the configuration of the client from the result. The control plane
knows the router by the node in the requests; with names that do not have the separator in them, two routers
are never taken for one another.
-/

namespace Dxgate

set_option autoImplicit false

open Collections

/-- The settings that the discovery client is made of. -/
structure Args where
  xdsAddress : String
  listenerNames : List String
  podName : String
  namespaceName : String
  podIp : String
  nodeName : Option String
  clusterId : String
  dnsDomain : String
  deriving DecidableEq

def DEFAULT_DNS_DOMAIN : String := "svc.cluster.local"

def DEFAULT_CLUSTER_ID : String := "Kubernetes"

/-- The settings when neither the command line nor the environment gives any. -/
def Args.default : Args where
  xdsAddress := "http://dubbod.dubbo-system.svc:15012"
  listenerNames := []
  podName := "dxgate"
  namespaceName := "dubbo-system"
  podIp := "127.0.0.1"
  nodeName := none
  clusterId := DEFAULT_CLUSTER_ID
  dnsDomain := DEFAULT_DNS_DOMAIN

structure BootstrapConfig where
  xdsAddress : Option String := none
  listenerNames : List String := []
  podName : Option String := none
  namespaceName : Option String := none
  podIp : Option String := none
  nodeName : Option String := none
  clusterId : Option String := none
  dnsDomain : Option String := none
  deriving DecidableEq

def applyBootstrap (args : Args) (bootstrap : BootstrapConfig) : Args where
  xdsAddress := bootstrap.xdsAddress.getD args.xdsAddress
  listenerNames := if bootstrap.listenerNames ≠ [] then bootstrap.listenerNames else args.listenerNames
  podName := bootstrap.podName.getD args.podName
  namespaceName := bootstrap.namespaceName.getD args.namespaceName
  podIp := bootstrap.podIp.getD args.podIp
  nodeName := bootstrap.nodeName.or args.nodeName
  clusterId := bootstrap.clusterId.getD args.clusterId
  dnsDomain := bootstrap.dnsDomain.getD args.dnsDomain

def Args.identity (args : Args) : RouterIdentity :=
  ⟨args.podName, args.namespaceName, args.podIp, args.nodeName, args.clusterId, args.dnsDomain⟩

/-- The client that `main` creates when a bootstrap file has been loaded or none is given. -/
def startClient (args : Args) (bootstrap : Option BootstrapConfig) : XdsClientConfig :=
  let args := match bootstrap with
    | some bootstrap => applyBootstrap args bootstrap
    | none => args
  ⟨args.xdsAddress, args.identity, args.listenerNames⟩

/-! ## Every request bears the node -/

/-- Every request that a stream has sent is signed with the node. -/
def Stream.Signed (node : Proto.Node) (st : Stream) : Prop :=
  ∀ request ∈ st.requests, request.node = some node

section Signed

variable (codec : Proto.Codec) (channels : Channels) (node : Proto.Node)

theorem sendDiscoveryRequest_signed {st : Stream} (h : st.Signed node) (ads : AdsState) (typeUrl : String)
    (names : List String) (versionInfo nonce : String) :
    (sendDiscoveryRequest channels { st with ads := ads }
      (discoveryRequest node typeUrl names versionInfo nonce)).1.Signed node := by
  unfold sendDiscoveryRequest
  split
  · intro request hRequest
    rcases List.mem_append.mp hRequest with hOld | hNew
    · exact h request hOld
    · cases List.mem_singleton.mp hNew
      rfl
  · exact h

theorem follow_signed (st : Stream) (update : String × List String) (h : st.Signed node) :
    (follow channels node st update).1.Signed node := by
  unfold follow
  split
  · exact sendDiscoveryRequest_signed channels node h _ update.1 update.2 "" ""
  · exact h

theorem respond_signed {st : Stream} (h : st.Signed node) (resp : Proto.DiscoveryResponse) :
    (respond codec channels node st resp).1.Signed node := by
  unfold respond
  split
  · exact h
  · rename_i ads updates _
    have hAck : (sendDiscoveryRequest channels { st with ads := ads } (discoveryRequest node resp.typeUrl
        (ads.subscription resp.typeUrl) resp.versionInfo resp.nonce)).1.Signed node :=
      sendDiscoveryRequest_signed channels node h ads _ _ _ _
    split
    · rename_i hSend
      rwa [hSend] at hAck
    · rename_i hSend
      rw [hSend] at hAck
      exact Runs.tryFold_invariant (Stream.Signed node) (follow_signed channels node) hAck _

theorem receive_signed (cs : ClientState) (item : StreamItem) (h : cs.stream.Signed node) :
    (receive codec channels node cs item).1.stream.Signed node := by
  cases item with
  | failed status => exact h
  | message resp =>
    have hRespond := respond_signed codec channels node h resp
    simp only [receive, handleResponse]
    split
    · rename_i hStep
      rwa [hStep] at hRespond
    · rename_i hStep
      rw [hStep] at hRespond
      rwa [publish_stream]

end Signed

/-- However a stream opens, goes on and fails, it never sends a request in another name. -/
theorem runOnce_signed (codec : Proto.Codec) (channels : Channels) (cfg : XdsClientConfig)
    (watch : RuntimeConfig) (attempt : Attempt) :
    (runOnce codec channels cfg watch attempt).1.stream.Signed cfg.node := by
  have hNone : ∀ ads, Stream.Signed cfg.node ⟨ads, []⟩ := by
    intro ads request hRequest
    cases hRequest
  have hOpen : (openStream channels cfg).1.Signed cfg.node :=
    sendDiscoveryRequest_signed channels cfg.node (hNone .default) _ _ _ _ _
  unfold runOnce
  cases attempt with
  | invalidEndpoint source => exact hNone _
  | connectFailed source => exact hNone _
  | openFailed status =>
    dsimp only
    split
    · rename_i hStep
      rwa [hStep] at hOpen
    · rename_i hStep
      rwa [hStep] at hOpen
  | opened items =>
    dsimp only
    split
    · rename_i hStep
      rwa [hStep] at hOpen
    · rename_i hStep
      rw [hStep] at hOpen
      exact Runs.tryFold_invariant (fun cs : ClientState => cs.stream.Signed cfg.node)
        (receive_signed codec channels cfg.node) hOpen items

/-! ## The node tells the identity -/

attribute [ext] RouterIdentity

/-- The address and the name of a router are free of the separator of node ids. -/
structure RouterIdentity.Separable (id : RouterIdentity) : Prop where
  podIp : '~' ∉ id.podIp.toList
  podName : '~' ∉ id.podName.toList

theorem XdsClientConfig.node_namespace (cfg : XdsClientConfig) :
    cfg.node.metadata.get "NAMESPACE" = some cfg.identity.namespaceName := by
  have hFields : (SortedMap.empty.insertAll [("GENERATOR", "grpc"), ("CLUSTER_ID", cfg.identity.clusterId),
      ("NAMESPACE", cfg.identity.namespaceName)]).get "NAMESPACE" = some cfg.identity.namespaceName := by
    rw [SortedMap.get_insertAll]
    rfl
  unfold XdsClientConfig.node
  cases cfg.identity.nodeName with
  | none => exact hFields
  | some nodeName =>
    rw [SortedMap.get_insert, if_neg (by decide)]
    exact hFields

theorem XdsClientConfig.node_nodeName (cfg : XdsClientConfig) :
    cfg.node.metadata.get "KUBE_NODE_NAME" = cfg.identity.nodeName := by
  unfold XdsClientConfig.node
  cases cfg.identity.nodeName with
  | none =>
    rw [SortedMap.get_insertAll]
    rfl
  | some nodeName => rw [SortedMap.get_insert, if_pos rfl]

theorem RouterIdentity.nodeId_inj {id id' : RouterIdentity} (hId : id.Separable) (hId' : id'.Separable)
    (hNamespace : id.namespaceName = id'.namespaceName) (h : id.nodeId = id'.nodeId) :
    id.podIp = id'.podIp ∧ id.podName = id'.podName ∧ id.dnsDomain = id'.dnsDomain := by
  have hTilde : "~".toList = ['~'] := rfl
  simp only [nodeId, ← hNamespace, String.append_assoc, String.append_right_inj] at h
  obtain ⟨hIp, hRest⟩ := Text.append_sep_inj hTilde hId.podIp hId'.podIp h
  -- with the namespace known, everything between the name and the domain is
  let mid := "." ++ (id.namespaceName ++ ("~" ++ (id.namespaceName ++ ".")))
  have hMid : '~' ∈ mid.toList := by simp [mid]
  have hNames : id.podName ++ (mid ++ id.dnsDomain) = id'.podName ++ (mid ++ id'.dnsDomain) := by
    simpa only [mid, String.append_assoc] using hRest
  obtain ⟨hName, hDomain⟩ := Text.append_inj_of_mem hMid hId.podName hId'.podName hNames
  exact ⟨hIp, hName, hDomain⟩

theorem XdsClientConfig.node_inj {cfg cfg' : XdsClientConfig} (hId : cfg.identity.Separable)
    (hId' : cfg'.identity.Separable) (h : cfg.node = cfg'.node) : cfg.identity = cfg'.identity := by
  have hNamespace : cfg.identity.namespaceName = cfg'.identity.namespaceName := by
    apply Option.some.inj
    rw [← cfg.node_namespace, ← cfg'.node_namespace, h]
  have hNodeName : cfg.identity.nodeName = cfg'.identity.nodeName := by
    rw [← cfg.node_nodeName, ← cfg'.node_nodeName, h]
  have hCluster : cfg.identity.clusterId = cfg'.identity.clusterId := congrArg Proto.Node.cluster h
  have hNodeId : cfg.identity.nodeId = cfg'.identity.nodeId := congrArg Proto.Node.id h
  obtain ⟨hIp, hName, hDomain⟩ := RouterIdentity.nodeId_inj hId hId' hNamespace hNodeId
  exact RouterIdentity.ext hName hNamespace hIp hNodeName hCluster hDomain

/-- Two started programs, each on a stream of its own, however these go on: a request of one and a request
of the other bear the same node exactly if the programs have the same identity. -/
theorem requests_identify {codec codec' : Proto.Codec} {channels channels' : Channels}
    {args args' : Args} {bootstrap bootstrap' : Option BootstrapConfig} {watch watch' : RuntimeConfig}
    {attempt attempt' : Attempt} {request request' : Proto.DiscoveryRequest}
    (hId : (startClient args bootstrap).identity.Separable)
    (hId' : (startClient args' bootstrap').identity.Separable)
    (h : request ∈
      (runOnce codec channels (startClient args bootstrap) watch attempt).1.stream.requests)
    (h' : request' ∈
      (runOnce codec' channels' (startClient args' bootstrap') watch' attempt').1.stream.requests) :
    request.node = request'.node ↔
      (startClient args bootstrap).identity = (startClient args' bootstrap').identity := by
  rw [runOnce_signed codec channels _ watch attempt request h,
    runOnce_signed codec' channels' _ watch' attempt' request' h', Option.some_inj]
  constructor
  · intro hNode
    exact XdsClientConfig.node_inj hId hId' hNode
  · intro hIdentity
    unfold XdsClientConfig.node
    rw [hIdentity]

/-- The requests on a stream that the control plane opens and ends at once. -/
def openedRequests (args : Args) (bootstrap : Option BootstrapConfig) : List Proto.DiscoveryRequest :=
  (runOnce rdsListenerCodec .alwaysOpen (startClient args bootstrap) (.empty "bootstrap")
    (.opened [])).1.stream.requests

def firstRequest (args : Args) (bootstrap : Option BootstrapConfig) : Proto.DiscoveryRequest :=
  discoveryRequest (startClient args bootstrap).node LISTENER_TYPE
    (sortedUnique (startClient args bootstrap).listenerNames) "" ""

theorem openedRequests_eq (args : Args) (bootstrap : Option BootstrapConfig) :
    openedRequests args bootstrap = [firstRequest args bootstrap] := rfl

/-- A pod that a bootstrap file renames is another node. -/
theorem renamedPod_identified :
    (firstRequest .default none).node ≠
      (firstRequest .default (some { podName := some "dxgate-2" })).node := by
  intro hNode
  have hIdentity := (requests_identify ⟨by decide, by decide⟩ ⟨by decide, by decide⟩
    (openedRequests_eq .default none ▸ List.mem_singleton_self _)
    (openedRequests_eq .default (some { podName := some "dxgate-2" }) ▸ List.mem_singleton_self _)).mp hNode
  exact absurd hIdentity (by decide)

/-- A separator in the address or in the name can make two identities one node. -/
example :
    (startClient { Args.default with podIp := "a~b", podName := "c" } none).node =
      (startClient { Args.default with podIp := "a", podName := "b~c" } none).node := by
  decide

end Dxgate
