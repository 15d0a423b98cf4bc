import Dxgate.Core.Validate
import Dxgate.Xds.AdsState
import Mathlib.Data.List.Induction

/-! # The discovery client

`runOnce` opens one stream and serves it: it applies each response, acknowledges it, follows the names
that the response brought up, and publishes the assembled configuration when it passes validation and
differs from the value in the watch channel. `run` opens one stream after another; only the watch
channel outlives a stream.
-/

namespace Dxgate

set_option autoImplicit false

open Collections

def NODE_TYPE_ROUTER : String := "router"

structure RouterIdentity where
  podName : String
  namespaceName : String
  podIp : String
  nodeName : Option String
  clusterId : String
  dnsDomain : String
  deriving DecidableEq

def RouterIdentity.nodeId (id : RouterIdentity) : String :=
  NODE_TYPE_ROUTER ++ "~" ++ id.podIp ++ "~" ++ id.podName ++ "." ++ id.namespaceName ++ "~" ++
    id.namespaceName ++ "." ++ id.dnsDomain

structure XdsClientConfig where
  endpoint : String
  identity : RouterIdentity
  listenerNames : List String
  deriving DecidableEq

def XdsClientConfig.node (cfg : XdsClientConfig) : Proto.Node where
  id := cfg.identity.nodeId
  cluster := cfg.identity.clusterId
  metadata :=
    let fields := SortedMap.empty.insertAll [("GENERATOR", "grpc"),
      ("CLUSTER_ID", cfg.identity.clusterId), ("NAMESPACE", cfg.identity.namespaceName)]
    match cfg.identity.nodeName with
    | some nodeName => fields.insert "KUBE_NODE_NAME" nodeName
    | none => fields

/-- Whether the channels still accept: the n-th request of the stream, the n-th configuration. -/
structure Channels where
  requestOpen : Nat → Bool
  watchOpen : Nat → Bool

def Channels.alwaysOpen : Channels := ⟨fun _ => true, fun _ => true⟩

structure Stream where
  ads : AdsState
  requests : List Proto.DiscoveryRequest
  deriving DecidableEq

structure ClientState where
  stream : Stream
  /-- The value in the watch channel. -/
  watch : RuntimeConfig
  /-- Everything this stream has sent on the watch channel. -/
  published : List RuntimeConfig
  deriving DecidableEq

section Stream

variable (codec : Proto.Codec) (channels : Channels) (node : Proto.Node)

def discoveryRequest (typeUrl : String) (names : List String) (versionInfo nonce : String) :
    Proto.DiscoveryRequest :=
  ⟨versionInfo, some node, names, typeUrl, nonce⟩

def sendDiscoveryRequest (st : Stream) (request : Proto.DiscoveryRequest) : Stream × Option XdsError :=
  if channels.requestOpen st.requests.length then
    ({ st with requests := st.requests ++ [request] }, none)
  else (st, some .requestChannelClosed)

/-- One turn of the subscription loop: store the names, and request them when they are new. -/
def follow (st : Stream) (update : String × List String) : Stream × Option XdsError :=
  match st.ads.setSubscription update.1 update.2 with
  | (ads, true) =>
    sendDiscoveryRequest channels { st with ads := ads } (discoveryRequest node update.1 update.2 "" "")
  | (ads, false) => ({ st with ads := ads }, none)

def respond (st : Stream) (resp : Proto.DiscoveryResponse) : Stream × Option XdsError :=
  match st.ads.applyResponse codec resp with
  | (ads, .error err) => ({ st with ads := ads }, some err)
  | (ads, .ok updates) =>
    match sendDiscoveryRequest channels { st with ads := ads } (discoveryRequest node resp.typeUrl
        (ads.subscription resp.typeUrl) resp.versionInfo resp.nonce) with
    | (st', some err) => (st', some err)
    | (st', none) => Runs.tryFold (follow channels node) st' updates.subscriptions

def publish (cs : ClientState) (versionInfo : String) : ClientState × Option XdsError :=
  let cfg := cs.stream.ads.runtimeConfig versionInfo
  match cfg.validate with
  | .ok () =>
    if cfg ≠ cs.watch then
      if channels.watchOpen cs.published.length then
        ({ cs with watch := cfg, published := cs.published ++ [cfg] }, none)
      else (cs, some .runtimeConfigClosed)
    else (cs, none)
  | .error _ => (cs, none)

/-- The body of the receive loop. -/
def handleResponse (cs : ClientState) (resp : Proto.DiscoveryResponse) : ClientState × Option XdsError :=
  match respond codec channels node cs.stream resp with
  | (stream, some err) => ({ cs with stream := stream }, some err)
  | (stream, none) => publish channels { cs with stream := stream } resp.versionInfo

inductive StreamItem where
  | message (resp : Proto.DiscoveryResponse)
  | failed (status : String)

def receive (cs : ClientState) : StreamItem → ClientState × Option XdsError
  | .message resp => handleResponse codec channels node cs resp
  | .failed status => (cs, some (.streamReceive status))

end Stream

/-- How opening a stream turns out; an opened stream ends after its last item. -/
inductive Attempt where
  | invalidEndpoint (source : String)
  | connectFailed (source : String)
  | openFailed (status : String)
  | opened (items : List StreamItem)

/-- The stream after the first listener request. -/
def openStream (channels : Channels) (cfg : XdsClientConfig) : Stream × Option XdsError :=
  let names := sortedUnique cfg.listenerNames
  sendDiscoveryRequest channels ⟨(AdsState.default.setSubscription LISTENER_TYPE names).1, []⟩
    (discoveryRequest cfg.node LISTENER_TYPE names "" "")

def runOnce (codec : Proto.Codec) (channels : Channels) (cfg : XdsClientConfig) (watch : RuntimeConfig)
    (attempt : Attempt) : ClientState × Option XdsError :=
  match attempt with
  | .invalidEndpoint source => (⟨⟨.default, []⟩, watch, []⟩, some (.invalidEndpoint cfg.endpoint source))
  | .connectFailed source => (⟨⟨.default, []⟩, watch, []⟩, some (.connect cfg.endpoint source))
  | .openFailed status =>
    match openStream channels cfg with
    | (stream, some err) => (⟨stream, watch, []⟩, some err)
    | (stream, none) => (⟨stream, watch, []⟩, some (.streamOpen status))
  | .opened items =>
    match openStream channels cfg with
    | (stream, some err) => (⟨stream, watch, []⟩, some err)
    | (stream, none) => Runs.tryFold (receive codec channels cfg.node) ⟨stream, watch, []⟩ items

/-- The watch value and the error the client stopped with; without one it is still reconnecting. -/
def run (codec : Proto.Codec) (cfg : XdsClientConfig) :
    RuntimeConfig → List (Channels × Attempt) → RuntimeConfig × Option XdsError
  | watch, [] => (watch, none)
  | watch, (channels, attempt) :: rest =>
    match runOnce codec channels cfg watch attempt with
    | (cs, some (.invalidEndpoint endpoint source)) =>
      (cs.watch, some (.invalidEndpoint endpoint source))
    | (cs, _) => run codec cfg cs.watch rest

/-! ## Following names -/

namespace AdsState

/-- The next type in the chain listener, route, cluster, endpoint. -/
def nextType (typeUrl : String) : Option String :=
  if typeUrl = LISTENER_TYPE then some ROUTE_TYPE
  else if typeUrl = ROUTE_TYPE then some CLUSTER_TYPE
  else if typeUrl = CLUSTER_TYPE then some ENDPOINT_TYPE
  else none

/-- The names of the next type that the store of a type refers to. -/
def derivedNames (s : AdsState) (typeUrl : String) : List String :=
  if typeUrl = LISTENER_TYPE then s.routeNames
  else if typeUrl = ROUTE_TYPE then s.clusterNames
  else if typeUrl = CLUSTER_TYPE then s.edsNames
  else []

/-- The state after the names derived from a type have been followed. -/
def settle (s : AdsState) (typeUrl : String) : AdsState :=
  match nextType typeUrl with
  | some next =>
    if s.derivedNames typeUrl ≠ [] then
      { s with subscriptions := s.subscriptions.insert next (s.derivedNames typeUrl) }
    else s
  | none => s

/-- The request for the derived names: sent when there are any and they are not the stored ones. -/
def followRequests (node : Proto.Node) (s : AdsState) (typeUrl : String) : List Proto.DiscoveryRequest :=
  match nextType typeUrl with
  | some next =>
    if s.derivedNames typeUrl ≠ [] ∧ s.subscription next ≠ s.derivedNames typeUrl then
      [discoveryRequest node next (s.derivedNames typeUrl) "" ""]
    else []
  | none => []

theorem derivedNames_sorted (s : AdsState) (typeUrl : String) :
    (s.derivedNames typeUrl).Pairwise (· < ·) := by
  unfold derivedNames
  split
  · exact sortedUnique_sorted _
  split
  · exact sortedUnique_sorted _
  split
  · exact sortedUnique_sorted _
  · exact List.Pairwise.nil

theorem Applied.subscriptions {codec : Proto.Codec} {s s' : AdsState} {resp : Proto.DiscoveryResponse}
    {u : DiscoveryUpdates} (h : Applied codec s resp s' u) :
    u.subscriptions = match nextType resp.typeUrl with
      | some next => if s'.derivedNames resp.typeUrl ≠ [] then [(next, s'.derivedNames resp.typeUrl)] else []
      | none => [] := by
  cases h with
  | listeners _ hType => simp [hType, DiscoveryUpdates.subscriptions, nextType, derivedNames]
  | routes _ hType =>
    simp [hType, DiscoveryUpdates.subscriptions, nextType, derivedNames, types_distinct]
  | clusters _ hType =>
    simp [hType, DiscoveryUpdates.subscriptions, nextType, derivedNames, types_distinct]
  | endpoints _ hType =>
    simp [hType, DiscoveryUpdates.subscriptions, nextType, types_distinct]
  | unknown hListener hRoute hCluster hEndpoint =>
    simp [hListener, hRoute, hCluster, DiscoveryUpdates.subscriptions, nextType]

end AdsState

section Spec

variable {codec : Proto.Codec} {channels : Channels} {node : Proto.Node}

theorem sendDiscoveryRequest_ok {st st' : Stream} {request : Proto.DiscoveryRequest}
    (h : sendDiscoveryRequest channels st request = (st', none)) :
    st' = { st with requests := st.requests ++ [request] } := by
  rw [sendDiscoveryRequest] at h
  split at h <;> cases h
  rfl

theorem sendDiscoveryRequest_open (hOpen : ∀ n, channels.requestOpen n = true) (st : Stream)
    (request : Proto.DiscoveryRequest) :
    sendDiscoveryRequest channels st request =
      ({ st with requests := st.requests ++ [request] }, none) := by
  rw [sendDiscoveryRequest, if_pos (hOpen _)]

theorem AdsState.insert_subscription_self {s : AdsState} {typeUrl : String} {names : List String}
    (h : s.subscriptions.get typeUrl = some names) :
    { s with subscriptions := s.subscriptions.insert typeUrl names } = s := by
  have hSame : s.subscriptions.insert typeUrl names = s.subscriptions := by
    ext1 t
    rw [SortedMap.get_insert]
    split
    · rename_i hEq
      rw [hEq, h]
    · rfl
  rw [hSame]

theorem follow_ok {st st' : Stream} {typeUrl : String} {names : List String}
    (hSorted : names.Pairwise (· < ·)) (hNames : names ≠ [])
    (h : follow channels node st (typeUrl, names) = (st', none)) :
    st' = ⟨{ st.ads with subscriptions := st.ads.subscriptions.insert typeUrl names },
      st.requests ++ if st.ads.subscription typeUrl ≠ names then
        [discoveryRequest node typeUrl names "" ""] else []⟩ := by
  have hUnique := sortedUnique_of_sorted hSorted
  rw [follow, AdsState.setSubscription, hUnique] at h
  by_cases hSame : st.ads.subscriptions.get typeUrl = some names
  · rw [if_pos hSame] at h
    cases h
    rw [AdsState.insert_subscription_self hSame, AdsState.subscription, hSame]
    simp
  · rw [if_neg hSame] at h
    have hDiffers : st.ads.subscription typeUrl ≠ names := by
      rw [AdsState.subscription]
      cases hStored : st.ads.subscriptions.get typeUrl with
      | none => exact hNames.symm
      | some stored => exact fun hEq => hSame (hStored.trans (congrArg some hEq))
    rw [if_pos hDiffers]
    exact sendDiscoveryRequest_ok h

theorem follow_open (hOpen : ∀ n, channels.requestOpen n = true) (st : Stream)
    (update : String × List String) : (follow channels node st update).2 = none := by
  rw [follow]
  split
  · rw [sendDiscoveryRequest_open hOpen]
  · rfl

/-- All that an accepted response does to a stream. -/
theorem respond_ok {st st' : Stream} {resp : Proto.DiscoveryResponse}
    (h : respond codec channels node st resp = (st', none)) :
    ∃ ads u, st.ads.applyResponse codec resp = (ads, .ok u) ∧ AdsState.Applied codec st.ads resp ads u ∧
      st' = ⟨ads.settle resp.typeUrl, st.requests ++
        discoveryRequest node resp.typeUrl (ads.subscription resp.typeUrl) resp.versionInfo resp.nonce ::
          ads.followRequests node resp.typeUrl⟩ := by
  rw [respond] at h
  split at h
  · cases h
  · rename_i ads u hApply
    have hApplied := AdsState.applyResponse_ok hApply
    refine ⟨ads, u, hApply, hApplied, ?_⟩
    split at h
    · cases h
    · rename_i acked hAck
      have hAcked := sendDiscoveryRequest_ok hAck
      rw [hApplied.subscriptions] at h
      unfold AdsState.settle AdsState.followRequests
      cases hNext : AdsState.nextType resp.typeUrl with
      | none =>
        simp only [hNext, Runs.tryFold_nil] at h ⊢
        cases h
        exact hAcked
      | some next =>
        simp only [hNext] at h ⊢
        by_cases hNames : ads.derivedNames resp.typeUrl = []
        · simp only [hNames, ne_eq, not_true_eq_false, if_false, Runs.tryFold_nil, false_and] at h ⊢
          cases h
          exact hAcked
        · simp only [ne_eq, hNames, not_false_eq_true, if_true, true_and] at h ⊢
          rcases hFollow : follow channels node acked (next, ads.derivedNames resp.typeUrl) with
            ⟨followed, _ | err⟩
          · rw [Runs.tryFold_cons_ok hFollow, Runs.tryFold_nil] at h
            cases h
            rw [follow_ok (ads.derivedNames_sorted _) hNames hFollow, hAcked]
            simp
          · rw [Runs.tryFold_cons_error hFollow] at h
            cases h

theorem respond_open (node : Proto.Node) (hOpen : ∀ n, channels.requestOpen n = true) {st : Stream}
    {resp : Proto.DiscoveryResponse} {ads : AdsState} {u : DiscoveryUpdates}
    (h : st.ads.applyResponse codec resp = (ads, .ok u)) :
    (respond codec channels node st resp).2 = none := by
  have hLoop (updates : List (String × List String)) (st : Stream) :
      (Runs.tryFold (follow channels node) st updates).2 = none := by
    induction updates generalizing st with
    | nil => rfl
    | cons update rest ih =>
      have hFollow : follow channels node st update = ((follow channels node st update).1, none) :=
        Prod.ext rfl (follow_open hOpen st update)
      rw [Runs.tryFold_cons_ok hFollow]
      exact ih _
  simp only [respond, h, sendDiscoveryRequest_open hOpen]
  exact hLoop _ _

theorem respond_error {st : Stream} {resp : Proto.DiscoveryResponse} {ads : AdsState} {err : XdsError}
    (h : st.ads.applyResponse codec resp = (ads, .error err)) :
    respond codec channels node st resp = (⟨ads, st.requests⟩, some err) := by
  simp only [respond, h]

/-! ## Publishing -/

/-- Nothing is sent, or the assembled configuration is: it is valid and not the watched one. -/
theorem publish_cases {cs cs' : ClientState} {versionInfo : String} {err : Option XdsError}
    (h : publish channels cs versionInfo = (cs', err)) :
    (cs' = cs ∧ (err = none → (cs.stream.ads.runtimeConfig versionInfo).WellFormed →
      cs.watch = cs.stream.ads.runtimeConfig versionInfo)) ∨
    (err = none ∧ (cs.stream.ads.runtimeConfig versionInfo).WellFormed ∧
      cs.stream.ads.runtimeConfig versionInfo ≠ cs.watch ∧
      cs' = { cs with
        watch := cs.stream.ads.runtimeConfig versionInfo
        published := cs.published ++ [cs.stream.ads.runtimeConfig versionInfo] }) := by
  rw [publish] at h
  split at h
  · rename_i hValid
    rw [RuntimeConfig.validate_ok_iff] at hValid
    split at h
    · rename_i hDiffers
      split at h
      · cases h
        exact Or.inr ⟨rfl, hValid, hDiffers, rfl⟩
      · cases h
        exact Or.inl ⟨rfl, fun hNone => by cases hNone⟩
    · rename_i hSame
      cases h
      exact Or.inl ⟨rfl, fun _ _ => (not_not.mp hSame).symm⟩
  · rename_i conflicts hInvalid
    cases h
    exact Or.inl ⟨rfl, fun _ hValid => absurd hValid (RuntimeConfig.validate_error_iff.mp hInvalid).1⟩

theorem publish_stream (channels : Channels) (cs : ClientState) (versionInfo : String) :
    (publish channels cs versionInfo).1.stream = cs.stream := by
  rcases publish_cases (Prod.mk.eta (p := publish channels cs versionInfo)).symm with
    ⟨hState, _⟩ | ⟨_, _, _, hState⟩ <;> rw [hState]

theorem handleResponse_ok {cs cs' : ClientState} {resp : Proto.DiscoveryResponse}
    (h : handleResponse codec channels node cs resp = (cs', none)) :
    respond codec channels node cs.stream resp = (cs'.stream, none) ∧
      publish channels { cs with stream := cs'.stream } resp.versionInfo = (cs', none) := by
  rw [handleResponse] at h
  split at h
  · cases h
  · rename_i stream hRespond
    have hStream := publish_stream channels { cs with stream := stream } resp.versionInfo
    rw [h] at hStream
    have hStream : cs'.stream = stream := hStream
    rw [hStream]
    exact ⟨hRespond, h⟩

theorem publish_open (hOpen : ∀ n, channels.watchOpen n = true) (cs : ClientState) (versionInfo : String) :
    (publish channels cs versionInfo).2 = none := by
  simp only [publish, hOpen, if_true]
  split
  · split <;> rfl
  · rfl

theorem handleResponse_open (hRequests : ∀ n, channels.requestOpen n = true)
    (hWatch : ∀ n, channels.watchOpen n = true) {cs : ClientState} {resp : Proto.DiscoveryResponse}
    {ads : AdsState} {u : DiscoveryUpdates} (h : cs.stream.ads.applyResponse codec resp = (ads, .ok u)) :
    (handleResponse codec channels node cs resp).2 = none := by
  have hRespond := respond_open node hRequests h
  rw [handleResponse]
  split
  · rename_i hError
    rw [hError] at hRespond
    cases hRespond
  · exact publish_open hWatch _ _

theorem handleResponse_watch {cs cs' : ClientState} {resp : Proto.DiscoveryResponse}
    (h : handleResponse codec channels node cs resp = (cs', none))
    (hValid : (cs'.stream.ads.runtimeConfig resp.versionInfo).WellFormed) :
    cs'.watch = cs'.stream.ads.runtimeConfig resp.versionInfo := by
  rcases publish_cases (handleResponse_ok h).2 with ⟨hState, hWatch⟩ | ⟨_, _, _, hState⟩
  · rw [hState]
    rw [hState] at hValid
    exact hWatch rfl hValid
  · rw [hState]

end Spec

/-! ## Runs of one stream -/

section Run

variable (codec : Proto.Codec) (channels : Channels) (cfg : XdsClientConfig) (watch : RuntimeConfig)

/-- The client is in state `cs` when the responses have been received and processed. -/
def Serves (responses : List Proto.DiscoveryResponse) (cs : ClientState) : Prop :=
  runOnce codec channels cfg watch (.opened (responses.map .message)) = (cs, none)

/-- In the course of the responses, `resp` takes the client from `cs` to `cs'`. -/
def Processes (responses : List Proto.DiscoveryResponse) (cs : ClientState)
    (resp : Proto.DiscoveryResponse) (cs' : ClientState) : Prop :=
  ∃ before after, responses = before ++ resp :: after ∧ Serves codec channels cfg watch before cs ∧
    handleResponse codec channels cfg.node cs resp = (cs', none)

variable {codec channels cfg watch}

theorem openStream_ok {stream : Stream} (h : openStream channels cfg = (stream, none)) :
    stream = ⟨{ AdsState.default with
        subscriptions := SortedMap.empty.insert LISTENER_TYPE (sortedUnique cfg.listenerNames) },
      [discoveryRequest cfg.node LISTENER_TYPE (sortedUnique cfg.listenerNames) "" ""]⟩ := by
  rw [openStream] at h
  have hSent := sendDiscoveryRequest_ok h
  simpa [AdsState.setSubscription, AdsState.default] using hSent

theorem serves_nil {cs : ClientState} (h : Serves codec channels cfg watch [] cs) :
    openStream channels cfg = (cs.stream, none) ∧ cs.watch = watch ∧ cs.published = [] := by
  simp only [Serves, runOnce, List.map_nil, Runs.tryFold_nil] at h
  split at h
  · cases h
  · rename_i stream hOpen
    cases h
    exact ⟨hOpen, rfl, rfl⟩

theorem serves_concat {responses : List Proto.DiscoveryResponse} {resp : Proto.DiscoveryResponse}
    {cs' : ClientState} : Serves codec channels cfg watch (responses ++ [resp]) cs' ↔
      ∃ cs, Serves codec channels cfg watch responses cs ∧
        handleResponse codec channels cfg.node cs resp = (cs', none) := by
  simp only [Serves, runOnce, List.map_append, List.map_cons, List.map_nil]
  split
  · simp
  · rw [Runs.tryFold_concat_ok]
    rfl

theorem serves_open (codec : Proto.Codec) (cfg : XdsClientConfig) (watch : RuntimeConfig)
    (hOpen : ∀ n, channels.requestOpen n = true) : ∃ cs, Serves codec channels cfg watch [] cs := by
  refine ⟨⟨(openStream channels cfg).1, watch, []⟩, ?_⟩
  simp only [Serves, runOnce, openStream, sendDiscoveryRequest_open hOpen, List.map_nil, Runs.tryFold_nil]

theorem Serves.extend (hRequests : ∀ n, channels.requestOpen n = true)
    (hWatch : ∀ n, channels.watchOpen n = true) {responses : List Proto.DiscoveryResponse}
    {cs : ClientState} (h : Serves codec channels cfg watch responses cs) {resp : Proto.DiscoveryResponse}
    {ads : AdsState} {u : DiscoveryUpdates} (hApply : cs.stream.ads.applyResponse codec resp = (ads, .ok u)) :
    ∃ cs', handleResponse codec channels cfg.node cs resp = (cs', none) ∧
      Serves codec channels cfg watch (responses ++ [resp]) cs' := by
  have hHandle : handleResponse codec channels cfg.node cs resp =
      ((handleResponse codec channels cfg.node cs resp).1, none) :=
    Prod.ext rfl (handleResponse_open hRequests hWatch hApply)
  exact ⟨_, hHandle, serves_concat.mpr ⟨cs, h, hHandle⟩⟩

/-- The rule for runs of one stream: an invariant of the stream holds after any responses. -/
theorem Serves.invariant {I : ClientState → Prop}
    (hInit : ∀ stream, openStream channels cfg = (stream, none) → I ⟨stream, watch, []⟩)
    (hStep : ∀ cs cs' resp, I cs → handleResponse codec channels cfg.node cs resp = (cs', none) → I cs')
    {responses : List Proto.DiscoveryResponse} {cs : ClientState}
    (h : Serves codec channels cfg watch responses cs) : I cs := by
  induction responses using List.reverseRecOn generalizing cs with
  | nil =>
    obtain ⟨hOpen, hWatch, hPublished⟩ := serves_nil h
    have hState : cs = ⟨cs.stream, watch, []⟩ := by rw [← hWatch, ← hPublished]
    rw [hState]
    exact hInit cs.stream hOpen
  | append_singleton before resp ih =>
    obtain ⟨mid, hBefore, hLast⟩ := serves_concat.mp h
    exact hStep mid cs resp (ih hBefore) hLast

theorem Processes.last (codec : Proto.Codec) (channels : Channels) (cfg : XdsClientConfig)
    (watch : RuntimeConfig) (before : List Proto.DiscoveryResponse) (resp : Proto.DiscoveryResponse)
    (hBefore : (runOnce codec channels cfg watch (.opened (before.map .message))).2 = none)
    (hLast : (handleResponse codec channels cfg.node
      (runOnce codec channels cfg watch (.opened (before.map .message))).1 resp).2 = none) :
    Processes codec channels cfg watch (before ++ [resp])
      (runOnce codec channels cfg watch (.opened (before.map .message))).1 resp
      (handleResponse codec channels cfg.node
        (runOnce codec channels cfg watch (.opened (before.map .message))).1 resp).1 :=
  ⟨before, [], rfl, Prod.ext rfl hBefore, Prod.ext rfl hLast⟩

theorem Processes.before {P : ClientState → Prop} {responses : List Proto.DiscoveryResponse}
    (hInit : ∀ cs, Serves codec channels cfg watch [] cs → P cs)
    (hAll : ∀ cs resp cs', Processes codec channels cfg watch responses cs resp cs' → P cs')
    {cs cs' : ClientState} {resp : Proto.DiscoveryResponse}
    (h : Processes codec channels cfg watch responses cs resp cs') : P cs := by
  obtain ⟨before, after, hSplit, hServes, _⟩ := h
  induction before using List.reverseRecOn with
  | nil => exact hInit cs hServes
  | append_singleton earlier last _ =>
    obtain ⟨mid, hMid, hLast⟩ := serves_concat.mp hServes
    refine hAll mid last cs ⟨earlier, resp :: after, ?_, hMid, hLast⟩
    rw [hSplit, List.append_assoc, List.singleton_append]

/-- An invariant of the steps that meet a condition holds in every run whose steps all meet it. -/
theorem Processes.invariant {I : ClientState → Prop} {C : ClientState → Proto.DiscoveryResponse → Prop}
    (hInit : ∀ cs, Serves codec channels cfg watch [] cs → I cs)
    (hStep : ∀ cs resp cs', I cs → C cs resp →
      handleResponse codec channels cfg.node cs resp = (cs', none) → I cs')
    {responses : List Proto.DiscoveryResponse}
    (hCond : ∀ cs resp cs', Processes codec channels cfg watch responses cs resp cs' → C cs resp)
    {cs cs' : ClientState} {resp : Proto.DiscoveryResponse}
    (h : Processes codec channels cfg watch responses cs resp cs') : I cs' := by
  obtain ⟨before, after, hSplit, hServes, hLast⟩ := h
  induction before using List.reverseRecOn generalizing cs cs' resp after with
  | nil => exact hStep cs resp cs' (hInit cs hServes) (hCond _ _ _ ⟨[], after, hSplit, hServes, hLast⟩) hLast
  | append_singleton earlier last ih =>
    have hNow := hCond _ _ _ ⟨earlier ++ [last], after, hSplit, hServes, hLast⟩
    obtain ⟨mid, hMid, hPrev⟩ := serves_concat.mp hServes
    refine hStep cs resp cs' (ih (resp :: after) ?_ hMid hPrev) hNow hLast
    rw [hSplit, List.append_assoc, List.singleton_append]

/-- Where a response leaves a state with `P` exactly when it meets `C`, every publication has `P` exactly
when every published response meets `C`. -/
theorem Processes.published_iff {P : ClientState → Prop} {C : ClientState → Proto.DiscoveryResponse → Prop}
    {responses : List Proto.DiscoveryResponse}
    (hStep : ∀ cs resp cs', Processes codec channels cfg watch responses cs resp cs' → (P cs' ↔ C cs resp)) :
    ((∀ cs resp cs', Processes codec channels cfg watch responses cs resp cs' →
        cs'.published ≠ cs.published → P cs') ↔
      ∀ cs resp cs', Processes codec channels cfg watch responses cs resp cs' →
        cs'.published ≠ cs.published → C cs resp) ∧
    ((∀ cs resp cs', Processes codec channels cfg watch responses cs resp cs' → C cs resp) →
      ∀ cs resp cs', Processes codec channels cfg watch responses cs resp cs' → P cs') := by
  refine ⟨⟨?_, ?_⟩, ?_⟩
  · intro h cs resp cs' hProcess hSent
    exact (hStep cs resp cs' hProcess).mp (h cs resp cs' hProcess hSent)
  · intro h cs resp cs' hProcess hSent
    exact (hStep cs resp cs' hProcess).mpr (h cs resp cs' hProcess hSent)
  · intro h cs resp cs' hProcess
    exact (hStep cs resp cs' hProcess).mpr (h cs resp cs' hProcess)

end Run

end Dxgate
