import Dxgate.Xds.Client

/-! # The requests of a stream

Acknowledgements and subscriptions of four types go out on one stream and both carry name lists. The
invariant is that the last request of a type carries the stored names of that type, sorted and without
duplicates: an acknowledgement never repeats an outdated list.
-/

namespace Dxgate

set_option autoImplicit false

open Collections

def lastRequest (requests : List Proto.DiscoveryRequest) (typeUrl : String) :
    Option Proto.DiscoveryRequest :=
  requests.reverse.find? (·.typeUrl = typeUrl)

theorem lastRequest_concat (requests : List Proto.DiscoveryRequest) (request : Proto.DiscoveryRequest)
    (typeUrl : String) : lastRequest (requests ++ [request]) typeUrl =
      if request.typeUrl = typeUrl then some request else lastRequest requests typeUrl := by
  rw [lastRequest, List.reverse_append, List.reverse_singleton, List.singleton_append, List.find?_cons]
  split <;> simp_all [lastRequest]

namespace AdsState

theorem Applied.subscriptions_eq {codec : Proto.Codec} {s s' : AdsState} {resp : Proto.DiscoveryResponse}
    {u : DiscoveryUpdates} (h : Applied codec s resp s' u) : s'.subscriptions = s.subscriptions := by
  cases h with
  | listeners _ _ _ hState => rw [hState]
  | routes _ _ _ hState => rw [hState]
  | clusters _ _ _ hState => rw [hState]
  | endpoints _ _ _ hState => rw [hState]
  | unknown => rfl

theorem Applied.subscription_eq {codec : Proto.Codec} {s s' : AdsState} {resp : Proto.DiscoveryResponse}
    {u : DiscoveryUpdates} (h : Applied codec s resp s' u) (typeUrl : String) :
    s'.subscription typeUrl = s.subscription typeUrl := by
  rw [subscription, h.subscriptions_eq, subscription]

theorem settle_subscription (s : AdsState) (typeUrl t : String) :
    (s.settle typeUrl).subscription t =
      if nextType typeUrl = some t ∧ s.derivedNames typeUrl ≠ [] then s.derivedNames typeUrl
      else s.subscription t := by
  unfold settle
  cases hNext : nextType typeUrl with
  | none => simp
  | some next =>
    by_cases hNames : s.derivedNames typeUrl = []
    · simp [hNames]
    · by_cases hEq : t = next
      · simp [subscription, hNames, hEq]
      · have hNe : next ≠ t := fun h => hEq h.symm
        simp [subscription, hNames, hEq, hNe]

theorem lastRequest_followRequests (node : Proto.Node) (s : AdsState) (typeUrl t : String)
    (requests : List Proto.DiscoveryRequest) :
    lastRequest (requests ++ s.followRequests node typeUrl) t =
      if nextType typeUrl = some t ∧ s.derivedNames typeUrl ≠ [] ∧
          s.subscription t ≠ s.derivedNames typeUrl then
        some (discoveryRequest node t (s.derivedNames typeUrl) "" "")
      else lastRequest requests t := by
  unfold followRequests
  cases hNext : nextType typeUrl with
  | none => simp
  | some next =>
    by_cases hSend : s.derivedNames typeUrl ≠ [] ∧ s.subscription next ≠ s.derivedNames typeUrl
    · simp only [hSend, ne_eq, not_false_eq_true, and_self, if_true, lastRequest_concat]
      by_cases hEq : next = t
      · subst hEq
        simp [discoveryRequest, hSend]
      · simp [discoveryRequest, hEq]
    · have hNot : ¬(some next = some t ∧ s.derivedNames typeUrl ≠ [] ∧
          s.subscription t ≠ s.derivedNames typeUrl) := by
        rintro ⟨hEq, hNames, hDiffers⟩
        cases hEq
        exact hSend ⟨hNames, hDiffers⟩
      rw [if_neg hNot]
      simp only [hSend, if_false, List.append_nil]

end AdsState

/-- Last-sent and stored names agree, and the stored ones are sorted without duplicates. -/
structure Stream.Agrees (st : Stream) : Prop where
  names : ∀ typeUrl request, lastRequest st.requests typeUrl = some request →
    request.resourceNames = st.ads.subscription typeUrl
  sorted : ∀ typeUrl, (st.ads.subscription typeUrl).Pairwise (· < ·)

theorem openStream_agrees {channels : Channels} {cfg : XdsClientConfig} {stream : Stream}
    (h : openStream channels cfg = (stream, none)) : stream.Agrees := by
  rw [openStream_ok h]
  have hStored (t : String) : AdsState.subscription { AdsState.default with
      subscriptions := SortedMap.empty.insert LISTENER_TYPE (sortedUnique cfg.listenerNames) } t =
        if t = LISTENER_TYPE then sortedUnique cfg.listenerNames else [] := by
    by_cases hType : t = LISTENER_TYPE <;> simp [AdsState.subscription, hType]
  constructor
  · intro t request hLast
    rw [← List.nil_append [discoveryRequest _ _ _ _ _], lastRequest_concat] at hLast
    split at hLast
    · rename_i hType
      cases hLast
      have hType : LISTENER_TYPE = t := hType
      rw [hStored, if_pos hType.symm]
      rfl
    · cases hLast
  · intro t
    rw [hStored]
    split
    · exact sortedUnique_sorted _
    · exact List.Pairwise.nil

theorem respond_agrees {codec : Proto.Codec} {channels : Channels} {node : Proto.Node} {st st' : Stream}
    {resp : Proto.DiscoveryResponse} (hAgrees : st.Agrees)
    (h : respond codec channels node st resp = (st', none)) : st'.Agrees := by
  obtain ⟨ads, u, _, hApplied, rfl⟩ := respond_ok h
  have hSub := hApplied.subscription_eq
  constructor
  · intro t request hLast
    have hSplit : st.requests ++ discoveryRequest node resp.typeUrl (ads.subscription resp.typeUrl)
        resp.versionInfo resp.nonce :: ads.followRequests node resp.typeUrl =
        (st.requests ++ [discoveryRequest node resp.typeUrl (ads.subscription resp.typeUrl)
          resp.versionInfo resp.nonce]) ++ ads.followRequests node resp.typeUrl := by simp
    simp only [hSplit, AdsState.lastRequest_followRequests] at hLast
    simp only [AdsState.settle_subscription]
    split at hLast
    · rename_i hSend
      cases hLast
      rw [if_pos ⟨hSend.1, hSend.2.1⟩]
      rfl
    · rename_i hKeep
      -- no new request: the derived names, if there are any, are the stored ones already
      have hStored : (if AdsState.nextType resp.typeUrl = some t ∧ ads.derivedNames resp.typeUrl ≠ [] then
          ads.derivedNames resp.typeUrl else ads.subscription t) = ads.subscription t := by
        split
        · rename_i hNext
          by_contra hDiffers
          exact hKeep ⟨hNext.1, hNext.2, fun hEq => hDiffers hEq.symm⟩
        · rfl
      rw [hStored]
      rw [lastRequest_concat] at hLast
      split at hLast
      · rename_i hType
        cases hLast
        rw [← hType]
        rfl
      · rw [hSub]
        exact hAgrees.names t request hLast
  · intro t
    rw [AdsState.settle_subscription]
    split
    · exact ads.derivedNames_sorted _
    · rw [hSub]
      exact hAgrees.sorted t

theorem Serves.agrees {codec : Proto.Codec} {channels : Channels} {cfg : XdsClientConfig}
    {watch : RuntimeConfig} {responses : List Proto.DiscoveryResponse} {cs : ClientState}
    (h : Serves codec channels cfg watch responses cs) : cs.stream.Agrees := by
  refine h.invariant (I := fun cs => cs.stream.Agrees) (fun stream hOpen => openStream_agrees hOpen) ?_
  intro cs cs' resp hAgrees hStep
  exact respond_agrees hAgrees (handleResponse_ok hStep).1

/-! ## The discipline -/

/-- What a stream may send, over every sequence of responses. -/
structure RequestDiscipline (codec : Proto.Codec) (channels : Channels) (cfg : XdsClientConfig)
    (watch : RuntimeConfig) : Prop where
  /-- One listener request with the sorted names opens the stream. -/
  initial : (runOnce codec channels cfg watch (.opened [])).1.stream.requests =
      [discoveryRequest cfg.node LISTENER_TYPE (sortedUnique cfg.listenerNames) "" ""] ∧
    (sortedUnique cfg.listenerNames).Pairwise (· < ·) ∧
    ∀ name, name ∈ sortedUnique cfg.listenerNames ↔ name ∈ cfg.listenerNames
  /-- An accepted response is acknowledged once and followed by at most one request for the next type,
  sent exactly when the derived names are non-empty and not the stored ones. -/
  accepted : ∀ responses cs resp ads u, Serves codec channels cfg watch responses cs →
    cs.stream.ads.applyResponse codec resp = (ads, .ok u) →
    ∃ names follow, (runOnce codec channels cfg watch
        (.opened ((responses ++ [resp]).map .message))).1.stream.requests =
          cs.stream.requests ++ ⟨resp.versionInfo, some cfg.node, names, resp.typeUrl, resp.nonce⟩ :: follow ∧
      names = ads.subscription resp.typeUrl ∧
      ((follow = [] ∧ ∀ next, AdsState.nextType resp.typeUrl = some next →
          ads.derivedNames resp.typeUrl = [] ∨
          ads.derivedNames resp.typeUrl = cs.stream.ads.subscription next) ∨
        ∃ next, AdsState.nextType resp.typeUrl = some next ∧ ads.derivedNames resp.typeUrl ≠ [] ∧
          ads.derivedNames resp.typeUrl ≠ cs.stream.ads.subscription next ∧
          follow = [⟨"", some cfg.node, ads.derivedNames resp.typeUrl, next, ""⟩])
  /-- The first response that does not decode ends the stream: nothing more is sent or published. -/
  rejected : ∀ responses cs resp ads err rest, Serves codec channels cfg watch responses cs →
    cs.stream.ads.applyResponse codec resp = (ads, .error err) →
    runOnce codec channels cfg watch (.opened (responses.map .message ++ .message resp :: rest)) =
      ({ cs with stream := ⟨ads, cs.stream.requests⟩ }, some err)
  /-- Between responses the last request of each type carries the stored names of the type. -/
  agreement : ∀ responses cs, Serves codec channels cfg watch responses cs →
    ∀ typeUrl request, lastRequest cs.stream.requests typeUrl = some request →
      request.resourceNames = cs.stream.ads.subscription typeUrl ∧
      (cs.stream.ads.subscription typeUrl).Pairwise (· < ·)

section Discipline

variable {codec : Proto.Codec} {channels : Channels} {cfg : XdsClientConfig} {watch : RuntimeConfig}

theorem Serves.receive {responses : List Proto.DiscoveryResponse} {cs : ClientState}
    (h : Serves codec channels cfg watch responses cs) (items : List StreamItem) :
    runOnce codec channels cfg watch (.opened (responses.map .message ++ items)) =
      Runs.tryFold (Dxgate.receive codec channels cfg.node) cs items := by
  simp only [Serves, runOnce] at h ⊢
  split at h
  · cases h
  · rename_i stream hOpen
    exact Runs.tryFold_append_ok h

theorem handleResponse_requests {cs : ClientState} {resp : Proto.DiscoveryResponse} {stream : Stream}
    (h : respond codec channels cfg.node cs.stream resp = (stream, none)) :
    (Runs.tryFold (Dxgate.receive codec channels cfg.node) cs [.message resp]).1.stream = stream := by
  have hStep : Dxgate.receive codec channels cfg.node cs (.message resp) =
      publish channels { cs with stream := stream } resp.versionInfo := by
    simp only [Dxgate.receive, handleResponse, h]
  have hPublish := publish_stream channels { cs with stream := stream } resp.versionInfo
  rcases hResult : publish channels { cs with stream := stream } resp.versionInfo with ⟨cs', _ | err⟩
  · rw [Runs.tryFold_cons_ok (hStep.trans hResult), Runs.tryFold_nil]
    rwa [hResult] at hPublish
  · rw [Runs.tryFold_cons_error (hStep.trans hResult)]
    rwa [hResult] at hPublish

theorem accepted_requests (hOpen : ∀ n, channels.requestOpen n = true)
    {responses : List Proto.DiscoveryResponse} {cs : ClientState} {resp : Proto.DiscoveryResponse}
    {ads : AdsState} {u : DiscoveryUpdates} (hRun : Serves codec channels cfg watch responses cs)
    (hApply : cs.stream.ads.applyResponse codec resp = (ads, .ok u)) :
    (runOnce codec channels cfg watch (.opened ((responses ++ [resp]).map .message))).1.stream.requests =
      cs.stream.requests ++ discoveryRequest cfg.node resp.typeUrl (ads.subscription resp.typeUrl)
        resp.versionInfo resp.nonce :: ads.followRequests cfg.node resp.typeUrl := by
  have hRespond : respond codec channels cfg.node cs.stream resp =
      ((respond codec channels cfg.node cs.stream resp).1, none) :=
    Prod.ext rfl (respond_open _ hOpen hApply)
  obtain ⟨ads', u', hApply', _, hStream⟩ := respond_ok hRespond
  have hSame : ads' = ads := (Prod.ext_iff.mp (hApply'.symm.trans hApply)).1
  subst hSame
  rw [List.map_append, List.map_cons, List.map_nil, hRun.receive, handleResponse_requests hRespond, hStream]

/-- On an open request channel every stream keeps the discipline, whatever the responses are. -/
theorem runOnce_requestDiscipline (codec : Proto.Codec) (channels : Channels) (cfg : XdsClientConfig)
    (watch : RuntimeConfig) (hOpen : ∀ n, channels.requestOpen n = true) :
    RequestDiscipline codec channels cfg watch where
  initial := by
    refine ⟨?_, sortedUnique_sorted _, fun _ => mem_sortedUnique⟩
    simp [runOnce, openStream, sendDiscoveryRequest_open hOpen]
  accepted responses cs resp ads u hRun hApply := by
    refine ⟨ads.subscription resp.typeUrl, ads.followRequests cfg.node resp.typeUrl,
      accepted_requests hOpen hRun hApply, rfl, ?_⟩
    have hSub := (AdsState.applyResponse_ok hApply).subscription_eq
    unfold AdsState.followRequests
    cases hNext : AdsState.nextType resp.typeUrl with
    | none => exact Or.inl ⟨rfl, fun next h => by cases h⟩
    | some next =>
      by_cases hSend : ads.derivedNames resp.typeUrl ≠ [] ∧
          ads.subscription next ≠ ads.derivedNames resp.typeUrl
      · refine Or.inr ⟨next, rfl, hSend.1, ?_, ?_⟩
        · rw [← hSub]
          exact hSend.2.symm
        · simp only [hSend, ne_eq, not_false_eq_true, and_self, if_true]
          rfl
      · refine Or.inl ⟨by simp only [hSend, if_false], ?_⟩
        rintro _ ⟨rfl⟩
        rw [← hSub]
        by_cases hNames : ads.derivedNames resp.typeUrl = []
        · exact Or.inl hNames
        · exact Or.inr (not_not.mp fun h => hSend ⟨hNames, fun hEq => h hEq.symm⟩)
  rejected responses cs resp ads err rest hRun hApply := by
    have hStep : receive codec channels cfg.node cs (.message resp) =
        ({ cs with stream := ⟨ads, cs.stream.requests⟩ }, some err) := by
      simp only [receive, handleResponse, respond_error hApply]
    rw [hRun.receive, Runs.tryFold_cons_error hStep]
  agreement responses cs hRun typeUrl request hLast :=
    ⟨hRun.agrees.names typeUrl request hLast, hRun.agrees.sorted typeUrl⟩

end Discipline

/-! ## A stream with one listener -/

/-- The client of the example manifests, with a short listener name. -/
def sampleClient : XdsClientConfig where
  endpoint := "http://dubbod.dubbo-system.svc:15012"
  identity := ⟨"dxgate", "dubbo-system", "127.0.0.1", none, "Kubernetes", "cluster.local"⟩
  listenerNames := ["l"]

/-- The wire form of a connection manager that takes its routes from the RDS resource "r". -/
def rdsManagerBytes : Proto.Bytes := [0x1a, 0x03, 0x12, 0x01, 0x72]

def rdsListenerBytes : Proto.Bytes :=
  [0x0a, 0x01, 0x6c, 0x9a, 0x01, 0x09, 0x0a, 0x07, 0x12, 0x05] ++ rdsManagerBytes

def rdsListener : Proto.Listener := ⟨"l", none, [], some ⟨some ⟨"", rdsManagerBytes⟩⟩⟩

def rdsListenerCodec : Proto.Codec where
  listener := Proto.tableDecoder [(rdsListenerBytes, rdsListener)]
  routeConfiguration := Proto.tableDecoder []
  cluster := Proto.tableDecoder []
  clusterLoadAssignment := Proto.tableDecoder []
  httpConnectionManager := Proto.tableDecoder [(rdsManagerBytes, ⟨some (.rds ⟨"r"⟩)⟩)]
  upstreamTlsContext := Proto.tableDecoder []

def rdsListenerResponse : Proto.DiscoveryResponse :=
  ⟨"1", [⟨LISTENER_TYPE, rdsListenerBytes⟩], LISTENER_TYPE, "n1"⟩

theorem rdsListener_requestDiscipline :
    RequestDiscipline rdsListenerCodec .alwaysOpen sampleClient (.empty "bootstrap") ∧
    (runOnce rdsListenerCodec .alwaysOpen sampleClient (.empty "bootstrap")
      (.opened [.message rdsListenerResponse])).1.stream.requests =
      [⟨"", some sampleClient.node, ["l"], LISTENER_TYPE, ""⟩,
        ⟨"1", some sampleClient.node, ["l"], LISTENER_TYPE, "n1"⟩,
        ⟨"", some sampleClient.node, ["r"], ROUTE_TYPE, ""⟩] :=
  ⟨runOnce_requestDiscipline _ _ _ _ fun _ => rfl, by decide⟩

end Dxgate
