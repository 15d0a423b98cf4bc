import Dxgate.App.Settling
import Dxgate.Xds.Wire

/-! # What an observer can predict

Someone who sees the static configuration being loaded and what passes on the wire, and nothing of the
tasks, the channel and the stores, can tell what a settled proxy serves: what the wire log of a connection
showed after the last response that left it complete, and before the first such response the static
configuration. Later responses that leave the log incomplete change nothing, and neither does a lost
connection.
-/

namespace Dxgate

set_option autoImplicit false

inductive ProgramEvent where
  | loaded (static : RuntimeConfig)
  | connected (requests : List Proto.DiscoveryRequest)
  | exchanged (resp : Proto.DiscoveryResponse) (requests : List Proto.DiscoveryRequest)

/-! ## The observer -/

structure Observer where
  static : RuntimeConfig
  /-- The wire log of the present connection. -/
  log : List WireEvent
  /-- The log of a connection after the last response that left it complete. -/
  complete : Option (List WireEvent)

namespace Observer

def start : Observer := ⟨.empty "bootstrap", [], none⟩

open Classical in
noncomputable def next (codec : Proto.Codec) (o : Observer) : ProgramEvent → Observer
  | .loaded static => { o with static := static }
  | .connected requests => { o with log := requests.map .sent }
  | .exchanged resp requests =>
    { o with
      log := o.log ++ .received resp :: requests.map .sent
      complete := if Wire.Complete codec (o.log ++ .received resp :: requests.map .sent) then
          some (o.log ++ .received resp :: requests.map .sent)
        else o.complete }

noncomputable def watch (codec : Proto.Codec) (events : List ProgramEvent) : Observer :=
  events.foldl (next codec) start

def Predicts (codec : Proto.Codec) (o : Observer) (cfg : RuntimeConfig) : Prop :=
  match o.complete with
  | some log => Wire.Shows codec log cfg
  | none => cfg = o.static

theorem watch_concat (codec : Proto.Codec) (events : List ProgramEvent) (event : ProgramEvent) :
    watch codec (events ++ [event]) = (watch codec events).next codec event := by
  rw [watch, List.foldl_concat, watch]

section Exchange

variable {codec : Proto.Codec} {o : Observer} {cfg : RuntimeConfig} {resp : Proto.DiscoveryResponse}
  {requests : List Proto.DiscoveryRequest}

theorem predicts_of_complete (hComplete : Wire.Complete codec (o.log ++ .received resp :: requests.map .sent))
    (hShows : Wire.Shows codec (o.log ++ .received resp :: requests.map .sent) cfg) :
    (o.next codec (.exchanged resp requests)).Predicts codec cfg := by
  rw [Predicts, next, if_pos hComplete]
  exact hShows

theorem predicts_of_incomplete
    (hIncomplete : ¬ Wire.Complete codec (o.log ++ .received resp :: requests.map .sent))
    (h : o.Predicts codec cfg) : (o.next codec (.exchanged resp requests)).Predicts codec cfg := by
  rw [Predicts, next, if_neg hIncomplete]
  exact h

end Exchange

end Observer

/-! ## What a run lets see -/

section Client

variable {codec : Proto.Codec} {channels : Channels} {node : Proto.Node} {st st' : Stream}
  {resp : Proto.DiscoveryResponse}

theorem ClientTask.stream?_received (h : respond codec channels node st resp = (st', none)) :
    (ClientTask.received codec channels node st resp).stream? = some st' := by
  rw [ClientTask.received, h]
  dsimp only
  split <;> rfl

theorem ClientTask.received_error {err : XdsError} (h : respond codec channels node st resp = (st', some err)) :
    ClientTask.received codec channels node st resp = .disconnected := by
  rw [ClientTask.received, h]

/-- A response that is answered shows in the requests. -/
theorem respond_requests (h : respond codec channels node st resp = (st', none)) :
    ∃ ack follow, st'.requests = st.requests ++ ack :: follow := by
  obtain ⟨ads, _, _, _, rfl⟩ := respond_ok h
  exact ⟨_, _, rfl⟩

theorem respond_ne (h : respond codec channels node st resp = (st', none)) : st' ≠ st := by
  obtain ⟨ack, follow, hRequests⟩ := respond_requests h
  rintro rfl
  have hLength := congrArg List.length hRequests
  rw [List.length_append, List.length_cons] at hLength
  omega

end Client

namespace System

/-- A step that neither takes over the static configuration nor adds to a wire log. -/
structure Silent (s t : System) : Prop where
  main : t.main = s.main ∨ t.main.accepted = none
  client : t.client.stream? = s.client.stream? ∨ t.client.stream? = none

/-- A run of the program to `s`, with the events that can be seen from outside. -/
inductive Traced (codec : Proto.Codec) (cfg : XdsClientConfig) : List ProgramEvent → System → Prop where
  | init {s : System} (h : s.Initial) : Traced codec cfg [] s
  | loaded {events : List ProgramEvent} {s : System} {static : RuntimeConfig} (h : Traced codec cfg events s)
      (hMain : s.main = .applying static)
      (hTask : s.proxy.tasks MAIN_TASK = .applying (.returned (.ok ()))) :
      Traced codec cfg (events ++ [.loaded static]) { s with main := .sending static }
  | connected {events : List ProgramEvent} {s : System} {channels : Channels} {stream : Stream}
      (h : Traced codec cfg events s) (hClient : s.client = .disconnected)
      (hOpen : openStream channels cfg = (stream, none)) :
      Traced codec cfg (events ++ [.connected stream.requests]) { s with client := .streaming stream }
  | exchanged {events : List ProgramEvent} {s : System} {channels : Channels} {stream stream' : Stream}
      {resp : Proto.DiscoveryResponse} {requests : List Proto.DiscoveryRequest}
      (h : Traced codec cfg events s) (hClient : s.client = .streaming stream)
      (hRespond : respond codec channels cfg.node stream resp = (stream', none))
      (hSent : stream'.requests = stream.requests ++ requests) :
      Traced codec cfg (events ++ [.exchanged resp requests])
        { s with client := .received codec channels cfg.node stream resp }
  | silent {events : List ProgramEvent} {s t : System} (h : Traced codec cfg events s)
      (hStep : Step codec cfg s t) (hSilent : Silent s t) : Traced codec cfg events t

variable {codec : Proto.Codec} {cfg : XdsClientConfig} {events : List ProgramEvent} {s t : System}

theorem Traced.reachable (h : Traced codec cfg events s) : (machine codec cfg).Reachable s := by
  induction h with
  | init h => exact .init h
  | loaded _ hMain hTask ih => exact ih.step (.mainAccepted hMain hTask)
  | connected _ hClient hOpen ih => exact ih.step (.clientOpen hClient hOpen)
  | exchanged _ hClient _ _ ih => exact ih.step (.clientReceive _ _ hClient)
  | silent _ hStep _ ih => exact ih.step hStep

theorem acceptedBy_of_none (h : t.inFlight = none) : acceptedBy s t = [] := by
  rw [acceptedBy, h]
  split <;> rfl

/-- A silent step accepts nothing. -/
theorem Silent.acceptedBy_eq (h : Silent s t) (hStep : Step codec cfg s t) : acceptedBy s t = [] := by
  cases hStep with
  | mainSkip _ => exact acceptedBy_of_none rfl
  | mainApply _ hMain _ =>
    apply acceptedBy_of_eq
    rw [inFlight, inFlight, hMain]
    rfl
  | @mainAccepted static hMain _ =>
    rcases h.main with hSame | hNone
    · rw [hMain] at hSame
      cases hSame
    · cases hNone
  | mainRejected _ _ => exact acceptedBy_of_none rfl
  | mainSend _ _ => exact acceptedBy_of_none rfl
  | mainSendFailed _ _ => exact acceptedBy_of_none rfl
  | clientOpen hClient _ =>
    apply acceptedBy_of_eq
    rw [inFlight, inFlight, hClient]
    rfl
  | @clientReceive stream channels resp hClient =>
    apply acceptedBy_of_eq
    rcases hRespond : respond codec channels cfg.node stream resp with ⟨stream', _ | err⟩
    · -- the answered response is in the requests, so the stream is not the same
      have hStream := h.client
      rw [ClientTask.stream?_received hRespond, hClient] at hStream
      rcases hStream with hSame | hNone
      · exact absurd (Option.some.inj hSame) (respond_ne hRespond)
      · cases hNone
    · rw [inFlight, inFlight, hClient, ClientTask.received_error hRespond]
      rfl
  | clientCompare hClient =>
    apply acceptedBy_of_some
    rw [inFlight, hClient]
    simp [ClientTask.accepted]
  | clientSend hClient _ =>
    apply acceptedBy_of_some
    rw [inFlight, hClient]
    simp [ClientTask.accepted]
  | clientSendFailed hClient _ =>
    apply acceptedBy_of_some
    rw [inFlight, hClient]
    simp [ClientTask.accepted]
  | clientLost hClient =>
    apply acceptedBy_of_eq
    rw [inFlight, inFlight, hClient]
    rfl
  | clientExit hClient =>
    apply acceptedBy_of_eq
    rw [inFlight, inFlight, hClient]
    rfl
  | _ => exact acceptedBy_of_eq rfl

theorem Traced.step (h : Traced codec cfg events s) (hStep : Step codec cfg s t) :
    ∃ events, Traced codec cfg events t := by
  cases hStep with
  | mainSkip hMain => exact ⟨_, h.silent (.mainSkip hMain) ⟨.inr rfl, .inr rfl⟩⟩
  | mainApply static hMain hResting =>
    exact ⟨_, h.silent (.mainApply static hMain hResting) ⟨.inr rfl, .inl rfl⟩⟩
  | mainAccepted hMain hTask => exact ⟨_, h.loaded hMain hTask⟩
  | mainRejected hMain hTask => exact ⟨_, h.silent (.mainRejected hMain hTask) ⟨.inr rfl, .inr rfl⟩⟩
  | mainSend hMain hReceiver => exact ⟨_, h.silent (.mainSend hMain hReceiver) ⟨.inr rfl, .inr rfl⟩⟩
  | mainSendFailed hMain hReceiver =>
    exact ⟨_, h.silent (.mainSendFailed hMain hReceiver) ⟨.inr rfl, .inr rfl⟩⟩
  | clientOpen hClient hOpen => exact ⟨_, h.connected hClient hOpen⟩
  | @clientReceive stream channels resp hClient =>
    rcases hRespond : respond codec channels cfg.node stream resp with ⟨stream', _ | err⟩
    · obtain ⟨ack, follow, hSent⟩ := respond_requests hRespond
      exact ⟨_, h.exchanged hClient hRespond hSent⟩
    · refine ⟨_, h.silent (.clientReceive channels resp hClient) ⟨.inl rfl, .inr ?_⟩⟩
      rw [ClientTask.received_error hRespond]
      rfl
  | clientCompare hClient =>
    refine ⟨_, h.silent (.clientCompare hClient) ⟨.inl rfl, .inl ?_⟩⟩
    rw [ClientTask.stream?_compared, hClient]
    rfl
  | clientSend hClient hReceiver =>
    refine ⟨_, h.silent (.clientSend hClient hReceiver) ⟨.inl rfl, .inl ?_⟩⟩
    rw [hClient]
    rfl
  | clientSendFailed hClient hReceiver =>
    exact ⟨_, h.silent (.clientSendFailed hClient hReceiver) ⟨.inl rfl, .inr rfl⟩⟩
  | clientLost hClient => exact ⟨_, h.silent (.clientLost hClient) ⟨.inl rfl, .inr rfl⟩⟩
  | clientExit hClient => exact ⟨_, h.silent (.clientExit hClient) ⟨.inl rfl, .inr rfl⟩⟩
  | watcherChanged hWatcher hNew =>
    exact ⟨_, h.silent (.watcherChanged hWatcher hNew) ⟨.inl rfl, .inl rfl⟩⟩
  | watcherClosed hWatcher hSeen hClosed =>
    exact ⟨_, h.silent (.watcherClosed hWatcher hSeen hClosed) ⟨.inl rfl, .inl rfl⟩⟩
  | watcherApply hWatcher hResting =>
    exact ⟨_, h.silent (.watcherApply hWatcher hResting) ⟨.inl rfl, .inl rfl⟩⟩
  | watcherReturned hWatcher hTask =>
    exact ⟨_, h.silent (.watcherReturned hWatcher hTask) ⟨.inl rfl, .inl rfl⟩⟩
  | read i hOther hResting => exact ⟨_, h.silent (.read i hOther hResting) ⟨.inl rfl, .inl rfl⟩⟩
  | forward i req hOther hResting =>
    exact ⟨_, h.silent (.forward i req hOther hResting) ⟨.inl rfl, .inl rfl⟩⟩
  | run up i => exact ⟨_, h.silent (.run up i) ⟨.inl rfl, .inl rfl⟩⟩

/-- Every run can be watched. -/
theorem exists_traced (h : (machine codec cfg).Reachable s) : ∃ events, Traced codec cfg events s := by
  refine h.invariant (I := fun s => ∃ events, Traced codec cfg events s) ?_ ?_
  · intro s hInit
    exact ⟨[], .init hInit⟩
  · rintro s t ⟨events, hTraced⟩ hStep
    exact hTraced.step hStep

/-! ## The prediction -/

/-- What the observer knows of the present connection is right, and the last accepted configuration is what
it predicts. -/
structure Foreseen (codec : Proto.Codec) (cfg : XdsClientConfig) (o : Observer) (log : List RuntimeConfig)
    (s : System) : Prop where
  wire : ∀ stream, s.client.stream? = some stream → OnWire codec cfg o.log stream
  starting : s.main ≠ .serving → o.complete = none
  last : o.Predicts codec (log.getLast?.getD (.empty "bootstrap"))

theorem Foreseen.exchange {o : Observer} {log : List RuntimeConfig} (h : Foreseen codec cfg o log s)
    (hInv : s.Inv) {channels : Channels} {stream stream' : Stream} {resp : Proto.DiscoveryResponse}
    {requests : List Proto.DiscoveryRequest} (hClient : s.client = .streaming stream)
    (hRespond : respond codec channels cfg.node stream resp = (stream', none))
    (hSent : stream'.requests = stream.requests ++ requests)
    (hAfter : t = { s with client := .received codec channels cfg.node stream resp }) :
    Foreseen codec cfg (o.next codec (.exchanged resp requests)) (log ++ acceptedBy s t) t := by
  have hMain := hInv.serving_of_started (by simp [hClient])
  have hWire : OnWire codec cfg (o.log ++ .received resp :: requests.map .sent) stream' := by
    refine (h.wire stream ?_).responded hRespond hSent
    rw [hClient]
    rfl
  have hBefore : s.inFlight = none := by
    rw [inFlight, hClient, hMain]
    rfl
  subst hAfter
  refine ⟨?_, ?_, ?_⟩
  · intro other hOther
    rw [ClientTask.stream?_received hRespond] at hOther
    cases hOther
    exact hWire
  · exact fun hStarting => absurd hMain hStarting
  · cases hValid : (stream'.ads.runtimeConfig resp.versionInfo).validate with
    | ok _ =>
      have hTask : ClientTask.received codec channels cfg.node stream resp =
          .validated stream' (stream'.ads.runtimeConfig resp.versionInfo) := by
        simp only [ClientTask.received, hRespond, hValid]
      have hLast := congrArg List.getLast? (WireEvent.responses_exchange o.log resp requests)
      rw [List.getLast?_concat] at hLast
      rw [acceptedBy, if_pos hBefore, hTask, inFlight, ClientTask.accepted, Option.some_or,
        Option.toList_some, List.getLast?_concat]
      apply Observer.predicts_of_complete
      · exact (hWire.wellFormed_iff _).mp ((RuntimeConfig.validate_ok_iff _).mp hValid)
      · exact hWire.shows hLast
    | error conflicts =>
      have hTask : ClientTask.received codec channels cfg.node stream resp = .streaming stream' := by
        simp only [ClientTask.received, hRespond, hValid]
      rw [acceptedBy_of_none (by rw [inFlight, hTask, hMain]; rfl), List.append_nil]
      apply Observer.predicts_of_incomplete
      · rw [← hWire.wellFormed_iff resp.versionInfo]
        exact (RuntimeConfig.validate_error_iff.mp hValid).1
      · exact h.last

theorem Traced.foreseen (h : Traced codec cfg events s) :
    ∃ log, Accepts codec cfg log s ∧ Foreseen codec cfg (.watch codec events) log s := by
  induction h with
  | init hInit =>
    refine ⟨[], .init hInit, ?_, fun _ => rfl, rfl⟩
    intro stream hStream
    rw [hInit.2.2.2.1] at hStream
    cases hStream
  | @loaded _ s static _ hMain hTask ih =>
    obtain ⟨log, hLog, hForeseen⟩ := ih
    have hNot : s.main ≠ .serving := by
      rw [hMain]
      simp
    have hQuiet := (inv_of_reachable hLog.reachable).quiet hNot
    have hNone := hForeseen.starting hNot
    have hAccepted : acceptedBy s { s with main := .sending static } = [static] := by
      rw [acceptedBy, inFlight, inFlight, hQuiet.client, hMain]
      rfl
    refine ⟨_, hLog.step (.mainAccepted hMain hTask), ?_⟩
    rw [hAccepted, Observer.watch_concat]
    refine ⟨?_, fun _ => hNone, ?_⟩
    · intro stream hStream
      rw [hQuiet.client] at hStream
      cases hStream
    · rw [Observer.Predicts, Observer.next, hNone, List.getLast?_concat]
      rfl
  | @connected _ s _ stream _ hClient hOpen ih =>
    obtain ⟨log, hLog, hForeseen⟩ := ih
    refine ⟨log, hLog.unaccepted (.clientOpen hClient hOpen) ?_, ?_⟩
    · apply acceptedBy_of_eq
      rw [inFlight, inFlight, hClient]
      rfl
    · rw [Observer.watch_concat]
      refine ⟨?_, hForeseen.starting, hForeseen.last⟩
      intro other hOther
      cases hOther
      exact .opened hOpen
  | exchanged _ hClient hRespond hSent ih =>
    obtain ⟨log, hLog, hForeseen⟩ := ih
    refine ⟨_, hLog.step (.clientReceive _ _ hClient), ?_⟩
    rw [Observer.watch_concat]
    exact hForeseen.exchange (inv_of_reachable hLog.reachable) hClient hRespond hSent rfl
  | silent _ hStep hSilent ih =>
    obtain ⟨log, hLog, hForeseen⟩ := ih
    refine ⟨log, hLog.unaccepted hStep (hSilent.acceptedBy_eq hStep), ?_, ?_, hForeseen.last⟩
    · intro stream hStream
      rcases hSilent.client with hSame | hNone
      · rw [hSame] at hStream
        exact hForeseen.wire stream hStream
      · rw [hNone] at hStream
        cases hStream
    · intro hStarting
      exact hForeseen.starting fun hServing => hStarting (hStep.serving hServing)

end System

/-- Every run has its events, and in every settled state of the run the proxy serves what an observer of the
events predicts. -/
theorem settled_serves_predicted (codec : Proto.Codec) (cfg : XdsClientConfig) :
    (∀ s, (System.machine codec cfg).Reachable s → ∃ events, System.Traced codec cfg events s) ∧
    ∀ events s, System.Traced codec cfg events s → s.Settled →
      (Observer.watch codec events).Predicts codec s.proxy.server.state.config := by
  refine ⟨fun s hReachable => System.exists_traced hReachable, ?_⟩
  intro events s hTraced hSettled
  obtain ⟨log, hLog, hForeseen⟩ := hTraced.foreseen
  rw [hSettled.config_eq hLog]
  exact hForeseen.last

/-! ## A route without its cluster -/

def listenedStream : Stream :=
  (respond movingRouteCodec .alwaysOpen sampleClient.node openedStream rdsListenerResponse).1

def routedStream : Stream :=
  (respond movingRouteCodec .alwaysOpen sampleClient.node listenedStream (routeResponse 0x63)).1

theorem System.Traced.iterate {codec : Proto.Codec} {cfg : XdsClientConfig} {events : List ProgramEvent}
    {s : System} (h : Traced codec cfg events s) (i n : Nat) :
    Traced codec cfg events ((System.runTask i)^[n] s) := by
  induction n with
  | zero => exact h
  | succ n ih =>
    rw [Function.iterate_succ_apply']
    exact ih.silent (.run sampleUpstream i) ⟨.inl rfl, .inl rfl⟩

/-- The route names a cluster that is not there: the listener without routes stays in service. -/
theorem routedStream_predicted : ∃ requests follow s, System.Traced movingRouteCodec sampleClient
      [.connected openedStream.requests, .exchanged rdsListenerResponse requests,
        .exchanged (routeResponse 0x63) follow] s ∧
    s.Settled ∧ s.client = .streaming routedStream ∧
    (Observer.watch movingRouteCodec [.connected openedStream.requests, .exchanged rdsListenerResponse requests,
        .exchanged (routeResponse 0x63) follow]).Predicts movingRouteCodec s.proxy.server.state.config ∧
    s.proxy.server.state.config = listenedStream.ads.runtimeConfig "1" := by
  have hOpen : openStream .alwaysOpen sampleClient = (openedStream, none) := rfl
  have hListener : respond movingRouteCodec .alwaysOpen sampleClient.node openedStream rdsListenerResponse =
      (listenedStream, none) := Prod.ext rfl (by decide)
  have hRoute : respond movingRouteCodec .alwaysOpen sampleClient.node listenedStream (routeResponse 0x63) =
      (routedStream, none) := Prod.ext rfl (by decide +kernel)
  have hValidated : ClientTask.received movingRouteCodec .alwaysOpen sampleClient.node openedStream
      rdsListenerResponse = .validated listenedStream (listenedStream.ads.runtimeConfig "1") := by
    have hValid : (listenedStream.ads.runtimeConfig "1").validate = .ok () := by decide +kernel
    rw [ClientTask.received, hListener]
    dsimp only [rdsListenerResponse]
    rw [hValid]
  have hInvalid : ClientTask.received movingRouteCodec .alwaysOpen sampleClient.node listenedStream
      (routeResponse 0x63) = .streaming routedStream := by
    have hConflicts : (routedStream.ads.runtimeConfig "1").validate =
        .error (routedStream.ads.runtimeConfig "1").conflicts := by
      decide +kernel
    rw [ClientTask.received, hRoute]
    dsimp only [routeResponse]
    rw [hConflicts]
  obtain ⟨ack, follow, hSent⟩ := respond_requests hListener
  obtain ⟨ack', follow', hSent'⟩ := respond_requests hRoute
  have hBoot : System.Traced movingRouteCodec sampleClient [] bootSystem :=
    .init ⟨⟨rfl, rfl, rfl, rfl, rfl⟩, rfl, rfl, rfl, rfl, rfl⟩
  have hOpened := (hBoot.silent (.mainSkip rfl) ⟨.inr rfl, .inr rfl⟩).connected rfl hOpen
  have hShown := hOpened.exchanged rfl hListener hSent
  rw [hValidated] at hShown
  have hDiffers : listenedStream.ads.runtimeConfig "1" ≠ .empty "bootstrap" := by decide +kernel
  have hCompare : ClientTask.compared listenedStream (listenedStream.ads.runtimeConfig "1")
      (.empty "bootstrap") = .sending listenedStream (listenedStream.ads.runtimeConfig "1") := if_pos hDiffers
  have hCompared : System.Traced movingRouteCodec sampleClient
      [.connected openedStream.requests, .exchanged rdsListenerResponse (ack :: follow)]
      { bootSystem with
        main := .serving
        client := .sending listenedStream (listenedStream.ads.runtimeConfig "1") } := by
    have hStream : (ClientTask.compared listenedStream (listenedStream.ads.runtimeConfig "1")
        (.empty "bootstrap")).stream? = some listenedStream := ClientTask.stream?_compared _ _
    rw [← hCompare]
    exact hShown.silent (.clientCompare rfl) ⟨.inl rfl, .inl hStream⟩
  have hDelivered := hCompared.silent (.clientSend rfl nofun) ⟨.inl rfl, .inl rfl⟩
  have hWoken := hDelivered.silent (.watcherChanged rfl (by decide)) ⟨.inl rfl, .inl rfl⟩
  have hApplying := hWoken.silent (.watcherApply rfl .idle) ⟨.inl rfl, .inl rfl⟩
  have hReturned := (hApplying.iterate WATCHER_TASK 3).silent (.watcherReturned rfl rfl) ⟨.inl rfl, .inl rfl⟩
  have hEnd := hReturned.exchanged rfl hRoute hSent'
  rw [hInvalid] at hEnd
  exact ⟨_, _, _, hEnd, ⟨rfl, rfl, .inl rfl, rfl⟩, rfl,
    (settled_serves_predicted _ _).2 _ _ hEnd ⟨rfl, rfl, .inl rfl, rfl⟩, rfl⟩

end Dxgate
