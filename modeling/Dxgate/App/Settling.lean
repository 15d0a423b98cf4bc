import Dxgate.App.Served
import Dxgate.Xds.BringUp
import Dxgate.Xds.Ordering

/-! # From the stores of the stream to the proxy

In a settled state the proxy serves what the stores of the open stream assemble to, and every reachable
state can settle without hearing from the control plane. With a control plane that answers from a fixed
database, what is served is then what the database means.
-/

namespace Dxgate

set_option autoImplicit false

open Collections

/-! ## The stores of the stream -/
namespace System

variable {codec : Proto.Codec} {cfg : XdsClientConfig} {log : List RuntimeConfig} {s t : System}

/-- The client's stream, and what its stores have to do with the last accepted configuration. -/
def Assembles (codec : Proto.Codec) (cfg : XdsClientConfig) (log : List RuntimeConfig) (s : System) : Prop :=
  match s.client with
  | .streaming stream => ∃ responses, Received codec cfg responses stream ∧
      ∀ resp, responses.getLast? = some resp → (stream.ads.runtimeConfig resp.versionInfo).WellFormed →
        log.getLast? = some (stream.ads.runtimeConfig resp.versionInfo)
  | .validated stream pending | .sending stream pending => ∃ responses resp,
      Received codec cfg (responses ++ [resp]) stream ∧ pending = stream.ads.runtimeConfig resp.versionInfo
  | _ => True

theorem Assembles.of_eq (h : s.Assembles codec cfg log) (hMain : t.main = s.main)
    (hClient : t.client = s.client) : t.Assembles codec cfg (log ++ acceptedBy s t) := by
  have hFlight : t.inFlight = s.inFlight := by rw [inFlight, inFlight, hMain, hClient]
  rw [acceptedBy_of_eq hFlight, List.append_nil, Assembles, hClient]
  exact h

/-- A pending configuration that has arrived is the last accepted one, assembled from these stores. -/
theorem Assembles.arrive {stream : Stream} {pending : RuntimeConfig} (hLast : log.getLast? = some pending)
    (h : ∃ responses resp, Received codec cfg (responses ++ [resp]) stream ∧
      pending = stream.ads.runtimeConfig resp.versionInfo) (hFlight : s.inFlight ≠ none)
    (hClient : t.client = .streaming stream) : t.Assembles codec cfg (log ++ acceptedBy s t) := by
  obtain ⟨responses, resp, hReceived, rfl⟩ := h
  rw [acceptedBy_of_some hFlight, List.append_nil, Assembles, hClient]
  refine ⟨responses ++ [resp], hReceived, ?_⟩
  intro last hEnd _
  rw [List.getLast?_concat] at hEnd
  cases hEnd
  exact hLast

theorem Assembles.receive {stream : Stream} (hInv : s.Inv) (h : s.Assembles codec cfg log)
    (hClient : s.client = .streaming stream) (channels : Channels) (resp : Proto.DiscoveryResponse) :
    ({ s with client := .received codec channels cfg.node stream resp } : System).Assembles codec cfg
      (log ++ acceptedBy s { s with client := .received codec channels cfg.node stream resp }) := by
  rw [Assembles, hClient] at h
  obtain ⟨responses, hReceived, _⟩ := h
  have hMain := hInv.serving_of_started (by simp [hClient])
  have hBefore : s.inFlight = none := by
    rw [hInv.inFlight_eq (by simp [hClient]), hClient]
    rfl
  rcases hRespond : respond codec channels cfg.node stream resp with ⟨stream', _ | err⟩
  · cases hValid : (stream'.ads.runtimeConfig resp.versionInfo).validate with
    | ok _ =>
      simp only [Assembles, ClientTask.received, hRespond, hValid]
      exact ⟨responses, resp, hReceived.responded hRespond, rfl⟩
    | error conflicts =>
      simp only [Assembles, ClientTask.received, hRespond, hValid]
      refine ⟨responses ++ [resp], hReceived.responded hRespond, ?_⟩
      intro last hEnd hWellFormed
      rw [List.getLast?_concat] at hEnd
      cases hEnd
      exact absurd hWellFormed (RuntimeConfig.validate_error_iff.mp hValid).1
  · simp only [Assembles, ClientTask.received, hRespond]

theorem Assembles.step (hInv : s.Inv) (hUp : s.UpToDate log) (h : s.Assembles codec cfg log)
    (hStep : Step codec cfg s t) : t.Assembles codec cfg (log ++ acceptedBy s t) := by
  cases hStep with
  | mainSkip _ => exact trivial
  | mainApply _ _ _ =>
    rename_i static hMain _
    have hQuiet := hInv.quiet (by simp [hMain])
    rw [Assembles, hQuiet.client]
    trivial
  | mainAccepted hMain _ =>
    have hQuiet := hInv.quiet (by simp [hMain])
    rw [Assembles, hQuiet.client]
    trivial
  | mainRejected _ _ => exact trivial
  | mainSend _ _ => exact trivial
  | mainSendFailed _ _ => exact trivial
  | clientOpen hClient hOpen => exact ⟨[], .opened hOpen, nofun⟩
  | clientReceive channels resp hClient => exact h.receive hInv hClient channels resp
  | @clientCompare stream pending hClient =>
    have hFlight : s.inFlight = some pending := by
      rw [hInv.inFlight_eq (by simp [hClient]), hClient]
      rfl
    rw [Assembles, hClient] at h
    by_cases hSame : pending = s.watch.value
    · refine Assembles.arrive (hUp.pending pending hFlight) h (by simp [hFlight]) ?_
      exact if_neg (not_not.mpr hSame)
    · rw [Assembles, ClientTask.compared, if_pos hSame]
      exact h
  | @clientSend stream pending hClient _ =>
    have hFlight : s.inFlight = some pending := by
      rw [hInv.inFlight_eq (by simp [hClient]), hClient]
      rfl
    rw [Assembles, hClient] at h
    exact Assembles.arrive (hUp.pending pending hFlight) h (by simp [hFlight]) rfl
  | clientSendFailed _ _ => exact trivial
  | clientLost _ => exact trivial
  | clientExit _ => exact trivial
  | _ => exact h.of_eq rfl rfl

theorem Accepts.assembles (h : Accepts codec cfg log s) : s.Assembles codec cfg log := by
  induction h with
  | init hInit =>
    rw [Assembles, hInit.2.2.2.1]
    trivial
  | step hLog hStep ih => exact ih.step (inv_of_reachable hLog.reachable) hLog.upToDate hStep

theorem exists_accepts (h : (machine codec cfg).Reachable s) : ∃ log, Accepts codec cfg log s := by
  refine h.invariant (I := fun s => ∃ log, Accepts codec cfg log s) ?_ ?_
  · exact fun s hInit => ⟨[], .init hInit⟩
  · rintro s t ⟨log, hLog⟩ hStep
    exact ⟨_, hLog.step hStep⟩

/-- A valid configuration that the stores of the open stream stand for is the one accepted last. -/
theorem Accepts.last_assembled (h : Accepts codec cfg log s) {stream : Stream}
    (hClient : s.client = .streaming stream) :
    ∃ responses, Received codec cfg responses stream ∧ ∀ resp, responses.getLast? = some resp →
      (stream.ads.runtimeConfig resp.versionInfo).WellFormed →
        log.getLast? = some (stream.ads.runtimeConfig resp.versionInfo) := by
  have hAssembles := h.assembles
  rw [Assembles, hClient] at hAssembles
  exact hAssembles

theorem Settled.serves_stores (hSettled : s.Settled) (h : (machine codec cfg).Reachable s) {stream : Stream}
    (hClient : s.client = .streaming stream) :
    ∃ responses, Received codec cfg responses stream ∧ ∀ resp, responses.getLast? = some resp →
      (stream.ads.runtimeConfig resp.versionInfo).WellFormed →
        s.proxy.server.state.config = stream.ads.runtimeConfig resp.versionInfo := by
  obtain ⟨log, hLog⟩ := exists_accepts h
  obtain ⟨responses, hReceived, hLast⟩ := hLog.last_assembled hClient
  refine ⟨responses, hReceived, ?_⟩
  intro resp hEnd hValid
  rw [hSettled.config_eq hLog, hLast resp hEnd hValid]
  rfl

end System

/-! ## Settling is always possible -/

/-- The stream that is open. -/
def ClientTask.stream? : ClientTask → Option Stream
  | .streaming stream | .validated stream _ | .sending stream _ => some stream
  | _ => none

theorem ClientTask.stream?_compared {stream : Stream} (pending watched : RuntimeConfig) :
    (ClientTask.compared stream pending watched).stream? = some stream := by
  rw [ClientTask.compared]
  split <;> rfl

/-- A client with an open stream and nothing on its way waits for the next response. -/
theorem ClientTask.eq_streaming {task : ClientTask} {stream : Stream} (hStream : task.stream? = some stream)
    (hNone : task.accepted = none) : task = .streaming stream := by
  cases task with
  | streaming other =>
    cases hStream
    rfl
  | validated other pending => cases hNone
  | sending other pending => cases hNone
  | _ => cases hStream

theorem ApplyTask.step_returned (st : ProxyState) (task : ApplyTask) :
    ∃ result, (ApplyTask.step^[3] (st, task)).2 = .returned result := by
  cases task with
  | _ => exact ⟨_, rfl⟩

namespace System

variable (codec : Proto.Codec) (cfg : XdsClientConfig)

/-- The program gets from `s` to `t` on what it already has: a stream that is open stays where it is, and
after the start nothing more is accepted. -/
structure Onward (s t : System) : Prop where
  path : Relation.ReflTransGen (machine codec cfg).step s t
  stream : ∀ stream, s.client.stream? = some stream → t.client.stream? = some stream
  main : s.main = .serving → t.main = .serving
  log : s.main = .serving → ∀ log, Accepts codec cfg log s → Accepts codec cfg log t

theorem Onward.refl (s : System) : Onward codec cfg s s := ⟨.refl, fun _ h => h, id, fun _ _ h => h⟩

variable {codec cfg} {s t : System}

theorem Onward.trans {u : System} (h : Onward codec cfg s t) (h' : Onward codec cfg t u) :
    Onward codec cfg s u where
  path := h.path.trans h'.path
  stream stream hStream := h'.stream stream (h.stream stream hStream)
  main hMain := h'.main (h.main hMain)
  log hMain log hLog := h'.log (h.main hMain) log (h.log hMain log hLog)

theorem Onward.reachable (h : Onward codec cfg s t) (hs : (machine codec cfg).Reachable s) :
    (machine codec cfg).Reachable t := hs.trans h.path

theorem Onward.streaming (h : Onward codec cfg s t) (hSettled : t.Settled) {stream : Stream}
    (hStream : s.client.stream? = some stream) : t.client = .streaming stream :=
  ClientTask.eq_streaming (h.stream stream hStream) hSettled.client

/-- A step of `main` before it serves. -/
theorem Step.onward_main (h : Step codec cfg s t) (hInv : s.Inv) (hMain : s.main ≠ .serving) :
    Onward codec cfg s t where
  path := .single h
  stream stream hStream := by
    rw [(hInv.quiet hMain).client] at hStream
    cases hStream
  main hServing := absurd hServing hMain
  log hServing := absurd hServing hMain

/-- A step of the client with a configuration that is on its way. -/
theorem Step.onward_pending (h : Step codec cfg s t) (hFlight : s.client.accepted ≠ none)
    (hClient : t.client.stream? = s.client.stream?) (hMain : t.main = s.main) : Onward codec cfg s t where
  path := .single h
  stream stream hStream := hClient.trans hStream
  main hServing := hMain.trans hServing
  log hServing log hLog := by
    have hNext := hLog.step h
    rw [acceptedBy_of_some, List.append_nil] at hNext
    · exact hNext
    · rw [inFlight, hServing]
      exact fun hNone => hFlight (Option.or_none.symm.trans hNone)

/-- A step of the watcher or of the proxy. -/
theorem Step.onward (h : Step codec cfg s t) (hMain : t.main = s.main) (hClient : t.client = s.client) :
    Onward codec cfg s t where
  path := .single h
  stream stream hStream := by rwa [hClient]
  main hServing := hMain.trans hServing
  log _ log hLog := by
    have hNext := hLog.step h
    rw [acceptedBy_of_eq (by rw [inFlight, inFlight, hMain, hClient]), List.append_nil] at hNext
    exact hNext

/-- A call of `apply_config` can run to its end. -/
theorem onward_returned (codec : Proto.Codec) (cfg : XdsClientConfig) (s : System) {i : Nat}
    {task : ApplyTask} (hTask : s.proxy.tasks i = .applying task) :
    ∃ proxy result, Onward codec cfg s { s with proxy := proxy } ∧
      proxy.tasks i = .applying (.returned result) := by
  have hRun (p : ProxySystem) (task : ApplyTask) (h : p.tasks i = .applying task) :
      (p.runTask sampleUpstream i).tasks i = .applying (ApplyTask.step (p.server.state, task)).2 ∧
        (p.runTask sampleUpstream i).server.state = (ApplyTask.step (p.server.state, task)).1 := by
    constructor
    · rw [ProxySystem.runTask_tasks, if_pos rfl, h]
      rfl
    · rw [ProxySystem.runTask, h]
      rfl
  have hIterate (n : Nat) : Onward codec cfg s
      { s with proxy := (ProxySystem.runTask sampleUpstream i)^[n] s.proxy } ∧
      ((ProxySystem.runTask sampleUpstream i)^[n] s.proxy).tasks i =
        .applying (ApplyTask.step^[n] (s.proxy.server.state, task)).2 ∧
      ((ProxySystem.runTask sampleUpstream i)^[n] s.proxy).server.state =
        (ApplyTask.step^[n] (s.proxy.server.state, task)).1 := by
    induction n with
    | zero => exact ⟨.refl codec cfg s, hTask, rfl⟩
    | succ n ih =>
      obtain ⟨hPath, hNow, hState⟩ := ih
      simp only [Function.iterate_succ_apply']
      refine ⟨hPath.trans (Step.onward (.run sampleUpstream i) rfl rfl), ?_, ?_⟩
      · rw [(hRun _ _ hNow).1, hState]
      · rw [(hRun _ _ hNow).2, hState]
  obtain ⟨result, hResult⟩ := ApplyTask.step_returned s.proxy.server.state task
  obtain ⟨hPath, hNow, -⟩ := hIterate 3
  rw [hResult] at hNow
  exact ⟨_, result, hPath, hNow⟩

theorem onward_sent (h : (machine codec cfg).Reachable s) {static : RuntimeConfig}
    (hMain : s.main = .sending static) : ∃ t, Onward codec cfg s t ∧ t.main = .serving := by
  have hInv := inv_of_reachable h
  have hNot : s.main ≠ .serving := by
    rw [hMain]
    nofun
  have hReceiver : s.watcher ≠ .exited := by
    rw [(hInv.quiet hNot).watcher]
    nofun
  exact ⟨_, Step.onward_main (.mainSend hMain hReceiver) hInv hNot, rfl⟩

theorem onward_serving (h : (machine codec cfg).Reachable s) :
    ∃ t, Onward codec cfg s t ∧ t.main = .serving := by
  have hInv := inv_of_reachable h
  cases hMain : s.main with
  | serving => exact ⟨s, .refl codec cfg s, hMain⟩
  | sending static => exact onward_sent h hMain
  | loading => exact ⟨_, Step.onward_main (.mainSkip hMain) hInv (by simp [hMain]), rfl⟩
  | applying static =>
    obtain ⟨task, hTask, -⟩ := hInv.applying static hMain
    obtain ⟨proxy, result, hPath, hReturned⟩ := onward_returned codec cfg s hTask
    have hNext := inv_of_reachable (hPath.reachable h)
    have hNot : s.main ≠ .serving := by
      rw [hMain]
      nofun
    cases result with
    | ok _ =>
      have hAccept : Onward codec cfg s { s with proxy := proxy, main := .sending static } :=
        hPath.trans (Step.onward_main (.mainAccepted hMain hReturned) hNext hNot)
      obtain ⟨t, hRest, hServing⟩ := onward_sent (hAccept.reachable h) rfl
      exact ⟨t, hAccept.trans hRest, hServing⟩
    | error conflicts =>
      exact ⟨_, hPath.trans (Step.onward_main (.mainRejected hMain hReturned) hNext hNot), rfl⟩

theorem onward_delivered (h : (machine codec cfg).Reachable s) {stream : Stream} {pending : RuntimeConfig}
    (hClient : s.client = .sending stream pending) :
    ∃ t, Onward codec cfg s t ∧ t.client.accepted = none := by
  have hWatcher := (attended_of_reachable h).watcher_ne (by simp [hClient])
  have hSend : Onward codec cfg s { s with client := .streaming stream, watch := s.watch.send pending } :=
    Step.onward_pending (.clientSend hClient hWatcher) (by simp [hClient, ClientTask.accepted])
      (by rw [hClient]; rfl) rfl
  exact ⟨_, hSend, rfl⟩

theorem onward_arrived (h : (machine codec cfg).Reachable s) :
    ∃ t, Onward codec cfg s t ∧ t.client.accepted = none := by
  cases hClient : s.client with
  | sending stream pending => exact onward_delivered h hClient
  | validated stream pending =>
    have hCompare : Onward codec cfg s { s with client := .compared stream pending s.watch.value } :=
      Step.onward_pending (.clientCompare hClient) (by simp [hClient, ClientTask.accepted])
        (by rw [hClient]; exact ClientTask.stream?_compared pending s.watch.value) rfl
    by_cases hSame : pending = s.watch.value
    · refine ⟨_, hCompare, ?_⟩
      rw [ClientTask.compared, if_neg (not_not.mpr hSame)]
      rfl
    · obtain ⟨t, hRest, hDone⟩ := onward_delivered (hCompare.reachable h) (if_pos hSame)
      exact ⟨t, hCompare.trans hRest, hDone⟩
  | _ =>
    refine ⟨s, .refl codec cfg s, ?_⟩
    rw [hClient]
    rfl

/-- The watcher comes back from a call that is under way. -/
theorem onward_waiting (h : (machine codec cfg).Reachable s) (hWatcher : s.watcher = .applying) :
    ∃ proxy, Onward codec cfg s { s with proxy := proxy, watcher := .waiting } := by
  obtain ⟨task, hTask⟩ := (attended_of_reachable h).call hWatcher
  obtain ⟨proxy, result, hPath, hReturned⟩ := onward_returned codec cfg s hTask
  exact ⟨proxy, hPath.trans (Step.onward (.watcherReturned hWatcher hReturned) rfl rfl)⟩

theorem onward_applied (h : (machine codec cfg).Reachable s) (hWatcher : s.watcher = .woken) :
    ∃ proxy, Onward codec cfg s { s with proxy := proxy, watcher := .waiting } := by
  have hResting := (inv_of_reachable h).watcher (by simp [hWatcher])
  have hApply : Onward codec cfg s { s with
      watcher := .applying
      proxy := s.proxy.setTask WATCHER_TASK (.applying (.call s.watch.value)) } :=
    Step.onward (.watcherApply hWatcher hResting) rfl rfl
  obtain ⟨proxy, hPath⟩ := onward_waiting (hApply.reachable h) rfl
  exact ⟨proxy, hApply.trans hPath⟩

theorem onward_seen (h : (machine codec cfg).Reachable s) (hWatcher : s.watcher = .waiting) :
    ∃ proxy, Onward codec cfg s { s with proxy := proxy, watcher := .waiting, seen := s.watch.version } := by
  by_cases hSeen : s.seen = s.watch.version
  · refine ⟨s.proxy, ?_⟩
    rw [← hSeen, ← hWatcher]
    exact .refl codec cfg s
  · have hWake : Onward codec cfg s { s with watcher := .woken, seen := s.watch.version } :=
      Step.onward (.watcherChanged hWatcher hSeen) rfl rfl
    obtain ⟨proxy, hPath⟩ := onward_applied (hWake.reachable h) rfl
    exact ⟨proxy, hWake.trans hPath⟩

theorem onward_caughtUp (h : (machine codec cfg).Reachable s) (hMain : s.main = .serving)
    (hClient : s.client.accepted = none) (hWatcher : s.watcher = .waiting) :
    ∃ t, Onward codec cfg s t ∧ t.Settled := by
  obtain ⟨proxy, hPath⟩ := onward_seen h hWatcher
  exact ⟨_, hPath, hMain, hClient, .inl rfl, rfl⟩

theorem onward_settled (h : (machine codec cfg).Reachable s) : ∃ t, Onward codec cfg s t ∧ t.Settled := by
  obtain ⟨mid, hServe, hMid⟩ := onward_serving h
  obtain ⟨t, hArrive, hClient⟩ := onward_arrived (hServe.reachable h)
  have hMain := hArrive.main hMid
  have hPath := hServe.trans hArrive
  have hReachable := hPath.reachable h
  cases hWatcher : t.watcher with
  | exited =>
    exact ⟨t, hPath, hMain, hClient, .inr hWatcher, ((attended_of_reachable hReachable).receiver hWatcher).2⟩
  | waiting =>
    obtain ⟨u, hRest, hSettled⟩ := onward_caughtUp hReachable hMain hClient hWatcher
    exact ⟨u, hPath.trans hRest, hSettled⟩
  | woken =>
    obtain ⟨proxy, hApplied⟩ := onward_applied hReachable hWatcher
    obtain ⟨u, hRest, hSettled⟩ := onward_caughtUp (hApplied.reachable hReachable) hMain hClient rfl
    exact ⟨u, (hPath.trans hApplied).trans hRest, hSettled⟩
  | applying =>
    obtain ⟨proxy, hReturned⟩ := onward_waiting hReachable hWatcher
    obtain ⟨u, hRest, hSettled⟩ := onward_caughtUp (hReturned.reachable hReachable) hMain hClient rfl
    exact ⟨u, (hPath.trans hReturned).trans hRest, hSettled⟩

end System

/-- No reachable state is stuck: without hearing from the control plane the program can settle, with its
stream where it was, and after the start it then serves the configuration that was accepted last. -/
theorem settling_always_possible (codec : Proto.Codec) (cfg : XdsClientConfig) {log : List RuntimeConfig}
    {s : System} (h : System.Accepts codec cfg log s) :
    ∃ t, Relation.ReflTransGen (System.machine codec cfg).step s t ∧ t.Settled ∧
      (∀ stream, s.client.stream? = some stream → t.client = .streaming stream) ∧
      (s.main = .serving → t.proxy.server.state.config = log.getLast?.getD (.empty "bootstrap")) := by
  obtain ⟨t, hOnward, hSettled⟩ := System.onward_settled h.reachable
  exact ⟨t, hOnward.path, hSettled, fun _ => hOnward.streaming hSettled,
    fun hMain => hSettled.config_eq (hOnward.log hMain log h)⟩

theorem discoveredReceived_settles : ∃ t : System, t.Settled ∧ t.client = .streaming discoveredStream ∧
    t.proxy.server.state.config = discovered := by
  obtain ⟨t, -, hSettled, hStream, hConfig⟩ := settling_always_possible _ _ discoveredReceived_accepts
  exact ⟨t, hSettled, hStream _ rfl, hConfig rfl⟩

/-! ## A control plane with a fixed database -/

/-- The client has received all that a control plane with a fixed database has to say: once the program has
settled, the proxy serves what the database means for the listener names. -/
theorem settled_serves_database (codec : Proto.Codec) (enc : Encoder) (db : Database)
    (cfg : XdsClientConfig) (watch : RuntimeConfig) (hNames : cfg.listenerNames ≠ [])
    (hDecodes : db.Decodes codec enc) (hRds : db.RdsOnly codec)
    (hComplete : db.Complete codec (sortedUnique cfg.listenerNames)) {n : Nat} {session : Session}
    (hSession : (bringUp codec enc db cfg watch).ReachableIn n session)
    (hQuiet : session.Quiet codec cfg watch) {s : System} (h : (System.machine codec cfg).Reachable s)
    (hSettled : s.Settled) {stream : Stream} (hClient : s.client = .streaming stream)
    (hReceived : Received codec cfg session.received stream) :
    ∃ version, s.proxy.server.state.config =
      db.closure codec (sortedUnique cfg.listenerNames) version := by
  have hStaged := Session.staged_of_reachable hNames hDecodes hRds hSession
  obtain ⟨hSome, hLast⟩ := hStaged.last hNames hQuiet
  have hStream := hReceived.unique hStaged.serves.received
  have hHolds : db.Holds codec (sortedUnique cfg.listenerNames) stream.ads := by
    rw [hStream, hLast]
    exact Database.stage_holds
  have hRegular : stream.ads.Regular := by
    rw [hStream]
    exact hStaged.serves.regular
  obtain ⟨responses, hOwn, hConfig⟩ := hSettled.serves_stores h hClient
  have hNonempty : responses ≠ [] := by
    intro hNil
    have hOne := hOwn.requests_length.2 hNil
    have hMore := hReceived.requests_length.1
    have hPos := List.length_pos_of_ne_nil hSome
    omega
  have hSorted := sortedUnique_sorted cfg.listenerNames
  have hEnd := List.getLast?_eq_some_getLast hNonempty
  rw [hConfig _ hEnd (hHolds.wellFormed hSorted hRds hRegular hComplete _), hHolds.runtimeConfig hSorted hRds]
  exact ⟨_, rfl⟩

/-- Whatever the client does on one stream, the program can do: its steps refine `runOnce`. -/
theorem System.reachable_of_serves {codec : Proto.Codec} {cfg : XdsClientConfig}
    {responses : List Proto.DiscoveryResponse} {cs : ClientState}
    (h : Serves codec .alwaysOpen cfg (.empty "bootstrap") responses cs) :
    ∃ s, (machine codec cfg).Reachable s ∧ s.client = .streaming cs.stream ∧ s.watch.value = cs.watch := by
  induction responses using List.reverseRecOn generalizing cs with
  | nil =>
    obtain ⟨hOpen, hWatch, -⟩ := serves_nil h
    have hBoot : (machine codec cfg).Reachable bootSystem :=
      .init ⟨⟨rfl, rfl, rfl, rfl, rfl⟩, rfl, rfl, rfl, rfl, rfl⟩
    refine ⟨_, (hBoot.step (.mainSkip rfl)).step (.clientOpen rfl hOpen), rfl, ?_⟩
    rw [hWatch]
    rfl
  | append_singleton before resp ih =>
    obtain ⟨mid, hBefore, hLast⟩ := serves_concat.mp h
    obtain ⟨s, hReachable, hClient, hWatch⟩ := ih hBefore
    have hReceived := hReachable.step (.clientReceive .alwaysOpen resp hClient)
    have hDone := ClientTask.received_handleResponse codec .alwaysOpen cfg.node (fun _ => rfl) mid resp
    rw [hLast] at hDone
    cases hTask : ClientTask.received codec .alwaysOpen cfg.node mid.stream resp with
    | validated stream pending =>
      rw [hTask] at hDone hReceived
      have hCompared := hReceived.step (.clientCompare rfl)
      simp only [ClientTask.uninterrupted, ClientTask.compared, ← hWatch] at hDone
      by_cases hSame : pending = s.watch.value
      · rw [if_neg (not_not.mpr hSame)] at hDone
        refine ⟨_, hCompared, ?_, ?_⟩
        · rw [ClientTask.compared, if_neg (not_not.mpr hSame)]
          exact congrArg Prod.fst hDone
        · exact congrArg Prod.snd hDone
      · rw [if_pos hSame] at hDone
        have hWatcher := (attended_of_reachable hReachable).watcher_ne (by simp [hClient])
        refine ⟨_, hCompared.step (.clientSend (if_pos hSame) hWatcher), ?_, ?_⟩
        · exact congrArg Prod.fst hDone
        · exact congrArg Prod.snd hDone
    | _ =>
      rw [hTask] at hDone hReceived
      exact ⟨_, hReceived, congrArg Prod.fst hDone, hWatch.trans (congrArg Prod.snd hDone)⟩

theorem oneOfEach_served : ∃ s : System, (System.machine oneOfEachCodec sampleClient).Reachable s ∧
    s.Settled ∧ ∃ version, s.proxy.server.state.config = oneOfEach.closure oneOfEachCodec ["l"] version := by
  obtain ⟨session, hRun⟩ := Option.isSome_iff_exists.mp (by decide : (oneOfEachRun 12).isSome = true)
  have hQuiet : ∀ s ∈ oneOfEachRun 12, s.Quiet oneOfEachCodec sampleClient (.empty "bootstrap") := by
    unfold Session.Quiet
    decide
  have hComplete : oneOfEach.Complete oneOfEachCodec (sortedUnique sampleClient.listenerNames) := by
    unfold Database.Complete
    decide
  have hSession := oneOfEachRun_reachable hRun
  have hServes := (Session.staged_of_reachable (by decide) oneOfEach_decodes oneOfEach_rdsOnly hSession).serves
  obtain ⟨s, hReachable, hClient, -⟩ := System.reachable_of_serves hServes
  obtain ⟨t, hOnward, hSettled⟩ := System.onward_settled hReachable
  exact ⟨t, hOnward.reachable hReachable, hSettled,
    settled_serves_database oneOfEachCodec oneOfEachEncoder oneOfEach sampleClient (.empty "bootstrap")
      (by decide) oneOfEach_decodes oneOfEach_rdsOnly hComplete hSession (hQuiet session hRun)
      (hOnward.reachable hReachable) hSettled (hOnward.streaming hSettled (by rw [hClient]; rfl))
      hServes.received⟩

end Dxgate
