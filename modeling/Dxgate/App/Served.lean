import Dxgate.App.Delivery
import Mathlib.Data.List.Chain

/-! # What is served once the program has settled

A configuration is accepted when validation has passed it: the static one by `main`, an assembled one by
the client. Between that and the proxy lie the comparison with the watched value, the send and the
watcher, each a step of its own. The log of accepted configurations says what all of this amounts to: the
watch channel holds the last accepted one whenever none is on its way, and so does the proxy once the
watcher has caught up.
-/

namespace Dxgate

set_option autoImplicit false

def MainTask.accepted : MainTask → Option RuntimeConfig
  | .sending static => some static
  | _ => none

def ClientTask.accepted : ClientTask → Option RuntimeConfig
  | .validated _ pending | .sending _ pending => some pending
  | _ => none

namespace System

/-- The accepted configuration that is not yet in the watch channel. -/
def inFlight (s : System) : Option RuntimeConfig := s.client.accepted.or s.main.accepted

/-- What the step from `s` to `t` has accepted. -/
def acceptedBy (s t : System) : List RuntimeConfig := if s.inFlight = none then t.inFlight.toList else []

/-- A run of the program to `s`, with the configurations accepted on the way, in order. -/
inductive Accepts (codec : Proto.Codec) (cfg : XdsClientConfig) : List RuntimeConfig → System → Prop where
  | init {s : System} (h : s.Initial) : Accepts codec cfg [] s
  | step {log : List RuntimeConfig} {s t : System} (h : Accepts codec cfg log s)
      (hStep : Step codec cfg s t) : Accepts codec cfg (log ++ acceptedBy s t) t

variable {codec : Proto.Codec} {cfg : XdsClientConfig} {log : List RuntimeConfig} {s t : System}

theorem Accepts.reachable (h : Accepts codec cfg log s) : (machine codec cfg).Reachable s := by
  induction h with
  | init h => exact .init h
  | step _ hStep ih => exact ih.step hStep

theorem Inv.serving_of_started (h : s.Inv) (hClient : s.client ≠ .notStarted) : s.main = .serving :=
  h.serving_of_not_quiet fun hQuiet => hClient hQuiet.client

theorem Inv.inFlight_eq (h : s.Inv) (hClient : s.client ≠ .notStarted) : s.inFlight = s.client.accepted := by
  rw [inFlight, h.serving_of_started hClient]
  exact Option.or_none

theorem acceptedBy_of_eq (h : t.inFlight = s.inFlight) : acceptedBy s t = [] := by
  rw [acceptedBy, h]
  split
  · rename_i hNone
    rw [hNone]
    rfl
  · rfl

theorem acceptedBy_of_some (h : s.inFlight ≠ none) : acceptedBy s t = [] := if_neg h

/-! ## The channel keeps up with what is accepted -/

/-- The last accepted configuration is on its way or in the channel; while nothing has been sent, all
that have arrived were the initial value. -/
structure UpToDate (log : List RuntimeConfig) (s : System) : Prop where
  arrived : s.inFlight = none → s.watch.value = log.getLast?.getD (.empty "bootstrap")
  pending : ∀ accepted, s.inFlight = some accepted → log.getLast? = some accepted
  unsent : s.watch.version = 0 → s.watch.value = .empty "bootstrap" ∧
    ∀ accepted ∈ log, accepted = .empty "bootstrap" ∨ s.inFlight = some accepted
  valid : ∀ accepted ∈ log, accepted.WellFormed

theorem UpToDate.of_eq (h : s.UpToDate log) (hFlight : t.inFlight = s.inFlight)
    (hValue : t.watch.value = s.watch.value) (hVersion : t.watch.version = s.watch.version) :
    t.UpToDate (log ++ acceptedBy s t) := by
  rw [acceptedBy_of_eq hFlight, List.append_nil]
  refine ⟨?_, ?_, ?_, h.valid⟩ <;> rw [hFlight]
  · rw [hValue]
    exact h.arrived
  · exact h.pending
  · rw [hValue, hVersion]
    exact h.unsent

theorem UpToDate.accept (h : s.UpToDate log) (accepted : RuntimeConfig) (hBefore : s.inFlight = none)
    (hAfter : t.inFlight = some accepted) (hWatch : t.watch = s.watch) (hValid : accepted.WellFormed) :
    t.UpToDate (log ++ acceptedBy s t) := by
  rw [acceptedBy, if_pos hBefore, hAfter, Option.toList_some]
  refine ⟨?_, ?_, ?_, ?_⟩
  · intro hNone
    rw [hAfter] at hNone
    cases hNone
  · intro other hOther
    rw [List.getLast?_concat, ← hAfter, hOther]
  · intro hVersion
    rw [hWatch] at hVersion ⊢
    obtain ⟨hValue, hOld⟩ := h.unsent hVersion
    refine ⟨hValue, ?_⟩
    intro other hOther
    rcases List.mem_append.mp hOther with hMem | hNew
    · rcases hOld other hMem with hEmpty | hPending
      · exact .inl hEmpty
      · rw [hBefore] at hPending
        cases hPending
    · rw [List.mem_singleton.mp hNew]
      exact .inr hAfter
  · intro other hOther
    rcases List.mem_append.mp hOther with hMem | hNew
    · exact h.valid other hMem
    · rw [List.mem_singleton.mp hNew]
      exact hValid

/-- What is on its way is sent, or turns out to be the watched value. -/
theorem UpToDate.arrive (h : s.UpToDate log) (accepted : RuntimeConfig)
    (hBefore : s.inFlight = some accepted) (hAfter : t.inFlight = none)
    (hWatch : t.watch = s.watch.send accepted ∨ t.watch = s.watch ∧ accepted = s.watch.value) :
    t.UpToDate (log ++ acceptedBy s t) := by
  rw [acceptedBy_of_some (by simp [hBefore]), List.append_nil]
  have hValue : t.watch.value = accepted := by
    rcases hWatch with hSent | ⟨hSame, hEq⟩
    · rw [hSent]
      rfl
    · rw [hSame, hEq]
  refine ⟨?_, ?_, ?_, h.valid⟩
  · intro _
    rw [hValue, h.pending accepted hBefore]
    rfl
  · intro other hOther
    rw [hAfter] at hOther
    cases hOther
  · intro hVersion
    rcases hWatch with hSent | ⟨hSame, hEq⟩
    · rw [hSent] at hVersion
      cases hVersion
    · rw [hSame] at hVersion ⊢
      obtain ⟨hInitial, hOld⟩ := h.unsent hVersion
      refine ⟨hInitial, ?_⟩
      intro other hOther
      rcases hOld other hOther with hEmpty | hPending
      · exact .inl hEmpty
      · rw [hBefore, Option.some.injEq] at hPending
        rw [← hPending, hEq]
        exact .inl hInitial

/-- The watcher leaves only after the sender, with nothing unseen, and the sender leaves with the client. -/
structure Attended (s : System) : Prop where
  receiver : s.watcher = .exited → s.watch.closed = true ∧ s.seen = s.watch.version
  sender : s.watch.closed = true → s.client = .exited
  call : s.watcher = .applying → ∃ task, s.proxy.tasks WATCHER_TASK = .applying task

theorem Attended.watcher_ne (h : s.Attended) (hClient : s.client ≠ .exited) : s.watcher ≠ .exited :=
  fun hExited => hClient (h.sender (h.receiver hExited).1)

theorem Attended.of_client (h : s.Attended) (hClient : s.client ≠ .exited) (hProxy : t.proxy = s.proxy)
    (hWatcher : t.watcher = s.watcher) (hClosed : t.watch.closed = s.watch.closed) : t.Attended := by
  refine ⟨?_, ?_, ?_⟩
  · rw [hWatcher]
    exact fun hExited => absurd hExited (h.watcher_ne hClient)
  · rw [hClosed]
    exact fun hGone => absurd (h.sender hGone) hClient
  · rw [hWatcher, hProxy]
    exact h.call

theorem Attended.of_task (h : s.Attended) (hWatch : t.watch = s.watch) (hClient : t.client = s.client)
    (hWatcher : t.watcher = s.watcher) (hSeen : t.seen = s.seen)
    (hTask : ∀ task, s.proxy.tasks WATCHER_TASK = .applying task →
      ∃ next, t.proxy.tasks WATCHER_TASK = .applying next) : t.Attended := by
  refine ⟨?_, ?_, ?_⟩
  · rw [hWatcher, hWatch, hSeen]
    exact h.receiver
  · rw [hWatch, hClient]
    exact h.sender
  · rw [hWatcher]
    intro hApplying
    obtain ⟨task, hNow⟩ := h.call hApplying
    exact hTask task hNow

theorem setTask_watcher (p : ProxySystem) {i : Nat} (hOther : i ≠ WATCHER_TASK) (task : Task) :
    (p.setTask i task).tasks WATCHER_TASK = p.tasks WATCHER_TASK := by
  rw [ProxySystem.setTask_tasks, if_neg hOther.symm]

theorem Step.attended (hInv : s.Inv) (h : s.Attended) (hStep : Step codec cfg s t) : t.Attended := by
  have hStarting (hMain : s.main ≠ .serving) : s.client ≠ .exited := by
    rw [(hInv.quiet hMain).client]
    nofun
  cases hStep with
  | mainSkip hMain => exact h.of_client (hStarting (by simp [hMain])) rfl rfl rfl
  | mainApply static _ _ =>
    refine h.of_task rfl rfl rfl rfl fun task hTask => ⟨task, ?_⟩
    rw [setTask_watcher _ (by decide), hTask]
  | mainAccepted hMain _ => exact h.of_client (hStarting (by simp [hMain])) rfl rfl rfl
  | mainRejected hMain _ => exact h.of_client (hStarting (by simp [hMain])) rfl rfl rfl
  | mainSend hMain _ => exact h.of_client (hStarting (by simp [hMain])) rfl rfl rfl
  | mainSendFailed hMain _ => exact h.of_client (hStarting (by simp [hMain])) rfl rfl rfl
  | clientOpen hClient _ => exact h.of_client (by simp [hClient]) rfl rfl rfl
  | clientReceive _ _ hClient => exact h.of_client (by simp [hClient]) rfl rfl rfl
  | clientCompare hClient => exact h.of_client (by simp [hClient]) rfl rfl rfl
  | clientSend hClient _ => exact h.of_client (by simp [hClient]) rfl rfl rfl
  | clientSendFailed hClient _ => exact h.of_client (by simp [hClient]) rfl rfl rfl
  | clientLost hClient => exact h.of_client (by simp [hClient]) rfl rfl rfl
  | clientExit _ => exact ⟨fun hExited => ⟨rfl, (h.receiver hExited).2⟩, fun _ => rfl, h.call⟩
  | watcherChanged _ _ => exact ⟨nofun, h.sender, nofun⟩
  | watcherClosed _ hSeen hClosed => exact ⟨fun _ => ⟨hClosed, hSeen⟩, h.sender, nofun⟩
  | watcherApply _ _ =>
    refine ⟨nofun, h.sender, fun _ => ⟨.call s.watch.value, ?_⟩⟩
    exact (ProxySystem.setTask_tasks _ _ _ _).trans (if_pos rfl)
  | watcherReturned _ _ => exact ⟨nofun, h.sender, nofun⟩
  | read i hOther _ =>
    refine h.of_task rfl rfl rfl rfl fun task hTask => ⟨task, ?_⟩
    rw [setTask_watcher _ (Nat.ne_of_gt hOther), hTask]
  | forward i req hOther _ =>
    refine h.of_task rfl rfl rfl rfl fun task hTask => ⟨task, ?_⟩
    rw [setTask_watcher _ (Nat.ne_of_gt hOther), hTask]
  | run up i =>
    refine h.of_task rfl rfl rfl rfl fun task hTask => ?_
    rw [ProxySystem.runTask_tasks]
    split
    · rename_i hSelf
      rw [← hSelf, hTask]
      exact ⟨_, rfl⟩
    · exact ⟨task, hTask⟩

theorem attended_of_reachable (h : (machine codec cfg).Reachable s) : s.Attended := by
  have hBoth : s.Inv ∧ s.Attended := by
    refine h.invariant (I := fun s => s.Inv ∧ s.Attended) ?_ ?_
    · intro s hInit
      have hWatcher := hInit.2.2.2.2.1
      refine ⟨Initial.inv hInit, ?_, ?_, ?_⟩
      · rw [hWatcher]
        nofun
      · rw [hInit.2.1]
        nofun
      · rw [hWatcher]
        nofun
    · rintro s t ⟨hInv, hAttended⟩ hStep
      exact ⟨Step.inv hInv hStep, Step.attended hInv hAttended hStep⟩
  exact hBoth.2

/-- A response is rejected or changes nothing that could be sent, or its assembly is accepted. -/
theorem received_accepted (codec : Proto.Codec) (channels : Channels) (node : Proto.Node) (stream : Stream)
    (resp : Proto.DiscoveryResponse) :
    (ClientTask.received codec channels node stream resp).accepted = none ∨
      ∃ accepted, accepted.WellFormed ∧
        (ClientTask.received codec channels node stream resp).accepted = some accepted := by
  rw [ClientTask.received]
  split
  · exact .inl rfl
  · split
    · rename_i hValid
      exact .inr ⟨_, (RuntimeConfig.validate_ok_iff _).mp hValid, rfl⟩
    · exact .inl rfl

theorem UpToDate.step (hInv : s.Inv) (hAttended : s.Attended) (h : s.UpToDate log)
    (hStep : Step codec cfg s t) : t.UpToDate (log ++ acceptedBy s t) := by
  have hClientFlight (hClient : s.client ≠ .notStarted) := hInv.inFlight_eq hClient
  have hMainFlight (hMain : s.main ≠ .serving) : s.inFlight = s.main.accepted := by
    rw [inFlight, (hInv.quiet hMain).client]
    rfl
  cases hStep with
  | mainSkip hMain =>
    refine h.of_eq ?_ rfl rfl
    rw [hMainFlight (by simp [hMain]), hMain]
    rfl
  | mainApply static hMain _ =>
    refine h.of_eq ?_ rfl rfl
    rw [inFlight, inFlight, hMain]
    rfl
  | @mainAccepted static hMain hTask =>
    have hQuiet := hInv.quiet (by simp [hMain])
    refine h.accept static ?_ ?_ rfl ?_
    · rw [hMainFlight (by simp [hMain]), hMain]
      rfl
    · dsimp only [inFlight]
      rw [hQuiet.client]
      rfl
    · obtain ⟨task, hTask', hFor⟩ := hInv.applying static hMain
      rw [hTask] at hTask'
      cases hTask'
      exact hFor
  | mainRejected hMain _ =>
    refine h.of_eq ?_ rfl rfl
    rw [hMainFlight (by simp [hMain]), hMain]
    rfl
  | @mainSend static hMain _ =>
    refine h.arrive static ?_ rfl (.inl rfl)
    rw [hMainFlight (by simp [hMain]), hMain]
    rfl
  | mainSendFailed hMain hReceiver =>
    have hQuiet := hInv.quiet (by simp [hMain])
    rw [hQuiet.watcher] at hReceiver
    cases hReceiver
  | clientOpen hClient _ =>
    have hMain := hInv.serving_of_started (by simp [hClient])
    refine h.of_eq ?_ rfl rfl
    rw [inFlight, inFlight, hClient]
    rfl
  | @clientReceive stream channels resp hClient =>
    have hMain := hInv.serving_of_started (by simp [hClient])
    have hBefore : s.inFlight = none := by
      rw [hClientFlight (by simp [hClient]), hClient]
      rfl
    rcases received_accepted codec channels cfg.node stream resp with hNone | ⟨accepted, hValid, hSome⟩
    · refine h.of_eq ?_ rfl rfl
      rw [hBefore, inFlight, hNone, hMain]
      rfl
    · refine h.accept accepted hBefore ?_ rfl hValid
      rw [inFlight, hSome]
      rfl
  | @clientCompare stream pending hClient =>
    have hMain := hInv.serving_of_started (by simp [hClient])
    have hBefore : s.inFlight = some pending := by
      rw [hClientFlight (by simp [hClient]), hClient]
      rfl
    by_cases hSame : pending = s.watch.value
    · refine h.arrive pending hBefore ?_ (.inr ⟨rfl, hSame⟩)
      rw [inFlight, ClientTask.compared, if_neg (not_not.mpr hSame), hMain]
      rfl
    · refine h.of_eq ?_ rfl rfl
      rw [hBefore, inFlight, ClientTask.compared, if_pos hSame]
      rfl
  | @clientSend stream pending hClient _ =>
    have hMain := hInv.serving_of_started (by simp [hClient])
    refine h.arrive pending ?_ ?_ (.inl rfl)
    · rw [hClientFlight (by simp [hClient]), hClient]
      rfl
    · rw [inFlight, hMain]
      rfl
  | clientSendFailed hClient hReceiver =>
    exact absurd hReceiver (hAttended.watcher_ne (by simp [hClient]))
  | clientLost hClient =>
    refine h.of_eq ?_ rfl rfl
    rw [inFlight, inFlight, hClient]
    rfl
  | clientExit hClient =>
    refine h.of_eq ?_ rfl rfl
    rw [inFlight, inFlight, hClient]
    rfl
  | _ => exact h.of_eq rfl rfl rfl

theorem Accepts.upToDate (h : Accepts codec cfg log s) : s.UpToDate log := by
  induction h with
  | init hInit =>
    obtain ⟨_, hWatch, hMain, hClient, _⟩ := hInit
    refine ⟨?_, ?_, ?_, nofun⟩
    · intro _
      rw [hWatch]
      rfl
    · rw [inFlight, hMain, hClient]
      nofun
    · intro _
      rw [hWatch]
      exact ⟨rfl, nofun⟩
  | step hLog hStep ih =>
    exact ih.step (inv_of_reachable hLog.reachable) (attended_of_reachable hLog.reachable) hStep

/-! ## Readiness follows what is stored -/

end System

/-- A configuration has been stored and readiness has not yet been set for it. -/
def Task.Confirming (task : Task) : Prop := task = .applying .clearConflicts ∨ task = .applying .storeReady

theorem Task.Resting.not_confirming {task : Task} (h : task.Resting) : ¬ task.Confirming := by
  rintro (rfl | rfl) <;> cases h

namespace ProxySystem

/-- Once something is stored the proxy is ready, or a task is about to make it so. -/
def Confirmed (s : ProxySystem) : Prop :=
  s.stored ≠ [] → s.server.state.ready = true ∨ ∃ i, (s.tasks i).Confirming

theorem Confirmed.setTask {s : ProxySystem} (h : s.Confirmed) {i : Nat} (hResting : (s.tasks i).Resting)
    (task : Task) : (s.setTask i task).Confirmed := by
  intro hStored
  rcases h hStored with hReady | ⟨j, hConfirming⟩
  · exact .inl hReady
  · refine .inr ⟨j, ?_⟩
    rw [setTask_tasks, if_neg]
    · exact hConfirming
    · rintro rfl
      exact hResting.not_confirming hConfirming

theorem Confirmed.runTask {s : ProxySystem} (hDisciplined : s.Disciplined) (h : s.Confirmed) (up : Upstream)
    (i : Nat) : (s.runTask up i).Confirmed := by
  intro hStored
  by_cases hWrite : ∃ cfg, s.tasks i = .applying (.writeConfig cfg)
  · obtain ⟨cfg, hTask⟩ := hWrite
    exact .inr ⟨i, .inl (runTask_write up hTask).2.2⟩
  · rw [(runTask_keeps up fun cfg hTask => hWrite ⟨cfg, hTask⟩).1] at hStored
    rcases h hStored with hReady | ⟨j, hConfirming⟩
    · exact .inl (hDisciplined.ready_runTask up i hReady)
    · by_cases hSelf : j = i
      · rw [hSelf] at hConfirming
        rcases hConfirming with hTask | hTask
        · refine .inr ⟨i, .inr ?_⟩
          rw [runTask_tasks, if_pos rfl, hTask]
          rfl
        · refine .inl ?_
          rw [ProxySystem.runTask, hTask]
          rfl
      · refine .inr ⟨j, ?_⟩
        rw [runTask_tasks, if_neg hSelf]
        exact hConfirming

end ProxySystem

namespace System

variable {codec : Proto.Codec} {cfg : XdsClientConfig} {log : List RuntimeConfig} {s t : System}

theorem confirmed_of_reachable (h : (machine codec cfg).Reachable s) : s.proxy.Confirmed := by
  have hBoth : s.Inv ∧ s.proxy.Confirmed := by
    refine h.invariant (I := fun s => s.Inv ∧ s.proxy.Confirmed) ?_ ?_
    · intro s hInit
      exact ⟨Initial.inv hInit, fun hStored => absurd hInit.1.2.2.2.2 hStored⟩
    · rintro s t ⟨hInv, hConfirmed⟩ hStep
      refine ⟨Step.inv hInv hStep, ?_⟩
      cases hStep with
      | mainApply _ _ hResting => exact hConfirmed.setTask hResting _
      | watcherApply _ hResting => exact hConfirmed.setTask hResting _
      | read _ _ hResting => exact hConfirmed.setTask hResting _
      | forward _ _ _ hResting => exact hConfirmed.setTask hResting _
      | run up i => exact hConfirmed.runTask hInv.disciplined up i
      | _ => exact hConfirmed
  exact hBoth.2

/-! ## A watcher that has caught up -/

theorem Serving.caught_up {n : Nat} (h : s.Serving log n) (hWoken : s.watcher ≠ .woken)
    (hApplying : s.watcher ≠ .applying) (hSeen : s.seen = s.watch.version) :
    s.proxy.stored.getLast? = log.getLast? := by
  apply h.trail.caught_up
  rw [← h.version, ← hSeen]
  exact h.resting hWoken hApplying

/-- A watcher that has nothing to do has stored the watched value, if any was ever sent. -/
theorem Accepts.config_eq_watch (h : Accepts codec cfg log s) (hMain : s.main = .serving)
    (hWoken : s.watcher ≠ .woken) (hApplying : s.watcher ≠ .applying) (hSeen : s.seen = s.watch.version) :
    s.proxy.server.state.config = s.watch.value ∧ (s.watch.version ≠ 0 → s.proxy.stored ≠ []) := by
  obtain ⟨sent, hSent⟩ := exists_logged h.reachable
  rcases hSent.delivered with ⟨-, hStarting⟩ | ⟨n, hServing⟩
  · exact absurd hMain hStarting.startup.main_ne
  · have hLast := hServing.caught_up hWoken hApplying hSeen
    constructor
    · rw [ProxySystem.config_eq_last_stored (proxy_reachable h.reachable), hLast]
      cases sent with
      | nil => exact (h.upToDate.unsent hServing.version).1.symm
      | cons first rest =>
        rw [hServing.value (List.cons_ne_nil first rest)]
        rfl
    · intro hVersion hNone
      rw [hNone, List.getLast?_nil, eq_comm, List.getLast?_eq_none_iff] at hLast
      rw [hServing.version, hLast] at hVersion
      exact hVersion rfl

theorem Inv.not_confirming (h : s.Inv) (hMain : s.main = .serving) (hWatcher : s.watcher ≠ .applying)
    (i : Nat) : ¬ (s.proxy.tasks i).Confirming := by
  rcases task_cases i with rfl | rfl | hOther
  · exact (h.serving hMain).not_confirming
  · exact (h.watcher hWatcher).not_confirming
  · rintro (hTask | hTask) <;> exact h.others i hOther _ hTask

/-- With no call under way, a proxy that has stored something is ready. -/
theorem ready_of_stored (h : (machine codec cfg).Reachable s) (hMain : s.main = .serving)
    (hWatcher : s.watcher ≠ .applying) (hStored : s.proxy.stored ≠ []) :
    s.proxy.server.state.ready = true := by
  rcases confirmed_of_reachable h hStored with hReady | ⟨i, hConfirming⟩
  · exact hReady
  · exact absurd hConfirming ((inv_of_reachable h).not_confirming hMain hWatcher i)

/-! ## Settled states -/

/-- `main` has started everything, no accepted configuration is on its way and the watcher has seen the
last version; requests and readers may be under way. -/
structure Settled (s : System) : Prop where
  main : s.main = .serving
  client : s.client.accepted = none
  watcher : s.watcher = .waiting ∨ s.watcher = .exited
  seen : s.seen = s.watch.version

theorem Settled.inFlight_eq (h : s.Settled) : s.inFlight = none := by
  rw [inFlight, h.client, h.main]
  rfl

theorem Settled.watcher_ne (h : s.Settled) : s.watcher ≠ .woken ∧ s.watcher ≠ .applying := by
  rcases h.watcher with hWaiting | hExited
  · rw [hWaiting]
    exact ⟨nofun, nofun⟩
  · rw [hExited]
    exact ⟨nofun, nofun⟩

theorem Settled.config_eq (hSettled : s.Settled) (h : Accepts codec cfg log s) :
    s.proxy.server.state.config = log.getLast?.getD (.empty "bootstrap") := by
  rw [(h.config_eq_watch hSettled.main hSettled.watcher_ne.1 hSettled.watcher_ne.2 hSettled.seen).1,
    h.upToDate.arrived hSettled.inFlight_eq]

theorem Settled.ready (hSettled : s.Settled) (h : Accepts codec cfg log s) {accepted : RuntimeConfig}
    (hMem : accepted ∈ log) (hNew : accepted ≠ .empty "bootstrap") :
    s.proxy.server.state.ready = true ∧ s.proxy.server.state.conflicts = [] := by
  have hInv := inv_of_reachable h.reachable
  have hStored : s.proxy.stored ≠ [] := by
    apply (h.config_eq_watch hSettled.main hSettled.watcher_ne.1 hSettled.watcher_ne.2 hSettled.seen).2
    intro hVersion
    rcases (h.upToDate.unsent hVersion).2 accepted hMem with hEmpty | hPending
    · exact hNew hEmpty
    · rw [hSettled.inFlight_eq] at hPending
      cases hPending
  have hReady := ready_of_stored h.reachable hSettled.main hSettled.watcher_ne.2 hStored
  exact ⟨hReady, (hInv.disciplined.ready hReady).1⟩

end System

/-- No accepted configuration is lost: whatever interleaving led there, the watch channel holds the last
accepted configuration when none is on its way; in a settled state the proxy serves it, and is ready without
conflicts as soon as something other than the initial configuration has been accepted. -/
theorem settled_serves_last_accepted (codec : Proto.Codec) (cfg : XdsClientConfig) {log : List RuntimeConfig}
    {s : System} (h : System.Accepts codec cfg log s) :
    (∀ accepted ∈ log, accepted.validate = .ok ()) ∧
    (s.inFlight = none → s.watch.value = log.getLast?.getD (.empty "bootstrap")) ∧
    (s.Settled → s.proxy.server.state.config = log.getLast?.getD (.empty "bootstrap") ∧
      ((∃ accepted ∈ log, accepted ≠ .empty "bootstrap") →
        s.proxy.server.state.ready = true ∧ s.proxy.server.state.conflicts = [])) := by
  refine ⟨?_, h.upToDate.arrived, ?_⟩
  · intro accepted hMem
    exact (RuntimeConfig.validate_ok_iff _).mpr (h.upToDate.valid accepted hMem)
  · intro hSettled
    refine ⟨hSettled.config_eq h, ?_⟩
    rintro ⟨accepted, hMem, hNew⟩
    exact hSettled.ready h hMem hNew

/-! ## Sends that say something new -/

namespace System

variable {codec : Proto.Codec} {cfg : XdsClientConfig} {log : List RuntimeConfig} {s t : System}

/-- The configurations sent so far, and the one the client is about to send. -/
structure Fresh (log : List RuntimeConfig) (s : System) : Prop where
  chain : log.IsChain (· ≠ ·)
  valid : ∀ cfg ∈ log, cfg.WellFormed
  sending : ∀ stream pending, s.client = .sending stream pending → pending ≠ s.watch.value

theorem Fresh.of_eq (h : s.Fresh log) (hClient : t.client = s.client) (hWatch : t.watch = s.watch) :
    t.Fresh (log ++ sentBy s t) := by
  rw [sentBy, hWatch, if_pos rfl, List.append_nil]
  refine ⟨h.chain, h.valid, ?_⟩
  rw [hClient, hWatch]
  exact h.sending

theorem Fresh.unsent (h : s.Fresh log) (hVersion : t.watch.version = s.watch.version)
    (hSending : ∀ stream pending, t.client = .sending stream pending → pending ≠ t.watch.value) :
    t.Fresh (log ++ sentBy s t) := by
  rw [sentBy, if_pos hVersion, List.append_nil]
  exact ⟨h.chain, h.valid, hSending⟩

theorem Fresh.sent (h : s.Fresh log) {sent : RuntimeConfig} (hWatch : t.watch = s.watch.send sent)
    (hValid : sent.WellFormed) (hNew : ∀ last, log.getLast? = some last → last ≠ sent)
    (hSending : ∀ stream pending, t.client ≠ .sending stream pending) : t.Fresh (log ++ sentBy s t) := by
  have hVersion : t.watch.version ≠ s.watch.version := by
    rw [hWatch]
    exact Nat.succ_ne_self _
  rw [sentBy, if_neg hVersion, hWatch]
  refine ⟨?_, ?_, fun stream pending hClient => absurd hClient (hSending stream pending)⟩
  · refine List.IsChain.append h.chain (List.isChain_singleton _) ?_
    intro last hLast first hFirst
    cases hFirst
    exact hNew last hLast
  · intro other hOther
    rcases List.mem_append.mp hOther with hOld | hLast
    · exact h.valid other hOld
    · rw [List.mem_singleton.mp hLast]
      exact hValid

theorem Fresh.step (hInv : s.Inv) (hDelivered : s.Delivered log) (h : s.Fresh log)
    (hStep : Step codec cfg s t) : t.Fresh (log ++ sentBy s t) := by
  cases hStep with
  | mainSkip _ => exact h.unsent rfl nofun
  | mainRejected _ _ => exact h.unsent rfl nofun
  | @mainSend static hMain _ =>
    refine h.sent rfl (hInv.sending static hMain).2 ?_ nofun
    rcases hDelivered with ⟨rfl, -⟩ | ⟨_, hServing⟩
    · nofun
    · have hOther := hServing.main
      rw [hMain] at hOther
      cases hOther
  | mainSendFailed _ _ => exact h.unsent rfl nofun
  | clientOpen _ _ => exact h.unsent rfl nofun
  | @clientReceive stream channels resp _ =>
    refine h.unsent rfl ?_
    intro stream' pending hClient
    dsimp only [ClientTask.received] at hClient
    split at hClient
    · cases hClient
    · split at hClient <;> cases hClient
  | @clientCompare stream pending _ =>
    refine h.unsent rfl ?_
    intro stream' pending' hClient
    dsimp only [ClientTask.compared] at hClient
    split at hClient
    · rename_i hDiffers
      cases hClient
      exact hDiffers
    · cases hClient
  | @clientSend stream pending hClient _ =>
    refine h.sent rfl (hInv.pending stream pending (.inr hClient)) ?_ nofun
    intro last hLast hSame
    rcases hDelivered with ⟨rfl, -⟩ | ⟨_, hServing⟩
    · cases hLast
    · rw [hServing.value (by rintro rfl; cases hLast), Option.some.injEq] at hLast
      exact h.sending stream pending hClient (hSame.symm.trans hLast.symm)
  | clientSendFailed _ _ => exact h.unsent rfl nofun
  | clientLost _ => exact h.unsent rfl nofun
  | clientExit _ => exact h.unsent rfl nofun
  | _ => exact h.of_eq rfl rfl

end System

/-- In every interleaving: each configuration sent on the watch channel is valid, and none repeats the one
sent before it. -/
theorem sends_valid_and_new (codec : Proto.Codec) (cfg : XdsClientConfig) {log : List RuntimeConfig}
    {s : System} (h : System.Logged codec cfg log s) :
    (∀ sent ∈ log, sent.validate = .ok ()) ∧ log.IsChain (· ≠ ·) := by
  have hFresh : s.Fresh log := by
    induction h with
    | init hInit =>
      refine ⟨.nil, nofun, ?_⟩
      rw [hInit.2.2.2.1]
      nofun
    | step hLog hStep ih => exact ih.step (System.inv_of_reachable hLog.reachable) hLog.delivered hStep
  exact ⟨fun sent hSent => (RuntimeConfig.validate_ok_iff _).mpr (hFresh.valid sent hSent), hFresh.chain⟩

/-! ## A static configuration -/

namespace System

variable {codec : Proto.Codec} {cfg : XdsClientConfig} {log : List RuntimeConfig} {s t : System}

theorem Accepts.unaccepted (h : Accepts codec cfg log s) (hStep : Step codec cfg s t)
    (hNone : acceptedBy s t = []) : Accepts codec cfg log t := by
  have hNow := h.step hStep
  rw [hNone, List.append_nil] at hNow
  exact hNow

theorem Accepts.iterate (h : Accepts codec cfg log s) (i n : Nat) :
    Accepts codec cfg log ((System.runTask i)^[n] s) := by
  induction n with
  | zero => exact h
  | succ n ih =>
    rw [Function.iterate_succ_apply']
    exact ih.unaccepted (.run sampleUpstream i) (acceptedBy_of_eq rfl)

end System

theorem staticSent_accepts :
    System.Accepts rdsListenerCodec sampleClient [sampleStatic] (staticSent sampleStatic) := by
  have hBoot : System.Accepts rdsListenerCodec sampleClient [] bootSystem :=
    .init ⟨⟨rfl, rfl, rfl, rfl, rfl⟩, rfl, rfl, rfl, rfl, rfl⟩
  have hApplied := (hBoot.unaccepted (.mainApply sampleStatic rfl .idle) (System.acceptedBy_of_eq rfl)).iterate
    MAIN_TASK 3
  exact (hApplied.step (.mainAccepted rfl rfl)).unaccepted (.mainSend rfl nofun)
    (System.acceptedBy_of_some nofun)

theorem discoveredReceived_accepts :
    System.Accepts rdsListenerCodec sampleClient [sampleStatic, discovered] discoveredReceived := by
  have hWoken := staticSent_accepts.unaccepted (.watcherChanged rfl (by decide)) (System.acceptedBy_of_eq rfl)
  have hRead := hWoken.unaccepted (.watcherApply rfl .idle) (System.acceptedBy_of_eq rfl)
  have hWatched := (hRead.iterate WATCHER_TASK 3).unaccepted (.watcherReturned rfl rfl)
    (System.acceptedBy_of_eq rfl)
  have hOpen : openStream .alwaysOpen sampleClient = (openedStream, none) := rfl
  have hOpened := hWatched.unaccepted (.clientOpen rfl hOpen) (System.acceptedBy_of_eq rfl)
  have hReceived := hOpened.step (.clientReceive .alwaysOpen rdsListenerResponse rfl)
  rw [discovered_received] at hReceived
  exact hReceived

theorem discoveredSent_accepts :
    System.Accepts rdsListenerCodec sampleClient [sampleStatic, discovered] discoveredSent := by
  have hCompared : System.Accepts rdsListenerCodec sampleClient [sampleStatic, discovered]
      { staticWatched sampleStatic with client := .sending discoveredStream discovered } := by
    rw [← discovered_compared]
    exact discoveredReceived_accepts.unaccepted (.clientCompare rfl) (System.acceptedBy_of_some nofun)
  exact hCompared.unaccepted (.clientSend rfl nofun) (System.acceptedBy_of_some nofun)

theorem discoveredWatched_served : discoveredWatched.proxy.server.state.config = discovered ∧
    discoveredWatched.proxy.server.state.ready = true := by
  have hWoken := discoveredSent_accepts.unaccepted (.watcherChanged rfl (by decide))
    (System.acceptedBy_of_eq rfl)
  have hRead := hWoken.unaccepted (.watcherApply rfl (.applied _)) (System.acceptedBy_of_eq rfl)
  have hWatched := (hRead.iterate WATCHER_TASK 3).unaccepted (.watcherReturned rfl rfl)
    (System.acceptedBy_of_eq rfl)
  obtain ⟨hConfig, hReady⟩ := (settled_serves_last_accepted _ _ hWatched).2.2 ⟨rfl, rfl, .inl rfl, rfl⟩
  exact ⟨hConfig, (hReady ⟨sampleStatic, by simp, by decide⟩).1⟩

theorem discoveredWatched_new : System.Logged rdsListenerCodec sampleClient [sampleStatic, discovered]
      discoveredWatched ∧
    sampleStatic.validate = .ok () ∧ discovered.validate = .ok () ∧ sampleStatic ≠ discovered := by
  obtain ⟨hValid, hNew⟩ := sends_valid_and_new _ _ discoveredWatched_logged
  exact ⟨discoveredWatched_logged, hValid sampleStatic (by simp), hValid discovered (by simp),
    (List.isChain_cons_cons.mp hNew).1⟩

end Dxgate
