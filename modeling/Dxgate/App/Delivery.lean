import Dxgate.App.Readiness

/-! # Delivery of configurations

The watcher marks a version as seen in one step and reads the value in a later one, so it may read a
newer configuration than the one it was woken for, and be woken again for one it has read. What it stores
therefore moves along the order of the sends, skipping and repeating but never going back, and it rests
only on the last one.
-/

namespace Dxgate

set_option autoImplicit false

open Runs

/-! ## The calls of `apply_config` -/

def ApplyTask.Failing : ApplyTask → Prop
  | .writeConflicts _ | .storeNotReady _ | .returned (.error _) => True
  | _ => False

def ApplyTask.Written : ApplyTask → Prop
  | .clearConflicts | .storeReady | .returned (.ok ()) => True
  | _ => False

theorem ApplyTask.Failing.step {task : ApplyTask} (h : task.Failing) (st : ProxyState) :
    (ApplyTask.step (st, task)).2.Failing := by
  cases task with
  | writeConflicts conflicts => trivial
  | storeNotReady conflicts => trivial
  | returned result => exact h
  | _ => cases h

theorem ApplyTask.Written.step {task : ApplyTask} (h : task.Written) (st : ProxyState) :
    (ApplyTask.step (st, task)).2.Written := by
  cases task with
  | clearConflicts => trivial
  | storeReady => trivial
  | returned result => exact h
  | _ => cases h

theorem ApplyTask.call_cases (cfg : RuntimeConfig) :
    ApplyTask.call cfg = .writeConfig cfg ∨ (ApplyTask.call cfg).Failing := by
  rw [ApplyTask.call]
  split
  · exact .inl rfl
  · exact .inr trivial

theorem Task.Resting.not_writing {task : Task} (h : task.Resting) (cfg : RuntimeConfig) :
    task ≠ .applying (.writeConfig cfg) := by
  cases h with
  | _ => nofun

theorem Task.step_not_writing {task : Task} (h : ∀ cfg, task ≠ .applying (.writeConfig cfg)) (up : Upstream)
    (server : ProxyServer) : ∀ cfg, (Task.step up (server, task)).2 ≠ .applying (.writeConfig cfg) := by
  intro cfg hStep
  cases task with
  | applying task =>
    cases task with
    | writeConfig other => exact h other rfl
    | returned result => cases hStep
    | _ => cases hStep
  | idle => cases hStep
  | reading reader => cases hStep
  | forwarding handler => cases hStep

/-- What `main` has taken up and not yet sent. -/
def MainTask.pending : MainTask → List RuntimeConfig
  | .applying static | .sending static => [static]
  | .loading | .serving => []

namespace System

/-- What the step from `s` to `t` has sent: every send and nothing else advances the version. -/
def sentBy (s t : System) : List RuntimeConfig :=
  if t.watch.version = s.watch.version then [] else [t.watch.value]

/-- A run of the program to `s`, with the configurations sent on the way, in order. -/
inductive Logged (codec : Proto.Codec) (cfg : XdsClientConfig) : List RuntimeConfig → System → Prop where
  | init {s : System} (h : s.Initial) : Logged codec cfg [] s
  | step {log : List RuntimeConfig} {s t : System} (h : Logged codec cfg log s)
      (hStep : Step codec cfg s t) : Logged codec cfg (log ++ sentBy s t) t

variable {codec : Proto.Codec} {cfg : XdsClientConfig} {log : List RuntimeConfig} {s t : System} {n : Nat}

theorem Logged.reachable (h : Logged codec cfg log s) : (machine codec cfg).Reachable s := by
  induction h with
  | init h => exact .init h
  | step _ hStep ih => exact ih.step hStep

theorem exists_logged (h : (machine codec cfg).Reachable s) : ∃ log, Logged codec cfg log s := by
  refine h.invariant (I := fun s => ∃ log, Logged codec cfg log s) ?_ ?_
  · exact fun s hInit => ⟨[], .init hInit⟩
  · rintro s t ⟨log, hLog⟩ hStep
    exact ⟨_, hLog.step hStep⟩

/-! ## Before the first send -/

/-- How far `main` has got with the static configuration, and what is stored meanwhile. -/
def Startup (s : System) : Prop :=
  match s.main with
  | .loading => s.proxy.stored = []
  | .applying static => ∃ task, s.proxy.tasks MAIN_TASK = .applying task ∧
      ((task = .writeConfig static ∨ task.Failing) ∧ s.proxy.stored = [] ∨
        task.Written ∧ s.proxy.stored = [static])
  | .sending static => s.proxy.stored = [static]
  | .serving => False

structure Starting (s : System) : Prop where
  version : s.watch.version = 0
  startup : s.Startup

theorem Startup.main_ne (h : s.Startup) : s.main ≠ .serving := by
  intro hServing
  rw [Startup, hServing] at h
  exact h

theorem Startup.of_eq (h : s.Startup) (hMain : t.main = s.main)
    (hTask : t.proxy.tasks MAIN_TASK = s.proxy.tasks MAIN_TASK) (hStored : t.proxy.stored = s.proxy.stored) :
    t.Startup := by
  rw [Startup, hMain, hTask, hStored]
  exact h

theorem Startup.run_main (hInv : s.Inv) (h : s.Startup) (up : Upstream) :
    ({ s with proxy := s.proxy.runTask up MAIN_TASK } : System).Startup := by
  have hAfter : (s.proxy.runTask up MAIN_TASK).tasks MAIN_TASK =
      (Task.step up (s.proxy.server, s.proxy.tasks MAIN_TASK)).2 := by
    rw [ProxySystem.runTask_tasks, if_pos rfl]
  unfold Startup at h ⊢
  cases hMain : s.main with
  | loading =>
    rw [hMain] at h
    exact (ProxySystem.runTask_keeps up (by rw [(hInv.loading hMain).1]; nofun)).1.trans h
  | applying static =>
    rw [hMain] at h
    obtain ⟨task, hTask, ⟨rfl | hFailing, hStored⟩ | ⟨hWritten, hStored⟩⟩ := h
    · obtain ⟨hNow, -, hNext⟩ := ProxySystem.runTask_write up hTask
      exact ⟨_, hNext, .inr ⟨trivial, hNow.trans (by rw [hStored]; rfl)⟩⟩
    · have hKeeps := ProxySystem.runTask_keeps up (by rw [hTask]; rintro cfg ⟨⟩; cases hFailing)
      rw [hTask] at hAfter
      exact ⟨_, hAfter, .inl ⟨.inr (hFailing.step _), hKeeps.1.trans hStored⟩⟩
    · have hKeeps := ProxySystem.runTask_keeps up (by rw [hTask]; rintro cfg ⟨⟩; cases hWritten)
      rw [hTask] at hAfter
      exact ⟨_, hAfter, .inr ⟨hWritten.step _, hKeeps.1.trans hStored⟩⟩
  | sending static =>
    rw [hMain] at h
    exact (ProxySystem.runTask_keeps up (hInv.sending _ hMain).1.not_writing).1.trans h
  | serving =>
    rw [hMain] at h
    exact h

theorem Startup.run (hInv : s.Inv) (h : s.Startup) (up : Upstream) (i : Nat) :
    ({ s with proxy := s.proxy.runTask up i } : System).Startup := by
  have hQuiet := hInv.quiet h.main_ne
  by_cases hMainTask : i = MAIN_TASK
  · rw [hMainTask]
    exact h.run_main hInv up
  · have hKeeps : ∀ cfg, s.proxy.tasks i ≠ .applying (.writeConfig cfg) := by
      intro cfg hWriting
      rcases task_cases i with hEq | rfl | hOther
      · exact hMainTask hEq
      · rw [hQuiet.task] at hWriting
        cases hWriting
      · exact hInv.others i hOther _ hWriting
    refine h.of_eq rfl ?_ (ProxySystem.runTask_keeps up hKeeps).1
    exact (ProxySystem.runTask_tasks _ _ _ _).trans (if_neg (Ne.symm hMainTask))

/-! ## After the first send -/

/-- The watcher is about to store a configuration that it has read, no older than the stored ones. -/
def Writing (log : List RuntimeConfig) (n : Nat) (s : System) : Prop :=
  ∃ cfg j, s.proxy.tasks WATCHER_TASK = .applying (.writeConfig cfg) ∧ n ≤ j + 1 ∧ log[j]? = some cfg ∧
    s.seen ≤ j + 1

/-- What is stored has got as far as the `n`-th configuration sent; unless the watcher is on its way,
that is as far as it has seen. -/
structure Serving (log : List RuntimeConfig) (n : Nat) (s : System) : Prop where
  main : s.main = .serving
  version : s.watch.version = log.length
  value : log ≠ [] → log.getLast? = some s.watch.value
  seen : s.seen ≤ log.length
  trail : Follows log s.proxy.stored n
  resting : s.watcher ≠ .woken → s.watcher ≠ .applying → s.seen ≤ n
  woken : s.watcher = .woken → s.seen ≠ 0
  applying : s.watcher = .applying → s.Writing log n ∨
    (∀ cfg, s.proxy.tasks WATCHER_TASK ≠ .applying (.writeConfig cfg)) ∧ s.seen ≤ n

/-- Steps that leave the watcher, what is sent and what is stored as they are. -/
theorem Serving.of_eq (h : s.Serving log n) (hMain : t.main = s.main)
    (hVersion : t.watch.version = s.watch.version) (hValue : t.watch.value = s.watch.value)
    (hSeen : t.seen = s.seen) (hWatcher : t.watcher = s.watcher)
    (hTask : t.proxy.tasks WATCHER_TASK = s.proxy.tasks WATCHER_TASK)
    (hStored : t.proxy.stored = s.proxy.stored) : t.Serving log n where
  main := hMain.trans h.main
  version := hVersion.trans h.version
  value := hValue ▸ h.value
  seen := hSeen ▸ h.seen
  trail := hStored ▸ h.trail
  resting := by
    rw [hWatcher, hSeen]
    exact h.resting
  woken := by
    rw [hWatcher, hSeen]
    exact h.woken
  applying := by
    rw [hWatcher, Writing, hTask, hSeen]
    exact h.applying

theorem Serving.send (h : s.Serving log n) (client : ClientTask) (cfg : RuntimeConfig) :
    ({ s with client := client, watch := s.watch.send cfg } : System).Serving (log ++ [cfg]) n where
  main := h.main
  version := by
    rw [List.length_append, ← h.version]
    rfl
  value _ := List.getLast?_concat
  seen := h.seen.trans (by rw [List.length_append]; exact Nat.le_add_right _ _)
  trail := h.trail.extend [cfg]
  resting := h.resting
  woken := h.woken
  applying hApplying := by
    refine (h.applying hApplying).imp_left ?_
    rintro ⟨pending, j, hWriting, hLe, hAt, hNew⟩
    refine ⟨pending, j, hWriting, hLe, ?_, hNew⟩
    rw [List.getElem?_append_left (List.getElem?_eq_some_iff.mp hAt).1]
    exact hAt

theorem Serving.changed (h : s.Serving log n) (hNew : s.seen ≠ s.watch.version) :
    ({ s with watcher := .woken, seen := s.watch.version } : System).Serving log n := by
  have hSeen := h.seen
  have hSome : s.watch.version ≠ 0 := by
    rw [h.version] at hNew ⊢
    omega
  exact { h with
    seen := h.version.le
    resting := fun hWoken _ => absurd rfl hWoken
    woken := fun _ => hSome
    applying := by rintro ⟨⟩ }

/-- The watcher reads the value that was sent last. -/
theorem Serving.read (hInv : s.Inv) (h : s.Serving log n) (hWatcher : s.watcher = .woken) :
    ({ s with
      watcher := .applying
      proxy := s.proxy.setTask WATCHER_TASK (.applying (.call s.watch.value)) } : System).Serving log n := by
  have hSeen := h.woken hWatcher
  have hBound := h.seen
  have hReached := h.trail.bound
  have hLast : log[log.length - 1]? = some s.watch.value := by
    rw [← List.getLast?_eq_getElem?]
    apply h.value
    rintro rfl
    exact hSeen (Nat.le_zero.mp hBound)
  have hTask : (s.proxy.setTask WATCHER_TASK (.applying (.call s.watch.value))).tasks WATCHER_TASK =
      .applying (.writeConfig s.watch.value) := by
    rw [ProxySystem.setTask_tasks, if_pos rfl, ApplyTask.call,
      (RuntimeConfig.validate_ok_iff _).mpr hInv.watched]
  exact { h with
    resting := fun _ hApplying => absurd rfl hApplying
    woken := by rintro ⟨⟩
    applying := fun _ => .inl ⟨s.watch.value, log.length - 1, hTask, by omega, hLast, by dsimp only; omega⟩ }

theorem Serving.returned (h : s.Serving log n) {result : Except (List ConfigConflict) Unit}
    (hWatcher : s.watcher = .applying) (hTask : s.proxy.tasks WATCHER_TASK = .applying (.returned result)) :
    ({ s with watcher := .waiting } : System).Serving log n := by
  have hCaught : s.seen ≤ n := by
    rcases h.applying hWatcher with ⟨cfg, j, hWriting, -⟩ | ⟨-, hCaught⟩
    · rw [hTask] at hWriting
      cases hWriting
    · exact hCaught
  exact { h with
    resting := fun _ _ => hCaught
    woken := by rintro ⟨⟩
    applying := by rintro ⟨⟩ }

theorem Serving.closed (h : s.Serving log n) (hWatcher : s.watcher = .waiting) :
    ({ s with watcher := .exited } : System).Serving log n :=
  { h with
    resting := fun _ _ => h.resting (by rw [hWatcher]; nofun) (by rw [hWatcher]; nofun)
    woken := by rintro ⟨⟩
    applying := by rintro ⟨⟩ }

/-- The watcher stores what it has read: the trail moves on to its position. -/
theorem Serving.write (h : s.Serving log n) (up : Upstream) {cfg : RuntimeConfig} {j : Nat}
    (hTask : s.proxy.tasks WATCHER_TASK = .applying (.writeConfig cfg)) (hLe : n ≤ j + 1)
    (hAt : log[j]? = some cfg) (hNew : s.seen ≤ j + 1) :
    ({ s with proxy := s.proxy.runTask up WATCHER_TASK } : System).Serving log (j + 1) := by
  obtain ⟨hStored, -, hNow⟩ := ProxySystem.runTask_write up hTask
  refine ⟨h.main, h.version, h.value, h.seen, ?_, fun _ _ => hNew, h.woken, fun _ => .inr ⟨?_, hNew⟩⟩
  · dsimp only
    rw [hStored]
    exact h.trail.concat hLe hAt
  · intro other
    dsimp only
    rw [hNow]
    nofun

/-- A step of a task that is not about to store a configuration. -/
theorem Serving.advance (h : s.Serving log n) (up : Upstream) {i : Nat}
    (hTask : ∀ cfg, s.proxy.tasks i ≠ .applying (.writeConfig cfg)) :
    ({ s with proxy := s.proxy.runTask up i } : System).Serving log n := by
  have hStored := (ProxySystem.runTask_keeps up hTask).1
  by_cases hWatcherTask : i = WATCHER_TASK
  · subst hWatcherTask
    refine ⟨h.main, h.version, h.value, h.seen, hStored ▸ h.trail, h.resting, h.woken, ?_⟩
    intro hApplying
    rcases h.applying hApplying with ⟨cfg, _, hWriting, _⟩ | ⟨-, hCaught⟩
    · exact absurd hWriting (hTask cfg)
    · refine .inr ⟨?_, hCaught⟩
      dsimp only
      rw [ProxySystem.runTask_tasks, if_pos rfl]
      exact Task.step_not_writing hTask up s.proxy.server
  · refine h.of_eq rfl rfl rfl rfl rfl ?_ hStored
    dsimp only
    rw [ProxySystem.runTask_tasks, if_neg (Ne.symm hWatcherTask)]

theorem Serving.run (hInv : s.Inv) (h : s.Serving log n) (up : Upstream) (i : Nat) :
    ∃ m, ({ s with proxy := s.proxy.runTask up i } : System).Serving log m := by
  by_cases hWriting : ∃ cfg, s.proxy.tasks i = .applying (.writeConfig cfg)
  · obtain ⟨cfg, hTask⟩ := hWriting
    -- only the watcher can be writing: `main` has returned and the others never write
    have hWatcherTask : i = WATCHER_TASK := by
      rcases task_cases i with rfl | rfl | hOther
      · exact absurd hTask ((hInv.serving h.main).not_writing cfg)
      · rfl
      · exact absurd hTask (hInv.others i hOther _)
    subst hWatcherTask
    have hApplying : s.watcher = .applying := by
      by_contra hNot
      exact (hInv.watcher hNot).not_writing cfg hTask
    rcases h.applying hApplying with ⟨read, j, hRead, hLe, hAt, hNew⟩ | ⟨hNot, -⟩
    · exact ⟨j + 1, h.write up hRead hLe hAt hNew⟩
    · exact absurd hTask (hNot cfg)
  · exact ⟨n, h.advance up fun cfg hTask => hWriting ⟨cfg, hTask⟩⟩

theorem Serving.start (h : s.Serving log n) {i : Nat} (hOther : WATCHER_TASK < i) (task : Task) :
    ({ s with proxy := s.proxy.setTask i task } : System).Serving log n := by
  refine h.of_eq rfl rfl rfl rfl rfl ?_ rfl
  dsimp only
  rw [ProxySystem.setTask_tasks, if_neg (Nat.ne_of_lt hOther)]

/-! ## Every step -/

def Delivered (log : List RuntimeConfig) (s : System) : Prop :=
  log = [] ∧ s.Starting ∨ ∃ n, s.Serving log n

theorem Delivered.unsent (h : t.Delivered log) (hSame : t.watch.version = s.watch.version) :
    t.Delivered (log ++ sentBy s t) := by
  rw [sentBy, if_pos hSame, List.append_nil]
  exact h

theorem Delivered.sent {cfg : RuntimeConfig} (h : t.Delivered (log ++ [cfg]))
    (hSend : t.watch = s.watch.send cfg) : t.Delivered (log ++ sentBy s t) := by
  have hNew : t.watch.version ≠ s.watch.version := by
    rw [hSend]
    exact Nat.succ_ne_self _
  rw [sentBy, if_neg hNew, hSend]
  exact h

/-- `main` goes on to serve, having sent what the log holds. -/
theorem Starting.serve (h : s.Starting) (hQuiet : s.Quiet) (watch : Watch)
    (hVersion : watch.version = log.length) (hValue : log ≠ [] → log.getLast? = some watch.value)
    (hTrail : Follows log s.proxy.stored n) :
    ({ s with main := .serving, client := .disconnected, watch := watch } : System).Delivered log := by
  have hSeen (m : Nat) : s.seen ≤ m := by
    rw [hQuiet.seen, h.version]
    exact Nat.zero_le m
  refine .inr ⟨n, rfl, hVersion, hValue, hSeen _, hTrail, fun _ _ => hSeen n, ?_, ?_⟩
  · intro hWoken
    rw [show s.watcher = .waiting from hQuiet.watcher] at hWoken
    cases hWoken
  · intro hApplying
    rw [show s.watcher = .waiting from hQuiet.watcher] at hApplying
    cases hApplying

theorem Starting.serve_nothing (h : s.Starting) (hQuiet : s.Quiet) (hStored : s.proxy.stored = []) :
    ({ s with main := .serving, client := .disconnected } : System).Delivered [] := by
  refine h.serve hQuiet s.watch h.version (fun hNil => absurd rfl hNil) (n := 0) ?_
  rw [hStored]
  exact follows_nil _

theorem Starting.start (h : s.Starting) {i : Nat} (hOther : WATCHER_TASK < i) (task : Task) :
    ({ s with proxy := s.proxy.setTask i task } : System).Starting := by
  refine ⟨h.version, h.startup.of_eq rfl ?_ rfl⟩
  dsimp only
  rw [ProxySystem.setTask_tasks, if_neg]
  rw [MAIN_TASK]
  omega

theorem Starting.step (hInv : s.Inv) (h : s.Starting) (hStep : Step codec cfg s t) :
    t.Delivered ([] ++ sentBy s t) := by
  have hQuiet := hInv.quiet h.startup.main_ne
  have hStartup := h.startup
  rw [Startup] at hStartup
  cases hStep with
  | mainSkip hMain =>
    rw [hMain] at hStartup
    exact Delivered.unsent (h.serve_nothing hQuiet hStartup) rfl
  | mainApply static hMain _ =>
    rw [hMain] at hStartup
    refine Delivered.unsent (.inl ⟨rfl, h.version, _, ?_, .inl ⟨ApplyTask.call_cases static, hStartup⟩⟩) rfl
    dsimp only
    rw [ProxySystem.setTask_tasks, if_pos rfl]
  | mainAccepted hMain hTask =>
    rw [hMain] at hStartup
    obtain ⟨task, hTask', ⟨hNext, -⟩ | ⟨-, hStored⟩⟩ := hStartup
    · rw [hTask] at hTask'
      cases hTask'
      rcases hNext with hNext | hNext <;> cases hNext
    · exact Delivered.unsent (.inl ⟨rfl, h.version, hStored⟩) rfl
  | mainRejected hMain hTask =>
    rw [hMain] at hStartup
    obtain ⟨task, hTask', ⟨-, hStored⟩ | ⟨hNext, -⟩⟩ := hStartup
    · exact Delivered.unsent (h.serve_nothing hQuiet hStored) rfl
    · rw [hTask] at hTask'
      cases hTask'
      cases hNext
  | @mainSend static hMain _ =>
    rw [hMain] at hStartup
    have hTrail : Follows [static] s.proxy.stored 1 := by
      rw [hStartup]
      exact (follows_nil [static]).concat (Nat.zero_le 1) rfl
    refine Delivered.sent (h.serve hQuiet (s.watch.send static) ?_ (fun _ => rfl) hTrail) rfl
    exact congrArg Nat.succ h.version
  | mainSendFailed _ hReceiver => rw [hQuiet.watcher] at hReceiver; cases hReceiver
  | clientOpen hClient _ => rw [hQuiet.client] at hClient; cases hClient
  | clientReceive _ _ hClient => rw [hQuiet.client] at hClient; cases hClient
  | clientCompare hClient => rw [hQuiet.client] at hClient; cases hClient
  | clientSend hClient _ => rw [hQuiet.client] at hClient; cases hClient
  | clientSendFailed hClient _ => rw [hQuiet.client] at hClient; cases hClient
  | clientLost hClient => rw [hQuiet.client] at hClient; cases hClient
  | clientExit hClient => rw [hQuiet.client] at hClient; cases hClient
  | watcherChanged _ hNew => exact absurd hQuiet.seen hNew
  | watcherClosed _ _ hClosed => rw [hQuiet.sender] at hClosed; cases hClosed
  | watcherApply hWatcher _ => rw [hQuiet.watcher] at hWatcher; cases hWatcher
  | watcherReturned hWatcher _ => rw [hQuiet.watcher] at hWatcher; cases hWatcher
  | read i hOther _ => exact Delivered.unsent (.inl ⟨rfl, h.start hOther _⟩) rfl
  | forward i req hOther _ => exact Delivered.unsent (.inl ⟨rfl, h.start hOther _⟩) rfl
  | run up i => exact Delivered.unsent (.inl ⟨rfl, h.version, h.startup.run hInv up i⟩) rfl

theorem Serving.step (hInv : s.Inv) (h : s.Serving log n) (hStep : Step codec cfg s t) :
    t.Delivered (log ++ sentBy s t) := by
  have hMain := h.main
  cases hStep with
  | mainSkip hOther => rw [hMain] at hOther; cases hOther
  | mainApply _ hOther _ => rw [hMain] at hOther; cases hOther
  | mainAccepted hOther _ => rw [hMain] at hOther; cases hOther
  | mainRejected hOther _ => rw [hMain] at hOther; cases hOther
  | mainSend hOther _ => rw [hMain] at hOther; cases hOther
  | mainSendFailed hOther _ => rw [hMain] at hOther; cases hOther
  | clientSend _ _ => exact Delivered.sent (.inr ⟨n, h.send _ _⟩) rfl
  | watcherChanged _ hNew => exact Delivered.unsent (.inr ⟨n, h.changed hNew⟩) rfl
  | watcherClosed hWatcher _ _ => exact Delivered.unsent (.inr ⟨n, h.closed hWatcher⟩) rfl
  | watcherApply hWatcher _ => exact Delivered.unsent (.inr ⟨n, h.read hInv hWatcher⟩) rfl
  | watcherReturned hWatcher hTask => exact Delivered.unsent (.inr ⟨n, h.returned hWatcher hTask⟩) rfl
  | read i hOther _ => exact Delivered.unsent (.inr ⟨n, h.start hOther _⟩) rfl
  | forward i req hOther _ => exact Delivered.unsent (.inr ⟨n, h.start hOther _⟩) rfl
  | run up i => exact Delivered.unsent (.inr (h.run hInv up i)) rfl
  | _ =>
    -- the client's other steps touch nothing that the watcher reads
    exact Delivered.unsent (.inr ⟨n, h.of_eq rfl rfl rfl rfl rfl rfl rfl⟩) rfl

theorem Logged.delivered (h : Logged codec cfg log s) : s.Delivered log := by
  induction h with
  | init h =>
    obtain ⟨⟨_, _, _, _, hStored⟩, hWatch, hMain, _⟩ := h
    refine .inl ⟨rfl, by rw [hWatch], ?_⟩
    rw [Startup, hMain]
    exact hStored
  | step hLog hStep ih =>
    have hInv := inv_of_reachable hLog.reachable
    rcases ih with ⟨rfl, hStarting⟩ | ⟨n, hServing⟩
    · exact hStarting.step hInv hStep
    · exact hServing.step hInv hStep

theorem Startup.follows (h : s.Startup) : ∃ n, Follows s.main.pending s.proxy.stored n := by
  have hOne (static : RuntimeConfig) : Follows [static] [static] 1 :=
    (follows_nil [static]).concat (Nat.zero_le 1) rfl
  rw [Startup] at h
  cases hMain : s.main with
  | loading =>
    rw [hMain] at h
    exact ⟨0, h ▸ follows_nil _⟩
  | applying static =>
    rw [hMain] at h
    obtain ⟨_, -, ⟨-, hStored⟩ | ⟨-, hStored⟩⟩ := h
    · exact ⟨0, hStored ▸ follows_nil _⟩
    · exact ⟨1, hStored ▸ hOne static⟩
  | sending static =>
    rw [hMain] at h
    exact ⟨1, h ▸ hOne static⟩
  | serving =>
    rw [hMain] at h
    exact h.elim

/-- A watcher that has seen the last version and waits has stored the last configuration. -/
theorem Serving.last_stored (h : s.Serving log n) (hWatcher : s.watcher = .waiting)
    (hSeen : s.seen = s.watch.version) : s.proxy.stored.getLast? = log.getLast? := by
  have hCaught := h.resting (by rw [hWatcher]; nofun) (by rw [hWatcher]; nofun)
  rw [hSeen, h.version] at hCaught
  exact h.trail.caught_up hCaught

end System

/-- In every interleaving: the configurations stored are taken from those sent (or about to be sent by
`main`) at positions that never decrease, the one served is the one stored last, and it is the one sent
last whenever the watcher waits with nothing unseen after the start. -/
theorem delivery_in_order (codec : Proto.Codec) (cfg : XdsClientConfig) {log : List RuntimeConfig}
    {s : System} (h : System.Logged codec cfg log s) :
    (∃ positions : List Nat, positions.Pairwise (· ≤ ·) ∧
      List.Forall₂ (fun i c => (log ++ s.main.pending)[i]? = some c) positions s.proxy.stored) ∧
    s.proxy.server.state.config = s.proxy.stored.getLast?.getD (.empty "bootstrap") ∧
    (s.watcher = .waiting → s.seen = s.watch.version → s.main = .serving →
      s.proxy.server.state.config = log.getLast?.getD (.empty "bootstrap")) := by
  have hConfig := ProxySystem.config_eq_last_stored (System.proxy_reachable h.reachable)
  refine ⟨?_, hConfig, ?_⟩
  · have hFollows : ∃ n, Follows (log ++ s.main.pending) s.proxy.stored n := by
      rcases h.delivered with ⟨rfl, hStarting⟩ | ⟨n, hServing⟩
      · exact hStarting.startup.follows
      · exact ⟨n, hServing.trail.extend _⟩
    obtain ⟨_, hTrail⟩ := hFollows
    obtain ⟨positions, hSorted, -, hAll⟩ := hTrail.positions
    exact ⟨positions, hSorted, hAll⟩
  · intro hWatcher hSeen hMain
    rcases h.delivered with ⟨-, hStarting⟩ | ⟨_, hServing⟩
    · exact absurd hMain hStarting.startup.main_ne
    · rw [hConfig, hServing.last_stored hWatcher hSeen]

/-! ## A static configuration and the watcher -/

namespace System

variable {codec : Proto.Codec} {cfg : XdsClientConfig} {log : List RuntimeConfig} {s t : System}

theorem Logged.unsent (h : Logged codec cfg log s) (hStep : Step codec cfg s t)
    (hSame : t.watch.version = s.watch.version) : Logged codec cfg log t := by
  have hNow := h.step hStep
  rw [sentBy, if_pos hSame, List.append_nil] at hNow
  exact hNow

theorem Logged.iterate (h : Logged codec cfg log s) (i n : Nat) :
    Logged codec cfg log ((System.runTask i)^[n] s) := by
  induction n with
  | zero => exact h
  | succ n ih =>
    rw [Function.iterate_succ_apply']
    exact ih.unsent (.run sampleUpstream i) rfl

end System

def staticSent (static : RuntimeConfig) : System :=
  let applied := (System.runTask MAIN_TASK)^[3] { bootSystem with
    main := .applying static
    proxy := bootProxy.setTask MAIN_TASK (.applying (.call static)) }
  { applied with main := .serving, client := .disconnected, watch := applied.watch.send static }

/-- The watcher applies what the channel holds, without interruption. -/
def System.afterWatch (s : System) : System :=
  let applied := (System.runTask WATCHER_TASK)^[3] { s with
    watcher := .applying
    seen := s.watch.version
    proxy := s.proxy.setTask WATCHER_TASK (.applying (.call s.watch.value)) }
  { applied with watcher := .waiting }

def staticWatched (static : RuntimeConfig) : System := (staticSent static).afterWatch

/-- The control plane answers the first request with one listener, whose routes are still to come. -/
def openedStream : Stream := (openStream .alwaysOpen sampleClient).1

def discoveredStream : Stream :=
  (respond rdsListenerCodec .alwaysOpen sampleClient.node openedStream rdsListenerResponse).1

def discovered : RuntimeConfig := discoveredStream.ads.runtimeConfig "1"

def sampleStatic : RuntimeConfig := sampleConfig [⟨"c", 1⟩] [sampleCluster "c" []]

/-- After the static configuration has been served, the client accepts the discovered one. -/
def discoveredReceived : System :=
  { staticWatched sampleStatic with client := .validated discoveredStream discovered }

def discoveredSent : System :=
  { staticWatched sampleStatic with
    client := .streaming discoveredStream
    watch := (staticWatched sampleStatic).watch.send discovered }

def discoveredWatched : System := discoveredSent.afterWatch

theorem discovered_received : ClientTask.received rdsListenerCodec .alwaysOpen sampleClient.node openedStream
    rdsListenerResponse = .validated discoveredStream discovered := by
  have hRespond : respond rdsListenerCodec .alwaysOpen sampleClient.node openedStream rdsListenerResponse =
      (discoveredStream, none) := Prod.ext rfl (by decide)
  have hValid : (discoveredStream.ads.runtimeConfig "1").validate = .ok () := by decide +kernel
  rw [ClientTask.received, hRespond]
  dsimp only [rdsListenerResponse]
  rw [hValid]
  rfl

theorem discovered_compared : ClientTask.compared discoveredStream discovered sampleStatic =
    .sending discoveredStream discovered := if_pos (by decide +kernel)

theorem staticWatched_logged :
    System.Logged rdsListenerCodec sampleClient [sampleStatic] (staticWatched sampleStatic) := by
  have hBoot : System.Logged rdsListenerCodec sampleClient [] bootSystem :=
    .init ⟨⟨rfl, rfl, rfl, rfl, rfl⟩, rfl, rfl, rfl, rfl, rfl⟩
  have hApplied := (hBoot.unsent (.mainApply sampleStatic rfl .idle) rfl).iterate MAIN_TASK 3
  have hSent := (hApplied.unsent (.mainAccepted rfl rfl) rfl).step (.mainSend rfl nofun)
  have hRead := (hSent.unsent (.watcherChanged rfl (by decide)) rfl).unsent (.watcherApply rfl .idle) rfl
  exact (hRead.iterate WATCHER_TASK 3).unsent (.watcherReturned rfl rfl) rfl

theorem discoveredWatched_logged :
    System.Logged rdsListenerCodec sampleClient [sampleStatic, discovered] discoveredWatched := by
  have hOpen : openStream .alwaysOpen sampleClient = (openedStream, none) := rfl
  have hOpened := staticWatched_logged.unsent (.clientOpen rfl hOpen) rfl
  have hReceived : System.Logged rdsListenerCodec sampleClient [sampleStatic] discoveredReceived := by
    rw [discoveredReceived, ← discovered_received]
    exact hOpened.unsent (.clientReceive .alwaysOpen rdsListenerResponse rfl) rfl
  have hCompared := hReceived.unsent (.clientCompare rfl) rfl
  have hSent := hCompared.step (.clientSend discovered_compared nofun)
  have hRead := (hSent.unsent (.watcherChanged rfl (by decide)) rfl).unsent (.watcherApply rfl (.applied _)) rfl
  exact (hRead.iterate WATCHER_TASK 3).unsent (.watcherReturned rfl rfl) rfl

/-- The static configuration is stored by `main` and again by the watcher, then the discovered one. -/
theorem discoveredWatched_in_order :
    System.Logged rdsListenerCodec sampleClient [sampleStatic, discovered] discoveredWatched ∧
    discoveredWatched.proxy.stored = [sampleStatic, sampleStatic, discovered] ∧
    (∃ positions : List Nat, positions.Pairwise (· ≤ ·) ∧ List.Forall₂
      (fun i c => [sampleStatic, discovered][i]? = some c) positions discoveredWatched.proxy.stored) ∧
    discoveredWatched.proxy.server.state.config = discovered :=
  have hOrder := delivery_in_order _ _ discoveredWatched_logged
  ⟨discoveredWatched_logged, rfl, hOrder.1, hOrder.2.2 rfl rfl rfl⟩

end Dxgate
