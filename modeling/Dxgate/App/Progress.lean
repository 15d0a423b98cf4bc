import Dxgate.App.Steady

/-! # What happens in the long run

The program runs on for ever, and new configurations may be accepted all the while. If no task is passed
over for good while it has something to do, the proxy does not stay behind: from some point on it serves
nothing older than what was accepted last before, however the steps of the tasks fall.
-/

namespace Dxgate

set_option autoImplicit false

open Runs (WeaklyFair)

/-! ## What a task has left to do -/

/-- The accesses that a call of `apply_config` has before it. -/
def ApplyTask.left : ApplyTask → Nat
  | .writeConfig _ => 3
  | .clearConflicts | .writeConflicts _ => 2
  | .storeReady | .storeNotReady _ => 1
  | .returned _ => 0

def Task.left : Task → Nat
  | .applying task => task.left
  | _ => 0

theorem ApplyTask.call_left (cfg : RuntimeConfig) : (ApplyTask.call cfg).left ≤ 3 := by
  rw [ApplyTask.call]
  split <;> simp [ApplyTask.left]

theorem Task.Resting.step_self {task : Task} (h : task.Resting) (up : Upstream) (server : ProxyServer) :
    Task.step up (server, task) = (server, task) := by
  cases h with
  | idle => rfl
  | applied result => rfl
  | read result => rfl
  | answered out => rfl

theorem Task.step_left (up : Upstream) (server : ProxyServer) {task : ApplyTask}
    (h : (Task.step up (server, .applying task)).2 ≠ .applying task) :
    (Task.step up (server, .applying task)).2.left < task.left := by
  cases task with
  | returned result => exact absurd rfl h
  | _ => simp [Task.step, ApplyTask.step, Task.left, ApplyTask.left]

def MainTask.rank : MainTask × Task → Nat
  | (.loading, _) => 6
  | (.applying _, task) => 2 + task.left
  | (.sending _, _) => 1
  | (.serving, _) => 0

def ClientTask.rank : ClientTask → Nat
  | .validated _ _ => 2
  | .sending _ _ => 1
  | _ => 0

/-- For the watcher on its way through a configuration. -/
def WatcherTask.rank : WatcherTask × Task → Nat
  | (.woken, _) => 5
  | (.applying, task) => 1 + task.left
  | (.waiting, _) | (.exited, _) => 0

/-- For the watcher on its way to the next store. -/
def WatcherTask.rankToStore : WatcherTask × Task → Nat
  | (.waiting, _) => 3
  | (.woken, _) => 2
  | (.applying, .applying (.writeConfig _)) => 1
  | _ => 0

theorem ProxySystem.setTask_tasks_ne (s : ProxySystem) {i j : Nat} (h : j ≠ i) (task : Task) :
    (s.setTask i task).tasks j = s.tasks j := by
  rw [setTask_tasks, if_neg h]

theorem ProxySystem.runTask_tasks_ne (s : ProxySystem) {i j : Nat} (h : j ≠ i) (up : Upstream) :
    (s.runTask up i).tasks j = s.tasks j := by
  rw [runTask_tasks, if_neg h]

theorem ProxySystem.runTask_resting {s : ProxySystem} {i : Nat} (h : (s.tasks i).Resting) (up : Upstream) :
    (s.runTask up i).tasks i = s.tasks i := by
  rw [runTask_tasks, if_pos rfl, h.step_self]

theorem ProxySystem.runTask_left {s : ProxySystem} {i : Nat} {task : ApplyTask}
    (hTask : s.tasks i = .applying task) (up : Upstream) (hMoved : (s.runTask up i).tasks i ≠ s.tasks i) :
    ((s.runTask up i).tasks i).left < (s.tasks i).left := by
  rw [runTask_tasks, if_pos rfl, hTask] at hMoved ⊢
  exact Task.step_left up s.server hMoved

namespace System

def mainPart (s : System) : MainTask × Task := (s.main, s.proxy.tasks MAIN_TASK)

def watcherPart (s : System) : WatcherTask × Task := (s.watcher, s.proxy.tasks WATCHER_TASK)

def WatcherBusy (s : System) : Prop :=
  s.watcher = .woken ∨ s.watcher = .applying ∨ s.watcher = .waiting ∧ s.seen ≠ s.watch.version

variable {codec : Proto.Codec} {cfg : XdsClientConfig} {s t : System}

theorem mainPart_eq (hMain : t.main = s.main) (hTask : t.proxy.tasks MAIN_TASK = s.proxy.tasks MAIN_TASK) :
    t.mainPart = s.mainPart := by
  rw [mainPart, hMain, hTask, mainPart]

theorem watcherPart_eq (hWatcher : t.watcher = s.watcher)
    (hTask : t.proxy.tasks WATCHER_TASK = s.proxy.tasks WATCHER_TASK) : t.watcherPart = s.watcherPart := by
  rw [watcherPart, hWatcher, hTask, watcherPart]

theorem Step.mainPart_rank (hInv : s.Inv) (hStep : Step codec cfg s t) (hBusy : s.main ≠ .serving)
    (hMoved : t.mainPart ≠ s.mainPart) : MainTask.rank t.mainPart < MainTask.rank s.mainPart := by
  cases hStep with
  | mainSkip hMain => simp [mainPart, MainTask.rank, hMain]
  | mainApply static hMain _ =>
    have hLeft := ApplyTask.call_left static
    simp only [mainPart, MainTask.rank, hMain, ProxySystem.setTask_tasks, if_pos, Task.left]
    omega
  | mainAccepted hMain _ =>
    simp only [mainPart, MainTask.rank, hMain]
    omega
  | mainRejected hMain _ =>
    simp only [mainPart, MainTask.rank, hMain]
    omega
  | mainSend hMain _ => simp [mainPart, MainTask.rank, hMain]
  | mainSendFailed hMain _ => simp [mainPart, MainTask.rank, hMain]
  | watcherApply _ _ => exact (hMoved (mainPart_eq rfl (s.proxy.setTask_tasks_ne (by decide) _))).elim
  | read i hOther _ =>
    exact (hMoved (mainPart_eq rfl (s.proxy.setTask_tasks_ne (Nat.ne_of_lt (Nat.lt_of_succ_lt hOther)) _))).elim
  | forward i _ hOther _ =>
    exact (hMoved (mainPart_eq rfl (s.proxy.setTask_tasks_ne (Nat.ne_of_lt (Nat.lt_of_succ_lt hOther)) _))).elim
  | run up i =>
    by_cases hSelf : MAIN_TASK = i
    · subst hSelf
      have hTask : (s.proxy.runTask up MAIN_TASK).tasks MAIN_TASK ≠ s.proxy.tasks MAIN_TASK :=
        fun hSame => hMoved (mainPart_eq rfl hSame)
      cases hMain : s.main with
      | serving => exact absurd hMain hBusy
      | loading =>
        refine absurd (ProxySystem.runTask_resting ?_ up) hTask
        rw [(hInv.loading hMain).1]
        exact .idle
      | sending static => exact absurd (ProxySystem.runTask_resting (hInv.sending static hMain).1 up) hTask
      | applying static =>
        obtain ⟨task, hNow, -⟩ := hInv.applying static hMain
        have hLeft := ProxySystem.runTask_left hNow up hTask
        simp only [mainPart, MainTask.rank, hMain]
        omega
    · exact (hMoved (mainPart_eq rfl (s.proxy.runTask_tasks_ne hSelf up))).elim
  | _ => exact absurd rfl hMoved

theorem Step.client_rank (hStep : Step codec cfg s t) (hInv : s.Inv) (hBusy : s.client.accepted ≠ none)
    (hMoved : t.client ≠ s.client) : t.client.rank < s.client.rank := by
  have hStarted (hMain : s.main ≠ .serving) : False := by
    rw [(hInv.quiet hMain).client] at hBusy
    exact hBusy rfl
  cases hStep with
  | mainSkip hMain => exact (hStarted (by simp [hMain])).elim
  | mainRejected hMain _ => exact (hStarted (by simp [hMain])).elim
  | mainSend hMain _ => exact (hStarted (by simp [hMain])).elim
  | mainSendFailed hMain _ => exact (hStarted (by simp [hMain])).elim
  | clientOpen hClient _ =>
    rw [hClient] at hBusy
    exact absurd rfl hBusy
  | clientReceive _ _ hClient =>
    rw [hClient] at hBusy
    exact absurd rfl hBusy
  | clientCompare hClient =>
    dsimp only
    rw [hClient, ClientTask.compared]
    split <;> simp [ClientTask.rank]
  | clientSend hClient _ => simp [hClient, ClientTask.rank]
  | clientSendFailed hClient _ => simp [hClient, ClientTask.rank]
  | clientLost hClient =>
    rw [hClient] at hBusy
    exact absurd rfl hBusy
  | clientExit hClient =>
    rw [hClient] at hBusy
    exact absurd rfl hBusy
  | _ => exact absurd rfl hMoved

theorem Step.watcherPart_rank (hInv : s.Inv) (hAttended : s.Attended) (hStep : Step codec cfg s t)
    (hBusy : s.watcher = .woken ∨ s.watcher = .applying) (hMoved : t.watcherPart ≠ s.watcherPart) :
    WatcherTask.rank t.watcherPart < WatcherTask.rank s.watcherPart := by
  have hWaiting (hWatcher : s.watcher = .waiting) : False := by
    rw [hWatcher] at hBusy
    rcases hBusy with hBusy | hBusy <;> cases hBusy
  cases hStep with
  | watcherChanged hWatcher _ => exact (hWaiting hWatcher).elim
  | watcherClosed hWatcher _ _ => exact (hWaiting hWatcher).elim
  | watcherApply hWatcher _ =>
    have hLeft := ApplyTask.call_left s.watch.value
    simp only [watcherPart, WatcherTask.rank, hWatcher, ProxySystem.setTask_tasks, if_pos, Task.left]
    omega
  | watcherReturned hWatcher _ =>
    simp only [watcherPart, WatcherTask.rank, hWatcher]
    omega
  | mainApply _ _ _ => exact (hMoved (watcherPart_eq rfl (s.proxy.setTask_tasks_ne (by decide) _))).elim
  | read i hOther _ =>
    exact (hMoved (watcherPart_eq rfl (s.proxy.setTask_tasks_ne (Nat.ne_of_lt hOther) _))).elim
  | forward i _ hOther _ =>
    exact (hMoved (watcherPart_eq rfl (s.proxy.setTask_tasks_ne (Nat.ne_of_lt hOther) _))).elim
  | run up i =>
    by_cases hSelf : WATCHER_TASK = i
    · subst hSelf
      have hTask : (s.proxy.runTask up WATCHER_TASK).tasks WATCHER_TASK ≠ s.proxy.tasks WATCHER_TASK :=
        fun hSame => hMoved (watcherPart_eq rfl hSame)
      rcases hBusy with hWoken | hApplying
      · exact absurd (ProxySystem.runTask_resting (hInv.watcher (by simp [hWoken])) up) hTask
      · obtain ⟨task, hNow⟩ := hAttended.call hApplying
        have hLeft := ProxySystem.runTask_left hNow up hTask
        simp only [watcherPart, WatcherTask.rank, hApplying]
        omega
    · exact (hMoved (watcherPart_eq rfl (s.proxy.runTask_tasks_ne hSelf up))).elim
  | _ => exact absurd rfl hMoved

/-- The next thing the watcher does for a configuration is to store one. -/
def NearStore (s : System) : Prop :=
  s.watcher = .waiting ∧ s.seen < s.watch.version ∨ s.watcher = .woken ∨
    s.watcher = .applying ∧ ∃ cfg, s.proxy.tasks WATCHER_TASK = .applying (.writeConfig cfg)

theorem NearStore.busy (h : s.NearStore) : s.WatcherBusy := by
  rcases h with ⟨hWaiting, hUnseen⟩ | hWoken | ⟨hApplying, -⟩
  · exact .inr (.inr ⟨hWaiting, Nat.ne_of_lt hUnseen⟩)
  · exact .inl hWoken
  · exact .inr (.inl hApplying)

theorem NearStore.of_eq (h : s.NearStore) (hPart : t.watcherPart = s.watcherPart) (hSeen : t.seen = s.seen)
    (hVersion : s.watch.version ≤ t.watch.version) : t.NearStore := by
  obtain ⟨hWatcher, hTask⟩ := Prod.mk.inj hPart
  rw [NearStore, hWatcher, hTask, hSeen]
  refine h.imp_left ?_
  rintro ⟨hWaiting, hUnseen⟩
  exact ⟨hWaiting, hUnseen.trans_le hVersion⟩

theorem NearStore.step (h : s.NearStore) (hInv : s.Inv) (hStep : Step codec cfg s t) :
    (t.NearStore ∨ s.proxy.stored.length < t.proxy.stored.length) ∧
      (t.watcherPart ≠ s.watcherPart →
        WatcherTask.rankToStore t.watcherPart < WatcherTask.rankToStore s.watcherPart) := by
  have hSame (hPart : t.watcherPart = s.watcherPart) (hSeen : t.seen = s.seen)
      (hVersion : s.watch.version ≤ t.watch.version) :
      (t.NearStore ∨ s.proxy.stored.length < t.proxy.stored.length) ∧ (t.watcherPart ≠ s.watcherPart →
        WatcherTask.rankToStore t.watcherPart < WatcherTask.rankToStore s.watcherPart) :=
    ⟨.inl (h.of_eq hPart hSeen hVersion), fun hMoved => absurd hPart hMoved⟩
  cases hStep with
  | watcherChanged hWatcher _ =>
    refine ⟨.inl (.inr (.inl rfl)), ?_⟩
    simp [watcherPart, WatcherTask.rankToStore, hWatcher]
  | watcherClosed hWatcher hSeen _ =>
    rcases h with ⟨-, hUnseen⟩ | hWoken | ⟨hApplying, -⟩
    · exact absurd hSeen (Nat.ne_of_lt hUnseen)
    · rw [hWatcher] at hWoken
      cases hWoken
    · rw [hWatcher] at hApplying
      cases hApplying
  | watcherApply hWatcher _ =>
    have hTask : (s.proxy.setTask WATCHER_TASK (.applying (.call s.watch.value))).tasks WATCHER_TASK =
        .applying (.writeConfig s.watch.value) := by
      rw [ProxySystem.setTask_tasks, if_pos rfl, ApplyTask.call,
        (RuntimeConfig.validate_ok_iff _).mpr hInv.watched]
    refine ⟨.inl (.inr (.inr ⟨rfl, _, hTask⟩)), ?_⟩
    intro _
    simp only [watcherPart, hTask, hWatcher, WatcherTask.rankToStore]
    omega
  | watcherReturned hWatcher hTask =>
    rcases h with ⟨hWaiting, -⟩ | hWoken | ⟨-, other, hWriting⟩
    · rw [hWatcher] at hWaiting
      cases hWaiting
    · rw [hWatcher] at hWoken
      cases hWoken
    · rw [hTask] at hWriting
      cases hWriting
  | mainApply _ _ _ => exact hSame (watcherPart_eq rfl (s.proxy.setTask_tasks_ne (by decide) _)) rfl le_rfl
  | read i hOther _ =>
    exact hSame (watcherPart_eq rfl (s.proxy.setTask_tasks_ne (Nat.ne_of_lt hOther) _)) rfl le_rfl
  | forward i _ hOther _ =>
    exact hSame (watcherPart_eq rfl (s.proxy.setTask_tasks_ne (Nat.ne_of_lt hOther) _)) rfl le_rfl
  | mainSend _ _ => exact hSame rfl rfl (Nat.le_succ _)
  | clientSend _ _ => exact hSame rfl rfl (Nat.le_succ _)
  | run up i =>
    by_cases hSelf : WATCHER_TASK = i
    · subst hSelf
      by_cases hWriting : ∃ other, s.proxy.tasks WATCHER_TASK = .applying (.writeConfig other)
      · obtain ⟨other, hTask⟩ := hWriting
        obtain ⟨hStored, -, hNow⟩ := ProxySystem.runTask_write up hTask
        have hApplying : s.watcher = .applying := by
          by_contra hNot
          exact (hInv.watcher hNot).not_writing other hTask
        constructor
        · right
          simp [hStored]
        · intro _
          simp only [watcherPart, hNow, hTask, hApplying, WatcherTask.rankToStore]
          omega
      · have hResting : (s.proxy.tasks WATCHER_TASK).Resting := by
          apply hInv.watcher
          intro hApplying
          rcases h with ⟨hWaiting, -⟩ | hWoken | ⟨-, hSome⟩
          · rw [hApplying] at hWaiting
            cases hWaiting
          · rw [hApplying] at hWoken
            cases hWoken
          · exact hWriting hSome
        exact hSame (watcherPart_eq rfl (ProxySystem.runTask_resting hResting up)) rfl le_rfl
    · exact hSame (watcherPart_eq rfl (s.proxy.runTask_tasks_ne hSelf up)) rfl le_rfl
  | _ => exact hSame rfl rfl le_rfl

/-! ## What no step takes back -/

theorem Step.version_le (hStep : Step codec cfg s t) : s.watch.version ≤ t.watch.version := by
  cases hStep with
  | mainSend _ _ => exact Nat.le_succ _
  | clientSend _ _ => exact Nat.le_succ _
  | _ => exact le_rfl

/-- The watched value changes only when what is on its way arrives. -/
theorem Step.watched_eq (hStep : Step codec cfg s t) (hInv : s.Inv) (hFlight : t.inFlight ≠ none) :
    t.watch.value = s.watch.value := by
  cases hStep with
  | mainSend _ _ => exact absurd rfl hFlight
  | clientSend hClient _ =>
    have hMain := hInv.serving_of_started (by simp [hClient])
    rw [inFlight] at hFlight
    dsimp only at hFlight
    rw [hMain] at hFlight
    exact absurd rfl hFlight
  | _ => rfl

theorem seen_le (h : (machine codec cfg).Reachable s) : s.seen ≤ s.watch.version := by
  obtain ⟨log, hLog⟩ := exists_logged h
  rcases hLog.delivered with ⟨-, hStarting⟩ | ⟨n, hServing⟩
  · exact ((inv_of_reachable h).quiet hStarting.startup.main_ne).seen.le
  · rw [hServing.version]
    exact hServing.seen

/-! ## Runs without end -/

structure Endless (codec : Proto.Codec) (cfg : XdsClientConfig) (run : Nat → System) : Prop where
  init : (run 0).Initial
  step : ∀ n, Step codec cfg (run n) (run (n + 1))

/-- No task is passed over for good: `main` while it has not started everything, the client with a
configuration to send, and the watcher with something unseen or half applied. -/
structure Fair (run : Nat → System) : Prop where
  main : WeaklyFair mainPart (fun s => s.main ≠ .serving) run
  client : WeaklyFair System.client (fun s => s.client.accepted ≠ none) run
  watcher : WeaklyFair watcherPart WatcherBusy run

/-- What has been accepted by the `n`-th state of the run, in order. -/
def acceptedUpTo (run : Nat → System) : Nat → List RuntimeConfig
  | 0 => []
  | n + 1 => acceptedUpTo run n ++ acceptedBy (run n) (run (n + 1))

def lastAccepted (run : Nat → System) (n : Nat) : RuntimeConfig :=
  (acceptedUpTo run n).getLast?.getD (.empty "bootstrap")

/-- The configuration was the last accepted one at some time from `n` to `k`. -/
def LastSince (run : Nat → System) (n k : Nat) (config : RuntimeConfig) : Prop :=
  ∃ j, n ≤ j ∧ j ≤ k ∧ config = lastAccepted run j

section Endless

variable {run : Nat → System} {n m k : Nat}

theorem Endless.accepts (h : Endless codec cfg run) (n : Nat) :
    Accepts codec cfg (acceptedUpTo run n) (run n) := by
  induction n with
  | zero => exact .init h.init
  | succ n ih => exact ih.step (h.step n)

theorem Endless.inv (h : Endless codec cfg run) (n : Nat) : (run n).Inv :=
  inv_of_reachable (h.accepts n).reachable

/-- What every step keeps, holds from then on. -/
theorem Endless.stays (h : Endless codec cfg run) {P : System → Prop}
    (hKeeps : ∀ s t, s.Inv → P s → Step codec cfg s t → P t) (hNow : P (run m)) (hk : m ≤ k) : P (run k) := by
  induction k, hk using Nat.le_induction with
  | base => exact hNow
  | succ k _ ih => exact hKeeps _ _ (h.inv k) ih (h.step k)

theorem Endless.version_le (h : Endless codec cfg run) (hk : m ≤ k) :
    (run m).watch.version ≤ (run k).watch.version :=
  h.stays (P := fun s => (run m).watch.version ≤ s.watch.version)
    (fun _ _ _ hLe hStep => hLe.trans hStep.version_le) le_rfl hk

theorem Endless.stored_le (h : Endless codec cfg run) (hk : m ≤ k) :
    (run m).proxy.stored.length ≤ (run k).proxy.stored.length :=
  h.stays (P := fun s => (run m).proxy.stored.length ≤ s.proxy.stored.length)
    (fun _ _ _ hLe hStep => hLe.trans hStep.stored_le) le_rfl hk

theorem Endless.serving (h : Endless codec cfg run) (hMain : (run m).main = .serving) (hk : m ≤ k) :
    (run k).main = .serving :=
  h.stays (fun _ _ _ hNow hStep => hStep.serving hNow) hMain hk

theorem acceptedUpTo_mono (run : Nat → System) {config : RuntimeConfig} (hk : m ≤ k)
    (hMem : config ∈ acceptedUpTo run m) : config ∈ acceptedUpTo run k := by
  induction k, hk using Nat.le_induction with
  | base => exact hMem
  | succ k _ ih => exact List.mem_append_left _ ih

theorem LastSince.mono {config : RuntimeConfig} (h : LastSince run n m config) (hk : m ≤ k) :
    LastSince run n k config := by
  obtain ⟨j, hLow, hHigh, hConfig⟩ := h
  exact ⟨j, hLow, hHigh.trans hk, hConfig⟩

theorem Endless.lastSince_inFlight (h : Endless codec cfg run) (hk : n ≤ k) {accepted : RuntimeConfig}
    (hFlight : (run k).inFlight = some accepted) : LastSince run n k accepted := by
  refine ⟨k, hk, le_rfl, ?_⟩
  rw [lastAccepted, (h.accepts k).upToDate.pending accepted hFlight]
  rfl

/-- From a time when nothing is on its way, the channel holds only what was accepted last since. -/
theorem Endless.lastSince_watch (h : Endless codec cfg run) (hn : n ≤ m) (hNone : (run m).inFlight = none)
    (hk : m ≤ k) : LastSince run n k (run k).watch.value := by
  induction k, hk using Nat.le_induction with
  | base => exact ⟨m, hn, le_rfl, (h.accepts m).upToDate.arrived hNone⟩
  | succ k hk ih =>
    by_cases hArrived : (run (k + 1)).inFlight = none
    · exact ⟨k + 1, by omega, le_rfl, (h.accepts (k + 1)).upToDate.arrived hArrived⟩
    · rw [(h.step k).watched_eq (h.inv k) hArrived]
      exact ih.mono (Nat.le_succ k)

theorem Endless.confined (h : Endless codec cfg run) {held : Nat}
    (hNow : (run m).Confined (LastSince run n m) held) (hn : n ≤ m) (hk : m ≤ k) :
    (run k).Confined (LastSince run n k) held := by
  induction k, hk using Nat.le_induction with
  | base => exact hNow
  | succ k hk ih =>
    refine (ih.mono fun config hSince => hSince.mono (Nat.le_succ k)).step (h.step k) ?_
    intro accepted hAccepted
    exact h.lastSince_inFlight (by omega) (mem_acceptedBy hAccepted)

/-! ## Every phase comes to its end -/

theorem Endless.started (h : Endless codec cfg run) (hFair : Fair run) (n : Nat) :
    ∃ m, n ≤ m ∧ (run m).main = .serving := by
  obtain ⟨m, hm, hEnd⟩ := hFair.main.phase_ends MainTask.rank (fun s hPhase => hPhase)
    (fun n hPhase hMoved => (h.step n).mainPart_rank (h.inv n) hPhase hMoved) n
  exact ⟨m, hm, not_not.mp hEnd⟩

theorem Endless.arrives (h : Endless codec cfg run) (hFair : Fair run) (n : Nat) :
    ∃ m, n ≤ m ∧ (run m).client.accepted = none := by
  obtain ⟨m, hm, hEnd⟩ := hFair.client.phase_ends ClientTask.rank (fun s hPhase => hPhase)
    (fun n hPhase hMoved => (h.step n).client_rank (h.inv n) hPhase hMoved) n
  exact ⟨m, hm, not_not.mp hEnd⟩

theorem Endless.rests (h : Endless codec cfg run) (hFair : Fair run) (n : Nat) :
    ∃ m, n ≤ m ∧ (run m).watcher ≠ .woken ∧ (run m).watcher ≠ .applying := by
  have hBusy (s : System) (hPhase : s.watcher = .woken ∨ s.watcher = .applying) : s.WatcherBusy :=
    hPhase.imp_right .inl
  obtain ⟨m, hm, hEnd⟩ := hFair.watcher.phase_ends WatcherTask.rank hBusy
    (fun n hPhase hMoved => (h.step n).watcherPart_rank (h.inv n)
      (attended_of_reachable (h.accepts n).reachable) hPhase hMoved) n
  exact ⟨m, hm, not_or.mp hEnd⟩

/-- What the watcher has not seen makes it store something. -/
theorem Endless.stores (h : Endless codec cfg run) (hFair : Fair run) (hNear : (run m).NearStore) :
    ∃ k, m ≤ k ∧ (run m).proxy.stored.length < (run k).proxy.stored.length := by
  obtain ⟨k, hk, hEnd⟩ := hFair.watcher.phase_ends WatcherTask.rankToStore (fun s => NearStore.busy)
    (fun n hPhase => (hPhase.step (h.inv n) (h.step n)).2) m
  refine ⟨k, hk, ?_⟩
  have hEither : (run m).proxy.stored.length ≤ (run k).proxy.stored.length ∧ (run k).NearStore ∨
      (run m).proxy.stored.length < (run k).proxy.stored.length := by
    refine h.stays (P := fun s => (run m).proxy.stored.length ≤ s.proxy.stored.length ∧ s.NearStore ∨
      (run m).proxy.stored.length < s.proxy.stored.length) ?_ (.inl ⟨le_rfl, hNear⟩) hk
    rintro s t hInv (⟨hLe, hPhase⟩ | hLess) hStep
    · rcases (hPhase.step hInv hStep).1 with hStill | hStored
      · exact .inl ⟨hLe.trans hStep.stored_le, hStill⟩
      · exact .inr (hLe.trans_lt hStored)
    · exact .inr (hLess.trans_le hStep.stored_le)
  rcases hEither with ⟨-, hPhase⟩ | hStored
  · exact absurd hPhase hEnd
  · exact hStored

/-- Everything behind what is stored, and whatever is stored next, was accepted last at `n` or later. -/
theorem Endless.confined_next (h : Endless codec cfg run) (hFair : Fair run) (n : Nat) :
    ∃ m, n ≤ m ∧ (run m).Confined (LastSince run n m) ((run m).proxy.stored.length + 1) ∧
      (run m).watcher ≠ .woken ∧ (run m).watcher ≠ .applying ∧
      ((∃ accepted ∈ acceptedUpTo run n, accepted ≠ .empty "bootstrap") → (run m).watch.version ≠ 0) := by
  obtain ⟨a, ha, hStarted⟩ := h.started hFair n
  obtain ⟨b, hb, hClient⟩ := h.arrives hFair a
  obtain ⟨m, hm, hWoken, hApplying⟩ := h.rests hFair b
  have hServing (k : Nat) (hk : b ≤ k) : (run k).main = .serving := h.serving hStarted (hb.trans hk)
  have hArrived : (run b).inFlight = none := by
    rw [inFlight, hClient, hServing b le_rfl]
    rfl
  refine ⟨m, by omega, ⟨hServing m hm, ?_, ?_, ?_, ?_⟩, hWoken, hApplying, ?_⟩
  · exact h.lastSince_watch (by omega) hArrived hm
  · intro accepted hPending
    apply h.lastSince_inFlight (by omega)
    rw [inFlight, hPending]
    rfl
  · intro i stored hStored
    rw [(h.inv m).no_stores (hServing m hm) hApplying] at hStored
    cases hStored
  · rintro config ⟨j, hLow, hHigh, -⟩
    omega
  · rintro ⟨accepted, hMem, hNew⟩ hVersion
    have hUnsent : (run b).watch.version = 0 := Nat.le_zero.mp (hVersion ▸ h.version_le hm)
    rcases ((h.accepts b).upToDate.unsent hUnsent).2 accepted
      (acceptedUpTo_mono run (by omega) hMem) with hEmpty | hPending
    · exact hNew hEmpty
    · rw [hArrived] at hPending
      cases hPending

/-- Once the watcher has been round, what is stored was accepted last at `n` or later too. -/
theorem Endless.confined_now (h : Endless codec cfg run) (hFair : Fair run) (n : Nat) :
    ∃ m held, n ≤ m ∧ held ≤ (run m).proxy.stored.length ∧ (run m).Confined (LastSince run n m) held ∧
      ((∃ accepted ∈ acceptedUpTo run n, accepted ≠ .empty "bootstrap") → (run m).proxy.stored ≠ []) := by
  obtain ⟨m, hm, hConfined, hWoken, hApplying, hVersion⟩ := h.confined_next hFair n
  have hReachable := (h.accepts m).reachable
  by_cases hSeen : (run m).seen = (run m).watch.version
  · obtain ⟨hConfig, hStored⟩ := (h.accepts m).config_eq_watch hConfined.main hWoken hApplying hSeen
    refine ⟨m, _, hm, le_rfl, { hConfined with held := ?_ }, fun hSome => hStored (hVersion hSome)⟩
    rintro config ⟨j, hLow, hHigh, rfl⟩
    rw [Nat.le_antisymm hHigh hLow, List.take_length,
      ← ProxySystem.config_eq_last_stored (proxy_reachable hReachable), hConfig]
    exact hConfined.watch
  · have hNear : (run m).NearStore := by
      cases hWatcher : (run m).watcher with
      | waiting => exact .inl ⟨hWatcher, Nat.lt_of_le_of_ne (seen_le hReachable) hSeen⟩
      | exited => exact absurd ((attended_of_reachable hReachable).receiver hWatcher).2 hSeen
      | woken => exact absurd hWatcher hWoken
      | applying => exact absurd hWatcher hApplying
    obtain ⟨k, hk, hStored⟩ := h.stores hFair hNear
    refine ⟨k, _, hm.trans hk, hStored, h.confined hConfined hm hk, ?_⟩
    intro _ hNone
    rw [hNone] at hStored
    exact Nat.not_lt_zero _ hStored

end Endless

end System

/-- In every endless run of the program in which no task is passed over for good, and at every time `n`:
from some point on, whatever else is accepted meanwhile, the proxy serves only configurations that were the
last accepted one at `n` or later; and if something other than the initial configuration had been accepted
by then, it is ready and has no conflicts from that point on. -/
theorem fair_run_catches_up (codec : Proto.Codec) (cfg : XdsClientConfig) {run : Nat → System}
    (h : System.Endless codec cfg run) (hFair : System.Fair run) (n : Nat) :
    ∃ m, n ≤ m ∧ ∀ k, m ≤ k →
      (∃ j, n ≤ j ∧ j ≤ k ∧ (run k).proxy.server.state.config = System.lastAccepted run j) ∧
      ((∃ accepted ∈ System.acceptedUpTo run n, accepted ≠ .empty "bootstrap") →
        (run k).proxy.server.state.ready = true ∧ (run k).proxy.server.state.conflicts = []) := by
  obtain ⟨a, held, ha, hHeld, hConfined, hNonempty⟩ := h.confined_now hFair n
  obtain ⟨m, hm, hWoken, hApplying⟩ := h.rests hFair a
  refine ⟨m, ha.trans hm, ?_⟩
  intro k hk
  have hReachable := System.proxy_reachable (h.accepts k).reachable
  constructor
  · apply (h.confined hConfined ha (hm.trans hk)).held
    exact ProxySystem.held_now hReachable (hHeld.trans (h.stored_le (hm.trans hk)))
  · intro hSome
    have hStored : (run m).proxy.stored ≠ [] := by
      rw [← List.length_pos_iff]
      exact (List.length_pos_iff.mpr (hNonempty hSome)).trans_le (h.stored_le hm)
    have hReady : (run m).proxy.server.state.ready = true :=
      System.ready_of_stored (h.accepts m).reachable (h.serving hConfined.main hm) hApplying hStored
    have hStill : (run k).proxy.server.state.ready = true :=
      h.stays (fun _ _ hInv hNow hStep => hStep.ready hInv hNow) hReady hk
    exact ⟨hStill, ((h.inv k).disciplined.ready hStill).1⟩

/-! ## Fair runs exist -/

theorem ProxySystem.runTask_eq_self {s : ProxySystem} {i : Nat} (h : (s.tasks i).Resting) (up : Upstream) :
    s.runTask up i = s := by
  have hServer : (s.runTask up i).server = s.server := congrArg Prod.fst (h.step_self up s.server)
  have hTasks : (s.runTask up i).tasks = s.tasks := by
    funext j
    by_cases hSelf : j = i
    · rw [hSelf, runTask_resting h]
    · rw [runTask_tasks_ne s hSelf]
  have hStored : (s.runTask up i).stored = s.stored := by
    rw [runTask, h.stores, List.append_nil]
  change (⟨(s.runTask up i).server, (s.runTask up i).tasks, (s.runTask up i).stored⟩ : ProxySystem) = s
  rw [hServer, hTasks, hStored]

namespace System

variable {codec : Proto.Codec} {cfg : XdsClientConfig} {s t : System}

/-- A settled program may idle: every path to a settled state is part of some fair run that stays there. -/
theorem Settled.exists_fair (hSettled : t.Settled) (h : (machine codec cfg).Reachable s)
    (hPath : Relation.ReflTransGen (machine codec cfg).step s t) :
    ∃ (run : Nat → System) (m n : Nat), m ≤ n ∧ Endless codec cfg run ∧ Fair run ∧ run m = s ∧
      ∀ k, n ≤ k → run k = t := by
  obtain ⟨run, m, n, hm, hInit, hAt, hSteps, hEnd⟩ := h.exists_run hPath
  have hReachable : (machine codec cfg).Reachable t := h.trans hPath
  have hIdle : Step codec cfg t t := by
    have hRun : Step codec cfg t { t with proxy := t.proxy.runTask sampleUpstream MAIN_TASK } := .run _ _
    rwa [ProxySystem.runTask_eq_self ((inv_of_reachable hReachable).serving hSettled.main)] at hRun
  have hLate (k : Nat) : run (max k n) = t := hEnd _ (le_max_right k n)
  refine ⟨run, m, n, hm, ⟨hInit, ?_⟩, ⟨?_, ?_, ?_⟩, hAt, hEnd⟩
  · intro k
    by_cases hk : k < n
    · exact hSteps k hk
    · rw [hEnd k (by omega), hEnd (k + 1) (by omega)]
      exact hIdle
  · intro k hBusy
    have hNow := hBusy _ (le_max_left k n)
    rw [hLate] at hNow
    exact absurd hSettled.main hNow
  · intro k hBusy
    have hNow := hBusy _ (le_max_left k n)
    rw [hLate] at hNow
    exact absurd hSettled.client hNow
  · intro k hBusy
    have hNow := hBusy _ (le_max_left k n)
    rw [hLate] at hNow
    rcases hNow with hWoken | hApplying | ⟨-, hUnseen⟩
    · exact absurd hWoken hSettled.watcher_ne.1
    · exact absurd hApplying hSettled.watcher_ne.2
    · exact absurd hSettled.seen hUnseen

end System

/-- A time at which the discovered configuration has been sent and the proxy still serves the static one. -/
theorem discoveredSent_catches_up : ∃ (run : Nat → System) (n : Nat),
    System.Endless rdsListenerCodec sampleClient run ∧ System.Fair run ∧
      (run n).proxy.server.state.config = sampleStatic ∧ System.lastAccepted run n = discovered ∧
      ∃ m, n ≤ m ∧ ∀ k, m ≤ k →
        (∃ j, n ≤ j ∧ j ≤ k ∧ (run k).proxy.server.state.config = System.lastAccepted run j) ∧
        (run k).proxy.server.state.ready = true := by
  obtain ⟨t, hOnward, hSettled⟩ := System.onward_settled discoveredSent_accepts.reachable
  obtain ⟨run, n, _, _, hEndless, hFair, hAt, _⟩ :=
    hSettled.exists_fair discoveredSent_accepts.reachable hOnward.path
  have hLast : System.lastAccepted run n = discovered := by
    have hArrived := (hEndless.accepts n).upToDate.arrived
    rw [hAt] at hArrived
    exact (hArrived rfl).symm
  have hSome : ∃ accepted ∈ System.acceptedUpTo run n, accepted ≠ .empty "bootstrap" := by
    have hInitial : discovered ≠ .empty "bootstrap" := by decide +kernel
    have hGet := hLast
    rw [System.lastAccepted] at hGet
    cases hAccepted : (System.acceptedUpTo run n).getLast? with
    | none =>
      rw [hAccepted] at hGet
      exact absurd hGet.symm hInitial
    | some accepted =>
      rw [hAccepted, Option.getD_some] at hGet
      exact ⟨accepted, List.mem_of_getLast? hAccepted, hGet ▸ hInitial⟩
  obtain ⟨m, hm, hAll⟩ := fair_run_catches_up _ _ hEndless hFair n
  refine ⟨run, n, hEndless, hFair, ?_, hLast, m, hm, fun k hk => ⟨(hAll k hk).1, ((hAll k hk).2 hSome).1⟩⟩
  rw [hAt]
  rfl

end Dxgate
