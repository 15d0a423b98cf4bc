import Dxgate.App.System
import Dxgate.Xds.Requests

/-! # Readiness

`apply_config` writes and `readiness` reads in three separate accesses, so a reader may see parts of two
configurations. What a reader cannot see is readiness together with conflicts: the only call that can
fail is the one `main` makes before anything has been sent.
-/

namespace Dxgate

set_option autoImplicit false

def ApplyTask.Rejecting : ApplyTask → Prop
  | .writeConflicts _ | .storeNotReady _ => True
  | _ => False

/-- What a reader that has seen readiness may rely on. -/
def ReadTask.Sees (s : ProxySystem) : ReadTask → Prop
  | .loadReady => True
  | .readVersion ready => ready = true → s.server.state.ready = true
  | .readConflicts ready version => ready = true → s.server.state.ready = true ∧
      ∃ cfg ∈ s.stored, version = cfg.version
  | .returned result => result.ready = true → result.conflicts = [] ∧
      ∃ cfg ∈ s.stored, result.version = cfg.version

namespace ProxySystem

/-- A rejecting call runs alone and before the proxy is ready; a ready proxy has no conflicts. -/
structure Disciplined (s : ProxySystem) : Prop where
  rejecting : ∀ i task, s.tasks i = .applying task → task.Rejecting → s.server.state.ready = false ∧
    ∀ j other, j ≠ i → s.tasks j = .applying other → ∃ result, other = .returned result
  ready : s.server.state.ready = true → s.server.state.conflicts = [] ∧ s.stored ≠ []
  storing : ∀ i, s.tasks i = .applying .storeReady → s.server.state.conflicts = [] ∧ s.stored ≠ []
  clearing : ∀ i, s.tasks i = .applying .clearConflicts → s.stored ≠ []
  config : s.stored ≠ [] → s.server.state.config ∈ s.stored
  readers : ∀ i task, s.tasks i = .reading task → task.Sees s

theorem Sees.mono {s t : ProxySystem} {task : ReadTask} (h : task.Sees s)
    (hReady : s.server.state.ready = true → t.server.state.ready = true)
    (hStored : ∀ cfg ∈ s.stored, cfg ∈ t.stored) : task.Sees t := by
  cases task with
  | loadReady => trivial
  | readVersion ready => exact fun hSeen => hReady (h hSeen)
  | readConflicts ready version =>
    intro hSeen
    obtain ⟨hNow, cfg, hCfg, hVersion⟩ := h hSeen
    exact ⟨hReady hNow, cfg, hStored cfg hCfg, hVersion⟩
  | returned result =>
    intro hSeen
    obtain ⟨hNone, cfg, hCfg, hVersion⟩ := h hSeen
    exact ⟨hNone, cfg, hStored cfg hCfg, hVersion⟩

theorem Initial.disciplined {s : ProxySystem} (h : s.Initial) : s.Disciplined := by
  obtain ⟨_, hConflicts, hReady, hTasks, hStored⟩ := h
  refine ⟨?_, ?_, ?_, ?_, ?_, ?_⟩
  · intro i task hTask
    rw [hTasks] at hTask
    cases hTask
  · intro hTrue
    rw [hReady] at hTrue
    cases hTrue
  · intro i hTask
    rw [hTasks] at hTask
    cases hTask
  · intro i hTask
    rw [hTasks] at hTask
    cases hTask
  · intro hSome
    exact absurd hStored hSome
  · intro i task hTask
    rw [hTasks] at hTask
    cases hTask

theorem Disciplined.of_unchanged {s t : ProxySystem} (h : s.Disciplined)
    (hState : ∃ counter, t.server.state = { s.server.state with pickerCounter := counter })
    (hStored : t.stored = s.stored)
    (hApplying : ∀ i task, t.tasks i = .applying task → s.tasks i = .applying task)
    (hReading : ∀ i task, t.tasks i = .reading task → task.Sees s) : t.Disciplined := by
  obtain ⟨counter, hState⟩ := hState
  have hReady : t.server.state.ready = s.server.state.ready := by rw [hState]
  have hConflicts : t.server.state.conflicts = s.server.state.conflicts := by rw [hState]
  have hConfig : t.server.state.config = s.server.state.config := by rw [hState]
  refine ⟨?_, ?_, ?_, ?_, ?_, ?_⟩
  · intro i task hTask hRejecting
    rw [hReady]
    obtain ⟨hFalse, hOthers⟩ := h.rejecting i task (hApplying i task hTask) hRejecting
    exact ⟨hFalse, fun j other hNe hOther => hOthers j other hNe (hApplying j other hOther)⟩
  · rw [hReady, hConflicts, hStored]
    exact h.ready
  · intro i hTask
    rw [hConflicts, hStored]
    exact h.storing i (hApplying i _ hTask)
  · intro i hTask
    rw [hStored]
    exact h.clearing i (hApplying i _ hTask)
  · rw [hStored, hConfig]
    exact h.config
  · intro i task hTask
    exact Sees.mono (hReading i task hTask) (by rw [hReady]; exact id) (by rw [hStored]; exact fun _ hc => hc)

theorem Disciplined.not_rejecting {s : ProxySystem} (h : s.Disciplined) {i j : Nat}
    {task other : ApplyTask} (hTask : s.tasks i = .applying task) (hLive : ∀ result, task ≠ .returned result)
    (hNe : j ≠ i) (hOther : s.tasks j = .applying other) : ¬ other.Rejecting := by
  intro hRejecting
  obtain ⟨result, hReturned⟩ := (h.rejecting j other hOther hRejecting).2 i task (Ne.symm hNe) hTask
  exact hLive result hReturned

/-- Task `i` gets to `next` in a call of `apply_config` while no other call is rejecting. -/
theorem Disciplined.of_applying {s t : ProxySystem} (h : s.Disciplined) {i : Nat} {next : ApplyTask}
    (hTasks : ∀ j, t.tasks j = if j = i then .applying next else s.tasks j)
    (hOthers : ∀ j other, j ≠ i → s.tasks j = .applying other → ¬ other.Rejecting)
    (hRejecting : next.Rejecting → t.server.state.ready = false ∧
      ∀ j other, j ≠ i → s.tasks j = .applying other → ∃ result, other = .returned result)
    (hMono : s.server.state.ready = true → t.server.state.ready = true)
    (hStored : ∀ cfg ∈ s.stored, cfg ∈ t.stored)
    (hReady : t.server.state.ready = true → t.server.state.conflicts = [] ∧ t.stored ≠ [])
    (hStoring : (next = .storeReady ∨ ∃ j, j ≠ i ∧ s.tasks j = .applying .storeReady) →
      t.server.state.conflicts = [] ∧ t.stored ≠ [])
    (hClearing : (next = .clearConflicts ∨ ∃ j, j ≠ i ∧ s.tasks j = .applying .clearConflicts) →
      t.stored ≠ [])
    (hConfig : t.stored ≠ [] → t.server.state.config ∈ t.stored) : t.Disciplined := by
  refine ⟨?_, hReady, ?_, ?_, hConfig, ?_⟩
  · intro j task hTask hRejects
    rw [hTasks] at hTask
    split at hTask
    · rename_i hEq
      cases hTask
      obtain ⟨hFalse, hRest⟩ := hRejecting hRejects
      refine ⟨hFalse, fun k other hNe hOther => ?_⟩
      rw [hTasks, if_neg (hEq ▸ hNe)] at hOther
      exact hRest k other (hEq ▸ hNe) hOther
    · rename_i hNe
      exact absurd hRejects (hOthers j task hNe hTask)
  · intro j hTask
    rw [hTasks] at hTask
    split at hTask
    · cases hTask
      exact hStoring (Or.inl rfl)
    · rename_i hNe
      exact hStoring (Or.inr ⟨j, hNe, hTask⟩)
  · intro j hTask
    rw [hTasks] at hTask
    split at hTask
    · cases hTask
      exact hClearing (Or.inl rfl)
    · rename_i hNe
      exact hClearing (Or.inr ⟨j, hNe, hTask⟩)
  · intro j task hTask
    rw [hTasks] at hTask
    split at hTask
    · cases hTask
    · exact Sees.mono (h.readers j task hTask) hMono hStored

theorem Disciplined.runTask_applying {s : ProxySystem} (h : s.Disciplined) (up : Upstream) {i : Nat}
    {task : ApplyTask} (hTask : s.tasks i = .applying task) : (s.runTask up i).Disciplined := by
  have hRun : s.runTask up i =
      ⟨{ s.server with state := (ApplyTask.step (s.server.state, task)).1 },
        Function.update s.tasks i (.applying (ApplyTask.step (s.server.state, task)).2),
        s.stored ++ (Task.applying task).stores⟩ := by
    rw [runTask, hTask]
    rfl
  have hTasks (j : Nat) : (s.runTask up i).tasks j =
      if j = i then .applying (ApplyTask.step (s.server.state, task)).2 else s.tasks j := by
    rw [runTask_tasks, hTask, Task.step]
  have hSubset : ∀ cfg ∈ s.stored, cfg ∈ (s.runTask up i).stored := by
    rw [hRun]
    exact fun cfg hCfg => List.mem_append_left _ hCfg
  have hStoring : (∃ j, j ≠ i ∧ s.tasks j = .applying .storeReady) →
      s.server.state.conflicts = [] ∧ s.stored ≠ [] := by
    rintro ⟨j, _, hOther⟩
    exact h.storing j hOther
  have hClearing : (∃ j, j ≠ i ∧ s.tasks j = .applying .clearConflicts) → s.stored ≠ [] := by
    rintro ⟨j, _, hOther⟩
    exact h.clearing j hOther
  cases task with
  | writeConfig cfg =>
    refine h.of_applying hTasks (fun j other => h.not_rejecting hTask (by simp)) ?_ ?_ hSubset ?_ ?_ ?_ ?_
    all_goals rw [hRun]
    · exact False.elim
    · exact id
    · exact fun hReady => ⟨(h.ready hReady).1, by simp [Task.stores]⟩
    · rintro (hNext | hOther)
      · cases hNext
      · exact ⟨(hStoring hOther).1, by simp [Task.stores]⟩
    · intro _
      simp [Task.stores]
    · intro _
      simp [Task.stores, ApplyTask.step]
  | clearConflicts =>
    refine h.of_applying hTasks (fun j other => h.not_rejecting hTask (by simp)) ?_ ?_ hSubset ?_ ?_ ?_ ?_
    all_goals rw [hRun]; simp only [Task.stores, List.append_nil]
    · exact False.elim
    · exact id
    · exact fun hReady => ⟨rfl, (h.ready hReady).2⟩
    · exact fun _ => ⟨rfl, h.clearing i hTask⟩
    · exact fun _ => h.clearing i hTask
    · exact h.config
  | storeReady =>
    refine h.of_applying hTasks (fun j other => h.not_rejecting hTask (by simp)) ?_ ?_ hSubset ?_ ?_ ?_ ?_
    all_goals rw [hRun]; simp only [Task.stores, List.append_nil]
    · exact False.elim
    · exact fun _ => rfl
    · exact fun _ => h.storing i hTask
    · exact fun _ => h.storing i hTask
    · exact fun _ => (h.storing i hTask).2
    · exact h.config
  | writeConflicts conflicts =>
    obtain ⟨hFalse, hAlone⟩ := h.rejecting i _ hTask trivial
    refine h.of_applying hTasks (fun j other => h.not_rejecting hTask (by simp)) ?_ ?_ hSubset ?_ ?_ ?_ ?_
    all_goals rw [hRun]; simp only [Task.stores, List.append_nil]
    · exact fun _ => ⟨hFalse, hAlone⟩
    · exact id
    · exact fun hReady => absurd (hFalse.symm.trans hReady) (by decide)
    · rintro (hNext | ⟨j, hNe, hOther⟩)
      · cases hNext
      · obtain ⟨result, hReturned⟩ := hAlone j _ hNe hOther
        cases hReturned
    · rintro (hNext | hOther)
      · cases hNext
      · exact hClearing hOther
    · exact h.config
  | storeNotReady conflicts =>
    -- the flag is false already: a rejecting call runs before any other has set it
    obtain ⟨hFalse, _⟩ := h.rejecting i _ hTask trivial
    refine h.of_applying hTasks (fun j other => h.not_rejecting hTask (by simp)) ?_ ?_ hSubset ?_ ?_ ?_ ?_
    all_goals rw [hRun]; simp only [Task.stores, List.append_nil]
    · exact False.elim
    · exact fun hReady => absurd (hFalse.symm.trans hReady) (by decide)
    · exact fun hReady => by cases hReady
    · rintro (hNext | hOther)
      · cases hNext
      · exact hStoring hOther
    · rintro (hNext | hOther)
      · cases hNext
      · exact hClearing hOther
    · exact h.config
  | returned result =>
    refine h.of_unchanged ⟨s.server.state.pickerCounter, by rw [hRun]; rfl⟩ (by rw [hRun]; simp [Task.stores]) ?_ ?_
    · intro j task hOther
      rw [hTasks] at hOther
      split at hOther
      · rename_i hEq
        rw [hEq, hTask]
        exact hOther
      · exact hOther
    · intro j task hOther
      rw [hTasks] at hOther
      split at hOther
      · cases hOther
      · exact h.readers j task hOther

theorem Disciplined.read_step {s : ProxySystem} (h : s.Disciplined) {task : ReadTask} (hTask : task.Sees s) :
    (task.step s.server.state).Sees s := by
  cases task with
  | loadReady => exact id
  | readVersion ready =>
    intro hSeen
    exact ⟨hTask hSeen, _, h.config (h.ready (hTask hSeen)).2, rfl⟩
  | readConflicts ready version =>
    intro hSeen
    obtain ⟨hReady, hVersion⟩ := hTask hSeen
    exact ⟨(h.ready hReady).1, hVersion⟩
  | returned result => exact hTask

theorem Disciplined.runTask {s : ProxySystem} (h : s.Disciplined) (up : Upstream) (i : Nat) :
    (s.runTask up i).Disciplined := by
  cases hTask : s.tasks i with
  | applying task => exact h.runTask_applying up hTask
  | idle =>
    refine h.of_unchanged ⟨s.server.state.pickerCounter, ?_⟩ ?_ ?_ ?_
    · simp only [ProxySystem.runTask, hTask, Task.step]
    · simp [ProxySystem.runTask, hTask, Task.stores]
    all_goals
      intro j task hOther
      rw [runTask_tasks, hTask] at hOther
      split at hOther
      · cases hOther
    · exact hOther
    · exact h.readers j task hOther
  | reading reader =>
    refine h.of_unchanged ⟨s.server.state.pickerCounter, ?_⟩ ?_ ?_ ?_
    · simp only [ProxySystem.runTask, hTask, Task.step]
    · simp [ProxySystem.runTask, hTask, Task.stores]
    all_goals
      intro j task hOther
      rw [runTask_tasks, hTask] at hOther
      split at hOther
    · cases hOther
    · exact hOther
    · cases hOther
      exact h.read_step (h.readers i reader hTask)
    · exact h.readers j task hOther
  | forwarding handler =>
    obtain ⟨counter, hState⟩ := Handler.step_state up s.server handler
    refine h.of_unchanged ⟨counter, ?_⟩ ?_ ?_ ?_
    · simp only [ProxySystem.runTask, hTask, Task.step, hState]
    · simp [ProxySystem.runTask, hTask, Task.stores]
    all_goals
      intro j task hOther
      rw [runTask_tasks, hTask] at hOther
      split at hOther
      · cases hOther
    · exact hOther
    · exact h.readers j task hOther

theorem Disciplined.ready_runTask {s : ProxySystem} (h : s.Disciplined) (up : Upstream) (i : Nat)
    (hReady : s.server.state.ready = true) : (s.runTask up i).server.state.ready = true := by
  cases hTask : s.tasks i with
  | idle => simpa only [ProxySystem.runTask, hTask, Task.step] using hReady
  | reading reader => simpa only [ProxySystem.runTask, hTask, Task.step] using hReady
  | forwarding handler =>
    obtain ⟨counter, hState⟩ := Handler.step_state up s.server handler
    simp only [ProxySystem.runTask, hTask, Task.step, hState]
    exact hReady
  | applying task =>
    simp only [ProxySystem.runTask, hTask, Task.step]
    cases task with
    | storeReady => rfl
    | storeNotReady conflicts =>
      obtain ⟨hFalse, _⟩ := h.rejecting i _ hTask trivial
      rw [hFalse] at hReady
      cases hReady
    | _ => exact hReady

theorem ready_runTask_eq {s : ProxySystem} (up : Upstream) {i : Nat}
    (hNone : ∀ task, s.tasks i ≠ .applying task) :
    (s.runTask up i).server.state.ready = s.server.state.ready := by
  cases hTask : s.tasks i with
  | idle => simp only [ProxySystem.runTask, hTask, Task.step]
  | reading reader => simp only [ProxySystem.runTask, hTask, Task.step]
  | forwarding handler =>
    obtain ⟨counter, hState⟩ := Handler.step_state up s.server handler
    simp only [ProxySystem.runTask, hTask, Task.step, hState]
  | applying task => exact absurd hTask (hNone task)

theorem Disciplined.setTask_read {s : ProxySystem} (h : s.Disciplined) (i : Nat) :
    (s.setTask i (.reading .loadReady)).Disciplined := by
  refine h.of_unchanged ⟨s.server.state.pickerCounter, rfl⟩ rfl ?_ ?_
  all_goals
    intro j task hOther
    rw [setTask_tasks] at hOther
    split at hOther
  · cases hOther
  · exact hOther
  · cases hOther
    trivial
  · exact h.readers j task hOther

theorem Disciplined.setTask_forward {s : ProxySystem} (h : s.Disciplined) (i : Nat) (req : Request) :
    (s.setTask i (.forwarding (.received req))).Disciplined := by
  refine h.of_unchanged ⟨s.server.state.pickerCounter, rfl⟩ rfl ?_ ?_
  all_goals
    intro j task hOther
    rw [setTask_tasks] at hOther
    split at hOther
    · cases hOther
  · exact hOther
  · exact h.readers j task hOther

/-- A call starts while no other is under way: any call before the proxy is ready, and later one with a
valid configuration. -/
theorem Disciplined.setTask_apply {s : ProxySystem} (h : s.Disciplined) {i : Nat} {cfg : RuntimeConfig}
    (hOthers : ∀ j task, j ≠ i → s.tasks j = .applying task → ∃ result, task = .returned result)
    (hCall : cfg.WellFormed ∨ s.server.state.ready = false) :
    (s.setTask i (.applying (.call cfg))).Disciplined := by
  have hQuiet : ∀ j task, j ≠ i → s.tasks j = .applying task → ¬ task.Rejecting := by
    intro j task hNe hTask
    obtain ⟨result, rfl⟩ := hOthers j task hNe hTask
    exact id
  have hCalled : ApplyTask.call cfg = .writeConfig cfg ∨
      (¬ cfg.WellFormed ∧ ApplyTask.call cfg = .writeConflicts cfg.conflicts) := by
    rw [ApplyTask.call]
    split
    · exact Or.inl rfl
    · rename_i conflicts hInvalid
      obtain ⟨hNot, rfl⟩ := RuntimeConfig.validate_error_iff.mp hInvalid
      exact Or.inr ⟨hNot, rfl⟩
  refine h.of_applying (fun j => setTask_tasks s i j _) hQuiet ?_ id (fun _ hc => hc) h.ready ?_ ?_ h.config
  · intro hRejecting
    rcases hCalled with hWrite | ⟨hNot, _⟩
    · rw [hWrite] at hRejecting
      cases hRejecting
    · exact ⟨hCall.resolve_left hNot, hOthers⟩
  · rintro (hNext | ⟨j, _, hTask⟩)
    · rcases hCalled with hWrite | ⟨_, hWrite⟩ <;> rw [hWrite] at hNext <;> cases hNext
    · exact h.storing j hTask
  · rintro (hNext | ⟨j, _, hTask⟩)
    · rcases hCalled with hWrite | ⟨_, hWrite⟩ <;> rw [hWrite] at hNext <;> cases hNext
    · exact h.clearing j hTask

end ProxySystem

/-! ## The program -/

/-- The task carries out a call with this configuration; it can succeed only for a well-formed one. -/
def ApplyTask.For (cfg : RuntimeConfig) : ApplyTask → Prop
  | .writeConfig _ | .clearConflicts | .storeReady | .returned (.ok ()) => cfg.WellFormed
  | _ => True

theorem ApplyTask.For.call (cfg : RuntimeConfig) : (ApplyTask.call cfg).For cfg := by
  rw [ApplyTask.call]
  split
  · rename_i hValid
    exact (RuntimeConfig.validate_ok_iff cfg).mp hValid
  · trivial

theorem ApplyTask.For.step {cfg : RuntimeConfig} {task : ApplyTask} (h : task.For cfg) (st : ProxyState) :
    (ApplyTask.step (st, task)).2.For cfg := by
  cases task with
  | writeConfig _ => exact h
  | clearConflicts => exact h
  | storeReady => exact h
  | writeConflicts conflicts => trivial
  | storeNotReady conflicts => trivial
  | returned result => exact h

theorem Task.Resting.returned {task : ApplyTask} (h : (Task.applying task).Resting) :
    ∃ result, task = .returned result := by
  cases h with
  | applied result => exact ⟨result, rfl⟩

theorem Task.Resting.step {task : Task} (h : task.Resting) (up : Upstream) (server : ProxyServer) :
    (Task.step up (server, task)).2.Resting := by
  cases h with
  | idle => exact .idle
  | applied result => exact .applied result
  | read result => exact .read result
  | answered out => exact .answered out

theorem Task.step_not_applying {task : Task} (h : ∀ a, task ≠ .applying a) (up : Upstream)
    (server : ProxyServer) : ∀ a, (Task.step up (server, task)).2 ≠ .applying a := by
  intro a hStep
  cases task with
  | applying b => exact h b rfl
  | idle => cases hStep
  | reading reader => cases hStep
  | forwarding handler => cases hStep

namespace System

/-- Before `main` has sent anything only its own call of `apply_config` can be under way. -/
structure Quiet (s : System) : Prop where
  seen : s.seen = s.watch.version
  sender : s.watch.closed = false
  watcher : s.watcher = .waiting
  client : s.client = .notStarted
  task : s.proxy.tasks WATCHER_TASK = .idle

structure Inv (s : System) : Prop where
  disciplined : s.proxy.Disciplined
  watched : s.watch.value.WellFormed
  pending : ∀ stream cfg, s.client = .validated stream cfg ∨ s.client = .sending stream cfg →
    cfg.WellFormed
  others : ∀ i, WATCHER_TASK < i → ∀ task, s.proxy.tasks i ≠ .applying task
  quiet : s.main ≠ .serving → s.Quiet
  loading : s.main = .loading → s.proxy.tasks MAIN_TASK = .idle ∧ s.proxy.server.state.ready = false
  applying : ∀ cfg, s.main = .applying cfg →
    ∃ task, s.proxy.tasks MAIN_TASK = .applying task ∧ task.For cfg
  sending : ∀ cfg, s.main = .sending cfg → (s.proxy.tasks MAIN_TASK).Resting ∧ cfg.WellFormed
  serving : s.main = .serving → (s.proxy.tasks MAIN_TASK).Resting
  watcher : s.watcher ≠ .applying → (s.proxy.tasks WATCHER_TASK).Resting

variable {codec : Proto.Codec} {cfg : XdsClientConfig}

theorem Initial.inv {s : System} (h : s.Initial) : s.Inv := by
  obtain ⟨hProxy, hWatch, hMain, hClient, hWatcher, hSeen⟩ := h
  have hDisciplined := hProxy.disciplined
  obtain ⟨_, _, hReady, hTasks, _⟩ := hProxy
  refine ⟨hDisciplined, ?_, ?_, ?_, ?_, ?_, ?_, ?_, ?_, ?_⟩
  · rw [hWatch]
    exact RuntimeConfig.empty_wellFormed _
  · rintro stream pending (hPending | hPending) <;> rw [hClient] at hPending <;> cases hPending
  · intro i _ task hTask
    rw [hTasks] at hTask
    cases hTask
  · intro _
    exact ⟨by rw [hSeen, hWatch], by rw [hWatch], hWatcher, hClient, by rw [hTasks]⟩
  · intro _
    exact ⟨by rw [hTasks], hReady⟩
  · intro static hApplying
    rw [hMain] at hApplying
    cases hApplying
  · intro static hSending
    rw [hMain] at hSending
    cases hSending
  · intro hServing
    rw [hMain] at hServing
    cases hServing
  · intro _
    rw [hTasks]
    exact .idle

theorem received_wellFormed {channels : Channels} {node : Proto.Node} {stream st : Stream}
    {resp : Proto.DiscoveryResponse} {pending : RuntimeConfig}
    (h : ClientTask.received codec channels node stream resp = .validated st pending ∨
      ClientTask.received codec channels node stream resp = .sending st pending) : pending.WellFormed := by
  unfold ClientTask.received at h
  split at h
  · rcases h with h | h <;> cases h
  · split at h
    · rename_i hValid
      rcases h with h | h <;> cases h
      exact (RuntimeConfig.validate_ok_iff _).mp hValid
    · rcases h with h | h <;> cases h

/-- Steps of `main`, of the client and of the watcher that leave the proxy alone. -/
theorem Inv.of_proxy_eq {s t : System} (h : s.Inv) (hProxy : t.proxy = s.proxy)
    (hWatched : t.watch.value.WellFormed)
    (hPending : ∀ stream cfg, t.client = .validated stream cfg ∨ t.client = .sending stream cfg →
      cfg.WellFormed)
    (hQuiet : t.main ≠ .serving → t.Quiet)
    (hLoading : t.main = .loading → s.main = .loading)
    (hApplying : ∀ cfg, t.main = .applying cfg → s.main = .applying cfg)
    (hSending : ∀ cfg, t.main = .sending cfg →
      (s.proxy.tasks MAIN_TASK).Resting ∧ cfg.WellFormed)
    (hServing : t.main = .serving → (s.proxy.tasks MAIN_TASK).Resting)
    (hWatcher : t.watcher ≠ .applying → (s.proxy.tasks WATCHER_TASK).Resting) : t.Inv := by
  refine ⟨?_, hWatched, hPending, ?_, hQuiet, ?_, ?_, ?_, ?_, ?_⟩ <;> rw [hProxy]
  · exact h.disciplined
  · exact h.others
  · exact fun hMain => h.loading (hLoading hMain)
  · exact fun static hMain => h.applying static (hApplying static hMain)
  · exact hSending
  · exact hServing
  · exact hWatcher

theorem Inv.serve {s : System} (h : s.Inv) (watch : Watch) (hWatched : watch.value.WellFormed)
    (hTask : (s.proxy.tasks MAIN_TASK).Resting) :
    ({ s with main := .serving, client := .disconnected, watch := watch } : System).Inv := by
  refine h.of_proxy_eq rfl hWatched ?_ (fun hMain => absurd rfl hMain) ?_ ?_ ?_ (fun _ => hTask) h.watcher
  · rintro stream pending (hPending | hPending) <;> cases hPending
  · intro hMain
    cases hMain
  · intro static hMain
    cases hMain
  · intro static hMain
    cases hMain

theorem Inv.client_step {s : System} (h : s.Inv) (client : ClientTask) (watch : Watch)
    (hStarted : s.client ≠ .notStarted) (hWatched : watch.value.WellFormed)
    (hPending : ∀ stream cfg, client = .validated stream cfg ∨ client = .sending stream cfg →
      cfg.WellFormed) : ({ s with client := client, watch := watch } : System).Inv := by
  refine h.of_proxy_eq rfl hWatched hPending ?_ id (fun _ hMain => hMain) h.sending h.serving h.watcher
  intro hMain
  exact absurd (h.quiet hMain).client hStarted

theorem Inv.watcher_step {s : System} (h : s.Inv) (watcher : WatcherTask) (seen : Nat)
    (hMain : s.main = .serving) (hTask : (s.proxy.tasks WATCHER_TASK).Resting) :
    ({ s with watcher := watcher, seen := seen } : System).Inv := by
  refine h.of_proxy_eq rfl h.watched h.pending ?_ id (fun _ hStatic => hStatic) h.sending h.serving
    (fun _ => hTask)
  intro hNot
  exact absurd hMain hNot

theorem Inv.serving_of_not_quiet {s : System} (h : s.Inv) (hNot : ¬ s.Quiet) : s.main = .serving := by
  by_contra hMain
  exact hNot (h.quiet hMain)

theorem task_cases (i : Nat) : i = MAIN_TASK ∨ i = WATCHER_TASK ∨ WATCHER_TASK < i := by
  rw [MAIN_TASK, WATCHER_TASK]
  omega

theorem Inv.run {s : System} (h : s.Inv) (up : Upstream) (i : Nat) :
    ({ s with proxy := s.proxy.runTask up i } : System).Inv := by
  have hResting (j : Nat) (hTask : (s.proxy.tasks j).Resting) :
      ((s.proxy.runTask up i).tasks j).Resting := by
    rw [ProxySystem.runTask_tasks]
    split
    · rename_i hEq
      rw [← hEq]
      exact hTask.step up s.proxy.server
    · exact hTask
  have hIdle (j : Nat) (hTask : s.proxy.tasks j = .idle) : (s.proxy.runTask up i).tasks j = .idle := by
    rw [ProxySystem.runTask_tasks]
    split
    · rename_i hEq
      rw [← hEq, hTask]
      rfl
    · exact hTask
  refine ⟨h.disciplined.runTask up i, h.watched, h.pending, ?_, ?_, ?_, ?_, ?_, ?_, ?_⟩
  · intro j hOther
    dsimp only
    rw [ProxySystem.runTask_tasks]
    split
    · rename_i hEq
      exact Task.step_not_applying (h.others i (hEq ▸ hOther)) up s.proxy.server
    · exact h.others j hOther
  · intro hMain
    obtain ⟨hSeen, hSender, hWatcher, hClient, hTask⟩ := h.quiet hMain
    exact ⟨hSeen, hSender, hWatcher, hClient, hIdle _ hTask⟩
  · intro hMain
    obtain ⟨hTask, hReady⟩ := h.loading hMain
    have hWatcherTask := (h.quiet (by rw [show s.main = .loading from hMain]; simp)).task
    refine ⟨hIdle _ hTask, ?_⟩
    dsimp only
    rw [ProxySystem.ready_runTask_eq up]
    · exact hReady
    · intro task hRunning
      rcases task_cases i with rfl | rfl | hOther
      · rw [hTask] at hRunning
        cases hRunning
      · rw [hWatcherTask] at hRunning
        cases hRunning
      · exact h.others i hOther task hRunning
  · intro static hMain
    obtain ⟨task, hTask, hFor⟩ := h.applying static hMain
    dsimp only
    rw [ProxySystem.runTask_tasks]
    split
    · rename_i hEq
      rw [← hEq, hTask]
      exact ⟨_, rfl, hFor.step s.proxy.server.state⟩
    · exact ⟨task, hTask, hFor⟩
  · intro static hMain
    obtain ⟨hTask, hValid⟩ := h.sending static hMain
    exact ⟨hResting _ hTask, hValid⟩
  · exact fun hMain => hResting _ (h.serving hMain)
  · exact fun hWatcher => hResting _ (h.watcher hWatcher)

theorem Inv.start {s : System} (h : s.Inv) {i : Nat} (hOther : WATCHER_TASK < i) {task : Task}
    (hTask : ∀ a, task ≠ .applying a) (hDisciplined : (s.proxy.setTask i task).Disciplined) :
    ({ s with proxy := s.proxy.setTask i task } : System).Inv := by
  have hMainTask : (s.proxy.setTask i task).tasks MAIN_TASK = s.proxy.tasks MAIN_TASK := by
    rw [ProxySystem.setTask_tasks, if_neg]
    rw [MAIN_TASK]
    omega
  have hWatcherTask : (s.proxy.setTask i task).tasks WATCHER_TASK = s.proxy.tasks WATCHER_TASK := by
    rw [ProxySystem.setTask_tasks, if_neg (Nat.ne_of_lt hOther)]
  refine ⟨hDisciplined, h.watched, h.pending, ?_, ?_, ?_, ?_, ?_, ?_, ?_⟩
  · intro j hj
    dsimp only
    rw [ProxySystem.setTask_tasks]
    split
    · exact hTask
    · exact h.others j hj
  · intro hMain
    obtain ⟨hSeen, hSender, hWatcher, hClient, hIdle⟩ := h.quiet hMain
    exact ⟨hSeen, hSender, hWatcher, hClient, hWatcherTask.trans hIdle⟩
  all_goals dsimp only
  · rw [hMainTask]
    exact h.loading
  · rw [hMainTask]
    exact h.applying
  · rw [hMainTask]
    exact h.sending
  · rw [hMainTask]
    exact h.serving
  · rw [hWatcherTask]
    exact h.watcher

theorem Inv.main_apply {s : System} (h : s.Inv) (static : RuntimeConfig) (hMain : s.main = .loading) :
    ({ s with
      main := .applying static
      proxy := s.proxy.setTask MAIN_TASK (.applying (.call static)) } : System).Inv := by
  obtain ⟨hTask, hReady⟩ := h.loading hMain
  have hQuiet := h.quiet (by rw [hMain]; simp)
  have hOthers : ∀ j task, j ≠ MAIN_TASK → s.proxy.tasks j = .applying task →
      ∃ result, task = .returned result := by
    intro j task hNe hApplying
    rcases task_cases j with rfl | rfl | hOther
    · exact absurd rfl hNe
    · rw [hQuiet.task] at hApplying
      cases hApplying
    · exact absurd hApplying (h.others j hOther task)
  have hWatcherTask : (s.proxy.setTask MAIN_TASK (.applying (.call static))).tasks WATCHER_TASK =
      .idle := by
    rw [ProxySystem.setTask_tasks, if_neg (by decide)]
    exact hQuiet.task
  refine ⟨h.disciplined.setTask_apply hOthers (Or.inr hReady), h.watched, h.pending, ?_, ?_, ?_, ?_, ?_,
    ?_, ?_⟩
  · intro j hOther
    dsimp only
    rw [ProxySystem.setTask_tasks, if_neg]
    · exact h.others j hOther
    · rw [MAIN_TASK]
      omega
  · intro _
    exact ⟨hQuiet.seen, hQuiet.sender, hQuiet.watcher, hQuiet.client, hWatcherTask⟩
  · intro hLoading
    cases hLoading
  · intro given hApplying
    cases hApplying
    refine ⟨_, ?_, ApplyTask.For.call static⟩
    dsimp only
    rw [ProxySystem.setTask_tasks, if_pos rfl]
  · intro given hSending
    cases hSending
  · intro hServing
    cases hServing
  · intro _
    dsimp only
    rw [hWatcherTask]
    exact .idle

theorem Inv.watcher_apply {s : System} (h : s.Inv) (hWatcher : s.watcher = .woken) :
    ({ s with
      watcher := .applying
      proxy := s.proxy.setTask WATCHER_TASK (.applying (.call s.watch.value)) } : System).Inv := by
  have hMain : s.main = .serving := by
    refine h.serving_of_not_quiet fun hQuiet => ?_
    rw [hQuiet.watcher] at hWatcher
    cases hWatcher
  have hOthers : ∀ j task, j ≠ WATCHER_TASK → s.proxy.tasks j = .applying task →
      ∃ result, task = .returned result := by
    intro j task hNe hApplying
    rcases task_cases j with rfl | rfl | hOther
    · have hResting := h.serving hMain
      rw [hApplying] at hResting
      exact hResting.returned
    · exact absurd rfl hNe
    · exact absurd hApplying (h.others j hOther task)
  have hMainTask : (s.proxy.setTask WATCHER_TASK (.applying (.call s.watch.value))).tasks MAIN_TASK =
      s.proxy.tasks MAIN_TASK := by
    rw [ProxySystem.setTask_tasks, if_neg (by decide)]
  refine ⟨h.disciplined.setTask_apply hOthers (Or.inl h.watched), h.watched, h.pending, ?_, ?_, ?_, ?_,
    ?_, ?_, ?_⟩
  · intro j hOther
    dsimp only
    rw [ProxySystem.setTask_tasks, if_neg (Nat.ne_of_gt hOther)]
    exact h.others j hOther
  · intro hNot
    exact absurd hMain hNot
  all_goals dsimp only
  · intro hLoading
    rw [hMain] at hLoading
    cases hLoading
  · intro static hApplying
    rw [hMain] at hApplying
    cases hApplying
  · intro static hSending
    rw [hMain] at hSending
    cases hSending
  · rw [hMainTask]
    exact h.serving
  · intro hNot
    exact absurd rfl hNot

theorem Step.inv {s t : System} (h : s.Inv) (hStep : Step codec cfg s t) : t.Inv := by
  cases hStep with
  | mainSkip hMain =>
    refine h.serve s.watch h.watched ?_
    rw [(h.loading hMain).1]
    exact .idle
  | mainApply static hMain _ => exact h.main_apply static hMain
  | mainAccepted hMain hTask =>
    obtain ⟨task, hApplying, hFor⟩ := h.applying _ hMain
    rw [hTask] at hApplying
    cases hApplying
    have hQuiet := h.quiet (by rw [hMain]; simp)
    refine h.of_proxy_eq rfl h.watched h.pending ?_ ?_ ?_ ?_ ?_ h.watcher
    · intro _
      exact ⟨hQuiet.seen, hQuiet.sender, hQuiet.watcher, hQuiet.client, hQuiet.task⟩
    · intro hLoading
      cases hLoading
    · intro static hNot
      cases hNot
    · intro static hSending
      cases hSending
      rw [hTask]
      exact ⟨.applied _, hFor⟩
    · intro hServing
      cases hServing
  | mainRejected hMain hTask =>
    refine h.serve s.watch h.watched ?_
    rw [hTask]
    exact .applied _
  | mainSend hMain _ =>
    obtain ⟨hTask, hValid⟩ := h.sending _ hMain
    exact h.serve (s.watch.send _) hValid hTask
  | mainSendFailed hMain _ =>
    exact h.serve s.watch h.watched (h.sending _ hMain).1
  | clientOpen hClient _ =>
    refine h.client_step _ s.watch (by rw [hClient]; simp) h.watched ?_
    rintro stream pending (hPending | hPending) <;> cases hPending
  | clientReceive channels resp hClient =>
    exact h.client_step _ s.watch (by rw [hClient]; simp) h.watched fun _ _ => received_wellFormed
  | clientCompare hClient =>
    refine h.client_step _ s.watch (by rw [hClient]; simp) h.watched ?_
    intro stream pending hPending
    unfold ClientTask.compared at hPending
    split at hPending
    · rcases hPending with hPending | hPending <;> cases hPending
      exact h.pending _ _ (Or.inl hClient)
    · rcases hPending with hPending | hPending <;> cases hPending
  | clientSend hClient _ =>
    refine h.client_step _ (s.watch.send _) (by rw [hClient]; simp) (h.pending _ _ (Or.inr hClient)) ?_
    rintro stream pending (hPending | hPending) <;> cases hPending
  | clientSendFailed hClient _ =>
    refine h.client_step _ s.watch (by rw [hClient]; simp) h.watched ?_
    rintro stream pending (hPending | hPending) <;> cases hPending
  | clientLost hClient =>
    refine h.client_step _ s.watch (by rw [hClient]; simp) h.watched ?_
    rintro stream pending (hPending | hPending) <;> cases hPending
  | clientExit hClient =>
    refine h.client_step _ { s.watch with closed := true } (by rw [hClient]; simp) h.watched ?_
    rintro stream pending (hPending | hPending) <;> cases hPending
  | watcherChanged hWatcher hNew =>
    refine h.watcher_step _ _ (h.serving_of_not_quiet fun hQuiet => hNew hQuiet.seen) (h.watcher ?_)
    rw [hWatcher]
    simp
  | watcherClosed hWatcher _ hClosed =>
    refine h.watcher_step _ s.seen (h.serving_of_not_quiet fun hQuiet => ?_) (h.watcher ?_)
    · rw [hQuiet.sender] at hClosed
      cases hClosed
    · rw [hWatcher]
      simp
  | watcherApply hWatcher _ => exact h.watcher_apply hWatcher
  | watcherReturned hWatcher hTask =>
    refine h.watcher_step _ s.seen (h.serving_of_not_quiet fun hQuiet => ?_) ?_
    · rw [hQuiet.watcher] at hWatcher
      cases hWatcher
    · rw [hTask]
      exact .applied _
  | read i hOther _ => exact h.start hOther (by simp) (h.disciplined.setTask_read i)
  | forward i req hOther _ => exact h.start hOther (by simp) (h.disciplined.setTask_forward i req)
  | run up i => exact h.run up i

theorem inv_of_reachable {s : System} (h : (machine codec cfg).Reachable s) : s.Inv :=
  h.invariant (I := Inv) (fun _ hInit => Initial.inv hInit) fun _ _ hs hStep => Step.inv hs hStep

theorem Step.ready {s t : System} (h : s.Inv) (hReady : s.proxy.server.state.ready = true)
    (hStep : Step codec cfg s t) : t.proxy.server.state.ready = true := by
  cases hStep with
  | run up i => exact h.disciplined.ready_runTask up i hReady
  | _ => exact hReady

end System

/-- In every interleaving of the program: the served configuration is valid, readiness is never lost,
and a reader told of readiness is told of no conflict and of the version of a configuration that was
accepted and stored. -/
theorem readiness_safe (codec : Proto.Codec) (cfg : XdsClientConfig) {s : System}
    (h : (System.machine codec cfg).Reachable s) :
    s.proxy.server.state.config.validate = .ok () ∧
    (∀ t, Relation.ReflTransGen (System.machine codec cfg).step s t →
      s.proxy.server.state.ready = true → t.proxy.server.state.ready = true) ∧
    (∀ i result, s.proxy.tasks i = .reading (.returned result) → result.ready = true →
      result.conflicts = [] ∧ ∃ accepted ∈ s.proxy.stored, accepted.validate = .ok () ∧
        result.version = accepted.version) := by
  have hInv := System.inv_of_reachable h
  have hSound := ProxySystem.sound_of_reachable (System.proxy_reachable h)
  refine ⟨(RuntimeConfig.validate_ok_iff _).mpr hSound.config, ?_, ?_⟩
  · intro t hPath hReady
    exact Runs.stable_of_step (M := System.machine codec cfg) (I := System.Inv)
      (P := fun s => s.proxy.server.state.ready = true) (fun _ _ hs hStep => System.Step.inv hs hStep)
      (fun _ _ hs hNow hStep => System.Step.ready hs hNow hStep) hInv hReady hPath
  · intro i result hTask hReady
    obtain ⟨hNone, accepted, hStored, hVersion⟩ := hInv.disciplined.readers i _ hTask hReady
    exact ⟨hNone, accepted, hStored, (RuntimeConfig.validate_ok_iff _).mpr (hSound.stored accepted hStored),
      hVersion⟩

/-! ## A static configuration and one reader -/

def bootSystem : System :=
  ⟨bootProxy, ⟨.empty "bootstrap", 0, false⟩, .loading, .notStarted, .waiting, 0⟩

def System.runTask (i : Nat) (s : System) : System :=
  { s with proxy := s.proxy.runTask sampleUpstream i }

theorem System.reachable_iterate {codec : Proto.Codec} {cfg : XdsClientConfig} {s : System}
    (h : (machine codec cfg).Reachable s) (i n : Nat) :
    (machine codec cfg).Reachable ((System.runTask i)^[n] s) := by
  induction n with
  | zero => exact h
  | succ n ih =>
    rw [Function.iterate_succ_apply']
    exact ih.step (.run sampleUpstream i)

def staticThenRead (static : RuntimeConfig) : System :=
  let applied := (System.runTask MAIN_TASK)^[3] { bootSystem with
    main := .applying static
    proxy := bootProxy.setTask MAIN_TASK (.applying (.call static)) }
  (System.runTask 2)^[3] { applied with proxy := applied.proxy.setTask 2 (.reading .loadReady) }

theorem staticThenRead_safe :
    (staticThenRead (sampleConfig [⟨"c", 1⟩] [sampleCluster "c" []])).proxy.tasks 2 =
      .reading (.returned ⟨true, "1", []⟩) ∧
    ∃ accepted ∈ (staticThenRead (sampleConfig [⟨"c", 1⟩] [sampleCluster "c" []])).proxy.stored,
      accepted.validate = .ok () ∧ "1" = accepted.version := by
  have hBoot : (System.machine rdsListenerCodec sampleClient).Reachable bootSystem :=
    .init ⟨⟨rfl, rfl, rfl, rfl, rfl⟩, rfl, rfl, rfl, rfl, rfl⟩
  have hApply := System.reachable_iterate
    (hBoot.step (.mainApply (sampleConfig [⟨"c", 1⟩] [sampleCluster "c" []]) rfl .idle)) MAIN_TASK 3
  have hRead := System.reachable_iterate (hApply.step (.read 2 (by decide) .idle)) 2 3
  have hResult : (staticThenRead (sampleConfig [⟨"c", 1⟩] [sampleCluster "c" []])).proxy.tasks 2 =
      .reading (.returned ⟨true, "1", []⟩) := by rfl
  exact ⟨hResult, ((readiness_safe _ _ hRead).2.2 2 _ hResult rfl).2⟩

end Dxgate
