import Dxgate.App.Settling
import Dxgate.Core.Conflicts

/-! # The admin port

An operator sees the program through `/readyz`, whose handler reads the flag, the version and the conflicts
one after the other while configurations are being applied. Assembled configurations are
validated before they are sent, so of all configurations only the static one can ever be seen to have
conflicts; and as long as none has been stored, its conflicts are there to be seen.
-/

namespace Dxgate

set_option autoImplicit false

inductive AdminStatus where
  | ok
  | serviceUnavailable
  deriving DecidableEq

def readyz (readiness : Readiness) : AdminStatus × Readiness :=
  (if readiness.ready then .ok else .serviceUnavailable, readiness)

/-! ## Where conflicts come from -/

theorem Task.step_conflicts (up : Upstream) (server : ProxyServer) (task : Task) :
    (Task.step up (server, task)).1.state.conflicts = match task with
      | .applying .clearConflicts => []
      | .applying (.writeConflicts conflicts) => conflicts
      | _ => server.state.conflicts := by
  cases task with
  | idle => rfl
  | reading task => rfl
  | forwarding handler =>
    obtain ⟨counter, hState⟩ := Handler.step_state up server handler
    rw [Task.step, hState]
  | applying task => cases task <;> rfl

namespace System

/-- A run of the program to `s`, with the static configuration that `main` has loaded. -/
inductive Loads (codec : Proto.Codec) (cfg : XdsClientConfig) : Option RuntimeConfig → System → Prop where
  | init {s : System} (h : s.Initial) : Loads codec cfg none s
  | load {s : System} (h : Loads codec cfg none s) (static : RuntimeConfig) (hMain : s.main = .loading)
      (hResting : (s.proxy.tasks MAIN_TASK).Resting) :
      Loads codec cfg (some static) { s with
        main := .applying static
        proxy := s.proxy.setTask MAIN_TASK (.applying (.call static)) }
  | step {static : Option RuntimeConfig} {s t : System} (h : Loads codec cfg static s)
      (hStep : Step codec cfg s t) (hMain : ∀ other, t.main = .applying other → s.main = .applying other) :
      Loads codec cfg static t

variable {codec : Proto.Codec} {cfg : XdsClientConfig} {static : Option RuntimeConfig} {s t : System}

theorem Loads.reachable (h : Loads codec cfg static s) : (machine codec cfg).Reachable s := by
  induction h with
  | init h => exact .init h
  | load _ static hMain hResting ih => exact ih.step (.mainApply static hMain hResting)
  | step _ hStep _ ih => exact ih.step hStep

/-- The conflicts of the loaded configuration, or none. -/
def Shown (static : Option RuntimeConfig) (conflicts : List ConfigConflict) : Prop :=
  conflicts = [] ∨ ∃ loaded, static = some loaded ∧ conflicts = loaded.conflicts

theorem Shown.mono {conflicts : List ConfigConflict} (h : Shown none conflicts) : Shown static conflicts := by
  rcases h with hNone | ⟨loaded, hLoaded, _⟩
  · exact .inl hNone
  · cases hLoaded

/-- All conflicts that are stored, about to be stored or have been read. -/
structure ShowsStatic (static : Option RuntimeConfig) (s : System) : Prop where
  stored : Shown static s.proxy.server.state.conflicts
  writing : ∀ i conflicts, s.proxy.tasks i = .applying (.writeConflicts conflicts) →
    ∃ loaded, static = some loaded ∧ conflicts = loaded.conflicts
  read : ∀ i result, s.proxy.tasks i = .reading (.returned result) → Shown static result.conflicts

/-- A call of `readiness` that is under way has just begun, has waited or has made its next read. -/
theorem Step.reading (h : Step codec cfg s t) {i : Nat} {task : ReadTask}
    (hTask : t.proxy.tasks i = .reading task) :
    task = .loadReady ∨ ∃ before, s.proxy.tasks i = .reading before ∧
      (task = before ∨ task = before.step s.proxy.server.state) := by
  have hSet {j : Nat} {call : Task} (hCall : ∀ reader, call = .reading reader → reader = .loadReady)
      (hNow : (s.proxy.setTask j call).tasks i = .reading task) :
      task = .loadReady ∨ ∃ before, s.proxy.tasks i = .reading before ∧
        (task = before ∨ task = before.step s.proxy.server.state) := by
    rw [ProxySystem.setTask_tasks] at hNow
    split at hNow
    · exact .inl (hCall task hNow)
    · exact .inr ⟨task, hNow, .inl rfl⟩
  cases h with
  | mainApply _ _ _ => exact hSet (by simp) hTask
  | watcherApply _ _ => exact hSet (by simp) hTask
  | read j _ _ => exact hSet (fun reader hReader => by cases hReader; rfl) hTask
  | forward j req _ _ => exact hSet (by simp) hTask
  | run up j =>
    rw [ProxySystem.runTask_tasks] at hTask
    split at hTask
    · rename_i hSelf
      cases hBefore : s.proxy.tasks j with
      | reading before =>
        rw [hBefore] at hTask
        cases hTask
        exact .inr ⟨before, hSelf ▸ hBefore, .inr rfl⟩
      | _ =>
        rw [hBefore] at hTask
        cases hTask
    · exact .inr ⟨task, hTask, .inl rfl⟩
  | _ => exact .inr ⟨task, hTask, .inl rfl⟩

/-- What a reader returns has been returned before, or was stored when it made its last read. -/
theorem ShowsStatic.read_step (h : s.ShowsStatic static) (hStep : Step codec cfg s t) (i : Nat)
    (result : Readiness) (hTask : t.proxy.tasks i = .reading (.returned result)) :
    Shown static result.conflicts := by
  rcases Step.reading hStep hTask with hBegun | ⟨before, hBefore, rfl | hNext⟩
  · cases hBegun
  · exact h.read i result hBefore
  · cases before with
    | loadReady => cases hNext
    | readVersion ready => cases hNext
    | readConflicts ready version =>
      cases hNext
      exact h.stored
    | returned last =>
      cases hNext
      exact h.read i result hBefore

theorem ShowsStatic.setTask (h : s.ShowsStatic static)
    (hRead : ∀ i result, t.proxy.tasks i = .reading (.returned result) → Shown static result.conflicts)
    (i : Nat) {task : Task} (hWriting : ∀ conflicts, task = .applying (.writeConflicts conflicts) →
      ∃ loaded, static = some loaded ∧ conflicts = loaded.conflicts)
    (hProxy : t.proxy = s.proxy.setTask i task) : t.ShowsStatic static := by
  refine ⟨?_, ?_, hRead⟩
  · rw [hProxy]
    exact h.stored
  · intro j conflicts hTask
    rw [hProxy, ProxySystem.setTask_tasks] at hTask
    split at hTask
    · exact hWriting conflicts hTask
    · exact h.writing j conflicts hTask

theorem ShowsStatic.run (h : s.ShowsStatic static)
    (hRead : ∀ i result, t.proxy.tasks i = .reading (.returned result) → Shown static result.conflicts)
    (up : Upstream) (i : Nat) (hProxy : t.proxy = s.proxy.runTask up i) : t.ShowsStatic static := by
  refine ⟨?_, ?_, hRead⟩
  · rw [hProxy]
    change Shown static (Task.step up (s.proxy.server, s.proxy.tasks i)).1.state.conflicts
    rw [Task.step_conflicts]
    split
    · exact .inl rfl
    · rename_i conflicts hTask
      exact .inr (h.writing i conflicts hTask)
    · exact h.stored
  · intro j conflicts hTask
    rw [hProxy, ProxySystem.runTask_tasks] at hTask
    split at hTask
    · -- no step of a call leads to its beginning
      cases hBefore : s.proxy.tasks i with
      | applying task =>
        rw [hBefore] at hTask
        cases task <;> cases hTask
      | _ =>
        rw [hBefore] at hTask
        cases hTask
    · exact h.writing j conflicts hTask

theorem ShowsStatic.step (h : s.ShowsStatic static) (hInv : s.Inv) (hStep : Step codec cfg s t)
    (hMain : ∀ other, t.main = .applying other → s.main = .applying other) : t.ShowsStatic static := by
  have hRead := h.read_step hStep
  cases hStep with
  | mainApply other hLoading _ =>
    have hSame := hMain other rfl
    rw [hLoading] at hSame
    cases hSame
  | watcherApply _ _ =>
    refine h.setTask hRead WATCHER_TASK ?_ rfl
    intro conflicts hTask
    rw [ApplyTask.call, (RuntimeConfig.validate_ok_iff _).mpr hInv.watched] at hTask
    cases hTask
  | read i _ _ => exact h.setTask hRead i (by simp) rfl
  | forward i req _ _ => exact h.setTask hRead i (by simp) rfl
  | run up i => exact h.run hRead up i rfl
  | _ => exact ⟨h.stored, h.writing, hRead⟩

theorem Loads.showsStatic (h : Loads codec cfg static s) : s.ShowsStatic static := by
  induction h with
  | init hInit =>
    obtain ⟨⟨_, hConflicts, _, hTasks, _⟩, _⟩ := hInit
    refine ⟨.inl hConflicts, ?_, ?_⟩
    · intro i conflicts hTask
      rw [hTasks] at hTask
      cases hTask
    · intro i result hTask
      rw [hTasks] at hTask
      cases hTask
  | @load s _ loaded hMain hResting ih =>
    have hMore : s.ShowsStatic (some loaded) := by
      refine ⟨ih.stored.mono, ?_, fun i result hTask => (ih.read i result hTask).mono⟩
      intro i conflicts hTask
      obtain ⟨_, hNone, _⟩ := ih.writing i conflicts hTask
      cases hNone
    have hStep : Step codec cfg s _ := .mainApply loaded hMain hResting
    refine hMore.setTask (hMore.read_step hStep) MAIN_TASK ?_ rfl
    intro conflicts hTask
    rw [ApplyTask.call] at hTask
    split at hTask
    · cases hTask
    · rename_i found hError
      cases hTask
      exact ⟨loaded, rfl, (RuntimeConfig.validate_error_iff.mp hError).2⟩
  | step hBefore hStep hMain ih => exact ih.step (inv_of_reachable hBefore.reachable) hStep hMain

/-- As long as nothing has been stored, the loaded configuration is still to be looked at, or has been
rejected and its conflicts are stored. -/
def Awaits (static : Option RuntimeConfig) (s : System) : Prop :=
  ∀ loaded, static = some loaded → s.proxy.stored = [] →
    s.proxy.tasks MAIN_TASK = .applying (.call loaded) ∨
      (s.proxy.server.state.conflicts = loaded.conflicts ∧ ¬ loaded.WellFormed)

theorem Awaits.run (h : s.Awaits static) (hInv : s.Inv) (hShows : s.ShowsStatic static) (up : Upstream)
    (i : Nat) : ({ s with proxy := s.proxy.runTask up i } : System).Awaits static := by
  intro loaded hLoaded hStored
  obtain ⟨hNone, hStores⟩ := List.append_eq_nil_iff.mp hStored
  rcases h loaded hLoaded hNone with hCall | ⟨hConflicts, hInvalid⟩
  · by_cases hMain : i = MAIN_TASK
    · subst hMain
      right
      rw [hCall, ApplyTask.call] at hStores
      split at hStores
      · cases hStores
      · rename_i conflicts hError
        obtain ⟨hInvalid, rfl⟩ := RuntimeConfig.validate_error_iff.mp hError
        refine ⟨?_, hInvalid⟩
        change (Task.step up (s.proxy.server, s.proxy.tasks MAIN_TASK)).1.state.conflicts = _
        rw [Task.step_conflicts, hCall, ApplyTask.call, hError]
    · left
      rw [ProxySystem.runTask_tasks, if_neg fun hEq => hMain hEq.symm]
      exact hCall
  · right
    refine ⟨?_, hInvalid⟩
    change (Task.step up (s.proxy.server, s.proxy.tasks i)).1.state.conflicts = _
    rw [Task.step_conflicts]
    split
    · rename_i hTask
      exact absurd hNone (hInv.disciplined.clearing i hTask)
    · rename_i conflicts hTask
      obtain ⟨other, hOther, rfl⟩ := hShows.writing i conflicts hTask
      rw [hLoaded] at hOther
      cases hOther
      rfl
    · exact hConflicts

theorem Awaits.of_proxy (h : s.Awaits static) (hServer : t.proxy.server = s.proxy.server)
    (hStored : t.proxy.stored = s.proxy.stored)
    (hTask : t.proxy.tasks MAIN_TASK = s.proxy.tasks MAIN_TASK) : t.Awaits static := by
  intro loaded hLoaded hNone
  rw [hStored] at hNone
  rw [hServer, hTask]
  exact h loaded hLoaded hNone

theorem Awaits.step (h : s.Awaits static) (hInv : s.Inv) (hShows : s.ShowsStatic static)
    (hStep : Step codec cfg s t) (hMain : ∀ other, t.main = .applying other → s.main = .applying other) :
    t.Awaits static := by
  have hOther {i : Nat} (hi : WATCHER_TASK ≤ i) (task : Task) :
      (s.proxy.setTask i task).tasks MAIN_TASK = s.proxy.tasks MAIN_TASK := by
    rw [ProxySystem.setTask_tasks, if_neg]
    rintro rfl
    exact absurd hi (by decide)
  cases hStep with
  | mainApply other hLoading _ =>
    have hSame := hMain other rfl
    rw [hLoading] at hSame
    cases hSame
  | watcherApply _ _ => exact h.of_proxy rfl rfl (hOther (Nat.le_refl _) _)
  | read i hi _ => exact h.of_proxy rfl rfl (hOther hi.le _)
  | forward i req hi _ => exact h.of_proxy rfl rfl (hOther hi.le _)
  | run up i => exact h.run hInv hShows up i
  | _ => exact h.of_proxy rfl rfl rfl

theorem Loads.awaits (h : Loads codec cfg static s) : s.Awaits static := by
  induction h with
  | init _ =>
    intro loaded hLoaded
    cases hLoaded
  | load _ static _ _ _ =>
    intro loaded hLoaded _
    cases hLoaded
    left
    rw [ProxySystem.setTask_tasks, if_pos rfl]
  | step hBefore hStep hMain ih =>
    exact ih.step (inv_of_reachable hBefore.reachable) hBefore.showsStatic hStep hMain

theorem Loads.loading (h : Loads codec cfg static s) (hMain : s.main = .loading) : static = none := by
  induction h with
  | init _ => rfl
  | load _ _ _ _ _ => cases hMain
  | step _ hStep _ ih =>
    apply ih
    cases hStep with
    | mainSkip _ => cases hMain
    | mainApply _ _ _ => cases hMain
    | mainAccepted _ _ => cases hMain
    | mainRejected _ _ => cases hMain
    | mainSend _ _ => cases hMain
    | mainSendFailed _ _ => cases hMain
    | _ => exact hMain

/-- A step loads the static configuration, or leaves it at what has been loaded. -/
theorem Step.loads (h : Step codec cfg s t) :
    (∃ loaded, s.main = .loading ∧ (s.proxy.tasks MAIN_TASK).Resting ∧ t = { s with
      main := .applying loaded
      proxy := s.proxy.setTask MAIN_TASK (.applying (.call loaded)) }) ∨
    ∀ other, t.main = .applying other → s.main = .applying other := by
  cases h with
  | mainApply loaded hMain hResting => exact .inl ⟨loaded, hMain, hResting, rfl⟩
  | mainSkip _ => exact .inr nofun
  | mainAccepted _ _ => exact .inr nofun
  | mainRejected _ _ => exact .inr nofun
  | mainSend _ _ => exact .inr nofun
  | mainSendFailed _ _ => exact .inr nofun
  | _ => exact .inr fun _ => id

theorem exists_loads (h : (machine codec cfg).Reachable s) : ∃ static, Loads codec cfg static s := by
  refine h.invariant (I := fun s => ∃ static, Loads codec cfg static s) ?_ ?_
  · intro s hInit
    exact ⟨none, .init hInit⟩
  · rintro s t ⟨static, hLoads⟩ hStep
    rcases Step.loads hStep with ⟨loaded, hMain, hResting, rfl⟩ | hMain
    · rw [hLoads.loading hMain] at hLoads
      exact ⟨some loaded, hLoads.load loaded hMain hResting⟩
    · exact ⟨static, hLoads.step hStep hMain⟩

theorem call_not_resting (loaded : RuntimeConfig) : ¬ (Task.applying (.call loaded)).Resting := by
  intro hResting
  obtain ⟨result, hReturned⟩ := hResting.returned
  rw [ApplyTask.call] at hReturned
  split at hReturned <;> cases hReturned

/-- What there is to read once `main` serves, as long as nothing has been stored. -/
theorem Loads.readiness_eq {loaded : RuntimeConfig} (h : Loads codec cfg (some loaded) s)
    (hMain : s.main = .serving) (hStored : s.proxy.stored = []) :
    loaded.validate = .error loaded.report ∧
      s.proxy.server.state.readiness = ⟨false, "bootstrap", loaded.report⟩ := by
  have hInv := inv_of_reachable h.reachable
  rcases h.awaits loaded rfl hStored with hCall | ⟨hConflicts, hInvalid⟩
  · have hResting := hInv.serving hMain
    rw [hCall] at hResting
    exact absurd hResting (call_not_resting loaded)
  · have hReady : s.proxy.server.state.ready = false := by
      by_contra hReady
      rw [Bool.not_eq_false] at hReady
      exact (hInv.disciplined.ready hReady).2 hStored
    have hConfig := ProxySystem.config_eq_last_stored (proxy_reachable h.reachable)
    rw [hStored] at hConfig
    rw [RuntimeConfig.conflicts_eq_report] at hConflicts
    constructor
    · apply RuntimeConfig.validate_error_iff.mpr
      exact ⟨hInvalid, (RuntimeConfig.conflicts_eq_report loaded).symm⟩
    · rw [ProxyState.readiness, hReady, hConflicts, hConfig]
      rfl

theorem Loads.step_serving (h : Loads codec cfg static s) (hMain : s.main = .serving)
    (hStep : Step codec cfg s t) : Loads codec cfg static t := by
  rcases Step.loads hStep with ⟨_, hLoading, _, _⟩ | hSame
  · rw [hMain] at hLoading
    cases hLoading
  · exact h.step hStep hSame

end System

/-- A reader who has seen nothing but a rejected configuration so far. -/
def ReadTask.Reports (report : List ConfigConflict) : ReadTask → Prop
  | .loadReady => True
  | .readVersion ready => ready = false
  | .readConflicts ready version => ready = false ∧ version = "bootstrap"
  | .returned result => result = ⟨false, "bootstrap", report⟩

theorem ReadTask.Reports.step {report : List ConfigConflict} {task : ReadTask} (h : task.Reports report)
    {st : ProxyState} (hState : st.readiness = ⟨false, "bootstrap", report⟩) :
    (task.step st).Reports report := by
  have hReady : st.ready = false := congrArg Readiness.ready hState
  have hVersion : st.config.version = "bootstrap" := congrArg Readiness.version hState
  have hConflicts : st.conflicts = report := congrArg Readiness.conflicts hState
  cases task with
  | loadReady => exact hReady
  | readVersion ready => exact ⟨h, hVersion⟩
  | readConflicts ready version =>
    obtain ⟨rfl, rfl⟩ := h
    rw [ReadTask.step, hConflicts]
    exact rfl
  | returned result => exact h

namespace System

variable {codec : Proto.Codec} {cfg : XdsClientConfig} {s t : System}

/-- While nothing is stored, whatever a task reads after the start is about the rejected configuration. -/
theorem Loads.reports {loaded : RuntimeConfig} (h : Loads codec cfg (some loaded) s)
    (hMain : s.main = .serving) {i : Nat}
    (hReader : ∀ task, s.proxy.tasks i = .reading task → task.Reports loaded.report)
    (hPath : Relation.ReflTransGen (machine codec cfg).step s t) :
    Loads codec cfg (some loaded) t ∧ t.main = .serving ∧ (t.proxy.stored = [] →
      ∀ task, t.proxy.tasks i = .reading task → task.Reports loaded.report) := by
  induction hPath with
  | refl => exact ⟨h, hMain, fun _ => hReader⟩
  | tail _ hLast ih =>
    obtain ⟨hLoads, hServing, hReads⟩ := ih
    refine ⟨hLoads.step_serving hServing hLast, Step.serving hLast hServing, ?_⟩
    intro hStored task hTask
    have hNone := List.length_eq_zero_iff.mp
      (Nat.le_zero.mp ((Step.stored_le hLast).trans (by rw [hStored]; exact le_rfl)))
    rcases Step.reading hLast hTask with rfl | ⟨before, hBefore, rfl | rfl⟩
    · trivial
    · exact hReads hNone _ hBefore
    · exact (hReads hNone before hBefore).step (hLoads.readiness_eq hServing hNone).2

end System

/-- In every interleaving, a reader who is told of conflicts is told not to be ready and gets the report on
the static configuration. Once `main` has loaded one and serves, this is the answer to every call that begins
and that returns before any configuration has been stored. -/
theorem readyz_reports_static (codec : Proto.Codec) (cfg : XdsClientConfig) :
    (∀ s, (System.machine codec cfg).Reachable s → ∃ static, System.Loads codec cfg static s) ∧
    ∀ static s, System.Loads codec cfg static s →
      (∀ i result, s.proxy.tasks i = .reading (.returned result) → result.conflicts ≠ [] →
        (readyz result).1 = .serviceUnavailable ∧ ∃ loaded, static = some loaded ∧
          loaded.validate = .error result.conflicts ∧ result.conflicts = loaded.report) ∧
      ∀ loaded, static = some loaded → s.main = .serving → ∀ i, WATCHER_TASK < i →
        (s.proxy.tasks i).Resting → ∀ t, Relation.ReflTransGen (System.machine codec cfg).step
          { s with proxy := s.proxy.setTask i (.reading .loadReady) } t → t.proxy.stored = [] →
        loaded.validate = .error loaded.report ∧
          ∀ result, t.proxy.tasks i = .reading (.returned result) →
            readyz result = (.serviceUnavailable, ⟨false, "bootstrap", loaded.report⟩) := by
  refine ⟨fun s hReachable => System.exists_loads hReachable, ?_⟩
  intro static s hLoads
  constructor
  · intro i result hTask hConflicts
    have hInv := System.inv_of_reachable hLoads.reachable
    have hReady : result.ready = false := by
      by_contra hReady
      rw [Bool.not_eq_false] at hReady
      exact hConflicts (hInv.disciplined.readers i _ hTask hReady).1
    rcases hLoads.showsStatic.read i result hTask with hNone | ⟨loaded, hLoaded, hFound⟩
    · exact absurd hNone hConflicts
    · refine ⟨?_, loaded, hLoaded, ?_, ?_⟩
      · rw [readyz, hReady]
        rfl
      · apply RuntimeConfig.validate_error_iff.mpr
        refine ⟨?_, hFound⟩
        rw [← RuntimeConfig.conflicts_nil_iff, ← hFound]
        exact hConflicts
      · rw [hFound, RuntimeConfig.conflicts_eq_report]
  · rintro loaded rfl hMain i hOther hResting t hPath hStored
    have hBegun := hLoads.step_serving hMain (.read i hOther hResting)
    have hReader (task : ReadTask) (hTask : (s.proxy.setTask i (.reading .loadReady)).tasks i = .reading task) :
        task.Reports loaded.report := by
      rw [ProxySystem.setTask_tasks, if_pos rfl] at hTask
      cases hTask
      trivial
    obtain ⟨hLater, hServing, hReads⟩ := hBegun.reports hMain hReader hPath
    refine ⟨(hLater.readiness_eq hServing hStored).1, ?_⟩
    intro result hTask
    have hResult : result = ⟨false, "bootstrap", loaded.report⟩ := hReads hStored _ hTask
    rw [hResult]
    rfl

/-! ## A static configuration without its cluster -/

def clusterlessStatic : RuntimeConfig := sampleConfig [⟨"c", 1⟩] []

def rejectedStatic : System :=
  { (System.runTask MAIN_TASK)^[3] { bootSystem with
      main := .applying clusterlessStatic
      proxy := bootProxy.setTask MAIN_TASK (.applying (.call clusterlessStatic)) } with
    main := .serving
    client := .disconnected }

theorem rejectedStatic_loads : System.Loads rdsListenerCodec sampleClient (some clusterlessStatic) rejectedStatic := by
  have hBoot : System.Loads rdsListenerCodec sampleClient none bootSystem :=
    .init ⟨⟨rfl, rfl, rfl, rfl, rfl⟩, rfl, rfl, rfl, rfl, rfl⟩
  have hLoaded := hBoot.load clusterlessStatic rfl .idle
  have hRun := ((hLoaded.step (.run sampleUpstream MAIN_TASK) fun _ => id).step
    (.run sampleUpstream MAIN_TASK) fun _ => id).step (.run sampleUpstream MAIN_TASK) fun _ => id
  exact hRun.step (.mainRejected rfl rfl) nofun

/-- A reader begins, then the client opens its stream, then the reader makes its reads. -/
def rejectedRead : System :=
  (System.runTask 2)^[3] { rejectedStatic with
    proxy := rejectedStatic.proxy.setTask 2 (.reading .loadReady)
    client := .streaming (openStream .alwaysOpen sampleClient).1 }

theorem rejectedStatic_reported : ∃ result, rejectedRead.proxy.tasks 2 = .reading (.returned result) ∧
    readyz result = (.serviceUnavailable, ⟨false, "bootstrap", clusterlessStatic.report⟩) ∧
    clusterlessStatic.report ≠ [] := by
  have hOpened : Relation.ReflTransGen (System.machine rdsListenerCodec sampleClient).step
      { rejectedStatic with proxy := rejectedStatic.proxy.setTask 2 (.reading .loadReady) } _ :=
    .single (.clientOpen rfl (rfl : openStream .alwaysOpen sampleClient = (_, none)))
  have hRead := ((hOpened.tail (.run sampleUpstream 2)).tail (.run sampleUpstream 2)).tail (.run sampleUpstream 2)
  have hReported := ((readyz_reports_static rdsListenerCodec sampleClient).2 _ _ rejectedStatic_loads).2 _ rfl
    rfl 2 (by decide) .idle rejectedRead hRead rfl
  exact ⟨_, rfl, hReported.2 _ rfl, by decide⟩

end Dxgate
