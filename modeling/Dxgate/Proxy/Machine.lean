import Dxgate.Lib.Runs
import Dxgate.Proxy.Forward

/-! # The proxy under concurrency

Any number of tasks apply configurations, report readiness and handle requests. Each access to a lock,
to an atomic or to the client pool is one step, and the steps of different tasks interleave freely. The
state before and after each access is the one of the sequential functions.
-/

namespace Dxgate

set_option autoImplicit false

/-- `apply_config` between its writes. -/
inductive ApplyTask where
  | writeConfig (cfg : RuntimeConfig)
  | clearConflicts
  | storeReady
  | writeConflicts (conflicts : List ConfigConflict)
  | storeNotReady (conflicts : List ConfigConflict)
  | returned (result : Except (List ConfigConflict) Unit)
  deriving DecidableEq

def ApplyTask.call (cfg : RuntimeConfig) : ApplyTask :=
  match cfg.validate with
  | .ok () => .writeConfig cfg
  | .error conflicts => .writeConflicts conflicts

def ApplyTask.step : ProxyState × ApplyTask → ProxyState × ApplyTask
  | (st, .writeConfig cfg) => ({ st with config := cfg }, .clearConflicts)
  | (st, .clearConflicts) => ({ st with conflicts := [] }, .storeReady)
  | (st, .storeReady) => ({ st with ready := true }, .returned (.ok ()))
  | (st, .writeConflicts conflicts) => ({ st with conflicts := conflicts }, .storeNotReady conflicts)
  | (st, .storeNotReady conflicts) => ({ st with ready := false }, .returned (.error conflicts))
  | (st, .returned result) => (st, .returned result)

/-- `readiness` between its reads. -/
inductive ReadTask where
  | loadReady
  | readVersion (ready : Bool)
  | readConflicts (ready : Bool) (version : String)
  | returned (result : Readiness)
  deriving DecidableEq

def ReadTask.step (st : ProxyState) : ReadTask → ReadTask
  | .loadReady => .readVersion st.ready
  | .readVersion ready => .readConflicts ready st.config.version
  | .readConflicts ready version => .returned ⟨ready, version, st.conflicts⟩
  | .returned result => .returned result

theorem ApplyTask.step_applyConfig (st : ProxyState) (cfg : RuntimeConfig) :
    ApplyTask.step^[3] (st, .call cfg) = ((st.applyConfig cfg).1, .returned (st.applyConfig cfg).2) := by
  simp only [Function.iterate_succ, Function.iterate_zero, Function.comp_apply, id_eq]
  rw [ApplyTask.call, ProxyState.applyConfig]
  cases cfg.validate with
  | ok _ => rfl
  | error conflicts => rfl

theorem ReadTask.step_readiness (st : ProxyState) :
    (ReadTask.step st)^[3] .loadReady = .returned st.readiness := rfl

inductive Task where
  | idle
  | applying (task : ApplyTask)
  | reading (task : ReadTask)
  | forwarding (handler : Handler)

/-- The calls that other parts of the program make on the proxy. -/
inductive Task.Call : Task → Prop where
  | apply (cfg : RuntimeConfig) : Call (.applying (.call cfg))
  | read : Call (.reading .loadReady)
  | forward (req : Request) : Call (.forwarding (.received req))

/-- No call is under way. -/
inductive Task.Resting : Task → Prop where
  | idle : Resting .idle
  | applied (result : Except (List ConfigConflict) Unit) : Resting (.applying (.returned result))
  | read (result : Readiness) : Resting (.reading (.returned result))
  | answered (out : Forwarded) : Resting (.forwarding (.answered out))

def Task.step (up : Upstream) : ProxyServer × Task → ProxyServer × Task
  | (server, .idle) => (server, .idle)
  | (server, .applying task) =>
    ({ server with state := (ApplyTask.step (server.state, task)).1 },
      .applying (ApplyTask.step (server.state, task)).2)
  | (server, .reading task) => (server, .reading (task.step server.state))
  | (server, .forwarding handler) =>
    ((Handler.step up (server, handler)).1, .forwarding (Handler.step up (server, handler)).2)

/-- The configuration that the next access of the task stores. -/
def Task.stores : Task → List RuntimeConfig
  | .applying (.writeConfig cfg) => [cfg]
  | _ => []

structure ProxySystem where
  server : ProxyServer
  tasks : Nat → Task
  /-- Every configuration that has been stored so far. -/
  stored : List RuntimeConfig

namespace ProxySystem

def setTask (s : ProxySystem) (i : Nat) (task : Task) : ProxySystem :=
  { s with tasks := Function.update s.tasks i task }

/-- Task `i` makes its next access. -/
def runTask (up : Upstream) (i : Nat) (s : ProxySystem) : ProxySystem where
  server := (Task.step up (s.server, s.tasks i)).1
  tasks := Function.update s.tasks i (Task.step up (s.server, s.tasks i)).2
  stored := s.stored ++ (s.tasks i).stores

/-- As `main` creates the proxy, but with any counter value. -/
def Initial (s : ProxySystem) : Prop :=
  s.server.state.config = .empty "bootstrap" ∧ s.server.state.conflicts = [] ∧
    s.server.state.ready = false ∧ s.tasks = (fun _ => .idle) ∧ s.stored = []

inductive Step : ProxySystem → ProxySystem → Prop where
  | call {s : ProxySystem} (i : Nat) {task : Task} (hResting : (s.tasks i).Resting) (hCall : task.Call) :
      Step s (s.setTask i task)
  | run {s : ProxySystem} (up : Upstream) (i : Nat) : Step s (s.runTask up i)

def machine : Runs.Machine ProxySystem := ⟨Initial, Step⟩

@[simp] theorem setTask_server (s : ProxySystem) (i : Nat) (task : Task) :
    (s.setTask i task).server = s.server := rfl

@[simp] theorem setTask_stored (s : ProxySystem) (i : Nat) (task : Task) :
    (s.setTask i task).stored = s.stored := rfl

theorem setTask_tasks (s : ProxySystem) (i j : Nat) (task : Task) :
    (s.setTask i task).tasks j = if j = i then task else s.tasks j := by
  simp [setTask, Function.update_apply]

theorem runTask_tasks (s : ProxySystem) (up : Upstream) (i j : Nat) :
    (s.runTask up i).tasks j = if j = i then (Task.step up (s.server, s.tasks i)).2 else s.tasks j := by
  simp [runTask, Function.update_apply]

end ProxySystem

/-! ## No dangling destination -/

def Handler.Sound : Handler → Prop
  | .routed req cfg clusters => cfg.WellFormed ∧ ∃ route,
      cfg.routeFor HTTP_LISTENER_PORT req.matchInput = .ok route ∧ clusters = route.weightedClusters
  | .answered out => ∀ failure, out.reply = .error failure → failure.status = .serviceUnavailable →
      ∃ name, failure.message = (DxgateError.noHealthyEndpoints name).message
  | _ => True

def Task.Sound : Task → Prop
  | .applying (.writeConfig cfg) => cfg.WellFormed
  | .forwarding handler => handler.Sound
  | _ => True

/-- The stored configuration, and each one on its way there or read from there, is well formed. -/
structure ProxySystem.Sound (s : ProxySystem) : Prop where
  config : s.server.state.config.WellFormed
  stored : ∀ cfg ∈ s.stored, cfg.WellFormed
  tasks : ∀ i, (s.tasks i).Sound

theorem pickCluster_resolves {cfg : RuntimeConfig} {req : Request} {route : Route}
    (hValid : cfg.WellFormed) (hRoute : cfg.routeFor HTTP_LISTENER_PORT req.matchInput = .ok route)
    (st : ProxyState) : ∃ i weighted cluster,
      (st.pickCluster route.weightedClusters).2 = some (i, weighted) ∧
        route.weightedClusters[i]? = some weighted ∧ cfg.cluster weighted.name = some cluster := by
  obtain ⟨listener, hListener, vh, hVh, hMem⟩ := RuntimeConfig.routeFor_mem hRoute
  obtain ⟨i, weighted, hPick, hGet⟩ :=
    st.pickCluster_isSome (hValid.destinations listener hListener vh hVh route hMem)
  obtain ⟨cluster, hCluster⟩ := RuntimeConfig.cluster_isSome
    (hValid.references listener hListener vh hVh route hMem weighted (List.mem_of_getElem? hGet))
  exact ⟨i, weighted, cluster, hPick, hGet, hCluster⟩

theorem Handler.step_state (up : Upstream) (server : ProxyServer) (handler : Handler) :
    ∃ counter, (Handler.step up (server, handler)).1.state =
      { server.state with pickerCounter := counter } := by
  cases handler with
  | received req =>
    simp only [Handler.step]
    split <;> exact ⟨_, rfl⟩
  | routed req cfg clusters =>
    obtain ⟨counter, hState⟩ := server.state.pickCluster_state clusters
    refine ⟨counter, ?_⟩
    simp only [Handler.step]
    split <;> exact hState
  | resolved req i cluster =>
    obtain ⟨counter, hState⟩ := server.state.pickEndpoint_state cluster.name cluster.endpoints
    refine ⟨counter, ?_⟩
    simp only [Handler.step]
    split <;> rename_i hPick <;> rw [hPick] at hState <;> exact hState
  | targeted req target => exact ⟨_, dispatch_state up server target req⟩
  | answered out => exact ⟨_, rfl⟩

theorem Handler.step_sound (up : Upstream) {server : ProxyServer} {handler : Handler}
    (hConfig : server.state.config.WellFormed) (h : handler.Sound) :
    (Handler.step up (server, handler)).2.Sound := by
  cases handler with
  | received req =>
    cases hRoute : server.state.config.routeFor HTTP_LISTENER_PORT req.matchInput with
    | error err =>
      simp only [Handler.step, selectClusters, hRoute]
      intro failure hReply hStatus
      cases hReply
      cases hStatus
    | ok route =>
      simp only [Handler.step, selectClusters, hRoute]
      exact ⟨hConfig, route, hRoute, rfl⟩
  | routed req cfg clusters =>
    obtain ⟨hValid, route, hRoute, rfl⟩ := h
    obtain ⟨i, weighted, cluster, hPick, _, hCluster⟩ := pickCluster_resolves hValid hRoute server.state
    simp only [Handler.step, hPick, resolveCluster, hCluster]
    trivial
  | resolved req i cluster =>
    simp only [Handler.step]
    split
    · rename_i st err hPick
      intro failure hReply _
      cases hReply
      have hError : (server.state.pickEndpoint cluster.name cluster.endpoints).2 = .error err := by
        rw [hPick]
      rw [(ProxyState.pickEndpoint_error hError).1]
      exact ⟨cluster.name, rfl⟩
    · trivial
  | targeted req target =>
    simp only [Handler.step]
    intro failure hReply hStatus
    rw [dispatch_failure hReply] at hStatus
    cases hStatus
  | answered out => exact h

theorem ApplyTask.call_sound (cfg : RuntimeConfig) : (Task.applying (.call cfg)).Sound := by
  rw [ApplyTask.call]
  split
  · rename_i hValid
    exact (RuntimeConfig.validate_ok_iff cfg).mp hValid
  · trivial

theorem ApplyTask.step_config_wellFormed {st : ProxyState} {task : ApplyTask}
    (hConfig : st.config.WellFormed) (h : (Task.applying task).Sound) :
    (ApplyTask.step (st, task)).1.config.WellFormed ∧
      (Task.applying (ApplyTask.step (st, task)).2).Sound := by
  cases task with
  | writeConfig cfg => exact ⟨h, trivial⟩
  | clearConflicts => exact ⟨hConfig, trivial⟩
  | storeReady => exact ⟨hConfig, trivial⟩
  | writeConflicts conflicts => exact ⟨hConfig, trivial⟩
  | storeNotReady conflicts => exact ⟨hConfig, trivial⟩
  | returned result => exact ⟨hConfig, trivial⟩

theorem Task.step_sound (up : Upstream) {server : ProxyServer} {task : Task}
    (hConfig : server.state.config.WellFormed) (h : task.Sound) :
    (Task.step up (server, task)).1.state.config.WellFormed ∧ (Task.step up (server, task)).2.Sound := by
  cases task with
  | idle => exact ⟨hConfig, h⟩
  | applying task => exact ApplyTask.step_config_wellFormed hConfig h
  | reading task => exact ⟨hConfig, h⟩
  | forwarding handler =>
    obtain ⟨counter, hState⟩ := Handler.step_state up server handler
    refine ⟨?_, Handler.step_sound up hConfig h⟩
    rw [Task.step, hState]
    exact hConfig

namespace ProxySystem

theorem Initial.sound {s : ProxySystem} (h : s.Initial) : s.Sound := by
  obtain ⟨hConfig, _, _, hTasks, hStored⟩ := h
  refine ⟨?_, ?_, ?_⟩
  · rw [hConfig]
    exact RuntimeConfig.empty_wellFormed _
  · rw [hStored]
    intro cfg hMem
    cases hMem
  · intro i
    rw [hTasks]
    trivial

theorem Step.sound {s t : ProxySystem} (hs : s.Sound) (h : Step s t) : t.Sound := by
  cases h with
  | call i hResting hCall =>
    refine ⟨hs.config, hs.stored, ?_⟩
    intro j
    rw [setTask_tasks]
    split
    · cases hCall with
      | apply cfg => exact ApplyTask.call_sound cfg
      | read => trivial
      | forward req => trivial
    · exact hs.tasks j
  | run up i =>
    have hTask := hs.tasks i
    have hStep := Task.step_sound up hs.config hTask
    refine ⟨hStep.1, ?_, ?_⟩
    · intro cfg hMem
      rcases List.mem_append.mp hMem with hOld | hNew
      · exact hs.stored cfg hOld
      · unfold Task.stores at hNew
        split at hNew
        · rename_i hWrite
          rw [hWrite] at hTask
          rw [List.mem_singleton.mp hNew]
          exact hTask
        · cases hNew
    · intro j
      rw [runTask_tasks]
      split
      · exact hStep.2
      · exact hs.tasks j

theorem sound_of_reachable {s : ProxySystem} (h : machine.Reachable s) : s.Sound :=
  h.invariant (I := Sound) (fun _ hInit => Initial.sound hInit) fun _ _ hs hStep => Step.sound hs hStep

end ProxySystem

/-! ## What is stored -/

namespace ProxySystem

theorem runTask_write {s : ProxySystem} (up : Upstream) {i : Nat} {cfg : RuntimeConfig}
    (h : s.tasks i = .applying (.writeConfig cfg)) :
    (s.runTask up i).stored = s.stored ++ [cfg] ∧ (s.runTask up i).server.state.config = cfg ∧
      (s.runTask up i).tasks i = .applying .clearConflicts := by
  refine ⟨?_, ?_, ?_⟩
  · rw [runTask, h]
    rfl
  · rw [runTask, h]
    rfl
  · rw [runTask_tasks, if_pos rfl, h]
    rfl

theorem runTask_keeps {s : ProxySystem} (up : Upstream) {i : Nat}
    (h : ∀ cfg, s.tasks i ≠ .applying (.writeConfig cfg)) :
    (s.runTask up i).stored = s.stored ∧
      (s.runTask up i).server.state.config = s.server.state.config := by
  rw [runTask]
  cases hTask : s.tasks i with
  | idle => exact ⟨List.append_nil _, rfl⟩
  | reading reader => exact ⟨List.append_nil _, rfl⟩
  | forwarding handler =>
    obtain ⟨counter, hState⟩ := Handler.step_state up s.server handler
    refine ⟨List.append_nil _, ?_⟩
    simp only [Task.step, hState]
  | applying task =>
    cases task with
    | writeConfig cfg => exact absurd hTask (h cfg)
    | _ => exact ⟨List.append_nil _, rfl⟩

/-- The configuration served is the one stored last. -/
theorem config_eq_last_stored {s : ProxySystem} (h : machine.Reachable s) :
    s.server.state.config = s.stored.getLast?.getD (.empty "bootstrap") := by
  refine h.invariant (I := fun s => s.server.state.config = s.stored.getLast?.getD (.empty "bootstrap"))
    ?_ ?_
  · rintro s ⟨hConfig, _, _, _, hStored⟩
    rw [hConfig, hStored]
    rfl
  · intro s t hs hStep
    cases hStep with
    | call i hResting hCall => exact hs
    | run up i =>
      by_cases hWrite : ∃ cfg, s.tasks i = .applying (.writeConfig cfg)
      · obtain ⟨cfg, hTask⟩ := hWrite
        obtain ⟨hStored, hConfig, -⟩ := runTask_write up hTask
        rw [hStored, hConfig, List.getLast?_concat, Option.getD_some]
      · obtain ⟨hStored, hConfig⟩ := runTask_keeps up fun cfg hTask => hWrite ⟨cfg, hTask⟩
        rw [hStored, hConfig]
        exact hs

end ProxySystem

/-! ## Failures of a handler -/

theorem noHealthyEndpoints_message_ne (name : String) :
    (DxgateError.noHealthyEndpoints name).message ≠ "route has no clusters" ∧
      ∀ other, (DxgateError.noHealthyEndpoints name).message ≠ "cluster " ++ other ++ " not found" := by
  constructor
  · have hUnhealthy : (DxgateError.noHealthyEndpoints name).message.toList.head? = some 'c' :=
      Text.head?_append _ (Text.head?_append _ (by decide))
    have hNone : "route has no clusters".toList.head? = some 'r' := by decide
    intro hEq
    rw [hEq, hNone] at hUnhealthy
    exact absurd hUnhealthy (by decide)
  · intro other
    have hUnhealthy : (DxgateError.noHealthyEndpoints name).message.toList.getLast? = some 's' :=
      Text.getLast?_append _ (by decide)
    have hMissing : ("cluster " ++ other ++ " not found").toList.getLast? = some 'd' :=
      Text.getLast?_append _ (by decide)
    intro hEq
    rw [hEq, hMissing] at hUnhealthy
    exact absurd hUnhealthy (by decide)

/-- Whatever is applied while requests are handled: a routed request finds its cluster, and the only
unavailability left is a cluster without healthy endpoints. -/
theorem forward_never_dangles {s : ProxySystem} (h : ProxySystem.machine.Reachable s) (i : Nat) :
    (∀ req cfg clusters, s.tasks i = .forwarding (.routed req cfg clusters) → ∀ st : ProxyState,
      ∃ j weighted cluster, (st.pickCluster clusters).2 = some (j, weighted) ∧
        clusters[j]? = some weighted ∧ cfg.cluster weighted.name = some cluster) ∧
    (∀ out failure, s.tasks i = .forwarding (.answered out) → out.reply = .error failure →
      failure ≠ ⟨.serviceUnavailable, "route has no clusters"⟩ ∧
      (∀ name, failure ≠ ⟨.serviceUnavailable, "cluster " ++ name ++ " not found"⟩) ∧
      (failure.status = .serviceUnavailable →
        ∃ name, failure.message = (DxgateError.noHealthyEndpoints name).message)) := by
  have hSound := (ProxySystem.sound_of_reachable h).tasks i
  constructor
  · intro req cfg clusters hTask st
    rw [hTask] at hSound
    obtain ⟨hValid, route, hRoute, rfl⟩ := hSound
    exact pickCluster_resolves hValid hRoute st
  · intro out failure hTask hReply
    rw [hTask] at hSound
    have hUnavailable := hSound failure hReply
    refine ⟨?_, ?_, hUnavailable⟩
    · rintro rfl
      obtain ⟨name, hMessage⟩ := hUnavailable rfl
      exact (noHealthyEndpoints_message_ne name).1 hMessage.symm
    · rintro other rfl
      obtain ⟨name, hMessage⟩ := hUnavailable rfl
      exact (noHealthyEndpoints_message_ne name).2 other hMessage.symm

/-! ## A request to a cluster without endpoints -/

def bootProxy : ProxySystem := ⟨⟨.new (.empty "bootstrap"), .disabled⟩, fun _ => .idle, []⟩

/-- Task 0 applies a configuration, then task 1 handles a request. -/
def appliedThenForwarded (cfg : RuntimeConfig) (req : Request) : ProxySystem :=
  (ProxySystem.runTask sampleUpstream 1)^[4] (((ProxySystem.runTask sampleUpstream 0)^[3]
    (bootProxy.setTask 0 (.applying (.call cfg)))).setTask 1 (.forwarding (.received req)))

namespace ProxySystem

theorem reachable_iterate {s : ProxySystem} (h : machine.Reachable s) (up : Upstream) (i n : Nat) :
    machine.Reachable ((runTask up i)^[n] s) := by
  induction n with
  | zero => exact h
  | succ n ih =>
    rw [Function.iterate_succ_apply']
    exact ih.step (.run up i)

end ProxySystem

theorem unhealthyCluster_never_dangles :
    (appliedThenForwarded (sampleConfig [⟨"c", 100⟩] [sampleCluster "c" []]) sampleRequest).tasks 1 =
      .forwarding (.answered (.failed ⟨.serviceUnavailable, "cluster c has no healthy endpoints"⟩)) ∧
    ∀ name, (⟨.serviceUnavailable, "cluster c has no healthy endpoints"⟩ : Failure) ≠
      ⟨.serviceUnavailable, "cluster " ++ name ++ " not found"⟩ := by
  have hApply : ProxySystem.machine.Reachable
      (bootProxy.setTask 0 (.applying (.call (sampleConfig [⟨"c", 100⟩] [sampleCluster "c" []])))) :=
    (Runs.Machine.Reachable.init ⟨rfl, rfl, rfl, rfl, rfl⟩ : ProxySystem.machine.Reachable bootProxy).step
      (.call 0 .idle (.apply _))
  have hForward := (ProxySystem.reachable_iterate hApply sampleUpstream 0 3).step
    (.call 1 .idle (.forward sampleRequest))
  have hDone := ProxySystem.reachable_iterate hForward sampleUpstream 1 4
  have hAnswer : (appliedThenForwarded (sampleConfig [⟨"c", 100⟩] [sampleCluster "c" []])
      sampleRequest).tasks 1 = .forwarding (.answered (.failed
        ⟨.serviceUnavailable, "cluster c has no healthy endpoints"⟩)) := by rfl
  exact ⟨hAnswer, ((forward_never_dangles hDone 1).2 _ _ hAnswer rfl).2.1⟩

end Dxgate
