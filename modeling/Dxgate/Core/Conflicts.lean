import Dxgate.Core.Validate
import Dxgate.Lib.Runs

/-! # The conflicts that validation reports

An operator reads the list that `validate` returns. It has one entry for each defect and none for anything
else, in the order of the configuration; of several listeners on one address, each is held against the
nearest one before it.
-/

namespace Dxgate

set_option autoImplicit false

def listenerReport (before : List Listener) (listener : Listener) : List ConfigConflict :=
  (if listener.name ∈ before.map (·.name) then [duplicateListener listener.name] else []) ++
    match before.reverse.find? (·.bind = listener.bind) with
    | some existing =>
      if existing.mode ≠ listener.mode then
        [listenerBindConflict existing.name listener.name listener.bind]
      else []
    | none => []

def clusterReport (before : List Cluster) (cluster : Cluster) : List ConfigConflict :=
  if cluster.name ∈ before.map (·.name) then [duplicateCluster cluster.name] else []

namespace RuntimeConfig

def report (cfg : RuntimeConfig) : List ConfigConflict :=
  Runs.reports listenerReport cfg.listeners ++ Runs.reports clusterReport cfg.clusters ++
    cfg.listeners.flatMap fun listener => listener.virtualHosts.flatMap fun host =>
      host.routes.flatMap fun route => routeConflicts (cfg.clusters.map (·.name)) listener route

/-- What can be wrong with a configuration, and how it is told. -/
inductive Defect (cfg : RuntimeConfig) : ConfigConflict → Prop where
  | duplicateListener {before after : List Listener} {listener : Listener}
      (hSplit : cfg.listeners = before ++ listener :: after) (hName : listener.name ∈ before.map (·.name)) :
      Defect cfg (duplicateListener listener.name)
  | bindConflict {before mid after : List Listener} {existing listener : Listener}
      (hSplit : cfg.listeners = before ++ existing :: mid ++ listener :: after)
      (hBind : existing.bind = listener.bind) (hNearest : ∀ other ∈ mid, other.bind ≠ listener.bind)
      (hMode : existing.mode ≠ listener.mode) :
      Defect cfg (listenerBindConflict existing.name listener.name listener.bind)
  | duplicateCluster {before after : List Cluster} {cluster : Cluster}
      (hSplit : cfg.clusters = before ++ cluster :: after) (hName : cluster.name ∈ before.map (·.name)) :
      Defect cfg (duplicateCluster cluster.name)
  | emptyDestination {listener : Listener} {host : VirtualHost} {route : Route}
      (hListener : listener ∈ cfg.listeners) (hHost : host ∈ listener.virtualHosts)
      (hRoute : route ∈ host.routes) (hEmpty : route.weightedClusters = []) :
      Defect cfg (emptyRouteDestination route.name listener.name)
  | missingCluster {listener : Listener} {host : VirtualHost} {route : Route} {dst : WeightedCluster}
      (hListener : listener ∈ cfg.listeners) (hHost : host ∈ listener.virtualHosts)
      (hRoute : route ∈ host.routes) (hDst : dst ∈ route.weightedClusters)
      (hMissing : dst.name ∉ cfg.clusters.map (·.name)) : Defect cfg (missingCluster route.name dst.name)

end RuntimeConfig

/-! ## The loops -/

/-- The address list of the loop, searched for an address. -/
theorem lookup_binds (listeners : List Listener) (bind : SocketAddr) :
    (listeners.map fun l => (l.bind, l.name, l.mode)).lookup bind =
      (listeners.find? (·.bind = bind)).map fun l => (l.name, l.mode) := by
  induction listeners with
  | nil => rfl
  | cons l ls ih =>
    rw [List.map_cons, List.find?_cons]
    by_cases hBind : l.bind = bind
    · simp [hBind]
    · have hNe : (bind == l.bind) = false := by simpa using fun hEq => hBind hEq.symm
      simp [List.lookup_cons, hNe, hBind, ih]

/-- The first loop has seen these listeners. -/
structure ListenerCheck.Seen (before : List Listener) (st : ListenerCheck) : Prop where
  names : st.names = before.reverse.map (·.name)
  binds : st.binds = before.reverse.map fun l => (l.bind, l.name, l.mode)

theorem ListenerCheck.Seen.visit {before : List Listener} {st : ListenerCheck} (h : st.Seen before)
    (listener : Listener) : (st.visit listener).Seen (before ++ [listener]) ∧
      (st.visit listener).conflicts = st.conflicts ++ listenerReport before listener := by
  refine ⟨⟨?_, ?_⟩, ?_⟩
  · rw [List.reverse_append]
    exact congrArg _ h.names
  · rw [List.reverse_append]
    exact congrArg _ h.binds
  · have hName : listener.name ∈ st.names ↔ listener.name ∈ before.map (·.name) := by
      rw [h.names, List.map_reverse, List.mem_reverse]
    rw [ListenerCheck.visit, listenerReport, h.binds, lookup_binds]
    simp only [hName, List.append_assoc]
    congr 2
    cases before.reverse.find? (·.bind = listener.bind) with
    | none => rfl
    | some existing => rfl

/-- The second loop has seen these clusters. -/
def ClusterCheck.Seen (before : List Cluster) (st : ClusterCheck) : Prop :=
  st.names = before.reverse.map (·.name)

theorem ClusterCheck.Seen.visit {before : List Cluster} {st : ClusterCheck} (h : st.Seen before)
    (cluster : Cluster) : (st.visit cluster).Seen (before ++ [cluster]) ∧
      (st.visit cluster).conflicts = st.conflicts ++ clusterReport before cluster := by
  have hName : cluster.name ∈ st.names ↔ cluster.name ∈ before.map (·.name) := by
    rw [h, List.map_reverse, List.mem_reverse]
  constructor
  · rw [ClusterCheck.Seen, List.reverse_append]
    exact congrArg _ h
  · simp only [ClusterCheck.visit, clusterReport, hName]

theorem routeConflicts_congr {names names' : List String} (h : ∀ name, name ∈ names ↔ name ∈ names')
    (listener : Listener) (route : Route) :
    routeConflicts names listener route = routeConflicts names' listener route := by
  simp only [routeConflicts, h]

namespace RuntimeConfig

theorem conflicts_eq_report (cfg : RuntimeConfig) : cfg.conflicts = cfg.report := by
  obtain ⟨-, hListeners⟩ := Runs.foldl_reports listenerReport ListenerCheck.conflicts ListenerCheck.Seen
    (fun _ _ listener hSeen => hSeen.visit listener) (s := ⟨[], [], []⟩) ⟨rfl, rfl⟩ cfg.listeners
  obtain ⟨-, hClusters⟩ := Runs.foldl_reports clusterReport ClusterCheck.conflicts ClusterCheck.Seen
    (fun _ _ cluster hSeen => hSeen.visit cluster)
    (s := ⟨[], (cfg.listeners.foldl ListenerCheck.visit ⟨[], [], []⟩).conflicts⟩) rfl cfg.clusters
  have hNames (name : String) : name ∈ (cfg.clusters.foldl ClusterCheck.visit
      ⟨[], (cfg.listeners.foldl ListenerCheck.visit ⟨[], [], []⟩).conflicts⟩).names ↔
        name ∈ cfg.clusters.map (·.name) := by
    rw [foldl_clusterCheck_names]
    simp
  rw [conflicts, report]
  simp only [routeConflicts_congr hNames]
  rw [hClusters, hListeners, List.nil_append]

/-! ## What the list has in it -/

theorem find?_reverse_eq_some {listeners : List Listener} {bind : SocketAddr} {existing : Listener} :
    listeners.reverse.find? (·.bind = bind) = some existing ↔ existing.bind = bind ∧
      ∃ before mid, listeners = before ++ existing :: mid ∧ ∀ other ∈ mid, other.bind ≠ bind := by
  rw [List.find?_eq_some_iff_append, decide_eq_true_iff]
  refine and_congr_right fun _ => ?_
  constructor
  · rintro ⟨later, earlier, hSplit, hOthers⟩
    refine ⟨earlier.reverse, later.reverse, ?_, ?_⟩
    · rw [List.reverse_eq_iff] at hSplit
      rw [hSplit]
      simp
    · intro other hOther
      simpa using hOthers other (List.mem_reverse.mp hOther)
  · rintro ⟨before, mid, rfl, hOthers⟩
    refine ⟨mid.reverse, before.reverse, by simp, ?_⟩
    intro other hOther
    simpa using hOthers other (List.mem_reverse.mp hOther)

theorem mem_listenerReport {before : List Listener} {listener : Listener} {conflict : ConfigConflict} :
    conflict ∈ listenerReport before listener ↔
      (listener.name ∈ before.map (·.name) ∧ conflict = duplicateListener listener.name) ∨
      ∃ earlier existing mid, before = earlier ++ existing :: mid ∧ existing.bind = listener.bind ∧
        (∀ other ∈ mid, other.bind ≠ listener.bind) ∧ existing.mode ≠ listener.mode ∧
          conflict = listenerBindConflict existing.name listener.name listener.bind := by
  rw [listenerReport, List.mem_append]
  refine or_congr ?_ ?_
  · split <;> simp_all
  · constructor
    · intro hMem
      split at hMem
      · rename_i existing hFind
        obtain ⟨hBind, earlier, mid, rfl, hNearest⟩ := find?_reverse_eq_some.mp hFind
        split at hMem
        · rename_i hMode
          exact ⟨earlier, existing, mid, rfl, hBind, hNearest, hMode, List.mem_singleton.mp hMem⟩
        · cases hMem
      · cases hMem
    · rintro ⟨earlier, existing, mid, rfl, hBind, hNearest, hMode, rfl⟩
      rw [find?_reverse_eq_some.mpr ⟨hBind, earlier, mid, rfl, hNearest⟩]
      dsimp only
      rw [if_pos hMode]
      exact List.mem_singleton_self _

theorem mem_report {cfg : RuntimeConfig} {conflict : ConfigConflict} :
    conflict ∈ cfg.report ↔ cfg.Defect conflict := by
  rw [report, List.mem_append, List.mem_append, Runs.mem_reports, Runs.mem_reports]
  constructor
  · rintro ((⟨before, listener, after, hSplit, hMem⟩ | ⟨before, cluster, after, hSplit, hMem⟩) | hMem)
    · rcases mem_listenerReport.mp hMem with ⟨hName, rfl⟩ |
        ⟨earlier, existing, mid, rfl, hBind, hNearest, hMode, rfl⟩
      · exact .duplicateListener hSplit hName
      · exact .bindConflict hSplit hBind hNearest hMode
    · rw [clusterReport] at hMem
      split at hMem
      · rename_i hName
        rw [List.mem_singleton.mp hMem]
        exact .duplicateCluster hSplit hName
      · cases hMem
    · simp only [List.mem_flatMap] at hMem
      obtain ⟨listener, hListener, host, hHost, route, hRoute, hMem⟩ := hMem
      rw [routeConflicts, List.mem_append, List.mem_flatMap] at hMem
      rcases hMem with hMem | ⟨dst, hDst, hMem⟩
      · split at hMem
        · rename_i hEmpty
          rw [List.mem_singleton.mp hMem]
          exact .emptyDestination hListener hHost hRoute hEmpty
        · cases hMem
      · split at hMem
        · cases hMem
        · rename_i hMissing
          rw [List.mem_singleton.mp hMem]
          exact .missingCluster hListener hHost hRoute hDst hMissing
  · intro h
    cases h with
    | @duplicateListener before after listener hSplit hName =>
      exact .inl (.inl ⟨before, listener, after, hSplit, mem_listenerReport.mpr (.inl ⟨hName, rfl⟩)⟩)
    | @bindConflict before mid after existing listener hSplit hBind hNearest hMode =>
      refine .inl (.inl ⟨before ++ existing :: mid, listener, after, hSplit, mem_listenerReport.mpr (.inr ?_)⟩)
      exact ⟨before, existing, mid, rfl, hBind, hNearest, hMode, rfl⟩
    | @duplicateCluster before after cluster hSplit hName =>
      refine .inl (.inr ⟨before, cluster, after, hSplit, ?_⟩)
      rw [clusterReport, if_pos hName]
      exact List.mem_singleton_self _
    | @emptyDestination listener host route hListener hHost hRoute hEmpty =>
      right
      simp only [List.mem_flatMap]
      refine ⟨listener, hListener, host, hHost, route, hRoute, ?_⟩
      rw [routeConflicts, if_pos hEmpty]
      exact List.mem_append_left _ (List.mem_singleton_self _)
    | @missingCluster listener host route dst hListener hHost hRoute hDst hMissing =>
      right
      simp only [List.mem_flatMap]
      refine ⟨listener, hListener, host, hHost, route, hRoute, List.mem_append_right _ ?_⟩
      apply List.mem_flatMap.mpr
      refine ⟨dst, hDst, ?_⟩
      rw [if_neg hMissing]
      exact List.mem_singleton_self _

/-- `validate` returns the report, and the report has an entry for every defect and for nothing else. -/
theorem validate_reports (cfg : RuntimeConfig) :
    cfg.validate = (if cfg.report = [] then .ok () else .error cfg.report) ∧
      ∀ conflict, conflict ∈ cfg.report ↔ cfg.Defect conflict := by
  refine ⟨?_, fun conflict => mem_report⟩
  rw [validate, conflicts_eq_report]

/-- Of three listeners on one address the last is held against the second, not against the first. -/
example :
    let bind : SocketAddr := { ip := .UNSPECIFIED, port := 80 }
    let listener (name : String) (protocol : ListenerProtocol) : Listener := ⟨name, bind, protocol, [], none⟩
    report ⟨"1", [listener "a" .http, listener "b" .https, listener "a" .http], [], []⟩ =
      [listenerBindConflict "a" "b" bind, duplicateListener "a", listenerBindConflict "b" "a" bind] := by
  decide

end RuntimeConfig

end Dxgate
