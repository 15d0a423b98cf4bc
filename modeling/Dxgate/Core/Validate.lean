import Dxgate.Core.Config
import Mathlib.Data.List.Nodup
import Mathlib.Data.List.Pairwise

/-! # Validation of a runtime configuration

`validate` runs three loops and collects every conflict. The bind check remembers only the latest
listener of an address; that this decides compatibility of all pairs is proved here.
-/

namespace Dxgate

set_option autoImplicit false

def duplicateListener (name : String) : ConfigConflict :=
  ⟨"duplicate-listener", "listener " ++ name ++ " is defined more than once"⟩

def listenerBindConflict (existing name : String) (bind : SocketAddr) : ConfigConflict :=
  ⟨"listener-bind-conflict", "listeners " ++ existing ++ " and " ++ name ++ " both bind " ++
    bind.display ++ " with incompatible protocol or TLS mode"⟩

def duplicateCluster (name : String) : ConfigConflict :=
  ⟨"duplicate-cluster", "cluster " ++ name ++ " is defined more than once"⟩

def emptyRouteDestination (route listener : String) : ConfigConflict :=
  ⟨"empty-route-destination", "route " ++ route ++ " on listener " ++ listener ++
    " has no weighted clusters"⟩

def missingCluster (route cluster : String) : ConfigConflict :=
  ⟨"missing-cluster", "route " ++ route ++ " references missing cluster " ++ cluster⟩

/-- What two listeners on one address have to agree on. -/
def Listener.mode (listener : Listener) : ListenerProtocol × Bool :=
  (listener.protocol, listener.tlsSecret.isSome)

/-- The variables of the first loop: names seen, latest listener of each address, conflicts. -/
structure ListenerCheck where
  names : List String
  binds : List (SocketAddr × String × ListenerProtocol × Bool)
  conflicts : List ConfigConflict

def ListenerCheck.visit (st : ListenerCheck) (listener : Listener) : ListenerCheck where
  names := listener.name :: st.names
  binds := (listener.bind, listener.name, listener.mode) :: st.binds
  conflicts :=
    st.conflicts ++ (if listener.name ∈ st.names then [duplicateListener listener.name] else []) ++
      match st.binds.lookup listener.bind with
      | some (existing, mode) =>
        if mode ≠ listener.mode then [listenerBindConflict existing listener.name listener.bind] else []
      | none => []

structure ClusterCheck where
  names : List String
  conflicts : List ConfigConflict

def ClusterCheck.visit (st : ClusterCheck) (cluster : Cluster) : ClusterCheck where
  names := cluster.name :: st.names
  conflicts :=
    st.conflicts ++ if cluster.name ∈ st.names then [duplicateCluster cluster.name] else []

def routeConflicts (clusters : List String) (listener : Listener) (route : Route) :
    List ConfigConflict :=
  (if route.weightedClusters = [] then [emptyRouteDestination route.name listener.name] else []) ++
    route.weightedClusters.flatMap fun dst =>
      if dst.name ∈ clusters then [] else [missingCluster route.name dst.name]

namespace RuntimeConfig

def conflicts (cfg : RuntimeConfig) : List ConfigConflict :=
  let listeners := cfg.listeners.foldl ListenerCheck.visit ⟨[], [], []⟩
  let clusters := cfg.clusters.foldl ClusterCheck.visit ⟨[], listeners.conflicts⟩
  clusters.conflicts ++ cfg.listeners.flatMap fun listener =>
    listener.virtualHosts.flatMap fun host =>
      host.routes.flatMap fun route => routeConflicts clusters.names listener route

def validate (cfg : RuntimeConfig) : Except (List ConfigConflict) Unit :=
  if cfg.conflicts = [] then .ok () else .error cfg.conflicts

/-- What an accepted configuration promises. -/
structure WellFormed (cfg : RuntimeConfig) : Prop where
  listenerNames : (cfg.listeners.map (·.name)).Nodup
  binds : cfg.listeners.Pairwise fun a b => a.bind = b.bind → a.mode = b.mode
  clusterNames : (cfg.clusters.map (·.name)).Nodup
  destinations : ∀ listener ∈ cfg.listeners, ∀ host ∈ listener.virtualHosts, ∀ route ∈ host.routes,
    route.weightedClusters ≠ []
  references : ∀ listener ∈ cfg.listeners, ∀ host ∈ listener.virtualHosts, ∀ route ∈ host.routes,
    ∀ dst ∈ route.weightedClusters, dst.name ∈ cfg.clusters.map (·.name)

end RuntimeConfig

/-! ## The loops -/

theorem ListenerCheck.visit_conflicts_nil (st : ListenerCheck) (listener : Listener) :
    (st.visit listener).conflicts = [] ↔ st.conflicts = [] ∧ listener.name ∉ st.names ∧
      ∀ info, st.binds.lookup listener.bind = some info → info.2 = listener.mode := by
  simp only [visit, List.append_eq_nil_iff, and_assoc]
  refine and_congr_right fun _ => and_congr ?_ ?_
  · split <;> simp_all
  · split
    · rename_i existing mode hLookup
      simp [hLookup]
    · rename_i hLookup
      simp [hLookup]

/-- The state of the loop enters only through the names seen and the latest listener of each address. -/
theorem foldl_listenerCheck_conflicts_nil (listeners : List Listener) (st : ListenerCheck) :
    (listeners.foldl ListenerCheck.visit st).conflicts = [] ↔ st.conflicts = [] ∧
      (listeners.map (·.name)).Nodup ∧ (∀ l ∈ listeners, l.name ∉ st.names) ∧
      (listeners.Pairwise fun a b => a.bind = b.bind → a.mode = b.mode) ∧
      ∀ l ∈ listeners, ∀ info, st.binds.lookup l.bind = some info → info.2 = l.mode := by
  induction listeners generalizing st with
  | nil => simp
  | cons l ls ih =>
    rw [List.foldl_cons, ih, ListenerCheck.visit_conflicts_nil]
    have hLookup (m : Listener) : (st.visit l).binds.lookup m.bind =
        if m.bind = l.bind then some (l.name, l.mode) else st.binds.lookup m.bind := by
      by_cases hBind : m.bind = l.bind
      · simp [ListenerCheck.visit, hBind]
      · have hNe : (m.bind == l.bind) = false := by simpa using hBind
        simp [ListenerCheck.visit, List.lookup_cons, hNe, hBind]
    simp only [hLookup, List.map_cons, List.nodup_cons, List.pairwise_cons, List.forall_mem_cons]
    have hNames : (st.visit l).names = l.name :: st.names := rfl
    rw [hNames]
    constructor
    · rintro ⟨⟨hSt, hName, hInfo⟩, hNodup, hFresh, hPairs, hRest⟩
      refine ⟨hSt, ⟨?_, hNodup⟩, ⟨hName, ?_⟩, ⟨?_, hPairs⟩, hInfo, ?_⟩
      · intro hMem
        obtain ⟨m, hm, hEq⟩ := List.mem_map.mp hMem
        exact hFresh m hm (hEq ▸ List.mem_cons_self)
      · intro m hm hMem
        exact hFresh m hm (List.mem_cons_of_mem _ hMem)
      · intro m hm hBind
        exact hRest m hm (l.name, l.mode) (if_pos hBind.symm)
      · intro m hm info hInfo'
        by_cases hBind : m.bind = l.bind
        · rw [hInfo info (hBind ▸ hInfo')]
          exact hRest m hm (l.name, l.mode) (if_pos hBind)
        · exact hRest m hm info ((if_neg hBind).trans hInfo')
    · rintro ⟨hSt, ⟨hNotMem, hNodup⟩, ⟨hName, hFresh⟩, ⟨hHead, hPairs⟩, hInfo, hRest⟩
      refine ⟨⟨hSt, hName, hInfo⟩, hNodup, ?_, hPairs, ?_⟩
      · intro m hm hMem
        rcases List.mem_cons.mp hMem with hEq | hMem
        · exact hNotMem (List.mem_map.mpr ⟨m, hm, hEq⟩)
        · exact hFresh m hm hMem
      · intro m hm info hInfo'
        split at hInfo'
        · rename_i hBind
          cases hInfo'
          exact hHead m hm hBind.symm
        · exact hRest m hm info hInfo'

theorem foldl_clusterCheck_names (clusters : List Cluster) (st : ClusterCheck) (name : String) :
    name ∈ (clusters.foldl ClusterCheck.visit st).names ↔
      name ∈ clusters.map (·.name) ∨ name ∈ st.names := by
  induction clusters generalizing st with
  | nil => simp
  | cons c cs ih =>
    rw [List.foldl_cons, ih, List.map_cons, List.mem_cons, ClusterCheck.visit, List.mem_cons]
    tauto

theorem foldl_clusterCheck_conflicts_nil (clusters : List Cluster) (st : ClusterCheck) :
    (clusters.foldl ClusterCheck.visit st).conflicts = [] ↔ st.conflicts = [] ∧
      (clusters.map (·.name)).Nodup ∧ ∀ c ∈ clusters, c.name ∉ st.names := by
  induction clusters generalizing st with
  | nil => simp
  | cons c cs ih =>
    have hVisit : (st.visit c).conflicts = [] ↔ st.conflicts = [] ∧ c.name ∉ st.names := by
      simp [ClusterCheck.visit]
    have hNames : (st.visit c).names = c.name :: st.names := rfl
    rw [List.foldl_cons, ih, hVisit, hNames, List.map_cons, List.nodup_cons, List.forall_mem_cons]
    have hFresh : (∀ d ∈ cs, d.name ∉ c.name :: st.names) ↔
        c.name ∉ cs.map (·.name) ∧ ∀ d ∈ cs, d.name ∉ st.names := by
      simp only [List.mem_cons, not_or, List.mem_map, not_exists, not_and]
      exact ⟨fun h => ⟨fun d hd => (h d hd).1, fun d hd => (h d hd).2⟩,
        fun h d hd => ⟨h.1 d hd, h.2 d hd⟩⟩
    rw [hFresh]
    tauto

theorem routeConflicts_nil (clusters : List String) (listener : Listener) (route : Route) :
    routeConflicts clusters listener route = [] ↔
      route.weightedClusters ≠ [] ∧ ∀ dst ∈ route.weightedClusters, dst.name ∈ clusters := by
  rw [routeConflicts, List.append_eq_nil_iff, List.flatMap_eq_nil_iff]
  refine and_congr ?_ (forall₂_congr fun dst _ => ?_)
  · split <;> simp_all
  · split <;> simp_all

namespace RuntimeConfig

theorem conflicts_nil_iff (cfg : RuntimeConfig) : cfg.conflicts = [] ↔ cfg.WellFormed := by
  rw [conflicts, List.append_eq_nil_iff, foldl_clusterCheck_conflicts_nil,
    foldl_listenerCheck_conflicts_nil]
  simp only [List.flatMap_eq_nil_iff, routeConflicts_nil, foldl_clusterCheck_names, List.not_mem_nil,
    not_false_eq_true, implies_true, and_true, List.lookup_nil, reduceCtorEq, IsEmpty.forall_iff,
    true_and, or_false]
  constructor
  · rintro ⟨⟨⟨hNames, hBinds⟩, hClusters⟩, hRoutes⟩
    exact ⟨hNames, hBinds, hClusters, fun l hl h hh r hr => (hRoutes l hl h hh r hr).1,
      fun l hl h hh r hr => (hRoutes l hl h hh r hr).2⟩
  · intro h
    exact ⟨⟨⟨h.listenerNames, h.binds⟩, h.clusterNames⟩, fun l hl host hh r hr =>
      ⟨h.destinations l hl host hh r hr, h.references l hl host hh r hr⟩⟩

theorem validate_ok_iff (cfg : RuntimeConfig) : cfg.validate = .ok () ↔ cfg.WellFormed := by
  rw [← conflicts_nil_iff, validate]
  split <;> simp_all

theorem validate_error_iff {cfg : RuntimeConfig} {conflicts : List ConfigConflict} :
    cfg.validate = .error conflicts ↔ ¬ cfg.WellFormed ∧ conflicts = cfg.conflicts := by
  rw [← conflicts_nil_iff, validate]
  split
  · rename_i hNil
    simp [hNil]
  · rename_i hCons
    constructor
    · intro h
      cases h
      exact ⟨hCons, rfl⟩
    · rintro ⟨_, rfl⟩
      rfl

/-- Agreement of the listeners on an address is mutual, so the order of a pair plays no part. -/
theorem pairwise_binds_iff (listeners : List Listener) :
    (listeners.Pairwise fun a b => a.bind = b.bind → a.mode = b.mode) ↔
      ∀ a ∈ listeners, ∀ b ∈ listeners, a.bind = b.bind → a.mode = b.mode := by
  constructor
  · intro hPairs a ha b hb
    have hMutual : Std.Symm fun a b : Listener => a.bind = b.bind → a.mode = b.mode :=
      ⟨fun x y hxy hBind => (hxy hBind.symm).symm⟩
    exact List.Pairwise.forall_of_forall (fun x _ _ => rfl) hPairs ha hb
  · intro hAll
    exact List.pairwise_of_forall_mem_list hAll

/-- `validate` accepts exactly the configurations with distinct listener names, listeners that agree on
each address, distinct cluster names, and routes that lead somewhere and only to clusters that are there. -/
theorem validate_decides (cfg : RuntimeConfig) :
    cfg.validate = .ok () ↔
      (cfg.listeners.map (·.name)).Nodup ∧
      (∀ a ∈ cfg.listeners, ∀ b ∈ cfg.listeners, a.bind = b.bind →
        a.protocol = b.protocol ∧ a.tlsSecret.isSome = b.tlsSecret.isSome) ∧
      (cfg.clusters.map (·.name)).Nodup ∧
      ∀ listener ∈ cfg.listeners, ∀ host ∈ listener.virtualHosts, ∀ route ∈ host.routes,
        route.weightedClusters ≠ [] ∧
          ∀ dst ∈ route.weightedClusters, dst.name ∈ cfg.clusters.map (·.name) := by
  have hMode (a b : Listener) : a.mode = b.mode ↔
      a.protocol = b.protocol ∧ a.tlsSecret.isSome = b.tlsSecret.isSome := by
    rw [Listener.mode, Listener.mode, Prod.mk.injEq]
  rw [validate_ok_iff]
  constructor
  · intro h
    refine ⟨h.listenerNames, ?_, h.clusterNames, ?_⟩
    · intro a ha b hb hBind
      exact (hMode a b).mp ((pairwise_binds_iff _).mp h.binds a ha b hb hBind)
    · intro listener hListener host hHost route hRoute
      exact ⟨h.destinations listener hListener host hHost route hRoute,
        h.references listener hListener host hHost route hRoute⟩
  · rintro ⟨hNames, hBinds, hClusters, hRoutes⟩
    refine ⟨hNames, (pairwise_binds_iff _).mpr ?_, hClusters, ?_, ?_⟩
    · intro a ha b hb hBind
      exact (hMode a b).mpr (hBinds a ha b hb hBind)
    · intro listener hListener host hHost route hRoute
      exact (hRoutes listener hListener host hHost route hRoute).1
    · intro listener hListener host hHost route hRoute
      exact (hRoutes listener hListener host hHost route hRoute).2

/-- All that an accepted configuration promises, except that the clusters it names are there. -/
structure Consistent (cfg : RuntimeConfig) : Prop where
  listenerNames : (cfg.listeners.map (·.name)).Nodup
  binds : cfg.listeners.Pairwise fun a b => a.bind = b.bind → a.mode = b.mode
  clusterNames : (cfg.clusters.map (·.name)).Nodup
  destinations : ∀ listener ∈ cfg.listeners, ∀ host ∈ listener.virtualHosts, ∀ route ∈ host.routes,
    route.weightedClusters ≠ []

theorem Consistent.wellFormed_iff {cfg : RuntimeConfig} (h : cfg.Consistent) :
    cfg.WellFormed ↔ ∀ listener ∈ cfg.listeners, ∀ host ∈ listener.virtualHosts, ∀ route ∈ host.routes,
      ∀ dst ∈ route.weightedClusters, dst.name ∈ cfg.clusters.map (·.name) :=
  ⟨WellFormed.references, fun hReferences =>
    ⟨h.listenerNames, h.binds, h.clusterNames, h.destinations, hReferences⟩⟩

theorem Consistent.mem_conflicts {cfg : RuntimeConfig} (h : cfg.Consistent) {conflict : ConfigConflict}
    (hMem : conflict ∈ cfg.conflicts) : ∃ route cluster, conflict = missingCluster route cluster := by
  have hNil : (cfg.clusters.foldl ClusterCheck.visit
      ⟨[], (cfg.listeners.foldl ListenerCheck.visit ⟨[], [], []⟩).conflicts⟩).conflicts = [] := by
    rw [foldl_clusterCheck_conflicts_nil, foldl_listenerCheck_conflicts_nil]
    exact ⟨⟨rfl, h.listenerNames, by simp, h.binds, by simp⟩, h.clusterNames, by simp⟩
  rw [conflicts, hNil, List.nil_append] at hMem
  simp only [List.mem_flatMap] at hMem
  obtain ⟨listener, hListener, host, hHost, route, hRoute, hConflict⟩ := hMem
  rw [routeConflicts, if_neg (h.destinations listener hListener host hHost route hRoute),
    List.nil_append, List.mem_flatMap] at hConflict
  obtain ⟨dst, -, hDst⟩ := hConflict
  split at hDst
  · cases hDst
  · exact ⟨route.name, dst.name, List.mem_singleton.mp hDst⟩

theorem empty_wellFormed (version : String) : (empty version).WellFormed :=
  (conflicts_nil_iff _).mp rfl

instance (cfg : RuntimeConfig) : Decidable cfg.WellFormed :=
  decidable_of_iff _ (conflicts_nil_iff cfg)

end RuntimeConfig

end Dxgate
