import Dxgate.Core.Validate
import Mathlib.Data.UInt

/-! # The state of the proxy

The served configuration, its conflicts, the readiness flag and the one counter that both pickers
advance. A reference into a slice is the position in the slice together with the element there.
-/

namespace Dxgate

set_option autoImplicit false

structure ProxyState where
  config : RuntimeConfig
  conflicts : List ConfigConflict
  ready : Bool
  pickerCounter : UInt64
  deriving DecidableEq

structure Readiness where
  ready : Bool
  version : String
  conflicts : List ConfigConflict
  deriving DecidableEq

def totalWeight (clusters : List WeightedCluster) : UInt32 := (clusters.map (·.weight)).sum

/-- The search of `pickCluster`: position and cursor advance together, the cursor modulo 2^32. -/
def findByWeight (next : UInt32) : Nat → UInt32 → List WeightedCluster → Option (Nat × WeightedCluster)
  | _, _, [] => none
  | i, cursor, cluster :: rest =>
    if next < cursor + cluster.weight then some (i, cluster)
    else findByWeight next (i + 1) (cursor + cluster.weight) rest

namespace ProxyState

def new (initial : RuntimeConfig) : ProxyState := ⟨initial, [], false, 0⟩

/-- `fetch_add(1)`: the value before the addition, which wraps. -/
def fetchAdd (st : ProxyState) : UInt64 × ProxyState :=
  (st.pickerCounter, { st with pickerCounter := st.pickerCounter + 1 })

def pickCluster (st : ProxyState) (clusters : List WeightedCluster) :
    ProxyState × Option (Nat × WeightedCluster) :=
  let total := totalWeight clusters
  if total = 0 then (st, clusters.head?.map fun cluster => (0, cluster))
  else
    let (counter, st) := st.fetchAdd
    (st, findByWeight (counter.toUInt32 % total) 0 0 clusters)

def pickEndpoint (st : ProxyState) (clusterName : String) (endpoints : List Endpoint) :
    ProxyState × Except DxgateError (Nat × Endpoint) :=
  let healthy := endpoints.filter (·.healthy)
  if h : 0 < healthy.length then
    let (counter, st) := st.fetchAdd
    let idx := counter.toNat % healthy.length
    (st, .ok (idx, healthy.get ⟨idx, Nat.mod_lt _ h⟩))
  else (st, .error (.noHealthyEndpoints clusterName))

def applyConfig (st : ProxyState) (cfg : RuntimeConfig) :
    ProxyState × Except (List ConfigConflict) Unit :=
  match cfg.validate with
  | .ok () => ({ st with config := cfg, conflicts := [], ready := true }, .ok ())
  | .error conflicts => ({ st with conflicts := conflicts, ready := false }, .error conflicts)

def readiness (st : ProxyState) : Readiness := ⟨st.ready, st.config.version, st.conflicts⟩

end ProxyState

/-! ## The cluster picker -/

theorem totalWeight_cons (cluster : WeightedCluster) (rest : List WeightedCluster) :
    totalWeight (cluster :: rest) = cluster.weight + totalWeight rest := by
  simp [totalWeight]

theorem findByWeight_get {next : UInt32} {clusters : List WeightedCluster} {start : Nat}
    {cursor : UInt32} {pick : Nat × WeightedCluster}
    (h : findByWeight next start cursor clusters = some pick) :
    ∃ i, pick.1 = start + i ∧ clusters[i]? = some pick.2 := by
  induction clusters generalizing start cursor with
  | nil => cases h
  | cons cluster rest ih =>
    rw [findByWeight] at h
    split at h
    · cases h
      exact ⟨0, rfl, rfl⟩
    · obtain ⟨i, hPosition, hGet⟩ := ih h
      exact ⟨i + 1, by omega, by simpa using hGet⟩

theorem findByWeight_isSome {next : UInt32} {clusters : List WeightedCluster} (start : Nat)
    (cursor : UInt32) (hNonempty : clusters ≠ []) (h : next < cursor + totalWeight clusters) :
    ∃ pick, findByWeight next start cursor clusters = some pick := by
  induction clusters generalizing start cursor with
  | nil => exact absurd rfl hNonempty
  | cons cluster rest ih =>
    rw [findByWeight]
    split
    · exact ⟨_, rfl⟩
    · rename_i hMiss
      rw [totalWeight_cons, ← UInt32.add_assoc] at h
      refine ih (start + 1) (cursor + cluster.weight) ?_ h
      rintro rfl
      simp only [totalWeight, List.map_nil, List.sum_nil, UInt32.add_zero] at h
      exact hMiss h

theorem totalWeight_ne_zero_nonempty {clusters : List WeightedCluster} (h : totalWeight clusters ≠ 0) :
    clusters ≠ [] := by
  rintro rfl
  exact h rfl

namespace ProxyState

theorem pickCluster_state (st : ProxyState) (clusters : List WeightedCluster) :
    ∃ counter, (st.pickCluster clusters).1 = { st with pickerCounter := counter } := by
  rw [pickCluster]
  dsimp only
  split
  · exact ⟨st.pickerCounter, rfl⟩
  · exact ⟨st.pickerCounter + 1, rfl⟩

theorem pickEndpoint_state (st : ProxyState) (name : String) (endpoints : List Endpoint) :
    ∃ counter, (st.pickEndpoint name endpoints).1 = { st with pickerCounter := counter } := by
  rw [pickEndpoint]
  dsimp only
  split
  · exact ⟨st.pickerCounter + 1, rfl⟩
  · exact ⟨st.pickerCounter, rfl⟩

theorem pickCluster_isSome (st : ProxyState) {clusters : List WeightedCluster} (h : clusters ≠ []) :
    ∃ i cluster, (st.pickCluster clusters).2 = some (i, cluster) ∧ clusters[i]? = some cluster := by
  rw [pickCluster]
  dsimp only
  split
  · obtain ⟨first, rest, rfl⟩ := List.exists_cons_of_ne_nil h
    exact ⟨0, first, rfl, rfl⟩
  · rename_i hTotal
    have hPositive : 0 < totalWeight clusters := UInt32.pos_iff_ne_zero.mpr hTotal
    have hNext : st.fetchAdd.1.toUInt32 % totalWeight clusters < 0 + totalWeight clusters := by
      rw [UInt32.zero_add]
      exact UInt32.mod_lt _ hPositive
    obtain ⟨⟨i, cluster⟩, hPick⟩ := findByWeight_isSome 0 0 h hNext
    obtain ⟨j, hPosition, hGet⟩ := findByWeight_get hPick
    refine ⟨i, cluster, hPick, ?_⟩
    rw [show i = j by simpa using hPosition]
    exact hGet

theorem pickEndpoint_error {st : ProxyState} {name : String} {endpoints : List Endpoint}
    {err : DxgateError} (h : (st.pickEndpoint name endpoints).2 = .error err) :
    err = .noHealthyEndpoints name ∧ endpoints.filter (·.healthy) = [] := by
  rw [pickEndpoint] at h
  dsimp only at h
  split at h
  · cases h
  · rename_i hNone
    cases h
    exact ⟨rfl, List.eq_nil_of_length_eq_zero (by omega)⟩

end ProxyState

end Dxgate
