import Dxgate.Lib.Runs
import Dxgate.Proxy.Forward
import Dxgate.Proxy.Picking

/-! # Load balancing over successive requests

Both pickers draw from one counter, so a request that reaches an endpoint advances it by two. The
results say for which endpoint counts and which weights the requests are still spread as each picker
alone would spread them.
-/

namespace Dxgate

set_option autoImplicit false

def HealthyPicks (cfg : RuntimeConfig) (clusters : List WeightedCluster) : Prop :=
  ∀ next < totalWeight clusters, ∀ i weighted, findByWeight next 0 0 clusters = some (i, weighted) →
    ∃ cluster, cfg.cluster weighted.name = some cluster ∧ 0 < cluster.healthyEndpoints.length

def targets (outs : List Forwarded) : List Target := outs.filterMap (·.target)

/-! ## One request -/

/-- What one request draws from the counter: the first value for the cluster, the second for the
endpoint. -/
structure Draws (cfg : RuntimeConfig) (clusters : List WeightedCluster) (counter : UInt64)
    (target : Target) : Prop where
  cluster : ∃ weighted, findByWeight (counter.toUInt32 % totalWeight clusters) 0 0 clusters =
    some (target.clusterIndex, weighted) ∧ cfg.cluster weighted.name = some target.cluster
  index : target.endpointIndex = (counter + 1).toNat % target.cluster.healthyEndpoints.length
  endpoint : target.cluster.healthyEndpoints[target.endpointIndex]? = some target.endpoint

theorem forward_draws (up : Upstream) {server : ProxyServer} {req : Request} {route : Route}
    (hRoute : server.state.config.routeFor HTTP_LISTENER_PORT req.matchInput = .ok route)
    (hTotal : totalWeight route.weightedClusters ≠ 0)
    (hHealthy : HealthyPicks server.state.config route.weightedClusters) :
    ∃ target, (forward up server req).2.target = some target ∧
      Draws server.state.config route.weightedClusters server.state.pickerCounter target ∧
      (forward up server req).1.state =
        { server.state with pickerCounter := server.state.pickerCounter + 2 } := by
  have hNext : server.state.pickerCounter.toUInt32 % totalWeight route.weightedClusters <
      totalWeight route.weightedClusters := UInt32.mod_lt _ (UInt32.pos_iff_ne_zero.mpr hTotal)
  obtain ⟨⟨i, weighted⟩, hPick⟩ := findByWeight_isSome 0 0 (totalWeight_ne_zero_nonempty hTotal)
    (hNext.trans_eq (UInt32.zero_add _).symm)
  obtain ⟨cluster, hCluster, hSome⟩ := hHealthy _ hNext i weighted hPick
  have hSelect : selectClusters server.state.config req = .ok route.weightedClusters := by
    rw [selectClusters, hRoute]
  have hDrawn : server.state.pickCluster route.weightedClusters =
      ({ server.state with pickerCounter := server.state.pickerCounter + 1 }, some (i, weighted)) := by
    rw [ProxyState.pickCluster]
    simp only [if_neg hTotal, ProxyState.fetchAdd, hPick]
  have hResolve : resolveCluster server.state.config (some (i, weighted)) = .ok (i, cluster) := by
    simp only [resolveCluster, hCluster]
  have hLength : 0 < (cluster.endpoints.filter (·.healthy)).length := hSome
  simp only [forward, hSelect, hDrawn, hResolve, ProxyState.pickEndpoint, dif_pos hLength,
    ProxyState.fetchAdd]
  refine ⟨_, dispatch_target up _ _ req, ⟨⟨weighted, hPick, hCluster⟩, rfl, ?_⟩, ?_⟩
  · exact List.getElem?_eq_getElem _
  · rw [dispatch_state, UInt64.add_assoc]
    rfl

/-! ## A run of requests -/

/-- Successive requests draw from counter values two apart. -/
theorem forwardAll_draws (up : Upstream) {route : Route} {server : ProxyServer} {reqs : List Request}
    (hRoute : ∀ req ∈ reqs, server.state.config.routeFor HTTP_LISTENER_PORT req.matchInput = .ok route)
    (hTotal : totalWeight route.weightedClusters ≠ 0)
    (hHealthy : HealthyPicks server.state.config route.weightedClusters) :
    List.Forall₂ (fun k target => Draws server.state.config route.weightedClusters
        (server.state.pickerCounter + 2 * UInt64.ofNat k) target)
      (List.range reqs.length) (targets (forwardAll up server reqs).2) := by
  induction reqs generalizing server with
  | nil => exact .nil
  | cons req rest ih =>
    obtain ⟨target, hTarget, hDrawn, hState⟩ :=
      forward_draws up (hRoute req List.mem_cons_self) hTotal hHealthy
    have hConfig : (forward up server req).1.state.config = server.state.config := by rw [hState]
    have hRest : ∀ r ∈ rest, (forward up server req).1.state.config.routeFor HTTP_LISTENER_PORT
        r.matchInput = .ok route := by
      rw [hConfig]
      exact fun r hr => hRoute r (List.mem_cons_of_mem _ hr)
    have hTail := ih hRest (by rw [hConfig]; exact hHealthy)
    rw [List.length_cons, List.range_succ_eq_map]
    simp only [forwardAll, targets, List.filterMap_cons, hTarget]
    refine .cons ?_ ?_
    · simpa using hDrawn
    · rw [List.forall₂_map_left_iff]
      refine hTail.imp fun k t hDraw => ?_
      have hNext : UInt64.ofNat (k + 1) = UInt64.ofNat k + 1 := UInt64.ofNat_add k 1
      rw [hState] at hDraw
      rw [Nat.succ_eq_add_one, hNext, UInt64.mul_add, UInt64.mul_one, UInt64.add_comm _ 2,
        ← UInt64.add_assoc]
      exact hDraw

/-! ## Endpoints -/

/-- Each healthy endpoint of the cluster gets exactly one of the requests. -/
structure RoundRobin (cluster : Cluster) (outs : List Forwarded) : Prop where
  endpoints : ∀ target ∈ targets outs, target.cluster = cluster ∧
    cluster.healthyEndpoints[target.endpointIndex]? = some target.endpoint
  once : ((targets outs).map (·.endpointIndex)).Perm (List.range cluster.healthyEndpoints.length)

theorem totalWeight_append (xs ys : List WeightedCluster) :
    totalWeight (xs ++ ys) = totalWeight xs + totalWeight ys := by
  simp [totalWeight]

theorem totalWeight_zeros {clusters : List WeightedCluster} (h : ∀ w ∈ clusters, w.weight = 0) :
    totalWeight clusters = 0 := by
  induction clusters with
  | nil => rfl
  | cons w ws ih =>
    rw [totalWeight_cons, h w List.mem_cons_self, ih fun v hv => h v (List.mem_cons_of_mem _ hv)]
    rfl

theorem findByWeight_zeros {next : UInt32} {zeros : List WeightedCluster} (rest : List WeightedCluster)
    (start : Nat) (h : ∀ w ∈ zeros, w.weight = 0) :
    findByWeight next start 0 (zeros ++ rest) = findByWeight next (start + zeros.length) 0 rest := by
  induction zeros generalizing start with
  | nil => rfl
  | cons w ws ih =>
    have hNotLess : ¬ next < 0 := UInt32.not_lt_zero
    rw [List.cons_append, findByWeight, h w List.mem_cons_self, UInt32.add_zero, if_neg hNotLess,
      ih (start + 1) fun v hv => h v (List.mem_cons_of_mem _ hv), List.length_cons]
    congr 1
    omega

theorem toNat_endpoint_draw (counter : UInt64) (k : Nat) :
    (counter + 2 * UInt64.ofNat k + 1).toNat = ((counter.toNat + 1) % 2 ^ 64 + 2 * k) % (2 * 2 ^ 63) := by
  simp only [UInt64.toNat_add, UInt64.toNat_mul, UInt64.toNat_ofNat', UInt64.reduceToNat]
  omega

/-- With one cluster of positive weight, as many successive requests as it has healthy endpoints reach
each of them once exactly when that number is odd and the counter does not wrap on the way. -/
theorem roundRobin_iff (up : Upstream) (server : ProxyServer) (reqs : List Request) (route : Route)
    (before after : List WeightedCluster) (weighted : WeightedCluster) (cluster : Cluster)
    (hRoute : ∀ req ∈ reqs, server.state.config.routeFor HTTP_LISTENER_PORT req.matchInput = .ok route)
    (hClusters : route.weightedClusters = before ++ weighted :: after) (hWeight : 0 < weighted.weight)
    (hZero : ∀ w ∈ before ++ after, w.weight = 0)
    (hCluster : server.state.config.cluster weighted.name = some cluster)
    (hHealthy : 0 < cluster.healthyEndpoints.length)
    (hCount : reqs.length = cluster.healthyEndpoints.length) :
    RoundRobin cluster (forwardAll up server reqs).2 ↔
      cluster.healthyEndpoints.length % 2 = 1 ∧
        (server.state.pickerCounter.toNat + 1) % 2 ^ 64 + 2 * (cluster.healthyEndpoints.length - 1) <
          2 ^ 64 := by
  have hBefore : ∀ w ∈ before, w.weight = 0 := fun w hw => hZero w (List.mem_append_left _ hw)
  have hAfter : ∀ w ∈ after, w.weight = 0 := fun w hw => hZero w (List.mem_append_right _ hw)
  have hTotal : totalWeight route.weightedClusters = weighted.weight := by
    rw [hClusters, totalWeight_append, totalWeight_cons, totalWeight_zeros hBefore,
      totalWeight_zeros hAfter, UInt32.zero_add, UInt32.add_zero]
  have hPick : ∀ next < weighted.weight,
      findByWeight next 0 0 route.weightedClusters = some (before.length, weighted) := by
    intro next hNext
    rw [hClusters, findByWeight_zeros _ 0 hBefore, findByWeight, UInt32.zero_add, if_pos hNext,
      Nat.zero_add]
  have hPicks : HealthyPicks server.state.config route.weightedClusters := by
    intro next hNext i found hFound
    rw [hPick next (hTotal ▸ hNext)] at hFound
    cases hFound
    exact ⟨cluster, hCluster, hHealthy⟩
  have hDraws := forwardAll_draws up hRoute (hTotal ▸ UInt32.pos_iff_ne_zero.mp hWeight) hPicks
  have hTarget : ∀ counter target, Draws server.state.config route.weightedClusters counter target →
      target.cluster = cluster := by
    rintro counter target ⟨⟨found, hFound, hName⟩, _, _⟩
    rw [hPick _ (by rw [hTotal]; exact UInt32.mod_lt _ hWeight), Option.some.injEq, Prod.mk.injEq] at hFound
    obtain ⟨_, rfl⟩ := hFound
    exact Option.some.inj (hName.symm.trans hCluster)
  -- both pickers advance the one counter, so the endpoint draws are every second value of it
  have hIndices : (targets (forwardAll up server reqs).2).map (·.endpointIndex) =
      (List.range cluster.healthyEndpoints.length).map fun k =>
        ((server.state.pickerCounter.toNat + 1) % 2 ^ 64 + 2 * k) % (2 * 2 ^ 63) %
          cluster.healthyEndpoints.length := by
    rw [← hCount]
    refine Runs.map_eq_map_of_forall₂ hDraws fun k target hDraw => ?_
    rw [hDraw.index, hTarget _ target hDraw, toNat_endpoint_draw, hCount]
  have hEndpoints : ∀ target ∈ targets (forwardAll up server reqs).2, target.cluster = cluster ∧
      cluster.healthyEndpoints[target.endpointIndex]? = some target.endpoint := by
    intro target hMem
    obtain ⟨k, _, hDraw⟩ := Runs.exists_of_forall₂_right hDraws hMem
    rw [← hTarget _ target hDraw]
    exact ⟨rfl, hDraw.endpoint⟩
  have hModulus : 2 * 2 ^ 63 = 2 ^ 64 := by norm_num
  have hPerm := Residues.range_map_wrap_perm_iff 63 hHealthy
    (show (server.state.pickerCounter.toNat + 1) % 2 ^ 64 < 2 * 2 ^ 63 by omega)
  rw [← hIndices, hModulus] at hPerm
  exact ⟨fun h => hPerm.mp h.once, fun h => ⟨hEndpoints, hPerm.mpr h⟩⟩

theorem roundRobin_three_endpoints :
    RoundRobin (sampleCluster "c" [1, 2, 3])
      (forwardAll sampleUpstream (sampleServer (sampleConfig [⟨"c", 100⟩] [sampleCluster "c" [1, 2, 3]]))
        [sampleRequest, sampleRequest, sampleRequest]).2 :=
  (roundRobin_iff sampleUpstream
    (sampleServer (sampleConfig [⟨"c", 100⟩] [sampleCluster "c" [1, 2, 3]]))
    [sampleRequest, sampleRequest, sampleRequest] (sampleRoute [⟨"c", 100⟩]) [] [] ⟨"c", 100⟩
    (sampleCluster "c" [1, 2, 3]) (by decide) rfl (by decide) (by decide) (by decide) (by decide)
    (by decide)).mpr (by decide)

/-- Of two healthy endpoints one gets both requests. -/
theorem twoEndpoints_not_roundRobin :
    (sampleConfig [⟨"c", 100⟩] [sampleCluster "c" [1, 2]]).validate = .ok () ∧
    (sampleConfig [⟨"c", 100⟩] [sampleCluster "c" [1, 2]]).routeFor HTTP_LISTENER_PORT
      sampleRequest.matchInput = .ok (sampleRoute [⟨"c", 100⟩]) ∧
    ¬ RoundRobin (sampleCluster "c" [1, 2])
      (forwardAll sampleUpstream (sampleServer (sampleConfig [⟨"c", 100⟩] [sampleCluster "c" [1, 2]]))
        [sampleRequest, sampleRequest]).2 := by
  refine ⟨by decide, by decide, ?_⟩
  intro h
  exact absurd h.once (by decide)

/-! ## Clusters -/

/-- Each cluster gets as many of the requests as its weight says. -/
def WeightedSplit (clusters : List WeightedCluster) (outs : List Forwarded) : Prop :=
  ∀ i weighted, clusters[i]? = some weighted →
    ((targets outs).map (·.clusterIndex)).count i = weighted.weight.toNat

theorem weightSum_take_even {clusters : List WeightedCluster}
    (h : ∀ w ∈ clusters, w.weight.toNat % 2 = 0) (i : Nat) : weightSum (clusters.take i) % 2 = 0 := by
  induction clusters generalizing i with
  | nil => simp [weightSum]
  | cons w ws ih =>
    cases i with
    | zero => simp [weightSum]
    | succ i =>
      have hHead := h w List.mem_cons_self
      have hRest := ih (fun v hv => h v (List.mem_cons_of_mem _ hv)) i
      rw [List.take_succ_cons, weightSum_cons]
      omega

theorem Draws.clusterIndex_iff {cfg : RuntimeConfig} {clusters : List WeightedCluster} {counter : UInt64}
    {target : Target} (h : Draws cfg clusters counter target) (hFits : weightSum clusters < 2 ^ 32)
    (i : Nat) : target.clusterIndex = i ↔
      weightSum (clusters.take i) ≤ counter.toUInt32.toNat % weightSum clusters ∧
        counter.toUInt32.toNat % weightSum clusters < weightSum (clusters.take (i + 1)) := by
  obtain ⟨⟨weighted, hFound, _⟩, _, _⟩ := h
  have hPosition := findByWeight_positionAt hFits counter
  rw [hFound, Option.map_some, ← UInt64.toNat_toUInt32] at hPosition
  have hIndex : target.clusterIndex = i ↔
      positionAt clusters (counter.toUInt32.toNat % weightSum clusters) = some i := by
    rw [← hPosition, Option.some.injEq]
  rw [hIndex, positionAt_eq_some, and_iff_right_iff_imp]
  rintro ⟨hLow, hHigh⟩
  by_contra hPast
  rw [List.take_of_length_le (by omega)] at hLow hHigh
  omega

theorem count_clusterIndex (up : Upstream) {server : ProxyServer} {reqs : List Request} {route : Route}
    (hRoute : ∀ req ∈ reqs, server.state.config.routeFor HTTP_LISTENER_PORT req.matchInput = .ok route)
    (hCounter : server.state.pickerCounter.toNat < 2 ^ 31)
    (hPositive : 0 < weightSum route.weightedClusters) (hSmall : weightSum route.weightedClusters < 2 ^ 20)
    (hHealthy : HealthyPicks server.state.config route.weightedClusters)
    (hCount : reqs.length = weightSum route.weightedClusters) (i : Nat) :
    ((targets (forwardAll up server reqs).2).map (·.clusterIndex)).count i =
      ((List.range (weightSum route.weightedClusters)).map fun k =>
        (server.state.pickerCounter.toNat + 2 * k) % weightSum route.weightedClusters).countP fun r =>
          weightSum (route.weightedClusters.take i) ≤ r ∧
            r < weightSum (route.weightedClusters.take (i + 1)) := by
  have hFits : weightSum route.weightedClusters < 2 ^ 32 := by omega
  have hTotal : totalWeight route.weightedClusters ≠ 0 := by
    intro hZero
    have hSum := toNat_totalWeight hFits
    rw [hZero] at hSum
    exact absurd hSum.symm (Nat.ne_of_gt hPositive)
  have hDraws := forwardAll_draws up hRoute hTotal hHealthy
  have hMembers : List.Forall₂ (fun k target => k < weightSum route.weightedClusters ∧
      Draws server.state.config route.weightedClusters
        (server.state.pickerCounter + 2 * UInt64.ofNat k) target)
      (List.range (weightSum route.weightedClusters)) (targets (forwardAll up server reqs).2) := by
    rw [← hCount]
    rw [List.forall₂_and_left]
    exact ⟨fun k hk => List.mem_range.mp hk, hDraws⟩
  have hHits := Runs.map_eq_map_of_forall₂ (f := fun target => decide (target.clusterIndex = i))
    (g := fun k => decide (weightSum (route.weightedClusters.take i) ≤
        (server.state.pickerCounter.toNat + 2 * k) % weightSum route.weightedClusters ∧
      (server.state.pickerCounter.toNat + 2 * k) % weightSum route.weightedClusters <
        weightSum (route.weightedClusters.take (i + 1)))) hMembers ?_
  · have hLeft : ((targets (forwardAll up server reqs).2).map (·.clusterIndex)).count i =
        ((targets (forwardAll up server reqs).2).map fun target =>
          decide (target.clusterIndex = i)).countP id := by
      rw [List.count, List.countP_map, List.countP_map]
      refine List.countP_congr fun target _ => ?_
      simp
    rw [hLeft, hHits, List.countP_map, List.countP_map]
    rfl
  · rintro k target ⟨hk, hDraw⟩
    have hValue : (server.state.pickerCounter + 2 * UInt64.ofNat k).toUInt32.toNat =
        server.state.pickerCounter.toNat + 2 * k := by
      simp only [UInt64.toNat_toUInt32, UInt64.toNat_add, UInt64.toNat_mul, UInt64.toNat_ofNat',
        UInt64.reduceToNat]
      omega
    have hIff := hDraw.clusterIndex_iff hFits i
    rw [hValue] at hIff
    exact decide_eq_decide.mpr hIff

/-- With weights that sum to `T`, the next `T` requests are split by weight exactly when `T` is odd or
every weight is even. -/
theorem weightedSplit_iff (up : Upstream) (server : ProxyServer) (reqs : List Request) (route : Route)
    (hRoute : ∀ req ∈ reqs, server.state.config.routeFor HTTP_LISTENER_PORT req.matchInput = .ok route)
    (hCounter : server.state.pickerCounter.toNat < 2 ^ 31)
    (hPositive : 0 < weightSum route.weightedClusters) (hSmall : weightSum route.weightedClusters < 2 ^ 20)
    (hHealthy : ∀ weighted ∈ route.weightedClusters, ∃ cluster,
      server.state.config.cluster weighted.name = some cluster ∧ 0 < cluster.healthyEndpoints.length)
    (hCount : reqs.length = weightSum route.weightedClusters) :
    WeightedSplit route.weightedClusters (forwardAll up server reqs).2 ↔
      weightSum route.weightedClusters % 2 = 1 ∨
        ∀ weighted ∈ route.weightedClusters, weighted.weight.toNat % 2 = 0 := by
  have hPicks : HealthyPicks server.state.config route.weightedClusters := by
    intro next _ i weighted hFound
    obtain ⟨j, _, hGet⟩ := findByWeight_get hFound
    exact hHealthy weighted (List.mem_of_getElem? hGet)
  have hDrawn := count_clusterIndex up hRoute hCounter hPositive hSmall hPicks hCount
  unfold WeightedSplit
  simp only [hDrawn]
  rcases Nat.mod_two_eq_zero_or_one (weightSum route.weightedClusters) with hEven | hOdd
  · obtain ⟨half, hHalf⟩ : ∃ half, weightSum route.weightedClusters = 2 * half :=
      ⟨weightSum route.weightedClusters / 2, by omega⟩
    rw [hHalf]
    have hPerm := Residues.range_map_mod_even_perm server.state.pickerCounter.toNat
      (show 0 < half by omega)
    simp only [hPerm.countP_eq, List.countP_append]
    constructor
    · intro hSplit
      refine Or.inr fun weighted hMem => ?_
      obtain ⟨i, hGet⟩ := List.mem_iff_getElem?.mp hMem
      have hWeight := hSplit i weighted hGet
      omega
    · rintro (hOdd | hWeights)
      · omega
      · intro i weighted hGet
        have hLow := weightSum_take_even hWeights i
        have hHigh := weightSum_take_even hWeights (i + 1)
        have hStep := weightSum_take_succ hGet
        have hTop := weightSum_take_le route.weightedClusters (i + 1)
        have hBlock : ((List.range half).map fun j => server.state.pickerCounter.toNat % 2 + 2 * j).countP
            (fun r => weightSum (route.weightedClusters.take i) ≤ r ∧
              r < weightSum (route.weightedClusters.take (i + 1))) =
            (List.range half).countP fun j => weightSum (route.weightedClusters.take i) / 2 ≤ j ∧
              j < weightSum (route.weightedClusters.take (i + 1)) / 2 := by
          rw [List.countP_map]
          refine List.countP_congr fun j _ => ?_
          simp only [Function.comp_apply, decide_eq_true_eq]
          omega
        rw [hBlock, Residues.countP_range_interval half (by omega)]
        omega
  · have hPerm := Residues.range_map_mod_perm server.state.pickerCounter.toNat hPositive
      (Nat.coprime_two_right.mpr (Nat.odd_iff.mpr hOdd))
    exact ⟨fun _ => Or.inl hOdd, fun _ i weighted hGet => countP_interval hPerm hGet⟩

theorem weightedSplit_one_two :
    WeightedSplit [⟨"c", 1⟩, ⟨"d", 2⟩]
      (forwardAll sampleUpstream (sampleServer (sampleConfig [⟨"c", 1⟩, ⟨"d", 2⟩]
        [sampleCluster "c" [1], sampleCluster "d" [1, 2]]))
        [sampleRequest, sampleRequest, sampleRequest]).2 :=
  (weightedSplit_iff sampleUpstream (sampleServer (sampleConfig [⟨"c", 1⟩, ⟨"d", 2⟩]
    [sampleCluster "c" [1], sampleCluster "d" [1, 2]])) [sampleRequest, sampleRequest, sampleRequest]
    (sampleRoute [⟨"c", 1⟩, ⟨"d", 2⟩]) (by decide) (by decide) (by decide) (by decide)
    (by
      rintro weighted hMem
      rcases List.mem_cons.mp hMem with rfl | hMem
      · exact ⟨sampleCluster "c" [1], by decide⟩
      · obtain rfl := List.mem_singleton.mp hMem
        exact ⟨sampleCluster "d" [1, 2], by decide⟩)
    (by decide)).mpr (by decide)

/-- Of two clusters with weight one the first gets both requests. -/
theorem equalWeights_not_weightedSplit :
    (sampleConfig [⟨"c", 1⟩, ⟨"d", 1⟩] [sampleCluster "c" [1], sampleCluster "d" [1]]).validate = .ok () ∧
    (sampleConfig [⟨"c", 1⟩, ⟨"d", 1⟩] [sampleCluster "c" [1], sampleCluster "d" [1]]).routeFor
      HTTP_LISTENER_PORT sampleRequest.matchInput = .ok (sampleRoute [⟨"c", 1⟩, ⟨"d", 1⟩]) ∧
    ¬ WeightedSplit [⟨"c", 1⟩, ⟨"d", 1⟩]
      (forwardAll sampleUpstream (sampleServer (sampleConfig [⟨"c", 1⟩, ⟨"d", 1⟩]
        [sampleCluster "c" [1], sampleCluster "d" [1]])) [sampleRequest, sampleRequest]).2 := by
  refine ⟨by decide, by decide, ?_⟩
  intro h
  exact absurd (h 0 ⟨"c", 1⟩ rfl) (by decide)

end Dxgate
