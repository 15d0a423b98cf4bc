import Dxgate.Lib.Residues
import Dxgate.Proxy.Forward

/-! # The cluster picker and its arithmetic

The picker adds weights in 32 bits and cuts the 64-bit counter to 32 bits before it takes the remainder.
The first part says for which weights this is what the same search over unbounded numbers finds. The
second part is about callers that interleave: on consecutive counter values the clusters are hit as
often as their weights say.
-/

namespace Dxgate

set_option autoImplicit false

def weightSum (clusters : List WeightedCluster) : Nat := (clusters.map (·.weight.toNat)).sum

theorem weightSum_cons (w : WeightedCluster) (ws : List WeightedCluster) :
    weightSum (w :: ws) = w.weight.toNat + weightSum ws := by
  simp [weightSum]

theorem weightSum_take_succ {clusters : List WeightedCluster} {i : Nat} {weighted : WeightedCluster}
    (h : clusters[i]? = some weighted) :
    weightSum (clusters.take (i + 1)) = weightSum (clusters.take i) + weighted.weight.toNat := by
  induction clusters generalizing i with
  | nil => cases h
  | cons w ws ih =>
    cases i with
    | zero =>
      cases h
      simp [weightSum]
    | succ i =>
      rw [List.take_succ_cons, List.take_succ_cons, weightSum_cons, weightSum_cons,
        ih (by simpa using h), Nat.add_assoc]

theorem weightSum_take_le (clusters : List WeightedCluster) (i : Nat) :
    weightSum (clusters.take i) ≤ weightSum clusters := by
  induction clusters generalizing i with
  | nil => simp
  | cons w ws ih =>
    cases i with
    | zero => simp [weightSum]
    | succ i =>
      have hRest := ih i
      rw [List.take_succ_cons, weightSum_cons, weightSum_cons]
      omega

theorem weightSum_take_mono (clusters : List WeightedCluster) {i j : Nat} (h : i ≤ j) :
    weightSum (clusters.take i) ≤ weightSum (clusters.take j) := by
  have hTake := weightSum_take_le (clusters.take j) i
  rwa [List.take_take, Nat.min_eq_left h] at hTake

theorem toNat_totalWeight_mod (clusters : List WeightedCluster) :
    (totalWeight clusters).toNat = weightSum clusters % 2 ^ 32 := by
  induction clusters with
  | nil => rfl
  | cons w ws ih =>
    rw [totalWeight_cons, weightSum_cons, UInt32.toNat_add, ih]
    omega

theorem toNat_totalWeight {clusters : List WeightedCluster} (h : weightSum clusters < 2 ^ 32) :
    (totalWeight clusters).toNat = weightSum clusters := by
  rw [toNat_totalWeight_mod, Nat.mod_eq_of_lt h]

/-- The first position whose prefix sum exceeds `r`. -/
def positionAt (clusters : List WeightedCluster) (r : Nat) : Option Nat :=
  (List.range clusters.length).find? fun i => r < weightSum (clusters.take (i + 1))

/-- What the picker finds when the weights and the counter are unbounded numbers. -/
def idealPosition (clusters : List WeightedCluster) (counter : Nat) : Option Nat :=
  if weightSum clusters = 0 then clusters.head?.map fun _ => 0
  else positionAt clusters (counter % weightSum clusters)

/-! ## One pick -/

/-- The cursor of the search is the prefix sum, modulo 2^32. -/
theorem findByWeight_position (next : UInt32) (start : Nat) (cursor : UInt32)
    (clusters : List WeightedCluster) :
    (findByWeight next start cursor clusters).map (·.1) =
      ((List.range clusters.length).find? fun i =>
        next < cursor + totalWeight (clusters.take (i + 1))).map (start + ·) := by
  induction clusters generalizing start cursor with
  | nil => rfl
  | cons w ws ih =>
    have hHead : cursor + totalWeight ((w :: ws).take (0 + 1)) = cursor + w.weight := by
      rw [List.take_succ_cons, List.take_zero, totalWeight_cons, totalWeight, List.map_nil, List.sum_nil,
        UInt32.add_zero]
    rw [findByWeight, List.length_cons, List.range_succ_eq_map, List.find?_cons, hHead]
    by_cases hHit : next < cursor + w.weight
    · rw [if_pos hHit, decide_eq_true hHit]
      rfl
    · rw [if_neg hHit, decide_eq_false hHit, ih, List.find?_map, Option.map_map]
      congr 1
      · funext i
        simp only [Function.comp_apply]
        omega
      · congr 1
        funext i
        simp only [Function.comp_apply, List.take_succ_cons, totalWeight_cons, UInt32.add_assoc,
          Nat.succ_eq_add_one]

theorem positionAt_eq_some {clusters : List WeightedCluster} {r i : Nat} :
    positionAt clusters r = some i ↔ i < clusters.length ∧
      weightSum (clusters.take i) ≤ r ∧ r < weightSum (clusters.take (i + 1)) := by
  rw [positionAt, List.find?_range_eq_some, List.mem_range]
  constructor
  · rintro ⟨hHit, hLess, hBefore⟩
    refine ⟨hLess, ?_, of_decide_eq_true hHit⟩
    cases i with
    | zero => exact Nat.zero_le r
    | succ i => simpa using hBefore i (Nat.lt_succ_self i)
  · rintro ⟨hLess, hLow, hHigh⟩
    refine ⟨decide_eq_true hHigh, hLess, fun j hj => ?_⟩
    have hMono := weightSum_take_mono clusters (show j + 1 ≤ i from hj)
    simpa using hMono.trans hLow

theorem positionAt_isSome {clusters : List WeightedCluster} {r : Nat} (h : r < weightSum clusters) :
    ∃ i w, positionAt clusters r = some i ∧ clusters[i]? = some w ∧ 0 < w.weight.toNat := by
  have hNonempty : clusters ≠ [] := by
    rintro rfl
    exact absurd h (Nat.not_lt_zero r)
  have hLength : 0 < clusters.length := List.length_pos_iff.mpr hNonempty
  have hSome : (positionAt clusters r).isSome := by
    rw [positionAt, List.find?_isSome]
    refine ⟨clusters.length - 1, List.mem_range.mpr (by omega), decide_eq_true ?_⟩
    rwa [List.take_of_length_le (by omega)]
  obtain ⟨i, hPosition⟩ := Option.isSome_iff_exists.mp hSome
  obtain ⟨hLess, hLow, hHigh⟩ := positionAt_eq_some.mp hPosition
  have hGet : clusters[i]? = some clusters[i] := List.getElem?_eq_getElem hLess
  have hStep := weightSum_take_succ hGet
  exact ⟨i, clusters[i], hPosition, hGet, by omega⟩

theorem positionAt_mono {clusters : List WeightedCluster} {r r' i j : Nat} (h : r ≤ r')
    (hi : positionAt clusters r = some i) (hj : positionAt clusters r' = some j) : i ≤ j := by
  obtain ⟨-, hLow, -⟩ := positionAt_eq_some.mp hi
  obtain ⟨-, -, hHigh⟩ := positionAt_eq_some.mp hj
  by_contra hLess
  have hMono := weightSum_take_mono clusters (show j + 1 ≤ i by omega)
  omega

/-- A cluster of positive weight is hit where its interval begins. -/
theorem positionAt_start {clusters : List WeightedCluster} {i : Nat} {w : WeightedCluster}
    (hGet : clusters[i]? = some w) (hWeight : 0 < w.weight.toNat) :
    weightSum (clusters.take i) < weightSum clusters ∧
      positionAt clusters (weightSum (clusters.take i)) = some i := by
  have hStep := weightSum_take_succ hGet
  have hTop := weightSum_take_le clusters (i + 1)
  refine ⟨by omega, positionAt_eq_some.mpr ⟨?_, Nat.le_refl _, by omega⟩⟩
  exact (List.getElem?_eq_some_iff.mp hGet).1

namespace ProxyState

theorem pickCluster_zero (st : ProxyState) {clusters : List WeightedCluster} (h : totalWeight clusters = 0) :
    (st.pickCluster clusters).2 = clusters.head?.map fun cluster => (0, cluster) := by
  rw [pickCluster]
  dsimp only
  rw [if_pos h]

theorem pickCluster_positive (st : ProxyState) {clusters : List WeightedCluster}
    (h : totalWeight clusters ≠ 0) :
    (st.pickCluster clusters).2 =
      findByWeight (st.pickerCounter.toUInt32 % totalWeight clusters) 0 0 clusters := by
  rw [pickCluster]
  dsimp only
  rw [if_neg h]
  rfl

end ProxyState

/-- The search of a counter value finds the position of its residue, if the weights fit. -/
theorem findByWeight_positionAt {clusters : List WeightedCluster} (hFits : weightSum clusters < 2 ^ 32)
    (counter : UInt64) :
    (findByWeight (counter.toUInt32 % totalWeight clusters) 0 0 clusters).map (·.1) =
      positionAt clusters (counter.toNat % 2 ^ 32 % weightSum clusters) := by
  have hNext : (counter.toUInt32 % totalWeight clusters).toNat =
      counter.toNat % 2 ^ 32 % weightSum clusters := by
    rw [UInt32.toNat_mod, toNat_totalWeight hFits, UInt64.toNat_toUInt32]
  have hTake (i : Nat) : (totalWeight (clusters.take i)).toNat = weightSum (clusters.take i) :=
    toNat_totalWeight (Nat.lt_of_le_of_lt (weightSum_take_le clusters i) hFits)
  rw [findByWeight_position, positionAt]
  simp only [UInt32.zero_add, Nat.zero_add, UInt32.lt_iff_toNat_lt, hNext, hTake, Option.map_id']

theorem totalWeight_eq_zero_iff {clusters : List WeightedCluster} (hFits : weightSum clusters < 2 ^ 32) :
    totalWeight clusters = 0 ↔ weightSum clusters = 0 := by
  rw [← UInt32.toNat_inj, toNat_totalWeight hFits]
  rfl

theorem pickCluster_position {clusters : List WeightedCluster} (hFits : weightSum clusters < 2 ^ 32)
    (st : ProxyState) : (st.pickCluster clusters).2.map (·.1) =
      idealPosition clusters (st.pickerCounter.toNat % 2 ^ 32) := by
  rw [idealPosition]
  by_cases hZero : weightSum clusters = 0
  · rw [if_pos hZero, st.pickCluster_zero ((totalWeight_eq_zero_iff hFits).mpr hZero), Option.map_map]
    rfl
  · rw [if_neg hZero, st.pickCluster_positive (mt (totalWeight_eq_zero_iff hFits).mp hZero),
      findByWeight_positionAt hFits]

/-! ## When the arithmetic is exact -/

/-- The picker finds what it would find with unbounded numbers, at every counter value; no sum of weights
overflows; and no cluster of weight zero is picked while another one has a weight. -/
structure PicksExactly (clusters : List WeightedCluster) : Prop where
  position : ∀ st : ProxyState,
    (st.pickCluster clusters).2.map (·.1) = idealPosition clusters st.pickerCounter.toNat
  noOverflow : ∀ i, (totalWeight (clusters.take i)).toNat = weightSum (clusters.take i)
  weighted : (∃ w ∈ clusters, 0 < w.weight.toNat) → ∀ (st : ProxyState) (i : Nat) (w : WeightedCluster),
    (st.pickCluster clusters).2 = some (i, w) → 0 < w.weight.toNat

def OneWeighted (clusters : List WeightedCluster) : Prop :=
  ∃ p, ∀ (i : Nat) (w : WeightedCluster), clusters[i]? = some w → 0 < w.weight.toNat → i = p

def stateAt (counter : UInt64) : ProxyState :=
  { ProxyState.new (.empty "bootstrap") with pickerCounter := counter }

/-- The position at which the sum of the weights passes 2^32. -/
theorem exists_overflow {clusters : List WeightedCluster} (h : 2 ^ 32 ≤ weightSum clusters) :
    ∃ q w, clusters[q + 1]? = some w ∧ weightSum (clusters.take (q + 1)) < 2 ^ 32 ∧
      2 ^ 32 ≤ weightSum (clusters.take (q + 1)) + w.weight.toNat := by
  classical
  have hEnd : ∃ k, 2 ^ 32 ≤ weightSum (clusters.take k) :=
    ⟨clusters.length, by rwa [List.take_of_length_le (Nat.le_refl _)]⟩
  have hReached := Nat.find_spec hEnd
  have hBefore : ∀ k < Nat.find hEnd, weightSum (clusters.take k) < 2 ^ 32 :=
    fun k hk => Nat.lt_of_not_le (Nat.find_min hEnd hk)
  have hNext : ∀ k w, clusters[k]? = some w →
      weightSum (clusters.take (k + 1)) = weightSum (clusters.take k) + w.weight.toNat :=
    fun k w hGet => weightSum_take_succ hGet
  generalize Nat.find hEnd = k at hReached hBefore
  -- the first two prefixes are too small to be the one that passes 2^32
  match k with
  | 0 => exact absurd hReached (by simp [weightSum])
  | 1 =>
    cases clusters with
    | nil => exact absurd hReached (by simp [weightSum])
    | cons w ws =>
      have hSmall := w.weight.toNat_lt
      simp only [List.take_succ_cons, List.take_zero, weightSum_cons] at hReached
      simp only [weightSum, List.map_nil, List.sum_nil] at hReached
      omega
  | q + 2 =>
    have hLess := hBefore (q + 1) (Nat.lt_succ_self _)
    cases hGet : clusters[q + 1]? with
    | none =>
      rw [List.getElem?_eq_none_iff] at hGet
      rw [List.take_of_length_le hGet] at hLess
      omega
    | some w => exact ⟨q, w, hGet, hLess, hNext (q + 1) w hGet ▸ hReached⟩

theorem not_exact_of_overflow {clusters : List WeightedCluster} (h : 2 ^ 32 ≤ weightSum clusters) :
    ∃ st : ProxyState,
      (st.pickCluster clusters).2.map (·.1) ≠ idealPosition clusters st.pickerCounter.toNat := by
  obtain ⟨q, w, hGet, hLow, hHigh⟩ := exists_overflow h
  have hWeight := w.weight.toNat_lt
  have hStep := weightSum_take_succ hGet
  have hCounter : (UInt64.ofNat (weightSum (clusters.take (q + 1)))).toNat =
      weightSum (clusters.take (q + 1)) := by
    rw [UInt64.toNat_ofNat', Nat.mod_eq_of_lt (by omega)]
  refine ⟨stateAt (UInt64.ofNat (weightSum (clusters.take (q + 1)))), ?_⟩
  have hIdeal : idealPosition clusters
      (stateAt (UInt64.ofNat (weightSum (clusters.take (q + 1))))).pickerCounter.toNat = some (q + 1) := by
    rw [idealPosition, if_neg (by omega), stateAt, hCounter, Nat.mod_eq_of_lt (by omega)]
    exact (positionAt_start hGet (by omega)).2
  rw [hIdeal]
  intro hSame
  by_cases hTotal : totalWeight clusters = 0
  · rw [ProxyState.pickCluster_zero _ hTotal, Option.map_map, Option.map_eq_some_iff] at hSame
    obtain ⟨_, _, hFirst⟩ := hSame
    cases hFirst
  · rw [ProxyState.pickCluster_positive _ hTotal, findByWeight_position, Option.map_eq_some_iff] at hSame
    obtain ⟨i, hFound, hIndex⟩ := hSame
    obtain rfl : i = q + 1 := by omega
    obtain ⟨hHit, -, hBefore⟩ := List.find?_range_eq_some.mp hFound
    have hHit := UInt32.lt_iff_toNat_lt.mp (of_decide_eq_true hHit)
    have hMiss := hBefore q (Nat.lt_succ_self q)
    rw [Bool.not_eq_true', decide_eq_false_iff_not, UInt32.lt_iff_toNat_lt] at hMiss
    rw [UInt32.zero_add, toNat_totalWeight_mod] at hHit hMiss
    omega

/-- If a shift of the residues never moves the position, all residues have one position. -/
theorem oneWeighted_of_shift {clusters : List WeightedCluster} {d : Nat} (hPositive : 0 < d)
    (hLess : d < weightSum clusters)
    (h : ∀ r < weightSum clusters,
      positionAt clusters r = positionAt clusters ((d + r) % weightSum clusters)) :
    OneWeighted clusters := by
  obtain ⟨first, -, hFirst, -, -⟩ := positionAt_isSome (show 0 < weightSum clusters by omega)
  obtain ⟨last, -, hLast, -, -⟩ :=
    positionAt_isSome (show weightSum clusters - 1 < weightSum clusters by omega)
  have hShifted : positionAt clusters d = some first := by
    rw [← hFirst, h 0 (by omega), Nat.add_zero, Nat.mod_eq_of_lt hLess]
  have hBelow : positionAt clusters (d - 1) = some last := by
    have hTurn : d + (weightSum clusters - 1) = d - 1 + weightSum clusters := by omega
    rw [← hLast, h (weightSum clusters - 1) (by omega), hTurn, Nat.add_mod_right, Nat.mod_eq_of_lt (by omega)]
  have hEnds : last ≤ first := positionAt_mono (Nat.sub_le d 1) hBelow hShifted
  refine ⟨first, fun i w hGet hWeight => ?_⟩
  obtain ⟨hStart, hPosition⟩ := positionAt_start hGet hWeight
  have hLow : first ≤ i := positionAt_mono (Nat.zero_le _) hFirst hPosition
  have hHigh : i ≤ last := positionAt_mono (by omega) hPosition hLast
  omega

theorem positionAt_of_oneWeighted {clusters : List WeightedCluster} (h : OneWeighted clusters) {r r' : Nat}
    (hr : r < weightSum clusters) (hr' : r' < weightSum clusters) :
    positionAt clusters r = positionAt clusters r' := by
  obtain ⟨p, hOne⟩ := h
  obtain ⟨i, w, hPosition, hGet, hWeight⟩ := positionAt_isSome hr
  obtain ⟨i', w', hPosition', hGet', hWeight'⟩ := positionAt_isSome hr'
  rw [hPosition, hPosition', hOne i w hGet hWeight, hOne i' w' hGet' hWeight']

/-- The cut of the counter to 32 bits does not move the position. -/
theorem idealPosition_mod {clusters : List WeightedCluster}
    (h : weightSum clusters ∣ 2 ^ 32 ∨ OneWeighted clusters) (counter : Nat) :
    idealPosition clusters (counter % 2 ^ 32) = idealPosition clusters counter := by
  rw [idealPosition, idealPosition]
  by_cases hZero : weightSum clusters = 0
  · rw [if_pos hZero, if_pos hZero]
  · rw [if_neg hZero, if_neg hZero]
    rcases h with hDvd | hOne
    · rw [Nat.mod_mod_of_dvd counter hDvd]
    · have hPositive := Nat.pos_of_ne_zero hZero
      exact positionAt_of_oneWeighted hOne (Nat.mod_lt _ hPositive) (Nat.mod_lt _ hPositive)

theorem weighted_of_pickCluster {clusters : List WeightedCluster} (hFits : weightSum clusters < 2 ^ 32)
    (hSome : ∃ w ∈ clusters, 0 < w.weight.toNat) {st : ProxyState} {i : Nat} {w : WeightedCluster}
    (hPick : (st.pickCluster clusters).2 = some (i, w)) : 0 < w.weight.toNat := by
  obtain ⟨v, hMem, hWeight⟩ := hSome
  obtain ⟨j, hGet⟩ := List.mem_iff_getElem?.mp hMem
  have hPositive := (positionAt_start hGet hWeight).1
  have hPosition := pickCluster_position hFits st
  rw [hPick, idealPosition, if_neg (by omega)] at hPosition
  obtain ⟨k, u, hFound, hAt, hHeavy⟩ := positionAt_isSome
    (Nat.mod_lt (st.pickerCounter.toNat % 2 ^ 32) (show 0 < weightSum clusters by omega))
  obtain ⟨i', w', hPick', hAt'⟩ := st.pickCluster_isSome (List.ne_nil_of_mem hMem)
  obtain ⟨rfl, rfl⟩ : i = i' ∧ w = w' := by
    rw [hPick, Option.some.injEq, Prod.mk.injEq] at hPick'
    exact hPick'
  obtain rfl : i = k := by
    rw [hFound, Option.map_some, Option.some.injEq] at hPosition
    exact hPosition
  rw [hAt, Option.some.injEq] at hAt'
  rwa [← hAt']

/-- The picker is exact at every counter value if the weights sum to less than 2^32 and the sum divides
2^32 or at most one cluster has a weight, and for no other weights. Below 2^32 the counter does no
harm. -/
theorem picksExactly_iff (clusters : List WeightedCluster) :
    (PicksExactly clusters ↔ weightSum clusters < 2 ^ 32 ∧
      (weightSum clusters ∣ 2 ^ 32 ∨ OneWeighted clusters)) ∧
    (weightSum clusters < 2 ^ 32 → ∀ st : ProxyState, st.pickerCounter.toNat < 2 ^ 32 →
      (st.pickCluster clusters).2.map (·.1) = idealPosition clusters st.pickerCounter.toNat) := by
  refine ⟨⟨?_, ?_⟩, ?_⟩
  · intro hExact
    have hFits : weightSum clusters < 2 ^ 32 := by
      by_contra hLarge
      obtain ⟨st, hDiffers⟩ := not_exact_of_overflow (Nat.le_of_not_lt hLarge)
      exact hDiffers (hExact.position st)
    refine ⟨hFits, ?_⟩
    by_contra hNeither
    obtain ⟨hDvd, hOne⟩ := not_or.mp hNeither
    have hPositive : 0 < weightSum clusters := by
      refine Nat.pos_of_ne_zero fun hZero => hOne ⟨0, fun i w hGet hWeight => ?_⟩
      have hStart := (positionAt_start hGet hWeight).1
      omega
    -- the counters from 2^32 on are cut to those from 0 on
    have hShift (r : Nat) (hr : r < weightSum clusters) :
        positionAt clusters r = positionAt clusters ((2 ^ 32 % weightSum clusters + r) % weightSum clusters) := by
      have hCounter : (UInt64.ofNat (2 ^ 32 + r)).toNat = 2 ^ 32 + r := by
        rw [UInt64.toNat_ofNat', Nat.mod_eq_of_lt (by omega)]
      have hCut : (2 ^ 32 + r) % 2 ^ 32 = r := by
        rw [Nat.add_mod_left, Nat.mod_eq_of_lt (by omega)]
      have hSame := hExact.position (stateAt (UInt64.ofNat (2 ^ 32 + r)))
      rw [pickCluster_position hFits, stateAt, hCounter, hCut, idealPosition, idealPosition,
        if_neg (by omega), if_neg (by omega), Nat.mod_eq_of_lt hr] at hSame
      rw [hSame, Nat.mod_add_mod]
    refine hOne (oneWeighted_of_shift ?_ (Nat.mod_lt _ hPositive) hShift)
    exact Nat.pos_of_ne_zero fun hZero => hDvd (Nat.dvd_of_mod_eq_zero hZero)
  · rintro ⟨hFits, hEven⟩
    refine ⟨fun st => ?_, fun i => ?_, fun hSome st i w hPick => weighted_of_pickCluster hFits hSome hPick⟩
    · rw [pickCluster_position hFits, idealPosition_mod hEven]
    · exact toNat_totalWeight (Nat.lt_of_le_of_lt (weightSum_take_le clusters i) hFits)
  · intro hFits st hSmall
    rw [pickCluster_position hFits, Nat.mod_eq_of_lt hSmall]

/-- Weights that an accepted configuration may carry. The sum of the first ones wraps to zero, and a
cluster of weight zero is picked; the others sum to three, and the counter 2^32 is taken for zero. -/
theorem acceptedWeights_not_exact :
    (sampleConfig [⟨"a", 0⟩, ⟨"b", 2147483648⟩, ⟨"c", 2147483648⟩]
      [sampleCluster "a" [], sampleCluster "b" [], sampleCluster "c" []]).validate = .ok () ∧
    ((stateAt 0).pickCluster [⟨"a", 0⟩, ⟨"b", 2147483648⟩, ⟨"c", 2147483648⟩]).2 = some (0, ⟨"a", 0⟩) ∧
    ¬ PicksExactly [⟨"a", 0⟩, ⟨"b", 2147483648⟩, ⟨"c", 2147483648⟩] ∧
    (sampleConfig [⟨"a", 1⟩, ⟨"b", 2⟩] [sampleCluster "a" [], sampleCluster "b" []]).validate = .ok () ∧
    ((stateAt 4294967296).pickCluster [⟨"a", 1⟩, ⟨"b", 2⟩]).2.map (·.1) = some 0 ∧
    idealPosition [⟨"a", 1⟩, ⟨"b", 2⟩] 4294967296 = some 1 := by
  refine ⟨by decide, by decide, ?_, by decide, by decide, by decide⟩
  intro hExact
  have hWeight := hExact.weighted ⟨⟨"b", 2147483648⟩, by decide, by decide⟩ (stateAt 0) 0 ⟨"a", 0⟩ (by decide)
  exact absurd hWeight (by decide)

/-! ## Callers that interleave -/

/-- How far a call of `pickCluster` has come. Between its two steps other calls may move. -/
inductive PickCall where
  | called
  | drawn (counter : UInt64)
  | returned (counter : Option UInt64) (pick : Option (Nat × WeightedCluster))
  deriving DecidableEq

namespace PickCall

def step (clusters : List WeightedCluster) (st : ProxyState) : PickCall → ProxyState × PickCall
  | .called =>
    if totalWeight clusters = 0 then
      (st, .returned none (clusters.head?.map fun cluster => (0, cluster)))
    else
      let (counter, st) := st.fetchAdd
      (st, .drawn counter)
  | .drawn counter =>
    (st, .returned (some counter) (findByWeight (counter.toUInt32 % totalWeight clusters) 0 0 clusters))
  | .returned counter pick => (st, .returned counter pick)

/-- The value the call has taken from the counter. -/
def counter? : PickCall → Option UInt64
  | .called => none
  | .drawn counter => some counter
  | .returned counter _ => counter

def position? : PickCall → Option Nat
  | .returned _ pick => pick.map (·.1)
  | _ => none

def stepsDone : PickCall → Nat
  | .called => 0
  | .drawn _ => 1
  | .returned _ _ => 2

/-- A call whose two steps are not interrupted is the function. -/
theorem step_step_called (clusters : List WeightedCluster) (st : ProxyState) :
    ∃ counter, step clusters (step clusters st .called).1 (step clusters st .called).2 =
      ((st.pickCluster clusters).1, .returned counter (st.pickCluster clusters).2) := by
  rw [step, ProxyState.pickCluster]
  dsimp only
  split
  · exact ⟨none, rfl⟩
  · exact ⟨some st.pickerCounter, rfl⟩

end PickCall

structure PickSystem where
  state : ProxyState
  calls : List PickCall

namespace PickSystem

def start (st : ProxyState) (n : Nat) : PickSystem := ⟨st, List.replicate n .called⟩

/-- One step of the call at position `i`, if there is one. -/
def advance (clusters : List WeightedCluster) (sys : PickSystem) (i : Nat) : PickSystem :=
  match sys.calls[i]? with
  | none => sys
  | some call =>
    let (st, call) := call.step clusters sys.state
    ⟨st, sys.calls.set i call⟩

/-- The schedule says which call moves next. -/
def run (clusters : List WeightedCluster) (sys : PickSystem) (schedule : List Nat) : PickSystem :=
  schedule.foldl (advance clusters) sys

/-- The calls have drawn the next `k` values of the counter, one each, and a call that has returned has
searched with its own value. -/
structure Drawn (clusters : List WeightedCluster) (first : UInt64) (sys : PickSystem) (k : Nat) : Prop where
  counter : sys.state.pickerCounter = first + UInt64.ofNat k
  values : (sys.calls.filterMap PickCall.counter?).Perm
    ((List.range k).map fun j => first + UInt64.ofNat j)
  picks : ∀ value pick, .returned value pick ∈ sys.calls → ∃ counter, value = some counter ∧
    pick = findByWeight (counter.toUInt32 % totalWeight clusters) 0 0 clusters

variable {clusters : List WeightedCluster} {first : UInt64} {sys : PickSystem} {k : Nat}

theorem start_drawn (clusters : List WeightedCluster) (st : ProxyState) (n : Nat) :
    Drawn clusters st.pickerCounter (start st n) 0 := by
  refine ⟨(UInt64.add_zero _).symm, ?_, ?_⟩
  · have hNone : (List.replicate n PickCall.called).filterMap PickCall.counter? = [] := by
      simp [List.filterMap_replicate, PickCall.counter?]
    rw [start, hNone]
    exact .refl _
  · intro value pick hMem
    cases List.eq_of_mem_replicate hMem

theorem advance_drawn (hTotal : totalWeight clusters ≠ 0) (h : Drawn clusters first sys k) (i : Nat) :
    ∃ k', Drawn clusters first (sys.advance clusters i) k' := by
  rw [advance]
  cases hCall : sys.calls[i]? with
  | none => exact ⟨k, h⟩
  | some call =>
    obtain ⟨before, after, hSplit, hSet⟩ : ∃ before after, sys.calls = before ++ call :: after ∧
        ∀ next, sys.calls.set i next = before ++ next :: after := by
      obtain ⟨hLess, hGet⟩ := List.getElem?_eq_some_iff.mp hCall
      refine ⟨sys.calls.take i, sys.calls.drop (i + 1), ?_, fun next => ?_⟩
      · rw [← hGet, List.getElem_cons_drop, List.take_append_drop]
      · exact List.set_eq_take_append_cons_drop.trans (if_pos hLess)
    have hValues := h.values
    have hPicks := h.picks
    rw [hSplit] at hValues hPicks
    cases call with
    | called =>
      simp only [PickCall.step, if_neg hTotal, ProxyState.fetchAdd, hSet]
      rw [List.filterMap_append, List.filterMap_cons_none rfl] at hValues
      refine ⟨k + 1, ?_, ?_, ?_⟩
      · dsimp only
        rw [h.counter, UInt64.add_assoc]
        congr 1
        exact (UInt64.ofNat_add k 1).symm
      · rw [List.filterMap_append, List.filterMap_cons_some (f := PickCall.counter?) rfl, List.range_succ, List.map_append,
          List.map_singleton, ← h.counter]
        exact List.perm_middle.trans ((hValues.cons _).trans (List.perm_append_singleton _ _).symm)
      · intro value pick hMem
        refine hPicks value pick ?_
        rcases List.mem_append.mp hMem with hBefore | hAfter
        · exact List.mem_append_left _ hBefore
        · refine List.mem_append_right _ (List.mem_cons_of_mem _ ?_)
          exact (List.mem_cons.mp hAfter).resolve_left nofun
    | drawn counter =>
      simp only [PickCall.step, hSet]
      refine ⟨k, h.counter, ?_, ?_⟩
      · rw [List.filterMap_append] at hValues ⊢
        exact hValues
      · intro value pick hMem
        rcases List.mem_append.mp hMem with hBefore | hAfter
        · exact hPicks value pick (List.mem_append_left _ hBefore)
        · rcases List.mem_cons.mp hAfter with hSame | hRest
          · cases hSame
            exact ⟨counter, rfl, rfl⟩
          · exact hPicks value pick (List.mem_append_right _ (List.mem_cons_of_mem _ hRest))
    | returned value pick =>
      simp only [PickCall.step, hSet]
      rw [← hSplit]
      exact ⟨k, h⟩

theorem run_drawn (hTotal : totalWeight clusters ≠ 0) (h : Drawn clusters first sys k)
    (schedule : List Nat) : ∃ k', Drawn clusters first (sys.run clusters schedule) k' := by
  induction schedule generalizing sys k with
  | nil => exact ⟨k, h⟩
  | cons i schedule ih =>
    obtain ⟨k', hNext⟩ := advance_drawn hTotal h i
    exact ih hNext

/-- The step that a call takes when it is scheduled moves it on; no other step does. -/
theorem advance_stepsDone (hTotal : totalWeight clusters ≠ 0) {i done : Nat} (j : Nat)
    (h : sys.calls[i]?.map PickCall.stepsDone = some done) :
    (sys.advance clusters j).calls[i]?.map PickCall.stepsDone =
      some (if j = i then min 2 (done + 1) else done) := by
  rw [advance]
  by_cases hSame : j = i
  · subst hSame
    obtain ⟨call, hCall, rfl⟩ := Option.map_eq_some_iff.mp h
    have hLess := (List.getElem?_eq_some_iff.mp hCall).1
    rw [hCall, if_pos rfl]
    dsimp only
    rw [List.getElem?_set_self hLess, Option.map_some]
    cases call with
    | called =>
      rw [PickCall.step, if_neg hTotal]
      rfl
    | drawn counter => rfl
    | returned value pick => rfl
  · rw [if_neg hSame]
    cases sys.calls[j]? with
    | none => exact h
    | some call =>
      dsimp only
      rw [List.getElem?_set_ne hSame]
      exact h

theorem run_stepsDone (hTotal : totalWeight clusters ≠ 0) {i done : Nat} (schedule : List Nat)
    (hLe : done ≤ 2) (h : sys.calls[i]?.map PickCall.stepsDone = some done) :
    (sys.run clusters schedule).calls[i]?.map PickCall.stepsDone =
      some (min 2 (done + schedule.count i)) := by
  induction schedule generalizing sys done with
  | nil =>
    rw [List.count_nil, Nat.add_zero, Nat.min_eq_right hLe]
    exact h
  | cons j schedule ih =>
    have hNext := advance_stepsDone hTotal j h
    rw [run, List.foldl_cons]
    refine (ih ?_ hNext).trans ?_
    · split <;> omega
    · rw [List.count_cons, Option.some.injEq]
      by_cases hSame : j = i
      · simp only [hSame, if_true, beq_self_eq_true]
        omega
      · simp only [if_neg hSame, beq_eq_false_iff_ne.mpr hSame, Bool.false_eq_true, if_false, Nat.add_zero]

theorem length_run (sys : PickSystem) (schedule : List Nat) :
    (sys.run clusters schedule).calls.length = sys.calls.length := by
  induction schedule generalizing sys with
  | nil => rfl
  | cons i schedule ih =>
    rw [run, List.foldl_cons]
    refine (ih _).trans ?_
    rw [advance]
    cases sys.calls[i]? with
    | none => rfl
    | some call => exact List.length_set

/-- When every call has been scheduled twice, the calls have returned what the search finds for the next
values of the counter, each for one of them. -/
theorem run_returned (hTotal : totalWeight clusters ≠ 0) (st : ProxyState) {n : Nat} {schedule : List Nat}
    (hAll : ∀ i < n, 2 ≤ schedule.count i) :
    ((start st n).run clusters schedule).calls.Perm ((List.range n).map fun k =>
      .returned (some (st.pickerCounter + UInt64.ofNat k))
        (findByWeight ((st.pickerCounter + UInt64.ofNat k).toUInt32 % totalWeight clusters) 0 0 clusters)) := by
  obtain ⟨k, hDrawn⟩ := run_drawn hTotal (start_drawn clusters st n) schedule
  have hLength : ((start st n).run clusters schedule).calls.length = n :=
    (length_run _ _).trans List.length_replicate
  generalize hRun : (start st n).run clusters schedule = final at hDrawn hLength ⊢
  have hReturned : ∀ call ∈ final.calls, ∃ counter, call =
      .returned (some counter) (findByWeight (counter.toUInt32 % totalWeight clusters) 0 0 clusters) := by
    intro call hMem
    obtain ⟨i, hGet⟩ := List.mem_iff_getElem?.mp hMem
    have hLess : i < n := hLength ▸ (List.getElem?_eq_some_iff.mp hGet).1
    have hStart : (start st n).calls[i]?.map PickCall.stepsDone = some 0 := by
      rw [start, List.getElem?_replicate_of_lt hLess]
      rfl
    have hDone := run_stepsDone hTotal schedule (Nat.zero_le 2) hStart
    have hTwice := hAll i hLess
    rw [hRun, hGet, Option.map_some, Option.some.injEq, Nat.zero_add, Nat.min_eq_left hTwice] at hDone
    cases call with
    | called => cases hDone
    | drawn counter => cases hDone
    | returned value pick =>
      obtain ⟨counter, rfl, rfl⟩ := hDrawn.picks value pick hMem
      exact ⟨counter, rfl⟩
  have hCalls : final.calls = (final.calls.filterMap PickCall.counter?).map fun counter =>
      .returned (some counter) (findByWeight (counter.toUInt32 % totalWeight clusters) 0 0 clusters) := by
    rw [List.map_filterMap]
    refine (List.filterMap_some.symm.trans (List.filterMap_congr fun call hMem => ?_))
    obtain ⟨counter, rfl⟩ := hReturned call hMem
    rfl
  have hCount : k = n := by
    have hValues := hDrawn.values.length_eq
    rw [hCalls, List.length_map] at hLength
    rw [hLength, List.length_map, List.length_range] at hValues
    exact hValues.symm
  have hPerm := hDrawn.values.map fun counter => PickCall.returned (some counter)
    (findByWeight (counter.toUInt32 % totalWeight clusters) 0 0 clusters)
  rw [← hCalls, List.map_map, hCount] at hPerm
  exact hPerm

end PickSystem

/-- All calls have returned an entry of the list. In the order of their counter values, which are
consecutive, the picks repeat after as many calls as the weights sum to; and that many calls hit each
position as often as its weight says. -/
structure SplitsByWeight (clusters : List WeightedCluster) (first : UInt64) (calls : List PickCall) :
    Prop where
  returned : ∀ call ∈ calls, ∃ counter i w,
    call = .returned (some counter) (some (i, w)) ∧ clusters[i]? = some w
  periodic : ∃ pick : Nat → Option (Nat × WeightedCluster),
    calls.Perm ((List.range calls.length).map fun k => .returned (some (first + UInt64.ofNat k)) (pick k)) ∧
    (∀ k < calls.length, (first + UInt64.ofNat k).toNat = first.toNat + k) ∧
    ∀ k, k + weightSum clusters < calls.length → pick (k + weightSum clusters) = pick k
  shares : calls.length = weightSum clusters → ∀ i w, clusters[i]? = some w →
    (calls.map PickCall.position?).count (some i) = w.weight.toNat

/-- Residues that are all hit once hit the interval of a position as often as its weight says. -/
theorem countP_interval {clusters : List WeightedCluster} {residues : List Nat}
    (hPerm : residues.Perm (List.range (weightSum clusters))) {i : Nat} {w : WeightedCluster}
    (hGet : clusters[i]? = some w) :
    residues.countP (fun r => weightSum (clusters.take i) ≤ r ∧ r < weightSum (clusters.take (i + 1))) =
      w.weight.toNat := by
  have hStep := weightSum_take_succ hGet
  have hTop := weightSum_take_le clusters (i + 1)
  rw [hPerm.countP_eq, Residues.countP_range_interval _ (by omega)]
  omega

/-- As many consecutive residues as the weights sum to hit each position as often as its weight says. -/
theorem count_positionAt {clusters : List WeightedCluster} (hPositive : 0 < weightSum clusters) (b : Nat)
    {i : Nat} {w : WeightedCluster} (hGet : clusters[i]? = some w) :
    ((List.range (weightSum clusters)).map fun k =>
      positionAt clusters ((b + k) % weightSum clusters)).count (some i) = w.weight.toNat := by
  have hLess := (List.getElem?_eq_some_iff.mp hGet).1
  have hPerm := Residues.range_map_mod_perm b hPositive (Nat.coprime_one_right (weightSum clusters))
  rw [← countP_interval hPerm hGet, List.count, List.countP_map, List.countP_map]
  refine List.countP_congr fun k _ => ?_
  simp only [Function.comp_apply, Nat.one_mul, beq_iff_eq, positionAt_eq_some, decide_eq_true_eq, hLess,
    true_and]

/-- Any interleaving of any number of calls on one list, alone with the counter and inside one block of
2^32 values. -/
theorem run_splitsByWeight (clusters : List WeightedCluster) (st : ProxyState) (n : Nat)
    (schedule : List Nat) (hPositive : 0 < weightSum clusters) (hFits : weightSum clusters < 2 ^ 32)
    (hBlock : st.pickerCounter.toNat % 2 ^ 32 + n ≤ 2 ^ 32) (hAll : ∀ i < n, 2 ≤ schedule.count i) :
    SplitsByWeight clusters st.pickerCounter ((PickSystem.start st n).run clusters schedule).calls := by
  have hTotal : totalWeight clusters ≠ 0 := by
    intro hZero
    have hSum := (totalWeight_eq_zero_iff hFits).mp hZero
    omega
  have hPerm := PickSystem.run_returned hTotal st hAll
  have hLength : ((PickSystem.start st n).run clusters schedule).calls.length = n :=
    (PickSystem.length_run _ _).trans List.length_replicate
  generalize ((PickSystem.start st n).run clusters schedule).calls = calls at hPerm hLength ⊢
  subst hLength
  have hValue (k : Nat) (hk : k < calls.length) :
      (st.pickerCounter + UInt64.ofNat k).toNat = st.pickerCounter.toNat + k := by
    have hBound := st.pickerCounter.toNat_lt
    rw [UInt64.toNat_add, UInt64.toNat_ofNat']
    omega
  have hNext (k : Nat) (hk : k < calls.length) :
      (st.pickerCounter + UInt64.ofNat k).toNat % 2 ^ 32 = st.pickerCounter.toNat % 2 ^ 32 + k := by
    rw [hValue k hk]
    omega
  refine ⟨fun call hMem => ?_, ⟨_, hPerm, hValue, fun k hk => ?_⟩, fun hCount i w hGet => ?_⟩
  · obtain ⟨k, -, rfl⟩ := List.mem_map.mp (hPerm.mem_iff.mp hMem)
    obtain ⟨i, w, hPick, hGet⟩ := (stateAt (st.pickerCounter + UInt64.ofNat k)).pickCluster_isSome
      (totalWeight_ne_zero_nonempty hTotal)
    rw [ProxyState.pickCluster_positive _ hTotal] at hPick
    exact ⟨_, i, w, congrArg _ hPick, hGet⟩
  · have hSame : (st.pickerCounter + UInt64.ofNat (k + weightSum clusters)).toUInt32 % totalWeight clusters =
        (st.pickerCounter + UInt64.ofNat k).toUInt32 % totalWeight clusters := by
      rw [← UInt32.toNat_inj, UInt32.toNat_mod, UInt32.toNat_mod, UInt64.toNat_toUInt32,
        UInt64.toNat_toUInt32, toNat_totalWeight hFits, hNext _ hk, hNext k (by omega), ← Nat.add_assoc,
        Nat.add_mod_right]
    rw [hSame]
  · rw [(hPerm.map PickCall.position?).count_eq, List.map_map, hCount]
    rw [hCount] at hNext
    refine Eq.trans ?_ (count_positionAt hPositive (st.pickerCounter.toNat % 2 ^ 32) hGet)
    refine congrArg _ (List.map_congr_left fun k hk => ?_)
    rw [← hNext k (List.mem_range.mp hk), ← findByWeight_positionAt hFits]
    rfl

/-- Three callers draw one after the other and return in the opposite order. -/
theorem reversedReturns_split :
    SplitsByWeight [⟨"a", 1⟩, ⟨"b", 0⟩, ⟨"c", 2⟩] 7
      ((PickSystem.start (stateAt 7) 3).run [⟨"a", 1⟩, ⟨"b", 0⟩, ⟨"c", 2⟩] [0, 1, 2, 2, 1, 0]).calls :=
  run_splitsByWeight [⟨"a", 1⟩, ⟨"b", 0⟩, ⟨"c", 2⟩] (stateAt 7) 3 [0, 1, 2, 2, 1, 0] (by decide) (by decide)
    (by decide) (by decide)

end Dxgate
