import Dxgate.Xds.Redelivery

/-! # The order of endpoints

Load assignments group endpoints by locality and may list them in any order. The conversion sorts by
address and port with a stable sort, so the order still shows where two entries of one address and port
differ in health, and nowhere else.
-/

namespace Dxgate

set_option autoImplicit false

open Collections

instance : Std.Total Endpoint.le := ⟨by
  intro a b
  unfold Endpoint.le
  rcases lt_trichotomy a.address b.address with hLess | hEq | hMore
  · exact .inl (.inl hLess)
  · rcases UInt16.le_total a.port b.port with hPort | hPort
    · exact .inl (.inr ⟨hEq, hPort⟩)
    · exact .inr (.inr ⟨hEq.symm, hPort⟩)
  · exact .inr (.inl hMore)⟩

instance : IsTrans Endpoint Endpoint.le := ⟨by
  rintro a b c (hab | ⟨hab, hPort⟩) (hbc | ⟨hbc, hPort'⟩)
  · exact .inl (hab.trans hbc)
  · exact .inl (hbc ▸ hab)
  · exact .inl (hab ▸ hbc)
  · exact .inr ⟨hab.trans hbc, UInt16.le_trans hPort hPort'⟩⟩

namespace Proto

/-- The endpoint that a message stands for: it has a socket address with a port of at most 65535, and it
is healthy unless its status says otherwise. -/
structure LbEndpoint.Yields (lb : LbEndpoint) (endpoint : Dxgate.Endpoint) : Prop where
  socket : ∃ port : UInt32, port.toNat ≤ 65535 ∧ port.toNat = endpoint.port.toNat ∧
    lb.hostIdentifier = some (.endpoint ⟨some ⟨some (.socketAddress
      ⟨endpoint.address, some (.portValue port)⟩)⟩⟩)
  healthy : endpoint.healthy ↔ HealthStatus.tryFrom lb.healthStatus ∉
    [some .unhealthy, some .draining, some .timeout]
  nodeName : endpoint.nodeName = none

def ClusterLoadAssignment.lbEndpoints (assignment : ClusterLoadAssignment) : List LbEndpoint :=
  assignment.endpoints.flatMap (·.lbEndpoints)

/-- Endpoints of one address and port agree on their health. -/
def ClusterLoadAssignment.HealthAgrees (assignment : ClusterLoadAssignment) : Prop :=
  ∀ lb ∈ assignment.lbEndpoints, ∀ lb' ∈ assignment.lbEndpoints, ∀ e e', lb.Yields e → lb'.Yields e' →
    e.address = e'.address → e.port = e'.port → e.healthy = e'.healthy

/-- The endpoints come in another order or are grouped into other localities. -/
structure ClusterLoadAssignment.Reordered (a b : ClusterLoadAssignment) : Prop where
  clusterName : b.clusterName = a.clusterName
  lbEndpoints : b.lbEndpoints.Perm a.lbEndpoints

end Proto

theorem endpointIsHealthy_iff (status : Int) : endpointIsHealthy status ↔
    Proto.HealthStatus.tryFrom status ∉ [some .unhealthy, some .draining, some .timeout] := by
  rw [endpointIsHealthy]
  cases Proto.HealthStatus.tryFrom status with
  | none => decide
  | some health => cases health <;> decide

theorem socketAddress_eq_some {address : Option Proto.Address} {host : String} {port : UInt16} :
    socketAddress address = some (host, port) ↔ ∃ p : UInt32, p.toNat ≤ 65535 ∧ p.toNat = port.toNat ∧
      address = some ⟨some (.socketAddress ⟨host, some (.portValue p)⟩)⟩ := by
  constructor
  · intro h
    rw [socketAddress] at h
    split at h
    · rename_i socket hSocket
      obtain ⟨found, rfl, hFound⟩ := Option.bind_eq_some_iff.mp hSocket
      split at h
      · rename_i p hPort
        split at h
        · rename_i hFits
          cases h
          refine ⟨p, by omega, ?_, ?_⟩
          · rw [UInt32.toNat_toUInt16, Nat.mod_eq_of_lt hFits]
          · rw [← hPort, ← hFound]
        · cases h
      · cases h
    · cases h
  · rintro ⟨p, hFits, hPort, rfl⟩
    have hLess : p.toNat < 65536 := by omega
    have hSame : p.toUInt16 = port := by
      rw [← UInt16.toNat_inj, UInt32.toNat_toUInt16, Nat.mod_eq_of_lt hLess, hPort]
    simp only [socketAddress, Option.bind_some, if_pos hLess, hSame]

theorem endpointOf_eq_some {lb : Proto.LbEndpoint} {endpoint : Endpoint} :
    endpointOf lb = some endpoint ↔ lb.Yields endpoint := by
  constructor
  · intro h
    rw [endpointOf] at h
    split at h
    · rename_i found hFound
      obtain ⟨⟨address, port⟩, hSocket, rfl⟩ := Option.map_eq_some_iff.mp h
      obtain ⟨p, hFits, hPort, hAddress⟩ := socketAddress_eq_some.mp hSocket
      refine ⟨⟨p, hFits, hPort, ?_⟩, endpointIsHealthy_iff _, rfl⟩
      rw [hFound, ← hAddress]
    · cases h
  · rintro ⟨⟨p, hFits, hPort, hHost⟩, hHealthy, hNode⟩
    have hSocket : socketAddress (some ⟨some (.socketAddress ⟨endpoint.address, some (.portValue p)⟩)⟩) =
        some (endpoint.address, endpoint.port) := socketAddress_eq_some.mpr ⟨p, hFits, hPort, rfl⟩
    have hStatus : endpointIsHealthy lb.healthStatus = endpoint.healthy := by
      rw [Bool.eq_iff_iff, endpointIsHealthy_iff, hHealthy]
    simp only [endpointOf, hHost, hSocket, Option.map_some, hStatus]
    rw [← hNode]

theorem endpointsFromAssignment_perm (assignment : Proto.ClusterLoadAssignment) :
    (endpointsFromAssignment assignment).Perm (assignment.lbEndpoints.filterMap endpointOf) := by
  rw [Proto.ClusterLoadAssignment.lbEndpoints, List.filterMap_flatMap]
  exact List.perm_insertionSort _ _

theorem endpointsFromAssignment_sorted (assignment : Proto.ClusterLoadAssignment) :
    (endpointsFromAssignment assignment).Pairwise Endpoint.le :=
  List.pairwise_insertionSort _ _

theorem mem_endpointsFromAssignment {assignment : Proto.ClusterLoadAssignment} {endpoint : Endpoint} :
    endpoint ∈ endpointsFromAssignment assignment ↔
      ∃ lb ∈ assignment.lbEndpoints, lb.Yields endpoint := by
  rw [(endpointsFromAssignment_perm assignment).mem_iff, List.mem_filterMap]
  exact exists_congr fun lb => and_congr_right fun _ => endpointOf_eq_some

theorem Endpoint.le_antisymm {a b : Endpoint} (hab : a.le b) (hba : b.le a) :
    a.address = b.address ∧ a.port = b.port := by
  rcases hab with hLess | ⟨hEq, hPort⟩
  · rcases hba with hMore | ⟨hEq, _⟩
    · exact absurd hMore hLess.asymm
    · exact absurd hEq hLess.ne'
  · rcases hba with hMore | ⟨_, hPort'⟩
    · exact absurd hEq.symm hMore.ne
    · exact ⟨hEq, UInt16.le_antisymm hPort hPort'⟩

namespace Proto.ClusterLoadAssignment

/-- Sorting by address and port leaves no choice when these settle the health. -/
theorem Reordered.endpoints_eq {a b : ClusterLoadAssignment} (h : a.Reordered b) (hHealth : a.HealthAgrees) :
    endpointsFromAssignment b = endpointsFromAssignment a := by
  have hPerm : (endpointsFromAssignment b).Perm (endpointsFromAssignment a) :=
    ((endpointsFromAssignment_perm b).trans (h.lbEndpoints.filterMap endpointOf)).trans
      (endpointsFromAssignment_perm a).symm
  refine List.Perm.eq_of_pairwise ?_ (endpointsFromAssignment_sorted b) (endpointsFromAssignment_sorted a)
    hPerm
  intro x y hx hy hxy hyx
  obtain ⟨lb, hMem, hYields⟩ := mem_endpointsFromAssignment.mp (hPerm.mem_iff.mp hx)
  obtain ⟨lb', hMem', hYields'⟩ := mem_endpointsFromAssignment.mp hy
  obtain ⟨hAddress, hPort⟩ := Endpoint.le_antisymm hxy hyx
  have hHealthy := hHealth lb hMem lb' hMem' x y hYields hYields' hAddress hPort
  have hNode : x.nodeName = y.nodeName := hYields.nodeName.trans hYields'.nodeName.symm
  cases x
  cases y
  simp_all

end Proto.ClusterLoadAssignment

namespace Proto

/-- The clusters agree but for the order of their inline endpoints. -/
structure Cluster.InlineReordered (a b : Cluster) : Prop where
  name : b.name = a.name
  eds : b.edsClusterConfig = a.edsClusterConfig
  transport : b.transportSocket = a.transportSocket
  inline : Option.Rel (fun x y => x.HealthAgrees ∧ x.Reordered y) a.loadAssignment b.loadAssignment

/-- Two endpoint responses, or two cluster responses, of one version that decode to the same resources
but for the order of endpoints. -/
inductive EndpointsReordered (codec : Codec) (resp other : DiscoveryResponse) : Prop where
  | endpoints {as bs : List ClusterLoadAssignment} (hType : resp.typeUrl = ENDPOINT_TYPE)
      (hDecode : List.Forall₂ (fun r a => decodeResource codec.clusterLoadAssignment ENDPOINT_TYPE r = .ok a)
        resp.resources as)
      (hOther : List.Forall₂ (fun r b => decodeResource codec.clusterLoadAssignment ENDPOINT_TYPE r = .ok b)
        other.resources bs)
      (hReordered : List.Forall₂ (fun a b => a.HealthAgrees ∧ a.Reordered b) as bs) :
      EndpointsReordered codec resp other
  | inline {as bs : List Cluster} (hType : resp.typeUrl = CLUSTER_TYPE)
      (hDecode : List.Forall₂ (fun r a => decodeResource codec.cluster CLUSTER_TYPE r = .ok a)
        resp.resources as)
      (hOther : List.Forall₂ (fun r b => decodeResource codec.cluster CLUSTER_TYPE r = .ok b)
        other.resources bs)
      (hReordered : List.Forall₂ Cluster.InlineReordered as bs) : EndpointsReordered codec resp other

end Proto

theorem assignments_reordered {as bs : List Proto.ClusterLoadAssignment}
    (h : List.Forall₂ (fun a b => a.HealthAgrees ∧ a.Reordered b) as bs) :
    ((bs.filter (·.clusterName ≠ "")).map fun b => (b.clusterName, endpointsFromAssignment b)) =
      (as.filter (·.clusterName ≠ "")).map fun a => (a.clusterName, endpointsFromAssignment a) := by
  induction h with
  | nil => rfl
  | cons hPair _ ih =>
    obtain ⟨hHealth, hOrder⟩ := hPair
    rw [List.filter_cons, List.filter_cons, hOrder.clusterName]
    split
    · rw [List.map_cons, List.map_cons, ih, hOrder.clusterName, hOrder.endpoints_eq hHealth]
    · exact ih

theorem Proto.Cluster.InlineReordered.snapshot_eq {a b : Proto.Cluster} (h : a.InlineReordered b)
    (codec : Proto.Codec) : clusterSnapshot codec b = clusterSnapshot codec a := by
  simp only [clusterSnapshot, edsServiceName, upstreamTlsFromCluster, h.name, h.eds, h.transport]

theorem Proto.Cluster.InlineReordered.inline_eq {a b : Proto.Cluster} (h : a.InlineReordered b) :
    (b.loadAssignment.map fun x => (edsServiceName b, endpointsFromAssignment x)) =
      a.loadAssignment.map fun x => (edsServiceName a, endpointsFromAssignment x) := by
  have hEds : edsServiceName b = edsServiceName a := by
    simp only [edsServiceName, h.name, h.eds]
  have hInline := h.inline
  rw [hEds]
  generalize a.loadAssignment = x, b.loadAssignment = y at hInline ⊢
  cases hInline with
  | none => rfl
  | some hPair => rw [Option.map_some, Option.map_some, hPair.2.endpoints_eq hPair.1]

theorem clusters_reordered {as bs : List Proto.Cluster} (codec : Proto.Codec)
    (h : List.Forall₂ Proto.Cluster.InlineReordered as bs) :
    ((AdsState.named bs).map fun c => (c.name, clusterSnapshot codec c)) =
        ((AdsState.named as).map fun c => (c.name, clusterSnapshot codec c)) ∧
      AdsState.inlineAssignments bs = AdsState.inlineAssignments as := by
  unfold AdsState.inlineAssignments AdsState.named
  induction h with
  | nil => exact ⟨rfl, rfl⟩
  | cons hPair _ ih =>
    obtain ⟨ihStored, ihInline⟩ := ih
    rw [List.filter_cons, List.filter_cons, hPair.name]
    split
    · rw [List.map_cons, List.map_cons, ihStored, hPair.name, hPair.snapshot_eq codec,
        List.filterMap_cons, List.filterMap_cons, hPair.inline_eq, ihInline]
      exact ⟨rfl, rfl⟩
    · exact ⟨ihStored, ihInline⟩

theorem Proto.EndpointsReordered.sameContent {codec : Proto.Codec} {resp other : Proto.DiscoveryResponse}
    (h : Proto.EndpointsReordered codec resp other) (hType : other.typeUrl = resp.typeUrl)
    (hVersion : other.versionInfo = resp.versionInfo) : AdsState.SameContent codec resp other := by
  cases h with
  | endpoints hEndpoint hDecode hOther hReordered =>
    refine ⟨hType, hVersion, ?_, ?_, ?_, ?_, fun _ => ?_⟩
    · exact fun hListener => absurd (hEndpoint.symm.trans hListener) (by decide)
    · exact fun hRoute => absurd (hEndpoint.symm.trans hRoute) (by decide)
    · exact fun hCluster => absurd (hEndpoint.symm.trans hCluster) (by decide)
    · exact fun hCluster => absurd (hEndpoint.symm.trans hCluster) (by decide)
    · rw [AdsState.carriedAssignments, AdsState.carriedAssignments, decoded_eq hDecode, decoded_eq hOther]
      exact assignments_reordered hReordered
  | inline hCluster hDecode hOther hReordered =>
    obtain ⟨hStored, hInline⟩ := clusters_reordered codec hReordered
    refine ⟨hType, hVersion, ?_, ?_, fun _ => ?_, fun _ => ?_, ?_⟩
    · exact fun hListener => absurd (hCluster.symm.trans hListener) (by decide)
    · exact fun hRoute => absurd (hCluster.symm.trans hRoute) (by decide)
    · rw [AdsState.carriedClusters, AdsState.carriedClusters, decoded_eq hDecode, decoded_eq hOther]
      exact hStored
    · rw [AdsState.carriedClusters, AdsState.carriedClusters, decoded_eq hDecode, decoded_eq hOther]
      exact hInline
    · exact fun hEndpoint => absurd (hCluster.symm.trans hEndpoint) (by decide)

theorem Proto.EndpointsReordered.decodes {codec : Proto.Codec} {resp other : Proto.DiscoveryResponse}
    (h : Proto.EndpointsReordered codec resp other) (hType : other.typeUrl = resp.typeUrl) (s : AdsState) :
    ∃ s' u, s.applyResponse codec other = (s', .ok u) := by
  cases h with
  | endpoints hEndpoint _ hOther _ =>
    rw [s.applyResponse_endpoints (hType.trans hEndpoint)]
    exact ⟨_, _, AdsState.applyWith_decoded hOther⟩
  | inline hCluster _ hOther _ =>
    rw [s.applyResponse_clusters (hType.trans hCluster)]
    exact ⟨_, _, AdsState.applyWith_decoded hOther⟩

/-- The endpoints of an assignment are sorted and are, one for one, those that its messages stand for.
Where address and port settle the health, their order in the assignment plays no part, so a response
that only reorders them changes nothing and is not published. -/
theorem endpointsFromAssignment_canonical :
    (∀ assignment, (endpointsFromAssignment assignment).Pairwise Endpoint.le ∧
      (endpointsFromAssignment assignment).Perm (assignment.lbEndpoints.filterMap endpointOf) ∧
      (assignment.HealthAgrees → ∀ other, assignment.Reordered other →
        endpointsFromAssignment other = endpointsFromAssignment assignment)) ∧
    (∀ lb endpoint, endpointOf lb = some endpoint ↔ lb.Yields endpoint) ∧
    ∀ codec channels node cs cs' resp other, handleResponse codec channels node cs resp = (cs', none) →
      Proto.EndpointsReordered codec resp other → other.typeUrl = resp.typeUrl →
      other.versionInfo = resp.versionInfo →
        (handleResponse codec channels node cs' other).1.stream.ads = cs'.stream.ads ∧
        (handleResponse codec channels node cs' other).1.watch = cs'.watch ∧
        (handleResponse codec channels node cs' other).1.published = cs'.published := by
  refine ⟨fun assignment => ⟨?_, ?_, ?_⟩, fun lb endpoint => endpointOf_eq_some, ?_⟩
  · exact endpointsFromAssignment_sorted assignment
  · exact endpointsFromAssignment_perm assignment
  · exact fun hHealth other hOrder => hOrder.endpoints_eq hHealth
  · intro codec channels node cs cs' resp other hFirst hReordered hType hVersion
    rw [handleResponse_sameContent hFirst (hReordered.sameContent hType hVersion)
      (hReordered.decodes hType cs'.stream.ads)]
    exact acknowledged_keeps channels node cs' other

def lbEndpointAt (host : String) : Proto.LbEndpoint :=
  ⟨some (.endpoint ⟨some ⟨some (.socketAddress ⟨host, some (.portValue 80)⟩)⟩⟩), 0⟩

/-- One locality with two endpoints, or two localities with one each. -/
theorem splitLocalities_same :
    endpointsFromAssignment ⟨"c", [⟨[lbEndpointAt "b"]⟩, ⟨[lbEndpointAt "a"]⟩]⟩ =
      endpointsFromAssignment ⟨"c", [⟨[lbEndpointAt "a", lbEndpointAt "b"]⟩]⟩ := by
  refine (endpointsFromAssignment_canonical.1 ⟨"c", [⟨[lbEndpointAt "a", lbEndpointAt "b"]⟩]⟩).2.2 ?_ _
    ⟨rfl, by decide⟩
  intro lb hLb lb' hLb' e e' hYields hYields' _ _
  rw [← endpointOf_eq_some] at hYields hYields'
  have hHealthy : ∀ found ∈ [lbEndpointAt "a", lbEndpointAt "b"], (endpointOf found).all (·.healthy) := by
    decide
  have hOne := hHealthy lb hLb
  have hTwo := hHealthy lb' hLb'
  rw [hYields] at hOne
  rw [hYields'] at hTwo
  exact hOne.trans hTwo.symm

end Dxgate
