import Dxgate.Xds.Recovery

/-! # The wire log of a stream

What an observer between client and control plane sees: the requests and the responses, in the order in
which they pass. The configuration can be read off this log without the stores. A name has the value that
the last response with something to say about it gave it, and which names a response has something to say
about depends only on what it carries and on the request of its type that it follows.
-/

namespace Dxgate

set_option autoImplicit false

open Collections

inductive WireEvent where
  | sent (request : Proto.DiscoveryRequest)
  | received (resp : Proto.DiscoveryResponse)
  deriving DecidableEq

def WireEvent.request? : WireEvent → Option Proto.DiscoveryRequest
  | sent request => some request
  | received _ => none

def WireEvent.response? : WireEvent → Option Proto.DiscoveryResponse
  | sent _ => none
  | received resp => some resp

theorem WireEvent.responses_sent (requests : List Proto.DiscoveryRequest) :
    (requests.map sent).filterMap response? = [] := by
  simp [response?]

theorem WireEvent.responses_exchange (log : List WireEvent) (resp : Proto.DiscoveryResponse)
    (requests : List Proto.DiscoveryRequest) :
    (log ++ received resp :: requests.map sent).filterMap response? =
      log.filterMap response? ++ [resp] := by
  rw [List.filterMap_append, List.filterMap_cons, responses_sent]
  rfl

/-- What has passed on the wire since the stream was opened. -/
inductive OnWire (codec : Proto.Codec) (cfg : XdsClientConfig) : List WireEvent → Stream → Prop where
  | opened {channels : Channels} {stream : Stream} (h : openStream channels cfg = (stream, none)) :
      OnWire codec cfg (stream.requests.map .sent) stream
  | responded {log : List WireEvent} {channels : Channels} {st st' : Stream}
      {resp : Proto.DiscoveryResponse} {requests : List Proto.DiscoveryRequest} (h : OnWire codec cfg log st)
      (hRespond : respond codec channels cfg.node st resp = (st', none))
      (hSent : st'.requests = st.requests ++ requests) :
      OnWire codec cfg (log ++ .received resp :: requests.map .sent) st'

/-! ## Reading the log -/

/-- The endpoint lists that a cluster response sets on the side. -/
def ResourceType.alongside (codec : Proto.Codec) (resp : Proto.DiscoveryResponse) :
    (t : ResourceType) → List (String × t.Stored)
  | endpoint => AdsState.inlineAssignments (AdsState.carriedClusters codec resp)
  | _ => []

namespace Wire

/-- The names in the last request of the type. -/
def asked (log : List WireEvent) (t : ResourceType) : List String :=
  ((lastRequest (log.filterMap WireEvent.request?) t.typeUrl).map (·.resourceNames)).getD []

/-- What an event says about a name: nothing, that there is no such resource, or its value. -/
def word (codec : Proto.Codec) (t : ResourceType) (name : String) (log : List WireEvent) :
    WireEvent → Option (Option t.Stored)
  | .sent _ => none
  | .received resp =>
    if resp.typeUrl = t.typeUrl then
      if asked log t = [] ∨ name ∈ asked log t ∨ name ∈ (t.carried codec resp).map (·.1) then
        some (SortedMap.lastValue (t.carried codec resp) name)
      else none
    else if resp.typeUrl = CLUSTER_TYPE then
      (SortedMap.lastValue (t.alongside codec resp) name).map some
    else none

def entry (codec : Proto.Codec) (log : List WireEvent) (t : ResourceType) (name : String) :
    Option t.Stored :=
  (Runs.lastWord (word codec t name) log).join

def virtualHosts (codec : Proto.Codec) (log : List WireEvent) (snapshot : ListenerSnapshot) :
    List VirtualHost :=
  snapshot.inlineVirtualHosts ++ snapshot.routeNames.flatMap fun name =>
    (entry codec log .route name).getD []

/-- A configuration is the one of the log: the version of the last response, and the listeners and clusters
that the log has entries for, each once and sorted by name. -/
structure Shows (codec : Proto.Codec) (log : List WireEvent) (cfg : RuntimeConfig) : Prop where
  version : ∃ resp, (log.filterMap WireEvent.response?).getLast? = some resp ∧
    cfg.version = if resp.versionInfo = "" then "ads" else resp.versionInfo
  listeners : ∀ listener, listener ∈ cfg.listeners ↔ ∃ name snapshot,
    entry codec log .listener name = some snapshot ∧
      listener = { snapshot.listener with virtualHosts := virtualHosts codec log snapshot }
  listenersSorted : (cfg.listeners.map (·.name)).Pairwise (· < ·)
  clusters : ∀ cluster, cluster ∈ cfg.clusters ↔ ∃ name snapshot,
    entry codec log .cluster name = some snapshot ∧ cluster =
      ⟨snapshot.name, (entry codec log .endpoint snapshot.edsServiceName).getD [], snapshot.tls⟩
  clustersSorted : (cfg.clusters.map (·.name)).Pairwise (· < ·)
  secrets : cfg.secrets = []

/-- Every cluster that a route names is there. -/
def Complete (codec : Proto.Codec) (log : List WireEvent) : Prop :=
  ∀ name snapshot, entry codec log .listener name = some snapshot →
    ∀ vh ∈ virtualHosts codec log snapshot, ∀ route ∈ vh.routes, ∀ dst ∈ route.weightedClusters,
      (entry codec log .cluster dst.name).isSome

theorem join_or {T : Type} (new old : Option (Option T)) : (new.or old).join = new.getD old.join := by
  cases new with
  | none => rfl
  | some value => rfl

theorem getD_map_some {T : Type} (new old : Option T) : (new.map some).getD old = new.or old := by
  cases new with
  | none => rfl
  | some value => rfl

end Wire

/-! ## One response -/

section Step

variable {codec : Proto.Codec} {s s' : AdsState} {resp : Proto.DiscoveryResponse} {u : DiscoveryUpdates}

theorem AdsState.Applied.store_untouched (h : Applied codec s resp s' u) {t : ResourceType}
    (hType : resp.typeUrl ≠ t.typeUrl) (hCluster : resp.typeUrl = CLUSTER_TYPE → t ≠ .endpoint) :
    s'.store t = s.store t := by
  cases t with
  | listener => exact h.listeners_eq.trans (if_neg hType)
  | route => exact h.routes_eq.trans (if_neg hType)
  | cluster => exact h.clusters_eq.trans (if_neg hType)
  | endpoint =>
    have hOther : resp.typeUrl ≠ CLUSTER_TYPE := fun hUrl => hCluster hUrl rfl
    exact h.endpoints_eq.trans ((if_neg hType).trans (if_neg hOther))

theorem AdsState.store_settle (s : AdsState) (typeUrl : String) (t : ResourceType) :
    (s.settle typeUrl).store t = s.store t := by
  cases t with
  | listener => exact s.settle_listeners typeUrl
  | route => exact s.settle_routes typeUrl
  | cluster => exact s.settle_clusters typeUrl
  | endpoint => exact s.settle_endpoints typeUrl

/-- A response changes in the stores what it has something to say about, and nothing else. -/
theorem AdsState.Applied.get_store (h : Applied codec s resp s' u) {log : List WireEvent} {t : ResourceType}
    (hAsked : Wire.asked log t = s.subscription t.typeUrl) (name : String) :
    (s'.store t).get name =
      (Wire.word codec t name log (.received resp)).getD ((s.store t).get name) := by
  by_cases hType : resp.typeUrl = t.typeUrl
  · have hReplaced := h.replaced hType
    rw [Wire.word, if_pos hType, hAsked]
    by_cases hNamed : s.subscription t.typeUrl = [] ∨ name ∈ s.subscription t.typeUrl ∨
        name ∈ (t.carried codec resp).map (·.1)
    · rw [if_pos hNamed, Option.getD_some]
      exact hReplaced.replaced name hNamed
    · rw [if_neg hNamed, Option.getD_none]
      simp only [not_or] at hNamed
      exact hReplaced.kept hNamed.1 name hNamed.2.1 hNamed.2.2
  · rw [Wire.word, if_neg hType]
    by_cases hCluster : resp.typeUrl = CLUSTER_TYPE
    · rw [if_pos hCluster, Wire.getD_map_some]
      cases t with
      | endpoint => exact (h.replaced (t := .cluster) hCluster).inline rfl name
      | listener =>
        rw [h.store_untouched hType (by simp)]
        exact Option.none_or.symm
      | route =>
        rw [h.store_untouched hType (by simp)]
        exact Option.none_or.symm
      | cluster => exact absurd hCluster hType
    · rw [if_neg hCluster, Option.getD_none, h.store_untouched hType fun hUrl => absurd hUrl hCluster]

end Step

/-! ## A whole stream -/

section Stream

variable {codec : Proto.Codec} {cfg : XdsClientConfig} {log : List WireEvent} {stream : Stream}

theorem OnWire.received (h : OnWire codec cfg log stream) :
    Received codec cfg (log.filterMap WireEvent.response?) stream := by
  induction h with
  | opened hOpen =>
    rw [WireEvent.responses_sent]
    exact .opened hOpen
  | responded _ hRespond _ ih =>
    rw [WireEvent.responses_exchange]
    exact ih.responded hRespond

theorem OnWire.requests (h : OnWire codec cfg log stream) :
    log.filterMap WireEvent.request? = stream.requests := by
  have hSent (requests : List Proto.DiscoveryRequest) :
      (requests.map WireEvent.sent).filterMap WireEvent.request? = requests := by
    simp [List.filterMap_map, Function.comp_def, WireEvent.request?]
  induction h with
  | opened => exact hSent _
  | responded _ _ hRequests ih =>
    rw [List.filterMap_append, List.filterMap_cons, hSent, ih, hRequests]
    rfl

theorem Received.agrees {responses : List Proto.DiscoveryResponse}
    (h : Received codec cfg responses stream) : stream.Agrees := by
  induction h with
  | opened hOpen => exact openStream_agrees hOpen
  | responded _ hRespond ih => exact respond_agrees ih hRespond

/-- A type without a request has no subscription. -/
theorem Received.subscription_nil {responses : List Proto.DiscoveryResponse}
    (h : Received codec cfg responses stream) {typeUrl : String}
    (hNone : lastRequest stream.requests typeUrl = none) : stream.ads.subscription typeUrl = [] := by
  induction h with
  | opened hOpen =>
    rw [openStream_ok hOpen] at hNone ⊢
    rw [← List.nil_append [discoveryRequest _ _ _ _ _], lastRequest_concat] at hNone
    split at hNone
    · cases hNone
    · rename_i hType
      have hType : typeUrl ≠ LISTENER_TYPE := fun hEq => hType hEq.symm
      simp [AdsState.subscription, hType]
  | @responded _ _ st _ resp _ hRespond ih =>
    obtain ⟨ads, u, _, hApplied, rfl⟩ := respond_ok hRespond
    have hSplit := List.append_cons st.requests (discoveryRequest cfg.node resp.typeUrl
      (ads.subscription resp.typeUrl) resp.versionInfo resp.nonce) (ads.followRequests cfg.node resp.typeUrl)
    rw [hSplit, AdsState.lastRequest_followRequests] at hNone
    split at hNone
    · cases hNone
    · rename_i hKeep
      rw [lastRequest_concat] at hNone
      split at hNone
      · cases hNone
      · have hStored := ih hNone
        rw [← hApplied.subscription_eq] at hStored
        rw [AdsState.settle_subscription]
        split
        · rename_i hNext
          -- nothing was stored and nothing sent, so there was no name to follow
          by_contra hSome
          exact hKeep ⟨hNext.1, hNext.2, by rw [hStored]; exact hNext.2.symm⟩
        · exact hStored

theorem OnWire.asked_eq (h : OnWire codec cfg log stream) (t : ResourceType) :
    Wire.asked log t = stream.ads.subscription t.typeUrl := by
  rw [Wire.asked, h.requests]
  cases hLast : lastRequest stream.requests t.typeUrl with
  | none => exact (h.received.subscription_nil hLast).symm
  | some request => exact h.received.agrees.names _ _ hLast

/-- The stores hold what the log says. -/
theorem OnWire.get_store (h : OnWire codec cfg log stream) (t : ResourceType) (name : String) :
    (stream.ads.store t).get name = Wire.entry codec log t name := by
  have hSilent (requests : List Proto.DiscoveryRequest) (before : List WireEvent) :
      ∀ event ∈ requests.map WireEvent.sent, Wire.word codec t name before event = none := by
    intro event hEvent
    obtain ⟨request, _, rfl⟩ := List.mem_map.mp hEvent
    rfl
  induction h with
  | opened hOpen =>
    rw [Wire.entry, ← List.nil_append (List.map _ _), Runs.lastWord_append_silent (hSilent _),
      openStream_ok hOpen]
    cases t <;> rfl
  | @responded log _ st st' resp requests hBefore hRespond _ ih =>
    obtain ⟨ads, u, _, hApplied, rfl⟩ := respond_ok hRespond
    rw [Wire.entry, List.append_cons log, Runs.lastWord_append_silent (hSilent _), Runs.lastWord_concat,
      Wire.join_or, AdsState.store_settle, hApplied.get_store (hBefore.asked_eq t), ih, Wire.entry]

/-! ## The configuration -/

theorem OnWire.virtualHosts_eq (h : OnWire codec cfg log stream) (snapshot : ListenerSnapshot) :
    stream.ads.snapshotVirtualHosts snapshot = Wire.virtualHosts codec log snapshot := by
  rw [AdsState.snapshotVirtualHosts, Wire.virtualHosts]
  congr 2
  funext name
  exact congrArg (·.getD []) (h.get_store .route name)

theorem OnWire.mem_listeners (h : OnWire codec cfg log stream) (version : String) (listener : Listener) :
    listener ∈ (stream.ads.runtimeConfig version).listeners ↔ ∃ name snapshot,
      Wire.entry codec log .listener name = some snapshot ∧
        listener = { snapshot.listener with virtualHosts := Wire.virtualHosts codec log snapshot } := by
  have hListener (snapshot : ListenerSnapshot) : stream.ads.runtimeListener snapshot =
      { snapshot.listener with virtualHosts := Wire.virtualHosts codec log snapshot } := by
    rw [AdsState.runtimeListener, h.virtualHosts_eq]
  constructor
  · intro hMem
    obtain ⟨snapshot, hSnapshot, rfl⟩ := List.mem_map.mp hMem
    obtain ⟨name, hGet⟩ := SortedMap.mem_values_iff.mp hSnapshot
    refine ⟨name, snapshot, ?_, hListener snapshot⟩
    rw [← h.get_store]
    exact hGet
  · rintro ⟨name, snapshot, hEntry, rfl⟩
    rw [← h.get_store] at hEntry
    apply List.mem_map.mpr
    exact ⟨snapshot, SortedMap.mem_values_iff.mpr ⟨name, hEntry⟩, hListener snapshot⟩

theorem OnWire.mem_clusters (h : OnWire codec cfg log stream) (version : String) (cluster : Cluster) :
    cluster ∈ (stream.ads.runtimeConfig version).clusters ↔ ∃ name snapshot,
      Wire.entry codec log .cluster name = some snapshot ∧ cluster =
        ⟨snapshot.name, (Wire.entry codec log .endpoint snapshot.edsServiceName).getD [], snapshot.tls⟩ := by
  have hCluster (snapshot : ClusterSnapshot) : stream.ads.runtimeCluster snapshot =
      ⟨snapshot.name, (Wire.entry codec log .endpoint snapshot.edsServiceName).getD [], snapshot.tls⟩ := by
    rw [← h.get_store]
    rfl
  constructor
  · intro hMem
    obtain ⟨snapshot, hSnapshot, rfl⟩ := List.mem_map.mp hMem
    obtain ⟨name, hGet⟩ := SortedMap.mem_values_iff.mp hSnapshot
    refine ⟨name, snapshot, ?_, hCluster snapshot⟩
    rw [← h.get_store]
    exact hGet
  · rintro ⟨name, snapshot, hEntry, rfl⟩
    rw [← h.get_store] at hEntry
    apply List.mem_map.mpr
    exact ⟨snapshot, SortedMap.mem_values_iff.mpr ⟨name, hEntry⟩, hCluster snapshot⟩

/-- The configuration that the client assembles is the one the log shows. -/
theorem OnWire.shows (h : OnWire codec cfg log stream) {resp : Proto.DiscoveryResponse}
    (hLast : (log.filterMap WireEvent.response?).getLast? = some resp) :
    Wire.Shows codec log (stream.ads.runtimeConfig resp.versionInfo) where
  version := ⟨resp, hLast, rfl⟩
  listeners := h.mem_listeners resp.versionInfo
  listenersSorted := by
    have hNames : (stream.ads.runtimeConfig resp.versionInfo).listeners.map (·.name) =
        stream.ads.listeners.keys := by
      rw [AdsState.runtimeConfig, List.map_map]
      exact SortedMap.map_values_eq_keys fun name snapshot hGet =>
        (h.received.regular.listeners name snapshot hGet).1
    rw [hNames]
    exact stream.ads.listeners.sorted
  clusters := h.mem_clusters resp.versionInfo
  clustersSorted := by
    rw [h.received.regular.clusterNames_eq]
    exact stream.ads.clusters.sorted
  secrets := rfl

theorem OnWire.wellFormed_iff (h : OnWire codec cfg log stream) (version : String) :
    (stream.ads.runtimeConfig version).WellFormed ↔ Wire.Complete codec log := by
  have hKeys (name : String) :
      name ∈ stream.ads.clusters.keys ↔ (Wire.entry codec log .cluster name).isSome := by
    rw [← h.get_store]
    exact SortedMap.mem_keys_iff_isSome
  rw [h.received.regular.wellFormed_iff]
  constructor
  · intro hRoutes name snapshot hEntry vh hVh route hRoute dst hDst
    have hMem := (h.mem_listeners version _).mpr ⟨name, snapshot, hEntry, rfl⟩
    exact (hKeys dst.name).mp (hRoutes _ hMem vh hVh route hRoute dst hDst)
  · intro hComplete listener hListener vh hVh route hRoute dst hDst
    obtain ⟨name, snapshot, hEntry, rfl⟩ := (h.mem_listeners version listener).mp hListener
    exact (hKeys dst.name).mpr (hComplete name snapshot hEntry vh hVh route hRoute dst hDst)

end Stream

end Dxgate
