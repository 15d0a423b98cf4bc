import Dxgate.Xds.Database

/-! # Bringing up a fresh client

A fresh client and a control plane with a fixed database talk over one stream. The control plane reads
the requests in order; it answers subscriptions and passes over acknowledgements. A run goes through at
most four stages, one for each type, and at each of them the client is in a state that is computed from
the database alone.
-/

namespace Dxgate

set_option autoImplicit false

open Collections

/-- An acknowledgement carries the version and the nonce of what it acknowledges. -/
def Proto.DiscoveryRequest.IsSubscription (request : Proto.DiscoveryRequest) : Prop :=
  request.versionInfo = "" ∧ request.responseNonce = ""

instance : DecidablePred Proto.DiscoveryRequest.IsSubscription := fun request =>
  inferInstanceAs (Decidable (request.versionInfo = "" ∧ request.responseNonce = ""))

/-- The responses that the client has processed, the number of requests that the control plane has read
and the responses on their way. -/
structure Session where
  received : List Proto.DiscoveryResponse
  read : Nat
  inFlight : List Proto.DiscoveryResponse
  deriving DecidableEq

namespace Session

variable (codec : Proto.Codec) (enc : Encoder) (db : Database) (cfg : XdsClientConfig)
  (watch : RuntimeConfig)

/-- Where `runOnce` has got to with the processed responses. -/
def outcome (s : Session) : ClientState × Option XdsError :=
  runOnce codec .alwaysOpen cfg watch (.opened (s.received.map .message))

def client (s : Session) : ClientState := (s.outcome codec cfg watch).1

def requests (s : Session) : List Proto.DiscoveryRequest := (s.client codec cfg watch).stream.requests

inductive Step : Session → Session → Prop where
  | skip {s : Session} {request : Proto.DiscoveryRequest}
      (hNext : (s.requests codec cfg watch)[s.read]? = some request) (hAck : ¬ request.IsSubscription) :
      Step s { s with read := s.read + 1 }
  | answer {s : Session} {request : Proto.DiscoveryRequest} {resp : Proto.DiscoveryResponse}
      (hNext : (s.requests codec cfg watch)[s.read]? = some request) (hAsks : request.IsSubscription)
      (hAnswer : db.Answers enc request resp) :
      Step s { s with read := s.read + 1, inFlight := s.inFlight ++ [resp] }
  | receive {s : Session} {resp : Proto.DiscoveryResponse} {rest : List Proto.DiscoveryResponse}
      (hFlight : s.inFlight = resp :: rest) :
      Step s { s with received := s.received ++ [resp], inFlight := rest }

/-- Every request has been read and nothing is on its way. -/
def Quiet (s : Session) : Prop :=
  s.read = (s.requests codec cfg watch).length ∧ s.inFlight = []

end Session

def bringUp (codec : Proto.Codec) (enc : Encoder) (db : Database) (cfg : XdsClientConfig)
    (watch : RuntimeConfig) : Runs.Machine Session where
  init s := s = ⟨[], 0, []⟩
  step := Session.Step codec enc db cfg watch

namespace Session

section Stages

variable (codec : Proto.Codec) (enc : Encoder) (db : Database) (cfg : XdsClientConfig)
  (watch : RuntimeConfig)

def listenerNames (cfg : XdsClientConfig) : List String := sortedUnique cfg.listenerNames

theorem listenerNames_sorted (cfg : XdsClientConfig) : (listenerNames cfg).Pairwise (· < ·) :=
  sortedUnique_sorted _

/-- Where stage `k` stands after `n` steps: the unread requests and the responses on their way. -/
inductive Phase (k n : Nat) : List Proto.DiscoveryRequest → List Proto.DiscoveryResponse → Prop where
  | received {ack : Proto.DiscoveryRequest} (hAck : ¬ ack.IsSubscription) (hSteps : n + 1 = 3 * k) :
      Phase k n (ack :: db.stageRequests codec (listenerNames cfg) cfg.node k) []
  | asking (hSteps : n = 3 * k) :
      Phase k n (db.stageRequests codec (listenerNames cfg) cfg.node k) []
  | answered {resp : Proto.DiscoveryResponse} (hNames : db.stageNames codec (listenerNames cfg) k ≠ [])
      (hAnswer : db.Answers enc (discoveryRequest cfg.node (Database.stageType k)
        (db.stageNames codec (listenerNames cfg) k) "" "") resp) (hSteps : n = 3 * k + 1) :
      Phase k n [] [resp]

/-- The invariant of a session after `n` steps. The stage is the number of processed responses. -/
structure Staged (n : Nat) (s : Session) : Prop where
  serves : Serves codec .alwaysOpen cfg watch s.received (s.client codec cfg watch)
  state : (s.client codec cfg watch).stream.ads = db.stage codec (listenerNames cfg) s.received.length
  subscribed : (((s.requests codec cfg watch).filter (·.IsSubscription)).map (·.typeUrl)).Sublist
    ((List.range (s.received.length + 1)).map Database.stageType)
  read : s.read ≤ (s.requests codec cfg watch).length
  stages : s.received.length ≤ 4
  phase : Phase codec enc db cfg s.received.length n ((s.requests codec cfg watch).drop s.read) s.inFlight

variable {codec enc db cfg watch}

theorem stageRequests_eq {k : Nat} {node : Proto.Node} {request : Proto.DiscoveryRequest}
    {rest : List Proto.DiscoveryRequest} {names : List String}
    (h : db.stageRequests codec names node k = request :: rest) :
    db.stageNames codec names k ≠ [] ∧
      request = discoveryRequest node (Database.stageType k) (db.stageNames codec names k) "" "" ∧
      rest = [] := by
  rw [Database.stageRequests] at h
  split at h
  · rename_i hNames
    cases h
    exact ⟨hNames, rfl, rfl⟩
  · cases h

theorem client_of_serves {s : Session} {cs : ClientState}
    (h : Serves codec .alwaysOpen cfg watch s.received cs) : s.client codec cfg watch = cs :=
  congrArg Prod.fst h

theorem stageNames_zero_ne (hNames : cfg.listenerNames ≠ []) :
    db.stageNames codec (listenerNames cfg) 0 ≠ [] := by
  obtain ⟨name, hName⟩ := List.exists_mem_of_ne_nil _ hNames
  exact List.ne_nil_of_mem (mem_sortedUnique.mpr hName)

theorem staged_init (hNames : cfg.listenerNames ≠ []) : Staged codec enc db cfg watch 0 ⟨[], 0, []⟩ := by
  obtain ⟨cs, hServes⟩ : ∃ cs, Serves codec .alwaysOpen cfg watch [] cs :=
    serves_open codec cfg watch fun _ => rfl
  have hClient : (⟨[], 0, []⟩ : Session).client codec cfg watch = cs := client_of_serves hServes
  have hStream := openStream_ok (serves_nil hServes).1
  have hRequests : (⟨[], 0, []⟩ : Session).requests codec cfg watch =
      db.stageRequests codec (listenerNames cfg) cfg.node 0 := by
    rw [requests, hClient, hStream, Database.stageRequests, if_pos (stageNames_zero_ne hNames)]
    rfl
  refine ⟨?_, ?_, ?_, ?_, ?_, ?_⟩
  · rw [hClient]
    exact hServes
  · rw [hClient, hStream]
    rfl
  · rw [hRequests, Database.stageRequests, if_pos (stageNames_zero_ne hNames)]
    exact List.Sublist.refl _
  · exact Nat.zero_le _
  · exact Nat.zero_le _
  · rw [hRequests]
    exact .asking rfl

theorem Phase.skip {k n : Nat} {request : Proto.DiscoveryRequest} {rest : List Proto.DiscoveryRequest}
    {inFlight : List Proto.DiscoveryResponse} (h : Phase codec enc db cfg k n (request :: rest) inFlight)
    (hAck : ¬ request.IsSubscription) : Phase codec enc db cfg k (n + 1) rest inFlight := by
  generalize hUnread : request :: rest = unread at h
  cases h with
  | received _ hSteps =>
    cases hUnread
    exact .asking hSteps
  | asking =>
    obtain ⟨_, rfl, _⟩ := stageRequests_eq hUnread.symm
    exact absurd ⟨rfl, rfl⟩ hAck
  | answered => cases hUnread

theorem Phase.answer {k n : Nat} {request : Proto.DiscoveryRequest} {rest : List Proto.DiscoveryRequest}
    {inFlight : List Proto.DiscoveryResponse} {resp : Proto.DiscoveryResponse}
    (h : Phase codec enc db cfg k n (request :: rest) inFlight) (hAsks : request.IsSubscription)
    (hAnswer : db.Answers enc request resp) :
    Phase codec enc db cfg k (n + 1) rest (inFlight ++ [resp]) := by
  generalize hUnread : request :: rest = unread at h
  cases h with
  | received hAck =>
    cases hUnread
    exact absurd hAsks hAck
  | asking hSteps =>
    obtain ⟨hNames, rfl, rfl⟩ := stageRequests_eq hUnread.symm
    exact .answered hNames hAnswer (by omega)
  | answered => cases hUnread

theorem drop_read {requests : List Proto.DiscoveryRequest} {read : Nat} {request : Proto.DiscoveryRequest}
    (h : requests[read]? = some request) :
    requests.drop read = request :: requests.drop (read + 1) ∧ read + 1 ≤ requests.length := by
  obtain ⟨hLt, hEq⟩ := List.getElem?_eq_some_iff.mp h
  exact ⟨hEq ▸ List.drop_eq_getElem_cons hLt, hLt⟩

/-- An answered stage ends: the client accepts, acknowledges and asks for the names of the next stage. -/
theorem Staged.handle (hDecodes : db.Decodes codec enc) (hRds : db.RdsOnly codec) {n : Nat} {s : Session}
    (hs : Staged codec enc db cfg watch n s) {resp : Proto.DiscoveryResponse}
    (hStage : s.received.length < 4)
    (hAnswer : db.Answers enc (discoveryRequest cfg.node (Database.stageType s.received.length)
      (db.stageNames codec (listenerNames cfg) s.received.length) "" "") resp) :
    ∃ cs ack, Serves codec .alwaysOpen cfg watch (s.received ++ [resp]) cs ∧ ¬ ack.IsSubscription ∧
      cs.stream = ⟨db.stage codec (listenerNames cfg) (s.received.length + 1),
        s.requests codec cfg watch ++
          ack :: db.stageRequests codec (listenerNames cfg) cfg.node (s.received.length + 1)⟩ := by
  obtain ⟨u, hApply⟩ := hAnswer.applied hDecodes hRds hStage
  rw [← hs.state] at hApply
  obtain ⟨cs, hHandle, hServes⟩ := hs.serves.extend (fun _ => rfl) (fun _ => rfl) hApply
  obtain ⟨ads, u', hApplied, _, hStream⟩ := respond_ok (handleResponse_ok hHandle).1
  rw [hApply] at hApplied
  cases hApplied
  have hType : resp.typeUrl = Database.stageType s.received.length := hAnswer.type
  refine ⟨cs, discoveryRequest cfg.node resp.typeUrl
    ((db.fill codec (listenerNames cfg) (s.client codec cfg watch).stream.ads
      s.received.length).subscription resp.typeUrl) resp.versionInfo resp.nonce, hServes, hAnswer.tagged, ?_⟩
  rw [hStream, hs.state, hType, Database.followRequests_fill (listenerNames_sorted cfg)]
  rfl

theorem Staged.receive (hDecodes : db.Decodes codec enc) (hRds : db.RdsOnly codec) {n : Nat} {s : Session}
    (hs : Staged codec enc db cfg watch n s) {resp : Proto.DiscoveryResponse}
    {rest : List Proto.DiscoveryResponse} (hFlight : s.inFlight = resp :: rest) :
    Staged codec enc db cfg watch (n + 1)
      { s with received := s.received ++ [resp], inFlight := rest } := by
  have hPhase := hs.phase
  rw [hFlight] at hPhase
  generalize hUnread : (s.requests codec cfg watch).drop s.read = unread at hPhase
  -- only an answered stage has a response on its way, and then every request has been read
  cases hPhase with
  | answered hNames hAnswer hSteps =>
    have hStage := Database.stageNames_lt hNames
    obtain ⟨cs, ack, hServes, hAck, hStream⟩ := hs.handle hDecodes hRds hStage hAnswer
    have hClient := client_of_serves (s := ⟨s.received ++ [resp], s.read, []⟩) hServes
    have hLength : (s.received ++ [resp]).length = s.received.length + 1 := by simp
    have hRequests : (⟨s.received ++ [resp], s.read, []⟩ : Session).requests codec cfg watch =
        s.requests codec cfg watch ++
          ack :: db.stageRequests codec (listenerNames cfg) cfg.node (s.received.length + 1) := by
      rw [requests, hClient, hStream]
    have hAsked : ((db.stageRequests codec (listenerNames cfg) cfg.node (s.received.length + 1)).map
        (·.typeUrl)).Sublist [Database.stageType (s.received.length + 1)] := by
      rw [Database.stageRequests]
      split
      · exact List.Sublist.refl _
      · exact List.nil_sublist _
    refine ⟨?_, ?_, ?_, ?_, ?_, ?_⟩
    · rw [hClient]
      exact hServes
    · rw [hClient, hStream, hLength]
    · rw [hRequests, List.filter_append, List.filter_cons_of_neg (by simpa using hAck), List.map_append,
        hLength, List.range_succ, List.map_append]
      exact hs.subscribed.append ((List.filter_sublist.map _).trans hAsked)
    · rw [hRequests, List.length_append]
      exact le_trans hs.read (Nat.le_add_right _ _)
    · rw [hLength]
      exact hStage
    · rw [hRequests, List.drop_append_of_le_length hs.read, hUnread, hLength]
      exact .received hAck (by omega)

theorem Staged.step (hDecodes : db.Decodes codec enc) (hRds : db.RdsOnly codec) {n : Nat} {s t : Session}
    (hs : Staged codec enc db cfg watch n s) (h : Step codec enc db cfg watch s t) :
    Staged codec enc db cfg watch (n + 1) t := by
  cases h with
  | skip hNext hAck =>
    obtain ⟨hDrop, hRead⟩ := drop_read hNext
    have hPhase := hs.phase
    rw [hDrop] at hPhase
    exact ⟨hs.serves, hs.state, hs.subscribed, hRead, hs.stages, hPhase.skip hAck⟩
  | answer hNext hAsks hAnswer =>
    obtain ⟨hDrop, hRead⟩ := drop_read hNext
    have hPhase := hs.phase
    rw [hDrop] at hPhase
    exact ⟨hs.serves, hs.state, hs.subscribed, hRead, hs.stages, hPhase.answer hAsks hAnswer⟩
  | receive hFlight => exact hs.receive hDecodes hRds hFlight

theorem staged_of_reachable (hNames : cfg.listenerNames ≠ []) (hDecodes : db.Decodes codec enc)
    (hRds : db.RdsOnly codec) {n : Nat} {s : Session}
    (h : (bringUp codec enc db cfg watch).ReachableIn n s) : Staged codec enc db cfg watch n s := by
  induction h with
  | init hInit =>
    have hInit : _ = _ := hInit
    rw [hInit]
    exact staged_init hNames
  | step _ hStep ih => exact ih.step hDecodes hRds hStep

theorem Phase.steps {k n : Nat} {unread : List Proto.DiscoveryRequest}
    {inFlight : List Proto.DiscoveryResponse} (h : Phase codec enc db cfg k n unread inFlight) (hk : k ≤ 4) :
    n ≤ 12 := by
  cases h with
  | received _ hSteps => omega
  | asking hSteps => omega
  | answered hNames _ hSteps =>
    have := Database.stageNames_lt hNames
    omega

theorem Phase.quiet {k n : Nat} (h : Phase codec enc db cfg k n [] []) :
    db.stageNames codec (listenerNames cfg) k = [] := by
  generalize hUnread : ([] : List Proto.DiscoveryRequest) = unread at h
  cases h with
  | received => cases hUnread
  | asking =>
    by_contra hNames
    rw [Database.stageRequests, if_pos hNames] at hUnread
    cases hUnread

theorem Staged.last (hNames : cfg.listenerNames ≠ []) {n : Nat} {s : Session}
    (hs : Staged codec enc db cfg watch n s) (hQuiet : s.Quiet codec cfg watch) :
    s.received ≠ [] ∧
      (s.client codec cfg watch).stream.ads = db.stage codec (listenerNames cfg) 4 := by
  have hPhase := hs.phase
  rw [hQuiet.1, List.drop_length, hQuiet.2] at hPhase
  have hNone := hPhase.quiet
  have hPos : 0 < s.received.length := by
    refine Nat.pos_of_ne_zero fun hZero => ?_
    rw [hZero] at hNone
    exact stageNames_zero_ne hNames hNone
  refine ⟨List.ne_nil_of_length_pos hPos, ?_⟩
  rw [hs.state]
  exact Database.stage_eq_last (listenerNames_sorted cfg) hPos hs.stages hNone

theorem Staged.asked_once {n : Nat} {s : Session} (hs : Staged codec enc db cfg watch n s)
    (typeUrl : String) :
    (s.requests codec cfg watch).countP (fun request =>
      request.IsSubscription ∧ request.typeUrl = typeUrl) ≤ 1 := by
  have hDistinct : ((List.range 5).map Database.stageType).Nodup := by decide
  have hSublist : ((List.range (s.received.length + 1)).map Database.stageType).Sublist
      ((List.range 5).map Database.stageType) :=
    (List.range_sublist.mpr (by have := hs.stages; omega)).map _
  have hOnce := List.nodup_iff_count_le_one.mp ((hs.subscribed.trans hSublist).nodup hDistinct) typeUrl
  rw [List.count, List.countP_map, List.countP_filter] at hOnce
  refine le_trans (List.countP_mono_left ?_) hOnce
  intro request _ hRequest
  have hRequest := of_decide_eq_true hRequest
  simp [hRequest.1, hRequest.2]

/-! ## One control plane -/

def answer (enc : Encoder) (db : Database) (request : Proto.DiscoveryRequest) : Proto.DiscoveryResponse :=
  ⟨"1", request.resourceNames.filterMap (db.resource enc request.typeUrl), request.typeUrl, "n"⟩

theorem answers_answer (enc : Encoder) (db : Database) (request : Proto.DiscoveryRequest) :
    db.Answers enc request (answer enc db request) := by
  refine ⟨rfl, ?_, request.resourceNames, List.Perm.refl _, rfl⟩
  exact fun hEmpty => absurd hEmpty.1 (by decide : "1" ≠ "")

def advance (codec : Proto.Codec) (enc : Encoder) (db : Database) (cfg : XdsClientConfig)
    (watch : RuntimeConfig) (s : Session) : Option Session :=
  match s.inFlight with
  | resp :: rest => some { s with received := s.received ++ [resp], inFlight := rest }
  | [] =>
    ((s.requests codec cfg watch)[s.read]?).map fun request =>
      if request.IsSubscription then
        { s with read := s.read + 1, inFlight := s.inFlight ++ [answer enc db request] }
      else { s with read := s.read + 1 }

theorem advance_step {s t : Session} (h : s.advance codec enc db cfg watch = some t) :
    Step codec enc db cfg watch s t := by
  rw [advance] at h
  split at h
  · rename_i hFlight
    cases h
    exact .receive hFlight
  · obtain ⟨request, hNext, hEq⟩ := Option.map_eq_some_iff.mp h
    split at hEq
    · rename_i hAsks
      rw [← hEq]
      exact .answer hNext hAsks (answers_answer enc db request)
    · rename_i hAck
      rw [← hEq]
      exact .skip hNext hAck

theorem advance_eq_none {s : Session} (hRead : s.read ≤ (s.requests codec cfg watch).length)
    (h : s.advance codec enc db cfg watch = none) : s.Quiet codec cfg watch := by
  rw [advance] at h
  split at h
  · cases h
  · rename_i hFlight
    have hAll := List.getElem?_eq_none_iff.mp (Option.map_eq_none_iff.mp h)
    exact ⟨le_antisymm hRead hAll, hFlight⟩

theorem quiet_iff_stuck {s : Session} (hRead : s.read ≤ (s.requests codec cfg watch).length) :
    s.Quiet codec cfg watch ↔ ∀ t, ¬ Step codec enc db cfg watch s t := by
  constructor
  · rintro ⟨hAll, hNone⟩ t hStep
    cases hStep with
    | skip hNext =>
      rw [hAll, List.getElem?_length] at hNext
      cases hNext
    | answer hNext =>
      rw [hAll, List.getElem?_length] at hNext
      cases hNext
    | receive hFlight =>
      rw [hNone] at hFlight
      cases hFlight
  · intro hStuck
    cases hNext : s.advance codec enc db cfg watch with
    | none => exact advance_eq_none hRead hNext
    | some t => exact absurd (advance_step hNext) (hStuck t)

end Stages

end Session

/-- Every run of a fresh client against a fixed database goes quiet, with the meaning of the database in
the client's state. -/
theorem bringUp_converges (codec : Proto.Codec) (enc : Encoder) (db : Database) (cfg : XdsClientConfig)
    (watch : RuntimeConfig) (hNames : cfg.listenerNames ≠ []) (hDecodes : db.Decodes codec enc)
    (hRds : db.RdsOnly codec) (n : Nat) (s : Session)
    (h : (bringUp codec enc db cfg watch).ReachableIn n s) :
    (s.outcome codec cfg watch).2 = none ∧
    (∀ typeUrl, (s.requests codec cfg watch).countP (fun request =>
      request.IsSubscription ∧ request.typeUrl = typeUrl) ≤ 1) ∧
    n ≤ 12 ∧
    (s.Quiet codec cfg watch ↔ ∀ t, ¬ (bringUp codec enc db cfg watch).step s t) ∧
    (s.Quiet codec cfg watch →
      (∀ version, (s.client codec cfg watch).stream.ads.runtimeConfig version =
        db.closure codec (sortedUnique cfg.listenerNames) (if version = "" then "ads" else version)) ∧
      (db.Complete codec (sortedUnique cfg.listenerNames) → (s.client codec cfg watch).watch =
        db.closure codec (sortedUnique cfg.listenerNames) (s.client codec cfg watch).watch.version)) := by
  have hs := Session.staged_of_reachable hNames hDecodes hRds h
  refine ⟨congrArg Prod.snd hs.serves, hs.asked_once, hs.phase.steps hs.stages,
    Session.quiet_iff_stuck hs.read, ?_⟩
  intro hQuiet
  obtain ⟨hReceived, hLast⟩ := hs.last hNames hQuiet
  have hHolds : db.Holds codec (sortedUnique cfg.listenerNames) (s.client codec cfg watch).stream.ads := by
    rw [hLast]
    exact Database.stage_holds
  have hSorted := sortedUnique_sorted cfg.listenerNames
  refine ⟨hHolds.runtimeConfig hSorted hRds, ?_⟩
  intro hComplete
  have hServes := hs.serves
  rw [← List.dropLast_append_getLast hReceived] at hServes
  obtain ⟨before, _, hHandle⟩ := serves_concat.mp hServes
  have hWatch := handleResponse_watch hHandle
    (hHolds.wellFormed hSorted hRds hs.serves.regular hComplete _)
  rw [hWatch, hHolds.runtimeConfig hSorted hRds]
  rfl

/-! ## A database with one resource of each type -/

def oneOfEach : Database where
  listeners := SortedMap.empty.insert "l" rdsListener
  routes := SortedMap.empty.insert "r" (routeToCluster "c")
  clusters := SortedMap.empty.insert "c" (plainCluster "c")
  endpoints := SortedMap.empty.insert "c" oneEndpoint
  listenersNamed name l hGet := by
    obtain ⟨rfl, rfl⟩ := SortedMap.get_empty_insert.mp hGet
    exact ⟨rfl, by decide⟩
  routesNamed name r hGet := by
    obtain ⟨rfl, rfl⟩ := SortedMap.get_empty_insert.mp hGet
    exact ⟨rfl, by decide⟩
  clustersNamed name c hGet := by
    obtain ⟨rfl, rfl⟩ := SortedMap.get_empty_insert.mp hGet
    exact ⟨rfl, by decide, rfl⟩
  endpointsNamed name a hGet := by
    obtain ⟨rfl, rfl⟩ := SortedMap.get_empty_insert.mp hGet
    exact ⟨rfl, by decide⟩

def oneOfEachCodec : Proto.Codec :=
  { movingRouteCodec with clusterLoadAssignment := Proto.tableDecoder [(oneEndpointBytes, oneEndpoint)] }

def oneOfEachEncoder : Encoder where
  listener _ := rdsListenerBytes
  routeConfiguration _ := routeToClusterBytes 0x63
  cluster _ := plainClusterBytes 0x63
  clusterLoadAssignment _ := oneEndpointBytes

def oneOfEachRun : Nat → Option Session
  | 0 => some ⟨[], 0, []⟩
  | n + 1 => (oneOfEachRun n).bind
    (Session.advance oneOfEachCodec oneOfEachEncoder oneOfEach sampleClient (.empty "bootstrap"))

theorem oneOfEachRun_reachable {n : Nat} {s : Session} (h : oneOfEachRun n = some s) :
    (bringUp oneOfEachCodec oneOfEachEncoder oneOfEach sampleClient (.empty "bootstrap")).ReachableIn n s := by
  induction n generalizing s with
  | zero =>
    cases h
    exact .init rfl
  | succ n ih =>
    obtain ⟨before, hBefore, hStep⟩ := Option.bind_eq_some_iff.mp h
    exact (ih hBefore).step (Session.advance_step hStep)

theorem oneOfEach_decodes : oneOfEach.Decodes oneOfEachCodec oneOfEachEncoder where
  listener name l hGet := by
    obtain ⟨rfl, rfl⟩ := SortedMap.get_empty_insert.mp hGet
    rfl
  route name r hGet := by
    obtain ⟨rfl, rfl⟩ := SortedMap.get_empty_insert.mp hGet
    rfl
  cluster name c hGet := by
    obtain ⟨rfl, rfl⟩ := SortedMap.get_empty_insert.mp hGet
    rfl
  assignment name a hGet := by
    obtain ⟨rfl, rfl⟩ := SortedMap.get_empty_insert.mp hGet
    rfl

theorem oneOfEach_rdsOnly : oneOfEach.RdsOnly oneOfEachCodec := by
  intro name l hGet
  obtain ⟨rfl, rfl⟩ := SortedMap.get_empty_insert.mp hGet
  refine ⟨[⟨some (.rds ⟨"r"⟩)⟩], rfl, ?_⟩
  intro hcm hMem config
  rw [List.mem_singleton.mp hMem]
  exact fun hEq => by cases hEq

theorem oneOfEach_converges :
    ∃ s, oneOfEachRun 12 = some s ∧ s.Quiet oneOfEachCodec sampleClient (.empty "bootstrap") ∧
      (s.client oneOfEachCodec sampleClient (.empty "bootstrap")).watch =
        oneOfEach.closure oneOfEachCodec ["l"] "1" ∧
      (oneOfEach.closure oneOfEachCodec ["l"] "1").clusters = [⟨"c", [⟨"h", 80, true, none⟩], none⟩] := by
  obtain ⟨s, hRun⟩ := Option.isSome_iff_exists.mp (by decide : (oneOfEachRun 12).isSome = true)
  have hLast : ∀ s ∈ oneOfEachRun 12, s.Quiet oneOfEachCodec sampleClient (.empty "bootstrap") ∧
      (s.client oneOfEachCodec sampleClient (.empty "bootstrap")).watch.version = "1" := by
    unfold Session.Quiet
    decide
  obtain ⟨hQuiet, hVersion⟩ := hLast s hRun
  have hComplete : oneOfEach.Complete oneOfEachCodec (sortedUnique sampleClient.listenerNames) := by
    unfold Database.Complete
    decide
  have hConverges := bringUp_converges oneOfEachCodec oneOfEachEncoder oneOfEach sampleClient
    (.empty "bootstrap") (by decide) oneOfEach_decodes oneOfEach_rdsOnly 12 s (oneOfEachRun_reachable hRun)
  have hWatch := (hConverges.2.2.2.2 hQuiet).2 hComplete
  rw [hVersion] at hWatch
  exact ⟨s, hRun, hQuiet, hWatch, by decide⟩

end Dxgate
