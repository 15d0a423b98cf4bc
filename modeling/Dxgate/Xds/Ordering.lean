import Dxgate.Xds.Redelivery
import Dxgate.Xds.Replacement

/-! # The order of responses

The four types form a chain: the names followed for one type come from the store of the type before. Two
responses can therefore only get in each other's way when their types are the same or neighbours in the
chain; all others may arrive in either order, with the same stores, the same subscriptions and, for each
type, the same requests.
-/

namespace Dxgate

set_option autoImplicit false

open Collections

/-- The stream is open and has processed the responses, whatever the state of the channels meanwhile. -/
inductive Received (codec : Proto.Codec) (cfg : XdsClientConfig) :
    List Proto.DiscoveryResponse → Stream → Prop where
  | opened {channels : Channels} {stream : Stream} (h : openStream channels cfg = (stream, none)) :
      Received codec cfg [] stream
  | responded {responses : List Proto.DiscoveryResponse} {channels : Channels} {st st' : Stream}
      {resp : Proto.DiscoveryResponse} (h : Received codec cfg responses st)
      (hRespond : respond codec channels cfg.node st resp = (st', none)) :
      Received codec cfg (responses ++ [resp]) st'

section Received

variable {codec : Proto.Codec} {channels : Channels} {cfg : XdsClientConfig} {watch : RuntimeConfig}
  {responses : List Proto.DiscoveryResponse}

theorem Serves.received {cs : ClientState} (h : Serves codec channels cfg watch responses cs) :
    Received codec cfg responses cs.stream := by
  induction responses using List.reverseRecOn generalizing cs with
  | nil => exact .opened (serves_nil h).1
  | append_singleton before resp ih =>
    obtain ⟨mid, hBefore, hLast⟩ := serves_concat.mp h
    exact (ih hBefore).responded (handleResponse_ok hLast).1

/-- Only whether the channels accept depends on them, not what is stored and sent. -/
theorem respond_ok_unique {channels' : Channels} {node : Proto.Node} {st first second : Stream}
    {resp : Proto.DiscoveryResponse} (hFirst : respond codec channels node st resp = (first, none))
    (hSecond : respond codec channels' node st resp = (second, none)) : first = second := by
  obtain ⟨ads, _, hApply, _, rfl⟩ := respond_ok hFirst
  obtain ⟨ads', _, hApply', _, rfl⟩ := respond_ok hSecond
  rw [hApply] at hApply'
  cases hApply'
  rfl

theorem received_nil {stream : Stream} (h : Received codec cfg [] stream) :
    ∃ channels, openStream channels cfg = (stream, none) := by
  generalize hNil : ([] : List Proto.DiscoveryResponse) = all at h
  cases h with
  | opened hOpen => exact ⟨_, hOpen⟩
  | responded => exact absurd hNil (by simp)

theorem received_concat {resp : Proto.DiscoveryResponse} {stream : Stream}
    (h : Received codec cfg (responses ++ [resp]) stream) :
    ∃ channels before, Received codec cfg responses before ∧
      respond codec channels cfg.node before resp = (stream, none) := by
  generalize hAll : responses ++ [resp] = all at h
  cases h with
  | opened => exact absurd hAll (by simp)
  | responded hBefore hRespond =>
    obtain ⟨rfl, hResp⟩ := List.append_inj' hAll rfl
    cases hResp
    exact ⟨_, _, hBefore, hRespond⟩

theorem Received.unique {first second : Stream} (hFirst : Received codec cfg responses first)
    (hSecond : Received codec cfg responses second) : first = second := by
  induction responses using List.reverseRecOn generalizing first second with
  | nil =>
    obtain ⟨_, hOpen⟩ := received_nil hFirst
    obtain ⟨_, hOpen'⟩ := received_nil hSecond
    rw [openStream_ok hOpen, openStream_ok hOpen']
  | append_singleton before resp ih =>
    obtain ⟨_, mid, hMid, hRespond⟩ := received_concat hFirst
    obtain ⟨_, mid', hMid', hRespond'⟩ := received_concat hSecond
    rw [ih hMid' hMid] at hRespond'
    exact respond_ok_unique hRespond hRespond'

/-- The first request of a stream is never its last one once a response has been acknowledged. -/
theorem Received.requests_length {stream : Stream} (h : Received codec cfg responses stream) :
    responses.length < stream.requests.length ∧ (responses = [] → stream.requests.length = 1) := by
  induction h with
  | opened hOpen =>
    rw [openStream_ok hOpen]
    exact ⟨Nat.one_pos, fun _ => rfl⟩
  | responded _ hRespond ih =>
    obtain ⟨_, _, _, _, rfl⟩ := respond_ok hRespond
    refine ⟨?_, fun hNil => absurd hNil (by simp)⟩
    simp only [List.length_append, List.length_cons, List.length_nil]
    omega

end Received

/-! ## Independent responses -/

namespace AdsState

/-- Different types, neither of which follows the other. -/
structure Independent (t u : String) : Prop where
  different : t ≠ u
  forward : nextType t ≠ some u
  backward : nextType u ≠ some t

theorem Independent.symm {t u : String} (h : Independent t u) : Independent u t :=
  ⟨h.different.symm, h.backward, h.forward⟩

theorem nextType_injective {t u next : String} (ht : nextType t = some next) (hu : nextType u = some next) :
    t = u := by
  have hCases (t : String) (h : nextType t = some next) :
      (t = LISTENER_TYPE ∧ next = ROUTE_TYPE) ∨ (t = ROUTE_TYPE ∧ next = CLUSTER_TYPE) ∨
        (t = CLUSTER_TYPE ∧ next = ENDPOINT_TYPE) := by
    unfold nextType at h
    split at h
    · rename_i hType
      exact .inl ⟨hType, (Option.some.inj h).symm⟩
    split at h
    · rename_i hType
      exact .inr (.inl ⟨hType, (Option.some.inj h).symm⟩)
    split at h
    · rename_i hType
      exact .inr (.inr ⟨hType, (Option.some.inj h).symm⟩)
    · cases h
  rcases hCases t ht with ⟨rfl, rfl⟩ | ⟨rfl, rfl⟩ | ⟨rfl, rfl⟩ <;>
    rcases hCases u hu with ⟨rfl, hNext⟩ | ⟨rfl, hNext⟩ | ⟨rfl, hNext⟩ <;>
      first | rfl | exact absurd hNext (by decide)

variable {codec : Proto.Codec} {s a : AdsState} {x y : Proto.DiscoveryResponse} {u : DiscoveryUpdates}

theorem settle_subscriptions_get (s : AdsState) (t key : String) :
    (s.settle t).subscriptions.get key =
      if nextType t = some key ∧ s.derivedNames t ≠ [] then some (s.derivedNames t)
      else s.subscriptions.get key := by
  unfold settle
  cases hNext : nextType t with
  | none => simp
  | some next =>
    by_cases hNames : s.derivedNames t = []
    · simp [hNames]
    · by_cases hKey : key = next
      · simp [hNames, hKey]
      · have hNe : next ≠ key := fun h => hKey h.symm
        simp [hNames, hKey, hNe]

/-- What is stored and followed of a type that a response does not follow. -/
theorem Applied.settled_subscription (h : Applied codec s x a u) {t : String}
    (hNext : nextType x.typeUrl ≠ some t) : (a.settle x.typeUrl).subscription t = s.subscription t := by
  rw [settle_subscription, if_neg fun hFollows => hNext hFollows.1, h.subscription_eq]

theorem Applied.derivedNames_other (h : Applied codec s x a u) {t : String} (hOther : x.typeUrl ≠ t) :
    a.derivedNames t = s.derivedNames t := by
  unfold derivedNames routeNames clusterNames edsNames
  split
  · rename_i hType
    rw [h.listeners_eq, if_neg (hType ▸ hOther)]
  split
  · rename_i hType
    rw [h.routes_eq, if_neg (hType ▸ hOther)]
  split
  · rename_i hType
    rw [h.clusters_eq, if_neg (hType ▸ hOther)]
  · rfl

/-- What the client sends for an accepted response: the acknowledgement, and the names it now follows. -/
def exchange (node : Proto.Node) (s : AdsState) (resp : Proto.DiscoveryResponse) :
    List Proto.DiscoveryRequest :=
  discoveryRequest node resp.typeUrl (s.subscription resp.typeUrl) resp.versionInfo resp.nonce ::
    s.followRequests node resp.typeUrl

theorem mem_exchange {node : Proto.Node} {request : Proto.DiscoveryRequest} (h : request ∈ s.exchange node x) :
    request.typeUrl = x.typeUrl ∨ nextType x.typeUrl = some request.typeUrl := by
  rcases List.mem_cons.mp h with rfl | hFollow
  · exact .inl rfl
  · unfold followRequests at hFollow
    split at hFollow
    · rename_i hNext
      split at hFollow
      · rw [List.mem_singleton.mp hFollow]
        exact .inr hNext
      · cases hFollow
    · cases hFollow

theorem filter_exchange_nil (h : Independent x.typeUrl y.typeUrl) {node : Proto.Node} {t : String}
    (hSome : (s.exchange node x).filter (·.typeUrl = t) ≠ []) :
    (a.exchange node y).filter (·.typeUrl = t) = [] := by
  obtain ⟨request, hRequest⟩ := List.exists_mem_of_ne_nil _ hSome
  obtain ⟨hMem, hType⟩ := List.mem_filter.mp hRequest
  have hx := mem_exchange hMem
  rw [of_decide_eq_true hType] at hx
  refine List.filter_eq_nil_iff.mpr fun other hOther hSame => ?_
  have hy := mem_exchange hOther
  rw [of_decide_eq_true hSame] at hy
  rcases hx with hx | hx <;> rcases hy with hy | hy
  · exact h.different (hx.symm.trans hy)
  · exact h.backward (hx ▸ hy)
  · exact h.forward (hy ▸ hx)
  · exact h.different (nextType_injective hx hy)

section Swap

variable {codec : Proto.Codec} {s a₁ a₂ b₁ b₂ : AdsState} {x y : Proto.DiscoveryResponse}
  {u₁ u₂ v₁ v₂ : DiscoveryUpdates}

/-- A part of the state that only `x` may change, from its old value and the names followed for its type. -/
theorem part_swap {V : Type} (part : AdsState → V) (change : V → List String → V)
    (hSettle : ∀ s t, part (settle s t) = part s)
    (hX : ∀ s a u, Applied codec s x a u → part a = change (part s) (s.subscription x.typeUrl))
    (hY : ∀ s a u, Applied codec s y a u → part a = part s) (hNext : nextType y.typeUrl ≠ some x.typeUrl)
    (hA₁ : Applied codec s x a₁ u₁) (hA₂ : Applied codec (a₁.settle x.typeUrl) y a₂ u₂)
    (hB₁ : Applied codec s y b₁ v₁) (hB₂ : Applied codec (b₁.settle y.typeUrl) x b₂ v₂) :
    part a₂ = part b₂ := by
  rw [hY _ _ _ hA₂, hSettle, hX _ _ _ hA₁, hX _ _ _ hB₂, hSettle, hY _ _ _ hB₁,
    hB₁.settled_subscription hNext]

variable (h : Independent x.typeUrl y.typeUrl) (hA₁ : Applied codec s x a₁ u₁)
  (hA₂ : Applied codec (a₁.settle x.typeUrl) y a₂ u₂) (hB₁ : Applied codec s y b₁ v₁)
  (hB₂ : Applied codec (b₁.settle y.typeUrl) x b₂ v₂)

include h hA₁ hA₂ hB₁ hB₂

/-- A part that only responses of certain types change, no two of them independent. -/
theorem part_swap_owned {V : Type} (part : AdsState → V) (owns : String → Prop)
    (change : Proto.DiscoveryResponse → V → List String → V) (hSettle : ∀ s t, part (settle s t) = part s)
    (hOwns : ∀ z s a u, owns z.typeUrl → Applied codec s z a u →
      part a = change z (part s) (s.subscription z.typeUrl))
    (hOther : ∀ z s a u, ¬ owns z.typeUrl → Applied codec s z a u → part a = part s)
    (hExclusive : ∀ t u, owns t → owns u → ¬ Independent t u) : part a₂ = part b₂ := by
  by_cases hx : owns x.typeUrl
  · have hy : ¬ owns y.typeUrl := fun hy => hExclusive _ _ hx hy h
    exact part_swap part (change x) hSettle (fun s a u => hOwns x s a u hx) (fun s a u => hOther y s a u hy)
      h.backward hA₁ hA₂ hB₁ hB₂
  · by_cases hy : owns y.typeUrl
    · exact (part_swap part (change y) hSettle (fun s a u => hOwns y s a u hy)
        (fun s a u => hOther x s a u hx) h.forward hB₁ hB₂ hA₁ hA₂).symm
    · exact part_swap part (fun v _ => v) hSettle (fun s a u => hOther x s a u hx)
        (fun s a u => hOther y s a u hy) h.backward hA₁ hA₂ hB₁ hB₂

theorem listeners_swap : a₂.listeners = b₂.listeners := by
  refine part_swap_owned h hA₁ hA₂ hB₁ hB₂ (·.listeners) (· = LISTENER_TYPE)
    (fun z v names => (pruneRequested v names).insertAll (carriedListeners codec z)) settle_listeners ?_ ?_ ?_
  · intro z s a u hz hApplied
    rw [hApplied.listeners_eq, if_pos hz, hz]
  · intro z s a u hz hApplied
    rw [hApplied.listeners_eq, if_neg hz]
  · rintro _ _ rfl rfl hIndependent
    exact hIndependent.different rfl

theorem routes_swap : a₂.routes = b₂.routes := by
  refine part_swap_owned h hA₁ hA₂ hB₁ hB₂ (·.routes) (· = ROUTE_TYPE)
    (fun z v names => (pruneRequested v names).insertAll (carriedRoutes codec z)) settle_routes ?_ ?_ ?_
  · intro z s a u hz hApplied
    rw [hApplied.routes_eq, if_pos hz, hz]
  · intro z s a u hz hApplied
    rw [hApplied.routes_eq, if_neg hz]
  · rintro _ _ rfl rfl hIndependent
    exact hIndependent.different rfl

theorem clusters_swap : a₂.clusters = b₂.clusters := by
  refine part_swap_owned h hA₁ hA₂ hB₁ hB₂ (·.clusters) (· = CLUSTER_TYPE)
    (fun z v names => (pruneRequested v names).insertAll
      ((named (carriedClusters codec z)).map fun c => (c.name, clusterSnapshot codec c)))
    settle_clusters ?_ ?_ ?_
  · intro z s a u hz hApplied
    rw [hApplied.clusters_eq, if_pos hz, hz]
  · intro z s a u hz hApplied
    rw [hApplied.clusters_eq, if_neg hz]
  · rintro _ _ rfl rfl hIndependent
    exact hIndependent.different rfl

/-- Endpoints are written by their own responses and by inline assignments of clusters; these types are
neighbours. -/
theorem endpoints_swap : a₂.endpoints = b₂.endpoints := by
  refine part_swap_owned h hA₁ hA₂ hB₁ hB₂ (·.endpoints) (fun t => t = ENDPOINT_TYPE ∨ t = CLUSTER_TYPE)
    (fun z v names =>
      if z.typeUrl = ENDPOINT_TYPE then (pruneRequested v names).insertAll (carriedAssignments codec z)
      else v.insertAll (inlineAssignments (carriedClusters codec z))) settle_endpoints ?_ ?_ ?_
  · intro z s a u hz hApplied
    rw [hApplied.endpoints_eq]
    rcases hz with hz | hz
    · rw [if_pos hz, if_pos hz, hz]
    · have hNot : z.typeUrl ≠ ENDPOINT_TYPE := by
        rw [hz]
        decide
      rw [if_neg hNot, if_pos hz, if_neg hNot]
  · intro z s a u hz hApplied
    rw [not_or] at hz
    rw [hApplied.endpoints_eq, if_neg hz.1, if_neg hz.2]
  · rintro _ _ (rfl | rfl) (rfl | rfl) hIndependent
    · exact hIndependent.different rfl
    · exact hIndependent.backward (by decide)
    · exact hIndependent.forward (by decide)
    · exact hIndependent.different rfl

theorem derivedNames_swap (t : String) : a₂.derivedNames t = b₂.derivedNames t := by
  simp only [derivedNames, routeNames, clusterNames, edsNames, listeners_swap h hA₁ hA₂ hB₁ hB₂,
    routes_swap h hA₁ hA₂ hB₁ hB₂, clusters_swap h hA₁ hA₂ hB₁ hB₂]

theorem derivedNames_first : a₁.derivedNames x.typeUrl = b₂.derivedNames x.typeUrl := by
  rw [← derivedNames_swap h hA₁ hA₂ hB₁ hB₂, hA₂.derivedNames_other h.different.symm, derivedNames_settle]

theorem subscriptions_swap :
    (a₂.settle y.typeUrl).subscriptions = (b₂.settle x.typeUrl).subscriptions := by
  ext1 key
  rw [settle_subscriptions_get, hA₂.subscriptions_eq, settle_subscriptions_get, hA₁.subscriptions_eq,
    settle_subscriptions_get, hB₂.subscriptions_eq, settle_subscriptions_get, hB₁.subscriptions_eq,
    derivedNames_first h hA₁ hA₂ hB₁ hB₂, ← derivedNames_first h.symm hB₁ hB₂ hA₁ hA₂]
  by_cases hx : nextType x.typeUrl = some key
  · have hy : nextType y.typeUrl ≠ some key := fun hy => h.different (nextType_injective hx hy)
    simp [hx, hy]
  · simp [hx]

theorem settle_swap : a₂.settle y.typeUrl = b₂.settle x.typeUrl := by
  apply AdsState.ext
  · exact subscriptions_swap h hA₁ hA₂ hB₁ hB₂
  · rw [settle_listeners, settle_listeners, listeners_swap h hA₁ hA₂ hB₁ hB₂]
  · rw [settle_routes, settle_routes, routes_swap h hA₁ hA₂ hB₁ hB₂]
  · rw [settle_clusters, settle_clusters, clusters_swap h hA₁ hA₂ hB₁ hB₂]
  · rw [settle_endpoints, settle_endpoints, endpoints_swap h hA₁ hA₂ hB₁ hB₂]

theorem exchange_swap (node : Proto.Node) : a₁.exchange node x = b₂.exchange node x := by
  have hOwn : a₁.subscription x.typeUrl = b₂.subscription x.typeUrl := by
    rw [hA₁.subscription_eq, hB₂.subscription_eq, hB₁.settled_subscription h.backward]
  have hFollow : a₁.followRequests node x.typeUrl = b₂.followRequests node x.typeUrl := by
    unfold followRequests
    cases hNext : nextType x.typeUrl with
    | none => rfl
    | some next =>
      have hOther : nextType y.typeUrl ≠ some next := fun hy => h.different (nextType_injective hNext hy)
      dsimp only
      rw [derivedNames_first h hA₁ hA₂ hB₁ hB₂, hA₁.subscription_eq, hB₂.subscription_eq,
        hB₁.settled_subscription hOther]
  rw [exchange, exchange, hOwn, hFollow]

end Swap

end AdsState

/-! ## Streams -/

/-- The same state, and the same requests as far as each type is concerned. -/
structure Stream.Alike (st st' : Stream) : Prop where
  ads : st.ads = st'.ads
  requests : ∀ t, st.requests.filter (·.typeUrl = t) = st'.requests.filter (·.typeUrl = t)

section Streams

variable {codec : Proto.Codec} {channels : Channels} {node : Proto.Node} {cfg : XdsClientConfig}
  {watch : RuntimeConfig}

theorem respond_exchange {st st' : Stream} {resp : Proto.DiscoveryResponse}
    (h : respond codec channels node st resp = (st', none)) :
    ∃ ads u, AdsState.Applied codec st.ads resp ads u ∧
      st' = ⟨ads.settle resp.typeUrl, st.requests ++ ads.exchange node resp⟩ := by
  obtain ⟨ads, u, _, hApplied, hStream⟩ := respond_ok h
  exact ⟨ads, u, hApplied, hStream⟩

theorem respond_total (hOpen : ∀ n, channels.requestOpen n = true) (st : Stream) {s a : AdsState}
    {resp : Proto.DiscoveryResponse} {u : DiscoveryUpdates} (h : AdsState.Applied codec s resp a u) :
    ∃ st', respond codec channels node st resp = (st', none) := by
  obtain ⟨ads, u', hApply⟩ := h.applyResponse_again st.ads
  exact ⟨_, Prod.ext rfl (respond_open node hOpen hApply)⟩

theorem respond_alike (hOpen : ∀ n, channels.requestOpen n = true) {st st' next : Stream}
    {resp : Proto.DiscoveryResponse} (hAlike : st.Alike st')
    (h : respond codec channels node st resp = (next, none)) :
    ∃ next', respond codec channels node st' resp = (next', none) ∧ next.Alike next' := by
  obtain ⟨ads, u, hApply, hApplied, rfl⟩ := respond_ok h
  obtain ⟨next', hNext⟩ := respond_total hOpen st' hApplied
  refine ⟨next', hNext, ?_⟩
  obtain ⟨ads', u', hApply', _, rfl⟩ := respond_ok hNext
  rw [← hAlike.ads, hApply] at hApply'
  cases hApply'
  refine ⟨rfl, fun t => ?_⟩
  rw [List.filter_append, List.filter_append, hAlike.requests]

theorem respond_swap (hOpen : ∀ n, channels.requestOpen n = true) {st mid last : Stream}
    {x y : Proto.DiscoveryResponse} (hIndependent : AdsState.Independent x.typeUrl y.typeUrl)
    (hx : respond codec channels node st x = (mid, none))
    (hy : respond codec channels node mid y = (last, none)) :
    ∃ mid' last', respond codec channels node st y = (mid', none) ∧
      respond codec channels node mid' x = (last', none) ∧ last.Alike last' := by
  obtain ⟨a₁, u₁, hA₁, rfl⟩ := respond_exchange hx
  obtain ⟨a₂, u₂, hA₂, rfl⟩ := respond_exchange hy
  obtain ⟨mid', hMid⟩ := respond_total hOpen st hA₂
  obtain ⟨last', hLast⟩ := respond_total hOpen mid' hA₁
  refine ⟨mid', last', hMid, hLast, ?_⟩
  obtain ⟨b₁, v₁, hB₁, rfl⟩ := respond_exchange hMid
  obtain ⟨b₂, v₂, hB₂, rfl⟩ := respond_exchange hLast
  refine ⟨AdsState.settle_swap hIndependent hA₁ hA₂ hB₁ hB₂, fun t => ?_⟩
  dsimp only
  rw [AdsState.exchange_swap hIndependent hA₁ hA₂ hB₁ hB₂, AdsState.exchange_swap hIndependent.symm hB₁ hB₂ hA₁ hA₂]
  simp only [List.filter_append, List.append_assoc]
  -- a type is asked for in one of the two exchanges at most
  by_cases hType : (b₂.exchange node x).filter (·.typeUrl = t) = []
  · rw [hType, List.nil_append, List.append_nil]
  · rw [AdsState.filter_exchange_nil hIndependent hType, List.nil_append, List.append_nil]

theorem serves_respond (hWatch : ∀ n, channels.watchOpen n = true) {responses : List Proto.DiscoveryResponse}
    {resp : Proto.DiscoveryResponse} {stream : Stream} :
    (∃ cs, Serves codec channels cfg watch (responses ++ [resp]) cs ∧ cs.stream = stream) ↔
      ∃ before, (∃ cs, Serves codec channels cfg watch responses cs ∧ cs.stream = before) ∧
        respond codec channels cfg.node before resp = (stream, none) := by
  constructor
  · rintro ⟨cs, hServes, rfl⟩
    obtain ⟨before, hBefore, hLast⟩ := serves_concat.mp hServes
    exact ⟨before.stream, ⟨before, hBefore, rfl⟩, (handleResponse_ok hLast).1⟩
  · rintro ⟨_, ⟨before, hBefore, rfl⟩, hRespond⟩
    obtain ⟨ads, u, hApply, _, _⟩ := respond_ok hRespond
    have hHandle : handleResponse codec channels cfg.node before resp =
        publish channels { before with stream := stream } resp.versionInfo := by
      rw [handleResponse, hRespond]
    have hDone := publish_open hWatch { before with stream := stream } resp.versionInfo
    refine ⟨_, serves_concat.mpr ⟨before, hBefore, hHandle.trans (Prod.ext rfl hDone)⟩, ?_⟩
    exact publish_stream channels { before with stream := stream } resp.versionInfo

end Streams

/-- Responses of types that are neither the same nor neighbours in the chain may arrive in any order: all
of them are accepted in the other order too, the stores and subscriptions at the end are the same, hence
the assembled configuration, and for each type the same requests go out in the same order. -/
theorem reordered_responses (codec : Proto.Codec) (channels : Channels) (cfg : XdsClientConfig)
    (watch : RuntimeConfig) (hRequests : ∀ n, channels.requestOpen n = true)
    (hWatch : ∀ n, channels.watchOpen n = true) {responses responses' : List Proto.DiscoveryResponse}
    (h : Runs.Reordered (fun x y => AdsState.Independent x.typeUrl y.typeUrl) responses responses')
    {cs : ClientState} (hServes : Serves codec channels cfg watch responses cs) :
    ∃ cs', Serves codec channels cfg watch responses' cs' ∧ cs'.stream.ads = cs.stream.ads ∧
      (∀ version, cs'.stream.ads.runtimeConfig version = cs.stream.ads.runtimeConfig version) ∧
      ∀ t, cs'.stream.requests.filter (·.typeUrl = t) = cs.stream.requests.filter (·.typeUrl = t) := by
  have hReordered := h.run (fun st resp st' => respond codec channels cfg.node st resp = (st', none))
    (fun responses st => ∃ cs, Serves codec channels cfg watch responses cs ∧ cs.stream = st)
    Stream.Alike (fun _ _ _ => serves_respond hWatch) (fun _ => ⟨rfl, fun _ => rfl⟩)
    (fun _ _ _ hFirst hSecond => ⟨hFirst.ads.trans hSecond.ads, fun t =>
      (hFirst.requests t).trans (hSecond.requests t)⟩)
    (fun _ _ _ _ hAlike hStep => respond_alike hRequests hAlike hStep)
    (fun _ _ _ _ _ hIndependent hx hy => respond_swap hRequests hIndependent hx hy) ⟨cs, hServes, rfl⟩
  obtain ⟨_, ⟨cs', hServes', rfl⟩, hAlike⟩ := hReordered
  refine ⟨cs', hServes', hAlike.ads.symm, ?_, fun t => (hAlike.requests t).symm⟩
  intro version
  rw [hAlike.ads]

theorem serves_of_ok {codec : Proto.Codec} {channels : Channels} {cfg : XdsClientConfig}
    {watch : RuntimeConfig} {responses : List Proto.DiscoveryResponse}
    (h : (runOnce codec channels cfg watch (.opened (responses.map .message))).2 = none) :
    Serves codec channels cfg watch responses
      (runOnce codec channels cfg watch (.opened (responses.map .message))).1 := Prod.ext rfl h

/-- A listener, and a cluster that nothing names yet. -/
def listenerThenCluster : List Proto.DiscoveryResponse := [rdsListenerResponse, clusterResponse 0x63]

theorem listenerThenCluster_reordered :
    ∃ cs cs', Serves movingRouteCodec .alwaysOpen sampleClient (.empty "bootstrap") listenerThenCluster cs ∧
      Serves movingRouteCodec .alwaysOpen sampleClient (.empty "bootstrap")
        [clusterResponse 0x63, rdsListenerResponse] cs' ∧ cs'.stream.ads = cs.stream.ads := by
  have hServes : Serves movingRouteCodec .alwaysOpen sampleClient (.empty "bootstrap") listenerThenCluster _ :=
    serves_of_ok (by decide +kernel)
  obtain ⟨cs', hSwapped, hAds, -⟩ := reordered_responses movingRouteCodec .alwaysOpen sampleClient
    (.empty "bootstrap") (fun _ => rfl) (fun _ => rfl)
    (.swap [] [] ⟨by decide, by decide, by decide⟩) hServes
  exact ⟨_, cs', hServes, hSwapped, hAds⟩

end Dxgate
