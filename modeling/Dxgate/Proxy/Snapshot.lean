import Dxgate.Proxy.Machine

/-! # One configuration for each request

A handler reads the configuration once and lets go of the lock, while other tasks go on to store new ones.
What it answers is therefore explained by a single configuration, one that was the stored one at some
moment while the request was handled; and it needs four accesses of its own for it, whatever the other
tasks do.
-/

namespace Dxgate

set_option autoImplicit false

/-! ## What a configuration says about a request -/

/-- The answer to a request for which an endpoint has been picked. -/
structure Dispatched (up : Upstream) (target : Target) (req : Request) (out : Forwarded) : Prop where
  aimed : out.target = some target
  refused : out.call = none → ∃ failure, out.reply = .error failure ∧ failure.status = .badGateway
  called : ∀ call, out.call = some call → call.uri = upstreamUri target req ∧
    SameHeaders call.headers (req.headers.filter (·.1 ≠ "host")) ∧
    (call.client = .plaintext ↔ target.cluster.tls = none) ∧
    out.reply = (up.request call).mapError fun err => ⟨.badGateway, err⟩

/-- The answers that are right for a request under a configuration, up to the choice among the clusters
of the route and the healthy endpoints of the cluster. -/
inductive Explains (cfg : RuntimeConfig) (req : Request) : Forwarded → Prop where
  | unrouted {err : DxgateError} (hRoute : cfg.routeFor HTTP_LISTENER_PORT req.matchInput = .error err) :
      Explains cfg req (.failed ⟨.notFound, err.message⟩)
  | unhealthy {route : Route} {dst : WeightedCluster} {cluster : Cluster}
      (hRoute : cfg.routeFor HTTP_LISTENER_PORT req.matchInput = .ok route)
      (hDst : dst ∈ route.weightedClusters) (hCluster : cfg.cluster dst.name = some cluster)
      (hNone : cluster.healthyEndpoints = []) :
      Explains cfg req (.failed ⟨.serviceUnavailable, (DxgateError.noHealthyEndpoints cluster.name).message⟩)
  | dispatched {route : Route} {dst : WeightedCluster} {up : Upstream} {target : Target} {out : Forwarded}
      (hRoute : cfg.routeFor HTTP_LISTENER_PORT req.matchInput = .ok route)
      (hDst : route.weightedClusters[target.clusterIndex]? = some dst)
      (hCluster : cfg.cluster dst.name = some target.cluster)
      (hEndpoint : target.cluster.healthyEndpoints[target.endpointIndex]? = some target.endpoint)
      (hOut : Dispatched up target req out) : Explains cfg req out

theorem send_dispatched (up : Upstream) (target : Target) (req : Request) {call : Call}
    (hUri : call.uri = upstreamUri target req)
    (hHeaders : SameHeaders call.headers (req.headers.filter (·.1 ≠ "host")))
    (hClient : call.client = .plaintext ↔ target.cluster.tls = none) :
    Dispatched up target req (send up target call) where
  aimed := rfl
  refused hNone := by cases hNone
  called other hCall := by
    cases hCall
    exact ⟨hUri, hHeaders, hClient, rfl⟩

theorem refused_dispatched (up : Upstream) (target : Target) (req : Request) {failure : Failure}
    (hStatus : failure.status = .badGateway) :
    Dispatched up target req ⟨some target, none, .error failure⟩ where
  aimed := rfl
  refused _ := ⟨failure, rfl, hStatus⟩
  called call hCall := by cases hCall

theorem dispatch_dispatched (up : Upstream) (server : ProxyServer) (target : Target) (req : Request) :
    Dispatched up target req (dispatch up server target req).2 := by
  rw [dispatch]
  dsimp only
  split
  · exact refused_dispatched up target req rfl
  · split
    · rename_i hTls
      exact send_dispatched up target req rfl (up.remove_same _ _) ⟨fun _ => hTls, fun _ => rfl⟩
    · rename_i tls hTls
      split
      · rename_i hClient
        exact refused_dispatched up target req (mtlsClient_failure hClient)
      · refine send_dispatched up target req rfl (up.remove_same _ _) ⟨?_, ?_⟩
        · intro hPlain
          cases hPlain
        · intro hNone
          rw [hTls] at hNone
          cases hNone

theorem ProxyState.pickEndpoint_get {st : ProxyState} {name : String} {endpoints : List Endpoint}
    {j : Nat} {endpoint : Endpoint} (h : (st.pickEndpoint name endpoints).2 = .ok (j, endpoint)) :
    (endpoints.filter (·.healthy))[j]? = some endpoint := by
  rw [pickEndpoint] at h
  dsimp only at h
  split at h
  · rename_i hPos
    cases h
    exact List.getElem?_eq_getElem (Nat.mod_lt _ hPos)
  · cases h

/-! ## The course of one call -/

namespace ProxySystem

/-- Task `i` was given the call when `n` configurations had been stored, and has made `m` accesses since. -/
inductive Since (i : Nat) (call : Task) : Nat → Nat → ProxySystem → Prop where
  | called {s : ProxySystem} (h : machine.Reachable s) (hResting : (s.tasks i).Resting) (hCall : call.Call) :
      Since i call s.stored.length 0 (s.setTask i call)
  | other {n m : Nat} {s : ProxySystem} (h : Since i call n m s) {j : Nat} (hOther : j ≠ i) {task : Task}
      (hResting : (s.tasks j).Resting) (hCall : task.Call) : Since i call n m (s.setTask j task)
  | run {n m : Nat} {s : ProxySystem} (h : Since i call n m s) (up : Upstream) (j : Nat) :
      Since i call n (if j = i then m + 1 else m) (s.runTask up j)

variable {i n m : Nat} {call : Task} {s t : ProxySystem}

theorem Since.reachable (h : Since i call n m s) : machine.Reachable s := by
  induction h with
  | called h hResting hCall => exact h.step (.call i hResting hCall)
  | other _ _ hResting hCall ih => exact ih.step (.call _ hResting hCall)
  | run _ up j ih => exact ih.step (.run up j)

/-- The configuration was the stored one after `k` stores, at some time since the `n`-th. -/
def Held (n : Nat) (s : ProxySystem) (cfg : RuntimeConfig) : Prop :=
  ∃ k, n ≤ k ∧ k ≤ s.stored.length ∧ cfg = (s.stored.take k).getLast?.getD (.empty "bootstrap")

theorem Held.mono {cfg : RuntimeConfig} (h : Held n s cfg) {more : List RuntimeConfig}
    (hStored : t.stored = s.stored ++ more) : Held n t cfg := by
  obtain ⟨k, hLow, hHigh, rfl⟩ := h
  refine ⟨k, hLow, ?_, ?_⟩
  · rw [hStored, List.length_append]
    exact Nat.le_add_right_of_le hHigh
  · rw [hStored, List.take_append_of_le_length hHigh]

theorem held_now (h : machine.Reachable s) (hLow : n ≤ s.stored.length) : Held n s s.server.state.config :=
  ⟨s.stored.length, hLow, Nat.le_refl _, by rw [List.take_length, config_eq_last_stored h]⟩

end ProxySystem

/-- How far a handler has got with a request, by a configuration that was held since the `n`-th store. -/
def Handler.Explained (req : Request) (held : RuntimeConfig → Prop) : Handler → Prop
  | .received r => r = req
  | .routed r cfg clusters => r = req ∧ held cfg ∧ cfg.WellFormed ∧ ∃ route,
      cfg.routeFor HTTP_LISTENER_PORT req.matchInput = .ok route ∧ clusters = route.weightedClusters
  | .resolved r i cluster => r = req ∧ ∃ cfg route dst, held cfg ∧
      cfg.routeFor HTTP_LISTENER_PORT req.matchInput = .ok route ∧ route.weightedClusters[i]? = some dst ∧
        cfg.cluster dst.name = some cluster
  | .targeted r target => r = req ∧ ∃ cfg route dst, held cfg ∧
      cfg.routeFor HTTP_LISTENER_PORT req.matchInput = .ok route ∧
        route.weightedClusters[target.clusterIndex]? = some dst ∧
        cfg.cluster dst.name = some target.cluster ∧
        target.cluster.healthyEndpoints[target.endpointIndex]? = some target.endpoint
  | .answered out => ∃ cfg, held cfg ∧ Explains cfg req out

theorem Handler.Explained.mono {req : Request} {held held' : RuntimeConfig → Prop} {handler : Handler}
    (h : handler.Explained req held) (hMono : ∀ cfg, held cfg → held' cfg) : handler.Explained req held' := by
  cases handler with
  | received r => exact h
  | routed r cfg clusters => exact ⟨h.1, hMono cfg h.2.1, h.2.2⟩
  | resolved r i cluster =>
    obtain ⟨hReq, cfg, route, dst, hHeld, hRest⟩ := h
    exact ⟨hReq, cfg, route, dst, hMono cfg hHeld, hRest⟩
  | targeted r target =>
    obtain ⟨hReq, cfg, route, dst, hHeld, hRest⟩ := h
    exact ⟨hReq, cfg, route, dst, hMono cfg hHeld, hRest⟩
  | answered out =>
    obtain ⟨cfg, hHeld, hOut⟩ := h
    exact ⟨cfg, hMono cfg hHeld, hOut⟩

theorem Handler.Explained.step (up : Upstream) {server : ProxyServer} {req : Request}
    {held : RuntimeConfig → Prop} {handler : Handler} (hConfig : server.state.config.WellFormed)
    (hHeld : held server.state.config) (h : handler.Explained req held) :
    (Handler.step up (server, handler)).2.Explained req held := by
  cases handler with
  | received r =>
    obtain rfl : r = req := h
    cases hRoute : server.state.config.routeFor HTTP_LISTENER_PORT r.matchInput with
    | error err =>
      simp only [Handler.step, selectClusters, hRoute]
      exact ⟨server.state.config, hHeld, .unrouted hRoute⟩
    | ok route =>
      simp only [Handler.step, selectClusters, hRoute]
      exact ⟨rfl, hHeld, hConfig, route, hRoute, rfl⟩
  | routed r cfg clusters =>
    obtain ⟨rfl, hCfg, hValid, route, hRoute, rfl⟩ := h
    obtain ⟨i, dst, cluster, hPick, hGet, hCluster⟩ := pickCluster_resolves hValid hRoute server.state
    simp only [Handler.step, hPick, resolveCluster, hCluster]
    exact ⟨rfl, cfg, route, dst, hCfg, hRoute, hGet, hCluster⟩
  | resolved r i cluster =>
    obtain ⟨rfl, cfg, route, dst, hCfg, hRoute, hGet, hCluster⟩ := h
    rcases hPick : server.state.pickEndpoint cluster.name cluster.endpoints with ⟨st, err | ⟨j, endpoint⟩⟩
    · obtain ⟨rfl, hNone⟩ := ProxyState.pickEndpoint_error (congrArg Prod.snd hPick)
      simp only [Handler.step, hPick]
      exact ⟨cfg, hCfg, .unhealthy hRoute (List.mem_of_getElem? hGet) hCluster hNone⟩
    · simp only [Handler.step, hPick]
      exact ⟨rfl, cfg, route, dst, hCfg, hRoute, hGet, hCluster,
        ProxyState.pickEndpoint_get (congrArg Prod.snd hPick)⟩
  | targeted r target =>
    obtain ⟨rfl, cfg, route, dst, hCfg, hRoute, hGet, hCluster, hEndpoint⟩ := h
    exact ⟨cfg, hCfg, .dispatched hRoute hGet hCluster hEndpoint (dispatch_dispatched up server target r)⟩
  | answered out => exact h

namespace ProxySystem

variable {i n m : Nat} {s : ProxySystem}

end ProxySystem

/-- The accesses that a handler still has to make, at most. -/
def Handler.remaining : Handler → Nat
  | .received _ => 4
  | .routed _ _ _ => 3
  | .resolved _ _ _ => 2
  | .targeted _ _ => 1
  | .answered _ => 0

theorem Handler.step_remaining (up : Upstream) (server : ProxyServer) (handler : Handler) :
    (Handler.step up (server, handler)).2.remaining ≤ handler.remaining - 1 := by
  cases handler with
  | received req =>
    simp only [Handler.step]
    split <;> simp [Handler.remaining]
  | routed req cfg clusters =>
    simp only [Handler.step]
    split <;> simp [Handler.remaining]
  | resolved req i cluster =>
    simp only [Handler.step]
    split <;> simp [Handler.remaining]
  | targeted req target => exact Nat.le_refl 0
  | answered out => exact Nat.le_refl 0

theorem ProxySystem.Since.remaining {i n m : Nat} {req : Request} {s : ProxySystem}
    (h : Since i (.forwarding (.received req)) n m s) :
    ∃ handler, s.tasks i = .forwarding handler ∧ handler.remaining ≤ 4 - m := by
  induction h with
  | called _ _ _ =>
    refine ⟨.received req, ?_, Nat.le_refl 4⟩
    rw [setTask_tasks, if_pos rfl]
  | other _ hOther _ _ ih =>
    obtain ⟨handler, hTask, hLeft⟩ := ih
    refine ⟨handler, ?_, hLeft⟩
    rw [setTask_tasks, if_neg (Ne.symm hOther), hTask]
  | @run n m s _ up j ih =>
    obtain ⟨handler, hTask, hLeft⟩ := ih
    by_cases hSelf : j = i
    · refine ⟨(Handler.step up (s.server, handler)).2, ?_, ?_⟩
      · rw [runTask_tasks, if_pos hSelf.symm, hSelf, hTask]
        rfl
      · have hStep := Handler.step_remaining up s.server handler
        rw [if_pos hSelf]
        omega
    · refine ⟨handler, ?_, ?_⟩
      · rw [runTask_tasks, if_neg (Ne.symm hSelf), hTask]
      · rw [if_neg hSelf]
        exact hLeft

end Dxgate
