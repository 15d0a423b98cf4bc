import Dxgate.App.Settling
import Dxgate.Proxy.Snapshot
import Dxgate.Xds.Recovery
import Dxgate.Xds.RouteMeaning

/-! # From the database to the answer

The two ends of the program: what the control plane has in its database, read as the resources stand there,
and what a request is answered. In between lie the decoding, the stores, the assembly, the watch channel
and the proxy state; once the program has settled, none of them shows.
-/

namespace Dxgate

set_option autoImplicit false

open Collections

namespace Database

variable (codec : Proto.Codec) (db : Database)

/-- The virtual hosts behind a listener, as the control plane has them. -/
def hosts (snapshot : ListenerSnapshot) : List Proto.VirtualHost :=
  snapshot.routeNames.flatMap fun name => ((db.routes.get name).map (·.virtualHosts)).getD []

/-- Where the database sends a request: by the first listener of the port in the order of the names, and
among its hosts by the first route that matches and names a cluster. -/
def destinations (names : List String) (port : UInt16) (input : MatchInput) : Option (List WeightedCluster) :=
  ((names.filterMap (db.snapshot codec)).find? (·.listener.bind.port = port)).bind fun snapshot =>
    Proto.forwardingOutcome (db.hosts snapshot) input

def cluster (name : String) : Option Cluster := (db.clusterSnapshot codec name).map db.closureCluster

def PlainRoutes : Prop := ∀ name r, db.routes.get name = some r → Proto.Plain r.virtualHosts

variable {codec db} {names : List String}

/-! ## Routing -/

theorem PlainRoutes.hosts (h : db.PlainRoutes) (snapshot : ListenerSnapshot) :
    Proto.Plain (db.hosts snapshot) := by
  intro vh hVh
  obtain ⟨name, _, hMem⟩ := List.mem_flatMap.mp hVh
  cases hGet : db.routes.get name with
  | none =>
    rw [hGet] at hMem
    cases hMem
  | some r =>
    rw [hGet] at hMem
    exact h name r hGet vh hMem

section Answering

variable {cfg : RuntimeConfig} {version : String} {req : Request}

end Answering

end Database

theorem Handler.Explained.iterate (up : Upstream) {cfg : RuntimeConfig} {req : Request}
    (hValid : cfg.WellFormed) (n : Nat) {server : ProxyServer} {handler : Handler}
    (hConfig : server.state.config = cfg) (h : handler.Explained req (· = cfg)) :
    ((Handler.step up)^[n] (server, handler)).2.Explained req (· = cfg) := by
  induction n generalizing server handler with
  | zero => exact h
  | succ n ih =>
    rw [Function.iterate_succ_apply]
    obtain ⟨counter, hState⟩ := Handler.step_state up server handler
    have hNext := h.step up (hConfig ▸ hValid) hConfig
    have hSame : (Handler.step up (server, handler)).1.state.config = cfg := by
      rw [hState]
      exact hConfig
    generalize Handler.step up (server, handler) = next at hNext hSame ⊢
    exact ih hSame hNext

/-- With the database sent in the order of the chain, what has been accepted last has its routes and the
clusters that they name. -/
theorem System.Accepts.alike {codec : Proto.Codec} {enc : Encoder} {db : Database} {cfg : XdsClientConfig}
    {before after : List Proto.DiscoveryResponse} {log : List RuntimeConfig} {s : System}
    (h : Accepts codec cfg log s) {stream : Stream} (hClient : s.client = .streaming stream)
    (hDecodes : db.Decodes codec enc) (hRds : db.RdsOnly codec)
    (hComplete : db.Complete codec (sortedUnique cfg.listenerNames)) (hAsked : ListenersAskedFor codec cfg before)
    (hOrder : chain.Sublist (after.map (·.typeUrl))) (hResent : Resent codec enc db cfg before after stream)
    (version : String) : (log.getLast?.getD (.empty "bootstrap")).Alike
      (db.closure codec (sortedUnique cfg.listenerNames) version) := by
  have hSync := hResent.inSync hDecodes hRds hAsked hOrder
  have hSorted := sortedUnique_sorted cfg.listenerNames
  have hReceived := hResent.received
  have hRegular := hReceived.regular
  obtain ⟨responses, hOwn, hLast⟩ := h.last_assembled hClient
  have hNonempty : responses ≠ [] := by
    intro hNil
    have hOne := hOwn.requests_length.2 hNil
    have hMore := hReceived.requests_length.1
    have hLength := hOrder.length_le
    rw [List.length_map] at hLength
    rw [List.length_append] at hMore
    change 4 ≤ after.length at hLength
    omega
  rw [hLast _ (List.getLast?_eq_some_getLast hNonempty) (hSync.wellFormed hSorted hRds hRegular hComplete _)]
  exact hSync.alike hSorted hRds hRegular.clusters _ _

theorem System.Settled.alike {codec : Proto.Codec} {enc : Encoder} {db : Database} {cfg : XdsClientConfig}
    {before after : List Proto.DiscoveryResponse} {s : System} (hSettled : s.Settled)
    (h : (machine codec cfg).Reachable s) {stream : Stream} (hClient : s.client = .streaming stream)
    (hDecodes : db.Decodes codec enc) (hRds : db.RdsOnly codec)
    (hComplete : db.Complete codec (sortedUnique cfg.listenerNames)) (hAsked : ListenersAskedFor codec cfg before)
    (hOrder : chain.Sublist (after.map (·.typeUrl))) (hResent : Resent codec enc db cfg before after stream)
    (version : String) :
    s.proxy.server.state.config.Alike (db.closure codec (sortedUnique cfg.listenerNames) version) := by
  obtain ⟨log, hLog⟩ := exists_accepts h
  rw [hSettled.config_eq hLog]
  exact hLog.alike hClient hDecodes hRds hComplete hAsked hOrder hResent version

end Dxgate
