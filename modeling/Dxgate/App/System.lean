import Dxgate.Proxy.Machine
import Dxgate.Xds.Client

/-! # The whole program

`main` applies the static configuration, the discovery client validates and sends, the watcher task
applies what it is woken for, and other tasks read the readiness or handle requests. They share the
proxy state and the watch channel; the steps of all of them interleave freely.
-/

namespace Dxgate

set_option autoImplicit false

/-- The watch channel: the value, how often one was sent, whether the sender is gone. -/
structure Watch where
  value : RuntimeConfig
  version : Nat
  closed : Bool

def Watch.send (watch : Watch) (cfg : RuntimeConfig) : Watch :=
  { watch with value := cfg, version := watch.version + 1 }

inductive MainTask where
  | loading
  | applying (cfg : RuntimeConfig)
  | sending (cfg : RuntimeConfig)
  | serving

inductive ClientTask where
  | notStarted
  | disconnected
  | streaming (stream : Stream)
  | validated (stream : Stream) (cfg : RuntimeConfig)
  | sending (stream : Stream) (cfg : RuntimeConfig)
  | exited

inductive WatcherTask where
  | waiting
  | woken
  | applying
  | exited

structure System where
  proxy : ProxySystem
  watch : Watch
  main : MainTask
  client : ClientTask
  watcher : WatcherTask
  /-- The version of the channel that the watcher has seen. -/
  seen : Nat

def MAIN_TASK : Nat := 0

def WATCHER_TASK : Nat := 1

/-! ## The client between its accesses to the channel -/

section Client

variable (codec : Proto.Codec) (channels : Channels) (node : Proto.Node)

def ClientTask.received (stream : Stream) (resp : Proto.DiscoveryResponse) : ClientTask :=
  match respond codec channels node stream resp with
  | (_, some _) => .disconnected
  | (stream, none) =>
    match (stream.ads.runtimeConfig resp.versionInfo).validate with
    | .ok () => .validated stream (stream.ads.runtimeConfig resp.versionInfo)
    | .error _ => .streaming stream

def ClientTask.compared (stream : Stream) (cfg watched : RuntimeConfig) : ClientTask :=
  if cfg ≠ watched then .sending stream cfg else .streaming stream

/-- The task and the watched value when the client is not interrupted between two responses. -/
def ClientTask.uninterrupted (watched : RuntimeConfig) : ClientTask → ClientTask × RuntimeConfig
  | .validated stream cfg =>
    match ClientTask.compared stream cfg watched with
    | .sending stream cfg => (.streaming stream, cfg)
    | task => (task, watched)
  | task => (task, watched)

/-- Without other steps in between, the client does what `handleResponse` does. -/
theorem ClientTask.received_handleResponse (hOpen : ∀ n, channels.watchOpen n = true) (cs : ClientState)
    (resp : Proto.DiscoveryResponse) :
    (ClientTask.received codec channels node cs.stream resp).uninterrupted cs.watch =
      match handleResponse codec channels node cs resp with
      | (cs', none) => (.streaming cs'.stream, cs'.watch)
      | (cs', some _) => (.disconnected, cs'.watch) := by
  rcases hRespond : respond codec channels node cs.stream resp with ⟨stream, _ | err⟩
  · simp only [ClientTask.received, handleResponse, hRespond, publish, hOpen, if_true]
    cases (stream.ads.runtimeConfig resp.versionInfo).validate with
    | error conflicts => rfl
    | ok _ =>
      by_cases hSame : stream.ads.runtimeConfig resp.versionInfo = cs.watch
      · simp [ClientTask.uninterrupted, ClientTask.compared, hSame]
      · simp [ClientTask.uninterrupted, ClientTask.compared, hSame]
  · simp only [ClientTask.received, handleResponse, hRespond]
    rfl

end Client

namespace System

/-- As `main` creates the channel and the tasks. -/
def Initial (s : System) : Prop :=
  s.proxy.Initial ∧ s.watch = ⟨.empty "bootstrap", 0, false⟩ ∧ s.main = .loading ∧
    s.client = .notStarted ∧ s.watcher = .waiting ∧ s.seen = 0

variable (codec : Proto.Codec) (cfg : XdsClientConfig)

inductive Step : System → System → Prop where
  /-- No static configuration is given, or it cannot be loaded. -/
  | mainSkip {s : System} (hMain : s.main = .loading) :
      Step s { s with main := .serving, client := .disconnected }
  | mainApply {s : System} (static : RuntimeConfig) (hMain : s.main = .loading)
      (hResting : (s.proxy.tasks MAIN_TASK).Resting) :
      Step s { s with
        main := .applying static
        proxy := s.proxy.setTask MAIN_TASK (.applying (.call static)) }
  | mainAccepted {s : System} {static : RuntimeConfig} (hMain : s.main = .applying static)
      (hTask : s.proxy.tasks MAIN_TASK = .applying (.returned (.ok ()))) :
      Step s { s with main := .sending static }
  | mainRejected {s : System} {static : RuntimeConfig} {conflicts : List ConfigConflict}
      (hMain : s.main = .applying static)
      (hTask : s.proxy.tasks MAIN_TASK = .applying (.returned (.error conflicts))) :
      Step s { s with main := .serving, client := .disconnected }
  | mainSend {s : System} {static : RuntimeConfig} (hMain : s.main = .sending static)
      (hReceiver : s.watcher ≠ .exited) :
      Step s { s with main := .serving, client := .disconnected, watch := s.watch.send static }
  | mainSendFailed {s : System} {static : RuntimeConfig} (hMain : s.main = .sending static)
      (hReceiver : s.watcher = .exited) :
      Step s { s with main := .serving, client := .disconnected }
  | clientOpen {s : System} {channels : Channels} {stream : Stream} (hClient : s.client = .disconnected)
      (hOpen : openStream channels cfg = (stream, none)) : Step s { s with client := .streaming stream }
  | clientReceive {s : System} {stream : Stream} (channels : Channels) (resp : Proto.DiscoveryResponse)
      (hClient : s.client = .streaming stream) :
      Step s { s with client := .received codec channels cfg.node stream resp }
  | clientCompare {s : System} {stream : Stream} {pending : RuntimeConfig}
      (hClient : s.client = .validated stream pending) :
      Step s { s with client := .compared stream pending s.watch.value }
  | clientSend {s : System} {stream : Stream} {pending : RuntimeConfig}
      (hClient : s.client = .sending stream pending) (hReceiver : s.watcher ≠ .exited) :
      Step s { s with client := .streaming stream, watch := s.watch.send pending }
  | clientSendFailed {s : System} {stream : Stream} {pending : RuntimeConfig}
      (hClient : s.client = .sending stream pending) (hReceiver : s.watcher = .exited) :
      Step s { s with client := .disconnected }
  /-- The stream ends or fails. -/
  | clientLost {s : System} {stream : Stream} (hClient : s.client = .streaming stream) :
      Step s { s with client := .disconnected }
  /-- The endpoint is not valid: the client returns and drops the sender. -/
  | clientExit {s : System} (hClient : s.client = .disconnected) :
      Step s { s with client := .exited, watch := { s.watch with closed := true } }
  | watcherChanged {s : System} (hWatcher : s.watcher = .waiting) (hNew : s.seen ≠ s.watch.version) :
      Step s { s with watcher := .woken, seen := s.watch.version }
  | watcherClosed {s : System} (hWatcher : s.watcher = .waiting) (hSeen : s.seen = s.watch.version)
      (hClosed : s.watch.closed) : Step s { s with watcher := .exited }
  | watcherApply {s : System} (hWatcher : s.watcher = .woken)
      (hResting : (s.proxy.tasks WATCHER_TASK).Resting) :
      Step s { s with
        watcher := .applying
        proxy := s.proxy.setTask WATCHER_TASK (.applying (.call s.watch.value)) }
  | watcherReturned {s : System} {result : Except (List ConfigConflict) Unit}
      (hWatcher : s.watcher = .applying)
      (hTask : s.proxy.tasks WATCHER_TASK = .applying (.returned result)) :
      Step s { s with watcher := .waiting }
  | read {s : System} (i : Nat) (hOther : WATCHER_TASK < i) (hResting : (s.proxy.tasks i).Resting) :
      Step s { s with proxy := s.proxy.setTask i (.reading .loadReady) }
  | forward {s : System} (i : Nat) (req : Request) (hOther : WATCHER_TASK < i)
      (hResting : (s.proxy.tasks i).Resting) :
      Step s { s with proxy := s.proxy.setTask i (.forwarding (.received req)) }
  | run {s : System} (up : Upstream) (i : Nat) : Step s { s with proxy := s.proxy.runTask up i }

def machine : Runs.Machine System := ⟨Initial, Step codec cfg⟩

variable {codec cfg}

/-- Every step of the program is a step of the proxy or leaves the proxy alone. -/
theorem Step.proxy {s t : System} (h : Step codec cfg s t) :
    ProxySystem.Step s.proxy t.proxy ∨ t.proxy = s.proxy := by
  cases h with
  | mainApply static _ hResting => exact Or.inl (.call _ hResting (.apply static))
  | watcherApply _ hResting => exact Or.inl (.call _ hResting (.apply _))
  | read i _ hResting => exact Or.inl (.call i hResting .read)
  | forward i req _ hResting => exact Or.inl (.call i hResting (.forward req))
  | run up i => exact Or.inl (.run up i)
  | _ => exact Or.inr rfl

theorem Step.serving {s t : System} (h : Step codec cfg s t) (hMain : s.main = .serving) : t.main = .serving := by
  cases h with
  | mainApply _ hLoading _ =>
    rw [hLoading] at hMain
    cases hMain
  | mainAccepted hApplying _ =>
    rw [hApplying] at hMain
    cases hMain
  | mainSkip _ => rfl
  | mainRejected _ _ => rfl
  | mainSend _ _ => rfl
  | mainSendFailed _ _ => rfl
  | _ => exact hMain

theorem Step.stored_le {s t : System} (h : Step codec cfg s t) :
    s.proxy.stored.length ≤ t.proxy.stored.length := by
  cases h with
  | run up i =>
    dsimp only [ProxySystem.runTask]
    rw [List.length_append]
    exact Nat.le_add_right _ _
  | _ => exact le_rfl

theorem proxy_reachable {s : System} (h : (machine codec cfg).Reachable s) :
    ProxySystem.machine.Reachable s.proxy :=
  h.map (N := ProxySystem.machine) System.proxy (fun _ (hInit : Initial _) => hInit.1)
    fun _ _ hStep => Step.proxy hStep

end System

end Dxgate
