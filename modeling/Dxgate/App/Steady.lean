import Dxgate.App.EndToEnd
import Dxgate.App.Observed

/-! # The steady state

A settled program that is in sync with its control plane, and a control plane that goes on sending what its
database has, in any order and as often as it likes. The assembled configurations may still differ from one
another, in clusters that no route names and in versions, and the watcher may be anywhere between two of
them. No request notices: whatever the interleaving, all that come in are answered as the database calls
for.
-/

namespace Dxgate

set_option autoImplicit false

open Collections

/-! ## A property of all that is accepted -/

theorem Task.step_stores (up : Upstream) (server : ProxyServer) (task : Task) :
    (Task.step up (server, task)).2.stores = [] := by
  cases task with
  | applying task => cases task <;> rfl
  | _ => rfl

theorem Task.Resting.stores {task : Task} (h : task.Resting) : task.stores = [] := by
  cases h with
  | _ => rfl

theorem ApplyTask.call_stores {cfg stored : RuntimeConfig}
    (h : stored ∈ (Task.applying (ApplyTask.call cfg)).stores) : stored = cfg := by
  rw [ApplyTask.call] at h
  split at h
  · exact List.mem_singleton.mp h
  · cases h

theorem ProxySystem.held_of_append {n : Nat} {s t : ProxySystem} {cfg : RuntimeConfig}
    {more : List RuntimeConfig} (hStored : t.stored = s.stored ++ more) (h : Held n t cfg) :
    Held n s cfg ∨ cfg ∈ more := by
  obtain ⟨k, hn, hk, rfl⟩ := h
  rw [hStored] at hk ⊢
  by_cases hOld : k ≤ s.stored.length
  · rw [List.take_append_of_le_length hOld]
    exact .inl ⟨k, hn, hOld, rfl⟩
  · right
    obtain ⟨j, rfl⟩ : ∃ j, k = s.stored.length + (j + 1) := ⟨k - s.stored.length - 1, by omega⟩
    have hNonempty : more.take (j + 1) ≠ [] := by
      intro hNil
      rcases List.take_eq_nil_iff.mp hNil with hZero | hMore
      · omega
      · rw [hMore, List.append_nil] at hk
        omega
    rw [List.take_length_add_append, List.getLast?_append, List.getLast?_eq_some_getLast hNonempty]
    exact List.mem_of_mem_take (List.getLast_mem hNonempty)

theorem ClientTask.accepted_compared {stream : Stream} {pending watched accepted : RuntimeConfig}
    (h : (ClientTask.compared stream pending watched).accepted = some accepted) : accepted = pending := by
  rw [ClientTask.compared] at h
  split at h
  · exact (Option.some.inj h).symm
  · cases h

theorem ClientTask.accepted_received {codec : Proto.Codec} {channels : Channels} {node : Proto.Node}
    {st st' : Stream} {resp : Proto.DiscoveryResponse} {accepted : RuntimeConfig}
    (hRespond : respond codec channels node st resp = (st', none))
    (h : (ClientTask.received codec channels node st resp).accepted = some accepted) :
    accepted = st'.ads.runtimeConfig resp.versionInfo := by
  rw [ClientTask.received, hRespond] at h
  dsimp only at h
  split at h
  · exact (Option.some.inj h).symm
  · cases h

namespace System

theorem mem_acceptedBy {s t : System} {accepted : RuntimeConfig} (h : accepted ∈ acceptedBy s t) :
    t.inFlight = some accepted := by
  rw [acceptedBy] at h
  split at h
  · exact Option.mem_toList.mp h
  · cases h

/-- All that is on its way to the proxy, and all that it has held since the `n`-th store, has the property. -/
structure Confined (P : RuntimeConfig → Prop) (n : Nat) (s : System) : Prop where
  main : s.main = .serving
  watch : P s.watch.value
  pending : ∀ accepted, s.client.accepted = some accepted → P accepted
  tasks : ∀ i, ∀ stored ∈ (s.proxy.tasks i).stores, P stored
  held : ∀ cfg, ProxySystem.Held n s.proxy cfg → P cfg

variable {codec : Proto.Codec} {cfg : XdsClientConfig} {P : RuntimeConfig → Prop} {n : Nat} {s t : System}

theorem Confined.of_proxy (h : s.Confined P n) (hProxy : t.proxy = s.proxy) (hMain : t.main = .serving)
    (hWatch : P t.watch.value) (hPending : ∀ accepted, t.client.accepted = some accepted → P accepted) :
    t.Confined P n where
  main := hMain
  watch := hWatch
  pending := hPending
  tasks := by
    rw [hProxy]
    exact h.tasks
  held := by
    rw [hProxy]
    exact h.held

theorem Confined.mono (h : s.Confined P n) {Q : RuntimeConfig → Prop} (hMono : ∀ cfg, P cfg → Q cfg) :
    s.Confined Q n where
  main := h.main
  watch := hMono _ h.watch
  pending accepted hPending := hMono accepted (h.pending accepted hPending)
  tasks i stored hStored := hMono stored (h.tasks i stored hStored)
  held cfg hHeld := hMono cfg (h.held cfg hHeld)

theorem Confined.setTask (h : s.Confined P n) (i : Nat) {task : Task} (hTask : ∀ stored ∈ task.stores, P stored)
    (watcher : WatcherTask) :
    ({ s with watcher := watcher, proxy := s.proxy.setTask i task } : System).Confined P n where
  main := h.main
  watch := h.watch
  pending := h.pending
  tasks j := by
    rw [ProxySystem.setTask_tasks]
    split
    · exact hTask
    · exact h.tasks j
  held := h.held

theorem Confined.run (h : s.Confined P n) (up : Upstream) (i : Nat) :
    ({ s with proxy := s.proxy.runTask up i } : System).Confined P n where
  main := h.main
  watch := h.watch
  pending := h.pending
  tasks j := by
    rw [ProxySystem.runTask_tasks]
    split
    · rw [Task.step_stores]
      simp
    · exact h.tasks j
  held cfg hHeld := by
    rcases ProxySystem.held_of_append rfl hHeld with hOld | hNew
    · exact h.held cfg hOld
    · exact h.tasks i cfg hNew

/-- The rule for phases: if all that is accepted has the property, all that the proxy holds has it. -/
theorem Confined.step (h : s.Confined P n) (hStep : Step codec cfg s t)
    (hAccepted : ∀ accepted ∈ acceptedBy s t, P accepted) : t.Confined P n := by
  have hNot {task : MainTask} (hMain : s.main = task) (hOther : task ≠ .serving) : False :=
    hOther (hMain.symm.trans h.main)
  cases hStep with
  | mainSkip hMain => exact (hNot hMain (by simp)).elim
  | mainApply _ hMain _ => exact (hNot hMain (by simp)).elim
  | mainAccepted hMain _ => exact (hNot hMain (by simp)).elim
  | mainRejected hMain _ => exact (hNot hMain (by simp)).elim
  | mainSend hMain _ => exact (hNot hMain (by simp)).elim
  | mainSendFailed hMain _ => exact (hNot hMain (by simp)).elim
  | clientOpen _ _ => exact h.of_proxy rfl h.main h.watch (by simp [ClientTask.accepted])
  | clientReceive channels resp hClient =>
    refine h.of_proxy rfl h.main h.watch ?_
    intro accepted hPending
    have hNone : s.inFlight = none := by
      rw [inFlight, hClient, h.main]
      rfl
    apply hAccepted
    rw [acceptedBy, if_pos hNone, inFlight, hPending]
    exact List.mem_singleton_self accepted
  | @clientCompare stream pending hClient =>
    refine h.of_proxy rfl h.main h.watch ?_
    intro accepted hPending
    apply h.pending
    rw [hClient, ClientTask.accepted_compared hPending]
    rfl
  | clientSend hClient _ =>
    refine h.of_proxy rfl h.main ?_ (by simp [ClientTask.accepted])
    apply h.pending
    rw [hClient]
    rfl
  | clientSendFailed _ _ => exact h.of_proxy rfl h.main h.watch (by simp [ClientTask.accepted])
  | clientLost _ => exact h.of_proxy rfl h.main h.watch (by simp [ClientTask.accepted])
  | clientExit _ => exact h.of_proxy rfl h.main h.watch (by simp [ClientTask.accepted])
  | watcherChanged _ _ => exact h.of_proxy rfl h.main h.watch h.pending
  | watcherClosed _ _ _ => exact h.of_proxy rfl h.main h.watch h.pending
  | watcherApply _ _ =>
    refine h.setTask WATCHER_TASK ?_ .applying
    intro stored hStored
    rw [ApplyTask.call_stores hStored]
    exact h.watch
  | watcherReturned _ _ => exact h.of_proxy rfl h.main h.watch h.pending
  | read i _ _ => exact h.setTask i (by simp [Task.stores]) s.watcher
  | forward i req _ _ => exact h.setTask i (by simp [Task.stores]) s.watcher
  | run up i => exact h.run up i

theorem Inv.no_stores (hInv : s.Inv) (hMain : s.main = .serving) (hWatcher : s.watcher ≠ .applying) (i : Nat) :
    (s.proxy.tasks i).stores = [] := by
  rcases task_cases i with rfl | rfl | hOther
  · exact (hInv.serving hMain).stores
  · exact (hInv.watcher hWatcher).stores
  · cases hTask : s.proxy.tasks i with
    | applying task => exact absurd hTask (hInv.others i hOther task)
    | _ => rfl

theorem Settled.confined (hSettled : s.Settled) (h : (machine codec cfg).Reachable s)
    (hConfig : P s.proxy.server.state.config) : s.Confined P s.proxy.stored.length := by
  have hInv := inv_of_reachable h
  obtain ⟨log, hLog⟩ := exists_accepts h
  have hWatch : s.watch.value = s.proxy.server.state.config := by
    rw [hSettled.config_eq hLog, hLog.upToDate.arrived hSettled.inFlight_eq]
  refine ⟨hSettled.main, ?_, ?_, ?_, ?_⟩
  · rw [hWatch]
    exact hConfig
  · intro accepted hPending
    rw [hSettled.client] at hPending
    cases hPending
  · intro i stored hStored
    rw [hInv.no_stores hSettled.main hSettled.watcher_ne.2] at hStored
    cases hStored
  · rintro _ ⟨k, hLow, hHigh, rfl⟩
    rw [Nat.le_antisymm hHigh hLow, List.take_length,
      ← ProxySystem.config_eq_last_stored (proxy_reachable h)]
    exact hConfig

end System

/-! ## The database sent over and over -/

section Steady

variable (codec : Proto.Codec) (enc : Encoder) (db : Database) (cfg : XdsClientConfig)

/-- A step in which the stream gets nothing but what the database has. It may be lost, but no other one is
opened. -/
inductive System.Steady : System → System → Prop where
  | fed {s : System} {stream : Stream} (channels : Channels) (resp : Proto.DiscoveryResponse)
      (hClient : s.client = .streaming stream) (hCurrent : db.Current enc stream.ads resp) :
      Steady s { s with client := .received codec channels cfg.node stream resp }
  | other {s t : System} (hStep : Step codec cfg s t)
      (hClient : t.client.stream? = s.client.stream? ∨ t.client.stream? = none) : Steady s t

variable {codec enc db cfg} {before after : List Proto.DiscoveryResponse} {n : Nat} {s t : System}

/-- What holds of the client throughout the phase. -/
structure System.InTouch (codec : Proto.Codec) (enc : Encoder) (db : Database) (cfg : XdsClientConfig)
    (before after : List Proto.DiscoveryResponse) (s : System) : Prop where
  main : s.main = .serving
  stream : ∀ stream, s.client.stream? = some stream →
    ∃ more, Resent codec enc db cfg before (after ++ more) stream

theorem System.Steady.step (hStep : Steady codec enc db cfg s t) : Step codec cfg s t := by
  cases hStep with
  | fed channels resp hClient _ => exact .clientReceive channels resp hClient
  | other hStep _ => exact hStep

/-- A steady step keeps in touch, and what it accepts is what the database means. -/
theorem System.InTouch.step (hDecodes : db.Decodes codec enc) (hRds : db.RdsOnly codec)
    (hAsked : ListenersAskedFor codec cfg before) (hOrder : chain.Sublist (after.map (·.typeUrl)))
    (h : s.InTouch codec enc db cfg before after) (hStep : Steady codec enc db cfg s t) :
    t.InTouch codec enc db cfg before after ∧ ∀ accepted ∈ acceptedBy s t,
      accepted.Alike (db.closure codec (sortedUnique cfg.listenerNames) "") := by
  cases hStep with
  | @fed stream channels resp hClient hCurrent =>
    have hStreaming : s.client.stream? = some stream := by
      rw [hClient]
      rfl
    obtain ⟨more, hResent⟩ := h.stream stream hStreaming
    rcases hRespond : respond codec channels cfg.node stream resp with ⟨stream', _ | err⟩
    · have hAgain := hResent.resend hCurrent hRespond
      rw [List.append_assoc] at hAgain
      refine ⟨⟨h.main, ?_⟩, ?_⟩
      · intro other hOther
        rw [ClientTask.stream?_received hRespond] at hOther
        cases hOther
        exact ⟨more ++ [resp], hAgain⟩
      · intro accepted hMem
        have hPending := System.mem_acceptedBy hMem
        have hNone : s.main.accepted = none := by
          rw [h.main]
          rfl
        rw [System.inFlight, hNone, Option.or_none] at hPending
        have hStill : chain.Sublist ((after ++ (more ++ [resp])).map (·.typeUrl)) := by
          rw [List.map_append]
          exact hOrder.trans (List.sublist_append_left _ _)
        have hSync := hAgain.inSync hDecodes hRds hAsked hStill
        rw [ClientTask.accepted_received hRespond hPending]
        exact hSync.alike (sortedUnique_sorted _) hRds hAgain.received.regular.clusters _ _
    · refine ⟨⟨h.main, ?_⟩, ?_⟩
      · intro other hOther
        rw [ClientTask.received_error hRespond] at hOther
        cases hOther
      · rw [ClientTask.received_error hRespond, System.acceptedBy_of_none]
        · simp
        · rw [System.inFlight, h.main]
          rfl
  | other hStep hClient =>
    have hMain := hStep.serving h.main
    refine ⟨⟨hMain, ?_⟩, ?_⟩
    · intro stream hStream
      rcases hClient with hSame | hNone
      · rw [hSame] at hStream
        exact h.stream stream hStream
      · rw [hNone] at hStream
        cases hStream
    · rw [System.Silent.acceptedBy_eq ⟨.inl (hMain.trans h.main.symm), hClient⟩ hStep]
      simp

end Steady

end Dxgate
