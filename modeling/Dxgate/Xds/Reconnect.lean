import Dxgate.Xds.Requests
import Mathlib.Data.List.Destutter

/-! # Streams one after another

The stores live and die with a stream; what outlives it is the value in the watch channel. Each stream by
itself yields a sequence of valid assemblies. A run of the client over any number of attempts publishes
the sequence of all of them, without immediate repetitions, and leaves the last one in the channel.
-/

namespace Dxgate

set_option autoImplicit false

section Stream

variable (codec : Proto.Codec) (channels : Channels) (node : Proto.Node)

/-- The valid assemblies of a stream, in order, whatever the watch channel holds meanwhile. -/
def accepted : Stream → List StreamItem → List RuntimeConfig
  | _, [] => []
  | _, .failed _ :: _ => []
  | st, .message resp :: rest =>
    match respond codec channels node st resp with
    | (_, some _) => []
    | (st', none) =>
      (if (st'.ads.runtimeConfig resp.versionInfo).WellFormed then [st'.ads.runtimeConfig resp.versionInfo]
        else []) ++ accepted st' rest

variable {codec channels node}

theorem publish_valid (hOpen : ∀ n, channels.watchOpen n = true) (cs : ClientState) {versionInfo : String}
    (hValid : (cs.stream.ads.runtimeConfig versionInfo).WellFormed) :
    publish channels cs versionInfo =
      (if cs.stream.ads.runtimeConfig versionInfo = cs.watch then cs
        else { cs with
          watch := cs.stream.ads.runtimeConfig versionInfo
          published := cs.published ++ [cs.stream.ads.runtimeConfig versionInfo] }, none) := by
  rw [publish, (RuntimeConfig.validate_ok_iff _).mpr hValid]
  dsimp only
  by_cases hSame : cs.stream.ads.runtimeConfig versionInfo = cs.watch
  · rw [if_neg (not_not.mpr hSame), if_pos hSame]
  · rw [if_pos hSame, if_pos (hOpen _), if_neg hSame]

theorem publish_invalid (channels : Channels) (cs : ClientState) {versionInfo : String}
    (hInvalid : ¬ (cs.stream.ads.runtimeConfig versionInfo).WellFormed) :
    publish channels cs versionInfo = (cs, none) := by
  rw [publish, RuntimeConfig.validate_error_iff.mpr ⟨hInvalid, rfl⟩]

/-- The channel and the publications of a stream, from the valid assemblies alone. -/
theorem tryFold_receive (codec : Proto.Codec) (node : Proto.Node)
    (hOpen : ∀ n, channels.watchOpen n = true) (items : List StreamItem) (cs : ClientState) :
    (Runs.tryFold (receive codec channels node) cs items).1.watch =
        (accepted codec channels node cs.stream items).getLastD cs.watch ∧
      ∃ sent, (Runs.tryFold (receive codec channels node) cs items).1.published = cs.published ++ sent ∧
        cs.watch :: sent = (accepted codec channels node cs.stream items).destutter' (· ≠ ·) cs.watch := by
  induction items generalizing cs with
  | nil => exact ⟨rfl, [], (List.append_nil _).symm, rfl⟩
  | cons item rest ih =>
    cases item with
    | failed status => exact ⟨rfl, [], (List.append_nil _).symm, rfl⟩
    | message resp =>
      rcases hRespond : respond codec channels node cs.stream resp with ⟨stream, _ | err⟩
      · have hReceive : receive codec channels node cs (.message resp) =
            publish channels { cs with stream := stream } resp.versionInfo := by
          rw [receive, handleResponse, hRespond]
        rw [accepted, hRespond]
        dsimp only
        by_cases hValid : (stream.ads.runtimeConfig resp.versionInfo).WellFormed
        · rw [publish_valid hOpen _ hValid] at hReceive
          rw [Runs.tryFold_cons_ok hReceive, if_pos hValid, List.singleton_append, List.getLastD_cons]
          by_cases hSame : stream.ads.runtimeConfig resp.versionInfo = cs.watch
          · rw [if_pos hSame, hSame, List.destutter'_cons_neg _ (not_not.mpr rfl)]
            exact ih { cs with stream := stream }
          · rw [if_neg hSame, List.destutter'_cons_pos _ (Ne.symm hSame)]
            obtain ⟨hWatch, sent, hSent, hChain⟩ := ih { cs with
              stream := stream
              watch := stream.ads.runtimeConfig resp.versionInfo
              published := cs.published ++ [stream.ads.runtimeConfig resp.versionInfo] }
            refine ⟨hWatch, stream.ads.runtimeConfig resp.versionInfo :: sent, ?_, congrArg _ hChain⟩
            rw [hSent, List.append_assoc, List.singleton_append]
        · rw [publish_invalid channels _ hValid] at hReceive
          rw [Runs.tryFold_cons_ok hReceive, if_neg hValid, List.nil_append]
          exact ih { cs with stream := stream }
      · have hReceive : receive codec channels node cs (.message resp) =
            ({ cs with stream := stream }, some err) := by
          rw [receive, handleResponse, hRespond]
        rw [Runs.tryFold_cons_error hReceive, accepted, hRespond]
        exact ⟨rfl, [], (List.append_nil _).symm, rfl⟩

end Stream

/-! ## Any number of attempts -/

section Attempts

variable (codec : Proto.Codec) (cfg : XdsClientConfig)

/-- The valid assemblies of an attempt. -/
def Attempt.accepted (channels : Channels) : Attempt → List RuntimeConfig
  | .opened items =>
    match openStream channels cfg with
    | (_, some _) => []
    | (stream, none) => Dxgate.accepted codec channels cfg.node stream items
  | _ => []

/-- The attempts that are made: an endpoint that is not valid is the last thing tried. -/
def attemptsMade : List (Channels × Attempt) → List (Channels × Attempt)
  | [] => []
  | (channels, .invalidEndpoint source) :: _ => [(channels, .invalidEndpoint source)]
  | attempt :: rest => attempt :: attemptsMade rest

/-- Everything that `run` sends on the watch channel, over all streams. -/
def publications : RuntimeConfig → List (Channels × Attempt) → List RuntimeConfig
  | _, [] => []
  | watch, (channels, attempt) :: rest =>
    match runOnce codec channels cfg watch attempt with
    | (cs, some (.invalidEndpoint _ _)) => cs.published
    | (cs, _) => cs.published ++ publications cs.watch rest

/-- What makes the client give up. -/
def Attempt.fatal : Attempt → Option XdsError
  | .invalidEndpoint source => some (.invalidEndpoint cfg.endpoint source)
  | _ => none

end Attempts

/-! ## What a stream can fail with -/

section Errors

variable {codec : Proto.Codec} {channels : Channels} {node : Proto.Node}

def XdsError.Recoverable : XdsError → Prop
  | .invalidEndpoint _ _ => False
  | _ => True

theorem decodeResource_error {T : Type} {decode : Proto.Bytes → Except Proto.DecodeError T} {typeUrl : String}
    {resource : Proto.Any} {err : XdsError} (h : decodeResource decode typeUrl resource = .error err) :
    err.Recoverable := by
  rw [decodeResource] at h
  cases hDecode : decode resource.value with
  | ok value =>
    rw [hDecode] at h
    cases h
  | error source =>
    rw [hDecode] at h
    cases h
    trivial

theorem decodeHcms_error {configs : List Proto.Any} {err : XdsError}
    (h : decodeHcms codec configs = .error err) : err.Recoverable := by
  induction configs with
  | nil => cases h
  | cons any rest ih =>
    rw [decodeHcms] at h
    cases hFirst : decodeResource codec.httpConnectionManager HCM_TYPE any with
    | error source =>
      rw [hFirst] at h
      cases h
      exact decodeResource_error hFirst
    | ok hcm =>
      rw [hFirst] at h
      cases hRest : decodeHcms codec rest with
      | error source =>
        rw [hRest] at h
        cases h
        exact ih hRest
      | ok hcms =>
        rw [hRest] at h
        cases h

theorem decodeListener_error {resource : Proto.Any} {err : XdsError}
    (h : AdsState.decodeListener codec resource = .error err) : err.Recoverable := by
  rw [AdsState.decodeListener] at h
  cases hListener : decodeResource codec.listener LISTENER_TYPE resource with
  | error source =>
    rw [hListener] at h
    cases h
    exact decodeResource_error hListener
  | ok listener =>
    rw [hListener] at h
    have hSnapshot : listenerSnapshot codec listener = .error err := h
    rw [listenerSnapshot, httpConnectionManagers] at hSnapshot
    cases hManagers : decodeHcms codec (managerConfigs listener) with
    | error source =>
      rw [hManagers] at hSnapshot
      cases hSnapshot
      exact decodeHcms_error hManagers
    | ok hcms =>
      rw [hManagers] at hSnapshot
      cases hSnapshot

theorem applyWith_error {T : Type} {decode : Proto.Any → Except XdsError T} {put : AdsState → T → AdsState}
    {updates : AdsState → DiscoveryUpdates} {s s' : AdsState} {resources : List Proto.Any} {err : XdsError}
    (hDecode : ∀ r err, decode r = .error err → err.Recoverable)
    (h : AdsState.applyWith decode put updates s resources = (s', .error err)) : err.Recoverable := by
  rw [AdsState.applyWith] at h
  split at h
  · rename_i hRun
    cases h
    refine Runs.tryFold_error (fun s r s' err hStore => ?_) hRun
    rw [AdsState.storeResource] at hStore
    split at hStore
    · rename_i hResult
      cases hStore
      exact hDecode r _ hResult
    · cases hStore
  · cases h

theorem applyResponse_error {s s' : AdsState} {resp : Proto.DiscoveryResponse} {err : XdsError}
    (h : s.applyResponse codec resp = (s', .error err)) : err.Recoverable := by
  rw [AdsState.applyResponse] at h
  split at h
  · exact applyWith_error (fun r err => decodeListener_error) h
  split at h
  · exact applyWith_error (fun r err => decodeResource_error) h
  split at h
  · exact applyWith_error (fun r err => decodeResource_error) h
  split at h
  · exact applyWith_error (fun r err => decodeResource_error) h
  · cases h

theorem sendDiscoveryRequest_error {st st' : Stream} {request : Proto.DiscoveryRequest} {err : XdsError}
    (h : sendDiscoveryRequest channels st request = (st', some err)) : err.Recoverable := by
  rw [sendDiscoveryRequest] at h
  split at h <;> cases h
  trivial

theorem follow_error {st st' : Stream} {update : String × List String} {err : XdsError}
    (h : follow channels node st update = (st', some err)) : err.Recoverable := by
  rw [follow] at h
  split at h
  · exact sendDiscoveryRequest_error h
  · cases h

theorem receive_error {cs cs' : ClientState} {item : StreamItem} {err : XdsError}
    (h : receive codec channels node cs item = (cs', some err)) : err.Recoverable := by
  cases item with
  | failed status =>
    cases h
    trivial
  | message resp =>
    rw [receive, handleResponse] at h
    split at h
    · rename_i hRespond
      cases h
      rw [respond] at hRespond
      split at hRespond
      · rename_i hApply
        cases hRespond
        exact applyResponse_error hApply
      · split at hRespond
        · rename_i hAck
          cases hRespond
          exact sendDiscoveryRequest_error hAck
        · exact Runs.tryFold_error (fun _ _ _ _ => follow_error) hRespond
    · rw [publish] at h
      split at h
      · split at h
        · split at h <;> cases h
          trivial
        · cases h
      · cases h

theorem openStream_error {cfg : XdsClientConfig} {stream : Stream} {err : XdsError}
    (h : openStream channels cfg = (stream, some err)) : err.Recoverable :=
  sendDiscoveryRequest_error h

/-- Only an endpoint that is not valid is beyond recovery. -/
theorem runOnce_fatal (codec : Proto.Codec) (channels : Channels) (cfg : XdsClientConfig)
    (watch : RuntimeConfig) (attempt : Attempt) :
    (∃ source, attempt = .invalidEndpoint source ∧ attempt.fatal cfg = some (.invalidEndpoint cfg.endpoint source)) ∨
      attempt.fatal cfg = none ∧
        ∀ err, (runOnce codec channels cfg watch attempt).2 = some err → err.Recoverable := by
  cases attempt with
  | invalidEndpoint source => exact .inl ⟨source, rfl, rfl⟩
  | connectFailed source =>
    refine .inr ⟨rfl, fun err hErr => ?_⟩
    cases hErr
    trivial
  | openFailed status =>
    refine .inr ⟨rfl, fun err hErr => ?_⟩
    rw [runOnce] at hErr
    split at hErr
    · rename_i hOpen
      cases hErr
      exact openStream_error hOpen
    · cases hErr
      trivial
  | opened items =>
    refine .inr ⟨rfl, fun err hErr => ?_⟩
    rw [runOnce] at hErr
    split at hErr
    · rename_i hOpen
      cases hErr
      exact openStream_error hOpen
    · exact Runs.tryFold_error (fun _ _ _ _ => receive_error) (Prod.ext rfl hErr)

end Errors

/-! ## The whole run -/

section Whole

variable (codec : Proto.Codec) (cfg : XdsClientConfig)

theorem runOnce_accepted {channels : Channels} (hOpen : ∀ n, channels.watchOpen n = true)
    (watch : RuntimeConfig) (attempt : Attempt) :
    (runOnce codec channels cfg watch attempt).1.watch =
        (attempt.accepted codec cfg channels).getLastD watch ∧
      watch :: (runOnce codec channels cfg watch attempt).1.published =
        (attempt.accepted codec cfg channels).destutter' (· ≠ ·) watch := by
  cases attempt with
  | invalidEndpoint source => exact ⟨rfl, rfl⟩
  | connectFailed source => exact ⟨rfl, rfl⟩
  | openFailed status =>
    rcases hStream : openStream channels cfg with ⟨stream, _ | err⟩ <;>
      simp only [runOnce, hStream, Attempt.accepted] <;> exact ⟨rfl, rfl⟩
  | opened items =>
    rcases hStream : openStream channels cfg with ⟨stream, _ | err⟩
    · simp only [runOnce, hStream, Attempt.accepted]
      obtain ⟨hWatch, sent, hSent, hChanges⟩ :=
        tryFold_receive codec cfg.node hOpen items ⟨stream, watch, []⟩
      refine ⟨hWatch, ?_⟩
      rw [hSent]
      exact hChanges
    · simp only [runOnce, hStream, Attempt.accepted]
      exact ⟨rfl, rfl⟩

theorem run_cons {channels : Channels} {watch : RuntimeConfig} {attempt : Attempt}
    (rest : List (Channels × Attempt))
    (h : ∀ err, (runOnce codec channels cfg watch attempt).2 = some err → err.Recoverable) :
    run codec cfg watch ((channels, attempt) :: rest) =
        run codec cfg (runOnce codec channels cfg watch attempt).1.watch rest ∧
      publications codec cfg watch ((channels, attempt) :: rest) =
        (runOnce codec channels cfg watch attempt).1.published ++
          publications codec cfg (runOnce codec channels cfg watch attempt).1.watch rest := by
  rcases hOut : runOnce codec channels cfg watch attempt with ⟨cs, _ | err⟩
  · simp only [run, publications, hOut, and_self]
  · have hRecoverable := h err (by rw [hOut])
    cases err with
    | invalidEndpoint endpoint source => exact hRecoverable.elim
    | _ => simp only [run, publications, hOut, and_self]

end Whole

/-- However many streams are opened and however they end: the client publishes the valid assemblies of all
of them in order, without immediate repetitions, and leaves the last one (or the value it found) in the
watch channel. It gives up at the first attempt with an endpoint that is not valid, and only there. -/
theorem run_publishes (codec : Proto.Codec) (cfg : XdsClientConfig) (watch : RuntimeConfig)
    (attempts : List (Channels × Attempt)) (hOpen : ∀ a ∈ attempts, ∀ n, a.1.watchOpen n = true) :
    (run codec cfg watch attempts).1 =
      ((attemptsMade attempts).flatMap fun a => a.2.accepted codec cfg a.1).getLastD watch ∧
    watch :: publications codec cfg watch attempts =
      ((attemptsMade attempts).flatMap fun a => a.2.accepted codec cfg a.1).destutter' (· ≠ ·) watch ∧
    (run codec cfg watch attempts).2 = attempts.findSome? fun a => a.2.fatal cfg := by
  induction attempts generalizing watch with
  | nil => exact ⟨rfl, rfl, rfl⟩
  | cons head rest ih =>
    obtain ⟨channels, attempt⟩ := head
    have hHead := hOpen (channels, attempt) List.mem_cons_self
    have hRest : ∀ a ∈ rest, ∀ n, a.1.watchOpen n = true := fun a ha => hOpen a (List.mem_cons_of_mem _ ha)
    rcases runOnce_fatal codec channels cfg watch attempt with ⟨source, rfl, hFatal⟩ | ⟨hNot, hRecoverable⟩
    · rw [List.findSome?_cons, hFatal]
      exact ⟨rfl, rfl, rfl⟩
    · have hMade : attemptsMade ((channels, attempt) :: rest) = (channels, attempt) :: attemptsMade rest := by
        cases attempt with
        | invalidEndpoint source => cases hNot
        | _ => rfl
      obtain ⟨hRun, hPublications⟩ := run_cons codec cfg rest hRecoverable
      obtain ⟨hWatch, hChanges⟩ := runOnce_accepted codec cfg hHead watch attempt
      obtain ⟨hLast, hLater, hGivesUp⟩ := ih (runOnce codec channels cfg watch attempt).1.watch hRest
      rw [hMade, List.flatMap_cons, hRun, hPublications, List.findSome?_cons, hNot]
      rw [hWatch] at hLast hLater hGivesUp ⊢
      refine ⟨?_, Runs.destutter'_concat hChanges hLater, hGivesUp⟩
      rw [hLast]
      simp only [List.getLastD_eq_getLast?, List.getLast?_append, Option.getD_or]

/-- A listener, a failed stream, a refused connection, the same listener again, a bad endpoint. -/
def flakyAttempts : List (Channels × Attempt) :=
  [.opened [.message rdsListenerResponse, .failed "unavailable"], .connectFailed "refused",
    .opened [.message rdsListenerResponse], .invalidEndpoint "empty host", .opened []].map (.alwaysOpen, ·)

theorem flakyAttempts_published :
    (run rdsListenerCodec sampleClient (.empty "bootstrap") flakyAttempts).2 =
      some (.invalidEndpoint sampleClient.endpoint "empty host") ∧
    (publications rdsListenerCodec sampleClient (.empty "bootstrap") flakyAttempts).length = 1 := by
  obtain ⟨_, hPublications, hGivesUp⟩ := run_publishes rdsListenerCodec sampleClient (.empty "bootstrap")
    flakyAttempts (fun a ha n => by obtain ⟨_, _, rfl⟩ := List.mem_map.mp ha; rfl)
  refine ⟨hGivesUp, ?_⟩
  have hLength := congrArg List.length hPublications
  rw [List.length_cons, show (List.destutter' (· ≠ ·) (RuntimeConfig.empty "bootstrap")
    ((attemptsMade flakyAttempts).flatMap fun a =>
      a.2.accepted rdsListenerCodec sampleClient a.1)).length = 2 by decide +kernel] at hLength
  omega

end Dxgate
