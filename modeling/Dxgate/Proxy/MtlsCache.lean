import Dxgate.Proxy.Mtls
import Mathlib.Data.List.Induction

/-! # The cache of mutual TLS clients

A client is kept under a text joined from the settings it was asked for and handed out to every later
request of the same text. The history of calls decides who built the client a call receives.
-/

namespace Dxgate

set_option autoImplicit false

open Collections

/-- What a client is built with: the server name, when there is one, and the two providers. -/
structure TlsIdentity where
  serverName : Option String
  certProvider : String
  rootProvider : String
  deriving DecidableEq

def UpstreamTls.identity (tls : UpstreamTls) : TlsIdentity where
  serverName := tls.sni.filter (· ≠ "")
  certProvider := tls.certProvider
  rootProvider := tls.rootProvider

/-- One request for a client, with the files as they are at that time. -/
structure MtlsCall where
  oracle : TlsOracle
  tls : UpstreamTls

def MtlsCall.key (call : MtlsCall) : String := mtlsCacheKey call.tls

namespace MtlsClientPool

def fromBootstrap (bootstrap : GrpcBootstrap) : MtlsClientPool := ⟨bootstrap, .empty, false⟩

def after (pool : MtlsClientPool) (calls : List MtlsCall) : MtlsClientPool :=
  calls.foldl (fun pool call => (pool.clientFor call.oracle call.tls).1) pool

/-- The call misses the cache and returns the client it builds. -/
def Builds (pool : MtlsClientPool) (call : MtlsCall) (client : MtlsClient) : Prop :=
  pool.clients.get call.key = none ∧ (pool.clientFor call.oracle call.tls).2 = .ok client

theorem after_concat (pool : MtlsClientPool) (calls : List MtlsCall) (call : MtlsCall) :
    pool.after (calls ++ [call]) = ((pool.after calls).clientFor call.oracle call.tls).1 := by
  rw [after, after, List.foldl_append, List.foldl_cons, List.foldl_nil]

theorem clientFor_cases {pool : MtlsClientPool} (call : MtlsCall) (hLock : pool.poisoned = false) :
    (∃ client, pool.clients.get call.key = some client ∧
      pool.clientFor call.oracle call.tls = (pool, .ok client)) ∨
    (pool.clients.get call.key = none ∧ ∃ err, tlsConfig call.oracle pool.bootstrap call.tls = .error err ∧
      pool.clientFor call.oracle call.tls = (pool, .error err)) ∨
    (pool.clients.get call.key = none ∧ ∃ config client,
      tlsConfig call.oracle pool.bootstrap call.tls = .ok config ∧
      client = ⟨config, call.tls.identity.serverName⟩ ∧
      pool.clientFor call.oracle call.tls =
        ({ pool with clients := pool.clients.insert call.key client }, .ok client)) := by
  rw [MtlsCall.key, clientFor, hLock]
  cases hGet : pool.clients.get (mtlsCacheKey call.tls) with
  | some client => exact .inl ⟨client, rfl, rfl⟩
  | none =>
    cases hConfig : tlsConfig call.oracle pool.bootstrap call.tls with
    | error err => exact .inr (.inl ⟨rfl, err, rfl, rfl⟩)
    | ok config => exact .inr (.inr ⟨rfl, config, _, rfl, rfl, rfl⟩)

end MtlsClientPool

section History

variable {bootstrap : GrpcBootstrap} {calls more before later : List MtlsCall} {call builder : MtlsCall}
  {key : String} {client : MtlsClient}

/-- Among the calls, `builder` built the client that is kept under the key. -/
def BuiltBy (bootstrap : GrpcBootstrap) (calls : List MtlsCall) (key : String) (builder : MtlsCall)
    (client : MtlsClient) : Prop :=
  ∃ before later, calls = before ++ builder :: later ∧ builder.key = key ∧
    ((MtlsClientPool.fromBootstrap bootstrap).after before).Builds builder client

def MtlsCall.Buildable (bootstrap : GrpcBootstrap) (call : MtlsCall) : Prop :=
  ∃ config, tlsConfig call.oracle bootstrap call.tls = .ok config

/-- What the pool holds after a history of calls. -/
structure Kept (bootstrap : GrpcBootstrap) (calls : List MtlsCall) (pool : MtlsClientPool) : Prop where
  bootstrap_eq : pool.bootstrap = bootstrap
  lock : pool.poisoned = false
  built : ∀ key client, pool.clients.get key = some client →
    ∃ builder, BuiltBy bootstrap calls key builder client
  missing : ∀ call ∈ calls, pool.clients.get call.key = none → ¬ call.Buildable bootstrap

theorem BuiltBy.append (h : BuiltBy bootstrap calls key builder client) (more : List MtlsCall) :
    BuiltBy bootstrap (calls ++ more) key builder client := by
  obtain ⟨before, later, rfl, hKey, hBuilds⟩ := h
  refine ⟨before, later ++ more, ?_, hKey, hBuilds⟩
  rw [List.append_assoc, List.cons_append]

theorem Kept.same {pool : MtlsClientPool} (hKept : Kept bootstrap calls pool)
    (hMissing : pool.clients.get call.key = none → ¬ call.Buildable bootstrap) :
    Kept bootstrap (calls ++ [call]) pool := by
  refine ⟨hKept.bootstrap_eq, hKept.lock, fun key client hClient => ?_, fun other hOther => ?_⟩
  · obtain ⟨builder, hBuilt⟩ := hKept.built key client hClient
    exact ⟨builder, hBuilt.append [call]⟩
  · rcases List.mem_append.mp hOther with hOld | hNew
    · exact hKept.missing other hOld
    · rw [List.mem_singleton.mp hNew]
      exact hMissing

theorem Kept.insert {pool : MtlsClientPool} (hKept : Kept bootstrap calls pool)
    (hBuilt : BuiltBy bootstrap (calls ++ [call]) call.key call client) :
    Kept bootstrap (calls ++ [call])
      { pool with clients := pool.clients.insert call.key client } := by
  refine ⟨hKept.bootstrap_eq, hKept.lock, fun key other hOther => ?_, fun other hOther hNone => ?_⟩
  · rw [SortedMap.get_insert] at hOther
    split at hOther
    · rename_i hKey
      cases hOther
      exact ⟨call, hKey ▸ hBuilt⟩
    · obtain ⟨builder, hOld⟩ := hKept.built key other hOther
      exact ⟨builder, hOld.append [call]⟩
  · rw [SortedMap.get_insert] at hNone
    split at hNone
    · cases hNone
    · rename_i hKey
      rcases List.mem_append.mp hOther with hOld | hNew
      · exact hKept.missing other hOld hNone
      · exact absurd (congrArg MtlsCall.key (List.mem_singleton.mp hNew)) hKey

theorem kept_concat (hKept : Kept bootstrap calls ((MtlsClientPool.fromBootstrap bootstrap).after calls))
    (call : MtlsCall) :
    Kept bootstrap (calls ++ [call])
      (((MtlsClientPool.fromBootstrap bootstrap).after calls).clientFor call.oracle call.tls).1 := by
  obtain ⟨cached, hGet, hCall⟩ | ⟨hGet, err, hErr, hCall⟩ | ⟨hGet, config, built, -, -, hCall⟩ :=
    MtlsClientPool.clientFor_cases call hKept.lock
  · rw [hCall]
    apply hKept.same
    intro hNone
    rw [hGet] at hNone
    cases hNone
  · rw [hCall]
    apply hKept.same
    rintro - ⟨config, hConfig⟩
    rw [hKept.bootstrap_eq, hConfig] at hErr
    cases hErr
  · rw [hCall]
    exact hKept.insert ⟨calls, [], rfl, rfl, hGet, by rw [hCall]⟩

theorem kept_after (bootstrap : GrpcBootstrap) (calls : List MtlsCall) :
    Kept bootstrap calls ((MtlsClientPool.fromBootstrap bootstrap).after calls) := by
  induction calls using List.reverseRecOn with
  | nil => exact ⟨rfl, rfl, nofun, nofun⟩
  | append_singleton calls call ih =>
    rw [MtlsClientPool.after_concat]
    exact kept_concat ih call

/-- A client once built stays in the pool. -/
theorem get_after_of_buildable (hMem : call ∈ calls) (hBuildable : call.Buildable bootstrap) :
    ∃ client, ((MtlsClientPool.fromBootstrap bootstrap).after calls).clients.get call.key =
      some client := by
  cases hGet : ((MtlsClientPool.fromBootstrap bootstrap).after calls).clients.get call.key with
  | none => exact absurd hBuildable ((kept_after bootstrap calls).missing call hMem hGet)
  | some client => exact ⟨client, rfl⟩

theorem MtlsClientPool.Builds.buildable
    (h : ((fromBootstrap bootstrap).after before).Builds call client) : call.Buildable bootstrap := by
  have hKept := kept_after bootstrap before
  obtain ⟨cached, hGet, -⟩ | ⟨-, err, -, hCall⟩ | ⟨-, config, built, hConfig, -, -⟩ :=
    clientFor_cases call hKept.lock
  · rw [h.1] at hGet
    cases hGet
  · have hOk := h.2
    rw [hCall] at hOk
    cases hOk
  · exact ⟨config, hKept.bootstrap_eq ▸ hConfig⟩

/-- The client kept under a key has one builder: behind it, every call of the key hits the cache. -/
theorem BuiltBy.unique {other : MtlsCall} {client' : MtlsClient}
    (h : BuiltBy bootstrap calls key builder client)
    (h' : BuiltBy bootstrap calls key other client') : builder = other := by
  obtain ⟨before, later, hSplit, hKey, hBuilds⟩ := h
  obtain ⟨before', later', hSplit', hKey', hBuilds'⟩ := h'
  rw [hSplit] at hSplit'
  rcases List.append_eq_append_iff.mp hSplit' with ⟨mid, hMid, hRest⟩ | ⟨mid, hMid, hRest⟩
  · cases mid with
    | nil => exact (List.cons.inj hRest).1
    | cons first mid =>
      obtain rfl := (List.cons.inj hRest).1
      have hMem : builder ∈ before' := hMid ▸ List.mem_append_right _ List.mem_cons_self
      obtain ⟨cached, hGet⟩ := get_after_of_buildable hMem hBuilds.buildable
      rw [hKey, ← hKey', hBuilds'.1] at hGet
      cases hGet
  · cases mid with
    | nil => exact (List.cons.inj hRest).1.symm
    | cons first mid =>
      obtain rfl := (List.cons.inj hRest).1
      have hMem : other ∈ before := hMid ▸ List.mem_append_right _ List.mem_cons_self
      obtain ⟨cached, hGet⟩ := get_after_of_buildable hMem hBuilds'.buildable
      rw [hKey', ← hKey, hBuilds.1] at hGet
      cases hGet

/-- Who built the client that a call gets. -/
theorem builtBy_of_returned
    (hReturned : (((MtlsClientPool.fromBootstrap bootstrap).after before).clientFor call.oracle
      call.tls).2 = .ok client) :
    ∃ builder, BuiltBy bootstrap (before ++ [call]) call.key builder client ∧
      (builder = call ∨ BuiltBy bootstrap before call.key builder client) := by
  have hKept := kept_after bootstrap before
  obtain ⟨cached, hGet, hCall⟩ | ⟨-, err, -, hCall⟩ | ⟨hGet, -⟩ :=
    MtlsClientPool.clientFor_cases call hKept.lock
  · rw [hCall] at hReturned
    cases hReturned
    obtain ⟨builder, hBuilt⟩ := hKept.built call.key _ hGet
    exact ⟨builder, hBuilt.append [call], .inr hBuilt⟩
  · rw [hCall] at hReturned
    cases hReturned
  · exact ⟨call, ⟨before, [], rfl, rfl, hGet, hReturned⟩, .inl rfl⟩

theorem returned_of_buildable (before : List MtlsCall) (builder : MtlsCall)
    (hMem : call ∈ before ++ [builder]) (hKey : call.key = builder.key)
    (hBuildable : call.Buildable bootstrap) :
    ∃ client, (((MtlsClientPool.fromBootstrap bootstrap).after before).clientFor builder.oracle
      builder.tls).2 = .ok client := by
  have hKept := kept_after bootstrap before
  obtain ⟨cached, -, hCall⟩ | ⟨hGet, err, hErr, hCall⟩ | ⟨-, config, built, -, -, hCall⟩ :=
    MtlsClientPool.clientFor_cases builder hKept.lock
  · exact ⟨cached, by rw [hCall]⟩
  · rcases List.mem_append.mp hMem with hOld | hNew
    · exact absurd hBuildable (hKept.missing call hOld (hKey ▸ hGet))
    · obtain ⟨config, hConfig⟩ := hBuildable
      rw [List.mem_singleton.mp hNew, ← hKept.bootstrap_eq, hErr] at hConfig
      cases hConfig
  · exact ⟨built, by rw [hCall]⟩

end History

/-- Every client that a call returns was built with the settings of that call. -/
def CacheCorrect (bootstrap : GrpcBootstrap) (calls : List MtlsCall) : Prop :=
  ∀ before call later client, calls = before ++ call :: later →
    (((MtlsClientPool.fromBootstrap bootstrap).after before).clientFor call.oracle call.tls).2 =
      .ok client →
    ∃ builder, BuiltBy bootstrap (before ++ [call]) call.key builder client ∧
      builder.tls.identity = call.tls.identity

/-- No later call shares the key of a call that a client can be built for, but not its settings. -/
def KeysDistinguish (bootstrap : GrpcBootstrap) (calls : List MtlsCall) : Prop :=
  ∀ before first between second later, calls = before ++ first :: (between ++ second :: later) →
    first.Buildable bootstrap → first.key = second.key → first.tls.identity = second.tls.identity

theorem CacheCorrect.keysDistinguish {bootstrap : GrpcBootstrap} {calls : List MtlsCall}
    (hCorrect : CacheCorrect bootstrap calls) : KeysDistinguish bootstrap calls := by
  intro before first between second later hSplit hBuildable hKey
  obtain ⟨client, hFirst⟩ := returned_of_buildable before first
    (List.mem_append_right _ List.mem_cons_self) rfl hBuildable
  obtain ⟨builder, hBuilt, hSame⟩ := hCorrect before first _ client hSplit hFirst
  obtain ⟨client', hSecond⟩ := returned_of_buildable (before ++ first :: between) second
    (List.mem_append_left _ (List.mem_append_right _ List.mem_cons_self)) hKey hBuildable
  obtain ⟨builder', hBuilt', hSame'⟩ := hCorrect (before ++ first :: between) second later client'
    (by rw [hSplit, List.append_assoc, List.cons_append]) hSecond
  have hLater := hBuilt.append (between ++ [second])
  rw [List.append_assoc, List.singleton_append, hKey] at hLater
  rw [List.append_assoc, List.cons_append] at hBuilt'
  rw [← hSame, ← hSame', hLater.unique hBuilt']

theorem KeysDistinguish.cacheCorrect {bootstrap : GrpcBootstrap} {calls : List MtlsCall}
    (hKeys : KeysDistinguish bootstrap calls) : CacheCorrect bootstrap calls := by
  intro before call later client hSplit hReturned
  obtain ⟨builder, hBuilt, rfl | hEarlier⟩ := builtBy_of_returned hReturned
  · exact ⟨_, hBuilt, rfl⟩
  · refine ⟨builder, hBuilt, ?_⟩
    obtain ⟨front, between, rfl, hKey, hBuilds⟩ := hEarlier
    apply hKeys front builder between call later _ hBuilds.buildable hKey
    rw [hSplit, List.append_assoc, List.cons_append]

theorem cacheCorrect_iff (bootstrap : GrpcBootstrap) (calls : List MtlsCall) :
    CacheCorrect bootstrap calls ↔ KeysDistinguish bootstrap calls :=
  ⟨CacheCorrect.keysDistinguish, KeysDistinguish.cacheCorrect⟩

/-! ## Keys and the separator -/

/-- The separator of the key occurs in none of the parts in front of the protocols. -/
structure UpstreamTls.SeparatorFree (tls : UpstreamTls) : Prop where
  sni : '|' ∉ (tls.sni.getD "").toList
  certProvider : '|' ∉ tls.certProvider.toList
  rootProvider : '|' ∉ tls.rootProvider.toList

theorem serverName_eq_of_getD {sni sni' : Option String} (h : sni.getD "" = sni'.getD "") :
    sni.filter (· ≠ "") = sni'.filter (· ≠ "") := by
  cases sni <;> cases sni' <;> simp_all [Option.filter_some]

theorem identity_eq_of_mtlsCacheKey {tls tls' : UpstreamTls} (hFree : tls.SeparatorFree)
    (hFree' : tls'.SeparatorFree) (hKey : mtlsCacheKey tls = mtlsCacheKey tls') :
    tls.identity = tls'.identity := by
  simp only [mtlsCacheKey, String.append_assoc] at hKey
  obtain ⟨hSni, hKey⟩ := Text.append_sep_inj rfl hFree.sni hFree'.sni hKey
  obtain ⟨hCert, hKey⟩ := Text.append_sep_inj rfl hFree.certProvider hFree'.certProvider hKey
  obtain ⟨hRoot, -⟩ := Text.append_sep_inj rfl hFree.rootProvider hFree'.rootProvider hKey
  rw [UpstreamTls.identity, UpstreamTls.identity, serverName_eq_of_getD hSni, hCert, hRoot]

theorem keysDistinguish_of_separatorFree {bootstrap : GrpcBootstrap} {calls : List MtlsCall}
    (hFree : ∀ call ∈ calls, call.tls.SeparatorFree) : KeysDistinguish bootstrap calls := by
  intro before first between second later hSplit _ hKey
  subst hSplit
  apply identity_eq_of_mtlsCacheKey (hFree first _) (hFree second _) hKey
  · simp
  · simp

def oneProvider : GrpcBootstrap :=
  ⟨SortedMap.empty.insert "default" ⟨some "cert.pem", some "key.pem", some "ca.pem"⟩⟩

def readableFiles : TlsOracle where
  debugText := id
  loadCerts _ _ := .ok [[1]]
  loadPrivateKey _ := .ok [2]
  loadRoots _ := .ok [[3]]
  clientAuthError _ _ := none

/-- The server name of the first call holds the separator, so that its key is the key of the second. -/
def collidingCalls : List MtlsCall :=
  [⟨readableFiles, ⟨some "a|b", none, none, []⟩⟩,
    ⟨readableFiles, ⟨some "a", some "b", none, ["default|"]⟩⟩]

theorem collidingCalls_mix_clients : ¬ CacheCorrect oneProvider collidingCalls := by
  intro hCorrect
  have hSame := hCorrect.keysDistinguish [] _ [] _ [] rfl ⟨_, rfl⟩ (by decide)
  exact absurd hSame (by decide)

end Dxgate
