import Dxgate.Proxy.Machine
import Dxgate.Proxy.MtlsCache

/-! # Mutual TLS over a whole run

The certificate files are read when the first request needs a client of their settings, and may change at
any time. A client that has been built is never built again: every later call with the same key, of any
task, goes through it.
-/

namespace Dxgate

set_option autoImplicit false

open Collections

/-! ## The files -/

inductive KeyFormat where
  | pkcs8
  | rsa
  deriving DecidableEq

/-- The file system, the parsers of the files, and what the TLS library refuses. -/
structure TlsFiles where
  debugText : String → String
  openFile : String → Except String (List UInt8)
  parseBootstrap : List UInt8 → Except String GrpcBootstrap
  pemCerts : List UInt8 → Except String (List (List UInt8))
  pemKeys : KeyFormat → List UInt8 → Except String (List (List UInt8))
  rootError : List UInt8 → Option String
  clientAuthError : List (List UInt8) → List UInt8 → Option String

namespace TlsFiles

def loadCerts (files : TlsFiles) (path label : String) : Except String (List (List UInt8)) := do
  let file ← (files.openFile path).mapError fun e => "open " ++ label ++ " " ++ path ++ ": " ++ e
  let certs ← (files.pemCerts file).mapError fun e => "parse " ++ label ++ " " ++ path ++ ": " ++ e
  if certs = [] then .error ("parse " ++ label ++ " " ++ path ++ ": no certificates found")
  else .ok certs

def addRoot (files : TlsFiles) (path : String) (roots : List (List UInt8)) (cert : List UInt8) :
    Except String (List (List UInt8)) :=
  match files.rootError cert with
  | some e => .error ("add data-plane CA certificate " ++ path ++ ": " ++ e)
  | none => .ok (roots ++ [cert])

def loadRoots (files : TlsFiles) (path : String) : Except String (List (List UInt8)) := do
  let certs ← files.loadCerts path "data-plane CA certificate"
  certs.foldlM (files.addRoot path) []

def loadPrivateKeys (files : TlsFiles) (path : String) (format : KeyFormat) :
    Except String (List (List UInt8)) := do
  let file ← (files.openFile path).mapError fun e =>
    "open data-plane client private key " ++ path ++ ": " ++ e
  (files.pemKeys format file).mapError fun e => "parse data-plane client private key " ++ path ++ ": " ++ e

def loadPrivateKey (files : TlsFiles) (path : String) : Except String (List UInt8) := do
  match (← files.loadPrivateKeys path .pkcs8).head? with
  | some key => .ok key
  | none =>
    match (← files.loadPrivateKeys path .rsa).head? with
    | some key => .ok key
    | none =>
      .error ("parse data-plane client private key " ++ path ++ ": no PKCS8 or RSA keys found")

def oracle (files : TlsFiles) : TlsOracle where
  debugText := files.debugText
  loadCerts := files.loadCerts
  loadPrivateKey := files.loadPrivateKey
  loadRoots := files.loadRoots
  clientAuthError := files.clientAuthError

def fromBootstrap (files : TlsFiles) (path : String) : Except String MtlsClientPool := do
  let file ← (files.openFile path).mapError fun e => "open gRPC xDS bootstrap " ++ path ++ ": " ++ e
  let bootstrap ← (files.parseBootstrap file).mapError fun e =>
    "parse gRPC xDS bootstrap " ++ path ++ ": " ++ e
  .ok (MtlsClientPool.fromBootstrap bootstrap)

/-- What `GRPC_XDS_BOOTSTRAP` is set to decides. -/
def fromEnv (files : TlsFiles) : Option String → MtlsSupport
  | some path =>
    if path ≠ "" then
      match files.fromBootstrap path with
      | .ok pool => .available pool
      | .error err => .error err
    else .disabled
  | none => .disabled

/-! ## When a client can be built -/

/-- The file is there and the parser takes it. -/
def Parses {T : Type} (files : TlsFiles) (parse : List UInt8 → Except String T) (path : String) (value : T) :
    Prop :=
  ∃ bytes, files.openFile path = .ok bytes ∧ parse bytes = .ok value

/-- The first key of the file, where keys of the newer format go before the others. -/
def FirstKey (files : TlsFiles) (path : String) (key : List UInt8) : Prop :=
  (∃ rest, files.Parses (files.pemKeys .pkcs8) path (key :: rest)) ∨
    (files.Parses (files.pemKeys .pkcs8) path [] ∧
      ∃ rest, files.Parses (files.pemKeys .rsa) path (key :: rest))

/-- The configuration stands in the files that the providers of the settings name. -/
structure Loads (files : TlsFiles) (bootstrap : GrpcBootstrap) (certProvider rootProvider : String)
    (config : ClientConfig) : Prop where
  certs : ∃ provider path, bootstrap.certificateProviders.get certProvider = some provider ∧
    provider.certificateFile = some path ∧ files.Parses files.pemCerts path config.certs
  key : ∃ provider path, bootstrap.certificateProviders.get certProvider = some provider ∧
    provider.privateKeyFile = some path ∧ files.FirstKey path config.key
  roots : ∃ provider path, bootstrap.certificateProviders.get rootProvider = some provider ∧
    provider.caCertificateFile = some path ∧ files.Parses files.pemCerts path config.roots
  nonempty : config.certs ≠ [] ∧ config.roots ≠ []
  accepted : files.clientAuthError config.certs config.key = none ∧
    ∀ root ∈ config.roots, files.rootError root = none

variable {files : TlsFiles} {path : String}

theorem loadCerts_eq_ok {label : String} {certs : List (List UInt8)} :
    files.loadCerts path label = .ok certs ↔ files.Parses files.pemCerts path certs ∧ certs ≠ [] := by
  simp only [loadCerts, bind, Runs.bind_eq_ok, Runs.mapError_eq_ok, Parses]
  constructor
  · rintro ⟨bytes, hOpen, parsed, hParse, hCerts⟩
    split at hCerts
    · cases hCerts
    · rename_i hSome
      cases hCerts
      exact ⟨⟨bytes, hOpen, hParse⟩, hSome⟩
  · rintro ⟨⟨bytes, hOpen, hParse⟩, hSome⟩
    exact ⟨bytes, hOpen, certs, hParse, if_neg hSome⟩

theorem foldlM_addRoot {certs added roots : List (List UInt8)} :
    certs.foldlM (files.addRoot path) added = .ok roots ↔
      roots = added ++ certs ∧ ∀ cert ∈ certs, files.rootError cert = none := by
  induction certs generalizing added with
  | nil => simp [pure, Except.pure, eq_comm]
  | cons cert certs ih =>
    rw [List.foldlM_cons]
    refine Runs.bind_eq_ok.trans ?_
    cases hError : files.rootError cert with
    | some e => simp [addRoot, hError]
    | none => simp [addRoot, hError, ih]

theorem loadRoots_eq_ok {roots : List (List UInt8)} :
    files.loadRoots path = .ok roots ↔ files.Parses files.pemCerts path roots ∧ roots ≠ [] ∧
      ∀ root ∈ roots, files.rootError root = none := by
  refine Runs.bind_eq_ok.trans ?_
  constructor
  · rintro ⟨certs, hCerts, hAdd⟩
    obtain ⟨rfl, hAccepted⟩ := foldlM_addRoot.mp hAdd
    obtain ⟨hParses, hSome⟩ := loadCerts_eq_ok.mp hCerts
    exact ⟨hParses, hSome, hAccepted⟩
  · rintro ⟨hParses, hSome, hAccepted⟩
    exact ⟨roots, loadCerts_eq_ok.mpr ⟨hParses, hSome⟩, foldlM_addRoot.mpr ⟨rfl, hAccepted⟩⟩

theorem loadPrivateKeys_eq_ok {format : KeyFormat} {keys : List (List UInt8)} :
    files.loadPrivateKeys path format = .ok keys ↔ files.Parses (files.pemKeys format) path keys := by
  simp only [loadPrivateKeys, bind, Runs.bind_eq_ok, Runs.mapError_eq_ok, Parses]

theorem loadPrivateKey_eq_ok {key : List UInt8} :
    files.loadPrivateKey path = .ok key ↔ files.FirstKey path key := by
  simp only [loadPrivateKey, bind, Runs.bind_eq_ok, loadPrivateKeys_eq_ok, FirstKey]
  constructor
  · rintro ⟨keys, hKeys, hFirst⟩
    cases keys with
    | cons first rest =>
      cases hFirst
      exact .inl ⟨rest, hKeys⟩
    | nil =>
      obtain ⟨others, hOthers, hFirst⟩ := Runs.bind_eq_ok.mp hFirst
      cases others with
      | cons first rest =>
        cases hFirst
        exact .inr ⟨hKeys, rest, loadPrivateKeys_eq_ok.mp hOthers⟩
      | nil => cases hFirst
  · rintro (⟨rest, hKeys⟩ | ⟨hNone, rest, hKeys⟩)
    · exact ⟨_, hKeys, rfl⟩
    · exact ⟨_, hNone, Runs.bind_eq_ok.mpr ⟨_, loadPrivateKeys_eq_ok.mpr hKeys, rfl⟩⟩

theorem provider_eq_ok {oracle : TlsOracle} {bootstrap : GrpcBootstrap} {name : String}
    {config : FileWatcherConfig} : bootstrap.provider oracle name = .ok config ↔
      bootstrap.certificateProviders.get name = some config := by
  rw [GrpcBootstrap.provider]
  cases bootstrap.certificateProviders.get name <;> simp

theorem requiredPath_eq_ok {oracle : TlsOracle} {config : FileWatcherConfig} {provider found : String} :
    (config.requiredPath oracle "certificate_file" provider = .ok found ↔
      config.certificateFile = some found) ∧
    (config.requiredPath oracle "private_key_file" provider = .ok found ↔
      config.privateKeyFile = some found) ∧
    (config.requiredPath oracle "ca_certificate_file" provider = .ok found ↔
      config.caCertificateFile = some found) := by
  obtain ⟨cert, key, ca⟩ := config
  refine ⟨?_, ?_, ?_⟩
  · cases cert <;> simp [FileWatcherConfig.requiredPath]
  · cases key <;> simp [FileWatcherConfig.requiredPath]
  · cases ca <;> simp [FileWatcherConfig.requiredPath]

/-- A client can be built exactly when the files of its providers hold a usable configuration. -/
theorem tlsConfig_eq_ok {bootstrap : GrpcBootstrap} {tls : UpstreamTls} {config : ClientConfig} :
    tlsConfig files.oracle bootstrap tls = .ok config ↔
      files.Loads bootstrap tls.certProvider tls.rootProvider config := by
  simp only [tlsConfig, bind, Runs.bind_eq_ok, provider_eq_ok, requiredPath_eq_ok]
  constructor
  · rintro ⟨certConfig, hCert, rootConfig, hRoot, certFile, hCertFile, keyFile, hKeyFile, caFile, hCaFile,
      certs, hCerts, key, hKey, roots, hRoots, hBuilt⟩
    obtain ⟨hCerts, hSome⟩ := loadCerts_eq_ok.mp hCerts
    obtain ⟨hRoots, hSomeRoots, hAccepted⟩ := loadRoots_eq_ok.mp hRoots
    split at hBuilt
    · cases hBuilt
    · rename_i hAuth
      cases hBuilt
      exact ⟨⟨certConfig, certFile, hCert, hCertFile, hCerts⟩,
        ⟨certConfig, keyFile, hCert, hKeyFile, loadPrivateKey_eq_ok.mp hKey⟩,
        ⟨rootConfig, caFile, hRoot, hCaFile, hRoots⟩, ⟨hSome, hSomeRoots⟩, hAuth, hAccepted⟩
  · intro h
    obtain ⟨certConfig, certFile, hCert, hCertFile, hCerts⟩ := h.certs
    obtain ⟨keyConfig, keyFile, hSame, hKeyFile, hKey⟩ := h.key
    obtain ⟨rootConfig, caFile, hRoot, hCaFile, hRoots⟩ := h.roots
    rw [hCert] at hSame
    cases hSame
    refine ⟨certConfig, hCert, rootConfig, hRoot, certFile, hCertFile, keyFile, hKeyFile, caFile, hCaFile,
      config.certs, loadCerts_eq_ok.mpr ⟨hCerts, h.nonempty.1⟩, config.key, loadPrivateKey_eq_ok.mpr hKey,
      config.roots, loadRoots_eq_ok.mpr ⟨hRoots, h.nonempty.2, h.accepted.2⟩, ?_⟩
    have hAuth : files.oracle.clientAuthError config.certs config.key = none := h.accepted.1
    rw [hAuth]

end TlsFiles

/-! ## The calls of a run -/

/-- A call that went out with mutual TLS: the files at that step, the settings of the cluster and the client. -/
structure Dial where
  files : TlsFiles
  tls : UpstreamTls
  client : MtlsClient

namespace Dial

def key (dial : Dial) : String := mtlsCacheKey dial.tls

/-- The client is the one that the files of the call held for its settings. -/
structure Builds (bootstrap : GrpcBootstrap) (dial : Dial) : Prop where
  loads : dial.files.Loads bootstrap dial.tls.certProvider dial.tls.rootProvider dial.client.config
  serverName : dial.client.serverName = dial.tls.identity.serverName

end Dial

/-- What the next access of the task sends with mutual TLS. -/
def Task.dials (files : TlsFiles) (up : Upstream) (server : ProxyServer) : Task → List Dial
  | .forwarding (.targeted req target) =>
    match target.cluster.tls, (dispatch up server target req).2.call.map Dxgate.Call.client with
    | some tls, some (.mtls client) => [⟨files, tls, client⟩]
    | _, _ => []
  | _ => []

/-- A run of the proxy from its start, with every call that went out with mutual TLS. The environment
variable and the file that it names are read at the start; every later step has the files of its moment. -/
inductive Dialled (startFiles : TlsFiles) (bootstrapVar : Option String) : List Dial → ProxySystem → Prop where
  | start {s : ProxySystem} (h : s.Initial) (hMtls : s.server.mtls = startFiles.fromEnv bootstrapVar) :
      Dialled startFiles bootstrapVar [] s
  | call {log : List Dial} {s : ProxySystem} (h : Dialled startFiles bootstrapVar log s) (i : Nat) {task : Task}
      (hResting : (s.tasks i).Resting) (hCall : task.Call) :
      Dialled startFiles bootstrapVar log (s.setTask i task)
  | run {log : List Dial} {s : ProxySystem} (h : Dialled startFiles bootstrapVar log s) (files : TlsFiles)
      {up : Upstream} (hFiles : up.tls = files.oracle) (i : Nat) :
      Dialled startFiles bootstrapVar (log ++ (s.tasks i).dials files up s.server) (s.runTask up i)

/-- What the pool holds are the clients of the calls so far, under each key the one of the first call. -/
structure MtlsClientPool.Explains (pool : MtlsClientPool) (log : List Dial) : Prop where
  lock : pool.poisoned = false
  held : ∀ key, pool.clients.get key = (log.find? (·.key = key)).map Dial.client
  kept : ∀ dial ∈ log, pool.clients.get dial.key = some dial.client
  built : ∀ key first, log.find? (·.key = key) = some first → first.Builds pool.bootstrap

/-- The bootstrap file was read at the start. Without it there are no calls. -/
def MtlsSupport.Explains (startFiles : TlsFiles) (bootstrapVar : Option String) (log : List Dial) :
    MtlsSupport → Prop
  | .available pool => pool.Explains log ∧
      ∃ path, bootstrapVar = some path ∧ startFiles.Parses startFiles.parseBootstrap path pool.bootstrap
  | _ => log = []

section Runs

variable {startFiles : TlsFiles} {bootstrapVar : Option String} {log : List Dial} {s : ProxySystem}

theorem TlsFiles.fromBootstrap_eq_ok {files : TlsFiles} {path : String} {pool : MtlsClientPool} :
    files.fromBootstrap path = .ok pool ↔
      ∃ bootstrap, files.Parses files.parseBootstrap path bootstrap ∧ pool = .fromBootstrap bootstrap := by
  simp only [TlsFiles.fromBootstrap, bind, Runs.bind_eq_ok, Runs.mapError_eq_ok, Parses]
  constructor
  · rintro ⟨bytes, hOpen, bootstrap, hParse, hPool⟩
    cases hPool
    exact ⟨bootstrap, ⟨bytes, hOpen, hParse⟩, rfl⟩
  · rintro ⟨bootstrap, ⟨bytes, hOpen, hParse⟩, rfl⟩
    exact ⟨bytes, hOpen, bootstrap, hParse, rfl⟩

theorem TlsFiles.fromEnv_explains (files : TlsFiles) (bootstrapVar : Option String) :
    (files.fromEnv bootstrapVar).Explains files bootstrapVar [] := by
  rw [TlsFiles.fromEnv.eq_def]
  split
  · rename_i path
    split
    · split
      · rename_i pool hPool
        obtain ⟨bootstrap, hParses, rfl⟩ := TlsFiles.fromBootstrap_eq_ok.mp hPool
        exact ⟨⟨rfl, fun _ => rfl, by simp, by simp⟩, path, rfl, hParses⟩
      · rfl
    · rfl
  · rfl

theorem find?_key_append_of_some {dial first : Dial} (h : log.find? (·.key = dial.key) = some first)
    (key : String) : (log ++ [dial]).find? (·.key = key) = log.find? (·.key = key) := by
  rw [List.find?_append]
  by_cases hKey : dial.key = key
  · rw [← hKey, h, Option.some_or]
  · rw [List.find?_cons_of_neg (by simpa using hKey), List.find?_nil, Option.or_none]

theorem find?_key_append_of_none {dial : Dial} (h : log.find? (·.key = dial.key) = none) (key : String) :
    (log ++ [dial]).find? (·.key = key) = if key = dial.key then some dial else log.find? (·.key = key) := by
  rw [List.find?_append]
  split
  · rename_i hKey
    rw [hKey, h, Option.none_or, List.find?_cons_of_pos (by simp)]
  · rename_i hKey
    rw [List.find?_cons_of_neg (by simpa using Ne.symm hKey), List.find?_nil, Option.or_none]

namespace MtlsClientPool.Explains

/-- A call through the client that is there already. -/
theorem reused {pool : MtlsClientPool} (h : pool.Explains log) (dial : Dial)
    (hGet : pool.clients.get dial.key = some dial.client) : pool.Explains (log ++ [dial]) := by
  have hHeld := h.held dial.key
  rw [hGet] at hHeld
  obtain ⟨first, hFirst, -⟩ := Option.map_eq_some_iff.mp hHeld.symm
  have hSame := find?_key_append_of_some hFirst
  refine ⟨h.lock, ?_, ?_, ?_⟩
  · intro key
    rw [hSame, h.held]
  · intro other hOther
    rcases List.mem_append.mp hOther with hOld | hNew
    · exact h.kept other hOld
    · rw [List.mem_singleton.mp hNew, hGet]
  · intro key builder hBuilder
    rw [hSame] at hBuilder
    exact h.built key builder hBuilder

/-- The first call of its key. -/
theorem added {pool : MtlsClientPool} (h : pool.Explains log) (dial : Dial)
    (hGet : pool.clients.get dial.key = none) (hBuilds : dial.Builds pool.bootstrap) :
    { pool with clients := pool.clients.insert dial.key dial.client }.Explains (log ++ [dial]) := by
  have hHeld := h.held dial.key
  rw [hGet] at hHeld
  have hNew := find?_key_append_of_none (Option.map_eq_none_iff.mp hHeld.symm)
  refine ⟨h.lock, ?_, ?_, ?_⟩
  · intro key
    rw [hNew, SortedMap.get_insert]
    split
    · rfl
    · exact h.held key
  · intro other hOther
    rw [SortedMap.get_insert]
    rcases List.mem_append.mp hOther with hOld | hLast
    · have hKept := h.kept other hOld
      split
      · rename_i hKey
        rw [hKey, hGet] at hKept
        cases hKept
      · exact hKept
    · rw [List.mem_singleton.mp hLast, if_pos rfl]
  · intro key builder hBuilder
    rw [hNew] at hBuilder
    split at hBuilder
    · cases hBuilder
      exact hBuilds
    · exact h.built key builder hBuilder

theorem clientFor {pool pool' : MtlsClientPool} (h : pool.Explains log) (files : TlsFiles) {tls : UpstreamTls}
    {result : Except String MtlsClient} (hClient : pool.clientFor files.oracle tls = (pool', result)) :
    pool'.Explains (log ++ result.toOption.toList.map fun client => ⟨files, tls, client⟩) ∧
      pool'.bootstrap = pool.bootstrap := by
  obtain ⟨cached, hGet, hCall⟩ | ⟨-, err, -, hCall⟩ | ⟨hGet, config, built, hConfig, hBuilt, hCall⟩ :=
    MtlsClientPool.clientFor_cases ⟨files.oracle, tls⟩ h.lock
  · rw [hCall] at hClient
    cases hClient
    exact ⟨h.reused ⟨files, tls, cached⟩ hGet, rfl⟩
  · rw [hCall] at hClient
    cases hClient
    exact ⟨(List.append_nil log).symm ▸ h, rfl⟩
  · rw [hCall] at hClient
    cases hClient
    have hBuilds : Dial.Builds pool.bootstrap ⟨files, tls, built⟩ := by
      rw [hBuilt]
      exact ⟨TlsFiles.tlsConfig_eq_ok.mp hConfig, rfl⟩
    exact ⟨h.added ⟨files, tls, built⟩ hGet hBuilds, rfl⟩

end MtlsClientPool.Explains

theorem mtlsClient_explains {files : TlsFiles} {support support' : MtlsSupport}
    (h : support.Explains startFiles bootstrapVar log) (cluster : Cluster) {tls : UpstreamTls}
    {result : Except Failure MtlsClient}
    (hClient : mtlsClient files.oracle cluster tls support = (support', result)) :
    support'.Explains startFiles bootstrapVar
      (log ++ result.toOption.toList.map fun client => ⟨files, tls, client⟩) := by
  cases support with
  | disabled =>
    cases hClient
    exact (List.append_nil log).trans h
  | error reason =>
    cases hClient
    exact (List.append_nil log).trans h
  | available pool =>
    obtain ⟨hPool, hRead⟩ := h
    rw [mtlsClient] at hClient
    split at hClient
    · rename_i pool' client hOk
      cases hClient
      obtain ⟨hPool', hBootstrap⟩ := hPool.clientFor files hOk
      exact ⟨hPool', hBootstrap ▸ hRead⟩
    · rename_i pool' err hError
      cases hClient
      obtain ⟨hPool', hBootstrap⟩ := hPool.clientFor files hError
      exact ⟨hPool', hBootstrap ▸ hRead⟩

theorem dispatch_explains {files : TlsFiles} {up : Upstream} (hFiles : up.tls = files.oracle)
    {server : ProxyServer} (h : server.mtls.Explains startFiles bootstrapVar log) (target : Target)
    (req : Request) :
    (dispatch up server target req).1.mtls.Explains startFiles bootstrapVar
      (log ++ (Task.forwarding (.targeted req target)).dials files up server) := by
  cases hTls : target.cluster.tls with
  | none =>
    simp only [Task.dials, dispatch, hTls, List.append_nil]
    split <;> exact h
  | some tls =>
    cases hUri : up.uriError (upstreamUri target req) with
    | some err =>
      simp only [Task.dials, dispatch, hTls, hUri, Option.map_none, List.append_nil]
      exact h
    | none =>
      rcases hClient : mtlsClient files.oracle target.cluster tls server.mtls with ⟨support, failure | client⟩ <;>
        simp only [Task.dials, dispatch, hTls, hUri, hFiles, hClient] <;>
        exact mtlsClient_explains h target.cluster hClient

theorem Task.step_explains {files : TlsFiles} {up : Upstream} (hFiles : up.tls = files.oracle)
    {server : ProxyServer} (h : server.mtls.Explains startFiles bootstrapVar log) (task : Task) :
    (Task.step up (server, task)).1.mtls.Explains startFiles bootstrapVar
      (log ++ task.dials files up server) := by
  cases task with
  | idle => exact (List.append_nil log).symm ▸ h
  | applying task => exact (List.append_nil log).symm ▸ h
  | reading task => exact (List.append_nil log).symm ▸ h
  | forwarding handler =>
    cases handler with
    | received req =>
      simp only [Task.step, Handler.step, Task.dials, List.append_nil]
      split <;> exact h
    | routed req cfg clusters =>
      simp only [Task.step, Handler.step, Task.dials, List.append_nil]
      split <;> exact h
    | resolved req i cluster =>
      simp only [Task.step, Handler.step, Task.dials, List.append_nil]
      split <;> exact h
    | targeted req target => exact dispatch_explains hFiles h target req
    | answered out => exact (List.append_nil log).symm ▸ h

theorem Dialled.explains (h : Dialled startFiles bootstrapVar log s) :
    s.server.mtls.Explains startFiles bootstrapVar log := by
  induction h with
  | start h hMtls =>
    rw [hMtls]
    exact startFiles.fromEnv_explains bootstrapVar
  | call _ _ _ _ ih => exact ih
  | run _ files hFiles i ih => exact Task.step_explains hFiles ih _

/-- A call has a pool behind it, whose bootstrap file was read at the start. -/
theorem Dialled.pool (h : Dialled startFiles bootstrapVar log s) {dial : Dial} (hDial : dial ∈ log) :
    ∃ pool : MtlsClientPool, pool.Explains log ∧
      ∃ path, bootstrapVar = some path ∧ startFiles.Parses startFiles.parseBootstrap path pool.bootstrap := by
  have hExplains := h.explains
  cases hMtls : s.server.mtls with
  | available pool =>
    rw [hMtls] at hExplains
    exact ⟨pool, hExplains⟩
  | disabled =>
    rw [hMtls] at hExplains
    cases hExplains
    simp at hDial
  | error reason =>
    rw [hMtls] at hExplains
    cases hExplains
    simp at hDial

end Runs

/-- In every interleaving, whatever happens to the certificate files: calls of one key go through one client.
It is the client of the first of these calls, and was built from the files of that call for its settings, by
the bootstrap file of the start. Where no setting holds the separator of the key, it was built for the
settings of every call that goes through it. -/
theorem mtls_calls_share_clients {startFiles : TlsFiles} {bootstrapVar : Option String} {log : List Dial}
    {s : ProxySystem} (h : Dialled startFiles bootstrapVar log s) :
    (∀ dial ∈ log, ∀ other ∈ log, dial.key = other.key → dial.client = other.client) ∧
    ∀ dial ∈ log, ∃ path bootstrap first, bootstrapVar = some path ∧
      startFiles.Parses startFiles.parseBootstrap path bootstrap ∧
      log.find? (·.key = dial.key) = some first ∧ first.client = dial.client ∧ first.Builds bootstrap ∧
      ((∀ dial ∈ log, dial.tls.SeparatorFree) →
        first.files.Loads bootstrap dial.tls.certProvider dial.tls.rootProvider dial.client.config ∧
          dial.client.serverName = dial.tls.identity.serverName) := by
  constructor
  · intro dial hDial other hOther hKey
    obtain ⟨pool, hPool, -⟩ := h.pool hDial
    have hKept := hPool.kept dial hDial
    rw [hKey, hPool.kept other hOther] at hKept
    exact (Option.some.inj hKept).symm
  · intro dial hDial
    obtain ⟨pool, hPool, path, hVar, hParses⟩ := h.pool hDial
    have hHeld := hPool.held dial.key
    rw [hPool.kept dial hDial] at hHeld
    obtain ⟨first, hFirst, hClient⟩ := Option.map_eq_some_iff.mp hHeld.symm
    have hBuilds := hPool.built dial.key first hFirst
    refine ⟨path, pool.bootstrap, first, hVar, hParses, hFirst, hClient, hBuilds, ?_⟩
    intro hFree
    have hMem := List.mem_of_find?_eq_some hFirst
    have hKey : first.key = dial.key := by simpa using List.find?_some hFirst
    have hSame := identity_eq_of_mtlsCacheKey (hFree first hMem) (hFree dial hDial) hKey
    have hCert : first.tls.certProvider = dial.tls.certProvider := congrArg TlsIdentity.certProvider hSame
    have hRoot : first.tls.rootProvider = dial.tls.rootProvider := congrArg TlsIdentity.rootProvider hSame
    have hLoads := hBuilds.loads
    rw [hCert, hRoot, hClient] at hLoads
    have hName := hBuilds.serverName
    rw [hSame, hClient] at hName
    exact ⟨hLoads, hName⟩

/-! ## Files that change -/

/-- Every file is there; the certificate files hold the one certificate. -/
def filesWith (cert : List UInt8) : TlsFiles where
  debugText := id
  openFile _ := .ok []
  parseBootstrap _ := .ok oneProvider
  pemCerts _ := .ok [cert]
  pemKeys _ _ := .ok [[2]]
  rootError _ := none
  clientAuthError _ _ := none

def upstreamWith (cert : List UInt8) : Upstream := { sampleUpstream with tls := (filesWith cert).oracle }

def defaultTls : UpstreamTls := ⟨none, none, none, []⟩

def tlsConfigured : RuntimeConfig :=
  sampleConfig [⟨"c", 100⟩] [⟨"c", [⟨"10.0.0.1", 443, true, none⟩], some defaultTls⟩]

def mtlsProxy : ProxySystem where
  server := ⟨.new (.empty "bootstrap"), (filesWith [1]).fromEnv (some "bootstrap.json")⟩
  tasks _ := .idle
  stored := []

theorem Dialled.runWith {startFiles : TlsFiles} {bootstrapVar : Option String} {log : List Dial}
    {s : ProxySystem} (h : Dialled startFiles bootstrapVar log s) (cert : List UInt8) (i : Nat) :
    Dialled startFiles bootstrapVar (log ++ (s.tasks i).dials (filesWith cert) (upstreamWith cert) s.server)
      (s.runTask (upstreamWith cert) i) :=
  h.run (filesWith cert) rfl i

/-- Two requests, and between them other certificates in the files. -/
theorem rotatedFiles_dialled : ∃ log s, Dialled (filesWith [1]) (some "bootstrap.json") log s ∧
    log.map Dial.tls = [defaultTls, defaultTls] ∧
    log.map (fun dial => dial.files.pemCerts []) = [.ok [[1]], .ok [[4]]] := by
  have hStart : Dialled (filesWith [1]) (some "bootstrap.json") [] mtlsProxy :=
    .start ⟨rfl, rfl, rfl, rfl, rfl⟩ rfl
  have hApply := hStart.call 0 .idle (.apply tlsConfigured)
  have hApplied := ((hApply.runWith [1] 0).runWith [1] 0).runWith [1] 0
  have hFirst := hApplied.call 1 .idle (.forward sampleRequest)
  have hSent := (((hFirst.runWith [1] 1).runWith [1] 1).runWith [1] 1).runWith [1] 1
  have hSecond := hSent.call 2 .idle (.forward sampleRequest)
  have hBoth := (((hSecond.runWith [4] 2).runWith [4] 2).runWith [4] 2).runWith [4] 2
  exact ⟨_, _, hBoth, by decide +kernel, by decide +kernel⟩

/-- The second request still goes through the client that was built from the first certificates. -/
theorem rotatedFiles_unnoticed : ∃ first second bootstrap s,
    Dialled (filesWith [1]) (some "bootstrap.json") [first, second] s ∧
    first.files.pemCerts [] = .ok [[1]] ∧ second.files.pemCerts [] = .ok [[4]] ∧
    second.client = first.client ∧ first.Builds bootstrap := by
  obtain ⟨log, s, hRun, hSettings, hCerts⟩ := rotatedFiles_dialled
  obtain ⟨first, rest, rfl, hFirst, hRest⟩ := List.map_eq_cons_iff.mp hSettings
  obtain ⟨second, others, rfl, hSecond, hOthers⟩ := List.map_eq_cons_iff.mp hRest
  obtain rfl := List.map_eq_nil_iff.mp hOthers
  simp only [List.map_cons, List.map_nil, List.cons.injEq, and_true] at hCerts
  obtain ⟨-, bootstrap, builder, -, -, hFind, hClient, hBuilds, -⟩ :=
    (mtls_calls_share_clients hRun).2 second (by simp)
  have hKey : first.key = second.key := by rw [Dial.key, Dial.key, hFirst, hSecond]
  rw [List.find?_cons_of_pos (by simpa using hKey)] at hFind
  cases hFind
  exact ⟨first, second, bootstrap, s, hRun, hCerts.1, hCerts.2, hClient.symm, hBuilds⟩

end Dxgate
