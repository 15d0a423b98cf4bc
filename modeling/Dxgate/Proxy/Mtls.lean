import Dxgate.Core.Config
import Dxgate.Lib.SortedMap

/-! # Clients for upstream mutual TLS

A client is built from the certificate providers of the bootstrap file and kept under a text key made
of the TLS settings it was asked for. Reading and parsing the certificate files, and the TLS library's
own check of certificate and key, are an oracle.
-/

namespace Dxgate

set_option autoImplicit false

open Collections

structure FileWatcherConfig where
  certificateFile : Option String
  privateKeyFile : Option String
  caCertificateFile : Option String
  deriving DecidableEq

structure GrpcBootstrap where
  certificateProviders : SortedMap String FileWatcherConfig
  deriving DecidableEq

/-- What the file system and the TLS library answer, and how a string is printed for debugging. -/
structure TlsOracle where
  debugText : String → String
  loadCerts : String → String → Except String (List (List UInt8))
  loadPrivateKey : String → Except String (List UInt8)
  loadRoots : String → Except String (List (List UInt8))
  clientAuthError : List (List UInt8) → List UInt8 → Option String

def GrpcBootstrap.provider (oracle : TlsOracle) (bootstrap : GrpcBootstrap) (name : String) :
    Except String FileWatcherConfig :=
  match bootstrap.certificateProviders.get name with
  | some config => .ok config
  | none => .error ("certificate_providers[" ++ oracle.debugText name ++ "] not found")

def FileWatcherConfig.requiredPath (oracle : TlsOracle) (config : FileWatcherConfig)
    (field provider : String) : Except String String :=
  let required (path : Option String) : Except String String :=
    match path with
    | some path => .ok path
    | none =>
      .error ("certificate_providers[" ++ oracle.debugText provider ++ "].config." ++ field ++
        " is required")
  if field = "certificate_file" then required config.certificateFile
  else if field = "private_key_file" then required config.privateKeyFile
  else if field = "ca_certificate_file" then required config.caCertificateFile
  else .error ("unknown file watcher field " ++ field)

structure ClientConfig where
  certs : List (List UInt8)
  key : List UInt8
  roots : List (List UInt8)
  deriving DecidableEq

structure MtlsClient where
  config : ClientConfig
  serverName : Option String
  deriving DecidableEq

def UpstreamTls.certProvider (tls : UpstreamTls) : String := tls.certificateProvider.getD "default"

def UpstreamTls.rootProvider (tls : UpstreamTls) : String := tls.validationProvider.getD "default"

def tlsConfig (oracle : TlsOracle) (bootstrap : GrpcBootstrap) (tls : UpstreamTls) :
    Except String ClientConfig := do
  let certConfig ← bootstrap.provider oracle tls.certProvider
  let rootConfig ← bootstrap.provider oracle tls.rootProvider
  let certFile ← certConfig.requiredPath oracle "certificate_file" tls.certProvider
  let keyFile ← certConfig.requiredPath oracle "private_key_file" tls.certProvider
  let caFile ← rootConfig.requiredPath oracle "ca_certificate_file" tls.rootProvider
  let certs ← oracle.loadCerts certFile "data-plane client certificate"
  let key ← oracle.loadPrivateKey keyFile
  let roots ← oracle.loadRoots caFile
  match oracle.clientAuthError certs key with
  | some err => .error ("build data-plane mTLS client config: " ++ err)
  | none => .ok ⟨certs, key, roots⟩

def mtlsCacheKey (tls : UpstreamTls) : String :=
  tls.sni.getD "" ++ "|" ++ tls.certProvider ++ "|" ++ tls.rootProvider ++ "|" ++
    Text.joinWith "," tls.alpnProtocols

structure MtlsClientPool where
  bootstrap : GrpcBootstrap
  clients : SortedMap String MtlsClient
  poisoned : Bool
  deriving DecidableEq

def MtlsClientPool.clientFor (oracle : TlsOracle) (pool : MtlsClientPool) (tls : UpstreamTls) :
    MtlsClientPool × Except String MtlsClient :=
  if pool.poisoned then (pool, .error "mTLS client cache lock poisoned")
  else
    match pool.clients.get (mtlsCacheKey tls) with
    | some client => (pool, .ok client)
    | none =>
      match tlsConfig oracle pool.bootstrap tls with
      | .error err => (pool, .error err)
      | .ok config =>
        let client : MtlsClient := ⟨config, tls.sni.filter (· ≠ "")⟩
        ({ pool with clients := pool.clients.insert (mtlsCacheKey tls) client }, .ok client)

inductive MtlsSupport where
  | disabled
  | available (pool : MtlsClientPool)
  | error (reason : String)
  deriving DecidableEq

end Dxgate
