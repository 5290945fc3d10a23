import Mathlib.Data.Int.Notation
import Mathlib.Data.List.TakeWhile
import Mathlib.Data.Nat.Notation
/-!
# Tls — the factories of `TlsConfig`

`for_client`, `for_server`, `for_psk_client` and `for_psk_server`: each
allocates a configuration and gives nng, call by call, what its arguments
ask for; the first call that fails ends it with the error. A `str` is
encoded and given as a C string, so nng reads no further than a NUL.

nng is a parameter: its constants, the integers its enumerations hold, and
what its calls return and do to a configuration. An argument is a `String`,
which has no lone surrogates; a `str` that has one does not encode.
-/

namespace PyNng

namespace TlsFactory

/-! ## What nng is given -/

/-- A C string. -/
structure CStr where
  bytes : List UInt8
  noNul : 0 ∉ bytes
  deriving DecidableEq, Repr

/-- `s.encode("utf-8")`. -/
def utf8 (s : String) : List UInt8 := s.toUTF8.data.toList

/-- The `const char *` of `s.encode("utf-8")`. -/
def cstr (s : String) : CStr where
  bytes := (utf8 s).takeWhile (· ≠ 0)
  noNul := fun h => by simpa using List.mem_takeWhile_imp h

/-- The calls that configure. -/
inductive Setting
  | serverName (name : CStr)
  | caChain (chain : CStr) (crl : Option CStr)
  | caFile (path : CStr)
  | ownCert (cert key : CStr) (pass : Option CStr)
  | certKeyFile (path : CStr) (pass : Option CStr)
  | authMode (mode : ℤ)
  | version (min max : ℤ)
  | psk (identity : CStr) (key : List UInt8)
  deriving DecidableEq, Repr

/-- What of a configuration a call sets. -/
inductive Slot
  | serverName
  | caChain
  | caFile
  | ownCert
  | certKeyFile
  | authMode
  | version
  | psk (identity : CStr)
  deriving DecidableEq, Repr

def Setting.slot : Setting → Slot
  | .serverName _ => .serverName
  | .caChain .. => .caChain
  | .caFile _ => .caFile
  | .ownCert .. => .ownCert
  | .certKeyFile .. => .certKeyFile
  | .authMode _ => .authMode
  | .version .. => .version
  | .psk identity _ => .psk identity

inductive TlsMode
  | client
  | server
  deriving DecidableEq, Repr

/-- nng, with configurations `σ`. -/
structure Nng (σ : Type) where
  /-- `NNG_TLS_AUTH_MODE_NONE`. -/
  authModeNone : ℤ
  /-- `NNG_TLS_1_2`. -/
  tls12 : ℤ
  /-- `NNG_TLS_1_3`. -/
  tls13 : ℤ
  /-- The integers that convert to `nng_tls_auth_mode` and `nng_tls_version`. -/
  fits : ℤ → Bool
  /-- `nng_tls_config_alloc`. -/
  alloc : TlsMode → Except ℕ σ
  /-- The result and the configuration afterwards. -/
  set : Setting → σ → ℕ × σ

inductive PyError
  | valueError (text : String)
  | overflowError
  /-- What `check_err` makes of a result. -/
  | nng (rv : ℕ)
  deriving DecidableEq, Repr

/-! ## The factories -/

/-- One step of a factory: a call of nng, or an exception. -/
abbrev Step := Except PyError Setting

variable {σ : Type}

/-- The steps, up to the first exception. -/
def Nng.run (nng : Nng σ) : List Step → σ → Except PyError σ
  | [], cfg => .ok cfg
  | .error e :: _, _ => .error e
  | .ok c :: rest, cfg =>
    match nng.set c cfg with
    | (0, cfg') => nng.run rest cfg'
    | (rv + 1, _) => .error (.nng (rv + 1))

/-- `TlsConfig._alloc`, and the steps. -/
def Nng.make (nng : Nng σ) (mode : TlsMode) (steps : List Step) : Except PyError σ :=
  match nng.alloc mode with
  | .error rv => .error (.nng rv)
  | .ok cfg => nng.run steps cfg

/-- The keyword arguments of `for_client` and `for_server`, `server_name` apart. -/
structure CertArgs where
  caPem : Option String := none
  crlPem : Option String := none
  caFile : Option String := none
  certPem : Option String := none
  keyPem : Option String := none
  certFile : Option String := none
  password : Option String := none
  authMode : Option ℤ := none
  minVersion : Option ℤ := none
  maxVersion : Option ℤ := none
  deriving DecidableEq, Repr

def serverNameSteps (serverName : Option String) : List Step :=
  (serverName.map fun name => .ok (.serverName (cstr name))).toList

def CertArgs.caSteps (a : CertArgs) : List Step :=
  match a.caPem, a.crlPem with
  | some ca, crl => [.ok (.caChain (cstr ca) (crl.map cstr))]
  | none, some _ => [.error (.valueError "crl_pem requires ca_pem to be set")]
  | none, none => []

def CertArgs.caFileSteps (a : CertArgs) : List Step :=
  (a.caFile.map fun path => .ok (.caFile (cstr path))).toList

/-- The PEM strings where there are both, else the file. -/
def CertArgs.ownCertSteps (a : CertArgs) : List Step :=
  match a.certPem, a.keyPem, a.certFile with
  | some cert, some key, _ => [.ok (.ownCert (cstr cert) (cstr key) (a.password.map cstr))]
  | _, _, some path => [.ok (.certKeyFile (cstr path) (a.password.map cstr))]
  | _, _, none => []

def Nng.authModeSteps (nng : Nng σ) (authMode : Option ℤ) : List Step :=
  (authMode.map fun mode =>
    if nng.fits mode then .ok (.authMode mode) else .error .overflowError).toList

/-- One bound is enough; the other is then nng's own. -/
def Nng.versionSteps (nng : Nng σ) : Option ℤ → Option ℤ → List Step
  | none, none => []
  | min, max =>
    let lo := min.getD nng.tls12
    let hi := max.getD nng.tls13
    [if nng.fits lo ∧ nng.fits hi then .ok (.version lo hi) else .error .overflowError]

/-- **`TlsConfig.for_client`.** -/
def Nng.forClient (nng : Nng σ) (serverName : Option String) (a : CertArgs) : Except PyError σ :=
  nng.make .client
    (serverNameSteps serverName ++ a.caSteps ++ a.caFileSteps ++ a.ownCertSteps ++
      nng.authModeSteps a.authMode ++ nng.versionSteps a.minVersion a.maxVersion)

/-- **`TlsConfig.for_server`.** -/
def Nng.forServer (nng : Nng σ) (a : CertArgs) : Except PyError σ :=
  nng.make .server
    (a.ownCertSteps ++ a.caSteps ++ a.caFileSteps ++ nng.authModeSteps a.authMode ++
      nng.versionSteps a.minVersion a.maxVersion)

def pskSteps (psks : List (String × List UInt8)) : List Step :=
  psks.map fun p => .ok (.psk (cstr p.1) p.2)

/-- **`TlsConfig.for_psk_client`.** -/
def Nng.forPskClient (nng : Nng σ) (identity : String) (key : List UInt8)
    (minVersion maxVersion : Option ℤ) : Except PyError σ :=
  nng.make .client
    (.ok (.authMode nng.authModeNone) :: pskSteps [(identity, key)] ++
      nng.versionSteps minVersion maxVersion)

/-- **`TlsConfig.for_psk_server`**; `psks` are the items of the dict. -/
def Nng.forPskServer (nng : Nng σ) (psks : List (String × List UInt8))
    (minVersion maxVersion : Option ℤ) : Except PyError σ :=
  if psks = [] then .error (.valueError "psks must not be empty")
  else nng.make .server (pskSteps psks ++ nng.versionSteps minVersion maxVersion)

end TlsFactory

end PyNng
