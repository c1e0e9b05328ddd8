import ClusterRouter.Foundation.Header
import ClusterRouter.Channel.RotationStore

/-! How a server comes to hold its credentials (`internal/channel/secret.go`), of a provider that
may answer by all it was asked so far, and how one of them is written onto an outbound request
(`internal/channel/auth.go`). -/

set_option autoImplicit false

namespace ClusterRouter.Channel

open Foundation

/-! ## Resolving secrets -/

/-- What a reference resolves to; a failed resolution is `none`. -/
abbrev SecretProvider := Bytes → Option Bytes

/-- What a provider answers once it has been asked for the references of a list. -/
abbrev SecretDialogue := List Bytes → SecretProvider

/-- A construction that has asked for the references of its state. -/
abbrev Asking (Failure : Type) := StateT (List Bytes) (Except Failure)

inductive CredentialError where
  | noSecretSource
  | unresolved (refs : List Bytes)
  | secretEmpty
  | emptyPool
  | duplicate (first second : Nat)
  deriving DecidableEq, Repr

def secretRefs (ref envName filePath : Bytes) : List Bytes :=
  (if ref ≠ [] then [ref] else []) ++
    (if envName ≠ [] then [lit "env:" ++ envName] else []) ++
    (if filePath ≠ [] then [lit "file:" ++ filePath] else [])

def firstSecret (secrets : SecretDialogue) : List Bytes → List Bytes → Option (Bytes × List Bytes)
  | [], _ => none
  | ref :: rest, asked =>
    match (secrets asked ref).map Bytes.trimSpace with
    | some (b :: value) => some (b :: value, asked ++ [ref])
    | _ => firstSecret secrets rest (asked ++ [ref])

def resolveFirst (secrets : SecretDialogue) (refs : List Bytes) : Asking CredentialError Bytes :=
  fun asked =>
    if refs = [] then .error .noSecretSource
    else
      match firstSecret secrets refs asked with
      | some found => .ok found
      | none => .error (.unresolved refs)

inductive AuthMode where
  | inject
  | header
  | passthrough
  deriving DecidableEq, Repr

structure Route where
  name : String
  enabled : Bool
  pathPrefix : Bytes
  upstream : Bytes
  auth : AuthMode
  keyEnv : Bytes
  keyFile : Bytes
  keyRef : Bytes
  keyEnvs : Option (List Bytes)
  keyFiles : Option (List Bytes)
  keyRefs : Option (List Bytes)
  keyHeader : Bytes
  keyPrefix : Bytes
  deriving DecidableEq, Repr

/-- A list that is present but empty is a declared pool. -/
def hasPluralKeys (r : Route) : Bool := r.keyEnvs.isSome || r.keyFiles.isSome || r.keyRefs.isSome

def keySlots (r : Route) : List Bytes :=
  (r.keyEnvs.getD []).map (lit "env:" ++ ·) ++ (r.keyFiles.getD []).map (lit "file:" ++ ·) ++
    r.keyRefs.getD []

def resolveSlot (secrets : SecretDialogue) (ref : Bytes) : Asking CredentialError Bytes := fun asked =>
  match secrets asked ref with
  | none => .error (.unresolved [ref])
  | some value =>
    if Bytes.trimSpace value = [] then .error .secretEmpty
    else .ok (Bytes.trimSpace value, asked ++ [ref])

/-- The first credential that an earlier slot already resolved to, with that slot. -/
def rejectDuplicateCredentials (keys : List Bytes) : Except CredentialError Unit :=
  match (List.range keys.length).find? (fun i => decide (keys.getD i [] ∈ keys.take i)) with
  | none => .ok ()
  | some i => .error (.duplicate (keys.idxOf (keys.getD i [])) i)

def checkKeyPool (keys : List Bytes) : Except CredentialError (List Bytes) := do
  if keys = [] then throw .emptyPool
  rejectDuplicateCredentials keys
  return keys

def resolveKeyPool (r : Route) (secrets : SecretDialogue) : Asking CredentialError (List Bytes) := do
  let keys ← (keySlots r).mapM (resolveSlot secrets)
  checkKeyPool keys

/-! ## Applying a credential -/

inductive Authenticator where
  | bearerInjector (key : Bytes)
  | leasedInjector (key header keyPrefix : Bytes) (mode : AuthMode)
  | rotatingInjector (keys : List Bytes) (mode : AuthMode) (header keyPrefix : Bytes)
  | passthrough
  deriving DecidableEq, Repr

def authorizationName : Bytes := lit "Authorization"

def bearerPrefix : Bytes := lit "Bearer "

/-- The header a route's credential travels in, and what is written before it. -/
def credentialHeader (r : Route) : Bytes :=
  if r.auth = .header then r.keyHeader else authorizationName

def credentialPrefix (r : Route) : Bytes :=
  if r.auth = .header then r.keyPrefix else bearerPrefix

def singleInjector (r : Route) (key : Bytes) : Except CredentialError Authenticator :=
  if Bytes.trimSpace key = [] then .error .secretEmpty
  else if r.auth = .inject then .ok (.bearerInjector key)
  else .ok (.leasedInjector key (credentialHeader r) (credentialPrefix r) .header)

def newAuthenticatorFor (r : Route) (secrets : SecretDialogue) :
    Asking CredentialError Authenticator :=
  if r.auth = .passthrough then return .passthrough
  else if hasPluralKeys r then do
    let keys ← resolveKeyPool r secrets
    return .rotatingInjector keys r.auth (credentialHeader r) (credentialPrefix r)
  else do
    let key ← resolveFirst secrets (secretRefs r.keyRef r.keyEnv r.keyFile)
    singleInjector r key

namespace Authenticator

def mode : Authenticator → AuthMode
  | .bearerInjector _ => .inject
  | .leasedInjector _ _ _ mode => mode
  | .rotatingInjector _ mode _ _ => mode
  | .passthrough => .passthrough

inductive ApplyError where
  | emptyCredential
  | invalidHeaderName
  | leaseRequired
  deriving DecidableEq, Repr

/-- `Header.Set` on a request that is about to be sent: a name that is no token is
refused by the client, and the request never leaves. -/
def setHeader (out : Header) (name value : Bytes) : Except ApplyError Header :=
  match HeaderName.parse name with
  | some key => .ok (out.set key value)
  | none => .error .invalidHeaderName

def authorization : HeaderName :=
  ⟨authorizationName, by decide, by decide⟩

/-- `leasedInjector.Apply` deletes an inbound `Authorization` where it writes another
header. -/
def apply (auth : Authenticator) (out : Header) : Except ApplyError Header :=
  match auth with
  | .bearerInjector key =>
    if key = [] then .error .emptyCredential
    else .ok (out.set authorization (bearerPrefix ++ key))
  | .leasedInjector key header keyPrefix _ =>
    if key = [] then .error .emptyCredential
    else
      let name := if header = [] then authorizationName else header
      let out := if Bytes.equalFold name authorizationName then out else out.del authorization
      setHeader out name (keyPrefix ++ key)
  | .rotatingInjector .. => .error .leaseRequired
  | .passthrough => .ok out

/-- `leaseFor`, from what the store of the route answered: an index the pool does not
have is a drained route. -/
def leaseFor (auth : Authenticator) (granted : Except AdmissionRefusal Nat) :
    Except AdmissionRefusal Authenticator :=
  match auth with
  | .rotatingInjector keys mode header keyPrefix =>
    match granted with
    | .error refusal => .error refusal
    | .ok index =>
      match keys[index]? with
      | some key => .ok (.leasedInjector key header keyPrefix mode)
      | none => .error .drained
  | other => .ok other

end Authenticator

end ClusterRouter.Channel
