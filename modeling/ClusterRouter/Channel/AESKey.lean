import ClusterRouter.Channel.Validate
import ClusterRouter.Foundation.Base64

/-! `ResolveAESKey` and `parseAESKey` (`internal/channel/config.go`) over the three backends of
`NewDefaultSecretProvider`. Every step trims white space, which a key given as raw bytes does
not survive. -/

set_option autoImplicit false

namespace ClusterRouter.Channel

open Foundation

/-! ## The default provider -/

/-- What the environment, the file system and the vault hold. -/
structure Backends where
  lookup : Bytes → Option Bytes
  read : Bytes → Option Bytes
  run : Bytes → Option Bytes

def Backends.content (backends : Backends) (ref : Bytes) : Option Bytes :=
  match refScheme ref with
  | none => none
  | some .env =>
    let name := Bytes.trimPrefix Scheme.env.text ref
    if name = [] then none else backends.lookup name
  | some .file =>
    let path := Bytes.trimPrefix Scheme.file.text ref
    if path = [] then none else backends.read path
  | some .op =>
    match parseOPRef ref with
    | .ok _ => backends.run ref
    | .error _ => none

/-- The three providers trim what they find and refuse what is then empty. -/
def newDefaultSecretProvider (backends : Backends) : SecretProvider := fun ref =>
  (backends.content ref).bind (fun raw =>
    if Bytes.trimSpace raw = [] then none else some (Bytes.trimSpace raw))

/-! ## The key -/

structure AESKey where
  bytes : Bytes
  length_bytes : bytes.length = 32
  deriving DecidableEq

theorem AESKey.ext {first second : AESKey} (same : first.bytes = second.bytes) : first = second := by
  cases first
  cases second
  cases same
  rfl

theorem length_take_padded (b : Bytes) : ((b ++ List.replicate 32 0).take 32).length = 32 := by
  simp

def copyKey (b : Bytes) : AESKey := ⟨(b ++ List.replicate 32 0).take 32, length_take_padded b⟩

@[simp] theorem copyKey_bytes (key : AESKey) : copyKey key.bytes = key := by
  apply AESKey.ext
  unfold copyKey
  dsimp only
  rw [List.take_append_of_le_length key.length_bytes.ge]
  exact List.take_of_length_le key.length_bytes.le

inductive AESKeyError where
  | noSource
  | unresolved (cause : CredentialError)
  | notHex
  | unexpected (chars : Nat)
  deriving DecidableEq, Repr

def parseAESKey (material : Bytes) : Except AESKeyError AESKey :=
  let s := Bytes.trimSpace material
  if s.length = 64 then
    match hexDecode s with
    | none => .error .notHex
    | some b => .ok (copyKey b)
  else if s.length = 32 then .ok (copyKey s)
  else
    match Base64.decode s with
    | none => .error (.unexpected s.length)
    | some b => if b.length = 32 then .ok (copyKey b) else .error (.unexpected s.length)

def resolveAESKey (backends : Backends) (a : AESConfig) : Except AESKeyError AESKey :=
  let refs := secretRefs a.keyRef a.keyEnv a.keyFile
  if refs = [] then .error .noSource
  else
    match resolveFirst (fun _ => newDefaultSecretProvider backends) refs [] with
    | .error cause => .error (.unresolved cause)
    | .ok (material, _) => parseAESKey material

/-! ## From the source to the parser -/

/-- The first source of a configuration that resolves holds `material`. -/
def Supplies (backends : Backends) (a : AESConfig) (material : Bytes) : Prop :=
  ∃ earlier ref later, secretRefs a.keyRef a.keyEnv a.keyFile = earlier ++ ref :: later ∧
    (∀ other ∈ earlier, newDefaultSecretProvider backends other = none) ∧
    backends.content ref = some material

theorem firstSecret_append {secrets : SecretProvider} {earlier later : List Bytes}
    (unresolved : ∀ ref ∈ earlier, secrets ref = none) (asked : List Bytes) :
    firstSecret (fun _ => secrets) (earlier ++ later) asked =
      firstSecret (fun _ => secrets) later (asked ++ earlier) := by
  induction earlier generalizing asked with
  | nil => rw [List.nil_append, List.append_nil]
  | cons ref rest ih =>
    rw [List.cons_append, firstSecret, unresolved ref List.mem_cons_self,
      List.append_cons asked ref rest]
    exact ih (fun other member => unresolved other (List.mem_cons_of_mem ref member)) _

theorem parseAESKey_congr {first second : Bytes}
    (same : Bytes.trimSpace first = Bytes.trimSpace second) :
    parseAESKey first = parseAESKey second := by
  unfold parseAESKey
  rw [same]

variable {material : Bytes}

theorem resolveAESKey_eq {backends : Backends} {a : AESConfig}
    (supplies : Supplies backends a material) (nonblank : Bytes.trimSpace material ≠ []) :
    resolveAESKey backends a = parseAESKey material := by
  obtain ⟨earlier, ref, later, refs, unresolved, content⟩ := supplies
  have answered : newDefaultSecretProvider backends ref = some (Bytes.trimSpace material) := by
    rw [newDefaultSecretProvider, content, Option.bind_some, if_neg nonblank]
  have first : firstSecret (fun _ => newDefaultSecretProvider backends) (earlier ++ ref :: later) [] =
      some (Bytes.trimSpace material, [] ++ earlier ++ [ref]) := by
    rw [firstSecret_append unresolved, firstSecret, answered, Option.map_some,
      Bytes.trimSpace_trimSpace]
    cases shape : Bytes.trimSpace material with
    | nil => exact absurd shape nonblank
    | cons b rest => rfl
  have sources : earlier ++ ref :: later ≠ [] := by simp
  unfold resolveAESKey resolveFirst
  dsimp only
  rw [refs, if_neg sources, if_neg sources, first]
  exact parseAESKey_congr (Bytes.trimSpace_trimSpace material)

/-! ## The three forms of a key -/

/-- The texts a source may hold for a key: its bytes, its hexadecimal digits in either
case, its standard base64. -/
inductive KeyText (key : AESKey) : Bytes → Prop where
  | raw : KeyText key key.bytes
  | hex (text : Bytes) (digits : text.map Bytes.toLower = hexEncode key.bytes) : KeyText key text
  | base64 : KeyText key (Base64.encode key.bytes)

theorem parseAESKey_hex {key : AESKey} {text : Bytes}
    (digits : text.map Bytes.toLower = hexEncode key.bytes) :
    Bytes.Trimmed text ∧ text ≠ [] ∧ parseAESKey text = .ok key := by
  have decoded : hexDecode text = some key.bytes := by
    rw [← hexDecode_map_toLower, digits, hexDecode_hexEncode]
  have length : text.length = 64 := by
    rw [← List.length_map Bytes.toLower, digits, length_hexEncode, key.length_bytes]
  have trimmed : Bytes.Trimmed text := Bytes.trimmed_of_visible (isVisible_of_hexDecode decoded)
  refine ⟨trimmed, fun empty => by simp [empty] at length, ?_⟩
  unfold parseAESKey
  dsimp only
  rw [trimmed.trimSpace_eq, if_pos length, decoded]
  dsimp only
  rw [copyKey_bytes]

theorem parseAESKey_base64 (key : AESKey) :
    Bytes.Trimmed (Base64.encode key.bytes) ∧ Base64.encode key.bytes ≠ [] ∧
      parseAESKey (Base64.encode key.bytes) = .ok key := by
  have length : (Base64.encode key.bytes).length = 44 := by
    rw [Base64.length_encode, key.length_bytes]
  have trimmed := Bytes.trimmed_of_visible (Base64.isVisible_encode key.bytes)
  refine ⟨trimmed, fun empty => by simp [empty] at length, ?_⟩
  unfold parseAESKey
  dsimp only
  rw [trimmed.trimSpace_eq, length, if_neg (by decide), if_neg (by decide), Base64.decode_encode]
  dsimp only
  rw [if_pos key.length_bytes, copyKey_bytes]

theorem parseAESKey_short (short : (Bytes.trimSpace material).length < 32) :
    parseAESKey material = .error (.unexpected (Bytes.trimSpace material).length) := by
  unfold parseAESKey
  dsimp only
  rw [if_neg (by omega), if_neg (by omega)]
  split
  · rfl
  next decoded read =>
    have bounded := Base64.length_of_decode read
    rw [if_neg (by omega)]

theorem parseAESKey_raw_iff (key : AESKey) :
    parseAESKey key.bytes = .ok key ↔ Bytes.Trimmed key.bytes := by
  constructor
  · intro read
    by_contra untrimmed
    have short : (Bytes.trimSpace key.bytes).length < 32 :=
      (Bytes.length_trimSpace_lt untrimmed).trans_eq key.length_bytes
    rw [parseAESKey_short short] at read
    cases read
  · intro trimmed
    unfold parseAESKey
    dsimp only
    rw [trimmed.trimSpace_eq, key.length_bytes, if_neg (by decide), if_pos rfl, copyKey_bytes]

theorem parseAESKey_keyText {key : AESKey} {text : Bytes} (isText : KeyText key text)
    (trimmed : Bytes.Trimmed key.bytes) :
    Bytes.Trimmed text ∧ text ≠ [] ∧ parseAESKey text = .ok key := by
  cases isText with
  | raw =>
    refine ⟨trimmed, fun empty => ?_, (parseAESKey_raw_iff key).mpr trimmed⟩
    have length := key.length_bytes
    rw [empty] at length
    cases length
  | hex text digits => exact parseAESKey_hex digits
  | base64 => exact parseAESKey_base64 key

/-! ## Every form of a key -/

def envKeyConfig : AESConfig where
  enabled := true
  listen := lit "127.0.0.1:15443"
  keyEnv := lit "KEY"
  keyFile := []
  keyRef := []
  tls := ⟨lit "cert.pem", lit "key.pem"⟩

def envBackends (material : Bytes) : Backends where
  lookup := fun _ => some material
  read := fun _ => none
  run := fun _ => none

theorem envBackends_supplies (material : Bytes) :
    Supplies (envBackends material) envKeyConfig material :=
  ⟨[], lit "env:KEY", [], rfl, by simp, rfl⟩

theorem resolveAESKey_env_blank (blank : Bytes.trimSpace material = []) :
    resolveAESKey (envBackends material) envKeyConfig =
      .error (.unresolved (.unresolved [lit "env:KEY"])) := by
  have refused : newDefaultSecretProvider (envBackends material) (lit "env:KEY") = none := by
    have content : (envBackends material).content (lit "env:KEY") = some material := rfl
    rw [newDefaultSecretProvider, content, Option.bind_some, if_pos blank]
  have refs : secretRefs envKeyConfig.keyRef envKeyConfig.keyEnv envKeyConfig.keyFile =
      [lit "env:KEY"] := rfl
  have sources : [lit "env:KEY"] ≠ [] := by simp
  unfold resolveAESKey resolveFirst
  dsimp only
  rw [refs, if_neg sources, if_neg sources, firstSecret, refused]
  rfl

/-- Every source that holds a key as raw bytes, in hexadecimal digits or in base64, with or
without a newline after it, gives the key back, exactly for the keys that neither begin nor
end with white space. -/
theorem aes_key_decodes_iff (key : AESKey) :
    (∀ backends a text newline, KeyText key text → newline = [] ∨ newline = [10] →
      Supplies backends a (text ++ newline) → resolveAESKey backends a = .ok key) ↔
      Bytes.Trimmed key.bytes := by
  constructor
  · intro decodes
    have resolved := decodes (envBackends key.bytes) envKeyConfig key.bytes [] .raw (.inl rfl)
      (by simpa using envBackends_supplies key.bytes)
    by_cases blank : Bytes.trimSpace key.bytes = []
    · rw [resolveAESKey_env_blank blank] at resolved
      cases resolved
    · rw [resolveAESKey_eq (envBackends_supplies key.bytes) blank] at resolved
      exact (parseAESKey_raw_iff key).mp resolved
  · intro trimmed backends a text newline isText ends supplies
    obtain ⟨unpadded, nonempty, read⟩ := parseAESKey_keyText isText trimmed
    have same : Bytes.trimSpace (text ++ newline) = Bytes.trimSpace text := by
      rcases ends with rfl | rfl
      · rw [List.append_nil]
      · exact Bytes.trimSpace_append_newline text
    have nonblank : Bytes.trimSpace (text ++ newline) ≠ [] := by
      rw [same, unpadded.trimSpace_eq]
      exact nonempty
    rw [resolveAESKey_eq supplies nonblank, parseAESKey_congr same]
    exact read

def spacedKey : AESKey := ⟨32 :: List.replicate 31 65, rfl⟩

theorem aes_key_spaced_refused :
    KeyText spacedKey spacedKey.bytes ∧
      Supplies (envBackends spacedKey.bytes) envKeyConfig spacedKey.bytes ∧
      resolveAESKey (envBackends spacedKey.bytes) envKeyConfig = .error (.unexpected 31) :=
  ⟨.raw, envBackends_supplies spacedKey.bytes, by decide +kernel⟩

end ClusterRouter.Channel
