import ClusterRouter.Foundation.TrimSpace

/-! A header map sends a name in its canonical spelling to the values it was sent with. For the
names HTTP allows that is the same as comparing names without regard to case. -/

set_option autoImplicit false

namespace ClusterRouter.Foundation

def isTokenByte (b : UInt8) : Bool :=
  Bytes.isDigit b || Bytes.isUpper b || Bytes.isLower b || decide (b ∈ lit "!#$%&'*+-.^_`|~")

/-- The spelling of a header name: a letter is a capital at the start and after a
hyphen, and small elsewhere. -/
def canonicalBytes : Bool → Bytes → Bytes
  | _, [] => []
  | capital, b :: rest =>
    (if capital then Bytes.toUpper b else Bytes.toLower b) :: canonicalBytes (decide (b = 45)) rest

def isToken (s : Bytes) : Bool := !s.isEmpty && s.all isTokenByte

private theorem byte_facts (n : Fin 256) :
    let b := UInt8.ofFin n
    Bytes.toUpper (Bytes.toLower b) = Bytes.toUpper b ∧
    Bytes.toLower (Bytes.toUpper b) = Bytes.toLower b ∧
    Bytes.toLower (Bytes.toLower b) = Bytes.toLower b ∧
    Bytes.toUpper (Bytes.toUpper b) = Bytes.toUpper b ∧
    (Bytes.toLower b = 45 ↔ b = 45) ∧ (Bytes.toUpper b = 45 ↔ b = 45) ∧
    isTokenByte (Bytes.toLower b) = isTokenByte b ∧
    isTokenByte (Bytes.toUpper b) = isTokenByte b ∧
    (isTokenByte b = true → Bytes.isVisible b = true) := by
  have marks : lit "!#$%&'*+-.^_`|~" =
      [33, 35, 36, 37, 38, 39, 42, 43, 45, 46, 94, 95, 96, 124, 126] := rfl
  unfold isTokenByte
  rw [marks]
  revert n
  decide +kernel

theorem canonicalBytes_map_toLower (capital : Bool) (s : Bytes) :
    canonicalBytes capital (s.map Bytes.toLower) = canonicalBytes capital s := by
  induction s generalizing capital with
  | nil => rfl
  | cons b rest ih =>
    obtain ⟨upper, _, lower, _, hyphen, _⟩ := byte_facts b.toFin
    simp only [List.map_cons, canonicalBytes, ih]
    congr 1
    · cases capital with
      | true => exact upper
      | false => exact lower
    · exact congrArg (fun flag => canonicalBytes flag rest) (decide_eq_decide.mpr hyphen)

theorem map_toLower_canonicalBytes (capital : Bool) (s : Bytes) :
    (canonicalBytes capital s).map Bytes.toLower = s.map Bytes.toLower := by
  induction s generalizing capital with
  | nil => rfl
  | cons b rest ih =>
    obtain ⟨_, upper, lower, _⟩ := byte_facts b.toFin
    simp only [List.map_cons, canonicalBytes, ih]
    congr 1
    cases capital with
    | true => exact upper
    | false => exact lower

theorem canonicalBytes_canonicalBytes (s : Bytes) :
    canonicalBytes true (canonicalBytes true s) = canonicalBytes true s := by
  rw [← canonicalBytes_map_toLower, map_toLower_canonicalBytes, canonicalBytes_map_toLower]

theorem isToken_canonicalBytes (s : Bytes) : isToken (canonicalBytes true s) = isToken s := by
  have general : ∀ capital, (canonicalBytes capital s).all isTokenByte = s.all isTokenByte := by
    induction s with
    | nil => simp [canonicalBytes]
    | cons b rest ih =>
      intro capital
      obtain ⟨_, _, _, _, _, _, lower, upper, _⟩ := byte_facts b.toFin
      simp only [canonicalBytes, List.all_cons, ih]
      congr 1
      cases capital with
      | true => exact upper
      | false => exact lower
  have empty : (canonicalBytes true s).isEmpty = s.isEmpty := by
    cases s <;> rfl
  unfold isToken
  rw [general, empty]

/-! A token holds no white space, so trimming leaves it alone. -/

theorem trimSpace_of_isToken {s : Bytes} (token : isToken s = true) : Bytes.trimSpace s = s := by
  simp only [isToken, Bool.and_eq_true, List.all_eq_true] at token
  refine (Bytes.trimmed_of_visible fun b member => ?_).trimSpace_eq
  obtain ⟨_, _, _, _, _, _, _, _, visible⟩ := byte_facts b.toFin
  exact visible (token.2 b member)

/-- A header name in its canonical spelling. -/
structure HeaderName where
  text : Bytes
  token : isToken text = true
  canonical : canonicalBytes true text = text
deriving DecidableEq

def userAgent : HeaderName := ⟨lit "User-Agent", by decide, by decide⟩

namespace HeaderName

def parse (s : Bytes) : Option HeaderName :=
  if valid : isToken s = true then
    some ⟨canonicalBytes true s, (isToken_canonicalBytes s).trans valid,
      canonicalBytes_canonicalBytes s⟩
  else none

@[ext]
theorem ext {first second : HeaderName} (same : first.text = second.text) : first = second := by
  cases first
  cases second
  cases same
  rfl

theorem parse_text (name : HeaderName) : parse name.text = some name := by
  unfold parse
  rw [dif_pos name.token]
  exact congrArg some (HeaderName.ext name.canonical)

theorem parse_eq_some {s : Bytes} {name : HeaderName} (parsed : parse s = some name) :
    isToken s = true ∧ name.text = canonicalBytes true s := by
  unfold parse at parsed
  split at parsed
  next valid =>
    cases parsed
    exact ⟨valid, rfl⟩
  next => cases parsed

theorem parse_of_isToken {s : Bytes} (token : isToken s = true) : ∃ name, parse s = some name := by
  unfold parse
  rw [dif_pos token]
  exact ⟨_, rfl⟩

/-- Two spellings name the same header exactly when they differ in case only. -/
theorem equalFold_iff {s : Bytes} {name spelled : HeaderName} (parsed : parse s = some spelled) :
    Bytes.equalFold name.text s = true ↔ name = spelled := by
  obtain ⟨_, written⟩ := parse_eq_some parsed
  unfold Bytes.equalFold
  rw [decide_eq_true_iff]
  constructor
  · intro folded
    apply HeaderName.ext
    rw [written, ← canonicalBytes_map_toLower, ← folded, canonicalBytes_map_toLower, name.canonical]
  · rintro rfl
    rw [written, map_toLower_canonicalBytes]

end HeaderName

/-- Absent and sent without a value are one: nothing is written for either. -/
abbrev Header := HeaderName → List Bytes

namespace Header

def empty : Header := fun _ => []

def get (header : Header) (name : HeaderName) : Bytes := (header name).headD []

def set (header : Header) (name : HeaderName) (value : Bytes) : Header :=
  Function.update header name [value]

def del (header : Header) (name : HeaderName) : Header := Function.update header name []

def add (header : Header) (name : HeaderName) (value : Bytes) : Header :=
  Function.update header name (header name ++ [value])

/-- The map read from the header lines of a request; a name that is no token is an
error, as it is for the server. -/
def ofLines (lines : List (Bytes × Bytes)) : Option Header :=
  lines.foldlM (fun header line =>
    (HeaderName.parse line.1).map (fun name => header.add name line.2)) empty

@[simp] theorem set_same (header : Header) (name : HeaderName) (value : Bytes) :
    header.set name value name = [value] := Function.update_self ..

theorem set_other {name other : HeaderName} (different : other ≠ name) (header : Header)
    (value : Bytes) : header.set name value other = header other :=
  Function.update_of_ne different ..

@[simp] theorem del_same (header : Header) (name : HeaderName) : header.del name name = [] :=
  Function.update_self ..

theorem del_other {name other : HeaderName} (different : other ≠ name) (header : Header) :
    header.del name other = header other :=
  Function.update_of_ne different ..

theorem ofLines_apply {lines : List (Bytes × Bytes)} {header : Header}
    (read : ofLines lines = some header) (name : HeaderName) :
    header name =
      (lines.filter (fun line => decide (HeaderName.parse line.1 = some name))).map Prod.snd := by
  have general : ∀ start : Header,
      lines.foldlM (fun header line =>
        (HeaderName.parse line.1).map (fun name => header.add name line.2)) start = some header →
      header name = start name ++
        (lines.filter (fun line => decide (HeaderName.parse line.1 = some name))).map Prod.snd := by
    clear read
    induction lines with
    | nil =>
      intro start same
      cases same
      simp
    | cons line rest ih =>
      intro start read
      rw [List.foldlM_cons] at read
      cases spelled : HeaderName.parse line.1 with
      | none =>
        rw [spelled] at read
        cases read
      | some first =>
        rw [spelled] at read
        rw [ih _ read]
        by_cases same : first = name
        · subst same
          simp [add, spelled]
        · have different : name ≠ first := fun equal => same equal.symm
          simp [add, spelled, same, Function.update_of_ne different]
  simpa [empty] using general empty read

end Header

end ClusterRouter.Foundation
