import ClusterRouter.Foundation.Json

/-! `Redact` of `internal/proxy/observability/redaction.go`. What is replaced is the prefix of a
credential and not the credential, and only that of the first pattern a field contains. -/

set_option autoImplicit false

namespace ClusterRouter.Observability

open Foundation

structure RedactionPattern where
  name : Bytes
  pattern : Bytes
  deriving DecidableEq, Repr

def redactionPatterns : List RedactionPattern :=
  [⟨lit "ghp", lit "ghp_"⟩, ⟨lit "sk", lit "sk-"⟩, ⟨lit "ops_eyJ", lit "ops_eyJ"⟩,
    ⟨lit "akia", lit "AKIA"⟩]

def RedactionPattern.replacement (p : RedactionPattern) : Bytes :=
  lit "[REDACTED-" ++ p.name ++ lit "]"

/-- One step of `strings.ReplaceAll`, for a text to be replaced that is not empty. -/
def replaceStep (old new : Bytes) (s : Bytes) : Bytes × Nat :=
  if old.isPrefixOf s then (new, old.length) else (s.take 1, 1)

def replaceAll (s old new : Bytes) : Bytes := Json.transcribe (replaceStep old new) 0 s

def scrub (s : Bytes) : Bytes :=
  if s = [] then s
  else
    match redactionPatterns.find? (fun p => decide (p.pattern <:+: s)) with
    | none => s
    | some p => replaceAll s p.pattern p.replacement

structure AgentraceEvent where
  ts : Bytes
  event : Bytes
  listener : Bytes
  remoteAddr : Bytes
  bytesIn : Int
  bytesOut : Int
  durationMS : Int
  deriving DecidableEq, Repr

def redact (ev : AgentraceEvent) : AgentraceEvent :=
  { ev with
    ts := scrub ev.ts
    event := scrub ev.event
    listener := scrub ev.listener
    remoteAddr := scrub ev.remoteAddr }

/-! ## Versions of an event -/

def isSpace (b : UInt8) : Bool := decide (b = 32 ∨ 9 ≤ b ∧ b ≤ 13)

/-- No known prefix of a credential occurs in a string. -/
def Plain (s : Bytes) : Prop := ∀ p ∈ redactionPatterns, ¬ p.pattern <:+: s

/-- Two strings that differ only in the characters of tokens after known prefixes. A token
goes on to the next space. -/
inductive Version : Bytes → Bytes → Prop where
  | nil : Version [] []
  | keep (b : UInt8) {s other : Bytes} (rest : Version s other) : Version (b :: s) (b :: other)
  | token {p : RedactionPattern} (known : p ∈ redactionPatterns) {one another s other : Bytes}
      (isToken : ∀ b ∈ one, isSpace b = false) (alsoToken : ∀ b ∈ another, isSpace b = false)
      (ends : s.head?.all isSpace = true) (rest : Version s other) :
      Version (p.pattern ++ one ++ s) (p.pattern ++ another ++ other)

structure VersionOf (ev other : AgentraceEvent) : Prop where
  ts : Version ev.ts other.ts
  event : Version ev.event other.event
  listener : Version ev.listener other.listener
  remoteAddr : Version ev.remoteAddr other.remoteAddr
  numbers : (ev.bytesIn, ev.bytesOut, ev.durationMS) =
    (other.bytesIn, other.bytesOut, other.durationMS)

def AgentraceEvent.strings (ev : AgentraceEvent) : List Bytes :=
  [ev.ts, ev.event, ev.listener, ev.remoteAddr]

section

variable {s other : Bytes}

theorem Version.refl (s : Bytes) : Version s s := by
  induction s with
  | nil => exact .nil
  | cons b rest ih => exact .keep b ih

theorem Version.append (front : Bytes) (rest : Version s other) :
    Version (front ++ s) (front ++ other) := by
  induction front with
  | nil => exact rest
  | cons b front ih => exact .keep b ih

theorem Version.eq_of_plain (version : Version s other) (plain : Plain s) : other = s := by
  induction version with
  | nil => rfl
  | keep b rest ih =>
    rw [ih fun p known inside => plain p known (inside.trans (List.infix_cons (List.infix_refl _)))]
  | @token p known one another s other isToken alsoToken ends rest ih =>
    exact absurd ⟨[], one ++ s, by simp⟩ (plain p known)

theorem scrub_of_plain (plain : Plain s) : scrub s = s := by
  have unmatched : redactionPatterns.find? (fun p => decide (p.pattern <:+: s)) = none := by
    rw [List.find?_eq_none]
    intro p known
    simpa using plain p known
  unfold scrub
  rw [unmatched]
  split
  · rfl
  · rfl

theorem length_le_replaceAll {old new : Bytes} (nonempty : old ≠ []) (longer : old.length ≤ new.length)
    (s : Bytes) : s.length ≤ (replaceAll s old new).length := by
  have passed (passing : Nat) :
      s.length ≤ (Json.transcribe (replaceStep old new) passing s).length + passing := by
    induction s generalizing passing with
    | nil => simp [Json.transcribe]
    | cons b rest ih =>
      cases passing with
      | succ passing =>
        have next := ih passing
        simp only [Json.transcribe, List.length_cons]
        omega
      | zero =>
        have positive := List.length_pos_of_ne_nil nonempty
        simp only [Json.transcribe, replaceStep, List.length_append, List.length_cons]
        split
        · have next := ih (old.length - 1)
          dsimp only
          omega
        · have next := ih 0
          simp only [List.take_succ_cons, List.take_zero, List.length_singleton, Nat.sub_self]
          omega
  exact passed 0

theorem length_le_scrub (s : Bytes) : s.length ≤ (scrub s).length := by
  unfold scrub
  split
  · exact le_rfl
  split
  · exact le_rfl
  next p found =>
    have sizes : ∀ p ∈ redactionPatterns, p.pattern ≠ [] ∧
        p.pattern.length ≤ p.replacement.length := by
      decide
    have known := sizes p (List.mem_of_find?_eq_some found)
    exact length_le_replaceAll known.1 known.2 s

/-- A token may be any length, and the redacted string is at least as long. -/
theorem plain_of_scrub_eq (hidden : ∀ other, Version s other → scrub other = scrub s) : Plain s := by
  rintro p known ⟨front, tail, rfl⟩
  have parts : front ++ p.pattern ++ tail =
      front ++ (p.pattern ++ tail.takeWhile (fun b => !isSpace b) ++
        tail.dropWhile (fun b => !isSpace b)) := by
    simp
  have ends : (tail.dropWhile (fun b => !isSpace b)).head?.all isSpace = true := by
    have stops := List.head?_dropWhile_not (fun b => !isSpace b) tail
    cases last : (tail.dropWhile (fun b => !isSpace b)).head? with
    | none => rfl
    | some b => simpa [last] using stops
  let size := (scrub (front ++ p.pattern ++ tail)).length + 1
  have version : Version (front ++ p.pattern ++ tail)
      (front ++ (p.pattern ++ List.replicate size 120 ++ tail.dropWhile (fun b => !isSpace b))) := by
    rw [parts]
    refine .append front (.token known ?_ ?_ ends (.refl _))
    · intro b member
      simpa using List.mem_takeWhile_imp member
    · intro b member
      rw [List.eq_of_mem_replicate member]
      rfl
  have longer := length_le_scrub
    (front ++ (p.pattern ++ List.replicate size 120 ++ tail.dropWhile (fun b => !isSpace b)))
  rw [hidden _ version] at longer
  simp only [List.length_append, List.length_replicate, size] at longer
  omega

end

/-- Redaction hides tokens and leaves no prefix exactly where there is nothing to redact. -/
theorem redaction_hides_iff (ev : AgentraceEvent) :
    ((∀ one another, VersionOf ev one → VersionOf ev another → redact one = redact another) ∧
      ∀ field ∈ (redact ev).strings, Plain field) ↔ ∀ field ∈ ev.strings, Plain field := by
  have same : VersionOf ev ev := ⟨.refl _, .refl _, .refl _, .refl _, rfl⟩
  simp only [AgentraceEvent.strings, List.forall_mem_cons, List.not_mem_nil, false_implies,
    implies_true, and_true]
  constructor
  · rintro ⟨hidden, _⟩
    refine ⟨plain_of_scrub_eq fun other version => ?_, plain_of_scrub_eq fun other version => ?_,
      plain_of_scrub_eq fun other version => ?_, plain_of_scrub_eq fun other version => ?_⟩
    · exact congrArg AgentraceEvent.ts (hidden { ev with ts := other } ev { same with ts := version } same)
    · exact congrArg AgentraceEvent.event
        (hidden { ev with event := other } ev { same with event := version } same)
    · exact congrArg AgentraceEvent.listener
        (hidden { ev with listener := other } ev { same with listener := version } same)
    · exact congrArg AgentraceEvent.remoteAddr
        (hidden { ev with remoteAddr := other } ev { same with remoteAddr := version } same)
  · rintro ⟨ts, event, listener, remoteAddr⟩
    have only (other : AgentraceEvent) (version : VersionOf ev other) : other = ev := by
      have numbers := version.numbers
      obtain ⟨_, _, _, _, _, _, _⟩ := other
      cases version.ts.eq_of_plain ts
      cases version.event.eq_of_plain event
      cases version.listener.eq_of_plain listener
      cases version.remoteAddr.eq_of_plain remoteAddr
      cases numbers
      rfl
    refine ⟨fun one another isOne isAnother => by rw [only one isOne, only another isAnother], ?_⟩
    simp only [redact, scrub_of_plain ts, scrub_of_plain event, scrub_of_plain listener,
      scrub_of_plain remoteAddr]
    exact ⟨ts, event, listener, remoteAddr⟩

def tokenEvent (token : String) : AgentraceEvent :=
  ⟨lit "now", lit "accept", lit "ghp_" ++ lit token ++ lit " sk-beta", [], 0, 0, 0⟩

/-- The characters of a token are left in place, and so is the second prefix. -/
theorem redacted_event_shows_token :
    VersionOf (tokenEvent "alpha") (tokenEvent "gamma") ∧
      redact (tokenEvent "alpha") ≠ redact (tokenEvent "gamma") ∧
      (redact (tokenEvent "alpha")).listener = lit "[REDACTED-ghp]alpha sk-beta" := by
  refine ⟨⟨.refl _, .refl _, ?_, .refl _, rfl⟩, by decide +kernel, by decide +kernel⟩
  exact @Version.token ⟨lit "ghp", lit "ghp_"⟩ (by decide +kernel) (lit "alpha") (lit "gamma") _ _
    (by decide +kernel) (by decide +kernel) (by decide +kernel) (.refl (lit " sk-beta"))

end ClusterRouter.Observability
