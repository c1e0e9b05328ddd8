import ClusterRouter.Foundation.Bytes

/-! Regular expressions with the preferences of a backtracking search: a pattern lists the
places where a match may end, the preferred one first. -/

set_option autoImplicit false

namespace ClusterRouter.Foundation

/-- A place in a text. What is behind it is kept with the nearest byte first. -/
structure Place where
  behind : Bytes
  ahead : Bytes
  deriving DecidableEq, Repr

abbrev Pattern : Type := Place → List Place

namespace Pattern

/-- The class `\w`. -/
def isWord (b : UInt8) : Bool :=
  Bytes.isDigit b || Bytes.isUpper b || Bytes.isLower b || decide (b = 95)

def byte (accepted : UInt8 → Bool) : Pattern := fun place =>
  match place.ahead with
  | [] => []
  | b :: rest => if accepted b then [⟨b :: place.behind, rest⟩] else []

/-- The assertion `\b`. -/
def boundary : Pattern := fun place =>
  if place.behind.head?.any isWord = place.ahead.head?.any isWord then [] else [place]

def andThen (p q : Pattern) : Pattern := fun place => (p place).flatMap q

def orElse (p q : Pattern) : Pattern := fun place => p place ++ q place

def optional (p : Pattern) : Pattern := fun place => p place ++ [place]

def atMost (p : Pattern) : Nat → Pattern
  | 0 => fun place => [place]
  | more + 1 => optional (andThen p (atMost p more))

/-- At least `least` times and at most `more` times beyond that, as often as possible. -/
def repeated (p : Pattern) : Nat → Nat → Pattern
  | 0, more => atMost p more
  | least + 1, more => andThen p (repeated p least more)

def oneOrMore (p : Pattern) : Pattern := fun place => repeated p 1 place.ahead.length place

def delimited (p : Pattern) : Pattern := andThen boundary (andThen p boundary)

def occurs (p : Pattern) (behind : Bytes) : Bytes → Bool
  | [] => (p ⟨behind, []⟩).isEmpty = false
  | b :: rest => (p ⟨behind, b :: rest⟩).isEmpty = false || occurs p (b :: behind) rest

/-- The text of the match that is found at a place. -/
def found (p : Pattern) (place : Place) : Option Bytes :=
  (p place).head?.map (fun stop => place.ahead.take (place.ahead.length - stop.ahead.length))

/-- The matches of a pattern that matches no empty text, from left to right. The search
goes on where a match has ended, after `passing` more bytes. -/
def findAll (p : Pattern) : Nat → Bytes → Bytes → List Bytes
  | _, _, [] => []
  | passing + 1, behind, b :: rest => findAll p passing (b :: behind) rest
  | 0, behind, b :: rest =>
    match found p ⟨behind, b :: rest⟩ with
    | none => findAll p 0 (b :: behind) rest
    | some text => text :: findAll p (text.length - 1) (b :: behind) rest

variable {p : Pattern} {behind ahead : Bytes}

theorem andThen_assoc (p q r : Pattern) : andThen (andThen p q) r = andThen p (andThen q r) := by
  funext place
  exact List.flatMap_assoc

theorem andThen_optional (p q : Pattern) (place : Place) :
    andThen (optional p) q place = andThen p q place ++ q place := by
  simp [andThen, optional]

theorem mem_boundary {place stop : Place} :
    stop ∈ boundary place ↔
      stop = place ∧ place.behind.head?.any isWord ≠ place.ahead.head?.any isWord := by
  unfold boundary
  split
  next same => simp [same]
  next differs => simp [differs]

theorem mem_byte {accepted : UInt8 → Bool} {place stop : Place} (taken : stop ∈ byte accepted place) :
    ∃ b, accepted b = true ∧ place.ahead = b :: stop.ahead ∧ stop.behind = b :: place.behind := by
  unfold byte at taken
  split at taken
  · cases taken
  next b rest isAhead =>
    split at taken
    next isAccepted =>
      cases List.mem_singleton.mp taken
      exact ⟨b, isAccepted, isAhead, rfl⟩
    · cases taken

theorem mem_optional_byte {accepted : UInt8 → Bool} {place stop : Place}
    (member : stop ∈ optional (byte accepted) place) : stop = place ∨
      ∃ b, accepted b = true ∧ place.ahead = b :: stop.ahead ∧ stop.behind = b :: place.behind := by
  rcases List.mem_append.mp member with taken | left
  · exact .inr (mem_byte taken)
  · exact .inl (List.mem_singleton.mp left)

theorem repeated_of_eq_nil {place : Place} (stuck : p place = []) (least more : Nat) :
    repeated p least more place = if least = 0 then [place] else [] := by
  cases least with
  | succ least => simp [repeated, andThen, stuck]
  | zero =>
    cases more with
    | zero => rfl
    | succ more => simp [repeated, atMost, optional, andThen, stuck]

theorem found_eq_some {place stop : Place} {text : Bytes} (first : (p place).head? = some stop)
    (whole : place.ahead = text ++ stop.ahead) : found p place = some text := by
  rw [found, first, Option.map_some, whole]
  simp

/-- What is found anywhere is found by the search if no match reaches over another. -/
theorem mem_findAll_iff {passing : Nat} {text : Bytes}
    (atEnd : found p ⟨ahead.reverse ++ behind, []⟩ = none)
    (passed : ∀ inner outer, ahead = inner ++ outer → inner.length < passing →
      found p ⟨inner.reverse ++ behind, outer⟩ = none)
    (apart : ∀ front back text, ahead = front ++ back →
      found p ⟨front.reverse ++ behind, back⟩ = some text →
      ∀ inner outer, back = inner ++ outer → inner ≠ [] → inner.length < text.length →
        found p ⟨inner.reverse ++ (front.reverse ++ behind), outer⟩ = none) :
    text ∈ findAll p passing behind ahead ↔
      ∃ front back, ahead = front ++ back ∧ found p ⟨front.reverse ++ behind, back⟩ = some text := by
  induction ahead generalizing passing behind with
  | nil =>
    have missed : found p ⟨behind, []⟩ = none := atEnd
    simp [findAll, missed]
  | cons b rest ih =>
    have split (holds : Bytes → Bytes → Prop) :
        (∃ front back, b :: rest = front ++ back ∧ holds front back) ↔
          holds [] (b :: rest) ∨ ∃ front back, rest = front ++ back ∧ holds (b :: front) back := by
      constructor
      · rintro ⟨front, back, whole, isHeld⟩
        cases front with
        | nil =>
          cases whole
          exact .inl isHeld
        | cons a front =>
          cases whole
          exact .inr ⟨front, back, rfl, isHeld⟩
      · rintro (isHeld | ⟨front, back, rfl, isHeld⟩)
        · exact ⟨[], _, rfl, isHeld⟩
        · exact ⟨b :: front, back, rfl, isHeld⟩
    rw [split]
    have later {passing : Nat}
        (passed : ∀ inner outer, rest = inner ++ outer → inner.length < passing →
          found p ⟨inner.reverse ++ b :: behind, outer⟩ = none) :
        text ∈ findAll p passing (b :: behind) rest ↔ ∃ front back, rest = front ++ back ∧
          found p ⟨(b :: front).reverse ++ behind, back⟩ = some text := by
      rw [ih (by simpa using atEnd) passed]
      · simp
      · intro front back text whole isFound
        have next := apart (b :: front) back text (by rw [whole]; rfl)
        simp only [List.reverse_cons, List.append_assoc, List.singleton_append] at next
        exact next isFound
    cases passing with
    | succ passing =>
      have missed : found p ⟨behind, b :: rest⟩ = none := passed [] _ rfl (by simp)
      rw [findAll, later]
      · simp [missed]
      · intro inner outer whole short
        have next := passed (b :: inner) outer (by rw [whole]; rfl) (by simpa using short)
        simpa using next
    | zero =>
      cases isFound : found p ⟨behind, b :: rest⟩ with
      | none =>
        simp only [findAll, isFound]
        rw [later (by simp)]
        simp [isFound]
      | some first =>
        simp only [findAll, isFound, List.mem_cons]
        rw [later]
        · simp [isFound, eq_comm]
        · intro inner outer whole short
          have next := apart [] _ first rfl isFound (b :: inner) outer (by rw [whole]; rfl) (by simp)
            (by rw [List.length_cons]; omega)
          simpa using next

end Pattern

end ClusterRouter.Foundation
