import ClusterRouter.Foundation.Separated

/-! `unescape` and `escape` of package `net/url` in its path mode, and the segments of a path.
-/

set_option autoImplicit false

namespace ClusterRouter.Foundation

namespace Percent

def unescape : Bytes → Option Bytes
  | [] => some []
  | 37 :: a :: b :: rest =>
    match hexDigit a, hexDigit b with
    | some high, some low => (unescape rest).map (UInt8.ofNat (high * 16 + low) :: ·)
    | _, _ => none
  | b :: rest => if b = 37 then none else (unescape rest).map (b :: ·)

def isUnreserved (b : UInt8) : Bool :=
  Bytes.isDigit b || Bytes.isLower b || Bytes.isUpper b || decide (b ∈ lit "-_.~")

/-- `shouldEscape`: of the reserved characters only these stand for themselves in a path. -/
def shouldEscape (b : UInt8) : Bool := !(isUnreserved b || decide (b ∈ lit "$&+,/:;=@"))

def upperHexChar (n : Nat) : UInt8 := (lit "0123456789ABCDEF").getD n 48

def escapeByte (b : UInt8) : Bytes :=
  if shouldEscape b then [37, upperHexChar (b.toNat / 16), upperHexChar (b.toNat % 16)] else [b]

def escape (s : Bytes) : Bytes := s.flatMap escapeByte

/-- `validEncoded`, which is laxer than `escape`. -/
def validByte (b : UInt8) : Bool := decide (b ∈ lit "!'()*[]%") || !shouldEscape b

def validEncoded (s : Bytes) : Bool := s.all validByte

/-! ## Decoding -/

theorem unescape_cons {b : UInt8} (plain : b ≠ 37) (rest : Bytes) :
    unescape (b :: rest) = (unescape rest).map (b :: ·) := by
  rw [unescape]
  · rw [if_neg plain]
  · rintro a c tail rfl
    exact absurd rfl plain

theorem unescape_of_not_mem {s : Bytes} (plain : 37 ∉ s) : unescape s = some s := by
  induction s with
  | nil => rfl
  | cons b rest ih =>
    rw [List.mem_cons, not_or] at plain
    rw [unescape_cons (Ne.symm plain.1), ih plain.2]
    rfl

theorem unescape_append_slash (s rest : Bytes) :
    unescape (s ++ 47 :: rest) =
      (unescape s).bind (fun front => (unescape rest).map (fun back => front ++ 47 :: back)) := by
  induction s using unescape.induct with
  | case1 =>
    rw [List.nil_append, unescape_cons (by decide)]
    simp [unescape]
  | case2 a b tail high low isLow isHigh ih =>
    simp only [List.cons_append, unescape, isHigh, isLow, ih]
    cases unescape tail with
    | none => rfl
    | some front => cases unescape rest <;> rfl
  | case3 a b tail missing =>
    simp only [List.cons_append, unescape]
    rfl
  | case4 tail short =>
    -- What follows the percent sign is a slash or is followed by one.
    have slash : hexDigit 47 = none := by decide
    match tail, short with
    | [], _ =>
      cases rest with
      | nil => rfl
      | cons b more => simp [unescape, slash]
    | [a], _ => cases isDigit : hexDigit a <;> simp [unescape, slash, isDigit]
    | a :: b :: more, short => exact absurd rfl (short a b more rfl)
  | case5 b tail short plain ih =>
    rw [List.cons_append, unescape_cons plain, unescape_cons plain, ih]
    cases unescape tail with
    | none => rfl
    | some front => cases unescape rest <;> rfl

theorem exists_of_unescape_append_slash {s rest whole : Bytes}
    (read : unescape (s ++ 47 :: rest) = some whole) : ∃ front, unescape s = some front := by
  rw [unescape_append_slash] at read
  obtain ⟨front, isFront, _⟩ := Option.bind_eq_some_iff.mp read
  exact ⟨front, isFront⟩

theorem unescape_append_replicate {s decoded : Bytes} (read : unescape s = some decoded) (n : Nat) :
    unescape (s ++ List.replicate n 47) = some (decoded ++ List.replicate n 47) := by
  cases n with
  | zero => simpa using read
  | succ n =>
    have plain : unescape (List.replicate n 47) = some (List.replicate n 47) :=
      unescape_of_not_mem (by simp [List.mem_replicate])
    rw [List.replicate_succ, unescape_append_slash, read, plain]
    rfl

theorem length_unescape {s decoded : Bytes} (read : unescape s = some decoded) :
    decoded.length + 2 * s.count 37 = s.length := by
  induction s using unescape.induct generalizing decoded with
  | case1 =>
    cases read
    rfl
  | case2 a b tail high low isLow isHigh ih =>
    have notPercent {digit : UInt8} {n : Nat} (isDigit : hexDigit digit = some n) :
        digit ≠ 37 := by
      rintro rfl
      cases isDigit
    simp only [unescape, isHigh, isLow] at read
    obtain ⟨later, known, rfl⟩ := Option.map_eq_some_iff.mp read
    have := ih known
    rw [List.count_cons_self, List.count_cons_of_ne (notPercent isHigh),
      List.count_cons_of_ne (notPercent isLow)]
    simp only [List.length_cons]
    omega
  | case3 a b tail missing =>
    simp only [unescape] at read
    cases read
  | case4 tail short =>
    rw [unescape, if_pos rfl] at read
    · cases read
    · exact short
  | case5 b tail short plain ih =>
    rw [unescape_cons plain] at read
    obtain ⟨later, known, rfl⟩ := Option.map_eq_some_iff.mp read
    have := ih known
    rw [List.count_cons_of_ne plain]
    simp only [List.length_cons]
    omega

theorem unescape_replicate_append (n : Nat) (s : Bytes) :
    unescape (List.replicate n 47 ++ s) = (unescape s).map (List.replicate n 47 ++ ·) := by
  induction n with
  | zero => simp
  | succ n ih =>
    rw [List.replicate_succ, List.cons_append, unescape_cons (by decide), ih]
    cases unescape s with
    | none => rfl
    | some decoded => rfl

/-! ## Encoding -/

theorem hexDigit_upperHexChar {n : Nat} (small : n < 16) : hexDigit (upperHexChar n) = some n := by
  have all : ∀ n : Fin 16, hexDigit (upperHexChar n) = some n.val := by decide
  exact all ⟨n, small⟩

theorem unescape_escapeByte_append (b : UInt8) (rest : Bytes) :
    unescape (escapeByte b ++ rest) = (unescape rest).map (b :: ·) := by
  unfold escapeByte
  split
  · have bounded := b.toNat_lt
    have high : b.toNat / 16 < 16 := by omega
    have low : b.toNat % 16 < 16 := by omega
    have halves : b.toNat / 16 * 16 + b.toNat % 16 = b.toNat := by omega
    simp [unescape, hexDigit_upperHexChar high, hexDigit_upperHexChar low, halves]
  next kept =>
    refine unescape_cons ?_ rest
    rintro rfl
    exact kept rfl

theorem unescape_escape (s : Bytes) : unescape (escape s) = some s := by
  induction s with
  | nil => rfl
  | cons b rest ih =>
    rw [escape, List.flatMap_cons, unescape_escapeByte_append, ← escape, ih]
    rfl

theorem escape_append (s rest : Bytes) : escape (s ++ rest) = escape s ++ escape rest :=
  List.flatMap_append

private theorem escapeByte_facts (n : Fin 256) :
    let b := UInt8.ofFin n
    (47 ∈ escapeByte b ↔ b = 47) ∧ (escapeByte b).all validByte = true := by
  revert n
  decide +kernel

theorem mem_escapeByte_slash {b : UInt8} : 47 ∈ escapeByte b ↔ b = 47 :=
  (escapeByte_facts b.toFin).1

theorem validEncoded_escape (s : Bytes) : validEncoded (escape s) = true := by
  induction s with
  | nil => rfl
  | cons b rest ih =>
    have valid : (escapeByte b).all validByte = true := (escapeByte_facts b.toFin).2
    rw [validEncoded, escape, List.flatMap_cons, List.all_append, valid]
    exact ih

theorem escape_join (parts : List Bytes) : escape (join 47 parts) = join 47 (parts.map escape) := by
  induction parts with
  | nil => rfl
  | cons first rest ih =>
    cases rest with
    | nil => rfl
    | cons second more =>
      rw [List.map_cons, List.map_cons, join_cons_cons, join_cons_cons, escape_append,
        ← List.map_cons, ← ih]
      rfl

theorem split_escape (s : Bytes) : Bytes.split 47 (escape s) = (Bytes.split 47 s).map escape := by
  have absent : ∀ part ∈ (Bytes.split 47 s).map escape, 47 ∉ part := by
    intro part member inside
    obtain ⟨source, among, rfl⟩ := List.mem_map.mp member
    obtain ⟨b, ofSource, isSlash⟩ := List.mem_flatMap.mp inside
    exact not_mem_of_mem_split among (mem_escapeByte_slash.mp isSlash ▸ ofSource)
  have nonempty : (Bytes.split 47 s).map escape ≠ [] := by simp [split_ne_nil]
  rw [← split_join nonempty absent, ← escape_join, join_split]

/-! ## Segments -/

def segments (path : Bytes) : List Bytes := (Bytes.split 47 path).drop 1

theorem segments_append_slash (path rest : Bytes) :
    segments (path ++ 47 :: rest) = segments path ++ segments (47 :: rest) := by
  have front := split_append_separator 47 path rest
  have back := split_append_separator 47 [] rest
  rw [List.nil_append] at back
  obtain ⟨first, more, parts⟩ := List.exists_cons_of_ne_nil (split_ne_nil 47 path)
  rw [segments, segments, segments, front, back, parts]
  rfl

theorem segments_replicate (n : Nat) : segments (List.replicate n 47) = List.replicate n [] := by
  induction n with
  | zero => rfl
  | succ n ih =>
    have last := segments_append_slash (List.replicate n 47) []
    rw [← List.replicate_succ'] at last
    rw [last, ih, List.replicate_succ']
    rfl

theorem segments_escape (path : Bytes) : segments (escape path) = (segments path).map escape := by
  rw [segments, split_escape, ← List.map_drop, segments]

def unescaped (s : Bytes) : Bytes := (unescape s).getD s

/-- The segments of a path that is sent as it is or encoded anew, each of them decoded. -/
def readSegments (asItIs : Bool) (path : Bytes) : List Bytes :=
  if asItIs then (segments path).map unescaped else segments (unescaped path)

theorem readSegments_append_slash (asItIs : Bool) {path rest : Bytes}
    (readable : (unescape (path ++ 47 :: rest)).isSome = true) :
    readSegments asItIs (path ++ 47 :: rest) =
      readSegments asItIs path ++ readSegments asItIs (47 :: rest) := by
  cases asItIs with
  | true => simp [readSegments, segments_append_slash]
  | false =>
    rw [unescape_append_slash] at readable
    cases front : unescape path with
    | none =>
      rw [front] at readable
      cases readable
    | some decoded =>
      cases back : unescape rest with
      | none =>
        rw [front, back] at readable
        cases readable
      | some later =>
        have slash : unescape (47 :: rest) = some (47 :: later) := by
          rw [unescape_cons (by decide), back]
          rfl
        simp [readSegments, unescaped, unescape_append_slash, front, back, slash,
          segments_append_slash]

end Percent

end ClusterRouter.Foundation
