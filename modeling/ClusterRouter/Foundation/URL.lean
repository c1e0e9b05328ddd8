import ClusterRouter.Foundation.DotSegments
import ClusterRouter.Foundation.Percent
import ClusterRouter.Foundation.Scan

/-! `url.Parse` and `EscapedPath` of package `net/url`, and the URL that `http.NewRequest`
builds. The reading of an authority is a parameter, since releases differ. -/

set_option autoImplicit false

namespace ClusterRouter.Foundation

namespace Bytes

def cut (mark : UInt8) (s : Bytes) : Bytes × Bytes :=
  (s.takeWhile (fun b => decide (b ≠ mark)), (s.dropWhile (fun b => decide (b ≠ mark))).drop 1)

theorem cut_cons (mark b : UInt8) (s : Bytes) :
    cut mark (b :: s) = if b = mark then ([], s) else (b :: (cut mark s).1, (cut mark s).2) := by
  by_cases same : b = mark
  · simp [cut, same]
  · simp [cut, same]

variable {mark : UInt8} {s : Bytes}

theorem cut_append_of_mem (marked : mark ∈ s) (rest : Bytes) :
    cut mark (s ++ rest) = ((cut mark s).1, (cut mark s).2 ++ rest) := by
  induction s with
  | nil => cases marked
  | cons b tail ih =>
    rw [List.cons_append, cut_cons, cut_cons]
    split
    · rfl
    next different => rw [ih ((List.mem_cons.mp marked).resolve_left (Ne.symm different))]

theorem cut_append_of_not_mem (absent : mark ∉ s) (rest : Bytes) :
    cut mark (s ++ rest) = (s ++ (cut mark rest).1, (cut mark rest).2) := by
  have passed : ∀ b ∈ s, decide (b ≠ mark) = true := by
    intro b member
    refine decide_eq_true ?_
    rintro rfl
    exact absent member
  simp only [cut, List.takeWhile_append_of_pos passed, List.dropWhile_append_of_pos passed]

theorem cut_of_not_mem (absent : mark ∉ s) : cut mark s = (s, []) := by
  have whole := cut_append_of_not_mem absent []
  rw [List.append_nil] at whole
  rw [whole]
  simp [cut]

theorem not_mem_cut (mark : UInt8) (s : Bytes) : mark ∉ (cut mark s).1 := by
  intro member
  have passed := List.mem_takeWhile_imp member
  simp at passed

theorem cut_prefix (mark : UInt8) (s : Bytes) : (cut mark s).1 <+: s := List.takeWhile_prefix _

end Bytes

structure Authority where
  user : Option (Bytes × Option Bytes)
  host : Bytes
  deriving DecidableEq, Repr

/-- How an authority is read, given the scheme. An empty one names no host. -/
structure AuthorityReader where
  read : Bytes → Bytes → Option Authority
  read_empty : ∀ {scheme : Bytes} {authority : Authority},
    read scheme [] = some authority → authority.host = []

structure URL where
  scheme : Bytes
  rootless : Bytes
  user : Option (Bytes × Option Bytes)
  host : Bytes
  path : Bytes
  rawPath : Bytes
  forceQuery : Bool
  rawQuery : Bytes
  fragment : Bytes
  deriving DecidableEq, Repr

namespace URL

def isControl (b : UInt8) : Bool := decide (b < 32 ∨ b = 127)

def isSchemeByte (b : UInt8) : Bool :=
  Bytes.isLower b || Bytes.isUpper b || Bytes.isDigit b || decide (b ∈ lit "+-.")

/-- `getScheme`: a scheme begins with a letter; without one the whole text is left. -/
def getScheme (s : Bytes) : Option (Bytes × Bytes) :=
  match s.dropWhile isSchemeByte with
  | 58 :: rest =>
    match s.takeWhile isSchemeByte with
    | [] => none
    | first :: more =>
      if Bytes.isLower first || Bytes.isUpper first then some (first :: more, rest)
      else some ([], s)
  | _ => some ([], s)

def beforeSlash (s : Bytes) : Bytes := s.takeWhile (fun b => decide (b ≠ 47))

def fromSlash (s : Bytes) : Bytes := s.dropWhile (fun b => decide (b ≠ 47))

/-- The authority and the path of what is left of a URL without its scheme and its query. -/
def readHier (reader : AuthorityReader) (scheme hier : Bytes) : Option (Authority × Bytes) :=
  match hier with
  | 47 :: 47 :: rest =>
    if scheme = [] ∧ rest.head? = some 47 then some (⟨none, []⟩, hier)
    else (reader.read scheme (beforeSlash rest)).map (fun authority => (authority, fromSlash rest))
  | hier => some (⟨none, []⟩, hier)

/-- `RawPath` is set only where encoding the path does not give it back. -/
def hint (path raw : Bytes) : Bytes := if Percent.escape path = raw then [] else raw

def parse (reader : AuthorityReader) (s : Bytes) : Option URL :=
  let (main, fragment) := Bytes.cut 35 s
  if main.any isControl then none
  else
    (Percent.unescape fragment).bind fun fragment =>
      if main = [42] then some ⟨[], [], none, [], [42], [], false, [], fragment⟩
      else
        (getScheme main).bind fun (scheme, rest) =>
          let scheme := scheme.map Bytes.toLower
          let (hier, rawQuery) := Bytes.cut 63 rest
          let forceQuery := decide (63 ∈ rest ∧ rawQuery = [])
          if hier.head? ≠ some 47 ∧ scheme ≠ [] then
            some ⟨scheme, hier, none, [], [], [], forceQuery, rawQuery, fragment⟩
          else if hier.head? ≠ some 47 ∧ 58 ∈ beforeSlash hier then none
          else
            (readHier reader scheme hier).bind fun (authority, raw) =>
              (Percent.unescape raw).map fun path =>
                ⟨scheme, [], authority.user, authority.host, path, hint path raw, forceQuery,
                  rawQuery, fragment⟩

/-- `EscapedPath`: the path as a request line has it. -/
def escapedPath (u : URL) : Bytes :=
  if u.rawPath ≠ [] ∧ Percent.validEncoded u.rawPath = true ∧
      Percent.unescape u.rawPath = some u.path then u.rawPath
  else if u.path = [42] then [42]
  else Percent.escape u.path

/-- `hasPort`: the last colon comes after any bracket. -/
def hasPort (host : Bytes) : Bool :=
  match Bytes.lastIndex host [58], Bytes.lastIndex host [93] with
  | some colon, some bracket => decide (bracket < colon)
  | some _, none => true
  | none, _ => false

def removeEmptyPort (host : Bytes) : Bytes :=
  if hasPort host then Bytes.trimSuffix [58] host else host

/-- The URL of the request that `http.NewRequest` builds. -/
def ofRequest (reader : AuthorityReader) (s : Bytes) : Option URL :=
  (parse reader s).map (fun u => { u with host := removeEmptyPort u.host })

/-! ## URLs with a scheme and a rooted path -/

section

variable {reader : AuthorityReader} {scheme rest : Bytes}

def hierOf (rest : Bytes) : Bytes := (Bytes.cut 63 (Bytes.cut 35 rest).1).1

def queryOf (rest : Bytes) : Bytes := (Bytes.cut 63 (Bytes.cut 35 rest).1).2

def PlainScheme (scheme : Bytes) : Prop := scheme ≠ [] ∧ ∀ b ∈ scheme, Bytes.isLower b = true

section

variable (plain : PlainScheme scheme)

include plain

theorem PlainScheme.getScheme (rest : Bytes) :
    URL.getScheme (scheme ++ 58 :: rest) = some (scheme, rest) := by
  have passed : ∀ b ∈ scheme, isSchemeByte b = true := fun b member => by
    simp [isSchemeByte, plain.2 b member]
  have stop : isSchemeByte 58 = false := by decide
  obtain ⟨first, more, rfl⟩ := List.exists_cons_of_ne_nil plain.1
  have letter := plain.2 first List.mem_cons_self
  simp only [URL.getScheme, List.takeWhile_append_of_pos passed, List.dropWhile_append_of_pos passed,
    List.takeWhile_cons, List.dropWhile_cons, stop]
  simp [letter]

theorem PlainScheme.not_mem {b : UInt8} (other : Bytes.isLower b = false) : b ∉ scheme := by
  intro member
  rw [plain.2 b member] at other
  cases other

theorem PlainScheme.any_isControl (rest : Bytes) :
    (scheme ++ 58 :: rest).any isControl = rest.any isControl := by
  have visible : scheme.any isControl = false := by
    rw [List.any_eq_false]
    intro b member
    have all : ∀ n : Fin 256, Bytes.isLower (UInt8.ofFin n) = true →
        isControl (UInt8.ofFin n) = false := by
      decide +kernel
    exact Bool.eq_false_iff.mp (all b.toFin (plain.2 b member))
  rw [List.any_append, visible, List.any_cons, Bool.false_or]
  rfl

theorem PlainScheme.map_toLower : scheme.map Bytes.toLower = scheme := by
  have kept : ∀ b ∈ scheme, Bytes.toLower b = id b := by
    intro b member
    have all : ∀ n : Fin 256, Bytes.isLower (UInt8.ofFin n) = true →
        Bytes.toLower (UInt8.ofFin n) = UInt8.ofFin n := by
      decide +kernel
    exact all b.toFin (plain.2 b member)
  rw [List.map_congr_left kept, List.map_id]

theorem PlainScheme.cut {mark : UInt8}
    (other : Bytes.isLower mark = false) (notColon : mark ≠ 58) (rest : Bytes) :
    Bytes.cut mark (scheme ++ 58 :: rest) =
      (scheme ++ 58 :: (Bytes.cut mark rest).1, (Bytes.cut mark rest).2) := by
  rw [Bytes.cut_append_of_not_mem (plain.not_mem other), Bytes.cut_cons, if_neg (Ne.symm notColon)]

end

theorem hierOf_slash (rest : Bytes) : hierOf (47 :: rest) = 47 :: hierOf rest := by
  simp [hierOf, Bytes.cut_cons]

theorem queryOf_slash (rest : Bytes) : queryOf (47 :: rest) = queryOf rest := by
  simp [queryOf, Bytes.cut_cons]

theorem parse_eq_some_iff (plain : PlainScheme scheme) (rooted : rest.head? = some 47) {u : URL} :
    parse reader (scheme ++ 58 :: rest) = some u ↔
      (Bytes.cut 35 rest).1.any isControl = false ∧
        ∃ fragment authority raw path,
          Percent.unescape (Bytes.cut 35 rest).2 = some fragment ∧
          readHier reader scheme (hierOf rest) = some (authority, raw) ∧
          Percent.unescape raw = some path ∧
          u = ⟨scheme, [], authority.user, authority.host, path, hint path raw,
            decide (63 ∈ (Bytes.cut 35 rest).1 ∧ queryOf rest = []), queryOf rest, fragment⟩ := by
  have noStar : scheme ++ 58 :: (Bytes.cut 35 rest).1 ≠ [42] := by
    intro same
    have colon : (58 : UInt8) ∈ [(42 : UInt8)] := same ▸ by simp
    simp at colon
  have head : (hierOf rest).head? = some 47 := by
    obtain ⟨tail, rfl⟩ := List.head?_eq_some_iff.mp rooted
    rw [hierOf_slash]
    rfl
  unfold parse
  simp only [plain.cut (show Bytes.isLower 35 = false by decide) (by decide), plain.any_isControl,
    noStar, if_false, plain.getScheme, Option.bind_some, plain.map_toLower]
  rw [show (Bytes.cut 63 (Bytes.cut 35 rest).1).1 = hierOf rest from rfl,
    show (Bytes.cut 63 (Bytes.cut 35 rest).1).2 = queryOf rest from rfl]
  simp only [head, ne_eq, not_true_eq_false, false_and, if_false]
  cases (Bytes.cut 35 rest).1.any isControl with
  | true => simp
  | false =>
    simp only [Bool.false_eq_true, if_false, Option.bind_eq_some_iff, Option.map_eq_some_iff,
      true_and, Prod.exists]
    constructor
    · rintro ⟨fragment, isFragment, authority, raw, isHier, path, isPath, rfl⟩
      exact ⟨fragment, authority, raw, path, isFragment, isHier, isPath, rfl⟩
    · rintro ⟨fragment, authority, raw, path, isFragment, isHier, isPath, rfl⟩
      exact ⟨fragment, isFragment, authority, raw, isHier, path, isPath, rfl⟩

theorem readHier_authority (plain : PlainScheme scheme) (hier : Bytes) :
    readHier reader scheme (47 :: 47 :: hier) =
      (reader.read scheme (beforeSlash hier)).map (fun authority => (authority, fromSlash hier)) := by
  simp only [readHier, plain.1, false_and, if_false]

theorem ofRequest_eq_some_iff (plain : PlainScheme scheme) {text : Bytes} {u : URL} :
    ofRequest reader (scheme ++ 58 :: 47 :: 47 :: text) = some u ↔
      (Bytes.cut 35 text).1.any isControl = false ∧
        ∃ fragment authority path,
          Percent.unescape (Bytes.cut 35 text).2 = some fragment ∧
          reader.read scheme (beforeSlash (hierOf text)) = some authority ∧
          Percent.unescape (fromSlash (hierOf text)) = some path ∧
          u = ⟨scheme, [], authority.user, removeEmptyPort authority.host, path,
            hint path (fromSlash (hierOf text)),
            decide (63 ∈ (Bytes.cut 35 text).1 ∧ queryOf text = []), queryOf text, fragment⟩ := by
  have cutSlash (s : Bytes) : Bytes.cut 35 (47 :: s) = (47 :: (Bytes.cut 35 s).1, (Bytes.cut 35 s).2) := by
    rw [Bytes.cut_cons, if_neg (by decide)]
  have shown : isControl 47 = false := by decide
  unfold ofRequest
  simp only [Option.map_eq_some_iff, parse_eq_some_iff plain (show (47 :: _).head? = some 47 from rfl),
    cutSlash, List.any_cons, shown, Bool.false_or, hierOf_slash, queryOf_slash,
    readHier_authority plain, List.mem_cons]
  constructor
  · rintro ⟨parsed, ⟨visible, fragment, authority, raw, path, isFragment, ⟨found, isAuthority, same⟩,
      isPath, rfl⟩, rfl⟩
    obtain ⟨isFound, rfl⟩ := Prod.mk.inj same
    subst isFound
    exact ⟨visible, fragment, found, path, isFragment, isAuthority, isPath, by simp⟩
  · rintro ⟨visible, fragment, authority, path, isFragment, isAuthority, isPath, rfl⟩
    exact ⟨_, ⟨visible, fragment, authority, _, path, isFragment, ⟨authority, isAuthority, rfl⟩, isPath,
      rfl⟩, by simp⟩

theorem host_eq_nil_of_ofRequest (plain : PlainScheme scheme) {text : Bytes} {u : URL}
    (single : text.head? ≠ some 47)
    (built : ofRequest reader (scheme ++ 58 :: 47 :: text) = some u) : u.host = [] := by
  obtain ⟨parsed, isParsed, rfl⟩ := Option.map_eq_some_iff.mp built
  obtain ⟨_, fragment, authority, raw, path, _, isHier, _, rfl⟩ :=
    (parse_eq_some_iff plain rfl).mp isParsed
  have inner : (hierOf text).head? ≠ some 47 := by
    intro slash
    obtain ⟨tail, isTail⟩ := List.head?_eq_some_iff.mp slash
    have front : hierOf text <+: text := (Bytes.cut_prefix 63 _).trans (Bytes.cut_prefix 35 text)
    rw [isTail] at front
    obtain ⟨back, whole⟩ := front
    exact single (whole ▸ rfl)
  have bare : readHier reader scheme (47 :: hierOf text) =
      some (⟨none, []⟩, 47 :: hierOf text) := by
    cases isHier : hierOf text with
    | nil => rfl
    | cons b tail =>
      rw [isHier] at inner
      unfold readHier
      split
      next rest same =>
        cases same
        exact absurd rfl inner
      · rfl
  rw [hierOf_slash, bare] at isHier
  cases isHier
  rfl

end

/-! ## Texts that are extended by a path -/

def Marked (text : Bytes) : Prop := 35 ∈ text ∨ 63 ∈ text

instance (text : Bytes) : Decidable (Marked text) := inferInstanceAs (Decidable (_ ∨ _))

section

variable {text rest : Bytes}

theorem hierOf_append_of_marked (marked : Marked text) (rest : Bytes) :
    hierOf (text ++ rest) = hierOf text := by
  by_cases fragment : 35 ∈ text
  · rw [hierOf, Bytes.cut_append_of_mem fragment, hierOf]
  · have query := marked.resolve_left fragment
    rw [hierOf, Bytes.cut_append_of_not_mem fragment, Bytes.cut_append_of_mem query, hierOf,
      Bytes.cut_of_not_mem fragment]

theorem hierOf_append_of_not_marked (unmarked : ¬ Marked text) (rest : Bytes) :
    hierOf (text ++ rest) = text ++ hierOf rest := by
  obtain ⟨noFragment, noQuery⟩ := not_or.mp unmarked
  rw [hierOf, Bytes.cut_append_of_not_mem noFragment, Bytes.cut_append_of_not_mem noQuery, hierOf]

theorem hierOf_of_not_marked (unmarked : ¬ Marked text) : hierOf text = text := by
  obtain ⟨noFragment, noQuery⟩ := not_or.mp unmarked
  rw [hierOf, Bytes.cut_of_not_mem noFragment, Bytes.cut_of_not_mem noQuery]

theorem queryOf_append_of_not_marked (unmarked : ¬ Marked text) (rest : Bytes) :
    queryOf (text ++ rest) = queryOf rest := by
  obtain ⟨noFragment, noQuery⟩ := not_or.mp unmarked
  rw [queryOf, Bytes.cut_append_of_not_mem noFragment, Bytes.cut_append_of_not_mem noQuery, queryOf]

theorem beforeSlash_append (later : ∀ b ∈ rest.head?, b = 47) (text : Bytes) :
    beforeSlash (text ++ rest) = beforeSlash text := by
  induction text with
  | nil =>
    cases rest with
    | nil => rfl
    | cons b tail => simp [beforeSlash, later b rfl]
  | cons b tail ih =>
    unfold beforeSlash at ih ⊢
    rw [List.cons_append, List.takeWhile_cons, List.takeWhile_cons, ih]

theorem fromSlash_append (later : ∀ b ∈ rest.head?, b = 47) (text : Bytes) :
    fromSlash (text ++ rest) = fromSlash text ++ rest := by
  induction text with
  | nil =>
    cases rest with
    | nil => rfl
    | cons b tail => simp [fromSlash, later b rfl]
  | cons b tail ih =>
    unfold fromSlash at ih ⊢
    rw [List.cons_append, List.dropWhile_cons, List.dropWhile_cons, ih]
    split
    · rfl
    · rfl

theorem fromSlash_rooted (text : Bytes) : ∀ b ∈ (fromSlash text).head?, b = 47 := by
  intro b isHead
  have stop := List.head?_dropWhile_not (fun b => decide (b ≠ 47)) text
  unfold fromSlash at isHead
  rw [Option.mem_def.mp isHead] at stop
  simpa using stop

end

/-! ## The place that a path leads to -/

/-- A segment of dots, which may be written with escapes. -/
def moveOf (segment : Bytes) : Move Bytes :=
  if segment = lit "." then .stay else if segment = lit ".." then .up else .down segment

/-- The segments of a path once its dot segments are removed (RFC 3986, 5.2.4 and 6.2.2). A
slash at its end is not told from none. -/
def placeOf (path : Bytes) : List Bytes :=
  walk [] ((Percent.segments path).map (fun segment => moveOf (Percent.unescaped segment)))

theorem escapedPath_of_hint {u : URL} {raw : Bytes} (rooted : ∀ b ∈ raw.head?, b = 47)
    (decoded : Percent.unescape raw = some u.path) (isHint : u.rawPath = hint u.path raw) :
    u.escapedPath = if Percent.validEncoded raw then raw else Percent.escape u.path := by
  have noStar : u.path ≠ [42] := by
    intro star
    cases raw with
    | nil =>
      rw [star] at decoded
      cases decoded
    | cons b tail =>
      rw [rooted b rfl, Percent.unescape_cons (by decide)] at decoded
      obtain ⟨later, _, same⟩ := Option.map_eq_some_iff.mp decoded
      rw [star] at same
      cases same
  unfold escapedPath hint at *
  rw [isHint]
  by_cases same : Percent.escape u.path = raw
  · have valid : Percent.validEncoded raw = true := same ▸ Percent.validEncoded_escape u.path
    simp [same, noStar, valid]
  · have nonempty : raw ≠ [] := by
      rintro rfl
      have empty : [] = u.path := Option.some.inj decoded
      exact same (empty ▸ rfl)
    simp [same, noStar, nonempty, decoded]

theorem placeOf_escapedPath {u : URL} {raw : Bytes} (rooted : ∀ b ∈ raw.head?, b = 47)
    (decoded : Percent.unescape raw = some u.path) (isHint : u.rawPath = hint u.path raw) :
    placeOf u.escapedPath =
      walk [] ((Percent.readSegments (Percent.validEncoded raw) raw).map moveOf) := by
  rw [escapedPath_of_hint rooted decoded isHint, placeOf]
  cases Percent.validEncoded raw with
  | true => simp [Percent.readSegments, Function.comp_def]
  | false =>
    simp [Percent.readSegments, Percent.segments_escape, Percent.unescaped, decoded,
      Percent.unescape_escape, Function.comp_def]

end URL

end ClusterRouter.Foundation
