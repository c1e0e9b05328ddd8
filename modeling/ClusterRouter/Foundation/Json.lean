import ClusterRouter.Foundation.Hex
import ClusterRouter.Foundation.UTF8

/-! Documents as `encoding/json` reads them. All of the text is kept but the white space between
tokens: strings as they are spelled, numbers as literals, and the members of an object in order,
repeated keys included. -/

set_option autoImplicit false

namespace ClusterRouter.Foundation

/-- A number as it is spelled. The fraction is empty where there is no point. -/
structure Numeral where
  negative : Bool
  whole : Bytes
  fraction : Bytes
  exponent : Option (UInt8 × Option UInt8 × Bytes)
  deriving DecidableEq, Repr

namespace Numeral

def text (n : Numeral) : Bytes :=
  (if n.negative then [45] else []) ++ n.whole ++
    (if n.fraction = [] then [] else Bytes.dot :: n.fraction) ++
    (match n.exponent with
      | none => []
      | some (mark, sign, digits) => mark :: sign.toList ++ digits)

end Numeral

inductive Json where
  | null
  | bool (value : Bool)
  | number (numeral : Numeral)
  | string (raw : Bytes)
  | array (items : List Json)
  | object (members : List (Bytes × Json))
  deriving Repr

namespace Json

def isSpace (b : UInt8) : Bool := decide (b = 32 ∨ b = 9 ∨ b = 10 ∨ b = 13)

def skipSpace (s : Bytes) : Bytes := s.dropWhile isSpace

/-! ## Reading -/

/-- A reader takes what it reads off the front of the text. -/
abbrev Reader (α : Type) : Type := StateT Bytes Option α

/-- The rest of a string after its opening quote, as it is spelled. -/
def readString : Reader Bytes
  | [] => none
  | 34 :: rest => some ([], rest)
  | 92 :: 117 :: a :: b :: c :: d :: rest =>
    if [a, b, c, d].all (fun digit => (hexDigit digit).isSome) then
      (readString rest).map (fun (raw, rest) => (92 :: 117 :: a :: b :: c :: d :: raw, rest))
    else none
  | 92 :: b :: rest =>
    if b ∈ lit "bfnrt\\/\"" then (readString rest).map (fun (raw, rest) => (92 :: b :: raw, rest))
    else none
  | b :: rest =>
    if b < 32 ∨ b = 92 then none
    else (readString rest).map (fun (raw, rest) => (b :: raw, rest))

def readByteIf (accepted : UInt8 → Bool) : Reader (Option UInt8)
  | [] => some (none, [])
  | b :: rest => if accepted b then some (some b, rest) else some (none, b :: rest)

def readDigits : Reader Bytes := fun s =>
  if s.takeWhile Bytes.isDigit = [] then none
  else some (s.takeWhile Bytes.isDigit, s.dropWhile Bytes.isDigit)

/-- No digit follows a leading zero. -/
def readWhole : Reader Bytes := do
  match ← readByteIf (· == 48) with
  | some zero => return [zero]
  | none => readDigits

def readFraction : Reader Bytes := do
  match ← readByteIf (· == 46) with
  | some _ => readDigits
  | none => return []

def readExponent : Reader (Option (UInt8 × Option UInt8 × Bytes)) := do
  match ← readByteIf (fun b => b == 101 || b == 69) with
  | none => return none
  | some mark =>
    let sign ← readByteIf (fun b => b == 43 || b == 45)
    let digits ← readDigits
    return some (mark, sign, digits)

def readNumeral : Reader Numeral := do
  let minus ← readByteIf (· == 45)
  let whole ← readWhole
  let fraction ← readFraction
  let exponent ← readExponent
  return ⟨minus.isSome, whole, fraction, exponent⟩

def readWord (word : Bytes) (value : Json) : Reader Json := fun s =>
  if word.isPrefixOf s then some (value, s.drop word.length) else none

def readScalar : Reader Json
  | [] => none
  | b :: rest =>
    if b = 34 then (Json.string <$> readString : Reader Json) rest
    else if b = 110 then readWord (lit "null") .null (b :: rest)
    else if b = 116 then readWord (lit "true") (.bool true) (b :: rest)
    else if b = 102 then readWord (lit "false") (.bool false) (b :: rest)
    else (Json.number <$> readNumeral : Reader Json) (b :: rest)

section

variable {Item : Type}

/-- At least one item, with commas between them, up to the closing byte. -/
def readItems (item : Reader Item) (close : UInt8) : Nat → Reader (List Item)
  | 0, _ => none
  | fuel + 1, s =>
    match item (skipSpace s) with
    | none => none
    | some (first, rest) =>
      match skipSpace rest with
      | [] => none
      | b :: rest =>
        if b = 44 then ((first :: ·) <$> readItems item close fuel : Reader (List Item)) rest
        else if b = close then some ([first], rest)
        else none

/-- What follows an opening bracket. Each item takes at least one byte, so that the length
of the text is fuel enough. -/
def readSequence (item : Reader Item) (close : UInt8) : Reader (List Item) := fun s =>
  match skipSpace s with
  | [] => none
  | b :: rest => if b = close then some ([], rest) else readItems item close (s.length + 1) s

end

def readMember (value : Reader Json) : Reader (Bytes × Json)
  | 34 :: rest =>
    match readString rest with
    | none => none
    | some (key, rest) =>
      match skipSpace rest with
      | 58 :: rest => (Prod.mk key <$> value : Reader (Bytes × Json)) (skipSpace rest)
      | _ => none
  | _ => none

/-- A value in which objects and arrays are nested at most `depth` deep. -/
def readValue : Nat → Reader Json
  | 0, s => readScalar s
  | depth + 1, s =>
    match s with
    | 123 :: rest =>
      (Json.object <$> readSequence (readMember (readValue depth)) 125 : Reader Json) rest
    | 91 :: rest => (Json.array <$> readSequence (readValue depth) 93 : Reader Json) rest
    | s => readScalar s

def maxNestingDepth : Nat := 10000

def parse (s : Bytes) : Option Json :=
  match readValue maxNestingDepth (skipSpace s) with
  | none => none
  | some (document, rest) => if skipSpace rest = [] then some document else none

/-! ### The document null -/

variable {s rest : Bytes}

private theorem map_ne_null {α : Type} {read : Reader α} {change : α → Json}
    (other : ∀ value, change value ≠ .null) :
    (change <$> read : Reader Json) s ≠ some (.null, rest) := by
  intro mapped
  obtain ⟨⟨value, after⟩, _, same⟩ := Option.bind_eq_some_iff.mp mapped
  exact other value (congrArg Prod.fst (Option.some.inj same))

theorem readScalar_eq_null_iff :
    readScalar s = some (.null, rest) ↔ s = lit "null" ++ rest := by
  have word (text : Bytes) (value : Json) (s : Bytes) :
      readWord text value s = some (.null, rest) ↔ value = .null ∧ s = text ++ rest := by
    unfold readWord
    constructor
    · intro read
      split at read
      next starts =>
        obtain ⟨tail, rfl⟩ := List.isPrefixOf_iff_prefix.mp starts
        rw [List.drop_left] at read
        cases read
        exact ⟨rfl, rfl⟩
      · cases read
    · rintro ⟨rfl, rfl⟩
      rw [if_pos (List.isPrefixOf_iff_prefix.mpr (List.prefix_append _ _)), List.drop_left]
  cases s with
  | nil => simp [readScalar, lit]
  | cons b tail =>
    have starts (same : b :: tail = lit "null" ++ rest) : b = 110 := (List.cons.inj same).1
    simp only [readScalar]
    split
    next quote =>
      refine iff_of_false (map_ne_null fun _ => by simp) fun same => ?_
      rw [starts same] at quote
      cases quote
    split
    · rw [word]
      simp
    split
    next isTrue =>
      rw [word]
      refine iff_of_false (by simp) fun same => ?_
      rw [starts same] at isTrue
      cases isTrue
    split
    next isFalse =>
      rw [word]
      refine iff_of_false (by simp) fun same => ?_
      rw [starts same] at isFalse
      cases isFalse
    next notNull _ _ =>
      exact iff_of_false (map_ne_null fun _ => by simp) fun same => notNull (starts same)

theorem readValue_eq_null_iff {depth : Nat} :
    readValue depth s = some (.null, rest) ↔ s = lit "null" ++ rest := by
  cases depth with
  | zero => exact readScalar_eq_null_iff
  | succ depth =>
    simp only [readValue]
    split
    · exact iff_of_false (map_ne_null fun _ => by simp) (by simp [lit])
    · exact iff_of_false (map_ne_null fun _ => by simp) (by simp [lit])
    · exact readScalar_eq_null_iff

def SpellsNull (s : Bytes) : Prop :=
  ∃ after, skipSpace s = lit "null" ++ after ∧ skipSpace after = []

theorem parse_eq_null_iff : parse s = some .null ↔ SpellsNull s := by
  unfold parse
  constructor
  · intro parsed
    split at parsed
    · cases parsed
    next document after isValue =>
      split at parsed
      next done =>
        cases parsed
        exact ⟨after, readValue_eq_null_iff.mp isValue, done⟩
      · cases parsed
  · rintro ⟨after, isNull, done⟩
    rw [readValue_eq_null_iff.mpr isNull]
    simp [done]

/-! ## Strings -/

/-- A string rewritten from the front. The step returns what it writes and how many bytes
it has dealt with; the number says how many of those are still to be passed. -/
def transcribe (step : Bytes → Bytes × Nat) : Nat → Bytes → Bytes
  | _, [] => []
  | passing + 1, _ :: rest => transcribe step passing rest
  | 0, b :: rest =>
    (step (b :: rest)).1 ++ transcribe step ((step (b :: rest)).2 - 1) rest

/-- `getu4`. -/
def readEscapedUnit : Bytes → Option Nat
  | 92 :: 117 :: a :: b :: c :: d :: _ => do
      some (4096 * (← hexDigit a) + 256 * (← hexDigit b) + 16 * (← hexDigit c) + (← hexDigit d))
  | _ => none

/-- `utf16.DecodeRune`, `none` where it returns the replacement rune. -/
def decodeSurrogates (first second : Nat) : Option Nat :=
  if 0xD800 ≤ first ∧ first < 0xDC00 ∧ 0xDC00 ≤ second ∧ second < 0xE000 then
    some ((first - 0xD800) * 1024 + (second - 0xDC00) + 0x10000)
  else none

def unescape (b : UInt8) : UInt8 :=
  if b = 98 then 8 else if b = 102 then 12 else if b = 110 then 10
  else if b = 114 then 13 else if b = 116 then 9 else b

def unquoteStep (s : Bytes) : Bytes × Nat :=
  match readEscapedUnit s with
  | some unit =>
    if 0xD800 ≤ unit ∧ unit < 0xE000 then
      match (readEscapedUnit (s.drop 6)).bind (decodeSurrogates unit) with
      | some rune => (UTF8.encodeRune rune, 12)
      | none => (UTF8.replacement, 6)
    else (UTF8.encodeRune unit, 6)
  | none =>
    match s with
    | 92 :: b :: _ => ([unescape b], 2)
    | s => if UTF8.runeWidth s = 0 then (UTF8.replacement, 1)
        else (s.take (UTF8.runeWidth s), UTF8.runeWidth s)

def unquote (raw : Bytes) : Bytes := transcribe unquoteStep 0 raw

def escapeByte (b : UInt8) : Bytes :=
  lit "\\u00" ++ [hexChar (b.toNat / 16), hexChar (b.toNat % 16)]

/-- Characters that are escaped for the sake of HTML. -/
def isMarkup (b : UInt8) : Bool := decide (b = 60 ∨ b = 62 ∨ b = 38)

/-- The escape of U+2028 or U+2029 at the front of a string. -/
def separatorEscape : Bytes → Option Bytes
  | 0xE2 :: 0x80 :: b :: _ =>
    if b = 0xA8 then some (lit "\\u2028") else if b = 0xA9 then some (lit "\\u2029") else none
  | _ => none

def quoteStep : Bytes → Bytes × Nat
  | [] => ([], 1)
  | b :: rest =>
    if b = 34 ∨ b = 92 then ([92, b], 1)
    else if b = 8 then (lit "\\b", 1)
    else if b = 12 then (lit "\\f", 1)
    else if b = 10 then (lit "\\n", 1)
    else if b = 13 then (lit "\\r", 1)
    else if b = 9 then (lit "\\t", 1)
    else if b < 32 ∨ isMarkup b then (escapeByte b, 1)
    else if UTF8.runeWidth (b :: rest) = 0 then (lit "\\ufffd", 1)
    else
      match separatorEscape (b :: rest) with
      | some escape => (escape, 3)
      | none => ((b :: rest).take (UTF8.runeWidth (b :: rest)), UTF8.runeWidth (b :: rest))

/-- How `Marshal` spells a string, without the quotes around it. -/
def quote (s : Bytes) : Bytes := transcribe quoteStep 0 s

def compactStep : Bytes → Bytes × Nat
  | [] => ([], 1)
  | b :: rest =>
    if isMarkup b then (escapeByte b, 1)
    else
      match separatorEscape (b :: rest) with
      | some escape => (escape, 3)
      | none => ([b], 1)

/-! ## Writing -/

mutual

/-- The text of a document with no white space between its tokens, its strings made safe
for HTML (`appendCompact`). -/
def compact : Json → Bytes
  | .null => lit "null"
  | .bool true => lit "true"
  | .bool false => lit "false"
  | .number numeral => numeral.text
  | .string raw => [34] ++ transcribe compactStep 0 raw ++ [34]
  | .array items => [91] ++ compactItems items ++ [93]
  | .object members => [123] ++ compactMembers members ++ [125]

def compactItems : List Json → Bytes
  | [] => []
  | [item] => compact item
  | item :: rest => compact item ++ [44] ++ compactItems rest

def compactMembers : List (Bytes × Json) → Bytes
  | [] => []
  | [(key, value)] => [34] ++ transcribe compactStep 0 key ++ [34, 58] ++ compact value
  | (key, value) :: rest =>
    [34] ++ transcribe compactStep 0 key ++ [34, 58] ++ compact value ++ [44] ++
      compactMembers rest

end

end Json

end ClusterRouter.Foundation
