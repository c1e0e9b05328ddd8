import ClusterRouter.Foundation.JsonNumber

/-! What `json.Unmarshal` stores for a document, and what `json.Marshal` writes for a value.
`Unmarshal` of `null` succeeds and leaves a map nil. -/

set_option autoImplicit false

namespace ClusterRouter.Foundation

inductive Panic where
  | assignmentToNilMap
  deriving DecidableEq, Repr

/-- The entries of a map that is not nil, in some order. -/
abbrev Entries (α : Type) : Type := AList (fun _ : Bytes => α)

/-- A map, `none` where it is nil. -/
abbrev GoMap (α : Type) : Type := Option (Entries α)

namespace GoMap

variable {α : Type}

def get (m : GoMap α) (key : Bytes) : Option α := m.bind (AList.lookup key)

def assign (m : GoMap α) (key : Bytes) (value : α) : Except Panic (GoMap α) :=
  match m with
  | none => .error .assignmentToNilMap
  | some entries => .ok (some (entries.insert key value))

theorem assign_of_isSome {m : GoMap α} (made : m.isSome = true) (key : Bytes) (value : α) :
    ∃ next : GoMap α, m.assign key value = .ok next ∧ next.isSome = true := by
  cases m with
  | none => cases made
  | some entries => exact ⟨_, rfl, rfl⟩

end GoMap

namespace Json

/-! ## Reading -/

section

variable {α : Type}

/-- The members of an object as a map; of a repeated key the last one counts. -/
def storeMembers (value : Json → Option α) (members : List (Bytes × Json)) : Option (Entries α) :=
  members.foldlM
    (fun entries (key, document) => (value document).map (entries.insert (unquote key))) ∅

/-- `json.Unmarshal` into a map that is nil, `none` where it fails. -/
def unmarshalMap (value : Json → Option α) (body : Bytes) : Option (GoMap α) :=
  match parse body with
  | some .null => some none
  | some (.object members) => (storeMembers value members).map some
  | _ => none

def IsObject (s : Bytes) : Prop := ∃ members, parse s = some (.object members)

def IsNull (s : Bytes) : Prop := parse s = some .null

theorem not_isObject_of_isNull {s : Bytes} (isNull : IsNull s) : ¬ IsObject s := by
  rintro ⟨members, isObject⟩
  rw [show parse s = some .null from isNull] at isObject
  cases isObject

variable {value : Json → Option α} {body : Bytes}

theorem unmarshalMap_of_isNull (isNull : IsNull body) :
    unmarshalMap value body = some none := by
  unfold unmarshalMap
  rw [show parse body = some .null from isNull]

theorem unmarshalMap_eq_none (notNull : ¬ IsNull body) (notObject : ¬ IsObject body) :
    unmarshalMap value body = none := by
  unfold unmarshalMap
  split
  next isNull => exact absurd isNull notNull
  next members isObject => exact absurd ⟨members, isObject⟩ notObject
  · rfl

theorem isSome_of_unmarshalMap {payload : GoMap α} (notNull : ¬ IsNull body)
    (stored : unmarshalMap value body = some payload) :
    payload.isSome = true := by
  unfold unmarshalMap at stored
  split at stored
  next isNull => exact absurd isNull notNull
  · obtain ⟨entries, _, rfl⟩ := Option.map_eq_some_iff.mp stored
    rfl
  · cases stored

/-- Names of fields are compared without regard to case. Besides the capitals, only the
long s and the Kelvin sign are equal to a letter of ASCII so. -/
def foldName : Bytes → Bytes
  | [] => []
  | 0xC5 :: 0xBF :: rest => 83 :: foldName rest
  | 0xE2 :: 0x84 :: 0xAA :: rest => 75 :: foldName rest
  | b :: rest => Bytes.toUpper b :: foldName rest

/-- One field of a struct after the members of an object, in their order. -/
def storeField (name : Bytes) (store : α → Json → Option α) (held : α)
    (members : List (Bytes × Json)) : Option α :=
  members.foldlM
    (fun held (key, document) =>
      if foldName (unquote key) = foldName name then store held document else some held) held

def storeString (held : Bytes) : Json → Option Bytes
  | .null => some held
  | .string raw => some (unquote raw)
  | _ => none

def storeStruct (name : Bytes) (store : α → Json → Option α) (held : α) : Json → Option α
  | .null => some held
  | .object members => storeField name store held members
  | _ => none

/-- A slice with the elements its array still holds beyond its length. -/
structure Slice (α : Type) where
  array : List α
  length : Nat

namespace Slice

def empty : Slice α := ⟨[], 0⟩

def elements (slice : Slice α) : List α := slice.array.take slice.length

end Slice

def storeElements (zero : α) (store : α → Json → Option α) : List Json → List α → Option (List α)
  | [], held => some held
  | item :: rest, [] => do
      let first ← store zero item
      return first :: (← storeElements zero store rest [])
  | item :: rest, old :: held => do
      let first ← store old item
      return first :: (← storeElements zero store rest held)

def storeSlice (zero : α) (store : α → Json → Option α) (held : Slice α) :
    Json → Option (Slice α)
  | .null => some .empty
  | .array [] => some .empty
  | .array items =>
    (storeElements zero store items held.array).map (fun array => ⟨array, items.length⟩)
  | _ => none

end

/-! ## Values of any type -/

/-- A value of type `any`, as far as `Marshal` tells them apart. A float is its sign and its
magnitude; `custom` is a value with a `MarshalJSON` of its own, or one that `Marshal`
refuses. -/
inductive Value where
  | nil
  | bool (value : Bool)
  | float (negative : Bool) (magnitude : Binary64)
  | int (value : Int)
  | string (value : Bytes)
  | slice (items : List Value)
  | map (entries : List (Bytes × Value))
  | custom (encoded : Option Bytes)

def setEntry {α : Type} (key : Bytes) (value : α) : List (Bytes × α) → List (Bytes × α)
  | [] => [(key, value)]
  | entry :: rest =>
    if entry.1 = key then (key, value) :: rest else entry :: setEntry key value rest

mutual

/-- `Unmarshal` into a value of type `any`, which fails where a number is out of range. -/
def storeAny : Json → Option Value
  | .null => some .nil
  | .bool value => some (.bool value)
  | .number numeral =>
    numeral.parseFloat.map (fun magnitude => .float numeral.negative (.finite magnitude))
  | .string raw => some (.string (unquote raw))
  | .array items => (storeAnyItems items).map .slice
  | .object members => (storeAnyMembers members []).map .map

def storeAnyItems : List Json → Option (List Value)
  | [] => some []
  | item :: rest => do return (← storeAny item) :: (← storeAnyItems rest)

def storeAnyMembers : List (Bytes × Json) → List (Bytes × Value) → Option (List (Bytes × Value))
  | [], held => some held
  | (key, document) :: rest, held => do
      storeAnyMembers rest (setEntry (unquote key) (← storeAny document) held)

end

/-! ## Writing -/

def commas : List Bytes → Bytes
  | [] => []
  | [text] => text
  | text :: rest => text ++ [44] ++ commas rest

/-- An object from its keys and the texts of their values, with the keys in order. -/
def marshalEntries (entries : List (Bytes × Bytes)) : Bytes :=
  [123] ++ commas ((entries.insertionSort (fun a b => a.1 ≤ b.1)).map
    (fun (key, text) => [34] ++ quote key ++ [34, 58] ++ text)) ++ [125]

/-- `json.Marshal` of a map, `none` where it fails. -/
def marshalMap {α : Type} (value : α → Option Bytes) : GoMap α → Option Bytes
  | none => some (lit "null")
  | some entries => do
      let texts ← entries.entries.mapM (fun entry => (value entry.2).map (fun text => (entry.1, text)))
      return marshalEntries texts

mutual

def marshalAny : Value → Option Bytes
  | .nil => some (lit "null")
  | .bool true => some (lit "true")
  | .bool false => some (lit "false")
  | .float negative (.finite magnitude) =>
    some ((if negative then [45] else []) ++ Binary64.marshal magnitude)
  | .float _ _ => none
  | .int value => some ((if value < 0 then [45] else []) ++ Bytes.itoa value.natAbs)
  | .string value => some ([34] ++ quote value ++ [34])
  | .slice items => (marshalItems items).map (fun texts => [91] ++ commas texts ++ [93])
  | .map entries => (marshalMembers entries).map marshalEntries
  | .custom encoded => encoded

def marshalItems : List Value → Option (List Bytes)
  | [] => some []
  | item :: rest => do return (← marshalAny item) :: (← marshalItems rest)

def marshalMembers : List (Bytes × Value) → Option (List (Bytes × Bytes))
  | [] => some []
  | (key, value) :: rest => do return (key, ← marshalAny value) :: (← marshalMembers rest)

end

end Json

end ClusterRouter.Foundation
