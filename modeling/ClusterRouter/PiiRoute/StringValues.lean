import ClusterRouter.Foundation.JsonDecode

/-! `DetectPersonal` of `internal/piiroute/piiroute.go`, for any predicate in the place of
`matchesAny`. The walk is over what `Unmarshal` stores. -/

set_option autoImplicit false

namespace ClusterRouter.PiiRoute

open Foundation

mutual

def walk : Json.Value → List Bytes
  | .string value => [value]
  | .slice items => walkItems items
  | .map entries => walkEntries entries
  | .nil | .bool _ | .float _ _ | .int _ | .custom _ => []

def walkItems : List Json.Value → List Bytes
  | [] => []
  | item :: rest => walk item ++ walkItems rest

def walkEntries : List (Bytes × Json.Value) → List Bytes
  | [] => []
  | (_, value) :: rest => walk value ++ walkEntries rest

end

def decodeJSONStrings (body : Bytes) : List Bytes :=
  (((Json.parse body).bind Json.storeAny).map walk).getD []

def detectPersonal (matchesAny : Bytes → Bool) (body : Bytes) : Bool :=
  matchesAny body || (decodeJSONStrings body).any matchesAny

/-! ## Documents -/

mutual

def strings : Json → List Bytes
  | .string raw => [Json.unquote raw]
  | .array items => stringsIn items
  | .object members => stringsOf members
  | .null | .bool _ | .number _ => []

def stringsIn : List Json → List Bytes
  | [] => []
  | item :: rest => strings item ++ stringsIn rest

def stringsOf : List (Bytes × Json) → List Bytes
  | [] => []
  | (_, value) :: rest => strings value ++ stringsOf rest

end

def replaced (key : Bytes) (rest : List (Bytes × Json)) : Bool :=
  rest.any (fun member => decide (Json.unquote member.1 = Json.unquote key))

mutual

/-- The string values that are in no member which a later one replaces. -/
def lasting : Json → List Bytes
  | .string raw => [Json.unquote raw]
  | .array items => lastingIn items
  | .object members => lastingOf members
  | .null | .bool _ | .number _ => []

def lastingIn : List Json → List Bytes
  | [] => []
  | item :: rest => lasting item ++ lastingIn rest

def lastingOf : List (Bytes × Json) → List Bytes
  | [] => []
  | (key, value) :: rest => (if replaced key rest then [] else lasting value) ++ lastingOf rest

end

mutual

def inRange : Json → Bool
  | .number numeral => numeral.parseFloat.isSome
  | .array items => inRangeIn items
  | .object members => inRangeOf members
  | .null | .bool _ | .string _ => true

def inRangeIn : List Json → Bool
  | [] => true
  | item :: rest => inRange item && inRangeIn rest

def inRangeOf : List (Bytes × Json) → Bool
  | [] => true
  | (_, value) :: rest => inRange value && inRangeOf rest

end

/-! ## What is stored -/

section

variable {α : Type} {key : Bytes} {value : α} {held : List (Bytes × α)}

theorem mem_setEntry (distinct : (held.map Prod.fst).Nodup) (entry : Bytes × α) :
    entry ∈ Json.setEntry key value held ↔
      entry = (key, value) ∨ entry ∈ held ∧ entry.1 ≠ key := by
  induction held with
  | nil => simp [Json.setEntry]
  | cons first rest ih =>
    rw [List.map_cons, List.nodup_cons] at distinct
    unfold Json.setEntry
    split
    next same =>
      subst same
      have apart : ∀ entry ∈ rest, entry.1 ≠ first.1 := fun other member isKey =>
        distinct.1 (isKey ▸ List.mem_map_of_mem member)
      simp only [List.mem_cons]
      constructor
      · exact Or.imp id fun member => ⟨.inr member, apart entry member⟩
      · rintro (isNew | ⟨rfl | member, other⟩)
        · exact .inl isNew
        · exact absurd rfl other
        · exact .inr member
    next different =>
      rw [List.mem_cons, ih distinct.2, List.mem_cons]
      constructor
      · rintro (rfl | isNew | ⟨member, other⟩)
        · exact .inr ⟨.inl rfl, different⟩
        · exact .inl isNew
        · exact .inr ⟨.inr member, other⟩
      · rintro (isNew | ⟨rfl | member, other⟩)
        · exact .inr (.inl isNew)
        · exact .inl rfl
        · exact .inr (.inr ⟨member, other⟩)

theorem nodup_setEntry (distinct : (held.map Prod.fst).Nodup) :
    ((Json.setEntry key value held).map Prod.fst).Nodup := by
  induction held with
  | nil => simp [Json.setEntry]
  | cons first rest ih =>
    rw [List.map_cons, List.nodup_cons] at distinct
    unfold Json.setEntry
    split
    next same =>
      rw [List.map_cons, List.nodup_cons]
      exact ⟨same ▸ distinct.1, distinct.2⟩
    next different =>
      rw [List.map_cons, List.nodup_cons]
      refine ⟨fun member => ?_, ih distinct.2⟩
      obtain ⟨entry, isEntry, sameKey⟩ := List.mem_map.mp member
      rcases (mem_setEntry distinct.2 entry).mp isEntry with rfl | ⟨old, _⟩
      · exact different sameKey.symm
      · exact distinct.1 (sameKey ▸ List.mem_map_of_mem old)

end

theorem mem_walkEntries {s : Bytes} {entries : List (Bytes × Json.Value)} :
    s ∈ walkEntries entries ↔ ∃ entry ∈ entries, s ∈ walk entry.2 := by
  induction entries with
  | nil => simp [walkEntries]
  | cons entry rest ih => simp [walkEntries, ih]

mutual

theorem isSome_storeAny : ∀ document, (Json.storeAny document).isSome = inRange document
  | .null | .bool _ | .string _ => rfl
  | .number numeral => by simp [Json.storeAny, inRange]
  | .array items => by
      rw [Json.storeAny, Option.isSome_map, inRange, isSome_storeAnyItems items]
  | .object members => by
      rw [Json.storeAny, Option.isSome_map, inRange, isSome_storeAnyMembers members []]

theorem isSome_storeAnyItems : ∀ items, (Json.storeAnyItems items).isSome = inRangeIn items
  | [] => rfl
  | item :: rest => by
      have first := isSome_storeAny item
      have later := isSome_storeAnyItems rest
      rw [inRangeIn, ← first, ← later, Json.storeAnyItems]
      cases Json.storeAny item with
      | none => rfl
      | some value => cases Json.storeAnyItems rest <;> rfl

theorem isSome_storeAnyMembers : ∀ members held,
    (Json.storeAnyMembers members held).isSome = inRangeOf members
  | [], _ => rfl
  | (key, document) :: rest, held => by
      have first := isSome_storeAny document
      rw [inRangeOf, ← first, Json.storeAnyMembers]
      cases Json.storeAny document with
      | none => rfl
      | some value => exact isSome_storeAnyMembers rest _

end

mutual

theorem mem_walk {s : Bytes} : ∀ {document : Json} {value : Json.Value},
    Json.storeAny document = some value → (s ∈ walk value ↔ s ∈ lasting document)
  | .null, _, stored | .bool _, _, stored | .string _, _, stored => by
      cases stored
      exact Iff.rfl
  | .number numeral, _, stored => by
      obtain ⟨magnitude, _, rfl⟩ := Option.map_eq_some_iff.mp stored
      exact Iff.rfl
  | .array items, _, stored => by
      obtain ⟨values, known, rfl⟩ := Option.map_eq_some_iff.mp stored
      exact mem_walkItems known
  | .object members, _, stored => by
      obtain ⟨entries, known, rfl⟩ := Option.map_eq_some_iff.mp stored
      have kept := @mem_walkMembers s members [] entries (by simp) known
      rw [lasting, walk, mem_walkEntries, kept]
      simp

theorem mem_walkItems {s : Bytes} : ∀ {items : List Json} {values : List Json.Value},
    Json.storeAnyItems items = some values → (s ∈ walkItems values ↔ s ∈ lastingIn items)
  | [], _, stored => by
      cases stored
      exact Iff.rfl
  | item :: rest, _, stored => by
      obtain ⟨first, isFirst, stored⟩ := Option.bind_eq_some_iff.mp stored
      obtain ⟨later, isLater, stored⟩ := Option.bind_eq_some_iff.mp stored
      cases stored
      rw [walkItems, lastingIn, List.mem_append, List.mem_append, mem_walk isFirst,
        mem_walkItems isLater]

/-- Entries that were there before are kept unless one of the members has their key. -/
theorem mem_walkMembers {s : Bytes} : ∀ {members : List (Bytes × Json)}
    {held entries : List (Bytes × Json.Value)}, (held.map Prod.fst).Nodup →
    Json.storeAnyMembers members held = some entries →
    ((∃ entry ∈ entries, s ∈ walk entry.2) ↔ s ∈ lastingOf members ∨
      ∃ entry ∈ held, (∀ member ∈ members, Json.unquote member.1 ≠ entry.1) ∧ s ∈ walk entry.2)
  | [], _, _, _, stored => by
      cases stored
      simp [lastingOf]
  | (key, document) :: rest, held, _, distinct, stored => by
      obtain ⟨value, isValue, stored⟩ := Option.bind_eq_some_iff.mp stored
      have kept : (s ∈ if replaced key rest then [] else lasting document) ↔
          (∀ member ∈ rest, Json.unquote member.1 ≠ Json.unquote key) ∧ s ∈ walk value := by
        rw [mem_walk isValue]
        have unique : replaced key rest = false ↔
            ∀ member ∈ rest, Json.unquote member.1 ≠ Json.unquote key := by
          simp [replaced]
        rw [← unique]
        cases replaced key rest <;> simp
      rw [mem_walkMembers (nodup_setEntry distinct) stored, lastingOf, List.mem_append, kept]
      simp only [mem_setEntry distinct, List.forall_mem_cons]
      constructor
      · rintro (later | ⟨entry, rfl | ⟨old, other⟩, unique, among⟩)
        · exact .inl (.inr later)
        · exact .inl (.inl ⟨unique, among⟩)
        · exact .inr ⟨entry, old, ⟨other.symm, unique⟩, among⟩
      · rintro ((⟨unique, among⟩ | later) | ⟨entry, old, ⟨other, unique⟩, among⟩)
        · exact .inr ⟨_, .inl rfl, unique, among⟩
        · exact .inl later
        · exact .inr ⟨entry, .inr ⟨old, other.symm⟩, unique, among⟩

end

theorem mem_decodeJSONStrings {body s : Bytes} {document : Json}
    (valid : Json.parse body = some document) :
    s ∈ decodeJSONStrings body ↔ inRange document = true ∧ s ∈ lasting document := by
  unfold decodeJSONStrings
  rw [valid, Option.bind_some, ← isSome_storeAny]
  cases stored : Json.storeAny document with
  | none => simp
  | some value => simp [mem_walk stored]

/-- `DetectPersonal` sees every string value of a body, whatever it looks for, exactly if
every number of the body is in range and no string is lost to a later member. -/
theorem string_values_seen_iff {body : Bytes} {document : Json}
    (valid : Json.parse body = some document) :
    (∀ (matchesAny : Bytes → Bool) (s : Bytes), s ∈ strings document → matchesAny s = true →
        detectPersonal matchesAny body = true) ↔
      ∀ s ∈ strings document, s = body ∨ inRange document = true ∧ s ∈ lasting document := by
  constructor
  · intro seen s member
    have found := seen (fun other => decide (other = s)) s member (decide_eq_true rfl)
    rw [detectPersonal, Bool.or_eq_true, decide_eq_true_eq, List.any_eq_true] at found
    refine found.imp Eq.symm ?_
    rintro ⟨other, among, same⟩
    obtain rfl := of_decide_eq_true same
    exact (mem_decodeJSONStrings valid).mp among
  · intro kept matchesAny s member matched
    rw [detectPersonal, Bool.or_eq_true, List.any_eq_true]
    rcases kept s member with rfl | stored
    · exact .inl matched
    · exact .inr ⟨s, (mem_decodeJSONStrings valid).mpr stored, matched⟩

def plainBody : Bytes := lit "\x7b\"to\":[\"jo\\u0040ex.org\"]\x7d"

theorem string_values_seen_plain :
    ∃ document, Json.parse plainBody = some document ∧ strings document = [lit "jo@ex.org"] ∧
      ∀ (matchesAny : Bytes → Bool) (s : Bytes), s ∈ strings document → matchesAny s = true →
        detectPersonal matchesAny plainBody = true := by
  have facts : (Json.parse plainBody).map (fun document =>
      (strings document, inRange document, lasting document)) =
      some ([lit "jo@ex.org"], true, [lit "jo@ex.org"]) := by
    decide +kernel
  obtain ⟨document, parsed, known⟩ := Option.map_eq_some_iff.mp facts
  simp only [Prod.mk.injEq] at known
  obtain ⟨all, range, kept⟩ := known
  refine ⟨document, parsed, all, (string_values_seen_iff parsed).mpr fun s member => .inr ⟨range, ?_⟩⟩
  rw [kept, ← all]
  exact member

/-- The key comes a second time, with a number. -/
def evasiveBody : Bytes := lit "\x7b\"to\":\"jo\\u0040ex.org\",\"to\":1\x7d"

theorem replaced_value_unseen :
    ∃ document, Json.parse evasiveBody = some document ∧
      ¬ ∀ (matchesAny : Bytes → Bool) (s : Bytes), s ∈ strings document → matchesAny s = true →
        detectPersonal matchesAny evasiveBody = true := by
  have facts : (Json.parse evasiveBody).map strings = some [lit "jo@ex.org"] := by decide +kernel
  have unseen : detectPersonal (fun s => decide (64 ∈ s)) evasiveBody = false := by decide +kernel
  obtain ⟨document, parsed, all⟩ := Option.map_eq_some_iff.mp facts
  refine ⟨document, parsed, fun seen => ?_⟩
  have found := seen (fun s => decide (64 ∈ s)) (lit "jo@ex.org") (by rw [all]; simp)
    (by decide +kernel)
  rw [unseen] at found
  cases found

end ClusterRouter.PiiRoute
