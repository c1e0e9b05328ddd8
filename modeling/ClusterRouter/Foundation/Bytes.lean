import Mathlib

/-! Strings as the bytes they hold, with the operations of package `strings` that the
development uses. -/

set_option autoImplicit false

namespace ClusterRouter.Foundation

abbrev Bytes := List UInt8

instance : LawfulBEq Bytes := inferInstance

def lit (s : String) : Bytes := s.toList.map (fun c => UInt8.ofNat c.toNat)

namespace Bytes

def colon : UInt8 := 58

def dot : UInt8 := 46

def percent : UInt8 := 37

def openBracket : UInt8 := 91

def closeBracket : UInt8 := 93

def isDigit (b : UInt8) : Bool := decide (48 ≤ b ∧ b ≤ 57)

def isUpper (b : UInt8) : Bool := decide (65 ≤ b ∧ b ≤ 90)

def isLower (b : UInt8) : Bool := decide (97 ≤ b ∧ b ≤ 122)

def toLower (b : UInt8) : UInt8 := if isUpper b then b + 32 else b

def toUpper (b : UInt8) : UInt8 := if isLower b then b - 32 else b

/-- `strings.EqualFold` on ASCII strings. -/
def equalFold (a b : Bytes) : Bool := decide (a.map toLower = b.map toLower)

def trimPrefix (front s : Bytes) : Bytes :=
  if front.isPrefixOf s then s.drop front.length else s

def trimSuffix (back s : Bytes) : Bytes :=
  if back.isSuffixOf s then s.take (s.length - back.length) else s

def lastIndex (s sep : Bytes) : Option Nat :=
  (List.range (s.length + 1)).reverse.find? (fun position => sep.isPrefixOf (s.drop position))

variable {s : Bytes}

theorem lastIndex_lt {sep : Bytes} {position : Nat} (nonempty : sep ≠ [])
    (found : lastIndex s sep = some position) : position < s.length := by
  unfold lastIndex at found
  have matched := List.find?_some found
  have longer := (List.isPrefixOf_iff_prefix.mp matched).length_le
  rw [List.length_drop] at longer
  have := List.length_pos_iff.mpr nonempty
  omega

/-- The width of the white-space rune at the front of `s`, zero if there is none. -/
def spaceWidth : Bytes → Nat
  | 0xC2 :: b :: _ => if b = 0x85 ∨ b = 0xA0 then 2 else 0
  | 0xE1 :: 0x9A :: 0x80 :: _ => 3
  | 0xE2 :: 0x80 :: b :: _ => if b ≤ 0x8A ∧ 0x80 ≤ b ∨ b = 0xA8 ∨ b = 0xA9 ∨ b = 0xAF then 3 else 0
  | 0xE2 :: 0x81 :: 0x9F :: _ => 3
  | 0xE3 :: 0x80 :: 0x80 :: _ => 3
  | b :: _ => if 9 ≤ b ∧ b ≤ 13 ∨ b = 32 then 1 else 0
  | [] => 0

def lastSpaceWidth : Bytes → Nat
  | b :: 0xC2 :: _ => if b = 0x85 ∨ b = 0xA0 then 2 else if 9 ≤ b ∧ b ≤ 13 ∨ b = 32 then 1 else 0
  | 0x80 :: 0x9A :: 0xE1 :: _ => 3
  | 0x9F :: 0x81 :: 0xE2 :: _ => 3
  | 0x80 :: 0x80 :: 0xE3 :: _ => 3
  | b :: 0x80 :: 0xE2 :: _ =>
    if b ≤ 0x8A ∧ 0x80 ≤ b ∨ b = 0xA8 ∨ b = 0xA9 ∨ b = 0xAF then 3
    else if 9 ≤ b ∧ b ≤ 13 ∨ b = 32 then 1 else 0
  | b :: _ => if 9 ≤ b ∧ b ≤ 13 ∨ b = 32 then 1 else 0
  | [] => 0

def trimWith (width : Bytes → Nat) : Nat → Bytes → Bytes
  | 0, s => s
  | fuel + 1, s => if width s = 0 then s else trimWith width fuel (s.drop (width s))

/-- `strings.TrimSpace`: the white space of Unicode, from both ends. -/
def trimSpace (s : Bytes) : Bytes :=
  let front := trimWith spaceWidth s.length s
  (trimWith lastSpaceWidth front.length front.reverse).reverse

def split (separator : UInt8) : Bytes → List Bytes
  | [] => [[]]
  | b :: rest =>
    match split separator rest with
    | [] => [[b]]
    | first :: more => if b = separator then [] :: first :: more else (b :: first) :: more

/-- The bytes before the first occurrence of `mark`, all of them if there is none. -/
def before (mark : UInt8) : Bytes → Bytes
  | [] => []
  | b :: rest => if b = mark then [] else b :: before mark rest

def itoa (n : Nat) : Bytes := (Nat.toDigits 10 n).map (fun c => UInt8.ofNat c.toNat)

theorem split_of_not_mem {separator : UInt8} (absent : separator ∉ s) :
    split separator s = [s] := by
  induction s with
  | nil => rfl
  | cons b rest ih =>
    have different : b ≠ separator := fun same => absent (same ▸ List.mem_cons_self)
    have later : separator ∉ rest := fun member => absent (List.mem_cons_of_mem b member)
    simp [split, ih later, different]

theorem split_append {separator : UInt8} (absent : separator ∉ s) (rest : Bytes) :
    split separator (s ++ separator :: rest) = s :: split separator rest := by
  induction s with
  | nil =>
    cases remaining : split separator rest with
    | nil =>
      cases rest with
      | nil => cases remaining
      | cons b tail =>
        simp only [split] at remaining
        split at remaining
        · cases remaining
        · split at remaining <;> cases remaining
    | cons first more => simp [split, remaining]
  | cons b tail ih =>
    have different : b ≠ separator := fun same => absent (same ▸ List.mem_cons_self)
    have later : separator ∉ tail := fun member => absent (List.mem_cons_of_mem b member)
    simp [split, ih later, different]

theorem before_append {mark : UInt8} (absent : mark ∉ s) (rest : Bytes) :
    before mark (s ++ mark :: rest) = s := by
  induction s with
  | nil => simp [before]
  | cons b tail ih =>
    have different : b ≠ mark := fun same => absent (same ▸ List.mem_cons_self)
    have later : mark ∉ tail := fun member => absent (List.mem_cons_of_mem b member)
    simp [before, different, ih later]

theorem before_of_not_mem {mark : UInt8} (absent : mark ∉ s) : before mark s = s := by
  induction s with
  | nil => rfl
  | cons b tail ih =>
    have different : b ≠ mark := fun same => absent (same ▸ List.mem_cons_self)
    have later : mark ∉ tail := fun member => absent (List.mem_cons_of_mem b member)
    simp [before, different, ih later]

theorem isDigit_of_mem_itoa {n : Nat} {b : UInt8} (member : b ∈ itoa n) : isDigit b = true := by
  obtain ⟨c, digit, rfl⟩ := List.mem_map.mp member
  have decimal := Nat.isDigit_of_mem_toDigits (by decide) (by decide) digit
  simp only [Char.isDigit, Bool.and_eq_true, decide_eq_true_eq] at decimal
  have low : 48 ≤ c.toNat := decimal.1
  have high : c.toNat ≤ 57 := decimal.2
  simp only [isDigit, decide_eq_true_eq, UInt8.le_iff_toNat_le]
  have small : (UInt8.ofNat c.toNat).toNat = c.toNat := by
    rw [UInt8.toNat_ofNat']
    omega
  rw [small]
  exact ⟨low, high⟩

end Bytes

end ClusterRouter.Foundation
