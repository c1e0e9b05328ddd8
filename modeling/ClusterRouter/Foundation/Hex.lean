import ClusterRouter.Foundation.TrimSpace

/-! Digits in either case are read, and small ones are written (`encoding/hex`). -/

set_option autoImplicit false

namespace ClusterRouter.Foundation

def hexDigit (b : UInt8) : Option Nat :=
  if Bytes.isDigit b then some (b.toNat - 48)
  else if 97 ≤ b ∧ b ≤ 102 then some (b.toNat - 87)
  else if 65 ≤ b ∧ b ≤ 70 then some (b.toNat - 55)
  else none

def hexChar (n : Nat) : UInt8 := (lit "0123456789abcdef").getD n 48

theorem hexDigit_hexChar {n : Nat} (small : n < 16) : hexDigit (hexChar n) = some n := by
  have all : ∀ n : Fin 16, hexDigit (hexChar n) = some n.val := by decide
  exact all ⟨n, small⟩

private theorem hexDigit_facts (n : Fin 256) :
    let b := UInt8.ofFin n
    hexDigit (Bytes.toLower b) = hexDigit b ∧
    ((hexDigit b).isSome = true → Bytes.isVisible b = true) := by
  revert n
  decide +kernel

theorem hexDigit_toLower (b : UInt8) : hexDigit (Bytes.toLower b) = hexDigit b :=
  (hexDigit_facts b.toFin).1

theorem isVisible_of_hexDigit {b : UInt8} {n : Nat} (digit : hexDigit b = some n) :
    Bytes.isVisible b = true :=
  (hexDigit_facts b.toFin).2 (Option.isSome_of_eq_some digit)

def hexEncode : Bytes → Bytes
  | [] => []
  | b :: rest => hexChar (b.toNat / 16) :: hexChar (b.toNat % 16) :: hexEncode rest

def hexDecode : Bytes → Option Bytes
  | [] => some []
  | [_] => none
  | a :: b :: rest =>
    match hexDigit a, hexDigit b with
    | some high, some low => (hexDecode rest).map (UInt8.ofNat (high * 16 + low) :: ·)
    | _, _ => none

@[simp] theorem length_hexEncode (s : Bytes) : (hexEncode s).length = 2 * s.length := by
  induction s with
  | nil => rfl
  | cons b rest ih =>
    rw [hexEncode, List.length_cons, List.length_cons, List.length_cons, ih]
    omega

theorem hexDecode_hexEncode (s : Bytes) : hexDecode (hexEncode s) = some s := by
  induction s with
  | nil => rfl
  | cons b rest ih =>
    have bounded := b.toNat_lt
    have high : b.toNat / 16 < 16 := by omega
    have low : b.toNat % 16 < 16 := by omega
    have halves : b.toNat / 16 * 16 + b.toNat % 16 = b.toNat := by omega
    simp [hexEncode, hexDecode, hexDigit_hexChar high, hexDigit_hexChar low, halves, ih]

theorem hexDecode_map_toLower (s : Bytes) : hexDecode (s.map Bytes.toLower) = hexDecode s := by
  induction s using hexDecode.induct with
  | case1 => rfl
  | case2 b => rfl
  | case3 a b rest high low isLow isHigh ih =>
    simp [hexDecode, hexDigit_toLower, isHigh, isLow, ih]
  | case4 a b rest missing =>
    simp only [List.map_cons, hexDecode, hexDigit_toLower]

theorem isVisible_of_hexDecode {s decoded : Bytes} (read : hexDecode s = some decoded) :
    ∀ b ∈ s, Bytes.isVisible b = true := by
  induction s using hexDecode.induct generalizing decoded with
  | case1 => simp
  | case2 b => cases read
  | case3 a b rest high low isLow isHigh ih =>
    simp only [hexDecode, isHigh, isLow] at read
    obtain ⟨tail, isTail, rfl⟩ := Option.map_eq_some_iff.mp read
    simp only [List.mem_cons, forall_eq_or_imp]
    exact ⟨isVisible_of_hexDigit isHigh, isVisible_of_hexDigit isLow, ih isTail⟩
  | case4 a b rest missing =>
    simp only [hexDecode] at read
    cases read

end ClusterRouter.Foundation
