import ClusterRouter.Foundation.Bytes

/-! Runes as package `unicode/utf8` reads and writes them. -/

set_option autoImplicit false

namespace ClusterRouter.Foundation.UTF8

def isContinuation (b : UInt8) : Bool := decide (0x80 ≤ b ∧ b ≤ 0xBF)

def continues (n : Nat) (s : Bytes) : Bool := decide (n ≤ s.length) && (s.take n).all isContinuation

/-- The width of the rune that a string begins with, zero if it begins with none. Surrogates
and overlong forms are no runes. -/
def runeWidth : Bytes → Nat
  | [] => 0
  | a :: rest =>
    let b := rest.headD 0
    if a < 0x80 then 1
    else if 0xC2 ≤ a ∧ a ≤ 0xDF ∧ continues 1 rest then 2
    else if 0xE0 ≤ a ∧ a ≤ 0xEF ∧ continues 2 rest ∧ (a = 0xE0 → 0xA0 ≤ b) ∧
        (a = 0xED → b ≤ 0x9F) then 3
    else if 0xF0 ≤ a ∧ a ≤ 0xF4 ∧ continues 3 rest ∧ (a = 0xF0 → 0x90 ≤ b) ∧
        (a = 0xF4 → b ≤ 0x8F) then 4
    else 0

/-- `utf8.EncodeRune` of a rune in range. -/
def encodeRune (r : Nat) : Bytes :=
  if r < 0x80 then [UInt8.ofNat r]
  else if r < 0x800 then [UInt8.ofNat (0xC0 + r / 64), UInt8.ofNat (0x80 + r % 64)]
  else if r < 0x10000 then
    [UInt8.ofNat (0xE0 + r / 4096), UInt8.ofNat (0x80 + r / 64 % 64), UInt8.ofNat (0x80 + r % 64)]
  else
    [UInt8.ofNat (0xF0 + r / 262144), UInt8.ofNat (0x80 + r / 4096 % 64),
      UInt8.ofNat (0x80 + r / 64 % 64), UInt8.ofNat (0x80 + r % 64)]

/-- U+FFFD, which stands for what is not well formed. -/
def replacement : Bytes := encodeRune 0xFFFD

end ClusterRouter.Foundation.UTF8
