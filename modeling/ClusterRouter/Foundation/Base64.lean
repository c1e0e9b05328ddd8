import ClusterRouter.Foundation.TrimSpace

/-! `base64.StdEncoding`: three bytes are four digits of six bits, and the rest is padded. The
decoder passes over line ends and does not look at bits that no byte needs. -/

set_option autoImplicit false

namespace ClusterRouter.Foundation

namespace Base64

def alphabet : Bytes := lit "ABCDEFGHIJKLMNOPQRSTUVWXYZabcdefghijklmnopqrstuvwxyz0123456789+/"

def padding : UInt8 := 61

def digit (value : Nat) : UInt8 := alphabet.getD (value % 64) 65

def value (b : UInt8) : Option Nat :=
  if alphabet.idxOf b < 64 then some (alphabet.idxOf b) else none

def byte (group position : Nat) : UInt8 := UInt8.ofNat (group / 256 ^ (2 - position))

def encode : Bytes → Bytes
  | [] => []
  | [a] =>
    let group := a.toNat * 65536
    [digit (group / 262144), digit (group / 4096), padding, padding]
  | [a, b] =>
    let group := a.toNat * 65536 + b.toNat * 256
    [digit (group / 262144), digit (group / 4096), digit (group / 64), padding]
  | a :: b :: c :: rest =>
    let group := a.toNat * 65536 + b.toNat * 256 + c.toNat
    digit (group / 262144) :: digit (group / 4096) :: digit (group / 64) :: digit group ::
      encode rest

/-- The loop of `Decode` over digits, line ends removed. A padding may stand only where
the last group ends. -/
def decodeGroups : Bytes → Option Bytes
  | [] => some []
  | a :: b :: c :: d :: rest =>
    match value a, value b with
    | some first, some second =>
      if c = padding then
        if d = padding ∧ rest = [] then some [byte (first * 262144 + second * 4096) 0] else none
      else
        match value c with
        | none => none
        | some third =>
          let group := first * 262144 + second * 4096 + third * 64
          if d = padding then if rest = [] then some [byte group 0, byte group 1] else none
          else
            match value d with
            | none => none
            | some fourth =>
              (decodeGroups rest).map (fun decoded =>
                byte (group + fourth) 0 :: byte (group + fourth) 1 ::
                  byte (group + fourth) 2 :: decoded)
    | _, _ => none
  | _ => none

def isLineEnd (b : UInt8) : Bool := decide (b = 10 ∨ b = 13)

def decode (s : Bytes) : Option Bytes := decodeGroups (s.filter (fun b => !isLineEnd b))

/-! ## Digits -/

private theorem digit_facts (n : Fin 64) :
    value (digit n) = some n.val ∧ digit n ≠ padding ∧ Bytes.isVisible (digit n) = true ∧
      isLineEnd (digit n) = false := by
  revert n
  decide +kernel

private theorem digit_mod (n : Nat) : digit n = digit (n % 64) := by
  unfold digit
  rw [Nat.mod_mod]

theorem value_digit (n : Nat) : value (digit n) = some (n % 64) := by
  rw [digit_mod]
  exact (digit_facts ⟨n % 64, Nat.mod_lt n (by decide)⟩).1

theorem digit_ne_padding (n : Nat) : digit n ≠ padding := by
  rw [digit_mod]
  exact (digit_facts ⟨n % 64, Nat.mod_lt n (by decide)⟩).2.1

theorem isVisible_digit (n : Nat) : Bytes.isVisible (digit n) = true := by
  rw [digit_mod]
  exact (digit_facts ⟨n % 64, Nat.mod_lt n (by decide)⟩).2.2.1

/-! ## Reading back -/

theorem isVisible_encode (s : Bytes) : ∀ b ∈ encode s, Bytes.isVisible b = true := by
  have pad : Bytes.isVisible padding = true := by decide
  fun_induction encode s with
  | case1 => simp
  | case2 | case3 => simp [isVisible_digit, pad]
  | case4 a b c rest group ih =>
    simp only [List.mem_cons, forall_eq_or_imp]
    exact ⟨isVisible_digit _, isVisible_digit _, isVisible_digit _, isVisible_digit _, ih⟩

theorem length_encode (s : Bytes) : (encode s).length = (s.length + 2) / 3 * 4 := by
  fun_induction encode s with
  | case1 => rfl
  | case2 a => simp
  | case3 a b => simp
  | case4 a b c rest group ih =>
    simp only [List.length_cons, ih]
    omega

private theorem byte_of_toNat {group position : Nat} {b : UInt8}
    (same : group / 256 ^ (2 - position) % 256 = b.toNat) : byte group position = b := by
  apply UInt8.toNat_inj.mp
  rw [byte, UInt8.toNat_ofNat']
  exact same

section Group

variable (a b c : UInt8) {group : Nat}
  (isGroup : group = a.toNat * 65536 + b.toNat * 256 + c.toNat)

include isGroup

private theorem byte_first : byte group 0 = a := by
  have bounded := a.toNat_lt
  have middle := b.toNat_lt
  have last := c.toNat_lt
  exact byte_of_toNat (by omega)

private theorem byte_second : byte group 1 = b := by
  have bounded := b.toNat_lt
  have last := c.toNat_lt
  exact byte_of_toNat (by omega)

private theorem byte_third : byte group 2 = c := by
  have bounded := c.toNat_lt
  exact byte_of_toNat (by omega)

end Group

private theorem group_eq {group : Nat} (small : group < 16777216) :
    group / 262144 % 64 * 262144 + group / 4096 % 64 * 4096 + group / 64 % 64 * 64 + group % 64 =
      group := by
  omega

theorem decodeGroups_digits {group : Nat} (small : group < 16777216) (rest : Bytes) :
    decodeGroups (digit (group / 262144) :: digit (group / 4096) :: digit (group / 64) ::
        digit group :: rest) =
      (decodeGroups rest).map (fun decoded => byte group 0 :: byte group 1 :: byte group 2 :: decoded) := by
  rw [decodeGroups]
  simp only [value_digit, digit_ne_padding, if_false, group_eq small]

theorem decodeGroups_encode (s : Bytes) : decodeGroups (encode s) = some s := by
  fun_induction encode s with
  | case1 => rfl
  | case2 a group =>
    have isGroup : group = a.toNat * 65536 + (0 : UInt8).toNat * 256 + (0 : UInt8).toNat := by
      simp [group]
    clear_value group
    have zero : (0 : UInt8).toNat = 0 := rfl
    have bounded := a.toNat_lt
    have whole : group / 262144 % 64 * 262144 + group / 4096 % 64 * 4096 = group := by
      omega
    rw [decodeGroups]
    simp only [value_digit, whole, byte_first a 0 0 isGroup, if_true, and_self]
  | case3 a b group =>
    have isGroup : group = a.toNat * 65536 + b.toNat * 256 + (0 : UInt8).toNat := by
      simp [group]
    clear_value group
    have zero : (0 : UInt8).toNat = 0 := rfl
    have bounded := a.toNat_lt
    have middle := b.toNat_lt
    have whole : group / 262144 % 64 * 262144 + group / 4096 % 64 * 4096 + group / 64 % 64 * 64 =
        group := by
      omega
    rw [decodeGroups]
    simp only [value_digit, digit_ne_padding, whole, byte_first a b 0 isGroup,
      byte_second a b 0 isGroup, if_true, if_false]
  | case4 a b c rest group ih =>
    have isGroup : group = a.toNat * 65536 + b.toNat * 256 + c.toNat := rfl
    have bounded := a.toNat_lt
    have middle := b.toNat_lt
    have last := c.toNat_lt
    rw [decodeGroups_digits (by omega), ih, byte_first a b c isGroup, byte_second a b c isGroup,
      byte_third a b c isGroup]
    rfl

theorem decode_encode (s : Bytes) : decode (encode s) = some s := by
  have kept : (encode s).filter (fun b => !isLineEnd b) = encode s := by
    refine List.filter_eq_self.mpr fun b member => ?_
    have visible := of_decide_eq_true (isVisible_encode s b member)
    rw [isLineEnd, Bool.not_eq_true', decide_eq_false_iff_not]
    rintro (rfl | rfl)
    · exact absurd visible (by decide)
    · exact absurd visible (by decide)
  rw [decode, kept]
  exact decodeGroups_encode s

theorem length_of_decodeGroups {s decoded : Bytes} (read : decodeGroups s = some decoded) :
    4 * decoded.length ≤ 3 * s.length := by
  fun_induction decodeGroups s generalizing decoded
  case case8 rest first second third fourth group _ _ ih =>
    obtain ⟨tail, isTail, rfl⟩ := Option.map_eq_some_iff.mp read
    have bounded := ih isTail
    simp only [List.length_cons]
    omega
  all_goals
    cases read <;> simp_all

theorem length_of_decode {s decoded : Bytes} (read : decode s = some decoded) :
    4 * decoded.length ≤ 3 * s.length := by
  have shorter := List.length_filter_le (fun b => !isLineEnd b) s
  have bounded := length_of_decodeGroups read
  omega

end Base64

end ClusterRouter.Foundation
