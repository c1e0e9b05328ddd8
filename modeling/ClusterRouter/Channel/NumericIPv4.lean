import ClusterRouter.Channel.Validate
import ClusterRouter.Foundation.IPLiteral

/-! `parseIPv4Numeric` (`internal/channel/connect_target.go`) against the grammar and meaning of
`inet_aton`, and what follows for the hosts the CONNECT leg may dial. -/

set_option autoImplicit false

namespace ClusterRouter.Channel

open Foundation

/-! ## The grammar -/

def IsNumeral (base : Nat) (text : Bytes) (value : Nat) : Prop :=
  ∃ digits : List Nat, digits ≠ [] ∧ text.map hexDigit = digits.map some ∧
    (∀ digit ∈ digits, digit < base) ∧ value = Nat.ofDigits base digits.reverse

inductive IsPart (text : Bytes) (value : Nat) : Prop where
  | decimal (unmarked : text.head? ≠ some 48 ∨ text = [48]) (numeral : IsNumeral 10 text value)
  | octal {digits : Bytes} (marked : text = 48 :: digits) (numeral : IsNumeral 8 digits value)
  | hexadecimal {mark : UInt8} {digits : Bytes} (isMark : mark = 120 ∨ mark = 88)
      (marked : text = 48 :: mark :: digits) (numeral : IsNumeral 16 digits value)

/-- The bytes of the parts before the last, and the last in all bytes they leave. -/
def inetAddress (front : List Nat) (last : Nat) : Nat :=
  Nat.ofDigits 256 front.reverse * 256 ^ (4 - front.length) + last

/-- The spellings that `inet_aton` reads, with the address it assigns. -/
inductive InetAton (host : Bytes) : Nat → Prop where
  | parts {front : List (Bytes × Nat)} {last : Bytes × Nat} (few : front.length + 1 ≤ 4)
      (joined : host = join Bytes.dot (front.map Prod.fst ++ [last.1]))
      (frontParts : ∀ part ∈ front, IsPart part.1 part.2 ∧ part.2 ≤ 255)
      (lastPart : IsPart last.1 last.2) (bounded : last.2 < 256 ^ (5 - (front.length + 1))) :
      InetAton host (inetAddress (front.map Prod.snd) last.2)

def ipOfAddress (address : Nat) : IP :=
  IP.v4InV6Prefix ++ [UInt8.ofNat (address / 256 ^ 3), UInt8.ofNat (address / 256 ^ 2),
    UInt8.ofNat (address / 256), UInt8.ofNat address]

/-! ## Parts -/

variable {base value address : Nat} {text host listen : Bytes} {b : UInt8} {ip : IP}

private theorem foldlM_digits_iff {start : Nat} :
    text.foldlM (fun value b => (hexDigit b).bind (fun digit =>
        if digit < base then some (value * base + digit) else none)) start = some value ↔
      ∃ digits : List Nat, text.map hexDigit = digits.map some ∧ (∀ digit ∈ digits, digit < base) ∧
        value = start * base ^ digits.length + Nat.ofDigits base digits.reverse := by
  induction text generalizing start with
  | nil =>
    simp only [List.foldlM_nil, List.map_nil]
    constructor
    · rintro ⟨rfl⟩
      exact ⟨[], rfl, by simp, by simp⟩
    · rintro ⟨digits, empty, _, rfl⟩
      rw [List.map_eq_nil_iff.mp empty.symm]
      simp [pure]
  | cons b rest ih =>
    rw [List.foldlM_cons]
    simp only [Option.bind_eq_bind, Option.bind_eq_some_iff, Option.ite_none_right_eq_some, ih]
    constructor
    · rintro ⟨_, ⟨digit, known, small, ⟨rfl⟩⟩, digits, texts, bounded, rfl⟩
      refine ⟨digit :: digits, by simp [known, texts], by simpa [small] using bounded, ?_⟩
      rw [List.reverse_cons, Nat.ofDigits_append, Nat.ofDigits_singleton, List.length_cons,
        List.length_reverse]
      ring
    · rintro ⟨digits, texts, bounded, rfl⟩
      cases digits with
      | nil => simp at texts
      | cons digit others =>
        simp only [List.map_cons, List.cons.injEq] at texts
        simp only [List.mem_cons, forall_eq_or_imp] at bounded
        refine ⟨_, ⟨digit, texts.1, bounded.1, rfl⟩, others, texts.2, bounded.2, ?_⟩
        rw [List.reverse_cons, Nat.ofDigits_append, Nat.ofDigits_singleton, List.length_cons,
          List.length_reverse]
        ring

theorem parseUint_eq_some_iff :
    parseUint base text = some value ↔ IsNumeral base text value := by
  unfold parseUint IsNumeral
  split
  next empty =>
    subst empty
    simp only [reduceCtorEq, List.map_nil, false_iff, not_exists, not_and]
    intro digits nonempty same
    exact absurd (List.map_eq_nil_iff.mp same.symm) nonempty
  next nonempty =>
    rw [foldlM_digits_iff]
    constructor
    · rintro ⟨digits, texts, bounded, rfl⟩
      refine ⟨digits, ?_, texts, bounded, by simp⟩
      rintro rfl
      exact nonempty (List.map_eq_nil_iff.mp texts)
    · rintro ⟨digits, _, texts, bounded, rfl⟩
      exact ⟨digits, texts, bounded, by simp⟩

theorem IsNumeral.digit (numeral : IsNumeral base text value) (member : b ∈ text) :
    (hexDigit b).isSome = true := by
  obtain ⟨digits, _, texts, _, _⟩ := numeral
  have known : hexDigit b ∈ digits.map some := texts ▸ List.mem_map_of_mem member
  obtain ⟨digit, _, same⟩ := List.mem_map.mp known
  rw [← same]
  rfl

theorem IsNumeral.ne_nil (numeral : IsNumeral base text value) :
    text ≠ [] := by
  obtain ⟨digits, nonempty, texts, _, _⟩ := numeral
  rintro rfl
  exact nonempty (List.map_eq_nil_iff.mp texts.symm)

private theorem isPrefixOf_mark (mark : UInt8) (part : Bytes) :
    List.isPrefixOf [48, mark] part = true ↔ ∃ digits, part = 48 :: mark :: digits := by
  rw [List.isPrefixOf_iff_prefix]
  exact ⟨fun ⟨digits, same⟩ => ⟨digits, same.symm⟩, fun ⟨digits, same⟩ => ⟨digits, same.symm⟩⟩

theorem parseIPv4Part_eq_some_iff {part : Bytes} :
    parseIPv4Part part = some value ↔ IsPart part value ∧ value ≤ 0xffffffff := by
  have marks : ((lit "0x").isPrefixOf part = true ∨ (lit "0X").isPrefixOf part = true) ↔
      ∃ mark digits, (mark = 120 ∨ mark = 88) ∧ part = 48 :: mark :: digits := by
    rw [show lit "0x" = [48, 120] from rfl, show lit "0X" = [48, 88] from rfl, isPrefixOf_mark,
      isPrefixOf_mark]
    constructor
    · rintro (⟨digits, same⟩ | ⟨digits, same⟩)
      · exact ⟨120, digits, .inl rfl, same⟩
      · exact ⟨88, digits, .inr rfl, same⟩
    · rintro ⟨mark, digits, rfl | rfl, same⟩
      · exact .inl ⟨digits, same⟩
      · exact .inr ⟨digits, same⟩
  have notDigit : ∀ {mark : UInt8}, mark = 120 ∨ mark = 88 → (hexDigit mark).isSome = false := by
    rintro mark (rfl | rfl) <;> decide
  unfold parseIPv4Part
  simp only [Option.bind_eq_some_iff, Option.ite_none_left_eq_some, not_lt, Option.some.injEq,
    ↓existsAndEq, and_true]
  constructor
  · rintro ⟨found, small⟩
    refine ⟨?_, small⟩
    split at found
    next isHex =>
      obtain ⟨mark, digits, isMark, rfl⟩ := marks.mp isHex
      exact .hexadecimal isMark rfl (parseUint_eq_some_iff.mp found)
    next =>
      split at found
      next isOctal =>
        cases part with
        | nil => cases isOctal.2
        | cons b digits =>
          cases isOctal.2
          exact .octal rfl (parseUint_eq_some_iff.mp found)
      next unmarked =>
        refine .decimal ?_ (parseUint_eq_some_iff.mp found)
        by_cases zero : part.head? = some 48
        · cases part with
          | nil => cases zero
          | cons b digits =>
            cases zero
            cases digits with
            | nil => exact .inr rfl
            | cons c more => exact absurd ⟨by simp, rfl⟩ unmarked
        · exact .inl zero
  · rintro ⟨isPart, small⟩
    refine ⟨?_, small⟩
    cases isPart with
    | hexadecimal isMark marked numeral =>
      rw [if_pos (marks.mpr ⟨_, _, isMark, marked⟩), marked]
      exact parseUint_eq_some_iff.mpr numeral
    | octal marked numeral =>
      rename_i digits
      have notHex : ¬ ((lit "0x").isPrefixOf part = true ∨ (lit "0X").isPrefixOf part = true) := by
        rw [marks, marked]
        rintro ⟨mark, rest, isMark, same⟩
        cases same
        have digit := numeral.digit List.mem_cons_self
        rw [notDigit isMark] at digit
        cases digit
      have long : 1 < part.length ∧ part.head? = some 48 := by
        rw [marked]
        exact ⟨by simpa using List.length_pos_iff.mpr numeral.ne_nil, rfl⟩
      rw [if_neg notHex, if_pos long, marked]
      exact parseUint_eq_some_iff.mpr numeral
    | decimal unmarked numeral =>
      have notHex : ¬ ((lit "0x").isPrefixOf part = true ∨ (lit "0X").isPrefixOf part = true) := by
        rw [marks]
        rintro ⟨mark, rest, _, rfl⟩
        rcases unmarked with first | single
        · exact first rfl
        · cases single
      have notOctal : ¬ (1 < part.length ∧ part.head? = some 48) := by
        rintro ⟨long, zero⟩
        rcases unmarked with first | rfl
        · exact first zero
        · exact absurd long (by decide)
      rw [if_neg notHex, if_neg notOctal]
      exact parseUint_eq_some_iff.mpr numeral

theorem IsPart.byte (part : IsPart text value) (member : b ∈ text) :
    (hexDigit b).isSome = true ∨ b = 120 ∨ b = 88 := by
  cases part with
  | decimal _ numeral => exact .inl (numeral.digit member)
  | octal marked numeral =>
    rw [marked] at member
    rcases List.mem_cons.mp member with rfl | later
    · exact .inl (by decide)
    · exact .inl (numeral.digit later)
  | hexadecimal isMark marked numeral =>
    rw [marked] at member
    rcases List.mem_cons.mp member with rfl | later
    · exact .inl (by decide)
    · rcases List.mem_cons.mp later with rfl | digit
      · exact .inr isMark
      · exact .inl (numeral.digit digit)

theorem IsPart.not_mem (part : IsPart text value) (noDigit : hexDigit b = none)
    (noMark : b ≠ 120 ∧ b ≠ 88) : b ∉ text := by
  intro member
  rcases part.byte member with digit | same | same
  · rw [noDigit] at digit
    cases digit
  · exact noMark.1 same
  · exact noMark.2 same

/-! ## Addresses -/

private theorem mapM_eq_some_iff {Item Value : Type} {f : Item → Option Value} {items : List Item}
    {values : List Value} :
    items.mapM f = some values ↔ ∃ pairs : List (Item × Value), pairs.map Prod.fst = items ∧
      pairs.map Prod.snd = values ∧ ∀ pair ∈ pairs, f pair.1 = some pair.2 := by
  induction items generalizing values with
  | nil =>
    simp only [List.mapM_nil, List.map_eq_nil_iff]
    constructor
    · rintro ⟨rfl⟩
      exact ⟨[], rfl, rfl, by simp⟩
    · rintro ⟨pairs, rfl, rfl, _⟩
      rfl
  | cons item rest ih =>
    simp only [List.mapM_cons, Option.bind_eq_bind, Option.bind_eq_some_iff, ih]
    constructor
    · rintro ⟨value, known, _, ⟨pairs, rfl, rfl, all⟩, ⟨rfl⟩⟩
      exact ⟨(item, value) :: pairs, rfl, rfl, by simpa [known] using all⟩
    · rintro ⟨pairs, firsts, rfl, all⟩
      cases pairs with
      | nil => cases firsts
      | cons pair others =>
        simp only [List.map_cons, List.cons.injEq] at firsts
        simp only [List.mem_cons, forall_eq_or_imp] at all
        exact ⟨pair.2, firsts.1 ▸ all.1, _, ⟨others, firsts.2, rfl, all.2⟩, rfl⟩

private theorem or_shift_shift {high low shift : Nat} (small : low ≤ 255) :
    high <<< (shift + 8) ||| low <<< shift = (high * 256 + low) <<< shift := by
  have below : low <<< shift < 2 ^ (shift + 8) := by
    rw [Nat.shiftLeft_eq, Nat.pow_add, Nat.mul_comm]
    exact Nat.mul_lt_mul_of_pos_left (by omega) (Nat.two_pow_pos shift)
  rw [← Nat.shiftLeft_add_eq_or_of_lt below]
  simp only [Nat.shiftLeft_eq, Nat.pow_add]
  ring

private theorem or_shift {high low shift : Nat} (small : low < 2 ^ shift) :
    high <<< shift ||| low = high * 2 ^ shift + low := by
  rw [← Nat.shiftLeft_add_eq_or_of_lt small, Nat.shiftLeft_eq]

theorem foldl_or_eq_inetAddress {front : List Nat} {last : Nat} (few : front.length ≤ 3)
    (bytes : ∀ value ∈ front, value ≤ 255) (bounded : last < 256 ^ (4 - front.length)) :
    front.zipIdx.foldl (fun addr v => addr ||| v.1 <<< (8 * (3 - v.2))) 0 ||| last =
      inetAddress front last := by
  match front, few with
  | [], _ => simp [inetAddress]
  | [a], _ =>
    simp only [List.length_singleton] at bounded
    simp only [inetAddress, List.zipIdx_cons, List.zipIdx_nil, List.foldl_cons, List.foldl_nil,
      Nat.zero_or, Nat.sub_zero, List.reverse_singleton, Nat.ofDigits_singleton,
      List.length_singleton]
    rw [or_shift (by simpa using bounded)]
    norm_num
  | [a, b], _ =>
    simp only [List.length_cons, List.length_nil] at bounded
    simp only [inetAddress, List.zipIdx_cons, List.zipIdx_nil, List.foldl_cons, List.foldl_nil,
      Nat.zero_or, Nat.sub_zero]
    rw [show 8 * 3 = 8 * (3 - (0 + 1)) + 8 from rfl, or_shift_shift (bytes b (by simp)),
      or_shift (by simpa using bounded)]
    simp [Nat.ofDigits_cons]
    ring
  | [a, b, c], _ =>
    simp only [List.length_cons, List.length_nil] at bounded
    simp only [inetAddress, List.zipIdx_cons, List.zipIdx_nil, List.foldl_cons, List.foldl_nil,
      Nat.zero_or, Nat.sub_zero]
    rw [show 8 * 3 = 8 * (3 - (0 + 1)) + 8 from rfl, or_shift_shift (bytes b (by simp)),
      show 8 * (3 - (0 + 1)) = 8 * (3 - (0 + 1 + 1)) + 8 from rfl,
      or_shift_shift (bytes c (by simp)), or_shift (by simpa using bounded)]
    simp [Nat.ofDigits_cons]
    ring

private theorem shiftRight_octets (address : Nat) :
    IP.v4InV6Prefix ++ [UInt8.ofNat (address >>> 24), UInt8.ofNat (address >>> 16),
      UInt8.ofNat (address >>> 8), UInt8.ofNat address] = ipOfAddress address := by
  simp only [ipOfAddress, Nat.shiftRight_eq_div_pow]
  rfl

theorem parseIPv4Numeric_of_values {front : List Nat} {last : Nat}
    (values : (Bytes.split Bytes.dot host).mapM parseIPv4Part = some (front ++ [last])) :
    parseIPv4Numeric host =
      if front.length + 1 ≤ 4 ∧ (∀ value ∈ front, value ≤ 255) ∧
          last < 256 ^ (5 - (front.length + 1)) then
        some (ipOfAddress (inetAddress front last))
      else none := by
  obtain ⟨pairs, texts, seconds, _⟩ := mapM_eq_some_iff.mp values
  have length : (Bytes.split Bytes.dot host).length = front.length + 1 := by
    rw [← texts, List.length_map, ← List.length_map Prod.snd, seconds, List.length_append,
      List.length_singleton]
  have power : 2 ^ (8 * (5 - (front.length + 1))) = 256 ^ (5 - (front.length + 1)) := by
    rw [Nat.pow_mul]
  unfold parseIPv4Numeric
  dsimp only
  rw [length, values, Option.bind_some, List.dropLast_concat, List.getLastD_concat, List.length_append,
    List.length_singleton, power, shiftRight_octets]
  have outside : (front.any (fun v => decide (0xff < v)) = true ∨
      256 ^ (5 - (front.length + 1)) ≤ last) ↔
        ¬ ((∀ value ∈ front, value ≤ 255) ∧ last < 256 ^ (5 - (front.length + 1))) := by
    simp only [List.any_eq_true, decide_eq_true_eq, not_and_or, not_forall, not_le, not_lt,
      exists_prop]
  simp only [outside]
  by_cases few : front.length + 1 ≤ 4
  · rw [if_neg (by omega)]
    by_cases within : (∀ value ∈ front, value ≤ 255) ∧ last < 256 ^ (5 - (front.length + 1))
    · have small : last < 256 ^ (4 - front.length) := by
        rw [show 4 - front.length = 5 - (front.length + 1) by omega]
        exact within.2
      rw [if_neg (not_not.mpr within), foldl_or_eq_inetAddress (by omega) within.1 small]
      exact (if_pos ⟨few, within⟩).symm
    · rw [if_pos within]
      exact (if_neg (fun all => within all.2)).symm
  · rw [if_pos (by omega), if_neg (fun all => few all.1)]

theorem parseIPv4Numeric_eq_some_iff :
    parseIPv4Numeric host = some ip ↔ ∃ address, InetAton host address ∧ ip = ipOfAddress address := by
  constructor
  · intro parsed
    have known : ∃ values, (Bytes.split Bytes.dot host).mapM parseIPv4Part = some values := by
      unfold parseIPv4Numeric at parsed
      dsimp only at parsed
      split at parsed
      · cases parsed
      · obtain ⟨values, all, _⟩ := Option.bind_eq_some_iff.mp parsed
        exact ⟨values, all⟩
    obtain ⟨values, all⟩ := known
    obtain ⟨pairs, texts, rfl, parts⟩ := mapM_eq_some_iff.mp all
    obtain ⟨nonempty, _, joined⟩ := split_eq_iff.mp texts.symm
    rcases List.eq_nil_or_concat pairs with rfl | ⟨front, last, rfl⟩
    · exact absurd rfl nonempty
    · simp only [List.concat_eq_append, List.map_append, List.map_cons, List.map_nil] at *
      rw [parseIPv4Numeric_of_values all] at parsed
      obtain ⟨⟨few, bytes, bounded⟩, same⟩ := Option.ite_none_right_eq_some.mp parsed
      cases same
      have isPart := fun pair member => (parseIPv4Part_eq_some_iff.mp (parts pair member)).1
      refine ⟨_, .parts (by simpa using few) joined ?_ (isPart last (by simp))
        (by simpa using bounded), rfl⟩
      intro part member
      exact ⟨isPart part (by simp [member]), bytes part.2 (List.mem_map_of_mem member)⟩
  · rintro ⟨_, ⟨few, joined, frontParts, lastPart, bounded⟩, rfl⟩
    rename_i front last
    have isPart : ∀ pair ∈ front ++ [last], IsPart pair.1 pair.2 ∧ pair.2 ≤ 0xffffffff := by
      have most : (256 : Nat) ^ (5 - (front.length + 1)) ≤ 256 ^ 4 :=
        Nat.pow_le_pow_right (by decide) (by omega)
      refine forall_mem_concat (fun pair inFront => ?_) ⟨lastPart, by omega⟩
      have known := frontParts pair inFront
      exact ⟨known.1, by omega⟩
    have texts : Bytes.split Bytes.dot host = (front ++ [last]).map Prod.fst := by
      rw [joined, ← List.map_singleton, ← List.map_append]
      refine split_join (by simp) ?_
      intro text member
      obtain ⟨pair, among, rfl⟩ := List.mem_map.mp member
      exact (isPart pair among).1.not_mem rfl (by decide)
    have values : (Bytes.split Bytes.dot host).mapM parseIPv4Part =
        some (front.map Prod.snd ++ [last.2]) :=
      mapM_eq_some_iff.mpr ⟨front ++ [last], texts.symm, by simp,
        fun pair member => parseIPv4Part_eq_some_iff.mpr (isPart pair member)⟩
    rw [parseIPv4Numeric_of_values values, if_pos]
    refine ⟨by simpa using few, ?_, by simpa using bounded⟩
    intro value member
    obtain ⟨part, among, rfl⟩ := List.mem_map.mp member
    exact (frontParts part among).2

/-! ## Hosts that spell an address -/

/-- A host spells an address as `inet_aton` reads it, as a literal, or as an IPv6 literal
with a zone behind it. -/
inductive Spells (host : Bytes) (ip : IP) : Prop where
  | numeric {address : Nat} (spelling : InetAton host address) (isAddress : ip = ipOfAddress address)
  | literal (parsed : parseIP host = some ip)
  | zoned {literal zone : Bytes} (marked : host = literal ++ Bytes.percent :: zone)
      (isIPv6 : Bytes.colon ∈ literal) (parsed : parseIP literal = some ip)

theorem InetAton.byte (spelling : InetAton host address) (member : b ∈ host) :
    b = Bytes.dot ∨ (hexDigit b).isSome = true ∨ b = 120 ∨ b = 88 := by
  obtain ⟨_, joined, frontParts, lastPart, _⟩ := spelling
  rw [joined] at member
  rcases mem_join member with same | ⟨text, among, inside⟩
  · exact .inl same
  · refine .inr ?_
    rcases List.mem_append.mp among with inFront | isLast
    · obtain ⟨part, isPart, rfl⟩ := List.mem_map.mp inFront
      exact (frontParts part isPart).1.byte inside
    · rw [List.mem_singleton.mp isLast] at inside
      exact lastPart.byte inside

theorem InetAton.not_mem (spelling : InetAton host address) (noDot : b ≠ Bytes.dot)
    (noDigit : hexDigit b = none) (noMark : b ≠ 120 ∧ b ≠ 88) : b ∉ host := by
  intro member
  rcases spelling.byte member with same | digit | same | same
  · exact noDot same
  · rw [noDigit] at digit
    cases digit
  · exact noMark.1 same
  · exact noMark.2 same

theorem InetAton.unmarked (spelling : InetAton host address) :
    Unmarked host := by
  rintro b member (rfl | rfl | rfl) <;>
    exact spelling.not_mem (by decide) rfl (by decide) member

theorem bareHost_of_unmarked (plain : Unmarked host) : bareHost host = host := by
  unfold bareHost
  dsimp only
  rw [stripBrackets_of_unmarked plain, if_pos plain.percent]

theorem bareHost_zoned {literal : Bytes} (isIPv6 : Bytes.colon ∈ literal)
    (parsed : parseIP literal = some ip) (zone : Bytes) :
    bareHost (literal ++ Bytes.percent :: zone) = literal := by
  have plain := unmarked_of_parseIP parsed
  have colonFirst : literal.find? (fun b => decide (b = Bytes.dot ∨ b = Bytes.colon)) =
      some Bytes.colon := by
    rcases parseIP_cases parsed with ⟨quad, four, _⟩ | ⟨_, first⟩
    · rcases isLiteralByte_of_parseIPv4 four isIPv6 with digit | same
      · exact absurd digit (by decide)
      · exact absurd same (by decide)
    · exact first
  obtain ⟨short, same⟩ := stripBrackets_zone plain zone
  unfold bareHost
  dsimp only
  rw [same, if_neg (by simp), Bytes.before_append plain.percent, if_pos colonFirst]

theorem parseIPv4Part_of_parseOctet {part : Bytes} {octet : UInt8}
    (parsed : parseOctet part = some octet) : parseIPv4Part part = some octet.toNat := by
  obtain ⟨nonempty, digits, noZero, value⟩ := parseOctet_eq_some parsed
  have counted : ∀ (text : Bytes) (start : Nat), text.all Bytes.isDigit = true →
      text.foldlM (fun value b => (hexDigit b).bind (fun digit =>
        if digit < 10 then some (value * 10 + digit) else none)) start =
          some (text.foldl (fun value b => value * 10 + (b.toNat - 48)) start) := by
    intro text
    induction text with
    | nil => exact fun _ _ => rfl
    | cons b rest ih =>
      intro start all
      rw [List.all_cons, Bool.and_eq_true] at all
      have range : 48 ≤ b.toNat ∧ b.toNat ≤ 57 := by
        have digit := all.1
        simp only [Bytes.isDigit, decide_eq_true_eq, UInt8.le_iff_toNat_le] at digit
        exact digit
      have small : b.toNat - 48 < 10 := by omega
      rw [List.foldlM_cons, List.foldl_cons, ← ih _ all.2]
      simp [hexDigit, all.1, small]
  have small : octet.toNat ≤ 0xffffffff := by
    have := octet.toNat_lt
    omega
  have notHex : ¬ ((lit "0x").isPrefixOf part = true ∨ (lit "0X").isPrefixOf part = true) := by
    have noMark : ∀ mark : UInt8, Bytes.isDigit mark = false → ¬ [48, mark].isPrefixOf part = true := by
      intro mark other marked
      obtain ⟨rest, rfl⟩ := (isPrefixOf_mark mark part).mp marked
      simp [other] at digits
    rintro (marked | marked)
    · exact noMark 120 (by decide) marked
    · exact noMark 88 (by decide) marked
  unfold parseIPv4Part parseUint
  rw [if_neg notHex, if_neg noZero, if_neg nonempty, counted part 0 digits, ← value]
  exact if_neg (by omega)

private theorem ipOfAddress_octets (a b c d : UInt8) :
    ipOfAddress (inetAddress [a.toNat, b.toNat, c.toNat] d.toNat) =
      IP.v4InV6Prefix ++ [a, b, c, d] := by
  have := a.toNat_lt
  have := b.toNat_lt
  have := c.toNat_lt
  have := d.toNat_lt
  unfold ipOfAddress inetAddress
  simp only [List.reverse_cons, List.reverse_nil, List.nil_append, List.cons_append,
    Nat.ofDigits_cons, Nat.ofDigits_nil, List.length_cons, List.length_nil, List.append_cancel_left_eq,
    List.cons.injEq, and_true, ← UInt8.toNat_inj, UInt8.toNat_ofNat']
  omega

theorem parseIPv4Numeric_of_parseIPv4 {quad : IP} (parsed : parseIPv4 host = some quad) :
    parseIPv4Numeric host = some quad.to16 := by
  obtain ⟨p, q, r, t, a, b, c, d, parts, rfl, first, second, third, fourth⟩ := parseIPv4_eq_some parsed
  have values : (Bytes.split Bytes.dot host).mapM parseIPv4Part =
      some ([a.toNat, b.toNat, c.toNat] ++ [d.toNat]) := by
    simp [parts, parseIPv4Part_of_parseOctet first, parseIPv4Part_of_parseOctet second,
      parseIPv4Part_of_parseOctet third, parseIPv4Part_of_parseOctet fourth]
  have octet := fun b : UInt8 => Nat.le_of_lt_succ b.toNat_lt
  rw [parseIPv4Numeric_of_values values, if_pos]
  · rw [ipOfAddress_octets]
    rfl
  · refine ⟨by simp, ?_, d.toNat_lt⟩
    simp only [List.mem_cons, List.not_mem_nil, or_false, forall_eq_or_imp, forall_eq]
    exact ⟨octet a, octet b, octet c⟩

/-- A host that is not taken for this machine spells no loopback or unspecified address. -/
theorem Spells.elsewhere {fold : CaseFolding} (spells : Spells host ip)
    (elsewhere : localTargetKind fold host = none) :
    ip.isLoopback = false ∧ ip.isUnspecified = false := by
  have judged : ∀ {kind kind' : LocalKind}, (if ip.isLoopback = true then some kind
      else if ip.isUnspecified = true then some kind' else none) = none →
        ip.isLoopback = false ∧ ip.isUnspecified = false := by
    intro kind kind' neither
    split at neither
    · cases neither
    next loopback =>
      split at neither
      · cases neither
      next unspecified =>
        exact ⟨Bool.eq_false_iff.mpr loopback, Bool.eq_false_iff.mpr unspecified⟩
  have ofLiteral : ∀ {literal : Bytes}, bareHost host = literal → parseIP literal = some ip →
      ip.isLoopback = false ∧ ip.isUnspecified = false := by
    intro literal bare parsed
    unfold localTargetKind at elsewhere
    dsimp only at elsewhere
    rw [bare] at elsewhere
    split at elsewhere
    · cases elsewhere
    · rw [parsed] at elsewhere
      exact judged elsewhere
  cases spells with
  | literal parsed => exact ofLiteral (bareHost_of_unmarked (unmarked_of_parseIP parsed)) parsed
  | zoned marked isIPv6 parsed =>
    subst marked
    exact ofLiteral (bareHost_zoned isIPv6 parsed _) parsed
  | numeric spelling isAddress =>
    have bare := bareHost_of_unmarked spelling.unmarked
    have read := parseIPv4Numeric_eq_some_iff.mpr ⟨_, spelling, isAddress⟩
    cases parsed : parseIP host with
    | some other =>
      -- A dotted quad is read by `ParseIP` first, to the same address.
      rcases parseIP_cases parsed with ⟨quad, four, rfl⟩ | ⟨_, colonFirst⟩
      · rw [parseIPv4Numeric_of_parseIPv4 four] at read
        cases read
        exact ofLiteral bare parsed
      · exact absurd (List.mem_of_find?_eq_some colonFirst)
          (spelling.not_mem (by decide) rfl (by decide))
    | none =>
      unfold localTargetKind at elsewhere
      dsimp only at elsewhere
      rw [bare] at elsewhere
      split at elsewhere
      · cases elsewhere
      · rw [parsed] at elsewhere
        dsimp only at elsewhere
        rw [read] at elsewhere
        exact judged elsewhere

/-! ## Validated allowlists -/

variable {fold : CaseFolding}

theorem validateAllowedHosts_eq_ok {hosts : List Bytes} {done : Unit}
    (accepted : validateAllowedHosts fold listen hosts = .ok done) {entry : Bytes}
    (member : entry ∈ hosts) :
    ∃ host port, splitHostPort entry = some (host, port) ∧
      connectSelfReference fold host port listen (isLoopbackListen listen) = none := by
  induction hosts with
  | nil => cases member
  | cons first rest ih =>
    unfold validateAllowedHosts at accepted
    split at accepted
    · cases accepted
    next host port cut =>
      split at accepted
      · cases accepted
      next other =>
        rcases List.mem_cons.mp member with rfl | later
        · exact ⟨host, port, cut, other⟩
        · exact ih accepted later

theorem validateConnect_eq_ok {connect checked : ConnectBlock}
    (accepted : validateConnect fold listen connect = .ok checked) (enabled : checked.enabled = true) :
    validateAllowedHosts fold listen checked.allowedHosts = .ok () := by
  unfold validateConnect at accepted
  split at accepted
  next off =>
    cases accepted
    rw [off] at enabled
    cases enabled
  next =>
    simp only [bind_eq_ok, Unique.exists_iff] at accepted
    obtain ⟨_, _, _, hosts, _, _, ⟨⟩⟩ := accepted
    exact hosts

theorem localTargetKind_of_connectSelfReference {port : Bytes}
    (other : connectSelfReference fold host port listen false = none) :
    localTargetKind fold host = none := by
  unfold connectSelfReference at other
  dsimp only at other
  split at other
  · cases other
  · assumption

/-- Numeric spellings are decided exactly, and on a bind that is no loopback literal no
spelling of a loopback or unspecified address passes validation. -/
theorem numeric_spellings_decided :
    (∀ host ip, parseIPv4Numeric host = some ip ↔
      ∃ address, InetAton host address ∧ ip = ipOfAddress address) ∧
    ∀ fold file valid, validate fold file = .ok valid → valid.connect.enabled = true →
      isLoopbackListen valid.listen = false →
      ∀ entry ∈ valid.connect.allowedHosts, ∃ host port, splitHostPort entry = some (host, port) ∧
        ∀ ip, Spells host ip → ip.isLoopback = false ∧ ip.isUnspecified = false := by
  refine ⟨fun host ip => parseIPv4Numeric_eq_some_iff, ?_⟩
  intro fold file valid accepted enabled reachable entry member
  obtain ⟨_, sameListen, connect⟩ := validate_eq_ok accepted
  obtain ⟨host, port, cut, other⟩ :=
    validateAllowedHosts_eq_ok (validateConnect_eq_ok connect enabled) member
  rw [← sameListen, reachable] at other
  exact ⟨host, port, cut, fun ip spells =>
    spells.elsewhere (localTargetKind_of_connectSelfReference other)⟩

def relayFile (allowedHosts : List Bytes) : ConfigFile where
  listen := lit "0.0.0.0:14443"
  timeout := 0
  routes := []
  connect :=
    { enabled := true, allowedHosts := allowedHosts, tokenEnv := lit "CONNECT_TOKEN"
      tokenFile := [], tokenRef := [], maxConcurrent := 0, dialTimeout := 0, idleTimeout := 0 }
  gatewayAuth := ⟨lit "GATEWAY_TOKEN", [], [], none, false⟩
  tls := ⟨[], []⟩
  aes := ⟨false, [], [], [], [], ⟨[], []⟩⟩

theorem numeric_spellings_decided_relay :
    ∃ valid, validate asciiFolding (relayFile [lit "0x0a000001:443"]) = .ok valid ∧
      ∀ ip, Spells (lit "0x0a000001") ip → ip.isLoopback = false ∧ ip.isUnspecified = false := by
  have accepted : validate asciiFolding (relayFile [lit "0x0a000001:443"]) = .ok _ := rfl
  obtain ⟨host, port, cut, elsewhere⟩ :=
    numeric_spellings_decided.2 _ _ _ accepted rfl rfl (lit "0x0a000001:443") List.mem_cons_self
  cases cut
  exact ⟨_, accepted, elsewhere⟩

example : validate asciiFolding (relayFile [lit "0177.1:443"]) =
    .error (.connect (.entrySelf (lit "0177.1:443") (.localTarget .numericLoopback))) := by rfl

end ClusterRouter.Channel
