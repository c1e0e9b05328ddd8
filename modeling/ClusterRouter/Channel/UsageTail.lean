import ClusterRouter.Channel.Usage
import ClusterRouter.Foundation.Scan

/-! What can be read at a marker, said of the bytes alone, and that the extractor reads it at
the last marker where it can be. A value holds no quotation mark, so none that could be read is
cut. -/

set_option autoImplicit false

namespace ClusterRouter.Channel

open Foundation

/-- A colon among spaces, digits that fit 64 bits and a byte that ends a JSON value. -/
structure UsageValue where
  lead : Bytes
  gap : Bytes
  digits : Bytes
  terminator : UInt8
  leadSpace : ∀ b ∈ lead, isJSONSpace b = true
  gapSpace : ∀ b ∈ gap, isJSONSpace b = true
  nonempty : digits ≠ []
  allDigits : ∀ b ∈ digits, Bytes.isDigit b = true
  ends : endsJSONValue terminator = true
  fits : Bytes.decimal digits < 2 ^ 63

namespace UsageValue

def text (value : UsageValue) : Bytes :=
  value.lead ++ Bytes.colon :: (value.gap ++ (value.digits ++ [value.terminator]))

def number (value : UsageValue) : Int := Bytes.decimal value.digits

end UsageValue

def ReadsAt (tail : Bytes) (position : Nat) (n : Int) : Prop :=
  ∃ (value : UsageValue) (rest : Bytes),
    tail.drop position = usageMarker ++ (value.text ++ rest) ∧ n = value.number

/-! ## One value -/

variable {b : UInt8} {n : Int} {tail : Bytes} {position : Nat}

theorem not_space_of_digit (digit : Bytes.isDigit b = true) : isJSONSpace b = false := by
  simp only [Bytes.isDigit, decide_eq_true_eq] at digit
  simp only [isJSONSpace, decide_eq_false_iff_not]
  rintro (rfl | rfl | rfl | rfl) <;> exact absurd digit (by decide)

theorem not_digit_of_ends (ends : endsJSONValue b = true) : Bytes.isDigit b = false := by
  simp only [endsJSONValue, isJSONSpace, Bool.or_eq_true, decide_eq_true_eq] at ends
  obtain (rfl | rfl | rfl) | (rfl | rfl | rfl | rfl) := ends <;> rfl

theorem parseInt64_eq_some_iff {digits : Bytes} :
    parseInt64 digits = some n ↔ Bytes.decimal digits < 2 ^ 63 ∧ n = Bytes.decimal digits := by
  unfold parseInt64
  dsimp only
  rw [Bytes.foldl_eq_decimal]
  split
  next small =>
    constructor
    · intro same
      exact ⟨small, (Option.some.inj same).symm⟩
    · rintro ⟨_, rfl⟩
      rfl
  next large =>
    constructor
    · intro same
      cases same
    · rintro ⟨small, _⟩
      exact absurd small large

theorem parseUsageValue_text (value : UsageValue) (rest : Bytes) :
    parseUsageValue (value.text ++ rest) = some value.number := by
  obtain ⟨lead, gap, digits, terminator, leadSpace, gapSpace, nonempty, allDigits, ends, fits⟩ := value
  have stop := not_digit_of_ends ends
  have first : skipSpace (lead ++ Bytes.colon :: (gap ++ (digits ++ [terminator])) ++ rest) =
      Bytes.colon :: (gap ++ (digits ++ terminator :: rest)) := by
    refine dropWhile_eq_cons_iff.mpr ⟨lead, leadSpace, by decide, ?_⟩
    simp
  have second : skipSpace (gap ++ (digits ++ terminator :: rest)) = digits ++ terminator :: rest := by
    cases digits with
    | nil => exact absurd rfl nonempty
    | cons digit more =>
      exact dropWhile_eq_cons_iff.mpr
        ⟨gap, gapSpace, not_space_of_digit (allDigits digit List.mem_cons_self), rfl⟩
  have third : (digits ++ terminator :: rest).dropWhile Bytes.isDigit = terminator :: rest :=
    dropWhile_eq_cons_iff.mpr ⟨digits, allDigits, stop, rfl⟩
  unfold parseUsageValue
  rw [UsageValue.text, first]
  dsimp only
  rw [if_neg (by simp), second, takeWhile_append_stop allDigits stop, if_neg nonempty, third]
  dsimp only
  rw [if_pos ends]
  exact parseInt64_eq_some_iff.mpr ⟨fits, rfl⟩

theorem parseUsageValue_eq_some_iff {b : Bytes} :
    parseUsageValue b = some n ↔ ∃ value rest, b = UsageValue.text value ++ rest ∧ n = value.number := by
  constructor
  · intro read
    unfold parseUsageValue at read
    split at read
    next => cases read
    next c after first =>
      split at read
      next => cases read
      next isColon =>
        have isColon : c = Bytes.colon := by simpa using isColon
        dsimp only at read
        split at read
        next => cases read
        next nonempty =>
          split at read
          next => cases read
          next terminator rest third =>
            split at read
            next ends =>
              obtain ⟨lead, leadSpace, _, isText⟩ := dropWhile_eq_cons_iff.mp first
              obtain ⟨fits, isNumber⟩ := parseInt64_eq_some_iff.mp read
              refine ⟨⟨lead, after.takeWhile isJSONSpace, (skipSpace after).takeWhile Bytes.isDigit,
                terminator, leadSpace, fun b member => List.mem_takeWhile_imp member, nonempty,
                fun b member => List.mem_takeWhile_imp member, ends, fits⟩, rest, ?_, isNumber⟩
              have number : (skipSpace after).takeWhile Bytes.isDigit ++ terminator :: rest =
                  skipSpace after := by rw [← third, List.takeWhile_append_dropWhile]
              have whole : after.takeWhile isJSONSpace ++ skipSpace after = after :=
                List.takeWhile_append_dropWhile
              rw [isText, isColon, UsageValue.text]
              simp only [List.append_assoc, List.cons_append, List.nil_append]
              rw [number, whole]
            next => cases read
  · rintro ⟨value, rest, rfl, rfl⟩
    exact parseUsageValue_text value rest

theorem UsageValue.mem_text {value : UsageValue} (member : b ∈ value.text) :
    b ≠ 34 ∧ b ≠ 116 := by
  have spaced (space : isJSONSpace b = true) : b ≠ 34 ∧ b ≠ 116 := by
    simp only [isJSONSpace, decide_eq_true_eq] at space
    obtain rfl | rfl | rfl | rfl := space <;> decide
  simp only [text, List.mem_append, List.mem_cons, List.not_mem_nil, or_false] at member
  obtain lead | rfl | gap | digit | rfl := member
  · exact spaced (value.leadSpace b lead)
  · decide
  · exact spaced (value.gapSpace b gap)
  · have digit := value.allDigits b digit
    simp only [Bytes.isDigit, decide_eq_true_eq] at digit
    constructor <;> rintro rfl <;> exact absurd digit (by decide)
  · have ends := value.ends
    simp only [endsJSONValue, isJSONSpace, Bool.or_eq_true, decide_eq_true_eq] at ends
    obtain (same | same | same) | (same | same | same | same) := ends <;> rw [same] <;> decide

/-! ## The last value -/

theorem ReadsAt.occurs (reads : ReadsAt tail position n) :
    Bytes.OccursAt tail usageMarker position := by
  obtain ⟨value, rest, same, _⟩ := reads
  exact ⟨_, same⟩

theorem readsAt_iff_parse (occurs : Bytes.OccursAt tail usageMarker position) :
    ReadsAt tail position n ↔
      parseUsageValue (tail.drop (position + usageMarker.length)) = some n := by
  obtain ⟨rest, same⟩ := occurs
  have after : tail.drop (position + usageMarker.length) = rest := by
    rw [← List.drop_drop, same, List.drop_left]
  rw [after, parseUsageValue_eq_some_iff, ReadsAt, same]
  simp only [List.append_cancel_left_eq]

theorem value_before_marker {value : UsageValue} {rest other : Bytes} {offset : Nat}
    (positive : 0 < offset)
    (marked : (usageMarker ++ (value.text ++ rest)).drop offset = usageMarker ++ other) :
    (usageMarker ++ value.text).length ≤ offset := by
  by_contra inside
  have length : usageMarker.length = 14 := rfl
  have quote : (usageMarker ++ (value.text ++ rest))[offset]? = some 34 := by
    have first := congrArg (fun bytes => bytes[0]?) marked
    simp only [List.getElem?_drop, Nat.add_zero] at first
    exact first.trans rfl
  have letter : (usageMarker ++ (value.text ++ rest))[offset + 1]? = some 116 := by
    have second := congrArg (fun bytes => bytes[1]?) marked
    simp only [List.getElem?_drop] at second
    exact second.trans rfl
  rw [List.length_append, length] at inside
  obtain within | past := Nat.lt_or_ge offset usageMarker.length
  · -- The only other quotation mark of a marker is its last byte, and no letter follows it.
    have lastQuote : ∀ offset < usageMarker.length, 0 < offset → usageMarker[offset]? = some 34 →
        offset = 13 := by decide
    rw [List.getElem?_append_left within] at quote
    have isLast := lastQuote offset within positive quote
    subst isLast
    have begins : 0 < value.text.length := by simp [UsageValue.text]
    rw [List.getElem?_append_right (Nat.le_of_eq length), length, Nat.sub_self,
      List.getElem?_append_left begins] at letter
    exact (UsageValue.mem_text (List.mem_of_getElem? letter)).2 rfl
  · rw [List.getElem?_append_right past, length, List.getElem?_append_left (by omega)] at quote
    exact (UsageValue.mem_text (List.mem_of_getElem? quote)).1 rfl

theorem readsAt_take_iff {cut : Nat} (marked : Bytes.OccursAt tail usageMarker cut)
    (before : position < cut) :
    ReadsAt (tail.take cut) position n ↔ ReadsAt tail position n := by
  constructor
  · rintro ⟨value, rest, same, isNumber⟩
    refine ⟨value, rest ++ tail.drop cut, ?_, isNumber⟩
    have bounded := marked.lt_length (by decide)
    have whole : tail.drop position = (tail.take cut).drop position ++ tail.drop cut := by
      rw [← List.drop_append_of_le_length (by rw [List.length_take]; omega), List.take_append_drop]
    rw [whole, same]
    simp only [List.append_assoc]
  · rintro ⟨value, rest, same, isNumber⟩
    obtain ⟨other, marked⟩ := marked
    have moved : (usageMarker ++ (value.text ++ rest)).drop (cut - position) = usageMarker ++ other := by
      rw [← same, List.drop_drop, Nat.add_sub_cancel' (Nat.le_of_lt before), marked]
    have room := value_before_marker (by omega) moved
    refine ⟨value, rest.take (cut - position - (usageMarker ++ value.text).length), ?_, isNumber⟩
    rw [List.drop_take, same, ← List.append_assoc, List.take_append, List.take_of_length_le room,
      List.append_assoc]

theorem lastUsage_spec (tail : Bytes) :
    (∀ n, TailExtractor.lastUsage tail = some n → ∃ position, ReadsAt tail position n ∧
      ∀ later value, position < later → ¬ ReadsAt tail later value) ∧
    (TailExtractor.lastUsage tail = none → ∀ position value, ¬ ReadsAt tail position value) := by
  fun_induction TailExtractor.lastUsage tail with
  | case1 rest unmarked =>
    have absent := (Bytes.lastIndex_eq_none_iff (by decide)).mp unmarked
    refine ⟨fun n read => (by cases read), fun _ position value reads => ?_⟩
    exact absent position reads.occurs
  | case2 rest position found n read =>
    obtain ⟨occurs, last⟩ := (Bytes.lastIndex_eq_some_iff (by decide)).mp found
    refine ⟨?_, fun impossible => by cases impossible⟩
    intro m same
    cases same
    exact ⟨position, (readsAt_iff_parse occurs).mpr read,
      fun later value after reads => last later after reads.occurs⟩
  | case3 rest position found unread ih =>
    obtain ⟨occurs, last⟩ := (Bytes.lastIndex_eq_some_iff (by decide)).mp found
    -- What can be read at all can be read before the marker that is passed over.
    have earlier {other : Nat} {value : Int} (reads : ReadsAt rest other value) :
        other < position := by
      by_contra later
      obtain rfl | after := Nat.eq_or_lt_of_le (Nat.le_of_not_lt later)
      · rw [readsAt_iff_parse occurs, unread] at reads
        cases reads
      · exact last other after reads.occurs
    constructor
    · intro n read
      obtain ⟨place, reads, isLast⟩ := ih.1 n read
      have bounded := reads.occurs.lt_length (by decide)
      rw [List.length_take] at bounded
      refine ⟨place, (readsAt_take_iff occurs (by omega)).mp reads, fun later value after reads => ?_⟩
      exact isLast later value after ((readsAt_take_iff occurs (earlier reads)).mpr reads)
    · intro silent other value reads
      exact ih.2 silent other value ((readsAt_take_iff occurs (earlier reads)).mpr reads)

theorem ReadsAt.unique {m : Int} (one : ReadsAt tail position n) (other : ReadsAt tail position m) :
    n = m := by
  have first := (readsAt_iff_parse one.occurs).mp one
  have second := (readsAt_iff_parse one.occurs).mp other
  exact Option.some.inj (first.symm.trans second)

theorem result_of_last (reads : ReadsAt tail position n)
    (last : ∀ later value, position < later → ¬ ReadsAt tail later value) :
    TailExtractor.result ⟨tail⟩ = ⟨.completed, n, false⟩ := by
  obtain ⟨ofSome, ofNone⟩ := lastUsage_spec tail
  unfold TailExtractor.result
  cases read : TailExtractor.lastUsage tail with
  | none => exact absurd reads (ofNone read position n)
  | some m =>
    obtain ⟨other, isOther, isLast⟩ := ofSome m read
    obtain before | rfl | after := Nat.lt_trichotomy position other
    · exact absurd isOther (last other m before)
    · rw [reads.unique isOther]
    · exact absurd reads (isLast position n after)

theorem result_unknown_iff (tail : Bytes) :
    (TailExtractor.result ⟨tail⟩).tokens = tokensUnknown ↔
      ∀ position n, ¬ ReadsAt tail position n := by
  obtain ⟨ofSome, ofNone⟩ := lastUsage_spec tail
  unfold TailExtractor.result
  cases read : TailExtractor.lastUsage tail with
  | none => exact iff_of_true rfl (ofNone read)
  | some n =>
    obtain ⟨position, reads, _⟩ := ofSome n read
    refine iff_of_false ?_ (fun unread => unread position n reads)
    have range := TailExtractor.lastUsage_range tail read
    simp only [tokensUnknown]
    omega

/-! ## The tail of a body -/

theorem observe_tail (e : TailExtractor) (b : Bytes) (bounded : e.tail.length ≤ usageTailBytes) :
    (e.observe b).tail = (e.tail ++ b).rtake usageTailBytes := by
  unfold TailExtractor.observe List.rtake
  generalize usageTailBytes = limit at *
  split
  next empty =>
    rw [List.length_eq_zero_iff.mp empty, List.append_nil, Nat.sub_eq_zero_of_le bounded,
      List.drop_zero]
  next =>
    dsimp only
    split
    next => rfl
    next short =>
      rw [Nat.sub_eq_zero_of_le (Nat.le_of_not_lt short), List.drop_zero]

theorem foldl_observe_tail (chunks : List Bytes) (e : TailExtractor)
    (bounded : e.tail.length ≤ usageTailBytes) :
    (chunks.foldl TailExtractor.observe e).tail =
      (e.tail ++ chunks.flatten).rtake usageTailBytes := by
  induction chunks generalizing e with
  | nil =>
    rw [List.foldl_nil, List.flatten_nil, List.append_nil, List.rtake,
      Nat.sub_eq_zero_of_le bounded, List.drop_zero]
  | cons chunk rest ih =>
    have step := observe_tail e chunk bounded
    have still : (e.observe chunk).tail.length ≤ usageTailBytes := by
      rw [step, List.rtake, List.length_drop]
      omega
    rw [List.foldl_cons, ih _ still, step, rtake_append_rtake, List.flatten_cons,
      List.append_assoc]

theorem usageOf_eq (chunks : List Bytes) :
    usageOf chunks = TailExtractor.result ⟨chunks.flatten.rtake usageTailBytes⟩ := by
  have kept := foldl_observe_tail chunks .new (by decide)
  unfold usageOf
  cases folded : chunks.foldl TailExtractor.observe .new with
  | mk tail =>
    rw [folded] at kept
    exact congrArg (fun tail => TailExtractor.result ⟨tail⟩) kept

/-- The usage of a body is what its last bytes say, however the body was cut: the value at
the last marker where one can be read, and unknown if there is none. -/
theorem usage_of_last_bytes (chunks : List Bytes) :
    let tail := chunks.flatten.rtake usageTailBytes
    (∀ position n, ReadsAt tail position n →
        (∀ later value, position < later → ¬ ReadsAt tail later value) →
        usageOf chunks = ⟨.completed, n, false⟩) ∧
      ((∀ position n, ¬ ReadsAt tail position n) ↔ (usageOf chunks).tokens = tokensUnknown) ∧
      ((∀ position n, ¬ ReadsAt tail position n) ↔ (usageOf chunks).estimated = true) ∧
      ∀ others : List Bytes, others.flatten.rtake usageTailBytes = tail →
        usageOf others = usageOf chunks := by
  intro tail
  have isUsage : usageOf chunks = TailExtractor.result ⟨tail⟩ := usageOf_eq chunks
  clear_value tail
  refine ⟨?_, ?_, ?_, ?_⟩
  · intro position n reads last
    exact isUsage.trans (result_of_last reads last)
  · rw [isUsage]
    exact (result_unknown_iff tail).symm
  · rw [isUsage, (TailExtractor.result_readable _).estimated]
    exact (result_unknown_iff tail).symm
  · intro others same
    rw [usageOf_eq others, same, isUsage]

end ClusterRouter.Channel
