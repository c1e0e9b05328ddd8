import ClusterRouter.Channel.Gateway
import ClusterRouter.Channel.UsageTail

/-! `parseVendorSignal` and `parseIntAfter` (`internal/channel/vendor_error.go`) look for a
status code in the tail of a response. The scanner does not look at the byte after a number, so
what it reads need not be a number of the response. -/

set_option autoImplicit false

namespace ClusterRouter.Channel

open Foundation

def classifyVendorCode (code : Int) : VendorClass :=
  if code = 0 then .none
  else if code = 1002 ∨ code = 1041 ∨ code = 2045 then .rateLimited
  else if code = 2056 then .quotaWindow
  else if code = 1008 then .balance
  else if code = 1004 ∨ code = 2049 then .auth
  else if code = 1039 ∨ code = 2013 ∨ code = 1026 ∨ code = 1027 ∨ code = 1042 then .request
  else if code = 1000 ∨ code = 1001 ∨ code = 1024 ∨ code = 1033 then .transient
  else .none

def baseRespMarker : Bytes := lit "\"base_resp\""

def statusCodeField : Bytes := lit "\"status_code\""

def quoteMark : UInt8 := 34

def minusSign : UInt8 := 45

def isSkipped (b : UInt8) : Bool :=
  decide (b = Bytes.colon ∨ b = quoteMark) || isJSONSpace b

/-- `strconv.Atoi` of an optional sign and decimal digits, `int` having 64 bits. -/
def atoi (negative : Bool) (digits : Bytes) : Option Int :=
  let value := Bytes.decimal digits
  if digits = [] then none
  else if negative then if value ≤ 2 ^ 63 then some (-value) else none
  else if value < 2 ^ 63 then some value
  else none

def parseIntAfter (b : Bytes) : Option Int :=
  match b.dropWhile isSkipped with
  | [] => none
  | c :: rest =>
    if c = minusSign then atoi true (rest.takeWhile Bytes.isDigit)
    else atoi false ((c :: rest).takeWhile Bytes.isDigit)

def resetMarkers : List Bytes :=
  [lit "\"reset_at\"", lit "\"reset_time\"", lit "\"reset\"", lit "\"next_reset_time\"",
    lit "\"recovery_time\""]

/-- The first marker that names a time to come. An instant counts from `epoch`, which is
the wall clock's reading at zero. -/
def parseResetAt (epoch now : Int) (b : Bytes) : List Bytes → Option Int
  | [] => none
  | marker :: others =>
    match (Bytes.index b marker).bind
        (fun position => parseIntAfter (b.drop (position + marker.length))) with
    | none => parseResetAt epoch now b others
    | some n =>
      let instant :=
        (if 100000000000 < n then n * 1000000 else n * Duration.second) - epoch
      if 0 < n ∧ now < instant then some instant else parseResetAt epoch now b others

/-- Where the status code is looked for, and what follows the name of its field there. -/
def statusCodeIn (tail : Bytes) : Option (Bytes × Bytes) :=
  let search :=
    match Bytes.lastIndex tail baseRespMarker with
    | some position => tail.drop position
    | none => tail
  match Bytes.index search statusCodeField with
  | some position => some (search, search.drop (position + statusCodeField.length))
  | none =>
    (Bytes.lastIndex tail statusCodeField).map
      (fun position => (tail, tail.drop (position + statusCodeField.length)))

def parseVendorSignal (epoch now : Int) (tail : Bytes) : Option VendorSignal :=
  if tail.length = 0 then none
  else
    match statusCodeIn tail with
    | none => none
    | some (search, after) =>
      match parseIntAfter after with
      | none => none
      | some code =>
        if classifyVendorCode code = .none then none
        else some ⟨code, classifyVendorCode code, parseResetAt epoch now search resetMarkers⟩

/-! ## Complete integers -/

/-- The digits of a JSON integer: no zero leads, but for zero itself. -/
structure IntegerDigits (digits : Bytes) : Prop where
  nonempty : digits ≠ []
  allDigits : ∀ b ∈ digits, Bytes.isDigit b = true
  unpadded : digits.head? = some 48 → digits = [48]

inductive IntegerText : Bytes → Int → Prop where
  | plain {digits : Bytes} (valid : IntegerDigits digits) : IntegerText digits (Bytes.decimal digits)
  | negative {digits : Bytes} (valid : IntegerDigits digits) :
      IntegerText (minusSign :: digits) (-Bytes.decimal digits)

/-- What follows the name of a field is a colon and the whole of an integer, which is bare
and followed by a byte that ends a JSON value, or quoted. -/
inductive CompleteInteger (after : Bytes) (code : Int) : Prop where
  | bare (lead gap text rest : Bytes) (terminator : UInt8)
      (leadSpace : ∀ b ∈ lead, isJSONSpace b = true) (gapSpace : ∀ b ∈ gap, isJSONSpace b = true)
      (integer : IntegerText text code) (ends : endsJSONValue terminator = true)
      (isText : after = lead ++ Bytes.colon :: (gap ++ (text ++ terminator :: rest)))
  | quoted (lead gap text rest : Bytes)
      (leadSpace : ∀ b ∈ lead, isJSONSpace b = true) (gapSpace : ∀ b ∈ gap, isJSONSpace b = true)
      (integer : IntegerText text code)
      (isText : after = lead ++ Bytes.colon :: (gap ++ quoteMark :: (text ++ quoteMark :: rest)))

/-- The bytes that the scanner skips are a colon among spaces and at most one quotation
mark, no zero leads the digits, and a byte that ends a JSON value follows them or, where one
quotation mark was skipped, another. -/
def delimited (after : Bytes) : Bool :=
  let number := after.dropWhile isSkipped
  let stop := (number.dropWhile Bytes.isDigit).head?
  match skipSpace (after.takeWhile isSkipped) with
  | [] => false
  | c :: rest =>
    decide (c = Bytes.colon) && decide (number.head? ≠ some 48) &&
      ((decide (skipSpace rest = []) && stop.any endsJSONValue) ||
        (decide (skipSpace rest = [quoteMark]) && decide (stop = some quoteMark)))

def scansComplete (tail : Bytes) : Bool :=
  match statusCodeIn tail with
  | none => true
  | some (_, after) =>
    match parseIntAfter after with
    | none => true
    | some code => decide (classifyVendorCode code = .none) || delimited after

variable {code : Int} {digits after : Bytes}

theorem classifyVendorCode_pos (classified : classifyVendorCode code ≠ .none) :
    0 < code := by
  by_contra small
  refine classified ?_
  unfold classifyVendorCode
  split
  next => rfl
  next =>
    rw [if_neg (by omega), if_neg (by omega), if_neg (by omega), if_neg (by omega),
      if_neg (by omega), if_neg (by omega)]

theorem atoi_eq_some {negative : Bool} (read : atoi negative digits = some code) :
    digits ≠ [] ∧ code = if negative then -(Bytes.decimal digits : Int) else Bytes.decimal digits := by
  unfold atoi at read
  dsimp only at read
  split at read
  next => cases read
  next nonempty =>
    refine ⟨nonempty, ?_⟩
    split at read
    next isNegative =>
      rw [if_pos isNegative]
      split at read
      next => exact (Option.some.inj read).symm
      next => cases read
    next isPositive =>
      rw [if_neg isPositive]
      split at read
      next => exact (Option.some.inj read).symm
      next => cases read

theorem parseIntAfter_pos (read : parseIntAfter after = some code) (positive : 0 < code) :
    (after.dropWhile isSkipped).takeWhile Bytes.isDigit ≠ [] ∧
      code = Bytes.decimal ((after.dropWhile isSkipped).takeWhile Bytes.isDigit) := by
  unfold parseIntAfter at read
  split at read
  next => cases read
  next c rest found =>
    split at read
    next =>
      have isNegative := (atoi_eq_some read).2
      simp only [if_true] at isNegative
      omega
    next =>
      obtain ⟨nonempty, isCode⟩ := atoi_eq_some read
      rw [found]
      exact ⟨nonempty, by simpa using isCode⟩

theorem isSkipped_of_space {b : UInt8} (space : isJSONSpace b = true) : isSkipped b = true := by
  simp [isSkipped, space]

theorem not_skipped_of_digit {b : UInt8} (digit : Bytes.isDigit b = true) : isSkipped b = false := by
  have spaceless := not_space_of_digit digit
  simp only [Bytes.isDigit, decide_eq_true_eq] at digit
  rw [isSkipped, spaceless, Bool.or_false, decide_eq_false_iff_not]
  rintro (rfl | rfl) <;> exact absurd digit (by decide)

/-! ## The two readings agree -/

theorem scan_eq {separators : Bytes} {stop : UInt8} (rest : Bytes)
    (skipped : ∀ b ∈ separators, isSkipped b = true) (nonempty : digits ≠ [])
    (allDigits : ∀ b ∈ digits, Bytes.isDigit b = true) (stops : Bytes.isDigit stop = false) :
    let after := separators ++ (digits ++ stop :: rest)
    after.takeWhile isSkipped = separators ∧
      after.dropWhile isSkipped = digits ++ stop :: rest ∧
      (digits ++ stop :: rest).takeWhile Bytes.isDigit = digits ∧
      (digits ++ stop :: rest).dropWhile Bytes.isDigit = stop :: rest := by
  intro after
  have read : (digits ++ stop :: rest).takeWhile Bytes.isDigit = digits :=
    takeWhile_append_stop allDigits stops
  have left : (digits ++ stop :: rest).dropWhile Bytes.isDigit = stop :: rest :=
    dropWhile_eq_cons_iff.mpr ⟨digits, allDigits, stops, rfl⟩
  cases digits with
  | nil => exact absurd rfl nonempty
  | cons first more =>
    have unskipped := not_skipped_of_digit (allDigits first List.mem_cons_self)
    exact ⟨takeWhile_append_stop skipped unskipped,
      dropWhile_eq_cons_iff.mpr ⟨separators, skipped, unskipped, rfl⟩, read, left⟩

theorem IntegerDigits.head_ne_zero (valid : IntegerDigits digits)
    (positive : 0 < Bytes.decimal digits) : digits.head? ≠ some 48 := by
  intro padded
  rw [valid.unpadded padded] at positive
  exact absurd positive (by decide)

theorem skipSpace_append {gap mark : Bytes} (gapSpace : ∀ b ∈ gap, isJSONSpace b = true)
    (isMark : mark = [] ∨ mark = [quoteMark]) : skipSpace (gap ++ mark) = mark := by
  unfold skipSpace
  rw [List.dropWhile_append_of_pos gapSpace]
  obtain rfl | rfl := isMark <;> rfl

theorem delimited_eq {lead gap mark : Bytes} {stop : UInt8} (rest : Bytes)
    (leadSpace : ∀ b ∈ lead, isJSONSpace b = true) (gapSpace : ∀ b ∈ gap, isJSONSpace b = true)
    (isMark : mark = [] ∨ mark = [quoteMark]) (nonempty : digits ≠ [])
    (allDigits : ∀ b ∈ digits, Bytes.isDigit b = true) (stops : Bytes.isDigit stop = false) :
    delimited ((lead ++ Bytes.colon :: (gap ++ mark)) ++ (digits ++ stop :: rest)) =
      (decide (digits.head? ≠ some 48) &&
        ((decide (mark = []) && endsJSONValue stop) ||
          (decide (mark = [quoteMark]) && decide (stop = quoteMark)))) := by
  have skipped : ∀ b ∈ lead ++ Bytes.colon :: (gap ++ mark), isSkipped b = true := by
    intro b member
    simp only [List.mem_append, List.mem_cons] at member
    obtain inLead | rfl | inGap | inMark := member
    · exact isSkipped_of_space (leadSpace b inLead)
    · rfl
    · exact isSkipped_of_space (gapSpace b inGap)
    · obtain rfl | rfl := isMark
      · cases inMark
      · rw [List.mem_singleton.mp inMark]
        rfl
  obtain ⟨separators, number, _, left⟩ := scan_eq rest skipped nonempty allDigits stops
  have first : skipSpace (lead ++ Bytes.colon :: (gap ++ mark)) = Bytes.colon :: (gap ++ mark) :=
    dropWhile_eq_cons_iff.mpr ⟨lead, leadSpace, by decide, rfl⟩
  have head : (digits ++ stop :: rest).head? = digits.head? := by
    cases digits with
    | nil => exact absurd rfl nonempty
    | cons digit more => rfl
  unfold delimited
  rw [separators, number, first]
  simp [left, head, skipSpace_append gapSpace isMark]

theorem delimited_of_complete (complete : CompleteInteger after code) (positive : 0 < code) :
    delimited after = true := by
  cases complete with
  | bare lead gap text rest terminator leadSpace gapSpace integer ends isText =>
    cases integer with
    | negative valid => omega
    | plain valid =>
      have form := delimited_eq rest leadSpace gapSpace (.inl rfl) valid.nonempty
        valid.allDigits (not_digit_of_ends ends)
      have unpadded := valid.head_ne_zero (by omega)
      rw [List.append_nil, List.append_assoc, List.cons_append] at form
      rw [isText, form]
      simp [unpadded, ends]
  | quoted lead gap text rest leadSpace gapSpace integer isText =>
    cases integer with
    | negative valid => omega
    | plain valid =>
      have form := delimited_eq rest leadSpace gapSpace (.inr rfl) valid.nonempty
        valid.allDigits (show Bytes.isDigit quoteMark = false from rfl)
      have unpadded := valid.head_ne_zero (by omega)
      rw [List.append_assoc, List.cons_append, List.append_assoc, List.singleton_append] at form
      rw [isText, form]
      simp [unpadded]

theorem complete_of_delimited (read : parseIntAfter after = some code) (positive : 0 < code)
    (isDelimited : delimited after = true) : CompleteInteger after code := by
  obtain ⟨nonempty, rfl⟩ := parseIntAfter_pos read positive
  have whole : after.takeWhile isSkipped ++ after.dropWhile isSkipped = after :=
    List.takeWhile_append_dropWhile
  have parts : (after.dropWhile isSkipped).takeWhile Bytes.isDigit ++
      (after.dropWhile isSkipped).dropWhile Bytes.isDigit = after.dropWhile isSkipped :=
    List.takeWhile_append_dropWhile
  unfold delimited at isDelimited
  dsimp only at isDelimited
  generalize isSkippedRun : after.takeWhile isSkipped = skipped at whole isDelimited
  generalize isNumber : after.dropWhile isSkipped = number at *
  generalize isDigits : number.takeWhile Bytes.isDigit = digits at *
  split at isDelimited
  next => cases isDelimited
  next c rest first =>
    obtain ⟨lead, leadSpace, _, isLead⟩ := dropWhile_eq_cons_iff.mp first
    simp only [Bool.and_eq_true, decide_eq_true_eq, Bool.or_eq_true, Option.any_eq_true] at isDelimited
    obtain ⟨⟨rfl, unpadded⟩, stop⟩ := isDelimited
    have valid : IntegerDigits digits := by
      refine ⟨nonempty, ?_, fun padded => ?_⟩
      · subst isDigits
        exact fun b member => List.mem_takeWhile_imp member
      · refine absurd ?_ unpadded
        rw [← parts, List.head?_append, padded]
        rfl
    obtain ⟨bare, terminator, isStop, ends⟩ | ⟨quoted, isStop⟩ := stop
    · obtain ⟨others, isRest⟩ := List.head?_eq_some_iff.mp isStop
      refine .bare lead rest digits others terminator leadSpace ?_ (.plain valid) ends ?_
      · exact List.dropWhile_eq_nil_iff.mp bare
      · rw [← whole, isLead, ← parts, isRest, List.append_assoc, List.cons_append]
    · obtain ⟨others, isRest⟩ := List.head?_eq_some_iff.mp isStop
      obtain ⟨gap, gapSpace, _, isGap⟩ := dropWhile_eq_cons_iff.mp quoted
      refine .quoted lead gap digits others leadSpace gapSpace (.plain valid) ?_
      rw [← whole, isLead, isGap, ← parts, isRest, List.append_assoc, List.cons_append,
        List.append_assoc, List.singleton_append]

/-- The field that was read holds a complete integer of the code. -/
def ReportsComplete (epoch now : Int) (tail : Bytes) : Prop :=
  ∀ signal, parseVendorSignal epoch now tail = some signal →
    ∃ search after, statusCodeIn tail = some (search, after) ∧ CompleteInteger after signal.code

theorem statusCodeIn_nil : statusCodeIn [] = none := by decide

theorem parseVendorSignal_eq_some {epoch now : Int} {tail : Bytes} {signal : VendorSignal} :
    parseVendorSignal epoch now tail = some signal ↔
      ∃ search after, statusCodeIn tail = some (search, after) ∧
        parseIntAfter after = some signal.code ∧ classifyVendorCode signal.code ≠ .none ∧
        signal = ⟨signal.code, classifyVendorCode signal.code,
          parseResetAt epoch now search resetMarkers⟩ := by
  constructor
  · intro reported
    unfold parseVendorSignal at reported
    split at reported
    next => cases reported
    next =>
      split at reported
      next => cases reported
      next search after found =>
        split at reported
        next => cases reported
        next code read =>
          split at reported
          next => cases reported
          next classified =>
            cases reported
            exact ⟨search, after, found, read, classified, rfl⟩
  · rintro ⟨search, after, found, read, classified, isSignal⟩
    have nonempty : tail.length ≠ 0 := by
      intro empty
      rw [List.length_eq_zero_iff.mp empty, statusCodeIn_nil] at found
      cases found
    unfold parseVendorSignal
    rw [if_neg nonempty, found]
    dsimp only
    rw [read]
    dsimp only
    rw [if_neg classified, ← isSignal]

theorem reportsComplete_iff (epoch now : Int) (tail : Bytes) :
    ReportsComplete epoch now tail ↔ scansComplete tail = true := by
  unfold scansComplete
  constructor
  · intro complete
    split
    next => rfl
    next search after found =>
      split
      next => rfl
      next code read =>
        by_cases classified : classifyVendorCode code = .none
        · simp [classified]
        · obtain ⟨_, _, same, isComplete⟩ :=
            complete ⟨code, classifyVendorCode code, parseResetAt epoch now search resetMarkers⟩
              (parseVendorSignal_eq_some.mpr ⟨search, after, found, read, classified, rfl⟩)
          cases found.symm.trans same
          rw [delimited_of_complete isComplete (classifyVendorCode_pos classified), Bool.or_true]
  · intro scanned signal reported
    obtain ⟨search, after, found, read, classified, _⟩ := parseVendorSignal_eq_some.mp reported
    rw [found] at scanned
    dsimp only at scanned
    rw [read] at scanned
    simp only [classified, decide_false, Bool.false_or] at scanned
    exact ⟨search, after, found,
      complete_of_delimited read (classifyVendorCode_pos classified) scanned⟩

/-- Every reported code is that of a complete integer iff the scan that classified was
delimited. Where it is, a tail without one leaves the retirement to the status. -/
theorem vendor_code_complete_iff (epoch now : Int) (tail : Bytes) :
    (ReportsComplete epoch now tail ↔ scansComplete tail = true) ∧
      (scansComplete tail = true →
        (∀ search after code, statusCodeIn tail = some (search, after) →
          ¬ CompleteInteger after code) →
        ∀ reservation status usage readAt,
          retirementFor reservation ⟨status, usage, parseVendorSignal epoch now tail⟩ readAt =
            if isQuotaStatus status then
              some (.retireForWindow reservation.route reservation.index .quota)
            else none) := by
  refine ⟨reportsComplete_iff epoch now tail, ?_⟩
  intro scanned incomplete reservation status usage readAt
  have silent : parseVendorSignal epoch now tail = none := by
    cases reported : parseVendorSignal epoch now tail with
    | none => rfl
    | some signal =>
      obtain ⟨search, after, found, complete⟩ :=
        (reportsComplete_iff epoch now tail).mpr scanned signal reported
      exact absurd complete (incomplete search after signal.code found)
  rw [silent]
  rfl

/-- A fraction is read as the integer before its point: the key that the response was served
with is retired for a rate limit, or kept although the status says that its quota is spent. -/
theorem fractional_code_read :
    (∃ signal, parseVendorSignal 0 0 (lit "\"status_code\":1002.5") = some signal ∧
      signal.code = 1002 ∧ signal.retires = true ∧
      ¬ ReportsComplete 0 0 (lit "\"status_code\":1002.5")) ∧
      isQuotaStatus 429 = true ∧
      retirementFor ⟨"chat", 0, 0⟩ ⟨429, ⟨.completed, 0, false⟩,
        parseVendorSignal 0 0 (lit "\"status_code\":1004.5")⟩ 0 = none := by
  refine ⟨⟨⟨1002, .rateLimited, none⟩, by decide +kernel, rfl, rfl, ?_⟩, rfl, by decide +kernel⟩
  rw [reportsComplete_iff]
  decide +kernel

end ClusterRouter.Channel
