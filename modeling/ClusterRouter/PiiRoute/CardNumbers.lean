import ClusterRouter.Foundation.Backtracking

/-! `panOrTFN` of `internal/piiroute/piiroute.go`. The group of a digit takes the separator
after it also where no digit follows, so a bare number may count as a grouped one. -/

set_option autoImplicit false

namespace ClusterRouter.PiiRoute

open Foundation

/-! ## The patterns -/

/-- The class `[\s]`. -/
def isSpace (b : UInt8) : Bool := decide (b = 9 ∨ b = 10 ∨ b = 12 ∨ b = 13 ∨ b = 32)

/-- The class `[\s.-]`. -/
def isSeparator (b : UInt8) : Bool := isSpace b || decide (b = 46 ∨ b = 45)

def digit : Pattern := .byte Bytes.isDigit

def digitGroup : Pattern := .andThen digit (.optional (.byte isSeparator))

def spacedTriple : Pattern := .andThen (.optional (.byte isSpace)) (digit.repeated 3 0)

def triples (leading : Nat) : Pattern :=
  .andThen (digit.repeated leading 0) (.andThen spacedTriple spacedTriple)

def cardCandidate : Pattern :=
  .orElse (.delimited (digitGroup.repeated 12 7))
    (.orElse (.delimited (triples 3)) (.delimited (triples 2)))

/-- A letter in either case. The long s is the only other character that is equal to a
letter of a keyword. -/
def caseless (letter : UInt8) : Pattern :=
  .orElse (.byte (fun b => decide (b = letter ∨ b = letter - 32)))
    (if letter = 115 then .andThen (.byte (· = 0xC5)) (.byte (· = 0xBF)) else fun _ => [])

def keyword (word : Bytes) : Pattern :=
  word.foldr (fun letter rest => .andThen (caseless letter) rest) (fun place => [place])

def cardKeyword : Pattern :=
  .delimited ((["card", "visa", "mastercard", "amex", "pan", "payment"].map
    (fun word => keyword (lit word))).foldr .orElse (fun _ => []))

def tfnKeyword : Pattern :=
  .delimited (.orElse (keyword (lit "tfn"))
    (.andThen (keyword (lit "tax"))
      (.andThen (.oneOrMore (.byte (fun b => isSpace b || decide (b = 11)))) (keyword (lit "file")))))

/-! ## The check -/

def keepDigits (s : Bytes) : Bytes := s.filter Bytes.isDigit

/-- The sum from the last digit, every second one doubled. -/
def luhnSum (alt : Bool) : Bytes → Nat
  | [] => 0
  | b :: rest =>
    let d := b.toNat - 48
    (if alt then (if 9 < d * 2 then d * 2 - 9 else d * 2) else d) + luhnSum (!alt) rest

def luhnValid (digits : Bytes) : Bool := luhnSum false digits.reverse % 10 = 0

def tfnValid (digits : Bytes) : Bool :=
  digits.length = 9 &&
    (List.zipWith (fun b weight => (b.toNat - 48) * weight) digits [1, 4, 3, 7, 5, 8, 6, 9, 2]).sum
      % 11 = 0

def isGrouping (b : UInt8) : Bool := decide (b ∈ lit " .-")

def confirmed (cardCtx tfnCtx : Bool) (m : Bytes) : Bool :=
  let digits := keepDigits m
  let grouped := m.any isGrouping
  if digits.length = 9 ∧ tfnValid digits then tfnCtx || grouped
  else if 13 ≤ digits.length ∧ luhnValid digits then cardCtx || grouped
  else false

def panOrTFN (s : Bytes) : Bool :=
  (cardCandidate.findAll 0 [] s).any
    (confirmed (cardKeyword.occurs [] s) (tfnKeyword.occurs [] s))

/-! ## Texts of bare numbers -/

/-- A letter of ASCII, or a byte of any other character. -/
def isLetter (b : UInt8) : Bool := Bytes.isUpper b || Bytes.isLower b || decide (0x80 ≤ b)

/-- Two digits are of one run or have a letter between them. -/
def LettersApart (s : Bytes) : Prop :=
  ∀ j < s.length, ∀ i < j, Bytes.isDigit (s.getD i 0) → Bytes.isDigit (s.getD j 0) →
    (∀ k < j, i < k → Bytes.isDigit (s.getD k 0)) ∨ ∃ k < j, i < k ∧ isLetter (s.getD k 0)

instance (s : Bytes) : Decidable (LettersApart s) :=
  @Nat.decidableBallLT s.length _ fun _ _ => inferInstance

/-- A number that passes for a grouped card number: a separator follows it, and a word. -/
def CardShaped (s : Bytes) : Prop :=
  ∃ front run separator next rest, s = front ++ (run ++ separator :: next :: rest) ∧
    front.getLast?.any Pattern.isWord = false ∧ (∀ b ∈ run, Bytes.isDigit b = true) ∧
    13 ≤ run.length ∧ run.length ≤ 19 ∧ luhnValid run = true ∧ isGrouping separator = true ∧
    Pattern.isWord next = true

private theorem byte_classes : ∀ n : Fin 256,
    (Bytes.isDigit (UInt8.ofFin n) = true → Pattern.isWord (UInt8.ofFin n) = true ∧
      isSeparator (UInt8.ofFin n) = false ∧ isGrouping (UInt8.ofFin n) = false) ∧
    (isSeparator (UInt8.ofFin n) = true → Pattern.isWord (UInt8.ofFin n) = false ∧
      isLetter (UInt8.ofFin n) = false) ∧
    (isGrouping (UInt8.ofFin n) = true ∨ isSpace (UInt8.ofFin n) = true →
      isSeparator (UInt8.ofFin n) = true) := by
  decide +kernel

section

variable {b : UInt8}

theorem classes_of_isDigit (isDigit : Bytes.isDigit b = true) :
    Pattern.isWord b = true ∧ isSeparator b = false ∧ isGrouping b = false :=
  (byte_classes b.toFin).1 isDigit

theorem classes_of_isSeparator (separator : isSeparator b = true) :
    Pattern.isWord b = false ∧ isLetter b = false :=
  (byte_classes b.toFin).2.1 separator

theorem not_isDigit_of_isSeparator (separator : isSeparator b = true) : Bytes.isDigit b = false := by
  by_contra isDigit
  simp [(classes_of_isDigit (by simpa using isDigit)).2.1] at separator

theorem isSeparator_of_or (grouping : isGrouping b = true ∨ isSpace b = true) :
    isSeparator b = true :=
  (byte_classes b.toFin).2.2 grouping

end

variable {behind ahead run tail : Bytes} {place stop : Place}

/-- No digit follows a separator that follows a digit. -/
theorem LettersApart.not_isDigit {a separator b : UInt8} {rest : Bytes}
    (apart : LettersApart ((a :: behind).reverse ++ separator :: b :: rest))
    (isDigit : Bytes.isDigit a = true) (isSep : isSeparator separator = true) :
    Bytes.isDigit b = false := by
  have byteAt (k : Nat) : ((a :: behind).reverse ++ separator :: b :: rest).getD (behind.length + k) 0 =
      (a :: separator :: b :: rest).getD k 0 := by
    rw [List.reverse_cons, List.append_assoc, List.singleton_append,
      List.getD_append_right _ _ _ _ (by simp)]
    simp
  by_contra digit
  rw [Bool.not_eq_false] at digit
  have between := apart (behind.length + 2) (by simp) (behind.length + 0) (by omega)
    (by rw [byteAt]; exact isDigit) (by rw [byteAt]; exact digit)
  rcases between with inside | ⟨k, below, above, letter⟩
  · have middle := inside (behind.length + 1) (by omega) (by omega)
    rw [byteAt] at middle
    have notSep : isSeparator separator = false := (classes_of_isDigit middle).2.1
    rw [notSep] at isSep
    cases isSep
  · obtain rfl : k = behind.length + 1 := by omega
    rw [byteAt] at letter
    have isLetter : isLetter separator = true := letter
    rw [(classes_of_isSeparator isSep).2] at isLetter
    cases isLetter

/-! ## Where a candidate ends -/

theorem digitGroup_eq_nil (ends : ∀ b ∈ place.ahead.head?, Bytes.isDigit b = false) :
    digitGroup place = [] := by
  obtain ⟨behind, ahead⟩ := place
  cases ahead with
  | nil => rfl
  | cons b rest => simp [digitGroup, digit, Pattern.andThen, Pattern.byte, ends b rfl]

/-- Groups up to a boundary: the whole run is taken or nothing, and then a separator if
there is one. -/
theorem groups_of_run (digits : ∀ b ∈ run, Bytes.isDigit b = true) (nonempty : run ≠ [])
    (ends : ∀ b ∈ tail.head?, Bytes.isDigit b = false)
    (apart : LettersApart (behind.reverse ++ (run ++ tail))) {least more : Nat}
    (inside : 0 < least ∨ behind.head?.any Bytes.isDigit = true) :
    Pattern.andThen (digitGroup.repeated least more) .boundary ⟨behind, run ++ tail⟩ =
      if least ≤ run.length ∧ run.length ≤ least + more then
        Pattern.andThen (.optional (.byte isSeparator)) .boundary ⟨run.reverse ++ behind, tail⟩
      else [] := by
  induction run generalizing behind least more with
  | nil => exact absurd rfl nonempty
  | cons d rest ih =>
    rw [List.forall_mem_cons] at digits
    obtain ⟨isDigit, digits⟩ := digits
    have first : digitGroup ⟨behind, d :: rest ++ tail⟩ =
        Pattern.optional (.byte isSeparator) ⟨d :: behind, rest ++ tail⟩ := by
      simp [digitGroup, digit, Pattern.andThen, Pattern.byte, isDigit]
    have next (least more : Nat) :
        Pattern.andThen digitGroup (.andThen (digitGroup.repeated least more) .boundary)
            ⟨behind, d :: rest ++ tail⟩ =
          if least ≤ rest.length ∧ rest.length ≤ least + more then
            Pattern.andThen (.optional (.byte isSeparator)) .boundary
              ⟨(d :: rest).reverse ++ behind, tail⟩
          else [] := by
      rw [Pattern.andThen, first]
      cases rest with
      | nil =>
        have stuck : ∀ stop ∈ Pattern.optional (.byte isSeparator) ⟨d :: behind, [] ++ tail⟩,
            digitGroup stop = [] := by
          intro stop member
          apply digitGroup_eq_nil
          rcases Pattern.mem_optional_byte member with rfl | ⟨separator, isSep, isTail, _⟩
          · exact ends
          · intro b isNext
            obtain ⟨rest, isRest⟩ := List.head?_eq_some_iff.mp isNext
            rw [show tail = separator :: b :: rest by rw [← isRest]; exact isTail] at apart
            exact LettersApart.not_isDigit (by simpa using apart) isDigit isSep
        cases least with
        | zero =>
          simp only [Nat.zero_le, List.length_nil, true_and, if_true]
          apply List.flatMap_congr
          intro stop member
          simp [Pattern.andThen, Pattern.repeated_of_eq_nil (stuck stop member)]
        | succ least =>
          rw [if_neg (by simp), List.flatMap_eq_nil_iff]
          intro stop member
          simp [Pattern.andThen, Pattern.repeated_of_eq_nil (stuck stop member)]
      | cons d' rest =>
        have notSeparator := (classes_of_isDigit (digits d' (by simp))).2.1
        have alone : Pattern.optional (.byte isSeparator) ⟨d :: behind, d' :: rest ++ tail⟩ =
            [⟨d :: behind, d' :: rest ++ tail⟩] := by
          simp [Pattern.optional, Pattern.byte, notSeparator]
        rw [alone, List.flatMap_singleton, ih digits (by simp) (by simpa using apart)]
        · simp
        · simp [isDigit]
    have stays (outside : ¬ 0 < least) : Pattern.boundary ⟨behind, d :: rest ++ tail⟩ = [] := by
      have last := inside.resolve_left outside
      cases behind with
      | nil => cases last
      | cons a behind =>
        simp [Pattern.boundary, (classes_of_isDigit isDigit).1, (classes_of_isDigit last).1]
    cases least with
    | succ least =>
      rw [Pattern.repeated, Pattern.andThen_assoc, next]
      simp only [List.length_cons, Nat.add_le_add_iff_right, Nat.add_right_comm]
    | zero =>
      cases more with
      | zero =>
        have here : Pattern.andThen (digitGroup.repeated 0 0) .boundary ⟨behind, d :: rest ++ tail⟩ =
            Pattern.boundary ⟨behind, d :: rest ++ tail⟩ := by
          simp [Pattern.andThen, Pattern.repeated, Pattern.atMost]
        rw [here, stays (by simp)]
        simp
      | succ more =>
        rw [Pattern.repeated, Pattern.atMost, Pattern.andThen_optional, Pattern.andThen_assoc,
          stays (by simp), List.append_nil]
        exact (next 0 more).trans (by simp)

structure Passed (place stop : Place) (run : Bytes) : Prop where
  digits : ∀ b ∈ run, Bytes.isDigit b = true
  ahead : place.ahead = run ++ stop.ahead
  behind : stop.behind = run.reverse ++ place.behind

theorem Passed.append {middle : Place} {more : Bytes} (first : Passed place middle run)
    (second : Passed middle stop more) : Passed place stop (run ++ more) where
  digits := List.forall_mem_append.mpr ⟨first.digits, second.digits⟩
  ahead := by rw [first.ahead, second.ahead, List.append_assoc]
  behind := by rw [second.behind, first.behind, List.reverse_append, List.append_assoc]

theorem mem_repeated_digit {count : Nat} (member : stop ∈ digit.repeated count 0 place) :
    ∃ run, run.length = count ∧ Passed place stop run := by
  induction count generalizing place with
  | zero =>
    cases List.mem_singleton.mp member
    exact ⟨[], rfl, by simp, rfl, rfl⟩
  | succ count ih =>
    obtain ⟨next, isNext, member⟩ := List.mem_flatMap.mp member
    obtain ⟨b, isDigit, isAhead, isBehind⟩ := Pattern.mem_byte isNext
    obtain ⟨run, length, passed⟩ := ih member
    have first : Passed place next [b] := ⟨by simpa using isDigit, isAhead, isBehind⟩
    exact ⟨[b] ++ run, by simp [length], first.append passed⟩

/-- A space that is taken would have digits on both sides. -/
theorem mem_spacedTriple {first : Place} (apart : LettersApart (first.behind.reverse ++ first.ahead))
    (passed : Passed first place run) (nonempty : run ≠ []) (member : stop ∈ spacedTriple place) :
    ∃ more, Passed first stop (run ++ more) := by
  obtain ⟨middle, isMiddle, member⟩ := List.mem_flatMap.mp member
  obtain ⟨more, length, next⟩ := mem_repeated_digit member
  rcases Pattern.mem_optional_byte isMiddle with rfl | ⟨space, isSpace, isAhead, _⟩
  · exact ⟨more, passed.append next⟩
  · obtain ⟨front, a, rfl⟩ := List.eq_nil_or_concat run |>.resolve_left nonempty
    obtain ⟨b, more, rfl⟩ := List.exists_cons_of_length_eq_add_one length
    have isDigit := next.digits b (by simp)
    rw [passed.ahead, isAhead, next.ahead] at apart
    rw [@LettersApart.not_isDigit (front.reverse ++ first.behind) a space b (more ++ stop.ahead)
      (by simpa using apart) (passed.digits a (by simp)) (isSeparator_of_or (.inr isSpace))] at isDigit
    cases isDigit

theorem mem_triples {leading : Nat} (apart : LettersApart (place.behind.reverse ++ place.ahead))
    (positive : 0 < leading) (member : stop ∈ triples leading place) :
    ∃ run, run ≠ [] ∧ Passed place stop run := by
  obtain ⟨first, isFirst, member⟩ := List.mem_flatMap.mp member
  obtain ⟨second, isSecond, member⟩ := List.mem_flatMap.mp member
  obtain ⟨run, length, passed⟩ := mem_repeated_digit isFirst
  have nonempty : run ≠ [] := List.ne_nil_of_length_pos (by omega)
  obtain ⟨more, passed⟩ := mem_spacedTriple apart passed nonempty isSecond
  obtain ⟨most, passed⟩ := mem_spacedTriple apart passed (by simp [nonempty]) member
  exact ⟨_, by simp [nonempty], passed⟩

/-- A run of digits is ahead up to a place, or a run of twelve to nineteen with the
separator after it, which a word follows. -/
def RunAhead (ahead : Bytes) (stop : Place) : Prop :=
  ∃ run, run ≠ [] ∧ (∀ b ∈ run, Bytes.isDigit b = true) ∧
    (ahead = run ++ stop.ahead ∨ ∃ separator, ahead = run ++ separator :: stop.ahead ∧
      isSeparator separator = true ∧ 12 ≤ run.length ∧ run.length ≤ 19 ∧
      stop.ahead.head?.any Pattern.isWord = true)

theorem mem_groups (apart : LettersApart (behind.reverse ++ ahead))
    (member : stop ∈ Pattern.andThen (digitGroup.repeated 12 7) .boundary ⟨behind, ahead⟩) :
    RunAhead ahead stop := by
  have digits : ∀ b ∈ ahead.takeWhile Bytes.isDigit, Bytes.isDigit b = true :=
    fun _ inside => List.mem_takeWhile_imp inside
  have ends : ∀ b ∈ (ahead.dropWhile Bytes.isDigit).head?, Bytes.isDigit b = false := by
    intro b isHead
    have stops := List.head?_dropWhile_not Bytes.isDigit ahead
    rw [Option.mem_def.mp isHead] at stops
    simpa using stops
  rw [← List.takeWhile_append_dropWhile (p := Bytes.isDigit) (l := ahead)] at apart member ⊢
  generalize ahead.takeWhile Bytes.isDigit = run, ahead.dropWhile Bytes.isDigit = tail at *
  by_cases nonempty : run = []
  · subst nonempty
    have stuck : digitGroup ⟨behind, tail⟩ = [] := digitGroup_eq_nil ends
    simp [Pattern.andThen, Pattern.repeated_of_eq_nil stuck] at member
  · rw [groups_of_run digits nonempty ends apart (.inl (by decide))] at member
    split at member
    next length =>
      obtain ⟨middle, isMiddle, same⟩ := List.mem_flatMap.mp member
      obtain ⟨rfl, differs⟩ := Pattern.mem_boundary.mp same
      refine ⟨run, nonempty, digits, ?_⟩
      rcases Pattern.mem_optional_byte isMiddle with rfl | ⟨separator, isSep, isTail, isBehind⟩
      · exact .inl rfl
      · refine .inr ⟨separator, congrArg (run ++ ·) isTail, isSep, length.1, length.2, ?_⟩
        simpa [isBehind, (classes_of_isSeparator isSep).1] using differs
    next => cases member

theorem mem_cardCandidate (apart : LettersApart (behind.reverse ++ ahead))
    (member : stop ∈ cardCandidate ⟨behind, ahead⟩) :
    behind.head?.any Pattern.isWord = false ∧ RunAhead ahead stop := by
  have opens {p : Pattern} (member : stop ∈ Pattern.delimited p ⟨behind, ahead⟩) :
      behind.head?.any Pattern.isWord ≠ ahead.head?.any Pattern.isWord ∧
        stop ∈ Pattern.andThen p .boundary ⟨behind, ahead⟩ := by
    obtain ⟨same, isSame, member⟩ := List.mem_flatMap.mp member
    obtain ⟨rfl, differs⟩ := Pattern.mem_boundary.mp isSame
    exact ⟨differs, member⟩
  have plain {leading : Nat} (positive : 0 < leading)
      (member : stop ∈ Pattern.andThen (triples leading) .boundary ⟨behind, ahead⟩) :
      RunAhead ahead stop := by
    obtain ⟨last, isLast, same⟩ := List.mem_flatMap.mp member
    obtain ⟨rfl, _⟩ := Pattern.mem_boundary.mp same
    obtain ⟨run, nonempty, passed⟩ := mem_triples apart positive isLast
    exact ⟨run, nonempty, passed.digits, .inl passed.ahead⟩
  have reached : behind.head?.any Pattern.isWord ≠ ahead.head?.any Pattern.isWord ∧
      RunAhead ahead stop := by
    rcases List.mem_append.mp member with grouped | rest
    · exact ⟨(opens grouped).1, mem_groups apart (opens grouped).2⟩
    rcases List.mem_append.mp rest with three | two
    · exact ⟨(opens three).1, plain (by decide) (opens three).2⟩
    · exact ⟨(opens two).1, plain (by decide) (opens two).2⟩
  obtain ⟨differs, run, nonempty, digits, isAhead⟩ := reached
  refine ⟨?_, run, nonempty, digits, isAhead⟩
  obtain ⟨d, run, rfl⟩ := List.exists_cons_of_ne_nil nonempty
  have starts : ahead.head?.any Pattern.isWord = true := by
    have isWord := (classes_of_isDigit (digits d (by simp))).1
    rcases isAhead with rfl | ⟨_, rfl, _⟩
    · exact isWord
    · exact isWord
  simpa [starts] using differs

/-! ## What is confirmed -/

section

variable (digits : ∀ b ∈ run, Bytes.isDigit b = true)

include digits

theorem any_isGrouping_eq_false : run.any isGrouping = false := by
  rw [List.any_eq_false]
  intro b member
  simp [(classes_of_isDigit (digits b member)).2.2]

theorem confirmed_run : confirmed false false run = false := by
  simp [confirmed, any_isGrouping_eq_false digits]

theorem confirmed_separated {separator : UInt8}
    (long : 12 ≤ run.length) (isSep : isSeparator separator = true) :
    confirmed false false (run ++ [separator]) = true ↔
      13 ≤ run.length ∧ luhnValid run = true ∧ isGrouping separator = true := by
  have notDigit := not_isDigit_of_isSeparator isSep
  have kept : keepDigits (run ++ [separator]) = run := by
    simpa [keepDigits, notDigit] using digits
  have grouped : (run ++ [separator]).any isGrouping = isGrouping separator := by
    simp [any_isGrouping_eq_false digits]
  simp only [confirmed, kept, grouped, Bool.false_or]
  rw [if_neg (by omega)]
  split
  next valid => simp [valid]
  next invalid => exact iff_of_false (by simp) fun all => invalid ⟨all.1, all.2.1⟩

end

theorem found_cardCandidate (apart : LettersApart (behind.reverse ++ ahead)) {m : Bytes}
    (isFound : cardCandidate.found ⟨behind, ahead⟩ = some m) :
    behind.head?.any Pattern.isWord = false ∧ ∃ run rest, ahead = run ++ rest ∧ run ≠ [] ∧
      (∀ b ∈ run, Bytes.isDigit b = true) ∧ (m = run ∨ ∃ separator next more,
        rest = separator :: next :: more ∧ m = run ++ [separator] ∧ isSeparator separator = true ∧
        12 ≤ run.length ∧ run.length ≤ 19 ∧ Pattern.isWord next = true) := by
  obtain ⟨stop, isStop, _⟩ := Option.map_eq_some_iff.mp isFound
  have is {text : Bytes} (whole : ahead = text ++ stop.ahead) : m = text :=
    Option.some.inj (isFound.symm.trans (Pattern.found_eq_some isStop whole))
  obtain ⟨outside, run, nonempty, digits, parts⟩ := mem_cardCandidate apart (List.mem_of_head? isStop)
  rcases parts with whole | ⟨separator, whole, isSep, least, most, follows⟩
  · exact ⟨outside, run, _, whole, nonempty, digits, .inl (is whole)⟩
  · refine ⟨outside, run, _, whole, nonempty, digits, .inr ?_⟩
    have isSeparated := is (show ahead = (run ++ [separator]) ++ stop.ahead by simpa using whole)
    cases isNext : stop.ahead with
    | nil => simp [isNext] at follows
    | cons next more =>
      rw [isNext] at follows
      exact ⟨separator, next, more, rfl, isSeparated, isSep, least, most, follows⟩

theorem found_of_separated {separator next : UInt8} {rest : Bytes}
    (apart : LettersApart (behind.reverse ++ (run ++ separator :: next :: rest)))
    (outside : behind.head?.any Pattern.isWord = false)
    (digits : ∀ b ∈ run, Bytes.isDigit b = true) (least : 12 ≤ run.length) (most : run.length ≤ 19)
    (isSep : isSeparator separator = true) (isWord : Pattern.isWord next = true) :
    cardCandidate.found ⟨behind, run ++ separator :: next :: rest⟩ = some (run ++ [separator]) := by
  have nonempty : run ≠ [] := List.ne_nil_of_length_pos (by omega)
  have opens : Pattern.boundary ⟨behind, run ++ separator :: next :: rest⟩ =
      [⟨behind, run ++ separator :: next :: rest⟩] := by
    obtain ⟨d, run, rfl⟩ := List.exists_cons_of_ne_nil nonempty
    simp [Pattern.boundary, outside, (classes_of_isDigit (digits d (by simp))).1]
  have ends : ∀ b ∈ (separator :: next :: rest).head?, Bytes.isDigit b = false := by
    intro b isHead
    cases isHead
    exact not_isDigit_of_isSeparator isSep
  have groups : Pattern.andThen (digitGroup.repeated 12 7) .boundary
      ⟨behind, run ++ separator :: next :: rest⟩ = _ :=
    groups_of_run digits nonempty ends apart (.inl (by decide))
  have taken : Pattern.delimited (digitGroup.repeated 12 7) ⟨behind, run ++ separator :: next :: rest⟩ =
      ⟨separator :: (run.reverse ++ behind), next :: rest⟩ ::
        Pattern.boundary ⟨run.reverse ++ behind, separator :: next :: rest⟩ := by
    rw [Pattern.delimited, Pattern.andThen, opens, List.flatMap_singleton, groups,
      if_pos ⟨least, most⟩, Pattern.andThen_optional]
    simp [Pattern.andThen, Pattern.byte, isSep, Pattern.boundary, (classes_of_isSeparator isSep).1,
      isWord]
  exact Pattern.found_eq_some (congrArg List.head? (congrArg (· ++ _) taken)) (by simp)

/-! ## Bare numbers -/

/-- A text without keywords, in which letters keep the numbers apart, is taken for one with
a card number exactly if a card number in it is followed by a separator and a word. -/
theorem bare_numbers_pass_iff {s : Bytes} (noCard : cardKeyword.occurs [] s = false)
    (noTFN : tfnKeyword.occurs [] s = false) (apart : LettersApart s) :
    panOrTFN s = false ↔ ¬ CardShaped s := by
  have places {front back : Bytes} (whole : s = front ++ back) :
      LettersApart ((front.reverse ++ []).reverse ++ back) := by
    simpa [← whole] using apart
  have finds {m : Bytes} : m ∈ cardCandidate.findAll 0 [] s ↔
      ∃ front back, s = front ++ back ∧ cardCandidate.found ⟨front.reverse ++ [], back⟩ = some m := by
    refine Pattern.mem_findAll_iff ?_ (by simp) ?_
    · refine Option.eq_none_iff_forall_ne_some.mpr fun m isFound => ?_
      obtain ⟨_, run, rest, isNil, nonempty, _⟩ :=
        found_cardCandidate (places (List.append_nil s).symm) isFound
      exact nonempty (List.append_eq_nil_iff.mp isNil.symm).1
    intro front back m whole isFound inner outer parts nonempty short
    obtain ⟨_, run, rest, isBack, _, digits, isText⟩ := found_cardCandidate (places whole) isFound
    have inside : inner.length ≤ run.length := by
      rcases isText with rfl | ⟨_, _, _, _, rfl, _⟩
      · omega
      · simpa [Nat.lt_succ_iff] using short
    have inDigits : ∀ b ∈ inner, Bytes.isDigit b = true := by
      have isPrefix : inner <+: run :=
        List.prefix_of_prefix_length_le ⟨outer, parts.symm⟩ ⟨rest, isBack.symm⟩ inside
      exact fun b member => digits b (isPrefix.mem member)
    by_contra another
    obtain ⟨text, isText⟩ := Option.ne_none_iff_exists'.mp another
    have within : LettersApart ((inner.reverse ++ (front.reverse ++ [])).reverse ++ outer) := by
      simpa [← whole, ← parts] using apart
    have outside := (found_cardCandidate within isText).1
    obtain ⟨first, a, rfl⟩ := List.eq_nil_or_concat inner |>.resolve_left nonempty
    simp [(classes_of_isDigit (inDigits a (by simp))).1] at outside
  rw [← Bool.not_eq_true, not_iff_not, panOrTFN, noCard, noTFN, List.any_eq_true]
  constructor
  · rintro ⟨m, isFound, isConfirmed⟩
    obtain ⟨front, back, whole, isFound⟩ := finds.mp isFound
    obtain ⟨outside, run, rest, rfl, _, digits, rfl | ⟨separator, next, more, rfl, rfl, isSep, least,
      most, isWord⟩⟩ := found_cardCandidate (places whole) isFound
    · rw [confirmed_run digits] at isConfirmed
      cases isConfirmed
    · obtain ⟨long, valid, grouping⟩ := (confirmed_separated digits least isSep).mp isConfirmed
      refine ⟨front, run, separator, next, more, whole, ?_, digits, long, most, valid, grouping, isWord⟩
      simpa using outside
  · rintro ⟨front, run, separator, next, rest, whole, outside, digits, long, most, valid, grouping,
      isWord⟩
    have isSep := isSeparator_of_or (.inl grouping)
    refine ⟨run ++ [separator], finds.mpr ⟨front, _, whole, ?_⟩,
      (confirmed_separated digits (by omega) isSep).mpr ⟨long, valid, grouping⟩⟩
    exact found_of_separated (places whole) (by simpa using outside) digits (by omega) most isSep isWord

theorem bare_numbers_pass_iff_sentence :
    panOrTFN (lit "id 4111111111111111, done") = false ∧
      ¬ CardShaped (lit "id 4111111111111111, done") := by
  have ordinary : panOrTFN (lit "id 4111111111111111, done") = false := by decide +kernel
  exact ⟨ordinary, (bare_numbers_pass_iff (by decide +kernel) (by decide +kernel)
    (by decide +kernel)).mp ordinary⟩

/-- The space after the last digit is taken into the candidate. -/
theorem bare_number_taken_for_card :
    cardKeyword.occurs [] (lit "4111111111111111 ok") = false ∧
      tfnKeyword.occurs [] (lit "4111111111111111 ok") = false ∧
      LettersApart (lit "4111111111111111 ok") ∧ panOrTFN (lit "4111111111111111 ok") = true := by
  decide +kernel

end ClusterRouter.PiiRoute
