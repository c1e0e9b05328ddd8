import ClusterRouter.Foundation.IPAddress

/-! The fields of an address are written without separators inside them, so the reader meets the
fields that were written, and puts back the run of zero fields that `::` stands for. -/

set_option autoImplicit false

namespace ClusterRouter.Foundation

/-! ## Fields -/

private theorem hexChar_spec (n : Fin 16) :
    hexChar n ≠ Bytes.colon ∧ hexChar n ≠ Bytes.dot ∧ hexChar n ≠ Bytes.percent ∧
      hexChar n ≠ Bytes.openBracket ∧ hexChar n ≠ Bytes.closeBracket := by
  revert n
  decide

def IsMark (b : UInt8) : Prop :=
  b = Bytes.percent ∨ b = Bytes.openBracket ∨ b = Bytes.closeBracket

variable {n value room : Nat} {b : UInt8} {all : List Nat} {run : Nat × Nat} {ip : IP}

theorem not_isMark_hexChar (small : n < 16) : ¬ IsMark (hexChar n) := by
  obtain ⟨_, _, percent, opening, closing⟩ := hexChar_spec ⟨n, small⟩
  rintro (same | same | same)
  · exact percent same
  · exact opening same
  · exact closing same

private theorem hexField_step {count : Nat} (small : n < 16) (room : count ≤ 3) (rest : Bytes) :
    hexField count value (hexChar n :: rest) = hexField (count + 1) (value * 16 + n) rest := by
  have few : ¬ 3 < count := by omega
  simp [hexField, hexDigit_hexChar small, few]

/-- What ends a field: the end of the text or a byte that is no digit. -/
def EndsField (rest : Bytes) : Prop := ∀ b, rest.head? = some b → hexDigit b = none

private theorem hexField_end {count : Nat} {rest : Bytes} (nonempty : count ≠ 0)
    (ends : EndsField rest) : hexField count value rest = some (value, rest) := by
  cases rest with
  | nil => simp [hexField, nonempty]
  | cons b tail =>
    have noDigit := ends b rfl
    simp [hexField, noDigit, nonempty]

theorem hexField_hexText (small : value < 65536) {rest : Bytes} (ends : EndsField rest) :
    hexField 0 0 (hexText value ++ rest) = some (value, rest) := by
  unfold hexText
  have last : value % 16 < 16 := Nat.mod_lt _ (by decide)
  by_cases two : 0x10 ≤ value
  · by_cases three : 0x100 ≤ value
    · by_cases four : 0x1000 ≤ value
      · simp only [two, three, four, if_true, List.cons_append, List.nil_append]
        rw [hexField_step (by omega) (by omega), hexField_step (by omega) (by omega),
          hexField_step (by omega) (by omega), hexField_step last (by omega),
          hexField_end (by omega) ends]
        congr 2
        omega
      · simp only [two, three, four, if_true, if_false, List.cons_append, List.nil_append]
        rw [hexField_step (by omega) (by omega), hexField_step (by omega) (by omega),
          hexField_step last (by omega), hexField_end (by omega) ends]
        congr 2
        omega
    · have noFour : ¬ 0x1000 ≤ value := by omega
      simp only [two, three, noFour, if_true, if_false, List.cons_append, List.nil_append]
      rw [hexField_step (by omega) (by omega), hexField_step last (by omega),
        hexField_end (by omega) ends]
      congr 2
      omega
  · have noThree : ¬ 0x100 ≤ value := by omega
    have noFour : ¬ 0x1000 ≤ value := by omega
    simp only [two, noThree, noFour, if_false, List.cons_append, List.nil_append]
    rw [hexField_step last (by omega), hexField_end (by omega) ends]
    congr 2
    omega

private theorem mem_hexText (small : value < 65536) (member : b ∈ hexText value) :
    ∃ n, n < 16 ∧ b = hexChar n := by
  unfold hexText at member
  simp only [List.mem_append, List.mem_ite_nil_right, List.mem_singleton] at member
  rcases member with ((⟨_, rfl⟩ | ⟨_, rfl⟩) | ⟨_, rfl⟩) | rfl <;> exact ⟨_, by omega, rfl⟩

private theorem hexText_ne_nil (value : Nat) : hexText value ≠ [] := by
  simp [hexText]

private theorem join_hexText_cons {field : Nat} (more : List Nat) (small : field < 65536)
    (tail : Bytes) :
    ∃ n rest, n < 16 ∧
      join Bytes.colon ((field :: more).map hexText) ++ tail = hexChar n :: rest := by
  cases written : hexText field with
  | nil => exact absurd written (hexText_ne_nil field)
  | cons b rest =>
    obtain ⟨n, digit, rfl⟩ := mem_hexText small (b := b) (by simp [written])
    cases more with
    | nil => exact ⟨n, rest ++ tail, digit, by simp [join, written]⟩
    | cons next others =>
      exact ⟨n, rest ++ Bytes.colon :: join Bytes.colon ((next :: others).map hexText) ++ tail,
        digit, by simp [join, written]⟩

def fieldBytes (value : Nat) : IP := [UInt8.ofNat (value / 256), UInt8.ofNat (value % 256)]

private theorem endsField_colon (rest : Bytes) : EndsField (Bytes.colon :: rest) := by
  intro b same
  cases same
  decide

private theorem endsField_nil : EndsField [] := by
  intro b same
  cases same

private theorem parseFields_next {field : Nat} {read : IP} {ellipsis : Option Nat} {c : UInt8}
    {tail : Bytes} (small : field < 65536) (more : c ≠ Bytes.colon) :
    parseFields (room + 1) (hexText field ++ Bytes.colon :: c :: tail) read ellipsis =
      parseFields room (c :: tail) (read ++ fieldBytes field) ellipsis := by
  have notDot : Bytes.colon ≠ Bytes.dot := by decide
  rw [parseFields, hexField_hexText small (endsField_colon _)]
  simp [notDot, more, fieldBytes]

theorem parseFields_join (small : ∀ field ∈ all, field < 65536) (nonempty : all ≠ [])
    (fits : all.length ≤ room) (read : IP) (ellipsis : Option Nat) :
    parseFields room (join Bytes.colon (all.map hexText)) read ellipsis =
      some (read ++ all.flatMap fieldBytes, ellipsis, []) := by
  induction all generalizing room read with
  | nil => exact absurd rfl nonempty
  | cons field more ih =>
    have head : field < 65536 := small field List.mem_cons_self
    cases room with
    | zero => simp at fits
    | succ room =>
      cases more with
      | nil =>
        have text : join Bytes.colon ([field].map hexText) = hexText field ++ [] := by
          simp [join]
        rw [text, parseFields, hexField_hexText head endsField_nil]
        simp [fieldBytes]
      | cons next others =>
        have later : ∀ field ∈ next :: others, field < 65536 :=
          fun field member => small field (List.mem_cons_of_mem _ member)
        obtain ⟨n, rest, digit, starts⟩ :=
          join_hexText_cons others (later next List.mem_cons_self) []
        rw [List.append_nil] at starts
        have text : join Bytes.colon ((field :: next :: others).map hexText) =
            hexText field ++ Bytes.colon :: hexChar n :: rest := by
          rw [← starts]
          rfl
        rw [text, parseFields_next head (hexChar_spec ⟨n, digit⟩).1, ← starts,
          ih later (by simp) (by simpa using fits)]
        simp

theorem parseFields_ellipsis (small : ∀ field ∈ all, field < 65536) (nonempty : all ≠ [])
    (fits : all.length ≤ room) (read : IP) (tail : Bytes) :
    parseFields room
        (join Bytes.colon (all.map hexText) ++ Bytes.colon :: Bytes.colon :: tail) read none =
      if tail = [] then
        some (read ++ all.flatMap fieldBytes,
          some (read ++ all.flatMap fieldBytes).length, [])
      else
        parseFields (room - all.length) tail (read ++ all.flatMap fieldBytes)
          (some (read ++ all.flatMap fieldBytes).length) := by
  induction all generalizing room read with
  | nil => exact absurd rfl nonempty
  | cons field more ih =>
    have head : field < 65536 := small field List.mem_cons_self
    cases room with
    | zero => simp at fits
    | succ room =>
      cases more with
      | nil =>
        have notDot : Bytes.colon ≠ Bytes.dot := by decide
        have text : join Bytes.colon ([field].map hexText) = hexText field := rfl
        rw [text, parseFields, hexField_hexText head (endsField_colon _)]
        simp [notDot, fieldBytes]
      | cons next others =>
        have later : ∀ field ∈ next :: others, field < 65536 :=
          fun field member => small field (List.mem_cons_of_mem _ member)
        obtain ⟨n, rest, digit, starts⟩ :=
          join_hexText_cons others (later next List.mem_cons_self)
            (Bytes.colon :: Bytes.colon :: tail)
        have text : join Bytes.colon ((field :: next :: others).map hexText) ++
            Bytes.colon :: Bytes.colon :: tail =
              hexText field ++ Bytes.colon :: hexChar n :: rest := by
          rw [← starts]
          simp [join]
        rw [text, parseFields_next head (hexChar_spec ⟨n, digit⟩).1, ← starts,
          ih later (by simp) (by simpa using fits)]
        simp

/-! ## The run of zero fields -/

private theorem takeWhile_zero (all : List Nat) (i : Nat) :
    let size := ((all.drop i).takeWhile (fun value => decide (value = 0))).length
    i + size ≤ max i all.length ∧ ∀ value ∈ (all.drop i).take size, value = 0 := by
  intro size
  have front : (all.drop i).takeWhile (fun value => decide (value = 0)) <+: all.drop i :=
    List.takeWhile_prefix _
  constructor
  · have short := front.length_le
    rw [List.length_drop] at short
    omega
  · intro value member
    rw [← List.prefix_iff_eq_take.mp front] at member
    simpa using List.all_eq_true.mp List.all_takeWhile value member

structure IsZeroRun (all : List Nat) (run : Nat × Nat) : Prop where
  ordered : run.1 < run.2
  inside : run.2 ≤ all.length
  zero : ∀ value ∈ (all.drop run.1).take (run.2 - run.1), value = 0

private theorem longerRun_isZeroRun {best : Option (Nat × Nat)} {i : Nat}
    (valid : ∀ run, best = some run → IsZeroRun all run) (bound : i < all.length)
    (picked : longerRun all best i = some run) : IsZeroRun all run := by
  obtain ⟨short, zero⟩ := takeWhile_zero all i
  unfold longerRun at picked
  dsimp only at picked
  split at picked
  next longer =>
    cases picked
    refine ⟨?_, ?_, ?_⟩
    · dsimp only
      omega
    · dsimp only
      omega
    · dsimp only
      rw [Nat.add_sub_cancel_left]
      exact zero
  next => exact valid run picked

theorem zeroRun_isZeroRun (found : zeroRun all = some run) :
    IsZeroRun all run := by
  unfold zeroRun at found
  have inside : ∀ i ∈ List.range all.length, i < all.length := fun i member => List.mem_range.mp member
  generalize List.range all.length = visited at found inside
  -- Whatever is the best run so far is a run; a longer one replaces it.
  have general : ∀ best : Option (Nat × Nat), (∀ run, best = some run → IsZeroRun all run) →
      visited.foldl (longerRun all) best = some run → IsZeroRun all run := by
    clear found
    induction visited with
    | nil =>
      intro best valid same
      exact valid run same
    | cons i rest ih =>
      intro best valid reached
      refine ih (fun i member => inside i (List.mem_cons_of_mem _ member)) _ ?_ reached
      intro chosen picked
      exact longerRun_isZeroRun valid (inside i List.mem_cons_self) picked
  exact general none (by simp) found

private theorem eq_replicate_zero (zero : ∀ value ∈ all, value = 0) :
    all.flatMap fieldBytes = List.replicate (2 * all.length) 0 := by
  induction all with
  | nil => rfl
  | cons value rest ih =>
    have head : value = 0 := zero value List.mem_cons_self
    rw [List.flatMap_cons, ih (fun v member => zero v (List.mem_cons_of_mem _ member)), head,
      List.length_cons, Nat.mul_add]
    simp [List.replicate_succ, fieldBytes]

private theorem length_flatMap_fieldBytes (all : List Nat) :
    (all.flatMap fieldBytes).length = 2 * all.length := by
  induction all with
  | nil => rfl
  | cons value rest ih =>
    simp only [List.flatMap_cons, List.length_append, ih, List.length_cons, fieldBytes,
      List.length_nil]
    omega

theorem IsZeroRun.flatMap_eq (isRun : IsZeroRun all run) :
    (all.take run.1).flatMap fieldBytes ++ List.replicate (2 * (run.2 - run.1)) 0 ++
      (all.drop run.2).flatMap fieldBytes = all.flatMap fieldBytes := by
  obtain ⟨ordered, inside, zero⟩ := isRun
  have middle := eq_replicate_zero zero
  have size : ((all.drop run.1).take (run.2 - run.1)).length = run.2 - run.1 := by
    rw [List.length_take, List.length_drop]
    omega
  rw [size] at middle
  rw [← middle, ← List.flatMap_append, ← List.flatMap_append]
  congr 1
  have rest : all.drop run.2 = (all.drop run.1).drop (run.2 - run.1) := by
    rw [List.drop_drop]
    congr 1
    omega
  rw [rest, List.append_assoc, List.take_append_drop, List.take_append_drop]

/-! ## Whole addresses -/

theorem mem_join {separator : UInt8} {parts : List Bytes} (member : b ∈ join separator parts) :
    b = separator ∨ ∃ part ∈ parts, b ∈ part := by
  induction parts with
  | nil => cases member
  | cons part rest ih =>
    cases rest with
    | nil => exact .inr ⟨part, List.mem_cons_self, member⟩
    | cons next others =>
      rcases List.mem_append.mp member with here | later
      · exact .inr ⟨part, List.mem_cons_self, here⟩
      · rcases List.mem_cons.mp later with same | later
        · exact .inl same
        · rcases ih later with same | ⟨found, among, inside⟩
          · exact .inl same
          · exact .inr ⟨found, List.mem_cons_of_mem _ among, inside⟩

private theorem mem_join_hexText (small : ∀ field ∈ all, field < 65536)
    (member : b ∈ join Bytes.colon (all.map hexText)) :
    b = Bytes.colon ∨ ∃ n, n < 16 ∧ b = hexChar n := by
  rcases mem_join member with same | ⟨part, among, inside⟩
  · exact .inl same
  · obtain ⟨field, isField, rfl⟩ := List.mem_map.mp among
    exact .inr (mem_hexText (small field isField) inside)

theorem mem_fieldsText (small : ∀ field ∈ all, field < 65536) (member : b ∈ fieldsText all) :
    b = Bytes.colon ∨ ∃ n, n < 16 ∧ b = hexChar n := by
  unfold fieldsText at member
  split at member
  · exact mem_join_hexText small member
  · rcases List.mem_append.mp member with front | back
    · rcases List.mem_append.mp front with front | middle
      · exact mem_join_hexText (fun field among => small field (List.mem_of_mem_take among)) front
      · simp only [List.mem_cons, List.not_mem_nil, or_false, or_self] at middle
        exact .inl middle
    · exact mem_join_hexText (fun field among => small field (List.mem_of_mem_drop among)) back

private theorem expandEllipsis_run {front back : IP} {zeros : Nat}
    (size : front.length + zeros + back.length = 16) (positive : 0 < zeros) :
    expandEllipsis (front ++ back, some front.length, []) =
      some (front ++ List.replicate zeros 0 ++ back) := by
  have short : (front ++ back).length < 16 := by
    rw [List.length_append]
    omega
  have missing : 16 - (front ++ back).length = zeros := by
    rw [List.length_append]
    omega
  simp only [expandEllipsis, short, if_true, missing, List.take_left, List.drop_left]

private theorem take_two_of_digit (digit : n < 16) (rest : Bytes) :
    (hexChar n :: rest).take 2 ≠ [Bytes.colon, Bytes.colon] := by
  intro same
  rw [List.take_succ_cons] at same
  exact (hexChar_spec ⟨n, digit⟩).1 (List.cons.inj same).1

private theorem parseIPv6_join (size : all.length = 8) (small : ∀ field ∈ all, field < 65536)
    (noZone : Bytes.percent ∉ join Bytes.colon (all.map hexText)) :
    parseIPv6 (join Bytes.colon (all.map hexText)) = some (all.flatMap fieldBytes) := by
  cases all with
  | nil => cases size
  | cons field more =>
    obtain ⟨n, rest, digit, starts⟩ :=
      join_hexText_cons more (small field List.mem_cons_self) []
    rw [List.append_nil] at starts
    have full := length_flatMap_fieldBytes (field :: more)
    have notShort : ¬ ((field :: more).flatMap fieldBytes).length < 16 := by omega
    unfold parseIPv6
    rw [if_neg noZone, starts, if_neg (take_two_of_digit digit rest), ← starts,
      parseFields_join small (by simp) (Nat.le_of_eq size)]
    simp only [Option.bind_some, List.nil_append, expandEllipsis, notShort, if_false]

/-- The reader at an ellipsis, with fields before it, after it, on both sides or on
neither. -/
private theorem parseIPv6_ellipsis {front back : List Nat}
    (smallFront : ∀ field ∈ front, field < 65536) (smallBack : ∀ field ∈ back, field < 65536)
    (fits : front.length + back.length ≤ 8)
    (noZone : Bytes.percent ∉ join Bytes.colon (front.map hexText) ++
      Bytes.colon :: Bytes.colon :: join Bytes.colon (back.map hexText)) :
    parseIPv6 (join Bytes.colon (front.map hexText) ++
        Bytes.colon :: Bytes.colon :: join Bytes.colon (back.map hexText)) =
      expandEllipsis (front.flatMap fieldBytes ++ back.flatMap fieldBytes,
        some (front.flatMap fieldBytes).length, []) := by
  have backNil : join Bytes.colon (back.map hexText) = [] ↔ back = [] := by
    cases back with
    | nil => exact ⟨fun _ => rfl, fun _ => rfl⟩
    | cons field more =>
      obtain ⟨n, rest, _, starts⟩ :=
        join_hexText_cons more (smallBack field List.mem_cons_self) []
      rw [List.append_nil] at starts
      rw [starts]
      simp
  unfold parseIPv6
  rw [if_neg noZone]
  cases front with
  | nil =>
    simp only [List.map_nil, join, List.nil_append, List.take_succ_cons, List.take_zero,
      if_true, List.drop_succ_cons, List.drop_zero, backNil, List.flatMap_nil, List.length_nil]
    split
    next empty =>
      subst empty
      rfl
    next nonempty =>
      rw [parseFields_join smallBack nonempty (by simpa using fits)]
      rfl
  | cons field more =>
    obtain ⟨n, rest, digit, starts⟩ :=
      join_hexText_cons more (smallFront field List.mem_cons_self)
        (Bytes.colon :: Bytes.colon :: join Bytes.colon (back.map hexText))
    rw [starts, if_neg (take_two_of_digit digit rest), ← starts,
      parseFields_ellipsis smallFront (by simp) (by omega)]
    simp only [backNil, List.nil_append]
    split
    next empty =>
      subst empty
      simp only [Option.bind_some, List.flatMap_nil, List.append_nil]
    next nonempty =>
      rw [parseFields_join smallBack nonempty (by omega)]
      rfl

theorem parseIPv6_fieldsText (size : all.length = 8) (small : ∀ field ∈ all, field < 65536) :
    parseIPv6 (fieldsText all) = some (all.flatMap fieldBytes) := by
  have noZone : Bytes.percent ∉ fieldsText all := by
    intro member
    rcases mem_fieldsText small member with same | ⟨n, digit, same⟩
    · cases same
    · exact (hexChar_spec ⟨n, digit⟩).2.2.1 same.symm
  unfold fieldsText at noZone ⊢
  cases chosen : zeroRun all with
  | none =>
    rw [chosen] at noZone
    exact parseIPv6_join size small noZone
  | some run =>
    rw [chosen] at noZone
    dsimp only at noZone ⊢
    have isRun := zeroRun_isZeroRun chosen
    have ordered := isRun.ordered
    have inside := isRun.inside
    have frontSize := length_flatMap_fieldBytes (all.take run.1)
    have backSize := length_flatMap_fieldBytes (all.drop run.2)
    rw [List.length_take] at frontSize
    rw [List.length_drop] at backSize
    have total : ((all.take run.1).flatMap fieldBytes).length + 2 * (run.2 - run.1) +
        ((all.drop run.2).flatMap fieldBytes).length = 16 := by
      omega
    have fits : (all.take run.1).length + (all.drop run.2).length ≤ 8 := by
      rw [List.length_take, List.length_drop]
      omega
    rw [List.append_assoc] at noZone ⊢
    rw [← isRun.flatMap_eq, ← expandEllipsis_run total (by omega)]
    exact parseIPv6_ellipsis (fun field member => small field (List.mem_of_mem_take member))
      (fun field member => small field (List.mem_of_mem_drop member)) fits noZone

theorem flatMap_fields (half : Nat) (even : ip.length = 2 * half) :
    (fields ip).flatMap fieldBytes = ip := by
  induction half generalizing ip with
  | zero =>
    have empty : ip = [] := List.eq_nil_of_length_eq_zero (by omega)
    rw [empty]
    rfl
  | succ half ih =>
    match ip, even with
    | high :: low :: rest, even =>
      have shorter : rest.length = 2 * half := by
        simp only [List.length_cons] at even
        omega
      have upper : (high.toNat * 256 + low.toNat) / 256 = high.toNat := by
        have := low.toNat_lt
        omega
      have lower : (high.toNat * 256 + low.toNat) % 256 = low.toNat := by
        have := low.toNat_lt
        omega
      simp only [fields, List.flatMap_cons, ih shorter, fieldBytes, upper, lower,
        UInt8.ofNat_toNat, List.cons_append, List.nil_append]

theorem fields_small (ip : IP) : ∀ field ∈ fields ip, field < 65536 := by
  fun_induction fields ip with
  | case1 high low rest ih =>
    intro field member
    rcases List.mem_cons.mp member with rfl | later
    · have := high.toNat_lt
      have := low.toNat_lt
      omega
    · exact ih field later
  | case2 => simp

theorem length_fields {half : Nat} (even : ip.length = 2 * half) :
    (fields ip).length = half := by
  have size := length_flatMap_fieldBytes (fields ip)
  rw [flatMap_fields half even] at size
  omega

private theorem octetText_spec (n : Fin 256) :
    parseOctet (octetText (UInt8.ofFin n)) = some (UInt8.ofFin n) ∧
      (octetText (UInt8.ofFin n)).all Bytes.isDigit = true := by
  revert n
  decide +kernel

theorem parseOctet_octetText (b : UInt8) : parseOctet (octetText b) = some b :=
  (octetText_spec b.toFin).1

theorem isDigit_of_mem_octetText {digit : UInt8} (member : digit ∈ octetText b) :
    Bytes.isDigit digit = true :=
  List.all_eq_true.mp (octetText_spec b.toFin).2 digit member

private theorem dot_not_mem_octetText (b : UInt8) : Bytes.dot ∉ octetText b := by
  intro member
  cases isDigit_of_mem_octetText member

theorem parseIPv4_join (a b c d : UInt8) :
    parseIPv4 (join Bytes.dot ([a, b, c, d].map octetText)) = some [a, b, c, d] := by
  have parts : Bytes.split Bytes.dot (join Bytes.dot ([a, b, c, d].map octetText)) =
      [octetText a, octetText b, octetText c, octetText d] := by
    simp only [List.map_cons, List.map_nil, join]
    rw [Bytes.split_append (dot_not_mem_octetText a), Bytes.split_append (dot_not_mem_octetText b),
      Bytes.split_append (dot_not_mem_octetText c), Bytes.split_of_not_mem (dot_not_mem_octetText d)]
  rw [parseIPv4, parts]
  simp only [List.map_cons, List.map_nil, parseOctet_octetText]

/-! ## Addresses as text -/

/-- The family is decided by the first special byte, so a text whose special bytes
are all the same one has that family. -/
private theorem find_eq_some {p : UInt8 → Bool} {s : Bytes} (member : b ∈ s) (holds : p b = true)
    (only : ∀ c ∈ s, p c = true → c = b) : s.find? p = some b := by
  cases found : s.find? p with
  | none => exact absurd holds (List.find?_eq_none.mp found b member)
  | some c => rw [only c (List.mem_of_find?_eq_some found) (List.find?_some found)]

private theorem isSpecial_digit (digit : Bytes.isDigit b = true) :
    ¬ (b = Bytes.dot ∨ b = Bytes.colon ∨ b = Bytes.percent) := by
  rintro (rfl | rfl | rfl) <;> cases digit

private theorem isSpecial_hexChar (small : n < 16) :
    ¬ (hexChar n = Bytes.dot ∨ hexChar n = Bytes.colon ∨ hexChar n = Bytes.percent) := by
  obtain ⟨colon, dot, percent, _, _⟩ := hexChar_spec ⟨n, small⟩
  rintro (same | same | same)
  · exact dot same
  · exact colon same
  · exact percent same

private theorem mem_octets {four : IP} (member : b ∈ join Bytes.dot (four.map octetText)) :
    b = Bytes.dot ∨ Bytes.isDigit b = true := by
  rcases mem_join member with same | ⟨part, among, inside⟩
  · exact .inl same
  · obtain ⟨octet, _, rfl⟩ := List.mem_map.mp among
    exact .inr (isDigit_of_mem_octetText inside)

theorem parseIP_octets (a b c d : UInt8) :
    parseIP (join Bytes.dot ([a, b, c, d].map octetText)) =
      some (IP.v4InV6Prefix ++ [a, b, c, d]) := by
  have family := find_eq_some (s := join Bytes.dot ([a, b, c, d].map octetText))
    (p := fun b => decide (b = Bytes.dot ∨ b = Bytes.colon ∨ b = Bytes.percent))
    (b := Bytes.dot) (by simp [join]) (by decide) (by
      intro other member special
      rcases mem_octets member with same | digit
      · exact same
      · exact absurd (of_decide_eq_true special) (isSpecial_digit digit))
  unfold parseIP
  rw [family]
  simp only [if_true, parseIPv4_join]
  rfl

private theorem separator_mem_join {separator : UInt8} (first second : Bytes) (rest : List Bytes) :
    separator ∈ join separator (first :: second :: rest) := by
  simp [join]

private theorem colon_mem_fieldsText (size : all.length = 8) :
    Bytes.colon ∈ fieldsText all := by
  unfold fieldsText
  split
  · match all, size with
    | first :: second :: rest, _ => exact separator_mem_join _ _ _
  · simp

theorem parseIP_fieldsText (size : all.length = 8) (small : ∀ field ∈ all, field < 65536) :
    parseIP (fieldsText all) = some (all.flatMap fieldBytes) := by
  have family := find_eq_some (s := fieldsText all)
    (p := fun b => decide (b = Bytes.dot ∨ b = Bytes.colon ∨ b = Bytes.percent))
    (b := Bytes.colon) (colon_mem_fieldsText size) (by decide) (by
      intro other member special
      rcases mem_fieldsText small member with same | ⟨n, digit, rfl⟩
      · exact same
      · exact absurd (of_decide_eq_true special) (isSpecial_hexChar digit))
  have notDot : Bytes.colon ≠ Bytes.dot := by decide
  unfold parseIP
  rw [family]
  simp only [notDot, if_false, if_true]
  exact parseIPv6_fieldsText size small

private theorem parseIP_none {s : Bytes}
    (plain : ∀ b ∈ s, ¬ (b = Bytes.dot ∨ b = Bytes.colon ∨ b = Bytes.percent)) :
    parseIP s = none := by
  have nothing : s.find?
      (fun b => decide (b = Bytes.dot ∨ b = Bytes.colon ∨ b = Bytes.percent)) = none :=
    List.find?_eq_none.mpr (fun b member => by simpa using plain b member)
  unfold parseIP
  rw [nothing]

theorem IP.to4_eq_some {four : IP} (known : ip.to4 = some four) :
    four.length = 4 ∧ ip.to16 = IP.v4InV6Prefix ++ four := by
  unfold IP.to4 at known
  split at known
  next short =>
    cases known
    exact ⟨short, by simp [IP.to16, short]⟩
  next =>
    split at known
    next mapped =>
      obtain ⟨size, front⟩ := mapped
      cases known
      obtain ⟨rest, whole⟩ := List.isPrefixOf_iff_prefix.mp front
      refine ⟨by simp [size], ?_⟩
      have long : ip.length ≠ 4 := by omega
      simp only [IP.to16, long, if_false]
      rw [← whole]
      rfl
    next => cases known

theorem IP.text_cases (ip : IP) :
    (∃ a b c d, ip.to4 = some [a, b, c, d] ∧ (ip.length = 4 ∨ ip.length = 16) ∧
      ip.text = join Bytes.dot ([a, b, c, d].map octetText)) ∨
    (ip.length = 16 ∧ ip.to4 = none ∧ ip.text = fieldsText (fields ip)) ∨
    (ip.length ≠ 4 ∧ ip.length ≠ 16 ∧
      ∀ b ∈ ip.text, ¬ (b = Bytes.dot ∨ b = Bytes.colon ∨ b = Bytes.percent) ∧ ¬ IsMark b) := by
  by_cases sized : ip.length = 4 ∨ ip.length = 16
  · have nonempty : ip ≠ [] := by
      rintro rfl
      simp at sized
    have regular : ¬ (ip.length ≠ 4 ∧ ip.length ≠ 16) := by omega
    have written : ip.text = ip.regularText := by
      rw [IP.text, if_neg nonempty, if_neg regular]
    unfold IP.regularText at written
    cases known : ip.to4 with
    | some four =>
      rw [known] at written
      obtain ⟨size, _⟩ := IP.to4_eq_some known
      match four, size with
      | [a, b, c, d], _ => exact .inl ⟨a, b, c, d, rfl, sized, written⟩
    | none =>
      rw [known] at written
      have long : ip.length ≠ 4 := by
        intro short
        simp [IP.to4, short] at known
      exact .inr (.inl ⟨by omega, rfl, written⟩)
  · refine .inr (.inr ⟨by omega, by omega, ?_⟩)
    intro b member
    unfold IP.text at member
    split at member
    · have spelled : b ∈ ([60, 110, 105, 108, 62] : Bytes) := member
      simp only [List.mem_cons, List.not_mem_nil, or_false] at spelled
      rcases spelled with rfl | rfl | rfl | rfl | rfl <;> (unfold IsMark; decide)
    · have odd : ip.length ≠ 4 ∧ ip.length ≠ 16 := by omega
      rw [if_pos odd] at member
      rcases List.mem_cons.mp member with rfl | digits
      · unfold IsMark
        decide
      · obtain ⟨octet, _, inside⟩ := List.mem_flatMap.mp digits
        have bound := octet.toNat_lt
        simp only [List.mem_cons, List.not_mem_nil, or_false] at inside
        rcases inside with rfl | rfl
        · exact ⟨isSpecial_hexChar (by omega), not_isMark_hexChar (by omega)⟩
        · exact ⟨isSpecial_hexChar (by omega), not_isMark_hexChar (by omega)⟩

theorem IP.not_isMark_of_mem_text (member : b ∈ ip.text) : ¬ IsMark b := by
  rcases ip.text_cases with ⟨_, _, _, _, _, _, written⟩ | ⟨_, _, written⟩ | ⟨_, _, plain⟩
  · rw [written] at member
    rcases mem_octets member with rfl | digit
    · unfold IsMark
      decide
    · rintro (rfl | rfl | rfl) <;> cases digit
  · rw [written] at member
    rcases mem_fieldsText (fields_small ip) member with rfl | ⟨n, small, rfl⟩
    · unfold IsMark
      decide
    · exact not_isMark_hexChar small
  · exact (plain b member).2

theorem IP.parseIP_text (ip : IP) :
    parseIP ip.text = if ip.length = 4 ∨ ip.length = 16 then some ip.to16 else none := by
  rcases ip.text_cases with ⟨a, b, c, d, known, sized, written⟩ | ⟨size, _, written⟩ |
    ⟨short, long, plain⟩
  · rw [written, parseIP_octets, if_pos sized, (IP.to4_eq_some known).2]
  · have regular : ip.length = 4 ∨ ip.length = 16 := .inr size
    have notShort : ip.length ≠ 4 := by omega
    rw [written, parseIP_fieldsText (length_fields size) (fields_small ip), if_pos regular,
      flatMap_fields 8 size]
    simp only [IP.to16, notShort, if_false]
  · have odd : ¬ (ip.length = 4 ∨ ip.length = 16) := by omega
    rw [if_neg odd]
    exact parseIP_none (fun b member => (plain b member).1)

example : IP.text [0x20, 1, 0xd, 0xb8, 0, 0, 0, 0, 0, 0, 0, 0, 0, 0, 0, 1] = lit "2001:db8::1" := by
  decide

private theorem IP.isLoopback_to16 (ip : IP) : ip.to16.isLoopback = ip.isLoopback := by
  unfold IP.to16
  split
  next short =>
    have mapped : IP.to4 (IP.v4InV6Prefix ++ ip) = some ip := by
      have size : (IP.v4InV6Prefix ++ ip).length = 16 := by
        rw [List.length_append, short]
        rfl
      have front : IP.v4InV6Prefix.isPrefixOf (IP.v4InV6Prefix ++ ip) = true :=
        List.isPrefixOf_iff_prefix.mpr (List.prefix_append _ _)
      have notShort : ¬ (IP.v4InV6Prefix ++ ip).length = 4 := by omega
      unfold IP.to4
      rw [if_neg notShort, if_pos ⟨size, front⟩]
      rfl
    have four : ip.to4 = some ip := if_pos short
    simp only [IP.isLoopback, mapped, four]
  next => rfl

private theorem IP.isLoopback_of_odd (odd : ¬ (ip.length = 4 ∨ ip.length = 16)) :
    ip.isLoopback = false := by
  have notFour : ¬ ip.length = 4 := by omega
  have notLong : ¬ ip.length = 16 := by omega
  have size : IP.ipv6Loopback.length = 16 := rfl
  have noFour : ip.to4 = none := by simp [IP.to4, notFour, notLong]
  simp only [IP.isLoopback, noFour, IP.equal, size, notLong, notFour, if_false, false_and]

theorem IP.isLoopback_parseIP_text (ip : IP) :
    (parseIP ip.text).any IP.isLoopback = ip.isLoopback := by
  rw [IP.parseIP_text]
  by_cases sized : ip.length = 4 ∨ ip.length = 16
  · rw [if_pos sized]
    exact IP.isLoopback_to16 ip
  · rw [if_neg sized, IP.isLoopback_of_odd sized]
    rfl

theorem IP.ne_nil_of_equal {other : IP} (equal : ip.equal other = true) (nonempty : other ≠ []) :
    ip ≠ [] := by
  rintro rfl
  unfold IP.equal at equal
  split at equal
  next sized => exact nonempty (of_decide_eq_true equal).symm
  · simp at equal

end ClusterRouter.Foundation
