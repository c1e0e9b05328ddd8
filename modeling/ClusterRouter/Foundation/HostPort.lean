import ClusterRouter.Foundation.IPAddressProperties

/-! `net.JoinHostPort`, `net.SplitHostPort` and the text of a socket address. A zone may hold
any byte, so splitting can fail on an address the standard library wrote. -/

set_option autoImplicit false

namespace ClusterRouter.Foundation

def splitLast (mark : UInt8) : Bytes → Option (Bytes × Bytes)
  | [] => none
  | b :: rest =>
    match splitLast mark rest with
    | some (front, back) => some (b :: front, back)
    | none => if b = mark then some ([], rest) else none

/-- `net.SplitHostPort`, with every error as `none`. -/
def splitHostPort (s : Bytes) : Option (Bytes × Bytes) :=
  match splitLast Bytes.colon s with
  | none => none
  | some (front, port) =>
    if s.head? = some Bytes.openBracket then
      -- The first closing bracket must stand right before the last colon.
      let bracketed := Bytes.before Bytes.closeBracket s
      if Bytes.closeBracket ∉ s ∨ bracketed.length + 1 ≠ front.length ∨
          Bytes.openBracket ∈ s.drop 1 ∨
          Bytes.closeBracket ∈ s.drop (bracketed.length + 1) then none
      else some (bracketed.drop 1, port)
    else if Bytes.colon ∈ front ∨ Bytes.openBracket ∈ s ∨ Bytes.closeBracket ∈ s then none
    else some (front, port)

def joinHostPort (host port : Bytes) : Bytes :=
  if Bytes.colon ∈ host then
    Bytes.openBracket :: host ++ Bytes.closeBracket :: Bytes.colon :: port
  else host ++ Bytes.colon :: port

def lenientHost (s : Bytes) : Bytes :=
  match splitHostPort s with
  | some (host, _) => host
  | none => s

def stripBrackets (s : Bytes) : Bytes :=
  Bytes.trimSuffix [Bytes.closeBracket] (Bytes.trimPrefix [Bytes.openBracket] s)

structure TCPAddr where
  ip : IP
  port : Nat
  zone : Bytes
deriving DecidableEq, Repr

namespace TCPAddr

def ipText (a : TCPAddr) : Bytes := if a.ip = [] then [] else a.ip.text

def text (a : TCPAddr) : Bytes :=
  if a.zone = [] then joinHostPort a.ipText (Bytes.itoa a.port)
  else joinHostPort (a.ipText ++ Bytes.percent :: a.zone) (Bytes.itoa a.port)

end TCPAddr

/-! ## Splitting what was joined -/

variable {mark : UInt8} {s host : Bytes}

theorem splitLast_of_not_mem (absent : mark ∉ s) :
    splitLast mark s = none := by
  induction s with
  | nil => rfl
  | cons b rest ih =>
    have different : b ≠ mark := fun same => absent (same ▸ List.mem_cons_self)
    have later : mark ∉ rest := fun member => absent (List.mem_cons_of_mem b member)
    simp [splitLast, ih later, different]

theorem splitLast_append {back : Bytes} (absent : mark ∉ back) (front : Bytes) :
    splitLast mark (front ++ mark :: back) = some (front, back) := by
  induction front with
  | nil => simp [splitLast, splitLast_of_not_mem absent]
  | cons b tail ih => simp [splitLast, ih]

/-- Text that no bracket and no zone mark interrupts. -/
def Unmarked (s : Bytes) : Prop := ∀ b ∈ s, ¬ IsMark b

theorem Unmarked.percent (plain : Unmarked s) : Bytes.percent ∉ s :=
  fun member => plain _ member (.inl rfl)

theorem Unmarked.openBracket (plain : Unmarked s) : Bytes.openBracket ∉ s :=
  fun member => plain _ member (.inr (.inl rfl))

theorem Unmarked.closeBracket (plain : Unmarked s) : Bytes.closeBracket ∉ s :=
  fun member => plain _ member (.inr (.inr rfl))

private theorem not_digit_of_port {n : Nat} {b : UInt8} (other : Bytes.isDigit b = false) :
    b ∉ Bytes.itoa n := by
  intro member
  rw [Bytes.isDigit_of_mem_itoa member] at other
  cases other

theorem splitHostPort_joinHostPort (plain : Unmarked host) (n : Nat) :
    splitHostPort (joinHostPort host (Bytes.itoa n)) = some (host, Bytes.itoa n) := by
  have noColon : Bytes.colon ∉ Bytes.itoa n := not_digit_of_port (by decide)
  have noOpen : Bytes.openBracket ∉ Bytes.itoa n := not_digit_of_port (by decide)
  have noClose : Bytes.closeBracket ∉ Bytes.itoa n := not_digit_of_port (by decide)
  have openNotColon : Bytes.openBracket ≠ Bytes.colon := by decide
  have closeNotColon : Bytes.closeBracket ≠ Bytes.colon := by decide
  have openNotClose : Bytes.openBracket ≠ Bytes.closeBracket := by decide
  unfold joinHostPort
  split
  · have cut : splitLast Bytes.colon
        (Bytes.openBracket :: host ++ Bytes.closeBracket :: Bytes.colon :: Bytes.itoa n) =
          some (Bytes.openBracket :: host ++ [Bytes.closeBracket], Bytes.itoa n) := by
      have shape : Bytes.openBracket :: host ++ Bytes.closeBracket :: Bytes.colon :: Bytes.itoa n =
          (Bytes.openBracket :: host ++ [Bytes.closeBracket]) ++ Bytes.colon :: Bytes.itoa n := by
        simp
      rw [shape, splitLast_append noColon]
    have inside : Bytes.before Bytes.closeBracket
        (Bytes.openBracket :: host ++ Bytes.closeBracket :: Bytes.colon :: Bytes.itoa n) =
          Bytes.openBracket :: host := by
      apply Bytes.before_append
      intro member
      rcases List.mem_cons.mp member with same | member
      · exact openNotClose same.symm
      · exact plain.closeBracket member
    unfold splitHostPort
    rw [cut]
    dsimp only
    rw [inside]
    simp [plain.openBracket, noOpen, noClose, openNotColon, openNotClose, closeNotColon]
  · next noColonHost =>
    have unbracketed : (host ++ Bytes.colon :: Bytes.itoa n).head? ≠ some Bytes.openBracket := by
      intro first
      have member := List.mem_of_head? first
      rcases List.mem_append.mp member with member | member
      · exact plain.openBracket member
      · rcases List.mem_cons.mp member with same | member
        · exact openNotColon same
        · exact noOpen member
    unfold splitHostPort
    rw [splitLast_append noColon]
    dsimp only
    rw [if_neg unbracketed]
    simp [noColonHost, plain.openBracket, plain.closeBracket, noOpen, noClose, openNotColon,
      closeNotColon]

/-! ## The address in front of a zone -/

private theorem before_mark {front : Bytes} (absent : mark ∉ front) (rest : Bytes) :
    Bytes.before mark (front ++ rest) = front ++ Bytes.before mark rest := by
  induction front with
  | nil => rfl
  | cons b tail ih =>
    have different : b ≠ mark := fun same => absent (same ▸ List.mem_cons_self)
    have later : mark ∉ tail := fun member => absent (List.mem_cons_of_mem b member)
    simp [Bytes.before, different, ih later]

private theorem trimPrefix_open (host : Bytes)
    (unbracketed : host.head? ≠ some Bytes.openBracket) :
    Bytes.trimPrefix [Bytes.openBracket] host = host := by
  unfold Bytes.trimPrefix
  rw [if_neg]
  intro starts
  obtain ⟨rest, rfl⟩ := List.isPrefixOf_iff_prefix.mp starts
  exact unbracketed rfl

private theorem head_zone (plain : Unmarked host) (rest : Bytes) :
    (host ++ Bytes.percent :: rest).head? ≠ some Bytes.openBracket := by
  intro same
  cases host with
  | nil => cases same
  | cons b tail =>
    cases same
    exact plain.openBracket List.mem_cons_self

private theorem trimSuffix_zone (host zone : Bytes) :
    ∃ short, Bytes.trimSuffix [Bytes.closeBracket] (host ++ Bytes.percent :: zone) =
      host ++ Bytes.percent :: short := by
  unfold Bytes.trimSuffix
  split
  next ends =>
    obtain ⟨front, whole⟩ := List.isSuffixOf_iff_suffix.mp ends
    have cut : (host ++ Bytes.percent :: zone).take
        ((host ++ Bytes.percent :: zone).length - [Bytes.closeBracket].length) = front := by
      rw [← whole, List.length_append, Nat.add_sub_cancel, List.take_left]
    rw [cut]
    cases List.eq_nil_or_concat zone with
    | inl empty =>
      subst empty
      have last := congrArg List.getLast? whole
      simp only [List.getLast?_append, List.getLast?_singleton] at last
      cases last
    | inr ending =>
      obtain ⟨short, b, rfl⟩ := ending
      have shape : host ++ Bytes.percent :: short.concat b =
          (host ++ Bytes.percent :: short) ++ [b] := by
        simp
      rw [shape] at whole
      exact ⟨short, (List.append_inj' whole rfl).1⟩
  next => exact ⟨zone, rfl⟩

private theorem before_trimSuffix (plain : Unmarked host) (zone : Bytes) :
    Bytes.before Bytes.percent
      (Bytes.trimSuffix [Bytes.closeBracket] (host ++ Bytes.percent :: zone)) = host := by
  obtain ⟨short, same⟩ := trimSuffix_zone host zone
  rw [same, Bytes.before_append plain.percent]

theorem stripBrackets_zone (plain : Unmarked host) (zone : Bytes) :
    ∃ short, stripBrackets (host ++ Bytes.percent :: zone) = host ++ Bytes.percent :: short := by
  unfold stripBrackets
  rw [trimPrefix_open _ (head_zone plain zone)]
  exact trimSuffix_zone host zone

private theorem before_stripBrackets (plain : Unmarked host) (zone : Bytes) :
    Bytes.before Bytes.percent (stripBrackets (host ++ Bytes.percent :: zone)) = host := by
  obtain ⟨short, same⟩ := stripBrackets_zone plain zone
  rw [same, Bytes.before_append plain.percent]

theorem stripBrackets_of_unmarked (plain : Unmarked host) :
    stripBrackets host = host := by
  have unclosed : [Bytes.closeBracket].isSuffixOf host = false := by
    rw [Bool.eq_false_iff]
    intro ends
    obtain ⟨front, whole⟩ := List.isSuffixOf_iff_suffix.mp ends
    exact plain.closeBracket (whole ▸ by simp)
  unfold stripBrackets
  rw [trimPrefix_open host (fun first => plain.openBracket (List.mem_of_head? first))]
  simp [Bytes.trimSuffix, unclosed]

private theorem splitHostPort_bracketed {port : Bytes} (starts : s.head? = some Bytes.openBracket)
    (cut : splitHostPort s = some (host, port)) :
    host = (Bytes.before Bytes.closeBracket s).drop 1 := by
  unfold splitHostPort at cut
  split at cut
  · cases cut
  · rw [if_pos starts] at cut
    dsimp only at cut
    split at cut
    · cases cut
    · cases cut
      rfl

private theorem splitHostPort_unbracketed {port : Bytes}
    (starts : s.head? ≠ some Bytes.openBracket) (cut : splitHostPort s = some (host, port)) :
    splitLast Bytes.colon s = some (host, port) := by
  unfold splitHostPort at cut
  split at cut
  · cases cut
  next front back last =>
    rw [if_neg starts] at cut
    split at cut
    · cases cut
    · cases cut
      exact last

/-- A host with a zone, joined to a port. The zone may make the join unsplittable;
then the whole text stands for the host, and the address still leads it. -/
private theorem before_lenientHost_zone (plain : Unmarked host) (zone : Bytes) (n : Nat) :
    Bytes.before Bytes.percent
        (stripBrackets (lenientHost (joinHostPort (host ++ Bytes.percent :: zone) (Bytes.itoa n)))) =
      host := by
  have noColon : Bytes.colon ∉ Bytes.itoa n := not_digit_of_port (by decide)
  have percentOpen : Bytes.percent ≠ Bytes.closeBracket := by decide
  have openNotClose : Bytes.openBracket ≠ Bytes.closeBracket := by decide
  unfold joinHostPort
  split
  · have shape : Bytes.openBracket :: (host ++ Bytes.percent :: zone) ++
        Bytes.closeBracket :: Bytes.colon :: Bytes.itoa n =
          (Bytes.openBracket :: host) ++
            Bytes.percent :: (zone ++ Bytes.closeBracket :: Bytes.colon :: Bytes.itoa n) := by
      simp
    have noClose : Bytes.closeBracket ∉ Bytes.openBracket :: host := by
      intro member
      rcases List.mem_cons.mp member with same | member
      · exact openNotClose same.symm
      · exact plain.closeBracket member
    rw [shape]
    unfold lenientHost
    split
    next found port cut =>
      rw [splitHostPort_bracketed rfl cut, before_mark noClose]
      simp only [Bytes.before, percentOpen, if_false, List.cons_append, List.drop_succ_cons,
        List.drop_zero]
      exact before_stripBrackets plain _
    next =>
      have opened : Bytes.trimPrefix [Bytes.openBracket] (Bytes.openBracket :: host ++
          Bytes.percent :: (zone ++ Bytes.closeBracket :: Bytes.colon :: Bytes.itoa n)) =
            host ++ Bytes.percent :: (zone ++ Bytes.closeBracket :: Bytes.colon :: Bytes.itoa n) := by
        simp [Bytes.trimPrefix]
      unfold stripBrackets
      rw [opened, before_trimSuffix plain]
  · have shape : host ++ Bytes.percent :: zone ++ Bytes.colon :: Bytes.itoa n =
        host ++ Bytes.percent :: (zone ++ Bytes.colon :: Bytes.itoa n) := by
      simp
    unfold lenientHost
    split
    next found port cut =>
      rw [shape] at cut
      have last := splitHostPort_unbracketed (head_zone plain _) cut
      rw [← shape, splitLast_append noColon] at last
      cases last
      exact before_stripBrackets plain zone
    next =>
      rw [shape]
      exact before_stripBrackets plain _

theorem TCPAddr.unmarked_ipText (a : TCPAddr) : Unmarked a.ipText := by
  intro b member
  unfold TCPAddr.ipText at member
  split at member
  · cases member
  · exact IP.not_isMark_of_mem_text member

/-- The address is what stands before the zone in the host of a written socket
address, whatever the zone holds. -/
theorem TCPAddr.before_lenientHost_text (a : TCPAddr) :
    Bytes.before Bytes.percent (stripBrackets (lenientHost a.text)) = a.ipText := by
  have plain := a.unmarked_ipText
  unfold TCPAddr.text
  split
  · unfold lenientHost
    rw [splitHostPort_joinHostPort plain]
    dsimp only
    rw [stripBrackets_of_unmarked plain, Bytes.before_of_not_mem plain.percent]
  · exact before_lenientHost_zone plain a.zone a.port

theorem TCPAddr.isLoopback_parseIP_ipText (a : TCPAddr) :
    (parseIP a.ipText).any IP.isLoopback = a.ip.isLoopback := by
  unfold TCPAddr.ipText
  split
  next absent =>
    rw [absent]
    decide
  next => exact IP.isLoopback_parseIP_text a.ip

end ClusterRouter.Foundation
