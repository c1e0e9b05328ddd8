import ClusterRouter.Foundation.HostPort
import ClusterRouter.Foundation.Separated

/-! What `ParseIP` accepts is made of digits, colons and dots: no zone and no bracket. -/

set_option autoImplicit false

namespace ClusterRouter.Foundation

def isLiteralByte (b : UInt8) : Bool :=
  (hexDigit b).isSome || decide (b = Bytes.colon) || decide (b = Bytes.dot)

variable {b : UInt8} {s : Bytes} {ip : IP}

theorem not_isMark_of_isLiteralByte (literal : isLiteralByte b = true) : ¬ IsMark b := by
  rintro (rfl | rfl | rfl) <;> exact absurd literal (by decide)

theorem isLiteralByte_of_isDigit (digit : Bytes.isDigit b = true) :
    isLiteralByte b = true := by
  simp [isLiteralByte, hexDigit, digit]

theorem parseOctet_eq_some {octet : UInt8} (parsed : parseOctet s = some octet) :
    s ≠ [] ∧ s.all Bytes.isDigit = true ∧ ¬ (1 < s.length ∧ s.head? = some 48) ∧
      octet.toNat = s.foldl (fun value b => value * 10 + (b.toNat - 48)) 0 := by
  unfold parseOctet at parsed
  dsimp only at parsed
  split at parsed
  · cases parsed
  next sound =>
    cases parsed
    simp only [not_or, Bool.not_eq_false, not_lt] at sound
    refine ⟨sound.1, sound.2.1, sound.2.2.1, ?_⟩
    rw [UInt8.toNat_ofNat']
    omega

theorem parseIPv4_eq_some {quad : IP} (parsed : parseIPv4 s = some quad) :
    ∃ p q r t a b c d, Bytes.split Bytes.dot s = [p, q, r, t] ∧ quad = [a, b, c, d] ∧
      parseOctet p = some a ∧ parseOctet q = some b ∧ parseOctet r = some c ∧
      parseOctet t = some d := by
  unfold parseIPv4 at parsed
  split at parsed
  next a b c d octets =>
    cases parsed
    match parts : Bytes.split Bytes.dot s with
    | [p, q, r, t] =>
      rw [parts] at octets
      simp only [List.map_cons, List.map_nil, List.cons.injEq, and_true] at octets
      obtain ⟨first, second, third, fourth⟩ := octets
      exact ⟨p, q, r, t, a, b, c, d, rfl, rfl, first, second, third, fourth⟩
    | [] | [_] | [_, _] | [_, _, _] | _ :: _ :: _ :: _ :: _ :: _ =>
      rw [parts] at octets
      simp at octets
  · cases parsed

theorem isLiteralByte_of_parseIPv4 {quad : IP} (parsed : parseIPv4 s = some quad) (member : b ∈ s) :
    Bytes.isDigit b = true ∨ b = Bytes.dot := by
  obtain ⟨p, q, r, t, _, _, _, _, parts, _, first, second, third, fourth⟩ := parseIPv4_eq_some parsed
  have digits : ∀ part ∈ [p, q, r, t], part.all Bytes.isDigit = true := by
    simp only [List.mem_cons, List.not_mem_nil, or_false, forall_eq_or_imp, forall_eq]
    exact ⟨(parseOctet_eq_some first).2.1, (parseOctet_eq_some second).2.1,
      (parseOctet_eq_some third).2.1, (parseOctet_eq_some fourth).2.1⟩
  rw [(split_eq_iff.mp parts).2.2] at member
  rcases mem_join member with rfl | ⟨part, among, inside⟩
  · exact .inr rfl
  · exact .inl (List.all_eq_true.mp (digits part among) b inside)

private theorem hexField_digits {count value read : Nat} {rest : Bytes}
    (parsed : hexField count value s = some (read, rest)) :
    ∃ digits, s = digits ++ rest ∧ ∀ b ∈ digits, (hexDigit b).isSome = true := by
  induction s generalizing count value with
  | nil =>
    unfold hexField at parsed
    split at parsed
    · cases parsed
    · cases parsed
      exact ⟨[], rfl, by simp⟩
  | cons b tail ih =>
    unfold hexField at parsed
    cases known : hexDigit b with
    | none =>
      rw [known] at parsed
      dsimp only at parsed
      split at parsed
      · cases parsed
      · cases parsed
        exact ⟨[], rfl, by simp⟩
    | some digit =>
      rw [known] at parsed
      dsimp only at parsed
      split at parsed
      · cases parsed
      · obtain ⟨digits, whole, all⟩ := ih parsed
        refine ⟨b :: digits, by rw [whole, List.cons_append], ?_⟩
        simp only [List.mem_cons, forall_eq_or_imp]
        exact ⟨by rw [known]; rfl, all⟩

private theorem parseFields_bytes {room : Nat} {read : IP} {ellipsis : Option Nat}
    {result : IP × Option Nat × Bytes} (parsed : parseFields room s read ellipsis = some result)
    (member : b ∈ s) : isLiteralByte b = true ∨ b ∈ result.2.2 := by
  induction room generalizing s read ellipsis with
  | zero =>
    cases parsed
    exact .inr member
  | succ room ih =>
    unfold parseFields at parsed
    split at parsed
    · cases parsed
    next value rest field =>
      obtain ⟨digits, rfl, hex⟩ := hexField_digits field
      split at parsed
      · -- The rest of the text is an IPv4 address.
        split at parsed
        · cases parsed
        · split at parsed
          · cases parsed
          · obtain ⟨quad, four, rfl⟩ := Option.map_eq_some_iff.mp parsed
            rcases isLiteralByte_of_parseIPv4 four member with digit | rfl
            · exact .inl (isLiteralByte_of_isDigit digit)
            · exact .inl (by decide)
      · rcases List.mem_append.mp member with inDigits | inRest
        · exact .inl (by simp [isLiteralByte, hex b inDigits])
        · dsimp only at parsed
          cases rest with
          | nil => cases inRest
          | cons first more =>
            dsimp only at parsed
            split at parsed
            · cases parsed
            next isColon =>
              rw [not_not] at isColon
              rcases List.mem_cons.mp inRest with rfl | inMore
              · exact .inl (by rw [isColon]; decide)
              · cases more with
                | nil => cases inMore
                | cons second tail =>
                  dsimp only at parsed
                  split at parsed
                  · exact ih parsed inMore
                  next isEllipsis =>
                    rw [not_not] at isEllipsis
                    split at parsed
                    · cases parsed
                    · rcases List.mem_cons.mp inMore with rfl | inTail
                      · exact .inl (by rw [isEllipsis]; decide)
                      · split at parsed
                        next empty =>
                          rw [empty] at inTail
                          cases inTail
                        · exact ih parsed inTail

private theorem expandEllipsis_read {result : IP × Option Nat × Bytes}
    (expanded : expandEllipsis result = some ip) : result.2.2 = [] := by
  obtain ⟨read, ellipsis, rest⟩ := result
  cases rest with
  | nil => rfl
  | cons b tail => cases expanded

private theorem isLiteralByte_of_parseFields {ellipsis : Option Nat}
    (parsed : (parseFields 8 s [] ellipsis).bind expandEllipsis = some ip) (member : b ∈ s) :
    isLiteralByte b = true := by
  obtain ⟨result, fields, expanded⟩ := Option.bind_eq_some_iff.mp parsed
  rcases parseFields_bytes fields member with literal | unread
  · exact literal
  · rw [expandEllipsis_read expanded] at unread
    cases unread

theorem isLiteralByte_of_parseIPv6 (parsed : parseIPv6 s = some ip) (member : b ∈ s) :
    isLiteralByte b = true := by
  unfold parseIPv6 at parsed
  split at parsed
  · cases parsed
  · split at parsed
    next colons =>
      rw [← List.take_append_drop 2 s, colons] at member
      have colon : isLiteralByte Bytes.colon = true := by decide
      rcases List.mem_append.mp member with inColons | inRest
      · simp only [List.mem_cons, List.not_mem_nil, or_false, or_self] at inColons
        rw [inColons]
        exact colon
      · split at parsed
        next empty =>
          rw [empty] at inRest
          cases inRest
        · exact isLiteralByte_of_parseFields parsed inRest
    · exact isLiteralByte_of_parseFields parsed member

theorem parseIP_cases (parsed : parseIP s = some ip) :
    (∃ quad, parseIPv4 s = some quad ∧ ip = quad.to16) ∨
      (parseIPv6 s = some ip ∧
        s.find? (fun b => decide (b = Bytes.dot ∨ b = Bytes.colon)) = some Bytes.colon) := by
  unfold parseIP at parsed
  split at parsed
  · cases parsed
  next b first =>
    split at parsed
    · obtain ⟨quad, four, rfl⟩ := Option.map_eq_some_iff.mp parsed
      exact .inl ⟨quad, four, rfl⟩
    · split at parsed
      next isColon =>
        subst isColon
        refine .inr ⟨parsed, ?_⟩
        rw [← first]
        apply List.find?_congr
        intro other member
        have plain := not_isMark_of_isLiteralByte (isLiteralByte_of_parseIPv6 parsed member)
        have noPercent : other ≠ Bytes.percent := fun same => plain (.inl same)
        simp [noPercent]
      · cases parsed

theorem unmarked_of_parseIP (parsed : parseIP s = some ip) : Unmarked s := by
  intro b member
  apply not_isMark_of_isLiteralByte
  rcases parseIP_cases parsed with ⟨quad, four, _⟩ | ⟨six, _⟩
  · rcases isLiteralByte_of_parseIPv4 four member with digit | rfl
    · exact isLiteralByte_of_isDigit digit
    · decide
  · exact isLiteralByte_of_parseIPv6 six member

end ClusterRouter.Foundation
