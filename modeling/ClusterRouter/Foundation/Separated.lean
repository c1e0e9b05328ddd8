import ClusterRouter.Foundation.IPAddress

/-! Splitting a byte string at a separator and joining the parts again are inverse to each
other. -/

set_option autoImplicit false

namespace ClusterRouter.Foundation

variable {separator : UInt8}

theorem split_ne_nil (separator : UInt8) (s : Bytes) : Bytes.split separator s ≠ [] := by
  cases s with
  | nil => simp [Bytes.split]
  | cons b rest =>
    unfold Bytes.split
    split
    · simp
    · split <;> simp

theorem split_cons (separator b : UInt8) (rest : Bytes) :
    ∃ first more, Bytes.split separator rest = first :: more ∧
      Bytes.split separator (b :: rest) =
        if b = separator then [] :: first :: more else (b :: first) :: more := by
  cases parts : Bytes.split separator rest with
  | nil => exact absurd parts (split_ne_nil separator rest)
  | cons first more => exact ⟨first, more, rfl, by simp only [Bytes.split, parts]⟩

theorem join_cons_cons (separator : UInt8) (first second : Bytes) (rest : List Bytes) :
    join separator (first :: second :: rest) = first ++ separator :: join separator (second :: rest) :=
  rfl

theorem join_split (separator : UInt8) (s : Bytes) : join separator (Bytes.split separator s) = s := by
  induction s with
  | nil => rfl
  | cons b rest ih =>
    obtain ⟨first, more, parts, whole⟩ := split_cons separator b rest
    rw [parts] at ih
    rw [whole]
    split
    next same => rw [join_cons_cons, ih, same, List.nil_append]
    next =>
      cases more with
      | nil => simpa [join] using ih
      | cons second others =>
        rw [join_cons_cons] at ih ⊢
        rw [List.cons_append, ih]

theorem not_mem_of_mem_split {s part : Bytes} (member : part ∈ Bytes.split separator s) :
    separator ∉ part := by
  induction s generalizing part with
  | nil =>
    rw [show part = [] by simpa [Bytes.split] using member]
    simp
  | cons b rest ih =>
    obtain ⟨first, more, parts, whole⟩ := split_cons separator b rest
    rw [parts] at ih
    rw [whole] at member
    split at member
    next =>
      rcases List.mem_cons.mp member with rfl | later
      · simp
      · exact ih later
    next different =>
      rcases List.mem_cons.mp member with rfl | later
      · intro inside
        rcases List.mem_cons.mp inside with same | inFirst
        · exact different same.symm
        · exact ih List.mem_cons_self inFirst
      · exact ih (List.mem_cons_of_mem _ later)

theorem split_join {parts : List Bytes} (nonempty : parts ≠ [])
    (absent : ∀ part ∈ parts, separator ∉ part) :
    Bytes.split separator (join separator parts) = parts := by
  induction parts with
  | nil => exact absurd rfl nonempty
  | cons first rest ih =>
    have noneInFirst := absent first List.mem_cons_self
    cases rest with
    | nil => exact Bytes.split_of_not_mem noneInFirst
    | cons second more =>
      rw [join_cons_cons, Bytes.split_append noneInFirst,
        ih (by simp) (fun part member => absent part (List.mem_cons_of_mem _ member))]

theorem split_eq_iff {s : Bytes} {parts : List Bytes} :
    Bytes.split separator s = parts ↔
      parts ≠ [] ∧ (∀ part ∈ parts, separator ∉ part) ∧ s = join separator parts := by
  constructor
  · rintro rfl
    exact ⟨split_ne_nil separator s, fun part => not_mem_of_mem_split, (join_split separator s).symm⟩
  · rintro ⟨nonempty, absent, rfl⟩
    exact split_join nonempty absent

theorem split_append_separator (separator : UInt8) (s rest : Bytes) :
    Bytes.split separator (s ++ separator :: rest) =
      Bytes.split separator s ++ Bytes.split separator rest := by
  induction s with
  | nil =>
    rw [List.nil_append, ← List.nil_append (separator :: rest),
      Bytes.split_append (List.not_mem_nil)]
    rfl
  | cons b tail ih =>
    obtain ⟨first, more, parts, whole⟩ := split_cons separator b tail
    obtain ⟨first', more', parts', whole'⟩ := split_cons separator b (tail ++ separator :: rest)
    rw [ih, parts, List.cons_append] at parts'
    cases parts'
    rw [List.cons_append, whole', whole]
    split <;> rfl

end ClusterRouter.Foundation
