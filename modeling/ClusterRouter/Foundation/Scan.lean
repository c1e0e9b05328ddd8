import ClusterRouter.Foundation.Bytes

/-! Where a separator occurs, what a scan over a class of bytes leaves, and the number that
decimal digits stand for. -/

set_option autoImplicit false

namespace ClusterRouter.Foundation

/-! ## Scans -/

section Scan

variable {α : Type} {p : α → Bool}

theorem dropWhile_eq_cons_iff {items rest : List α} {stop : α} :
    items.dropWhile p = stop :: rest ↔
      ∃ passed, (∀ item ∈ passed, p item = true) ∧ p stop = false ∧
        items = passed ++ stop :: rest := by
  constructor
  · intro left
    refine ⟨items.takeWhile p, fun item member => List.mem_takeWhile_imp member, ?_, ?_⟩
    · have head := List.head_dropWhile_not p (l := items) (by simp [left])
      simpa only [left, List.head_cons] using head
    · rw [← left, List.takeWhile_append_dropWhile]
  · rintro ⟨passed, all, stops, rfl⟩
    rw [List.dropWhile_append_of_pos all, List.dropWhile_cons_of_neg (by simp [stops])]

theorem takeWhile_append_stop {passed rest : List α} {stop : α}
    (all : ∀ item ∈ passed, p item = true) (stops : p stop = false) :
    (passed ++ stop :: rest).takeWhile p = passed := by
  rw [List.takeWhile_append_of_pos all, List.takeWhile_cons_of_neg (by simp [stops]),
    List.append_nil]

theorem rtake_append_rtake (items more : List α) (n : Nat) :
    (items.rtake n ++ more).rtake n = (items ++ more).rtake n := by
  unfold List.rtake
  rw [List.length_append, List.length_drop, List.length_append]
  have aligned : items.drop (items.length - n) ++ more =
      (items ++ more).drop (items.length - n) := by
    rw [List.drop_append_of_le_length (Nat.sub_le _ _)]
  rw [aligned, List.drop_drop]
  congr 1
  omega

end Scan

namespace Bytes

/-! ## Occurrences -/

def index (s sep : Bytes) : Option Nat :=
  (List.range (s.length + 1)).find? (fun position => sep.isPrefixOf (s.drop position))

private theorem find?_reverse_range {p : Nat → Bool} {n : Nat} :
    (∀ {k : Nat}, (List.range n).reverse.find? p = some k ↔
      k < n ∧ p k = true ∧ ∀ j, k < j → j < n → p j = false) := by
  intro k
  induction n with
  | zero => simp
  | succ n ih =>
    rw [List.range_succ, List.reverse_append, List.reverse_singleton, List.singleton_append,
      List.find?_cons]
    cases last : p n with
    | true =>
      simp only [Option.some.injEq]
      constructor
      · rintro rfl
        exact ⟨Nat.lt_succ_self _, last, fun j later bounded => by omega⟩
      · rintro ⟨bounded, _, latest⟩
        by_contra different
        have := latest n (by omega) (Nat.lt_succ_self _)
        rw [last] at this
        cases this
    | false =>
      rw [ih]
      constructor
      · rintro ⟨bounded, holds, latest⟩
        refine ⟨by omega, holds, fun j later below => ?_⟩
        obtain isLast | earlier := Nat.lt_succ_iff_lt_or_eq.mp below |>.symm
        · rw [isLast]
          exact last
        · exact latest j later earlier
      · rintro ⟨bounded, holds, latest⟩
        have different : k ≠ n := by
          rintro rfl
          rw [last] at holds
          cases holds
        exact ⟨by omega, holds, fun j later below => latest j later (by omega)⟩

def OccursAt (s sep : Bytes) (position : Nat) : Prop := ∃ rest, s.drop position = sep ++ rest

variable {s sep : Bytes} {position : Nat}

theorem isPrefixOf_iff_occursAt :
    sep.isPrefixOf (s.drop position) = true ↔ OccursAt s sep position := by
  rw [List.isPrefixOf_iff_prefix]
  constructor
  · rintro ⟨rest, same⟩
    exact ⟨rest, same.symm⟩
  · rintro ⟨rest, same⟩
    exact ⟨rest, same.symm⟩

theorem OccursAt.lt_length (nonempty : sep ≠ []) (occurs : OccursAt s sep position) :
    position < s.length := by
  obtain ⟨rest, same⟩ := occurs
  have length := congrArg List.length same
  have := List.length_pos_iff.mpr nonempty
  rw [List.length_drop, List.length_append] at length
  omega

theorem lastIndex_eq_some_iff (nonempty : sep ≠ []) :
    lastIndex s sep = some position ↔
      OccursAt s sep position ∧ ∀ later, position < later → ¬ OccursAt s sep later := by
  unfold lastIndex
  rw [find?_reverse_range, isPrefixOf_iff_occursAt]
  constructor
  · rintro ⟨_, occurs, latest⟩
    refine ⟨occurs, fun later after found => ?_⟩
    have bounded := found.lt_length nonempty
    have missing := latest later after (by omega)
    rw [isPrefixOf_iff_occursAt.mpr found] at missing
    cases missing
  · rintro ⟨occurs, latest⟩
    have bounded := occurs.lt_length nonempty
    refine ⟨by omega, occurs, fun later after _ => ?_⟩
    by_contra found
    exact latest later after (isPrefixOf_iff_occursAt.mp (by simpa using found))

theorem lastIndex_eq_none_iff (nonempty : sep ≠ []) :
    lastIndex s sep = none ↔ ∀ position, ¬ OccursAt s sep position := by
  unfold lastIndex
  rw [List.find?_eq_none]
  constructor
  · intro absent position occurs
    have bounded := occurs.lt_length nonempty
    refine absent position ?_ (isPrefixOf_iff_occursAt.mpr occurs)
    rw [List.mem_reverse, List.mem_range]
    omega
  · intro absent position _ found
    exact absent position (isPrefixOf_iff_occursAt.mp found)

/-! ## Decimal numbers -/

/-- The number that decimal digits stand for, the most significant first. -/
def decimal (digits : Bytes) : Nat := Nat.ofDigits 10 (digits.reverse.map (fun b => b.toNat - 48))

theorem foldl_eq_decimal (digits : Bytes) :
    digits.foldl (fun value b => value * 10 + (b.toNat - 48)) 0 = decimal digits := by
  rw [decimal, Nat.ofDigits_eq_foldr, List.foldr_map, List.foldr_reverse]
  congr 1
  funext value b
  simp only [Nat.cast_id]
  omega

end Bytes

end ClusterRouter.Foundation
