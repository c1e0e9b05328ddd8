import ClusterRouter.Foundation.Bytes

/-! What `strings.TrimSpace` leaves has no white space at either end, and it leaves such a
string alone. -/

set_option autoImplicit false

namespace ClusterRouter.Foundation

namespace Bytes

section Widths

variable {width : Bytes → Nat}

theorem trimWith_of_width {s : Bytes} (unspaced : width s = 0) (fuel : Nat) :
    trimWith width fuel s = s := by
  cases fuel with
  | zero => rfl
  | succ fuel => exact if_pos unspaced

theorem width_trimWith (empty : width [] = 0) {fuel : Nat} {s : Bytes} (enough : s.length ≤ fuel) :
    width (trimWith width fuel s) = 0 := by
  induction fuel generalizing s with
  | zero =>
    rw [List.length_eq_zero_iff.mp (Nat.le_zero.mp enough)]
    exact empty
  | succ fuel ih =>
    unfold trimWith
    split
    · assumption
    · exact ih (by rw [List.length_drop]; omega)

theorem trimWith_suffix (fuel : Nat) (s : Bytes) : trimWith width fuel s <:+ s := by
  induction fuel generalizing s with
  | zero => exact List.suffix_refl s
  | succ fuel ih =>
    unfold trimWith
    split
    · exact List.suffix_refl s
    · exact (ih _).trans (List.drop_suffix _ _)

end Widths

variable {b : UInt8} {s : Bytes}

/-! A byte below `0x80` begins and ends no wider rune, so it is judged by itself. -/

theorem spaceWidth_cons (ascii : b < 0x80) (rest : Bytes) :
    spaceWidth (b :: rest) = if 9 ≤ b ∧ b ≤ 13 ∨ b = 32 then 1 else 0 := by
  unfold spaceWidth
  split <;> simp_all

theorem lastSpaceWidth_cons (ascii : b < 0x80) (rest : Bytes) :
    lastSpaceWidth (b :: rest) = if 9 ≤ b ∧ b ≤ 13 ∨ b = 32 then 1 else 0 := by
  have noNel : ¬ (b = 0x85 ∨ b = 0xA0) := by
    rintro (rfl | rfl) <;> exact absurd ascii (by decide)
  have noWide : ¬ (b ≤ 0x8A ∧ 0x80 ≤ b ∨ b = 0xA8 ∨ b = 0xA9 ∨ b = 0xAF) := by
    rintro (⟨_, large⟩ | rfl | rfl | rfl)
    · exact UInt8.not_lt.mpr large ascii
    all_goals exact absurd ascii (by decide)
  unfold lastSpaceWidth
  split <;> simp_all

theorem spaceWidth_ascii (space : 9 ≤ b ∧ b ≤ 13 ∨ b = 32) (rest : Bytes) :
    spaceWidth (b :: rest) = 1 := by
  have ascii : b < 0x80 := by
    rcases space with ⟨_, small⟩ | rfl
    · exact UInt8.lt_of_le_of_lt small (by decide)
    · decide
  rw [spaceWidth_cons ascii, if_pos space]

private theorem spaceWidth_facts (s rest : Bytes) :
    spaceWidth s ≤ s.length ∧ (spaceWidth s ≠ 0 → spaceWidth (s ++ rest) = spaceWidth s) ∧
      (s ≠ [] → spaceWidth (s ++ [10]) = spaceWidth s) := by
  fun_cases spaceWidth s
  case case8 b tail _ _ _ _ _ space =>
    exact ⟨by simp, fun _ => spaceWidth_ascii space _, fun _ => spaceWidth_ascii space _⟩
  case case9 b tail _ _ _ _ _ _ =>
    refine ⟨Nat.zero_le _, fun space => absurd rfl space, fun _ => ?_⟩
    unfold spaceWidth
    rcases tail with _ | ⟨c, _ | ⟨d, tail⟩⟩
    all_goals
      split
      all_goals
        next shape => cases shape <;> simp_all
  all_goals simp_all [spaceWidth]

theorem spaceWidth_append (space : spaceWidth s ≠ 0) (rest : Bytes) :
    spaceWidth (s ++ rest) = spaceWidth s :=
  (spaceWidth_facts s rest).2.1 space

theorem spaceWidth_append_newline (nonempty : s ≠ []) :
    spaceWidth (s ++ [10]) = spaceWidth s :=
  (spaceWidth_facts s []).2.2 nonempty

theorem lastSpaceWidth_newline (s : Bytes) : lastSpaceWidth (10 :: s) = 1 :=
  lastSpaceWidth_cons (by decide) s

theorem trimWith_append_newline {fuel : Nat} (enough : s.length ≤ fuel) :
    trimWith spaceWidth (fuel + 1) (s ++ [10]) =
      if trimWith spaceWidth fuel s = [] then [] else trimWith spaceWidth fuel s ++ [10] := by
  induction fuel generalizing s with
  | zero =>
    rw [List.length_eq_zero_iff.mp (Nat.le_zero.mp enough)]
    rfl
  | succ fuel ih =>
    by_cases empty : s = []
    · subst empty
      rfl
    rw [trimWith.eq_2, spaceWidth_append_newline empty]
    by_cases unspaced : spaceWidth s = 0
    · rw [if_pos unspaced, trimWith_of_width unspaced, if_neg empty]
    · rw [if_neg unspaced, List.drop_append_of_le_length (spaceWidth_facts s []).1,
        ih (by rw [List.length_drop]; omega), trimWith.eq_2 spaceWidth s fuel, if_neg unspaced]

def Trimmed (s : Bytes) : Prop := spaceWidth s = 0 ∧ lastSpaceWidth s.reverse = 0

instance : DecidablePred Trimmed := fun s =>
  inferInstanceAs (Decidable (spaceWidth s = 0 ∧ lastSpaceWidth s.reverse = 0))

theorem Trimmed.trimSpace_eq (trimmed : Trimmed s) : trimSpace s = s := by
  unfold trimSpace
  dsimp only
  rw [trimWith_of_width trimmed.1, trimWith_of_width trimmed.2, List.reverse_reverse]

theorem trimmed_trimSpace (s : Bytes) : Trimmed (trimSpace s) := by
  unfold trimSpace
  dsimp only
  generalize shape : trimWith spaceWidth s.length s = front
  have noFront : spaceWidth front = 0 := by
    rw [← shape]
    exact width_trimWith rfl le_rfl
  constructor
  · -- what the second trim leaves is the front of a string without white space at its front
    obtain ⟨dropped, parts⟩ := @trimWith_suffix lastSpaceWidth front.length front.reverse
    have parts := congrArg List.reverse parts
    rw [List.reverse_append, List.reverse_reverse] at parts
    by_contra space
    rw [← parts, spaceWidth_append space] at noFront
    exact space noFront
  · rw [List.reverse_reverse]
    exact width_trimWith rfl (List.length_reverse).le

theorem trimSpace_inside (s : Bytes) : trimSpace s <:+: s := by
  unfold trimSpace
  dsimp only
  have back := List.reverse_prefix.mpr
    (@trimWith_suffix lastSpaceWidth (trimWith spaceWidth s.length s).length
      (trimWith spaceWidth s.length s).reverse)
  rw [List.reverse_reverse] at back
  exact back.isInfix.trans (trimWith_suffix s.length s).isInfix

theorem trimSpace_eq_self_iff : trimSpace s = s ↔ Trimmed s := by
  constructor
  · intro same
    rw [← same]
    exact trimmed_trimSpace s
  · exact Trimmed.trimSpace_eq

theorem length_trimSpace_lt (untrimmed : ¬ Trimmed s) :
    (trimSpace s).length < s.length := by
  have shorter := (trimSpace_inside s).length_le
  by_contra same
  exact untrimmed (trimSpace_eq_self_iff.mp ((trimSpace_inside s).eq_of_length (by omega)))

@[simp] theorem trimSpace_trimSpace (s : Bytes) : trimSpace (trimSpace s) = trimSpace s :=
  (trimmed_trimSpace s).trimSpace_eq

@[simp] theorem trimSpace_append_newline (s : Bytes) : trimSpace (s ++ [10]) = trimSpace s := by
  unfold trimSpace
  dsimp only
  rw [List.length_append, List.length_singleton, trimWith_append_newline le_rfl]
  split
  next empty => rw [empty]
  next nonempty =>
    rw [List.length_append, List.length_singleton, List.reverse_append, List.reverse_singleton,
      List.singleton_append, trimWith.eq_2, lastSpaceWidth_newline]
    rfl

/-! ## Visible bytes -/

def isVisible (b : UInt8) : Bool := decide (32 < b ∧ b < 127)

private theorem visible_facts (visible : isVisible b = true) :
    b < 0x80 ∧ ¬ (9 ≤ b ∧ b ≤ 13 ∨ b = 32) := by
  obtain ⟨large, small⟩ := of_decide_eq_true visible
  refine ⟨UInt8.lt_trans small (by decide), ?_⟩
  rintro (⟨_, below⟩ | rfl)
  · exact absurd (UInt8.lt_of_lt_of_le large below) (by decide)
  · exact absurd large (by decide)

theorem spaceWidth_of_visible {rest : Bytes} (visible : isVisible b = true) :
    spaceWidth (b :: rest) = 0 := by
  obtain ⟨ascii, noSpace⟩ := visible_facts visible
  rw [spaceWidth_cons ascii, if_neg noSpace]

theorem lastSpaceWidth_of_visible {rest : Bytes} (visible : isVisible b = true) :
    lastSpaceWidth (b :: rest) = 0 := by
  obtain ⟨ascii, noSpace⟩ := visible_facts visible
  rw [lastSpaceWidth_cons ascii, if_neg noSpace]

theorem trimmed_of_visible (visible : ∀ b ∈ s, isVisible b = true) : Trimmed s := by
  constructor
  · cases s with
    | nil => rfl
    | cons b rest => exact spaceWidth_of_visible (visible b List.mem_cons_self)
  · cases backwards : s.reverse with
    | nil => rfl
    | cons b rest =>
      have member : b ∈ s := List.mem_reverse.mp (backwards ▸ List.mem_cons_self)
      exact lastSpaceWidth_of_visible (visible b member)

end Bytes

end ClusterRouter.Foundation
