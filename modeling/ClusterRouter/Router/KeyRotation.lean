import ClusterRouter.Foundation.Time
import ClusterRouter.Router.KeyPool

/-! Calls of `Next` and `MarkExhausted` in any order. A key cools for one cooldown after the
latest mark on it; keys that do not cool are found by counting up from a 64-bit cursor. -/

set_option autoImplicit false

namespace ClusterRouter.Router

open Foundation

inductive PoolCall where
  | next (now : Int)
  | markExhausted (idx now : Int)
  deriving DecidableEq, Repr

namespace PoolCall

def isNext : PoolCall → Bool
  | next _ => true
  | markExhausted _ _ => false

def lastMark (key : Nat) (calls : List PoolCall) : Option Int :=
  calls.foldl
    (fun mark call =>
      match call with
      | next _ => mark
      | markExhausted idx now => if idx = key then some now else mark) none

/-- The latest mark on the key is less than one cooldown old. -/
def Cooling (cooldown : Int) (calls : List PoolCall) (now : Int) (key : Nat) : Prop :=
  ∃ marked ∈ lastMark key calls, now - marked < cooldown

theorem lastMark_append_next (key : Nat) (calls : List PoolCall) (now : Int) :
    lastMark key (calls ++ [next now]) = lastMark key calls := by
  simp [lastMark]

theorem lastMark_append_mark (key : Nat) (calls : List PoolCall) (idx now : Int) :
    lastMark key (calls ++ [markExhausted idx now]) =
      if idx = key then some now else lastMark key calls := by
  simp [lastMark]

theorem exists_next_at {calls : List PoolCall} {count : Nat} (more : count < calls.countP isNext) :
    ∃ before now rest, calls = before ++ next now :: rest ∧ before.countP isNext = count := by
  induction calls generalizing count with
  | nil => simp at more
  | cons call tail ih =>
    cases call with
    | markExhausted idx now =>
      rw [List.countP_cons_of_neg (by simp [isNext])] at more
      obtain ⟨before, instant, rest, rfl, counted⟩ := ih more
      refine ⟨markExhausted idx now :: before, instant, rest, rfl, ?_⟩
      rw [List.countP_cons_of_neg (by simp [isNext]), counted]
    | next now =>
      rw [List.countP_cons_of_pos (by simp [isNext])] at more
      cases count with
      | zero => exact ⟨[], now, tail, rfl, rfl⟩
      | succ count =>
        obtain ⟨before, instant, rest, rfl, counted⟩ := ih (Nat.lt_of_succ_lt_succ more)
        refine ⟨next now :: before, instant, rest, rfl, ?_⟩
        rw [List.countP_cons_of_pos (by simp [isNext]), counted]

end PoolCall

namespace Pool

def call (pool : Pool) : PoolCall → Pool
  | .next now => (pool.next now).2.2
  | .markExhausted idx now => pool.markExhausted idx now

def after (pool : Pool) (calls : List PoolCall) : Pool := calls.foldl call pool

theorem after_append (pool : Pool) (first second : List PoolCall) :
    pool.after (first ++ second) = (pool.after first).after second :=
  List.foldl_append

theorem after_concat (pool : Pool) (calls : List PoolCall) (last : PoolCall) :
    pool.after (calls ++ [last]) = (pool.after calls).call last := by
  simp [after]

/-! ## What a call changes -/

theorem call_same (pool : Pool) (c : PoolCall) :
    (pool.call c).keys = pool.keys ∧ (pool.call c).cooldown = pool.cooldown := by
  cases c with
  | next now =>
    simp only [call, next]
    split <;> exact ⟨rfl, rfl⟩
  | markExhausted idx now =>
    simp only [call, markExhausted]
    split <;> exact ⟨rfl, rfl⟩

theorem next_coolUntil (pool : Pool) (now : Int) :
    (pool.call (.next now)).coolUntil = pool.coolUntil := by
  simp only [call, next]
  split <;> rfl

theorem after_same (pool : Pool) (calls : List PoolCall) :
    (pool.after calls).keys = pool.keys ∧ (pool.after calls).cooldown = pool.cooldown := by
  induction calls generalizing pool with
  | nil => exact ⟨rfl, rfl⟩
  | cons c rest ih =>
    obtain ⟨keys, cooldown⟩ := call_same pool c
    exact ⟨(ih (pool.call c)).1.trans keys, (ih (pool.call c)).2.trans cooldown⟩

theorem after_idx {pool : Pool} (nonempty : 0 < pool.keys.length) (small : pool.idx < 2 ^ 64)
    (calls : List PoolCall) :
    (pool.after calls).idx = (pool.idx + calls.countP PoolCall.isNext) % 2 ^ 64 := by
  induction calls generalizing pool with
  | nil => exact (Nat.mod_eq_of_lt small).symm
  | cons c rest ih =>
    have sameKeys := (call_same pool c).1
    cases c with
    | next now =>
      have advanced : (pool.call (.next now)).idx = (pool.idx + 1) % 2 ^ 64 := by
        simp only [call, next, if_neg (Nat.ne_of_gt nonempty)]
      have later := @ih (pool.call (.next now)) (by rw [sameKeys]; exact nonempty)
        (by rw [advanced]; exact Nat.mod_lt _ (by decide))
      rw [List.countP_cons_of_pos (by simp [PoolCall.isNext])]
      refine later.trans ?_
      rw [advanced, Nat.mod_add_mod]
      congr 1
      omega
    | markExhausted idx now =>
      have kept : (pool.call (.markExhausted idx now)).idx = pool.idx := by
        simp only [call, markExhausted]
        split <;> rfl
      have later := @ih (pool.call (.markExhausted idx now)) (by rw [sameKeys]; exact nonempty)
        (by rw [kept]; exact small)
      rw [List.countP_cons_of_neg (by simp [PoolCall.isNext])]
      exact later.trans (by rw [kept])

/-! ## Where `Next` looks -/

/-- The search does not pass the end of the 64-bit range, or passes it unnoticed. -/
def Counts (pool : Pool) : Prop :=
  pool.idx + pool.keys.length ≤ 2 ^ 64 ∨ pool.keys.length ∣ 2 ^ 64

theorem Counts.place_eq {pool : Pool} (counts : pool.Counts) {off : Nat}
    (inside : off < pool.keys.length) :
    (pool.idx + off) % 2 ^ 64 % pool.keys.length = (pool.idx + off) % pool.keys.length := by
  rcases counts with short | divides
  · rw [Nat.mod_eq_of_lt (by omega : pool.idx + off < 2 ^ 64)]
  · exact Nat.mod_mod_of_dvd _ divides

theorem exists_offset {n place : Nat} (inside : place < n) (start : Nat) :
    ∃ off < n, (start + off) % n = place := by
  refine ⟨(place + n - start % n) % n, Nat.mod_lt _ (by omega), ?_⟩
  have reduced : start % n < n := Nat.mod_lt _ (by omega)
  rw [Nat.add_mod_mod, ← Nat.mod_add_mod,
    show start % n + (place + n - start % n) = place + n by omega, Nat.add_mod_right,
    Nat.mod_eq_of_lt inside]

/-- `Next` returns the first key counted from the cursor whose instant has passed. If there
is none, every key's instant lies ahead. -/
theorem next_cases {pool : Pool} (nonempty : 0 < pool.keys.length) (counts : pool.Counts)
    (now : Int) :
    (∃ off < pool.keys.length,
      (pool.next now).2.1 = ((pool.idx + off) % pool.keys.length : Nat) ∧
      pool.coolUntil.getD ((pool.idx + off) % pool.keys.length) 0 ≤ now ∧
      ∀ earlier < off, now < pool.coolUntil.getD ((pool.idx + earlier) % pool.keys.length) 0) ∨
    (pool.next now).2.1 = (pool.idx % pool.keys.length : Nat) ∧
      ∀ key < pool.keys.length, now < pool.coolUntil.getD key 0 := by
  simp only [next, if_neg (Nat.ne_of_gt nonempty), List.find?_map]
  cases found : (List.range pool.keys.length).find?
      ((fun i => decide (pool.coolUntil.getD i 0 ≤ now)) ∘
        fun off => (pool.idx + off) % 2 ^ 64 % pool.keys.length) with
  | some off =>
    obtain ⟨due, member, earlier⟩ := List.find?_range_eq_some.mp found
    have inside := List.mem_range.mp member
    rw [Function.comp_apply, counts.place_eq inside, decide_eq_true_eq] at due
    refine .inl ⟨off, inside, ?_, due, fun before less => ?_⟩
    · rw [Option.map_some, Option.getD_some, counts.place_eq inside]
    · have ahead := earlier before less
      rw [Function.comp_apply, counts.place_eq (less.trans inside), Bool.not_eq_true',
        decide_eq_false_iff_not, not_le] at ahead
      exact ahead
  | none =>
    refine .inr ⟨rfl, fun key inside => ?_⟩
    obtain ⟨off, less, isKey⟩ := exists_offset inside pool.idx
    have ahead := List.find?_range_eq_none.mp found off less
    rw [Function.comp_apply, counts.place_eq less, isKey, Bool.not_eq_true',
      decide_eq_false_iff_not, not_le] at ahead
    exact ahead

/-! ## Runs -/

/-- The clock reads an instant that is not before the epoch. A mark on top of it is still an
instant that 64 bits hold, and a search counts without a jump. -/
def Regular (pool : Pool) : PoolCall → Prop
  | .next now => 0 ≤ now ∧ pool.Counts
  | .markExhausted _ now => 0 ≤ now ∧ now + pool.cooldown < 2 ^ 63

def RegularRun (keys : List Bytes) (cooldown : Int) (calls : List PoolCall) : Prop :=
  ∀ before c rest, calls = before ++ c :: rest → ((new keys cooldown).after before).Regular c

def nextPlace (keys : List Bytes) (cooldown : Int) (before : List PoolCall) (now : Int) : Int :=
  (((new keys cooldown).after before).next now).2.1

def cursor (keys : List Bytes) (cooldown : Int) (before : List PoolCall) : Nat :=
  ((new keys cooldown).after before).idx

variable {keys : List Bytes} {cooldown : Int} {calls : List PoolCall}

theorem RegularRun.of_prefix {front : List PoolCall} (regular : RegularRun keys cooldown calls)
    (starts : front <+: calls) : RegularRun keys cooldown front := by
  obtain ⟨tail, rfl⟩ := starts
  intro before c rest split
  exact regular before c (rest ++ tail) (by rw [split]; simp)

theorem regularRun_nil : RegularRun keys cooldown [] := by
  intro before c rest split
  simp at split

theorem RegularRun.concat {last : PoolCall} (regular : RegularRun keys cooldown calls)
    (here : ((new keys cooldown).after calls).Regular last) :
    RegularRun keys cooldown (calls ++ [last]) := by
  intro before c rest split
  rcases List.eq_nil_or_concat rest with rfl | ⟨front, final, rfl⟩
  · obtain ⟨rfl, isLast⟩ := List.append_inj' split rfl
    cases isLast
    exact here
  · rw [List.concat_eq_append, ← List.cons_append, ← List.append_assoc] at split
    exact regular before c front (List.append_inj' split rfl).1

variable (positive : 0 < cooldown) (regular : RegularRun keys cooldown calls)

include positive regular

theorem coolUntil_after :
    ((new keys cooldown).after calls).coolUntil.length = keys.length ∧
      ∀ key < keys.length, ((new keys cooldown).after calls).coolUntil.getD key 0 =
        ((PoolCall.lastMark key calls).map (· + cooldown)).getD 0 := by
  induction calls using List.reverseRecOn with
  | nil =>
    refine ⟨List.length_replicate, fun key inside => ?_⟩
    simp [after, new, PoolCall.lastMark]
  | append_singleton calls last ih =>
    obtain ⟨length, stored⟩ := ih (regular.of_prefix (List.prefix_append _ _))
    have here := regular calls last [] rfl
    obtain ⟨sameKeys, sameCooldown⟩ := after_same (new keys cooldown) calls
    rw [after_concat]
    cases last with
    | next now =>
      rw [next_coolUntil]
      refine ⟨length, fun key inside => ?_⟩
      rw [PoolCall.lastMark_append_next]
      exact stored key inside
    | markExhausted idx now =>
      simp only [Regular, sameCooldown] at here
      simp only [call, markExhausted, sameKeys, sameCooldown]
      split
      next ignored =>
        refine ⟨length, fun key inside => ?_⟩
        have other : idx ≠ key := by
          simp only [new] at ignored
          omega
        rw [PoolCall.lastMark_append_mark, if_neg other]
        exact stored key inside
      next marked =>
        simp only [new] at marked here ⊢
        refine ⟨by rw [List.length_set]; exact length, fun key inside => ?_⟩
        rw [PoolCall.lastMark_append_mark]
        by_cases same : idx = key
        · subst same
          have within : key < ((new keys cooldown).after calls).coolUntil.length := by
            rw [length]
            exact inside
          have unwrapped := int64_of_nonneg (show 0 ≤ now + cooldown by omega) here.2
          simp [new] at within
          simp [within, unwrapped]
        · have other : idx.toNat ≠ key := by omega
          rw [if_neg same, List.getD_eq_getElem?_getD, List.getElem?_set_ne other,
            ← List.getD_eq_getElem?_getD]
          exact stored key inside

theorem lt_coolUntil_iff {now : Int} (sane : 0 ≤ now) {key : Nat} (inside : key < keys.length) :
    now < ((new keys cooldown).after calls).coolUntil.getD key 0 ↔
      PoolCall.Cooling cooldown calls now key := by
  rw [(coolUntil_after positive regular).2 key inside, PoolCall.Cooling]
  cases PoolCall.lastMark key calls with
  | none => simpa using sane
  | some marked => simp [sub_lt_iff_lt_add']

theorem next_first {before rest : List PoolCall} {now : Int}
    (split : calls = before ++ .next now :: rest) {key : Nat} (inside : key < keys.length)
    (warm : ¬ PoolCall.Cooling cooldown before now key) :
    ∃ off < keys.length,
      nextPlace keys cooldown before now = ((cursor keys cooldown before + off) % keys.length : Nat) ∧
      ¬ PoolCall.Cooling cooldown before now ((cursor keys cooldown before + off) % keys.length) ∧
      ∀ earlier < off, PoolCall.Cooling cooldown before now
        ((cursor keys cooldown before + earlier) % keys.length) := by
  obtain ⟨sane, counts⟩ := regular before _ rest split
  have front : RegularRun keys cooldown before :=
    regular.of_prefix (split ▸ List.prefix_append _ _)
  have nonempty : 0 < keys.length := Nat.zero_lt_of_lt inside
  have within (place : Nat) : place % keys.length < keys.length := Nat.mod_lt _ nonempty
  have lengths : ((new keys cooldown).after before).keys.length = keys.length :=
    congrArg List.length (after_same _ before).1
  have choice := next_cases (by rw [lengths]; exact nonempty) counts now
  rw [lengths] at choice
  rcases choice with ⟨off, less, isNext, due, ahead⟩ | ⟨_, ahead⟩
  · refine ⟨off, less, isNext, fun cooling => ?_, fun earlier nearer => ?_⟩
    · exact absurd ((lt_coolUntil_iff positive front sane (within _)).mpr cooling) (not_lt.mpr due)
    · exact (lt_coolUntil_iff positive front sane (within _)).mp (ahead earlier nearer)
  · exact absurd ((lt_coolUntil_iff positive front sane inside).mp (ahead key inside)) warm

end Pool

/-- A cooling key is returned only where every key cools. Otherwise it is the first that
does not, counted from the cursor. -/
def PicksWarm (keys : List Bytes) (cooldown : Int) (calls : List PoolCall) : Prop :=
  ∀ before now rest, calls = before ++ .next now :: rest →
    (∀ key : Nat, Pool.nextPlace keys cooldown before now = key → key < keys.length →
      PoolCall.Cooling cooldown before now key →
      ∀ other < keys.length, PoolCall.Cooling cooldown before now other) ∧
    (∀ key < keys.length, ¬ PoolCall.Cooling cooldown before now key →
      ∃ off < keys.length,
        Pool.nextPlace keys cooldown before now =
          ((Pool.cursor keys cooldown before + off) % keys.length : Nat) ∧
        ¬ PoolCall.Cooling cooldown before now
          ((Pool.cursor keys cooldown before + off) % keys.length) ∧
        ∀ earlier < off, PoolCall.Cooling cooldown before now
          ((Pool.cursor keys cooldown before + earlier) % keys.length))

/-- As many calls of `Next` as there are keys, with the same keys cooling at each of them,
return every key that does not cool. -/
def CoversWarm (keys : List Bytes) (cooldown : Int) (calls : List PoolCall) : Prop :=
  ∀ before window rest (cooling : Nat → Prop), calls = before ++ window ++ rest →
    window.countP PoolCall.isNext = keys.length →
    (∀ front now back, window = front ++ .next now :: back → ∀ key < keys.length,
      (PoolCall.Cooling cooldown (before ++ front) now key ↔ cooling key)) →
    ∀ key < keys.length, ¬ cooling key →
      ∃ front now back, window = front ++ .next now :: back ∧
        Pool.nextPlace keys cooldown (before ++ front) now = key

section

variable {keys : List Bytes} {cooldown : Int} {calls : List PoolCall} (positive : 0 < cooldown)
  (regular : Pool.RegularRun keys cooldown calls)

include positive regular

theorem picksWarm_of_regular : PicksWarm keys cooldown calls := by
  intro before now rest split
  refine ⟨fun key returned inside cooling other otherInside => ?_, fun key inside warm =>
    Pool.next_first positive regular split inside warm⟩
  by_contra warm
  obtain ⟨off, _, isNext, notCooling, _⟩ :=
    Pool.next_first positive regular split otherInside warm
  have same : key = (Pool.cursor keys cooldown before + off) % keys.length :=
    Int.ofNat.inj (returned.symm.trans isNext)
  exact notCooling (same ▸ cooling)

theorem coversWarm_of_regular : CoversWarm keys cooldown calls := by
  intro before window rest cooling split counted steady key inside warm
  have nonempty : 0 < keys.length := Nat.zero_lt_of_lt inside
  have lengths : ((Pool.new keys cooldown).after before).keys.length = keys.length :=
    congrArg List.length (Pool.after_same _ before).1
  have small : Pool.cursor keys cooldown before < 2 ^ 64 := by
    rw [Pool.cursor, Pool.after_idx nonempty (by simp [Pool.new])]
    exact Nat.mod_lt _ (by decide)
  have cursorAt (front : List PoolCall) : Pool.cursor keys cooldown (before ++ front) =
      (Pool.cursor keys cooldown before + front.countP PoolCall.isNext) % 2 ^ 64 := by
    unfold Pool.cursor
    rw [Pool.after_append, Pool.after_idx (by rw [lengths]; exact nonempty) small]
  have whole (front : List PoolCall) (now : Int) (back : List PoolCall)
      (inWindow : window = front ++ .next now :: back) :
      calls = (before ++ front) ++ .next now :: (back ++ rest) := by
    rw [split, inWindow]
    simp
  -- The first call of the window says that its cursor counts up without a jump.
  have counts : ((Pool.new keys cooldown).after before).Counts := by
    obtain ⟨front, now, back, inWindow, isFirst⟩ :=
      PoolCall.exists_next_at (show 0 < window.countP PoolCall.isNext by omega)
    have here := (regular _ _ _ (whole front now back inWindow)).2
    have unmoved := cursorAt front
    rw [isFirst, Nat.add_zero, Nat.mod_eq_of_lt small] at unmoved
    simp only [Pool.cursor] at unmoved
    simp only [Pool.Counts, unmoved, Pool.after_same] at here ⊢
    exact here
  obtain ⟨off, less, isKey⟩ := Pool.exists_offset inside (Pool.cursor keys cooldown before)
  obtain ⟨front, now, back, inWindow, isOff⟩ :=
    PoolCall.exists_next_at (show off < window.countP PoolCall.isNext by omega)
  have place : Pool.cursor keys cooldown (before ++ front) % keys.length = key := by
    have reached := counts.place_eq (lengths ▸ less)
    rw [lengths] at reached
    rw [cursorAt, isOff]
    exact reached.trans isKey
  have warmHere : ¬ PoolCall.Cooling cooldown (before ++ front) now key :=
    fun cools => warm ((steady front now back inWindow key inside).mp cools)
  obtain ⟨skipped, _, isNext, _, passed⟩ :=
    Pool.next_first positive regular (whole front now back inWindow) inside warmHere
  refine ⟨front, now, back, inWindow, ?_⟩
  -- The key stands first in this call's search, so none is passed over before it.
  cases skipped with
  | zero => rw [isNext, Nat.add_zero, place]
  | succ skipped =>
    have cools := passed 0 (Nat.succ_pos skipped)
    rw [Nat.add_zero, place] at cools
    exact absurd cools warmHere

end

/-- In a run whose calls are all regular, cooling keys are a last resort and the keys that
do not cool are returned in turn. -/
theorem cooling_keys_last {keys : List Bytes} {cooldown : Int} (positive : 0 < cooldown)
    {calls : List PoolCall} (regular : Pool.RegularRun keys cooldown calls) :
    PicksWarm keys cooldown calls ∧ CoversWarm keys cooldown calls :=
  ⟨picksWarm_of_regular positive regular, coversWarm_of_regular positive regular⟩

theorem cooling_keys_last_marked :
    PicksWarm [lit "a", lit "b", lit "c"] 300
        [.markExhausted 1 1000, .next 1010, .next 1020, .next 1030] ∧
      CoversWarm [lit "a", lit "b", lit "c"] 300
        [.markExhausted 1 1000, .next 1010, .next 1020, .next 1030] := by
  have marked : Pool.RegularRun [lit "a", lit "b", lit "c"] 300 [.markExhausted 1 1000] :=
    Pool.regularRun_nil.concat ⟨by decide, by decide⟩
  have first : Pool.RegularRun [lit "a", lit "b", lit "c"] 300
      [.markExhausted 1 1000, .next 1010] := marked.concat ⟨by decide, .inl (by decide)⟩
  have second : Pool.RegularRun [lit "a", lit "b", lit "c"] 300
      [.markExhausted 1 1000, .next 1010, .next 1020] := first.concat ⟨by decide, .inl (by decide)⟩
  have third : Pool.RegularRun [lit "a", lit "b", lit "c"] 300
      [.markExhausted 1 1000, .next 1010, .next 1020, .next 1030] := second.concat ⟨by decide, .inl (by decide)⟩
  exact cooling_keys_last (by decide) third

/-- The longest cooldown in whole hours, some 292 years. -/
def longestHours : Int := 2562047 * Duration.hour

/-- In the year 2026 a mark with it wraps, and the key counts as healthy at once. -/
theorem longest_cooldown_ignored :
    0 < longestHours ∧
      ¬ PicksWarm [lit "a", lit "b"] longestHours
        [.markExhausted 0 1790000000000000000, .next 1790000000000000001] := by
  refine ⟨by decide, fun picks => ?_⟩
  have only := (picks [.markExhausted 0 1790000000000000000] 1790000000000000001 [] rfl).1 0 rfl
    (by decide) ⟨_, rfl, by decide⟩ 1 (by decide)
  obtain ⟨marked, isMarked, _⟩ := only
  cases isMarked

-- At the end of the 64-bit range the search of three keys skips the last of them.
example : ((⟨[lit "a", lit "b", lit "c"], 1, 2 ^ 64 - 1, [9, 9, 0]⟩ : Pool).next 1).2.1 = 0 := by
  decide

end ClusterRouter.Router
