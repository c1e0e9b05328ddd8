import ClusterRouter.FairShare.Scheduler
import ClusterRouter.Foundation.TokenBucket

/-! A user's calls draw on one bucket after another. A collected bucket was full again, so the
next one is no gain, as long as nobody still draws on the old one. -/

set_option autoImplicit false

namespace ClusterRouter.FairShare

open Foundation

namespace Config

def capacity (cfg : Config) : ℚ := cfg.maxRequestsPerUser

def rate (cfg : Config) : ℚ := cfg.maxRequestsPerUser / cfg.window

def initial (cfg : Config) : ℚ := min cfg.burst cfg.maxRequestsPerUser

structure Sound (cfg : Config) : Prop where
  budget : 0 ≤ cfg.maxRequestsPerUser
  window : 0 < cfg.window
  doubled : cfg.window * 2 < 2 ^ 63

variable {cfg : Config}

theorem Sound.capacity_nonneg (sound : cfg.Sound) : 0 ≤ cfg.capacity := by
  unfold capacity
  exact_mod_cast sound.budget

theorem Sound.rate_nonneg (sound : cfg.Sound) : 0 ≤ cfg.rate :=
  div_nonneg (by exact_mod_cast sound.budget) (by exact_mod_cast sound.window.le)

theorem Sound.rate_mul_window (sound : cfg.Sound) : cfg.rate * cfg.window = cfg.capacity := by
  have positive : (cfg.window : ℚ) ≠ 0 := by exact_mod_cast sound.window.ne'
  rw [rate, capacity, div_mul_cancel₀ _ positive]

theorem initial_le (cfg : Config) : cfg.initial ≤ cfg.capacity := min_le_right _ _

end Config

/-! ## Buckets -/

namespace Bucket

def level (b : Bucket) : TokenBucket.Level := ⟨b.tokens, b.lastRefill⟩

/-- What holds of every bucket that the scheduler made. -/
structure Valid (cfg : Config) (clock : Int) (b : Bucket) : Prop where
  maxTokens : b.maxTokens = cfg.maxRequestsPerUser
  window : b.window = cfg.window
  capped : b.tokens ≤ cfg.capacity
  above : min 0 cfg.initial ≤ b.tokens
  refilled : b.lastRefill ≤ b.lastAccess
  accessed : b.lastAccess ≤ clock

variable {cfg : Config} {clock now : Int} {b : Bucket}

theorem Valid.later (valid : b.Valid cfg clock) (later : clock ≤ now) : b.Valid cfg now :=
  { valid with accessed := valid.accessed.trans later }

theorem tokens_newBucket (cfg : Config) (now : Int) : (newBucket cfg now).tokens = cfg.initial := by
  simp only [newBucket, Config.initial]
  split
  next more => rw [min_eq_right (by exact_mod_cast more.le)]
  next less => rw [min_eq_left (by exact_mod_cast not_lt.mp less)]

theorem valid_newBucket (cfg : Config) (now : Int) : (newBucket cfg now).Valid cfg now where
  maxTokens := rfl
  window := rfl
  capped := tokens_newBucket cfg now ▸ cfg.initial_le
  above := tokens_newBucket cfg now ▸ min_le_right _ _
  refilled := le_rfl
  accessed := le_rfl

theorem refill_spec (sound : cfg.Sound) (valid : b.Valid cfg clock) (later : clock ≤ now)
    {after : Bucket} (refilled : { b with lastAccess := now }.refill now = after) :
    after.Valid cfg now ∧ after.lastRefill = now ∧
      after.tokens ≤ b.tokens + cfg.rate * (now - b.lastRefill) := by
  have before : b.lastRefill ≤ now := valid.refilled.trans (valid.accessed.trans later)
  have positive : (0 : ℚ) < b.window := by
    rw [valid.window]
    exact_mod_cast sound.window
  have budget : (0 : ℚ) ≤ b.maxTokens := by
    rw [valid.maxTokens]
    exact_mod_cast sound.budget
  subst refilled
  simp only [refill]
  split
  next passed =>
    have elapsed : (0 : ℚ) ≤ Time.sub now b.lastRefill := by exact_mod_cast passed.1.le
    have short : (Time.sub now b.lastRefill : ℚ) ≤ now - b.lastRefill := by
      exact_mod_cast Time.sub_le before
    have gained : (0 : ℚ) ≤ b.maxTokens * (Time.sub now b.lastRefill / b.window) :=
      mul_nonneg budget (div_nonneg elapsed positive.le)
    refine ⟨⟨valid.maxTokens, valid.window, ?_, ?_, le_rfl, le_rfl⟩, rfl, ?_⟩
    · exact (min_le_right _ _).trans (by rw [valid.maxTokens]; rfl)
    · refine le_min (by linarith [valid.above]) ?_
      exact (min_le_left _ _).trans budget
    · refine (min_le_left _ _).trans (add_le_add_right ?_ _)
      rw [Config.rate, ← valid.maxTokens, ← valid.window, div_mul_eq_mul_div, mul_div_assoc]
      exact mul_le_mul_of_nonneg_left (div_le_div_of_nonneg_right short positive.le) budget
  next still =>
    have same : b.lastRefill = now := by
      by_contra different
      refine still ⟨?_, by exact_mod_cast positive⟩
      have strictly : b.lastRefill < now := lt_of_le_of_ne before different
      simp only [Time.sub, Duration.maximum, Duration.minimum]
      omega
    refine ⟨{ valid with refilled := before, accessed := le_rfl }, same, ?_⟩
    simp [same]

theorem allow_spec (sound : cfg.Sound) (valid : b.Valid cfg clock) (later : clock ≤ now) :
    (b.allow now).2.Valid cfg now ∧
      TokenBucket.Draws cfg.capacity cfg.rate b.level now (b.allow now).1 (b.allow now).2.level := by
  have before : (b.lastRefill : ℚ) ≤ now := by
    exact_mod_cast valid.refilled.trans (valid.accessed.trans later)
  have advances : (now : ℚ) = max (b.lastRefill : ℚ) now := (max_eq_right before).symm
  simp only [allow]
  generalize refilled : { b with lastAccess := now }.refill now = after
  obtain ⟨validAfter, lastRefill, refills⟩ := refill_spec sound valid later refilled
  have capped := validAfter.capped
  split
  · refine ⟨validAfter, ⟨?_, ?_, ?_, fun admitted => absurd admitted Bool.false_ne_true⟩⟩
    · simpa only [level, lastRefill] using advances
    · simpa only [level, ← advances, Bool.false_eq_true, if_false, add_zero] using refills
    · intro _
      simpa only [level, Bool.false_eq_true, if_false, add_zero] using capped
  next enough =>
    have paid : 0 ≤ after.tokens - 1 := by linarith
    refine ⟨{ validAfter with capped := ?_, above := (min_le_left _ _).trans paid }, ⟨?_, ?_, ?_, fun _ => paid⟩⟩
    · exact (sub_le_self _ zero_le_one).trans capped
    · simpa only [level, lastRefill] using advances
    · simpa only [level, ← advances, if_true, sub_add_cancel] using refills
    · intro _
      simpa only [level, if_true, sub_add_cancel] using capped

end Bucket

/-! ## One user among all -/

def Call.drawn (call : Call) : ℚ × Bool := (call.instant, call.admitted)

def World.callsOf (w : World) (user : Bytes) : List (ℚ × Bool) :=
  (w.calls.filter (fun call => decide (call.user = user))).map Call.drawn

def Owns (w : World) (owner : Nat → Bytes) (user : Bytes) (pointer : Nat) : Prop :=
  pointer < w.scheduler.heap.length ∧ owner pointer = user

/-- Everyone is known by and holds buckets of their own, and calls of the user hold the one
in use. -/
structure Owned (user : Bytes) (w : World) (owner : Nat → Bytes) : Prop where
  known : ∀ other pointer, w.scheduler.buckets other = some pointer → Owns w owner other pointer
  held : ∀ entry ∈ w.held, Owns w owner entry.1 entry.2
  current : ∀ entry ∈ w.held, entry.1 = user → w.scheduler.buckets user = some entry.2

/-- What the user's bucket holds is no more than what the calls so far have left, and
without a bucket a new one would be no gain. -/
def Backed (cfg : Config) (user : Bytes) (w : World) (level : TokenBucket.Level) : Prop :=
  match w.scheduler.buckets user with
  | some pointer => ∃ b, w.scheduler.heap[pointer]? = some b ∧ b.Valid cfg w.clock ∧
      TokenBucket.Yields cfg.capacity cfg.rate level b.level
  | none => level.last ≤ w.clock ∧ cfg.initial ≤ level.tokens + cfg.rate * (w.clock - level.last)

structure Tracked (cfg : Config) (start : Int) (user : Bytes) (w : World) : Prop where
  config : w.scheduler.cfg = cfg
  owned : ∃ owner, Owned user w owner
  ordered : (w.calls.map Call.instant).Pairwise (· ≤ ·)
  past : ∀ call ∈ w.calls, call.instant ≤ w.clock
  backed : ∃ level,
    TokenBucket.Drawn cfg.capacity cfg.rate ⟨cfg.initial, start⟩ (w.callsOf user) level ∧
      Backed cfg user w level

/-- A collection drops the user's bucket only while no call of the user holds it. -/
def Undisturbed (user : Bytes) (w : World) : Action → Prop
  | .gc now => w.scheduler.drops user now = true → ∀ entry ∈ w.held, entry.1 ≠ user
  | .lookup _ _ | .allow _ _ => True

instance (user : Bytes) (w : World) : DecidablePred (Undisturbed user w)
  | .gc now => inferInstanceAs (Decidable (w.scheduler.drops user now = true → ∀ entry ∈ w.held, entry.1 ≠ user))
  | .lookup _ _ | .allow _ _ => inferInstanceAs (Decidable True)

section

variable {cfg : Config} {start now : Int} {user : Bytes} {w next : World} {owner : Nat → Bytes}
  {level : TokenBucket.Level}

theorem tracked_start (cfg : Config) (start : Int) (user : Bytes) :
    Tracked cfg start user (.start cfg start) where
  config := rfl
  owned := ⟨fun _ => [], by simp [World.start, Scheduler.new], by simp [World.start],
    by simp [World.start]⟩
  ordered := .nil
  past := by simp [World.start]
  backed := ⟨_, .nil _, by simp [Backed, World.start, Scheduler.new]⟩

theorem Backed.keep (backed : Backed cfg user w level) (sound : cfg.Sound)
    (later : w.clock ≤ next.clock)
    (same : next.scheduler.buckets user = w.scheduler.buckets user)
    (kept : ∀ pointer b, w.scheduler.buckets user = some pointer →
      w.scheduler.heap[pointer]? = some b → next.scheduler.heap[pointer]? = some b) :
    Backed cfg user next level := by
  have passes : (w.clock : ℚ) ≤ next.clock := by exact_mod_cast later
  unfold Backed at backed ⊢
  rw [same]
  cases found : w.scheduler.buckets user with
  | some pointer =>
    rw [found] at backed
    obtain ⟨b, here, valid, yields⟩ := backed
    exact ⟨b, kept pointer b found here, valid.later later, yields⟩
  | none =>
    rw [found] at backed
    refine ⟨backed.1.trans passes, backed.2.trans (add_le_add_right ?_ _)⟩
    exact mul_le_mul_of_nonneg_left (sub_le_sub_right passes _) sound.rate_nonneg

/-! ### Lookups -/

theorem lookup_of_some {caller : Bytes} {pointer : Nat}
    (found : w.scheduler.buckets caller = some pointer) :
    w.lookup caller now = { w with clock := now, held := w.held ++ [(caller, pointer)] } := by
  simp only [World.lookup, Scheduler.lookup, found]

theorem lookup_of_none {caller : Bytes} (absent : w.scheduler.buckets caller = none) :
    w.lookup caller now = { w with
      scheduler := { w.scheduler with
        heap := w.scheduler.heap ++ [newBucket w.scheduler.cfg now]
        buckets := Function.update w.scheduler.buckets caller (some w.scheduler.heap.length) }
      clock := now
      held := w.held ++ [(caller, w.scheduler.heap.length)] } := by
  simp only [World.lookup, Scheduler.lookup, absent]

theorem Owned.lookup (owned : Owned user w owner) (caller : Bytes) (now : Int) :
    ∃ owner, Owned user (w.lookup caller now) owner := by
  cases found : w.scheduler.buckets caller with
  | some pointer =>
    rw [lookup_of_some found]
    refine ⟨owner, owned.known, forall_mem_concat owned.held (owned.known caller pointer found),
      forall_mem_concat owned.current ?_⟩
    rintro rfl
    exact found
  | none =>
    rw [lookup_of_none found]
    have longer : w.scheduler.heap.length <
        (w.scheduler.heap ++ [newBucket w.scheduler.cfg now]).length := by simp
    have old {other : Bytes} {pointer : Nat} (owns : Owns w owner other pointer) :
        pointer < (w.scheduler.heap ++ [newBucket w.scheduler.cfg now]).length ∧
          Function.update owner w.scheduler.heap.length caller pointer = other :=
      ⟨owns.1.trans longer, by rw [Function.update_of_ne owns.1.ne, owns.2]⟩
    refine ⟨Function.update owner w.scheduler.heap.length caller, ?_, ?_, ?_⟩
    · intro other pointer isBucket
      dsimp only at isBucket
      by_cases isCaller : other = caller
      · rw [isCaller, Function.update_self] at isBucket
        cases isBucket
        exact ⟨longer, isCaller ▸ Function.update_self ..⟩
      · rw [Function.update_of_ne isCaller] at isBucket
        exact old (owned.known other pointer isBucket)
    · exact forall_mem_concat (fun entry before => old (owned.held entry before))
        ⟨longer, Function.update_self ..⟩
    · refine forall_mem_concat (fun entry before same => ?_) ?_
      · have current := owned.current entry before same
        have other : user ≠ caller := by
          rintro rfl
          rw [found] at current
          cases current
        exact (Function.update_of_ne other ..).trans current
      · rintro rfl
        exact Function.update_self ..

theorem Backed.lookup (backed : Backed cfg user w level) (sound : cfg.Sound)
    (config : w.scheduler.cfg = cfg) (owned : Owned user w owner) (caller : Bytes)
    (later : w.clock ≤ now) : Backed cfg user (w.lookup caller now) level := by
  have passes : (w.clock : ℚ) ≤ now := by exact_mod_cast later
  cases found : w.scheduler.buckets caller with
  | some pointer =>
    rw [lookup_of_some found]
    exact backed.keep sound later rfl fun _ _ _ here => here
  | none =>
    rw [lookup_of_none found]
    by_cases isUser : user = caller
    · subst isUser
      simp only [Backed, found] at backed
      simp only [Backed, Function.update_self]
      refine ⟨newBucket w.scheduler.cfg now, by simp, config ▸ Bucket.valid_newBucket _ now, ?_⟩
      rw [config]
      have enough : cfg.rate * (w.clock - level.last) ≤ cfg.rate * (now - level.last) :=
        mul_le_mul_of_nonneg_left (sub_le_sub_right passes _) sound.rate_nonneg
      refine ⟨backed.1.trans passes, ?_, ?_⟩
      · simp only [Bucket.level, Bucket.tokens_newBucket]
        exact backed.2.trans (add_le_add_right enough _)
      · simp only [Bucket.level, Bucket.tokens_newBucket]
        exact cfg.initial_le
    · refine backed.keep sound later (Function.update_of_ne isUser ..) fun pointer b isBucket here => ?_
      rw [← here]
      exact List.getElem?_append_left (owned.known user pointer isBucket).1

/-! ### Calls -/

theorem allow_scheduler {pointer : Nat} {b : Bucket} (found : w.scheduler.heap[pointer]? = some b) :
    w.scheduler.allow pointer now = ((b.allow now).1,
      { w.scheduler with heap := w.scheduler.heap.set pointer (b.allow now).2 }) := by
  unfold Scheduler.allow
  rw [found]

theorem Owned.allow (owned : Owned user w owner) (index : Nat) (caller : Bytes) (pointer : Nat) :
    Owned user (w.allow index caller pointer now) owner := by
  have buckets : (w.allow index caller pointer now).scheduler.buckets = w.scheduler.buckets := by
    simp only [World.allow, Scheduler.allow]
    split <;> rfl
  have length : (w.allow index caller pointer now).scheduler.heap.length =
      w.scheduler.heap.length := by
    simp only [World.allow, Scheduler.allow]
    split
    · rfl
    · exact List.length_set
  refine ⟨fun other place isBucket => ?_, fun entry member => ?_, fun entry member same => ?_⟩
  · rw [Owns, length]
    exact owned.known other place (buckets ▸ isBucket)
  · rw [Owns, length]
    exact owned.held entry (List.mem_of_mem_eraseIdx member)
  · rw [buckets]
    exact owned.current entry (List.mem_of_mem_eraseIdx member) same

theorem callsOf_allow (w : World) (user : Bytes) (index : Nat) (caller : Bytes) (pointer : Nat)
    (now : Int) : (w.allow index caller pointer now).callsOf user = w.callsOf user ++
      if caller = user then [((now : ℚ), (w.scheduler.allow pointer now).1)] else [] := by
  simp only [World.callsOf, World.allow, List.filter_append, List.map_append]
  congr 1
  split
  next same => simp [same, Call.drawn]
  next other => simp [other]

theorem Tracked.allow (tracked : Tracked cfg start user w) (sound : cfg.Sound)
    (later : w.clock ≤ now) {index : Nat} {caller : Bytes} {pointer : Nat}
    (held : w.held[index]? = some (caller, pointer)) :
    Tracked cfg start user (w.allow index caller pointer now) := by
  obtain ⟨owner, owned⟩ := tracked.owned
  obtain ⟨level, drawn, backed⟩ := tracked.backed
  have member : (caller, pointer) ∈ w.held := List.mem_of_getElem? held
  have owns := owned.held _ member
  obtain ⟨b, here⟩ : ∃ b, w.scheduler.heap[pointer]? = some b := ⟨_, List.getElem?_eq_getElem owns.1⟩
  refine ⟨?_, ⟨owner, owned.allow index caller pointer⟩, ?_, ?_, ?_⟩
  · simp only [World.allow, allow_scheduler here]
    exact tracked.config
  · simp only [World.allow, List.map_append, List.map_singleton]
    refine List.pairwise_append.mpr ⟨tracked.ordered, List.pairwise_singleton _ _, ?_⟩
    intro instant before last isLast
    obtain ⟨call, isCall, rfl⟩ := List.mem_map.mp before
    rw [List.mem_singleton.mp isLast]
    exact (tracked.past call isCall).trans later
  · exact forall_mem_concat (fun call before => (tracked.past call before).trans later) le_rfl
  · rw [callsOf_allow, allow_scheduler here]
    by_cases isUser : caller = user
    · subst isUser
      have current := owned.current _ member rfl
      simp only [Backed, current, here, Option.some.injEq, exists_eq_left'] at backed
      obtain ⟨valid, yields⟩ := backed
      obtain ⟨validAfter, draws⟩ := b.allow_spec sound valid later
      have refilled : (b.lastRefill : ℚ) ≤ now := by
        exact_mod_cast valid.refilled.trans (valid.accessed.trans later)
      refine ⟨(b.allow now).2.level, drawn.append ?_, ?_⟩
      · rw [if_pos rfl]
        exact .cons (yields.draws draws refilled) (.nil _)
      · simp only [Backed, World.allow, allow_scheduler here, current]
        exact ⟨_, List.getElem?_set_self owns.1, validAfter, .refl validAfter.capped⟩
    · rw [if_neg isUser, List.append_nil]
      refine ⟨level, drawn, backed.keep sound later ?_ ?_⟩
      · simp only [World.allow, allow_scheduler here]
      · intro place other isBucket isOther
        have apart : pointer ≠ place := by
          rintro rfl
          exact isUser (owns.2.symm.trans (owned.known user pointer isBucket).2)
        simp only [World.allow, allow_scheduler here]
        rw [List.getElem?_set_ne apart, isOther]

/-! ### Collections -/

/-- A bucket that has been idle for two windows was full again. -/
theorem Bucket.Valid.idle {b : Bucket} (valid : b.Valid cfg w.clock) (sound : cfg.Sound)
    (later : w.clock ≤ now) (idle : int64 (cfg.window * 2) < Time.sub now b.lastAccess) :
    cfg.initial ≤ b.tokens + cfg.rate * (now - b.lastRefill) := by
  have before : b.lastAccess ≤ now := valid.accessed.trans later
  have passed : cfg.window * 2 ≤ now - b.lastRefill := by
    have unwrapped : int64 (cfg.window * 2) = cfg.window * 2 :=
      int64_of_nonneg (by have := sound.window; omega) sound.doubled
    have short := Time.sub_le before
    have refilled := valid.refilled
    omega
  have long : (cfg.window : ℚ) * 2 ≤ now - b.lastRefill := by exact_mod_cast passed
  have gained := mul_le_mul_of_nonneg_left long sound.rate_nonneg
  have budget := sound.capacity_nonneg
  rw [← mul_assoc, sound.rate_mul_window] at gained
  have above := valid.above
  have below := cfg.initial_le
  rcases le_total 0 cfg.initial with nonneg | negative
  · rw [min_eq_left nonneg] at above
    linarith
  · rw [min_eq_right negative] at above
    linarith

theorem Backed.gc (backed : Backed cfg user w level) (sound : cfg.Sound)
    (config : w.scheduler.cfg = cfg) (later : w.clock ≤ now) : Backed cfg user (w.gc now) level := by
  cases dropped : w.scheduler.drops user now with
  | false =>
    refine backed.keep sound later ?_ fun _ _ _ here => here
    simp [World.gc, Scheduler.gc, dropped]
  | true =>
    simp only [Scheduler.drops, Option.any_eq_true, decide_eq_true_eq] at dropped
    obtain ⟨b, isBucket, idle⟩ := dropped
    obtain ⟨pointer, found, here⟩ := Option.bind_eq_some_iff.mp isBucket
    simp only [Backed, found, here, Option.some.injEq, exists_eq_left'] at backed
    obtain ⟨valid, yields⟩ := backed
    have full := valid.idle sound later (config ▸ idle)
    have refilled : (b.lastRefill : ℚ) ≤ now := by
      exact_mod_cast valid.refilled.trans (valid.accessed.trans later)
    have gone : (w.gc now).scheduler.buckets user = none := by
      simp only [World.gc, Scheduler.gc, Scheduler.drops, isBucket, Option.any_some, idle,
        decide_true, if_true]
    simp only [Backed, gone]
    have left := yields.refills
    refine ⟨yields.advances.trans refilled, ?_⟩
    simp only [Bucket.level] at left
    have arrived : cfg.rate * ((now : ℚ) - level.last) = cfg.rate * (b.lastRefill - level.last) +
        cfg.rate * (now - b.lastRefill) := by ring
    show cfg.initial ≤ level.tokens + cfg.rate * ((now : ℚ) - level.last)
    linarith

theorem Tracked.step {action : Action} (tracked : Tracked cfg start user w) (sound : cfg.Sound)
    (undisturbed : Undisturbed user w action) (stepped : machine.step w action = some next) :
    Tracked cfg start user next := by
  obtain ⟨later, step⟩ := step_cases stepped
  obtain ⟨owner, owned⟩ := tracked.owned
  obtain ⟨level, drawn, backed⟩ := tracked.backed
  have past : ∀ call ∈ w.calls, call.instant ≤ action.now := fun call member =>
    (tracked.past call member).trans later
  rcases step with ⟨caller, -, rfl⟩ | ⟨index, caller, pointer, -, held, rfl⟩ | ⟨isGc, rfl⟩
  · refine ⟨?_, owned.lookup caller action.now, tracked.ordered, past, level, drawn,
      backed.lookup sound tracked.config owned caller later⟩
    simp only [World.lookup, Scheduler.lookup]
    split <;> exact tracked.config
  · exact tracked.allow sound later held
  · refine ⟨tracked.config, ⟨owner, ?_, owned.held, ?_⟩, tracked.ordered, past, level, drawn,
      backed.gc sound tracked.config later⟩
    · intro other pointer isBucket
      simp only [World.gc, Scheduler.gc] at isBucket
      split at isBucket
      · cases isBucket
      · exact owned.known other pointer isBucket
    · intro entry member same
      rw [isGc] at undisturbed
      have kept : w.scheduler.drops user action.now = false :=
        eq_false_of_ne_true fun dropped => undisturbed dropped entry member same
      simp only [World.gc, Scheduler.gc, kept, Bool.false_eq_true, if_false]
      exact owned.current entry member same

end

/-! ## Whole runs -/

theorem admissions_eq (w : World) (user : Bytes) (lo hi : ℚ) :
    w.admissions user lo hi = TokenBucket.admissions
      ((w.callsOf user).filter (fun call => decide (lo ≤ call.1 ∧ call.1 ≤ hi))) := by
  unfold World.admissions TokenBucket.admissions World.callsOf
  rw [List.countP_filter, List.countP_map, List.countP_filter]
  refine List.countP_congr fun call _ => ?_
  simp only [Call.drawn, Function.comp_apply, Bool.and_eq_true, decide_eq_true_eq]
  constructor
  · rintro ⟨same, admitted, within⟩
    exact ⟨⟨admitted, decide_eq_true within⟩, same⟩
  · rintro ⟨⟨admitted, within⟩, same⟩
    exact ⟨same, admitted, of_decide_eq_true within⟩

/-- As long as no collection drops a bucket of the user that a call has found and not drawn
on yet, the user is admitted at most as often as the budget says, in every span of time. -/
theorem user_rate_bounded {cfg : Config} (sound : cfg.Sound) {start : Int} {user : Bytes}
    {trace : List Action} {w : World} (ran : machine.run (.start cfg start) trace = some w)
    (undisturbed : machine.Meets (Undisturbed user) (.start cfg start) trace) {lo hi : ℚ}
    (span : lo ≤ hi) :
    (w.admissions user lo hi : ℚ) ≤ cfg.maxRequestsPerUser * (1 + (hi - lo) / cfg.window) := by
  have tracked : Tracked cfg start user w :=
    machine.run_invariant_of_meets (Tracked cfg start user)
      (fun _ _ _ meets stepped tracked => tracked.step sound meets stepped) undisturbed ran
      (tracked_start cfg start user)
  obtain ⟨level, drawn, _⟩ := tracked.backed
  have ordered : ((w.callsOf user).map Prod.fst).Pairwise (· ≤ ·) := by
    have instants := (tracked.ordered.sublist (List.filter_sublist.map Call.instant) :
      ((w.calls.filter (fun call => decide (call.user = user))).map Call.instant).Pairwise (· ≤ ·))
    rw [List.pairwise_map] at instants
    rw [World.callsOf, List.map_map, List.pairwise_map]
    exact instants.imp fun earlier => Int.cast_le.mpr earlier
  have bound := drawn.admissions_between_le cfg.initial_le sound.capacity_nonneg sound.rate_nonneg
    ordered span
  rw [admissions_eq]
  refine bound.trans_eq ?_
  rw [Config.rate, Config.capacity]
  ring

def minuteConfig : Config := ⟨1, 60000000000, 1⟩

theorem minuteConfig_sound : minuteConfig.Sound := ⟨by decide, by decide, by decide⟩

/-- After three idle minutes the bucket is collected, and the next call gets a new one. -/
def collectedIdle : List Action :=
  [.lookup [117] 0, .allow 0 0, .gc 180000000000, .lookup [117] 180000000000,
    .lookup [117] 180000000000, .allow 0 180000000000, .allow 0 180000000000]

theorem user_rate_bounded_collected :
    ∃ w, machine.run (.start minuteConfig 0) collectedIdle = some w ∧
      w.admissions [117] 0 180000000000 = 2 ∧
      (w.admissions [117] 0 180000000000 : ℚ) ≤ minuteConfig.maxRequestsPerUser *
        (1 + (180000000000 - 0) / minuteConfig.window) := by
  have facts : (machine.run (.start minuteConfig 0) collectedIdle).map
      (fun w => w.admissions [117] 0 180000000000) = some 2 := by
    decide +kernel
  have undisturbed : machine.Meets (Undisturbed [117]) (.start minuteConfig 0) collectedIdle := by
    decide +kernel
  obtain ⟨w, ran, count⟩ := Option.map_eq_some_iff.mp facts
  exact ⟨w, ran, count, user_rate_bounded minuteConfig_sound ran undisturbed (by norm_num)⟩

/-- The same collection, but a call has found the bucket before it and draws on it after. -/
def collectedInUse : List Action :=
  [.lookup [117] 0, .allow 0 0, .lookup [117] 180000000000, .gc 180000000000,
    .lookup [117] 180000000000, .allow 0 180000000000, .allow 0 180000000000]

theorem two_buckets_admit :
    ∃ w, machine.run (.start minuteConfig 0) collectedInUse = some w ∧
      ¬ (w.admissions [117] 180000000000 180000000000 : ℚ) ≤ minuteConfig.maxRequestsPerUser *
        (1 + (180000000000 - 180000000000) / minuteConfig.window) := by
  have facts : (machine.run (.start minuteConfig 0) collectedInUse).map
      (fun w => w.admissions [117] 180000000000 180000000000) = some 2 := by
    decide +kernel
  obtain ⟨w, ran, count⟩ := Option.map_eq_some_iff.mp facts
  refine ⟨w, ran, ?_⟩
  rw [count]
  norm_num [minuteConfig]

end ClusterRouter.FairShare
