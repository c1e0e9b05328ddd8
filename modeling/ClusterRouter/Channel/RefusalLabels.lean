import ClusterRouter.Channel.TimedStore

/-! A refused reservation says whether any key was selectable. In exact arithmetic a key that is
not drained is below every hard cap, so only leases in flight keep a selectable key from
admission. -/

set_option autoImplicit false

namespace ClusterRouter.Channel

open Foundation

variable {Cursor : Type}

theorem forall_eq_false_iff {Item : Type} {items : List Item} {test : Item → Bool} :
    (∀ item ∈ items, test item = false) ↔ ¬ ∃ item ∈ items, test item = true := by
  simp only [not_exists, not_and, Bool.not_eq_true]

namespace Store

/-- The keys of a route as a call at `now` finds them; none where the route is unknown. -/
def poolAt (s : Store Cursor) (state : StoreState Cursor) (route : String) (now : Int) :
    List KeyRecord :=
  match state.routes route with
  | none => []
  | some rs => (s.advanceLocked rs now).keys

/-- A hard cap is reached once the leases in flight are counted, each at the estimate. -/
def AtHardCap (s : Store Cursor) (k : KeyRecord) : Prop :=
  0 < s.budget.window ∧
    ((0 < s.budget.requests ∧ s.budget.requests ≤ (k.requests + k.inFlight : Int)) ∨
      (0 < s.budget.tokens ∧ s.budget.tokens ≤ k.tokens + k.inFlight * s.budget.estimateTokens))

instance (s : Store Cursor) (k : KeyRecord) : Decidable (s.AtHardCap k) :=
  inferInstanceAs (Decidable (_ ∧ _))

/-! ## The answer of a reservation -/

variable {s : Store Cursor} {k : KeyRecord} {now : Int} {state : StoreState Cursor} {route : String}
    {index : Nat}

theorem selectableAt_of_admissible (admissible : s.admissibleLocked k now = true) :
    selectableAt k now = true := by
  by_contra out
  simp [admissibleLocked, out] at admissible

theorem candidates_eq_nil_iff {rs : RouteState} :
    s.candidates rs now = [] ↔ ∀ k ∈ rs.keys, s.admissibleLocked k now = false := by
  unfold candidates
  rw [List.filterMap_eq_nil_iff]
  constructor
  · intro unfit k member
    obtain ⟨index, found⟩ := List.getElem?_of_mem member
    have skipped := unfit (k, index) (List.mk_mem_zipIdx_iff_getElem?.mpr found)
    by_contra admissible
    have admissible : s.admissibleLocked k now = true := by simpa using admissible
    simp [selectableAt_of_admissible admissible, admissible] at skipped
  · intro unfit entry member
    have present := List.mem_of_getElem? (List.mk_mem_zipIdx_iff_getElem?.mp member)
    simp [unfit entry.1 present]

theorem reserve_answer (s : Store Cursor) (state : StoreState Cursor) (route : String) (now : Int) :
    ((∃ k ∈ s.poolAt state route now, s.admissibleLocked k now = true) ∧
        ∃ index, (s.reserve state route now).2 = (some index, .none)) ∨
      ((∀ k ∈ s.poolAt state route now, s.admissibleLocked k now = false) ∧
        (∃ k ∈ s.poolAt state route now, selectableAt k now = true) ∧
        (s.reserve state route now).2 = (none, .admission)) ∨
      ((∀ k ∈ s.poolAt state route now, selectableAt k now = false) ∧
        (s.reserve state route now).2 = (none, .drained)) := by
  unfold reserve poolAt
  cases known : state.routes route with
  | none => exact .inr (.inr ⟨by simp, rfl⟩)
  | some rs =>
    dsimp only
    cases offered : s.candidates (s.advanceLocked rs now) now with
    | nil =>
      right
      have refused := candidates_eq_nil_iff.mp offered
      dsimp only
      split
      next usable =>
        obtain ⟨k, member, selectable⟩ := List.any_eq_true.mp usable
        exact .inl ⟨refused, ⟨k, member, selectable⟩, rfl⟩
      next drained =>
        rw [List.any_eq_true] at drained
        exact .inr ⟨forall_eq_false_iff.mpr drained, rfl⟩
    | cons first rest =>
      left
      obtain ⟨k, found, admissible, _⟩ :=
        candidates_mem (offered ▸ List.mem_cons_self : first ∈ s.candidates _ now)
      exact ⟨⟨k, List.mem_of_getElem? found, admissible⟩, _, rfl⟩

section Answers

variable {s : Store Cursor} {state : StoreState Cursor} {route : String} {now : Int}

theorem reserve_granted_iff :
    (∃ index, (s.reserve state route now).2 = (some index, .none)) ↔
      ∃ k ∈ s.poolAt state route now, s.admissibleLocked k now = true := by
  rcases s.reserve_answer state route now with
    ⟨found, granted⟩ | ⟨refused, _, answer⟩ | ⟨drained, answer⟩
  · exact iff_of_true granted found
  · exact iff_of_false (by simp [answer]) (forall_eq_false_iff.mp refused)
  · refine iff_of_false (by simp [answer]) ?_
    rintro ⟨k, member, admissible⟩
    exact forall_eq_false_iff.mp drained ⟨k, member, selectableAt_of_admissible admissible⟩

theorem reserve_drained_iff :
    (s.reserve state route now).2 = (none, .drained) ↔
      ∀ k ∈ s.poolAt state route now, selectableAt k now = false := by
  rcases s.reserve_answer state route now with
    ⟨⟨k, member, admissible⟩, index, answer⟩ | ⟨_, ⟨k, member, selectable⟩, answer⟩ | ⟨drained, answer⟩
  · refine iff_of_false (by simp [answer]) fun drained => ?_
    exact forall_eq_false_iff.mp drained ⟨k, member, selectableAt_of_admissible admissible⟩
  · refine iff_of_false (by simp [answer]) fun drained => ?_
    exact forall_eq_false_iff.mp drained ⟨k, member, selectable⟩
  · exact iff_of_true answer drained

theorem reserve_admission_iff :
    (s.reserve state route now).2 = (none, .admission) ↔
      (∃ k ∈ s.poolAt state route now, selectableAt k now = true) ∧
        ∀ k ∈ s.poolAt state route now, s.admissibleLocked k now = false := by
  rcases s.reserve_answer state route now with
    ⟨⟨k, member, admissible⟩, index, answer⟩ | ⟨refused, usable, answer⟩ | ⟨drained, answer⟩
  · refine iff_of_false (by simp [answer]) fun ⟨_, refused⟩ => ?_
    exact forall_eq_false_iff.mp refused ⟨k, member, admissible⟩
  · exact iff_of_true answer ⟨usable, refused⟩
  · exact iff_of_false (by simp [answer]) fun ⟨usable, _⟩ => forall_eq_false_iff.mp drained usable

end Answers

/-! ## Counters below the hard caps -/

section Exact

variable {s : Store Cursor} {k : KeyRecord} {now : Int}

theorem admissibleLocked_exact (exactly : s.arithmetic = .exact) :
    s.admissibleLocked k now = true ↔ selectableAt k now = true ∧ ¬ s.AtHardCap k := by
  unfold admissibleLocked AtHardCap
  simp only [exactly, Arithmetic.norm]
  cases selectableAt k now with
  | false => simp
  | true =>
    simp only [Bool.not_true, Bool.false_eq_true, if_false, true_and]
    split
    next closed => simp [Int.not_lt.mpr closed]
    next opened =>
      have opened : 0 < s.budget.window := by omega
      split
      next spent => simp [opened, spent]
      next left =>
        split
        next spent => simp [opened, spent]
        next kept => simp only [opened, left, kept, or_self, and_false, not_false_eq_true]

/-- The counters of a key that is not drained are below every hard cap. -/
def BelowCaps (s : Store Cursor) (k : KeyRecord) : Prop :=
  0 < s.budget.window → k.drained = false →
    (0 < s.budget.requests → (k.requests : Int) < s.budget.requests) ∧
      (0 < s.budget.tokens → k.tokens < s.budget.tokens)

theorem BelowCaps.fresh (s : Store Cursor) : s.BelowCaps {} :=
  fun _ _ => ⟨fun capped => capped, fun capped => capped⟩

theorem BelowCaps.advanceKey (below : s.BelowCaps k) (rolled : Bool) :
    s.BelowCaps (s.advanceKey rolled now k) := by
  obtain ⟨n, _, _, reclaimed⟩ := s.reclaimStaleLocked_spec k now
  unfold Store.advanceKey
  rw [reclaimed]
  cases rolled with
  | false => exact below
  | true =>
    obtain ⟨_, _, rolls⟩ := rollKey_spec
      { k with
        leases := k.leases.drop n
        orphaned := k.orphaned + n
        reclaimed := k.reclaimed + n } now
    simp only [if_true, rolls]
    exact fun _ _ => ⟨fun capped => capped, fun capped => capped⟩

theorem atRatio_one (exactly : s.arithmetic = .exact) (used limit : Int) :
    s.atRatio used limit (.finite 1) = true ↔ 0 < limit ∧ limit ≤ used := by
  simp only [atRatio, exactly, one_mul, Bool.and_eq_true, decide_eq_true_eq, Int.cast_le]

theorem applyCapsLocked_below (exactly : s.arithmetic = .exact) (k : KeyRecord) :
    s.BelowCaps (s.applyCapsLocked k).1 := by
  intro opened inRotation
  obtain ⟨drained, softRetired, capped⟩ := s.applyCapsLocked_spec k
  rw [capped] at inRotation ⊢
  have same : (s.applyCapsLocked k).1.drained = false := by rw [capped]; exact inRotation
  have below : ¬ (s.atRatio k.requests s.budget.requests (.finite 1) = true ∨
      s.atRatio k.tokens s.budget.tokens (.finite 1) = true) ∨
      (s.budget.requests ≤ 0 ∧ s.budget.tokens ≤ 0) := by
    by_contra reached
    obtain ⟨hard, limited⟩ := not_or.mp reached
    have hard := Bool.or_eq_true _ _ |>.mpr (not_not.mp hard)
    have tripped : ¬ (s.budget.window ≤ 0 ∨ (s.budget.requests ≤ 0 ∧ s.budget.tokens ≤ 0)) := by
      omega
    simp only [applyCapsLocked, if_neg tripped, hard, if_true] at same
    split at same <;> cases same
  rcases below with below | ⟨noRequests, noTokens⟩
  · rw [atRatio_one exactly, atRatio_one exactly] at below
    dsimp only
    exact ⟨fun limited => by omega, fun limited => by omega⟩
  · exact ⟨fun limited => by omega, fun limited => by omega⟩

theorem BelowCaps.keyChange (exactly : s.arithmetic = .exact) {changed : KeyRecord}
    (change : KeyChange s now k changed) (below : s.BelowCaps k) : s.BelowCaps changed := by
  cases change with
  | untouched | leased => exact below
  | settled sample =>
    unfold settleLocked
    cases outcome : sample.outcome with
    | failed =>
      unfold releaseLocked
      dsimp only
      split
      · exact below
      · exact below
    | completed => exact applyCapsLocked_below exactly _
  | retired deadline reason =>
    obtain ⟨_, _, retired⟩ := retireLocked_spec k now deadline reason
    rw [retired]
    exact below

theorem BelowCaps.inFlight_pos (below : s.BelowCaps k) (selectable : selectableAt k now = true)
    (capped : s.AtHardCap k) :
    0 < k.inFlight := by
  obtain ⟨opened, reached⟩ := capped
  have inRotation : k.drained = false := by
    simp only [selectableAt, Bool.and_eq_true, Bool.not_eq_true'] at selectable
    exact selectable.1.1
  obtain ⟨requests, tokens⟩ := below opened inRotation
  by_contra idle
  have idle : k.inFlight = 0 := by omega
  rw [idle] at reached
  rcases reached with ⟨limited, spent⟩ | ⟨limited, spent⟩
  · have := requests limited
    omega
  · have := tokens limited
    simp at spent
    omega

end Exact

/-! ## What clears a refusal -/

structure Clearing (s : Store Cursor) (now : Int) (left : Nat) (k : KeyRecord) : Prop where
  below : s.BelowCaps k
  uncapped : k.capped = false
  free : k.retiredAt now = false
  slots : k.inFlight + k.orphaned ≤ left

namespace Clearing

variable {s : Store Cursor} {now : Int} {left : Nat} {k : KeyRecord}

theorem of_selectable (below : s.BelowCaps k) (selectable : selectableAt k now = true) :
    s.Clearing now (k.inFlight + k.orphaned) k := by
  rw [selectableAt_eq, Bool.and_eq_true, Bool.not_eq_true', Bool.not_eq_true'] at selectable
  exact ⟨below, selectable.1, selectable.2, Nat.le_refl _⟩

theorem advanceKey (clearing : s.Clearing now left k) (rolled : Bool) :
    s.Clearing now left (s.advanceKey rolled now k) := by
  obtain ⟨n, available, _, leases, orphaned, _⟩ := s.advanceKey_slots rolled now k
  refine ⟨clearing.below.advanceKey rolled, ?_, ?_, ?_⟩
  · rw [advanceKey_capped, clearing.uncapped, Bool.and_false]
  · rw [advanceKey_retiredAt]
    exact clearing.free
  · have slots := clearing.slots
    unfold KeyRecord.inFlight at *
    rw [leases, orphaned, List.length_drop]
    omega

theorem settle (exactly : s.arithmetic = .exact) (clearing : s.Clearing now (left + 1) k)
    {sample : UsageSample} (failed : sample.outcome = .failed) :
    s.Clearing now left (s.settleLocked k sample).1 := by
  have settled := s.settleLocked_spec k sample
  obtain ⟨capped, -⟩ := s.settleLocked_capped k sample
  refine ⟨BelowCaps.keyChange exactly (.settled sample : KeyChange s now k _) clearing.below, ?_, ?_, ?_⟩
  · rw [capped, clearing.uncapped]
    simp [failed]
  · rw [KeyRecord.retiredAt, settled.retiredUntil]
    exact clearing.free
  · have slots := clearing.slots
    have given : (releaseLocked k).inFlight + (releaseLocked k).orphaned ≤ left := by
      by_cases outstanding : 0 < k.inFlight + k.orphaned
      · have := releaseLocked_slots k outstanding
        omega
      · have fewer := releaseLocked_orphaned_le k
        have emptied : (releaseLocked k).inFlight = 0 := by
          have idle : ¬ 0 < k.orphaned := by omega
          have empty : k.leases.length = 0 := by
            unfold KeyRecord.inFlight at outstanding
            omega
          rw [releaseLocked, if_neg idle]
          simp [KeyRecord.inFlight, empty]
        omega
    unfold KeyRecord.inFlight at *
    rwa [settled.leases, settled.orphaned]

theorem admissible (exactly : s.arithmetic = .exact) (clearing : s.Clearing now left k)
    (idle : k.inFlight = 0) : s.admissibleLocked k now = true := by
  have selectable : selectableAt k now = true := by
    rw [selectableAt_eq, clearing.uncapped, clearing.free]
    rfl
  refine (admissibleLocked_exact exactly).mpr ⟨selectable, fun capped => ?_⟩
  have busy := clearing.below.inFlight_pos selectable capped
  omega

end Clearing

theorem mem_poolAt_iff :
    k ∈ s.poolAt state route now ↔ ∃ index, s.foundKey state route index now = some k := by
  unfold poolAt foundKey
  cases known : state.routes route with
  | none => simp
  | some rs => exact List.mem_iff_getElem?

theorem foundKey_of_keyAt (found : state.keyAt route index = some k) (now : Int) :
    ∃ rolled, s.foundKey state route index now = some (s.advanceKey rolled now k) := by
  obtain ⟨rs, known, present⟩ := StoreState.keyAt_eq_some.mp found
  exact ⟨s.expired rs now, foundKey_eq known present⟩

theorem keyAt_of_foundKey (found : s.foundKey state route index now = some k) :
    ∃ before rolled, state.keyAt route index = some before ∧ k = s.advanceKey rolled now before := by
  obtain ⟨rs, before, known, present, rfl⟩ := foundKey_eq_some found
  exact ⟨before, _, StoreState.keyAt_eq_some.mpr ⟨rs, known, present⟩, rfl⟩

theorem keyAt_of_refused (refused : (s.reserve state route now).2.1 = none) (index : Nat) :
    (s.reserve state route now).1.keyAt route index = s.foundKey state route index now := by
  rcases s.reserve_cases state route now with
    ⟨unknown, same, _⟩ | ⟨rs, known, ⟨same, _⟩ | ⟨granted, _, _, answer, _⟩⟩
  · rw [same, StoreState.keyAt, foundKey, unknown]
    rfl
  · rw [same, StoreState.keyAt, foundKey, known]
    simp
  · rw [answer] at refused
    cases refused

theorem granted_of_settlements (exactly : s.arithmetic = .exact) {left : Nat}
    (found : state.keyAt route index = some k) (clearing : s.Clearing now left k) :
    ∃ after, (TimedStore.machine s).run ⟨state, now⟩
        (List.replicate left ⟨now, .recordSample route index ⟨.failed, 0, false⟩⟩) = some after ∧
      ∃ granted, (s.reserve after.store route now).2 = (some granted, .none) := by
  induction left generalizing state k with
  | zero =>
    refine ⟨⟨state, now⟩, rfl, reserve_granted_iff.mpr ?_⟩
    obtain ⟨rolled, isFound⟩ := foundKey_of_keyAt (s := s) found now
    have advanced := clearing.advanceKey rolled
    have slots := advanced.slots
    exact ⟨_, mem_poolAt_iff.mpr ⟨index, isFound⟩, advanced.admissible exactly (by omega)⟩
  | succ left ih =>
    obtain ⟨rolled, isFound⟩ := foundKey_of_keyAt (s := s) found now
    obtain ⟨rs, known, -⟩ := StoreState.keyAt_eq_some.mp found
    obtain ⟨settled, -⟩ := call_of_foundKey known isFound
      (.recordSample route index ⟨.failed, 0, false⟩)
      (fun _ k => s.settleLocked k (normalise ⟨.failed, 0, false⟩)) rfl
    obtain ⟨after, ran, granted⟩ :=
      ih settled ((clearing.advanceKey rolled).settle exactly (by simp))
    refine ⟨after, ?_, granted⟩
    rw [List.replicate_succ]
    exact (TimedStore.machine s).run_cons_eq_some.mpr
      ⟨_, TimedStore.step_eq_some.mpr ⟨Int.le_refl _, rfl⟩, ran⟩

theorem advanceKey_inFlight_of_stale (timed : 0 < s.leaseTimeout)
    (taken : ∀ lease ∈ k.leases, lease ≤ now) (rolled : Bool) :
    (s.advanceKey rolled (now + s.leaseTimeout) k).inFlight = 0 := by
  have all : k.leases.dropWhile (s.stale (now + s.leaseTimeout)) = [] := by
    rw [List.dropWhile_eq_nil_iff]
    intro lease member
    have early := taken lease member
    simp only [stale, decide_eq_true_eq]
    omega
  unfold advanceKey KeyRecord.inFlight
  rw [reclaimStaleLocked_eq, all]
  cases rolled with
  | false => rfl
  | true =>
    simp only [if_true, rollKey_eq]
    exact congrArg List.length (KeyRecord.liveAt_congr KeyRecord.leases (fun _ => rfl))

theorem granted_of_timeout (exactly : s.arithmetic = .exact) (timed : 0 < s.leaseTimeout)
    {left : Nat} (found : state.keyAt route index = some k) (clearing : s.Clearing now left k)
    (taken : ∀ lease ∈ k.leases, lease ≤ now) :
    ∃ granted, (s.reserve state route (now + s.leaseTimeout)).2 = (some granted, .none) := by
  obtain ⟨rolled, offered⟩ := foundKey_of_keyAt (s := s) found (now + s.leaseTimeout)
  have later : s.Clearing (now + s.leaseTimeout) left k :=
    ⟨clearing.below, clearing.uncapped,
      KeyRecord.retiredAt_later (by omega) clearing.free, clearing.slots⟩
  refine reserve_granted_iff.mpr ⟨_, mem_poolAt_iff.mpr ⟨index, offered⟩, ?_⟩
  exact (later.advanceKey rolled).admissible exactly (advanceKey_inFlight_of_stale timed taken rolled)

end Store

/-! ## Reachable states -/

namespace TimedStore

variable {s : Store Cursor} {keys : String → Option Int} {cursor : Cursor} {began : Int}
  {trace : List TimedCall} {final : TimedStore Cursor}

theorem run_belowCaps (exactly : s.arithmetic = .exact)
    (ran : (machine s).run (start keys cursor began) trace = some final) {route : String}
    {index : Nat} {k : KeyRecord} (found : final.store.keyAt route index = some k) :
    s.BelowCaps k :=
  run_keyAt (fun _ k => s.BelowCaps k) (.fresh s) (fun _ below => below)
    (fun rolled below => below.advanceKey rolled)
    (fun change below => Store.BelowCaps.keyChange exactly change below) ran found

theorem run_leases (ran : (machine s).run (start keys cursor began) trace = some final)
    {route : String} {index : Nat} {k : KeyRecord}
    (found : final.store.keyAt route index = some k) :
    ∀ lease ∈ k.leases, lease ≤ final.clock := by
  refine run_keyAt (fun clock k => ∀ lease ∈ k.leases, lease ≤ clock) (by simp)
    (fun ordered taken lease member => Int.le_trans (taken lease member) ordered) ?_ ?_ ran found
  · intro now k rolled taken lease member
    obtain ⟨n, _, _, leases, _, _⟩ := s.advanceKey_slots rolled now k
    rw [leases] at member
    exact taken lease (List.mem_of_mem_drop member)
  · intro now k changed change taken lease member
    cases change with
    | untouched => exact taken lease member
    | leased admissible =>
      exact forall_mem_concat taken (Int.le_refl _) lease member
    | settled sample =>
      rw [(s.settleLocked_spec k sample).leases, releaseLocked] at member
      split at member
      · exact taken lease member
      · exact taken lease (List.mem_of_mem_drop member)
    | retired deadline reason =>
      obtain ⟨_, _, retired⟩ := Store.retireLocked_spec k now deadline reason
      rw [retired] at member
      exact taken lease member

end TimedStore

theorem newStore_leaseTimeout_pos (policy : RotationPolicy Cursor) (budget : Budget)
    (maxRetryAfter leaseTimeout : Int) (arithmetic : Arithmetic) :
    0 < (newStore policy budget maxRetryAfter leaseTimeout arithmetic).leaseTimeout := by
  simp only [newStore]
  split
  · decide
  · omega

/-- A reservation is granted exactly if some key is admissible, refused as drained
exactly if there is no selectable key, and refused for admission exactly if there is one
and each of them has a lease in flight and is at a hard cap that counts it. Such a refusal
clears: once the outstanding reservations of any one selectable key have failed, and also
once the lease timeout has passed. -/
theorem refusals_labelled (policy : RotationPolicy Cursor) (budget : Budget)
    (maxRetryAfter leaseTimeout : Int) (keys : String → Option Int) (cursor : Cursor) (began : Int)
    (trace : List TimedCall) (final : TimedStore Cursor)
    (ran : (TimedStore.machine (newStore policy budget maxRetryAfter leaseTimeout .exact)).run
      (.start keys cursor began) trace = some final)
    (route : String) (now : Int) (ordered : final.clock ≤ now) :
    let s := newStore policy budget maxRetryAfter leaseTimeout .exact
    let pool := s.poolAt final.store route now
    let after := (s.reserve final.store route now).1
    let answer := (s.reserve final.store route now).2
    ((∃ index, answer = (some index, .none)) ↔ ∃ k ∈ pool, s.admissibleLocked k now = true) ∧
      (answer = (none, .drained) ↔
        final.store.routes route = none ∨ ∀ k ∈ pool, selectableAt k now = false) ∧
      (answer = (none, .admission) ↔
        (∃ k ∈ pool, selectableAt k now = true) ∧
          ∀ k ∈ pool, selectableAt k now = true → 0 < k.inFlight ∧ s.AtHardCap k) ∧
      (answer = (none, .admission) →
        (∀ index k, s.foundKey final.store route index now = some k → selectableAt k now = true →
          ∃ cleared, (TimedStore.machine s).run ⟨after, now⟩
              (List.replicate (k.inFlight + k.orphaned)
                ⟨now, .recordSample route index ⟨.failed, 0, false⟩⟩) = some cleared ∧
            ∃ granted, (s.reserve cleared.store route now).2 = (some granted, .none)) ∧
        ∃ granted, (s.reserve after route (now + s.leaseTimeout)).2 = (some granted, .none)) := by
  intro s pool after answer
  have below : ∀ k ∈ pool, s.BelowCaps k := by
    intro k member
    obtain ⟨index, found⟩ := Store.mem_poolAt_iff.mp member
    obtain ⟨before, rolled, present, rfl⟩ := Store.keyAt_of_foundKey found
    exact (TimedStore.run_belowCaps rfl ran present).advanceKey rolled
  refine ⟨Store.reserve_granted_iff, ?_, ?_, ?_⟩
  · refine Store.reserve_drained_iff.trans ⟨.inr, ?_⟩
    rintro (unknown | drained)
    · simp [Store.poolAt, unknown]
    · exact drained
  · refine Store.reserve_admission_iff.trans (and_congr_right fun _ => ?_)
    refine forall₂_congr fun k member => ?_
    rw [← Bool.not_eq_true, Store.admissibleLocked_exact rfl, not_and, not_not]
    refine forall_congr' fun selectable => ⟨fun capped => ⟨?_, capped⟩, And.right⟩
    exact (below k member).inFlight_pos selectable capped
  · intro refused
    have kept : ∀ index, after.keyAt route index = s.foundKey final.store route index now :=
      Store.keyAt_of_refused (congrArg Prod.fst refused)
    constructor
    · intro index k found selectable
      exact Store.granted_of_settlements rfl ((kept index).trans found)
        (.of_selectable (below k (Store.mem_poolAt_iff.mpr ⟨index, found⟩)) selectable)
    · obtain ⟨⟨k, member, selectable⟩, -⟩ := Store.reserve_admission_iff.mp refused
      obtain ⟨index, found⟩ := Store.mem_poolAt_iff.mp member
      have taken : ∀ lease ∈ k.leases, lease ≤ now := by
        intro lease held
        obtain ⟨before, rolled, present, rfl⟩ := Store.keyAt_of_foundKey found
        obtain ⟨n, _, _, leases, _, _⟩ := s.advanceKey_slots rolled now before
        rw [leases] at held
        exact Int.le_trans (TimedStore.run_leases ran present lease (List.mem_of_mem_drop held)) ordered
      exact Store.granted_of_timeout rfl (newStore_leaseTimeout_pos _ _ _ _ _)
        ((kept index).trans found) (.of_selectable (below k member) selectable) taken

def singleRequestBudget : Budget where
  window := Duration.hour
  tokens := 0
  requests := 1
  softRatio := .finite 0
  estimateTokens := 0

def firstKey : RotationPolicy Unit := fun cursor _ => (0, cursor)

def busyRun : Option (TimedStore Unit) :=
  (TimedStore.machine (newStore firstKey singleRequestBudget 0 0 .exact)).run
    (.start (fun route => if route = "chat" then some 1 else none) () 0) [⟨1, .reserve "chat"⟩]

theorem refusals_labelled_busy :
    ∃ final, busyRun = some final ∧ final.clock ≤ 2 ∧
      let s := newStore firstKey singleRequestBudget 0 0 .exact
      (s.reserve final.store "chat" 2).2 = (none, .admission) ∧
        ∃ granted, (s.reserve (s.reserve final.store "chat" 2).1 "chat" (2 + s.leaseTimeout)).2 =
          (some granted, .none) := by
  have ran : busyRun = some _ := rfl
  have labels := refusals_labelled firstKey singleRequestBudget 0 0 _ () 0
    [⟨1, .reserve "chat"⟩] _ ran "chat" 2 (by decide)
  refine ⟨_, ran, by decide, by decide +kernel, ?_⟩
  exact (labels.2.2.2 (by decide +kernel)).2

end ClusterRouter.Channel
