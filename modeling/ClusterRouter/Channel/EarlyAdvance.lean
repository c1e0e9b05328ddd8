import ClusterRouter.Channel.RetirementEvents

/-! Advancing a route at `now` and again at `later` gives what advancing it at `later` alone
gives, except that a deadline that lapsed in between may still be recorded. -/

set_option autoImplicit false

namespace ClusterRouter.Channel

open Foundation

variable {Cursor : Type}

namespace KeyRecord

def withRetirement (k : KeyRecord) (deadline : Option Int) (reason : RetireReason) : KeyRecord :=
  { k with retiredUntil := deadline, retireReason := reason }

def liveAt (k : KeyRecord) (now : Int) : KeyRecord :=
  if k.retiredAt now then k else k.withRetirement none .unset

def uncounted (k : KeyRecord) : KeyRecord :=
  { k with
    requests := 0, tokens := 0, errors := 0
    estimated := false, drained := false, softRetired := false }

variable {k : KeyRecord} {now later : Int}

theorem liveAt_of_retired (inForce : k.retiredAt now = true) : k.liveAt now = k := if_pos inForce

theorem liveAt_of_lapsed (lapsed : k.retiredAt now = false) :
    k.liveAt now = k.withRetirement none .unset := by
  simp [liveAt, lapsed]

theorem liveAt_congr {α : Type} (read : KeyRecord → α)
    (blind : k.retiredAt now = false → read (k.withRetirement none .unset) = read k) :
    read (k.liveAt now) = read k := by
  cases inForce : k.retiredAt now with
  | true => rw [liveAt_of_retired inForce]
  | false => rw [liveAt_of_lapsed inForce, blind inForce]

theorem le_of_lapsed (lapsed : k.retiredAt now = false) {deadline : Int}
    (recorded : k.retiredUntil = some deadline) : deadline ≤ now := by
  simpa [retiredAt, Time.deadlineAfter, recorded] using lapsed

@[simp] theorem retiredAt_liveAt : (k.liveAt now).retiredAt now = k.retiredAt now :=
  liveAt_congr (fun k => k.retiredAt now) (fun lapsed => lapsed.symm)

theorem liveAt_liveAt (passed : now ≤ later) : (k.liveAt now).liveAt later = k.liveAt later := by
  cases inForce : k.retiredAt now with
  | true => rw [liveAt_of_retired inForce]
  | false =>
    rw [liveAt_of_lapsed (retiredAt_later passed inForce), liveAt_of_lapsed inForce]
    exact liveAt_of_lapsed rfl

def KeepsRetirement (change : KeyRecord → KeyRecord) : Prop :=
  ∀ k deadline reason,
    change (k.withRetirement deadline reason) = (change k).withRetirement deadline reason

theorem KeepsRetirement.retiredUntil {change : KeyRecord → KeyRecord}
    (keeps : KeepsRetirement change) (k : KeyRecord) :
    (change k).retiredUntil = k.retiredUntil := by
  have kept := keeps k k.retiredUntil k.retireReason
  have own : k.withRetirement k.retiredUntil k.retireReason = k := rfl
  rw [own] at kept
  rw [kept]
  rfl

theorem KeepsRetirement.liveAt {change : KeyRecord → KeyRecord} (keeps : KeepsRetirement change) :
    change (k.liveAt now) = (change k).liveAt now := by
  have same : (change k).retiredAt now = k.retiredAt now := by
    rw [retiredAt, keeps.retiredUntil, retiredAt]
  cases inForce : k.retiredAt now with
  | true => rw [liveAt_of_retired inForce, liveAt_of_retired (same.trans inForce)]
  | false => rw [liveAt_of_lapsed inForce, liveAt_of_lapsed (same.trans inForce), keeps]

theorem uncounted_keepsRetirement : KeepsRetirement uncounted := fun _ _ _ => rfl

theorem uncounted_liveAt : (k.liveAt now).uncounted = k.uncounted.liveAt now :=
  uncounted_keepsRetirement.liveAt

theorem uncounted_uncounted : k.uncounted.uncounted = k.uncounted := rfl

end KeyRecord

def RouteState.liveAt (rs : RouteState) (now : Int) : RouteState :=
  { rs with keys := rs.keys.map (fun k => k.liveAt now) }

namespace Store

section Key

variable {s : Store Cursor} {k : KeyRecord} {now later : Int}

theorem rollKey_eq : rollKey k now = (k.liveAt now).uncounted := by
  unfold rollKey KeyRecord.liveAt KeyRecord.retiredAt
  split
  · rfl
  · rfl

def stale (s : Store Cursor) (now : Int) (lease : Int) : Bool :=
  decide (0 < s.leaseTimeout ∧ lease ≤ now - s.leaseTimeout)

theorem reclaimStaleLocked_eq :
    s.reclaimStaleLocked k now =
      { k with
        leases := k.leases.dropWhile (s.stale now)
        orphaned := k.orphaned + (k.leases.takeWhile (s.stale now)).length
        reclaimed := k.reclaimed + (k.leases.takeWhile (s.stale now)).length } := by
  unfold reclaimStaleLocked
  split
  next off =>
    have fresh : k.leases.takeWhile (s.stale now) = [] ∧
        k.leases.dropWhile (s.stale now) = k.leases := by
      obtain disabled | empty := off
      · have never : s.stale now = fun _ => false := by
          funext lease
          simp only [stale, decide_eq_false_iff_not]
          omega
        rw [never]
        cases k.leases <;> exact ⟨rfl, rfl⟩
      · rw [List.length_eq_zero_iff.mp empty]
        exact ⟨rfl, rfl⟩
    simp [fresh.1, fresh.2]
  next on =>
    have timed : s.stale now = fun lease => decide (lease ≤ now - s.leaseTimeout) := by
      funext lease
      have positive : 0 < s.leaseTimeout := by omega
      simp [stale, positive]
    have dropped : k.leases.drop (k.leases.takeWhile (s.stale now)).length =
        k.leases.dropWhile (s.stale now) := by
      have parts := List.takeWhile_append_dropWhile (p := s.stale now) (l := k.leases)
      have behind : (k.leases.takeWhile (s.stale now) ++ k.leases.dropWhile (s.stale now)).drop
          (k.leases.takeWhile (s.stale now)).length = k.leases.dropWhile (s.stale now) :=
        List.drop_left
      rwa [parts] at behind
    dsimp only
    rw [← timed, dropped]
    split
    next zero =>
      have whole : k.leases.dropWhile (s.stale now) = k.leases := by
        rw [← dropped, zero]
        rfl
      rw [whole, zero]
      rfl
    next => rfl

private theorem stale_run (passed : now ≤ later) (leases : List Int) :
    (leases.dropWhile (s.stale now)).dropWhile (s.stale later) = leases.dropWhile (s.stale later) ∧
      (leases.takeWhile (s.stale now)).length +
        ((leases.dropWhile (s.stale now)).takeWhile (s.stale later)).length =
          (leases.takeWhile (s.stale later)).length := by
  induction leases with
  | nil => exact ⟨rfl, rfl⟩
  | cons lease rest ih =>
    cases old : s.stale now lease with
    | false => simp [old]
    | true =>
      have older : s.stale later lease = true := by
        simp only [stale, decide_eq_true_eq] at old ⊢
        omega
      simp only [List.dropWhile_cons_of_pos old, List.dropWhile_cons_of_pos older,
        List.takeWhile_cons_of_pos old, List.takeWhile_cons_of_pos older, List.length_cons]
      exact ⟨ih.1, by omega⟩

theorem reclaim_reclaim (passed : now ≤ later) :
    s.reclaimStaleLocked (s.reclaimStaleLocked k now) later = s.reclaimStaleLocked k later := by
  obtain ⟨left, taken⟩ := stale_run (s := s) passed k.leases
  simp only [reclaimStaleLocked_eq, left, Nat.add_assoc, taken]

theorem reclaim_keepsRetirement (s : Store Cursor) (now : Int) :
    KeyRecord.KeepsRetirement (fun k => s.reclaimStaleLocked k now) := by
  intro k deadline reason
  simp only [reclaimStaleLocked_eq]
  rfl

theorem reclaim_liveAt (instant : Int) :
    s.reclaimStaleLocked (k.liveAt instant) now = (s.reclaimStaleLocked k now).liveAt instant :=
  (s.reclaim_keepsRetirement now).liveAt

theorem reclaim_uncounted :
    s.reclaimStaleLocked k.uncounted now = (s.reclaimStaleLocked k now).uncounted := by
  simp only [reclaimStaleLocked_eq]
  rfl

theorem advanceKey_advanceKey (rolled again : Bool) :
    s.advanceKey again now (s.advanceKey rolled now k) = s.advanceKey (rolled || again) now k := by
  have same := Int.le_refl now
  cases rolled <;> cases again <;>
    simp only [advanceKey, rollKey_eq, reclaim_reclaim same, reclaim_liveAt, reclaim_uncounted,
      KeyRecord.uncounted_liveAt, KeyRecord.liveAt_liveAt same, KeyRecord.uncounted_uncounted,
      Bool.or_true, Bool.or_false, Bool.false_eq_true, if_true, if_false]

/-- At a later instant advancing once drops what had lapsed in between, and so
differs from advancing twice in that alone. -/
theorem advanceKey_later (passed : now ≤ later) (rolled again : Bool) :
    s.advanceKey (rolled || again) later k =
      if rolled && !again then (s.advanceKey again later (s.advanceKey rolled now k)).liveAt later
      else s.advanceKey again later (s.advanceKey rolled now k) := by
  cases rolled <;> cases again <;>
    simp only [advanceKey, rollKey_eq, reclaim_reclaim passed, reclaim_liveAt, reclaim_uncounted,
      KeyRecord.uncounted_liveAt, KeyRecord.liveAt_liveAt passed, KeyRecord.uncounted_uncounted,
      Bool.or_true, Bool.or_false, Bool.false_eq_true, Bool.and_true, Bool.and_false,
      Bool.not_true, Bool.not_false, if_true, if_false]

end Key

section Route

variable {s : Store Cursor} {rs : RouteState} {now later : Int}

theorem advanceLocked_windowStart :
    (s.advanceLocked rs now).windowStart = s.advanceStart rs now := by
  rw [advanceLocked_eq]

theorem advanceLocked_keys :
    (s.advanceLocked rs now).keys = rs.keys.map (s.advanceKey (s.expired rs now) now) := by
  rw [advanceLocked_eq]

theorem advanceLocked_eq_self (current : s.expired rs now = false)
    (young : ∀ k ∈ rs.keys, ∀ lease ∈ k.leases, s.stale now lease = false) :
    s.advanceLocked rs now = rs := by
  have same : ∀ k ∈ rs.keys, s.advanceKey false now k = k := by
    intro k member
    have fresh := young k member
    have kept : k.leases.takeWhile (s.stale now) = [] ∧
        k.leases.dropWhile (s.stale now) = k.leases := by
      cases leases : k.leases with
      | nil => exact ⟨rfl, rfl⟩
      | cons oldest rest =>
        have recent := fresh oldest (leases ▸ List.mem_cons_self)
        simp [recent]
    simp [advanceKey, reclaimStaleLocked_eq, kept.1, kept.2]
  rw [advanceLocked_eq, advanceStart, current]
  simp [List.map_congr_left same]

theorem expired_advanceLocked (passed : now ≤ later) :
    s.expired rs later = (s.expired rs now || s.expired (s.advanceLocked rs now) later) := by
  cases due : s.expired rs now with
  | true => rw [expired_later passed due, Bool.true_or]
  | false =>
    have kept : s.advanceStart rs now = rs.windowStart := by simp [advanceStart, due]
    simp only [expired, advanceLocked_windowStart, kept, Bool.false_or]

theorem advanceStart_eq (positive : 0 < s.budget.window) (ordered : rs.windowStart ≤ now)
    (representable : now - rs.windowStart ≤ Duration.maximum) :
    s.advanceStart rs now =
      rs.windowStart + (now - rs.windowStart) / s.budget.window * s.budget.window := by
  have elapsed := Time.sub_eq ordered representable
  unfold advanceStart
  split
  next => rw [elapsed, Int.tdiv_eq_ediv_of_nonneg (by omega)]
  next early =>
    simp only [expired, decide_eq_true_eq, elapsed] at early
    rw [Int.ediv_eq_zero_of_lt (by omega) (by omega)]
    simp

theorem advanceStart_of_nonpos (windowless : s.budget.window ≤ 0) :
    s.advanceStart rs now = rs.windowStart := by
  have off : ¬ 0 < s.budget.window := by omega
  simp [advanceStart, expired, off]

section

variable (ordered : rs.windowStart ≤ now)

include ordered

theorem le_advanceStart : rs.windowStart ≤ s.advanceStart rs now := by
  unfold advanceStart
  split
  next due =>
    simp only [expired, decide_eq_true_eq] at due
    have positive := Int.le_of_lt due.1
    have nonneg := Time.sub_nonneg ordered
    have windows := Int.mul_nonneg (Int.ediv_nonneg nonneg positive) positive
    rw [Int.tdiv_eq_ediv_of_nonneg nonneg]
    omega
  next => exact Int.le_refl _

theorem advanceStart_advanceLocked (passed : now ≤ later)
    (representable : later - rs.windowStart ≤ Duration.maximum) :
    s.advanceStart (s.advanceLocked rs now) later = s.advanceStart rs later := by
  by_cases positive : 0 < s.budget.window
  · have within := advanceStart_le (s := s) ordered
    have moved := le_advanceStart (s := s) ordered
    rw [advanceStart_eq positive (by rw [advanceLocked_windowStart]; omega)
        (by rw [advanceLocked_windowStart]; omega),
      advanceStart_eq positive (by omega) representable, advanceLocked_windowStart,
      advanceStart_eq positive ordered (by omega)]
    generalize (now - rs.windowStart) / s.budget.window = windows
    have further : (later - (rs.windowStart + windows * s.budget.window)) / s.budget.window =
        (later - rs.windowStart) / s.budget.window - windows := by
      rw [← Int.sub_sub, Int.sub_mul_ediv_right _ _ (Int.ne_of_gt positive)]
    rw [further, Int.sub_mul]
    omega
  · have windowless : s.budget.window ≤ 0 := by omega
    simp only [advanceStart_of_nonpos windowless, advanceLocked_windowStart]

theorem advanceLocked_advanceLocked (representable : now - rs.windowStart ≤ Duration.maximum) :
    s.advanceLocked (s.advanceLocked rs now) now = s.advanceLocked rs now := by
  have start := advanceStart_advanceLocked (s := s) ordered (Int.le_refl now) representable
  have due : s.expired rs now = (s.expired rs now || s.expired (s.advanceLocked rs now) now) :=
    expired_advanceLocked (Int.le_refl now)
  have keys : (s.advanceLocked rs now).keys.map
      (s.advanceKey (s.expired (s.advanceLocked rs now) now) now) =
        rs.keys.map (s.advanceKey (s.expired rs now) now) := by
    conv_rhs => rw [due]
    conv_lhs => rw [advanceLocked_keys, List.map_map]
    exact List.map_congr_left (fun k _ => advanceKey_advanceKey _ _)
  rw [advanceLocked_eq s (s.advanceLocked rs now), start, keys, advanceLocked_eq s rs]

/-- A route advanced at `later` alone, against one advanced at `now` as well: they
are equal, or what had lapsed is dropped from the first. -/
theorem advanceLocked_later (passed : now ≤ later)
    (representable : later - rs.windowStart ≤ Duration.maximum) :
    s.advanceLocked rs later = s.advanceLocked (s.advanceLocked rs now) later ∨
      s.advanceLocked rs later = (s.advanceLocked (s.advanceLocked rs now) later).liveAt later := by
  have start := advanceStart_advanceLocked (s := s) ordered passed representable
  have due : s.expired rs later = (s.expired rs now || s.expired (s.advanceLocked rs now) later) :=
    expired_advanceLocked passed
  have each (k : KeyRecord) := advanceKey_later (s := s) (k := k) passed (s.expired rs now)
    (s.expired (s.advanceLocked rs now) later)
  rw [← due] at each
  cases shed : s.expired rs now && !s.expired (s.advanceLocked rs now) later with
  | false =>
    left
    rw [advanceLocked_eq s rs later, advanceLocked_eq s (s.advanceLocked rs now), start,
      advanceLocked_keys, List.map_map]
    congr 1
    apply List.map_congr_left
    intro k _
    simpa [shed] using each k
  | true =>
    right
    rw [advanceLocked_eq s rs later, advanceLocked_eq s (s.advanceLocked rs now), start,
      advanceLocked_keys, List.map_map]
    simp only [RouteState.liveAt, List.map_map]
    congr 1
    apply List.map_congr_left
    intro k _
    simpa [shed] using each k

end

end Route

end Store

end ClusterRouter.Channel
