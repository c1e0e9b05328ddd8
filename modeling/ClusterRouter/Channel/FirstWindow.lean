import ClusterRouter.Channel.RequestCap

/-! The completed requests a session sent before a given instant, with those it sent by then and
has not settled: bounded by the ledger in the first window, and falling afterwards. -/

set_option autoImplicit false

namespace ClusterRouter.Channel

open Foundation

variable {Cursor : Type}

namespace LeaseSession

def completedBefore (session : LeaseSession Cursor) (route : String) (index : Nat) (cut : Int) :
    Nat :=
  session.settlements.countP (fun entry =>
    entry.reservation.isOn route index && decide (entry.outcome = .completed) &&
      decide (entry.reservation.takenAt < cut))

def pendingBefore (session : LeaseSession Cursor) (route : String) (index : Nat) (cut : Int) :
    Nat :=
  session.unsettled.countP (fun reservation =>
    reservation.isOn route index && decide (reservation.takenAt < cut))

def sentBefore (session : LeaseSession Cursor) (route : String) (index : Nat) (cut : Int) : Nat :=
  session.completedBefore route index cut + session.pendingBefore route index cut

variable (session : LeaseSession Cursor) (route : String) (index : Nat) (s : Store Cursor)
  {now cut : Int}

theorem sentBefore_perform (c : Store.Call) (late : cut ≤ now) :
    (session.perform s now c).sentBefore route index cut = session.sentBefore route index cut := by
  have notBefore : ¬ now < cut := by omega
  unfold sentBefore pendingBefore perform
  rw [List.countP_append]
  cases (s.call session.store now c).2.reservation with
  | none => simp [completedBefore]
  | some i => simp [completedBefore, notBefore]

theorem sentBefore_settle_le {reservation : Reservation} (sample : UsageSample)
    (held : reservation ∈ session.unsettled) :
    (session.settle s now reservation sample).sentBefore route index cut ≤
      session.sentBefore route index cut := by
  have pending := (List.perm_cons_erase held).countP_eq
    (fun r => r.isOn route index && decide (r.takenAt < cut))
  rw [List.countP_cons] at pending
  have completed : (session.settle s now reservation sample).completedBefore route index cut ≤
      session.completedBefore route index cut +
        if (reservation.isOn route index && decide (reservation.takenAt < cut)) = true then 1
        else 0 := by
    unfold completedBefore settle
    rw [List.countP_append, List.countP_singleton]
    refine Nat.add_le_add_left ?_ _
    by_cases counted : (reservation.isOn route index && decide (reservation.takenAt < cut)) = true
    · rw [if_pos counted]
      split <;> omega
    · rw [if_neg counted]
      simp only [Bool.and_eq_true, decide_eq_true_eq] at counted ⊢
      rw [if_neg (fun both => counted ⟨both.1.1, both.2⟩)]
  have erased : (session.settle s now reservation sample).pendingBefore route index cut =
      (session.unsettled.erase reservation).countP
        (fun r => r.isOn route index && decide (r.takenAt < cut)) := rfl
  unfold sentBefore
  rw [erased]
  unfold pendingBefore
  omega

end LeaseSession

theorem RouteAccounts.sentBefore_le {s : Store Cursor} {start : Int}
    {session : LeaseSession Cursor} {route : String} {rs : RouteState} {index : Nat}
    {k : KeyRecord} (account : RouteAccounts s start session route rs)
    (positive : 0 < s.budget.window) (found : rs.keys[index]? = some k)
    (early : session.clock < start + s.budget.window) (cut : Int) :
    (session.sentBefore route index cut : Int) ≤ s.budget.requests + k.reclaimed := by
  have ledger := account.ledgers index k found
  have bound : index < rs.keys.length := (List.getElem?_eq_some_iff.mp found).1
  have first : rs.windowStart = start := by
    obtain ⟨n, aligned⟩ := account.aligned
    have begun := account.begun
    cases n with
    | zero => simpa using aligned
    | succ n =>
      have later : 0 ≤ n * s.budget.window := Int.mul_nonneg (Int.natCast_nonneg n) (by omega)
      rw [Int.natCast_succ, Int.add_mul] at aligned
      omega
  have completed : session.completedBefore route index cut ≤
      session.completedIn route index start := by
    refine List.countP_mono_left ?_
    intro entry member counted
    simp only [Bool.and_eq_true, decide_eq_true_eq] at counted ⊢
    obtain ⟨⟨onKey, isCompleted⟩, _⟩ := counted
    refine ⟨⟨onKey, isCompleted⟩, ?_⟩
    have charged : 0 < session.completedIn route index entry.windowStart := by
      refine List.countP_pos_iff.mpr ⟨entry, member, ?_⟩
      simp [onKey, isCompleted]
    have notAhead : ¬ rs.windowStart < entry.windowStart := by
      intro beyond
      have := ledger.ahead entry.windowStart beyond
      omega
    simp only [Reservation.isOn, decide_eq_true_eq] at onKey
    obtain ⟨n, aligned⟩ := (account.timely entry member onKey.1 (by omega)).aligned
    have later : 0 ≤ n * s.budget.window := Int.mul_nonneg (Int.natCast_nonneg n) (by omega)
    omega
  have pending : session.pendingBefore route index cut ≤ session.outstanding route index := by
    refine List.countP_mono_left ?_
    intro reservation _ counted
    simp only [Bool.and_eq_true] at counted
    exact counted.1
  have bounded := ledger.bounded
  have charged := ledger.charged
  have slots := ledger.slots
  rw [first] at charged
  unfold LeaseSession.sentBefore
  omega

namespace Store

def freshLeases (s : Store Cursor) (state : StoreState Cursor) (route : String) (now : Int) :
    Bool :=
  match state.routes route with
  | none => true
  | some rs => rs.keys.all (fun k => k.leases.all (fun lease => decide (now - s.leaseTimeout < lease)))

variable {s : Store Cursor} {now : Int}

theorem KeyChange.reclaimed {k changed : KeyRecord} (change : KeyChange s now k changed) :
    changed.reclaimed = k.reclaimed := by
  cases change with
  | untouched => rfl
  | leased admissible => rfl
  | settled sample => exact (s.settleLocked_spec k sample).reclaimed
  | retired deadline reason =>
    obtain ⟨_, _, retired⟩ := retireLocked_spec k now deadline reason
    rw [retired]

theorem advanceKey_reclaimed {k : KeyRecord} (rolled : Bool)
    (fresh : ∀ lease ∈ k.leases, now - s.leaseTimeout < lease) :
    (s.advanceKey rolled now k).reclaimed = k.reclaimed := by
  obtain ⟨n, available, stale, reclaimed⟩ := s.reclaimStaleLocked_spec k now
  have none : n = 0 := by
    cases n with
    | zero => rfl
    | succ n =>
      cases leases : k.leases with
      | nil => simp [leases] at available
      | cons oldest rest =>
        have old := stale oldest (by simp [leases])
        have young := fresh oldest (by simp [leases])
        omega
  have kept : (s.reclaimStaleLocked k now).reclaimed = k.reclaimed := by
    rw [reclaimed, none]
    rfl
  unfold advanceKey
  cases rolled with
  | false => exact kept
  | true =>
    obtain ⟨_, _, rolledKey⟩ := rollKey_spec (s.reclaimStaleLocked k now) now
    simpa [rolledKey] using kept

def Unreclaimed (state : StoreState Cursor) (route : String) : Prop :=
  ∀ index k, state.keyAt route index = some k → k.reclaimed = 0

theorem Unreclaimed.call {state : StoreState Cursor} {route : String} {c : Call}
    (unreclaimed : Unreclaimed state route) (fresh : s.freshLeases state route now = true) :
    Unreclaimed (s.call state now c).1 route := by
  intro index k found
  obtain ⟨before, present, rfl | ⟨rs, known, change⟩⟩ := call_keyAt found
  · exact unreclaimed index k present
  · obtain ⟨rs', known', member⟩ := StoreState.keyAt_eq_some.mp present
    rw [known] at known'
    cases known'
    have young : ∀ lease ∈ before.leases, now - s.leaseTimeout < lease := by
      intro lease held
      simp only [freshLeases, known, List.all_eq_true, decide_eq_true_eq] at fresh
      exact fresh before (List.mem_of_getElem? member) lease held
    rw [change.reclaimed, advanceKey_reclaimed _ young]
    exact unreclaimed index before present

end Store

end ClusterRouter.Channel
