import ClusterRouter.Channel.LeaseSession

/-! `requests + inFlight` is not inductive: a settlement that finds an orphan leaves the live
leases alone, and a rollover carries them. Every call preserves the ledger below, in which the
slots of a key are matched against the reservations held. -/

set_option autoImplicit false

namespace ClusterRouter.Channel

open Foundation

variable {Cursor : Type}

/-- The ledger of one key: `held` reservations are outstanding on it and
`completed` counts, by window, the requests charged to it. -/
structure Ledger (cap : Int) (k : KeyRecord) (held : Nat) (completed : Int → Nat)
    (windowStart : Int) : Prop where
  slots : k.inFlight + k.orphaned = held
  orphans : k.orphaned ≤ k.reclaimed
  bounded : (k.requests + k.inFlight + k.orphaned : Int) ≤ cap + k.reclaimed
  charged : completed windowStart = k.requests
  windows : ∀ window, (completed window : Int) ≤ cap + k.reclaimed
  ahead : ∀ window, windowStart < window → completed window = 0

namespace Ledger

variable {s : Store Cursor} {cap : Int} {k : KeyRecord} {held : Nat} {completed : Int → Nat}
  {windowStart now : Int}

theorem fresh (positive : 0 < cap) : Ledger cap {} 0 (fun _ => 0) windowStart where
  slots := rfl
  orphans := Nat.le_refl _
  bounded := by simp [KeyRecord.inFlight]; omega
  charged := rfl
  windows := by intro _; simp; omega
  ahead := by intro _ _; rfl

theorem reclaimStaleLocked (ledger : Ledger cap k held completed windowStart) :
    Ledger cap (s.reclaimStaleLocked k now) held completed windowStart := by
  obtain ⟨n, available, _, reclaimed⟩ := s.reclaimStaleLocked_spec k now
  rw [reclaimed]
  obtain ⟨slots, orphans, bounded, charged, windows, ahead⟩ := ledger
  have length : (k.leases.drop n).length + n = k.leases.length := by
    rw [List.length_drop]
    omega
  unfold KeyRecord.inFlight at *
  refine ⟨?_, ?_, ?_, charged, ?_, ahead⟩
  · simp only [KeyRecord.inFlight]
    omega
  · dsimp only
    omega
  · simp only [KeyRecord.inFlight]
    omega
  · intro window
    have := windows window
    dsimp only
    omega

theorem rollKey (ledger : Ledger cap k held completed windowStart) (next : Int)
    (later : windowStart < next) :
    Ledger cap (Store.rollKey k now) held completed next := by
  obtain ⟨deadline, reason, rolled⟩ := Store.rollKey_spec k now
  rw [rolled]
  obtain ⟨slots, orphans, bounded, charged, windows, ahead⟩ := ledger
  refine ⟨slots, orphans, ?_, ahead next later, windows, ?_⟩
  · simp only [KeyRecord.inFlight] at *
    omega
  · intro window beyond
    exact ahead window (by omega)

theorem advanceKey {rs : RouteState} (ledger : Ledger cap k held completed rs.windowStart)
    (positive : 0 < s.budget.window) (ordered : rs.windowStart ≤ now) :
    Ledger cap (s.advanceKey (s.expired rs now) now k) held completed (s.advanceStart rs now) := by
  obtain ⟨n, moved, rolls, stays⟩ := Store.advanceStart_eq_add (s := s) ordered
  have reclaimed : Ledger cap (s.reclaimStaleLocked k now) held completed rs.windowStart :=
    ledger.reclaimStaleLocked
  unfold Store.advanceKey
  cases due : s.expired rs now with
  | false =>
    have unmoved : s.advanceStart rs now = rs.windowStart := by simp [moved, stays due]
    rw [unmoved]
    exact reclaimed
  | true =>
    have later : rs.windowStart < s.advanceStart rs now := by
      have := Int.mul_pos (Int.natCast_pos.mpr (rolls due)) positive
      omega
    exact reclaimed.rollKey _ later

/-- A lease is only granted while `requests + inFlight` is below the cap, and the
orphans are covered by what was reclaimed. -/
theorem lease (ledger : Ledger s.budget.requests k held completed windowStart)
    (positive : 0 < s.budget.window) (capped : 0 < s.budget.requests)
    (admissible : s.admissibleLocked k now = true) :
    Ledger s.budget.requests { k with leases := k.leases ++ [now] } (held + 1) completed
      windowStart := by
  have room : (k.requests + k.inFlight : Int) < s.budget.requests := by
    unfold Store.admissibleLocked at admissible
    split at admissible
    · cases admissible
    split at admissible
    · omega
    split at admissible
    · cases admissible
    · omega
  obtain ⟨slots, orphans, bounded, charged, windows, ahead⟩ := ledger
  unfold KeyRecord.inFlight at *
  refine ⟨?_, orphans, ?_, charged, windows, ahead⟩
  · simp only [KeyRecord.inFlight, List.length_append, List.length_singleton]
    omega
  · simp only [KeyRecord.inFlight, List.length_append, List.length_singleton]
    omega

theorem settle (sample : UsageSample) (ledger : Ledger cap k (held + 1) completed windowStart) :
    Ledger cap (s.settleLocked k sample).1 held
      (fun window => completed window +
        if sample.outcome = .completed ∧ windowStart = window then 1 else 0)
      windowStart := by
  obtain ⟨slots, orphans, bounded, charged, windows, ahead⟩ := ledger
  have settled := s.settleLocked_spec k sample
  have released := Store.releaseLocked_slots k (by omega)
  have fewer := Store.releaseLocked_orphaned_le k
  have inFlight : (s.settleLocked k sample).1.inFlight = (releaseLocked k).inFlight :=
    congrArg List.length settled.leases
  have slots' := settled.orphaned
  have reclaimed := settled.reclaimed
  have requests := settled.requests
  have counted : (if sample.outcome = .completed then 1 else 0) ≤ 1 := by split <;> omega
  refine ⟨by omega, by omega, by omega, ?_, ?_, ?_⟩
  · simp only [and_true, requests, charged]
  · intro window
    by_cases current : windowStart = window
    · subst current
      simp only [and_true, charged]
      omega
    · have := windows window
      simp only [current, and_false, if_false]
      omega
  · intro window beyond
    have different : ¬ windowStart = window := by omega
    simp [different, ahead window beyond]

theorem retireLocked {deadline : Int} {reason : RetireReason}
    (ledger : Ledger cap k held completed windowStart) :
    Ledger cap (Store.retireLocked k now deadline reason).1 held completed windowStart := by
  obtain ⟨retiredUntil, retireReason, retired⟩ := Store.retireLocked_spec k now deadline reason
  rw [retired]
  obtain ⟨slots, orphans, bounded, charged, windows, ahead⟩ := ledger
  exact ⟨slots, orphans, bounded, charged, windows, ahead⟩

theorem touch {rs : RouteState} {c : Store.Call} {response : Store.Response}
    {touched index : Nat} {change : KeyRecord → KeyRecord}
    (ledger : Ledger s.budget.requests k held completed windowStart)
    (positive : 0 < s.budget.window) (capped : 0 < s.budget.requests)
    (unsettling : LeaseSession.isSettlement c = false) (found : rs.keys[index]? = some k)
    (touch : Store.Touch s rs now c response touched change) :
    Ledger s.budget.requests (if touched = index then change k else k)
      (held + if response.reservation = some index then 1 else 0) completed windowStart := by
  cases touch with
  | idle unnamed declined => simpa [declined] using ledger
  | leased leasedKey admissible =>
    simp only [Store.Response.reservation, Option.some.injEq]
    by_cases same : touched = index
    · subst same
      rw [leasedKey] at found
      cases found
      simpa using ledger.lease positive capped admissible
    · simpa [same] using ledger
  | settled declined => cases unsettling
  | retired declined | parked declined =>
    by_cases same : touched = index
    · simpa [declined, same] using ledger.retireLocked
    · simpa [declined, same] using ledger

end Ledger

/-- The window a settlement was charged to is aligned with the start of the run
and, while durations can express the length of the run, holds the settlement. -/
structure Timely (start window : Int) (entry : Settlement) : Prop where
  aligned : ∃ n : Nat, entry.windowStart = start + n * window
  begun : entry.windowStart ≤ entry.settledAt
  unfinished : entry.settledAt - start ≤ Duration.maximum →
    entry.settledAt < entry.windowStart + window

structure RouteAccounts (s : Store Cursor) (start : Int) (session : LeaseSession Cursor)
    (route : String) (rs : RouteState) : Prop where
  aligned : ∃ n : Nat, rs.windowStart = start + n * s.budget.window
  begun : rs.windowStart ≤ session.clock
  ledgers : ∀ index k, rs.keys[index]? = some k →
    Ledger s.budget.requests k (session.outstanding route index) (session.completedIn route index)
      rs.windowStart
  timely : ∀ entry ∈ session.settlements, entry.reservation.route = route →
    entry.reservation.index < rs.keys.length → Timely start s.budget.window entry

namespace RouteAccounts

variable {s : Store Cursor} {start now : Int} {session : LeaseSession Cursor}

variable {route : String} {rs : RouteState}

theorem advanceStart_spec (accounts : RouteAccounts s start session route rs)
    (ordered : session.clock ≤ now) :
    (∃ n : Nat, s.advanceStart rs now = start + n * s.budget.window) ∧
      s.advanceStart rs now ≤ now := by
  have begun : rs.windowStart ≤ now := Int.le_trans accounts.begun ordered
  obtain ⟨n, aligned⟩ := accounts.aligned
  obtain ⟨m, moved, _, _⟩ := Store.advanceStart_eq_add (s := s) begun
  refine ⟨⟨n + m, ?_⟩, Store.advanceStart_le begun⟩
  rw [moved, aligned, Int.natCast_add, Int.add_mul]
  omega

theorem frame {next : LeaseSession Cursor} (accounts : RouteAccounts s start session route rs)
    (ordered : session.clock ≤ next.clock)
    (held : ∀ index, index < rs.keys.length →
      next.outstanding route index = session.outstanding route index)
    (logged : ∀ index, index < rs.keys.length →
      next.completedIn route index = session.completedIn route index)
    (entries : ∀ entry ∈ next.settlements, entry.reservation.route = route →
      entry.reservation.index < rs.keys.length → entry ∈ session.settlements) :
    RouteAccounts s start next route rs := by
  refine ⟨accounts.aligned, Int.le_trans accounts.begun ordered, ?_, ?_⟩
  · intro index k found
    have bound : index < rs.keys.length := (List.getElem?_eq_some_iff.mp found).1
    rw [held index bound, logged index bound]
    exact accounts.ledgers index k found
  · intro entry member onRoute bound
    exact accounts.timely entry (entries entry member onRoute bound) onRoute bound

theorem settle_elsewhere {reservation : Reservation} {sample : UsageSample}
    (accounts : RouteAccounts s start session route rs) (ordered : session.clock ≤ now)
    (held : reservation ∈ session.unsettled)
    (elsewhere : ∀ index, index < rs.keys.length → reservation.isOn route index = false) :
    RouteAccounts s start (session.settle s now reservation sample) route rs := by
  refine accounts.frame ordered ?_ ?_ ?_
  · intro index bound
    simp [session.outstanding_settle route index s now sample held, elsewhere index bound]
  · intro index bound
    funext window
    simp [session.completedIn_settle, elsewhere index bound]
  · intro entry member onRoute bound
    rcases session.mem_settlements_settle.mp member with earlier | rfl
    · exact earlier
    · have onKey : reservation.isOn route reservation.index = true := by
        simpa [Reservation.isOn] using onRoute
      rw [elsewhere _ bound] at onKey
      cases onKey

end RouteAccounts

def Accounts (s : Store Cursor) (start : Int) (session : LeaseSession Cursor) : Prop :=
  ∀ route rs, session.store.routes route = some rs → RouteAccounts s start session route rs

namespace Accounts

section Steps

variable {s : Store Cursor} {start now : Int} {session : LeaseSession Cursor}

theorem start_holds (keys : String → Option Int) (cursor : Cursor)
    (capped : 0 < s.budget.requests) : Accounts s start (LeaseSession.start keys cursor start) := by
  intro route rs known
  obtain ⟨begins, unused⟩ := newStoreState_routes known
  refine ⟨⟨0, by simp [begins]⟩, by simp [begins, LeaseSession.start], ?_, by simp [LeaseSession.start]⟩
  intro index k found
  rw [unused k (List.mem_of_getElem? found)]
  exact Ledger.fresh capped

theorem perform {c : Store.Call} (positive : 0 < s.budget.window)
    (capped : 0 < s.budget.requests) (accounts : Accounts s start session)
    (ordered : session.clock ≤ now) (unsettling : LeaseSession.isSettlement c = false) :
    Accounts s start (session.perform s now c) := by
  intro route rs known
  cases s.call_cases session.store now c with
  | refused same declined absent =>
    have before : session.store.routes route = some rs := by
      rw [← same]
      exact known
    refine (accounts route rs before).frame ordered ?_ (fun _ _ => rfl) (fun _ member _ _ => member)
    intro index _
    rw [session.outstanding_perform, declined]
    simp
  | advanced prior touched change registered touch result =>
    have routes : (session.perform s now c).store.routes route = _ := congrFun result route
    rw [known, StoreState.setRoute_routes] at routes
    by_cases onRoute : route = c.route
    · subst onRoute
      rw [if_pos rfl] at routes
      cases routes
      have account := accounts c.route prior registered
      obtain ⟨aligned, begun⟩ := account.advanceStart_spec ordered
      refine ⟨by simpa [Store.advanceLocked_eq] using aligned,
        by simpa [Store.advanceLocked_eq, LeaseSession.perform] using begun, ?_, ?_⟩
      · intro index k found
        obtain ⟨k, present, rfl⟩ := Store.modified_key found
        have ledger : Ledger s.budget.requests (s.advanceKey (s.expired prior now) now k)
            (session.outstanding c.route index) (session.completedIn c.route index)
            (s.advanceLocked prior now).windowStart := by
          rw [Store.advanceLocked_eq]
          exact (account.ledgers index k present).advanceKey positive
            (Int.le_trans account.begun ordered)
        have advanced : (s.advanceLocked prior now).keys[index]? =
            some (s.advanceKey (s.expired prior now) now k) := by
          rw [s.advanceLocked_getElem?, present]
          rfl
        have changed := ledger.touch positive capped unsettling advanced touch
        simpa [session.outstanding_perform] using changed
      · intro entry member sameRoute bound
        exact account.timely entry member sameRoute (by simpa [Store.advanceLocked_eq] using bound)
    · rw [if_neg onRoute] at routes
      refine (accounts route rs routes.symm).frame ordered ?_ (fun _ _ => rfl)
        (fun _ member _ _ => member)
      intro index _
      rw [session.outstanding_perform, if_neg (fun both => onRoute both.1.symm)]
      rfl

theorem timely_settlement {route : String} {rs : RouteState} {reservation : Reservation}
    {outcome : SampleOutcome} (positive : 0 < s.budget.window)
    (account : RouteAccounts s start session route rs) (ordered : session.clock ≤ now) :
    Timely start s.budget.window ⟨reservation, now, s.advanceStart rs now, outcome⟩ := by
  obtain ⟨aligned, begun⟩ := account.advanceStart_spec ordered
  refine ⟨aligned, begun, ?_⟩
  intro representable
  obtain ⟨n, offset⟩ := account.aligned
  have later : 0 ≤ n * s.budget.window := Int.mul_nonneg (Int.natCast_nonneg n) (by omega)
  exact Store.lt_advanceStart_add positive (Int.le_trans account.begun ordered) (by omega)

theorem settle {reservation : Reservation} {sample : UsageSample} (positive : 0 < s.budget.window)
    (accounts : Accounts s start session) (ordered : session.clock ≤ now)
    (held : reservation ∈ session.unsettled) :
    Accounts s start (session.settle s now reservation sample) := by
  intro route rs known
  have effect := s.call_cases session.store now
    (.recordSample reservation.route reservation.index sample)
  cases effect with
  | refused same declined absent =>
    have before : session.store.routes route = some rs := by
      rw [← same]
      exact known
    -- The key is absent, so the reservation is on none of the keys there are.
    have elsewhere : ∀ index, index < rs.keys.length → reservation.isOn route index = false := by
      intro index bound
      simp only [Reservation.isOn, decide_eq_false_iff_not]
      rintro ⟨rfl, rfl⟩
      have missing := absent reservation.index rfl
      simp [Store.Call.route, StoreState.keyAt, before, bound] at missing
    exact (accounts route rs before).settle_elsewhere ordered held elsewhere
  | advanced prior touched change registered touch result =>
    obtain ⟨rfl, rfl⟩ := touch.of_recordSample
    have routes : (session.settle s now reservation sample).store.routes = _ := result
    have window : (session.settle s now reservation sample).store.windowStart reservation.route =
        s.advanceStart prior now := by
      simp [StoreState.windowStart, routes, Store.Call.route, Store.advanceLocked_eq]
    rw [routes, StoreState.setRoute_routes] at known
    by_cases onRoute : route = reservation.route
    · subst onRoute
      simp only [Store.Call.route, if_true, Option.some.injEq] at known
      subst known
      have account := accounts reservation.route prior registered
      obtain ⟨aligned, begun⟩ := account.advanceStart_spec ordered
      refine ⟨by simpa [Store.advanceLocked_eq] using aligned,
        by simpa [Store.advanceLocked_eq, LeaseSession.settle] using begun, ?_, ?_⟩
      · intro index k found
        obtain ⟨k, present, rfl⟩ := Store.modified_key found
        have ledger := (account.ledgers index k present).advanceKey positive
          (Int.le_trans account.begun ordered)
        rw [session.outstanding_settle _ _ s now sample held] at ledger
        have counts : (session.settle s now reservation sample).completedIn reservation.route index =
            fun window => session.completedIn reservation.route index window +
              if reservation.isOn reservation.route index = true ∧ sample.outcome = .completed ∧
                s.advanceStart prior now = window then 1 else 0 := by
          funext other
          rw [session.completedIn_settle, window]
        rw [counts, Store.advanceLocked_eq]
        by_cases same : reservation.index = index
        · have onKey : reservation.isOn reservation.route index = true := by
            simp [Reservation.isOn, same]
          simp only [onKey, if_true] at ledger
          simpa [onKey, same] using ledger.settle (s := s) (Store.normalise sample)
        · have onOther : reservation.isOn reservation.route index = false := by
            simp [Reservation.isOn, same]
          simpa [onOther, same] using ledger
      · intro entry member sameRoute bound
        rcases session.mem_settlements_settle.mp member with earlier | rfl
        · exact account.timely entry earlier sameRoute
            (by simpa [Store.advanceLocked_eq] using bound)
        · rw [window]
          exact timely_settlement positive account ordered
    · have different : reservation.route ≠ route := fun same => onRoute same.symm
      have before : session.store.routes route = some rs := (if_neg onRoute).symm.trans known
      refine (accounts route rs before).settle_elsewhere ordered held fun index _ => ?_
      simp [Reservation.isOn, different]

end Steps

theorem of_run {s : Store Cursor} (positive : 0 < s.budget.window)
    (capped : 0 < s.budget.requests) {keys : String → Option Int} {cursor : Cursor} {start : Int}
    {trace : List LeaseEvent} {final : LeaseSession Cursor}
    (ran : (LeaseSession.machine s).run (LeaseSession.start keys cursor start) trace = some final) :
    Accounts s start final := by
  refine Machine.run_invariant _ (Accounts s start) ?_ ran (start_holds keys cursor capped)
  intro session event next stepped accounts
  obtain ⟨ordered, ⟨reservation, sample, _, held, rfl⟩ | ⟨c, _, unsettling, rfl⟩⟩ :=
    LeaseSession.step_cases stepped
  · exact accounts.settle positive ordered held
  · exact accounts.perform positive capped ordered unsettling

end Accounts

/-- The settlements of one key at instants of the `n`-th window since `start` were
all charged to that window. -/
theorem RouteAccounts.completedDuring_le {s : Store Cursor} {start : Int}
    {session : LeaseSession Cursor} {route : String} {rs : RouteState} {index : Nat}
    (positive : 0 < s.budget.window) (account : RouteAccounts s start session route rs)
    (bound : index < rs.keys.length) (n : Nat)
    (representable : ∀ entry ∈ session.settlements, entry.settledAt - start ≤ Duration.maximum) :
    session.completedDuring route index (start + n * s.budget.window)
        (start + (n + 1) * s.budget.window) ≤
      session.completedIn route index (start + n * s.budget.window) := by
  refine List.countP_mono_left ?_
  intro entry member counted
  simp only [Bool.and_eq_true, decide_eq_true_eq] at counted ⊢
  obtain ⟨⟨onKey, completed⟩, first, last⟩ := counted
  refine ⟨⟨onKey, completed⟩, ?_⟩
  simp only [Reservation.isOn, decide_eq_true_eq] at onKey
  obtain ⟨⟨m, aligned⟩, begun, unfinished⟩ :=
    account.timely entry member onKey.1 (by omega)
  have within := unfinished (representable entry member)
  rw [aligned] at begun within ⊢
  have notEarlier : (n : Int) < m + 1 := by
    refine Int.lt_of_mul_lt_mul_right (a := s.budget.window) ?_ (by omega)
    rw [Int.add_mul]
    omega
  have notLater : (m : Int) < n + 1 := by
    refine Int.lt_of_mul_lt_mul_right (a := s.budget.window) ?_ (by omega)
    omega
  have same : m = n := by omega
  rw [same]

/-- In every reachable state each key of a route with a request cap `N` satisfies
`requests + inFlight + orphaned ≤ N + reclaimed`. If nothing was reclaimed, the
key never exceeds `N`, and neither do the requests charged to it in any one
accounting window, be it told by the window the store charged or, as long as
durations can express the length of the run, by the clock. -/
theorem request_cap_exact (s : Store Cursor) (window : 0 < s.budget.window)
    (capped : 0 < s.budget.requests) (keys : String → Option Int) (cursor : Cursor) (start : Int)
    (trace : List LeaseEvent) (final : LeaseSession Cursor)
    (ran : (LeaseSession.machine s).run (LeaseSession.start keys cursor start) trace = some final)
    (route : String) (index : Nat) (k : KeyRecord)
    (found : final.store.keyAt route index = some k) :
    (k.requests + k.inFlight + k.orphaned : Int) ≤ s.budget.requests + k.reclaimed ∧
      (k.reclaimed = 0 →
        (k.requests + k.inFlight : Int) ≤ s.budget.requests ∧
          (∀ windowStart : Int,
            (final.completedIn route index windowStart : Int) ≤ s.budget.requests) ∧
          ((∀ entry ∈ final.settlements, entry.settledAt - start ≤ Duration.maximum) →
            ∀ n : Nat, (final.completedDuring route index (start + n * s.budget.window)
              (start + (n + 1) * s.budget.window) : Int) ≤ s.budget.requests)) := by
  obtain ⟨rs, known, present⟩ := StoreState.keyAt_eq_some.mp found
  have account := Accounts.of_run window capped ran route rs known
  have ledger := account.ledgers index k present
  refine ⟨ledger.bounded, ?_⟩
  intro untouched
  have bounded := ledger.bounded
  have windows : ∀ windowStart : Int,
      (final.completedIn route index windowStart : Int) ≤ s.budget.requests := by
    intro windowStart
    have := ledger.windows windowStart
    omega
  refine ⟨by omega, windows, ?_⟩
  intro representable n
  have bound : index < rs.keys.length := (List.getElem?_eq_some_iff.mp present).1
  have during := account.completedDuring_le window bound n representable
  have charged := windows (start + n * s.budget.window)
  omega

def cappedStore : Store Unit :=
  newStore (fun cursor _ => (0, cursor))
    { window := Duration.hour, tokens := 0, requests := 1, softRatio := .finite 0
      estimateTokens := 0 } 0 0 .machine

def cappedRun : Option (LeaseSession Unit) :=
  (LeaseSession.machine cappedStore).run
    (LeaseSession.start (fun route => if route = "chat" then some 1 else none) () 0)
    [⟨1, .call (.reserve "chat")⟩, ⟨2, .settle ⟨"chat", 0, 1⟩ ⟨.completed, 7, false⟩⟩]

theorem request_cap_exact_capped :
    ∃ final k, cappedRun = some final ∧ final.store.keyAt "chat" 0 = some k ∧
      k.requests = 1 ∧ k.drained = true ∧
      (k.requests + k.inFlight + k.orphaned : Int) ≤ 1 + k.reclaimed := by
  have key : cappedRun.map (fun final => final.store.keyAt "chat" 0) =
      some (some { requests := 1, tokens := 7, drained := true, softRetired := true }) := by
    decide +kernel
  obtain ⟨final, ran, found⟩ := Option.map_eq_some_iff.mp key
  exact ⟨final, _, ran, found, rfl, rfl,
    (request_cap_exact cappedStore (by decide) (by decide) _ _ _ _ _ ran "chat" 0 _ found).1⟩

end ClusterRouter.Channel
