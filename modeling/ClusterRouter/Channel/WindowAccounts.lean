import ClusterRouter.Channel.TokenArithmetic

/-! The counters of a key against the settlements of its accounting window. A rollover happens
at the first operation behind the end of a window and passes over the windows in between. -/

set_option autoImplicit false

namespace ClusterRouter.Channel

open Foundation

variable {Cursor : Type}

def settledWithin (route : String) (index : Nat) (trace : List TimedCall) (first last : Int) :
    List UsageSample :=
  trace.filterMap fun timed =>
    if first ≤ timed.now ∧ timed.now ≤ last then timed.call.sampleOn route index else none

structure Store.Accounts (s : Store Cursor) (k : KeyRecord) (samples : List UsageSample) : Prop where
  requests : k.requests = samples.countP (fun sample => sample.outcome = .completed)
  errors : k.errors = samples.countP (fun sample => sample.outcome = .failed)
  tokens : k.tokens = s.arithmetic.norm
    ((samples.filter (fun sample => sample.outcome = .completed)).map s.chargeOf).sum

namespace Store.Accounts

variable {s : Store Cursor} {k : KeyRecord} {samples : List UsageSample}

theorem nil (requests : k.requests = 0) (errors : k.errors = 0) (tokens : k.tokens = 0) :
    s.Accounts k [] := by
  refine ⟨requests, errors, ?_⟩
  rw [tokens]
  cases s.arithmetic <;> rfl

theorem congr {l : KeyRecord} (accounts : s.Accounts l samples) (same : k.SameCounters l) :
    s.Accounts k samples :=
  ⟨same.requests.trans accounts.requests, same.errors.trans accounts.errors,
    same.tokens.trans accounts.tokens⟩

theorem settle (accounts : s.Accounts k samples) (sample : UsageSample) :
    s.Accounts (s.settleLocked k (normalise sample)).1 (samples ++ [sample]) := by
  have settled := s.settleLocked_spec k (normalise sample)
  have carried (total amount : Int) :
      s.arithmetic.norm (s.arithmetic.norm total + amount) = s.arithmetic.norm (total + amount) := by
    cases s.arithmetic with
    | machine => exact Int.bmod_add_bmod
    | exact => rfl
  refine ⟨?_, ?_, ?_⟩
  · rw [settled.requests, accounts.requests, List.countP_append]
    cases outcome : sample.outcome <;> simp [outcome]
  · rw [settled.errors, accounts.errors, List.countP_append]
    cases outcome : sample.outcome <;> simp [outcome]
  · rw [s.settleLocked_normalise_tokens, accounts.tokens, carried, List.filter_append]
    cases outcome : sample.outcome <;> simp [outcome]

end Store.Accounts

namespace TimedStore

/-- An operation on the route comes no later after the start of the window it finds than a
duration can say. -/
def withinDuration (route : String) (state : TimedStore Cursor) (timed : TimedCall) : Prop :=
  timed.call.route = route → ∀ rs ∈ state.store.routes route,
    timed.now - rs.windowStart ≤ Duration.maximum

instance (route : String) (state : TimedStore Cursor) (timed : TimedCall) :
    Decidable (withinDuration route state timed) :=
  inferInstanceAs (Decidable (_ → ∀ rs ∈ state.store.routes route, _))

/-- Every settlement so far was made before the end of the window, and the counters are those of
the settlements since its start. -/
structure Accounted (s : Store Cursor) (route : String) (began : Int) (trace : List TimedCall)
    (state : TimedStore Cursor) : Prop where
  past : ∀ timed ∈ trace, timed.now ≤ state.clock
  aligned : ∀ rs ∈ state.store.routes route, rs.windowStart ≤ state.clock ∧
    ∃ n : Nat, rs.windowStart = began + n * s.budget.window
  counted : ∀ rs ∈ state.store.routes route, ∀ index k, rs.keys[index]? = some k →
    (∀ timed ∈ trace, timed.call.sampleOn route index ≠ none →
      timed.now < rs.windowStart + s.budget.window) ∧
    s.Accounts k (settledWithin route index trace rs.windowStart state.clock)

variable {s : Store Cursor} {route : String} {began : Int} {trace : List TimedCall}
  {state next : TimedStore Cursor} {timed : TimedCall} {index : Nat}

theorem settledWithin_concat (past : ∀ timed ∈ trace, timed.now ≤ state.clock)
    (ordered : state.clock ≤ timed.now) (first : Int) :
    settledWithin route index (trace ++ [timed]) first timed.now =
      settledWithin route index trace first state.clock ++
        (if first ≤ timed.now then (timed.call.sampleOn route index).toList else []) := by
  have same : settledWithin route index trace first timed.now =
      settledWithin route index trace first state.clock := by
    refine List.filterMap_congr fun earlier member => ?_
    have before := past earlier member
    have bound : earlier.now ≤ timed.now := by omega
    simp [before, bound]
  rw [← same, settledWithin, List.filterMap_append]
  refine congrArg₂ _ rfl ?_
  cases settled : timed.call.sampleOn route index <;> by_cases since : first ≤ timed.now <;>
    simp [settled, since]

theorem settledWithin_eq_nil {first last : Int}
    (before : ∀ timed ∈ trace, timed.call.sampleOn route index ≠ none → timed.now < first) :
    settledWithin route index trace first last = [] := by
  refine List.filterMap_eq_nil_iff.mpr fun timed member => ?_
  by_cases settles : timed.call.sampleOn route index = none
  · simp [settles]
  · have early := before timed member settles
    rw [if_neg (by omega)]

/-- What the counters of a key are found to be once its route is advanced. -/
theorem Accounted.advance (accounted : Accounted s route began trace state) {rs : RouteState}
    {k : KeyRecord} (known : state.store.routes route = some rs)
    (present : rs.keys[index]? = some k) (ordered : state.clock ≤ timed.now) :
    (∀ earlier ∈ trace, earlier.call.sampleOn route index ≠ none →
        earlier.now < s.advanceStart rs timed.now + s.budget.window) ∧
      s.Accounts (s.advanceKey (s.expired rs timed.now) timed.now k)
        (settledWithin route index trace (s.advanceStart rs timed.now) state.clock) := by
  obtain ⟨early, accounts⟩ := accounted.counted rs known index k present
  have begun : rs.windowStart ≤ timed.now :=
    Int.le_trans (accounted.aligned rs known).1 ordered
  have counters := s.advanceKey_counters k (s.expired rs timed.now) timed.now
  cases due : s.expired rs timed.now with
  | false =>
    rw [due] at counters
    have same : s.advanceStart rs timed.now = rs.windowStart := by simp [Store.advanceStart, due]
    rw [same]
    exact ⟨early, accounts.congr counters⟩
  | true =>
    have late := due
    simp only [Store.expired, decide_eq_true_eq] at late
    rw [due] at counters
    -- The window in force begins where the one before it ended, or later.
    have ends : rs.windowStart + s.budget.window ≤ s.advanceStart rs timed.now := by
      obtain ⟨windows, start, passed, _⟩ := Store.advanceStart_eq_add (s := s) begun
      have := Int.mul_le_mul_of_nonneg_right (Int.ofNat_le.mpr (passed due)) (Int.le_of_lt late.1)
      rw [start]
      omega
    rw [settledWithin_eq_nil fun earlier member settles =>
      Int.lt_of_lt_of_le (early earlier member settles) ends]
    refine ⟨fun earlier member settles => ?_, .nil counters.requests counters.errors counters.tokens⟩
    have := early earlier member settles
    omega

theorem Accounted.step (window : 0 < s.budget.window)
    (accounted : Accounted s route began trace state) (within : withinDuration route state timed)
    (stepped : (machine s).step state timed = some next) :
    Accounted s route began (trace ++ [timed]) next := by
  obtain ⟨ordered, rfl⟩ := step_eq_some.mp stepped
  have begun (rs : RouteState) (known : state.store.routes route = some rs) :
      rs.windowStart ≤ timed.now := Int.le_trans (accounted.aligned rs known).1 ordered
  refine ⟨?_, ?_, ?_⟩
  · exact forall_mem_concat (fun earlier old => Int.le_trans (accounted.past earlier old) ordered)
      (Int.le_refl _)
  · intro after known
    obtain ⟨rs, registered, change⟩ := Store.call_route known
    refine ⟨change.windowStart_le (begun rs registered), ?_⟩
    obtain ⟨windows, start⟩ := (accounted.aligned rs registered).2
    cases change with
    | untouched => exact ⟨windows, start⟩
    | advanced touched change each =>
      obtain ⟨more, moved, _⟩ := Store.advanceStart_eq_add (s := s) (begun rs registered)
      refine ⟨windows + more, ?_⟩
      dsimp only
      rw [Store.advanceLocked_windowStart, moved, start]
      push_cast
      ring
  · intro after known index k present
    obtain ⟨rs, prior, registered, held, effect⟩ := Store.call_counters known present
    rw [settledWithin_concat accounted.past ordered]
    rcases effect with ⟨start, rfl, unsettled⟩ | ⟨isRoute, start, counters⟩
    · obtain ⟨early, accounts⟩ := accounted.counted rs registered index k held
      rw [start, unsettled]
      exact ⟨forall_mem_concat early fun settles => absurd unsettled settles, by simpa using accounts⟩
    · obtain ⟨early, accounts⟩ := accounted.advance registered held ordered
      rw [start, if_pos (Store.advanceStart_le (begun rs registered))]
      refine ⟨forall_mem_concat early fun _ => ?_, ?_⟩
      · exact Store.lt_advanceStart_add window (begun rs registered) (within isRoute rs registered)
      · cases settled : timed.call.sampleOn route index with
        | none =>
          rw [settled] at counters
          simpa using accounts.congr counters
        | some sample =>
          rw [settled] at counters
          rw [counters]
          exact accounts.settle sample

variable {keys : String → Option Int} {cursor : Cursor} {final : TimedStore Cursor}

theorem accounted_of_run (window : 0 < s.budget.window)
    (within : (machine s).Meets (withinDuration route) (start keys cursor began) trace)
    (ran : (machine s).run (start keys cursor began) trace = some final) :
    Accounted s route began trace final := by
  induction trace using List.reverseRecOn generalizing final with
  | nil =>
    cases ran
    refine ⟨by simp, fun rs known => ?_, fun rs known index k present => ⟨by simp, ?_⟩⟩
    · exact ⟨Int.le_of_eq (newStoreState_routes known).1, 0, by simp [(newStoreState_routes known).1]⟩
    · rw [(newStoreState_routes known).2 k (List.mem_of_getElem? present)]
      exact .nil rfl rfl rfl
  | append_singleton front timed ih =>
    obtain ⟨middle, before, stepped⟩ := (machine s).run_concat_eq_some.mp ran
    have conditions := ((machine s).meets_iff_forall ran).mp within
    refine Accounted.step window (ih ?_ before) (conditions front timed [] middle rfl before) stepped
    refine ((machine s).meets_iff_forall before).mpr fun earlier action later state split reached => ?_
    exact conditions earlier action (later ++ [timed]) state (by simp [split]) reached

end TimedStore

/-- An operation on a route, which names no key or one that the route has, advances the route. -/
theorem Store.call_windowStart {s : Store Cursor} {state : StoreState Cursor} {now : Int} {c : Call}
    {rs after : RouteState} (known : state.routes c.route = some rs) (nonempty : 0 < rs.keys.length)
    (inRange : ∀ i ∈ c.index, 0 ≤ i ∧ i < rs.keys.length)
    (isAfter : (s.call state now c).1.routes c.route = some after) :
    after.windowStart = s.advanceStart rs now := by
  cases s.call_cases state now c with
  | advanced prior touched change registered touch result =>
    cases known.symm.trans registered
    rw [result, StoreState.setRoute_routes, if_pos rfl] at isAfter
    cases isAfter
    exact s.advanceLocked_windowStart
  | refused same declined absent =>
    cases c with
    | reserve route =>
      rcases s.reserve_cases state route now with
        ⟨unknown, _⟩ | ⟨_, registered, ⟨advanced, _⟩ | ⟨_, _, advanced, _⟩⟩
      · cases known.symm.trans unknown
      all_goals
        cases known.symm.trans registered
        simp only [call, advanced, Call.route, StoreState.setRoute_routes, if_true] at isAfter
        cases isAfter
        exact s.advanceLocked_windowStart
    | recordSample _ index _ | retireWithReason _ index _ _ | retireForWindow _ index _ =>
      obtain ⟨nonneg, bound⟩ := inRange index rfl
      have missing := absent index.toNat (by simp [Call.index, Int.toNat_of_nonneg nonneg])
      rw [StoreState.keyAt_eq_some.mpr
        ⟨rs, known, List.getElem?_eq_getElem (by omega)⟩] at missing
      cases missing
    | retryAfter route =>
      have known : state.routes route = some rs := known
      simp [call, retryAfter, known, Nat.pos_iff_ne_zero.mp nonempty, Call.route] at isAfter
      rw [← isAfter]
      exact s.advanceLocked_windowStart
    | snapshot route =>
      have known : state.routes route = some rs := known
      simp [call, snapshot, known, Call.route] at isAfter
      rw [← isAfter]
      exact s.advanceLocked_windowStart

/-- After every operation on a route its window is aligned with the construction of the store and
holds the present, and the counters of every key are those of the settlements in it, as long as
no operation on the route comes later after the start of the window it finds than a duration can
say. -/
theorem windows_account_settlements {s : Store Cursor} (window : 0 < s.budget.window)
    {keys : String → Option Int} {cursor : Cursor} {began : Int} {trace : List TimedCall}
    {timed : TimedCall} {final : TimedStore Cursor} {rs : RouteState}
    (within : (TimedStore.machine s).Meets (TimedStore.withinDuration timed.call.route)
      (.start keys cursor began) (trace ++ [timed]))
    (ran : (TimedStore.machine s).run (.start keys cursor began) (trace ++ [timed]) = some final)
    (known : final.store.routes timed.call.route = some rs)
    (inRange : ∀ i ∈ timed.call.index, 0 ≤ i ∧ i < rs.keys.length) :
    (∃ n : Nat, rs.windowStart = began + n * s.budget.window) ∧
      rs.windowStart ≤ timed.now ∧ timed.now < rs.windowStart + s.budget.window ∧
      ∀ index k, rs.keys[index]? = some k → s.Accounts k
        (settledWithin timed.call.route index (trace ++ [timed]) rs.windowStart timed.now) := by
  have accounted := TimedStore.accounted_of_run window within ran
  obtain ⟨middle, before, stepped⟩ := (TimedStore.machine s).run_concat_eq_some.mp ran
  have timely := ((TimedStore.machine s).meets_iff_forall ran).mp within trace timed [] middle rfl
    before
  obtain ⟨ordered, rfl⟩ := TimedStore.step_eq_some.mp stepped
  obtain ⟨begun, aligned⟩ := accounted.aligned rs known
  obtain ⟨prior, registered, change⟩ := Store.call_route known
  obtain ⟨started, nonempty⟩ := TimedStore.run_routes before registered
  have start := Store.call_windowStart registered nonempty (change.length_keys ▸ inRange) known
  refine ⟨aligned, begun, ?_, fun index k present => (accounted.counted rs known index k present).2⟩
  rw [start]
  exact Store.lt_advanceStart_add window (Int.le_trans started ordered) (timely rfl prior registered)

def idleDay : List TimedCall :=
  [⟨1, .recordSample "chat" 0 ⟨.completed, 7, false⟩⟩, ⟨24 * Duration.hour, .snapshot "chat"⟩]

def lateFailure : TimedCall :=
  ⟨24 * Duration.hour + 1, .recordSample "chat" 0 ⟨.failed, 0, false⟩⟩

/-- After a day of silence the settlement of the first hour is counted no more. -/
theorem windows_account_settlements_next_day :
    let s := newStore firstKey LeaseSession.tenTokenBudget 0 0 .machine
    ∃ final rs, (TimedStore.machine s).run (.start (fun _ => some 1) () 0)
        (idleDay ++ [lateFailure]) = some final ∧
      final.store.routes "chat" = some rs ∧ rs.windowStart = 24 * Duration.hour ∧
      ∀ index k, rs.keys[index]? = some k → s.Accounts k
        (settledWithin "chat" index (idleDay ++ [lateFailure]) rs.windowStart lateFailure.now) := by
  intro s
  have ran : (TimedStore.machine s).run (.start (fun _ => some 1) () 0)
      (idleDay ++ [lateFailure]) = some _ := rfl
  have accounted := windows_account_settlements (s := s) (by decide +kernel) (by decide +kernel)
    ran rfl (by decide +kernel)
  exact ⟨_, _, ran, rfl, by decide +kernel, accounted.2.2.2⟩

/-- Three hundred years of silence are more than a duration can say: the window that is found
then has ended long ago. -/
theorem long_idle_window_behind :
    let s := newStore firstKey LeaseSession.tenTokenBudget 0 0 .machine
    ∃ final rs, (TimedStore.machine s).run (.start (fun _ => some 1) () 0)
        [⟨2628000 * Duration.hour, .snapshot "chat"⟩] = some final ∧
      final.store.routes "chat" = some rs ∧
      ¬ 2628000 * Duration.hour < rs.windowStart + s.budget.window := by
  refine ⟨_, _, rfl, rfl, by decide +kernel⟩

end ClusterRouter.Channel
