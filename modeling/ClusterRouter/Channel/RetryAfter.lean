import ClusterRouter.Channel.RefusalLabels
import ClusterRouter.Channel.Unavailable

/-! While no key of a route is settled or retired, an unselectable key becomes selectable at one
instant: the later of its retirement's deadline and, if it is capped, the end of the window.
`waitForLocked` reports the time to it, as far as a duration can. -/

set_option autoImplicit false

namespace ClusterRouter.Channel

open Foundation

variable {Cursor : Type}

namespace Store

def quietOn (route : String) (c : Call) : Bool := decide (c.route ≠ route ∨ c.index = none)

/-! ## Later calls do not change when a key is selectable -/

section Later

variable {s : Store Cursor} {now later : Int}

theorem advanceKey_retiredAt_later (passed : now ≤ later) (rolled : Bool) (k : KeyRecord) :
    (s.advanceKey rolled now k).retiredAt later = k.retiredAt later := by
  have reclaimed : (s.reclaimStaleLocked k now).retiredUntil = k.retiredUntil :=
    (s.reclaim_keepsRetirement now).retiredUntil k
  have kept : (s.reclaimStaleLocked k now).retiredAt later = k.retiredAt later :=
    congrArg (Time.deadlineAfter · later) reclaimed
  unfold advanceKey
  cases rolled with
  | false => exact kept
  | true =>
    simp only [if_true, rollKey_eq]
    refine Eq.trans ?_ kept
    cases inForce : (s.reclaimStaleLocked k now).retiredAt now with
    | true => rw [KeyRecord.liveAt_of_retired inForce]; rfl
    | false =>
      rw [KeyRecord.liveAt_of_lapsed inForce, KeyRecord.retiredAt_later passed inForce]
      rfl

theorem selectableAt_advanceKey_later (passed : now ≤ later) {rs : RouteState} {k touched : KeyRecord}
    (capped : touched.capped = (s.advanceKey (s.expired rs now) now k).capped)
    (retired : touched.retiredUntil = (s.advanceKey (s.expired rs now) now k).retiredUntil) :
    selectableAt (s.advanceKey (s.expired (s.advanceLocked rs now) later) later touched) later =
      selectableAt (s.advanceKey (s.expired rs later) later k) later := by
  have free : touched.retiredAt later = k.retiredAt later := by
    rw [KeyRecord.retiredAt, retired]
    exact advanceKey_retiredAt_later passed _ k
  have due : s.expired rs later = (s.expired rs now || s.expired (s.advanceLocked rs now) later) :=
    expired_advanceLocked passed
  rw [selectableAt_advanceKey, selectableAt_advanceKey, capped, free, advanceKey_capped, due]
  cases s.expired rs now <;> cases s.expired (s.advanceLocked rs now) later <;>
    cases k.capped <;> rfl

theorem Touch.of_unnamed {rs : RouteState} {c : Call} {response : Response} {index : Nat}
    {change : KeyRecord → KeyRecord} (touch : Touch s rs now c response index change)
    (unnamed : c.index = none) (k : KeyRecord) :
    (change k).capped = k.capped ∧ (change k).retiredUntil = k.retiredUntil := by
  cases touch with
  | idle | leased => exact ⟨rfl, rfl⟩
  | settled _ | retired _ | parked _ => cases unnamed

theorem advanced_later (passed : now ≤ later) {prior : RouteState} {c : Call} {response : Response}
    {touched index : Nat} {change : KeyRecord → KeyRecord} {k : KeyRecord}
    (touch : Touch s (s.advanceLocked prior now) now c response touched change)
    (unnamed : c.index = none) :
    selectableAt (s.advanceKey (s.expired (s.advanceLocked prior now) later) later
        (if touched = index then change (s.advanceKey (s.expired prior now) now k)
          else s.advanceKey (s.expired prior now) now k)) later =
      selectableAt (s.advanceKey (s.expired prior later) later k) later := by
  by_cases same : touched = index
  · rw [if_pos same]
    obtain ⟨capped, retired⟩ := touch.of_unnamed unnamed (s.advanceKey (s.expired prior now) now k)
    exact selectableAt_advanceKey_later passed capped retired
  · rw [if_neg same]
    exact selectableAt_advanceKey_later passed rfl rfl

theorem selectable_of_quiet {state : StoreState Cursor} {route : String} {c : Call}
    (quiet : quietOn route c = true) (passed : now ≤ later) :
    (s.poolAt (s.call state now c).1 route later).map (selectableAt · later) =
      (s.poolAt state route later).map (selectableAt · later) := by
  cases s.call_cases state now c with
  | refused same declined absent => simp only [poolAt, same]
  | advanced prior touched change registered touch result =>
    by_cases onRoute : c.route = route
    · subst onRoute
      have unnamed : c.index = none := by simpa [quietOn] using quiet
      simp only [poolAt, result, StoreState.setRoute_routes, if_true, registered, advanceLocked_keys]
      refine List.ext_getElem? fun index => ?_
      simp only [List.getElem?_map, List.getElem?_modify]
      cases prior.keys[index]? with
      | none => rfl
      | some k =>
        exact congrArg some (advanced_later passed touch unnamed)
    · have elsewhere : route ≠ c.route := fun same => onRoute same.symm
      simp only [poolAt, result, StoreState.setRoute_routes, if_neg elsewhere]

theorem selectable_of_quiet_run {route : String} {state final : TimedStore Cursor}
    {trace : List TimedCall} (ran : (TimedStore.machine s).run state trace = some final)
    (quiet : ∀ timed ∈ trace, quietOn route timed.call = true ∧ timed.now ≤ later) :
    (s.poolAt final.store route later).map (selectableAt · later) =
      (s.poolAt state.store route later).map (selectableAt · later) := by
  induction trace generalizing state with
  | nil =>
    cases ran
    rfl
  | cons timed rest ih =>
    obtain ⟨next, stepped, remaining⟩ := (TimedStore.machine s).run_cons_eq_some.mp ran
    obtain ⟨_, rfl⟩ := TimedStore.step_eq_some.mp stepped
    obtain ⟨silent, early⟩ := quiet timed List.mem_cons_self
    rw [ih remaining fun timed member => quiet timed (List.mem_cons_of_mem _ member)]
    exact selectable_of_quiet silent early

end Later

/-! ## When an unselectable key becomes selectable -/

def timeOut (s : Store Cursor) (rs : RouteState) (k : KeyRecord) (now : Int) : Int :=
  max (if k.retiredAt now then k.retiredUntil.getD now - now else 0)
    (if k.capped then rs.windowStart + s.budget.window - now else 0)

/-- A key as an advanced route has it: it is capped only in a window that is still running. -/
structure Current (s : Store Cursor) (rs : RouteState) (now : Int) (k : KeyRecord) : Prop where
  begun : rs.windowStart ≤ now
  running : k.capped = true → 0 < s.budget.window ∧ now < rs.windowStart + s.budget.window

namespace Current

variable {s : Store Cursor} {rs : RouteState} {now later : Int} {k : KeyRecord}

theorem of_advanced {prior : RouteState} (window : s.budget.window ≤ Duration.maximum)
    (begun : prior.windowStart ≤ now) (limited : k.capped = true → 0 < s.budget.window) :
    s.Current (s.advanceLocked prior now) now (s.advanceKey (s.expired prior now) now k) := by
  refine ⟨by simpa only [advanceLocked_windowStart] using advanceStart_le (s := s) begun, ?_⟩
  rw [advanceKey_capped, advanceLocked_windowStart]
  intro capped
  rw [Bool.and_eq_true, Bool.not_eq_true'] at capped
  obtain ⟨early, capped⟩ := capped
  have opened := limited capped
  refine ⟨opened, ?_⟩
  have kept : s.advanceStart prior now = prior.windowStart := by simp [advanceStart, early]
  simp only [expired, decide_eq_false_iff_not, opened, true_and, Time.sub, Duration.maximum,
    Duration.minimum] at early
  simp only [Duration.maximum] at window
  omega

theorem waitForLocked_eq (current : s.Current rs now k) :
    s.waitForLocked rs k now = min Duration.maximum (s.timeOut rs k now) := by
  have begun := current.begun
  have running := current.running
  unfold waitForLocked timeOut
  unfold KeyRecord.capped KeyRecord.retiredAt at *
  simp only [Time.sub, Duration.maximum, Duration.minimum] at *
  cases capped : (k.drained || k.softRetired) with
  | false =>
    cases retires : k.retiredUntil with
    | none => simp [Time.deadlineAfter]
    | some deadline =>
      by_cases ahead : now < deadline
      · simp [Time.deadlineAfter, ahead]
        omega
      · simp [Time.deadlineAfter, ahead]
  | true =>
    obtain ⟨opened, inside⟩ := running capped
    cases retires : k.retiredUntil with
    | none =>
      simp only [Time.deadlineAfter, opened, if_true, Bool.false_eq_true, if_false]
      omega
    | some deadline =>
      by_cases ahead : now < deadline
      · simp only [Time.deadlineAfter, opened, ahead, decide_true, if_true, Option.getD_some]
        omega
      · simp only [Time.deadlineAfter, opened, ahead, decide_false, if_true, if_false,
          Bool.false_eq_true]
        omega

theorem selectableAt_iff_timeOut (window : s.budget.window ≤ Duration.maximum)
    (current : s.Current rs now k) (passed : now ≤ later) :
    selectableAt (s.advanceKey (s.expired rs later) later k) later = true ↔
      now + s.timeOut rs k now ≤ later := by
  have begun := current.begun
  have running := current.running
  rw [selectableAt_advanceKey]
  have free : k.retiredAt later = false ↔
      now + (if k.retiredAt now then k.retiredUntil.getD now - now else 0) ≤ later := by
    unfold KeyRecord.retiredAt Time.deadlineAfter
    cases k.retiredUntil with
    | none => simpa using passed
    | some deadline =>
      by_cases ahead : now < deadline
      · simp [ahead]
      · simp [ahead]
        omega
  have released : (s.expired rs later || !k.capped) = true ↔
      now + (if k.capped then rs.windowStart + s.budget.window - now else 0) ≤ later := by
    cases capped : k.capped with
    | false => simpa using passed
    | true =>
      obtain ⟨opened, inside⟩ := running capped
      simp only [expired, opened, true_and, Bool.not_true, Bool.or_false, decide_eq_true_eq,
        if_true, Time.sub, Duration.maximum, Duration.minimum]
      simp only [Duration.maximum] at window
      omega
  rw [Bool.and_eq_true, Bool.not_eq_true', released, free]
  unfold timeOut
  omega

theorem timeOut_nonneg (rs : RouteState) (k : KeyRecord) (now : Int) : 0 ≤ s.timeOut rs k now := by
  unfold timeOut KeyRecord.retiredAt Time.deadlineAfter
  cases k.retiredUntil with
  | none => simp
  | some deadline =>
    by_cases ahead : now < deadline
    · simp [ahead]
      omega
    · simp [ahead]

theorem waitForLocked_nonneg (current : s.Current rs now k) : 0 ≤ s.waitForLocked rs k now := by
  rw [current.waitForLocked_eq]
  exact Int.le_min.mpr ⟨by decide, timeOut_nonneg rs k now⟩

theorem timeOut_le_maximum_iff (window : s.budget.window ≤ Duration.maximum)
    (current : s.Current rs now k) :
    s.timeOut rs k now ≤ Duration.maximum ↔
      ∀ deadline, k.retiredUntil = some deadline → deadline ≤ now + Duration.maximum := by
  have begun := current.begun
  have capped : (if k.capped then rs.windowStart + s.budget.window - now else 0) ≤
      Duration.maximum := by
    simp only [Duration.maximum] at *
    split <;> omega
  unfold timeOut
  rw [Int.max_le, and_iff_left capped]
  unfold KeyRecord.retiredAt Time.deadlineAfter
  simp only [Duration.maximum]
  cases k.retiredUntil with
  | none => simp
  | some deadline =>
    by_cases ahead : now < deadline
    · simp [ahead]
      omega
    · simp [ahead]
      omega

end Current

theorem exists_selectable_later_iff {s : Store Cursor} {state : StoreState Cursor} {route : String}
    {rs : RouteState} {now later : Int} (window : s.budget.window ≤ Duration.maximum)
    (known : state.routes route = some rs)
    (current : ∀ k ∈ s.poolAt state route now, s.Current (s.advanceLocked rs now) now k)
    (passed : now ≤ later) :
    (∃ k ∈ s.poolAt state route later, selectableAt k later = true) ↔
      ∃ k ∈ s.poolAt state route now, now + s.timeOut (s.advanceLocked rs now) k now ≤ later := by
  simp only [poolAt, known, advanceLocked_keys, List.mem_map, exists_exists_and_eq_and] at current ⊢
  refine exists_congr fun k => and_congr_right fun member => ?_
  rw [← (current _ ⟨k, member, rfl⟩).selectableAt_iff_timeOut window passed,
    selectableAt_advanceKey_later passed rfl rfl]

/-! ## The scan -/

section Scan

variable {s : Store Cursor} {rs : RouteState} {now : Int} {keys : List KeyRecord}

theorem shortestWait_of_selectable (usable : ∃ k ∈ keys, selectableAt k now = true) (best : Int) :
    s.shortestWait rs now keys best = none := by
  induction keys generalizing best with
  | nil =>
    obtain ⟨k, member, _⟩ := usable
    cases member
  | cons first rest ih =>
    unfold shortestWait
    cases selectable : selectableAt first now with
    | true => rfl
    | false =>
      simp only [Bool.false_eq_true, if_false]
      refine ih ?_ _
      obtain ⟨k, member, found⟩ := usable
      rcases List.mem_cons.mp member with rfl | later
      · rw [selectable] at found
        cases found
      · exact ⟨k, later, found⟩

theorem shortestWait_of_none (out : ∀ k ∈ keys, selectableAt k now = false)
    (nonneg : ∀ k ∈ keys, 0 ≤ s.waitForLocked rs k now) {best : Int} (started : 0 ≤ best) :
    ∃ least, s.shortestWait rs now keys best = some least ∧ 0 ≤ least ∧ least ≤ best ∧
      (∀ k ∈ keys, least ≤ s.waitForLocked rs k now) ∧
      (least = best ∨ ∃ k ∈ keys, least = s.waitForLocked rs k now) := by
  induction keys generalizing best with
  | nil => exact ⟨best, rfl, started, Int.le_refl _, by simp, .inl rfl⟩
  | cons first rest ih =>
    unfold shortestWait
    rw [out first List.mem_cons_self]
    simp only [Bool.false_eq_true, if_false]
    have wait := nonneg first List.mem_cons_self
    have smaller : (if best < 0 ∨ s.waitForLocked rs first now < best then
        s.waitForLocked rs first now else best) = min best (s.waitForLocked rs first now) := by
      split <;> omega
    rw [smaller]
    obtain ⟨least, scanned, positive, below, each, attained⟩ :=
      ih (fun k member => out k (List.mem_cons_of_mem _ member))
        (fun k member => nonneg k (List.mem_cons_of_mem _ member))
        (show 0 ≤ min best (s.waitForLocked rs first now) by omega)
    refine ⟨least, scanned, positive, by omega, ?_, ?_⟩
    · intro k member
      rcases List.mem_cons.mp member with rfl | later
      · omega
      · exact each k later
    · rcases attained with isBest | ⟨k, member, isWait⟩
      · rcases Int.le_total best (s.waitForLocked rs first now) with smaller | smaller
        · exact .inl (by omega)
        · exact .inr ⟨first, List.mem_cons_self, by omega⟩
      · exact .inr ⟨k, List.mem_cons_of_mem _ member, isWait⟩

theorem shortestWait_isLeast (out : ∀ k ∈ keys, selectableAt k now = false)
    (nonneg : ∀ k ∈ keys, 0 ≤ s.waitForLocked rs k now) (nonempty : keys ≠ []) :
    ∃ least, s.shortestWait rs now keys (-1) = some least ∧ 0 ≤ least ∧
      IsLeast { wait | ∃ k ∈ keys, wait = s.waitForLocked rs k now } least := by
  cases keys with
  | nil => exact absurd rfl nonempty
  | cons first rest =>
    obtain ⟨least, scanned, positive, below, each, attained⟩ :=
      shortestWait_of_none (fun k member => out k (List.mem_cons_of_mem _ member))
        (fun k member => nonneg k (List.mem_cons_of_mem _ member)) (nonneg first List.mem_cons_self)
    refine ⟨least, ?_, positive, ?_, ?_⟩
    · unfold shortestWait
      rw [out first List.mem_cons_self]
      simpa using scanned
    · rcases attained with isFirst | ⟨k, member, isWait⟩
      · exact ⟨first, List.mem_cons_self, isFirst⟩
      · exact ⟨k, List.mem_cons_of_mem _ member, isWait⟩
    · rintro wait ⟨k, member, rfl⟩
      rcases List.mem_cons.mp member with rfl | later
      · exact below
      · exact each k later

theorem retryAfter_cases {state : StoreState Cursor} {route : String}
    (known : state.routes route = some rs) (nonempty : 0 < rs.keys.length)
    (nonneg : ∀ k ∈ s.poolAt state route now, 0 ≤ s.waitForLocked (s.advanceLocked rs now) k now) :
    ((∃ k ∈ s.poolAt state route now, selectableAt k now = true) ∧
        (s.retryAfter state route now).2 = none) ∨
      ((∀ k ∈ s.poolAt state route now, selectableAt k now = false) ∧
        ∃ least,
          IsLeast { wait | ∃ k ∈ s.poolAt state route now,
            wait = s.waitForLocked (s.advanceLocked rs now) k now } least ∧
          (s.retryAfter state route now).2 = some (max minRetryAfter (min least s.maxRetryAfter))) := by
  have pool : s.poolAt state route now = (s.advanceLocked rs now).keys := by rw [poolAt, known]
  have present : rs.keys.length ≠ 0 := Nat.ne_of_gt nonempty
  rw [pool] at nonneg ⊢
  by_cases usable : ∃ k ∈ (s.advanceLocked rs now).keys, selectableAt k now = true
  · refine .inl ⟨usable, ?_⟩
    simp only [retryAfter, known, present, if_false, shortestWait_of_selectable usable]
  · have out : ∀ k ∈ (s.advanceLocked rs now).keys, selectableAt k now = false :=
      forall_eq_false_iff.mpr usable
    have filled : (s.advanceLocked rs now).keys ≠ [] := by
      rw [← List.length_pos_iff, advanceLocked_keys, List.length_map]
      exact nonempty
    obtain ⟨least, scanned, positive, isLeast⟩ := shortestWait_isLeast out nonneg filled
    refine .inr ⟨out, least, isLeast, ?_⟩
    have started : ¬ least < 0 := by omega
    simp only [retryAfter, known, present, if_false, scanned, started]

end Scan

section Least

variable {s : Store Cursor} {rs : RouteState} {now w : Int} {pool : List KeyRecord}

theorem le_timeOut_of_isLeast (current : ∀ k ∈ pool, s.Current rs now k)
    (isLeast : IsLeast { wait | ∃ k ∈ pool, wait = s.waitForLocked rs k now } w) :
    ∀ k ∈ pool, w ≤ s.timeOut rs k now := by
  intro k member
  have below := isLeast.2 ⟨k, member, rfl⟩
  rw [(current k member).waitForLocked_eq] at below
  exact (Int.le_min.mp below).2

theorem exists_timeOut_le_iff (window : s.budget.window ≤ Duration.maximum)
    (current : ∀ k ∈ pool, s.Current rs now k)
    (isLeast : IsLeast { wait | ∃ k ∈ pool, wait = s.waitForLocked rs k now } w) :
    (∃ k ∈ pool, s.timeOut rs k now ≤ w) ↔
      ∃ k ∈ pool, ∀ deadline, k.retiredUntil = some deadline →
        deadline ≤ now + Duration.maximum := by
  obtain ⟨first, among, isWait⟩ := isLeast.1
  rw [(current first among).waitForLocked_eq] at isWait
  constructor
  · rintro ⟨k, member, lapsed⟩
    refine ⟨k, member, ((current k member).timeOut_le_maximum_iff window).mp ?_⟩
    omega
  · rintro ⟨k, member, within⟩
    have within := ((current k member).timeOut_le_maximum_iff window).mpr within
    by_cases cut : s.timeOut rs first now ≤ Duration.maximum
    · exact ⟨first, among, by omega⟩
    · exact ⟨k, member, by omega⟩

end Least

end Store

/-! ## Reachable states -/

theorem TimedStore.run_capped {s : Store Cursor} {keys : String → Option Int} {cursor : Cursor}
    {began : Int} {trace : List TimedCall} {final : TimedStore Cursor}
    (ran : (machine s).run (start keys cursor began) trace = some final) {route : String}
    {index : Nat} {k : KeyRecord} (found : final.store.keyAt route index = some k)
    (capped : k.capped = true) : 0 < s.budget.window := by
  refine run_keyAt (fun _ k => k.capped = true → 0 < s.budget.window) (fun fresh => ?_)
    (fun _ limited => limited) ?_ ?_ ran found capped
  · cases fresh
  · intro now k rolled limited capped
    rw [Store.advanceKey_capped, Bool.and_eq_true] at capped
    exact limited capped.2
  · intro now k changed change limited capped
    cases change with
    | untouched | leased => exact limited capped
    | settled sample =>
      rw [(s.settleLocked_capped k sample).1, Bool.or_eq_true, Bool.and_eq_true] at capped
      rcases capped with before | ⟨_, reached⟩
      · exact limited before
      · simp only [Store.overCap, Bool.and_eq_true, decide_eq_true_eq] at reached
        exact reached.1
    | retired deadline reason =>
      obtain ⟨_, _, retired⟩ := Store.retireLocked_spec k now deadline reason
      rw [retired] at capped
      exact limited capped

theorem TimedStore.run_current {s : Store Cursor} (window : s.budget.window ≤ Duration.maximum)
    {keys : String → Option Int} {cursor : Cursor} {began : Int} {trace : List TimedCall}
    {final : TimedStore Cursor} (ran : (machine s).run (start keys cursor began) trace = some final)
    {route : String} {now : Int} (ordered : final.clock ≤ now) {rs : RouteState}
    (known : final.store.routes route = some rs) :
    ∀ k ∈ s.poolAt final.store route now, s.Current (s.advanceLocked rs now) now k := by
  intro k member
  simp only [Store.poolAt, known, Store.advanceLocked_keys] at member
  obtain ⟨before, present, rfl⟩ := List.mem_map.mp member
  obtain ⟨index, found⟩ := List.getElem?_of_mem present
  refine Store.Current.of_advanced window (Int.le_trans (run_routes ran known).1 ordered)
    fun capped => ?_
  exact run_capped ran (StoreState.keyAt_eq_some.mpr ⟨rs, known, found⟩) capped

/-- The advertised seconds are the answer rounded up, so they cover the wait unless it was capped. -/
theorem writeUnavailable_covers (route code hint : String) (w cap : Int) :
    let answer := max minRetryAfter (min w cap)
    let advertised := (writeUnavailable route code hint answer).retryAfterSeconds * Duration.second
    answer ≤ advertised ∧ advertised < answer + Duration.second ∧ (w ≤ cap → w ≤ advertised) := by
  intro answer advertised
  have floor : Duration.second ≤ answer := Int.le_max_left _ _
  have rounded := wholeSeconds_spec (Int.le_trans (by decide) floor)
  refine ⟨rounded.2.1, rounded.2.2 floor, fun uncapped => ?_⟩
  refine Int.le_trans ?_ rounded.2.1
  simp only [answer, Int.min_eq_left uncapped]
  exact Int.le_max_right _ _

/-- `RetryAfter` reports no wait exactly if the route is unknown or a key is selectable.
Otherwise, while no key of the route is settled or retired, none is selectable before the
smallest wait `w` is over, and then one is exactly if there is a key whose retirement ends
within the range of a duration. The answer is `w`, capped and raised to the floor, and is
advertised rounded up to seconds. -/
theorem retry_after_exact (policy : RotationPolicy Cursor) (budget : Budget)
    (maxRetryAfter leaseTimeout : Int) (arithmetic : Arithmetic)
    -- a window is a `time.Duration`
    (window : budget.window ≤ Duration.maximum) (keys : String → Option Int) (cursor : Cursor)
    (began : Int) (trace : List TimedCall) (final : TimedStore Cursor)
    (ran : (TimedStore.machine
      (newStore policy budget maxRetryAfter leaseTimeout arithmetic)).run
      (.start keys cursor began) trace = some final)
    (route : String) (now : Int) (ordered : final.clock ≤ now) :
    let s := newStore policy budget maxRetryAfter leaseTimeout arithmetic
    let pool := s.poolAt final.store route now
    ((s.retryAfter final.store route now).2 = none ↔
        final.store.routes route = none ∨ ∃ k ∈ pool, selectableAt k now = true) ∧
      ∀ rs, final.store.routes route = some rs → (∀ k ∈ pool, selectableAt k now = false) →
        ∃ w, IsLeast { wait | ∃ k ∈ pool, wait = s.waitForLocked (s.advanceLocked rs now) k now } w ∧
          (∀ calm after later, (TimedStore.machine s).run ⟨final.store, now⟩ calm = some after →
            (∀ timed ∈ calm, Store.quietOn route timed.call = true ∧ timed.now ≤ later) →
            now ≤ later →
            (later < now + w → ∀ k ∈ s.poolAt after.store route later, selectableAt k later = false) ∧
              (later = now + w →
                ((∃ k ∈ s.poolAt after.store route later, selectableAt k later = true) ↔
                  ∃ k ∈ pool, ∀ deadline, k.retiredUntil = some deadline →
                    deadline ≤ now + Duration.maximum))) ∧
          (s.retryAfter final.store route now).2 =
            some (max minRetryAfter (min w s.maxRetryAfter)) ∧
          ∀ code hint,
            let answer := max minRetryAfter (min w s.maxRetryAfter)
            let advertised :=
              (writeUnavailable route code hint answer).retryAfterSeconds * Duration.second
            answer ≤ advertised ∧ advertised < answer + Duration.second ∧
              (w ≤ s.maxRetryAfter → w ≤ advertised) := by
  intro s pool
  have current : ∀ rs, final.store.routes route = some rs → ∀ k ∈ pool,
      s.Current (s.advanceLocked rs now) now k :=
    fun _ known => TimedStore.run_current window ran ordered known
  have answers : ∀ rs, final.store.routes route = some rs → _ := fun rs known =>
    Store.retryAfter_cases known (TimedStore.run_routes ran known).2 fun k member =>
      (current rs known k member).waitForLocked_nonneg
  constructor
  · cases known : final.store.routes route with
    | none => simp [Store.retryAfter, known]
    | some rs =>
      simp only [reduceCtorEq, false_or]
      rcases answers rs known with ⟨usable, answer⟩ | ⟨out, w, _, answer⟩
      · exact iff_of_true answer usable
      · exact iff_of_false (by simp [answer]) (forall_eq_false_iff.mp out)
  · intro rs known out
    rcases answers rs known with ⟨usable, _⟩ | ⟨_, w, isLeast, answer⟩
    · exact absurd usable (forall_eq_false_iff.mp out)
    · refine ⟨w, isLeast, ?_, answer, fun code hint => writeUnavailable_covers route code hint w _⟩
      intro calm after later calmly quiet passed
      have same := Store.selectable_of_quiet_run calmly quiet
      have found : (∃ k ∈ s.poolAt after.store route later, selectableAt k later = true) ↔
          ∃ k ∈ pool, now + s.timeOut (s.advanceLocked rs now) k now ≤ later := by
        rw [← Store.exists_selectable_later_iff window known (current rs known) passed]
        simpa only [List.mem_map] using iff_of_eq (congrArg (true ∈ ·) same)
      constructor
      · intro early
        refine forall_eq_false_iff.mpr fun usable => ?_
        obtain ⟨free, among, lapses⟩ := found.mp usable
        have := Store.le_timeOut_of_isLeast (current rs known) isLeast free among
        omega
      · rintro rfl
        rw [found, ← Store.exists_timeOut_le_iff window (current rs known) isLeast]
        simp only [Int.add_le_add_iff_left]

def oneKey : String → Option Int := fun route => if route = "chat" then some 1 else none

def spentRun : Option (TimedStore Unit) :=
  (TimedStore.machine (newStore firstKey singleRequestBudget 0 0 .machine)).run (.start oneKey () 0)
    [⟨1, .reserve "chat"⟩, ⟨2, .recordSample "chat" 0 ⟨.completed, 7, false⟩⟩]

theorem retry_after_exact_spent :
    ∃ final rs w, spentRun = some final ∧ final.store.routes "chat" = some rs ∧
      let s := newStore firstKey singleRequestBudget 0 0 .machine
      IsLeast { wait | ∃ k ∈ s.poolAt final.store "chat" 3,
        wait = s.waitForLocked (s.advanceLocked rs 3) k 3 } w ∧
      (s.retryAfter final.store "chat" 3).2 = some (max minRetryAfter (min w s.maxRetryAfter)) := by
  have ran : spentRun = some _ := rfl
  obtain ⟨_, waits⟩ := retry_after_exact firstKey singleRequestBudget 0 0 .machine (by decide) oneKey
    () 0 [⟨1, .reserve "chat"⟩, ⟨2, .recordSample "chat" 0 ⟨.completed, 7, false⟩⟩] _ ran "chat" 3
    (by decide)
  obtain ⟨w, isLeast, _, answer, _⟩ := waits _ rfl (by decide +kernel)
  exact ⟨_, _, w, ran, rfl, isLeast, answer⟩

def farRun : Option (TimedStore Unit) :=
  (TimedStore.machine (newStore firstKey singleRequestBudget 0 0 .machine)).run (.start oneKey () 0)
    [⟨1, .retireWithReason "chat" 0 (2 ^ 64) .quota⟩]

theorem retry_after_far_deadline :
    ∃ final rs k, farRun = some final ∧ final.store.routes "chat" = some rs ∧
      let s := newStore firstKey singleRequestBudget 0 0 .machine
      s.poolAt final.store "chat" 2 = [k] ∧ selectableAt k 2 = false ∧
        s.waitForLocked (s.advanceLocked rs 2) k 2 = Duration.maximum ∧
        ∀ k ∈ s.poolAt final.store "chat" (2 + Duration.maximum),
          selectableAt k (2 + Duration.maximum) = false := by
  have ran : farRun = some _ := rfl
  exact ⟨_, _, _, ran, rfl, rfl, by decide +kernel, by decide +kernel, by decide +kernel⟩

end ClusterRouter.Channel
