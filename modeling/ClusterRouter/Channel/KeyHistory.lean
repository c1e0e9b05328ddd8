import ClusterRouter.Channel.LeaseSession

/-! What one step of a session does to one key, to the reservations held on it and to the
settlements made: it passes the key by, or advances it and then leases, settles or retires it.
-/

set_option autoImplicit false

namespace ClusterRouter.Channel

open Foundation

variable {Cursor : Type}

namespace LeaseSession

section Key

variable (session : LeaseSession Cursor) (route : String) (index : Nat)

def taken : List Int :=
  (session.unsettled.filter (fun reservation => reservation.isOn route index)).map Reservation.takenAt

def settledOn : List Settlement :=
  session.settlements.filter (fun entry => entry.reservation.isOn route index)

theorem taken_perform (s : Store Cursor) (now : Int) (c : Store.Call) :
    (session.perform s now c).taken route index = session.taken route index ++
      if c.route = route ∧ (s.call session.store now c).2.reservation = some index then [now]
      else [] := by
  unfold taken
  rw [unsettled_perform, List.filter_append, List.map_append]
  congr 1
  cases (s.call session.store now c).2.reservation with
  | none => simp
  | some i =>
    by_cases same : c.route = route ∧ i = index
    · simp [Reservation.isOn, same]
    · simp [Reservation.isOn, same]

theorem settledOn_perform (s : Store Cursor) (now : Int) (c : Store.Call) :
    (session.perform s now c).settledOn route index = session.settledOn route index := rfl

theorem taken_settle (s : Store Cursor) (now : Int) {reservation : Reservation}
    (sample : UsageSample) (held : reservation ∈ session.unsettled) :
    (session.taken route index).Perm
      ((if reservation.isOn route index then [reservation.takenAt] else []) ++
        (session.settle s now reservation sample).taken route index) := by
  have moved : (session.taken route index).Perm
      (((reservation :: session.unsettled.erase reservation).filter
        (fun reservation => reservation.isOn route index)).map Reservation.takenAt) :=
    ((List.perm_cons_erase held).filter _).map _
  refine moved.trans (List.Perm.of_eq ?_)
  unfold taken settle
  cases on : reservation.isOn route index with
  | false => simp [on]
  | true => simp [on]

theorem settledOn_settle (s : Store Cursor) (now : Int) (reservation : Reservation)
    (sample : UsageSample) :
    ∃ windowStart, (session.settle s now reservation sample).settledOn route index =
      session.settledOn route index ++
        if reservation.isOn route index then [⟨reservation, now, windowStart, sample.outcome⟩]
        else [] := by
  refine ⟨(session.settle s now reservation sample).store.windowStart reservation.route, ?_⟩
  unfold settledOn
  simp only [settle, List.filter_append]
  cases on : reservation.isOn route index with
  | false => simp [on]
  | true => simp [on]

end Key

/-- What a step of a session does to one key and to what its callers know of it. -/
inductive KeyEffect (s : Store Cursor) (session : LeaseSession Cursor) (event : LeaseEvent)
    (next : LeaseSession Cursor) (route : String) (index : Nat) (before : KeyRecord) :
    KeyRecord → Prop where
  | passedBy (held : (session.taken route index).Perm (next.taken route index))
      (logged : next.settledOn route index = session.settledOn route index) :
      KeyEffect s session event next route index before before
  | advanced (rolled : Bool) (held : (session.taken route index).Perm (next.taken route index))
      (logged : next.settledOn route index = session.settledOn route index) :
      KeyEffect s session event next route index before (s.advanceKey rolled event.now before)
  | leased (rolled : Bool)
      (held : next.taken route index = session.taken route index ++ [event.now])
      (logged : next.settledOn route index = session.settledOn route index) :
      KeyEffect s session event next route index before
        { s.advanceKey rolled event.now before with
          leases := (s.advanceKey rolled event.now before).leases ++ [event.now] }
  | settled (rolled : Bool) (reservation : Reservation) (sample : UsageSample) (windowStart : Int)
      (action : event.action = .settle reservation sample)
      (onKey : reservation.route = route ∧ reservation.index = index)
      (held : (session.taken route index).Perm (reservation.takenAt :: next.taken route index))
      (logged : next.settledOn route index = session.settledOn route index ++
        [⟨reservation, event.now, windowStart, sample.outcome⟩]) :
      KeyEffect s session event next route index before
        (s.settleLocked (s.advanceKey rolled event.now before) (Store.normalise sample)).1
  | retired (rolled : Bool) (deadline : Int) (reason : RetireReason)
      (held : (session.taken route index).Perm (next.taken route index))
      (logged : next.settledOn route index = session.settledOn route index) :
      KeyEffect s session event next route index before
        (Store.retireLocked (s.advanceKey rolled event.now before) event.now deadline reason).1

variable {s : Store Cursor} {session next final : LeaseSession Cursor} {event : LeaseEvent}
    {route : String} {index : Nat} {after : KeyRecord} {keys : String → Option Int}
    {cursor : Cursor} {now : Int} {trace : List LeaseEvent}

theorem perform_key {c : Store.Call} (unsettling : isSettlement c = false)
    (found : (session.perform s event.now c).store.keyAt route index = some after) :
    ∃ before, session.store.keyAt route index = some before ∧
      KeyEffect s session event (session.perform s event.now c) route index before after := by
  have held := session.taken_perform route index s event.now c
  have logged := session.settledOn_perform route index s event.now c
  obtain ⟨rs, known, present⟩ := StoreState.keyAt_eq_some.mp found
  cases s.call_cases session.store event.now c with
  | refused same declined absent =>
    have kept : session.store.keyAt route index = some after :=
      StoreState.keyAt_eq_some.mpr ⟨rs, same ▸ known, present⟩
    rw [declined] at held
    exact ⟨after, kept, .passedBy (.of_eq (by simp [held])) logged⟩
  | advanced prior touched change registered touch result =>
    have routes : (session.perform s event.now c).store.routes route = _ := congrFun result route
    rw [known, StoreState.setRoute_routes] at routes
    by_cases onRoute : route = c.route
    · subst onRoute
      rw [if_pos rfl] at routes
      cases routes
      obtain ⟨before, isBefore, rfl⟩ := Store.modified_key present
      refine ⟨before, StoreState.keyAt_eq_some.mpr ⟨prior, registered, isBefore⟩, ?_⟩
      generalize (s.call session.store event.now c).2 = response at touch held
      generalize session.perform s event.now c = next at *
      by_cases same : touched = index
      · subst same
        rw [if_pos rfl]
        cases touch with
        | idle unnamed declined => exact .advanced _ (.of_eq (by simp [held, declined])) logged
        | leased key admissible =>
          exact .leased _ (by simpa [Store.Response.reservation] using held) logged
        | settled declined => cases unsettling
        | retired declined | parked declined =>
          exact .retired _ _ _ (.of_eq (by simp [held, declined])) logged
      · have elsewhere : response.reservation ≠ some index :=
          fun granted => same (touch.of_reservation granted).1
        rw [if_neg same]
        exact .advanced _ (.of_eq (by simp [held, elsewhere])) logged
    · rw [if_neg onRoute] at routes
      have elsewhere : c.route ≠ route := fun same => onRoute same.symm
      exact ⟨after, StoreState.keyAt_eq_some.mpr ⟨rs, routes.symm, present⟩,
        .passedBy (.of_eq (by simp [held, elsewhere])) logged⟩

theorem settle_key {reservation : Reservation} {sample : UsageSample}
    (action : event.action = .settle reservation sample)
    (member : reservation ∈ session.unsettled)
    (found : (session.settle s event.now reservation sample).store.keyAt route index = some after) :
    ∃ before, session.store.keyAt route index = some before ∧
      KeyEffect s session event (session.settle s event.now reservation sample) route index before
        after := by
  have held := session.taken_settle route index s event.now sample member
  obtain ⟨windowStart, logged⟩ := session.settledOn_settle route index s event.now reservation sample
  obtain ⟨rs, known, present⟩ := StoreState.keyAt_eq_some.mp found
  have elsewhere (off : reservation.isOn route index = false) :
      (session.taken route index).Perm
          ((session.settle s event.now reservation sample).taken route index) ∧
        (session.settle s event.now reservation sample).settledOn route index =
          session.settledOn route index := by
    simpa [off] using And.intro held logged
  have effect := s.call_cases session.store event.now
    (.recordSample reservation.route reservation.index sample)
  cases effect with
  | refused same declined absent =>
    have kept : session.store.keyAt route index = some after :=
      StoreState.keyAt_eq_some.mpr ⟨rs, same ▸ known, present⟩
    -- The key that the settlement names is absent, and this one is not.
    have off : reservation.isOn route index = false := by
      simp only [Reservation.isOn, decide_eq_false_iff_not]
      rintro ⟨rfl, rfl⟩
      have missing := absent reservation.index rfl
      rw [Store.Call.route, kept] at missing
      cases missing
    exact ⟨after, kept, .passedBy (elsewhere off).1 (elsewhere off).2⟩
  | advanced prior touched change registered touch result =>
    obtain ⟨rfl, rfl⟩ := touch.of_recordSample
    have routes : (session.settle s event.now reservation sample).store.routes route = _ :=
      congrFun result route
    rw [known, StoreState.setRoute_routes] at routes
    by_cases onRoute : route = reservation.route
    · subst onRoute
      cases routes.trans (if_pos rfl)
      obtain ⟨before, isBefore, rfl⟩ := Store.modified_key present
      refine ⟨before, StoreState.keyAt_eq_some.mpr ⟨prior, registered, isBefore⟩, ?_⟩
      by_cases same : reservation.index = index
      · have on : reservation.isOn reservation.route index = true := by simp [Reservation.isOn, same]
        rw [if_pos same]
        exact .settled _ reservation sample windowStart action ⟨rfl, same⟩
          (by simpa [on] using held) (by simpa [on] using logged)
      · have off : reservation.isOn reservation.route index = false := by
          simp [Reservation.isOn, same]
        rw [if_neg same]
        exact .advanced _ (elsewhere off).1 (elsewhere off).2
    · have different : reservation.route ≠ route := fun same => onRoute same.symm
      have off : reservation.isOn route index = false := by simp [Reservation.isOn, different]
      have kept := (routes.trans (if_neg onRoute)).symm
      exact ⟨after, StoreState.keyAt_eq_some.mpr ⟨rs, kept, present⟩,
        .passedBy (elsewhere off).1 (elsewhere off).2⟩

theorem step_clock (stepped : step s session event = some next) :
    session.clock ≤ event.now ∧ next.clock = event.now := by
  obtain ⟨ordered, ⟨_, _, _, _, rfl⟩ | ⟨_, _, _, rfl⟩⟩ := step_cases stepped
  · exact ⟨ordered, rfl⟩
  · exact ⟨ordered, rfl⟩

theorem step_key (stepped : step s session event = some next)
    (found : next.store.keyAt route index = some after) :
    ∃ before, session.store.keyAt route index = some before ∧
      KeyEffect s session event next route index before after := by
  obtain ⟨_, ⟨reservation, sample, action, member, rfl⟩ | ⟨c, _, unsettling, rfl⟩⟩ := step_cases stepped
  · exact settle_key action member found
  · exact perform_key unsettling found

theorem start_keyAt {k : KeyRecord}
    (found : (start keys cursor now).store.keyAt route index = some k) : k = {} := by
  obtain ⟨rs, known, present⟩ := StoreState.keyAt_eq_some.mp found
  exact (newStoreState_routes known).2 k (List.mem_of_getElem? present)

theorem key_invariant {condition : LeaseSession Cursor → LeaseEvent → Prop}
    (invariant : LeaseSession Cursor → KeyRecord → Prop)
    (preserved : ∀ {session next : LeaseSession Cursor} {event : LeaseEvent}
      {before after : KeyRecord}, condition session event → session.clock ≤ event.now →
      next.clock = event.now → session.store.keyAt route index = some before →
      KeyEffect s session event next route index before after →
      invariant session before → invariant next after)
    (meets : (machine s).Meets condition session trace)
    (ran : (machine s).run session trace = some final)
    (starts : ∀ k, session.store.keyAt route index = some k → invariant session k) :
    ∀ k, final.store.keyAt route index = some k → invariant final k := by
  refine Machine.run_invariant_of_meets _
    (fun session => ∀ k, session.store.keyAt route index = some k → invariant session k) ?_ meets ran
    starts
  intro session event next met stepped holds after found
  obtain ⟨before, present, effect⟩ := step_key stepped found
  obtain ⟨ordered, clock⟩ := step_clock stepped
  exact preserved met ordered clock present effect (holds before present)

/-! ## A key and the number of reservations held on it -/

theorem leased_key (stepped : step s session event = some next) {before : KeyRecord}
    (present : session.store.keyAt route index = some before)
    (found : next.store.keyAt route index = some after)
    (grown : next.taken route index = session.taken route index ++ [event.now]) :
    ∃ rolled, s.admissibleLocked (s.advanceKey rolled event.now before) event.now = true ∧
      after = { s.advanceKey rolled event.now before with
        leases := (s.advanceKey rolled event.now before).leases ++ [event.now] } := by
  obtain ⟨_, ⟨reservation, sample, _, member, rfl⟩ | ⟨c, _, _, rfl⟩⟩ := step_cases stepped
  · have fewer := (session.taken_settle route index s event.now sample member).length_eq
    rw [grown, List.length_append, List.length_append, List.length_singleton] at fewer
    omega
  · have held := session.taken_perform route index s event.now c
    obtain ⟨rs, known, place⟩ := StoreState.keyAt_eq_some.mp found
    rw [grown, List.append_cancel_left_eq] at held
    have granted : c.route = route ∧
        (s.call session.store event.now c).2.reservation = some index := by
      by_contra other
      rw [if_neg other] at held
      cases held
    obtain ⟨rfl, granted⟩ := granted
    cases s.call_cases session.store event.now c with
    | refused same declined absent =>
      rw [declined] at granted
      cases granted
    | advanced prior touched change registered touch result =>
      have routes : (session.perform s event.now c).store.routes c.route = _ :=
        congrFun result c.route
      rw [known, StoreState.setRoute_routes, if_pos rfl] at routes
      cases routes
      obtain ⟨earlier, isEarlier, rfl⟩ := Store.modified_key place
      cases present.symm.trans (StoreState.keyAt_eq_some.mpr ⟨prior, registered, isEarlier⟩)
      refine ⟨s.expired prior event.now, ?_⟩
      generalize (s.call session.store event.now c).2 = response at touch granted
      cases touch with
      | leased key admissible =>
        cases granted
        rw [s.advanceLocked_getElem?, isEarlier] at key
        cases key
        exact ⟨admissible, if_pos rfl⟩
      | idle _ declined | settled declined | retired declined | parked declined =>
        rw [declined] at granted
        cases granted

theorem outstanding_invariant {allowed : UsageSample → Prop} (invariant : Nat → KeyRecord → Prop)
    (fresh : invariant 0 {})
    (advanced : ∀ {held : Nat} {now : Int} {k : KeyRecord} (rolled : Bool), invariant held k →
      invariant held (s.advanceKey rolled now k))
    (leased : ∀ {held : Nat} {now : Int} {k : KeyRecord}, s.admissibleLocked k now = true →
      invariant held k → invariant (held + 1) { k with leases := k.leases ++ [now] })
    (settled : ∀ {held : Nat} {k : KeyRecord} {sample : UsageSample}, allowed sample →
      invariant (held + 1) k → invariant held (s.settleLocked k (Store.normalise sample)).1)
    (retired : ∀ {held : Nat} {now : Int} {k : KeyRecord} (deadline : Int) (reason : RetireReason),
      invariant held k → invariant held (Store.retireLocked k now deadline reason).1)
    {began : Int}
    (samples : ∀ event ∈ trace, ∀ reservation sample,
      event.action = .settle reservation sample → allowed sample)
    (ran : (machine s).run (start keys cursor began) trace = some final) {k : KeyRecord}
    (found : final.store.keyAt route index = some k) :
    invariant (final.taken route index).length k := by
  refine (machine s).run_invariant_of_meets
    (fun session => ∀ k, session.store.keyAt route index = some k →
      invariant (session.taken route index).length k) ?_
    ((machine s).meets_of_forall samples _) ran ?_ k found
  · intro session event next permitted stepped holds after found
    obtain ⟨before, present, effect⟩ := step_key stepped found
    have still := holds before present
    cases effect with
    | passedBy held logged => rwa [← held.length_eq]
    | advanced rolled held logged =>
      rw [← held.length_eq]
      exact advanced rolled still
    | leased rolled held logged =>
      obtain ⟨due, admissible, isLeased⟩ := leased_key stepped present found held
      rw [isLeased, held, List.length_append]
      exact leased admissible (advanced due still)
    | settled rolled reservation sample windowStart action onKey held logged =>
      rw [held.length_eq, List.length_cons] at still
      exact settled (permitted reservation sample action) (advanced rolled still)
    | retired rolled deadline reason held logged =>
      rw [← held.length_eq]
      exact retired deadline reason (advanced rolled still)
  · intro k found
    rw [start_keyAt found]
    exact fresh

/-! ## The keys of reservations -/

theorem keyAt_of_reservation {state : StoreState Cursor} {c : Store.Call}
    (granted : (s.call state now c).2.reservation = some index) :
    (state.keyAt c.route index).isSome = true := by
  obtain ⟨rs, k, registered, present, -⟩ := Store.call_of_reservation granted
  rw [StoreState.keyAt_eq_some.mpr ⟨rs, registered, present⟩]
  rfl

theorem index_lt_of_keyAt (ran : (machine s).run (start keys cursor now) trace = some final) :
    ∀ route index, (final.store.keyAt route index).isSome = true →
      ∃ count, keys route = some count ∧ (index : Int) < count := by
  refine Machine.run_invariant _
    (fun session => ∀ route (index : Nat), (session.store.keyAt route index).isSome = true →
      ∃ count, keys route = some count ∧ (index : Int) < count) ?_ ran ?_
  · intro session event next stepped bounded route index present
    have earlier : (session.store.keyAt route index).isSome = true := by
      obtain ⟨k, found⟩ := Option.isSome_iff_exists.mp present
      obtain ⟨_, ⟨settling, sample, _, _, rfl⟩ | ⟨c, _, _, rfl⟩⟩ := step_cases stepped
      · obtain ⟨before, known, _⟩ := Store.call_keyAt found
        exact Option.isSome_of_eq_some known
      · obtain ⟨before, known, _⟩ := Store.call_keyAt found
        exact Option.isSome_of_eq_some known
    exact bounded route index earlier
  · intro route index present
    obtain ⟨k, found⟩ := Option.isSome_iff_exists.mp present
    obtain ⟨rs, known, there⟩ := StoreState.keyAt_eq_some.mp found
    simp only [start, newStoreState] at known
    split at known
    · cases known
    next count declared =>
      split at known
      · cases known
      · cases known
        have inside := (List.getElem?_eq_some_iff.mp there).1
        rw [List.length_replicate] at inside
        exact ⟨count, declared, by omega⟩

theorem held_keyAt (ran : (machine s).run (start keys cursor now) trace = some final) :
    ∀ reservation ∈ final.unsettled,
      (final.store.keyAt reservation.route reservation.index).isSome = true := by
  refine Machine.run_invariant _
    (fun session => ∀ reservation ∈ session.unsettled,
      (session.store.keyAt reservation.route reservation.index).isSome = true) ?_ ran (by simp [start])
  intro session event next stepped held
  obtain ⟨_, ⟨settling, sample, _, _, rfl⟩ | ⟨c, _, _, rfl⟩⟩ := step_cases stepped
  · intro reservation member
    exact Store.call_keyAt_isSome (held reservation (List.mem_of_mem_erase member))
  · intro reservation member
    rw [unsettled_perform] at member
    rcases List.mem_append.mp member with earlier | new
    · exact Store.call_keyAt_isSome (held reservation earlier)
    · obtain ⟨index, granted, rfl⟩ := Option.map_eq_some_iff.mp (Option.mem_toList.mp new)
      exact Store.call_keyAt_isSome (keyAt_of_reservation granted)

end LeaseSession

end ClusterRouter.Channel
