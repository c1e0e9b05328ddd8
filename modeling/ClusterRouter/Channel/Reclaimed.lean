import ClusterRouter.Channel.InFlight

/-! Each slot taken back raises `reclaimed` and `orphaned` by one, and a settlement that finds
an orphan consumes it. If the reservation it settles was not overdue, its own slot goes stale
and is counted as another leak. -/

set_option autoImplicit false

namespace ClusterRouter.Channel

open Foundation

variable {Cursor : Type}

def Settlement.late (timeout : Int) (entry : Settlement) : Bool :=
  decide (entry.reservation.takenAt ≤ entry.settledAt - timeout)

namespace LeaseSession

def leaked (session : LeaseSession Cursor) (timeout : Int) (route : String) (index : Nat) : Nat :=
  (session.taken route index).countP (fun instant => decide (instant ≤ session.clock - timeout)) +
    (session.settledOn route index).countP (Settlement.late timeout)

/-- A settlement of a key with an orphan, or with a slot that is about to become one, is of
a reservation that has reached the timeout. -/
def settlesOverdue (s : Store Cursor) (route : String) (index : Nat) (session : LeaseSession Cursor)
    (event : LeaseEvent) : Bool :=
  match event.action with
  | .call _ => true
  | .settle reservation _ =>
    !reservation.isOn route index ||
      decide (reservation.takenAt ≤ event.now - s.leaseTimeout) ||
      match session.store.keyAt route index with
      | none => true
      | some k =>
        decide (k.orphaned = 0) &&
          k.leases.all (fun lease => decide (event.now - s.leaseTimeout < lease))

end LeaseSession

variable {s : Store Cursor}

theorem Store.advanceKey_orphaned_eq_zero {rolled : Bool} {now : Int} {k : KeyRecord}
    (clean : k.orphaned = 0) (live : ∀ lease ∈ k.leases, now - s.leaseTimeout < lease) :
    (s.advanceKey rolled now k).orphaned = 0 := by
  obtain ⟨n, available, stale, _, orphaned, _⟩ := s.advanceKey_slots rolled now k
  cases n with
  | zero => simp [orphaned, clean]
  | succ n =>
    obtain ⟨first, rest, split⟩ := List.exists_cons_of_length_pos (Nat.lt_of_lt_of_le n.succ_pos available)
    have old := stale first (by simp [split])
    have young := live first (by simp [split])
    omega

theorem LeaseSession.late_of_orphaned {session : LeaseSession Cursor} {event : LeaseEvent}
    {route : String} {index : Nat} {before : KeyRecord} {rolled : Bool}
    {reservation : Reservation} {sample : UsageSample}
    (overdue : settlesOverdue s route index session event = true)
    (present : session.store.keyAt route index = some before)
    (action : event.action = .settle reservation sample)
    (onKey : reservation.route = route ∧ reservation.index = index)
    (orphan : 0 < (s.advanceKey rolled event.now before).orphaned) :
    reservation.takenAt ≤ event.now - s.leaseTimeout := by
  have named : reservation.isOn route index = true := decide_eq_true onKey
  simp only [settlesOverdue, action, named, present, Bool.not_true, Bool.false_or, Bool.or_eq_true,
    Bool.and_eq_true, decide_eq_true_eq, List.all_eq_true] at overdue
  rcases overdue with old | ⟨clean, live⟩
  · exact old
  · rw [Store.advanceKey_orphaned_eq_zero clean live] at orphan
    cases orphan

theorem reclaimed_le_orphaned_add_late {session next : LeaseSession Cursor} {event : LeaseEvent}
    {route : String} {index : Nat} {before after : KeyRecord}
    (overdue : LeaseSession.settlesOverdue s route index session event = true)
    (present : session.store.keyAt route index = some before)
    (effect : LeaseSession.KeyEffect s session event next route index before after)
    (counted : before.reclaimed ≤
      before.orphaned + (session.settledOn route index).countP (Settlement.late s.leaseTimeout)) :
    after.reclaimed ≤
      after.orphaned + (next.settledOn route index).countP (Settlement.late s.leaseTimeout) := by
  have advanced (rolled : Bool) : (s.advanceKey rolled event.now before).reclaimed ≤
      (s.advanceKey rolled event.now before).orphaned +
        (session.settledOn route index).countP (Settlement.late s.leaseTimeout) := by
    obtain ⟨n, _, _, _, orphaned, reclaimed⟩ := s.advanceKey_slots rolled event.now before
    omega
  cases effect with
  | passedBy held logged => rwa [logged]
  | advanced rolled held logged | leased rolled held logged =>
    rw [logged]
    exact advanced rolled
  | settled rolled reservation sample windowStart action onKey held logged =>
    have settled := s.settleLocked_spec (s.advanceKey rolled event.now before) (Store.normalise sample)
    have bound := advanced rolled
    rw [logged, settled.reclaimed, settled.orphaned, List.countP_append]
    unfold releaseLocked
    split
    next orphan =>
      have old := LeaseSession.late_of_orphaned overdue present action onKey orphan
      have late : [Settlement.mk reservation event.now windowStart sample.outcome].countP
          (Settlement.late s.leaseTimeout) = 1 := by simp [Settlement.late, old]
      rw [late]
      simp only
      omega
    next => omega
  | retired rolled deadline reason held logged =>
    obtain ⟨_, _, retired⟩ :=
      Store.retireLocked_spec (s.advanceKey rolled event.now before) event.now deadline reason
    rw [logged, retired]
    exact advanced rolled

theorem SlotsMatched.orphaned_le {timeout clock : Int} {k : KeyRecord} {held : List Int}
    (matched : SlotsMatched timeout clock k held) :
    k.orphaned ≤ held.countP (fun instant => decide (instant ≤ clock - timeout)) := by
  have slots := matched.slots
  have young := matched.young (clock - timeout) (Int.le_refl _)
  have counted : takenAfter (clock - timeout) k.leases ≤ k.inFlight := List.countP_le_length
  have split : held.length = takenAfter (clock - timeout) held +
      held.countP (fun instant => decide (instant ≤ clock - timeout)) := by
    rw [takenAfter, List.length_eq_countP_add_countP (fun instant => decide (clock - timeout < instant))]
    congr 2
    funext instant
    simp
  omega

/-- While every settlement that finds an orphan is of an overdue reservation, the counter of
reclaimed slots is at most the number of reservations that leaked. -/
theorem reclaimed_le_leaked (s : Store Cursor) (keys : String → Option Int) (cursor : Cursor)
    (start : Int) (trace : List LeaseEvent) (final : LeaseSession Cursor)
    (ran : (LeaseSession.machine s).run (.start keys cursor start) trace = some final)
    (route : String) (index : Nat)
    (overdue : (LeaseSession.machine s).Meets
      (fun session event => LeaseSession.settlesOverdue s route index session event = true)
      (.start keys cursor start) trace)
    (k : KeyRecord) (found : final.store.keyAt route index = some k) :
    k.reclaimed ≤ final.leaked s.leaseTimeout route index := by
  have counted := LeaseSession.key_invariant
    (fun session k => k.reclaimed ≤
      k.orphaned + (session.settledOn route index).countP (Settlement.late s.leaseTimeout))
    (fun met _ _ present effect => reclaimed_le_orphaned_add_late met present effect) overdue ran
    (fun k present => by simp [LeaseSession.start_keyAt present]) k found
  have covered := (LeaseSession.matched_of_run ran found).orphaned_le
  unfold LeaseSession.leaked
  omega

theorem reclaimed_le_leaked_late :
    ∃ final k,
      (LeaseSession.machine leakyStore).run (.start (fun _ => some 1) () 0)
        [⟨1, .call (.reserve "chat")⟩, ⟨11, .settle ⟨"chat", 0, 1⟩ ⟨.completed, 7, false⟩⟩] = some final ∧
      final.store.keyAt "chat" 0 = some k ∧ k.reclaimed = 1 ∧
      k.reclaimed ≤ final.leaked leakyStore.leaseTimeout "chat" 0 := by
  have facts : ((LeaseSession.machine leakyStore).run (.start (fun _ => some 1) () 0)
      [⟨1, .call (.reserve "chat")⟩, ⟨11, .settle ⟨"chat", 0, 1⟩ ⟨.completed, 7, false⟩⟩]).map
        (fun final => final.store.keyAt "chat" 0) =
      some (some { requests := 1, tokens := 7, reclaimed := 1 }) := by
    decide +kernel
  obtain ⟨final, ran, found⟩ := Option.map_eq_some_iff.mp facts
  exact ⟨final, _, ran, found, rfl,
    reclaimed_le_leaked leakyStore _ () 0 _ final ran "chat" 0 (by decide +kernel) _ found⟩

/-- After one leak a request that settles within the timeout is counted as another. -/
theorem reclaimed_counts_settled_request :
    ∃ final k,
      (LeaseSession.machine leakyStore).run (.start (fun _ => some 1) () 0)
        (leakyTrace ++ [⟨22, .call (.snapshot "chat")⟩]) = some final ∧
      final.store.keyAt "chat" 0 = some k ∧ k.reclaimed = 2 ∧
      final.leaked leakyStore.leaseTimeout "chat" 0 = 1 := by
  have facts : ((LeaseSession.machine leakyStore).run (.start (fun _ => some 1) () 0)
      (leakyTrace ++ [⟨22, .call (.snapshot "chat")⟩])).map
        (fun final => (final.store.keyAt "chat" 0, final.leaked leakyStore.leaseTimeout "chat" 0)) =
      some (some { requests := 1, tokens := 7, orphaned := 1, reclaimed := 2 }, 1) := by
    decide +kernel
  obtain ⟨final, ran, reached⟩ := Option.map_eq_some_iff.mp facts
  obtain ⟨found, leaks⟩ := Prod.mk.inj reached
  exact ⟨final, _, ran, found, rfl, leaks⟩

end ClusterRouter.Channel
