import ClusterRouter.Channel.KeyHistory

/-! A settlement does not say which reservation it settles. The slots of a key and the
reservations its callers hold stay matched all the same: with the orphans they are as many, and
after any instant within the lease timeout at least as many slots as reservations were taken. -/

set_option autoImplicit false

namespace ClusterRouter.Channel

open Foundation

variable {Cursor : Type}

def takenAfter (cutoff : Int) (instants : List Int) : Nat :=
  instants.countP (fun instant => decide (cutoff < instant))

/-- The slots of a key are matched with the instants at which the reservations held on it
were taken. -/
structure SlotsMatched (timeout clock : Int) (k : KeyRecord) (held : List Int) : Prop where
  slots : k.inFlight + k.orphaned = held.length
  ordered : k.leases.Pairwise (· ≤ ·)
  begun : ∀ lease ∈ k.leases, lease ≤ clock
  young : ∀ cutoff, clock - timeout ≤ cutoff → takenAfter cutoff held ≤ takenAfter cutoff k.leases

namespace SlotsMatched

variable {s : Store Cursor} {timeout clock now : Int} {k changed : KeyRecord} {held : List Int}

theorem fresh : SlotsMatched timeout clock {} [] where
  slots := rfl
  ordered := .nil
  begun := by simp
  young := by simp

theorem later (matched : SlotsMatched timeout clock k held) (passed : clock ≤ now) :
    SlotsMatched timeout now k held where
  slots := matched.slots
  ordered := matched.ordered
  begun lease member := Int.le_trans (matched.begun lease member) passed
  young cutoff recent := matched.young cutoff (by omega)

theorem perm {other : List Int} (matched : SlotsMatched timeout clock k held) (same : held.Perm other) :
    SlotsMatched timeout clock k other where
  slots := matched.slots.trans same.length_eq
  ordered := matched.ordered
  begun := matched.begun
  young cutoff recent := by
    unfold takenAfter
    rw [← same.countP_eq]
    exact matched.young cutoff recent

theorem sameSlots (matched : SlotsMatched timeout clock k held) (leases : changed.leases = k.leases)
    (orphaned : changed.orphaned = k.orphaned) : SlotsMatched timeout clock changed held := by
  obtain ⟨slots, ordered, begun, young⟩ := matched
  unfold KeyRecord.inFlight at slots
  refine ⟨?_, leases ▸ ordered, leases ▸ begun, leases ▸ young⟩
  unfold KeyRecord.inFlight
  rw [leases, orphaned]
  exact slots

theorem advanceKey (rolled : Bool) (matched : SlotsMatched s.leaseTimeout clock k held)
    (passed : clock ≤ now) :
    SlotsMatched s.leaseTimeout now (s.advanceKey rolled now k) held := by
  obtain ⟨n, available, stale, leases, orphaned, _⟩ := s.advanceKey_slots rolled now k
  obtain ⟨slots, ordered, begun, young⟩ := matched.later passed
  refine ⟨?_, ?_, ?_, fun cutoff recent => ?_⟩
  · unfold KeyRecord.inFlight at slots ⊢
    rw [leases, orphaned, List.length_drop]
    omega
  · rw [leases]
    exact ordered.drop
  · rw [leases]
    exact fun lease member => begun lease (List.mem_of_mem_drop member)
  · have untaken : takenAfter cutoff (k.leases.take n) = 0 := by
      refine List.countP_eq_zero.mpr fun lease member => ?_
      have := stale lease member
      simp only [decide_eq_true_eq]
      omega
    have whole : takenAfter cutoff (k.leases.take n) + takenAfter cutoff (k.leases.drop n) =
        takenAfter cutoff k.leases := by
      unfold takenAfter
      rw [← List.countP_append, List.take_append_drop]
    have := young cutoff recent
    rw [leases]
    omega

theorem lease (matched : SlotsMatched timeout now k held) :
    SlotsMatched timeout now { k with leases := k.leases ++ [now] } (held ++ [now]) := by
  obtain ⟨slots, ordered, begun, young⟩ := matched
  refine ⟨?_, ?_, ?_, fun cutoff recent => ?_⟩
  · unfold KeyRecord.inFlight at slots ⊢
    simp only [List.length_append, List.length_singleton]
    omega
  · refine List.pairwise_append.mpr ⟨ordered, List.pairwise_singleton _ _, ?_⟩
    intro lease member instant last
    rw [List.mem_singleton.mp last]
    exact begun lease member
  · exact forall_mem_concat begun (Int.le_refl _)
  · have := young cutoff recent
    simp only [takenAfter, List.countP_append] at this ⊢
    omega

/-- Without an orphan the oldest slot goes. At a cutoff before it every slot counts, and
there are as many as reservations; at any other it did not count. -/
theorem releaseLocked {instant : Int} (matched : SlotsMatched timeout clock k (instant :: held)) :
    SlotsMatched timeout clock (Channel.releaseLocked k) held := by
  obtain ⟨slots, ordered, begun, young⟩ := matched
  have fewer (cutoff : Int) : takenAfter cutoff held ≤ takenAfter cutoff (instant :: held) :=
    (List.sublist_cons_self instant held).countP_le
  rw [List.length_cons] at slots
  unfold Channel.releaseLocked
  split
  next orphan =>
    refine ⟨?_, ordered, begun, fun cutoff recent => Nat.le_trans (fewer cutoff) (young cutoff recent)⟩
    unfold KeyRecord.inFlight at slots ⊢
    simp only
    omega
  next owned =>
    unfold KeyRecord.inFlight at slots
    cases split : k.leases with
    | nil =>
      rw [split, List.length_nil] at slots
      omega
    | cons oldest rest =>
      rw [split] at slots ordered begun young
      rw [List.length_cons] at slots
      have oldestFirst : ∀ lease ∈ rest, oldest ≤ lease :=
        fun _ member => List.rel_of_pairwise_cons ordered member
      refine ⟨?_, ordered.of_cons, fun lease member => begun lease (List.mem_cons_of_mem _ member),
        fun cutoff recent => ?_⟩
      · simp only [KeyRecord.inFlight, List.drop_succ_cons, List.drop_zero]
        omega
      · simp only [List.drop_succ_cons, List.drop_zero]
        by_cases counts : cutoff < oldest
        · have all : takenAfter cutoff rest = rest.length := by
            refine List.countP_eq_length.mpr fun lease member => ?_
            have := oldestFirst lease member
            simp only [decide_eq_true_eq]
            omega
          have bounded : takenAfter cutoff held ≤ held.length := List.countP_le_length
          omega
        · have uncounted : takenAfter cutoff (oldest :: rest) = takenAfter cutoff rest :=
            List.countP_cons_of_neg (by simpa using counts)
          rw [← uncounted]
          exact Nat.le_trans (fewer cutoff) (young cutoff recent)

theorem effect {session next : LeaseSession Cursor} {event : LeaseEvent} {route : String}
    {index : Nat} {before after : KeyRecord}
    (effect : LeaseSession.KeyEffect s session event next route index before after)
    (ordered : session.clock ≤ event.now)
    (matched : SlotsMatched s.leaseTimeout session.clock before (session.taken route index)) :
    SlotsMatched s.leaseTimeout event.now after (next.taken route index) := by
  cases effect with
  | passedBy held logged => exact (matched.later ordered).perm held
  | advanced rolled held logged => exact (matched.advanceKey rolled ordered).perm held
  | leased rolled held logged =>
    rw [held]
    exact (matched.advanceKey rolled ordered).lease
  | settled rolled reservation sample windowStart action onKey held logged =>
    have settled := s.settleLocked_spec (s.advanceKey rolled event.now before) (Store.normalise sample)
    exact ((matched.advanceKey rolled ordered).perm held).releaseLocked.sameSlots settled.leases
      settled.orphaned
  | retired rolled deadline reason held logged =>
    obtain ⟨_, _, retired⟩ :=
      Store.retireLocked_spec (s.advanceKey rolled event.now before) event.now deadline reason
    rw [retired]
    exact ((matched.advanceKey rolled ordered).perm held).sameSlots rfl rfl

end SlotsMatched

namespace LeaseSession

theorem matched_of_run {s : Store Cursor} {keys : String → Option Int} {cursor : Cursor}
    {start : Int} {trace : List LeaseEvent} {final : LeaseSession Cursor}
    (ran : (machine s).run (.start keys cursor start) trace = some final) {route : String}
    {index : Nat} {k : KeyRecord} (found : final.store.keyAt route index = some k) :
    SlotsMatched s.leaseTimeout final.clock k (final.taken route index) := by
  have unconditional : (machine s).Meets (fun _ _ => True) (.start keys cursor start) trace :=
    (machine s).meets_of_forall (fun _ _ => trivial) _
  refine key_invariant
    (fun session k => SlotsMatched s.leaseTimeout session.clock k (session.taken route index)) ?_
    unconditional ran ?_ k found
  · intro session next event before after _ ordered clock _ effect matched
    rw [clock]
    exact matched.effect effect ordered
  · intro k present
    rw [start_keyAt present]
    exact SlotsMatched.fresh

/-! ## Reservations made and settled -/

def granted (s : Store Cursor) (session : LeaseSession Cursor) (event : LeaseEvent) :
    List Reservation :=
  match event.action with
  | .settle _ _ => []
  | .call c =>
    ((s.call session.store event.now c).2.reservation.map
      (fun index => ⟨c.route, index, event.now⟩)).toList

theorem length_taken (session : LeaseSession Cursor) (route : String) (index : Nat) :
    (session.taken route index).length = session.outstanding route index := by
  rw [taken, List.length_map, outstanding, List.countP_eq_length_filter]

theorem made_eq_held_add_settled {s : Store Cursor} {keys : String → Option Int} {cursor : Cursor}
    {start : Int} {trace : List LeaseEvent} {final : LeaseSession Cursor} {made : List Reservation}
    (ran : ((machine s).recording (granted s)).run (.start keys cursor start, []) trace =
      some (final, made)) (route : String) (index : Nat) :
    made.countP (fun reservation => reservation.isOn route index) =
      final.outstanding route index + (final.settledOn route index).length := by
  refine (machine s).recording_invariant (granted s)
    (fun session made => made.countP (fun reservation => reservation.isOn route index) =
      session.outstanding route index + (session.settledOn route index).length) ?_ ran rfl
  intro session made event next stepped counted
  rw [List.countP_append, counted]
  obtain ⟨_, ⟨reservation, sample, action, member, rfl⟩ | ⟨c, action, _, rfl⟩⟩ := step_cases stepped
  · obtain ⟨_, logged⟩ := session.settledOn_settle route index s event.now reservation sample
    rw [session.outstanding_settle route index s event.now sample member, logged, List.length_append]
    simp only [granted, action, List.countP_nil]
    split <;> simp
    omega
  · simp only [granted, action, outstanding, unsettled_perform, List.countP_append, settledOn_perform]
    omega

end LeaseSession

/-- In every run each key's slots and orphans are the reservations made less those settled,
and its slots lie between the reservations younger than the timeout and all that are held. -/
theorem in_flight_between_held (s : Store Cursor) (keys : String → Option Int) (cursor : Cursor)
    (start : Int) (trace : List LeaseEvent) (final : LeaseSession Cursor) (made : List Reservation)
    (ran : ((LeaseSession.machine s).recording (LeaseSession.granted s)).run
      (.start keys cursor start, []) trace = some (final, made))
    (route : String) (index : Nat) (k : KeyRecord)
    (found : final.store.keyAt route index = some k) :
    (k.inFlight + k.orphaned : Int) =
        made.countP (fun reservation => reservation.isOn route index) -
          (final.settledOn route index).length ∧
      ∀ now, final.clock ≤ now →
        takenAfter (now - s.leaseTimeout) (final.taken route index) ≤ k.inFlight ∧
          k.inFlight ≤ (final.taken route index).length := by
  have matched := LeaseSession.matched_of_run (Machine.run_of_recording _ _ ran) found
  have counted := LeaseSession.made_eq_held_add_settled ran route index
  have slots := matched.slots
  refine ⟨?_, fun now passed => ⟨?_, by omega⟩⟩
  · rw [LeaseSession.length_taken] at slots
    omega
  · have recent : final.clock - s.leaseTimeout ≤ now - s.leaseTimeout := by omega
    exact Nat.le_trans (matched.young _ recent) List.countP_le_length

def leakyStore : Store Unit :=
  newStore (fun cursor _ => (0, cursor))
    { window := 0, tokens := 0, requests := 0, softRatio := .finite 0, estimateTokens := 0 } 0 10 .machine

/-- The first reservation is never settled; the second is, at once, and frees the slot of
the first. -/
def leakyTrace : List LeaseEvent :=
  [⟨1, .call (.reserve "chat")⟩, ⟨12, .call (.reserve "chat")⟩,
    ⟨13, .settle ⟨"chat", 0, 12⟩ ⟨.completed, 7, false⟩⟩]

theorem in_flight_between_held_leaked :
    ∃ final made k,
      ((LeaseSession.machine leakyStore).recording (LeaseSession.granted leakyStore)).run
        (.start (fun _ => some 1) () 0, []) leakyTrace = some (final, made) ∧
      final.store.keyAt "chat" 0 = some k ∧ k.leases = [12] ∧ final.taken "chat" 0 = [1] ∧
      (k.inFlight + k.orphaned : Int) =
        made.countP (fun reservation => reservation.isOn "chat" 0) -
          (final.settledOn "chat" 0).length := by
  have facts : (((LeaseSession.machine leakyStore).recording (LeaseSession.granted leakyStore)).run
      (.start (fun _ => some 1) () 0, []) leakyTrace).map (fun reached =>
        (reached.1.store.keyAt "chat" 0, reached.1.taken "chat" 0)) =
      some (some { requests := 1, tokens := 7, leases := [12], reclaimed := 1 }, [1]) := by
    decide +kernel
  obtain ⟨⟨final, made⟩, ran, reached⟩ := Option.map_eq_some_iff.mp facts
  obtain ⟨found, held⟩ := Prod.mk.inj reached
  exact ⟨final, made, _, ran, found, rfl, held,
    (in_flight_between_held leakyStore _ () 0 leakyTrace final made ran "chat" 0 _ found).1⟩

end ClusterRouter.Channel
