import ClusterRouter.Channel.EarlyAdvance
import ClusterRouter.Channel.InFlight

/-! `least_used` leases a key of minimal load, requests and leases in flight together. Without a
budget only a reservation changes a load: it raises a minimal one by one. -/

set_option autoImplicit false

namespace ClusterRouter.Channel

open Foundation

/-! ## Selection by minimum -/

/-- `tied` holds positions of keys before the scan that attain their lowest score, and at least one. -/
structure Tied (score : KeyState → Int) (before : List KeyState) (best : Int) (tied : List Nat) :
    Prop where
  nonempty : tied ≠ []
  attained : ∀ position ∈ tied, ∃ k, before[position]? = some k ∧ score k = best
  least : ∀ k ∈ before, best ≤ score k

namespace Tied

variable {score : KeyState → Int} {before : List KeyState} {best : Int} {tied : List Nat}
  {k : KeyState}

section

variable (all : Tied score before best tied)

include all

theorem attained_append {position : Nat} (member : position ∈ tied) :
    ∃ other, (before ++ [k])[position]? = some other ∧ score other = best := by
  obtain ⟨other, found, isBest⟩ := all.attained position member
  have inside := (List.getElem?_eq_some_iff.mp found).1
  exact ⟨other, (List.getElem?_append_left inside).trans found, isBest⟩

theorem lower (lower : score k < best) : Tied score (before ++ [k]) (score k) [before.length] := by
  refine ⟨by simp, ?_, ?_⟩
  · intro position member
    rw [List.mem_singleton.mp member]
    exact ⟨k, by simp, rfl⟩
  · intro other member
    rw [List.mem_append, List.mem_singleton] at member
    obtain earlier | rfl := member
    · exact Int.le_trans (Int.le_of_lt lower) (all.least other earlier)
    · exact Int.le_refl _

theorem least_append (notLower : best ≤ score k) : ∀ other ∈ before ++ [k], best ≤ score other := by
  intro other member
  rw [List.mem_append, List.mem_singleton] at member
  obtain earlier | rfl := member
  · exact all.least other earlier
  · exact notLower

theorem same (same : score k = best) :
    Tied score (before ++ [k]) best (tied ++ [before.length]) := by
  refine ⟨by simp, ?_, all.least_append (Int.le_of_eq same.symm)⟩
  intro position member
  rw [List.mem_append, List.mem_singleton] at member
  obtain earlier | rfl := member
  · exact all.attained_append earlier
  · exact ⟨k, by simp, same⟩

theorem higher (higher : best ≤ score k) : Tied score (before ++ [k]) best tied :=
  ⟨all.nonempty, fun _ member => all.attained_append member, all.least_append higher⟩

end

end Tied

theorem pickMinScan_tied {score : KeyState → Int} {before : List KeyState} (rest : List KeyState)
    {best : Int} {tied : List Nat} (all : Tied score before best tied) :
    ∃ least, Tied score (before ++ rest) least (pickMinScan score rest before.length best tied) := by
  induction rest generalizing before best tied with
  | nil => exact ⟨best, by rwa [List.append_nil]⟩
  | cons k rest ih =>
    have longer : before.length + 1 = (before ++ [k]).length := by simp
    rw [List.append_cons, pickMinScan, longer]
    split
    next lower => exact ih (all.lower lower)
    next notLower =>
      split
      next same => exact ih (all.same same)
      next => exact ih (all.higher (Int.not_lt.mp notLower))

theorem cursor_mod_lt (cursor : UInt64) {length : Nat} (positive : 0 < length) :
    (cursor % length.toUInt64).toNat < length := by
  rw [UInt64.toNat_mod, Nat.toUInt64_eq, UInt64.toNat_ofNat']
  by_cases wraps : length % 2 ^ 64 = 0
  · have := cursor.toNat_lt
    rw [wraps, Nat.mod_zero]
    omega
  · have := Nat.mod_lt cursor.toNat (Nat.pos_of_ne_zero wraps)
    have := Nat.mod_le length (2 ^ 64)
    omega

theorem pickMin_spec (score : KeyState → Int) (cursor : UInt64) {states : List KeyState}
    (offered : states ≠ []) :
    ∃ position k, (pickMin cursor states score).1 = (position : Nat) ∧
      states[position]? = some k ∧ ∀ other ∈ states, score k ≤ score other := by
  cases states with
  | nil => exact absurd rfl offered
  | cons first rest =>
    have start : Tied score [first] (score first) [0] := ⟨by simp, by simp, by simp⟩
    obtain ⟨least, all⟩ := pickMinScan_tied rest start
    rw [List.length_singleton, List.singleton_append] at all
    simp only [pickMin]
    generalize pickMinScan score rest 1 (score first) [0] = tied at all
    have inside := cursor_mod_lt cursor (List.length_pos_iff.mpr all.nonempty)
    rw [List.getD_eq_getElem?_getD, List.getElem?_eq_getElem inside, Option.getD_some]
    obtain ⟨k, found, isLeast⟩ := all.attained _ (List.getElem_mem inside)
    exact ⟨_, k, rfl, found, isLeast ▸ all.least⟩

theorem selectPosition_leastUsed {s : Store UInt64} (policy : s.policy = leastUsed)
    (state : StoreState UInt64) {states : List KeyState} (offered : states ≠ []) :
    ∃ chosen, states[(s.selectPosition state states).1]? = some chosen ∧
      ∀ other ∈ states, byLoad chosen ≤ byLoad other := by
  obtain ⟨position, chosen, isPosition, isChosen, least⟩ :=
    pickMin_spec byLoad state.cursor offered
  have inside := (List.getElem?_eq_some_iff.mp isChosen).1
  refine ⟨chosen, ?_, least⟩
  have accepted : Store.inRange position states = true := by
    simp only [Store.inRange, decide_eq_true_eq]
    omega
  simp only [Store.selectPosition, policy, leastUsed, isPosition, accepted]
  exact isChosen

/-! ## Level routes -/

def KeyRecord.load (k : KeyRecord) : Nat := k.requests + k.inFlight

structure KeyRecord.Plain (k : KeyRecord) : Prop where
  drained : k.drained = false
  softRetired : k.softRetired = false
  retiredUntil : k.retiredUntil = none
  orphaned : k.orphaned = 0

structure RouteState.Level (rs : RouteState) : Prop where
  plain : ∀ k ∈ rs.keys, k.Plain
  level : ∀ k ∈ rs.keys, ∀ other ∈ rs.keys, k.load ≤ other.load + 1

variable {k : KeyRecord}

theorem KeyRecord.Plain.selectable (plain : k.Plain) (now : Int) :
    selectableAt k now = true := by
  simp [selectableAt, plain.drained, plain.softRetired, plain.retiredUntil, Time.deadlineAfter]

theorem KeyRecord.Plain.settle {s : Store UInt64} (plain : k.Plain)
    (unbudgeted : s.budget.window ≤ 0) {sample : UsageSample}
    (completed : sample.outcome = .completed) (leased : 0 < k.inFlight) :
    (s.settleLocked k (Store.normalise sample)).1.Plain ∧
      (s.settleLocked k (Store.normalise sample)).1.load = k.load := by
  have released : releaseLocked k = { k with leases := k.leases.drop 1 } := by
    simp [releaseLocked, plain.orphaned]
  have uncapped (changed : KeyRecord) : s.applyCapsLocked changed = (changed, []) := by
    simp [Store.applyCapsLocked, unbudgeted]
  have settled : (s.settleLocked k (Store.normalise sample)).1 =
      s.chargeLocked { k with leases := k.leases.drop 1 } (Store.normalise sample) := by
    simp only [Store.settleLocked, Store.normalise_outcome, completed, uncapped, released]
  rw [settled]
  refine ⟨⟨plain.drained, plain.softRetired, plain.retiredUntil, plain.orphaned⟩, ?_⟩
  simp only [load, inFlight, Store.chargeLocked, List.length_drop] at leased ⊢
  omega

namespace RouteState.Level

variable {s : Store UInt64} {rs : RouteState} {now : Int} {index : Nat} {k : KeyRecord}

/-- One key may change as long as it does not fall behind and no other key is left more
than one behind it. -/
theorem modify (level : rs.Level) (found : rs.keys[index]? = some k)
    {change : KeyRecord → KeyRecord} (plain : (change k).Plain) (kept : k.load ≤ (change k).load)
    (near : ∀ other ∈ rs.keys, (change k).load ≤ other.load + 1) :
    ({ rs with keys := rs.keys.modify index change } : RouteState).Level := by
  constructor
  · intro changed member
    obtain rfl | unchanged := mem_modify found member
    · exact plain
    · exact level.plain changed unchanged
  · intro one isOne other isOther
    obtain rfl | first := mem_modify found isOne
    · obtain rfl | second := mem_modify found isOther
      · exact Nat.le_succ _
      · exact near other second
    · obtain rfl | second := mem_modify found isOther
      · have := level.level one first k (List.mem_of_getElem? found)
        omega
      · exact level.level one first other second

theorem settle (level : rs.Level) (unbudgeted : s.budget.window ≤ 0) {sample : UsageSample}
    (completed : sample.outcome = .completed)
    (leased : ∀ k, rs.keys[index]? = some k → 0 < k.inFlight) :
    ({ rs with
      keys := rs.keys.modify index (fun k => (s.settleLocked k (Store.normalise sample)).1) } :
        RouteState).Level := by
  cases found : rs.keys[index]? with
  | none =>
    rw [List.modify_eq_self (List.getElem?_eq_none_iff.mp found)]
    exact level
  | some k =>
    have member := List.mem_of_getElem? found
    obtain ⟨plain, load⟩ := (level.plain k member).settle unbudgeted completed (leased k found)
    refine level.modify found plain (Nat.le_of_eq load.symm) ?_
    intro other isOther
    rw [load]
    exact level.level k member other isOther

theorem mem_candidates (level : rs.Level) (unbudgeted : s.budget.window ≤ 0)
    (found : rs.keys[index]? = some k) (now : Int) :
    Store.keyStateLocked k index now ∈ s.candidates rs now := by
  have selectable := (level.plain k (List.mem_of_getElem? found)).selectable now
  refine List.mem_filterMap.mpr ⟨(k, index), List.mk_mem_zipIdx_iff_getElem?.mpr found, ?_⟩
  simp [selectable, Store.admissibleLocked, unbudgeted]

theorem reserve (level : rs.Level) (policy : s.policy = leastUsed)
    (unbudgeted : s.budget.window ≤ 0) {state : StoreState UInt64} {route : String}
    (known : state.routes route = some rs) (still : s.advanceLocked rs now = rs) :
    ∃ after, (s.reserve state route now).1.routes = (state.setRoute route after).routes ∧
      after.Level := by
  unfold Store.reserve
  rw [known]
  dsimp only
  rw [still]
  cases offered : s.candidates rs now with
  | nil =>
    dsimp only
    split
    · exact ⟨rs, rfl, level⟩
    · exact ⟨rs, rfl, level⟩
  | cons first rest =>
    dsimp only
    generalize advanced : state.setRoute route rs = before
    obtain ⟨chosen, isChosen, least⟩ :=
      selectPosition_leastUsed policy before (List.cons_ne_nil first rest)
    rw [List.getD_eq_getElem?_getD, isChosen, Option.getD_some]
    obtain ⟨k, found, _, isKey⟩ :=
      Store.candidates_mem (offered ▸ List.mem_of_getElem? isChosen : chosen ∈ s.candidates rs now)
    have fewest : ∀ other ∈ rs.keys, k.load ≤ other.load := by
      intro other member
      obtain ⟨place, present⟩ := List.getElem?_of_mem member
      have compared := least _ (offered ▸ level.mem_candidates unbudgeted present now)
      rw [isKey] at compared
      simp only [byLoad, Store.keyStateLocked] at compared
      unfold KeyRecord.load
      omega
    refine ⟨RouteState.lease rs chosen.index now, ?_, ?_⟩
    · subst before
      funext name
      by_cases same : name = route <;> simp [same]
    · obtain ⟨drained, softRetired, retiredUntil, orphaned⟩ :=
        level.plain k (List.mem_of_getElem? found)
      have raised : ({ k with leases := k.leases ++ [now] } : KeyRecord).load = k.load + 1 := by
        simp [KeyRecord.load, KeyRecord.inFlight, Nat.add_assoc]
      refine level.modify found ⟨drained, softRetired, retiredUntil, orphaned⟩ ?_ ?_
      · exact raised ▸ Nat.le_succ _
      · intro other member
        rw [raised]
        exact Nat.succ_le_succ (fewest other member)

end RouteState.Level

/-! ## Whole runs -/

theorem SlotsMatched.recent {timeout clock now : Int} {held : List Int}
    (matched : SlotsMatched timeout clock k held) (passed : clock ≤ now)
    (young : ∀ instant ∈ held, now < instant + timeout) :
    k.orphaned = 0 ∧ ∀ lease ∈ k.leases, now < lease + timeout := by
  have counted : takenAfter (now - timeout) held = held.length := by
    refine List.countP_eq_length.mpr fun instant member => ?_
    have := young instant member
    simp only [decide_eq_true_eq]
    omega
  have slots := matched.slots
  have fewer := matched.young (now - timeout) (by omega)
  have most : takenAfter (now - timeout) k.leases ≤ k.leases.length := List.countP_le_length
  unfold KeyRecord.inFlight at slots
  refine ⟨by omega, ?_⟩
  have all : takenAfter (now - timeout) k.leases = k.leases.length := by omega
  intro lease member
  have := List.countP_eq_length.mp all lease member
  simp only [decide_eq_true_eq] at this
  omega

namespace LeaseSession

variable {s : Store UInt64} {session next : LeaseSession UInt64} {event : LeaseEvent}

def ReservesOrCompletes (event : LeaseEvent) : Prop :=
  (∃ route, event.action = .call (.reserve route)) ∨
    ∃ reservation sample, event.action = .settle reservation sample ∧ sample.outcome = .completed

def HeldYoung (s : Store UInt64) (session : LeaseSession UInt64) (event : LeaseEvent) : Prop :=
  ∀ reservation ∈ session.unsettled, event.now < reservation.takenAt + s.leaseTimeout

instance : Decidable (session.HeldYoung s event) :=
  inferInstanceAs (Decidable (∀ reservation ∈ session.unsettled, _))

structure LevelPool (s : Store UInt64) (session : LeaseSession UInt64) : Prop where
  level : ∀ route rs, session.store.routes route = some rs → rs.Level
  matched : ∀ route index k, session.store.keyAt route index = some k →
    SlotsMatched s.leaseTimeout session.clock k (session.taken route index)

variable {route : String} {rs : RouteState}

theorem LevelPool.advanceLocked (pool : session.LevelPool s) (unbudgeted : s.budget.window ≤ 0)
    (ordered : session.clock ≤ event.now) (young : session.HeldYoung s event)
    (known : session.store.routes route = some rs) :
    s.advanceLocked rs event.now = rs := by
  refine Store.advanceLocked_eq_self ?_ ?_
  · simp only [Store.expired, decide_eq_false_iff_not]
    omega
  · intro k member lease held
    obtain ⟨index, found⟩ := List.getElem?_of_mem member
    have matched := pool.matched route index k (StoreState.keyAt_eq_some.mpr ⟨rs, known, found⟩)
    have recent := (matched.recent ordered ?_).2 lease held
    · simp only [Store.stale, decide_eq_false_iff_not]
      omega
    · intro instant taken
      simp only [LeaseSession.taken, List.mem_map, List.mem_filter] at taken
      obtain ⟨reservation, ⟨isHeld, _⟩, rfl⟩ := taken
      exact young reservation isHeld

theorem LevelPool.perform (pool : session.LevelPool s) (policy : s.policy = leastUsed)
    (unbudgeted : s.budget.window ≤ 0) (ordered : session.clock ≤ event.now)
    (young : session.HeldYoung s event) (named : String)
    (known : (session.perform s event.now (.reserve named)).store.routes route = some rs) :
    rs.Level := by
  change (s.reserve session.store named event.now).1.routes route = some rs at known
  cases registered : session.store.routes named with
  | none =>
    simp only [Store.reserve, registered] at known
    exact pool.level route rs known
  | some prior =>
    obtain ⟨after, routes, level⟩ := (pool.level named prior registered).reserve policy unbudgeted
      registered (pool.advanceLocked unbudgeted ordered young registered)
    rw [routes, StoreState.setRoute_routes] at known
    split at known
    · cases known
      exact level
    · exact pool.level route rs known

theorem LevelPool.settle (pool : session.LevelPool s) (unbudgeted : s.budget.window ≤ 0)
    (ordered : session.clock ≤ event.now) (young : session.HeldYoung s event)
    {reservation : Reservation} {sample : UsageSample} (member : reservation ∈ session.unsettled)
    (completed : sample.outcome = .completed)
    (known : (session.settle s event.now reservation sample).store.routes route = some rs) :
    rs.Level := by
  change (s.call session.store event.now
    (.recordSample reservation.route reservation.index sample)).1.routes route = some rs at known
  have effect := s.call_cases session.store event.now
    (.recordSample reservation.route reservation.index sample)
  cases effect with
  | refused same declined absent =>
    rw [same] at known
    exact pool.level route rs known
  | advanced prior touched change registered touch result =>
    obtain ⟨rfl, rfl⟩ := touch.of_recordSample
    rw [result, StoreState.setRoute_routes] at known
    split at known
    next onRoute =>
      cases known
      rw [Store.Call.route] at registered
      rw [pool.advanceLocked unbudgeted ordered young registered]
      refine (pool.level _ prior registered).settle unbudgeted completed ?_
      intro k found
      have matched := pool.matched _ _ k (StoreState.keyAt_eq_some.mpr ⟨prior, registered, found⟩)
      have plain := (pool.level _ prior registered).plain k (List.mem_of_getElem? found)
      have slots := matched.slots
      have held : reservation.takenAt ∈ session.taken reservation.route reservation.index :=
        List.mem_map_of_mem (List.mem_filter.mpr ⟨member, by simp [Reservation.isOn]⟩)
      have := List.length_pos_of_mem held
      rw [plain.orphaned] at slots
      omega
    next => exact pool.level route rs known

theorem LevelPool.step (pool : session.LevelPool s) (policy : s.policy = leastUsed)
    (unbudgeted : s.budget.window ≤ 0) (allowed : ReservesOrCompletes event)
    (young : session.HeldYoung s event) (stepped : step s session event = some next) :
    next.LevelPool s := by
  obtain ⟨ordered, clock⟩ := step_clock stepped
  constructor
  · intro route rs known
    obtain ⟨_, ⟨reservation, sample, action, member, rfl⟩ | ⟨c, action, _, rfl⟩⟩ := step_cases stepped
    · obtain ⟨_, other⟩ | ⟨_, _, same, completed⟩ := allowed
      · rw [action] at other
        cases other
      · rw [action] at same
        cases same
        exact pool.settle unbudgeted ordered young member completed known
    · obtain ⟨named, same⟩ | ⟨_, _, other, _⟩ := allowed
      · rw [action] at same
        cases same
        exact pool.perform policy unbudgeted ordered young named known
      · rw [action] at other
        cases other
  · intro route index k found
    obtain ⟨before, present, effect⟩ := step_key stepped found
    rw [clock]
    exact (pool.matched route index before present).effect effect ordered

theorem LevelPool.fresh (keys : String → Option Int) (cursor : UInt64) (began : Int) :
    (start keys cursor began).LevelPool s := by
  constructor
  · intro route rs known
    have unused := (newStoreState_routes known).2
    constructor
    · intro k member
      rw [unused k member]
      exact ⟨rfl, rfl, rfl, rfl⟩
    · intro k isKey other isOther
      rw [unused k isKey, unused other isOther]
      exact Nat.le_succ _
  · intro route index k found
    rw [start_keyAt found]
    exact SlotsMatched.fresh

end LeaseSession

/-- Reservations and completed settlements in any order leave any two keys of a route at
most one request apart. -/
theorem least_used_level (budget : Budget) (unbudgeted : budget.window ≤ 0)
    (maxRetryAfter leaseTimeout : Int) (arithmetic : Arithmetic) (keys : String → Option Int)
    (cursor : UInt64) (began : Int) (trace : List LeaseEvent) (final : LeaseSession UInt64)
    (allowed : ∀ event ∈ trace, LeaseSession.ReservesOrCompletes event) :
    let s := newStore leastUsed budget maxRetryAfter leaseTimeout arithmetic
    (LeaseSession.machine s).Meets (LeaseSession.HeldYoung s) (.start keys cursor began) trace →
    (LeaseSession.machine s).run (.start keys cursor began) trace = some final →
    ∀ route one other k l, final.store.keyAt route one = some k →
      final.store.keyAt route other = some l →
      k.requests + k.inFlight ≤ l.requests + l.inFlight + 1 := by
  intro s young ran route one other k l isOne isOther
  have pool : final.LevelPool s := by
    refine Machine.run_invariant_of_meets _ (fun session => session.LevelPool s) ?_
      (Machine.meets_and _ (Machine.meets_of_forall _ allowed _) young) ran (.fresh keys cursor began)
    intro session event next condition stepped pool
    exact pool.step rfl unbudgeted condition.1 condition.2 stepped
  obtain ⟨rs, known, first⟩ := StoreState.keyAt_eq_some.mp isOne
  obtain ⟨_, same, second⟩ := StoreState.keyAt_eq_some.mp isOther
  cases known.symm.trans same
  exact (pool.level route rs known).level k (List.mem_of_getElem? first) l (List.mem_of_getElem? second)

def unbudgetedStore : Store UInt64 :=
  newStore leastUsed
    { window := 0, tokens := 0, requests := 0, softRatio := .finite 0, estimateTokens := 0 } 0 0
    .machine

def levelTrace : List LeaseEvent :=
  [⟨1, .call (.reserve "chat")⟩, ⟨2, .call (.reserve "chat")⟩, ⟨3, .call (.reserve "chat")⟩,
    ⟨4, .settle ⟨"chat", 1, 2⟩ ⟨.completed, 7, false⟩⟩]

theorem least_used_level_settled :
    ∃ final k l,
      (LeaseSession.machine unbudgetedStore).run (.start (fun _ => some 2) 0 0) levelTrace =
          some final ∧
        final.store.keyAt "chat" 0 = some k ∧ final.store.keyAt "chat" 1 = some l ∧
        k.inFlight = 2 ∧ l.requests = 1 ∧
        k.requests + k.inFlight ≤ l.requests + l.inFlight + 1 := by
  have ran : (LeaseSession.machine unbudgetedStore).run (.start (fun _ => some 2) 0 0) levelTrace =
      some _ := rfl
  refine ⟨_, { leases := [1, 3] }, { requests := 1, tokens := 7 }, ran, by decide +kernel,
    by decide +kernel, rfl, rfl, ?_⟩
  refine least_used_level _ (by decide) 0 0 .machine _ 0 0 levelTrace _ ?_ (by decide +kernel) ran
    "chat" 0 1 _ _ (by decide +kernel) (by decide +kernel)
  intro event member
  simp only [levelTrace, List.mem_cons, List.not_mem_nil, or_false] at member
  obtain rfl | rfl | rfl | rfl := member
  · exact .inl ⟨_, rfl⟩
  · exact .inl ⟨_, rfl⟩
  · exact .inl ⟨_, rfl⟩
  · exact .inr ⟨_, _, rfl, rfl⟩

end ClusterRouter.Channel
