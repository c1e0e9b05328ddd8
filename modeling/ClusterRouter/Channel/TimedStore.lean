import ClusterRouter.Channel.EarlyAdvance

/-! Any calls, settlements that belong to no reservation included, at instants that do not
decrease. -/

set_option autoImplicit false

namespace ClusterRouter.Channel

open Foundation

variable {Cursor : Type}

structure TimedStore (Cursor : Type) where
  store : StoreState Cursor
  clock : Int

namespace TimedStore

def start (keys : String → Option Int) (cursor : Cursor) (now : Int) : TimedStore Cursor where
  store := newStoreState keys cursor now
  clock := now

def step (s : Store Cursor) (state : TimedStore Cursor) (timed : TimedCall) :
    Option (TimedStore Cursor) :=
  if timed.now < state.clock then none
  else some ⟨(s.call state.store timed.now timed.call).1, timed.now⟩

def machine (s : Store Cursor) : Machine (TimedStore Cursor) TimedCall where
  step := step s

theorem step_eq_some {s : Store Cursor} {state next : TimedStore Cursor} {timed : TimedCall} :
    (machine s).step state timed = some next ↔
      state.clock ≤ timed.now ∧ next = ⟨(s.call state.store timed.now timed.call).1, timed.now⟩ := by
  simp only [machine, step]
  split
  next early =>
    have early : ¬ state.clock ≤ timed.now := by omega
    simp [early]
  next ordered =>
    have ordered : state.clock ≤ timed.now := by omega
    simp [ordered, eq_comm]

end TimedStore

namespace Store

inductive RouteChange (s : Store Cursor) (now : Int) (before : RouteState) : RouteState → Prop where
  | untouched : RouteChange s now before before
  | advanced (touched : Nat) (change : KeyRecord → KeyRecord)
      (each : ∀ index k, (s.advanceLocked before now).keys[index]? = some k →
        KeyChange s now k (if touched = index then change k else k)) :
      RouteChange s now before
        { s.advanceLocked before now with
          keys := (s.advanceLocked before now).keys.modify touched change }

variable {s : Store Cursor} {now : Int} {after : RouteState}

theorem call_route {state : StoreState Cursor} {c : Call} {route : String}
    (known : (s.call state now c).1.routes route = some after) :
    ∃ before, state.routes route = some before ∧ RouteChange s now before after := by
  cases s.call_cases state now c with
  | refused same declined absent =>
    rw [same] at known
    exact ⟨after, known, .untouched⟩
  | advanced prior touched change registered touch result =>
    rw [result, StoreState.setRoute_routes] at known
    split at known
    next onRoute =>
      subst onRoute
      cases known
      exact ⟨prior, registered, .advanced touched change fun _ _ found => touch.keyChange found⟩
    next => exact ⟨after, known, .untouched⟩

theorem RouteChange.windowStart_le {before : RouteState} (change : RouteChange s now before after)
    (begun : before.windowStart ≤ now) :
    after.windowStart ≤ now := by
  cases change with
  | untouched => exact begun
  | advanced touched change each =>
    simpa only [advanceLocked_windowStart] using advanceStart_le (s := s) begun

theorem RouteChange.length_keys {before : RouteState} (change : RouteChange s now before after) :
    after.keys.length = before.keys.length := by
  cases change with
  | untouched => rfl
  | advanced touched change each => simp [advanceLocked_keys]

end Store

namespace TimedStore

variable {s : Store Cursor} {keys : String → Option Int} {cursor : Cursor} {began : Int}
  {trace : List TimedCall} {final : TimedStore Cursor}

theorem run_keyAt (invariant : Int → KeyRecord → Prop) (fresh : invariant began {})
    (later : ∀ {clock now : Int} {k : KeyRecord}, clock ≤ now → invariant clock k → invariant now k)
    (advanced : ∀ {now : Int} {k : KeyRecord} (rolled : Bool), invariant now k →
      invariant now (s.advanceKey rolled now k))
    (changed : ∀ {now : Int} {k changed : KeyRecord}, Store.KeyChange s now k changed →
      invariant now k → invariant now changed)
    (ran : (machine s).run (start keys cursor began) trace = some final) {route : String}
    {index : Nat} {k : KeyRecord} (found : final.store.keyAt route index = some k) :
    invariant final.clock k := by
  refine (machine s).run_invariant
    (fun state => ∀ route index k, state.store.keyAt route index = some k → invariant state.clock k)
    ?_ ran ?_ route index k found
  · intro state timed next stepped holds route index k found
    obtain ⟨ordered, rfl⟩ := step_eq_some.mp stepped
    obtain ⟨before, present, same | ⟨rs, _, change⟩⟩ := Store.call_keyAt found
    · rw [same]
      exact later ordered (holds route index before present)
    · exact changed change (advanced _ (later ordered (holds route index before present)))
  · intro route index k found
    obtain ⟨rs, known, present⟩ := StoreState.keyAt_eq_some.mp found
    rw [(newStoreState_routes known).2 k (List.mem_of_getElem? present)]
    exact fresh

theorem run_routes (ran : (machine s).run (start keys cursor began) trace = some final)
    {route : String} {rs : RouteState} (known : final.store.routes route = some rs) :
    rs.windowStart ≤ final.clock ∧ 0 < rs.keys.length := by
  refine (machine s).run_invariant
    (fun state => ∀ route rs, state.store.routes route = some rs →
      rs.windowStart ≤ state.clock ∧ 0 < rs.keys.length) ?_ ran ?_ route rs known
  · intro state timed next stepped holds route after known
    obtain ⟨ordered, rfl⟩ := step_eq_some.mp stepped
    obtain ⟨before, registered, change⟩ := Store.call_route known
    obtain ⟨begun, nonempty⟩ := holds route before registered
    refine ⟨change.windowStart_le (Int.le_trans begun ordered), ?_⟩
    rwa [change.length_keys]
  · intro route rs known
    refine ⟨Int.le_of_eq (newStoreState_routes known).1, ?_⟩
    simp only [start, newStoreState] at known
    split at known
    · cases known
    split at known
    · cases known
    · cases known
      rw [List.length_replicate]
      omega

end TimedStore

end ClusterRouter.Channel
