import ClusterRouter.Channel.RotationStoreProperties
import ClusterRouter.Foundation.Machine

/-! A store with what its callers hold: the unsettled reservations and a log of settlements.
Only an unsettled reservation can be settled, and the clock never goes back. -/

set_option autoImplicit false

namespace ClusterRouter.Channel

open Foundation

structure Reservation where
  route : String
  index : Nat
  takenAt : Int
  deriving DecidableEq, Repr

def Reservation.isOn (reservation : Reservation) (route : String) (index : Nat) : Bool :=
  decide (reservation.route = route ∧ reservation.index = index)

structure Settlement where
  reservation : Reservation
  settledAt : Int
  windowStart : Int
  outcome : SampleOutcome
  deriving DecidableEq, Repr

structure LeaseSession (Cursor : Type) where
  store : StoreState Cursor
  clock : Int
  unsettled : List Reservation
  settlements : List Settlement

inductive LeaseAction where
  | settle (reservation : Reservation) (sample : UsageSample)
  | call (c : Store.Call)
  deriving DecidableEq, Repr

structure LeaseEvent where
  now : Int
  action : LeaseAction
  deriving DecidableEq, Repr

variable {Cursor : Type}

def StoreState.windowStart (state : StoreState Cursor) (route : String) : Int :=
  ((state.routes route).map RouteState.windowStart).getD 0

namespace LeaseSession

def start (keys : String → Option Int) (cursor : Cursor) (now : Int) : LeaseSession Cursor where
  store := newStoreState keys cursor now
  clock := now
  unsettled := []
  settlements := []

def settle (s : Store Cursor) (session : LeaseSession Cursor) (now : Int)
    (reservation : Reservation) (sample : UsageSample) : LeaseSession Cursor :=
  let store :=
    (s.call session.store now (.recordSample reservation.route reservation.index sample)).1
  { store := store
    clock := now
    unsettled := session.unsettled.erase reservation
    settlements := session.settlements ++
      [⟨reservation, now, store.windowStart reservation.route, sample.outcome⟩] }

def perform (s : Store Cursor) (session : LeaseSession Cursor) (now : Int) (c : Store.Call) :
    LeaseSession Cursor :=
  let (store, response) := s.call session.store now c
  { session with
    store := store
    clock := now
    unsettled := session.unsettled ++
      (response.reservation.map (fun index => ⟨c.route, index, now⟩)).toList }

/-- A settlement goes through `settle`, which needs its reservation. -/
def isSettlement : Store.Call → Bool
  | .recordSample _ _ _ => true
  | _ => false

def step (s : Store Cursor) (session : LeaseSession Cursor) (event : LeaseEvent) :
    Option (LeaseSession Cursor) :=
  if event.now < session.clock then none
  else
    match event.action with
    | .settle reservation sample =>
      if reservation ∈ session.unsettled then
        some (session.settle s event.now reservation sample)
      else none
    | .call c => if isSettlement c then none else some (session.perform s event.now c)

def machine (s : Store Cursor) : Machine (LeaseSession Cursor) LeaseEvent where
  step := step s

def outstanding (session : LeaseSession Cursor) (route : String) (index : Nat) : Nat :=
  session.unsettled.countP (fun reservation => reservation.isOn route index)

def completedIn (session : LeaseSession Cursor) (route : String) (index : Nat) (window : Int) :
    Nat :=
  session.settlements.countP (fun entry =>
    entry.reservation.isOn route index && decide (entry.outcome = .completed) &&
      decide (entry.windowStart = window))

def completedDuring (session : LeaseSession Cursor) (route : String) (index : Nat)
    (first last : Int) : Nat :=
  session.settlements.countP (fun entry =>
    entry.reservation.isOn route index && decide (entry.outcome = .completed) &&
      decide (first ≤ entry.settledAt ∧ entry.settledAt < last))

theorem step_cases {s : Store Cursor} {session next : LeaseSession Cursor} {event : LeaseEvent}
    (stepped : step s session event = some next) :
    session.clock ≤ event.now ∧
      ((∃ reservation sample, event.action = .settle reservation sample ∧
          reservation ∈ session.unsettled ∧ next = session.settle s event.now reservation sample) ∨
        ∃ c, event.action = .call c ∧ isSettlement c = false ∧
          next = session.perform s event.now c) := by
  unfold step at stepped
  split at stepped
  · cases stepped
  next ordered =>
    refine ⟨by omega, ?_⟩
    split at stepped
    next reservation sample isSettle =>
      split at stepped
      next held =>
        cases stepped
        exact .inl ⟨reservation, sample, isSettle, held, rfl⟩
      next => cases stepped
    next c isCall =>
      split at stepped
      next => cases stepped
      next other =>
        cases stepped
        exact .inr ⟨c, isCall, by simpa using other, rfl⟩

section Counting

variable (session : LeaseSession Cursor) (route : String) (index : Nat)

theorem outstanding_perform (s : Store Cursor) (now : Int) (c : Store.Call) :
    (session.perform s now c).outstanding route index =
      session.outstanding route index +
        if c.route = route ∧ (s.call session.store now c).2.reservation = some index then 1
        else 0 := by
  unfold outstanding perform
  rw [List.countP_append]
  cases leased : (s.call session.store now c).2.reservation with
  | none => simp
  | some i => simp [Reservation.isOn]

theorem unsettled_perform (s : Store Cursor) (now : Int) (c : Store.Call) :
    (session.perform s now c).unsettled = session.unsettled ++
      ((s.call session.store now c).2.reservation.map (fun index => ⟨c.route, index, now⟩)).toList :=
  rfl

@[simp] theorem completedIn_perform (s : Store Cursor) (now : Int) (c : Store.Call) :
    (session.perform s now c).completedIn route index = session.completedIn route index := rfl

theorem outstanding_settle (s : Store Cursor) (now : Int) {reservation : Reservation}
    (sample : UsageSample) (held : reservation ∈ session.unsettled) :
    session.outstanding route index =
      (session.settle s now reservation sample).outstanding route index +
        if reservation.isOn route index then 1 else 0 := by
  unfold outstanding settle
  rw [(List.perm_cons_erase held).countP_eq, List.countP_cons]

theorem completedIn_settle (s : Store Cursor) (now : Int) (reservation : Reservation)
    (sample : UsageSample) (window : Int) :
    (session.settle s now reservation sample).completedIn route index window =
      session.completedIn route index window +
        if reservation.isOn route index = true ∧ sample.outcome = .completed ∧
            (session.settle s now reservation sample).store.windowStart reservation.route = window
        then 1 else 0 := by
  unfold completedIn settle
  rw [List.countP_append]
  simp [List.countP_cons, and_assoc]

theorem mem_settlements_settle {s : Store Cursor} {now : Int} {reservation : Reservation}
    {sample : UsageSample} {entry : Settlement} :
    entry ∈ (session.settle s now reservation sample).settlements ↔
      entry ∈ session.settlements ∨
        entry = ⟨reservation, now,
          (session.settle s now reservation sample).store.windowStart reservation.route,
          sample.outcome⟩ := by
  simp [settle]

end Counting

end LeaseSession

end ClusterRouter.Channel
