import ClusterRouter.Channel.RefusalLabels
import ClusterRouter.Channel.Unavailable

/-! `admission_limited` says that no key of the route is retired and none drained. It is given
when the selectable keys are all at their caps, whatever the others are. -/

set_option autoImplicit false

namespace ClusterRouter.Channel

open Foundation

variable {Cursor : Type}

namespace TimedStore

/-- A request that is answered `admission_limited` leaves a route on which no key is
retired, soft-retired or drained. -/
def TellsTruth (s : Store Cursor) (state : TimedStore Cursor) (timed : TimedCall) : Prop :=
  ∀ route later response, timed.call = .reserve route →
    (leaseOrDeny s state.store route timed.now later).2 = some response →
    response.error = "admission_limited" →
    ∀ index k, (leaseOrDeny s state.store route timed.now later).1.keyAt route index = some k →
      k.retiredAt timed.now = false ∧ k.softRetired = false ∧ k.drained = false

/-- A request finds an admissible key, or no selectable key, or selectable keys only. -/
def Unmixed (s : Store Cursor) (state : TimedStore Cursor) (timed : TimedCall) : Prop :=
  ∀ route, timed.call = .reserve route →
    (∃ k ∈ s.poolAt state.store route timed.now, s.admissibleLocked k timed.now = true) ∨
      (∀ k ∈ s.poolAt state.store route timed.now, selectableAt k timed.now = false) ∨
      ∀ k ∈ s.poolAt state.store route timed.now, selectableAt k timed.now = true

end TimedStore

theorem selectableAt_iff {k : KeyRecord} {now : Int} :
    selectableAt k now = true ↔
      k.retiredAt now = false ∧ k.softRetired = false ∧ k.drained = false := by
  simp only [selectableAt, KeyRecord.retiredAt, Bool.and_eq_true, Bool.not_eq_true']
  constructor
  · rintro ⟨⟨drained, softRetired⟩, free⟩
    exact ⟨free, softRetired, drained⟩
  · rintro ⟨free, softRetired, drained⟩
    exact ⟨⟨drained, softRetired⟩, free⟩

theorem leaseOrDeny_of_admission {s : Store Cursor} {state : StoreState Cursor} {route : String}
    {now : Int} (refused : (s.reserve state route now).2 = (none, .admission)) (later : Int) :
    (leaseOrDeny s state route now later).1 = (s.reserve state route now).1 ∧
      ∃ response, (leaseOrDeny s state route now later).2 = some response ∧
        response.error = "admission_limited" := by
  unfold leaseOrDeny
  generalize s.reserve state route now = answer at refused
  obtain ⟨after, _, _⟩ := answer
  cases refused
  exact ⟨rfl, _, rfl, rfl⟩

theorem TimedStore.tellsTruth_iff {s : Store Cursor} {state : TimedStore Cursor}
    {timed : TimedCall} : TellsTruth s state timed ↔ Unmixed s state timed := by
  constructor
  · intro truth route isReserve
    by_contra mixed
    obtain ⟨notAdmissible, notDrained, notAll⟩ := not_or.mp mixed |>.imp_right not_or.mp
    have refused : (s.reserve state.store route timed.now).2 = (none, .admission) := by
      rw [forall_eq_false_iff, not_not] at notDrained
      exact Store.reserve_admission_iff.mpr ⟨notDrained, forall_eq_false_iff.mpr notAdmissible⟩
    obtain ⟨left, response, denied, code⟩ := leaseOrDeny_of_admission refused timed.now
    refine notAll fun k member => selectableAt_iff.mpr ?_
    obtain ⟨index, found⟩ := Store.mem_poolAt_iff.mp member
    refine truth route timed.now response isReserve denied code index k ?_
    rw [left, Store.keyAt_of_refused (congrArg Prod.fst refused)]
    exact found
  · intro unmixed route later response isReserve denied code index k found
    have limited := (leaseOrDeny_admission_iff denied).mp code
    rcases s.reserve_answer state.store route timed.now with
      ⟨_, granted, answer⟩ | ⟨refused, spare, answer⟩ | ⟨_, answer⟩
    · rw [answer] at limited
      cases limited
    · obtain ⟨left, -⟩ := leaseOrDeny_of_admission answer later
      rw [left, Store.keyAt_of_refused (congrArg Prod.fst answer)] at found
      have member := Store.mem_poolAt_iff.mpr ⟨index, found⟩
      rcases unmixed route isReserve with admits | drained | all
      · exact absurd admits (forall_eq_false_iff.mp refused)
      · exact absurd spare (forall_eq_false_iff.mp drained)
      · exact selectableAt_iff.mp (all k member)
    · rw [answer] at limited
      cases limited

/-- In a run every answer `admission_limited` is true of the pool iff no request finds a
route whose selectable keys are all at their caps beside a key that is out of rotation. -/
theorem admission_limited_true_iff (s : Store Cursor) (keys : String → Option Int) (cursor : Cursor)
    (began : Int) (trace : List TimedCall) (final : TimedStore Cursor)
    (ran : (TimedStore.machine s).run (.start keys cursor began) trace = some final) :
    (TimedStore.machine s).Meets (TimedStore.TellsTruth s) (.start keys cursor began) trace ↔
      (TimedStore.machine s).Meets (TimedStore.Unmixed s) (.start keys cursor began) trace := by
  refine (TimedStore.machine s).meets_congr_of_invariant (fun _ => True) ?_ ?_ ran trivial
  · intro state timed next _ _
    exact TimedStore.tellsTruth_iff
  · intro state timed next _ _ _
    trivial

theorem admission_limited_true_busy :
    let s := newStore firstKey singleRequestBudget 0 0 .machine
    let keys : String → Option Int := fun route => if route = "chat" then some 1 else none
    let trace : List TimedCall := [⟨1, .reserve "chat"⟩, ⟨2, .reserve "chat"⟩]
    ∃ final, (TimedStore.machine s).run (.start keys () 0) trace = some final ∧
      (TimedStore.machine s).Meets (TimedStore.TellsTruth s) (.start keys () 0) trace := by
  intro s keys trace
  have ran : (TimedStore.machine s).run (.start keys () 0) trace = some _ := rfl
  refine ⟨_, ran, (admission_limited_true_iff s keys () 0 trace _ ran).mpr ⟨?_, ?_, trivial⟩⟩
  · rintro route ⟨⟩
    exact .inl ⟨_, List.mem_singleton_self _, by decide +kernel⟩
  · rintro route ⟨⟩
    refine .inr (.inr fun k member => ?_)
    rw [List.mem_singleton.mp member]
    decide +kernel

/-- Of two keys one is retired, and the other is in use. -/
def halfRetiredRun : Option (TimedStore Unit) :=
  (TimedStore.machine (newStore firstKey singleRequestBudget 0 0 .machine)).run
    (.start (fun route => if route = "chat" then some 2 else none) () 0)
    [⟨1, .retireWithReason "chat" 0 100 .quota⟩, ⟨2, .reserve "chat"⟩]

theorem admission_limited_beside_retired_key :
    ∃ final response k, halfRetiredRun = some final ∧
      let s := newStore firstKey singleRequestBudget 0 0 .machine
      (leaseOrDeny s final.store "chat" 3 3).2 = some response ∧
        response.error = "admission_limited" ∧
        (leaseOrDeny s final.store "chat" 3 3).1.keyAt "chat" 0 = some k ∧ k.retiredAt 3 = true := by
  have ran : halfRetiredRun = some _ := rfl
  exact ⟨_, _, _, ran, rfl, rfl, rfl, rfl⟩

end ClusterRouter.Channel
