import ClusterRouter.Channel.RotationStoreProperties

/-! No call shortens a retirement in force, so a retired key is not reserved before its
deadline. -/

set_option autoImplicit false

namespace ClusterRouter.Channel

open Foundation

variable {Cursor : Type} {s : Store Cursor} {now : Int} {k : KeyRecord}

namespace Store

variable {deadline : Int}

theorem advanceKey_retiredUntil (rolled : Bool) (retired : k.retiredUntil = some deadline)
    (inForce : now < deadline) :
    (s.advanceKey rolled now k).retiredUntil = some deadline := by
  obtain ⟨n, _, _, reclaimed⟩ := s.reclaimStaleLocked_spec k now
  have kept : (s.reclaimStaleLocked k now).retiredUntil = some deadline := by
    rw [reclaimed]
    exact retired
  unfold advanceKey
  cases rolled with
  | false => exact kept
  | true =>
    have ahead : Time.deadlineAfter (s.reclaimStaleLocked k now).retiredUntil now = true := by
      simp [kept, Time.deadlineAfter, inForce]
    simpa [rollKey, ahead] using kept

theorem retireLocked_retiredUntil {extended : Int} {reason : RetireReason}
    (retired : k.retiredUntil = some deadline) :
    ∃ later, (retireLocked k now extended reason).1.retiredUntil = some later ∧
      deadline ≤ later := by
  unfold retireLocked
  split
  · exact ⟨deadline, retired, Int.le_refl _⟩
  · dsimp only
    have extension : ∃ later, (if Time.afterDeadline extended k.retiredUntil = true then
        { k with retiredUntil := some extended, retireReason := reason } else k).retiredUntil =
          some later ∧ deadline ≤ later := by
      rw [retired]
      simp only [Time.afterDeadline, decide_eq_true_eq]
      split
      next longer => exact ⟨extended, rfl, by omega⟩
      next => exact ⟨deadline, retired, Int.le_refl _⟩
    split <;> exact extension

theorem KeyChange.retiredUntil {changed : KeyRecord} (change : KeyChange s now k changed)
    (retired : k.retiredUntil = some deadline) :
    ∃ later, changed.retiredUntil = some later ∧ deadline ≤ later := by
  cases change with
  | untouched | leased => exact ⟨deadline, retired, Int.le_refl _⟩
  | settled sample =>
    refine ⟨deadline, ?_, Int.le_refl _⟩
    rw [(s.settleLocked_spec k sample).retiredUntil]
    exact retired
  | retired extended reason => exact retireLocked_retiredUntil retired

def RetiredUntil (state : StoreState Cursor) (route : String) (index : Nat) (deadline : Int) :
    Prop :=
  ∀ k, state.keyAt route index = some k → ∃ later, k.retiredUntil = some later ∧ deadline ≤ later

theorem RetiredUntil.call {state : StoreState Cursor} {route : String} {index : Nat} {c : Call}
    (retired : RetiredUntil state route index deadline) (inForce : now < deadline) :
    RetiredUntil (s.call state now c).1 route index deadline := by
  intro k found
  obtain ⟨before, present, same | ⟨rs, _, change⟩⟩ := call_keyAt found
  · rw [same]
    exact retired before present
  · obtain ⟨later, holds, longer⟩ := retired before present
    obtain ⟨last, reached, extended⟩ :=
      change.retiredUntil (advanceKey_retiredUntil _ holds (Int.lt_of_lt_of_le inForce longer))
    exact ⟨last, reached, Int.le_trans longer extended⟩

theorem RetiredUntil.le_of_reservation {state : StoreState Cursor} {route : String} {index : Nat}
    (retired : RetiredUntil state route index deadline)
    (granted : (s.call state now (.reserve route)).2.reservation = some index) :
    deadline ≤ now := by
  obtain ⟨rs, before, registered, present, admissible⟩ := call_of_reservation granted
  obtain ⟨later, holds, longer⟩ :=
    retired before (StoreState.keyAt_eq_some.mpr ⟨rs, registered, present⟩)
  by_cases inForce : now < later
  · have out := advanceKey_retiredUntil (s := s) (s.expired rs now) holds inForce
    simp [admissibleLocked, selectableAt, out, Time.deadlineAfter, inForce] at admissible
  · omega

end Store

end ClusterRouter.Channel
