import ClusterRouter.Router.Slots

/-! In every state of every run the counters of the router are the numbers of calls that hold
what they count, and each call gives back what it took exactly once. -/

set_option autoImplicit false

namespace ClusterRouter.Router

open Foundation

namespace ProxyCall

def holds (resource : Resource) (call : ProxyCall) : Bool :=
  decide (resource ∈ call.took ∧ resource ∉ call.gave)

def queuedIn (tier : Bytes) (call : ProxyCall) : Bool :=
  call.holds .slot && decide (.tier tier ∈ call.took)

def leavesTier (tier : Bytes) (call : ProxyCall) : Bool := decide (call.leaving = some tier)

namespace Sound

variable {call : ProxyCall}

theorem holds_iff (sound : call.Sound) (resource : Resource) :
    call.holds resource = true ↔ call.pending resource = 1 := by
  have once := List.nodup_iff_count.mp sound.once resource
  have owed := sound.owed resource
  simp only [holds, decide_eq_true_eq, ← List.count_pos_iff, Nat.pos_iff_ne_zero, ne_eq]
  omega

theorem held_eq_holds (sound : call.Sound) (resource : Resource) :
    call.held resource = (call.holds resource).toInt := by
  rw [sound.held_eq]
  have atMost := sound.pending_le resource
  have isHeld := sound.holds_iff resource
  cases holds : call.holds resource with
  | true => simp [isHeld.mp holds]
  | false =>
    have notOne : call.pending resource ≠ 1 := by simp [← isHeld, holds]
    simp only [Bool.toInt_false]
    omega

theorem gone (sound : call.Sound) (gone : call.stage = .gone) (resource : Resource) :
    call.pending resource = 0 := by
  have shaped := sound.shaped
  simp only [Shaped, gone] at shaped
  cases resource <;> simp [pending, shaped, gone]

theorem pending_tier (call : ProxyCall) (tier : Bytes) :
    call.pending (.tier tier) =
      (if call.leaving = some tier then 1 else 0) +
        if tier = call.tierLabel ∧ tier ≠ [] then call.pending .slot else 0 := by
  cases done : call.dequeued <;> simp [pending, done]

/-- What a call holds of a tier is its slot in that tier, or the rest of a `dequeue` that
has given the slot back. -/
theorem held_tier (sound : call.Sound) (tier : Bytes) :
    call.held (.tier tier) = (call.queuedIn tier).toInt + (call.leavesTier tier).toInt := by
  have slot := sound.held_eq_holds .slot
  rw [sound.held_eq] at slot
  rw [sound.held_eq, pending_tier]
  simp only [queuedIn, leavesTier, sound.tiers]
  by_cases joined : tier = call.tierLabel ∧ tier ≠ []
  · rw [if_pos joined, decide_eq_true joined, Bool.and_true, ← slot]
    by_cases leaving : call.leaving = some tier
    · simp [leaving]
      omega
    · simp [leaving]
  · rw [if_neg joined, decide_eq_false joined, Bool.and_false]
    by_cases leaving : call.leaving = some tier <;> simp [leaving]

end Sound

theorem dequeue_stage (state : AdmissionState) (call : ProxyCall) :
    (dequeue state call).2.stage = call.stage := by
  unfold dequeue
  split <;> rfl

theorem dequeue_deferred (state : AdmissionState) (call : ProxyCall) :
    (dequeue state call).2.deferred = call.deferred := by
  unfold dequeue
  split <;> rfl

/-- What is left of a return: two for each deferred call, since one of them may have to
leave a tier as well. -/
def left (call : ProxyCall) : Nat :=
  2 * call.deferred.length + if call.leaving = none then 0 else 1

theorem left_le (call : ProxyCall) : call.left ≤ 2 * call.deferred.length + 1 := by
  unfold left
  split <;> omega

theorem unwinds {state : AdmissionState} {call : ProxyCall} (sound : call.Sound)
    (covered : ∀ resource, call.held resource ≤ state.level resource) :
    ∃ next after, call.unwind state = some (next, after) ∧
      (after.stage = .gone ∨
        after.stage = call.stage ∧ after.deferred.length < call.deferred.length) := by
  unfold unwind
  cases due : call.deferred with
  | nil => exact ⟨_, _, rfl, .inl rfl⟩
  | cons first rest =>
    cases first with
    | dequeue =>
      refine ⟨(dequeue state _).1, (dequeue state _).2, rfl, .inr ?_⟩
      rw [dequeue_stage, dequeue_deferred]
      exact ⟨rfl, by simp⟩
    | releaseBuffer | leaveInflight => exact ⟨_, _, rfl, .inr ⟨rfl, by simp⟩⟩
    | releaseSemaphore =>
      -- The call holds a token of its channel, so the receive does not wait.
      have enough := covered (.token call.semaphore)
      rw [sound.held_eq] at enough
      simp only [pending, due, List.count_cons_self, AdmissionState.level, if_true] at enough
      have held : 0 < state.tokens call.semaphore := by omega
      simp only [held, if_true]
      exact ⟨_, _, rfl, .inr ⟨rfl, by simp⟩⟩

theorem continues {state : AdmissionState} {call : ProxyCall} (sound : call.Sound)
    (covered : ∀ resource, call.held resource ≤ state.level resource)
    (returning : call.stage = .returning) :
    ∃ choice next after, call.act state choice = some (next, after) ∧
      (after.stage = .gone ∨ after.stage = .returning ∧ after.left < call.left) := by
  cases leaving : call.leaving with
  | some tier =>
    refine ⟨.leaveTier, state.addQueueDepthByTier tier (-1),
      { call.give (.tier tier) with leaving := none }, ?_, .inr ⟨returning, ?_⟩⟩
    · simp [act, leaving, leaveTier]
    · simp [left, leaving, give]
  | none =>
    obtain ⟨next, after, unwound, ends⟩ := unwinds sound covered
    refine ⟨.unwind, next, after, ?_, ?_⟩
    · simpa [act, leaving, proceed, returning] using unwound
    · rcases ends with gone | ⟨stays, fewer⟩
      · exact .inl gone
      · have bound := after.left_le
        refine .inr ⟨stays.trans returning, ?_⟩
        simp only [left, leaving, if_true] at bound ⊢
        omega

end ProxyCall

namespace Traffic

def CanFinish (traffic : Traffic) (index : Nat) : Prop :=
  ∃ (acts : List CallAct) (final : Traffic) (after : ProxyCall),
    admissionRules.machine.run traffic (acts.map (.act index)) = some final ∧
      final.members[index]? = some after ∧ after.stage = .gone

/-- The counters are the numbers of calls that hold what they count, nothing is given
back twice or kept, and a returning call can run to its end by itself. Between the two
halves of `dequeue` the tier of the call is still counted. -/
structure Accounted (traffic : Traffic) : Prop where
  queueDepth : traffic.shared.queueDepth = traffic.members.countP (ProxyCall.holds .slot)
  queueDepthByTier : ∀ tier, traffic.shared.queueDepthByTier tier =
    traffic.members.countP (ProxyCall.queuedIn tier) +
      traffic.members.countP (ProxyCall.leavesTier tier)
  tokens : ∀ channel, traffic.shared.tokens channel =
    traffic.members.countP (ProxyCall.holds (.token channel))
  givenOnce : ∀ call ∈ traffic.members, ∀ resource,
    call.took.count resource ≤ 1 ∧ call.gave.count resource ≤ call.took.count resource ∧
      (call.stage = .gone → call.gave.count resource = call.took.count resource)
  returns : ∀ index call, traffic.members[index]? = some call → call.stage = .returning →
    traffic.CanFinish index
  idle : (∀ call ∈ traffic.members, call.stage = .gone) →
    ∀ resource, traffic.shared.level resource = 0

namespace Balanced

variable {traffic : Traffic}

section

variable (balanced : traffic.Balanced)

include balanced

theorem covered {call : ProxyCall} (isCall : call ∈ traffic.members)
    (resource : Resource) : call.held resource ≤ traffic.shared.level resource := by
  rw [balanced.2 resource]
  exact weight_le_total
    (fun other isOther => (balanced.1 other isOther).held_nonneg resource) isCall

theorem level_eq_countP (resource : Resource) :
    traffic.shared.level resource = traffic.members.countP (ProxyCall.holds resource) := by
  rw [balanced.2 resource, ← total_indicator]
  exact total_congr fun call isCall => (balanced.1 call isCall).held_eq_holds resource

theorem level_tier (tier : Bytes) :
    traffic.shared.queueDepthByTier tier =
      traffic.members.countP (ProxyCall.queuedIn tier) +
        traffic.members.countP (ProxyCall.leavesTier tier) := by
  have level := balanced.2 (.tier tier)
  rw [total_congr fun call isCall => (balanced.1 call isCall).held_tier tier, total_add,
    total_indicator, total_indicator] at level
  exact level

theorem canFinish {index : Nat} {call : ProxyCall}
    (found : traffic.members[index]? = some call) (returning : call.stage = .returning) :
    traffic.CanFinish index := by
  induction left : call.left using Nat.strongRecOn generalizing traffic call with
  | ind left ih =>
    have isCall := List.mem_of_getElem? found
    obtain ⟨choice, state, after, acted, ends⟩ :=
      ProxyCall.continues (balanced.1 call isCall) (balanced.covered isCall) returning
    have stepped : admissionRules.machine.step traffic (.act index choice) =
        some ⟨state, traffic.members.set index after⟩ :=
      admissionRules.step_act_eq_some.mpr ⟨call, after, found, acted, rfl⟩
    have now : (traffic.members.set index after)[index]? = some after := by
      obtain ⟨bound, _⟩ := List.getElem?_eq_some_iff.mp found
      simp [bound]
    rcases ends with gone | ⟨stays, less⟩
    · refine ⟨[choice], ⟨state, traffic.members.set index after⟩, after, ?_, now, gone⟩
      simpa [Machine.run] using stepped
    · obtain ⟨acts, final, last, ran, isLast, gone⟩ :=
        ih after.left (left ▸ less) (balanced.act stepped) now stays rfl
      exact ⟨choice :: acts, final, last,
        admissionRules.machine.run_cons_eq_some.mpr ⟨_, stepped, ran⟩, isLast, gone⟩

theorem accounted : traffic.Accounted where
  queueDepth := balanced.level_eq_countP .slot
  queueDepthByTier := balanced.level_tier
  tokens := fun channel => balanced.level_eq_countP (.token channel)
  givenOnce := by
    intro call isCall resource
    have sound := balanced.1 call isCall
    have once := List.nodup_iff_count.mp sound.once resource
    have owed := sound.owed resource
    refine ⟨once, by omega, fun gone => ?_⟩
    have nothing := sound.gone gone resource
    omega
  returns := fun _ _ found returning => balanced.canFinish found returning
  idle := by
    intro gone resource
    rw [balanced.2 resource]
    refine total_eq_zero fun call isCall => ?_
    have sound := balanced.1 call isCall
    rw [sound.held_eq, sound.gone (gone call isCall) resource]
    rfl

end

end Balanced

end Traffic

/-- Whatever the calls and the reloads do, and in whatever order, no slot and no token is
lost, kept or given back twice. -/
theorem slots_never_leak {limits : Limits} {trace : List (CrowdAction CallAct RouterEvent)}
    {final : Traffic} (ran : admissionRules.machine.run (Traffic.new limits) trace = some final) :
    final.Accounted :=
  (Traffic.balanced_of_run ran).accounted

def singleSlot : Limits := ⟨1, 1⟩

/-- The first call holds a token of the first channel while a reload installs another;
the second waits on the new channel and is cancelled; the first panics. -/
def acrossReload : List (CrowdAction CallAct RouterEvent) :=
  [.event .arrive, .act 0 .snapshot, .act 0 .enqueue, .act 0 .checkDepth,
    .act 0 (.join (lit "cloud")), .act 0 .acquire, .act 0 .dequeue, .act 0 .leaveTier,
    .event (.reload ⟨4, 2⟩), .event .arrive, .act 1 .snapshot, .act 1 .enqueue,
    .act 1 .checkDepth, .act 1 (.join []), .act 0 .exit, .act 1 .cancel, .act 0 .unwind,
    .act 1 .dequeue]

theorem slots_never_leak_across_reload :
    ∃ final : Traffic,
      admissionRules.machine.run (Traffic.new singleSlot) acrossReload = some final ∧
      final.members.map (·.stage) = [.returning, .returning] ∧
      final.shared.queueDepthByTier (lit "unknown") = 1 ∧ final.Accounted := by
  have ran : admissionRules.machine.run (Traffic.new singleSlot) acrossReload = some _ := rfl
  exact ⟨_, ran, by decide +kernel, by decide +kernel, slots_never_leak ran⟩

/-- A call on its way out of the queue, between the two counters that `dequeue` lowers. -/
def leavingQueue : List (CrowdAction CallAct RouterEvent) :=
  [.event .arrive, .act 0 .snapshot, .act 0 .enqueue, .act 0 .checkDepth,
    .act 0 (.join (lit "cloud")), .act 0 .acquire, .act 0 .dequeue]

/-- The router-wide depth no longer counts the call, its tier still does. -/
theorem tier_outlasts_slot :
    ∃ final : Traffic,
      admissionRules.machine.run (Traffic.new singleSlot) leavingQueue = some final ∧
      final.shared.queueDepth = 0 ∧
      final.members.countP (ProxyCall.queuedIn (lit "cloud")) = 0 ∧
      final.shared.queueDepthByTier (lit "cloud") = 1 := by
  have ran : admissionRules.machine.run (Traffic.new singleSlot) leavingQueue = some _ := rfl
  exact ⟨_, ran, by decide +kernel, by decide +kernel, by decide +kernel⟩

end ClusterRouter.Router
