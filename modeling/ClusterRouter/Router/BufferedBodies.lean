import ClusterRouter.Router.SlotAccounting

/-! A body is counted from `beginBuffering` until its release, the last but one of the deferred
calls. The slot it is covered by goes back earlier, so the bound of `MaxQueueDepth +
MaxConcurrency` bodies is kept as long as such bodies are left room for. -/

set_option autoImplicit false

namespace ClusterRouter.Router

open Foundation

namespace ProxyCall

def awaits (call : ProxyCall) : Bool :=
  call.holds .buffer && decide (.token call.semaphore ∉ call.took)

def served (call : ProxyCall) : Bool :=
  call.holds .buffer && decide (.token call.semaphore ∈ call.took)

def cleared (call : ProxyCall) : Bool :=
  match call.stage with
  | .counted depth => decide (depth ≤ call.maxQueueDepth)
  | _ => false

/-- The body of a call cancelled in the queue, whose slot is given back already. -/
def outlivesSlot (call : ProxyCall) : Bool := call.awaits && !call.holds .slot

/-- The body of a served call, whose token is given back already. -/
def outlivesToken (call : ProxyCall) : Bool := call.served && !call.holds (.token call.semaphore)

def queueWeight (call : ProxyCall) : Int := call.awaits.toInt + call.cleared.toInt

def serveWeight (call : ProxyCall) : Int := call.served.toInt

section

variable {state next : AdmissionState} {call after : ProxyCall}

theorem awaits_iff : call.awaits = true ↔
    .buffer ∈ call.took ∧ .buffer ∉ call.gave ∧ .token call.semaphore ∉ call.took := by
  simp [awaits, holds, and_assoc]

theorem served_iff : call.served = true ↔
    .buffer ∈ call.took ∧ .buffer ∉ call.gave ∧ .token call.semaphore ∈ call.took := by
  simp [served, holds, and_assoc]

theorem awaits_dequeue (awaits : (dequeue state call).2.awaits = true) : call.awaits = true := by
  unfold dequeue at awaits
  split at awaits
  · exact awaits
  · simpa [awaits_iff, give] using awaits

theorem served_dequeue (served : (dequeue state call).2.served = true) : call.served = true := by
  unfold dequeue at served
  split at served
  · exact served
  · simpa [served_iff, give] using served

variable {choice : CallAct}

theorem Sound.awaits_step (sound : call.Sound) (stepped : Step state call choice next after)
    (awaits : after.awaits = true) :
    call.awaits = true ∨ call.cleared = true := by
  have shaped := sound.shaped
  cases stepped with
  | snapshot stage =>
    simp only [Shaped, stage] at shaped
    simp [awaits_iff, snapshot, shaped] at awaits
  | enqueue stage =>
    simp only [Shaped, stage] at shaped
    simp [awaits_iff, enqueue, ProxyCall.take, shaped] at awaits
  | beginBuffering stage room => exact .inr (by simp [cleared, stage, room])
  | acquire stage room => simp [awaits_iff, ProxyCall.take] at awaits
  | join tier stage => exact .inl (by simpa [awaits_iff, join, ProxyCall.take] using awaits)
  | enter stage => exact .inl (by simpa [awaits_iff, ProxyCall.take] using awaits)
  | refuse | cancel | exit | finish => exact .inl awaits
  | serve stage dequeued | abandon stage dequeued | runDequeue stage isNext dequeued =>
    subst dequeued
    have before := awaits_dequeue awaits
    exact .inl before
  | releaseBuffer stage isNext => simp [awaits_iff, ProxyCall.give] at awaits
  | releaseSemaphore | leaveInflight =>
    exact .inl (by simpa [awaits_iff, ProxyCall.give] using awaits)

theorem Sound.served_step (sound : call.Sound) (stepped : Step state call choice next after)
    (other : choice ≠ .acquire) (served : after.served = true) : call.served = true := by
  have shaped := sound.shaped
  cases stepped with
  | snapshot stage =>
    simp only [Shaped, stage] at shaped
    simp [served_iff, snapshot, shaped] at served
  | acquire stage room => exact absurd rfl other
  | enqueue stage => simpa [served_iff, enqueue, ProxyCall.take] using served
  | beginBuffering stage room =>
    simp only [Shaped, stage] at shaped
    simp [served_iff, beginBuffering, ProxyCall.take, shaped] at served
  | join tier stage => simpa [served_iff, join, ProxyCall.take] using served
  | enter stage => simpa [served_iff, ProxyCall.take] using served
  | refuse | cancel | exit | finish => exact served
  | serve stage dequeued | abandon stage dequeued | runDequeue stage isNext dequeued =>
    subst dequeued
    have before := served_dequeue served
    exact before
  | releaseBuffer stage isNext => simp [served_iff, ProxyCall.give] at served
  | releaseSemaphore | leaveInflight => simpa [served_iff, ProxyCall.give] using served

theorem cleared_step (stepped : Step state call choice next after)
    (cleared : after.cleared = true) :
    choice = .enqueue ∧ state.queueDepth + 1 ≤ call.maxQueueDepth := by
  cases stepped with
  | enqueue stage => exact ⟨rfl, of_decide_eq_true cleared⟩
  | serve stage dequeued | abandon stage dequeued =>
    subst dequeued
    simp [ProxyCall.cleared, dequeue_stage] at cleared
  | runDequeue stage isNext dequeued =>
    subst dequeued
    simp [ProxyCall.cleared, dequeue_stage, stage] at cleared
  | _ => simp_all [ProxyCall.cleared, snapshot, beginBuffering, join, ProxyCall.take, ProxyCall.give]

theorem Sound.queueWeight_step (sound : call.Sound) (stepped : Step state call choice next after) :
    after.queueWeight ≤ call.queueWeight ∨
      choice = .enqueue ∧ state.queueDepth + 1 ≤ call.maxQueueDepth ∧
        after.queueWeight ≤ call.queueWeight + 1 := by
  have body : after.awaits.toInt ≤ call.queueWeight := by
    have before := sound.awaits_step stepped
    unfold queueWeight
    cases awaits : after.awaits with
    | true =>
      rcases before awaits with earlier | earlier
      · cases call.cleared <;> simp [earlier]
      · cases call.awaits <;> simp [earlier]
    | false => cases call.awaits <;> cases call.cleared <;> simp
  cases cleared : after.cleared with
  | true =>
    obtain ⟨isEnqueue, room⟩ := cleared_step stepped cleared
    refine .inr ⟨isEnqueue, room, ?_⟩
    rw [queueWeight, cleared, Bool.toInt_true]
    omega
  | false =>
    refine .inl ?_
    rw [queueWeight, cleared, Bool.toInt_false]
    omega

theorem Sound.queueWeight_le (sound : call.Sound) :
    call.queueWeight ≤ (call.holds .slot).toInt + call.outlivesSlot.toInt := by
  have shaped := sound.shaped
  unfold queueWeight outlivesSlot
  cases cleared : call.cleared with
  | true =>
    unfold ProxyCall.cleared at cleared
    split at cleared
    next depth stage =>
      simp only [Shaped, stage] at shaped
      have slot : call.holds .slot = true := by
        rw [sound.holds_iff]
        simp [pending, shaped]
      have notYet : call.awaits = false := by simp [awaits, holds, shaped]
      simp [notYet, slot]
    next => cases cleared
  | false => cases call.awaits <;> cases call.holds .slot <;> simp

theorem serveWeight_le (call : ProxyCall) :
    call.serveWeight ≤ (call.holds (.token call.semaphore)).toInt + call.outlivesToken.toInt := by
  unfold serveWeight outlivesToken
  cases call.served <;> cases call.holds (.token call.semaphore) <;> simp

theorem Sound.serveWeight_step (sound : call.Sound) (stepped : Step state call choice next after) :
    after.serveWeight ≤ call.serveWeight ∨
      choice = .acquire ∧ after.serveWeight ≤ call.serveWeight + 1 := by
  unfold serveWeight
  cases served : after.served with
  | false =>
    refine .inl ?_
    cases call.served <;> simp
  | true =>
    cases before : call.served with
    | true => exact .inl (Int.le_refl _)
    | false =>
      refine .inr ⟨?_, by simp⟩
      by_cases isAcquire : choice = .acquire
      · exact isAcquire
      · simp [sound.served_step stepped isAcquire served] at before

theorem buffer_le (call : ProxyCall) :
    (call.holds .buffer).toInt ≤ call.queueWeight + call.serveWeight := by
  unfold queueWeight serveWeight awaits served
  by_cases sent : .token call.semaphore ∈ call.took <;>
    cases call.holds .buffer <;> cases call.cleared <;> simp [sent]

/-! ## Both weights along one act -/

theorem queueWeight_leaveTier (call : ProxyCall) (tier : Bytes) :
    queueWeight { call.give (.tier tier) with leaving := none } = call.queueWeight := by
  have awaits : awaits { call.give (.tier tier) with leaving := none } = call.awaits := by
    rw [Bool.eq_iff_iff, awaits_iff, awaits_iff]
    simp [give]
  rw [queueWeight, awaits]
  rfl

theorem serveWeight_leaveTier (call : ProxyCall) (tier : Bytes) :
    serveWeight { call.give (.tier tier) with leaving := none } = call.serveWeight := by
  have served : served { call.give (.tier tier) with leaving := none } = call.served := by
    rw [Bool.eq_iff_iff, served_iff, served_iff]
    simp [give]
  rw [serveWeight, served]
  rfl

theorem Sound.queueWeight_act (sound : call.Sound)
    (acted : call.act state choice = some (next, after)) :
    after.queueWeight ≤ call.queueWeight ∨
      choice = .enqueue ∧ state.queueDepth + 1 ≤ call.maxQueueDepth ∧
        after.queueWeight ≤ call.queueWeight + 1 := by
  rcases act_cases acted with ⟨_, stepped⟩ | ⟨tier, _, _, rfl⟩
  · exact sound.queueWeight_step stepped
  · exact .inl (Int.le_of_eq (call.queueWeight_leaveTier tier))

theorem Sound.serveWeight_act (sound : call.Sound)
    (acted : call.act state choice = some (next, after)) :
    after.serveWeight ≤ call.serveWeight ∨
      choice = .acquire ∧ after.serveWeight ≤ call.serveWeight + 1 := by
  rcases act_cases acted with ⟨_, stepped⟩ | ⟨tier, _, _, rfl⟩
  · exact sound.serveWeight_step stepped
  · exact .inl (Int.le_of_eq (call.serveWeight_leaveTier tier))

/-! ## Limits and snapshots along one act -/

theorem dequeue_limits (state : AdmissionState) (call : ProxyCall) :
    (dequeue state call).1.maxQueueDepth = state.maxQueueDepth ∧
      (dequeue state call).1.semaphore = state.semaphore ∧
      (dequeue state call).1.capacity = state.capacity := by
  unfold dequeue
  split <;> exact ⟨rfl, rfl, rfl⟩

theorem dequeue_snapshot (state : AdmissionState) (call : ProxyCall) :
    (dequeue state call).2.maxQueueDepth = call.maxQueueDepth ∧
      (dequeue state call).2.semaphore = call.semaphore := by
  unfold dequeue
  split <;> exact ⟨rfl, rfl⟩

theorem limits_act (acted : call.act state choice = some (next, after)) :
    next.maxQueueDepth = state.maxQueueDepth ∧ next.semaphore = state.semaphore ∧
      next.capacity = state.capacity := by
  rcases act_cases acted with ⟨_, stepped⟩ | ⟨tier, _, rfl, _⟩
  · cases stepped with
    | serve stage dequeued | abandon stage dequeued | runDequeue stage isNext dequeued =>
      exact dequeued ▸ dequeue_limits state _
    | _ => exact ⟨rfl, rfl, rfl⟩
  · exact ⟨rfl, rfl, rfl⟩

theorem snapshot_act (acted : call.act state choice = some (next, after)) :
    after.maxQueueDepth = state.maxQueueDepth ∧ after.semaphore = state.semaphore ∨
      after.maxQueueDepth = call.maxQueueDepth ∧ after.semaphore = call.semaphore ∧
        (call.stage = .arrived → after.stage = .arrived) := by
  rcases act_cases acted with ⟨_, stepped⟩ | ⟨tier, _, _, rfl⟩
  · cases stepped with
    | snapshot stage => exact .inl ⟨rfl, rfl⟩
    | serve stage dequeued =>
      subst dequeued
      have kept := dequeue_snapshot state
        { call with stage := .serving, deferred := .releaseSemaphore :: call.deferred }
      exact .inr ⟨kept.1, kept.2, by simp [stage]⟩
    | abandon stage dequeued =>
      subst dequeued
      have kept := dequeue_snapshot state { call with stage := .returning }
      exact .inr ⟨kept.1, kept.2, by simp [stage]⟩
    | runDequeue stage isNext dequeued =>
      subst dequeued
      rename_i rest
      have kept := dequeue_snapshot state { call with deferred := rest }
      exact .inr ⟨kept.1, kept.2, by simp [stage]⟩
    | exit stage =>
      refine .inr ⟨rfl, rfl, fun arrived => ?_⟩
      simp [arrived] at stage
    | _ => exact .inr ⟨rfl, rfl, by simp [*]⟩
  · exact .inr ⟨rfl, rfl, fun arrived => arrived⟩

end

end ProxyCall

namespace Traffic

/-- Bodies that outlived their slot or token are left room for: a call that will be let
into the queue finds room for them too, and so does a call that sends a token. -/
def leavesRoom (traffic : Traffic) : CrowdAction CallAct RouterEvent → Prop
  | .act _ .enqueue =>
    traffic.shared.queueDepth + 1 ≤ traffic.shared.maxQueueDepth →
      traffic.shared.queueDepth + 1 + traffic.members.countP ProxyCall.outlivesSlot ≤
        traffic.shared.maxQueueDepth
  | .act _ .acquire =>
    traffic.shared.tokens traffic.shared.semaphore +
        traffic.members.countP ProxyCall.outlivesToken <
      traffic.shared.capacity traffic.shared.semaphore
  | _ => True

instance (traffic : Traffic) (action : CrowdAction CallAct RouterEvent) :
    Decidable (traffic.leavesRoom action) := by
  unfold leavesRoom
  split <;> infer_instance

structure Bounded (limits : Limits) (traffic : Traffic) : Prop where
  balanced : traffic.Balanced
  maxQueueDepth : traffic.shared.maxQueueDepth = limits.maxQueueDepth
  semaphore : traffic.shared.semaphore = 0
  capacity : traffic.shared.capacity 0 = limits.maxConcurrency
  snapshots : ∀ call ∈ traffic.members,
    call.semaphore = 0 ∧ (call.stage ≠ .arrived → call.maxQueueDepth = limits.maxQueueDepth)
  queued : total ProxyCall.queueWeight traffic.members ≤ limits.maxQueueDepth
  served : total ProxyCall.serveWeight traffic.members ≤ limits.maxConcurrency

namespace Bounded

variable {limits : Limits} {traffic next : Traffic}

theorem start (limits : Limits) : Bounded limits (.new limits) where
  balanced := balanced_new limits
  maxQueueDepth := rfl
  semaphore := rfl
  capacity := rfl
  snapshots := fun _ isCall => absurd isCall List.not_mem_nil
  queued := Int.natCast_nonneg _
  served := Int.natCast_nonneg _

section

variable (bounded : Bounded limits traffic)

include bounded

theorem arrive (stepped : admissionRules.machine.step traffic (.event .arrive) = some next) :
    Bounded limits next := by
  have balanced := bounded.balanced.event stepped
  rw [CrowdRules.step_event] at stepped
  cases stepped
  refine ⟨balanced, bounded.maxQueueDepth, bounded.semaphore, bounded.capacity, ?_, ?_, ?_⟩
  · exact forall_mem_concat bounded.snapshots ⟨rfl, fun notArrived => absurd rfl notArrived⟩
  · have weightless : ProxyCall.arrive.queueWeight = 0 := rfl
    simpa [admissionRules, weightless] using bounded.queued
  · have weightless : ProxyCall.arrive.serveWeight = 0 := rfl
    simpa [admissionRules, weightless] using bounded.served

theorem queued_le :
    total ProxyCall.queueWeight traffic.members ≤
      traffic.shared.queueDepth + traffic.members.countP ProxyCall.outlivesSlot := by
  have slots := bounded.balanced.level_eq_countP .slot
  simp only [AdmissionState.level] at slots
  rw [slots, ← total_indicator, ← total_indicator, ← total_add]
  exact total_le_total fun call isCall => (bounded.balanced.1 call isCall).queueWeight_le

theorem served_le :
    total ProxyCall.serveWeight traffic.members ≤
      traffic.shared.tokens 0 + traffic.members.countP ProxyCall.outlivesToken := by
  have tokens := bounded.balanced.level_eq_countP (.token 0)
  simp only [AdmissionState.level] at tokens
  rw [tokens, ← total_indicator, ← total_indicator, ← total_add]
  refine total_le_total fun call isCall => ?_
  have weight := call.serveWeight_le
  rwa [(bounded.snapshots call isCall).1] at weight

theorem act {index : Nat} {choice : CallAct} (room : traffic.leavesRoom (.act index choice))
    (stepped : admissionRules.machine.step traffic (.act index choice) = some next) :
    Bounded limits next := by
  obtain ⟨call, after, found, acted, members⟩ := admissionRules.step_act_eq_some.mp stepped
  have isCall := List.mem_of_getElem? found
  have sound := bounded.balanced.1 call isCall
  obtain ⟨depth, semaphore, capacity⟩ := ProxyCall.limits_act acted
  obtain ⟨snapSemaphore, snapDepth⟩ := bounded.snapshots call isCall
  have queuedLe := bounded.queued_le
  have servedLe := bounded.served_le
  have queuedBefore := bounded.queued
  have servedBefore := bounded.served
  refine ⟨bounded.balanced.act stepped, depth.trans bounded.maxQueueDepth,
    semaphore.trans bounded.semaphore, ?_, ?_, ?_, ?_⟩
  · rw [capacity]
    exact bounded.capacity
  · intro other isOther
    rw [members] at isOther
    rcases List.mem_or_eq_of_mem_set isOther with earlier | rfl
    · exact bounded.snapshots other earlier
    · rcases ProxyCall.snapshot_act acted with ⟨readDepth, readSemaphore⟩ | ⟨keptDepth, keptSemaphore, stays⟩
      · exact ⟨readSemaphore.trans bounded.semaphore,
          fun _ => readDepth.trans bounded.maxQueueDepth⟩
      · exact ⟨keptSemaphore.trans snapSemaphore,
          fun notArrived => keptDepth.trans (snapDepth fun arrived => notArrived (stays arrived))⟩
  · rw [members, total_set after found]
    rcases sound.queueWeight_act acted with less | ⟨rfl, fits, more⟩
    · omega
    · -- The depth the call is told is one above the slots held.
      have told : call.maxQueueDepth = limits.maxQueueDepth := by
        refine snapDepth fun arrived => ?_
        simp [admissionRules, ProxyCall.act, ProxyCall.proceed, arrived] at acted
      have fitsAll := room (by rw [bounded.maxQueueDepth, ← told]; exact fits)
      rw [bounded.maxQueueDepth] at fitsAll
      omega
  · rw [members, total_set after found]
    rcases sound.serveWeight_act acted with less | ⟨rfl, more⟩
    · omega
    · simp only [leavesRoom, bounded.semaphore, bounded.capacity] at room
      omega

theorem bodies_le :
    traffic.members.countP (ProxyCall.holds .buffer) ≤
      limits.maxQueueDepth + limits.maxConcurrency := by
  have queued := bounded.queued
  have served := bounded.served
  have bodies : total (fun call => (ProxyCall.holds .buffer call).toInt) traffic.members ≤
      total (fun call => call.queueWeight + call.serveWeight) traffic.members :=
    total_le_total fun call _ => call.buffer_le
  rw [total_indicator, total_add] at bodies
  omega

end

end Bounded

end Traffic

def keepsConfiguration : CrowdAction CallAct RouterEvent → Bool
  | .event (.reload _) => false
  | _ => true

/-- Under one configuration, as long as bodies that have outlived their slot or token are
left room for, at most `MaxQueueDepth + MaxConcurrency` bodies are in memory. -/
theorem bodies_bounded {limits : Limits} {trace : List (CrowdAction CallAct RouterEvent)}
    {final : Traffic} (fixed : ∀ action ∈ trace, keepsConfiguration action = true)
    (met : admissionRules.machine.Meets Traffic.leavesRoom (Traffic.new limits) trace)
    (ran : admissionRules.machine.run (Traffic.new limits) trace = some final) :
    final.shared.buffering = final.members.countP (ProxyCall.holds .buffer) ∧
      final.members.countP (ProxyCall.holds .buffer) ≤
        limits.maxQueueDepth + limits.maxConcurrency := by
  have both := admissionRules.machine.meets_and met
    (admissionRules.machine.meets_of_forall fixed (Traffic.new limits))
  have bounded : final.Bounded limits := by
    refine admissionRules.machine.run_invariant_of_meets (Traffic.Bounded limits) ?_ both ran
      (.start limits)
    rintro traffic action next ⟨room, keeps⟩ stepped bounded
    cases action with
    | act index choice => exact bounded.act room stepped
    | event event =>
      cases event with
      | arrive => exact bounded.arrive stepped
      | reload limits => cases keeps
  exact ⟨bounded.balanced.level_eq_countP .buffer, bounded.bodies_le⟩

def servedCall (index : Nat) : List (CrowdAction CallAct RouterEvent) :=
  [.event .arrive, .act index .snapshot, .act index .enqueue, .act index .checkDepth,
    .act index (.join (lit "cloud")), .act index .acquire, .act index .dequeue,
    .act index .leaveTier]

def readingCall (index : Nat) : List (CrowdAction CallAct RouterEvent) :=
  [.event .arrive, .act index .snapshot, .act index .enqueue, .act index .checkDepth]

/-- The second call is served after the first has released its body. -/
def releasedFirst : List (CrowdAction CallAct RouterEvent) :=
  servedCall 0 ++ [.act 0 .exit, .act 0 .unwind, .act 0 .unwind] ++ servedCall 1 ++ readingCall 2

theorem bodies_bounded_released_first :
    ∃ final : Traffic,
      admissionRules.machine.run (Traffic.new singleSlot) releasedFirst = some final ∧
      final.members.countP (ProxyCall.holds .buffer) = 2 ∧
      final.members.countP (ProxyCall.holds .buffer) ≤ 1 + 1 := by
  have ran : admissionRules.machine.run (Traffic.new singleSlot) releasedFirst = some _ := rfl
  exact ⟨_, ran, by decide +kernel,
    (bodies_bounded (by decide +kernel) (by decide +kernel) ran).2⟩

/-- The second call is served between the two releases of the first. -/
def tokenFirst : List (CrowdAction CallAct RouterEvent) :=
  servedCall 0 ++ [.act 0 .exit, .act 0 .unwind] ++ servedCall 1 ++ readingCall 2

theorem third_body_in_memory :
    (∀ action ∈ tokenFirst, keepsConfiguration action = true) ∧
      ∃ final : Traffic,
        admissionRules.machine.run (Traffic.new singleSlot) tokenFirst = some final ∧
        final.members.countP (ProxyCall.holds .buffer) = 3 ∧
        singleSlot.maxQueueDepth + singleSlot.maxConcurrency = 2 := by
  exact ⟨by decide +kernel, _, rfl, by decide +kernel, rfl⟩

end ClusterRouter.Router
