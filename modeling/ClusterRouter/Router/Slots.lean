import ClusterRouter.Foundation.Bytes
import ClusterRouter.Foundation.Crowd

/-! `handleProxy` takes a queue slot, counts its body, joins the gauge of a tier, sends a token
to the semaphore of its snapshot, and gives all of them back through its deferred calls. Any
number of such calls run here against one router, one statement on shared state at a time, while
reloads replace the limits and the semaphore. Each call also keeps what it took and gave back,
which no step reads. -/

set_option autoImplicit false

namespace ClusterRouter.Router

open Foundation

/-- `LoadConfig` replaces a limit that is not positive by its default. -/
structure Limits where
  maxQueueDepth : Nat
  maxConcurrency : Nat

inductive Resource where
  | slot
  | tier (label : Bytes)
  | token (channel : Nat)
  | buffer
  | inflight
deriving DecidableEq

/-- The counters of the router. Semaphore channels are numbered in the order they are
made, and those of earlier configurations stay for the calls that hold them. -/
structure AdmissionState where
  maxQueueDepth : Nat
  semaphore : Nat
  capacity : Nat → Nat
  tokens : Nat → Int
  queueDepth : Int
  queueDepthByTier : Bytes → Int
  buffering : Int
  inflight : Int

namespace AdmissionState

def new (limits : Limits) : AdmissionState where
  maxQueueDepth := limits.maxQueueDepth
  semaphore := 0
  capacity := fun _ => limits.maxConcurrency
  tokens := fun _ => 0
  queueDepth := 0
  queueDepthByTier := fun _ => 0
  buffering := 0
  inflight := 0

def reload (state : AdmissionState) (limits : Limits) : AdmissionState :=
  { state with
    maxQueueDepth := limits.maxQueueDepth
    semaphore := state.semaphore + 1
    capacity := fun channel =>
      if channel = state.semaphore + 1 then limits.maxConcurrency else state.capacity channel }

def addQueueDepthByTier (state : AdmissionState) (tier : Bytes) (delta : Int) : AdmissionState :=
  let next := state.queueDepthByTier tier + delta
  let next := if next < 0 then 0 else next
  { state with
    queueDepthByTier := fun label => if label = tier then next else state.queueDepthByTier label }

def addToken (state : AdmissionState) (channel : Nat) (delta : Int) : AdmissionState :=
  { state with
    tokens := fun other =>
      if other = channel then state.tokens channel + delta else state.tokens other }

def level (resource : Resource) (state : AdmissionState) : Int :=
  match resource with
  | .slot => state.queueDepth
  | .tier label => state.queueDepthByTier label
  | .token channel => state.tokens channel
  | .buffer => state.buffering
  | .inflight => state.inflight

end AdmissionState

def metricLabel (value fallback : Bytes) : Bytes :=
  if Bytes.trimSpace value = [] then fallback else Bytes.trimSpace value

theorem metricLabel_ne_nil {value fallback : Bytes} (named : fallback ≠ []) :
    metricLabel value fallback ≠ [] := by
  unfold metricLabel
  split
  · exact named
  · assumption

inductive CallStage where
  | arrived
  | snapped
  /-- The queue depth this call was told. -/
  | counted (depth : Int)
  /-- The body is counted, read and routed. -/
  | buffering
  /-- The tier is joined; the call is in the `select`. -/
  | waiting
  | acquired
  | cancelled
  | serving
  | proxying
  | returning
  | gone
deriving DecidableEq

inductive Deferred where
  | dequeue
  | releaseBuffer
  | releaseSemaphore
  | leaveInflight
deriving DecidableEq

/-- One call of `handleProxy`: its snapshot, its locals and its deferred calls, the last
deferred first. -/
structure ProxyCall where
  stage : CallStage
  maxQueueDepth : Nat
  semaphore : Nat
  tierLabel : Bytes
  dequeued : Bool
  /-- The tier still to be left by a `dequeue` that has lowered the router-wide depth. -/
  leaving : Option Bytes
  deferred : List Deferred
  took : List Resource
  gave : List Resource
deriving DecidableEq

namespace ProxyCall

def arrive : ProxyCall := ⟨.arrived, 0, 0, [], false, none, [], [], []⟩

def take (call : ProxyCall) (resource : Resource) : ProxyCall :=
  { call with took := call.took ++ [resource] }

def give (call : ProxyCall) (resource : Resource) : ProxyCall :=
  { call with gave := call.gave ++ [resource] }

def snapshot (state : AdmissionState) (call : ProxyCall) : ProxyCall :=
  { call with
    stage := .snapped, maxQueueDepth := state.maxQueueDepth, semaphore := state.semaphore }

def enqueue (state : AdmissionState) (call : ProxyCall) : AdmissionState × ProxyCall :=
  ({ state with queueDepth := state.queueDepth + 1 },
    { call.take .slot with
      stage := .counted (state.queueDepth + 1), deferred := .dequeue :: call.deferred })

def beginBuffering (state : AdmissionState) (call : ProxyCall) : AdmissionState × ProxyCall :=
  ({ state with buffering := state.buffering + 1 },
    { call.take .buffer with stage := .buffering, deferred := .releaseBuffer :: call.deferred })

def join (state : AdmissionState) (call : ProxyCall) (tier : Bytes) : AdmissionState × ProxyCall :=
  let label := metricLabel tier (lit "unknown")
  (state.addQueueDepthByTier label 1,
    { call.take (.tier label) with stage := .waiting, tierLabel := label })

/-- The first half of `dequeue`; `leaveTier` is the second. -/
def dequeue (state : AdmissionState) (call : ProxyCall) : AdmissionState × ProxyCall :=
  if call.dequeued then (state, call)
  else
    ({ state with queueDepth := state.queueDepth - 1 },
      { call.give .slot with
        dequeued := true
        leaving := if call.tierLabel = [] then none else some call.tierLabel })

/-- The next deferred call of a handler that returns or panics. -/
def unwind (state : AdmissionState) (call : ProxyCall) : Option (AdmissionState × ProxyCall) :=
  match call.deferred with
  | [] => some (state, { call with stage := .gone })
  | .dequeue :: rest => some (dequeue state { call with deferred := rest })
  | .releaseBuffer :: rest =>
    some ({ state with buffering := state.buffering - 1 },
      { call.give .buffer with deferred := rest })
  | .releaseSemaphore :: rest =>
    -- Receiving from an empty channel would wait.
    if 0 < state.tokens call.semaphore then
      some (state.addToken call.semaphore (-1),
        { call.give (.token call.semaphore) with deferred := rest })
    else none
  | .leaveInflight :: rest =>
    some ({ state with inflight := state.inflight - 1 },
      { call.give .inflight with deferred := rest })

end ProxyCall

inductive CallAct where
  | snapshot
  | enqueue
  | checkDepth
  | join (tier : Bytes)
  | acquire
  | cancel
  | dequeue
  | leaveTier
  | enter
  | exit
  | unwind

namespace ProxyCall

def leaveTier (state : AdmissionState) (call : ProxyCall) : Option (AdmissionState × ProxyCall) :=
  call.leaving.map fun tier =>
    (state.addQueueDepthByTier tier (-1), { call.give (.tier tier) with leaving := none })

/-- What a call does next, once no `dequeue` of its own is half done. A refusal, an error
and a panic all leave by `exit`; between the token sent and the deferred receive there is
only `dequeue`, whose label `join` has already registered, so nothing leaves there. -/
def proceed (state : AdmissionState) (call : ProxyCall) :
    CallAct → Option (AdmissionState × ProxyCall)
  | .snapshot => if call.stage = .arrived then some (state, call.snapshot state) else none
  | .enqueue => if call.stage = .snapped then some (call.enqueue state) else none
  | .checkDepth =>
    match call.stage with
    | .counted depth =>
      if (call.maxQueueDepth : Int) < depth then some (state, { call with stage := .returning })
      else some (call.beginBuffering state)
    | _ => none
  | .join tier => if call.stage = .buffering then some (call.join state tier) else none
  | .acquire =>
    if call.stage = .waiting ∧ state.tokens call.semaphore < state.capacity call.semaphore then
      some (state.addToken call.semaphore 1,
        { call.take (.token call.semaphore) with stage := .acquired })
    else none
  | .cancel => if call.stage = .waiting then some (state, { call with stage := .cancelled }) else none
  | .dequeue =>
    match call.stage with
    | .acquired =>
      some (dequeue state
        { call with stage := .serving, deferred := .releaseSemaphore :: call.deferred })
    | .cancelled => some (dequeue state { call with stage := .returning })
    | _ => none
  | .leaveTier => none
  | .enter =>
    if call.stage = .serving then
      some ({ state with inflight := state.inflight + 1 },
        { call.take .inflight with
          stage := .proxying, deferred := .leaveInflight :: call.deferred })
    else none
  | .exit =>
    if call.stage ∈ [.snapped, .buffering, .waiting, .serving, .proxying] then
      some (state, { call with stage := .returning })
    else none
  | .unwind => if call.stage = .returning then call.unwind state else none

def act (state : AdmissionState) (call : ProxyCall) (choice : CallAct) :
    Option (AdmissionState × ProxyCall) :=
  if call.leaving = none then call.proceed state choice
  else match choice with
    | .leaveTier => call.leaveTier state
    | _ => none

end ProxyCall

inductive RouterEvent where
  | arrive
  | reload (limits : Limits)

def admissionRules : CrowdRules AdmissionState ProxyCall CallAct RouterEvent where
  act := fun state call choice => call.act state choice
  occur := fun state event =>
    match event with
    | .arrive => (state, [.arrive])
    | .reload limits => (state.reload limits, [])

abbrev Traffic := Crowd AdmissionState ProxyCall

def Traffic.new (limits : Limits) : Traffic := ⟨.new limits, []⟩

/-! ## What one step does -/

namespace ProxyCall

/-- The steps of a call that is not inside `dequeue`, one constructor for each statement
on shared state. -/
inductive Step (state : AdmissionState) (call : ProxyCall) :
    CallAct → AdmissionState → ProxyCall → Prop
  | snapshot (stage : call.stage = .arrived) : Step state call .snapshot state (call.snapshot state)
  | enqueue (stage : call.stage = .snapped) :
      Step state call .enqueue (call.enqueue state).1 (call.enqueue state).2
  | refuse {depth : Int} (stage : call.stage = .counted depth)
      (full : (call.maxQueueDepth : Int) < depth) :
      Step state call .checkDepth state { call with stage := .returning }
  | beginBuffering {depth : Int} (stage : call.stage = .counted depth)
      (room : depth ≤ call.maxQueueDepth) :
      Step state call .checkDepth (call.beginBuffering state).1 (call.beginBuffering state).2
  | join (tier : Bytes) (stage : call.stage = .buffering) :
      Step state call (.join tier) (call.join state tier).1 (call.join state tier).2
  | acquire (stage : call.stage = .waiting)
      (room : state.tokens call.semaphore < state.capacity call.semaphore) :
      Step state call .acquire (state.addToken call.semaphore 1)
        { call.take (.token call.semaphore) with stage := .acquired }
  | cancel (stage : call.stage = .waiting) : Step state call .cancel state { call with stage := .cancelled }
  | serve (stage : call.stage = .acquired) {next : AdmissionState × ProxyCall}
      (dequeued : next = dequeue state
        { call with stage := .serving, deferred := .releaseSemaphore :: call.deferred }) :
      Step state call .dequeue next.1 next.2
  | abandon (stage : call.stage = .cancelled) {next : AdmissionState × ProxyCall}
      (dequeued : next = dequeue state { call with stage := .returning }) :
      Step state call .dequeue next.1 next.2
  | enter (stage : call.stage = .serving) :
      Step state call .enter { state with inflight := state.inflight + 1 }
        { call.take .inflight with stage := .proxying, deferred := .leaveInflight :: call.deferred }
  | exit (stage : call.stage ∈ [.snapped, .buffering, .waiting, .serving, .proxying]) :
      Step state call .exit state { call with stage := .returning }
  | finish (stage : call.stage = .returning) (none : call.deferred = []) :
      Step state call .unwind state { call with stage := .gone }
  | runDequeue (stage : call.stage = .returning) {rest : List Deferred}
      (next : call.deferred = .dequeue :: rest) {after : AdmissionState × ProxyCall}
      (dequeued : after = dequeue state { call with deferred := rest }) :
      Step state call .unwind after.1 after.2
  | releaseBuffer (stage : call.stage = .returning) {rest : List Deferred}
      (next : call.deferred = .releaseBuffer :: rest) :
      Step state call .unwind { state with buffering := state.buffering - 1 }
        { call.give .buffer with deferred := rest }
  | releaseSemaphore (stage : call.stage = .returning) {rest : List Deferred}
      (next : call.deferred = .releaseSemaphore :: rest)
      (held : 0 < state.tokens call.semaphore) :
      Step state call .unwind (state.addToken call.semaphore (-1))
        { call.give (.token call.semaphore) with deferred := rest }
  | leaveInflight (stage : call.stage = .returning) {rest : List Deferred}
      (next : call.deferred = .leaveInflight :: rest) :
      Step state call .unwind { state with inflight := state.inflight - 1 }
        { call.give .inflight with deferred := rest }

variable {state next : AdmissionState} {call after : ProxyCall}

theorem step_of_unwind (stage : call.stage = .returning)
    (unwound : call.unwind state = some (next, after)) :
    Step state call .unwind next after := by
  unfold unwind at unwound
  split at unwound
  next none =>
    cases unwound
    exact .finish stage none
  next rest isNext =>
    simp only [Option.some.injEq] at unwound
    exact .runDequeue stage isNext unwound.symm
  next rest isNext =>
    cases unwound
    exact .releaseBuffer stage isNext
  next rest isNext =>
    split at unwound
    next held =>
      cases unwound
      exact .releaseSemaphore stage isNext held
    next => cases unwound
  next rest isNext =>
    cases unwound
    exact .leaveInflight stage isNext

theorem step_of_proceed {choice : CallAct}
    (acted : call.proceed state choice = some (next, after)) :
    Step state call choice next after := by
  cases choice with
  | snapshot =>
    obtain ⟨stage, made⟩ := Option.ite_none_right_eq_some.mp acted
    cases made
    exact .snapshot stage
  | enqueue =>
    obtain ⟨stage, made⟩ := Option.ite_none_right_eq_some.mp acted
    cases made
    exact .enqueue stage
  | checkDepth =>
    simp only [proceed] at acted
    split at acted
    next depth stage =>
      split at acted
      next full =>
        cases acted
        exact .refuse stage full
      next room =>
        cases acted
        exact .beginBuffering stage (by omega)
    next => cases acted
  | join tier =>
    obtain ⟨stage, made⟩ := Option.ite_none_right_eq_some.mp acted
    cases made
    exact .join tier stage
  | acquire =>
    obtain ⟨⟨stage, room⟩, made⟩ := Option.ite_none_right_eq_some.mp acted
    cases made
    exact .acquire stage room
  | cancel =>
    obtain ⟨stage, made⟩ := Option.ite_none_right_eq_some.mp acted
    cases made
    exact .cancel stage
  | dequeue =>
    simp only [proceed] at acted
    split at acted
    next stage =>
      simp only [Option.some.injEq] at acted
      exact .serve stage acted.symm
    next stage =>
      simp only [Option.some.injEq] at acted
      exact .abandon stage acted.symm
    next => cases acted
  | leaveTier => cases acted
  | enter =>
    obtain ⟨stage, made⟩ := Option.ite_none_right_eq_some.mp acted
    cases made
    exact .enter stage
  | exit =>
    obtain ⟨stage, made⟩ := Option.ite_none_right_eq_some.mp acted
    cases made
    exact .exit stage
  | unwind =>
    obtain ⟨stage, made⟩ := Option.ite_none_right_eq_some.mp acted
    exact step_of_unwind stage made

theorem act_cases {choice : CallAct} (acted : call.act state choice = some (next, after)) :
    (call.leaving = none ∧ Step state call choice next after) ∨
      ∃ tier, call.leaving = some tier ∧ next = state.addQueueDepthByTier tier (-1) ∧
        after = { call.give (.tier tier) with leaving := none } := by
  unfold act at acted
  split at acted
  next settled => exact .inl ⟨settled, step_of_proceed acted⟩
  next =>
    split at acted
    next =>
      obtain ⟨tier, leaving, made⟩ := Option.map_eq_some_iff.mp acted
      cases made
      exact .inr ⟨tier, leaving, rfl, rfl⟩
    next => cases acted

theorem dequeue_of_done (done : call.dequeued = true) :
    dequeue state call = (state, call) := if_pos done

theorem dequeue_of_undone (undone : call.dequeued = false) :
    dequeue state call =
      ({ state with queueDepth := state.queueDepth - 1 },
        { call.give .slot with
          dequeued := true
          leaving := if call.tierLabel = [] then none else some call.tierLabel }) :=
  if_neg (by simp [undone])

/-! ## What a call still owes -/

/-- The releases of a resource that are still to run: deferred ones, the rest of a
`dequeue`, and the receive that is deferred right after the slot is given back. -/
def pending (call : ProxyCall) : Resource → Nat
  | .slot => if call.dequeued then 0 else call.deferred.count .dequeue
  | .tier label =>
    (if call.leaving = some label then 1 else 0) +
      if call.dequeued = false ∧ label = call.tierLabel ∧ label ≠ [] then
        call.deferred.count .dequeue
      else 0
  | .token channel =>
    if channel = call.semaphore then
      call.deferred.count .releaseSemaphore + if call.stage = .acquired then 1 else 0
    else 0
  | .buffer => call.deferred.count .releaseBuffer
  | .inflight => call.deferred.count .leaveInflight

def Shaped (call : ProxyCall) : Prop :=
  match call.stage with
  | .arrived | .snapped =>
    call.took = [] ∧ call.deferred = [] ∧ call.dequeued = false
  | .counted _ =>
    call.took = [.slot] ∧ call.deferred = [.dequeue] ∧ call.dequeued = false
  | .buffering =>
    call.took = [.slot, .buffer] ∧ call.deferred = [.releaseBuffer, .dequeue] ∧
      call.dequeued = false
  | .waiting | .cancelled =>
    call.took = [.slot, .buffer, .tier call.tierLabel] ∧
      call.deferred = [.releaseBuffer, .dequeue] ∧ call.dequeued = false
  | .acquired =>
    call.took = [.slot, .buffer, .tier call.tierLabel, .token call.semaphore] ∧
      call.deferred = [.releaseBuffer, .dequeue] ∧ call.dequeued = false
  | .serving =>
    call.took = [.slot, .buffer, .tier call.tierLabel, .token call.semaphore] ∧
      call.deferred = [.releaseSemaphore, .releaseBuffer, .dequeue] ∧ call.dequeued = true
  | .proxying => call.dequeued = true
  | .returning => True
  | .gone => call.deferred = [] ∧ call.leaving = none

structure Sound (call : ProxyCall) : Prop where
  shaped : call.Shaped
  once : call.took.Nodup
  owed : ∀ resource, call.took.count resource = call.gave.count resource + call.pending resource
  tiers : ∀ label, .tier label ∈ call.took ↔ label = call.tierLabel ∧ label ≠ []

theorem Sound.arrive : Sound .arrive where
  shaped := ⟨rfl, rfl, rfl⟩
  once := List.nodup_nil
  owed := by
    intro resource
    cases resource <;> simp [ProxyCall.arrive, pending]
  tiers := by
    intro label
    simp [ProxyCall.arrive]

theorem Sound.pending_le (sound : call.Sound) (resource : Resource) :
    call.pending resource ≤ 1 := by
  have once := List.nodup_iff_count.mp sound.once resource
  have owed := sound.owed resource
  omega

namespace Sound

variable {state next : AdmissionState} {call after : ProxyCall}

section

variable (sound : call.Sound)

include sound

theorem keep (shaped : after.Shaped) (took : after.took = call.took)
    (gave : after.gave = call.gave) (label : after.tierLabel = call.tierLabel)
    (pending : ∀ resource, after.pending resource = call.pending resource) : after.Sound where
  shaped := shaped
  once := took ▸ sound.once
  owed := by
    intro resource
    rw [took, gave, pending]
    exact sound.owed resource
  tiers := by
    intro tier
    rw [took, label]
    exact sound.tiers tier

theorem take (taken : Resource) (shaped : after.Shaped)
    (fresh : taken ∉ call.took) (took : after.took = call.took ++ [taken])
    (gave : after.gave = call.gave)
    (tiers : ∀ label, .tier label ∈ after.took ↔ label = after.tierLabel ∧ label ≠ [])
    (pending : ∀ resource, after.pending resource =
      call.pending resource + if taken = resource then 1 else 0) : after.Sound where
  shaped := shaped
  once := by
    rw [took, List.nodup_append]
    refine ⟨sound.once, by simp, ?_⟩
    intro held isHeld other isOther same
    rw [List.mem_singleton] at isOther
    exact fresh (isOther ▸ same ▸ isHeld)
  owed := by
    intro resource
    have owed := sound.owed resource
    rw [took, gave, pending, List.count_append, List.count_singleton]
    simp only [beq_iff_eq]
    omega
  tiers := tiers

theorem give (given : Resource) (shaped : after.Shaped)
    (took : after.took = call.took) (gave : after.gave = call.gave ++ [given])
    (label : after.tierLabel = call.tierLabel)
    (pending : ∀ resource, call.pending resource =
      after.pending resource + if given = resource then 1 else 0) : after.Sound where
  shaped := shaped
  once := took ▸ sound.once
  owed := by
    intro resource
    have owed := sound.owed resource
    have change := pending resource
    rw [took, gave, List.count_append, List.count_singleton]
    simp only [beq_iff_eq]
    omega
  tiers := by
    intro tier
    rw [took, label]
    exact sound.tiers tier

/-- The first half of `dequeue`, run when the call next in line is the deferred one or,
inline, while it is still deferred. -/
theorem dequeue (settled : call.leaving = none)
    (undone : call.dequeued = false) (due : call.deferred.count .dequeue = 1)
    (shaped : after.Shaped) (took : after.took = call.took)
    (gave : after.gave = call.gave ++ [.slot]) (label : after.tierLabel = call.tierLabel)
    (semaphore : after.semaphore = call.semaphore) (dequeued : after.dequeued = true)
    (leaving : after.leaving = if call.tierLabel = [] then none else some call.tierLabel)
    (buffer : after.deferred.count .releaseBuffer = call.deferred.count .releaseBuffer)
    (inflight : after.deferred.count .leaveInflight = call.deferred.count .leaveInflight)
    (token : (after.deferred.count .releaseSemaphore + if after.stage = .acquired then 1 else 0) =
      call.deferred.count .releaseSemaphore + if call.stage = .acquired then 1 else 0) :
    after.Sound := by
  refine sound.give .slot shaped took gave label ?_
  intro resource
  cases resource with
  | slot => simp [ProxyCall.pending, undone, dequeued, due]
  | tier tier =>
    simp only [ProxyCall.pending, undone, dequeued, due, settled, leaving]
    by_cases unnamed : call.tierLabel = []
    · simp only [unnamed]
      by_cases same : tier = [] <;> simp [same]
    · by_cases same : tier = call.tierLabel
      · simp [same, unnamed]
      · have other : call.tierLabel ≠ tier := fun eq => same eq.symm
        simp [same, unnamed, other]
  | token channel => simp [ProxyCall.pending, semaphore, token]
  | buffer => simp [ProxyCall.pending, buffer]
  | inflight => simp [ProxyCall.pending, inflight]

theorem tierLabel_eq_nil (unjoined : ∀ label, .tier label ∉ call.took) : call.tierLabel = [] := by
  by_cases unnamed : call.tierLabel = []
  · exact unnamed
  · exact absurd ((sound.tiers call.tierLabel).mpr ⟨rfl, unnamed⟩) (unjoined call.tierLabel)

theorem joined (settled : call.leaving = none)
    (stage : call.stage = .buffering) (tier : Bytes) : (call.join state tier).2.Sound := by
  have shaped := sound.shaped
  simp only [Shaped, stage] at shaped
  have unnamed := sound.tierLabel_eq_nil (by simp [shaped])
  have named : metricLabel tier (lit "unknown") ≠ [] := metricLabel_ne_nil (by decide)
  refine sound.take (.tier (metricLabel tier (lit "unknown"))) ?_ (by simp [shaped]) rfl rfl ?_ ?_
  · simp [Shaped, join, ProxyCall.take, shaped]
  · intro label
    simp only [join, ProxyCall.take, shaped, List.mem_append, List.mem_cons, List.not_mem_nil,
      Resource.tier.injEq, reduceCtorEq, or_false, false_or]
    constructor
    · rintro rfl
      exact ⟨rfl, named⟩
    · exact And.left
  · intro resource
    cases resource with
    | tier label =>
      by_cases same : label = metricLabel tier (lit "unknown")
      · subst same
        simp [join, ProxyCall.take, pending, shaped, unnamed, settled, named]
      · have other : metricLabel tier (lit "unknown") ≠ label := fun eq => same eq.symm
        simp [join, ProxyCall.take, pending, shaped, unnamed, settled, same, other]
    | _ => simp [join, ProxyCall.take, pending, stage]

theorem acquired (settled : call.leaving = none) (stage : call.stage = .waiting) :
    Sound { call.take (.token call.semaphore) with stage := .acquired } := by
  have shaped := sound.shaped
  simp only [Shaped, stage] at shaped
  refine sound.take (.token call.semaphore) ?_ (by simp [shaped]) rfl rfl ?_ ?_
  · simp [Shaped, ProxyCall.take, shaped]
  · intro label
    simpa [ProxyCall.take, shaped] using sound.tiers label
  · intro resource
    cases resource with
    | token channel =>
      by_cases same : channel = call.semaphore
      · simp [ProxyCall.take, pending, stage, same]
      · have other : call.semaphore ≠ channel := fun eq => same eq.symm
        simp [ProxyCall.take, pending, same, other]
    | _ => simp [ProxyCall.take, pending, shaped, settled]

theorem releasedSemaphore (stage : call.stage = .returning)
    {rest : List Deferred} (isNext : call.deferred = .releaseSemaphore :: rest) :
    Sound { call.give (.token call.semaphore) with deferred := rest } := by
  refine sound.give (.token call.semaphore) (by simp [Shaped, ProxyCall.give, stage]) rfl rfl rfl ?_
  intro resource
  cases resource with
  | token channel =>
    by_cases same : channel = call.semaphore
    · simp [ProxyCall.give, pending, isNext, stage, same]
    · have other : call.semaphore ≠ channel := fun eq => same eq.symm
      simp [ProxyCall.give, pending, same, other]
  | _ => simp [ProxyCall.give, pending, isNext]

theorem ranDequeue (settled : call.leaving = none)
    (stage : call.stage = .returning) {rest : List Deferred}
    (isNext : call.deferred = .dequeue :: rest) {ran : AdmissionState × ProxyCall}
    (dequeued : ran = ProxyCall.dequeue state { call with deferred := rest }) : ran.2.Sound := by
  cases done : call.dequeued with
  | true =>
    obtain rfl := dequeued.trans (dequeue_of_done done)
    refine sound.keep (by simp [Shaped, stage]) rfl rfl rfl ?_
    intro resource
    cases resource <;> simp [pending, isNext, done]
  | false =>
    have due := sound.pending_le .slot
    simp only [pending, done, isNext, List.count_cons_self] at due
    obtain rfl := dequeued.trans (dequeue_of_undone done)
    refine sound.dequeue settled done ?_ ?_ rfl rfl rfl rfl rfl rfl ?_ ?_ ?_
    · simp [isNext]
      simpa using due
    all_goals simp [Shaped, ProxyCall.give, isNext, stage]

theorem step (settled : call.leaving = none)
    {choice : CallAct} (stepped : Step state call choice next after) : after.Sound := by
  have shaped := sound.shaped
  cases stepped with
  | snapshot stage =>
    simp only [Shaped, stage] at shaped
    refine sound.keep (by simpa [Shaped, snapshot] using shaped) rfl rfl rfl ?_
    intro resource
    cases resource <;> simp [snapshot, pending, shaped, settled, stage]
  | enqueue stage =>
    simp only [Shaped, stage] at shaped
    have unnamed := sound.tierLabel_eq_nil (by simp [shaped])
    refine sound.take .slot ?_ (by simp [shaped]) rfl rfl ?_ ?_
    · simp [Shaped, enqueue, ProxyCall.take, shaped]
    · intro label
      simpa [enqueue, ProxyCall.take, shaped] using sound.tiers label
    · intro resource
      cases resource <;> simp [enqueue, ProxyCall.take, pending, shaped, settled, unnamed, stage]
  | refuse stage full =>
    refine sound.keep trivial rfl rfl rfl ?_
    intro resource
    cases resource <;> simp [pending, stage]
  | beginBuffering stage room =>
    simp only [Shaped, stage] at shaped
    refine sound.take .buffer ?_ (by simp [shaped]) rfl rfl ?_ ?_
    · simp [Shaped, beginBuffering, ProxyCall.take, shaped]
    · intro label
      simpa [beginBuffering, ProxyCall.take, shaped] using sound.tiers label
    · intro resource
      cases resource <;> simp [beginBuffering, ProxyCall.take, pending, shaped, stage]
  | join tier stage => exact sound.joined settled stage tier
  | acquire stage room => exact sound.acquired settled stage
  | cancel stage =>
    simp only [Shaped, stage] at shaped
    refine sound.keep (by simpa [Shaped] using shaped) rfl rfl rfl ?_
    intro resource
    cases resource <;> simp [pending, stage]
  | serve stage dequeued | abandon stage dequeued =>
    simp only [Shaped, stage] at shaped
    obtain rfl := dequeued.trans (dequeue_of_undone shaped.2.2)
    refine sound.dequeue settled shaped.2.2 ?_ ?_ rfl rfl rfl rfl rfl rfl ?_ ?_ ?_ <;>
      simp [shaped, Shaped, ProxyCall.give, stage]
  | enter stage =>
    simp only [Shaped, stage] at shaped
    refine sound.take .inflight ?_ (by simp [shaped]) rfl rfl ?_ ?_
    · simp [Shaped, ProxyCall.take, shaped]
    · intro label
      simpa [ProxyCall.take, shaped] using sound.tiers label
    · intro resource
      cases resource <;> simp [ProxyCall.take, pending, shaped, stage]
  | exit stage =>
    refine sound.keep trivial rfl rfl rfl ?_
    intro resource
    have running : call.stage ≠ .acquired := by
      intro isAcquired
      simp [isAcquired] at stage
    cases resource <;> simp [pending, running]
  | finish stage none =>
    refine sound.keep ⟨none, settled⟩ rfl rfl rfl ?_
    intro resource
    cases resource <;> simp [pending, stage]
  | runDequeue stage isNext dequeued => exact sound.ranDequeue settled stage isNext dequeued
  | releaseBuffer stage isNext =>
    refine sound.give .buffer (by simp [Shaped, ProxyCall.give, stage]) rfl rfl rfl ?_
    intro resource
    cases resource <;> simp [ProxyCall.give, pending, isNext]
  | releaseSemaphore stage isNext held => exact sound.releasedSemaphore stage isNext
  | leaveInflight stage isNext =>
    refine sound.give .inflight (by simp [Shaped, ProxyCall.give, stage]) rfl rfl rfl ?_
    intro resource
    cases resource <;> simp [ProxyCall.give, pending, isNext]

theorem leaveTier {tier : Bytes} (leaving : call.leaving = some tier) :
    Sound { call.give (.tier tier) with leaving := none } := by
  have shaped := sound.shaped
  refine sound.give (.tier tier) ?_ rfl rfl rfl ?_
  · unfold Shaped at shaped ⊢
    cases stage : call.stage <;> simp_all [ProxyCall.give]
  · intro resource
    cases resource with
    | tier label =>
      simp only [ProxyCall.give, pending, leaving, Option.some.injEq, Resource.tier.injEq,
        reduceCtorEq, if_false]
      omega
    | _ => rfl

end

end Sound

/-! ## Levels follow what the calls hold -/

def held (resource : Resource) (call : ProxyCall) : Int :=
  call.took.count resource - call.gave.count resource

theorem held_take (call : ProxyCall) (taken resource : Resource) :
    (call.take taken).held resource = call.held resource + if taken = resource then 1 else 0 := by
  simp only [held, take, List.count_append, List.count_singleton, beq_iff_eq]
  split
  · simp
    omega
  · simp

theorem held_give (call : ProxyCall) (given resource : Resource) :
    (call.give given).held resource = call.held resource - if given = resource then 1 else 0 := by
  simp only [held, give, List.count_append, List.count_singleton, beq_iff_eq]
  split
  · simp
    omega
  · simp

theorem Sound.held_eq (sound : call.Sound) (resource : Resource) :
    call.held resource = call.pending resource := by
  have owed := sound.owed resource
  unfold held
  omega

end ProxyCall

namespace AdmissionState

theorem level_addToken (state : AdmissionState) (channel : Nat) (delta : Int)
    (resource : Resource) :
    (state.addToken channel delta).level resource =
      state.level resource + if .token channel = resource then delta else 0 := by
  cases resource with
  | token other =>
    simp only [level, addToken, Resource.token.injEq]
    by_cases same : other = channel
    · simp [same]
    · have reversed : channel ≠ other := fun eq => same eq.symm
      simp [same, reversed]
  | _ => simp [level, addToken]

theorem level_addQueueDepthByTier (state : AdmissionState) {tier : Bytes} {delta : Int}
    (nonneg : 0 ≤ state.queueDepthByTier tier + delta) (resource : Resource) :
    (state.addQueueDepthByTier tier delta).level resource =
      state.level resource + if .tier tier = resource then delta else 0 := by
  have unclamped : ¬ state.queueDepthByTier tier + delta < 0 := by omega
  cases resource with
  | tier label =>
    simp only [level, addQueueDepthByTier, unclamped, if_false, Resource.tier.injEq]
    by_cases same : label = tier
    · simp [same]
    · have reversed : tier ≠ label := fun eq => same eq.symm
      simp [same, reversed]
  | _ => simp [level, addQueueDepthByTier]

end AdmissionState

namespace ProxyCall

variable {state next : AdmissionState} {call after : ProxyCall}

theorem balance_take (taken resource : Resource)
    (level : next.level resource = state.level resource + if taken = resource then 1 else 0)
    (held : after.held resource = (call.take taken).held resource) :
    next.level resource + call.held resource = state.level resource + after.held resource := by
  rw [level, held, held_take]
  omega

theorem balance_give (given resource : Resource)
    (level : next.level resource = state.level resource - if given = resource then 1 else 0)
    (held : after.held resource = (call.give given).held resource) :
    next.level resource + call.held resource = state.level resource + after.held resource := by
  rw [level, held, held_give]
  omega

theorem balance_dequeue (resource : Resource) :
    (dequeue state call).1.level resource + call.held resource =
      state.level resource + (dequeue state call).2.held resource := by
  cases done : call.dequeued with
  | true => rw [dequeue_of_done done]
  | false =>
    rw [dequeue_of_undone done]
    exact balance_give .slot resource (by cases resource <;> simp [AdmissionState.level]) rfl

theorem Sound.balance_step (sound : call.Sound)
    (covered : ∀ resource, call.held resource ≤ state.level resource)
    {choice : CallAct} (stepped : Step state call choice next after) (resource : Resource) :
    next.level resource + call.held resource = state.level resource + after.held resource := by
  cases stepped with
  | snapshot | refuse | cancel | exit | finish => rfl
  | enqueue stage =>
    exact balance_take .slot resource (by cases resource <;> simp [AdmissionState.level, enqueue]) rfl
  | beginBuffering stage room =>
    refine balance_take .buffer resource ?_ rfl
    cases resource <;> simp [AdmissionState.level, beginBuffering]
  | join tier stage =>
    have enough := covered (.tier (metricLabel tier (lit "unknown")))
    rw [sound.held_eq] at enough
    simp only [AdmissionState.level] at enough
    refine balance_take (.tier (metricLabel tier (lit "unknown"))) resource ?_ rfl
    exact state.level_addQueueDepthByTier (by omega) resource
  | acquire stage room =>
    exact balance_take (.token call.semaphore) resource (state.level_addToken _ _ _) rfl
  | serve stage dequeued | abandon stage dequeued | runDequeue stage isNext dequeued =>
    subst dequeued
    exact balance_dequeue resource
  | enter stage =>
    exact balance_take .inflight resource (by cases resource <;> simp [AdmissionState.level]) rfl
  | releaseBuffer stage isNext =>
    exact balance_give .buffer resource (by cases resource <;> simp [AdmissionState.level]) rfl
  | releaseSemaphore stage isNext held =>
    refine balance_give (.token call.semaphore) resource ?_ rfl
    rw [AdmissionState.level_addToken]
    split <;> omega
  | leaveInflight stage isNext =>
    exact balance_give .inflight resource (by cases resource <;> simp [AdmissionState.level]) rfl

theorem Sound.balance_leaveTier (sound : call.Sound) {tier : Bytes}
    (leaving : call.leaving = some tier)
    (covered : ∀ resource, call.held resource ≤ state.level resource) (resource : Resource) :
    (state.addQueueDepthByTier tier (-1)).level resource + call.held resource =
      state.level resource +
        ProxyCall.held resource { call.give (.tier tier) with leaving := none } := by
  have enough := covered (.tier tier)
  rw [sound.held_eq] at enough
  simp only [AdmissionState.level, pending, leaving, if_true] at enough
  refine balance_give (.tier tier) resource ?_ rfl
  rw [state.level_addQueueDepthByTier (by omega) resource]
  split <;> omega

theorem Sound.act (sound : call.Sound)
    (covered : ∀ resource, call.held resource ≤ state.level resource) {choice : CallAct}
    (acted : call.act state choice = some (next, after)) :
    after.Sound ∧ ∀ resource,
      next.level resource + call.held resource = state.level resource + after.held resource := by
  rcases act_cases acted with ⟨settled, stepped⟩ | ⟨tier, leaving, rfl, rfl⟩
  · exact ⟨sound.step settled stepped, sound.balance_step covered stepped⟩
  · exact ⟨sound.leaveTier leaving, sound.balance_leaveTier leaving covered⟩

end ProxyCall

def Traffic.Balanced (traffic : Traffic) : Prop :=
  CrowdRules.Balanced ProxyCall.Sound AdmissionState.level ProxyCall.held traffic

theorem AdmissionState.level_new (limits : Limits) (resource : Resource) :
    (AdmissionState.new limits).level resource = 0 := by
  cases resource <;> rfl

theorem ProxyCall.Sound.held_nonneg {call : ProxyCall} (sound : call.Sound) (resource : Resource) :
    0 ≤ call.held resource := by
  rw [sound.held_eq]
  omega

theorem Traffic.Balanced.act {traffic next : Traffic} {index : Nat} {choice : CallAct}
    (balanced : traffic.Balanced)
    (stepped : admissionRules.machine.step traffic (.act index choice) = some next) :
    next.Balanced :=
  admissionRules.balanced_act (fun resource _ sound => sound.held_nonneg resource)
    (fun _ _ _ _ _ acted sound covered => sound.act covered acted) stepped balanced

theorem admissionRules_occur (state : AdmissionState) (event : RouterEvent) :
    (∀ call ∈ (admissionRules.occur state event).2, call.Sound) ∧
      ∀ resource, (admissionRules.occur state event).1.level resource =
        state.level resource +
          total (ProxyCall.held resource) (admissionRules.occur state event).2 := by
  cases event with
  | arrive =>
    refine ⟨?_, fun resource => ?_⟩
    · intro call isNew
      rw [List.mem_singleton.mp isNew]
      exact .arrive
    · simp [admissionRules, ProxyCall.held, ProxyCall.arrive]
  | reload limits =>
    refine ⟨fun call isNew => absurd isNew List.not_mem_nil, fun resource => ?_⟩
    cases resource <;> simp [admissionRules, AdmissionState.level, AdmissionState.reload]

theorem Traffic.Balanced.event {traffic next : Traffic} {event : RouterEvent}
    (balanced : traffic.Balanced)
    (stepped : admissionRules.machine.step traffic (.event event) = some next) :
    next.Balanced :=
  admissionRules.balanced_event admissionRules_occur stepped balanced

theorem Traffic.balanced_new (limits : Limits) : (Traffic.new limits).Balanced :=
  ⟨fun _ isCall => absurd isCall List.not_mem_nil,
    fun resource => AdmissionState.level_new limits resource⟩

theorem Traffic.balanced_of_run {limits : Limits} {trace : List (CrowdAction CallAct RouterEvent)}
    {final : Traffic} (ran : admissionRules.machine.run (Traffic.new limits) trace = some final) :
    final.Balanced :=
  admissionRules.run_balanced (fun resource _ sound => sound.held_nonneg resource)
    (fun _ _ _ _ _ acted sound covered => sound.act covered acted) admissionRules_occur ran
    (Traffic.balanced_new limits)

end ClusterRouter.Router
