import ClusterRouter.Router.HandlerProperties

/-! The loop passes responses between the attempt in hand, the held one and the servable one.
What has been released and what is still referred to add up to one for each response, and to two
for one whose node was displaced after its key had been cooled. -/

set_option autoImplicit false

namespace ClusterRouter.Router

open Foundation

/-! ## References -/

def refersTo (slot : Option Held) (attempt : Nat) : Nat :=
  if slot.map Held.attempt = some attempt then 1 else 0

def Loop.inHand (loop : Loop) (attempt : Nat) : Nat :=
  match loop.stage with
  | .answered _ _ | .cooling _ | .refused _ => if loop.attemptIdx = attempt then 1 else 0
  | _ => 0

def Loop.references (loop : Loop) (attempt : Nat) : Nat :=
  refersTo loop.okResp attempt + refersTo loop.heldResp attempt + loop.inHand attempt

def Trace.excess (trace : Trace) (attempt : Nat) : Nat :=
  if attempt ∈ trace.displaced then 1 else 0

/-- Every response is released as often as it is not referred to. -/
def Accounted (references excess : Nat → Nat) (received : List Held) (released : List Nat) : Prop :=
  ∀ held ∈ received,
    released.count held.attempt + references held.attempt = 1 + excess held.attempt

structure Balanced (references : Nat → Nat) (trace : Trace) : Prop where
  closed : Accounted references trace.excess trace.received trace.closed
  cancelled : Accounted references trace.excess trace.received trace.cancelled

theorem release_received (trace : Trace) (held : Option Held) :
    (trace.release held).received = trace.received := by
  cases held <;> rfl

theorem release_displaced (trace : Trace) (held : Option Held) :
    (trace.release held).displaced = trace.displaced := by
  cases held <;> rfl

private theorem release_excess (trace : Trace) (held : Option Held) :
    (trace.release held).excess = trace.excess := by
  cases held <;> rfl

private theorem count_release_closed (trace : Trace) (held : Option Held) (attempt : Nat) :
    (trace.release held).closed.count attempt = trace.closed.count attempt + refersTo held attempt := by
  cases held with
  | none => simp [Trace.release, refersTo]
  | some held =>
    by_cases same : held.attempt = attempt <;> simp [Trace.release, refersTo, same]

private theorem count_release_cancelled (trace : Trace) (held : Option Held) (attempt : Nat) :
    (trace.release held).cancelled.count attempt =
      trace.cancelled.count attempt + refersTo held attempt := by
  cases held with
  | none => simp [Trace.release, refersTo]
  | some held =>
    by_cases same : held.attempt = attempt <;> simp [Trace.release, refersTo, same]

theorem Balanced.release {references after : Nat → Nat} {trace : Trace} {held : Option Held}
    (balanced : Balanced references trace)
    (traded : ∀ attempt, references attempt = refersTo held attempt + after attempt) :
    Balanced after (trace.release held) := by
  constructor
  · intro response member
    rw [release_received] at member
    have before := balanced.closed response member
    rw [count_release_closed, release_excess]
    have trade := traded response.attempt
    omega
  · intro response member
    rw [release_received] at member
    have before := balanced.cancelled response member
    rw [count_release_cancelled, release_excess]
    have trade := traded response.attempt
    omega

/-! ## Where the responses are -/

def servable (held : Held) : Bool := !isFailoverStatus held.response.status

def AllFailover (received : List Held) : Prop :=
  ∀ held ∈ received, isFailoverStatus held.response.status = true

/-- The loop holds the last response it got, and all are from attempts before `bound`. -/
structure Waiting (loop : Loop) (received : List Held) (bound : Nat) : Prop where
  held : loop.heldResp = received.getLast?
  failover : AllFailover received
  before : ∀ response ∈ received, response.attempt < bound

structure Answered (loop : Loop) (received earlier : List Held) (current : Held) : Prop where
  received : received = earlier ++ [current]
  attempt : current.attempt = loop.attemptIdx
  candidate : loop.candidate = some current.node
  failover : AllFailover earlier
  before : ∀ response ∈ earlier, response.attempt < loop.attemptIdx

/-- Where the responses are at each stage of an attempt. -/
def Standing (loop : Loop) (received : List Held) : Prop :=
  match loop.stage with
  | .top | .sent _ _ | .failed => Waiting loop received loop.attemptIdx
  | .answered response _ => ∃ earlier current, Answered loop received earlier current ∧
      current.response = response ∧ loop.heldResp = earlier.getLast?
  | .cooling response => ∃ earlier current, Answered loop received earlier current ∧
      current.response = response ∧ loop.heldResp = earlier.getLast? ∧
      isFailoverStatus response.status = true
  | .retrying response => ∃ earlier current, Answered loop received earlier current ∧
      current.response = response ∧ loop.heldResp = some current ∧
      isFailoverStatus response.status = true
  | .refused response => ∃ earlier current, Answered loop received earlier current ∧
      current.response = response ∧ (∀ held, loop.heldResp = some held → held ∈ received) ∧
      isFailoverStatus response.status = true
  | .choosing => Waiting loop received (loop.attemptIdx + 1)
  | .left => ∃ earlier current, Answered loop received earlier current ∧
      isFailoverStatus current.response.status = false ∧ loop.okResp = some current
  | .crashed => True

def Stage.releasing : Stage → Nat
  | .refused _ | .choosing | .crashed => 1
  | _ => 0

structure Ledger (loop : Loop) (trace : Trace) : Prop where
  standing : Standing loop trace.received
  unserved : loop.okResp = none ∨ loop.stage = .left
  ordered : trace.received.Pairwise (fun first second => first.attempt < second.attempt)
  closed : ∀ attempt ∈ trace.closed, attempt < loop.attemptIdx + loop.stage.releasing
  cancelled : ∀ attempt ∈ trace.cancelled, attempt < loop.attemptIdx + loop.stage.releasing
  displaced : ∀ attempt ∈ trace.displaced, attempt < loop.attemptIdx + loop.stage.releasing ∧
    ∃ response ∈ trace.received, response.attempt = attempt
  balanced : Balanced loop.references trace

variable {loop : Loop} {received earlier : List Held} {current : Held}

private theorem Ledger.pass {next : Loop} {trace after : Trace} (ledger : Ledger loop trace)
    (received : after.received = trace.received) (closed : after.closed = trace.closed)
    (cancelled : after.cancelled = trace.cancelled)
    (displaced : after.displaced = trace.displaced)
    (bound : loop.attemptIdx + loop.stage.releasing ≤ next.attemptIdx + next.stage.releasing)
    (references : ∀ attempt, next.references attempt = loop.references attempt)
    (unserved : next.okResp = none ∨ next.stage = .left) (standing : Standing next trace.received) :
    Ledger next after := by
  constructor
  · rw [received]
    exact standing
  · exact unserved
  · rw [received]
    exact ledger.ordered
  · intro attempt member
    exact Nat.lt_of_lt_of_le (ledger.closed attempt (closed ▸ member)) bound
  · intro attempt member
    exact Nat.lt_of_lt_of_le (ledger.cancelled attempt (cancelled ▸ member)) bound
  · intro attempt member
    obtain ⟨below, known⟩ := ledger.displaced attempt (displaced ▸ member)
    exact ⟨Nat.lt_of_lt_of_le below bound, received ▸ known⟩
  · have same : next.references = loop.references := funext references
    have excess : after.excess = trace.excess := by
      funext attempt
      rw [Trace.excess, Trace.excess, displaced]
    refine ⟨?_, ?_⟩
    · rw [same, excess, received, closed]
      exact ledger.balanced.closed
    · rw [same, excess, received, cancelled]
      exact ledger.balanced.cancelled

section

variable (answered : Answered loop received earlier current)

include answered

private theorem Answered.current_eq {node : UpstreamNode} {response : Response}
    (candidate : loop.candidate = some node)
    (same : current.response = response) :
    (⟨loop.attemptIdx, node, response⟩ : Held) = current := by
  obtain ⟨attempt, itsNode, itsResponse⟩ := current
  have known := answered.candidate
  rw [candidate] at known
  cases known
  cases same
  cases answered.attempt
  rfl

private theorem Answered.congr {next : Loop}
    (idx : next.attemptIdx = loop.attemptIdx) (candidate : next.candidate = loop.candidate) :
    Answered next received earlier current :=
  ⟨answered.received, answered.attempt.trans idx.symm, candidate.trans answered.candidate,
    answered.failover, idx ▸ answered.before⟩

private theorem Answered.last : received.getLast? = some current := by
  rw [answered.received, List.getLast?_concat]

private theorem Answered.le : ∀ response ∈ received, response.attempt < loop.attemptIdx + 1 := by
  intro response member
  rw [answered.received, List.mem_append, List.mem_singleton] at member
  rcases member with old | rfl
  · exact Nat.lt_succ_of_lt (answered.before response old)
  · exact Nat.lt_succ_of_le (Nat.le_of_eq answered.attempt)

private theorem Answered.allFailover
    (failover : isFailoverStatus current.response.status = true) : AllFailover received := by
  intro response member
  rw [answered.received, List.mem_append, List.mem_singleton] at member
  rcases member with old | rfl
  · exact answered.failover response old
  · exact failover

end

private theorem refersTo_current (attempt idx : Nat) (node : UpstreamNode) (response : Response) :
    refersTo (some ⟨idx, node, response⟩) attempt = if idx = attempt then 1 else 0 := by
  simp [refersTo]

private theorem count_eq_zero {attempts : List Nat} {bound : Nat}
    (below : ∀ attempt ∈ attempts, attempt < bound) : attempts.count bound = 0 :=
  List.count_eq_zero.mpr fun member => Nat.lt_irrefl _ (below bound member)

section

variable {loop : Loop} {trace : Trace}

private theorem Ledger.okResp_eq_none (ledger : Ledger loop trace) (stage : loop.stage ≠ .left) :
    loop.okResp = none :=
  ledger.unserved.resolve_right stage

variable {node : UpstreamNode}

section

variable (ledger : Ledger loop trace)

include ledger

private theorem Ledger.response {response : Response} {used : Int}
    {again : Bool} (stage : loop.stage = .sent used again)
    (candidate : loop.candidate = some node) :
    Ledger { loop with stage := .answered response used }
      { trace with received := trace.received ++ [⟨loop.attemptIdx, node, response⟩] } := by
  have standing := ledger.standing
  simp only [Standing, stage] at standing
  have unserved := ledger.okResp_eq_none (by simp [stage])
  obtain ⟨_, _, ordered, closed, cancelled, displaced, balanced⟩ := ledger
  simp only [stage, Stage.releasing, Nat.add_zero] at closed cancelled displaced
  have unheld : refersTo loop.heldResp loop.attemptIdx = 0 := by
    rw [standing.held, refersTo, if_neg]
    intro same
    obtain ⟨last, is, itsAttempt⟩ := Option.map_eq_some_iff.mp same
    have older := standing.before last (List.mem_of_getLast? is)
    omega
  have fresh : loop.attemptIdx ∉ trace.displaced := fun member =>
    Nat.lt_irrefl _ (displaced _ member).1
  have oldReferences : loop.references loop.attemptIdx = 0 := by
    simp only [Loop.references, Loop.inHand, stage, unserved, unheld]
    simp [refersTo]
  have accounted {released : List Nat} (below : ∀ attempt ∈ released, attempt < loop.attemptIdx)
      (before : Accounted loop.references trace.excess trace.received released) :
      Accounted (Loop.references { loop with stage := .answered response used }) trace.excess
        (trace.received ++ [⟨loop.attemptIdx, node, response⟩]) released := by
    intro held member
    have newReferences : Loop.references { loop with stage := .answered response used } held.attempt =
        loop.references held.attempt + if loop.attemptIdx = held.attempt then 1 else 0 := by
      simp only [Loop.references, Loop.inHand, stage, Nat.add_zero]
    rw [newReferences]
    rcases List.mem_append.mp member with old | new
    · have older := standing.before held old
      rw [if_neg (by omega)]
      exact before held old
    · cases List.mem_singleton.mp new
      dsimp only
      rw [count_eq_zero below, oldReferences, if_pos rfl, Trace.excess, if_neg fresh]
  constructor
  · exact ⟨trace.received, _, ⟨rfl, rfl, candidate, standing.failover, standing.before⟩, rfl,
      standing.held⟩
  · exact .inl unserved
  · refine List.pairwise_append.mpr ⟨ordered, List.pairwise_singleton _ _, ?_⟩
    intro first member second new
    cases List.mem_singleton.mp new
    exact standing.before first member
  · exact closed
  · exact cancelled
  · intro attempt member
    obtain ⟨below, held, known, same⟩ := displaced attempt member
    exact ⟨below, held, List.mem_append_left _ known, same⟩
  · exact ⟨accounted closed balanced.closed, accounted cancelled balanced.cancelled⟩

private theorem Ledger.fail (stage : loop.stage = .failed) :
    Ledger { loop with stage := .choosing }
      { trace with cancelled := trace.cancelled ++ [loop.attemptIdx] } := by
  have standing := ledger.standing
  simp only [Standing, stage] at standing
  have unserved := ledger.okResp_eq_none (by simp [stage])
  obtain ⟨_, _, ordered, closed, cancelled, displaced, balanced⟩ := ledger
  simp only [stage, Stage.releasing, Nat.add_zero] at closed cancelled displaced
  have references (attempt : Nat) : Loop.references { loop with stage := .choosing } attempt =
      loop.references attempt := by
    simp only [Loop.references, Loop.inHand, stage]
  constructor
  · exact ⟨standing.held, standing.failover, fun held member =>
      Nat.lt_succ_of_lt (standing.before held member)⟩
  · exact .inl unserved
  · exact ordered
  · exact fun attempt member => Nat.lt_succ_of_lt (closed attempt member)
  · exact forall_mem_concat (fun attempt old => Nat.lt_succ_of_lt (cancelled attempt old))
      (Nat.lt_succ_self _)
  · intro attempt member
    obtain ⟨below, known⟩ := displaced attempt member
    exact ⟨Nat.lt_succ_of_lt below, known⟩
  · constructor
    · intro held member
      rw [references]
      exact balanced.closed held member
    · intro held member
      have older := standing.before held member
      have apart : [loop.attemptIdx].count held.attempt = 0 :=
        List.count_eq_zero.mpr fun same => by
          have := List.mem_singleton.mp same
          omega
      rw [references, List.count_append, apart]
      exact balanced.cancelled held member

private theorem Ledger.exchangeHeld {next : Loop}
    (released : ∀ held, loop.heldResp = some held → held.attempt < next.attemptIdx + next.stage.releasing)
    (bound : loop.attemptIdx + loop.stage.releasing ≤ next.attemptIdx + next.stage.releasing)
    (traded : ∀ attempt, loop.references attempt =
      refersTo loop.heldResp attempt + next.references attempt)
    (unserved : next.okResp = none ∨ next.stage = .left)
    (standing : Standing next trace.received) : Ledger next (trace.release loop.heldResp) := by
  obtain ⟨_, _, ordered, closed, cancelled, displaced, balanced⟩ := ledger
  have bounded {attempts : List Nat} (below : ∀ attempt ∈ attempts,
      attempt < loop.attemptIdx + loop.stage.releasing) (held : Held) (is : loop.heldResp = some held) :
      ∀ attempt ∈ attempts ++ [held.attempt], attempt < next.attemptIdx + next.stage.releasing :=
    forall_mem_concat (fun attempt old => Nat.lt_of_lt_of_le (below attempt old) bound)
      (released held is)
  refine ⟨?_, unserved, ?_, ?_, ?_, ?_, balanced.release traded⟩
  · rw [release_received]
    exact standing
  · rw [release_received]
    exact ordered
  · cases is : loop.heldResp with
    | none => exact fun attempt member => Nat.lt_of_lt_of_le (closed attempt member) bound
    | some held => exact bounded closed held is
  · cases is : loop.heldResp with
    | none => exact fun attempt member => Nat.lt_of_lt_of_le (cancelled attempt member) bound
    | some held => exact bounded cancelled held is
  · rw [release_received, release_displaced]
    intro attempt member
    obtain ⟨below, known⟩ := displaced attempt member
    exact ⟨Nat.lt_of_lt_of_le below bound, known⟩

private theorem Ledger.displace {response : Response}
    {tried : List Bytes} {records : List SelectionRecord} (stage : loop.stage = .retrying response) :
    Ledger { loop with tried, stage := .refused response }
      { trace with
        selections := records
        displaced := trace.displaced ++ [loop.attemptIdx] } := by
  have standing := ledger.standing
  simp only [Standing, stage] at standing
  obtain ⟨earlier, current, answered, same, held, failover⟩ := standing
  have unserved := ledger.okResp_eq_none (by simp [stage])
  obtain ⟨_, _, ordered, closed, cancelled, displaced, balanced⟩ := ledger
  simp only [stage, Stage.releasing, Nat.add_zero] at closed cancelled displaced
  have known : current ∈ trace.received := by simp [answered.received]
  have fresh : loop.attemptIdx ∉ trace.displaced := fun member =>
    Nat.lt_irrefl _ (displaced _ member).1
  have accounted {released : List Nat}
      (before : Accounted loop.references trace.excess trace.received released) :
      Accounted (Loop.references { loop with tried, stage := .refused response })
        (fun attempt => if attempt ∈ trace.displaced ++ [loop.attemptIdx] then 1 else 0)
        trace.received released := by
    intro held member
    have count := before held member
    simp only [Loop.references, Loop.inHand, stage, Trace.excess, List.mem_append,
      List.mem_singleton] at count ⊢
    by_cases here : held.attempt = loop.attemptIdx
    · simp only [here, fresh, false_or, if_true, if_false] at count ⊢
      omega
    · simpa only [here, Ne.symm here, or_false, if_false] using count
  constructor
  · refine ⟨earlier, current, answered.congr rfl rfl, same, fun other is => ?_, failover⟩
    rw [held] at is
    cases is
    exact known
  · exact .inl unserved
  · exact ordered
  · exact fun attempt member => Nat.lt_succ_of_lt (closed attempt member)
  · exact fun attempt member => Nat.lt_succ_of_lt (cancelled attempt member)
  · refine forall_mem_concat (fun attempt old => ?_)
      ⟨Nat.lt_succ_self _, current, known, answered.attempt⟩
    obtain ⟨below, known⟩ := displaced attempt old
    exact ⟨Nat.lt_succ_of_lt below, known⟩
  · exact ⟨accounted balanced.closed, accounted balanced.cancelled⟩

private theorem Ledger.refuse {response : Response}
    (stage : (∃ used, loop.stage = .answered response used ∧
      isFailoverStatus response.status = true) ∨ loop.stage = .cooling response) :
    Ledger { loop with stage := .refused response } trace := by
  have standing := ledger.standing
  have known : ∃ earlier current, Answered loop trace.received earlier current ∧
      current.response = response ∧ loop.heldResp = earlier.getLast? ∧
      isFailoverStatus response.status = true := by
    rcases stage with ⟨used, stage, failover⟩ | stage
    · simp only [Standing, stage] at standing
      obtain ⟨earlier, current, answered, same, held⟩ := standing
      exact ⟨earlier, current, answered, same, held, failover⟩
    · simp only [Standing, stage] at standing
      exact standing
  obtain ⟨earlier, current, answered, same, held, failover⟩ := known
  have kept (other : Held) (is : loop.heldResp = some other) : other ∈ trace.received := by
    rw [answered.received]
    exact List.mem_append_left _ (List.mem_of_getLast? (held ▸ is))
  rcases stage with ⟨used, stage, _⟩ | stage
  all_goals
    refine ledger.pass rfl rfl rfl rfl ?_ ?_ (.inl (ledger.okResp_eq_none (by simp [stage])))
      ⟨earlier, current, answered.congr rfl rfl, same, kept, failover⟩
    · simp [stage, Stage.releasing]
    · simp [Loop.references, Loop.inHand, stage]

private theorem Ledger.serve {response : Response} {used : Int}
    (stage : loop.stage = .answered response used) (candidate : loop.candidate = some node)
    (servable : isFailoverStatus response.status = false) :
    Ledger { loop with okResp := some ⟨loop.attemptIdx, node, response⟩, stage := .left } trace := by
  have standing := ledger.standing
  simp only [Standing, stage] at standing
  obtain ⟨earlier, current, answered, same, held⟩ := standing
  have notYet := ledger.okResp_eq_none (by simp [stage])
  refine ledger.pass rfl rfl rfl rfl ?_ ?_ (.inr rfl) ?_
  · simp [stage, Stage.releasing]
  · intro attempt
    simp only [Loop.references, Loop.inHand, stage, notYet, refersTo_current]
    simp [refersTo, Nat.add_comm]
  · have here := answered.current_eq candidate same
    refine ⟨earlier, current, answered.congr rfl rfl, ?_, congrArg some here⟩
    rw [same]
    exact servable

private theorem Ledger.hold {response : Response}
    (stage : loop.stage = .cooling response) (candidate : loop.candidate = some node) :
    Ledger { loop with
        heldResp := some ⟨loop.attemptIdx, node, response⟩, stage := .retrying response }
      (trace.release loop.heldResp) := by
  have standing := ledger.standing
  simp only [Standing, stage] at standing
  obtain ⟨earlier, current, answered, same, held, failover⟩ := standing
  refine ledger.exchangeHeld ?_ ?_ ?_ (.inl (ledger.okResp_eq_none (by simp [stage]))) ?_
  · intro other is
    exact answered.before other (List.mem_of_getLast? (held ▸ is))
  · simp [stage, Stage.releasing]
  · intro attempt
    simp only [Loop.references, Loop.inHand, stage, refersTo_current]
    omega
  · have here := answered.current_eq candidate same
    exact ⟨earlier, current, answered.congr rfl rfl, same, congrArg some here, failover⟩

private theorem Ledger.score {response : Response}
    (stage : loop.stage = .refused response) (candidate : loop.candidate = some node) :
    Ledger { loop with heldResp := some ⟨loop.attemptIdx, node, response⟩, stage := .choosing }
      (trace.release loop.heldResp) := by
  have standing := ledger.standing
  simp only [Standing, stage] at standing
  obtain ⟨earlier, current, answered, same, held, failover⟩ := standing
  refine ledger.exchangeHeld ?_ ?_ ?_ (.inl (ledger.okResp_eq_none (by simp [stage]))) ?_
  · exact fun other is => answered.le other (held other is)
  · simp [stage, Stage.releasing]
  · intro attempt
    simp only [Loop.references, Loop.inHand, stage, refersTo_current]
    omega
  · have here := answered.current_eq candidate same
    exact ⟨(congrArg some here).trans answered.last.symm,
      answered.allFailover (same ▸ failover), answered.le⟩

end

end

theorem Ledger.move {library : Library} {context : Context} {ask : Ask} {before after : Progress}
    {action : Action} (move : LoopMove library context ask before action after)
    (ledger : Ledger before.loop before.trace) : Ledger after.loop after.trace := by
  have standing := ledger.standing
  have unserved := ledger.okResp_eq_none
  cases move with
  | unbuildable stage | send stage | resend stage | lost stage | choose stage =>
    -- Nothing is in hand before or after these.
    simp only [Standing, stage] at standing
    refine ledger.pass rfl rfl rfl rfl ?_ ?_ (.inl (unserved (by simp [stage]))) ?_
    · simp [stage, Stage.releasing]
    · simp [Loop.references, Loop.inHand, stage]
    · exact ⟨standing.held, standing.failover, standing.before⟩
  | response stage candidate => exact ledger.response stage candidate
  | fail stage => exact ledger.fail stage
  | cool stage candidate quota rr =>
    simp only [Standing, stage] at standing
    obtain ⟨earlier, current, answered, same, held⟩ := standing
    refine ledger.pass rfl rfl rfl rfl ?_ ?_ (.inl (unserved (by simp [stage]))) ?_
    · simp [stage, Stage.releasing]
    · simp [Loop.references, Loop.inHand, stage]
    · exact ⟨earlier, current, answered.congr rfl rfl, same, held, (Bool.and_eq_true_iff.mp quota).1⟩
  | refuse stage candidate failover other => exact ledger.refuse (.inl ⟨_, stage, failover⟩)
  | serve stage candidate servable rr => exact ledger.serve stage candidate servable
  | allCooling stage candidate cooling => exact ledger.refuse (.inr stage)
  | hold stage candidate other => exact ledger.hold stage candidate
  | again stage candidate made chosen name =>
    simp only [Standing, stage] at standing
    obtain ⟨earlier, current, answered, same, held, failover⟩ := standing
    refine ledger.pass rfl rfl rfl rfl ?_ ?_ (.inl (unserved (by simp [stage]))) ?_
    · simp [stage, Stage.releasing]
    · simp [Loop.references, Loop.inHand, stage]
    · exact ⟨held.trans answered.last.symm, answered.allFailover (same ▸ failover), answered.le⟩
  | displace stage candidate made different => exact ledger.displace stage
  | score stage candidate rr => exact ledger.score stage candidate
  | crashAgain stage | crashNext stage =>
    refine ledger.pass rfl rfl rfl rfl ?_ ?_ (.inl (unserved (by simp [stage]))) trivial
    · simp [stage, Stage.releasing]
    · simp [Loop.references, Loop.inHand, stage]

end ClusterRouter.Router
