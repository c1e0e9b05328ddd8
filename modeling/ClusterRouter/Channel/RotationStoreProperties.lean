import ClusterRouter.Channel.RotationStore

/-! One equation or inversion lemma for every locked helper, then for every call: the key at a
given route and index after it, in terms of the key before. -/

set_option autoImplicit false

namespace ClusterRouter.Channel

open Foundation

variable {Cursor : Type}

@[simp] theorem StoreState.setRoute_routes (state : StoreState Cursor) (route name : String)
    (rs : RouteState) :
    (state.setRoute route rs).routes name = if name = route then some rs else state.routes name := rfl

def StoreState.keyAt (state : StoreState Cursor) (route : String) (index : Nat) : Option KeyRecord :=
  (state.routes route).bind (fun rs => rs.keys[index]?)

theorem StoreState.keyAt_eq_some {state : StoreState Cursor} {route : String} {index : Nat}
    {k : KeyRecord} :
    state.keyAt route index = some k ↔
      ∃ rs, state.routes route = some rs ∧ rs.keys[index]? = some k := by
  simp [keyAt, Option.bind_eq_some_iff]

theorem newStoreState_routes {keys : String → Option Int} {cursor : Cursor} {start : Int}
    {route : String} {rs : RouteState}
    (known : (newStoreState keys cursor start).routes route = some rs) :
    rs.windowStart = start ∧ ∀ k ∈ rs.keys, k = {} := by
  simp only [newStoreState] at known
  split at known
  · cases known
  split at known
  · cases known
  · cases known
    exact ⟨rfl, fun k member => List.eq_of_mem_replicate member⟩

theorem mem_modify {keys : List KeyRecord} {index : Nat} {k changed : KeyRecord}
    {change : KeyRecord → KeyRecord} (found : keys[index]? = some k)
    (member : changed ∈ keys.modify index change) : changed = change k ∨ changed ∈ keys := by
  obtain ⟨position, present⟩ := List.getElem?_of_mem member
  rw [List.getElem?_modify] at present
  by_cases same : index = position
  · subst same
    simp only [found, if_true] at present
    exact .inl (Option.some.inj present).symm
  · simp only [same, if_false, id_map'] at present
    exact .inr (List.mem_of_getElem? present)

namespace Store

def expired (s : Store Cursor) (rs : RouteState) (now : Int) : Bool :=
  decide (0 < s.budget.window ∧ s.budget.window ≤ Time.sub now rs.windowStart)

def advanceKey (s : Store Cursor) (rolled : Bool) (now : Int) (k : KeyRecord) : KeyRecord :=
  let k := s.reclaimStaleLocked k now
  if rolled then rollKey k now else k

def advanceStart (s : Store Cursor) (rs : RouteState) (now : Int) : Int :=
  if s.expired rs now then
    rs.windowStart + (Time.sub now rs.windowStart).tdiv s.budget.window * s.budget.window
  else rs.windowStart

theorem advanceLocked_eq (s : Store Cursor) (rs : RouteState) (now : Int) :
    s.advanceLocked rs now =
      { keys := rs.keys.map (s.advanceKey (s.expired rs now) now)
        windowStart := s.advanceStart rs now } := by
  unfold advanceLocked rollLocked advanceStart expired advanceKey
  by_cases disabled : s.budget.window ≤ 0
  · have off : ¬ 0 < s.budget.window := by omega
    simp [disabled, off]
  · have on : 0 < s.budget.window := by omega
    by_cases early : Time.sub now rs.windowStart < s.budget.window
    · have within : ¬ s.budget.window ≤ Time.sub now rs.windowStart := by omega
      simp [disabled, early, within]
    · have late : s.budget.window ≤ Time.sub now rs.windowStart := by omega
      simp [disabled, early, on, late, Function.comp_def]

theorem advanceLocked_getElem? (s : Store Cursor) (rs : RouteState) (now : Int) (index : Nat) :
    (s.advanceLocked rs now).keys[index]? =
      rs.keys[index]?.map (s.advanceKey (s.expired rs now) now) := by
  rw [advanceLocked_eq]
  exact List.getElem?_map

section Window

variable {s : Store Cursor} {rs : RouteState} {now : Int}

theorem advanceStart_eq_add (ordered : rs.windowStart ≤ now) :
    ∃ n : Nat, s.advanceStart rs now = rs.windowStart + n * s.budget.window ∧
      (s.expired rs now = true → 0 < n) ∧ (s.expired rs now = false → n = 0) := by
  unfold advanceStart
  cases due : s.expired rs now with
  | false => exact ⟨0, by simp, by simp, by simp⟩
  | true =>
    simp only [expired, decide_eq_true_eq] at due
    obtain ⟨positive, late⟩ := due
    have nonneg := Time.sub_nonneg ordered
    have quotient : 1 ≤ Time.sub now rs.windowStart / s.budget.window :=
      Int.le_ediv_of_mul_le positive (by omega)
    refine ⟨(Time.sub now rs.windowStart / s.budget.window).toNat, ?_, ?_, by simp⟩
    · rw [Int.tdiv_eq_ediv_of_nonneg nonneg, Int.toNat_of_nonneg (by omega)]
      simp
    · intro _
      omega

theorem advanceStart_le (ordered : rs.windowStart ≤ now) : s.advanceStart rs now ≤ now := by
  unfold advanceStart
  split
  next due =>
    simp only [expired, decide_eq_true_eq] at due
    have nonneg := Time.sub_nonneg ordered
    have bounded := Time.sub_le ordered
    have whole := Int.ediv_mul_le (Time.sub now rs.windowStart)
      (Int.ne_of_gt due.1)
    rw [Int.tdiv_eq_ediv_of_nonneg nonneg]
    omega
  next => exact ordered

theorem lt_advanceStart_add (positive : 0 < s.budget.window) (ordered : rs.windowStart ≤ now)
    (representable : now - rs.windowStart ≤ Duration.maximum) :
    now < s.advanceStart rs now + s.budget.window := by
  have exact := Time.sub_eq ordered representable
  unfold advanceStart
  split
  next due =>
    have nonneg := Time.sub_nonneg ordered
    have remainder := Int.lt_ediv_add_one_mul_self (Time.sub now rs.windowStart) positive
    rw [Int.tdiv_eq_ediv_of_nonneg nonneg]
    rw [Int.add_mul] at remainder
    omega
  next early =>
    simp only [expired, decide_eq_true_eq] at early
    omega

end Window

/-- Reclamation moves some leading leases, all of them stale, from in flight to
orphaned and counts them; nothing else changes. -/
theorem reclaimStaleLocked_spec (s : Store Cursor) (k : KeyRecord) (now : Int) :
    ∃ n, n ≤ k.leases.length ∧ (∀ lease ∈ k.leases.take n, lease ≤ now - s.leaseTimeout) ∧
      s.reclaimStaleLocked k now =
        { k with
          leases := k.leases.drop n
          orphaned := k.orphaned + n
          reclaimed := k.reclaimed + n } := by
  unfold reclaimStaleLocked
  split
  · exact ⟨0, Nat.zero_le _, by simp, by simp⟩
  · dsimp only
    split
    · exact ⟨0, Nat.zero_le _, by simp, by simp⟩
    · refine ⟨_, (List.takeWhile_sublist _).length_le, ?_, rfl⟩
      intro lease member
      rw [← List.prefix_iff_eq_take.mp (List.takeWhile_prefix _)] at member
      simpa using List.all_eq_true.mp List.all_takeWhile lease member

theorem rollKey_spec (k : KeyRecord) (now : Int) :
    ∃ deadline reason, rollKey k now =
      { k with
        requests := 0, tokens := 0, errors := 0
        estimated := false, drained := false, softRetired := false
        retiredUntil := deadline, retireReason := reason } := by
  unfold rollKey
  split
  · exact ⟨k.retiredUntil, k.retireReason, rfl⟩
  · exact ⟨none, .unset, rfl⟩

theorem advanceKey_slots (s : Store Cursor) (rolled : Bool) (now : Int) (k : KeyRecord) :
    ∃ n, n ≤ k.leases.length ∧ (∀ lease ∈ k.leases.take n, lease ≤ now - s.leaseTimeout) ∧
      (s.advanceKey rolled now k).leases = k.leases.drop n ∧
      (s.advanceKey rolled now k).orphaned = k.orphaned + n ∧
      (s.advanceKey rolled now k).reclaimed = k.reclaimed + n := by
  obtain ⟨n, available, stale, reclaimed⟩ := s.reclaimStaleLocked_spec k now
  refine ⟨n, available, stale, ?_⟩
  unfold advanceKey
  rw [reclaimed]
  cases rolled with
  | false => exact ⟨rfl, rfl, rfl⟩
  | true =>
    obtain ⟨deadline, reason, rolls⟩ := rollKey_spec
      { k with
        leases := k.leases.drop n
        orphaned := k.orphaned + n
        reclaimed := k.reclaimed + n } now
    simp only [if_true, rolls, and_self]

theorem applyCapsLocked_spec (s : Store Cursor) (k : KeyRecord) :
    ∃ drained softRetired, (s.applyCapsLocked k).1 =
      { k with drained := drained, softRetired := softRetired } := by
  unfold applyCapsLocked
  dsimp only
  split
  · exact ⟨k.drained, k.softRetired, rfl⟩
  · have capped (wasRetired : Bool) (capped : KeyRecord) :
        (if ((capped.drained || capped.softRetired) && !wasRetired) = true then (capped, [RetireReason.cap])
          else (capped, [])).1 = capped := by
      split <;> rfl
    rw [capped]
    split
    · exact ⟨true, true, rfl⟩
    · split <;> exact ⟨_, _, rfl⟩

theorem retireLocked_spec (k : KeyRecord) (now deadline : Int) (reason : RetireReason) :
    ∃ retiredUntil retireReason, (retireLocked k now deadline reason).1 =
      { k with retiredUntil := retiredUntil, retireReason := retireReason } := by
  unfold retireLocked
  split
  · exact ⟨k.retiredUntil, k.retireReason, rfl⟩
  · dsimp only
    have changed : ∃ retiredUntil retireReason,
        (if Time.afterDeadline deadline k.retiredUntil = true then
            { k with retiredUntil := some deadline, retireReason := reason } else k) =
          { k with retiredUntil := retiredUntil, retireReason := retireReason } := by
      split <;> exact ⟨_, _, rfl⟩
    split <;> exact changed

structure Settled (sample : UsageSample) (k settled : KeyRecord) : Prop where
  leases : settled.leases = (releaseLocked k).leases
  orphaned : settled.orphaned = (releaseLocked k).orphaned
  reclaimed : settled.reclaimed = k.reclaimed
  requests : settled.requests = k.requests + if sample.outcome = .completed then 1 else 0
  errors : settled.errors = k.errors + if sample.outcome = .failed then 1 else 0
  retiredUntil : settled.retiredUntil = k.retiredUntil

theorem settleLocked_spec (s : Store Cursor) (k : KeyRecord) (sample : UsageSample) :
    Settled sample k (s.settleLocked k sample).1 := by
  have slots : ∃ leases orphaned,
      releaseLocked k = { k with leases := leases, orphaned := orphaned } := by
    unfold releaseLocked
    split <;> exact ⟨_, _, rfl⟩
  obtain ⟨leases, orphaned, released⟩ := slots
  cases outcome : sample.outcome with
  | failed =>
    constructor <;> simp [settleLocked, outcome, released]
  | completed =>
    simp only [settleLocked, outcome]
    obtain ⟨drained, softRetired, capped⟩ :=
      s.applyCapsLocked_spec (s.chargeLocked (releaseLocked k) sample)
    rw [capped]
    constructor <;> simp [released, outcome, chargeLocked]

theorem settleLocked_tokens (s : Store Cursor) (k : KeyRecord) (sample : UsageSample) :
    (s.settleLocked k sample).1.tokens =
      match sample.outcome with
      | .failed => k.tokens
      | .completed => s.arithmetic.norm
          (k.tokens + if sample.tokens = tokensUnknown then s.budget.estimateTokens else sample.tokens) := by
  have released : (releaseLocked k).tokens = k.tokens := by
    unfold releaseLocked
    split <;> rfl
  cases outcome : sample.outcome with
  | failed => simp [settleLocked, outcome, released]
  | completed =>
    obtain ⟨_, _, capped⟩ := s.applyCapsLocked_spec (s.chargeLocked (releaseLocked k) sample)
    simp only [settleLocked, outcome]
    rw [capped]
    simp [chargeLocked, released]

@[simp] theorem normalise_outcome (sample : UsageSample) :
    (normalise sample).outcome = sample.outcome := by
  unfold normalise
  split <;> rfl

theorem releaseLocked_slots (k : KeyRecord) (outstanding : 0 < k.inFlight + k.orphaned) :
    (releaseLocked k).inFlight + (releaseLocked k).orphaned + 1 = k.inFlight + k.orphaned := by
  unfold releaseLocked KeyRecord.inFlight at *
  split
  · simp only
    omega
  · simp only [List.length_drop]
    omega

theorem releaseLocked_orphaned_le (k : KeyRecord) : (releaseLocked k).orphaned ≤ k.orphaned := by
  unfold releaseLocked
  split
  · simp only
    omega
  · exact Nat.le_refl _

/-! ## Calls -/

variable {s : Store Cursor} {rs : RouteState} {now : Int} {response : Response}
    {change : KeyRecord → KeyRecord} {c : Call} {touched : Nat} {k : KeyRecord}
    {state : StoreState Cursor}

theorem candidates_mem {offered : KeyState} (member : offered ∈ s.candidates rs now) :
    ∃ k, rs.keys[offered.index]? = some k ∧ s.admissibleLocked k now = true ∧
      offered = keyStateLocked k offered.index now := by
  obtain ⟨⟨k, index⟩, present, accepted⟩ := List.mem_filterMap.mp member
  have found := List.mk_mem_zipIdx_iff_getElem?.mp present
  simp only at accepted
  split at accepted
  next both =>
    cases accepted
    simp only [Bool.and_eq_true] at both
    exact ⟨k, found, both.2, rfl⟩
  next => cases accepted

@[simp] theorem selectPosition_routes (s : Store Cursor) (state : StoreState Cursor)
    (states : List KeyState) : (s.selectPosition state states).2.routes = state.routes := by
  unfold selectPosition
  dsimp only
  split
  · rfl
  · split <;> rfl

theorem selectPosition_lt (s : Store Cursor) (state : StoreState Cursor) (first : KeyState)
    (rest : List KeyState) :
    (s.selectPosition state (first :: rest)).1 < (first :: rest).length := by
  unfold selectPosition
  dsimp only
  split
  next accepted =>
    simp only [inRange, decide_eq_true_eq] at accepted
    simp only
    omega
  next =>
    split
    next accepted =>
      simp only [inRange, decide_eq_true_eq] at accepted
      simp only
      omega
    next => simp

/-- A reservation either changes nothing (unknown route), only advances the
route (refused), or leases one admissible key. -/
theorem reserve_cases (s : Store Cursor) (state : StoreState Cursor) (route : String) (now : Int) :
    (state.routes route = none ∧ (s.reserve state route now).1 = state ∧
      (s.reserve state route now).2 = (none, .drained)) ∨
    ∃ rs, state.routes route = some rs ∧
      (((s.reserve state route now).1 = state.setRoute route (s.advanceLocked rs now) ∧
          (s.reserve state route now).2.1 = none) ∨
        ∃ index k,
          (s.reserve state route now).1.routes =
            (state.setRoute route (RouteState.lease (s.advanceLocked rs now) index now)).routes ∧
          (s.reserve state route now).2 = (some index, .none) ∧
          (s.advanceLocked rs now).keys[index]? = some k ∧ s.admissibleLocked k now = true) := by
  unfold reserve
  cases known : state.routes route with
  | none => exact .inl ⟨rfl, rfl, rfl⟩
  | some rs =>
    refine .inr ⟨rs, rfl, ?_⟩
    dsimp only
    cases offered : s.candidates (s.advanceLocked rs now) now with
    | nil =>
      dsimp only
      split <;> exact .inl ⟨rfl, rfl⟩
    | cons first rest =>
      right
      dsimp only
      generalize advanced : state.setRoute route (s.advanceLocked rs now) = before
      have bound := s.selectPosition_lt before first rest
      have member : (first :: rest).getD (s.selectPosition before (first :: rest)).1 first ∈
          s.candidates (s.advanceLocked rs now) now := by
        rw [offered, List.getD_eq_getElem?_getD, List.getElem?_eq_getElem bound]
        exact List.getElem_mem bound
      obtain ⟨k, found, admissible, _⟩ := candidates_mem member
      refine ⟨_, k, ?_, rfl, found, admissible⟩
      subst before
      funext name
      by_cases same : name = route <;> simp [same]

def Call.route : Call → String
  | .reserve route => route
  | .recordSample route _ _ => route
  | .retireWithReason route _ _ _ => route
  | .retireForWindow route _ _ => route
  | .retryAfter route => route
  | .snapshot route => route

def Call.index : Call → Option Int
  | .recordSample _ index _ => some index
  | .retireWithReason _ index _ _ => some index
  | .retireForWindow _ index _ => some index
  | .reserve _ | .retryAfter _ | .snapshot _ => none

def Response.reservation : Response → Option Nat
  | .reserved index _ => index
  | .events _ | .wait _ | .keys _ => none

/-- What a call may do to the key it singles out, once its route is advanced. -/
inductive Touch (s : Store Cursor) (rs : RouteState) (now : Int) :
    Call → Response → Nat → (KeyRecord → KeyRecord) → Prop where
  | idle {c : Call} {response : Response} {index : Nat} (unnamed : c.index = none)
      (declined : response.reservation = none) :
      Touch s rs now c response index id
  | leased {route : String} {index : Nat} {k : KeyRecord} (found : rs.keys[index]? = some k)
      (admissible : s.admissibleLocked k now = true) :
      Touch s rs now (.reserve route) (.reserved (some index) .none) index
        (fun k => { k with leases := k.leases ++ [now] })
  | settled {route : String} {index : Nat} {sample : UsageSample} {response : Response}
      (declined : response.reservation = none) :
      Touch s rs now (.recordSample route index sample) response index
        (fun k => (s.settleLocked k (normalise sample)).1)
  | retired {route : String} {index : Nat} {deadline : Int} {reason : RetireReason}
      {response : Response} (declined : response.reservation = none) :
      Touch s rs now (.retireWithReason route index deadline reason) response index
        (fun k => (retireLocked k now deadline (defaultReason reason)).1)
  | parked {route : String} {index : Nat} {reason : RetireReason} {response : Response}
      (declined : response.reservation = none) :
      Touch s rs now (.retireForWindow route index reason) response index
        (fun k => (retireLocked k now (s.windowDeadline rs now) (defaultReason reason)).1)

theorem Touch.of_recordSample {route : String} {named index : Nat} {sample : UsageSample}
    (touch : Touch s rs now (.recordSample route named sample) response index change) :
    index = named ∧ change = fun k => (s.settleLocked k (normalise sample)).1 := by
  generalize isSettlement : Call.recordSample route named sample = c at touch
  cases touch with
  | idle unnamed _ =>
    subst isSettlement
    cases unnamed
  | leased | retired | parked => cases isSettlement
  | settled _ =>
    injection isSettlement with _ sameIndex sameSample
    subst sameSample
    exact ⟨by omega, rfl⟩

theorem Touch.of_reservation {index : Nat} (touch : Touch s rs now c response touched change)
    (granted : response.reservation = some index) :
    touched = index ∧ ∃ k, rs.keys[index]? = some k ∧ s.admissibleLocked k now = true := by
  cases touch with
  | leased found admissible =>
    cases granted
    exact ⟨rfl, _, found, admissible⟩
  | idle _ declined | settled declined | retired declined | parked declined =>
    rw [declined] at granted
    cases granted

/-- Everything a call can do: leave every route as it is, or advance its own
route and touch at most one of the route's keys. -/
inductive CallEffect (s : Store Cursor) (state : StoreState Cursor) (now : Int) (c : Call)
    (response : Response) (routes : String → Option RouteState) : Prop where
  | refused (same : routes = state.routes) (declined : response.reservation = none)
      (absent : ∀ i : Nat, c.index = some (i : Int) → state.keyAt c.route i = none)
  | advanced (rs : RouteState) (index : Nat) (change : KeyRecord → KeyRecord)
      (known : state.routes c.route = some rs)
      (touched : Touch s (s.advanceLocked rs now) now c response index change)
      (result : routes = (state.setRoute c.route
        { s.advanceLocked rs now with
          keys := (s.advanceLocked rs now).keys.modify index change }).routes)

private theorem set_eq_modify {keys : List KeyRecord} {index : Nat}
    (found : keys[index]? = some k) (change : KeyRecord → KeyRecord) :
    keys.set index (change k) = keys.modify index change := by
  obtain ⟨bound, rfl⟩ := List.getElem?_eq_some_iff.mp found
  refine List.ext_getElem? fun j => ?_
  rw [List.getElem?_set, List.getElem?_modify]
  by_cases same : index = j
  · subst same
    simp [bound]
  · simp [same]

theorem onKey_cases (s : Store Cursor) (state : StoreState Cursor) (route : String)
    (index now : Int) (effect : RouteState → KeyRecord → KeyRecord × List RetireReason) :
    ((s.onKey state route index now effect).1 = state ∧
      ∀ i : Nat, (i : Int) = index → state.keyAt route i = none) ∨
    ∃ rs, ∃ i : Nat, (i : Int) = index ∧ state.routes route = some rs ∧
      (s.onKey state route index now effect).1 =
        state.setRoute route
          { s.advanceLocked rs now with
            keys := (s.advanceLocked rs now).keys.modify i
              (fun k => (effect (s.advanceLocked rs now) k).1) } := by
  unfold onKey
  cases known : state.routes route with
  | none => exact .inl ⟨rfl, by simp [StoreState.keyAt, known]⟩
  | some rs =>
    dsimp only
    split
    next outside =>
      refine .inl ⟨rfl, ?_⟩
      intro i same
      have beyond : rs.keys.length ≤ i := by omega
      simp [StoreState.keyAt, known, List.getElem?_eq_none beyond]
    next inside =>
      have bound : index.toNat < rs.keys.length := by omega
      have found := s.advanceLocked_getElem? rs now index.toNat
      rw [List.getElem?_eq_getElem bound] at found
      refine .inr ⟨rs, index.toNat, by omega, rfl, ?_⟩
      simp only [Option.map_some] at found
      rw [found]
      dsimp only
      rw [set_eq_modify found (fun k => (effect (s.advanceLocked rs now) k).1)]

theorem modified_key {index : Nat}
    (found : ((s.advanceLocked rs now).keys.modify touched change)[index]? = some k) :
    ∃ before, rs.keys[index]? = some before ∧
      k = if touched = index then change (s.advanceKey (s.expired rs now) now before)
        else s.advanceKey (s.expired rs now) now before := by
  rw [List.getElem?_modify, advanceLocked_getElem?] at found
  cases present : rs.keys[index]? with
  | none => simp [present] at found
  | some before =>
    refine ⟨before, rfl, ?_⟩
    simpa [present] using found.symm

theorem call_cases (s : Store Cursor) (state : StoreState Cursor) (now : Int) (c : Call) :
    CallEffect s state now c (s.call state now c).2 (s.call state now c).1.routes := by
  cases c with
  | reserve route =>
    rcases s.reserve_cases state route now with
      ⟨_, same, answer⟩ | ⟨rs, known, ⟨same, answer⟩ | ⟨index, k, same, answer, found, admissible⟩⟩
    · refine .refused ?_ ?_ (by simp [Call.index])
      · simp [call, same]
      · simp [call, answer, Response.reservation]
    · refine .advanced rs 0 id known (.idle rfl ?_) ?_
      · simp [call, answer, Response.reservation]
      · simp [call, same, Call.route]
    · refine .advanced rs index _ known ?_ same
      simp only [call, answer]
      exact .leased found admissible
  | recordSample route index sample =>
    rcases s.onKey_cases state route index now
        (fun _ k => s.settleLocked k (normalise sample)) with
      ⟨same, absent⟩ | ⟨rs, i, rfl, known, same⟩
    · refine .refused (congrArg StoreState.routes same) rfl ?_
      intro i named
      exact absent i (Option.some.inj named).symm
    · exact .advanced rs i _ known (.settled rfl) (congrArg StoreState.routes same)
  | retireWithReason route index deadline reason =>
    rcases s.onKey_cases state route index now
        (fun _ k => retireLocked k now deadline (defaultReason reason)) with
      ⟨same, absent⟩ | ⟨rs, i, rfl, known, same⟩
    · refine .refused (congrArg StoreState.routes same) rfl ?_
      intro i named
      exact absent i (Option.some.inj named).symm
    · exact .advanced rs i _ known (.retired rfl) (congrArg StoreState.routes same)
  | retireForWindow route index reason =>
    rcases s.onKey_cases state route index now
        (fun rs k => retireLocked k now (s.windowDeadline rs now) (defaultReason reason)) with
      ⟨same, absent⟩ | ⟨rs, i, rfl, known, same⟩
    · refine .refused (congrArg StoreState.routes same) rfl ?_
      intro i named
      exact absent i (Option.some.inj named).symm
    · exact .advanced rs i _ known (.parked rfl) (congrArg StoreState.routes same)
  | retryAfter route =>
    cases known : state.routes route with
    | none => exact .refused (by simp [call, retryAfter, known]) rfl (by simp [Call.index])
    | some rs =>
      by_cases empty : rs.keys.length = 0
      · exact .refused (by simp [call, retryAfter, known, empty]) rfl (by simp [Call.index])
      · refine .advanced rs 0 id known (.idle rfl rfl) ?_
        simp [call, retryAfter, known, empty, Call.route]
  | snapshot route =>
    cases known : state.routes route with
    | none => exact .refused (by simp [call, snapshot, known]) rfl (by simp [Call.index])
    | some rs =>
      refine .advanced rs 0 id known (.idle rfl rfl) ?_
      simp [call, snapshot, known, Call.route]

inductive KeyChange (s : Store Cursor) (now : Int) (k : KeyRecord) : KeyRecord → Prop where
  | untouched : KeyChange s now k k
  | leased (admissible : s.admissibleLocked k now = true) :
      KeyChange s now k { k with leases := k.leases ++ [now] }
  | settled (sample : UsageSample) : KeyChange s now k (s.settleLocked k sample).1
  | retired (deadline : Int) (reason : RetireReason) :
      KeyChange s now k (retireLocked k now deadline reason).1

theorem Touch.keyChange {index : Nat} (touch : Touch s rs now c response touched change)
    (found : rs.keys[index]? = some k) :
    KeyChange s now k (if touched = index then change k else k) := by
  by_cases same : touched = index
  · subst same
    rw [if_pos rfl]
    cases touch with
    | idle unnamed declined => exact .untouched
    | leased held admissible =>
      rw [held] at found
      cases found
      exact .leased admissible
    | settled declined => exact .settled _
    | retired | parked => exact .retired _ _
  · rw [if_neg same]
    exact .untouched

theorem call_keyAt {route : String} {index : Nat}
    (found : (s.call state now c).1.keyAt route index = some k) :
    ∃ before, state.keyAt route index = some before ∧
      (k = before ∨ ∃ rs, state.routes route = some rs ∧
        KeyChange s now (s.advanceKey (s.expired rs now) now before) k) := by
  obtain ⟨rs, known, present⟩ := StoreState.keyAt_eq_some.mp found
  cases s.call_cases state now c with
  | refused same declined absent =>
    rw [same] at known
    exact ⟨k, StoreState.keyAt_eq_some.mpr ⟨rs, known, present⟩, .inl rfl⟩
  | advanced prior touched change registered touch result =>
    rw [result, StoreState.setRoute_routes] at known
    split at known
    next onRoute =>
      subst onRoute
      cases known
      obtain ⟨before, held, rfl⟩ := modified_key present
      have advanced : (s.advanceLocked prior now).keys[index]? =
          some (s.advanceKey (s.expired prior now) now before) := by
        rw [advanceLocked_getElem?, held]
        rfl
      exact ⟨before, StoreState.keyAt_eq_some.mpr ⟨prior, registered, held⟩,
        .inr ⟨prior, registered, touch.keyChange advanced⟩⟩
    next =>
      exact ⟨k, StoreState.keyAt_eq_some.mpr ⟨rs, known, present⟩, .inl rfl⟩

theorem call_of_reservation {index : Nat}
    (granted : (s.call state now c).2.reservation = some index) :
    ∃ rs k, state.routes c.route = some rs ∧ rs.keys[index]? = some k ∧
      s.admissibleLocked (s.advanceKey (s.expired rs now) now k) now = true := by
  cases s.call_cases state now c with
  | refused same declined absent =>
    rw [declined] at granted
    cases granted
  | advanced prior touched change registered touch result =>
    obtain ⟨-, k, found, admissible⟩ := touch.of_reservation granted
    rw [advanceLocked_getElem?] at found
    obtain ⟨before, present, rfl⟩ := Option.map_eq_some_iff.mp found
    exact ⟨prior, before, registered, present, admissible⟩

theorem call_keyAt_isSome {route : String} {index : Nat}
    (present : (state.keyAt route index).isSome = true) :
    ((s.call state now c).1.keyAt route index).isSome = true := by
  unfold StoreState.keyAt at *
  cases s.call_cases state now c with
  | refused same declined absent =>
    rw [same]
    exact present
  | advanced prior touched change registered touch result =>
    rw [result, StoreState.setRoute_routes]
    split
    next onRoute =>
      subst onRoute
      rw [registered] at present
      simpa [advanceLocked_eq] using present
    next => exact present

/-! ## The key that a call names -/

def foundKey (s : Store Cursor) (state : StoreState Cursor) (route : String) (index : Nat)
    (now : Int) : Option KeyRecord :=
  (state.routes route).bind (fun rs => (s.advanceLocked rs now).keys[index]?)

theorem foundKey_eq {route : String} {index : Nat} (known : state.routes route = some rs)
    (present : rs.keys[index]? = some k) :
    s.foundKey state route index now = some (s.advanceKey (s.expired rs now) now k) := by
  rw [foundKey, known, Option.bind_some, advanceLocked_getElem?, present]
  rfl

theorem foundKey_eq_some {route : String} {index : Nat}
    (found : s.foundKey state route index now = some k) :
    ∃ rs prior, state.routes route = some rs ∧ rs.keys[index]? = some prior ∧
      k = s.advanceKey (s.expired rs now) now prior := by
  obtain ⟨rs, known, advanced⟩ := Option.bind_eq_some_iff.mp found
  rw [advanceLocked_getElem?] at advanced
  obtain ⟨prior, present, rfl⟩ := Option.map_eq_some_iff.mp advanced
  exact ⟨rs, prior, known, present, rfl⟩

def Response.retirements : Response → List RetireReason
  | .events reasons => reasons
  | .reserved _ _ | .wait _ | .keys _ => []

theorem call_of_foundKey {route : String} {index : Nat} (known : state.routes route = some rs)
    (found : s.foundKey state route index now = some k) (c : Call)
    (effect : RouteState → KeyRecord → KeyRecord × List RetireReason)
    (isCall : s.call state now c = ((s.onKey state route index now effect).1,
      .events (s.onKey state route index now effect).2)) :
    (s.call state now c).1.keyAt route index = some (effect (s.advanceLocked rs now) k).1 ∧
      (s.call state now c).2.retirements = (effect (s.advanceLocked rs now) k).2 := by
  rw [isCall]
  rw [foundKey, known, Option.bind_some] at found
  have bound : index < (s.advanceLocked rs now).keys.length := (List.getElem?_eq_some_iff.mp found).1
  have inside : index < rs.keys.length := by simpa [advanceLocked_eq] using bound
  have within : ¬ ((index : Int) < 0 ∨ (rs.keys.length : Int) ≤ index) := by omega
  simp only [onKey, known]
  rw [if_neg within]
  simp only [Int.toNat_natCast, found]
  simp [StoreState.keyAt, Response.retirements, bound]

end Store

end ClusterRouter.Channel
