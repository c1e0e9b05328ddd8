import ClusterRouter.Channel.RouteConfig
import ClusterRouter.Channel.TokenCap

/-! The token counter of a key against the exact sum of what its window was charged, and the
projection of admission against its exact value. `validateBudget` bounds neither cap nor
estimate from above. -/

set_option autoImplicit false

namespace ClusterRouter.Channel

open Foundation

variable {Cursor : Type}

theorem int64_eq_self_iff {n : Int} : int64 n = n ↔ -2 ^ 63 ≤ n ∧ n < 2 ^ 63 := by
  unfold int64
  constructor
  · intro same
    have above := Int.le_bmod (x := n) (m := 2 ^ 64) (by decide)
    have below := Int.bmod_lt (x := n) (m := 2 ^ 64) (by decide)
    rw [same] at above below
    omega
  · rintro ⟨above, below⟩
    exact Int.bmod_eq_of_le (by omega) (by omega)

theorem int64_lt (n : Int) : int64 n < 2 ^ 63 := by
  have below := Int.bmod_lt (x := n) (m := 2 ^ 64) (by decide)
  unfold int64
  omega

structure WindowCharge where
  windowStart : Int
  amount : Int
  deriving DecidableEq, Repr

def windowSum (charges : List WindowCharge) (start : Int) : Int :=
  ((charges.filter (fun charge => decide (charge.windowStart = start))).map
    WindowCharge.amount).sum

theorem windowSum_append (charges more : List WindowCharge) (start : Int) :
    windowSum (charges ++ more) start = windowSum charges start + windowSum more start := by
  simp [windowSum]

theorem windowSum_eq_zero {charges : List WindowCharge} {start : Int}
    (earlier : ∀ charge ∈ charges, charge.windowStart < start) : windowSum charges start = 0 := by
  have uncharged : charges.filter (fun charge => decide (charge.windowStart = start)) = [] := by
    rw [List.filter_eq_nil_iff]
    intro charge member
    have := earlier charge member
    simp only [decide_eq_true_eq]
    omega
  rw [windowSum, uncharged]
  rfl

structure KeyRecord.SameCounters (k l : KeyRecord) : Prop where
  requests : k.requests = l.requests
  tokens : k.tokens = l.tokens
  errors : k.errors = l.errors

namespace Store

section Charges

variable (s : Store Cursor) (route : String) (index : Nat)

def chargeOn : Call → Option Int
  | .recordSample named position sample =>
    if named = route ∧ position = index ∧ sample.outcome = .completed then
      some (s.chargeOf sample)
    else none
  | _ => none

def chargesOn (state : StoreState Cursor) (timed : TimedCall) : List WindowCharge :=
  match state.routes route, s.chargeOn route index timed.call with
  | some rs, some amount => [⟨s.advanceStart rs timed.now, amount⟩]
  | _, _ => []

def projects (k : KeyRecord) (now : Int) : Bool :=
  selectableAt k now && decide (0 < s.budget.window ∧ 0 < s.budget.tokens) &&
    !decide (0 < s.budget.requests ∧ s.budget.requests ≤ (k.requests + k.inFlight : Int))

structure ExactAt (state : StoreState Cursor) (charges : List WindowCharge) (timed : TimedCall) :
    Prop where
  counted : ∀ rs k, (s.call state timed.now timed.call).1.routes route = some rs →
    rs.keys[index]? = some k →
    k.tokens = windowSum (charges ++ s.chargesOn route index state timed) rs.windowStart
  grows : ∀ found k, s.foundKey state route index timed.now = some found →
    (s.call state timed.now timed.call).1.keyAt route index = some k → found.tokens ≤ k.tokens
  projected : timed.call = .reserve route → ∀ k, s.foundKey state route index timed.now = some k →
    s.projects k timed.now = true →
    s.arithmetic.norm (k.tokens + s.arithmetic.norm (k.inFlight * s.budget.estimateTokens)) =
      k.tokens + k.inFlight * s.budget.estimateTokens
  admitted : timed.call = .reserve route →
    (s.call state timed.now timed.call).2.reservation = some index → ∀ k,
    s.foundKey state route index timed.now = some k → 0 < s.budget.tokens →
    k.tokens + k.inFlight * s.budget.estimateTokens < s.budget.tokens

/-- What is charged is no refund and leaves the counter in range, and so does what
admission adds for the leases in flight. -/
def FitsAt (state : StoreState Cursor) (timed : TimedCall) : Prop :=
  ∀ k ∈ s.foundKey state route index timed.now,
    (∀ amount ∈ s.chargeOn route index timed.call, 0 ≤ amount ∧ k.tokens + amount < 2 ^ 63) ∧
    (timed.call = .reserve route → s.projects k timed.now = true →
      k.tokens + k.inFlight * s.budget.estimateTokens < 2 ^ 63)

instance (state : StoreState Cursor) (timed : TimedCall) :
    Decidable (s.FitsAt route index state timed) :=
  inferInstanceAs (Decidable (∀ k ∈ s.foundKey state route index timed.now, _ ∧ _))

end Charges

/-! ## One call -/

def Call.sampleOn (route : String) (index : Nat) : Call → Option UsageSample
  | .recordSample named position sample =>
    if named = route ∧ position = index then some sample else none
  | _ => none

theorem Call.index_of_sampleOn {route : String} {index : Nat} (c : Call)
    (settles : c.sampleOn route index ≠ none) : c.route = route ∧ c.index = some (index : Int) := by
  cases c with
  | recordSample named position sample =>
    simp only [sampleOn, ne_eq, ite_eq_right_iff, reduceCtorEq, imp_false, not_not] at settles
    exact ⟨settles.1, congrArg some settles.2⟩
  | _ => exact absurd rfl settles

section Call

variable {s : Store Cursor} {route : String} {index : Nat} {state : StoreState Cursor}

variable {rs : RouteState} {now : Int} {c : Call}

theorem lt_advanceStart (due : s.expired rs now = true) :
    rs.windowStart < s.advanceStart rs now := by
  have late := due
  simp only [expired, decide_eq_true_eq] at late
  have ordered : rs.windowStart ≤ now := by
    simp only [Time.sub, Duration.maximum, Duration.minimum] at late
    omega
  obtain ⟨windows, start, positive, _⟩ := advanceStart_eq_add (s := s) ordered
  rw [start]
  have := Int.mul_pos (Int.natCast_pos.mpr (positive due)) late.1
  omega

theorem windowStart_le_advanceStart :
    rs.windowStart ≤ s.advanceStart rs now := by
  cases due : s.expired rs now with
  | true => exact Int.le_of_lt (lt_advanceStart due)
  | false => simp [advanceStart, due]

theorem advanceKey_counters (k : KeyRecord) (rolled : Bool) (now : Int) :
    (s.advanceKey rolled now k).SameCounters (if rolled then {} else k) := by
  unfold advanceKey
  rw [reclaimStaleLocked_eq]
  cases rolled with
  | false => exact ⟨rfl, rfl, rfl⟩
  | true =>
    obtain ⟨_, _, rolls⟩ := rollKey_spec
      { k with
        leases := k.leases.dropWhile (s.stale now)
        orphaned := k.orphaned + (k.leases.takeWhile (s.stale now)).length
        reclaimed := k.reclaimed + (k.leases.takeWhile (s.stale now)).length } now
    simp only [if_true, rolls]
    exact ⟨rfl, rfl, rfl⟩

theorem advanceKey_tokens (k : KeyRecord) (rolled : Bool) (now : Int) :
    (s.advanceKey rolled now k).tokens = if rolled then 0 else k.tokens := by
  rw [(s.advanceKey_counters k rolled now).tokens]
  cases rolled <;> rfl

theorem Touch.counters {response : Response} {touched : Nat} {change : KeyRecord → KeyRecord}
    (touch : Touch s rs now c response touched change) (index : Nat) (k : KeyRecord) :
    match c.sampleOn c.route index with
    | none => (if touched = index then change k else k).SameCounters k
    | some sample =>
      (if touched = index then change k else k) = (s.settleLocked k (normalise sample)).1 := by
  cases touch with
  | idle unnamed declined =>
    have unsettled : c.sampleOn c.route index = none := by
      cases c with
      | recordSample => cases unnamed
      | _ => rfl
    rw [unsettled, id, ite_self]
    exact ⟨rfl, rfl, rfl⟩
  | leased found admissible =>
    dsimp only [Call.sampleOn]
    split <;> exact ⟨rfl, rfl, rfl⟩
  | settled declined =>
    by_cases same : touched = index
    · simp [Call.sampleOn, Call.route, same]
    · simpa [Call.sampleOn, same] using ⟨rfl, rfl, rfl⟩
  | retired declined | parked declined =>
    dsimp only [Call.sampleOn]
    split
    · obtain ⟨_, _, retired⟩ := retireLocked_spec k now _ _
      rw [retired]
      exact ⟨rfl, rfl, rfl⟩
    · exact ⟨rfl, rfl, rfl⟩

/-- A call settles a key of a route only if it has advanced the route. -/
theorem call_counters {after : RouteState} {k : KeyRecord}
    (known : (s.call state now c).1.routes route = some after)
    (present : after.keys[index]? = some k) :
    ∃ rs prior, state.routes route = some rs ∧ rs.keys[index]? = some prior ∧
      ((after.windowStart = rs.windowStart ∧ k = prior ∧ c.sampleOn route index = none) ∨
        (c.route = route ∧ after.windowStart = s.advanceStart rs now ∧
          match c.sampleOn route index with
          | none => k.SameCounters (s.advanceKey (s.expired rs now) now prior)
          | some sample => k =
              (s.settleLocked (s.advanceKey (s.expired rs now) now prior) (normalise sample)).1)) := by
  cases s.call_cases state now c with
  | refused same declined absent =>
    rw [same] at known
    refine ⟨after, k, known, present, .inl ⟨rfl, rfl, ?_⟩⟩
    by_contra settles
    obtain ⟨isRoute, named⟩ := c.index_of_sampleOn settles
    have missing := absent index named
    rw [isRoute, StoreState.keyAt_eq_some.mpr ⟨after, known, present⟩] at missing
    cases missing
  | advanced prior touched change registered touch result =>
    rw [result, StoreState.setRoute_routes] at known
    split at known
    next onRoute =>
      subst onRoute
      cases known
      obtain ⟨before, held, rfl⟩ := modified_key present
      refine ⟨prior, before, registered, held, .inr ⟨rfl, ?_, touch.counters index _⟩⟩
      exact s.advanceLocked_windowStart
    next other =>
      refine ⟨after, k, known, present, .inl ⟨rfl, rfl, ?_⟩⟩
      by_contra settles
      exact other (c.index_of_sampleOn settles).1.symm

theorem chargeOn_eq :
    s.chargeOn route index c = (c.sampleOn route index).bind (fun sample =>
      if sample.outcome = .completed then some (s.chargeOf sample) else none) := by
  cases c with
  | recordSample named position sample =>
    simp only [chargeOn, Call.sampleOn]
    by_cases here : named = route ∧ position = index
    · simp [here]
    · rw [if_neg here, if_neg fun charged => here ⟨charged.1, charged.2.1⟩]
      rfl
  | _ => rfl

theorem call_tokens {after : RouteState} {k : KeyRecord}
    (known : (s.call state now c).1.routes route = some after)
    (present : after.keys[index]? = some k) :
    ∃ rs prior, state.routes route = some rs ∧ rs.keys[index]? = some prior ∧
      ((after.windowStart = rs.windowStart ∧ k = prior ∧ s.chargeOn route index c = none) ∨
        (after.windowStart = s.advanceStart rs now ∧
          k.tokens =
            match s.chargeOn route index c with
            | none => (s.advanceKey (s.expired rs now) now prior).tokens
            | some amount =>
              s.arithmetic.norm ((s.advanceKey (s.expired rs now) now prior).tokens + amount))) := by
  obtain ⟨rs, prior, isBefore, held, effect⟩ := call_counters known present
  refine ⟨rs, prior, isBefore, held, effect.imp ?_ ?_⟩
  · rintro ⟨start, same, unsettled⟩
    rw [chargeOn_eq, unsettled]
    exact ⟨start, same, rfl⟩
  · rintro ⟨_, start, counters⟩
    refine ⟨start, ?_⟩
    rw [chargeOn_eq]
    cases settled : c.sampleOn route index with
    | none =>
      rw [settled] at counters
      exact counters.tokens
    | some sample =>
      rw [settled] at counters
      rw [counters, s.settleLocked_normalise_tokens]
      by_cases completed : sample.outcome = .completed <;> simp [completed]

theorem call_charged (now : Int) {prior : KeyRecord} {amount : Int}
    (known : state.routes route = some rs) (present : rs.keys[index]? = some prior)
    (charged : s.chargeOn route index c = some amount) :
    ∃ after k, (s.call state now c).1.routes route = some after ∧ after.keys[index]? = some k ∧
      after.windowStart = s.advanceStart rs now ∧
      k.tokens =
        s.arithmetic.norm ((s.advanceKey (s.expired rs now) now prior).tokens + amount) := by
  have kept : ((s.call state now c).1.keyAt route index).isSome = true :=
    call_keyAt_isSome (Option.isSome_of_mem (StoreState.keyAt_eq_some.mpr ⟨rs, known, present⟩))
  obtain ⟨k, found⟩ := Option.isSome_iff_exists.mp kept
  obtain ⟨after, isAfter, held⟩ := StoreState.keyAt_eq_some.mp found
  obtain ⟨before, earlier, isBefore, isEarlier, effect⟩ := call_tokens isAfter held
  cases known.symm.trans isBefore
  cases present.symm.trans isEarlier
  simp only [charged, reduceCtorEq, and_false, false_or] at effect
  exact ⟨after, k, isAfter, held, effect⟩

theorem projects_of_admissible {k : KeyRecord} (admissible : s.admissibleLocked k now = true)
    (window : 0 < s.budget.window) (capped : 0 < s.budget.tokens) :
    s.projects k now = true ∧
      s.arithmetic.norm (k.tokens + s.arithmetic.norm (k.inFlight * s.budget.estimateTokens)) <
        s.budget.tokens := by
  have selectable := selectableAt_of_admissible admissible
  unfold admissibleLocked at admissible
  rw [selectable, if_neg (by simp), if_neg (by omega)] at admissible
  split at admissible
  · cases admissible
  next left =>
    split at admissible
    · cases admissible
    next below =>
      refine ⟨?_, by omega⟩
      simp only [projects, selectable, window, capped, left]
      rfl

end Call

/-! ## Whole runs -/

section Run

variable {s : Store Cursor} {route : String} {index : Nat}

def Balanced (route : String) (index : Nat) (state : StoreState Cursor)
    (charges : List WindowCharge) : Prop :=
  ∀ rs k, state.routes route = some rs → rs.keys[index]? = some k →
    0 ≤ k.tokens ∧ k.tokens = windowSum charges rs.windowStart ∧
      ∀ charge ∈ charges, charge.windowStart ≤ rs.windowStart

variable {state : StoreState Cursor} {charges : List WindowCharge} {timed : TimedCall}

variable {k : KeyRecord}

theorem Balanced.found (balanced : Balanced route index state charges) {rs : RouteState}
    (known : state.routes route = some rs) (present : rs.keys[index]? = some k) (now : Int) :
    0 ≤ (s.advanceKey (s.expired rs now) now k).tokens ∧
      (s.advanceKey (s.expired rs now) now k).tokens ≤ k.tokens ∧
      (s.advanceKey (s.expired rs now) now k).tokens = windowSum charges (s.advanceStart rs now) := by
  obtain ⟨nonneg, counted, begun⟩ := balanced rs k known present
  rw [s.advanceKey_tokens]
  cases due : s.expired rs now with
  | false => simpa [advanceStart, due, nonneg] using counted
  | true =>
    have past := windowSum_eq_zero fun charge member =>
      Int.lt_of_le_of_lt (begun charge member) (lt_advanceStart due)
    simpa [past] using nonneg

theorem chargesOn_eq {rs : RouteState} (known : state.routes route = some rs) :
    s.chargesOn route index state timed =
      match s.chargeOn route index timed.call with
      | none => []
      | some amount => [⟨s.advanceStart rs timed.now, amount⟩] := by
  rw [chargesOn, known]
  cases s.chargeOn route index timed.call <;> rfl

theorem projection_exact (wrapping : s.arithmetic = .machine) (nonneg : 0 ≤ k.tokens)
    (estimated : 0 < s.budget.estimateTokens)
    (fits : k.tokens + k.inFlight * s.budget.estimateTokens < 2 ^ 63) :
    s.arithmetic.norm (k.tokens + s.arithmetic.norm (k.inFlight * s.budget.estimateTokens)) =
      k.tokens + k.inFlight * s.budget.estimateTokens := by
  have carried : 0 ≤ (k.inFlight : Int) * s.budget.estimateTokens :=
    Int.mul_nonneg (Int.natCast_nonneg _) (Int.le_of_lt estimated)
  rw [wrapping]
  simp only [Arithmetic.norm]
  rw [int64_of_nonneg carried (by omega), int64_of_nonneg (by omega) fits]

theorem FitsAt.charged (wrapping : s.arithmetic = .machine)
    (fits : s.FitsAt route index state timed) (balanced : Balanced route index state charges)
    {after : RouteState}
    (isAfter : (s.call state timed.now timed.call).1.routes route = some after)
    (held : after.keys[index]? = some k) :
    k.tokens = windowSum (charges ++ s.chargesOn route index state timed) after.windowStart ∧
      ∀ found, s.foundKey state route index timed.now = some found → found.tokens ≤ k.tokens := by
  obtain ⟨rs, prior, known, present, effect⟩ := call_tokens isAfter held
  obtain ⟨nonneg, fewer, sum⟩ := balanced.found (s := s) known present timed.now
  have isFound : s.foundKey state route index timed.now = some _ := foundKey_eq known present
  rw [windowSum_append, chargesOn_eq known, isFound]
  simp only [Option.some.injEq, forall_eq']
  rcases effect with ⟨start, rfl, uncharged⟩ | ⟨start, tokens⟩
  · rw [uncharged, start]
    refine ⟨?_, fewer⟩
    rw [(balanced rs k known present).2.1]
    simp [windowSum]
  · rw [start, ← sum]
    cases charged : s.chargeOn route index timed.call with
    | none =>
      rw [charged] at tokens
      simp [windowSum, tokens]
    | some amount =>
      obtain ⟨refund, small⟩ := (fits _ isFound).1 amount charged
      rw [charged, wrapping] at tokens
      simp only [Arithmetic.norm] at tokens
      rw [int64_of_nonneg (by omega) small] at tokens
      simp only [windowSum, tokens]
      simp [refund]

/-- Values that are exact fit: a charge out of range would wrap the counter, and a projection out
of range is not what admission computes. -/
theorem ExactAt.fits (wrapping : s.arithmetic = .machine)
    (precise : s.ExactAt route index state charges timed)
    (balanced : Balanced route index state charges) : s.FitsAt route index state timed := by
  intro found isFound
  obtain ⟨rs, prior, known, present, isKey⟩ := foundKey_eq_some isFound
  constructor
  · intro amount charged
    obtain ⟨after, k, isAfter, held, start, tokens⟩ :=
      call_charged timed.now known present charged
    obtain ⟨nonneg, -, sum⟩ := balanced.found (s := s) known present timed.now
    have counted := precise.counted after k isAfter held
    have grown := precise.grows _ k isFound (StoreState.keyAt_eq_some.mpr ⟨after, isAfter, held⟩)
    have added : windowSum [⟨s.advanceStart rs timed.now, amount⟩]
        (s.advanceStart rs timed.now) = amount := by simp [windowSum]
    rw [chargesOn_eq known, charged, windowSum_append, start, ← sum, added, ← isKey] at counted
    rw [counted, ← isKey, wrapping] at tokens
    have range := int64_eq_self_iff.mp tokens.symm
    omega
  · intro reserved projects
    have exactly := precise.projected reserved _ isFound projects
    rw [wrapping] at exactly
    have below := int64_lt (found.tokens +
      Arithmetic.machine.norm (found.inFlight * s.budget.estimateTokens))
    simp only [Arithmetic.norm] at exactly below
    omega

theorem FitsAt.exactAt (wrapping : s.arithmetic = .machine)
    (validated : 0 < s.budget.tokens → 0 < s.budget.window ∧ 0 < s.budget.estimateTokens)
    (fits : s.FitsAt route index state timed) (balanced : Balanced route index state charges) :
    s.ExactAt route index state charges timed := by
  have nonneg {k : KeyRecord} (isFound : s.foundKey state route index timed.now = some k) :
      0 ≤ k.tokens := by
    obtain ⟨rs, prior, known, present, rfl⟩ := foundKey_eq_some isFound
    exact (balanced.found known present timed.now).1
  refine ⟨fun after k isAfter held => (fits.charged wrapping balanced isAfter held).1, ?_, ?_, ?_⟩
  · intro found k isFound isLeft
    obtain ⟨after, isAfter, held⟩ := StoreState.keyAt_eq_some.mp isLeft
    exact (fits.charged wrapping balanced isAfter held).2 found isFound
  · intro reserved k isFound projects
    have capped : 0 < s.budget.tokens := by
      simp only [Store.projects, Bool.and_eq_true, decide_eq_true_eq] at projects
      exact projects.1.2.2
    exact projection_exact wrapping (nonneg isFound) (validated capped).2
      ((fits k isFound).2 reserved projects)
  · intro reserved granted k isFound capped
    obtain ⟨rs, prior, known, present, admissible⟩ := call_of_reservation granted
    rw [reserved, Call.route] at known
    cases isFound.symm.trans (foundKey_eq known present)
    obtain ⟨projects, below⟩ :=
      projects_of_admissible admissible (validated capped).1 capped
    rwa [projection_exact wrapping (nonneg isFound) (validated capped).2
      ((fits _ isFound).2 reserved projects)] at below

theorem ExactAt.balanced (precise : s.ExactAt route index state charges timed)
    (balanced : Balanced route index state charges) :
    Balanced route index (s.call state timed.now timed.call).1
      (charges ++ s.chargesOn route index state timed) := by
  intro after k isAfter held
  obtain ⟨rs, prior, known, present, effect⟩ := call_tokens isAfter held
  have grown := precise.grows _ k (foundKey_eq known present)
    (StoreState.keyAt_eq_some.mpr ⟨after, isAfter, held⟩)
  have found := (balanced.found (s := s) known present timed.now).1
  have begun := (balanced rs prior known present).2.2
  refine ⟨by omega, precise.counted after k isAfter held, ?_⟩
  intro charge member
  rw [chargesOn_eq known] at member
  rcases effect with ⟨start, rfl, uncharged⟩ | ⟨start, _⟩
  · rw [uncharged, List.append_nil] at member
    rw [start]
    exact begun charge member
  · rw [start]
    obtain earlier | new := List.mem_append.mp member
    · exact Int.le_trans (begun charge earlier) windowStart_le_advanceStart
    · cases charged : s.chargeOn route index timed.call with
      | none => simp [charged] at new
      | some amount =>
        simp only [charged, List.mem_singleton] at new
        rw [new]

theorem newStoreState_balanced (keys : String → Option Int) (cursor : Cursor) (began : Int) :
    Balanced route index (newStoreState keys cursor began) [] := by
  intro rs k known present
  rw [(newStoreState_routes known).2 k (List.mem_of_getElem? present)]
  exact ⟨Int.le_refl _, rfl, by simp⟩

end Run

end Store

/-- The values that a run computes for a key are the exact integers iff no charge is
negative or takes the counter out of range and no projection of admission does. -/
theorem token_arithmetic_exact_iff (policy : RotationPolicy Cursor) (budget validated : Budget)
    (accepted : validateBudget budget = .ok validated) (maxRetryAfter leaseTimeout : Int)
    (keys : String → Option Int) (cursor : Cursor) (began : Int) (route : String) (index : Nat)
    (trace : List TimedCall) (final : StoreState Cursor × List WindowCharge) :
    let s := newStore policy validated maxRetryAfter leaseTimeout .machine
    let recording := s.machine.recording (s.chargesOn route index)
    recording.run (newStoreState keys cursor began, []) trace = some final →
      (recording.Meets (fun recorded timed => s.ExactAt route index recorded.1 recorded.2 timed)
          (newStoreState keys cursor began, []) trace ↔
        recording.Meets (fun recorded timed => s.FitsAt route index recorded.1 timed)
          (newStoreState keys cursor began, []) trace) := by
  intro s recording ran
  have capped := validateBudget_capped accepted
  refine recording.meets_congr_of_invariant
    (fun recorded => Store.Balanced route index recorded.1 recorded.2) ?_ ?_ ran
    (Store.newStoreState_balanced keys cursor began)
  · intro recorded timed next _ balanced
    exact ⟨fun precise => precise.fits rfl balanced, fun fits => fits.exactAt rfl capped balanced⟩
  · rintro ⟨state, charges⟩ timed ⟨next, more⟩ stepped balanced precise
    obtain ⟨moved, rfl⟩ := (s.machine.recording_step_eq_some _).mp stepped
    cases moved
    exact precise.balanced balanced

def chargedRun : List TimedCall :=
  [⟨1, .reserve "chat"⟩, ⟨2, .reserve "chat"⟩, ⟨3, .recordSample "chat" 0 ⟨.completed, 7, false⟩⟩]

theorem token_arithmetic_exact_charged :
    let s := newStore firstKey LeaseSession.tenTokenBudget 0 0 .machine
    let recording := s.machine.recording (s.chargesOn "chat" 0)
    ∃ final, recording.run (newStoreState (fun _ => some 1) () 0, []) chargedRun = some final ∧
      final.2 = [⟨0, 7⟩] ∧
      recording.Meets (fun recorded timed => s.ExactAt "chat" 0 recorded.1 recorded.2 timed)
        (newStoreState (fun _ => some 1) () 0, []) chargedRun := by
  intro s recording
  have ran : recording.run (newStoreState (fun _ => some 1) () 0, []) chargedRun = some _ := rfl
  refine ⟨_, ran, by decide +kernel, ?_⟩
  exact (token_arithmetic_exact_iff firstKey LeaseSession.tenTokenBudget _ (by decide +kernel) 0 0
    (fun _ => some 1) () 0 "chat" 0 chargedRun _ ran).mpr (by decide +kernel)

def widestBudget : Budget where
  window := Duration.hour
  tokens := 2 ^ 63 - 1
  requests := 0
  softRatio := .finite 1
  estimateTokens := 2 ^ 62

def widestRun (trace : List TimedCall) : Option (StoreState Unit) :=
  (newStore firstKey widestBudget 0 0 .machine).machine.run
    (newStoreState (fun _ => some 1) () 0) trace

/-- Two leases in flight bring the projection to the cap, and a third is admitted; two
settlements take the counter below zero. -/
theorem token_counter_wraps :
    validateBudget widestBudget = .ok widestBudget ∧
      (∃ final k, widestRun [⟨1, .reserve "chat"⟩, ⟨2, .reserve "chat"⟩] = some final ∧
        final.keyAt "chat" 0 = some k ∧
        widestBudget.tokens ≤ k.tokens + k.inFlight * widestBudget.estimateTokens ∧
        ((newStore firstKey widestBudget 0 0 .machine).reserve final "chat" 3).2 = (some 0, .none)) ∧
      ∃ final k, widestRun [⟨1, .reserve "chat"⟩, ⟨2, .reserve "chat"⟩,
          ⟨3, .recordSample "chat" 0 ⟨.completed, 2 ^ 63 - 1, false⟩⟩,
          ⟨4, .recordSample "chat" 0 ⟨.completed, 2 ^ 63 - 1, false⟩⟩] = some final ∧
        final.keyAt "chat" 0 = some k ∧ k.tokens = -2 := by
  refine ⟨by decide +kernel, ?_, ?_⟩
  · exact ⟨_, _, rfl, rfl, by decide +kernel, by decide +kernel⟩
  · refine ⟨_, { requests := 2, tokens := -2, drained := true, softRetired := true }, rfl, ?_, rfl⟩
    decide +kernel

end ClusterRouter.Channel
