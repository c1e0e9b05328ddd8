import ClusterRouter.Channel.RotationStoreProperties
import ClusterRouter.Foundation.Machine

/-! A key is out of rotation while it is capped or retired. Neither test for a key that is
already out, `wasRetired` or `alreadyOut`, looks at the other, so a key may report two events.
-/

set_option autoImplicit false

namespace ClusterRouter.Channel

open Foundation

variable {Cursor : Type}

structure TimedCall where
  now : Int
  call : Store.Call
  deriving DecidableEq, Repr

def KeyRecord.capped (k : KeyRecord) : Bool := k.drained || k.softRetired

def KeyRecord.retiredAt (k : KeyRecord) (now : Int) : Bool := Time.deadlineAfter k.retiredUntil now

theorem selectableAt_eq (k : KeyRecord) (now : Int) :
    selectableAt k now = (!k.capped && !k.retiredAt now) := by
  simp [selectableAt, KeyRecord.capped, KeyRecord.retiredAt, Bool.not_or]

theorem KeyRecord.retiredAt_later {k : KeyRecord} {now later : Int} (passed : now ≤ later)
    (free : k.retiredAt now = false) : k.retiredAt later = false := by
  unfold retiredAt Time.deadlineAfter at *
  cases retires : k.retiredUntil with
  | none => rfl
  | some deadline =>
    simp only [retires, decide_eq_false_iff_not] at free ⊢
    omega

namespace Store

def machine (s : Store Cursor) : Machine (StoreState Cursor) TimedCall where
  step state timed := some (s.call state timed.now timed.call).1

def names (c : Call) (route : String) (index : Nat) : Bool :=
  decide (c.route = route ∧ c.index = some (index : Int))

def keyEvents (s : Store Cursor) (route : String) (index : Nat) (state : StoreState Cursor)
    (timed : TimedCall) : List RetireReason :=
  if names timed.call route index then (s.call state timed.now timed.call).2.retirements else []

def departs (s : Store Cursor) (route : String) (index : Nat) (state : StoreState Cursor)
    (timed : TimedCall) : Bool :=
  match s.foundKey state route index timed.now,
    (s.call state timed.now timed.call).1.keyAt route index with
  | some found, some left =>
    names timed.call route index && selectableAt found timed.now && !selectableAt left timed.now
  | _, _ => false

def overCap (s : Store Cursor) (k : KeyRecord) : Bool :=
  let b := s.budget
  decide (0 < b.window) &&
    ((s.atRatio k.requests b.requests (.finite 1) || s.atRatio k.tokens b.tokens (.finite 1)) ||
      (s.atRatio k.requests b.requests b.softRatio || s.atRatio k.tokens b.tokens b.softRatio))

/-- A settlement that takes a key to a cap finds no retirement of it in force, and a
retirement that is not an extension finds the key below its caps. -/
def oneWayOut (s : Store Cursor) (route : String) (index : Nat) (state : StoreState Cursor)
    (timed : TimedCall) : Bool :=
  match state.routes route, s.foundKey state route index timed.now with
  | some rs, some k =>
    !names timed.call route index ||
      match timed.call with
      | .recordSample _ _ sample =>
        !k.retiredAt timed.now || k.capped || decide (sample.outcome = .failed) ||
          !s.overCap (s.chargeLocked k (normalise sample))
      | .retireWithReason _ _ deadline _ =>
        !k.capped || k.retiredAt timed.now || decide (deadline ≤ timed.now)
      | .retireForWindow _ _ _ =>
        !k.capped || k.retiredAt timed.now ||
          decide (s.windowDeadline (s.advanceLocked rs timed.now) timed.now ≤ timed.now)
      | .reserve _ | .retryAfter _ | .snapshot _ => true
  | _, _ => true

/-! ## What one call does to the two ways out -/

variable {s : Store Cursor} {c : Call} {route : String} {index : Nat} {state : StoreState Cursor}
    {now : Int} {rs : RouteState}

theorem atRatio_of_nonpos {limit : Int} (uncapped : limit ≤ 0) (used : Int) (ratio : Binary64) :
    s.atRatio used limit ratio = false := by
  have off : ¬ 0 < limit := by omega
  unfold atRatio
  split <;> simp [off]

theorem overCap_eq_false
    (off : s.budget.window ≤ 0 ∨ (s.budget.requests ≤ 0 ∧ s.budget.tokens ≤ 0)) (k : KeyRecord) :
    s.overCap k = false := by
  unfold overCap
  rcases off with closed | ⟨noRequests, noTokens⟩
  · have closed : ¬ 0 < s.budget.window := by omega
    simp [closed]
  · simp [atRatio_of_nonpos noRequests, atRatio_of_nonpos noTokens]

theorem applyCapsLocked_capped (s : Store Cursor) (k : KeyRecord) :
    (s.applyCapsLocked k).1.capped = (k.capped || s.overCap k) ∧
      (s.applyCapsLocked k).2 = (if !k.capped && s.overCap k then [.cap] else []) := by
  unfold applyCapsLocked
  dsimp only
  split
  next off => simp [overCap_eq_false off k]
  next on =>
    have window : 0 < s.budget.window := by omega
    simp only [overCap, window, decide_true, Bool.true_and, KeyRecord.capped]
    generalize (s.atRatio k.requests s.budget.requests (.finite 1) ||
      s.atRatio k.tokens s.budget.tokens (.finite 1)) = hard
    generalize (s.atRatio k.requests s.budget.requests s.budget.softRatio ||
      s.atRatio k.tokens s.budget.tokens s.budget.softRatio) = soft
    cases hard <;> cases soft <;> cases drained : k.drained <;> cases retired : k.softRetired <;>
      simp [drained, retired]

theorem settleLocked_capped (s : Store Cursor) (k : KeyRecord) (sample : UsageSample) :
    let trips := decide (sample.outcome = .completed) && s.overCap (s.chargeLocked k sample)
    (s.settleLocked k sample).1.capped = (k.capped || trips) ∧
      (s.settleLocked k sample).2 = (if !k.capped && trips then [.cap] else []) := by
  have released : s.overCap (s.chargeLocked (releaseLocked k) sample) =
        s.overCap (s.chargeLocked k sample) ∧
      (s.chargeLocked (releaseLocked k) sample).capped = k.capped ∧
      (releaseLocked k).capped = k.capped := by
    unfold releaseLocked
    split <;> exact ⟨rfl, rfl, rfl⟩
  obtain ⟨sameCap, charged, same⟩ := released
  unfold settleLocked
  cases outcome : sample.outcome with
  | failed => simpa [KeyRecord.capped] using same
  | completed =>
    have caps := s.applyCapsLocked_capped (s.chargeLocked (releaseLocked k) sample)
    rw [sameCap, charged] at caps
    simpa using caps

theorem retireLocked_retiredAt (k : KeyRecord) (now deadline : Int) (reason : RetireReason) :
    (retireLocked k now deadline reason).1.retiredAt now =
        (k.retiredAt now || decide (now < deadline)) ∧
      (retireLocked k now deadline reason).2 =
        (if !k.retiredAt now && decide (now < deadline) then [reason] else []) := by
  unfold retireLocked KeyRecord.retiredAt
  split
  next past =>
    have past : ¬ now < deadline := by omega
    simp [past]
  next ahead =>
    have ahead : now < deadline := by omega
    cases retires : k.retiredUntil with
    | none => simp [Time.deadlineAfter, Time.afterDeadline, ahead]
    | some current =>
      by_cases further : current < deadline
      · cases inForce : Time.deadlineAfter (some current) now <;>
          simp [Time.deadlineAfter, Time.afterDeadline, further, ahead]
      · have inForce : now < current := by omega
        simp [Time.deadlineAfter, Time.afterDeadline, further, retires, inForce]

/-- The events of a settlement are its departure and, where a retirement is in force, the
cap it reports all the same. -/
theorem settleLocked_events (s : Store Cursor) (k : KeyRecord) (sample : UsageSample) (now : Int) :
    (s.settleLocked k sample).2.length =
      (selectableAt k now && !selectableAt (s.settleLocked k sample).1 now).toNat +
        (!(!k.retiredAt now || k.capped || decide (sample.outcome = .failed) ||
          !s.overCap (s.chargeLocked k sample))).toNat := by
  obtain ⟨capped, reported⟩ := s.settleLocked_capped k sample
  have parked : (s.settleLocked k sample).1.retiredAt now = k.retiredAt now :=
    congrArg (Time.deadlineAfter · now) (s.settleLocked_spec k sample).retiredUntil
  rw [selectableAt_eq, selectableAt_eq, parked, capped, reported]
  cases sample.outcome <;> cases k.capped <;> cases k.retiredAt now <;>
    cases s.overCap (s.chargeLocked k sample) <;> rfl

/-- The events of a retirement are its departure and, where the key is capped, the
retirement it reports all the same. -/
theorem retireLocked_events (k : KeyRecord) (now deadline : Int) (reason : RetireReason) :
    (retireLocked k now deadline reason).2.length =
      (selectableAt k now && !selectableAt (retireLocked k now deadline reason).1 now).toNat +
        (!(!k.capped || k.retiredAt now || decide (deadline ≤ now))).toNat := by
  obtain ⟨parked, reported⟩ := retireLocked_retiredAt k now deadline reason
  have capped : (retireLocked k now deadline reason).1.capped = k.capped := by
    obtain ⟨_, _, retired⟩ := retireLocked_spec k now deadline reason
    rw [retired]
    rfl
  have past : decide (deadline ≤ now) = !decide (now < deadline) := by
    rw [← decide_not]
    exact decide_eq_decide.mpr (by omega)
  rw [selectableAt_eq, selectableAt_eq, parked, capped, reported, past]
  cases k.capped <;> cases k.retiredAt now <;> cases decide (now < deadline) <;> rfl

theorem names_cases (named : names c route index = true) :
    (∃ sample, c = .recordSample route index sample) ∨
      (∃ deadline reason, c = .retireWithReason route index deadline reason) ∨
      ∃ reason, c = .retireForWindow route index reason := by
  simp only [names, decide_eq_true_eq] at named
  obtain ⟨rfl, isIndex⟩ := named
  cases c with
  | reserve | retryAfter | snapshot => cases isIndex
  | recordSample route named sample =>
    cases isIndex
    exact .inl ⟨sample, rfl⟩
  | retireWithReason route named deadline reason =>
    cases isIndex
    exact .inr (.inl ⟨deadline, reason, rfl⟩)
  | retireForWindow route named reason =>
    cases isIndex
    exact .inr (.inr ⟨reason, rfl⟩)

theorem onKey_of_absent (absent : s.foundKey state route index now = none)
    (effect : RouteState → KeyRecord → KeyRecord × List RetireReason) :
    (s.onKey state route index now effect).2 = [] := by
  unfold onKey
  split
  next => rfl
  next rs known =>
    split
    next => rfl
    next =>
      rw [foundKey, known, Option.bind_some] at absent
      simp [absent]

theorem keyEvents_of_foundKey {timed : TimedCall} {k : KeyRecord}
    (known : state.routes route = some rs)
    (found : s.foundKey state route index timed.now = some k)
    (named : names timed.call route index = true) :
    (s.keyEvents route index state timed).length =
      (s.departs route index state timed).toNat + (!s.oneWayOut route index state timed).toNat := by
  simp only [keyEvents, departs, oneWayOut, known, found, named, if_true]
  obtain ⟨now, c⟩ := timed
  rcases names_cases named with ⟨sample, rfl⟩ | ⟨deadline, reason, rfl⟩ | ⟨reason, rfl⟩
  · obtain ⟨left, events⟩ := call_of_foundKey known found (.recordSample route index sample)
      (fun _ k => s.settleLocked k (normalise sample)) rfl
    have counted := s.settleLocked_events k (normalise sample) now
    rw [normalise_outcome, ← events] at counted
    rw [left]
    simpa using counted
  · obtain ⟨left, events⟩ := call_of_foundKey known found
      (.retireWithReason route index deadline reason)
      (fun _ k => retireLocked k now deadline (defaultReason reason)) rfl
    have counted := retireLocked_events k now deadline (defaultReason reason)
    rw [← events] at counted
    rw [left]
    simpa using counted
  · obtain ⟨left, events⟩ := call_of_foundKey known found (.retireForWindow route index reason)
      (fun rs k => retireLocked k now (s.windowDeadline rs now) (defaultReason reason)) rfl
    have counted := retireLocked_events k now (s.windowDeadline (s.advanceLocked rs now) now)
      (defaultReason reason)
    rw [← events] at counted
    rw [left]
    simpa using counted

theorem keyEvents_of_absent {timed : TimedCall}
    (absent : s.foundKey state route index timed.now = none) :
    s.keyEvents route index state timed = [] := by
  obtain ⟨now, c⟩ := timed
  unfold keyEvents
  split
  next named =>
    rcases names_cases named with ⟨sample, rfl⟩ | ⟨deadline, reason, rfl⟩ | ⟨reason, rfl⟩
    · exact onKey_of_absent absent (fun _ k => s.settleLocked k (normalise sample))
    · exact onKey_of_absent absent (fun _ k => retireLocked k now deadline (defaultReason reason))
    · exact onKey_of_absent absent
        (fun rs k => retireLocked k now (s.windowDeadline rs now) (defaultReason reason))
  next => rfl

theorem keyEvents_eq_departs_add (s : Store Cursor) (state : StoreState Cursor) (timed : TimedCall)
    (route : String) (index : Nat) :
    (s.keyEvents route index state timed).length =
      (s.departs route index state timed).toNat + (!s.oneWayOut route index state timed).toNat := by
  cases found : s.foundKey state route index timed.now with
  | none =>
    rw [keyEvents_of_absent found]
    cases known : state.routes route <;> simp [departs, oneWayOut, found, known]
  | some k =>
    obtain ⟨rs, known, _⟩ := Option.bind_eq_some_iff.mp found
    cases named : names timed.call route index with
    | true => exact keyEvents_of_foundKey known found named
    | false =>
      simp only [keyEvents, departs, oneWayOut, known, found, named]
      cases (s.call state timed.now timed.call).1.keyAt route index <;> simp

/-! ## Nothing else takes a key out -/

theorem advanceKey_retiredAt (s : Store Cursor) (rolled : Bool) (now : Int) (k : KeyRecord) :
    (s.advanceKey rolled now k).retiredAt now = k.retiredAt now := by
  obtain ⟨n, _, _, reclaimed⟩ := s.reclaimStaleLocked_spec k now
  unfold advanceKey
  rw [reclaimed]
  cases rolled with
  | false => rfl
  | true =>
    unfold KeyRecord.retiredAt
    cases inForce : Time.deadlineAfter k.retiredUntil now with
    | false =>
      simp only [rollKey, inForce, if_true]
      rfl
    | true => simp [rollKey, inForce]

theorem advanceKey_capped (s : Store Cursor) (rolled : Bool) (now : Int) (k : KeyRecord) :
    (s.advanceKey rolled now k).capped = (!rolled && k.capped) := by
  obtain ⟨n, _, _, reclaimed⟩ := s.reclaimStaleLocked_spec k now
  unfold advanceKey
  rw [reclaimed]
  cases rolled with
  | false => rfl
  | true =>
    simp only [if_true]
    obtain ⟨_, _, rolls⟩ := rollKey_spec
      { k with
        leases := k.leases.drop n
        orphaned := k.orphaned + n
        reclaimed := k.reclaimed + n } now
    rw [rolls]
    rfl

theorem selectableAt_advanceKey (s : Store Cursor) (rolled : Bool) (now : Int) (k : KeyRecord) :
    selectableAt (s.advanceKey rolled now k) now = ((rolled || !k.capped) && !k.retiredAt now) := by
  rw [selectableAt_eq, advanceKey_capped, advanceKey_retiredAt]
  cases rolled <;> simp

theorem expired_later {later : Int} (passed : now ≤ later) (due : s.expired rs now = true) :
    s.expired rs later = true := by
  simp only [expired, decide_eq_true_eq] at due ⊢
  unfold Time.sub at *
  omega

def inRotation (s : Store Cursor) (state : StoreState Cursor) (route : String) (index : Nat)
    (now : Int) : Bool :=
  (s.foundKey state route index now).any (fun k => selectableAt k now)

theorem inRotation_iff :
    s.inRotation state route index now = true ↔
      ∃ rs k, state.routes route = some rs ∧ rs.keys[index]? = some k ∧
        (s.expired rs now = true ∨ k.capped = false) ∧ k.retiredAt now = false := by
  unfold inRotation foundKey
  cases known : state.routes route with
  | none => simp
  | some rs =>
    rw [Option.bind_some, advanceLocked_getElem?]
    cases present : rs.keys[index]? with
    | none => simp [present]
    | some k => simp [present, selectableAt_advanceKey]

theorem Touch.unnamed {response : Response} {touched : Nat} {change : KeyRecord → KeyRecord}
    (touch : Touch s rs now c response touched change) (unnamed : names c c.route index = false)
    (k : KeyRecord) :
    ∃ leases, (if touched = index then change k else k) = { k with leases := leases } := by
  split
  next same =>
    subst same
    cases touch with
    | idle noIndex declined => exact ⟨k.leases, rfl⟩
    | leased found admissible => exact ⟨k.leases ++ [now], rfl⟩
    | settled | retired | parked => simp [names, Call.index] at unnamed
  next => exact ⟨k.leases, rfl⟩

/-- Neither the passage of time nor a call that does not name a key takes it out of
rotation. -/
theorem inRotation_kept {later : Int} (passed : now ≤ later)
    (unnamed : names c route index = false) (inside : s.inRotation state route index now = true) :
    s.inRotation (s.call state now c).1 route index later = true := by
  obtain ⟨rs, k, known, present, uncapped, free⟩ := inRotation_iff.mp inside
  have freed := KeyRecord.retiredAt_later passed free
  rw [inRotation_iff]
  cases s.call_cases state now c with
  | refused same declined absent =>
    exact ⟨rs, k, same ▸ known, present, uncapped.imp_left (expired_later passed), freed⟩
  | advanced prior touched change registered touch result =>
    rw [result, StoreState.setRoute_routes]
    split
    next onRoute =>
      subst onRoute
      cases registered.symm.trans known
      obtain ⟨leases, changed⟩ := touch.unnamed unnamed (s.advanceKey (s.expired rs now) now k)
      refine ⟨_, { s.advanceKey (s.expired rs now) now k with leases := leases }, rfl, ?_, .inr ?_, ?_⟩
      · rw [← changed]
        simp [List.getElem?_modify, advanceLocked_getElem?, present]
      · have below : (s.advanceKey (s.expired rs now) now k).capped = false := by
          rw [advanceKey_capped]
          rcases uncapped with due | low <;> simp [*]
        exact below
      · have parked : (s.advanceKey (s.expired rs now) now k).retiredAt now = false := by
          rw [advanceKey_retiredAt, free]
        exact KeyRecord.retiredAt_later passed parked
    next => exact ⟨rs, k, known, present, uncapped.imp_left (expired_later passed), freed⟩

end Store

/-! ## Events and departures of a run -/

inductive RotationNote where
  | retired (reason : RetireReason)
  | left
  deriving DecidableEq, Repr

def RotationNote.isLeft : RotationNote → Bool
  | .left => true
  | .retired _ => false

def reportedIn (notes : List RotationNote) : Nat := notes.countP (fun note => !note.isLeft)

def departuresIn (notes : List RotationNote) : Nat := notes.countP RotationNote.isLeft

namespace Store

def rotationNotes (s : Store Cursor) (route : String) (index : Nat) (state : StoreState Cursor)
    (timed : TimedCall) : List RotationNote :=
  (s.keyEvents route index state timed).map .retired ++
    if s.departs route index state timed then [.left] else []

theorem reportedIn_rotationNotes (s : Store Cursor) (route : String) (index : Nat)
    (state : StoreState Cursor) (timed : TimedCall) :
    reportedIn (s.rotationNotes route index state timed) =
      (s.keyEvents route index state timed).length := by
  unfold reportedIn rotationNotes
  rw [List.countP_append, List.countP_map]
  cases s.departs route index state timed <;> simp [RotationNote.isLeft, Function.comp_def]

theorem departuresIn_rotationNotes (s : Store Cursor) (route : String) (index : Nat)
    (state : StoreState Cursor) (timed : TimedCall) :
    departuresIn (s.rotationNotes route index state timed) =
      (s.departs route index state timed).toNat := by
  unfold departuresIn rotationNotes
  rw [List.countP_append, List.countP_map]
  cases s.departs route index state timed <;> simp [RotationNote.isLeft, Function.comp_def]

theorem reportedIn_run {s : Store Cursor} {route : String} {index : Nat}
    {state final : StoreState Cursor} {notes after : List RotationNote} {trace : List TimedCall}
    (ran : (s.machine.recording (s.rotationNotes route index)).run (state, notes) trace =
      some (final, after)) :
    ∃ extra, reportedIn after + departuresIn notes = reportedIn notes + departuresIn after + extra ∧
      (extra = 0 ↔
        s.machine.Meets (fun state timed => s.oneWayOut route index state timed = true) state trace) := by
  induction trace generalizing state notes with
  | nil =>
    cases ran
    exact ⟨0, by omega, by simp [Machine.Meets]⟩
  | cons timed rest ih =>
    obtain ⟨⟨next, more⟩, recorded, remaining⟩ := Machine.run_cons_eq_some _ |>.mp ran
    obtain ⟨stepped, rfl⟩ := (Machine.recording_step_eq_some _ _).mp recorded
    obtain ⟨extra, counted, exactly⟩ := ih remaining
    have step := s.keyEvents_eq_departs_add state timed route index
    have reported := s.reportedIn_rotationNotes route index state timed
    have departed := s.departuresIn_rotationNotes route index state timed
    simp only [reportedIn, departuresIn, List.countP_append] at *
    refine ⟨extra + (!s.oneWayOut route index state timed).toNat, by omega, ?_⟩
    simp only [Machine.Meets, stepped, ← exactly]
    cases s.oneWayOut route index state timed <;> simp

end Store

/-- A run reports as many events for a key as the key has departures iff no settlement takes
it to a cap while a retirement is in force and no new retirement finds it capped. Apart
from the calls that name the key, nothing takes it out of rotation. -/
theorem one_event_per_departure_iff (s : Store Cursor) (route : String) (index : Nat)
    (state final : StoreState Cursor) (trace : List TimedCall) (notes : List RotationNote)
    (ran : (s.machine.recording (s.rotationNotes route index)).run (state, []) trace =
      some (final, notes)) :
    (reportedIn notes = departuresIn notes ↔
      s.machine.Meets (fun state timed => s.oneWayOut route index state timed = true) state trace) ∧
    ∀ (other : StoreState Cursor) (c : Store.Call) (now later : Int), now ≤ later →
      Store.names c route index = false → s.inRotation other route index now = true →
      s.inRotation (s.call other now c).1 route index later = true := by
  obtain ⟨extra, counted, exactly⟩ := Store.reportedIn_run ran
  have fresh : reportedIn [] = 0 ∧ departuresIn [] = 0 := ⟨rfl, rfl⟩
  refine ⟨?_, fun other c now later passed unnamed => Store.inRotation_kept passed unnamed⟩
  rw [← exactly]
  omega

def tokenStore : Store Unit :=
  newStore (fun cursor _ => (0, cursor))
    { window := Duration.hour, tokens := 5, requests := 0, softRatio := .finite 1
      estimateTokens := 0 } 0 0 .machine

def tokenStoreRun (trace : List TimedCall) : Option (StoreState Unit × List RotationNote) :=
  (tokenStore.machine.recording (tokenStore.rotationNotes "chat" 0)).run
    (newStoreState (fun _ => some 1) () 0, []) trace

def cappedTrace : List TimedCall :=
  [⟨1, .reserve "chat"⟩, ⟨2, .recordSample "chat" 0 ⟨.completed, 7, false⟩⟩]

theorem one_event_per_departure_capped :
    ∃ final notes, tokenStoreRun cappedTrace = some (final, notes) ∧
      notes = [.retired .cap, .left] ∧ reportedIn notes = departuresIn notes := by
  have facts : (tokenStoreRun cappedTrace).map Prod.snd = some [.retired .cap, .left] := by
    decide +kernel
  obtain ⟨⟨final, notes⟩, ran, noted⟩ := Option.map_eq_some_iff.mp facts
  exact ⟨final, notes, ran, noted,
    (one_event_per_departure_iff tokenStore "chat" 0 _ final cappedTrace notes ran).1.mpr
      (by decide +kernel)⟩

/-- An answer that retires the key and is charged past its cap is reported twice. -/
theorem retired_and_capped_reported_twice :
    ∃ final notes,
      tokenStoreRun [⟨1, .reserve "chat"⟩, ⟨2, .retireForWindow "chat" 0 .quota⟩,
        ⟨3, .recordSample "chat" 0 ⟨.completed, 7, false⟩⟩] = some (final, notes) ∧
      reportedIn notes = 2 ∧ departuresIn notes = 1 := by
  have facts : (tokenStoreRun [⟨1, .reserve "chat"⟩, ⟨2, .retireForWindow "chat" 0 .quota⟩,
      ⟨3, .recordSample "chat" 0 ⟨.completed, 7, false⟩⟩]).map Prod.snd =
      some [.retired .quota, .left, .retired .cap] := by
    decide +kernel
  obtain ⟨⟨final, notes⟩, ran, noted⟩ := Option.map_eq_some_iff.mp facts
  refine ⟨final, notes, ran, ?_⟩
  rw [show notes = _ from noted]
  exact ⟨rfl, rfl⟩

end ClusterRouter.Channel
