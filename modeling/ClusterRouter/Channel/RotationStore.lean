import ClusterRouter.Channel.Rotation
import ClusterRouter.Foundation.Binary64
import ClusterRouter.Foundation.Time

/-! Per-key accounting over a tumbling window, with caps, retirement and reclamation of stale
leases (`internal/channel/rotation_store.go`). Every exported method runs in one critical
section and reads the clock once; here it is a function of the state and that reading. -/

set_option autoImplicit false

namespace ClusterRouter.Channel

open Foundation

/-- Whether counters are read as the 64-bit values the code computes or as the
exact numbers they stand for. -/
inductive Arithmetic where
  | machine
  | exact
  deriving DecidableEq, Repr

def Arithmetic.norm : Arithmetic → Int → Int
  | .machine, n => int64 n
  | .exact, n => n

def tokensUnknown : Int := -1

inductive SampleOutcome where
  | completed
  | failed
  deriving DecidableEq, Repr

structure UsageSample where
  outcome : SampleOutcome
  tokens : Int
  estimated : Bool
  deriving DecidableEq, Repr

/-- One route's per-key allowance for one window; a zero window or a zero cap
is no cap. -/
structure Budget where
  window : Int
  tokens : Int
  requests : Int
  softRatio : Binary64
  estimateTokens : Int
  deriving DecidableEq

def defaultSoftRatio : Binary64 := Binary64.round (4 / 5)

def defaultMaxRetryAfter : Int := Duration.hour

def minRetryAfter : Int := Duration.second

def defaultQuotaCooldown : Int := 5 * Duration.minute

def defaultLeaseTimeout : Int := 30 * Duration.minute

/-- `keyState`: the mutable record behind a `KeyState` snapshot. `leases` holds
the instants of the outstanding reservations, oldest first. -/
structure KeyRecord where
  requests : Nat := 0
  tokens : Int := 0
  leases : List Int := []
  orphaned : Nat := 0
  reclaimed : Nat := 0
  errors : Nat := 0
  estimated : Bool := false
  drained : Bool := false
  softRetired : Bool := false
  retiredUntil : Option Int := none
  retireReason : RetireReason := .unset
  deriving DecidableEq, Repr

def KeyRecord.inFlight (k : KeyRecord) : Nat := k.leases.length

structure RouteState where
  keys : List KeyRecord
  windowStart : Int
  deriving DecidableEq, Repr

def RouteState.lease (rs : RouteState) (index : Nat) (now : Int) : RouteState :=
  { rs with keys := rs.keys.modify index (fun k => { k with leases := k.leases ++ [now] }) }

/-- Why a reservation was declined: `drained` when no key is selectable,
`admission` when some key is but every one is at its hard cap once the leases in
flight are counted. -/
inductive AdmissionRefusal where
  | none
  | drained
  | admission
  deriving DecidableEq, Repr

structure Store (Cursor : Type) where
  policy : RotationPolicy Cursor
  budget : Budget
  maxRetryAfter : Int
  leaseTimeout : Int
  arithmetic : Arithmetic

/-- The part of `Store` that calls change: the routes and the cursors of the
policy and of the round-robin fallback. -/
structure StoreState (Cursor : Type) where
  routes : String → Option RouteState
  cursor : Cursor
  fallback : UInt64

variable {Cursor : Type}

def StoreState.setRoute (state : StoreState Cursor) (route : String) (rs : RouteState) :
    StoreState Cursor :=
  { state with routes := fun name => if name = route then some rs else state.routes name }

def newStore (policy : RotationPolicy Cursor) (budget : Budget)
    (maxRetryAfter leaseTimeout : Int) (arithmetic : Arithmetic) : Store Cursor where
  policy := policy
  budget :=
    let ratio := budget.softRatio
    let unset := Binary64.ge (.finite 0) ratio || Binary64.gt ratio (.finite 1)
    { budget with softRatio := if unset then defaultSoftRatio else ratio }
  maxRetryAfter := if maxRetryAfter ≤ 0 then defaultMaxRetryAfter else maxRetryAfter
  leaseTimeout := if leaseTimeout ≤ 0 then defaultLeaseTimeout else leaseTimeout
  arithmetic := arithmetic

def newStoreState (keys : String → Option Int) (cursor : Cursor) (start : Int) :
    StoreState Cursor where
  routes := fun name =>
    match keys name with
    | none => none
    | some n =>
      if n ≤ 0 then none
      else some { keys := List.replicate n.toNat {}, windowStart := start }
  cursor := cursor
  fallback := 0

def selectableAt (k : KeyRecord) (now : Int) : Bool :=
  !k.drained && !k.softRetired && !Time.deadlineAfter k.retiredUntil now

def reasonAt (k : KeyRecord) (now : Int) : RetireReason :=
  if k.drained || k.softRetired then .cap
  else if Time.deadlineAfter k.retiredUntil now then
    if k.retireReason = .unset then .quota else k.retireReason
  else .unset

/-- One reservation's slot on settlement: an orphan is consumed before a live
lease, because a settlement does not say which reservation it belongs to. -/
def releaseLocked (k : KeyRecord) : KeyRecord :=
  if 0 < k.orphaned then { k with orphaned := k.orphaned - 1 }
  else { k with leases := k.leases.drop 1 }

namespace Store

/-- Take back the leading run of leases at least `leaseTimeout` old. -/
def reclaimStaleLocked (s : Store Cursor) (k : KeyRecord) (now : Int) : KeyRecord :=
  if s.leaseTimeout ≤ 0 ∨ k.leases.length = 0 then k
  else
    let cutoff := now - s.leaseTimeout
    let n := (k.leases.takeWhile (fun lease => decide (lease ≤ cutoff))).length
    if n = 0 then k
    else
      { k with
        leases := k.leases.drop n
        orphaned := k.orphaned + n
        reclaimed := k.reclaimed + n }

/-- What a rollover at `now` does to one key. In-flight leases are carried, and
so is an explicit retirement whose deadline is still ahead. -/
def rollKey (k : KeyRecord) (now : Int) : KeyRecord :=
  let cleared : KeyRecord :=
    { k with
      requests := 0, tokens := 0, errors := 0
      estimated := false, drained := false, softRetired := false }
  if Time.deadlineAfter k.retiredUntil now then cleared
  else { cleared with retiredUntil := none, retireReason := .unset }

def rollLocked (s : Store Cursor) (rs : RouteState) (now : Int) : RouteState :=
  let w := s.budget.window
  if w ≤ 0 then rs
  else
    let elapsed := Time.sub now rs.windowStart
    if elapsed < w then rs
    else
      { keys := rs.keys.map (fun k => rollKey k now)
        windowStart := rs.windowStart + elapsed.tdiv w * w }

def advanceLocked (s : Store Cursor) (rs : RouteState) (now : Int) : RouteState :=
  s.rollLocked { rs with keys := rs.keys.map (fun k => s.reclaimStaleLocked k now) } now

/-- Whether a key may accept another reservation: selectable, and below both
hard caps once the leases in flight are counted. -/
def admissibleLocked (s : Store Cursor) (k : KeyRecord) (now : Int) : Bool :=
  if !selectableAt k now then false
  else if s.budget.window ≤ 0 then true
  else if 0 < s.budget.requests ∧ s.budget.requests ≤ (k.requests + k.inFlight : Int) then false
  else if 0 < s.budget.tokens ∧
      s.budget.tokens ≤ s.arithmetic.norm
        (k.tokens + s.arithmetic.norm (k.inFlight * s.budget.estimateTokens)) then false
  else true

def keyStateLocked (k : KeyRecord) (index : Nat) (now : Int) : KeyState where
  index := index
  requests := k.requests
  tokens := k.tokens
  inFlight := k.inFlight
  errors := k.errors
  reclaimed := k.reclaimed
  estimated := k.estimated
  selectable := selectableAt k now
  softRetired := k.softRetired
  drained := k.drained
  retiredUntil := k.retiredUntil
  reason := reasonAt k now

def candidates (s : Store Cursor) (rs : RouteState) (now : Int) : List KeyState :=
  rs.keys.zipIdx.filterMap fun entry =>
    if selectableAt entry.1 now && s.admissibleLocked entry.1 now then
      some (keyStateLocked entry.1 entry.2 now)
    else none

def inRange (position : Int) (states : List KeyState) : Bool :=
  decide (0 ≤ position ∧ position < states.length)

def selectPosition (s : Store Cursor) (state : StoreState Cursor) (states : List KeyState) :
    Nat × StoreState Cursor :=
  let (position, cursor) := s.policy state.cursor states
  let state := { state with cursor := cursor }
  if inRange position states then (position.toNat, state)
  else
    let (position, fallback) := roundRobin state.fallback states
    let state := { state with fallback := fallback }
    if inRange position states then (position.toNat, state) else (0, state)

/-- `reserve`: advance, filter, select and reserve in one critical section. A
refusal says which of the two filters emptied the candidates. -/
def reserve (s : Store Cursor) (state : StoreState Cursor) (route : String) (now : Int) :
    StoreState Cursor × Option Nat × AdmissionRefusal :=
  match state.routes route with
  | none => (state, none, .drained)
  | some rs =>
    let rs := s.advanceLocked rs now
    let advanced := state.setRoute route rs
    match s.candidates rs now with
    | [] =>
      if rs.keys.any (fun k => selectableAt k now) then (advanced, none, .admission)
      else (advanced, none, .drained)
    | first :: rest =>
      let states := first :: rest
      let (position, chosen) := s.selectPosition advanced states
      let index := (states.getD position first).index
      (chosen.setRoute route (RouteState.lease rs index now), some index, .none)

def atRatio (s : Store Cursor) (used limit : Int) (ratio : Binary64) : Bool :=
  match s.arithmetic, ratio with
  | .machine, _ =>
    decide (0 < limit) && Binary64.ge (Binary64.ofInt used) (Binary64.mul ratio (Binary64.ofInt limit))
  | .exact, .finite value => decide (0 < limit) && decide (value * limit ≤ (used : Rat))
  | .exact, _ => false

/-- Trip the caps. An event is reported only when the key was in rotation as far
as the caps are concerned. -/
def applyCapsLocked (s : Store Cursor) (k : KeyRecord) : KeyRecord × List RetireReason :=
  let b := s.budget
  if b.window ≤ 0 ∨ (b.requests ≤ 0 ∧ b.tokens ≤ 0) then (k, [])
  else
    let wasRetired := k.drained || k.softRetired
    let k :=
      if s.atRatio k.requests b.requests (.finite 1) || s.atRatio k.tokens b.tokens (.finite 1) then
        { k with drained := true, softRetired := true }
      else if s.atRatio k.requests b.requests b.softRatio || s.atRatio k.tokens b.tokens b.softRatio then
        { k with softRetired := true }
      else k
    if (k.drained || k.softRetired) && !wasRetired then (k, [.cap]) else (k, [])

def chargeLocked (s : Store Cursor) (k : KeyRecord) (sample : UsageSample) : KeyRecord :=
  let unknown := decide (sample.tokens = tokensUnknown)
  let charge := if unknown then s.budget.estimateTokens else sample.tokens
  { k with
    requests := k.requests + 1
    estimated := k.estimated || unknown
    tokens := s.arithmetic.norm (k.tokens + charge) }

/-- Apply one sample to one key: a failure releases the slot and charges nothing. -/
def settleLocked (s : Store Cursor) (k : KeyRecord) (sample : UsageSample) :
    KeyRecord × List RetireReason :=
  let k := releaseLocked k
  match sample.outcome with
  | .failed => ({ k with errors := k.errors + 1 }, [])
  | .completed => s.applyCapsLocked (s.chargeLocked k sample)

def normalise (sample : UsageSample) : UsageSample :=
  if sample.tokens < 0 then { sample with tokens := tokensUnknown, estimated := true } else sample

/-- Advance a route and apply an effect to one of its keys; an unknown route or
an index out of range is a no-op. -/
def onKey (s : Store Cursor) (state : StoreState Cursor) (route : String) (index : Int) (now : Int)
    (effect : RouteState → KeyRecord → KeyRecord × List RetireReason) :
    StoreState Cursor × List RetireReason :=
  match state.routes route with
  | none => (state, [])
  | some rs =>
    if index < 0 ∨ (rs.keys.length : Int) ≤ index then (state, [])
    else
      let rs := s.advanceLocked rs now
      match rs.keys[index.toNat]? with
      | none => (state.setRoute route rs, [])
      | some k =>
        let (k, events) := effect rs k
        (state.setRoute route { rs with keys := rs.keys.set index.toNat k }, events)

def recordSample (s : Store Cursor) (state : StoreState Cursor) (route : String) (index : Int)
    (sample : UsageSample) (now : Int) : StoreState Cursor × List RetireReason :=
  s.onKey state route index now (fun _ k => s.settleLocked k (normalise sample))

def recordUsage (s : Store Cursor) (state : StoreState Cursor) (route : String) (index : Int)
    (tokens : Int) (now : Int) : StoreState Cursor × List RetireReason :=
  s.recordSample state route index ⟨.completed, tokens, false⟩ now

/-- One retirement of one key. Only a key that was not already parked by a
retirement reports an event. -/
def retireLocked (k : KeyRecord) (now deadline : Int) (reason : RetireReason) :
    KeyRecord × List RetireReason :=
  if deadline ≤ now then (k, [])
  else
    let alreadyOut := Time.deadlineAfter k.retiredUntil now
    let k := if Time.afterDeadline deadline k.retiredUntil then { k with retiredUntil := some deadline, retireReason := reason } else k
    if alreadyOut then (k, []) else (k, [reason])

def defaultReason (reason : RetireReason) : RetireReason :=
  if reason = .unset then .quota else reason

def retireWithReason (s : Store Cursor) (state : StoreState Cursor) (route : String) (index : Int)
    (deadline : Int) (reason : RetireReason) (now : Int) : StoreState Cursor × List RetireReason :=
  s.onKey state route index now (fun _ k => retireLocked k now deadline (defaultReason reason))

def retire (s : Store Cursor) (state : StoreState Cursor) (route : String) (index : Int)
    (deadline : Int) (now : Int) : StoreState Cursor × List RetireReason :=
  s.retireWithReason state route index deadline .quota now

/-- When a retirement for the window ends: with the accounting window, or after
the default cooldown on a route that has none. -/
def windowDeadline (s : Store Cursor) (rs : RouteState) (now : Int) : Int :=
  if 0 < s.budget.window then rs.windowStart + s.budget.window else now + defaultQuotaCooldown

def retireForWindow (s : Store Cursor) (state : StoreState Cursor) (route : String) (index : Int)
    (reason : RetireReason) (now : Int) : StoreState Cursor × List RetireReason :=
  s.onKey state route index now (fun rs k =>
    retireLocked k now (s.windowDeadline rs now) (defaultReason reason))

/-- How long one unselectable key stays that way; a key both capped and retired
must clear both. -/
def waitForLocked (s : Store Cursor) (rs : RouteState) (k : KeyRecord) (now : Int) : Int :=
  let w := match k.retiredUntil with
    | some deadline => if now < deadline then Time.sub deadline now else 0
    | none => 0
  if k.drained || k.softRetired then
    if 0 < s.budget.window then max w (Time.sub (rs.windowStart + s.budget.window) now)
    else if w = 0 then s.maxRetryAfter
    else w
  else w

/-- The scan of `RetryAfter`: `none` as soon as a selectable key is met, else the
shortest wait, negative when there was no key. -/
def shortestWait (s : Store Cursor) (rs : RouteState) (now : Int) : List KeyRecord → Int → Option Int
  | [], best => some best
  | k :: rest, best =>
    if selectableAt k now then none
    else
      let w := s.waitForLocked rs k now
      shortestWait s rs now rest (if best < 0 ∨ w < best then w else best)

def retryAfter (s : Store Cursor) (state : StoreState Cursor) (route : String) (now : Int) :
    StoreState Cursor × Option Int :=
  match state.routes route with
  | none => (state, none)
  | some rs =>
    if rs.keys.length = 0 then (state, none)
    else
      let rs := s.advanceLocked rs now
      let wait := match s.shortestWait rs now rs.keys (-1) with
        | none => none
        | some best =>
          if best < 0 then none else some (max minRetryAfter (min best s.maxRetryAfter))
      (state.setRoute route rs, wait)

def snapshot (s : Store Cursor) (state : StoreState Cursor) (route : String) (now : Int) :
    StoreState Cursor × List KeyState :=
  match state.routes route with
  | none => (state, [])
  | some rs =>
    let rs := s.advanceLocked rs now
    (state.setRoute route rs, rs.keys.zipIdx.map (fun entry => keyStateLocked entry.1 entry.2 now))

inductive Call where
  | reserve (route : String)
  | recordSample (route : String) (index : Int) (sample : UsageSample)
  | retireWithReason (route : String) (index : Int) (deadline : Int) (reason : RetireReason)
  | retireForWindow (route : String) (index : Int) (reason : RetireReason)
  | retryAfter (route : String)
  | snapshot (route : String)
  deriving DecidableEq, Repr

/-- What a call returns to its caller, together with the retirements it reports
to the observer once the lock is released. -/
inductive Response where
  | reserved (index : Option Nat) (refusal : AdmissionRefusal)
  | events (reasons : List RetireReason)
  | wait (after : Option Int)
  | keys (states : List KeyState)
  deriving DecidableEq, Repr

def call (s : Store Cursor) (state : StoreState Cursor) (now : Int) :
    Call → StoreState Cursor × Response
  | .reserve route =>
    let (state, index, refusal) := s.reserve state route now
    (state, .reserved index refusal)
  | .recordSample route index sample =>
    let (state, reasons) := s.recordSample state route index sample now
    (state, .events reasons)
  | .retireWithReason route index deadline reason =>
    let (state, reasons) := s.retireWithReason state route index deadline reason now
    (state, .events reasons)
  | .retireForWindow route index reason =>
    let (state, reasons) := s.retireForWindow state route index reason now
    (state, .events reasons)
  | .retryAfter route =>
    let (state, after) := s.retryAfter state route now
    (state, .wait after)
  | .snapshot route =>
    let (state, states) := s.snapshot state route now
    (state, .keys states)

end Store

end ClusterRouter.Channel
