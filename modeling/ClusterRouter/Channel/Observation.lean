import ClusterRouter.Channel.EarlyAdvance
import ClusterRouter.Foundation.Watching

/-! `Snapshot` and `RetryAfter` advance a route before they read it. Two runs of a store are
compared, one with such calls put in anywhere: a call finds the same keys, but for deadlines
that have passed. -/

set_option autoImplicit false

namespace ClusterRouter.Channel

open Foundation

variable {Cursor : Type}

/-! ## What an answer may show -/

def KeyState.undated (k : KeyState) : KeyState := { k with retiredUntil := none }

/-- One deadline is the other, cleared once it had passed. -/
def ClearedAt (now : Int) (cleared kept : Option Int) : Prop :=
  cleared = none ∧ ∃ deadline, kept = some deadline ∧ deadline ≤ now

/-- Two snapshots of a key agree in every field, but a deadline already in the past
may have been cleared from either. -/
def KeyState.Agrees (now : Int) (k l : KeyState) : Prop :=
  k.undated = l.undated ∧
    (k.retiredUntil = l.retiredUntil ∨ ClearedAt now k.retiredUntil l.retiredUntil ∨
      ClearedAt now l.retiredUntil k.retiredUntil)

def Store.Response.Agrees (now : Int) : Store.Response → Store.Response → Prop
  | .keys states, .keys others => List.Forall₂ (KeyState.Agrees now) states others
  | answer, other => answer = other

def Store.Call.Observes : Store.Call → Prop
  | .retryAfter _ | .snapshot _ => True
  | .reserve _ | .recordSample _ _ _ | .retireWithReason _ _ _ _ | .retireForWindow _ _ _ => False

/-- The contract of `RotationPolicy`: only selectable keys are offered, so a policy
never has to know about retirements. -/
def DeadlineBlind (policy : RotationPolicy Cursor) : Prop :=
  ∀ cursor states, policy cursor (states.map KeyState.undated) = policy cursor states

private theorem pickMinScan_undated {score : KeyState → Int}
    (blind : ∀ k : KeyState, score k.undated = score k) (states : List KeyState) (position : Nat)
    (best : Int) (tied : List Nat) :
    pickMinScan score (states.map KeyState.undated) position best tied =
      pickMinScan score states position best tied := by
  induction states generalizing position best tied with
  | nil => rfl
  | cons k rest ih => simp only [List.map_cons, pickMinScan, blind, ih]

private theorem pickMin_undated {score : KeyState → Int}
    (blind : ∀ k : KeyState, score k.undated = score k) (cursor : UInt64) (states : List KeyState) :
    pickMin cursor (states.map KeyState.undated) score = pickMin cursor states score := by
  cases states with
  | nil => rfl
  | cons first rest => simp only [List.map_cons, pickMin, blind, pickMinScan_undated blind]

theorem roundRobin_deadlineBlind : DeadlineBlind roundRobin := by
  intro cursor states
  simp only [roundRobin, List.length_map]

theorem newPolicy_deadlineBlind (name : PolicyName) : DeadlineBlind (newPolicy name) := by
  cases name with
  | roundRobin => exact roundRobin_deadlineBlind
  | leastUsed =>
    intro cursor states
    exact pickMin_undated (fun _ => rfl) cursor states
  | leastTokens =>
    intro cursor states
    have estimated : (states.map KeyState.undated).any (·.estimated) = states.any (·.estimated) := by
      rw [List.any_map]
      rfl
    simp only [newPolicy, leastTokens, estimated]
    split
    · exact pickMin_undated (fun _ => rfl) cursor states
    · exact pickMin_undated (fun _ => rfl) cursor states

/-! ## Twin keys -/

/-- Two records of one key that no call at `now` can tell apart: they differ at
most in a lapsed retirement, which one of them no longer holds. -/
structure KeyRecord.Twin (now : Int) (k l : KeyRecord) : Prop where
  live : k.liveAt now = l.liveAt now
  deadline : k.retiredUntil = none ∨ l.retiredUntil = none ∨ k.retiredUntil = l.retiredUntil

namespace KeyRecord.Twin

variable {now later : Int} {k l : KeyRecord}

theorem refl (now : Int) (k : KeyRecord) : Twin now k k := ⟨rfl, .inr (.inr rfl)⟩

theorem symm (twin : Twin now k l) : Twin now l k where
  live := twin.live.symm
  deadline := by
    obtain unset | unset | same := twin.deadline
    · exact .inr (.inl unset)
    · exact .inl unset
    · exact .inr (.inr same.symm)

theorem cases (twin : Twin now k l) : k = l ∨ (k.retiredAt now = false ∧ l.retiredAt now = false) := by
  have same : k.retiredAt now = l.retiredAt now := by
    rw [← retiredAt_liveAt, twin.live, retiredAt_liveAt]
  cases inForce : k.retiredAt now with
  | false => exact .inr ⟨rfl, same.symm.trans inForce⟩
  | true =>
    left
    have live := twin.live
    rwa [liveAt_of_retired inForce, liveAt_of_retired (same.symm.trans inForce)] at live

theorem passed (twin : Twin now k l) (ordered : now ≤ later) : Twin later k l where
  live := by rw [← liveAt_liveAt ordered, twin.live, liveAt_liveAt ordered]
  deadline := twin.deadline

theorem change {change : KeyRecord → KeyRecord} (keeps : KeepsRetirement change)
    (twin : Twin now k l) : Twin now (change k) (change l) where
  live := by rw [← keeps.liveAt, twin.live, keeps.liveAt]
  deadline := by
    rw [keeps.retiredUntil, keeps.retiredUntil]
    exact twin.deadline

theorem liveAt_left (twin : Twin now k l) : Twin now (k.liveAt now) l where
  live := (liveAt_liveAt (Int.le_refl now)).trans twin.live
  deadline := by
    cases inForce : k.retiredAt now with
    | true =>
      rw [liveAt_of_retired inForce]
      exact twin.deadline
    | false =>
      rw [liveAt_of_lapsed inForce]
      exact .inl rfl

theorem liveAt_right (twin : Twin now k l) : Twin now k (l.liveAt now) := twin.symm.liveAt_left.symm

theorem advanceKey {s : Store Cursor} (rolled : Bool) (twin : Twin now k l) (ordered : now ≤ later) :
    Twin later (s.advanceKey rolled later k) (s.advanceKey rolled later l) := by
  have reclaimed := (twin.passed ordered).change (s.reclaim_keepsRetirement later)
  unfold Store.advanceKey
  cases rolled with
  | false => exact reclaimed
  | true =>
    simp only [if_true, Store.rollKey_eq]
    exact reclaimed.liveAt_left.liveAt_right.change uncounted_keepsRetirement

end KeyRecord.Twin

namespace Store

section Key

variable {s : Store Cursor} {now : Int} {k l : KeyRecord}

theorem selectableAt_liveAt : selectableAt (k.liveAt now) now = selectableAt k now := by
  apply KeyRecord.liveAt_congr (fun k => selectableAt k now)
  intro lapsed
  rw [selectableAt_eq, selectableAt_eq, lapsed]
  rfl

theorem reasonAt_liveAt : reasonAt (k.liveAt now) now = reasonAt k now := by
  apply KeyRecord.liveAt_congr (fun k => reasonAt k now)
  intro lapsed
  have passed : Time.deadlineAfter k.retiredUntil now = false := lapsed
  simp only [reasonAt, passed]
  rfl

theorem admissibleLocked_liveAt :
    s.admissibleLocked (k.liveAt now) now = s.admissibleLocked k now := by
  have selectable : selectableAt (k.liveAt now) now = selectableAt k now := selectableAt_liveAt
  apply KeyRecord.liveAt_congr (fun k => s.admissibleLocked k now)
  intro lapsed
  rw [KeyRecord.liveAt_of_lapsed lapsed] at selectable
  unfold admissibleLocked
  rw [selectable]
  rfl

theorem waitForLocked_liveAt {rs : RouteState} :
    s.waitForLocked rs (k.liveAt now) now = s.waitForLocked rs k now := by
  apply KeyRecord.liveAt_congr (fun k => s.waitForLocked rs k now)
  intro lapsed
  unfold waitForLocked
  cases recorded : k.retiredUntil with
  | none => rfl
  | some deadline =>
    have passed := KeyRecord.le_of_lapsed lapsed recorded
    simp only [if_neg (Int.not_lt.mpr passed)]
    rfl

theorem keyStateLocked_liveAt (index : Nat) :
    (keyStateLocked (k.liveAt now) index now).undated = (keyStateLocked k index now).undated := by
  have selectable : selectableAt (k.liveAt now) now = selectableAt k now := selectableAt_liveAt
  have reason : reasonAt (k.liveAt now) now = reasonAt k now := reasonAt_liveAt
  apply KeyRecord.liveAt_congr (fun k => (keyStateLocked k index now).undated)
  intro lapsed
  rw [KeyRecord.liveAt_of_lapsed lapsed] at selectable reason
  unfold keyStateLocked
  rw [selectable, reason]
  rfl

theorem keyStateLocked_agrees (twin : KeyRecord.Twin now k l) (index : Nat) :
    KeyState.Agrees now (keyStateLocked k index now) (keyStateLocked l index now) := by
  have undated : (keyStateLocked k index now).undated = (keyStateLocked l index now).undated := by
    rw [← keyStateLocked_liveAt, twin.live, keyStateLocked_liveAt]
  refine ⟨undated, ?_⟩
  obtain rfl | ⟨left, right⟩ := twin.cases
  · exact .inl rfl
  · have cleared {k l : KeyRecord} (unset : k.retiredUntil = none) (lapsed : l.retiredAt now = false) :
        k.retiredUntil = l.retiredUntil ∨ ClearedAt now k.retiredUntil l.retiredUntil := by
      cases recorded : l.retiredUntil with
      | none => exact .inl unset
      | some deadline =>
        exact .inr ⟨unset, deadline, rfl, KeyRecord.le_of_lapsed lapsed recorded⟩
    obtain unset | unset | same := twin.deadline
    · exact (cleared unset right).imp_right .inl
    · exact (cleared unset left).imp Eq.symm .inr
    · exact .inl same

theorem applyCapsLocked_withRetirement (deadline : Option Int) (reason : RetireReason) :
    s.applyCapsLocked (k.withRetirement deadline reason) =
      ((s.applyCapsLocked k).1.withRetirement deadline reason, (s.applyCapsLocked k).2) := by
  unfold applyCapsLocked KeyRecord.withRetirement
  dsimp only
  split
  · rfl
  · generalize (s.atRatio k.requests s.budget.requests (.finite 1) ||
      s.atRatio k.tokens s.budget.tokens (.finite 1)) = hard
    generalize (s.atRatio k.requests s.budget.requests s.budget.softRatio ||
      s.atRatio k.tokens s.budget.tokens s.budget.softRatio) = soft
    cases hard <;> cases soft <;> cases drained : k.drained <;> cases retired : k.softRetired <;>
      simp [drained, retired]

theorem settleLocked_withRetirement (sample : UsageSample) (deadline : Option Int)
    (reason : RetireReason) :
    s.settleLocked (k.withRetirement deadline reason) sample =
      ((s.settleLocked k sample).1.withRetirement deadline reason, (s.settleLocked k sample).2) := by
  have released : releaseLocked (k.withRetirement deadline reason) =
      (releaseLocked k).withRetirement deadline reason := by
    unfold releaseLocked
    by_cases orphans : 0 < k.orphaned
    · rw [if_pos orphans]
      exact if_pos orphans
    · rw [if_neg orphans]
      exact if_neg orphans
  unfold settleLocked
  rw [released]
  cases sample.outcome with
  | failed => rfl
  | completed =>
    have charged : s.chargeLocked ((releaseLocked k).withRetirement deadline reason) sample =
        (s.chargeLocked (releaseLocked k) sample).withRetirement deadline reason := rfl
    dsimp only
    rw [charged, applyCapsLocked_withRetirement]

theorem settleLocked_twin (twin : KeyRecord.Twin now k l) (sample : UsageSample) :
    KeyRecord.Twin now (s.settleLocked k sample).1 (s.settleLocked l sample).1 ∧
      (s.settleLocked k sample).2 = (s.settleLocked l sample).2 := by
  have keeps : KeyRecord.KeepsRetirement (fun k => (s.settleLocked k sample).1) := by
    intro k deadline reason
    simp only [settleLocked_withRetirement]
  have events (k : KeyRecord) :
      (s.settleLocked (k.liveAt now) sample).2 = (s.settleLocked k sample).2 := by
    apply KeyRecord.liveAt_congr (fun k => (s.settleLocked k sample).2)
    intro _
    simp only [settleLocked_withRetirement]
  exact ⟨twin.change keeps, by rw [← events, twin.live, events]⟩

theorem retireLocked_twin (twin : KeyRecord.Twin now k l) (deadline : Int) (reason : RetireReason) :
    KeyRecord.Twin now (retireLocked k now deadline reason).1 (retireLocked l now deadline reason).1 ∧
      (retireLocked k now deadline reason).2 = (retireLocked l now deadline reason).2 := by
  obtain rfl | ⟨left, right⟩ := twin.cases
  · exact ⟨.refl now _, rfl⟩
  · by_cases due : deadline ≤ now
    · simp only [retireLocked, if_pos due]
      exact ⟨twin, trivial⟩
    · -- A lapsed deadline gives way to the new one, still recorded or not.
      have retired {k : KeyRecord} (lapsed : k.retiredAt now = false) :
          retireLocked k now deadline reason =
            (k.withRetirement (some deadline) reason, [reason]) := by
        have passed : Time.deadlineAfter k.retiredUntil now = false := lapsed
        have after : Time.afterDeadline deadline k.retiredUntil = true := by
          cases recorded : k.retiredUntil with
          | none => rfl
          | some old =>
            have lapsed := KeyRecord.le_of_lapsed lapsed recorded
            simp only [Time.afterDeadline, decide_eq_true_eq]
            omega
        simp only [retireLocked, if_neg due, passed, after, if_true]
        rfl
      have bare : k.withRetirement none .unset = l.withRetirement none .unset := by
        rw [← KeyRecord.liveAt_of_lapsed left, ← KeyRecord.liveAt_of_lapsed right, twin.live]
      have same : k.withRetirement (some deadline) reason =
          l.withRetirement (some deadline) reason := by
        have again := congrArg (fun k : KeyRecord => k.withRetirement (some deadline) reason) bare
        exact again
      rw [retired left, retired right, same]
      exact ⟨.refl now _, rfl⟩

end Key

end Store

/-! ## Twin routes -/

private theorem forall₂_modify {α : Type} {related : α → α → Prop} {change change' : α → α}
    (step : ∀ {x y}, related x y → related (change x) (change' y)) {xs ys : List α}
    (each : List.Forall₂ related xs ys) (index : Nat) :
    List.Forall₂ related (xs.modify index change) (ys.modify index change') := by
  induction each generalizing index with
  | nil => simp
  | cons head tail ih =>
    cases index with
    | zero => exact .cons (step head) tail
    | succ index => exact .cons head (ih index)

private theorem forall₂_zipIdx {α : Type} {related : α → α → Prop} {xs ys : List α}
    (each : List.Forall₂ related xs ys) (offset : Nat) :
    List.Forall₂ (fun x y => related x.1 y.1 ∧ x.2 = y.2) (xs.zipIdx offset) (ys.zipIdx offset) := by
  induction each generalizing offset with
  | nil => exact .nil
  | cons head tail ih => exact .cons ⟨head, rfl⟩ (ih (offset + 1))

structure RouteState.Twins (now : Int) (a b : RouteState) : Prop where
  windowStart : a.windowStart = b.windowStart
  keys : List.Forall₂ (KeyRecord.Twin now) a.keys b.keys

namespace RouteState.Twins

variable {s : Store Cursor} {now later : Int} {a b : RouteState}

theorem refl (now : Int) (rs : RouteState) : Twins now rs rs :=
  ⟨rfl, List.forall₂_same.mpr (fun k _ => .refl now k)⟩

section

variable (twins : Twins now a b)

include twins

theorem symm : Twins now b a :=
  ⟨twins.windowStart.symm, (twins.keys.imp (fun _ _ twin => twin.symm)).flip⟩

theorem liveAt_left : Twins now (a.liveAt now) b where
  windowStart := twins.windowStart
  keys := List.forall₂_map_left_iff.mpr (twins.keys.imp (fun _ _ twin => twin.liveAt_left))

theorem liveAt_right : Twins now a (b.liveAt now) :=
  twins.symm.liveAt_left.symm

theorem live : a.liveAt now = b.liveAt now := by
  have keys : a.keys.map (fun k => k.liveAt now) = b.keys.map (fun k => k.liveAt now) := by
    rw [← List.forall₂_eq_eq_eq, List.forall₂_map_left_iff, List.forall₂_map_right_iff]
    exact twins.keys.imp (fun _ _ twin => twin.live)
  unfold liveAt
  rw [keys, twins.windowStart]

theorem advanceLocked (ordered : now ≤ later) :
    Twins later (s.advanceLocked a later) (s.advanceLocked b later) := by
  have due : s.expired a later = s.expired b later := by
    rw [Store.expired, twins.windowStart, Store.expired]
  have start : s.advanceStart a later = s.advanceStart b later := by
    rw [Store.advanceStart, due, twins.windowStart, Store.advanceStart]
  rw [Store.advanceLocked_eq, Store.advanceLocked_eq, due, start]
  refine ⟨rfl, ?_⟩
  rw [List.forall₂_map_left_iff, List.forall₂_map_right_iff]
  exact twins.keys.imp (fun _ _ twin => twin.advanceKey _ ordered)

theorem lease (index : Nat) (instant : Int) :
    Twins now (RouteState.lease a index instant) (RouteState.lease b index instant) := by
  have keeps : KeyRecord.KeepsRetirement (fun k => { k with leases := k.leases ++ [instant] }) :=
    fun _ _ _ => rfl
  exact ⟨twins.windowStart, forall₂_modify (fun twin => twin.change keeps) twins.keys index⟩

theorem set (index : Nat) {k l : KeyRecord} (twin : KeyRecord.Twin now k l) :
    Twins now { a with keys := a.keys.set index k } { b with keys := b.keys.set index l } := by
  refine ⟨twins.windowStart, ?_⟩
  simp only [List.set_eq_modify]
  exact forall₂_modify (fun _ => twin) twins.keys index

theorem getElem? (index : Nat) :
    (a.keys[index]? = none ∧ b.keys[index]? = none) ∨
      ∃ k l, a.keys[index]? = some k ∧ b.keys[index]? = some l ∧ KeyRecord.Twin now k l := by
  have length := twins.keys.length_eq
  by_cases inside : index < a.keys.length
  · have inside' : index < b.keys.length := length ▸ inside
    exact .inr ⟨_, _, List.getElem?_eq_getElem inside, List.getElem?_eq_getElem inside',
      twins.keys.get inside inside'⟩
  · rw [List.getElem?_eq_none (by omega), List.getElem?_eq_none (by omega)]
    exact .inl ⟨rfl, rfl⟩

theorem candidates :
    (s.candidates a now).map KeyState.undated = (s.candidates b now).map KeyState.undated := by
  have offered (rs : RouteState) : (s.candidates (rs.liveAt now) now).map KeyState.undated =
      (s.candidates rs now).map KeyState.undated := by
    simp only [Store.candidates, RouteState.liveAt, List.zipIdx_map, List.filterMap_map,
      List.map_filterMap]
    apply List.filterMap_congr
    intro entry _
    simp only [Function.comp_apply, Prod.map_fst, Prod.map_snd, id_eq, Store.selectableAt_liveAt,
      Store.admissibleLocked_liveAt]
    split
    · simp only [Option.map_some, Store.keyStateLocked_liveAt]
    · rfl
  rw [← offered, twins.live, offered]

theorem anySelectable :
    a.keys.any (fun k => selectableAt k now) = b.keys.any (fun k => selectableAt k now) := by
  have found (rs : RouteState) : (rs.liveAt now).keys.any (fun k => selectableAt k now) =
      rs.keys.any (fun k => selectableAt k now) := by
    simp only [RouteState.liveAt, List.any_map, Function.comp_def, Store.selectableAt_liveAt]
  rw [← found, twins.live, found]

theorem shortestWait : s.shortestWait a now a.keys (-1) = s.shortestWait b now b.keys (-1) := by
  have scan (rs : RouteState) (keys : List KeyRecord) (best : Int) :
      s.shortestWait (rs.liveAt now) now (keys.map (fun k => k.liveAt now)) best =
        s.shortestWait rs now keys best := by
    induction keys generalizing best with
    | nil => rfl
    | cons k rest ih =>
      have wait : s.waitForLocked (rs.liveAt now) (k.liveAt now) now = s.waitForLocked rs k now :=
        Store.waitForLocked_liveAt
      simp only [List.map_cons, Store.shortestWait, Store.selectableAt_liveAt, wait, ih]
  have waits (rs : RouteState) : s.shortestWait (rs.liveAt now) now (rs.liveAt now).keys (-1) =
      s.shortestWait rs now rs.keys (-1) := scan rs rs.keys (-1)
  rw [← waits, twins.live, waits]

theorem snapshot :
    List.Forall₂ (KeyState.Agrees now)
      (a.keys.zipIdx.map (fun entry => Store.keyStateLocked entry.1 entry.2 now))
      (b.keys.zipIdx.map (fun entry => Store.keyStateLocked entry.1 entry.2 now)) := by
  rw [List.forall₂_map_left_iff, List.forall₂_map_right_iff]
  apply (forall₂_zipIdx twins.keys 0).imp
  rintro ⟨k, index⟩ ⟨l, _⟩ ⟨twin, rfl⟩
  exact Store.keyStateLocked_agrees twin index

end

end RouteState.Twins

/-! ## Alike stores -/

structure RouteState.Alike (s : Store Cursor) (start now : Int) (a b : RouteState) : Prop where
  twins : Twins now (s.advanceLocked a now) (s.advanceLocked b now)
  left : start ≤ a.windowStart ∧ a.windowStart ≤ now
  right : start ≤ b.windowStart ∧ b.windowStart ≤ now

namespace RouteState

variable {s : Store Cursor} {start now later : Int} {a b : RouteState}

theorem Twins.alike (twins : Twins now a b) (begun : start ≤ a.windowStart ∧ a.windowStart ≤ now) :
    Alike s start now a b where
  twins := twins.advanceLocked (Int.le_refl now)
  left := begun
  right := twins.windowStart ▸ begun

namespace Alike

theorem passed (alike : Alike s start now a b) (ordered : now ≤ later)
    (representable : later - start ≤ Duration.maximum) : Alike s start later a b where
  twins := by
    -- Advancing at `later` alone may drop what had lapsed; that is the only difference.
    have both := alike.twins.advanceLocked (s := s) ordered
    have begun := alike.left
    have begun' := alike.right
    have one : Twins later (s.advanceLocked a later)
        (s.advanceLocked (s.advanceLocked b now) later) := by
      obtain same | shed := Store.advanceLocked_later (s := s) begun.2 ordered (by omega)
      · rw [same]
        exact both
      · rw [shed]
        exact both.liveAt_left
    obtain same | shed := Store.advanceLocked_later (s := s) begun'.2 ordered (by omega)
    · rw [same]
      exact one
    · rw [shed]
      exact one.liveAt_right
  left := ⟨alike.left.1, Int.le_trans alike.left.2 ordered⟩
  right := ⟨alike.right.1, Int.le_trans alike.right.2 ordered⟩

theorem advanced_begun (begun : start ≤ a.windowStart ∧ a.windowStart ≤ now) :
    start ≤ (s.advanceLocked a now).windowStart ∧ (s.advanceLocked a now).windowStart ≤ now := by
  rw [Store.advanceLocked_windowStart]
  exact ⟨Int.le_trans begun.1 (Store.le_advanceStart begun.2), Store.advanceStart_le begun.2⟩

theorem observed (alike : Alike s start now a b) (representable : now - start ≤ Duration.maximum) :
    Alike s start now a (s.advanceLocked b now) where
  twins := by
    have begun := alike.right
    rw [Store.advanceLocked_advanceLocked begun.2 (by omega)]
    exact alike.twins
  left := alike.left
  right := advanced_begun alike.right

theorem length_eq (alike : Alike s start now a b) : a.keys.length = b.keys.length := by
  have same := alike.twins.keys.length_eq
  simpa only [Store.advanceLocked_keys, List.length_map] using same

theorem touched (alike : Alike s start now a b) {a' b' : RouteState} (twins : Twins now a' b')
    (kept : a'.windowStart = (s.advanceLocked a now).windowStart) : Alike s start now a' b' :=
  twins.alike (kept ▸ advanced_begun alike.left)

end Alike

end RouteState

structure StoreState.Alike (s : Store Cursor) (start now : Int) (x y : StoreState Cursor) : Prop where
  routes : ∀ route, Option.Rel (RouteState.Alike s start now) (x.routes route) (y.routes route)
  cursor : x.cursor = y.cursor
  fallback : x.fallback = y.fallback
  representable : now - start ≤ Duration.maximum

namespace StoreState.Alike

variable {s : Store Cursor} {start now later : Int} {x y : StoreState Cursor}

theorem known (alike : Alike s start now x y) (route : String) :
    (x.routes route = none ∧ y.routes route = none) ∨
      ∃ a b, x.routes route = some a ∧ y.routes route = some b ∧ RouteState.Alike s start now a b := by
  have related := alike.routes route
  generalize x.routes route = left, y.routes route = right at related
  cases related with
  | none => exact .inl ⟨rfl, rfl⟩
  | some same => exact .inr ⟨_, _, rfl, rfl, same⟩

theorem passed (alike : Alike s start now x y) (ordered : now ≤ later)
    (representable : later - start ≤ Duration.maximum) : Alike s start later x y where
  routes := by
    intro route
    obtain ⟨left, right⟩ | ⟨a, b, left, right, same⟩ := alike.known route
    · rw [left, right]
      exact .none
    · rw [left, right]
      exact .some (same.passed ordered representable)
  cursor := alike.cursor
  fallback := alike.fallback
  representable := representable

theorem setRoute (alike : Alike s start now x y) (route : String) {a b : RouteState}
    (same : RouteState.Alike s start now a b) : Alike s start now (x.setRoute route a) (y.setRoute route b) where
  routes := by
    intro name
    simp only [setRoute_routes]
    split
    · exact .some same
    · exact alike.routes name
  cursor := alike.cursor
  fallback := alike.fallback
  representable := alike.representable

theorem advanced (alike : Alike s start now x y) {route : String} {a b : RouteState}
    (left : x.routes route = some a) (same : RouteState.Alike s start now a b) :
    Alike s start now x (y.setRoute route (s.advanceLocked b now)) where
  routes := by
    intro name
    simp only [setRoute_routes]
    split
    next named =>
      rw [named, left]
      exact .some (same.observed alike.representable)
    next => exact alike.routes name
  cursor := alike.cursor
  fallback := alike.fallback
  representable := alike.representable

end StoreState.Alike

/-! ## Calls on alike stores -/

namespace Store

variable {s : Store Cursor} {start now : Int} {x y : StoreState Cursor}

theorem selectPosition_blind (blind : DeadlineBlind s.policy) (cursor : x.cursor = y.cursor)
    (fallback : x.fallback = y.fallback) {states others : List KeyState}
    (same : states.map KeyState.undated = others.map KeyState.undated) :
    (s.selectPosition x states).1 = (s.selectPosition y others).1 ∧
      (s.selectPosition x states).2.cursor = (s.selectPosition y others).2.cursor ∧
      (s.selectPosition x states).2.fallback = (s.selectPosition y others).2.fallback := by
  have chosen : s.policy x.cursor states = s.policy y.cursor others := by
    rw [← blind, same, blind, cursor]
  have fell : roundRobin x.fallback states = roundRobin y.fallback others := by
    rw [← roundRobin_deadlineBlind, same, roundRobin_deadlineBlind, fallback]
  have length : states.length = others.length := by
    simpa only [List.length_map] using congrArg List.length same
  have range (position : Int) : inRange position states = inRange position others := by
    rw [inRange, length, inRange]
  simp only [selectPosition, chosen, fell, range]
  split
  · exact ⟨rfl, rfl, fallback⟩
  · split
    · exact ⟨rfl, rfl, rfl⟩
    · exact ⟨rfl, rfl, rfl⟩

section

variable (alike : StoreState.Alike s start now x y)

include alike

theorem reserve_alike (blind : DeadlineBlind s.policy) (route : String) :
    StoreState.Alike s start now (s.reserve x route now).1 (s.reserve y route now).1 ∧
      (s.reserve x route now).2 = (s.reserve y route now).2 := by
  unfold reserve
  obtain ⟨left, right⟩ | ⟨a, b, left, right, same⟩ := alike.known route
  · simp only [left, right]
    exact ⟨alike, trivial⟩
  · simp only [left, right]
    have offered := same.twins.candidates (s := s)
    have advanced := alike.setRoute route (same.touched same.twins rfl)
    cases states : s.candidates (s.advanceLocked a now) now with
    | nil =>
      rw [states, List.map_nil, eq_comm, List.map_eq_nil_iff] at offered
      simp only [offered, same.twins.anySelectable]
      split
      · exact ⟨advanced, rfl⟩
      · exact ⟨advanced, rfl⟩
    | cons first rest =>
      cases others : s.candidates (s.advanceLocked b now) now with
      | nil => simp [states, others] at offered
      | cons first' rest' =>
        rw [states, others] at offered
        obtain ⟨position, cursor, fallback⟩ :=
          s.selectPosition_blind blind advanced.cursor advanced.fallback offered
        have head := (List.cons.inj offered).1
        have index (position : Nat) : ((first :: rest).getD position first).index =
            ((first' :: rest').getD position first').index := by
          have picked : ((first :: rest).getD position first).undated =
              ((first' :: rest').getD position first').undated := by
            rw [← List.getD_map _ _ KeyState.undated, offered, head, List.getD_map]
          have same := congrArg KeyState.index picked
          exact same
        simp only
        rw [position, index]
        have chosen : StoreState.Alike s start now
            (s.selectPosition (x.setRoute route (s.advanceLocked a now)) (first :: rest)).2
            (s.selectPosition (y.setRoute route (s.advanceLocked b now)) (first' :: rest')).2 :=
          ⟨by simpa only [selectPosition_routes] using advanced.routes, cursor, fallback,
            alike.representable⟩
        exact ⟨chosen.setRoute route (same.touched (same.twins.lease _ now) rfl), rfl⟩

theorem onKey_alike {effect : RouteState → KeyRecord → KeyRecord × List RetireReason}
    (matched : ∀ {a b : RouteState} {k l : KeyRecord}, a.windowStart = b.windowStart →
      KeyRecord.Twin now k l → KeyRecord.Twin now (effect a k).1 (effect b l).1 ∧
        (effect a k).2 = (effect b l).2)
    (route : String) (index : Int) :
    StoreState.Alike s start now (s.onKey x route index now effect).1
        (s.onKey y route index now effect).1 ∧
      (s.onKey x route index now effect).2 = (s.onKey y route index now effect).2 := by
  unfold onKey
  obtain ⟨left, right⟩ | ⟨a, b, left, right, same⟩ := alike.known route
  · simp only [left, right]
    exact ⟨alike, trivial⟩
  · simp only [left, right, same.length_eq]
    split
    · exact ⟨alike, rfl⟩
    · have advanced := alike.setRoute route (same.touched same.twins rfl)
      obtain ⟨left, right⟩ | ⟨k, l, left, right, twin⟩ := same.twins.getElem? index.toNat
      · simp only [left, right]
        exact ⟨advanced, trivial⟩
      · simp only [left, right]
        obtain ⟨changed, events⟩ := matched same.twins.windowStart twin
        exact ⟨alike.setRoute route (same.touched (same.twins.set _ changed) rfl), events⟩

theorem retireForWindow_alike (route : String) (index : Int) (reason : RetireReason) :
    StoreState.Alike s start now (s.retireForWindow x route index reason now).1
        (s.retireForWindow y route index reason now).1 ∧
      (s.retireForWindow x route index reason now).2 =
        (s.retireForWindow y route index reason now).2 := by
  apply s.onKey_alike alike
  intro a b k l start twin
  have deadline : s.windowDeadline a now = s.windowDeadline b now := by
    rw [windowDeadline, start, windowDeadline]
  rw [deadline]
  exact retireLocked_twin twin _ _

theorem retryAfter_alike (route : String) :
    StoreState.Alike s start now (s.retryAfter x route now).1 (s.retryAfter y route now).1 ∧
      (s.retryAfter x route now).2 = (s.retryAfter y route now).2 := by
  unfold retryAfter
  obtain ⟨left, right⟩ | ⟨a, b, left, right, same⟩ := alike.known route
  · simp only [left, right]
    exact ⟨alike, trivial⟩
  · simp only [left, right, same.length_eq]
    split
    · exact ⟨alike, rfl⟩
    · rw [same.twins.shortestWait]
      exact ⟨alike.setRoute route (same.touched same.twins rfl), rfl⟩

theorem snapshot_alike (route : String) :
    StoreState.Alike s start now (s.snapshot x route now).1 (s.snapshot y route now).1 ∧
      List.Forall₂ (KeyState.Agrees now) (s.snapshot x route now).2 (s.snapshot y route now).2 := by
  unfold snapshot
  obtain ⟨left, right⟩ | ⟨a, b, left, right, same⟩ := alike.known route
  · simp only [left, right]
    exact ⟨alike, .nil⟩
  · simp only [left, right]
    exact ⟨alike.setRoute route (same.touched same.twins rfl), same.twins.snapshot⟩

theorem call_alike (blind : DeadlineBlind s.policy) (c : Call) :
    StoreState.Alike s start now (s.call x now c).1 (s.call y now c).1 ∧
      Response.Agrees now (s.call x now c).2 (s.call y now c).2 := by
  cases c with
  | reserve route =>
    obtain ⟨after, answer⟩ := s.reserve_alike alike blind route
    have same : (s.call x now (.reserve route)).2 = (s.call y now (.reserve route)).2 := by
      simp only [call, answer]
    exact ⟨after, same⟩
  | recordSample route index sample =>
    obtain ⟨after, events⟩ :=
      s.onKey_alike alike (fun _ twin => settleLocked_twin twin (normalise sample)) route index
    exact ⟨after, congrArg Response.events events⟩
  | retireWithReason route index deadline reason =>
    obtain ⟨after, events⟩ :=
      s.onKey_alike alike (fun _ twin => retireLocked_twin twin deadline (defaultReason reason))
        route index
    exact ⟨after, congrArg Response.events events⟩
  | retireForWindow route index reason =>
    obtain ⟨after, events⟩ := s.retireForWindow_alike alike route index reason
    exact ⟨after, congrArg Response.events events⟩
  | retryAfter route =>
    obtain ⟨after, wait⟩ := s.retryAfter_alike alike route
    exact ⟨after, congrArg Response.wait wait⟩
  | snapshot route => exact s.snapshot_alike alike route

theorem observed_alike {c : Call} (observation : c.Observes) :
    StoreState.Alike s start now x (s.call y now c).1 := by
  cases c with
  | retryAfter route =>
    obtain ⟨_, right⟩ | ⟨a, b, left, right, same⟩ := alike.known route
    · simp only [call, retryAfter, right]
      exact alike
    · simp only [call, retryAfter, right]
      split
      · exact alike
      · exact alike.advanced left same
  | snapshot route =>
    obtain ⟨_, right⟩ | ⟨a, b, left, right, same⟩ := alike.known route
    · simp only [call, snapshot, right]
      exact alike
    · simp only [call, snapshot, right]
      exact alike.advanced left same
  | reserve | recordSample | retireWithReason | retireForWindow => exact observation.elim

end

def respond (s : Store Cursor) (state : StoreState Cursor) (timed : TimedCall) :
    StoreState Cursor × Response :=
  s.call state timed.now timed.call

end Store

theorem newStoreState_alike (s : Store Cursor) (keys : String → Option Int) (cursor : Cursor)
    (start : Int) :
    StoreState.Alike s start start (newStoreState keys cursor start)
      (newStoreState keys cursor start) where
  routes := by
    intro route
    cases known : (newStoreState keys cursor start).routes route with
    | none => exact .none
    | some rs =>
      have begun := (newStoreState_routes known).1
      exact .some ((RouteState.Twins.refl start rs).alike ⟨by omega, by omega⟩)
  cursor := rfl
  fallback := rfl
  representable := by
    simp only [Duration.maximum]
    omega

def TimedCall.Observes (timed : TimedCall) : Prop := timed.call.Observes

theorem Store.unnoticed (s : Store Cursor) (blind : DeadlineBlind s.policy) (start : Int) :
    Watched.Unnoticed TimedCall.Observes s.respond TimedCall.now
      (fun earlier later => earlier ≤ later ∧ later - start ≤ Duration.maximum)
      (StoreState.Alike s start) (fun timed => Store.Response.Agrees timed.now) where
  passed := fun read alike => alike.passed read.1 read.2
  observed := fun observation alike => s.observed_alike alike observation
  called := fun alike => s.call_alike alike blind _

def uncappedStore : Store UInt64 :=
  newStore (newPolicy .leastUsed)
    { window := Duration.hour, tokens := 0, requests := 0, softRatio := .finite 1
      estimateTokens := 0 } 0 0 .machine

def uncappedStart : StoreState UInt64 := newStoreState (fun _ => some 1) 0 0

/-- A retirement outlives the window by ten nanoseconds; the snapshot put in before
its end rolls the window over and keeps it, the later one finds it lapsed. -/
def watchedTrace : List (Watched TimedCall.Observes) :=
  [.original ⟨1, .retireWithReason "chat" 0 (Duration.hour + 10) .quota⟩,
    .extra ⟨2, .retryAfter "chat"⟩ trivial,
    .extra ⟨Duration.hour + 1, .snapshot "chat"⟩ trivial,
    .original ⟨Duration.hour + 20, .snapshot "chat"⟩,
    .original ⟨Duration.hour + 21, .reserve "chat"⟩]

def shownDeadlines (answered : List (TimedCall × Store.Response)) : List (List (Option Int)) :=
  answered.map (fun answer =>
    match answer.2 with
    | .keys states => states.map (·.retiredUntil)
    | _ => [])

def centuriesTrace : List (Watched TimedCall.Observes) :=
  [.extra ⟨1752000 * Duration.hour, .snapshot "chat"⟩ trivial,
    .original ⟨3504000 * Duration.hour, .retireForWindow "chat" 0 .quota⟩,
    .original ⟨3504000 * Duration.hour + 1, .reserve "chat"⟩]

end ClusterRouter.Channel
