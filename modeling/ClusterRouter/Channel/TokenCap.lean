import ClusterRouter.Channel.KeyHistory
import ClusterRouter.Channel.RefusalLabels

/-! Admission counts a lease in flight at the estimate, settlement charges what the response
reports. The leases are bounded by the figure of the startup warning
(`internal/channel/budget_advisory.go`), and the potential that bounds the tokens values each of
them at the largest charge. -/

set_option autoImplicit false

namespace ClusterRouter.Channel

open Foundation

variable {Cursor : Type}

structure BudgetAdvisory where
  route : String
  enabled : Bool
  tokens : Int
  estimateTokens : Int
  window : Int
  deriving DecidableEq, Repr

def BudgetAdvisory.concurrentLeases (a : BudgetAdvisory) (arithmetic : Arithmetic) : Int :=
  if a.estimateTokens ≤ 0 then 0
  else
    (arithmetic.norm (arithmetic.norm (a.tokens + a.estimateTokens) - 1)).tdiv a.estimateTokens

/-- The advisory of `TokenBudgetAdvisories` for one route that rotates keys. -/
def tokenBudgetAdvisory (route : String) (enabled : Bool) (budget : Budget) :
    Option BudgetAdvisory :=
  if budget.tokens ≤ 0 then none
  else
    some
      { route := route
        enabled := enabled
        tokens := budget.tokens
        estimateTokens := budget.estimateTokens
        window := budget.window }

theorem BudgetAdvisory.concurrentLeases_exact {a : BudgetAdvisory} (capped : 0 < a.tokens)
    (estimated : 0 < a.estimateTokens) :
    a.concurrentLeases .exact = ⌈(a.tokens : ℚ) / a.estimateTokens⌉ := by
  have positive : (0 : ℚ) < a.estimateTokens := by exact_mod_cast estimated
  have sum := Int.mul_ediv_add_emod (a.tokens + a.estimateTokens - 1) a.estimateTokens
  have left := Int.emod_nonneg (a.tokens + a.estimateTokens - 1) (Int.ne_of_gt estimated)
  have less := Int.emod_lt_of_pos (a.tokens + a.estimateTokens - 1) estimated
  unfold concurrentLeases
  rw [if_neg (by omega)]
  simp only [Arithmetic.norm]
  rw [Int.tdiv_eq_ediv_of_nonneg (by omega), eq_comm, Int.ceil_eq_iff]
  generalize (a.tokens + a.estimateTokens - 1) / a.estimateTokens = quotient at *
  have above : a.estimateTokens * (quotient - 1) < a.tokens := by
    rw [Int.mul_sub, Int.mul_one]
    omega
  have below : a.tokens ≤ a.estimateTokens * quotient := by omega
  constructor
  · rw [lt_div_iff₀ positive, mul_comm]
    exact_mod_cast above
  · rw [div_le_iff₀ positive, mul_comm]
    exact_mod_cast below

namespace Store

def chargeOf (s : Store Cursor) (sample : UsageSample) : Int :=
  if sample.tokens < 0 then s.budget.estimateTokens else sample.tokens

theorem settleLocked_normalise_tokens (s : Store Cursor) (k : KeyRecord) (sample : UsageSample) :
    (s.settleLocked k (normalise sample)).1.tokens =
      if sample.outcome = .completed then s.arithmetic.norm (k.tokens + s.chargeOf sample)
      else k.tokens := by
  have charge : (if (normalise sample).tokens = tokensUnknown then s.budget.estimateTokens
      else (normalise sample).tokens) = s.chargeOf sample := by
    unfold normalise chargeOf tokensUnknown
    by_cases negative : sample.tokens < 0
    · simp [negative]
    · have known : sample.tokens ≠ -1 := by omega
      simp [negative, known]
  rw [settleLocked_tokens, normalise_outcome, charge]
  cases sample.outcome with
  | failed => rfl
  | completed => rfl

end Store

/-! ## The potential of a key -/

/-- On a key with `held` reservations outstanding and no reclamation, every lease in flight
is valued at the largest charge. -/
structure TokenLedger (estimate leases most : Int) (held : Nat) (k : KeyRecord) : Prop where
  slots : k.inFlight + k.orphaned = held
  orphans : k.orphaned ≤ k.reclaimed
  nonneg : 0 ≤ k.tokens
  fewer : k.reclaimed = 0 → (k.inFlight : Int) ≤ leases
  bounded : k.reclaimed = 0 → k.tokens + k.inFlight * most ≤ leases * most + estimate - 1

namespace TokenLedger

variable {s : Store Cursor} {leases most : Int} {held : Nat} {k : KeyRecord} {now : Int}

variable {estimate : Int}

theorem fresh (estimated : 0 < estimate) (covers : estimate ≤ most) (positive : 0 ≤ leases) :
    TokenLedger estimate leases most 0 {} where
  slots := rfl
  orphans := Nat.le_refl _
  nonneg := Int.le_refl _
  fewer := fun _ => positive
  bounded := by
    intro _
    have := Int.mul_nonneg positive (Int.le_trans (Int.le_of_lt estimated) covers)
    simp only [KeyRecord.inFlight, List.length_nil]
    omega

theorem advanceKey (estimated : 0 < estimate) (covers : estimate ≤ most) (rolled : Bool)
    (ledger : TokenLedger estimate leases most held k) :
    TokenLedger estimate leases most held (s.advanceKey rolled now k) := by
  obtain ⟨n, available, _, isReclaimed⟩ := s.reclaimStaleLocked_spec k now
  obtain ⟨slots, orphans, nonneg, fewer, bounded⟩ := ledger
  have reclaimed : TokenLedger estimate leases most held (s.reclaimStaleLocked k now) := by
    rw [isReclaimed]
    unfold KeyRecord.inFlight at *
    refine ⟨?_, ?_, nonneg, ?_, ?_⟩
    · simp only [KeyRecord.inFlight, List.length_drop]
      omega
    · dsimp only
      omega
    · intro noOrphans
      have untouched : n = 0 := by
        dsimp only at noOrphans
        omega
      subst untouched
      exact fewer noOrphans
    · intro noOrphans
      have untouched : n = 0 := by
        dsimp only at noOrphans
        omega
      subst untouched
      exact bounded noOrphans
  unfold Store.advanceKey
  cases rolled with
  | false => exact reclaimed
  | true =>
    obtain ⟨_, _, rolls⟩ := Store.rollKey_spec (s.reclaimStaleLocked k now) now
    simp only [if_true, rolls]
    obtain ⟨slots, orphans, nonneg, fewer, bounded⟩ := reclaimed
    refine ⟨slots, orphans, Int.le_refl _, fewer, ?_⟩
    intro noOrphans
    have := Int.mul_le_mul_of_nonneg_right (fewer noOrphans)
      (Int.le_trans (Int.le_of_lt estimated) covers)
    simp only [KeyRecord.inFlight] at *
    omega

theorem lease (exactly : s.arithmetic = .exact) (window : 0 < s.budget.window)
    (capped : 0 < s.budget.tokens) (estimated : 0 < s.budget.estimateTokens)
    (covers : s.budget.estimateTokens ≤ most)
    (enough : s.budget.tokens ≤ leases * s.budget.estimateTokens)
    (admissible : s.admissibleLocked k now = true)
    (ledger : TokenLedger s.budget.estimateTokens leases most held k) :
    TokenLedger s.budget.estimateTokens leases most (held + 1)
      { k with leases := k.leases ++ [now] } := by
  have room : k.tokens + k.inFlight * s.budget.estimateTokens < s.budget.tokens := by
    have free := ((Store.admissibleLocked_exact exactly).mp admissible).2
    simp only [Store.AtHardCap, window, capped, true_and, not_or, not_le] at free
    exact free.2
  obtain ⟨slots, orphans, nonneg, fewer, bounded⟩ := ledger
  have below : (k.inFlight : Int) < leases := by
    refine Int.lt_of_mul_lt_mul_right (a := s.budget.estimateTokens) ?_ (by omega)
    omega
  have grown : ({ k with leases := k.leases ++ [now] } : KeyRecord).inFlight = k.inFlight + 1 := by
    simp [KeyRecord.inFlight]
  refine ⟨?_, orphans, nonneg, ?_, ?_⟩
  · rw [grown]
    dsimp only
    omega
  · intro _
    rw [grown]
    push_cast
    omega
  · intro _
    rw [grown]
    push_cast
    -- The `leases - inFlight - 1` leases that are still to come cover what is left at the
    -- estimate, and all the more at the largest charge.
    have rest := Int.mul_le_mul_of_nonneg_left covers
      (show 0 ≤ leases - k.inFlight - 1 by omega)
    linarith

theorem settle (exactly : s.arithmetic = .exact) (estimated : 0 < s.budget.estimateTokens)
    (covers : s.budget.estimateTokens ≤ most) {sample : UsageSample}
    (charges : sample.outcome = .completed → s.chargeOf sample ≤ most)
    (ledger : TokenLedger s.budget.estimateTokens leases most (held + 1) k) :
    TokenLedger s.budget.estimateTokens leases most held
      (s.settleLocked k (Store.normalise sample)).1 := by
  obtain ⟨slots, orphans, nonneg, fewer, bounded⟩ := ledger
  have settled := s.settleLocked_spec k (Store.normalise sample)
  have released := Store.releaseLocked_slots k (by omega)
  have less := Store.releaseLocked_orphaned_le k
  have inFlight : (s.settleLocked k (Store.normalise sample)).1.inFlight =
      (releaseLocked k).inFlight := congrArg List.length settled.leases
  have orphaned := settled.orphaned
  have reclaimed := settled.reclaimed
  have charge : 0 ≤ s.chargeOf sample := by
    unfold Store.chargeOf
    split <;> omega
  have tokens : (s.settleLocked k (Store.normalise sample)).1.tokens =
      k.tokens + if sample.outcome = .completed then s.chargeOf sample else 0 := by
    rw [s.settleLocked_normalise_tokens, exactly]
    split
    · rfl
    · omega
  have added : (0 : Int) ≤ (if sample.outcome = .completed then s.chargeOf sample else 0) ∧
      (if sample.outcome = .completed then s.chargeOf sample else 0) ≤ most := by
    split
    next completed => exact ⟨charge, charges completed⟩
    next => exact ⟨Int.le_refl _, by omega⟩
  refine ⟨by omega, by omega, by omega, ?_, ?_⟩
  · intro noOrphans
    have := fewer (by omega)
    omega
  · intro noOrphans
    have before := bounded (by omega)
    have slot : (k.inFlight : Int) = (s.settleLocked k (Store.normalise sample)).1.inFlight + 1 := by
      omega
    rw [slot, Int.add_mul, Int.one_mul] at before
    omega

theorem retireLocked (deadline : Int) (reason : RetireReason)
    (ledger : TokenLedger estimate leases most held k) :
    TokenLedger estimate leases most held (Store.retireLocked k now deadline reason).1 := by
  obtain ⟨_, _, retired⟩ := Store.retireLocked_spec k now deadline reason
  rw [retired]
  obtain ⟨slots, orphans, nonneg, fewer, bounded⟩ := ledger
  exact ⟨slots, orphans, nonneg, fewer, bounded⟩

end TokenLedger

/-! ## A run that attains the bound -/

private theorem sum_eq_length_mul_iff {limit : Nat} {counts : List Nat}
    (bounded : ∀ count ∈ counts, count ≤ limit) :
    counts.sum = counts.length * limit ↔ ∀ count ∈ counts, count = limit := by
  induction counts with
  | nil => simp
  | cons count rest ih =>
    have first := bounded count List.mem_cons_self
    have others := fun count member => bounded count (List.mem_cons_of_mem _ member)
    have total := List.sum_le_card_nsmul rest limit others
    rw [smul_eq_mul] at total
    rw [List.forall_mem_cons, ← ih others, List.sum_cons, List.length_cons, Nat.add_mul]
    omega

private theorem sum_modify {α : Type} {items : List α} {index : Nat} {item : α} (size : α → Nat)
    {change : α → α} (found : items[index]? = some item)
    (grown : size (change item) = size item + 1) :
    ((items.modify index change).map size).sum = (items.map size).sum + 1 := by
  induction items generalizing index with
  | nil => cases found
  | cons first rest ih =>
    cases index with
    | zero =>
      cases found
      simp only [List.modify_zero_cons, List.map_cons, List.sum_cons, grown]
      omega
    | succ index =>
      have behind := ih found
      simp only [List.modify_succ_cons, List.map_cons, List.sum_cons, behind]
      omega

def RouteState.leased (rs : RouteState) : Nat := (rs.keys.map KeyRecord.inFlight).sum

structure RouteState.OnlyLeased (limit : Nat) (now : Int) (rs : RouteState) : Prop where
  start : rs.windowStart = now
  keys : ∀ k ∈ rs.keys, ∃ count ≤ limit, k = { leases := List.replicate count now }

namespace RouteState.OnlyLeased

variable {s : Store Cursor} {limit : Nat} {now : Int} {rs : RouteState}

section

variable (only : rs.OnlyLeased limit now)

include only

theorem advanceLocked (window : 0 < s.budget.window) : s.advanceLocked rs now = rs := by
  refine Store.advanceLocked_eq_self ?_ ?_
  · have elapsed : Time.sub now rs.windowStart = 0 := by
      rw [only.start]
      simp [Time.sub, Duration.maximum, Duration.minimum]
    simp only [Store.expired, elapsed, decide_eq_false_iff_not]
    omega
  · intro k member lease held
    obtain ⟨count, _, rfl⟩ := only.keys k member
    rw [List.eq_of_mem_replicate held]
    simp only [Store.stale, decide_eq_false_iff_not]
    omega

theorem inFlight_le {count : Nat}
    (member : count ∈ rs.keys.map KeyRecord.inFlight) : count ≤ limit := by
  obtain ⟨k, present, rfl⟩ := List.mem_map.mp member
  obtain ⟨count, bounded, rfl⟩ := only.keys k present
  simpa [KeyRecord.inFlight] using bounded

theorem leased_eq_iff : rs.leased = rs.keys.length * limit ↔ ∀ k ∈ rs.keys, k.inFlight = limit := by
  have counted := sum_eq_length_mul_iff (fun count member => only.inFlight_le member)
  rw [List.length_map, List.forall_mem_map] at counted
  exact counted

theorem admissible_iff (exactly : s.arithmetic = .exact)
    (window : 0 < s.budget.window) (uncapped : s.budget.requests ≤ 0)
    (capped : 0 < s.budget.tokens) {k : KeyRecord} (member : k ∈ rs.keys) :
    s.admissibleLocked k now = true ↔ k.inFlight * s.budget.estimateTokens < s.budget.tokens := by
  obtain ⟨count, _, rfl⟩ := only.keys k member
  rw [Store.admissibleLocked_exact exactly, Store.AtHardCap]
  simp [selectableAt, Time.deadlineAfter, window, capped, Int.not_lt.mpr uncapped]

theorem exists_admissible (exactly : s.arithmetic = .exact)
    (window : 0 < s.budget.window) (uncapped : s.budget.requests ≤ 0)
    (capped : 0 < s.budget.tokens)
    (leases : ∀ count : Nat, count * s.budget.estimateTokens < s.budget.tokens ↔ count < limit)
    (short : rs.leased < rs.keys.length * limit) :
    ∃ k ∈ rs.keys, s.admissibleLocked k now = true := by
  by_contra stuck
  have full : ∀ k ∈ rs.keys, k.inFlight = limit := by
    intro k member
    have most := only.inFlight_le (List.mem_map_of_mem member)
    have refused : ¬ s.admissibleLocked k now = true :=
      fun admissible => stuck ⟨k, member, admissible⟩
    rw [only.admissible_iff exactly window uncapped capped member, leases] at refused
    omega
  have total := only.leased_eq_iff.mpr full
  omega

theorem lease {index : Nat} {k : KeyRecord}
    (found : rs.keys[index]? = some k) (room : k.inFlight < limit) :
    (RouteState.lease rs index now).OnlyLeased limit now := by
  refine ⟨only.start, ?_⟩
  intro changed member
  obtain rfl | unchanged := mem_modify found member
  · obtain ⟨count, _, rfl⟩ := only.keys k (List.mem_of_getElem? found)
    exact ⟨count + 1, by simpa [KeyRecord.inFlight] using room, by rw [List.replicate_succ']⟩
  · exact only.keys changed unchanged

end

end RouteState.OnlyLeased

namespace LeaseSession

theorem run_fills {s : Store Cursor} (exactly : s.arithmetic = .exact)
    (window : 0 < s.budget.window) (uncapped : s.budget.requests ≤ 0)
    (capped : 0 < s.budget.tokens) {limit : Nat}
    (leases : ∀ count : Nat, count * s.budget.estimateTokens < s.budget.tokens ↔ count < limit)
    {keys : String → Option Int} {route : String} {n : Int} (registered : keys route = some n)
    (positive : 0 < n) (cursor : Cursor) (began : Int) {count : Nat}
    (bounded : count ≤ n.toNat * limit) :
    ∃ final rs,
      (machine s).run (start keys cursor began)
          (List.replicate count ⟨began, .call (.reserve route)⟩) = some final ∧
        final.clock = began ∧ final.store.routes route = some rs ∧
        rs.OnlyLeased limit began ∧ rs.keys.length = n.toNat ∧ rs.leased = count := by
  induction count with
  | zero =>
    have fresh : (start keys cursor began).store.routes route =
        some { keys := List.replicate n.toNat {}, windowStart := began } := by
      simp [start, newStoreState, registered, Int.not_le.mpr positive]
    refine ⟨_, _, rfl, rfl, fresh, ⟨rfl, ?_⟩, by simp, by simp [RouteState.leased, KeyRecord.inFlight]⟩
    intro k member
    exact ⟨0, Nat.zero_le _, List.eq_of_mem_replicate member⟩
  | succ count ih =>
    obtain ⟨before, rs, ran, clock, known, only, length, leased⟩ := ih (by omega)
    have still := only.advanceLocked (s := s) window
    have room := only.exists_admissible exactly window uncapped capped leases
      (by rw [leased, length]; omega)
    obtain ⟨granted, answer⟩ : ∃ index, (s.reserve before.store route began).2 = (some index, .none) :=
      Store.reserve_granted_iff.mpr (by simpa [Store.poolAt, known, still] using room)
    rcases s.reserve_cases before.store route began with
      ⟨unknown, _⟩ | ⟨found, isFound, ⟨_, refused⟩ | ⟨index, k, routes, _, present, admissible⟩⟩
    · rw [known] at unknown
      cases unknown
    · rw [answer] at refused
      cases refused
    · rw [known] at isFound
      cases isFound
      rw [still] at routes present
      rw [only.admissible_iff exactly window uncapped capped (List.mem_of_getElem? present),
        leases] at admissible
      refine ⟨before.perform s began (.reserve route), RouteState.lease rs index began, ?_, rfl,
        ?_, only.lease present admissible, ?_, ?_⟩
      · rw [List.replicate_succ', (machine s).run_concat_eq_some]
        refine ⟨before, ran, ?_⟩
        simp [machine, step, clock, isSettlement]
      · have after := congrFun routes route
        rw [StoreState.setRoute_routes, if_pos rfl] at after
        exact after
      · simpa [RouteState.lease] using length
      · unfold RouteState.leased RouteState.lease
        rw [sum_modify KeyRecord.inFlight present (by simp [KeyRecord.inFlight])]
        exact congrArg (· + 1) leased

/-- Every key of every run stays under the printed figure, and with no request cap
reservations alone reach it on every key. -/
theorem token_cap_overshoot (s : Store Cursor) (exactly : s.arithmetic = .exact)
    (window : 0 < s.budget.window) (capped : 0 < s.budget.tokens)
    (estimated : 0 < s.budget.estimateTokens) (keys : String → Option Int) (cursor : Cursor)
    (began : Int) :
    (∀ (most : Int) (trace : List LeaseEvent) (final : LeaseSession Cursor),
        s.budget.estimateTokens ≤ most →
        (∀ event ∈ trace, ∀ reservation sample, event.action = .settle reservation sample →
          sample.outcome = .completed → s.chargeOf sample ≤ most) →
        (machine s).run (start keys cursor began) trace = some final →
        ∀ route index k, final.store.keyAt route index = some k → k.reclaimed = 0 →
          (k.inFlight : Int) ≤ ⌈(s.budget.tokens : ℚ) / s.budget.estimateTokens⌉ ∧
            k.tokens ≤ ⌈(s.budget.tokens : ℚ) / s.budget.estimateTokens⌉ * most +
              s.budget.estimateTokens - 1) ∧
      (∀ route enabled, ∃ advisory, tokenBudgetAdvisory route enabled s.budget = some advisory ∧
        advisory.concurrentLeases s.arithmetic =
          ⌈(s.budget.tokens : ℚ) / s.budget.estimateTokens⌉) ∧
      (s.budget.requests ≤ 0 → ∀ route n, keys route = some n → 0 < n →
        ∃ trace final, (machine s).run (start keys cursor began) trace = some final ∧
          (∀ event ∈ trace, event.action = .call (.reserve route)) ∧
          ∀ index < n.toNat, ∃ k, final.store.keyAt route index = some k ∧ k.reclaimed = 0 ∧
            (k.inFlight : Int) = ⌈(s.budget.tokens : ℚ) / s.budget.estimateTokens⌉) := by
  have positive : (0 : ℚ) < s.budget.estimateTokens := by exact_mod_cast estimated
  have below (count : Int) : count * s.budget.estimateTokens < s.budget.tokens ↔
      count < ⌈(s.budget.tokens : ℚ) / s.budget.estimateTokens⌉ := by
    rw [Int.lt_ceil, lt_div_iff₀ positive]
    exact_mod_cast Iff.rfl
  generalize figure : ⌈(s.budget.tokens : ℚ) / s.budget.estimateTokens⌉ = leases at *
  have room : 0 < leases := (below 0).mp (by omega)
  refine ⟨?_, ?_, ?_⟩
  · intro most trace final covers samples ran route index k found unreclaimed
    have enough : s.budget.tokens ≤ leases * s.budget.estimateTokens := by
      have := (below leases).not.mpr (Int.lt_irrefl _)
      omega
    have ledger := outstanding_invariant (TokenLedger s.budget.estimateTokens leases most)
      (.fresh estimated covers (Int.le_of_lt room))
      (fun rolled ledger => ledger.advanceKey estimated covers rolled)
      (fun admissible ledger =>
        ledger.lease exactly window capped estimated covers enough admissible)
      (fun charges ledger => ledger.settle exactly estimated covers charges)
      (fun deadline reason ledger => ledger.retireLocked deadline reason) samples ran found
    have fewer := ledger.fewer unreclaimed
    have bounded := ledger.bounded unreclaimed
    have carried : 0 ≤ (k.inFlight : Int) * most :=
      Int.mul_nonneg (Int.natCast_nonneg _) (Int.le_trans (Int.le_of_lt estimated) covers)
    exact ⟨fewer, by omega⟩
  · intro route enabled
    refine ⟨_, if_neg (Int.not_le.mpr capped), ?_⟩
    rw [exactly, ← figure]
    exact BudgetAdvisory.concurrentLeases_exact capped estimated
  · intro uncapped route n registered positive
    have fits (count : Nat) : count * s.budget.estimateTokens < s.budget.tokens ↔
        count < leases.toNat := by
      rw [below]
      omega
    obtain ⟨final, rs, ran, _, known, only, length, leased⟩ :=
      run_fills exactly window uncapped capped fits registered positive cursor began
        (Nat.le_refl _)
    refine ⟨_, final, ran, fun event member => by rw [List.eq_of_mem_replicate member], ?_⟩
    intro index inside
    rw [← length] at inside leased
    have present := List.getElem?_eq_getElem inside
    have full := only.leased_eq_iff.mp leased _ (List.getElem_mem inside)
    obtain ⟨count, _, shape⟩ := only.keys _ (List.getElem_mem inside)
    refine ⟨_, StoreState.keyAt_eq_some.mpr ⟨rs, known, present⟩, by rw [shape], ?_⟩
    rw [full]
    omega

def tenTokenBudget : Budget where
  window := Duration.hour
  tokens := 10
  requests := 0
  softRatio := .finite 1
  estimateTokens := 4

def threeLeaseRun : List LeaseEvent :=
  [⟨0, .call (.reserve "chat")⟩, ⟨1, .call (.reserve "chat")⟩, ⟨2, .call (.reserve "chat")⟩,
    ⟨3, .settle ⟨"chat", 0, 1⟩ ⟨.completed, 7, false⟩⟩]

theorem token_cap_overshoot_ten :
    ∃ final k,
      (machine (newStore roundRobin tenTokenBudget 0 0 .exact)).run
          (start (fun _ => some 1) 0 0) threeLeaseRun = some final ∧
        final.store.keyAt "chat" 0 = some k ∧ k.inFlight = 2 ∧ k.tokens = 7 ∧
        (k.inFlight : Int) ≤ ⌈(10 : ℚ) / 4⌉ ∧ k.tokens ≤ ⌈(10 : ℚ) / 4⌉ * 7 + 4 - 1 := by
  have ran : (machine (newStore roundRobin tenTokenBudget 0 0 .exact)).run
      (start (fun _ => some 1) 0 0) threeLeaseRun = some _ := rfl
  refine ⟨_, { requests := 1, tokens := 7, leases := [1, 2] }, ran, by decide +kernel, rfl, rfl, ?_⟩
  exact (token_cap_overshoot (newStore roundRobin tenTokenBudget 0 0 .exact) rfl (by decide)
    (by decide) (by decide) (fun _ => some 1) 0 0).1 7 threeLeaseRun _ (by decide)
    (by
      intro event member reservation sample action completed
      simp only [threeLeaseRun, List.mem_cons, List.not_mem_nil, or_false] at member
      obtain rfl | rfl | rfl | rfl := member
      · cases action
      · cases action
      · cases action
      · cases action
        decide)
    ran "chat" 0 _ (by decide +kernel) rfl

end LeaseSession

end ClusterRouter.Channel
