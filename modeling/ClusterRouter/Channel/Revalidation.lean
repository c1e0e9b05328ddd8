import ClusterRouter.Channel.Validate

/-! `Validate` fills in defaults in place and runs again after the gateway's listen address has
been overridden (`cmd/helixchannel/gateway.go`). -/

set_option autoImplicit false

namespace ClusterRouter.Channel

open Foundation

theorem orDefault_again {fallback : Int} (positive : 0 < fallback) (value : Int) :
    orDefault (orDefault value fallback) fallback = orDefault value fallback := by
  unfold orDefault
  split
  next zero => rw [if_neg (by omega)]
  next isSet => rfl

theorem orDefault_pos {value fallback : Int} (nonneg : 0 ≤ value) (positive : 0 < fallback) :
    0 < orDefault value fallback := by
  unfold orDefault
  split
  · exact positive
  · omega

/-! ## Routes -/

theorem validateBudget_again {b filled : Budget} (accepted : validateBudget b = .ok filled) :
    validateBudget filled = .ok filled := by
  unfold validateBudget at accepted
  split at accepted
  · cases accepted
  next inside =>
  split at accepted
  · cases accepted
  next window =>
  split at accepted
  · cases accepted
  next resets =>
  split at accepted
  · cases accepted
  next estimated =>
  split at accepted
  · -- The default itself is in range and not zero.
    cases accepted
    have outside : ¬ (Binary64.gt (.finite 0) defaultSoftRatio ||
        Binary64.gt defaultSoftRatio (.finite 1)) = true := by decide +kernel
    have nonzero : defaultSoftRatio ≠ .finite 0 := by decide +kernel
    simp only [validateBudget, if_neg outside, if_neg window, if_neg resets, if_neg estimated,
      if_neg nonzero]
  next nonzero =>
    cases accepted
    simp only [validateBudget, if_neg inside, if_neg window, if_neg resets, if_neg estimated,
      if_neg nonzero]

theorem validateRotation_again {r : Route} {block filled : Option RotationBlock}
    (accepted : validateRotation r block = .ok filled) : validateRotation r filled = .ok filled := by
  cases block with
  | none =>
    cases accepted
    rfl
  | some rot =>
    simp only [validateRotation, bind_eq_ok, rejectIf_eq_ok, mapError_eq_ok, Unique.exists_iff]
      at accepted
    obtain ⟨keyed, pooled, named, supported, budget, budgeted, patient, ⟨⟩⟩ := accepted
    have policyAgain : (if (if rot.policy = [] then lit "round_robin" else rot.policy) = [] then
        lit "round_robin" else if rot.policy = [] then lit "round_robin" else rot.policy) =
        if rot.policy = [] then lit "round_robin" else rot.policy := by
      by_cases unnamed : rot.policy = []
      · simp only [if_pos unnamed]
        rfl
      · simp only [if_neg unnamed]
    simp only [validateRotation, bind_eq_ok, rejectIf_eq_ok, mapError_eq_ok, Unique.exists_iff]
    rw [policyAgain]
    refine ⟨keyed, pooled, ?_, supported, budget, validateBudget_again budgeted, ?_, ?_⟩
    · split
      · decide
      · exact named
    · exact (orDefault_pos (not_lt.mp patient) (by decide)).not_gt
    · rw [orDefault_again (by decide)]
      rfl

theorem validateRoute_again {timeout : Int} (positive : 0 < timeout) {seenPrefix : List Bytes}
    {r checked : RouteBlock} (accepted : validateRoute timeout seenPrefix r = .ok checked) :
    checked.toRoute = r.toRoute ∧ validateRoute timeout seenPrefix checked = .ok checked := by
  simp only [validateRoute, validateRouteAuth, bind_eq_ok, rejectIf_eq_ok, mapError_eq_ok,
    Unique.exists_iff] at accepted
  obtain ⟨given, shape, fresh, upstream, scheme, rotation, ⟨sources, mode, rotated⟩, patient, ⟨⟩⟩ :=
    accepted
  refine ⟨rfl, ?_⟩
  simp only [validateRoute, validateRouteAuth, bind_eq_ok, rejectIf_eq_ok, mapError_eq_ok,
    Unique.exists_iff]
  refine ⟨given, shape, fresh, upstream, scheme, rotation,
    ⟨sources, mode, validateRotation_again rotated⟩, ?_, ?_⟩
  · exact (orDefault_pos (not_lt.mp patient) positive).not_gt
  · rw [orDefault_again positive]
    rfl

theorem validateRoutes_again {timeout : Int} (positive : 0 < timeout) {index : Nat}
    {seenName : List String} {seenPrefix : List Bytes} {routes checked : List RouteBlock}
    (accepted : validateRoutes timeout index seenName seenPrefix routes = .ok checked) :
    validateRoutes timeout index seenName seenPrefix checked = .ok checked := by
  induction routes generalizing index seenName seenPrefix checked with
  | nil =>
    cases accepted
    rfl
  | cons r rest ih =>
    simp only [validateRoutes, bind_eq_ok, rejectIf_eq_ok, mapError_eq_ok, Unique.exists_iff]
      at accepted
    obtain ⟨named, fresh, first, isFirst, others, areOthers, ⟨⟩⟩ := accepted
    obtain ⟨same, again⟩ := validateRoute_again positive isFirst
    have sameName : first.name = r.name := congrArg Route.name same
    have samePrefix : first.pathPrefix = r.pathPrefix := congrArg Route.pathPrefix same
    rw [← sameName] at named fresh areOthers
    rw [← samePrefix] at areOthers
    simp only [validateRoutes, bind_eq_ok, rejectIf_eq_ok, mapError_eq_ok, Unique.exists_iff]
    exact ⟨named, fresh, first, again, others, ih areOthers, rfl⟩

/-! ## The CONNECT leg -/

def ConnectBlock.filled (connect : ConnectBlock) : ConnectBlock :=
  if connect.enabled = false then connect
  else
    { connect with
      dialTimeout := orDefault connect.dialTimeout defaultDialTimeout
      maxConcurrent := orDefault connect.maxConcurrent defaultConnectMaxConcurrent
      idleTimeout := orDefault connect.idleTimeout defaultConnectIdleTimeout }

theorem ConnectBlock.filled_again (connect : ConnectBlock) : connect.filled.filled = connect.filled := by
  unfold ConnectBlock.filled
  by_cases disabled : connect.enabled = false
  · simp only [if_pos disabled]
  · simp only [if_neg disabled]
    rw [orDefault_again (by decide), orDefault_again (by decide), orDefault_again (by decide)]

theorem validateConnect_eq_filled {fold : CaseFolding} {listen : Bytes} {connect filled : ConnectBlock}
    (accepted : validateConnect fold listen connect = .ok filled) : filled = connect.filled := by
  unfold validateConnect at accepted
  unfold ConnectBlock.filled
  split at accepted
  next disabled =>
    cases accepted
    rw [if_pos disabled]
  next enabled =>
    rw [if_neg enabled]
    simp only [bind_eq_ok, rejectIf_eq_ok, mapError_eq_ok, Unique.exists_iff] at accepted
    obtain ⟨_, _, _, _, _, _, ⟨⟩⟩ := accepted
    rfl

theorem validateConnect_again {fold : CaseFolding} {listen : Bytes} {connect filled : ConnectBlock}
    (accepted : validateConnect fold listen connect = .ok filled) :
    validateConnect fold listen filled = .ok filled := by
  unfold validateConnect at accepted
  split at accepted
  next disabled =>
    cases accepted
    rw [validateConnect, if_pos disabled]
  next enabled =>
    simp only [bind_eq_ok, rejectIf_eq_ok, mapError_eq_ok, Unique.exists_iff] at accepted
    obtain ⟨hosts, token, ref, allowed, count, idle, ⟨⟩⟩ := accepted
    rw [validateConnect, if_neg enabled]
    simp only [bind_eq_ok, rejectIf_eq_ok, mapError_eq_ok, Unique.exists_iff]
    refine ⟨hosts, token, ref, allowed, ?_, ?_, ?_⟩
    · exact (orDefault_pos (not_lt.mp count) (by decide)).not_gt
    · exact (orDefault_pos (not_lt.mp idle) (by decide)).not_gt
    · rw [orDefault_again (by decide), orDefault_again (by decide), orDefault_again (by decide)]
      rfl

/-! ## Configurations -/

def ConfigFile.listening (c : ConfigFile) (listen : Bytes) : ConfigFile := { c with listen := listen }

/-- Validation leaves a configuration alone once it has filled in its defaults, and does so
under every other listen address that it accepts. -/
theorem validate_idempotent {fold : CaseFolding} {file valid : ConfigFile}
    (accepted : validate fold file = .ok valid) :
    validate fold valid = .ok valid ∧
      ∀ listen again, validate fold (valid.listening listen) = .ok again →
        again = valid.listening listen := by
  simp only [validate, bind_eq_ok, rejectIf_eq_ok, mapError_eq_ok, Unique.exists_iff] at accepted
  obtain ⟨listens, patient, routes, checked, paired, connect, opened, sealed, guarded, ⟨⟩⟩ := accepted
  have positive := orDefault_pos (not_lt.mp patient) (show 0 < defaultTimeout by decide)
  have timeoutAgain := orDefault_again (show 0 < defaultTimeout by decide) file.timeout
  have routesAgain := validateRoutes_again positive checked
  constructor
  · simp only [validate, bind_eq_ok, rejectIf_eq_ok, mapError_eq_ok, Unique.exists_iff, timeoutAgain]
    exact ⟨listens, not_lt.mpr positive.le, routes, routesAgain, paired, connect,
      validateConnect_again opened, sealed, guarded, rfl⟩
  · intro listen again accepted
    simp only [validate, ConfigFile.listening, bind_eq_ok, mapError_eq_ok, Unique.exists_iff,
      timeoutAgain, routesAgain] at accepted
    obtain ⟨_, _, _, ⟨⟩, _, connectNow, reopened, _, _, ⟨⟩⟩ := accepted
    have same : connectNow = connect := by
      rw [validateConnect_eq_filled reopened, validateConnect_eq_filled opened,
        ConnectBlock.filled_again]
    rw [same]
    rfl

/-- A route with a key pool and an empty rotation block, so that defaults are filled in. -/
def pooledBlock : RouteBlock where
  name := "openai"
  pathPrefix := lit "/openai/"
  upstream := lit "https://api.openai.com"
  enabled := true
  auth := .inject
  keyEnv := []
  keyFile := []
  keyRef := []
  keyEnvs := some [lit "FIRST", lit "SECOND"]
  keyFiles := none
  keyRefs := none
  keyHeader := []
  keyPrefix := []
  timeout := 0
  rotation := some ⟨[], ⟨0, 0, 0, .finite 0, 0⟩, 0⟩

def pooledValid : ConfigFile :=
  { loopbackFile [pooledBlock] with
    timeout := defaultTimeout
    routes := [{ pooledBlock with
      timeout := defaultTimeout
      rotation := some ⟨lit "round_robin", ⟨0, 0, 0, defaultSoftRatio, 0⟩, defaultMaxRetryAfter⟩ }] }

theorem validate_idempotent_pooled :
    validate asciiFolding (loopbackFile [pooledBlock]) = .ok pooledValid ∧
      validate asciiFolding pooledValid = .ok pooledValid ∧
      validate asciiFolding (pooledValid.listening (lit "[::1]:9000")) =
        .ok (pooledValid.listening (lit "[::1]:9000")) := by
  have accepted : validate asciiFolding (loopbackFile [pooledBlock]) = .ok pooledValid := rfl
  obtain ⟨same, overridden⟩ := validate_idempotent accepted
  have reaccepted : (validate asciiFolding (pooledValid.listening (lit "[::1]:9000"))).isOk = true := by
    decide +kernel
  refine ⟨accepted, same, ?_⟩
  cases again : validate asciiFolding (pooledValid.listening (lit "[::1]:9000")) with
  | error failure =>
    rw [again] at reaccepted
    cases reaccepted
  | ok found => rw [overridden _ found again]

end ClusterRouter.Channel
