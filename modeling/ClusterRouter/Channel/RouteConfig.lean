import ClusterRouter.Channel.Forward

/-! `validateAuthMode`, `validateKeyHeader` and `validateBudget` of
`internal/channel/config.go`. -/

set_option autoImplicit false

namespace ClusterRouter.Channel

open Foundation

inductive AuthModeError where
  | keyHeaderNotHeaderMode
  | keyPrefixNotHeaderMode
  | noKeySource
  | keyHeaderMissing
  | keyHeaderInvalid
  | keyHeaderHopByHop
  | keyHeaderHost
  | passthroughKeySource
  deriving DecidableEq, Repr

def hasSingularKeys (r : Route) : Bool :=
  decide (r.keyEnv ≠ []) || decide (r.keyFile ≠ []) || decide (r.keyRef ≠ [])

def validateKeyHeader (r : Route) : Except AuthModeError Unit :=
  if r.keyHeader = [] then .error .keyHeaderMissing
  else if isToken r.keyHeader = false then .error .keyHeaderInvalid
  else if r.keyHeader.map Bytes.toLower ∈ hopByHop then .error .keyHeaderHopByHop
  else if Bytes.equalFold r.keyHeader (lit "Host") then .error .keyHeaderHost
  else .ok ()

def validateAuthMode (r : Route) : Except AuthModeError Unit :=
  if r.auth ≠ .header ∧ r.keyHeader ≠ [] then .error .keyHeaderNotHeaderMode
  else if r.auth ≠ .header ∧ r.keyPrefix ≠ [] then .error .keyPrefixNotHeaderMode
  else
    match r.auth with
    | .inject => if hasSingularKeys r || hasPluralKeys r then .ok () else .error .noKeySource
    | .header =>
      if hasSingularKeys r || hasPluralKeys r then validateKeyHeader r else .error .noKeySource
    | .passthrough =>
      if hasSingularKeys r || hasPluralKeys r then .error .passthroughKeySource else .ok ()

theorem validateAuthMode_keyHeader {r : Route} (valid : validateAuthMode r = .ok ())
    (other : r.auth ≠ .header) : r.keyHeader = [] := by
  unfold validateAuthMode at valid
  by_cases unset : r.keyHeader = []
  · exact unset
  · rw [if_pos ⟨other, unset⟩] at valid
    cases valid

theorem validateAuthMode_credentialHeader {r : Route} (valid : validateAuthMode r = .ok ())
    (held : r.auth ≠ .passthrough) : isToken (credentialHeader r) = true := by
  unfold credentialHeader
  cases mode : r.auth with
  | passthrough => exact absurd mode held
  | inject =>
    rw [if_neg (by decide)]
    decide
  | header =>
    rw [if_pos rfl]
    simp only [validateAuthMode, mode, ne_eq, not_true_eq_false, false_and, if_false] at valid
    split at valid
    · unfold validateKeyHeader at valid
      split at valid
      · cases valid
      · split at valid
        · cases valid
        next token => simpa using token
    · cases valid

/-! ## Budgets -/

inductive BudgetError where
  | softRatioOutside (got : Binary64)
  | windowNegative
  | windowMissing
  | estimateMissing
  deriving DecidableEq

def validateBudget (b : Budget) : Except BudgetError Budget :=
  if Binary64.gt (.finite 0) b.softRatio || Binary64.gt b.softRatio (.finite 1) then
    .error (.softRatioOutside b.softRatio)
  else if b.window < 0 then .error .windowNegative
  else if b.window = 0 ∧ (0 < b.tokens ∨ 0 < b.requests) then .error .windowMissing
  else if 0 < b.tokens ∧ b.estimateTokens ≤ 0 then .error .estimateMissing
  else if b.softRatio = .finite 0 then .ok { b with softRatio := defaultSoftRatio }
  else .ok b

theorem validateBudget_capped {b validated : Budget} (accepted : validateBudget b = .ok validated)
    (capped : 0 < validated.tokens) : 0 < validated.window ∧ 0 < validated.estimateTokens := by
  unfold validateBudget at accepted
  split at accepted
  · cases accepted
  split at accepted
  · cases accepted
  split at accepted
  · cases accepted
  split at accepted
  · cases accepted
  split at accepted
  · cases accepted
    dsimp only at capped ⊢
    omega
  · cases accepted
    omega

end ClusterRouter.Channel
