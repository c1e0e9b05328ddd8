import ClusterRouter.Foundation.Bytes

/-! `runCheckKeys` of `cmd/helixchannel/check_keys.go`. The verdict is folded over the results
with guards on the verdict so far: the first result that is not a pass decides it. -/

set_option autoImplicit false

namespace ClusterRouter.Channel

open Foundation

inductive KeyStatus where
  | pass
  | fail
  | skip
  deriving DecidableEq, Repr

structure ConfigKeyRef where
  name : Bytes
  vault : Bytes
  item : Bytes
  field : Bytes
  deriving DecidableEq, Repr

structure CheckKeyResult where
  key : ConfigKeyRef
  status : KeyStatus
  byteLength : Nat
  durationMs : Int
  errorClass : Bytes
  hint : Bytes
  deriving DecidableEq, Repr

structure CheckKeysEnvelope where
  verdict : KeyStatus
  keys : List CheckKeyResult
  deriving DecidableEq, Repr

def defaultCheckKeys : List ConfigKeyRef :=
  [⟨lit "minimax", lit "<vault-name>", lit "<item-uuid>", lit "tagc4supdfgjj3rujdpb67ygm"⟩]

def ConfigKeyRef.joined (k : ConfigKeyRef) : Bytes := k.vault ++ lit "|" ++ k.item ++ lit "|" ++ k.field

/-- Of the entries for one secret the first is kept. -/
def dedupeKeys : List ConfigKeyRef → List Bytes → List ConfigKeyRef
  | [], _ => []
  | k :: rest, seen =>
    if k.joined ∈ seen then dedupeKeys rest seen else k :: dedupeKeys rest (k.joined :: seen)

def filterKeysByName (keys : List ConfigKeyRef) (subset : Bytes) : List ConfigKeyRef :=
  let wanted := ((Bytes.split 44 subset).map Bytes.trimSpace).filter (fun name => decide (name ≠ []))
  if subset = [] then keys else keys.filter (fun k => decide (k.name ∈ wanted))

def foldStatus (overall : KeyStatus) (res : CheckKeyResult) : KeyStatus :=
  match res.status with
  | .fail => if overall ≠ .skip then .fail else overall
  | .skip => if overall = .pass then .skip else overall
  | .pass => overall

def overallVerdict (results : List CheckKeyResult) : KeyStatus :=
  if results.length = 0 then .skip else results.foldl foldStatus .pass

/-- `verdictFailErr` and `verdictSkipErr` as `fail` maps them (`main.go`). -/
def KeyStatus.exitCode : KeyStatus → Nat
  | .pass => 0
  | .fail => 1
  | .skip => 2

/-- What is probed depends on the machine, so the probe is a parameter. -/
def runCheckKeys (probe : ConfigKeyRef → CheckKeyResult) (configured : List ConfigKeyRef)
    (subset : Bytes) : CheckKeysEnvelope × Nat :=
  let working := dedupeKeys (defaultCheckKeys ++ configured) []
  let working := if subset ≠ [] then filterKeysByName working subset else working
  let results := working.map probe
  (⟨overallVerdict results, results⟩, (overallVerdict results).exitCode)

/-! ## The fold -/

variable {results : List CheckKeyResult}

theorem foldl_foldStatus_of_ne {overall : KeyStatus} (decided : overall ≠ .pass)
    (alike : overall = .skip ∨ ∀ res ∈ results, res.status ≠ .skip) :
    results.foldl foldStatus overall = overall := by
  induction results with
  | nil => rfl
  | cons res rest ih =>
    have kept : foldStatus overall res = overall := by
      cases isStatus : res.status with
      | pass => simp [foldStatus, isStatus]
      | skip => simp [foldStatus, isStatus, decided]
      | fail =>
        cases overall with
        | pass => exact absurd rfl decided
        | fail | skip => simp [foldStatus, isStatus]
    rw [List.foldl_cons, kept, ih (alike.imp_right fun unfailed => (List.forall_mem_cons.mp unfailed).2)]

theorem foldl_foldStatus_of_one {status : KeyStatus} (decided : status ≠ .pass)
    (alike : ∀ res ∈ results, res.status = .pass ∨ res.status = status) :
    results.foldl foldStatus .pass =
      if ∃ res ∈ results, res.status = status then status else .pass := by
  induction results with
  | nil => simp
  | cons res rest ih =>
    rw [List.forall_mem_cons] at alike
    rw [List.foldl_cons]
    rcases alike.1 with passed | isStatus
    · have kept : foldStatus .pass res = .pass := by simp [foldStatus, passed]
      rw [kept, ih alike.2]
      simp [passed, decided.symm]
    · have taken : foldStatus .pass res = status := by
        cases status with
        | pass => exact absurd rfl decided
        | fail | skip => simp [foldStatus, isStatus]
      rw [taken, if_pos ⟨res, List.mem_cons_self, isStatus⟩]
      apply foldl_foldStatus_of_ne decided
      cases status with
      | pass => exact absurd rfl decided
      | skip => exact .inl rfl
      | fail =>
        refine .inr fun other member => ?_
        rcases alike.2 other member with passed | failed
        · simp [passed]
        · simp [failed]

theorem overallVerdict_of_one {status : KeyStatus} (decided : status ≠ .pass)
    (alike : ∀ res ∈ results, res.status = .pass ∨ res.status = status) :
    overallVerdict results =
      if results.length = 0 then .skip
      else if ∃ res ∈ results, res.status = status then status else .pass := by
  rw [overallVerdict, foldl_foldStatus_of_one decided alike]

theorem overallVerdict_perm {other : List CheckKeyResult} {status : KeyStatus}
    (decided : status ≠ .pass)
    (alike : ∀ res ∈ results, res.status = .pass ∨ res.status = status)
    (perm : results.Perm other) : overallVerdict other = overallVerdict results := by
  have alike' : ∀ res ∈ other, res.status = .pass ∨ res.status = status :=
    fun res member => alike res (perm.mem_iff.mpr member)
  simp only [overallVerdict_of_one decided alike, overallVerdict_of_one decided alike',
    perm.length_eq, perm.mem_iff]

/-- The verdict is the same in every order, and a failure is reported as one, exactly if the
results do not hold both a failed and a skipped key. -/
theorem check_keys_verdict_iff (results : List CheckKeyResult) :
    ((∀ other, results.Perm other → overallVerdict other = overallVerdict results ∧
        (overallVerdict other).exitCode = (overallVerdict results).exitCode) ∧
      ((∃ res ∈ results, res.status = .fail) →
        overallVerdict results = .fail ∧ (overallVerdict results).exitCode = 1)) ↔
    ¬ ((∃ res ∈ results, res.status = .fail) ∧ ∃ res ∈ results, res.status = .skip) := by
  constructor
  · rintro ⟨ordered, reported⟩ ⟨failed, skipped, member, isSkipped⟩
    -- With the skipped key in front, nothing after it changes the verdict.
    obtain ⟨front, back, rfl⟩ := List.append_of_mem member
    have first : overallVerdict (skipped :: (front ++ back)) = .skip := by
      have taken : foldStatus .pass skipped = .skip := by simp [foldStatus, isSkipped]
      simp only [overallVerdict, List.foldl_cons, taken]
      simp [foldl_foldStatus_of_ne]
    have same := (ordered _ List.perm_middle).1
    rw [first, (reported failed).1] at same
    cases same
  · intro apart
    have one : ∃ status, status ≠ KeyStatus.pass ∧
        (∀ res ∈ results, res.status = .pass ∨ res.status = status) ∧
        ((∃ res ∈ results, res.status = .fail) → status = .fail) := by
      by_cases failed : ∃ res ∈ results, res.status = .fail
      · refine ⟨.fail, by simp, fun res member => ?_, fun _ => rfl⟩
        cases isStatus : res.status with
        | pass => exact .inl rfl
        | fail => exact .inr rfl
        | skip => exact absurd ⟨failed, res, member, isStatus⟩ apart
      · refine ⟨.skip, by simp, fun res member => ?_, fun fails => absurd fails failed⟩
        cases isStatus : res.status with
        | pass => exact .inl rfl
        | fail => exact absurd ⟨res, member, isStatus⟩ failed
        | skip => exact .inr rfl
    obtain ⟨status, decided, alike, isFail⟩ := one
    refine ⟨fun other perm => ?_, fun failed => ?_⟩
    · rw [overallVerdict_perm decided alike perm]
      exact ⟨rfl, rfl⟩
    · obtain rfl := isFail failed
      have ⟨res, member, _⟩ := failed
      have verdict : overallVerdict results = .fail := by
        rw [overallVerdict_of_one decided alike, if_neg (List.length_pos_of_mem member).ne',
          if_pos failed]
      exact ⟨verdict, by rw [verdict]; rfl⟩

/-- Without the `op` command the default key is skipped; an entry without a vault fails. -/
def probeWithoutOp (k : ConfigKeyRef) : CheckKeyResult :=
  if k.vault = [] ∨ k.item = [] ∨ k.field = [] then
    ⟨k, .fail, 0, 0, lit "incomplete_ref",
      lit "config entry is missing vault/item/field; fix the YAML and re-run"⟩
  else
    ⟨k, .skip, 0, 0, lit "op_missing",
      lit "install the 1Password CLI (`brew install 1password-cli` or apt) and re-auth"⟩

def unfinishedKey : ConfigKeyRef := ⟨lit "grafana", [], lit "item", lit "field"⟩

theorem failed_key_reported_skipped :
    let run := runCheckKeys probeWithoutOp [unfinishedKey] []
    run.1.keys.map CheckKeyResult.status = [.skip, .fail] ∧ run.1.verdict = .skip ∧ run.2 = 2 ∧
      overallVerdict run.1.keys.reverse = .fail := by
  decide +kernel

end ClusterRouter.Channel
