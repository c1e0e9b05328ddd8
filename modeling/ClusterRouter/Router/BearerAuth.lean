import ClusterRouter.Router.UpstreamAuth

/-! `ClassBearerAuthFunc` reads the internal token and the customer tokens through getters that
lock the router one at a time (`helpers.go`, `main.go`), so a reload may come between. -/

set_option autoImplicit false

namespace ClusterRouter.Router

open Foundation

inductive AuthPhase where
  | arrived
  | checking (internal : Bytes)
  | listing
  | called (workload : Option WorkloadClass)
  | rejected
  deriving DecidableEq, Repr

/-- `ClassFromRequest` of the class that the request's context carries, if any. -/
def classFromRequest : Option WorkloadClass → WorkloadClass
  | some workload => workload
  | none => .internal

structure AuthState where
  cfg : Config
  phase : AuthPhase
  deriving DecidableEq

inductive AuthAction where
  | proceed
  | reload (cfg : Config)

def presents (inbound : Header) (token : Bytes) : Bool :=
  decide (token ≠ []) && decide (inbound.get authorization = lit "Bearer " ++ token)

namespace AuthState

def arrive (cfg : Config) : AuthState := ⟨cfg, .arrived⟩

/-- The steps up to the next read of the configuration in force. The customer tokens are
read for the check only if the internal token is empty. -/
def proceed (inbound : Header) (cfg : Config) : AuthPhase → Option AuthPhase
  | .arrived => some (.checking cfg.authToken)
  | .checking internal =>
    if internal = [] ∧ cfg.customerTokens.length = 0 then some (.called none)
    else if presents inbound internal then some (.called (some .internal))
    else some .listing
  | .listing =>
    if cfg.customerTokens.any (presents inbound) then some (.called (some .customer))
    else some .rejected
  | .called _ => none
  | .rejected => none

def step (inbound : Header) (state : AuthState) : AuthAction → Option AuthState
  | .proceed => (proceed inbound state.cfg state.phase).map (fun phase => { state with phase })
  | .reload cfg =>
    match state.phase with
    | .called _ => none
    | .rejected => none
    | _ => some { state with cfg }

end AuthState

def classBearerAuth (inbound : Header) : Machine AuthState AuthAction := ⟨AuthState.step inbound⟩

def putInForce (_ : AuthState) : AuthAction → List Config
  | .proceed => []
  | .reload cfg => [cfg]

def authRun (inbound : Header) (cfg : Config) (trace : List AuthAction) :
    Option (AuthState × List Config) :=
  ((classBearerAuth inbound).recording putInForce).run (.arrive cfg, [cfg]) trace

def Config.HasToken (cfg : Config) : Prop := cfg.authToken ≠ [] ∨ ∃ token ∈ cfg.customerTokens, token ≠ []

/-- Where the internal token was read as empty and the configuration in force now has one,
it has customer tokens too. -/
def ReadsWhole (state : AuthState) : AuthAction → Prop
  | .proceed =>
    state.phase = .checking [] → state.cfg.authToken ≠ [] → state.cfg.customerTokens ≠ []
  | .reload _ => True

instance (state : AuthState) : ∀ action, Decidable (ReadsWhole state action)
  | .proceed => inferInstanceAs (Decidable (_ → _))
  | .reload _ => inferInstanceAs (Decidable True)

/-! ## What one step does -/

namespace AuthState

theorem proceed_called_none_iff {inbound : Header} {cfg : Config} {phase : AuthPhase} :
    proceed inbound cfg phase = some (.called none) ↔
      phase = .checking [] ∧ cfg.customerTokens = [] := by
  cases phase with
  | arrived | called | rejected => simp [proceed]
  | checking internal =>
    simp only [proceed, List.length_eq_zero_iff, AuthPhase.checking.injEq]
    by_cases isOpen : internal = [] ∧ cfg.customerTokens = []
    · simp [isOpen]
    · simp only [isOpen, if_false, iff_false]
      split <;> simp
  | listing =>
    simp only [proceed]
    split <;> simp

theorem step_eq_some {inbound : Header} {state next : AuthState} {action : AuthAction}
    (stepped : state.step inbound action = some next) :
    (action = .proceed ∧ next.cfg = state.cfg ∧
        proceed inbound state.cfg state.phase = some next.phase) ∨
      (action = .reload next.cfg ∧ next.phase = state.phase ∧
        ∀ workload, state.phase ≠ .called workload) := by
  cases action with
  | proceed =>
    obtain ⟨phase, moved, rfl⟩ := Option.map_eq_some_iff.mp stepped
    exact .inl ⟨rfl, rfl, moved⟩
  | reload cfg =>
    simp only [step] at stepped
    split at stepped
    next => cases stepped
    next => cases stepped
    next undecided _ =>
      cases stepped
      exact .inr ⟨rfl, rfl, undecided⟩

theorem step_called_none_iff {inbound : Header} {state next : AuthState} {action : AuthAction}
    (stepped : state.step inbound action = some next) (guarded : state.phase ≠ .called none) :
    next.phase = .called none ↔
      action = .proceed ∧ state.phase = .checking [] ∧ state.cfg.customerTokens = [] := by
  rcases step_eq_some stepped with ⟨rfl, _, moved⟩ | ⟨rfl, same, _⟩
  · have passes : proceed inbound state.cfg state.phase = some (.called none) ↔ _ :=
      proceed_called_none_iff
    simpa [moved] using passes
  · simp [same, guarded]

theorem step_called {inbound : Header} {state : AuthState} {workload : Option WorkloadClass}
    (called : state.phase = .called workload) (action : AuthAction) :
    state.step inbound action = none := by
  cases action with
  | proceed => simp [step, called, proceed]
  | reload cfg => simp [step, called]

end AuthState

/-! ## What the handler is called with -/

def AuthPhase.Backed (inbound : Header) (during : List Config) : AuthPhase → Prop
  | .checking internal => ∃ cfg ∈ during, internal = cfg.authToken
  | .called (some .internal) => ∃ cfg ∈ during, presents inbound cfg.authToken = true
  | .called (some .customer) =>
    ∃ cfg ∈ during, ∃ token ∈ cfg.customerTokens, presents inbound token = true
  | _ => True

variable {inbound : Header} {during : List Config}

theorem AuthPhase.Backed.mono {more : List Config} {phase : AuthPhase}
    (backed : phase.Backed inbound during) : phase.Backed inbound (during ++ more) := by
  have kept : ∀ {cfg : Config}, cfg ∈ during → cfg ∈ during ++ more := List.mem_append_left more
  cases phase with
  | arrived | listing | rejected => trivial
  | checking internal =>
    obtain ⟨cfg, member, same⟩ := backed
    exact ⟨cfg, kept member, same⟩
  | called workload =>
    match workload, backed with
    | none, _ => trivial
    | some .internal, ⟨cfg, member, presented⟩ => exact ⟨cfg, kept member, presented⟩
    | some .customer, ⟨cfg, member, token⟩ => exact ⟨cfg, kept member, token⟩

theorem AuthPhase.Backed.proceed {cfg : Config} {phase next : AuthPhase}
    (moved : AuthState.proceed inbound cfg phase = some next) (member : cfg ∈ during)
    (backed : phase.Backed inbound during) : next.Backed inbound during := by
  cases phase with
  | arrived =>
    cases moved
    exact ⟨cfg, member, rfl⟩
  | checking internal =>
    obtain ⟨source, among, rfl⟩ := backed
    simp only [AuthState.proceed] at moved
    split at moved
    next =>
      cases moved
      trivial
    next =>
      split at moved
      next presented =>
        cases moved
        exact ⟨source, among, presented⟩
      next =>
        cases moved
        trivial
  | listing =>
    simp only [AuthState.proceed] at moved
    split at moved
    next found =>
      cases moved
      obtain ⟨token, listed, presented⟩ := List.any_eq_true.mp found
      exact ⟨cfg, member, token, listed, presented⟩
    next =>
      cases moved
      trivial
  | called | rejected => cases moved

theorem backed_of_authRun {start : Config} {trace : List AuthAction} {final : AuthState}
    (ran : authRun inbound start trace = some (final, during)) :
    final.phase.Backed inbound during := by
  refine ((classBearerAuth inbound).recording_invariant putInForce
    (fun state during => state.cfg ∈ during ∧ state.phase.Backed inbound during) ?_ ran
    ⟨List.mem_cons_self, trivial⟩).2
  rintro state during action next stepped ⟨member, backed⟩
  rcases AuthState.step_eq_some stepped with ⟨rfl, same, moved⟩ | ⟨rfl, same, _⟩
  · rw [putInForce, List.append_nil, same]
    exact ⟨member, backed.proceed moved member⟩
  · rw [same]
    exact ⟨List.mem_append_right during List.mem_cons_self, backed.mono⟩

/-! ## When the check is passed by -/

theorem readsWhole_iff {state : AuthState} (token : state.cfg.HasToken) {action : AuthAction} :
    ReadsWhole state action ↔
      ¬ (action = .proceed ∧ state.phase = .checking [] ∧ state.cfg.customerTokens = []) := by
  cases action with
  | reload cfg => simp [ReadsWhole]
  | proceed =>
    simp only [ReadsWhole, true_and, not_and]
    refine ⟨fun whole phase empty => ?_, fun whole phase _ => whole phase⟩
    rcases token with internal | ⟨token, listed, _⟩
    · exact whole phase internal empty
    · rw [empty] at listed
      cases listed

theorem authMeets_iff {state final : AuthState} {notes : List Config} {trace : List AuthAction}
    (ran : ((classBearerAuth inbound).recording putInForce).run (state, notes) trace =
      some (final, during)) (member : state.cfg ∈ notes) (guarded : state.phase ≠ .called none)
    (tokens : ∀ cfg ∈ during, cfg.HasToken) :
    (classBearerAuth inbound).Meets ReadsWhole state trace ↔ final.phase ≠ .called none := by
  induction trace generalizing state notes with
  | nil =>
    cases ran
    simpa [Machine.Meets] using guarded
  | cons action rest ih =>
    obtain ⟨⟨next, more⟩, recorded, remaining⟩ := Machine.run_cons_eq_some _ |>.mp ran
    obtain ⟨stepped, rfl⟩ := (Machine.recording_step_eq_some _ _).mp recorded
    have kept : ∀ cfg ∈ notes ++ putInForce state action, cfg ∈ during :=
      Machine.recording_invariant _ _ (fun _ notes' => ∀ cfg ∈ _, cfg ∈ notes')
        (fun _ _ _ _ _ all cfg inside => List.mem_append_left _ (all cfg inside)) remaining
        (fun _ inside => inside)
    have token := tokens _ (kept _ (List.mem_append_left _ member))
    have known : next.cfg ∈ notes ++ putInForce state action := by
      rcases AuthState.step_eq_some stepped with ⟨_, same, _⟩ | ⟨rfl, _, _⟩
      · exact same ▸ List.mem_append_left _ member
      · exact List.mem_append_right notes List.mem_cons_self
    simp only [Machine.Meets, stepped]
    rw [readsWhole_iff token, ← AuthState.step_called_none_iff stepped guarded]
    by_cases passed : next.phase = .called none
    · have ended : final = next := by
        cases rest with
        | nil =>
          cases remaining
          rfl
        | cons later _ =>
          obtain ⟨⟨_, _⟩, moved, _⟩ := Machine.run_cons_eq_some _ |>.mp remaining
          have moved := ((Machine.recording_step_eq_some _ _).mp moved).1
          cases (AuthState.step_called passed later).symm.trans moved
      simp [ended, passed]
    · simp only [passed, not_false_eq_true, true_and]
      exact ih remaining known passed

/-- A run calls the handler without having matched a token iff the check reads the customer
tokens of a configuration that has none, after an internal token read from one that has no
internal token; every other call rests on a token that was in force. -/
theorem authentication_kept_iff (inbound : Header) (start : Config) (trace : List AuthAction)
    (final : AuthState) (during : List Config)
    (ran : authRun inbound start trace = some (final, during))
    (tokens : ∀ cfg ∈ during, cfg.HasToken) :
    ((classBearerAuth inbound).Meets ReadsWhole (.arrive start) trace →
      ∀ workload, final.phase = .called workload →
        (∃ cfg ∈ during, ∃ token ∈ cfg.authToken :: cfg.customerTokens,
          presents inbound token = true) ∧
        (classFromRequest workload = .customer →
          ∃ cfg ∈ during, ∃ token ∈ cfg.customerTokens, presents inbound token = true)) ∧
      (¬ (classBearerAuth inbound).Meets ReadsWhole (.arrive start) trace →
        final.phase = .called none) := by
  have guarded := authMeets_iff ran List.mem_cons_self AuthPhase.noConfusion tokens
  refine ⟨fun meets workload called => ?_, fun torn => ?_⟩
  · have backed := backed_of_authRun ran
    have matched := guarded.mp meets
    rw [called] at backed matched
    match workload, backed with
    | none, _ => exact absurd rfl matched
    | some .internal, ⟨cfg, member, presented⟩ =>
      exact ⟨⟨cfg, member, cfg.authToken, List.mem_cons_self, presented⟩, WorkloadClass.noConfusion⟩
    | some .customer, ⟨cfg, member, token, listed, presented⟩ =>
      exact ⟨⟨cfg, member, token, List.mem_cons_of_mem _ listed, presented⟩,
        fun _ => ⟨cfg, member, token, listed, presented⟩⟩
  · exact Classical.not_not.mp (fun other => torn (guarded.mpr other))

def tenantsOnly : Config := { clusterOf [cloudNode] with customerTokens := [lit "tenant"] }

def internalOnly : Config := { clusterOf [cloudNode] with authToken := lit "secret" }

theorem authentication_kept_tenant :
    ∃ final during,
      authRun (Header.empty.set authorization (lit "Bearer tenant")) internalOnly
        [.proceed, .proceed, .reload tenantsOnly, .proceed] = some (final, during) ∧
      final.phase = .called (some .customer) ∧
      ∃ cfg ∈ during, ∃ token ∈ cfg.customerTokens,
        presents (Header.empty.set authorization (lit "Bearer tenant")) token = true := by
  have tokens : ∀ cfg ∈ [internalOnly, tenantsOnly], cfg.HasToken := by
    intro cfg member
    rcases List.mem_cons.mp member with rfl | among
    · exact .inl (by decide)
    · obtain rfl := List.mem_singleton.mp among
      exact .inr ⟨lit "tenant", by decide, by decide⟩
  refine ⟨⟨tenantsOnly, .called (some .customer)⟩, [internalOnly, tenantsOnly], by rfl, rfl, ?_⟩
  refine ((authentication_kept_iff _ internalOnly [.proceed, .proceed, .reload tenantsOnly, .proceed]
    ⟨tenantsOnly, .called (some .customer)⟩ [internalOnly, tenantsOnly] (by rfl) tokens).1 ?_ _ rfl).2 rfl
  decide +kernel

/-- A request without credentials passes while an installation goes from customer tokens
to an internal one. -/
theorem authentication_lost_across_reload :
    ∃ first second final,
      loadConfig bareOutside tenantsOnly = .ok first ∧
      loadConfig bareOutside internalOnly = .ok second ∧ first.HasToken ∧ second.HasToken ∧
      authRun .empty first [.proceed, .reload second, .proceed] = some (final, [first, second]) ∧
      final.phase = .called none ∧
      ∀ token, presents .empty token = false := by
  refine ⟨_, _, _, rfl, rfl, .inr ⟨lit "tenant", by decide, by decide⟩, .inl (by decide), rfl, rfl, ?_⟩
  intro token
  have unlike : [] ≠ lit "Bearer " ++ token := by
    intro same
    cases (List.append_eq_nil_iff.mp same.symm).1
  simp [presents, Header.get, Header.empty, unlike]

end ClusterRouter.Router
