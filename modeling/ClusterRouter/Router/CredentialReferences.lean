import ClusterRouter.Router.BearerAuth

/-! `LoadConfig` puts the value of a variable in the place of a `${NAME}`, and nothing where it
is not set (`internal/config/config.go`). It does so for `auth_token` and for the keys of the
nodes, not for `customer_tokens`, and `ClassBearerAuthFunc` lets every request through once
there is no token. -/

set_option autoImplicit false

namespace ClusterRouter.Router

open Foundation

/-! ## References -/

def reference (name : Bytes) : Bytes := lit "$\x7b" ++ name ++ lit "\x7d"

def IsReference (s : Bytes) : Prop := ∃ name, s = reference name

def referenced (s : Bytes) : Option Bytes :=
  if (lit "$\x7b").isPrefixOf s && (lit "\x7d").isSuffixOf s then some (s.drop 2).dropLast
  else none

theorem expandEnvValue_eq (outside : Outside) (s : Bytes) :
    expandEnvValue outside s =
      (referenced s).elim s (fun name => (outside.lookupEnv name).getD []) := by
  unfold expandEnvValue referenced
  split <;> rfl

variable {s key : Bytes} {outside : Outside} {cfg : Config} {inbound : Header}

theorem referenced_eq_some_iff {name : Bytes} : referenced s = some name ↔ s = reference name := by
  unfold referenced reference
  constructor
  · intro found
    split at found
    next shaped =>
      obtain ⟨opens, closes⟩ := Bool.and_eq_true_iff.mp shaped
      obtain ⟨rest, rfl⟩ := List.isPrefixOf_iff_prefix.mp opens
      have last := List.isSuffixOf_iff_suffix.mp closes
      cases rest using List.reverseRecOn with
      | nil => exact absurd last (by decide)
      | append_singleton inner final =>
        have same : final = 125 := by
          obtain ⟨before, whole⟩ := last
          rw [← List.append_assoc] at whole
          exact (List.singleton_inj.mp (List.append_inj_right' whole rfl)).symm
        subst same
        obtain rfl : inner = name := by simpa [lit] using found
        exact (List.append_assoc _ _ _).symm
    next => cases found
  · rintro rfl
    have opens : (lit "$\x7b").isPrefixOf (lit "$\x7b" ++ name ++ lit "\x7d") = true :=
      List.isPrefixOf_iff_prefix.mpr ⟨name ++ lit "\x7d", (List.append_assoc _ _ _).symm⟩
    have closes : (lit "\x7d").isSuffixOf (lit "$\x7b" ++ name ++ lit "\x7d") = true :=
      List.isSuffixOf_iff_suffix.mpr ⟨_, rfl⟩
    rw [opens, closes]
    simp [lit]

theorem reference_injective {first second : Bytes} (same : reference first = reference second) :
    first = second := by
  have named := referenced_eq_some_iff.mpr same
  rw [referenced_eq_some_iff.mpr rfl] at named
  exact Option.some.inj named

theorem isReference_iff : IsReference s ↔ (referenced s).isSome = true := by
  simp only [IsReference, Option.isSome_iff_exists, referenced_eq_some_iff]

instance (s : Bytes) : Decidable (IsReference s) := decidable_of_iff _ isReference_iff.symm

@[simp] theorem expandEnvValue_reference (outside : Outside) (name : Bytes) :
    expandEnvValue outside (reference name) = (outside.lookupEnv name).getD [] := by
  rw [expandEnvValue_eq, referenced_eq_some_iff.mpr rfl]
  rfl

theorem expandEnvValue_of_not_isReference (outside : Outside) (plain : ¬ IsReference s) :
    expandEnvValue outside s = s := by
  have unnamed : referenced s = none := by simpa [isReference_iff] using plain
  rw [expandEnvValue_eq, unnamed]
  rfl

/-! ## Entries of a configuration -/

section Entries

variable (outside : Outside) (entry : Bytes)

def Resolves : Prop :=
  ∀ name, entry = reference name → ∃ value, outside.lookupEnv name = some value ∧ value ≠ []

def ResolvesPlainly : Prop :=
  ∀ name value, entry = reference name → outside.lookupEnv name = some value → ¬ IsReference value

end Entries

theorem expandEnvValue_ne_nil_iff {entry : Bytes} (written : entry ≠ []) :
    expandEnvValue outside entry ≠ [] ↔ Resolves outside entry := by
  by_cases refers : IsReference entry
  · obtain ⟨name, rfl⟩ := refers
    rw [expandEnvValue_reference]
    constructor
    · intro filled other same
      obtain rfl := reference_injective same
      cases found : outside.lookupEnv name with
      | none => exact absurd (by rw [found]; rfl) filled
      | some value => exact ⟨value, rfl, by rwa [found] at filled⟩
    · intro resolved
      obtain ⟨value, found, present⟩ := resolved name rfl
      rwa [found]
  · rw [expandEnvValue_of_not_isReference outside refers]
    exact ⟨fun _ name same => absurd ⟨name, same⟩ refers, fun _ => written⟩

theorem not_isReference_expandEnvValue_iff {entry : Bytes} :
    ¬ IsReference (expandEnvValue outside entry) ↔ ResolvesPlainly outside entry := by
  by_cases refers : IsReference entry
  · obtain ⟨name, rfl⟩ := refers
    rw [expandEnvValue_reference]
    constructor
    · intro plain other value same found
      obtain rfl := reference_injective same
      rwa [found] at plain
    · intro plain
      cases found : outside.lookupEnv name with
      | none => decide
      | some value => exact plain name value rfl found
  · rw [expandEnvValue_of_not_isReference outside refers]
    exact ⟨fun _ name _ same => absurd ⟨name, same⟩ refers, fun _ => refers⟩

/-! ## Requests that are served -/

def Serves (cfg : Config) (inbound : Header) (workload : Option WorkloadClass) : Prop :=
  ∃ count, (classBearerAuth inbound).run (.arrive cfg) (List.replicate count .proceed) =
    some ⟨cfg, .called workload⟩

def Config.Knows (cfg : Config) (inbound : Header) : Prop :=
  ∃ token ∈ cfg.authToken :: cfg.customerTokens, presents inbound token = true

def bearer (token : Bytes) : Header := Header.empty.set authorization (lit "Bearer " ++ token)

def Accepts (cfg : Config) (token : Bytes) : Prop :=
  ∃ workload, Serves cfg (bearer token) (some workload)

theorem authPhase_of_proceeds {count : Nat} {final : AuthState}
    (ran : (classBearerAuth inbound).run (.arrive cfg) (List.replicate count .proceed) = some final) :
    final.cfg = cfg ∧ final.phase.Backed inbound [cfg] ∧
      (final.phase = .called none → cfg.authToken = [] ∧ cfg.customerTokens = []) := by
  have proceeds : ∀ action ∈ List.replicate count AuthAction.proceed, action = .proceed :=
    fun _ => List.eq_of_mem_replicate
  refine (classBearerAuth inbound).run_invariant_of_meets
    (fun state => state.cfg = cfg ∧ state.phase.Backed inbound [cfg] ∧
      (state.phase = .called none → cfg.authToken = [] ∧ cfg.customerTokens = [])) ?_
    ((classBearerAuth inbound).meets_of_forall proceeds _) ran ⟨rfl, trivial, AuthPhase.noConfusion⟩
  rintro state action next rfl stepped ⟨rfl, backed, _⟩
  have stepped : state.step inbound .proceed = some next := stepped
  rcases AuthState.step_eq_some stepped with ⟨-, same, moved⟩ | ⟨reloaded, -⟩
  · refine ⟨same, backed.proceed moved List.mem_cons_self, fun called => ?_⟩
    rw [called, AuthState.proceed_called_none_iff] at moved
    rw [moved.1] at backed
    obtain ⟨source, among, empty⟩ := backed
    rw [List.mem_singleton.mp among] at empty
    exact ⟨empty.symm, moved.2⟩
  · cases reloaded

theorem serves_none_iff :
    Serves cfg inbound none ↔ cfg.authToken = [] ∧ cfg.customerTokens = [] := by
  constructor
  · rintro ⟨count, ran⟩
    exact (authPhase_of_proceeds ran).2.2 rfl
  · rintro ⟨noToken, noTenants⟩
    refine ⟨2, ?_⟩
    simp [classBearerAuth, Machine.run, AuthState.arrive, AuthState.step, AuthState.proceed, noToken,
      noTenants]

theorem serves_some_iff :
    (∃ workload, Serves cfg inbound (some workload)) ↔ cfg.Knows inbound := by
  constructor
  · rintro ⟨workload, count, ran⟩
    obtain ⟨-, backed, -⟩ := authPhase_of_proceeds ran
    cases workload with
    | internal =>
      obtain ⟨source, among, presented⟩ := backed
      rw [List.mem_singleton.mp among] at presented
      exact ⟨cfg.authToken, List.mem_cons_self, presented⟩
    | customer =>
      obtain ⟨source, among, token, listed, presented⟩ := backed
      rw [List.mem_singleton.mp among] at listed
      exact ⟨token, List.mem_cons_of_mem _ listed, presented⟩
  · rintro ⟨token, known, presented⟩
    have guarded : ¬ (cfg.authToken = [] ∧ cfg.customerTokens = []) := by
      rintro ⟨noToken, noTenants⟩
      rw [noToken, noTenants] at known
      rw [List.mem_singleton.mp known] at presented
      cases presented
    by_cases internal : presents inbound cfg.authToken = true
    · refine ⟨.internal, 2, ?_⟩
      simp [classBearerAuth, Machine.run, AuthState.arrive, AuthState.step, AuthState.proceed, guarded,
        internal]
    · have listed : token ∈ cfg.customerTokens := by
        rcases List.mem_cons.mp known with rfl | listed
        · exact absurd presented internal
        · exact listed
      have found : ∃ token ∈ cfg.customerTokens, presents inbound token = true :=
        ⟨token, listed, presented⟩
      refine ⟨.customer, 3, ?_⟩
      simpa [classBearerAuth, Machine.run, AuthState.arrive, AuthState.step, AuthState.proceed, guarded,
        internal] using found

theorem presents_bearer_iff {token other : Bytes} :
    presents (bearer token) other = true ↔ other = token ∧ token ≠ [] := by
  simp only [presents, bearer, Header.get, Header.set_same, List.headD_cons, Bool.and_eq_true,
    decide_eq_true_eq, List.append_cancel_left_eq]
  constructor
  · rintro ⟨present, rfl⟩
    exact ⟨rfl, present⟩
  · rintro ⟨rfl, present⟩
    exact ⟨present, rfl⟩

theorem accepts_iff {token : Bytes} :
    Accepts cfg token ↔ token ≠ [] ∧ token ∈ cfg.authToken :: cfg.customerTokens := by
  unfold Accepts
  rw [serves_some_iff]
  constructor
  · rintro ⟨other, known, presented⟩
    obtain ⟨rfl, present⟩ := presents_bearer_iff.mp presented
    exact ⟨present, known⟩
  · rintro ⟨present, known⟩
    exact ⟨token, known, presents_bearer_iff.mpr ⟨rfl, present⟩⟩

theorem serves_known_iff :
    (∀ inbound workload, Serves cfg inbound workload → cfg.Knows inbound) ↔
      cfg.authToken ≠ [] ∨ cfg.customerTokens ≠ [] := by
  rw [← not_and_or]
  constructor
  · intro all unset
    obtain ⟨token, known, presented⟩ := all .empty none (serves_none_iff.mpr unset)
    rw [unset.1, unset.2] at known
    rw [List.mem_singleton.mp known] at presented
    cases presented
  · intro guarded inbound workload served
    cases workload with
    | none => exact absurd (serves_none_iff.mp served) guarded
    | some workload => exact serves_some_iff.mp ⟨workload, served⟩

/-! ## Keys that are sent -/

/-- The key of a health probe; it is sent with a header of the node's own only. -/
def probeAuthKey (node : UpstreamNode) : Bytes :=
  if node.cfg.apiKey ≠ [] then node.cfg.apiKey
  else (node.cfg.apiKeys.find? (fun key => decide (key ≠ []))).getD []

def NodeConfig.probedWithKey (cfg : NodeConfig) : Bool :=
  decide (cfg.authHeader ≠ []) && !cfg.healthCheckDisabled

def UpstreamNode.Sends (node : UpstreamNode) (cooldown : Int) (key : Bytes) : Prop :=
  key ≠ [] ∧
    ((∃ (state : NodeState) (now : Int), Pool.Reached node.cfg.apiKeys cooldown state.keys ∧
        (nextAPIKey node state now).1 = key) ∨
      (node.cfg.probedWithKey = true ∧ probeAuthKey node = key))

def NodeConfig.usedKeys (cfg : NodeConfig) : List Bytes :=
  if cfg.apiKeys = [] ∨ cfg.probedWithKey = true then cfg.apiKey :: cfg.apiKeys else cfg.apiKeys

theorem mem_usedKeys_of_mem {cfg : NodeConfig} (member : key ∈ cfg.apiKeys) :
    key ∈ cfg.usedKeys := by
  unfold NodeConfig.usedKeys
  split
  next => exact List.mem_cons_of_mem _ member
  next => exact member

theorem apiKey_mem_usedKeys {cfg : NodeConfig} (used : cfg.apiKeys = [] ∨ cfg.probedWithKey = true) :
    cfg.apiKey ∈ cfg.usedKeys := by
  rw [NodeConfig.usedKeys, if_pos used]
  exact List.mem_cons_self

theorem mem_usedKeys_of_sends {node : UpstreamNode} {cooldown : Int}
    (sent : node.Sends cooldown key) : key ∈ node.cfg.usedKeys := by
  obtain ⟨present, ⟨state, now, reached, rfl⟩ | ⟨probed, rfl⟩⟩ := sent
  · rcases nextAPIKey_mem reached.keys_eq now with member | ⟨single, given⟩
    · exact mem_usedKeys_of_mem member
    · rw [given]
      exact apiKey_mem_usedKeys (.inl single)
  · unfold probeAuthKey at present ⊢
    split
    next => exact apiKey_mem_usedKeys (.inr probed)
    next empty =>
      rw [if_neg empty] at present
      cases found : node.cfg.apiKeys.find? (fun key => decide (key ≠ [])) with
      | none =>
        rw [found] at present
        exact absurd rfl present
      | some key => exact mem_usedKeys_of_mem (List.mem_of_find?_eq_some found)

theorem sends_iff {node : UpstreamNode} {cooldown : Int}
    (small : node.cfg.apiKeys.length < 2 ^ 63) :
    node.Sends cooldown key ↔ key ≠ [] ∧ key ∈ node.cfg.usedKeys := by
  refine ⟨fun sent => ⟨sent.1, mem_usedKeys_of_sends sent⟩, ?_⟩
  rintro ⟨present, used⟩
  have ofPool : key ∈ node.cfg.apiKeys → node.Sends cooldown key := by
    intro member
    obtain ⟨state, reached, given⟩ := exists_reached_key member small cooldown
    exact ⟨present, .inl ⟨state, 0, reached, given⟩⟩
  unfold NodeConfig.usedKeys at used
  split at used
  next alone =>
    rcases List.mem_cons.mp used with rfl | member
    · rcases alone with single | probed
      · refine ⟨present, .inl ⟨⟨true, .new 0 0, .new node.cfg.apiKeys cooldown⟩, 0, .new, ?_⟩⟩
        unfold nextAPIKey
        rw [if_neg (by simp [Pool.new, single])]
      · exact ⟨present, .inr ⟨probed, if_pos present⟩⟩
    · exact ofPool member
  next => exact ofPool used

theorem usedKeys_expandNode (outside : Outside) (source : NodeConfig) :
    (positiveWeight (expandNode outside source)).usedKeys =
      source.usedKeys.map (expandEnvValue outside) := by
  have probed : (positiveWeight (expandNode outside source)).probedWithKey = source.probedWithKey := rfl
  have keys : (positiveWeight (expandNode outside source)).apiKeys =
      source.apiKeys.map (expandEnvValue outside) := rfl
  have key : (positiveWeight (expandNode outside source)).apiKey =
      expandEnvValue outside source.apiKey := rfl
  simp only [NodeConfig.usedKeys, probed, keys, key, List.map_eq_nil_iff]
  split
  next => rfl
  next => rfl

/-! ## When references fail closed -/

theorem sent_keys_plain_iff {library : Library} {raw : Config} {id : Nat} {heap after : Heap}
    {nodes : List UpstreamNode} (loaded : loadConfig outside raw = .ok cfg)
    (built : buildReloadable library cfg id heap = .ok (nodes, after))
    (small : ∀ source ∈ raw.nodes, source.apiKeys.length < 2 ^ 63) :
    (∀ node ∈ nodes, ∀ key, node.Sends cfg.defaults.keyCooldown key → ¬ IsReference key) ↔
      ∀ source ∈ raw.nodes, nodeEnabled (expandEnvValue outside source.enabled) = true →
        ∀ entry ∈ source.usedKeys, ResolvesPlainly outside entry := by
  have cfgs := buildNodes_cfg built
  rw [loadConfig_nodes loaded] at cfgs
  have isNode : ∀ {node : UpstreamNode}, node ∈ nodes → ∃ source ∈ raw.nodes,
      nodeEnabled (expandEnvValue outside source.enabled) = true ∧
      node.cfg = positiveWeight (expandNode outside source) := by
    intro node member
    have among : node.cfg ∈ nodes.map UpstreamNode.cfg := List.mem_map_of_mem member
    rw [cfgs] at among
    obtain ⟨expanded, inside, same⟩ := List.mem_map.mp among
    obtain ⟨listed, enabled⟩ := List.mem_filter.mp inside
    obtain ⟨source, known, rfl⟩ := List.mem_map.mp listed
    exact ⟨source, known, enabled, same.symm⟩
  constructor
  · intro plain source known enabled entry used
    have among : positiveWeight (expandNode outside source) ∈ nodes.map UpstreamNode.cfg := by
      rw [cfgs]
      exact List.mem_map_of_mem (List.mem_filter.mpr ⟨List.mem_map_of_mem known, enabled⟩)
    obtain ⟨node, member, same⟩ := List.mem_map.mp among
    rw [← not_isReference_expandEnvValue_iff]
    intro isReference
    have length : node.cfg.apiKeys.length < 2 ^ 63 := by
      rw [same]
      exact (List.length_map _).trans_lt (small source known)
    refine plain node member _ ((sends_iff length).mpr ⟨?_, ?_⟩) isReference
    · rintro empty
      rw [empty] at isReference
      exact absurd isReference (by decide)
    · rw [same, usedKeys_expandNode]
      exact List.mem_map_of_mem used
  · intro plain node member key sent
    obtain ⟨source, known, enabled, same⟩ := isNode member
    have used := mem_usedKeys_of_sends sent
    rw [same, usedKeys_expandNode] at used
    obtain ⟨entry, among, rfl⟩ := List.mem_map.mp used
    exact not_isReference_expandEnvValue_iff.mpr (plain source known enabled entry among)

theorem accepted_tokens_plain_iff {raw : Config} (loaded : loadConfig outside raw = .ok cfg) :
    (∀ token, Accepts cfg token → ¬ IsReference token) ↔
      ResolvesPlainly outside raw.authToken ∧ ∀ token ∈ raw.customerTokens, ¬ IsReference token := by
  obtain ⟨internal, tenants, -⟩ := loadConfig_eq_ok loaded
  have accepted : (∀ token, Accepts cfg token → ¬ IsReference token) ↔
      ∀ token ∈ cfg.authToken :: cfg.customerTokens, ¬ IsReference token := by
    constructor
    · intro plain token known isReference
      refine plain token (accepts_iff.mpr ⟨?_, known⟩) isReference
      rintro rfl
      exact absurd isReference (by decide)
    · intro plain token accepts
      exact plain token (accepts_iff.mp accepts).2
  rw [accepted, List.forall_mem_cons, internal, tenants, not_isReference_expandEnvValue_iff]

/-- A file with an `auth_token` asks every request for a token iff it lists customer tokens or
the token does not come from a variable that is unset or empty; no token or key is the text of a
reference iff no customer token is written as one and no variable that is used is set to one. -/
theorem credential_references_iff (outside : Outside) (library : Library) (raw cfg : Config) (id : Nat)
    (heap after : Heap) (nodes : List UpstreamNode)
    (loaded : loadConfig outside raw = .ok cfg)
    (built : buildReloadable library cfg id heap = .ok (nodes, after))
    -- the length of a slice is an int
    (small : ∀ source ∈ raw.nodes, source.apiKeys.length < 2 ^ 63) :
    (raw.authToken ≠ [] →
      ((∀ inbound workload, Serves cfg inbound workload → cfg.Knows inbound) ↔
        Resolves outside raw.authToken ∨ raw.customerTokens ≠ [])) ∧
      ((∀ token, Accepts cfg token → ¬ IsReference token) ↔
        ResolvesPlainly outside raw.authToken ∧
          ∀ token ∈ raw.customerTokens, ¬ IsReference token) ∧
      ((∀ node ∈ nodes, ∀ key, node.Sends cfg.defaults.keyCooldown key → ¬ IsReference key) ↔
        ∀ source ∈ raw.nodes, nodeEnabled (expandEnvValue outside source.enabled) = true →
          ∀ entry ∈ source.usedKeys, ResolvesPlainly outside entry) := by
  refine ⟨fun written => ?_, accepted_tokens_plain_iff loaded, sent_keys_plain_iff loaded built small⟩
  obtain ⟨internal, tenants, -⟩ := loadConfig_eq_ok loaded
  rw [serves_known_iff, internal, tenants, expandEnvValue_ne_nil_iff written]

def setOutside : Outside := ⟨fun _ => some (lit "secret"), fun _ => []⟩

def referringNode : NodeConfig := { cloudNode with apiKeys := [reference (lit "KEY"), lit "second"] }

def referringConfig : Config :=
  { clusterOf [referringNode] with
    authToken := reference (lit "TOKEN"), customerTokens := [lit "tenant"] }

theorem resolvesPlainly_setOutside (entry : Bytes) : ResolvesPlainly setOutside entry := by
  intro name value _ found
  obtain rfl := Option.some.inj found
  decide

theorem credential_references_resolved :
    ∃ cfg nodes after,
      loadConfig setOutside referringConfig = .ok cfg ∧
      buildReloadable plainLibrary cfg 0 freshHeap = .ok (nodes, after) ∧
      referringConfig.authToken ≠ [] ∧
      (∀ inbound workload, Serves cfg inbound workload → cfg.Knows inbound) ∧
      (∀ token, Accepts cfg token → ¬ IsReference token) ∧
      ∀ node ∈ nodes, ∀ key, node.Sends cfg.defaults.keyCooldown key → ¬ IsReference key := by
  refine ⟨_, _, _, rfl, rfl, by decide, ?_⟩
  obtain ⟨served, accepted, sent⟩ := credential_references_iff setOutside plainLibrary referringConfig _ 0
    freshHeap _ _ rfl rfl (by decide)
  refine ⟨(served (by decide)).mpr (.inr (by decide)), accepted.mpr ⟨resolvesPlainly_setOutside _, ?_⟩,
    sent.mpr fun _ _ _ entry _ => resolvesPlainly_setOutside entry⟩
  decide

/-- A token that refers to an unset variable leaves the router open, and a customer token that
refers to a variable, set or not, is its own text. -/
theorem credential_references_open :
    (∃ cfg, loadConfig bareOutside { clusterOf [cloudNode] with authToken := reference (lit "UNSET") } =
        .ok cfg ∧
      Serves cfg .empty none ∧ ¬ cfg.Knows .empty) ∧
      ∃ cfg, loadConfig setOutside
          { clusterOf [cloudNode] with
            authToken := lit "internal", customerTokens := [reference (lit "TENANT")] } = .ok cfg ∧
        Accepts cfg (reference (lit "TENANT")) ∧ ¬ Accepts cfg (lit "secret") := by
  refine ⟨⟨_, rfl, serves_none_iff.mpr ⟨by decide, rfl⟩, ?_⟩, _, rfl,
    accepts_iff.mpr ⟨by decide, by decide⟩, fun accepted => ?_⟩
  · rintro ⟨token, known, presented⟩
    obtain rfl : token = [] := List.mem_singleton.mp known
    cases presented
  · exact absurd (accepts_iff.mp accepted).2 (by decide)

end ClusterRouter.Router
