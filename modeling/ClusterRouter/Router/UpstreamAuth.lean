import ClusterRouter.Foundation.Fallible
import ClusterRouter.Foundation.Header
import ClusterRouter.Router.Handler
import ClusterRouter.Router.LoadConfig

/-! `doUpstream` copies the caller's headers, which carry the router's own token, and
`setUpstreamAuth` then decides the credential (`main.go`). With the default header it leaves the
caller's in place where the key at hand is empty. -/

set_option autoImplicit false

namespace ClusterRouter.Router

open Foundation

def authorization : HeaderName := ⟨lit "Authorization", by decide, by decide⟩

def copyHeaders (dst src : Header) : Header := fun name => dst name ++ src name

/-- A name that is no token addresses no header; a request that carries it is refused by
the client. -/
def setUpstreamAuth (header : Header) (authHeader key : Bytes) : Header :=
  if authHeader = [] then
    if key = [] then header else header.set authorization (lit "Bearer " ++ key)
  else
    let header := header.del authorization
    match HeaderName.parse authHeader with
    | none => header
    | some name =>
      let header := header.del name
      if key = [] then header else header.set name key

def nextAPIKey (node : UpstreamNode) (state : NodeState) (now : Int) : Bytes × Int × NodeState :=
  if 0 < state.keys.keys.length then
    let (key, idx, keys) := state.keys.next now
    (key, idx, { state with keys })
  else (node.cfg.apiKey, -1, state)

def outboundHeader (node : UpstreamNode) (state : NodeState) (now : Int) (inbound : Header) : Header :=
  setUpstreamAuth (copyHeaders .empty inbound) node.cfg.authHeader (nextAPIKey node state now).1

/-! ## What the caller's token reaches -/

def SameButAuthorization (first second : Header) : Prop :=
  ∀ name, name ≠ authorization → first name = second name

/-- In every state of the node's keys the request that goes out is the same whatever the
caller's `Authorization` is. -/
def KeepsTokenBack (node : UpstreamNode) : Prop :=
  ∀ (state : NodeState) (now : Int) (first second : Header),
    state.keys.keys = node.cfg.apiKeys → SameButAuthorization first second →
    outboundHeader node state now first = outboundHeader node state now second

def NodeConfig.HasKey (cfg : NodeConfig) (key : Bytes) : Prop :=
  key ≠ [] ∧ (key = cfg.apiKey ∨ key ∈ cfg.apiKeys)

variable {first second : Header} {key : Bytes} {pool : Pool} {now : Int} {node : UpstreamNode}
    {state : NodeState} {outside : Outside} {raw cfg : Config}

theorem SameButAuthorization.del (same : SameButAuthorization first second) :
    first.del authorization = second.del authorization := by
  funext name
  by_cases is : name = authorization
  · subst is
    simp
  · rw [Header.del_other is, Header.del_other is, same name is]

theorem SameButAuthorization.set (same : SameButAuthorization first second) (value : Bytes) :
    first.set authorization value = second.set authorization value := by
  funext name
  by_cases is : name = authorization
  · subst is
    simp
  · rw [Header.set_other is, Header.set_other is, same name is]

theorem setUpstreamAuth_congr {authHeader : Bytes} (same : SameButAuthorization first second)
    (replaced : authHeader ≠ [] ∨ key ≠ []) :
    setUpstreamAuth first authHeader key = setUpstreamAuth second authHeader key := by
  unfold setUpstreamAuth
  by_cases default : authHeader = []
  · have keyed : key ≠ [] := replaced.resolve_left (fun other => other default)
    rw [if_pos default, if_pos default, if_neg keyed, if_neg keyed, same.set]
  · rw [if_neg default, if_neg default, same.del]

theorem setUpstreamAuth_authorization {header : Header} {authHeader : Bytes}
    (accepted : authHeader ≠ [] → Bytes.equalFold authHeader (lit "Authorization") = false)
    (replaced : authHeader ≠ [] ∨ key ≠ []) :
    setUpstreamAuth header authHeader key authorization = [] ∨
      (key ≠ [] ∧ setUpstreamAuth header authHeader key authorization = [lit "Bearer " ++ key]) := by
  unfold setUpstreamAuth
  by_cases default : authHeader = []
  · have keyed : key ≠ [] := replaced.resolve_left (fun other => other default)
    rw [if_pos default, if_neg keyed, Header.set_same]
    exact .inr ⟨keyed, rfl⟩
  · left
    rw [if_neg default]
    cases parsed : HeaderName.parse authHeader with
    | none => exact Header.del_same _ _
    | some name =>
      have other : authorization ≠ name := by
        intro same
        have folded := (HeaderName.equalFold_iff parsed).mpr same
        have reversed : Bytes.equalFold authHeader (lit "Authorization") = true := by
          unfold Bytes.equalFold at folded ⊢
          rw [decide_eq_true_iff] at folded ⊢
          exact folded.symm
        rw [accepted default] at reversed
        cases reversed
      by_cases keyed : key = []
      · simp only [if_pos keyed]
        rw [Header.del_other other, Header.del_same]
      · simp only [if_neg keyed]
        rw [Header.set_other other, Header.del_other other, Header.del_same]

theorem Pool.next_mem (nonempty : 0 < pool.keys.length) :
    (pool.next now).1 ∈ pool.keys := by
  have within : ∀ i, i < pool.keys.length → pool.keys.getD i [] ∈ pool.keys := by
    intro i inside
    rw [List.getD_eq_getElem?_getD, List.getElem?_eq_getElem inside]
    exact List.getElem_mem inside
  unfold Pool.next
  rw [if_neg (Nat.ne_of_gt nonempty)]
  refine within _ ?_
  cases found : ((List.range pool.keys.length).map
      (fun off => (pool.idx + off) % 2 ^ 64 % pool.keys.length)).find?
      (fun i => decide (pool.coolUntil.getD i 0 ≤ now)) with
  | none => exact Nat.mod_lt _ nonempty
  | some i =>
    obtain ⟨off, _, rfl⟩ := List.mem_map.mp (List.mem_of_find?_eq_some found)
    exact Nat.mod_lt _ nonempty

theorem nextAPIKey_mem (pool : state.keys.keys = node.cfg.apiKeys) (now : Int) :
    (nextAPIKey node state now).1 ∈ node.cfg.apiKeys ∨
      (node.cfg.apiKeys = [] ∧ (nextAPIKey node state now).1 = node.cfg.apiKey) := by
  unfold nextAPIKey
  split
  next nonempty => exact .inl (pool ▸ Pool.next_mem nonempty)
  next unpooled =>
    rw [pool] at unpooled
    exact .inr ⟨List.eq_nil_of_length_eq_zero (Nat.eq_zero_of_not_pos unpooled), rfl⟩

theorem nextAPIKey_ne_nil (pool : state.keys.keys = node.cfg.apiKeys) (now : Int)
    (keyed : ∃ key, node.cfg.HasKey key) (filled : [] ∉ node.cfg.apiKeys) :
    (nextAPIKey node state now).1 ≠ [] := by
  rcases nextAPIKey_mem pool now with member | ⟨single, given⟩
  · exact fun empty => filled (empty ▸ member)
  · obtain ⟨key, present, rfl | among⟩ := keyed
    · rwa [given]
    · rw [single] at among
      cases among

theorem Pool.next_of_due (inside : pool.idx < pool.keys.length)
    (small : pool.keys.length < 2 ^ 63) (due : pool.coolUntil.getD pool.idx 0 ≤ now) :
    (pool.next now).1 = pool.keys.getD pool.idx [] := by
  obtain ⟨n, length⟩ := Nat.exists_eq_succ_of_ne_zero (Nat.ne_of_gt (Nat.zero_lt_of_lt inside))
  have first : (pool.idx + 0) % 2 ^ 64 % pool.keys.length = pool.idx := by
    rw [Nat.add_zero, Nat.mod_eq_of_lt (by omega : pool.idx < 2 ^ 64), Nat.mod_eq_of_lt inside]
  have range : List.range pool.keys.length = 0 :: (List.range n).map Nat.succ := by
    rw [length, List.range_succ_eq_map]
  unfold Pool.next
  rw [if_neg (by omega)]
  dsimp only
  rw [range, List.map_cons, first, List.find?_cons, decide_eq_true due]
  rfl

inductive Pool.Reached (keys : List Bytes) (cooldown : Int) : Pool → Prop where
  | new : Reached keys cooldown (.new keys cooldown)
  | next {pool : Pool} (now : Int) :
      Reached keys cooldown pool → Reached keys cooldown (pool.next now).2.2
  | markExhausted {pool : Pool} (idx now : Int) :
      Reached keys cooldown pool → Reached keys cooldown (pool.markExhausted idx now)

theorem Pool.Reached.keys_eq {keys : List Bytes} {cooldown : Int}
    (reached : Pool.Reached keys cooldown pool) : pool.keys = keys := by
  induction reached with
  | new => rfl
  | next now _ ih =>
    unfold Pool.next
    dsimp only
    split
    next => exact ih
    next => exact ih
  | markExhausted idx now _ ih =>
    unfold Pool.markExhausted
    split
    next => exact ih
    next => exact ih

theorem Pool.reached_at {keys : List Bytes} {cooldown : Int} {i : Nat} (inside : i < keys.length)
    (small : keys.length < 2 ^ 63) :
    Pool.Reached keys cooldown ⟨keys, cooldown, i, List.replicate keys.length 0⟩ := by
  induction i with
  | zero => exact .new
  | succ i ih =>
    have later := Pool.Reached.next 0 (ih (Nat.lt_of_succ_lt inside))
    have counted : (i + 1) % 2 ^ 64 = i + 1 := Nat.mod_eq_of_lt (by omega)
    unfold Pool.next at later
    dsimp only at later
    rwa [if_neg (by omega), counted] at later

theorem exists_reached_key (member : key ∈ node.cfg.apiKeys)
    (small : node.cfg.apiKeys.length < 2 ^ 63) (cooldown : Int) :
    ∃ state : NodeState, Pool.Reached node.cfg.apiKeys cooldown state.keys ∧
      (nextAPIKey node state 0).1 = key := by
  obtain ⟨i, inside, rfl⟩ := List.getElem_of_mem member
  refine ⟨⟨true, .new 0 0, _⟩, Pool.reached_at inside small, ?_⟩
  unfold nextAPIKey
  rw [if_pos (List.length_pos_of_mem member)]
  dsimp only
  rw [Pool.next_of_due inside small]
  · rw [List.getD_eq_getElem?_getD, List.getElem?_eq_getElem inside]
    rfl
  · simp [List.getD_eq_getElem?_getD, inside]

/-! ## Nodes of a loaded configuration -/

theorem loadNode_eq_ok {raw node : NodeConfig} (loaded : loadNode outside raw = .ok node) :
    node = expandNode outside raw ∧ validateAuthHeader node = .ok () := by
  simp only [loadNode, bind_eq_ok, Unique.exists_iff] at loaded
  obtain ⟨_, checked, _, ⟨⟩⟩ := loaded
  exact ⟨rfl, checked⟩

theorem loadConfig_eq_ok (loaded : loadConfig outside raw = .ok cfg) :
    cfg.authToken = expandEnvValue outside raw.authToken ∧
      cfg.customerTokens = raw.customerTokens ∧
      raw.nodes.mapM (loadNode outside) = .ok cfg.nodes := by
  simp only [loadConfig, ite_eq_iff, reduceCtorEq, and_false, false_or, bind_eq_ok] at loaded
  obtain ⟨-, -, -, -, nodes, expanded, ⟨⟩⟩ := loaded
  exact ⟨rfl, rfl, expanded⟩

theorem mem_of_loadConfig (loaded : loadConfig outside raw = .ok cfg) {node : NodeConfig}
    (member : node ∈ cfg.nodes) :
    ∃ source ∈ raw.nodes, loadNode outside source = .ok node :=
  mem_of_mapM_eq_ok (loadConfig_eq_ok loaded).2.2 member

theorem loadConfig_nodes (loaded : loadConfig outside raw = .ok cfg) :
    cfg.nodes = raw.nodes.map (expandNode outside) :=
  eq_map_of_mapM_eq_ok (fun known => (loadNode_eq_ok known).1) (loadConfig_eq_ok loaded).2.2

theorem buildNodes_cfg {library : Library} {defaults : Defaults} {cfgs : List NodeConfig} {id : Nat}
    {heap after : Heap} {nodes : List UpstreamNode}
    (built : buildNodes library defaults cfgs id heap = .ok (nodes, after)) :
    nodes.map UpstreamNode.cfg =
      (cfgs.filter (fun cfg => nodeEnabled cfg.enabled)).map positiveWeight := by
  induction cfgs generalizing id heap nodes with
  | nil =>
    cases built
    rfl
  | cons cfg rest ih =>
    unfold buildNodes at built
    split at built
    next off =>
      rw [List.filter_cons_of_neg (by simp [off])]
      exact ih built
    next on =>
      rw [List.filter_cons_of_pos (by simpa using on), List.map_cons]
      split at built
      next => cases built
      next =>
        split at built
        next => cases built
        next =>
          dsimp only at built
          split at built
          next => cases built
          next =>
            split at built
            next => cases built
            next later =>
              cases built
              rw [List.map_cons, ih later]

theorem mem_of_buildNodes {library : Library} {defaults : Defaults} {cfgs : List NodeConfig}
    {id : Nat} {heap after : Heap} {nodes : List UpstreamNode}
    (built : buildNodes library defaults cfgs id heap = .ok (nodes, after))
    (member : node ∈ nodes) : ∃ cfg ∈ cfgs, node.cfg = positiveWeight cfg := by
  have among : node.cfg ∈ nodes.map UpstreamNode.cfg := List.mem_map_of_mem member
  rw [buildNodes_cfg built] at among
  obtain ⟨cfg, enabled, same⟩ := List.mem_map.mp among
  exact ⟨cfg, (List.mem_filter.mp enabled).1, same.symm⟩

/-! ## When the caller's token stays in the router -/

theorem validateAuthHeader_eq_ok {node : NodeConfig} (checked : validateAuthHeader node = .ok ())
    (named : node.authHeader ≠ []) :
    Bytes.equalFold node.authHeader (lit "Authorization") = false := by
  refine eq_false_of_ne_true fun folded => ?_
  rw [validateAuthHeader, if_neg named, if_pos folded] at checked
  cases checked

theorem keepsTokenBack_of_filled (keyed : ∃ key, node.cfg.HasKey key)
    (filled : node.cfg.authHeader ≠ [] ∨ [] ∉ node.cfg.apiKeys) : KeepsTokenBack node := by
  intro state now first second pool same
  have copied : SameButAuthorization (copyHeaders .empty first) (copyHeaders .empty second) :=
    fun name other => congrArg (Header.empty name ++ ·) (same name other)
  exact setUpstreamAuth_congr copied (filled.imp_right (nextAPIKey_ne_nil pool now keyed))

theorem filled_of_keepsTokenBack (small : node.cfg.apiKeys.length < 2 ^ 63)
    (kept : KeepsTokenBack node) : node.cfg.authHeader ≠ [] ∨ [] ∉ node.cfg.apiKeys := by
  rw [← not_and_or]
  rintro ⟨default, empty⟩
  obtain ⟨state, reached, noKey⟩ := exists_reached_key empty small 0
  have same : SameButAuthorization (Header.empty.set authorization (lit "caller")) .empty :=
    fun name other => Header.set_other other _ _
  have leaked := congrFun (kept state 0 _ _ reached.keys_eq same) authorization
  simp only [outboundHeader, default, noKey, setUpstreamAuth, if_true, copyHeaders] at leaked
  rw [Header.set_same] at leaked
  cases leaked

theorem outbound_authorization {inbound : Header} (checked : validateAuthHeader node.cfg = .ok ())
    (keyed : ∃ key, node.cfg.HasKey key)
    (filled : node.cfg.authHeader ≠ [] ∨ [] ∉ node.cfg.apiKeys)
    (pool : state.keys.keys = node.cfg.apiKeys) :
    outboundHeader node state now inbound authorization = [] ∨
      ∃ key, node.cfg.HasKey key ∧
        outboundHeader node state now inbound authorization = [lit "Bearer " ++ key] := by
  have replaced := filled.imp_right (nextAPIKey_ne_nil pool now keyed)
  rcases setUpstreamAuth_authorization (validateAuthHeader_eq_ok checked) replaced with
    unset | ⟨present, isSet⟩
  · exact .inl unset
  · have configured := (nextAPIKey_mem pool now).imp_right And.right
    exact .inr ⟨_, ⟨present, configured.symm⟩, isSet⟩

/-- The caller's token stays in the router at a node that has a key iff no entry of its
`api_keys` expands to nothing, or the node names a header of its own. -/
theorem caller_token_kept_back_iff (outside : Outside) (library : Library) (raw cfg : Config) (id : Nat)
    (heap after : Heap) (nodes : List UpstreamNode) (node : UpstreamNode)
    (loaded : loadConfig outside raw = .ok cfg)
    (built : buildReloadable library cfg id heap = .ok (nodes, after)) (member : node ∈ nodes)
    (keyed : ∃ key, node.cfg.HasKey key) :
    ∃ source ∈ raw.nodes, node.cfg = positiveWeight (expandNode outside source) ∧
      let filled := source.authHeader ≠ [] ∨
        ∀ entry ∈ source.apiKeys, expandEnvValue outside entry ≠ []
      (filled →
        KeepsTokenBack node ∧
        ∀ (state : NodeState) (now : Int) (inbound : Header),
          state.keys.keys = node.cfg.apiKeys →
          outboundHeader node state now inbound authorization = [] ∨
            ∃ key, node.cfg.HasKey key ∧
              outboundHeader node state now inbound authorization = [lit "Bearer " ++ key]) ∧
      -- the length of a slice is an int
      (source.apiKeys.length < 2 ^ 63 → KeepsTokenBack node → filled) := by
  obtain ⟨expanded, among, isNode⟩ := mem_of_buildNodes built member
  obtain ⟨source, inside, isExpanded⟩ := mem_of_loadConfig loaded among
  obtain ⟨rfl, checked⟩ := loadNode_eq_ok isExpanded
  have header : node.cfg.authHeader = source.authHeader := by
    rw [isNode]
    rfl
  have keys : node.cfg.apiKeys = source.apiKeys.map (expandEnvValue outside) := by
    rw [isNode]
    rfl
  have accepted : validateAuthHeader node.cfg = .ok () := by
    rw [isNode]
    exact checked
  have same : (source.authHeader ≠ [] ∨ ∀ entry ∈ source.apiKeys, expandEnvValue outside entry ≠ []) ↔
      node.cfg.authHeader ≠ [] ∨ [] ∉ node.cfg.apiKeys := by
    rw [header, keys]
    simp
  refine ⟨source, inside, isNode, fun filled => ?_, fun small kept => ?_⟩
  · rw [same] at filled
    exact ⟨keepsTokenBack_of_filled keyed filled,
      fun state now inbound pool => outbound_authorization accepted keyed filled pool⟩
  · rw [same]
    refine filled_of_keepsTokenBack ?_ kept
    rwa [keys, List.length_map]

def bareOutside : Outside := ⟨fun _ => none, fun _ => []⟩

theorem caller_token_kept_back_two_keys :
    ∃ cfg nodes after node,
      loadConfig bareOutside (clusterOf [cloudNode]) = .ok cfg ∧
      buildReloadable plainLibrary cfg 0 freshHeap = .ok (nodes, after) ∧ node ∈ nodes ∧
      (∃ key, node.cfg.HasKey key) ∧ KeepsTokenBack node := by
  have keyed : ∃ key, (positiveWeight (expandNode bareOutside cloudNode)).HasKey key :=
    ⟨lit "first", by decide, .inr (by decide)⟩
  refine ⟨_, _, _, _, rfl, rfl, List.mem_cons_self, keyed, ?_⟩
  obtain ⟨source, among, _, kept, _⟩ := caller_token_kept_back_iff bareOutside plainLibrary
    (clusterOf [cloudNode]) _ 0 freshHeap _ _ _ rfl rfl List.mem_cons_self keyed
  obtain rfl := List.mem_singleton.mp among
  exact (kept (.inr (by decide))).1

def unsetKeyNode : NodeConfig := { cloudNode with apiKeys := [lit "$\x7bUNSET\x7d", lit "second"] }

theorem caller_token_sent_for_unset_key :
    ∃ cfg nodes after node,
      loadConfig bareOutside (clusterOf [unsetKeyNode]) = .ok cfg ∧
      buildReloadable plainLibrary cfg 0 freshHeap = .ok (nodes, after) ∧ node ∈ nodes ∧
      node.cfg.HasKey (lit "second") ∧ (after node.id).keys.keys = node.cfg.apiKeys ∧
      outboundHeader node (after node.id) 0 (Header.empty.set authorization (lit "Bearer router"))
        authorization = [lit "Bearer router"] := by
  refine ⟨_, _, _, _, rfl, rfl, List.mem_cons_self, ⟨by decide, .inr (by decide)⟩, rfl, ?_⟩
  decide +kernel

end ClusterRouter.Router
