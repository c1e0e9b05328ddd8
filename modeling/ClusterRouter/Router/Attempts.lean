import ClusterRouter.Router.Relay

/-! One counter bounds the failovers to other nodes and the retries with another key. A loop
that ends without a servable response has tried as many nodes as it may, or every eligible one,
as long as no retry takes an attempt that an untried node needs. -/

set_option autoImplicit false

namespace ClusterRouter.Router

open Foundation

def LoopNote.triedNode : LoopNote → Option UpstreamNode
  | .tried _ node _ => some node
  | .exhausted _ _ _ | .checked _ _ | .scored _ => none

def attempted (notes : List LoopNote) : List UpstreamNode := notes.filterMap LoopNote.triedNode

def refusedKeys (notes : List LoopNote) (node : UpstreamNode) : List Int :=
  notes.filterMap fun
    | .exhausted _ other key => if other = node then some key else none
    | .tried _ _ _ | .checked _ _ | .scored _ => none

/-- As many distinct nodes as there are attempts have been tried, or at the last selection
every node of the snapshot that is eligible for the request had been. -/
def GaveUpLast (context : Context) (ask : Ask) (notes : List LoopNote) (trace : Trace) : Prop :=
  (∃ distinct : List UpstreamNode, distinct.Nodup ∧ distinct.length = maxFailoverAttempts ∧
      ∀ node ∈ distinct, node ∈ attempted notes) ∨
    ∃ record, trace.selections.getLast? = some record ∧
      ∀ node ∈ context.snap.nodes, Eligible ask [] record.clock record.heap node →
        node ∈ attempted notes

/-- A request is sent to a node again only with a key other than the one refused before. -/
def RetriesOtherKey (notes : List LoopNote) : Prop :=
  ∀ first second node firstKey key, .tried first node firstKey ∈ notes →
    .tried second node (some key) ∈ notes → first < second →
    0 ≤ key ∧ ∃ refused, .exhausted first node refused ∈ notes ∧ refused ≠ key

/-! ## The condition -/

def serves (ask : Ask) (node : UpstreamNode) : Bool :=
  node.allowsClass ask.workload && (!ask.personal || node.cfg.piiLocal) &&
    decide (Bytes.trimSpace ask.tier = [] ∨ node.cfg.tier = Bytes.trimSpace ask.tier) &&
    decide (ask.model = [] ∨ supportsModel node.cfg.models ask.model = true)

def untried (ask : Ask) (nodes : List UpstreamNode) (tried : List Bytes) : List UpstreamNode :=
  nodes.filter (fun node => serves ask node && decide (node.cfg.name ∉ tried))

def Pool.searched (pool : Pool) : List Nat :=
  (List.range pool.keys.length).map (fun off => (pool.idx + off) % 2 ^ 64 % pool.keys.length)

def Pool.healthy (pool : Pool) (now : Int) (i : Nat) : Bool := decide (pool.coolUntil.getD i 0 ≤ now)

def Selection.gives (node : UpstreamNode) : Selection → Bool
  | .chosen next => decide (next.cfg.name = node.cfg.name)
  | .noNode | .crashed => false

/-- A retry with another key leaves attempts for all nodes not yet tried, and when it is
sent the refused keys still cool and a key that `Next` looks at does not. -/
def sparesInLoop (context : Context) (ask : Ask) (loop : Loop) (shared : Shared)
    (notes : List LoopNote) (action : Action) : Bool :=
  match action, loop.candidate with
  | .reselect clock, some node =>
    !(shared.select context.snap.nodes ask (loop.without node) clock).1.selection.gives node ||
      decide ((untried ask context.snap.nodes loop.tried).length + loop.attemptIdx + 2 ≤
        maxFailoverAttempts)
  | .send _ now, some node =>
    let pool := (shared.heap node.id).keys
    decide (node.cfg.name ∉ loop.tried) ||
      (pool.searched.any (pool.healthy now) &&
        (refusedKeys notes node).all (fun key => !pool.healthy now key.toNat))
  | _, _ => true

/-- The nodes of the request's snapshot have distinct names, and retries spare attempts. -/
def sparesAttempts (recorded : World × List LoopNote) (action : Action) : Bool :=
  match recorded.1.phase, action with
  | .arrived, .snapshot _ => decide (recorded.1.nodes.map (fun node => node.cfg.name)).Nodup
  | .looping context ask loop, action =>
    sparesInLoop context ask loop recorded.1.shared recorded.2 action
  | _, _ => true

/-! ## Selections and keys -/

variable {ask : Ask} {node : UpstreamNode} {context : Context} {notes : List LoopNote}
    {library : Library} {action : Action} {phase : Phase} {trace : Trace} {world next : World}

theorem Eligible.serves {excluded : List Bytes} {clock : Nat → Int} {heap : Heap}
    (eligible : Eligible ask excluded clock heap node) :
    Router.serves ask node = true := by
  have piiLocal : (!ask.personal || node.cfg.piiLocal) = true := by
    cases personal : ask.personal with
    | false => rfl
    | true => exact eligible.piiLocal personal
  simp only [Router.serves, eligible.allowsClass, piiLocal, eligible.tier, eligible.model,
    decide_true, Bool.and_self]

theorem Eligible.unexcluded {excluded : List Bytes} {clock : Nat → Int} {heap : Heap}
    (eligible : Eligible ask [] clock heap node) (outside : node.cfg.name ∉ excluded) :
    Eligible ask excluded clock heap node :=
  { eligible with notExcluded := outside }

theorem Pool.next_healthy {pool : Pool} {now : Int}
    (found : pool.searched.any (pool.healthy now) = true) :
    ∃ i : Nat, (pool.next now).2.1 = i ∧ pool.healthy now i = true := by
  obtain ⟨i, isFirst⟩ : ∃ i, pool.searched.find? (pool.healthy now) = some i := by
    rw [← Option.isSome_iff_exists, List.find?_isSome]
    simpa using found
  have nonempty : pool.keys.length ≠ 0 := by
    intro empty
    simp [Pool.searched, empty] at isFirst
  refine ⟨i, ?_, List.find?_some isFirst⟩
  unfold Pool.next
  rw [if_neg nonempty]
  exact congrArg (fun found => ((Option.getD found (pool.idx % pool.keys.length) : Nat) : Int)) isFirst

theorem length_untried_lt {nodes : List UpstreamNode} {tried : List Bytes} (member : node ∈ nodes)
    (served : serves ask node = true) (fresh : node.cfg.name ∉ tried) :
    (untried ask nodes (node.cfg.name :: tried)).length < (untried ask nodes tried).length := by
  have filtered : untried ask nodes (node.cfg.name :: tried) =
      (untried ask nodes tried).filter (fun other => decide (other.cfg.name ≠ node.cfg.name)) := by
    unfold untried
    rw [List.filter_filter]
    refine List.filter_congr fun other _ => ?_
    simp only [List.mem_cons, not_or]
    cases serves ask other <;> simp
  rw [filtered, List.length_filter_lt_length_iff_exists]
  exact ⟨node, by simp [untried, member, served, fresh], by simp⟩

theorem untried_congr {nodes : List UpstreamNode} {tried after : List Bytes}
    (same : ∀ name, name ∈ after ↔ name ∈ tried) :
    untried ask nodes after = untried ask nodes tried := by
  unfold untried
  simp only [same]

/-! ## The attempts of a loop -/

def Loop.made (loop : Loop) : Nat := loop.attemptIdx + if loop.stage = .top then 0 else 1

theorem Loop.made_of_top {loop : Loop} (top : loop.stage = .top) : loop.made = loop.attemptIdx := by
  simp [made, top]

def Refused (notes : List LoopNote) (node : UpstreamNode) (below : Nat) : Prop :=
  ∀ attempt key, .tried attempt node key ∈ notes → attempt < below →
    ∃ refused, .exhausted attempt node refused ∈ notes

/-- A selection of this request is the last one, and without a candidate it found every
eligible node tried. -/
def SelectedLast (context : Context) (ask : Ask) (loop : Loop) (trace : Trace) : Prop :=
  ∃ record, trace.selections.getLast? = some record ∧
    (loop.candidate = none → ∀ node ∈ context.snap.nodes,
      Eligible ask [] record.clock record.heap node → node.cfg.name ∈ loop.tried)

def AttemptStanding (context : Context) (ask : Ask) (loop : Loop) (trace : Trace)
    (notes : List LoopNote) : Prop :=
  match loop.stage with
  | .top =>
    (∀ node, loop.candidate = some node → Refused notes node loop.attemptIdx ∧
      (node.cfg.name ∈ loop.tried →
        (untried ask context.snap.nodes loop.tried).length + loop.attemptIdx + 1 ≤
          maxFailoverAttempts)) ∧
      SelectedLast context ask loop trace
  | .sent _ _ | .answered _ _ =>
    ∀ node, loop.candidate = some node →
      node.cfg.name ∈ loop.tried ∧ Refused notes node loop.attemptIdx
  | .cooling _ | .retrying _ =>
    ∀ node, loop.candidate = some node →
      node.cfg.name ∈ loop.tried ∧ Refused notes node (loop.attemptIdx + 1)
  | .failed | .refused _ | .choosing | .left | .crashed => True

structure AttemptLedger (context : Context) (ask : Ask) (loop : Loop) (trace : Trace)
    (notes : List LoopNote) : Prop where
  distinct : (context.snap.nodes.map (fun node => node.cfg.name)).Nodup
  candidate : ∀ node, loop.candidate = some node →
    node ∈ context.snap.nodes ∧ serves ask node = true
  known : ∀ node ∈ attempted notes, node ∈ context.snap.nodes
  tried : ∀ name, name ∈ loop.tried ↔ ∃ node ∈ attempted notes, node.cfg.name = name
  bounded : ∀ attempt node key, .tried attempt node key ∈ notes → attempt < loop.made
  count : (attempted notes).length = loop.made
  spare : (attempted notes).Nodup ∨
    (untried ask context.snap.nodes loop.tried).length + loop.made ≤ maxFailoverAttempts
  others : RetriesOtherKey notes
  standing : AttemptStanding context ask loop trace notes

section

variable {context : Context} {ask : Ask} {loop after : Loop} {trace traceAfter : Trace}
  {notes extra : List LoopNote}

theorem attempted_append : attempted (notes ++ extra) = attempted notes ++ attempted extra :=
  List.filterMap_append

theorem mem_attempted {node : UpstreamNode} :
    node ∈ attempted notes ↔ ∃ attempt key, .tried attempt node key ∈ notes := by
  unfold attempted
  rw [List.mem_filterMap]
  constructor
  · rintro ⟨note, member, is⟩
    cases note with
    | tried attempt other key =>
      cases is
      exact ⟨attempt, key, member⟩
    | exhausted | checked | scored => cases is
  · rintro ⟨attempt, key, member⟩
    exact ⟨_, member, rfl⟩

theorem tried_of_quiet {attempt : Nat} {node : UpstreamNode} {key : Option Int}
    (quiet : attempted extra = []) (member : .tried attempt node key ∈ notes ++ extra) :
    .tried attempt node key ∈ notes := by
  rcases List.mem_append.mp member with old | new
  · exact old
  · have among : node ∈ attempted extra := mem_attempted.mpr ⟨attempt, key, new⟩
    rw [quiet] at among
    cases among

theorem Refused.mono {node : UpstreamNode} {below : Nat} (refused : Refused notes node below)
    (quiet : attempted extra = []) : Refused (notes ++ extra) node below := by
  intro attempt key member lower
  obtain ⟨key, exhausted⟩ := refused attempt key (tried_of_quiet quiet member) lower
  exact ⟨key, List.mem_append_left _ exhausted⟩

theorem AttemptLedger.keep (ledger : AttemptLedger context ask loop trace notes)
    (quiet : attempted extra = [])
    (candidate : ∀ node, after.candidate = some node →
      node ∈ context.snap.nodes ∧ serves ask node = true)
    (tried : ∀ name, name ∈ after.tried ↔ name ∈ loop.tried) (made : after.made = loop.made)
    (standing : AttemptStanding context ask after traceAfter (notes ++ extra)) :
    AttemptLedger context ask after traceAfter (notes ++ extra) := by
  have same : attempted (notes ++ extra) = attempted notes := by
    rw [attempted_append, quiet, List.append_nil]
  refine ⟨ledger.distinct, candidate, same ▸ ledger.known, fun name => ?_, ?_, ?_, ?_, ?_, standing⟩
  · rw [tried, ledger.tried, same]
  · intro attempt node key member
    rw [made]
    exact ledger.bounded attempt node key (tried_of_quiet quiet member)
  · rw [same, made]
    exact ledger.count
  · rw [same, made, untried_congr tried]
    exact ledger.spare
  · intro first second node firstKey key isFirst isSecond earlier
    obtain ⟨pooled, refused, exhausted, different⟩ := ledger.others first second node firstKey key
      (tried_of_quiet quiet isFirst) (tried_of_quiet quiet isSecond) earlier
    exact ⟨pooled, refused, List.mem_append_left _ exhausted, different⟩

theorem mem_refusedKeys {node : UpstreamNode} {attempt : Nat} {key : Int}
    (exhausted : .exhausted attempt node key ∈ notes) : key ∈ refusedKeys notes node := by
  unfold refusedKeys
  rw [List.mem_filterMap]
  exact ⟨_, exhausted, by simp⟩

section

variable {node : UpstreamNode} {key : Option Int} {stage : Stage}

theorem RetriesOtherKey.send (others : RetriesOtherKey notes) {current : Nat}
    (bounded : ∀ attempt node key, .tried attempt node key ∈ notes → attempt < current)
    (refused : Refused notes node current)
    (other : node ∈ attempted notes → ∀ presented, key = some presented →
      0 ≤ presented ∧ ∀ refused ∈ refusedKeys notes node, refused ≠ presented) :
    RetriesOtherKey (notes ++ [.tried current node key]) := by
  intro first second target firstKey presented isFirst isSecond earlier
  rcases List.mem_append.mp isFirst with oldFirst | newFirst
  · rcases List.mem_append.mp isSecond with oldSecond | newSecond
    · obtain ⟨pooled, refused, exhausted, different⟩ :=
        others first second target firstKey presented oldFirst oldSecond earlier
      exact ⟨pooled, refused, List.mem_append_left _ exhausted, different⟩
    · simp only [List.mem_singleton, LoopNote.tried.injEq] at newSecond
      obtain ⟨rfl, rfl, isKey⟩ := newSecond
      obtain ⟨pooled, different⟩ := other (mem_attempted.mpr ⟨first, firstKey, oldFirst⟩)
        presented isKey.symm
      obtain ⟨refusedKey, exhausted⟩ := refused first firstKey oldFirst earlier
      exact ⟨pooled, refusedKey, List.mem_append_left _ exhausted,
        different refusedKey (mem_refusedKeys exhausted)⟩
  · simp only [List.mem_singleton, LoopNote.tried.injEq] at newFirst
    obtain ⟨rfl, _, _⟩ := newFirst
    rcases List.mem_append.mp isSecond with oldSecond | newSecond
    · exact absurd (bounded second target _ oldSecond) (Nat.lt_asymm earlier)
    · simp only [List.mem_singleton, LoopNote.tried.injEq] at newSecond
      exact absurd newSecond.1.symm (Nat.ne_of_lt earlier)

/-- A retry uses an attempt that was left for it; another node is one fewer to try. -/
theorem AttemptLedger.spare_send (ledger : AttemptLedger context ask loop trace notes)
    (top : loop.stage = .top) (candidate : loop.candidate = some node) :
    (attempted notes ++ [node]).Nodup ∨
      (untried ask context.snap.nodes (node.cfg.name :: loop.tried)).length + (loop.attemptIdx + 1) ≤
        maxFailoverAttempts := by
  have standing := ledger.standing
  simp only [AttemptStanding, top] at standing
  have made := Loop.made_of_top top
  by_cases again : node.cfg.name ∈ loop.tried
  · right
    have same (name : Bytes) : name ∈ node.cfg.name :: loop.tried ↔ name ∈ loop.tried :=
      List.mem_cons.trans (or_iff_right_of_imp fun is => is ▸ again)
    rw [untried_congr same]
    have spared := (standing.1 node candidate).2 again
    omega
  · obtain ⟨member, served⟩ := ledger.candidate node candidate
    rcases ledger.spare with distinct | spared
    · left
      have fresh : node ∉ attempted notes := fun among =>
        again ((ledger.tried _).mpr ⟨node, among, rfl⟩)
      exact List.concat_eq_append ▸ distinct.concat fresh
    · right
      have fewer := length_untried_lt member served again
      omega

theorem AttemptLedger.send (ledger : AttemptLedger context ask loop trace notes)
    (top : loop.stage = .top) (candidate : loop.candidate = some node)
    (begun : stage = .failed ∨ ∃ used, stage = .sent used false)
    (other : node.cfg.name ∈ loop.tried → ∀ presented, key = some presented →
      0 ≤ presented ∧ ∀ refused ∈ refusedKeys notes node, refused ≠ presented) :
    AttemptLedger context ask { loop with tried := node.cfg.name :: loop.tried, stage } traceAfter
      (notes ++ [.tried loop.attemptIdx node key]) := by
  have standing := ledger.standing
  simp only [AttemptStanding, top] at standing
  have madeBefore := Loop.made_of_top top
  have notTop : stage ≠ .top := by
    rcases begun with rfl | ⟨_, rfl⟩
    · simp
    · simp
  have made : Loop.made { loop with tried := node.cfg.name :: loop.tried, stage } =
      loop.attemptIdx + 1 := by
    simp [Loop.made, notTop]
  have nodes : attempted (notes ++ [.tried loop.attemptIdx node key]) = attempted notes ++ [node] := by
    rw [attempted_append]
    rfl
  refine ⟨ledger.distinct, ledger.candidate, ?_, fun name => ?_, ?_, ?_, ?_, ?_, ?_⟩
  · intro tried member
    rw [nodes, List.mem_append, List.mem_singleton] at member
    rcases member with old | rfl
    · exact ledger.known tried old
    · exact (ledger.candidate tried candidate).1
  · simp only [nodes, List.mem_append, List.mem_cons, List.not_mem_nil, or_false, ledger.tried]
    constructor
    · rintro (rfl | ⟨tried, among, rfl⟩)
      · exact ⟨node, .inr rfl, rfl⟩
      · exact ⟨tried, .inl among, rfl⟩
    · rintro ⟨tried, among | rfl, rfl⟩
      · exact .inr ⟨tried, among, rfl⟩
      · exact .inl rfl
  · intro attempt tried presented member
    rw [made]
    rcases List.mem_append.mp member with old | new
    · exact Nat.lt_succ_of_lt (madeBefore ▸ ledger.bounded attempt tried presented old)
    · simp only [List.mem_singleton, LoopNote.tried.injEq] at new
      rw [new.1]
      exact Nat.lt_succ_self _
  · rw [nodes, made, List.length_append, ledger.count, madeBefore]
    rfl
  · rw [nodes, made]
    exact ledger.spare_send top candidate
  · refine ledger.others.send (madeBefore ▸ ledger.bounded) (standing.1 node candidate).1 ?_
    intro among
    exact other ((ledger.tried _).mpr ⟨node, among, rfl⟩)
  · unfold AttemptStanding
    rcases begun with rfl | ⟨used, rfl⟩
    · trivial
    · intro target isTarget
      cases isTarget.symm.trans candidate
      refine ⟨List.mem_cons_self, fun attempt presented member lower => ?_⟩
      rcases List.mem_append.mp member with old | new
      · obtain ⟨refused, exhausted⟩ := (standing.1 node isTarget).1 attempt presented old lower
        exact ⟨refused, List.mem_append_left _ exhausted⟩
      · simp only [List.mem_singleton, LoopNote.tried.injEq] at new
        exact absurd new.1 (Nat.ne_of_lt lower)

end

theorem AttemptLedger.mark {node : UpstreamNode} {response : Response} {used : Int}
    (ledger : AttemptLedger context ask loop trace notes)
    (answered : loop.stage = .answered response used) (candidate : loop.candidate = some node) :
    AttemptLedger context ask { loop with stage := .cooling response } traceAfter
      (notes ++ [.exhausted loop.attemptIdx node used]) := by
  have standing := ledger.standing
  simp only [AttemptStanding, answered] at standing
  refine ledger.keep rfl ledger.candidate (fun _ => Iff.rfl) (by simp [Loop.made, answered]) ?_
  intro target isTarget
  cases isTarget.symm.trans candidate
  obtain ⟨tried, refused⟩ := standing node candidate
  refine ⟨tried, fun attempt key member lower => ?_⟩
  by_cases current : attempt = loop.attemptIdx
  · subst current
    exact ⟨used, List.mem_append_right _ (List.mem_singleton_self _)⟩
  · exact refused.mono rfl attempt key member
      (Nat.lt_of_le_of_ne (Nat.le_of_lt_succ lower) current)

end

theorem presents_other_key {loop : Loop} {shared : Shared} {buildable : Bool} {now : Int}
    (candidate : loop.candidate = some node)
    (spares : sparesInLoop context ask loop shared notes (.send buildable now) = true)
    (again : node.cfg.name ∈ loop.tried) (presented : Int)
    (is : (if buildable then some ((shared.heap node.id).keys.next now).2.1 else none) = some presented) :
    0 ≤ presented ∧ ∀ refused ∈ refusedKeys notes node, refused ≠ presented := by
  simp only [sparesInLoop, candidate, again, not_true_eq_false, decide_false, Bool.false_or,
    Bool.and_eq_true, List.all_eq_true, Bool.not_eq_true'] at spares
  obtain ⟨found, cool⟩ := spares
  have built : buildable = true := by
    cases buildable with
    | true => rfl
    | false => cases is
  rw [if_pos built] at is
  cases is
  obtain ⟨i, isKey, healthy⟩ := Pool.next_healthy found
  rw [isKey]
  refine ⟨Int.natCast_nonneg i, fun refused member same => ?_⟩
  have cools := cool refused member
  rw [same, Int.toNat_natCast, healthy] at cools
  cases cools

section

variable {context : Context} {ask : Ask} {loop : Loop} {trace : Trace} {shared : Shared}
  {notes : List LoopNote} {clock : Nat → Int}

theorem AttemptLedger.again {node next : UpstreamNode} {response : Response}
    (ledger : AttemptLedger context ask loop trace notes) (stage : loop.stage = .retrying response)
    (candidate : loop.candidate = some node)
    (chosen : (shared.select context.snap.nodes ask (loop.without node) clock).1.selection =
      .chosen next)
    (same : next.cfg.name = node.cfg.name)
    (spares : sparesInLoop context ask loop shared notes (.reselect clock) = true) :
    AttemptLedger context ask
      { loop with
        tried := node.cfg.name :: loop.without node
        candidate := some next, attemptIdx := loop.attemptIdx + 1, stage := .top }
      { trace with selections := trace.selections ++
          [(shared.select context.snap.nodes ask (loop.without node) clock).1] } notes := by
  have standing := ledger.standing
  simp only [AttemptStanding, stage] at standing
  obtain ⟨tried, refused⟩ := standing node candidate
  obtain ⟨⟨member, eligible⟩, _⟩ := of_chosen chosen
  -- distinct names make the node that is let in again the only one of its name
  have isNode : next = node :=
    List.inj_on_of_nodup_map ledger.distinct member (ledger.candidate node candidate).1 same
  subst isNode
  have spared : (untried ask context.snap.nodes loop.tried).length + loop.attemptIdx + 2 ≤
      maxFailoverAttempts := by
    simpa only [sparesInLoop, candidate, chosen, Selection.gives, decide_true, Bool.not_true,
      Bool.false_or, decide_eq_true_eq] using spares
  rw [← List.append_nil notes]
  refine ledger.keep rfl ?_ (Loop.mem_without tried) (by simp [Loop.made, stage]) ⟨?_, ?_⟩
  · intro target isTarget
    cases isTarget
    exact ⟨member, eligible.serves⟩
  · intro target isTarget
    cases isTarget
    have sameUntried : untried ask context.snap.nodes (next.cfg.name :: loop.without next) =
        untried ask context.snap.nodes loop.tried := untried_congr (Loop.mem_without tried)
    refine ⟨by simpa using refused, fun _ => ?_⟩
    dsimp only
    rw [sameUntried]
    omega
  · exact ⟨_, List.getLast?_concat, fun gone => by cases gone⟩

theorem AttemptLedger.choose {candidate : Option UpstreamNode}
    (ledger : AttemptLedger context ask loop trace notes) (stage : loop.stage = .choosing)
    (chosen : (shared.select context.snap.nodes ask loop.tried clock).1.selection =
      candidate.elim .noNode Selection.chosen) :
    AttemptLedger context ask
      { loop with candidate, attemptIdx := loop.attemptIdx + 1, stage := .top }
      { trace with selections := trace.selections ++
          [(shared.select context.snap.nodes ask loop.tried clock).1] } notes := by
  rw [← List.append_nil notes]
  refine ledger.keep rfl ?_ (fun _ => Iff.rfl) (by simp [Loop.made, stage]) ⟨?_, ?_⟩
  · intro node isNode
    cases isNode
    obtain ⟨⟨member, eligible⟩, _⟩ := of_chosen chosen
    exact ⟨member, eligible.serves⟩
  · intro node isNode
    cases isNode
    obtain ⟨⟨_, eligible⟩, _⟩ := of_chosen chosen
    refine ⟨fun attempt key member _ => ?_, fun tried => absurd tried eligible.notExcluded⟩
    rw [List.append_nil] at member
    exact absurd ((ledger.tried _).mpr ⟨node, mem_attempted.mpr ⟨attempt, key, member⟩, rfl⟩)
      eligible.notExcluded
  · refine ⟨_, List.getLast?_concat, fun gone node member eligible => ?_⟩
    cases gone
    refine Classical.byContradiction fun outside => ?_
    exact noNode_iff.mp chosen node member (eligible.unexcluded outside)

end

theorem AttemptLedger.move {before after : Progress}
    (move : LoopMove library context ask before action after)
    (spares : sparesInLoop context ask before.loop before.shared notes action = true)
    (ledger : AttemptLedger context ask before.loop before.trace notes) :
    AttemptLedger context ask after.loop after.trace
      (notes ++ loopNotes library before.loop before.shared.heap action) := by
  have standing := ledger.standing
  cases move with
  | unbuildable stage candidate =>
    rw [loopNotes_send candidate]
    exact ledger.send stage candidate (.inl rfl) (presents_other_key candidate spares)
  | send stage candidate =>
    rw [loopNotes_send candidate]
    exact ledger.send stage candidate (.inr ⟨_, rfl⟩) (presents_other_key candidate spares)
  | response stage | resend stage =>
    simp only [AttemptStanding, stage] at standing
    refine ledger.keep rfl ledger.candidate (fun _ => Iff.rfl) (by simp [Loop.made, stage]) ?_
    simp only [loopNotes, List.append_nil]
    exact standing
  | lost stage | fail stage | score stage | crashAgain stage | crashNext stage =>
    exact ledger.keep rfl ledger.candidate (fun _ => Iff.rfl) (by simp [Loop.made, stage]) trivial
  | cool stage candidate quota =>
    rw [loopNotes_judge stage candidate, if_pos quota]
    exact ledger.mark stage candidate
  | refuse stage candidate failover other =>
    rw [loopNotes_judge stage candidate, if_neg (by simp [other])]
    exact ledger.keep rfl ledger.candidate (fun _ => Iff.rfl) (by simp [Loop.made, stage]) trivial
  | serve stage candidate servable =>
    rw [loopNotes_judge stage candidate, if_neg (by simp [quotaAnswer, servable])]
    exact ledger.keep rfl ledger.candidate (fun _ => Iff.rfl) (by simp [Loop.made, stage]) trivial
  | allCooling stage candidate cooling =>
    rw [loopNotes_checkKeys candidate]
    exact ledger.keep rfl ledger.candidate (fun _ => Iff.rfl) (by simp [Loop.made, stage]) trivial
  | hold stage candidate cooling =>
    simp only [AttemptStanding, stage] at standing
    rw [loopNotes_checkKeys candidate]
    refine ledger.keep rfl ledger.candidate (fun _ => Iff.rfl) (by simp [Loop.made, stage]) ?_
    intro node isNode
    obtain ⟨tried, refused⟩ := standing node isNode
    exact ⟨tried, refused.mono rfl⟩
  | again stage candidate made chosen same =>
    subst made
    simp only [loopNotes, List.append_nil]
    exact ledger.again stage candidate chosen same spares
  | displace stage candidate =>
    simp only [AttemptStanding, stage] at standing
    have tried := (standing _ candidate).1
    exact ledger.keep rfl ledger.candidate (Loop.mem_without tried) (by simp [Loop.made, stage]) trivial
  | choose stage made selection =>
    subst made
    simp only [loopNotes, List.append_nil]
    exact ledger.choose stage selection

/-! ## Whole requests -/

def DistinctNames (snap : Snap) : Prop := (snap.nodes.map (fun node => node.cfg.name)).Nodup

def Phase.AttemptsKept (phase : Phase) (trace : Trace) (notes : List LoopNote) : Prop :=
  match phase with
  | .arrived => notes = []
  | .reading snap => notes = [] ∧ DistinctNames snap
  | .read context | .classified context _ => notes = [] ∧ DistinctNames context.snap
  | .queued context ask node =>
    notes = [] ∧ DistinctNames context.snap ∧ node ∈ context.snap.nodes ∧ serves ask node = true ∧
      ∃ record, trace.selections.getLast? = some record
  | .looping context ask loop => AttemptLedger context ask loop trace notes
  | .relaying _ | .returned _ => RetriesOtherKey notes

theorem Phase.AttemptsKept.empty (kept : phase.AttemptsKept trace notes) (early : phase.Early) :
    notes = [] := by
  cases phase with
  | arrived => exact kept
  | reading | read | classified | queued => exact kept.1
  | looping | relaying | returned => exact early.elim

theorem retriesOtherKey_nil : RetriesOtherKey [] := by
  intro _ _ _ _ _ member
  cases member

theorem Phase.AttemptsKept.others (kept : phase.AttemptsKept trace notes) :
    RetriesOtherKey notes := by
  cases phase with
  | arrived =>
    rw [show notes = [] from kept]
    exact retriesOtherKey_nil
  | reading | read | classified | queued =>
    rw [kept.1]
    exact retriesOtherKey_nil
  | looping => exact AttemptLedger.others kept
  | relaying | returned => exact kept

theorem Phase.AttemptsKept.of_late (late : phase.Late) (others : RetriesOtherKey notes) :
    phase.AttemptsKept trace notes := by
  cases phase with
  | relaying | returned => exact others
  | arrived | reading | read | classified | queued | looping => exact late.elim

theorem Loop.start_ledger (distinct : DistinctNames context.snap)
    (member : node ∈ context.snap.nodes) (served : serves ask node = true)
    (selected : ∃ record, trace.selections.getLast? = some record) :
    AttemptLedger context ask (.start node) trace [] := by
  refine ⟨distinct, ?_, by simp [attempted], by simp [attempted, Loop.start], by simp,
    by simp [attempted, Loop.made, Loop.start], .inl (by simp [attempted]),
    retriesOtherKey_nil, ?_⟩
  · intro target isTarget
    cases isTarget
    exact ⟨member, served⟩
  · refine ⟨fun target isTarget => ⟨?_, ?_⟩, ?_⟩
    · intro _ _ member
      cases member
    · intro tried
      cases tried
    · obtain ⟨record, last⟩ := selected
      exact ⟨record, last, fun gone => by cases gone⟩

theorem Phase.AttemptsKept.early_move
    (move : WorldMove library world action next) (early : world.phase.Early)
    (spares : sparesAttempts (world, []) action = true)
    (kept : world.phase.AttemptsKept world.trace []) : next.phase.AttemptsKept next.trace [] := by
  cases move with
  | environment outside request phase trace grows flag =>
    rw [phase, trace]
    exact kept
  | refuse | unrouted => exact retriesOtherKey_nil
  | snapshot phase =>
    simp only [sparesAttempts, phase, decide_eq_true_eq] at spares
    exact ⟨rfl, spares⟩
  | readBody phase | classify phase =>
    rw [phase] at kept
    exact kept
  | route forms made chosen =>
    rw [forms.phase] at kept
    subst made
    obtain ⟨⟨member, eligible⟩, _⟩ := of_chosen chosen
    exact ⟨rfl, kept.2, member, eligible.serves, _, List.getLast?_concat⟩
  | acquire phase =>
    rw [phase] at kept
    obtain ⟨_, distinct, member, served, selected⟩ := kept
    exact Loop.start_ledger distinct member served selected
  | loop phase | leaveOk phase | leaveHeld phase | leaveNone phase | leaveCrashed phase
  | finish phase =>
    rw [phase] at early
    exact early.elim

theorem Phase.AttemptsKept.step (stepped : world.step library action = some next)
    (spares : sparesAttempts (world, notes) action = true)
    (kept : world.phase.AttemptsKept world.trace notes) :
    next.phase.AttemptsKept next.trace (notes ++ historyNotes library world action) := by
  cases World.step_cases stepped with
  | environment outside phase trace =>
    rw [phase, trace, historyNotes_of_not_inLoop outside, List.append_nil]
    exact kept
  | early outside early move =>
    cases kept.empty early
    rw [historyNotes_of_not_inLoop outside]
    exact early_move move early spares kept
  | @perform context ask loop progress phase move is =>
    subst is
    rw [phase] at kept
    simp only [sparesAttempts, phase] at spares
    simp only [historyNotes, phase]
    exact AttemptLedger.move move spares kept
  | leave outside _ _ late _ | finish outside _ late _ =>
    rw [historyNotes_of_not_inLoop outside, List.append_nil]
    exact of_late late kept.others

theorem AttemptLedger.gaveUpLast {loop : Loop}
    (ledger : AttemptLedger context ask loop trace notes) (top : loop.stage = .top)
    (ended : Progress.ended loop = true) : GaveUpLast context ask notes trace := by
  have standing := ledger.standing
  simp only [AttemptStanding, top] at standing
  obtain ⟨_, record, last, exhausted⟩ := standing
  have made := Loop.made_of_top top
  have mem_of_tried : ∀ node ∈ context.snap.nodes, node.cfg.name ∈ loop.tried →
      node ∈ attempted notes := by
    intro node member tried
    obtain ⟨other, among, same⟩ := (ledger.tried _).mp tried
    exact List.inj_on_of_nodup_map ledger.distinct (ledger.known other among) member same ▸ among
  simp only [Progress.ended, top, Bool.or_eq_true, Option.isNone_iff_eq_none, decide_eq_true_eq] at ended
  by_cases gone : loop.candidate = none
  · right
    refine ⟨record, last, fun node member eligible => ?_⟩
    exact mem_of_tried node member (exhausted gone node member eligible)
  · have used := ended.resolve_left gone
    rcases ledger.spare with distinct | spared
    · left
      refine ⟨(attempted notes).take maxFailoverAttempts, distinct.sublist (List.take_sublist _ _), ?_,
        fun node member => List.mem_of_mem_take member⟩
      rw [List.length_take, ledger.count, made]
      exact Nat.min_eq_left used
    · right
      refine ⟨record, last, fun node member eligible => ?_⟩
      have none_left : untried ask context.snap.nodes loop.tried = [] :=
        List.length_eq_zero_iff.mp (by omega)
      refine mem_of_tried node member (Classical.byContradiction fun fresh => ?_)
      have isUntried : node ∈ untried ask context.snap.nodes loop.tried := by
        simp [untried, member, eligible.serves, fresh]
      rw [none_left] at isUntried
      cases isUntried

/-- While retries spare attempts and refused keys cool, a loop that ends without a
servable response has tried as many nodes as it may or every eligible one, and no node has
been tried again but with another key. -/
theorem eligible_nodes_attempted (library : Library) (cfg : Config) (heap : Heap)
    (request : Request) {world final : World} {trace : List Action} {notes : List LoopNote}
    (started : newRouter library cfg heap request = .ok world)
    (ran : (recorder library).run (world, []) trace = some (final, notes))
    (spares : (recorder library).Meets
      (fun recorded action => sparesAttempts recorded action = true) (world, []) trace) :
    (∀ context ask loop, final.phase = .looping context ask loop → Progress.ended loop = true →
      loop.okResp = none → GaveUpLast context ask notes final.trace) ∧ RetriesOtherKey notes := by
  obtain ⟨arrived, _⟩ := newRouter_arrived started
  have kept : final.phase.AttemptsKept final.trace notes := by
    refine (recorder library).run_invariant_of_meets
      (fun recorded => recorded.1.phase.AttemptsKept recorded.1.trace recorded.2) ?_ spares ran ?_
    · rintro ⟨world, notes⟩ action ⟨next, after⟩ spared stepped kept
      obtain ⟨moved, rfl⟩ := (machine library).recording_step_eq_some _ |>.mp stepped
      exact Phase.AttemptsKept.step moved spared kept
    · rw [arrived]
      rfl
  refine ⟨fun context ask loop phase ended unserved => ?_, kept.others⟩
  have relayed := kept_of_run started ((machine library).run_of_recording _ ran)
  rw [phase] at kept relayed
  exact kept.gaveUpLast (Ledger.waiting_of_ended relayed ended unserved).1 ended

def refusedSchedule : List Action :=
  cooledKeySchedule ++ [.send true 2, .exchange (.response ⟨429, []⟩) 3, .judge 3, .checkKeys 3,
    .score 3, .choose (fun _ => 3), .send true 4, .exchange (.response ⟨503, []⟩) 5, .judge 5,
    .score 5, .choose (fun _ => 5)]

/-- The nodes and the ask a request loops for. -/
def Phase.loopsFor : Phase → Option (List UpstreamNode × Ask)
  | .looping context ask _ => some (context.snap.nodes, ask)
  | _ => none

/-- Whether the loop of a request has ended, and the response it ended with. -/
def Phase.loopEnd : Phase → Bool × Option Held
  | .looping _ _ loop => (Progress.ended loop, loop.okResp)
  | _ => (false, none)

theorem Phase.looping_of_loopEnd {response : Option Held}
    (ends : phase.loopEnd = (true, response)) :
    ∃ context ask loop, phase = .looping context ask loop ∧ Progress.ended loop = true ∧
      loop.okResp = response := by
  cases phase with
  | looping context ask loop =>
    obtain ⟨ended, same⟩ := Prod.mk.inj ends
    exact ⟨context, ask, loop, rfl, ended, same⟩
  | arrived | reading | read | classified | queued | relaying | returned => simp [loopEnd] at ends

theorem eligible_nodes_attempted_refused :
    ∃ final notes context ask loop, observed plainLibrary (clusterOf [cloudNode, localNode]) freshHeap
        internalRequest refusedSchedule = some (final, notes) ∧
      final.phase = .looping context ask loop ∧ Progress.ended loop = true ∧ loop.okResp = none ∧
      (attempted notes).map UpstreamNode.id = [0, 0, 1] ∧
      GaveUpLast context ask notes final.trace ∧ RetriesOtherKey notes := by
  have facts : (observed plainLibrary (clusterOf [cloudNode, localNode]) freshHeap internalRequest
      refusedSchedule).map (fun result =>
        (result.1.phase.loopEnd, (attempted result.2).map UpstreamNode.id)) =
      some ((true, none), [0, 0, 1]) := by
    decide +kernel
  have spares : (newRouter plainLibrary (clusterOf [cloudNode, localNode]) freshHeap
      internalRequest).toOption.all (fun world => decide ((recorder plainLibrary).Meets
        (fun recorded action => sparesAttempts recorded action = true) (world, [])
        refusedSchedule)) = true := by
    decide +kernel
  obtain ⟨⟨final, notes⟩, ran, known⟩ := Option.map_eq_some_iff.mp facts
  obtain ⟨ends, nodes⟩ := Prod.mk.inj known
  obtain ⟨world, started, runs⟩ := observed_eq_some ran
  rw [started] at spares
  obtain ⟨gaveUp, others⟩ := eligible_nodes_attempted plainLibrary _ freshHeap internalRequest
    started runs (of_decide_eq_true spares)
  obtain ⟨context, ask, loop, phase, ended, unserved⟩ := Phase.looping_of_loopEnd ends
  exact ⟨final, notes, context, ask, loop, ran, phase, ended, unserved, nodes,
    gaveUp context ask loop phase ended unserved, others⟩

def fiveKeyNode : NodeConfig :=
  { cloudNode with apiKeys := [lit "a", lit "b", lit "c", lit "d", lit "e"] }

def keyRetry (now : Int) : List Action :=
  [.send true now, .exchange (.response ⟨429, []⟩) now, .judge now, .checkKeys now,
    .reselect (fun _ => now)]

def fiveKeySchedule : List Action :=
  [.snapshot 1, .readBody (.complete [104, 105]), .classify, .route (lit "m") .off (fun _ => 0),
    .acquire .admitted] ++ keyRetry 1 ++ keyRetry 2 ++ keyRetry 3 ++ keyRetry 4 ++
    [.send true 5, .exchange (.response ⟨429, []⟩) 5, .judge 5, .checkKeys 5, .score 5,
      .choose (fun _ => 5)]

/-- All attempts went to one node, and the last selection gave a node that is not tried. -/
theorem eligible_node_left_untried :
    ∃ final notes context ask loop, observed plainLibrary (clusterOf [fiveKeyNode, localNode]) freshHeap
        internalRequest fiveKeySchedule = some (final, notes) ∧
      final.phase = .looping context ask loop ∧ Progress.ended loop = true ∧ loop.okResp = none ∧
      ¬ GaveUpLast context ask notes final.trace := by
  have facts : (observed plainLibrary (clusterOf [fiveKeyNode, localNode]) freshHeap internalRequest
      fiveKeySchedule).map (fun result => (result.1.phase.loopEnd, attempted result.2,
        result.1.trace.selections.getLast?.map (fun record => (record.selection,
          decide (result.1.phase.loopsFor = some (record.nodes, record.ask)))))) =
      some ((true, none), List.replicate 5 ⟨0, fiveKeyNode, none, by decide⟩,
        some (.chosen ⟨1, localNode, none, by decide⟩, true)) := by
    decide +kernel
  obtain ⟨⟨final, notes⟩, ran, known⟩ := Option.map_eq_some_iff.mp facts
  simp only [Prod.mk.injEq] at known
  obtain ⟨ends, nodes, chosen⟩ := known
  obtain ⟨world, started, runs⟩ := observed_eq_some ran
  have routed := Routed.of_run started ((machine plainLibrary).run_of_recording _ runs)
  obtain ⟨context, ask, loop, phase, ended, unserved⟩ := Phase.looping_of_loopEnd ends
  have unfinished : ¬ GaveUpLast context ask notes final.trace := by
    rintro (⟨distinct, nodup, five, among⟩ | ⟨record, last, all⟩)
    · have same : ∀ node ∈ distinct, node = ⟨0, fiveKeyNode, none, by decide⟩ := by
        intro node member
        have tried := among node member
        rw [nodes] at tried
        exact List.eq_of_mem_replicate tried
      rw [List.eq_replicate_of_mem same, five] at nodup
      revert nodup
      decide
    · rw [last, phase] at chosen
      obtain ⟨selection, same⟩ := Prod.mk.inj (Option.some.inj chosen)
      obtain ⟨sameNodes, sameAsk⟩ := Prod.mk.inj (Option.some.inj (of_decide_eq_true same))
      have genuine := (routed.genuine record (List.mem_of_getLast? last)).selection
      rw [selection, ← sameNodes, ← sameAsk] at genuine
      obtain ⟨⟨member, eligible⟩, _⟩ := of_chosen genuine.symm
      have tried := all _ member { eligible with notExcluded := List.not_mem_nil }
      rw [nodes] at tried
      revert tried
      decide
  exact ⟨final, notes, context, ask, loop, ran, phase, ended, unserved, unfinished⟩

end ClusterRouter.Router
