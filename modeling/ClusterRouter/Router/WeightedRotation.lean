import ClusterRouter.Router.Handler
import ClusterRouter.Router.SelectProperties

/-! The candidates of a selection are the eligible nodes of the lowest priority, each as often
as its weight says. Every selection of the router that has a candidate draws from the same
counter. -/

set_option autoImplicit false

namespace ClusterRouter.Router

open Foundation

/-! ## The candidates of a selection -/

instance (ask : Ask) (excluded : List Bytes) (clock : Nat → Int) (heap : Heap)
    (node : UpstreamNode) : Decidable (Eligible ask excluded clock heap node) :=
  decidable_of_iff
    (node.allowsClass ask.workload = true ∧ (ask.personal = true → node.cfg.piiLocal = true) ∧
      (heap node.id).healthy = true ∧ node.cfg.name ∉ excluded ∧
      (Bytes.trimSpace ask.tier = [] ∨ node.cfg.tier = Bytes.trimSpace ask.tier) ∧
      ((heap node.id).breaker.allow (clock node.id)).1 = true ∧
      (ask.model = [] ∨ supportsModel node.cfg.models ask.model = true))
    ⟨fun ⟨a, b, c, d, e, f, g⟩ => ⟨a, b, c, d, e, f, g⟩,
      fun ⟨a, b, c, d, e, f, g⟩ => ⟨a, b, c, d, e, f, g⟩⟩

def leastPriority (nodes : List UpstreamNode) (ask : Ask) (excluded : List Bytes)
    (clock : Nat → Int) (heap : Heap) : List UpstreamNode :=
  nodes.filter (fun node => decide (Eligible ask excluded clock heap node ∧
    ∀ other ∈ nodes, Eligible ask excluded clock heap other →
      node.cfg.priority ≤ other.cfg.priority))

def copies (node : UpstreamNode) : List UpstreamNode :=
  List.replicate node.cfg.weight.toNat node

def totalWeight (pool : List UpstreamNode) : Nat :=
  (pool.map (fun node => node.cfg.weight.toNat)).sum

theorem length_flatMap_copies (pool : List UpstreamNode) :
    (pool.flatMap copies).length = totalWeight pool := by
  simp [totalWeight, copies, List.length_flatMap]

theorem count_flatMap_copies {pool : List UpstreamNode} (distinct : pool.Nodup)
    {node : UpstreamNode} (member : node ∈ pool) :
    (pool.flatMap copies).count node = node.cfg.weight.toNat := by
  induction pool with
  | nil => cases member
  | cons first rest ih =>
    obtain ⟨new, distinct⟩ := List.nodup_cons.mp distinct
    rw [List.flatMap_cons, List.count_append]
    obtain rfl | later := List.mem_cons.mp member
    · have absent : node ∉ rest.flatMap copies := by
        intro among
        obtain ⟨other, inRest, copy⟩ := List.mem_flatMap.mp among
        rw [List.eq_of_mem_replicate copy] at new
        exact new inRest
      rw [List.count_eq_zero_of_not_mem absent, copies, List.count_replicate_self, Nat.add_zero]
    · have other : first ≠ node := by
        rintro rfl
        exact new later
      rw [ih distinct later, copies, List.count_replicate, if_neg (by simpa using other),
        Nat.zero_add]

def bucketAt (buckets : List Bucket) (priority : Int) : List UpstreamNode :=
  ((buckets.find? (fun bucket => decide (bucket.priority = priority))).map
    Bucket.candidates).getD []

theorem bucketAt_addCandidate (buckets : List Bucket) (node : UpstreamNode) (priority : Int) :
    bucketAt (addCandidate buckets node) priority =
      bucketAt buckets priority ++ if node.cfg.priority = priority then copies node else [] := by
  induction buckets with
  | nil =>
    by_cases same : node.cfg.priority = priority
    · simp [addCandidate, bucketAt, copies, same]
    · simp [addCandidate, bucketAt, same]
  | cons first rest ih =>
    unfold addCandidate
    dsimp only
    unfold bucketAt at ih ⊢
    by_cases here : first.priority = priority
    · by_cases joins : first.priority = node.cfg.priority
      · simp [joins, here ▸ joins, copies]
      · have other : node.cfg.priority ≠ priority := fun same => joins (here.trans same.symm)
        rw [if_neg joins]
        simp [here, other]
    · by_cases joins : first.priority = node.cfg.priority
      · have other : node.cfg.priority ≠ priority := fun same => here (joins.trans same)
        simp [joins, other]
      · simpa [joins, here] using ih

theorem bucketAt_foldl (ask : Ask) (excluded : List Bytes) {clock : Nat → Int} {start heap : Heap}
    (asked : Asked clock start heap) (buckets : List Bucket) (nodes : List UpstreamNode)
    (priority : Int) :
    bucketAt (nodes.foldl (visit ask excluded clock) (heap, buckets)).2 priority =
      bucketAt buckets priority ++
        (nodes.filter (fun node => decide (Eligible ask excluded clock start node ∧
          node.cfg.priority = priority))).flatMap copies := by
  induction nodes generalizing heap buckets with
  | nil => simp
  | cons node rest ih =>
    obtain ⟨asking, turn⟩ := visit_cases ask excluded clock heap buckets node
    rw [List.foldl_cons]
    generalize visit ask excluded clock (heap, buckets) node = next at asking turn ⊢
    rw [asked.eligible_iff] at turn
    rw [show next = (next.1, next.2) from rfl, ih (asked.trans asking)]
    rcases turn with ⟨refused, same⟩ | ⟨eligible, added⟩
    · rw [same, List.filter_cons_of_neg (by simp [refused])]
    · rw [added, bucketAt_addCandidate, List.append_assoc]
      by_cases here : node.cfg.priority = priority
      · rw [List.filter_cons_of_pos (by simp [eligible, here]), List.flatMap_cons, if_pos here]
      · rw [List.filter_cons_of_neg (by simp [here]), if_neg here, List.nil_append]

theorem lowestBucket_eq {nodes : List UpstreamNode} {ask : Ask} {excluded : List Bytes}
    {clock : Nat → Int} {heap : Heap} {buckets : List Bucket}
    (grouped : Grouped (fun node => node ∈ nodes ∧ Eligible ask excluded clock heap node) buckets)
    (contents : ∀ priority, bucketAt buckets priority =
      (nodes.filter (fun node => decide (Eligible ask excluded clock heap node ∧
        node.cfg.priority = priority))).flatMap copies)
    (nonempty : buckets ≠ []) :
    lowestBucket buckets = (leastPriority nodes ask excluded clock heap).flatMap copies := by
  unfold lowestBucket
  cases least : (buckets.map Bucket.priority).min? with
  | none =>
    have empty := List.min?_eq_none_iff.mp least
    exact absurd (List.map_eq_nil_iff.mp empty) nonempty
  | some lowest =>
    obtain ⟨listed, below⟩ := List.min?_eq_some_iff.mp least
    obtain ⟨bucket, member, isLowest⟩ := List.mem_map.mp listed
    obtain ⟨best, among⟩ := List.exists_mem_of_ne_nil _ (grouped.filled bucket member)
    obtain ⟨⟨known, eligible⟩, priority⟩ := grouped.sound bucket member best among
    have under : ∀ other ∈ nodes, Eligible ask excluded clock heap other →
        lowest ≤ other.cfg.priority := by
      intro other present good
      obtain ⟨second, within, inside⟩ := grouped.complete other ⟨present, good⟩
      rw [(grouped.sound second within other inside).2]
      exact below _ (List.mem_map_of_mem within)
    refine (contents lowest).trans (congrArg (List.flatMap copies) ?_)
    refine List.filter_congr fun node present => decide_eq_decide.mpr ?_
    refine and_congr_right fun good => ⟨fun isLeast => ?_, fun minimal => ?_⟩
    · rw [isLeast]
      exact under
    · have := minimal best known eligible
      have := under node present good
      omega

theorem selectNodeFromSnapExcluding_eq (nodes : List UpstreamNode) (ask : Ask)
    (excluded : List Bytes) (clock : Nat → Int) (heap : Heap) (rr : Nat) :
    let pool := leastPriority nodes ask excluded clock heap
    (selectNodeFromSnapExcluding nodes ask excluded clock heap rr).1 =
        (if pool = [] then .noNode else pick rr (pool.flatMap copies)) ∧
      (selectNodeFromSnapExcluding nodes ask excluded clock heap rr).2.2 =
        if pool = [] then rr else rr + 1 := by
  intro pool
  have start : Grouped (fun node => node ∈ [] ∧ Eligible ask excluded clock heap node) [] :=
    ⟨by simp, by simp, by simp⟩
  have grouped := (grouped_foldl (Asked.refl clock heap) start nodes).2
  have contents := bucketAt_foldl ask excluded (Asked.refl clock heap) [] nodes
  unfold selectNodeFromSnapExcluding
  dsimp only
  generalize (nodes.foldl (visit ask excluded clock) (heap, [])).2 = buckets at grouped contents
  by_cases empty : buckets = []
  · have poolEmpty : pool = [] := by
      refine List.filter_eq_nil_iff.mpr fun node member isLeast => ?_
      obtain ⟨bucket, within, _⟩ :=
        grouped.complete node ⟨member, (of_decide_eq_true isLeast).1⟩
      rw [empty] at within
      cases within
    simp [empty, poolEmpty]
  · have drawn : lowestBucket buckets = pool.flatMap copies := lowestBucket_eq grouped contents empty
    have filled := (grouped.lowestBucket empty).1
    have poolFilled : pool ≠ [] := by
      intro poolEmpty
      rw [drawn, poolEmpty] at filled
      exact filled rfl
    rw [if_neg empty, if_neg poolFilled, if_neg poolFilled, drawn]
    exact ⟨rfl, rfl⟩

/-! ## Histories of selections -/

/-- Requests select, and anything may happen to the states of the nodes in between. -/
inductive RotationEvent where
  | select (nodes : List UpstreamNode) (ask : Ask) (excluded : List Bytes) (clock : Nat → Int)
  | change (heap : Heap)

def rotation : Machine Shared RotationEvent where
  step
    | shared, .select nodes ask excluded clock => some (shared.select nodes ask excluded clock).2
    | shared, .change heap => some { shared with heap }

def selected (shared : Shared) : RotationEvent → List SelectionRecord
  | .select nodes ask excluded clock => [(shared.select nodes ask excluded clock).1]
  | .change _ => []

/-- A first selection, with nothing excluded yet, for a request of this shape. -/
def SelectionRecord.isFor (nodes : List UpstreamNode) (ask : Ask) (record : SelectionRecord) : Bool :=
  decide (record.nodes = nodes ∧ record.ask = ask ∧ record.excluded = [])

def SelectionRecord.pool (record : SelectionRecord) : List UpstreamNode :=
  leastPriority record.nodes record.ask record.excluded record.clock record.heap

/-- Every selection is one that `selectNodeFromSnapExcluding` makes, and its counter has
counted the selections before it that had a candidate. -/
structure Counted (start : Nat) (shared : Shared) (records : List SelectionRecord) : Prop where
  drawn : ∀ record ∈ records, record.selection =
    if record.pool = [] then .noNode else pick record.rr (record.pool.flatMap copies)
  numbered : ∀ index record, records[index]? = some record →
    record.rr = start + (records.take index).countP (fun record => decide (record.pool ≠ []))
  counter : shared.rr = start + records.countP (fun record => decide (record.pool ≠ []))

theorem counted_of_run {shared final : Shared} {trace : List RotationEvent}
    {records : List SelectionRecord}
    (ran : (rotation.recording selected).run (shared, []) trace = some (final, records)) :
    Counted shared.rr final records := by
  refine rotation.recording_invariant selected (Counted shared.rr) ?_ ran
    ⟨by simp, by simp, by simp⟩
  intro before records event after stepped counted
  cases event with
  | change heap =>
    cases stepped
    rw [selected, List.append_nil]
    exact ⟨counted.drawn, counted.numbered, counted.counter⟩
  | select nodes ask excluded clock =>
    cases stepped
    obtain ⟨isDrawn, isCounter⟩ :=
      selectNodeFromSnapExcluding_eq nodes ask excluded clock before.heap before.rr
    refine ⟨forall_mem_concat counted.drawn isDrawn, ?_, ?_⟩
    · intro index record found
      obtain earlier | new := Nat.lt_or_ge index records.length
      · rw [List.getElem?_append_left earlier] at found
        rw [List.take_append_of_le_length (Nat.le_of_lt earlier)]
        exact counted.numbered index record found
      · have last : index = records.length := by
          have := (List.getElem?_eq_some_iff.mp found).1
          simp only [selected, List.length_append, List.length_singleton] at this
          omega
        subst last
        simp only [selected, List.getElem?_concat_length, Option.some.injEq] at found
        subst found
        rw [List.take_left]
        exact counted.counter
    · rw [List.countP_append, ← Nat.add_assoc, ← counted.counter]
      refine isCounter.trans ?_
      unfold selected SelectionRecord.pool
      dsimp only [Shared.select]
      by_cases empty : leastPriority nodes ask excluded clock before.heap = []
      · simp [empty]
      · simp [empty]

/-! ## A round of a pool -/

section Round

variable {nodes pool : List UpstreamNode} {ask : Ask} {start : Nat} {final : Shared}
  {records : List SelectionRecord}

def drawAt (candidates : List UpstreamNode) (index : Nat) : Selection :=
  (candidates[index]?).elim .crashed .chosen

theorem map_drawAt_range (candidates : List UpstreamNode) :
    (List.range candidates.length).map (drawAt candidates) = candidates.map Selection.chosen := by
  refine List.ext_getElem (by simp) fun index inside _ => ?_
  have inside : index < candidates.length := by simpa using inside
  simp [drawAt, inside]

variable {residues : List Nat}

theorem perm_range_of_nodup {total : Nat} (distinct : residues.Nodup)
    (below : ∀ residue ∈ residues, residue < total) (length : residues.length = total) :
    residues.Perm (List.range total) := by
  have within : residues ⊆ List.range total := fun residue member =>
    List.mem_range.mpr (below residue member)
  exact (List.subperm_of_subset distinct within).perm_of_length_le (by simp [length])

theorem nodup_consecutive (start total : Nat) :
    ((List.range total).map (fun index => (start + index) % total)).Nodup := by
  refine List.Nodup.map_on ?_ List.nodup_range
  intro one isOne other isOther same
  have congruent : one ≡ other [MOD total] := Nat.ModEq.add_left_cancel' start same
  unfold Nat.ModEq at congruent
  rwa [Nat.mod_eq_of_lt (List.mem_range.mp isOne), Nat.mod_eq_of_lt (List.mem_range.mp isOther)]
    at congruent

theorem leastPriority_nodup (distinct : nodes.Nodup) {excluded : List Bytes} {clock : Nat → Int}
    {heap : Heap} : (leastPriority nodes ask excluded clock heap).Nodup :=
  distinct.filter _

theorem selections_eq (counted : Counted start final records)
    (stays : ∀ record ∈ records, record.isFor nodes ask = true → record.pool = pool)
    (small : ∀ record ∈ records, record.rr < 2 ^ 63) (positive : 0 < totalWeight pool) :
    (records.filter (SelectionRecord.isFor nodes ask)).map SelectionRecord.selection =
      ((records.filter (SelectionRecord.isFor nodes ask)).map
        (fun record => record.rr % totalWeight pool)).map (drawAt (pool.flatMap copies)) := by
  rw [List.map_map]
  refine List.map_congr_left fun record member => ?_
  obtain ⟨known, isMine⟩ := List.mem_filter.mp member
  have filled : pool ≠ [] := by
    rintro rfl
    exact absurd positive (Nat.lt_irrefl 0)
  have length := length_flatMap_copies pool
  have below : record.rr % (pool.flatMap copies).length < (pool.flatMap copies).length :=
    Nat.mod_lt _ (length ▸ positive)
  rw [counted.drawn record known, stays record known isMine, if_neg filled,
    pick_eq (small record known) below, Function.comp_apply, drawAt, ← length,
    List.getElem?_eq_getElem below, Option.elim_some]

theorem weight_le_totalWeight {pool : List UpstreamNode} {node : UpstreamNode}
    (member : node ∈ pool) : node.cfg.weight.toNat ≤ totalWeight pool :=
  List.le_sum_of_mem (List.mem_map_of_mem member)

theorem residues_consecutive (counted : Counted start final records) (total : Nat)
    (drawn : ∀ record ∈ records, record.pool ≠ []) :
    records.map (fun record => record.rr % total) =
      (List.range records.length).map (fun index => (start + index) % total) := by
  refine List.ext_getElem (by simp) fun index inside _ => ?_
  have inside : index < records.length := by simpa using inside
  have counter := counted.numbered index _ (List.getElem?_eq_getElem inside)
  have all : (records.take index).countP (fun record => decide (record.pool ≠ [])) =
      (records.take index).length := by
    refine List.countP_eq_length.mpr fun record member => ?_
    exact decide_eq_true (drawn record (List.mem_of_mem_take member))
  rw [all, List.length_take_of_le (Nat.le_of_lt inside)] at counter
  simp [counter]

theorem count_of_nodup (distinct : residues.Nodup)
    (below : ∀ residue ∈ residues, residue < totalWeight pool)
    (round : residues.length = totalWeight pool) (poolDistinct : pool.Nodup) {node : UpstreamNode}
    (member : node ∈ pool) :
    ((residues.map (drawAt (pool.flatMap copies))).count (.chosen node) : Int) =
      node.cfg.weight := by
  have same := (perm_range_of_nodup distinct below round).map (drawAt (pool.flatMap copies))
  rw [← length_flatMap_copies, map_drawAt_range] at same
  have weighted := node.weighted
  rw [same.count_eq, List.count_map_of_injective _ _ (fun _ _ => Selection.chosen.inj),
    count_flatMap_copies poolDistinct member]
  omega

theorem nodup_of_count (below : ∀ residue ∈ residues, residue < totalWeight pool)
    (once : ∀ node ∈ pool, (residues.map (drawAt (pool.flatMap copies))).count (.chosen node) ≤ 1) :
    residues.Nodup := by
  refine List.Nodup.of_map (drawAt (pool.flatMap copies)) (List.nodup_iff_count_le_one.mpr ?_)
  intro selection
  by_cases member : selection ∈ residues.map (drawAt (pool.flatMap copies))
  · obtain ⟨residue, isResidue, rfl⟩ := List.mem_map.mp member
    have inside : residue < (pool.flatMap copies).length :=
      length_flatMap_copies pool ▸ below residue isResidue
    obtain ⟨node, inPool, copy⟩ := List.mem_flatMap.mp (List.getElem_mem inside)
    rw [drawAt, List.getElem?_eq_getElem inside, Option.elim_some, List.eq_of_mem_replicate copy]
    exact once node inPool
  · rw [List.count_eq_zero_of_not_mem member]
    exact Nat.zero_le _

end Round

/-- A round of `W` selections for a request shape whose pool has the total weight `W` chooses
each node as often as its weight says if the counters that it draws differ modulo `W`. With
weights of one it does so only then. Counters that nothing else draws from do differ. -/
theorem weighted_round (shared final : Shared) (trace : List RotationEvent)
    (records : List SelectionRecord)
    (ran : (rotation.recording selected).run (shared, []) trace = some (final, records))
    (nodes : List UpstreamNode) (distinct : nodes.Nodup) (ask : Ask) (pool : List UpstreamNode)
    (stays : ∀ record ∈ records, record.isFor nodes ask = true → record.pool = pool)
    (round : (records.filter (SelectionRecord.isFor nodes ask)).length = totalWeight pool)
    (small : ∀ record ∈ records, record.rr < 2 ^ 63) :
    let mine := records.filter (SelectionRecord.isFor nodes ask)
    let residues := mine.map (fun record => record.rr % totalWeight pool)
    let chosen (node : UpstreamNode) : Nat :=
      mine.countP (fun record => decide (record.selection = .chosen node))
    (residues.Nodup → ∀ node ∈ pool, (chosen node : Int) = node.cfg.weight) ∧
      ((∀ node ∈ pool, node.cfg.weight = 1) →
        (∀ node ∈ pool, (chosen node : Int) = node.cfg.weight) → residues.Nodup) ∧
      ((∀ record ∈ records, record.isFor nodes ask = true) → residues.Nodup) := by
  intro mine residues chosen
  have counted := counted_of_run ran
  obtain weightless | positive := Nat.eq_zero_or_pos (totalWeight pool)
  · have empty : mine = [] := List.length_eq_zero_iff.mp (round.trans weightless)
    have distinctResidues : residues.Nodup := by simp [residues, empty]
    refine ⟨fun _ node member => ?_, fun _ _ => distinctResidues, fun _ => distinctResidues⟩
    have := weight_le_totalWeight member
    have := node.weighted
    omega
  have selections := selections_eq counted stays small positive
  have below : ∀ residue ∈ residues, residue < totalWeight pool := by
    intro residue member
    obtain ⟨record, _, rfl⟩ := List.mem_map.mp member
    exact Nat.mod_lt _ positive
  have poolDistinct : pool.Nodup := by
    obtain ⟨record, member⟩ := List.exists_mem_of_length_pos (round ▸ positive)
    obtain ⟨known, isMine⟩ := List.mem_filter.mp member
    rw [← stays record known isMine, SelectionRecord.pool, (of_decide_eq_true isMine).1]
    exact leastPriority_nodup distinct
  have count (node : UpstreamNode) :
      chosen node = (residues.map (drawAt (pool.flatMap copies))).count (.chosen node) := by
    rw [← selections, List.count_eq_countP, List.countP_map]
    refine List.countP_congr fun record _ => ?_
    simp
  refine ⟨?_, ?_, ?_⟩
  · intro differ node member
    rw [count]
    exact count_of_nodup differ below (by simpa [residues] using round) poolDistinct member
  · intro one exactly
    refine nodup_of_count below fun node member => ?_
    have once := exactly node member
    rw [one node member, count] at once
    omega
  · intro undisturbed
    have all : mine = records := List.filter_eq_self.mpr undisturbed
    have drawn : ∀ record ∈ records, record.pool ≠ [] := by
      intro record member empty
      rw [stays record member (undisturbed record member)] at empty
      rw [empty] at positive
      exact absurd positive (Nat.lt_irrefl 0)
    have total : records.length = totalWeight pool := all ▸ round
    have consecutive := residues_consecutive counted (totalWeight pool) drawn
    rw [total] at consecutive
    have distinctResidues := nodup_consecutive shared.rr (totalWeight pool)
    rw [← consecutive] at distinctResidues
    simpa only [residues, all] using distinctResidues

/-! ## Two pools that share the counter -/

def heavyNode : UpstreamNode := ⟨0, { cloudNode with weight := 2 }, none, by decide⟩

def lightNode : UpstreamNode := ⟨1, { cloudNode with name := lit "light" }, none, by decide⟩

def evenNode : UpstreamNode :=
  ⟨0, positiveWeight cloudNode, none, one_le_positiveWeight cloudNode⟩

def otherNode : UpstreamNode :=
  ⟨2, { cloudNode with name := lit "other", models := [lit "x"] }, none, by decide⟩

def askFor (model : Bytes) : Ask := ⟨model, [], .internal, false⟩

def selectFor (nodes : List UpstreamNode) (model : Bytes) : RotationEvent :=
  .select nodes (askFor model) [] (fun _ => 0)

def interleavedTrace (nodes : List UpstreamNode) : List RotationEvent :=
  [selectFor nodes (lit "m"), selectFor nodes (lit "x"), selectFor nodes (lit "m"),
    selectFor nodes (lit "x"), selectFor nodes (lit "m")]

theorem weighted_round_interleaved :
    ∃ final records,
      (rotation.recording selected).run (⟨freshHeap, 0⟩, [])
          (interleavedTrace [heavyNode, lightNode, otherNode]) = some (final, records) ∧
        let mine := records.filter
          (SelectionRecord.isFor [heavyNode, lightNode, otherNode] (askFor (lit "m")))
        ((mine.countP (fun record => decide (record.selection = .chosen heavyNode)) : Nat) : Int) = 2 ∧
          ((mine.countP (fun record => decide (record.selection = .chosen lightNode)) : Nat) : Int) =
            1 := by
  have ran : (rotation.recording selected).run (⟨freshHeap, 0⟩, [])
      (interleavedTrace [heavyNode, lightNode, otherNode]) = some (_, _) := rfl
  refine ⟨_, _, ran, ?_⟩
  have weighted := (weighted_round ⟨freshHeap, 0⟩ _ _ _ ran [heavyNode, lightNode, otherNode]
    (by decide) (askFor (lit "m")) [heavyNode, lightNode] (by decide +kernel) (by decide +kernel)
    (by decide +kernel)).1 (by decide +kernel)
  exact ⟨weighted heavyNode (by decide), weighted lightNode (by decide)⟩

/-- One selection for another model between the two of a round, and both choose the same
node. -/
theorem round_skewed_by_other_model :
    ∃ final records,
      (rotation.recording selected).run (⟨freshHeap, 0⟩, [])
          ((interleavedTrace [evenNode, lightNode, otherNode]).take 3) = some (final, records) ∧
        let mine := records.filter
          (SelectionRecord.isFor [evenNode, lightNode, otherNode] (askFor (lit "m")))
        (∀ record ∈ mine, record.pool = [evenNode, lightNode]) ∧
          mine.length = totalWeight [evenNode, lightNode] ∧
          mine.countP (fun record => decide (record.selection = .chosen evenNode)) = 2 ∧
          mine.countP (fun record => decide (record.selection = .chosen lightNode)) = 0 := by
  refine ⟨_, _, rfl, ?_⟩
  decide +kernel

end ClusterRouter.Router
