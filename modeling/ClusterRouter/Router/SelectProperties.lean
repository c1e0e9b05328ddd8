import ClusterRouter.Router.Select

/-! A chosen node passes all filters and none that does has a lower priority number; there is no
node exactly when none passes. -/

set_option autoImplicit false

namespace ClusterRouter.Router

open Foundation

structure Eligible (ask : Ask) (excluded : List Bytes) (clock : Nat → Int) (heap : Heap)
    (node : UpstreamNode) : Prop where
  allowsClass : node.allowsClass ask.workload = true
  piiLocal : ask.personal = true → node.cfg.piiLocal = true
  healthy : (heap node.id).healthy = true
  notExcluded : node.cfg.name ∉ excluded
  tier : Bytes.trimSpace ask.tier = [] ∨ node.cfg.tier = Bytes.trimSpace ask.tier
  breaker : ((heap node.id).breaker.allow (clock node.id)).1 = true
  model : ask.model = [] ∨ supportsModel node.cfg.models ask.model = true

def Asked (clock : Nat → Int) (heap after : Heap) : Prop :=
  ∀ id, after id = heap id ∨
    after id = { heap id with breaker := ((heap id).breaker.allow (clock id)).2 }

section

variable {ask : Ask} {excluded : List Bytes} {clock : Nat → Int} {heap after final : Heap}

theorem Asked.refl (clock : Nat → Int) (heap : Heap) : Asked clock heap heap := fun _ => .inl rfl

theorem Asked.trans (first : Asked clock heap after) (second : Asked clock after final) :
    Asked clock heap final := by
  intro id
  rcases first id with same | asked <;> rcases second id with same' | asked'
  · exact .inl (same'.trans same)
  · exact .inr (by rw [asked', same])
  · exact .inr (same'.trans asked)
  · exact .inr (by rw [asked', asked, Breaker.allow_allow])

theorem Asked.eligible_iff (asked : Asked clock heap after) {node : UpstreamNode} :
    Eligible ask excluded clock after node ↔ Eligible ask excluded clock heap node := by
  have same : (after node.id).healthy = (heap node.id).healthy ∧
      ((after node.id).breaker.allow (clock node.id)).1 =
        ((heap node.id).breaker.allow (clock node.id)).1 := by
    rcases asked node.id with same | asked
    · simp only [same, and_self]
    · simp only [asked, Breaker.allow_allow, and_self]
  constructor
  · intro eligible
    exact { eligible with healthy := same.1 ▸ eligible.healthy, breaker := same.2 ▸ eligible.breaker }
  · intro eligible
    exact { eligible with healthy := same.1 ▸ eligible.healthy, breaker := same.2 ▸ eligible.breaker }

theorem visit_cases (ask : Ask) (excluded : List Bytes) (clock : Nat → Int) (heap : Heap)
    (buckets : List Bucket) (node : UpstreamNode) :
    Asked clock heap (visit ask excluded clock (heap, buckets) node).1 ∧
      ((¬ Eligible ask excluded clock heap node ∧
          (visit ask excluded clock (heap, buckets) node).2 = buckets) ∨
        (Eligible ask excluded clock heap node ∧
          (visit ask excluded clock (heap, buckets) node).2 = addCandidate buckets node)) := by
  unfold visit
  dsimp only
  split
  next refused => exact ⟨.refl _ _, .inl ⟨fun eligible => by simp [eligible.allowsClass] at refused, rfl⟩⟩
  next allowsClass =>
  split
  next refused =>
    refine ⟨.refl _ _, .inl ⟨fun eligible => ?_, rfl⟩⟩
    simp only [personalBlocks, Bool.and_eq_true, Bool.not_eq_true'] at refused
    simp [eligible.piiLocal refused.1] at refused
  next piiLocal =>
  split
  next refused => exact ⟨.refl _ _, .inl ⟨fun eligible => by simp [eligible.healthy] at refused, rfl⟩⟩
  next healthy =>
  split
  next refused => exact ⟨.refl _ _, .inl ⟨fun eligible => eligible.notExcluded refused, rfl⟩⟩
  next notExcluded =>
  split
  next refused =>
    refine ⟨.refl _ _, .inl ⟨fun eligible => ?_, rfl⟩⟩
    exact eligible.tier.elim refused.1 refused.2
  next tier =>
  have asked : Asked clock heap (heap.set node.id { heap node.id with
      breaker := ((heap node.id).breaker.allow (clock node.id)).2 }) := by
    intro id
    by_cases same : id = node.id
    · subst same
      exact .inr (heap.set_same _ _)
    · exact .inl (heap.set_other _ same)
  split
  next refused => exact ⟨asked, .inl ⟨fun eligible => by simp [eligible.breaker] at refused, rfl⟩⟩
  next breaker =>
  split
  next model =>
    refine ⟨asked, .inr ⟨⟨?_, ?_, ?_, notExcluded, ?_, ?_, model⟩, rfl⟩⟩
    · simpa using allowsClass
    · intro personal
      simpa [personalBlocks, personal] using piiLocal
    · simpa using healthy
    · by_cases named : Bytes.trimSpace ask.tier = []
      · exact .inl named
      · exact .inr (Classical.byContradiction fun other => tier ⟨named, other⟩)
    · simpa using breaker
  next refused => exact ⟨asked, .inl ⟨fun eligible => refused eligible.model, rfl⟩⟩

end

/-! ## Buckets -/

structure Grouped (members : UpstreamNode → Prop) (buckets : List Bucket) : Prop where
  filled : ∀ bucket ∈ buckets, bucket.candidates ≠ []
  sound : ∀ bucket ∈ buckets, ∀ node ∈ bucket.candidates,
    members node ∧ node.cfg.priority = bucket.priority
  complete : ∀ node, members node → ∃ bucket ∈ buckets, node ∈ bucket.candidates

variable {node : UpstreamNode} {buckets : List Bucket} {members : UpstreamNode → Prop} {n : Nat}
    {candidates : List UpstreamNode}

private theorem mem_copies {other : UpstreamNode} :
    other ∈ List.replicate node.cfg.weight.toNat node ↔ other = node := by
  have weighted := node.weighted
  rw [List.mem_replicate]
  exact ⟨And.right, fun same => ⟨by omega, same⟩⟩

theorem mem_addCandidate {bucket : Bucket} (member : bucket ∈ addCandidate buckets node) :
    bucket ∈ buckets ∨
      (bucket.priority = node.cfg.priority ∧ node ∈ bucket.candidates ∧
        ∀ other ∈ bucket.candidates, other = node ∨
          ∃ old ∈ buckets, old.priority = bucket.priority ∧ other ∈ old.candidates) := by
  induction buckets with
  | nil =>
    cases List.mem_singleton.mp member
    exact .inr ⟨rfl, mem_copies.mpr rfl, fun other copy => .inl (mem_copies.mp copy)⟩
  | cons first rest ih =>
    unfold addCandidate at member
    dsimp only at member
    split at member
    next same =>
      rcases List.mem_cons.mp member with rfl | later
      · refine .inr ⟨same, List.mem_append_right _ (mem_copies.mpr rfl), fun other among => ?_⟩
        rcases List.mem_append.mp among with old | copy
        · exact .inr ⟨first, List.mem_cons_self, rfl, old⟩
        · exact .inl (mem_copies.mp copy)
      · exact .inl (List.mem_cons_of_mem _ later)
    next different =>
      rcases List.mem_cons.mp member with rfl | later
      · exact .inl List.mem_cons_self
      · rcases ih later with old | ⟨priority, joined, others⟩
        · exact .inl (List.mem_cons_of_mem _ old)
        · refine .inr ⟨priority, joined, fun other among => ?_⟩
          rcases others other among with same | ⟨old, known, level, within⟩
          · exact .inl same
          · exact .inr ⟨old, List.mem_cons_of_mem _ known, level, within⟩

theorem exists_mem_addCandidate (buckets : List Bucket) (node : UpstreamNode) :
    (∃ bucket ∈ addCandidate buckets node, node ∈ bucket.candidates) ∧
      ∀ old ∈ buckets, ∀ other ∈ old.candidates,
        ∃ bucket ∈ addCandidate buckets node, other ∈ bucket.candidates := by
  induction buckets with
  | nil => exact ⟨⟨_, List.mem_singleton_self _, mem_copies.mpr rfl⟩, by simp⟩
  | cons first rest ih =>
    obtain ⟨⟨bucket, member, joined⟩, stay⟩ := ih
    unfold addCandidate
    dsimp only
    split
    · refine ⟨⟨_, List.mem_cons_self, List.mem_append_right _ (mem_copies.mpr rfl)⟩, ?_⟩
      intro old known other among
      rcases List.mem_cons.mp known with rfl | later
      · exact ⟨_, List.mem_cons_self, List.mem_append_left _ among⟩
      · exact ⟨old, List.mem_cons_of_mem _ later, among⟩
    · refine ⟨⟨bucket, List.mem_cons_of_mem _ member, joined⟩, ?_⟩
      intro old known other among
      rcases List.mem_cons.mp known with rfl | later
      · exact ⟨_, List.mem_cons_self, among⟩
      · obtain ⟨found, within, there⟩ := stay old later other among
        exact ⟨found, List.mem_cons_of_mem _ within, there⟩

theorem Grouped.addCandidate {after : UpstreamNode → Prop} (grouped : Grouped members buckets)
    (grown : ∀ other, after other ↔ members other ∨ other = node) :
    Grouped after (addCandidate buckets node) := by
  obtain ⟨joined, stay⟩ := exists_mem_addCandidate buckets node
  constructor
  · intro bucket member
    rcases mem_addCandidate member with old | ⟨_, inside, _⟩
    · exact grouped.filled bucket old
    · exact List.ne_nil_of_mem inside
  · intro bucket member other among
    rcases mem_addCandidate member with old | ⟨priority, _, others⟩
    · obtain ⟨known, level⟩ := grouped.sound bucket old other among
      exact ⟨(grown other).mpr (.inl known), level⟩
    · rcases others other among with rfl | ⟨old, known, level, within⟩
      · exact ⟨(grown other).mpr (.inr rfl), priority.symm⟩
      · obtain ⟨member, there⟩ := grouped.sound old known other within
        exact ⟨(grown other).mpr (.inl member), there.trans level⟩
  · intro other known
    rcases (grown other).mp known with before | rfl
    · obtain ⟨old, within, among⟩ := grouped.complete other before
      exact stay old within other among
    · exact joined

theorem Grouped.congr {after : UpstreamNode → Prop} (grouped : Grouped members buckets)
    (same : ∀ node, after node ↔ members node) :
    Grouped after buckets := by
  have equal : after = members := funext fun node => propext (same node)
  exact equal ▸ grouped

theorem grouped_foldl {ask : Ask} {excluded : List Bytes} {clock : Nat → Int} {start heap : Heap}
    {seen : List UpstreamNode} (asked : Asked clock start heap)
    (grouped : Grouped (fun node => node ∈ seen ∧ Eligible ask excluded clock start node) buckets)
    (nodes : List UpstreamNode) :
    let result := nodes.foldl (visit ask excluded clock) (heap, buckets)
    Asked clock start result.1 ∧
      Grouped (fun node => node ∈ seen ++ nodes ∧ Eligible ask excluded clock start node) result.2 := by
  induction nodes generalizing seen heap buckets with
  | nil => simpa using And.intro asked grouped
  | cons node rest ih =>
    obtain ⟨asking, visited⟩ := visit_cases ask excluded clock heap buckets node
    rw [List.foldl_cons]
    generalize visit ask excluded clock (heap, buckets) node = next at asking visited ⊢
    rw [asked.eligible_iff] at visited
    have regrouped : Grouped (fun other => other ∈ seen ++ [node] ∧
        Eligible ask excluded clock start other) next.2 := by
      rcases visited with ⟨refused, same⟩ | ⟨eligible, added⟩
      · rw [same]
        refine grouped.congr fun other => ⟨fun ⟨member, eligible⟩ => ⟨?_, eligible⟩,
          fun ⟨member, eligible⟩ => ⟨List.mem_append_left _ member, eligible⟩⟩
        rcases List.mem_append.mp member with old | new
        · exact old
        · cases List.mem_singleton.mp new
          exact absurd eligible refused
      · rw [added]
        refine grouped.addCandidate fun other => ⟨fun ⟨member, good⟩ => ?_, ?_⟩
        · rcases List.mem_append.mp member with old | new
          · exact .inl ⟨old, good⟩
          · exact .inr (List.mem_singleton.mp new)
        · rintro (⟨member, good⟩ | rfl)
          · exact ⟨List.mem_append_left _ member, good⟩
          · exact ⟨List.mem_append_right _ (List.mem_singleton_self _), eligible⟩
    have continued := ih (asked.trans asking) regrouped
    rw [List.append_assoc] at continued
    exact continued

/-! ## The lowest bucket -/

theorem Grouped.lowestBucket (grouped : Grouped members buckets) (nonempty : buckets ≠ []) :
    lowestBucket buckets ≠ [] ∧ ∀ node ∈ lowestBucket buckets,
      members node ∧ ∀ other, members other → node.cfg.priority ≤ other.cfg.priority := by
  unfold Router.lowestBucket
  cases least : (buckets.map Bucket.priority).min? with
  | none =>
    have empty := List.min?_eq_none_iff.mp least
    exact absurd (List.map_eq_nil_iff.mp empty) nonempty
  | some lowest =>
    obtain ⟨listed, below⟩ := List.min?_eq_some_iff.mp least
    obtain ⟨bucket, member, level⟩ := List.mem_map.mp listed
    dsimp only
    cases found : buckets.find? (fun bucket => decide (bucket.priority = lowest)) with
    | none => exact absurd (decide_eq_true level) (List.find?_eq_none.mp found bucket member)
    | some first =>
      have known := List.mem_of_find?_eq_some found
      have matched := List.find?_some found
      have here : first.priority = lowest := of_decide_eq_true matched
      refine ⟨grouped.filled first known, fun node among => ?_⟩
      obtain ⟨good, priority⟩ := grouped.sound first known node among
      refine ⟨good, fun other otherGood => ?_⟩
      obtain ⟨second, within, inside⟩ := grouped.complete other otherGood
      have there := (grouped.sound second within other inside).2
      rw [priority, here, there]
      exact below _ (List.mem_map_of_mem within)

theorem pick_eq (small : n < 2 ^ 63) (below : n % candidates.length < candidates.length) :
    pick n candidates = .chosen candidates[n % candidates.length] := by
  have value : intOfUint64 n = n := by
    unfold intOfUint64
    dsimp only
    rw [Int.emod_eq_of_lt (by omega) (by omega), if_pos (by omega)]
  have index : (intOfUint64 n).tmod candidates.length = (n % candidates.length : Nat) := by
    rw [value]
    rfl
  have nonempty : candidates ≠ [] := List.length_pos_iff.mp (by omega)
  unfold pick
  dsimp only
  rw [if_neg nonempty, index, if_neg (by omega), Int.toNat_natCast, List.getElem?_eq_getElem below]

theorem pick_chosen (small : n < 2 ^ 63) (nonempty : candidates ≠ []) :
    ∃ node ∈ candidates, pick n candidates = .chosen node := by
  have below := Nat.mod_lt n (List.length_pos_iff.mpr nonempty)
  exact ⟨_, List.getElem_mem below, pick_eq small below⟩

theorem mem_of_pick (picked : pick n candidates = .chosen node) : node ∈ candidates := by
  unfold pick at picked
  dsimp only at picked
  split at picked
  · cases picked
  · split at picked
    · cases picked
    · split at picked
      next => cases picked
      next found =>
        cases picked
        exact List.mem_of_getElem? found

theorem pick_ne_noNode (n : Nat) (candidates : List UpstreamNode) : pick n candidates ≠ .noNode := by
  unfold pick
  dsimp only
  split
  · simp
  · split
    · simp
    · split <;> simp

/-! ## Selections -/

section

variable (nodes : List UpstreamNode) (ask : Ask) (excluded : List Bytes) (clock : Nat → Int)
  (heap : Heap)

private theorem grouped_nodes :
    Grouped (fun node => node ∈ nodes ∧ Eligible ask excluded clock heap node)
      (nodes.foldl (visit ask excluded clock) (heap, [])).2 := by
  have start : Grouped (fun node => node ∈ [] ∧ Eligible ask excluded clock heap node) [] :=
    ⟨by simp, by simp, by simp⟩
  exact (grouped_foldl (Asked.refl clock heap) start nodes).2

variable {nodes ask excluded clock heap} {rr : Nat}

theorem of_chosen {node : UpstreamNode}
    (chosen : (selectNodeFromSnapExcluding nodes ask excluded clock heap rr).1 = .chosen node) :
    (node ∈ nodes ∧ Eligible ask excluded clock heap node) ∧
      ∀ other ∈ nodes, Eligible ask excluded clock heap other →
        node.cfg.priority ≤ other.cfg.priority := by
  have grouped := grouped_nodes nodes ask excluded clock heap
  unfold selectNodeFromSnapExcluding at chosen
  dsimp only at chosen
  generalize (nodes.foldl (visit ask excluded clock) (heap, [])).2 = buckets at grouped chosen
  split at chosen
  next => cases chosen
  next nonempty =>
    obtain ⟨good, lowest⟩ := (grouped.lowestBucket nonempty).2 node (mem_of_pick chosen)
    exact ⟨good, fun other member eligible => lowest other ⟨member, eligible⟩⟩

theorem noNode_iff :
    (selectNodeFromSnapExcluding nodes ask excluded clock heap rr).1 = .noNode ↔
      ∀ node ∈ nodes, ¬ Eligible ask excluded clock heap node := by
  have grouped := grouped_nodes nodes ask excluded clock heap
  unfold selectNodeFromSnapExcluding
  dsimp only
  generalize (nodes.foldl (visit ask excluded clock) (heap, [])).2 = buckets at grouped
  split
  next empty =>
    refine ⟨fun _ node member eligible => ?_, fun _ => rfl⟩
    obtain ⟨bucket, within, _⟩ := grouped.complete node ⟨member, eligible⟩
    simp [empty] at within
  next nonempty =>
    refine ⟨fun picked => absurd picked (pick_ne_noNode _ _), fun all => ?_⟩
    obtain ⟨filled, members⟩ := grouped.lowestBucket nonempty
    obtain ⟨node, among⟩ := List.exists_mem_of_ne_nil _ filled
    obtain ⟨member, eligible⟩ := (members node among).1
    exact absurd eligible (all node member)

theorem not_crashed (small : rr < 2 ^ 63) :
    (selectNodeFromSnapExcluding nodes ask excluded clock heap rr).1 ≠ .crashed := by
  have grouped := grouped_nodes nodes ask excluded clock heap
  unfold selectNodeFromSnapExcluding
  dsimp only
  generalize (nodes.foldl (visit ask excluded clock) (heap, [])).2 = buckets at grouped
  split
  · simp
  · next nonempty =>
    obtain ⟨node, _, picked⟩ := pick_chosen small (grouped.lowestBucket nonempty).1
    dsimp only
    rw [picked]
    simp

end

end ClusterRouter.Router
