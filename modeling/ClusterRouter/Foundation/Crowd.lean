import ClusterRouter.Foundation.Machine

/-! Members that act one at a time on a state they share, and events of that state that may
bring newcomers: what every run keeps of each member, and when a level of the state is the total
of what the members hold. -/

set_option autoImplicit false

namespace ClusterRouter.Foundation

universe u v w x

/-! ## Totals -/

section

variable {Member : Type v}

def total (weight : Member → Int) (members : List Member) : Int := (members.map weight).sum

variable {weight : Member → Int} {members : List Member}

@[simp] theorem total_nil : total weight [] = 0 := rfl

@[simp] theorem total_cons (member : Member) :
    total weight (member :: members) = weight member + total weight members := by
  simp [total]

@[simp] theorem total_append (others : List Member) :
    total weight (members ++ others) = total weight members + total weight others := by
  simp [total]

theorem total_set {index : Nat} {member : Member} (next : Member)
    (found : members[index]? = some member) :
    total weight (members.set index next) =
      total weight members - weight member + weight next := by
  induction members generalizing index with
  | nil => simp at found
  | cons first rest ih =>
    cases index with
    | zero =>
      simp only [List.getElem?_cons_zero, Option.some.injEq] at found
      subst found
      simp only [List.set_cons_zero, total_cons]
      omega
    | succ index =>
      simp only [List.getElem?_cons_succ] at found
      simp only [List.set_cons_succ, total_cons, ih found]
      omega

theorem total_le_total {bound : Member → Int}
    (below : ∀ member ∈ members, weight member ≤ bound member) :
    total weight members ≤ total bound members := by
  induction members with
  | nil => simp
  | cons first rest ih =>
    have here := below first List.mem_cons_self
    have later := ih (fun member held => below member (List.mem_cons_of_mem _ held))
    simp only [total_cons]
    omega

theorem total_congr {other : Member → Int}
    (same : ∀ member ∈ members, weight member = other member) :
    total weight members = total other members := by
  simp only [total, List.map_congr_left same]

theorem total_add (first second : Member → Int) :
    total (fun member => first member + second member) members =
      total first members + total second members := by
  induction members with
  | nil => rfl
  | cons member rest ih =>
    simp only [total_cons, ih]
    omega

theorem total_nonneg (nonneg : ∀ member ∈ members, 0 ≤ weight member) :
    0 ≤ total weight members := by
  have zero : total (fun _ : Member => 0) members = 0 := by
    induction members with
    | nil => rfl
    | cons first rest ih =>
      simp [ih (fun member held => nonneg member (List.mem_cons_of_mem _ held))]
  rw [← zero]
  exact total_le_total nonneg

theorem weight_le_total {member : Member} (nonneg : ∀ member ∈ members, 0 ≤ weight member)
    (held : member ∈ members) : weight member ≤ total weight members := by
  induction members with
  | nil => cases held
  | cons first rest ih =>
    have others := fun other isOther => nonneg other (List.mem_cons_of_mem first isOther)
    have here := nonneg first List.mem_cons_self
    simp only [total_cons]
    rcases List.mem_cons.mp held with rfl | later
    · have := total_nonneg others
      omega
    · have := ih others later
      omega

theorem total_eq_zero (zero : ∀ member ∈ members, weight member = 0) :
    total weight members = 0 := by
  induction members with
  | nil => rfl
  | cons first rest ih =>
    simp [zero first List.mem_cons_self,
      ih (fun member held => zero member (List.mem_cons_of_mem _ held))]

theorem total_indicator (property : Member → Bool) :
    total (fun member => (property member).toInt) members = members.countP property := by
  induction members with
  | nil => rfl
  | cons first rest ih =>
    simp only [total_cons, ih, List.countP_cons]
    cases property first with
    | false => simp
    | true =>
      simp
      omega

end

/-! ## The machine of a crowd -/

structure Crowd (Shared : Type u) (Member : Type v) where
  shared : Shared
  members : List Member

inductive CrowdAction (Act : Type w) (Event : Type x) where
  | act (index : Nat) (act : Act)
  | event (event : Event)

/-- What a member does to the shared state, and what an event does to it and whom it
brings. -/
structure CrowdRules (Shared : Type u) (Member : Type v) (Act : Type w) (Event : Type x) where
  act : Shared → Member → Act → Option (Shared × Member)
  occur : Shared → Event → Shared × List Member

namespace CrowdRules

variable {Shared : Type u} {Member : Type v} {Act : Type w} {Event : Type x}
  (rules : CrowdRules Shared Member Act Event)

def step (crowd : Crowd Shared Member) : CrowdAction Act Event → Option (Crowd Shared Member)
  | .act index act =>
    (crowd.members[index]?).bind fun member =>
      (rules.act crowd.shared member act).map fun moved =>
        ⟨moved.1, crowd.members.set index moved.2⟩
  | .event event =>
    some ⟨(rules.occur crowd.shared event).1, crowd.members ++ (rules.occur crowd.shared event).2⟩

def machine : Machine (Crowd Shared Member) (CrowdAction Act Event) where
  step := rules.step

variable {crowd next : Crowd Shared Member} {Kind : Type w} {good : Member → Prop}
    {level : Kind → Shared → Int} {weight : Kind → Member → Int}

theorem step_act_eq_some {index : Nat} {act : Act} :
    rules.machine.step crowd (.act index act) = some next ↔
      ∃ member moved, crowd.members[index]? = some member ∧
        rules.act crowd.shared member act = some (next.shared, moved) ∧
        next.members = crowd.members.set index moved := by
  simp only [machine, step, Option.bind_eq_some_iff, Option.map_eq_some_iff, Prod.exists]
  constructor
  · rintro ⟨member, found, shared, moved, acted, rfl⟩
    exact ⟨member, moved, found, acted, rfl⟩
  · rintro ⟨member, moved, found, acted, members⟩
    exact ⟨member, found, next.shared, moved, acted, by rw [← members]⟩

theorem step_event {event : Event} :
    rules.machine.step crowd (.event event) =
      some ⟨(rules.occur crowd.shared event).1,
        crowd.members ++ (rules.occur crowd.shared event).2⟩ := rfl

/-- Every member is good, and the level is the total of what they hold. -/
def Balanced {Kind : Type w} (good : Member → Prop) (level : Kind → Shared → Int)
    (weight : Kind → Member → Int) (crowd : Crowd Shared Member) : Prop :=
  (∀ member ∈ crowd.members, good member) ∧
    ∀ kind, level kind crowd.shared = total (weight kind) crowd.members

/-- An act that keeps its member good and moves each level as it moves that member's
weight keeps the whole crowd balanced; it may rely on the level covering the weight. -/
theorem balanced_act (nonneg : ∀ kind member, good member → 0 ≤ weight kind member)
    (acts : ∀ shared member act shared' next, rules.act shared member act = some (shared', next) →
      good member → (∀ kind, weight kind member ≤ level kind shared) →
      good next ∧ ∀ kind, level kind shared' + weight kind member =
        level kind shared + weight kind next) {index : Nat} {act : Act}
    (stepped : rules.machine.step crowd (.act index act) = some next)
    (balanced : Balanced good level weight crowd) : Balanced good level weight next := by
  obtain ⟨member, moved, found, acted, members⟩ := rules.step_act_eq_some.mp stepped
  have held : member ∈ crowd.members := List.mem_of_getElem? found
  have covered : ∀ kind, weight kind member ≤ level kind crowd.shared := by
    intro kind
    rw [balanced.2 kind]
    exact weight_le_total (fun other isOther => nonneg kind other (balanced.1 other isOther)) held
  obtain ⟨stays, moves⟩ := acts _ _ _ _ _ acted (balanced.1 member held) covered
  constructor
  · intro other isOther
    rw [members] at isOther
    rcases List.mem_or_eq_of_mem_set isOther with earlier | rfl
    · exact balanced.1 other earlier
    · exact stays
  · intro kind
    have before := balanced.2 kind
    have change := moves kind
    rw [members, total_set moved found]
    omega

theorem balanced_event
    (events : ∀ shared event, (∀ member ∈ (rules.occur shared event).2, good member) ∧
      ∀ kind, level kind (rules.occur shared event).1 =
        level kind shared + total (weight kind) (rules.occur shared event).2) {event : Event}
    (stepped : rules.machine.step crowd (.event event) = some next)
    (balanced : Balanced good level weight crowd) : Balanced good level weight next := by
  rw [step_event] at stepped
  cases stepped
  obtain ⟨newcomers, moves⟩ := events crowd.shared event
  constructor
  · intro member held
    rcases List.mem_append.mp held with earlier | newcomer
    · exact balanced.1 member earlier
    · exact newcomers member newcomer
  · intro kind
    simp only [moves kind, balanced.2 kind, total_append]

/-- Along every run the members stay good and the levels stay the totals. -/
theorem run_balanced (nonneg : ∀ kind member, good member → 0 ≤ weight kind member)
    (acts : ∀ shared member act shared' next, rules.act shared member act = some (shared', next) →
      good member → (∀ kind, weight kind member ≤ level kind shared) →
      good next ∧ ∀ kind, level kind shared' + weight kind member =
        level kind shared + weight kind next)
    (events : ∀ shared event, (∀ member ∈ (rules.occur shared event).2, good member) ∧
      ∀ kind, level kind (rules.occur shared event).1 =
        level kind shared + total (weight kind) (rules.occur shared event).2)
    {final : Crowd Shared Member} {trace : List (CrowdAction Act Event)}
    (ran : rules.machine.run crowd trace = some final) (start : Balanced good level weight crowd) :
    Balanced good level weight final := by
  refine rules.machine.run_invariant (Balanced good level weight) ?_ ran start
  intro crowd action next stepped balanced
  cases action with
  | act index act => exact rules.balanced_act nonneg acts stepped balanced
  | event event => exact rules.balanced_event events stepped balanced

end CrowdRules

end ClusterRouter.Foundation
