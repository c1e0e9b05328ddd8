import ClusterRouter.SmartRoute.Decide

/-! Which classes a decision may name. The flag of a class is looked at when an agent is forced
to it and when a classifier names it, but not when it is the default. -/

set_option autoImplicit false

namespace ClusterRouter.SmartRoute

open Foundation

/-! ## Accepted policies -/

theorem validateClasses_eq_ok {index : Nat} {seen names : List Bytes} {classes : List Class}
    (accepted : validateClasses index seen classes = .ok names) :
    (∀ c ∈ classes, c.name ≠ [] ∧ c.name ∉ seen) ∧ (classes.map Class.name).Nodup ∧
      ∀ name, name ∈ names ↔ name ∈ seen ∨ ∃ c ∈ classes, c.name = name := by
  induction classes generalizing index seen with
  | nil =>
    cases accepted
    simp
  | cons c rest ih =>
    simp only [validateClasses, bind_eq_ok, rejectIf_eq_ok, Unique.exists_iff] at accepted
    obtain ⟨named, fresh, _, accepted⟩ := accepted
    obtain ⟨later, apart, known⟩ := ih accepted
    refine ⟨?_, ?_, ?_⟩
    · intro other member
      rcases List.mem_cons.mp member with rfl | among
      · exact ⟨named, fresh⟩
      · exact ⟨(later other among).1, fun old => (later other among).2 (List.mem_cons_of_mem _ old)⟩
    · rw [List.map_cons, List.nodup_cons]
      refine ⟨fun member => ?_, apart⟩
      obtain ⟨other, among, same⟩ := List.mem_map.mp member
      apply (later other among).2
      rw [same]
      exact List.mem_cons_self
    · intro name
      rw [known, List.mem_cons, List.exists_mem_cons_iff, or_assoc, or_left_comm, eq_comm]

structure ValidPolicy (p : Policy) : Prop where
  named : ∀ c ∈ p.classes, c.name ≠ []
  apart : (p.classes.map Class.name).Nodup
  defaultDefined : ∃ c ∈ p.classes, c.name = p.defaultClass

variable {p : Policy} {name : Bytes} {found : Class}

theorem Policy.validate_eq_ok (accepted : p.validate = .ok ()) : ValidPolicy p := by
  simp only [Policy.validate, bind_eq_ok, rejectIf_eq_ok, not_not, Unique.exists_iff] at accepted
  obtain ⟨_, names, checked, _, defined, _⟩ := accepted
  obtain ⟨each, apart, known⟩ := validateClasses_eq_ok checked
  rw [known] at defined
  exact ⟨fun c member => (each c member).1, apart, defined.resolve_left List.not_mem_nil⟩

theorem Policy.lookup_eq_some (looked : p.lookup name = some found) :
    found ∈ p.classes ∧ found.name = name :=
  ⟨List.mem_of_find?_eq_some looked, by simpa using List.find?_some looked⟩

namespace ValidPolicy

variable {p : Policy}

theorem exists_lookup_defaultClass (valid : ValidPolicy p) :
    ∃ found, p.lookup p.defaultClass = some found := by
  obtain ⟨c, member, same⟩ := valid.defaultDefined
  cases looked : p.lookup p.defaultClass with
  | some found => exact ⟨found, rfl⟩
  | none =>
    have other := List.find?_eq_none.mp looked c member
    simp [same] at other

theorem eq_of_name_eq (valid : ValidPolicy p) {c other : Class} (member : c ∈ p.classes)
    (among : other ∈ p.classes) (same : c.name = other.name) : c = other :=
  List.inj_on_of_nodup_map valid.apart member among same

end ValidPolicy

/-! ## Decisions -/

def Policy.Offers (p : Policy) (taskClass : Bytes) : Prop :=
  taskClass = [] ∨ ∃ c ∈ p.classes, c.isEnabled = true ∧ c.name = taskClass

theorem Policy.offers_of_enabled (looked : p.lookup name = some found)
    (enabled : found.isEnabled = true) :
    p.Offers found.name :=
  .inr ⟨found, (Policy.lookup_eq_some looked).1, enabled, rfl⟩

theorem ValidPolicy.offers_iff (valid : ValidPolicy p) (looked : p.lookup name = some found) :
    p.Offers found.name ↔ found.isEnabled = true := by
  have member := (Policy.lookup_eq_some looked).1
  refine ⟨?_, Policy.offers_of_enabled looked⟩
  rintro (empty | ⟨c, among, enabled, same⟩)
  · exact absurd empty (valid.named found member)
  · rwa [valid.eq_of_name_eq member among same.symm]

def Undecided (p : Policy) (request : Option Header) (body : Bytes) (classifiers : List Classifier) :
    Prop :=
  ∀ c ∈ classifiers, ∀ name ∈ c.classify request body p, ∀ found ∈ p.lookup name,
    found.isEnabled = false

theorem classified_cases (p : Policy) (request : Option Header) (body : Bytes)
    (classifiers : List Classifier) :
    (classified p request body classifiers = none ∧ Undecided p request body classifiers) ∨
      ∃ name found source, p.lookup name = some found ∧ found.isEnabled = true ∧
        ¬ Undecided p request body classifiers ∧
        classified p request body classifiers = some (decisionFor found source) := by
  induction classifiers with
  | nil => exact .inl ⟨rfl, by simp [Undecided]⟩
  | cons c rest ih =>
    simp only [Undecided, List.forall_mem_cons] at ih ⊢
    rw [classified]
    cases named : c.classify request body p with
    | none => simpa [named] using ih
    | some name =>
      cases looked : p.lookup name with
      | none => simpa [named, looked] using ih
      | some found =>
        cases enabled : found.isEnabled with
        | false => simpa [named, looked, enabled] using ih
        | true => exact .inr ⟨name, found, c.name, looked, enabled, by simp [looked, enabled],
            by simp [looked, enabled]⟩

/-- The request is left to the default class: the policy is on, the agent is forced to no
enabled class, the body names no model of its own, and no classifier names an enabled
class. -/
structure FallsBack (toLower : Bytes → Bytes) (p : Policy) (request : Option Header) (body : Bytes)
    (classifiers : List Classifier) : Prop where
  enabled : p.enabled = true
  unforced : forced toLower p request = none
  unnamed : ¬ (extractModel body ≠ [] ∧ Bytes.equalFold (extractModel body) (lit "auto") = false)
  undecided : Undecided p request body classifiers

section

variable {toLower : Bytes → Bytes} {r : Router} {p : Policy} {request : Option Header} {body : Bytes}

theorem decide_cases (routed : r.policy = some p) :
    (FallsBack toLower p request body r.classifiers ∧
        r.decide toLower request body =
          match p.lookup p.defaultClass with
          | none => .error (.defaultClassNotFound p.defaultClass)
          | some found => .ok (decisionFor found .default)) ∨
      ¬ FallsBack toLower p request body r.classifiers ∧
        ∃ d, r.decide toLower request body = .ok d ∧ p.Offers d.taskClass := by
  simp only [Router.decide, routed]
  by_cases enabled : p.enabled = true
  · cases force : forced toLower p request with
    | some found =>
      refine .inr ⟨fun falls => ?_, decisionFor found .agentForce, by simp [enabled], ?_⟩
      · rw [falls.unforced] at force
        cases force
      · simp only [forced] at force
        split at force
        · cases force
        · obtain ⟨looked, isEnabled⟩ := Option.filter_eq_some_iff.mp force
          exact Policy.offers_of_enabled looked isEnabled
    | none =>
      by_cases named : extractModel body ≠ [] ∧
          Bytes.equalFold (extractModel body) (lit "auto") = false
      · refine .inr ⟨fun falls => falls.unnamed named,
          ⟨[], extractModel body, [], ∅, .explicitModel⟩, ?_, .inl rfl⟩
        simp only [enabled, if_pos named]
        rfl
      · simp only [enabled, if_neg named]
        rcases classified_cases p request body r.classifiers with
          ⟨unclassified, undecided⟩ | ⟨name, found, source, looked, isEnabled, decided, isClass⟩
        · refine .inl ⟨⟨enabled, force, named, undecided⟩, ?_⟩
          simp only [unclassified]
          rfl
        · refine .inr ⟨fun falls => decided falls.undecided, decisionFor found source, ?_,
            Policy.offers_of_enabled looked isEnabled⟩
          simp only [isClass]
          rfl
  · refine .inr ⟨fun falls => enabled falls.enabled, ⟨[], extractModel body, [], ∅, .disabled⟩, ?_,
      .inl rfl⟩
    simp [Bool.eq_false_iff.mpr enabled]

end

/-- Under an accepted policy the class of a decision is empty or that of an enabled class
exactly if the request is not left to a default class that is switched off. -/
theorem decided_class_enabled_iff {p : Policy} (accepted : p.validate = .ok ()) {r : Router}
    (routed : r.policy = some p) (toLower : Bytes → Bytes) (request : Option Header) (body : Bytes) :
    (∃ d, r.decide toLower request body = .ok d ∧ p.Offers d.taskClass) ↔
      (FallsBack toLower p request body r.classifiers →
        ∀ c ∈ p.classes, c.name = p.defaultClass → c.isEnabled = true) := by
  have valid := Policy.validate_eq_ok accepted
  obtain ⟨found, looked⟩ := valid.exists_lookup_defaultClass
  obtain ⟨member, isDefault⟩ := Policy.lookup_eq_some looked
  rcases @decide_cases toLower r p request body routed with ⟨falls, decided⟩ | ⟨settled, decided⟩
  · rw [looked] at decided
    constructor
    · rintro ⟨d, same, offers⟩ _ c among named
      rw [decided] at same
      cases same
      have same := valid.eq_of_name_eq among member (named.trans isDefault.symm)
      rw [same]
      exact (valid.offers_iff looked).mp offers
    · intro condition
      exact ⟨_, decided, (valid.offers_iff looked).mpr (condition falls found member isDefault)⟩
  · exact iff_of_true decided fun falls => absurd falls settled

def halfPolicy : Policy :=
  ⟨true, ∅, lit "chat",
    [⟨lit "chat", some false, ⟨[], 0⟩, ⟨lit "m", [], ∅⟩⟩, ⟨lit "code", none, ⟨[], 0⟩, ⟨lit "n", [], ∅⟩⟩]⟩

def codeRequest : Option Header := some (Header.empty.set headerTaskClass (lit "code"))

theorem decided_class_enabled_header :
    ∃ d, (newRouter (some halfPolicy)).decide id codeRequest (lit "\x7b\x7d") = .ok d ∧
      halfPolicy.Offers d.taskClass := by
  refine (decided_class_enabled_iff rfl rfl id codeRequest (lit "\x7b\x7d")).mpr fun falls => ?_
  have off := falls.undecided headerClassifier List.mem_cons_self (lit "code") rfl
    ⟨lit "code", none, ⟨[], 0⟩, ⟨lit "n", [], ∅⟩⟩ rfl
  cases off

theorem switched_off_default_chosen :
    halfPolicy.validate = .ok () ∧
      ∃ d, (newRouter (some halfPolicy)).decide id (some .empty) (lit "\x7b\x7d") = .ok d ∧
        ¬ halfPolicy.Offers d.taskClass := by
  refine ⟨rfl, _, rfl, ?_⟩
  rintro (empty | ⟨c, member, enabled, same⟩)
  · cases empty
  · rcases List.mem_cons.mp member with rfl | member
    · cases enabled
    · rw [List.mem_singleton.mp member] at same
      cases same

end ClusterRouter.SmartRoute
