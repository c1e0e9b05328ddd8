import ClusterRouter.SmartRoute.Decide

/-! The model rewrite and the request defaults of a node (`helpers.go`), and when these and the
smart router's rewrite return. The body `null` is accepted as a nil map. -/

set_option autoImplicit false

namespace ClusterRouter.Router

open Foundation

/-- A `json.RawMessage`, `none` where it is nil. -/
abbrev RawMessage := Option Bytes

/-- `Marshal` writes a raw message as the document it spells, a nil one as null, and fails
where it spells none. -/
def RawMessage.document : RawMessage → Option Json
  | none => some .null
  | some text => Json.parse text

/-- A body as a map of raw messages. All that is done with a raw message is to write it, so
it is kept as its document. -/
abbrev RawPayload := GoMap (Option Json)

def unmarshalRaw (body : Bytes) : Option RawPayload :=
  Json.unmarshalMap (fun document => some (some document)) body

def marshalRaw (payload : RawPayload) : Option Bytes :=
  Json.marshalMap (Option.map Json.compact) payload

/-- `nil` is `none`: the caller forwards the body as it is. -/
def applyModelRewrite (body : Bytes) (rewrites : Entries Bytes) : Except Panic (Option Bytes) :=
  if rewrites.entries.length = 0 then .ok none
  else
    let source := SmartRoute.extractModel body
    match rewrites.lookup source with
    | none => .ok none
    | some target =>
      if target = [] ∨ target = source then .ok none
      else
        match unmarshalRaw body with
        | none => .ok none
        | some payload => do
            let payload ← payload.assign (lit "model") (some (.string (Json.quote target)))
            return marshalRaw payload

def mergeDefault (state : RawPayload × Bool) (entry : Σ _ : Bytes, RawMessage) :
    Except Panic (RawPayload × Bool) :=
  if entry.1 = [] then .ok state
  else if (state.1.get entry.1).isSome then .ok state
  else do return (← state.1.assign entry.1 (RawMessage.document entry.2), true)

def mergeRequestDefaults (body : Bytes) (defaults : Entries RawMessage) :
    Except Panic (Option Bytes) :=
  if defaults.entries.length = 0 then .ok none
  else
    match unmarshalRaw body with
    | none => .ok none
    | some payload => do
        let (payload, changed) ← defaults.entries.foldlM mergeDefault (payload, false)
        if changed = false then return none else return marshalRaw payload

/-! ## What a call leaves of a body -/

/-- The call returns, and it returns `asIs` for a body that is not an object. -/
def Keeps {Result : Type} (body : Bytes) (asIs : Result) (call : Except Panic Result) : Prop :=
  ∃ result, call = .ok result ∧ (¬ Json.IsObject body → result = asIs)

theorem not_keeps_error {Result : Type} (body : Bytes) (asIs : Result) (panic : Panic) :
    ¬ Keeps body asIs (.error panic) := by
  rintro ⟨result, returned, _⟩
  cases returned

theorem keeps_ok_iff {Result : Type} {body : Bytes} {asIs result : Result}
    (notObject : ¬ Json.IsObject body) : Keeps body asIs (.ok result) ↔ result = asIs := by
  constructor
  · rintro ⟨returned, same, kept⟩
    cases same
    exact kept notObject
  · rintro rfl
    exact ⟨_, rfl, fun _ => rfl⟩

section

variable {body : Bytes}

theorem keeps_rewrite_iff (d : SmartRoute.Decision) :
    Keeps body (.ok body) (SmartRoute.rewrite body d) ↔
      (Json.IsNull body → d.passesThrough = false →
        SmartRoute.setsNothing d.model d.params ∧ body = lit "null") := by
  by_cases isNull : Json.IsNull body
  · have notObject := Json.not_isObject_of_isNull isNull
    cases passes : d.passesThrough with
    | true =>
      simp only [SmartRoute.rewrite, passes, if_true, keeps_ok_iff notObject]
      simp
    | false =>
      rcases SmartRoute.rewrite_of_isNull isNull passes with ⟨nothing, rewritten⟩ | ⟨sets, rewritten⟩
      · rw [rewritten, keeps_ok_iff notObject, Except.ok.injEq]
        simp [isNull, nothing, eq_comm]
      · rw [rewritten]
        exact iff_of_false (not_keeps_error _ _ _) fun holds => sets (holds isNull rfl).1
  · exact iff_of_true (SmartRoute.rewrite_of_not_isNull isNull d) fun holds => absurd holds isNull

theorem Keeps.toOption {call : Except Panic (Except SmartRoute.RewriteError Bytes)}
    (keeps : Keeps body (.ok body) call) :
    Keeps body body (call.map (fun result => result.toOption.getD body)) := by
  obtain ⟨result, rfl, kept⟩ := keeps
  refine ⟨_, rfl, fun notObject => ?_⟩
  rw [kept notObject]
  rfl

theorem keeps_routedBody_of_decide {r : SmartRoute.Router} {toLower : Bytes → Bytes}
    {request : Option Header}
    (keeps : ∀ d, r.decide toLower request body = .ok d →
      Keeps body (.ok body) (SmartRoute.rewrite body d)) :
    Keeps body body (r.routedBody toLower request body) := by
  unfold SmartRoute.Router.routedBody
  split
  · exact ⟨body, rfl, fun _ => rfl⟩
  next d decided => exact (keeps d decided).toOption

theorem keeps_routedBody_iff (toLower : Bytes → Bytes) (policy : Option SmartRoute.Policy)
    (request : Option Header) :
    Keeps body body ((SmartRoute.newRouter policy).routedBody toLower request body) ↔
      (Json.IsNull body → ∀ p ∈ policy, p.enabled = true → ∀ c ∈ p.unread toLower request,
        SmartRoute.setsNothing c.route.model c.route.params ∧ body = lit "null") := by
  constructor
  · intro keeps isNull p isPolicy enabled c isClass
    cases isPolicy
    rcases SmartRoute.decide_of_isNull toLower enabled request isNull with
      ⟨error, unclassified, _⟩ | ⟨found, source, isFound, notDisabled, notExplicit, decided⟩
    · rw [unclassified] at isClass
      cases isClass
    · rw [isFound] at isClass
      cases isClass
      have active : (SmartRoute.decisionFor c source).passesThrough = false := by
        simp [SmartRoute.Decision.passesThrough, SmartRoute.decisionFor, notDisabled, notExplicit]
      simp only [SmartRoute.Router.routedBody, decided] at keeps
      rcases SmartRoute.rewrite_of_isNull isNull active with ⟨nothing, rewritten⟩ | ⟨sets, rewritten⟩
      · rw [rewritten] at keeps
        have same := (keeps_ok_iff (Json.not_isObject_of_isNull isNull)).mp keeps
        exact ⟨nothing, same.symm⟩
      · rw [rewritten] at keeps
        exact absurd keeps (not_keeps_error _ _ _)
  · intro condition
    refine keeps_routedBody_of_decide fun d decided => (keeps_rewrite_iff d).mpr fun isNull active => ?_
    cases policy with
    | none =>
      cases decided
      cases active
    | some p =>
      cases enabled : p.enabled with
      | false =>
        simp only [SmartRoute.Router.decide, SmartRoute.newRouter, enabled, if_true] at decided
        cases decided
        cases active
      | true =>
        rcases SmartRoute.decide_of_isNull toLower enabled request isNull with
          ⟨error, _, failed⟩ | ⟨found, source, isFound, _, _, chosen⟩
        · rw [failed] at decided
          cases decided
        · rw [chosen] at decided
          cases decided
          exact condition isNull p rfl enabled found isFound

theorem applyModelRewrite_of_not_isNull (notNull : ¬ Json.IsNull body) (rewrites : Entries Bytes) :
    Keeps body none (applyModelRewrite body rewrites) := by
  unfold applyModelRewrite
  split
  · exact ⟨none, rfl, fun _ => rfl⟩
  dsimp only
  split
  · exact ⟨none, rfl, fun _ => rfl⟩
  split
  · exact ⟨none, rfl, fun _ => rfl⟩
  split
  · exact ⟨none, rfl, fun _ => rfl⟩
  next payload stored =>
    obtain ⟨next, assigned, _⟩ := GoMap.assign_of_isSome (Json.isSome_of_unmarshalMap notNull stored)
      (lit "model") (some (Json.string (Json.quote _)))
    rw [assigned]
    refine ⟨_, rfl, fun notObject => ?_⟩
    rw [unmarshalRaw, Json.unmarshalMap_eq_none notNull notObject] at stored
    cases stored

theorem keeps_applyModelRewrite_iff (rewrites : Entries Bytes) :
    Keeps body none (applyModelRewrite body rewrites) ↔
      (Json.IsNull body → ∀ target ∈ rewrites.lookup [], target = []) := by
  by_cases isNull : Json.IsNull body
  · have notObject := Json.not_isObject_of_isNull isNull
    unfold applyModelRewrite unmarshalRaw
    rw [SmartRoute.extractModel_of_isNull isNull, Json.unmarshalMap_of_isNull isNull]
    split
    next empty =>
      have absent : rewrites.lookup [] = none :=
        AList.lookup_eq_none.mpr fun member => by
          simp [AList.mem_keys, AList.keys, List.length_eq_zero_iff.mp empty] at member
      simp [keeps_ok_iff notObject, absent]
    dsimp only
    cases found : rewrites.lookup [] with
    | none => simp [keeps_ok_iff notObject]
    | some target =>
      by_cases same : target = []
      · simp [keeps_ok_iff notObject, same]
      · have panics : ¬ Keeps body (none : Option Bytes) (.error .assignmentToNilMap) :=
          not_keeps_error _ _ _
        simpa [same, GoMap.assign, bind, Except.bind, isNull] using panics
  · exact iff_of_true (applyModelRewrite_of_not_isNull isNull rewrites) fun holds => absurd holds isNull

theorem mergeDefault_of_isSome {state : RawPayload × Bool} (made : state.1.isSome = true)
    (entry : Σ _ : Bytes, RawMessage) :
    ∃ next, mergeDefault state entry = .ok next ∧ next.1.isSome = true := by
  unfold mergeDefault
  split
  · exact ⟨state, rfl, made⟩
  split
  · exact ⟨state, rfl, made⟩
  · obtain ⟨next, assigned, nextMade⟩ := GoMap.assign_of_isSome made entry.1 entry.2.document
    exact ⟨(next, true), by rw [assigned]; rfl, nextMade⟩

theorem mergeDefaults_nil (entries : List (Σ _ : Bytes, RawMessage)) :
    (∀ entry ∈ entries, entry.1 = []) ∧
        entries.foldlM mergeDefault ((none : RawPayload), false) = .ok (none, false) ∨
      (¬ ∀ entry ∈ entries, entry.1 = []) ∧
        entries.foldlM mergeDefault ((none : RawPayload), false) = .error .assignmentToNilMap := by
  induction entries with
  | nil => exact .inl ⟨by simp, rfl⟩
  | cons entry rest ih =>
    rw [List.foldlM_cons, List.forall_mem_cons]
    by_cases keyless : entry.1 = []
    · rw [mergeDefault, if_pos keyless]
      simp only [keyless, true_and]
      exact ih
    · refine .inr ⟨fun all => keyless all.1, ?_⟩
      rw [mergeDefault, if_neg keyless]
      rfl

theorem mergeRequestDefaults_of_not_isNull (notNull : ¬ Json.IsNull body)
    (defaults : Entries RawMessage) : Keeps body none (mergeRequestDefaults body defaults) := by
  unfold mergeRequestDefaults
  split
  · exact ⟨none, rfl, fun _ => rfl⟩
  split
  · exact ⟨none, rfl, fun _ => rfl⟩
  next payload stored =>
    have made := Json.isSome_of_unmarshalMap notNull stored
    have start : Option.isSome (payload, false).1 = true := made
    obtain ⟨final, merged, _⟩ :=
      @foldlM_of_kept Panic _ _ mergeDefault (fun state => state.1.isSome = true)
        (fun _ entry made => mergeDefault_of_isSome made entry) defaults.entries _ start
    rw [merged]
    refine ⟨if final.2 = false then none else marshalRaw final.1, ?_, fun notObject => ?_⟩
    · simp only [bind, Except.bind]
      split
      · rfl
      · rfl
    · rw [unmarshalRaw, Json.unmarshalMap_eq_none notNull notObject] at stored
      cases stored

theorem keeps_mergeRequestDefaults_iff (defaults : Entries RawMessage) :
    Keeps body none (mergeRequestDefaults body defaults) ↔
      (Json.IsNull body → ∀ entry ∈ defaults.entries, entry.1 = []) := by
  by_cases isNull : Json.IsNull body
  · have notObject := Json.not_isObject_of_isNull isNull
    unfold mergeRequestDefaults unmarshalRaw
    rw [Json.unmarshalMap_of_isNull isNull]
    split
    next empty =>
      rw [List.length_eq_zero_iff] at empty
      simp [keeps_ok_iff notObject, empty]
    · rcases mergeDefaults_nil defaults.entries with ⟨keyless, merged⟩ | ⟨keyed, merged⟩
      · dsimp only
        rw [merged]
        exact iff_of_true ((keeps_ok_iff notObject).mpr rfl) fun _ => keyless
      · dsimp only
        rw [merged]
        exact iff_of_false (not_keeps_error _ _ _) fun holds => keyed (holds isNull)
  · exact iff_of_true (mergeRequestDefaults_of_not_isNull isNull defaults)
      fun holds => absurd holds isNull

/-- Every rewriter returns, and leaves a body alone that is not an object, unless the body
is null and there is something to write to it. A null with white space around it is also
changed where there is nothing to write, by a rewrite that writes it again. -/
theorem body_rewriters_return_iff (toLower : Bytes → Bytes) (policy : Option SmartRoute.Policy)
    (request : Option Header) (body : Bytes) (d : SmartRoute.Decision) (rewrites : Entries Bytes)
    (defaults : Entries RawMessage) :
    (Keeps body body ((SmartRoute.newRouter policy).routedBody toLower request body) ∧
      Keeps body (.ok body) (SmartRoute.rewrite body d) ∧
      Keeps body none (applyModelRewrite body rewrites) ∧
      Keeps body none (mergeRequestDefaults body defaults)) ↔
    (Json.SpellsNull body →
      (∀ p ∈ policy, p.enabled = true → ∀ c ∈ p.unread toLower request,
        SmartRoute.setsNothing c.route.model c.route.params ∧ body = lit "null") ∧
      (d.passesThrough = false → SmartRoute.setsNothing d.model d.params ∧ body = lit "null") ∧
      (∀ target ∈ rewrites.lookup [], target = []) ∧
      (∀ entry ∈ defaults.entries, entry.1 = [])) := by
  rw [keeps_routedBody_iff, keeps_rewrite_iff, keeps_applyModelRewrite_iff,
    keeps_mergeRequestDefaults_iff, ← Json.parse_eq_null_iff]
  constructor
  · rintro ⟨routed, rewritten, renamed, merged⟩ isNull
    exact ⟨routed isNull, rewritten isNull, renamed isNull, merged isNull⟩
  · intro condition
    exact ⟨fun isNull => (condition isNull).1, fun isNull => (condition isNull).2.1,
      fun isNull => (condition isNull).2.2.1, fun isNull => (condition isNull).2.2.2⟩

def plainPolicy : SmartRoute.Policy :=
  ⟨true, ∅, lit "chat", [⟨lit "chat", none, ⟨[], 0⟩, ⟨lit "m", [], ∅⟩⟩]⟩

/-- The body null under a policy with one class, and under one default. -/
theorem null_body_panics :
    Json.IsNull (lit "null") ∧
    (SmartRoute.newRouter (some plainPolicy)).routedBody id (some .empty) (lit "null") =
      .error .assignmentToNilMap ∧
    mergeRequestDefaults (lit "null") (AList.singleton (lit "seed") (some (lit "1"))) =
      .error .assignmentToNilMap :=
  ⟨rfl, rfl, rfl⟩

end

end ClusterRouter.Router
