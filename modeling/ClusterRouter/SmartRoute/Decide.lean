import ClusterRouter.SmartRoute.Policy

/-! `smartroute.go`: a request is resolved to a model and a tier, and its body rewritten. A
write to a nil map panics. -/

set_option autoImplicit false

namespace ClusterRouter.SmartRoute

open Foundation

inductive Source where
  | header
  | explicitModel
  | heuristic
  | default
  | disabled
  | agentForce
  deriving DecidableEq, Repr

structure Decision where
  taskClass : Bytes
  model : Bytes
  tier : Bytes
  params : Entries Json.Value
  source : Source

/-! ## What is read of a body -/

def extractModel (body : Bytes) : Bytes :=
  match Json.parse body with
  | some (.object members) =>
    (Json.storeField (lit "model") Json.storeString [] members).getD []
  | _ => []

/-- The text of a message's content: a string, or the text parts of an array. -/
def contentText : Option Json → Bytes
  | some (.string raw) => Json.unquote raw
  | some (.array items) =>
    match Json.storeSlice [] (Json.storeStruct (lit "text") Json.storeString) .empty
        (.array items) with
    | some parts => parts.elements.flatten
    | none => []
  | _ => []

/-- A message's content is kept as it is spelled; it is absent unless it was a member. -/
def storeMessage : Option Json → Json → Option (Option Json) :=
  Json.storeStruct (lit "content") (fun _ content => some (some content))

def extractPrompt (body : Bytes) : Bytes :=
  match Json.parse body with
  | some (.object members) =>
    match Json.storeField (lit "prompt") Json.storeString [] members,
        Json.storeField (lit "messages") (Json.storeSlice none storeMessage) .empty members with
    | some prompt, some messages => prompt ++ messages.elements.flatMap contentText
    | _, _ => []
  | _ => []

/-! ## Classification -/

structure Classifier where
  name : Source
  classify : Option Header → Bytes → Policy → Option Bytes

/-- A name that is not that of a class is ignored. -/
def headerClassifier : Classifier where
  name := .header
  classify
    | none, _, _ => none
    | some header, _, p =>
      let name := Bytes.trimSpace (header.get headerTaskClass)
      if name = [] then none else if (p.lookup name).isSome then some name else none

/-- The class whose least prompt is the longest that this prompt reaches. -/
def bySize (prompt : Bytes) (classes : List Class) : Bytes × Int :=
  classes.foldl
    (fun (best : Bytes × Int) c =>
      if 0 < c.matching.minPromptChars ∧ c.matching.minPromptChars ≤ (prompt.length : Int) ∧
          best.2 < c.matching.minPromptChars then (c.name, c.matching.minPromptChars)
      else best) ([], 0)

def hasMarker (prompt : Bytes) (c : Class) : Bool :=
  c.matching.anyOfMarkers.any (fun marker => decide (marker ≠ []) && contains prompt marker)

def heuristicClassifier : Classifier where
  name := .heuristic
  classify _ body p :=
    let prompt := extractPrompt body
    if prompt = [] then none
    else
      let (best, _) := bySize prompt p.enabledClasses
      if best ≠ [] then some best
      else (p.enabledClasses.find? (hasMarker prompt)).map Class.name

structure Router where
  policy : Option Policy
  classifiers : List Classifier

def newRouter (p : Option Policy) : Router := ⟨p, [headerClassifier, heuristicClassifier]⟩

/-! ## Decide -/

inductive DecideError where
  | defaultClassNotFound (name : Bytes)
  deriving DecidableEq, Repr

def decisionFor (c : Class) (source : Source) : Decision :=
  ⟨c.name, c.route.model, c.route.tier, c.route.params, source⟩

def classified (p : Policy) (request : Option Header) (body : Bytes) :
    List Classifier → Option Decision
  | [] => none
  | c :: rest =>
    match (c.classify request body p).bind p.lookup with
    | none => classified p request body rest
    | some found =>
      if found.isEnabled then some (decisionFor found c.name)
      else classified p request body rest

def forced (toLower : Bytes → Bytes) (p : Policy) (request : Option Header) : Option Class :=
  let name := p.forceClass toLower (detectAgent toLower request)
  if name = [] then none else (p.lookup name).filter Class.isEnabled

namespace Router

def agentAllowed (toLower : Bytes → Bytes) (r : Router) (agent : Bytes) : Bool :=
  match r.policy with
  | none => true
  | some p => if p.enabled then p.agentAllowed toLower agent else true

/-- Only the letters a, u, t and o are compared, each of which is equal to its capital and
to nothing else. -/
def decide (toLower : Bytes → Bytes) (r : Router) (request : Option Header) (body : Bytes) :
    Except DecideError Decision :=
  match r.policy with
  | none => .ok ⟨[], extractModel body, [], ∅, .disabled⟩
  | some p =>
    if p.enabled = false then .ok ⟨[], extractModel body, [], ∅, .disabled⟩
    else
      match forced toLower p request with
      | some found => .ok (decisionFor found .agentForce)
      | none =>
        let model := extractModel body
        if model ≠ [] ∧ Bytes.equalFold model (lit "auto") = false then
          .ok ⟨[], model, [], ∅, .explicitModel⟩
        else
          match classified p request body r.classifiers with
          | some decision => .ok decision
          | none =>
            match p.lookup p.defaultClass with
            | none => .error (.defaultClassNotFound p.defaultClass)
            | some found => .ok (decisionFor found .default)

end Router

/-! ## Rewrite -/

inductive RewriteError where
  | reencode
  deriving DecidableEq, Repr

def Decision.passesThrough (d : Decision) : Bool :=
  Decidable.decide (d.source = .disabled ∨ d.source = .explicitModel)

def applyModel (payload : GoMap Json.Value) (model : Bytes) : Except Panic (GoMap Json.Value) :=
  if model ≠ [] then payload.assign (lit "model") (.string model) else .ok payload

/-- `payload[k] = v` for the parameters that the caller did not set. -/
def applyParams (payload : GoMap Json.Value) (params : Entries Json.Value) :
    Except Panic (GoMap Json.Value) :=
  params.entries.foldlM
    (fun payload entry =>
      if (payload.get entry.1).isSome then .ok payload else payload.assign entry.1 entry.2) payload

def rewrite (body : Bytes) (d : Decision) : Except Panic (Except RewriteError Bytes) :=
  if d.passesThrough then .ok (.ok body)
  else
    match Json.unmarshalMap Json.storeAny body with
    | none => .ok (.ok body)
    | some payload => do
        let payload ← applyModel payload d.model
        let payload ← applyParams payload d.params
        match Json.marshalMap Json.marshalAny payload with
        | some out => .ok (.ok out)
        | none => .ok (.error .reencode)

/-- The body that the request handler goes on with: the rewritten one, unless `Decide` or
`Rewrite` returned an error (`main.go`). -/
def Router.routedBody (toLower : Bytes → Bytes) (r : Router) (request : Option Header)
    (body : Bytes) : Except Panic Bytes :=
  match r.decide toLower request body with
  | .error _ => .ok body
  | .ok d => (rewrite body d).map (fun result => result.toOption.getD body)

/-! ## The body null -/

variable {body : Bytes}

theorem extractModel_of_isNull (isNull : Json.IsNull body) : extractModel body = [] := by
  unfold extractModel
  rw [show Json.parse body = some .null from isNull]

theorem extractPrompt_of_isNull (isNull : Json.IsNull body) : extractPrompt body = [] := by
  unfold extractPrompt
  rw [show Json.parse body = some .null from isNull]

/-- The class of a request whose body says nothing. -/
def Policy.unread (toLower : Bytes → Bytes) (p : Policy) (request : Option Header) : Option Class :=
  let named := (headerClassifier.classify request [] p).bind p.lookup
  (forced toLower p request).or ((named.filter Class.isEnabled).or (p.lookup p.defaultClass))

theorem classified_of_isNull (p : Policy) (request : Option Header) (isNull : Json.IsNull body) :
    classified p request body [headerClassifier, heuristicClassifier] =
      (((headerClassifier.classify request [] p).bind p.lookup).filter Class.isEnabled).map
        (decisionFor · .header) := by
  have silent : heuristicClassifier.classify request body p = none := by
    simp [heuristicClassifier, extractPrompt_of_isNull isNull]
  have same : headerClassifier.classify request body p = headerClassifier.classify request [] p := by
    cases request with
    | none => rfl
    | some header => rfl
  simp only [classified, silent, same]
  cases named : (headerClassifier.classify request [] p).bind p.lookup with
  | none => rfl
  | some found =>
    cases enabled : found.isEnabled with
    | false => simp [enabled]
    | true => simp [enabled, headerClassifier]

theorem decide_of_isNull (toLower : Bytes → Bytes) {p : Policy} (enabled : p.enabled = true)
    (request : Option Header) (isNull : Json.IsNull body) :
    (∃ error, p.unread toLower request = none ∧
        (newRouter (some p)).decide toLower request body = .error error) ∨
      ∃ found source, p.unread toLower request = some found ∧
        source ≠ .disabled ∧ source ≠ .explicitModel ∧
        (newRouter (some p)).decide toLower request body = .ok (decisionFor found source) := by
  simp only [Router.decide, newRouter, enabled, extractModel_of_isNull isNull,
    classified_of_isNull p request isNull, Policy.unread]
  cases force : forced toLower p request with
  | some found => exact .inr ⟨found, .agentForce, by simp⟩
  | none =>
    cases named : ((headerClassifier.classify request [] p).bind p.lookup).filter
        Class.isEnabled with
    | some found => exact .inr ⟨found, .header, by simp⟩
    | none =>
      cases fallback : p.lookup p.defaultClass with
      | some found => exact .inr ⟨found, .default, by simp⟩
      | none => exact .inl ⟨.defaultClassNotFound p.defaultClass, by simp⟩

/-! ## When a rewrite returns -/

def setsNothing (model : Bytes) (params : Entries Json.Value) : Prop :=
  model = [] ∧ params.entries = []

theorem applyModel_of_isSome {payload : GoMap Json.Value} (made : payload.isSome = true)
    (model : Bytes) :
    ∃ next : GoMap Json.Value, applyModel payload model = .ok next ∧ next.isSome = true := by
  unfold applyModel
  split
  · exact GoMap.assign_of_isSome made _ _
  · exact ⟨payload, rfl, made⟩

theorem applyParams_of_isSome {payload : GoMap Json.Value} (made : payload.isSome = true)
    (params : Entries Json.Value) :
    ∃ next : GoMap Json.Value, applyParams payload params = .ok next ∧ next.isSome = true := by
  refine foldlM_of_kept (fun payload entry made => ?_) params.entries made
  split
  · exact ⟨payload, rfl, made⟩
  · exact GoMap.assign_of_isSome made entry.1 entry.2

theorem applyParams_nil_of_ne {params : Entries Json.Value} (nonempty : params.entries ≠ []) :
    applyParams none params = .error .assignmentToNilMap := by
  obtain ⟨entry, rest, isEntries⟩ := List.exists_cons_of_ne_nil nonempty
  unfold applyParams
  rw [isEntries]
  rfl

theorem rewrite_of_not_isNull (notNull : ¬ Json.IsNull body) (d : Decision) :
    ∃ result, rewrite body d = .ok result ∧ (¬ Json.IsObject body → result = .ok body) := by
  unfold rewrite
  split
  · exact ⟨_, rfl, fun _ => rfl⟩
  split
  · exact ⟨_, rfl, fun _ => rfl⟩
  next payload stored =>
    have made := Json.isSome_of_unmarshalMap notNull stored
    have isObject : Json.IsObject body := by
      by_contra notObject
      rw [Json.unmarshalMap_eq_none notNull notObject] at stored
      cases stored
    obtain ⟨named, isNamed, made⟩ := applyModel_of_isSome made d.model
    obtain ⟨filled, isFilled, _⟩ := applyParams_of_isSome made d.params
    simp only [isNamed, isFilled, bind, Except.bind]
    split
    · exact ⟨_, rfl, fun notObject => absurd isObject notObject⟩
    · exact ⟨_, rfl, fun notObject => absurd isObject notObject⟩

theorem rewrite_of_isNull (isNull : Json.IsNull body) {d : Decision}
    (active : d.passesThrough = false) :
    setsNothing d.model d.params ∧ rewrite body d = .ok (.ok (lit "null")) ∨
      ¬ setsNothing d.model d.params ∧ rewrite body d = .error .assignmentToNilMap := by
  unfold rewrite
  rw [active, if_neg Bool.false_ne_true, Json.unmarshalMap_of_isNull isNull]
  by_cases named : d.model = []
  · by_cases empty : d.params.entries = []
    · refine .inl ⟨⟨named, empty⟩, ?_⟩
      simp [applyModel, named, applyParams, empty, Json.marshalMap, bind, Except.bind, pure,
        Except.pure]
    · refine .inr ⟨fun nothing => empty nothing.2, ?_⟩
      simp [applyModel, named, applyParams_nil_of_ne empty, bind, Except.bind]
  · refine .inr ⟨fun nothing => named nothing.1, ?_⟩
    simp [applyModel, named, GoMap.assign, bind, Except.bind]

end ClusterRouter.SmartRoute
