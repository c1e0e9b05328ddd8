import ClusterRouter.Channel.Validate

/-! `Resolver.Resolve` of `internal/channel/secret.go` under concurrent callers. `group.Do` runs
`resolveOnce` at most once at a time for each reference: who finds a flight in the air waits for
it, who finds none opens one. The function a flight runs looks into the cache again, asks the
backend, and stores what is not empty. Every step takes one instant, and calls and flights are
named by the instant at which they began. -/

set_option autoImplicit false

namespace ClusterRouter.Channel

open Foundation

namespace Resolver

/-- What a call of `Resolve` answers, and from where: a value in the cache, a call of the
backend, or no provider for the scheme. -/
inductive Answer where
  | stored (value : Bytes)
  | fetched (call : Nat) (value : Bytes)
  | failed (call : Nat)
  | rejected
  deriving DecidableEq, Repr

def Answer.value : Answer → Option Bytes
  | .stored value | .fetched _ value => some value
  | .failed _ | .rejected => none

def Answer.call : Answer → Option Nat
  | .fetched call _ | .failed call => some call
  | .stored _ | .rejected => none

inductive FlightStage where
  | opened
  | cleared
  | calling (call : Nat)
  | storing (call : Nat) (value : Bytes)
  | resolved (answer : Answer)
  deriving DecidableEq, Repr

/-- What the resolver holds for one reference: its entry in the cache, its flight in the
air, what its earlier flights shared and when, and the replies of the backend to the calls
made for it. A reply of `none` is an error. -/
structure RefState where
  cache : Option Bytes
  flight : Option (Nat × FlightStage)
  ended : Nat → Option (Answer × Nat)
  calls : Nat → Option (Option (Option Bytes))

/-- How far a call of `Resolve` has come. Its answer was shared at `shared` and returned
at `instant`. -/
inductive ResolveStage where
  | looking
  | missed
  | waiting (flight : Nat)
  | returned (answer : Answer) (shared instant : Nat)
  deriving DecidableEq, Repr

structure Resolve where
  ref : Bytes
  stage : ResolveStage
  deriving DecidableEq, Repr

structure State where
  clock : Nat
  refs : Bytes → RefState
  resolves : Nat → Option Resolve

def newResolver : State where
  clock := 0
  refs := fun _ => ⟨none, none, fun _ => none, fun _ => none⟩
  resolves := fun _ => none

inductive Action where
  | start (ref : Bytes)
  | look (resolve : Nat)
  | enter (resolve : Nat)
  | lookAgain (ref : Bytes)
  | call (ref : Bytes)
  | reply (ref : Bytes) (reply : Option Bytes)
  | store (ref : Bytes)
  | finish (ref : Bytes)
  | answer (resolve : Nat)
  deriving DecidableEq, Repr

def providerFor (providers : Scheme → Bool) (ref : Bytes) : Bool := (refScheme ref).any providers

def lookStage (providers : Scheme → Bool) (s : State) (ref : Bytes) : ResolveStage :=
  match (s.refs ref).cache with
  | some value => .returned (.stored value) s.clock s.clock
  | none =>
    if providerFor providers ref then .missed else .returned .rejected s.clock s.clock

namespace RefState

variable (now : Nat) (r : RefState)

def openFlight : RefState := { r with flight := some (now, .opened) }

def lookAgain : Option RefState :=
  match r.flight with
  | some (flight, .opened) =>
    match r.cache with
    | some value => some { r with flight := some (flight, .resolved (.stored value)) }
    | none => some { r with flight := some (flight, .cleared) }
  | _ => none

def call : Option RefState :=
  match r.flight with
  | some (flight, .cleared) =>
    some { r with
      flight := some (flight, .calling now)
      calls := Function.update r.calls now (some none) }
  | _ => none

/-- An error and an empty value are failures; only another value is stored. -/
def replyStage (call : Nat) : Option Bytes → FlightStage
  | some (b :: value) => .storing call (b :: value)
  | some [] | none => .resolved (.failed call)

def reply (answer : Option Bytes) : Option RefState :=
  match r.flight with
  | some (flight, .calling call) =>
    some { r with
      flight := some (flight, replyStage call answer)
      calls := Function.update r.calls call (some (some answer)) }
  | _ => none

def store : Option RefState :=
  match r.flight with
  | some (flight, .storing call value) =>
    some { r with cache := some value, flight := some (flight, .resolved (.fetched call value)) }
  | _ => none

def finish : Option RefState :=
  match r.flight with
  | some (flight, .resolved answer) =>
    some { r with flight := none, ended := Function.update r.ended flight (some (answer, now)) }
  | _ => none

end RefState

def State.tick (s : State) : State := { s with clock := s.clock + 1 }

def State.setResolve (s : State) (resolve : Nat) (ref : Bytes) (stage : ResolveStage) : State :=
  { s with resolves := Function.update s.resolves resolve (some ⟨ref, stage⟩) }

def State.setRef (s : State) (ref : Bytes) (r : RefState) : State :=
  { s with refs := Function.update s.refs ref r }

section State

variable (s : State)

theorem State.setResolve_same (resolve : Nat) (ref : Bytes) (stage : ResolveStage) :
    (s.setResolve resolve ref stage).resolves resolve = some ⟨ref, stage⟩ :=
  Function.update_self ..

theorem State.setResolve_other {resolve other : Nat} (different : other ≠ resolve) (ref : Bytes)
    (stage : ResolveStage) : (s.setResolve resolve ref stage).resolves other = s.resolves other :=
  Function.update_of_ne different ..

theorem State.setRef_same (ref : Bytes) (r : RefState) : (s.setRef ref r).refs ref = r :=
  Function.update_self ..

theorem State.setRef_other {ref other : Bytes} (different : other ≠ ref) (r : RefState) :
    (s.setRef ref r).refs other = s.refs other :=
  Function.update_of_ne different ..

end State

def step (providers : Scheme → Bool) (s : State) : Action → Option State
  | .start ref => some (s.setResolve s.clock ref .looking).tick
  | .look resolve =>
    match s.resolves resolve with
    | some ⟨ref, .looking⟩ => some (s.setResolve resolve ref (lookStage providers s ref)).tick
    | _ => none
  | .enter resolve =>
    match s.resolves resolve with
    | some ⟨ref, .missed⟩ =>
      match (s.refs ref).flight with
      | some (flight, _) => some (s.setResolve resolve ref (.waiting flight)).tick
      | none =>
        some ((s.setRef ref ((s.refs ref).openFlight s.clock)).setResolve resolve ref
          (.waiting s.clock)).tick
    | _ => none
  | .lookAgain ref => ((s.refs ref).lookAgain).map (fun r => (s.setRef ref r).tick)
  | .call ref => ((s.refs ref).call s.clock).map (fun r => (s.setRef ref r).tick)
  | .reply ref answer => ((s.refs ref).reply answer).map (fun r => (s.setRef ref r).tick)
  | .store ref => ((s.refs ref).store).map (fun r => (s.setRef ref r).tick)
  | .finish ref => ((s.refs ref).finish s.clock).map (fun r => (s.setRef ref r).tick)
  | .answer resolve =>
    match s.resolves resolve with
    | some ⟨ref, .waiting flight⟩ =>
      match (s.refs ref).ended flight with
      | some (answer, shared) =>
        some (s.setResolve resolve ref (.returned answer shared s.clock)).tick
      | none => none
    | _ => none

def machine (providers : Scheme → Bool) : Machine State Action where
  step := step providers

/-! ## What a step does to a reference -/

inductive RefStep (now : Nat) (r : RefState) : RefState → Prop where
  | opened (idle : r.flight = none) : RefStep now r { r with flight := some (now, .opened) }
  | hit (flight : Nat) (value : Bytes) (here : r.flight = some (flight, .opened))
      (cached : r.cache = some value) :
      RefStep now r { r with flight := some (flight, .resolved (.stored value)) }
  | cleared (flight : Nat) (here : r.flight = some (flight, .opened)) (uncached : r.cache = none) :
      RefStep now r { r with flight := some (flight, .cleared) }
  | called (flight : Nat) (here : r.flight = some (flight, .cleared)) :
      RefStep now r { r with
        flight := some (flight, .calling now)
        calls := Function.update r.calls now (some none) }
  | usable (flight call : Nat) (value : Bytes) (here : r.flight = some (flight, .calling call))
      (nonempty : value ≠ []) :
      RefStep now r { r with
        flight := some (flight, .storing call value)
        calls := Function.update r.calls call (some (some (some value))) }
  | failed (flight call : Nat) (answer : Option Bytes)
      (here : r.flight = some (flight, .calling call)) (unusable : answer = none ∨ answer = some []) :
      RefStep now r { r with
        flight := some (flight, .resolved (.failed call))
        calls := Function.update r.calls call (some (some answer)) }
  | stored (flight call : Nat) (value : Bytes)
      (here : r.flight = some (flight, .storing call value)) :
      RefStep now r { r with
        cache := some value
        flight := some (flight, .resolved (.fetched call value)) }
  | finished (flight : Nat) (answer : Answer) (here : r.flight = some (flight, .resolved answer)) :
      RefStep now r { r with
        flight := none
        ended := Function.update r.ended flight (some (answer, now)) }

namespace RefState

variable {now : Nat} {r next : RefState}

theorem lookAgain_eq_some (looked : r.lookAgain = some next) : RefStep now r next := by
  unfold lookAgain at looked
  split at looked
  next flight here =>
    split at looked
    next value cached =>
      cases looked
      exact .hit flight value here cached
    next uncached =>
      cases looked
      exact .cleared flight here uncached
  next => cases looked

theorem call_eq_some (called : r.call now = some next) : RefStep now r next := by
  unfold call at called
  split at called
  next flight here =>
    cases called
    exact .called flight here
  next => cases called

theorem reply_eq_some {answer : Option Bytes} (replied : r.reply answer = some next) :
    RefStep now r next := by
  unfold reply at replied
  split at replied
  next flight call here =>
    cases replied
    unfold replyStage
    split
    next b value => exact .usable flight call (b :: value) here (List.cons_ne_nil b value)
    next => exact .failed flight call (some []) here (.inr rfl)
    next => exact .failed flight call none here (.inl rfl)
  next => cases replied

theorem store_eq_some (stored : r.store = some next) : RefStep now r next := by
  unfold store at stored
  split at stored
  next flight call value here =>
    cases stored
    exact .stored flight call value here
  next => cases stored

theorem finish_eq_some (finished : r.finish now = some next) : RefStep now r next := by
  unfold finish at finished
  split at finished
  next flight answer here =>
    cases finished
    exact .finished flight answer here
  next => cases finished

end RefState

/-! ## One reference -/

namespace RefState

def Usable (r : RefState) (call : Nat) (value : Bytes) : Prop :=
  r.calls call = some (some (some value)) ∧ value ≠ []

def Failed (r : RefState) (call : Nat) : Prop :=
  r.calls call = some (some none) ∨ r.calls call = some (some (some []))

/-- A flight answers from the cache, or from a call that began in it. -/
def AnswerOf (r : RefState) (flight : Nat) : Answer → Prop
  | .stored value => r.cache = some value
  | .fetched call value => flight < call ∧ r.Usable call value
  | .failed call => flight < call ∧ r.Failed call
  | .rejected => False

def StageOf (r : RefState) (flight : Nat) : FlightStage → Prop
  | .opened => True
  | .cleared => r.cache = none
  | .calling call => r.cache = none ∧ flight < call ∧ r.calls call = some none
  | .storing call value => r.cache = none ∧ flight < call ∧ r.Usable call value
  | .resolved answer => r.AnswerOf flight answer

structure Extends (r next : RefState) : Prop where
  cache : ∀ value, r.cache = some value → next.cache = some value
  calls : ∀ call reply, r.calls call = some (some reply) → next.calls call = some (some reply)
  ended : ∀ flight shared, r.ended flight = some shared → next.ended flight = some shared

theorem AnswerOf.extended {r next : RefState} {flight : Nat} {answer : Answer}
    (sound : r.AnswerOf flight answer) (later : r.Extends next) : next.AnswerOf flight answer := by
  cases answer with
  | stored value => exact later.cache value sound
  | fetched call value => exact ⟨sound.1, later.calls _ _ sound.2.1, sound.2.2⟩
  | failed call => exact ⟨sound.1, sound.2.imp (later.calls _ _) (later.calls _ _)⟩
  | rejected => exact sound

/-- What holds of a reference at any instant: the flight in the air began after every
earlier one had ended, and there is at most one usable reply, which is in the cache or
about to be stored there. -/
structure Sound (now : Nat) (r : RefState) : Prop where
  began : ∀ call reply, r.calls call = some reply → call < now
  airborne : ∀ flight stage, r.flight = some (flight, stage) → flight < now ∧ r.StageOf flight stage
  shared : ∀ flight answer instant, r.ended flight = some (answer, instant) →
    r.AnswerOf flight answer ∧ flight < instant ∧ instant < now
  after : ∀ flight stage earlier answer instant, r.flight = some (flight, stage) →
    r.ended earlier = some (answer, instant) → instant < flight
  apart : ∀ first second answer other instant later, r.ended first = some (answer, instant) →
    r.ended second = some (other, later) → first < second → instant < second
  kept : ∀ call value, r.Usable call value →
    r.cache = some value ∨ ∃ flight, r.flight = some (flight, .storing call value)
  cached : ∀ value, r.cache = some value → ∃ call, r.Usable call value
  once : ∀ first second value other, r.Usable first value → r.Usable second other → first = second
  called : ∀ flight answer instant call, r.ended flight = some (answer, instant) →
    answer.call = some call → call < instant

namespace Sound

variable {now : Nat} {r next : RefState}

theorem tick (sound : r.Sound now) : r.Sound (now + 1) where
  began call reply found := Nat.lt_succ_of_lt (sound.began call reply found)
  airborne flight stage here :=
    ⟨Nat.lt_succ_of_lt (sound.airborne flight stage here).1, (sound.airborne flight stage here).2⟩
  shared flight answer instant ended := by
    obtain ⟨isAnswer, opened, past⟩ := sound.shared flight answer instant ended
    exact ⟨isAnswer, opened, Nat.lt_succ_of_lt past⟩
  after := sound.after
  apart := sound.apart
  kept := sound.kept
  cached := sound.cached
  once := sound.once
  called := sound.called

variable {stage : FlightStage}

section

variable (sound : r.Sound now)

include sound

theorem not_ended {flight : Nat} (here : r.flight = some (flight, stage)) :
    r.ended flight = none := by
  cases ended : r.ended flight with
  | none => rfl
  | some entry =>
    have after := sound.after flight stage flight entry.1 entry.2 here ended
    have opened := (sound.shared flight entry.1 entry.2 ended).2.1
    omega

theorem call_lt {flight call : Nat} {answer : Answer}
    (isAnswer : r.AnswerOf flight answer) (isCall : answer.call = some call) : call < now := by
  cases answer with
  | stored | rejected => cases isCall
  | fetched other value =>
    cases isCall
    exact sound.began _ _ isAnswer.2.1
  | failed other =>
    cases isCall
    rcases isAnswer.2 with error | empty
    · exact sound.began _ _ error
    · exact sound.began _ _ empty

theorem not_usable {flight : Nat} (here : r.flight = some (flight, stage))
    (uncached : r.cache = none) (elsewhere : ∀ call value, stage ≠ .storing call value)
    (call : Nat) (value : Bytes) :
    ¬ r.Usable call value := by
  intro usable
  rcases sound.kept call value usable with cached | ⟨other, storing⟩
  · rw [uncached] at cached
    cases cached
  · rw [here] at storing
    cases storing
    exact elsewhere call value rfl

theorem extended (step : RefStep now r next) : r.Extends next := by
  have same : r.Extends r := ⟨fun _ => id, fun _ _ => id, fun _ _ => id⟩
  have running {flight call other : Nat} {reply : Option Bytes}
      (here : r.flight = some (flight, .calling call)) (found : r.calls other = some (some reply)) :
      other ≠ call := by
    rintro rfl
    rw [(sound.airborne _ _ here).2.2.2] at found
    cases found
  cases step with
  | opened | hit | cleared => exact ⟨same.cache, same.calls, same.ended⟩
  | called flight here =>
    refine ⟨same.cache, fun call reply found => ?_, same.ended⟩
    have earlier := sound.began call _ found
    exact (Function.update_of_ne (by omega) _ _).trans found
  | usable flight call value here _ | failed flight call answer here _ =>
    refine ⟨same.cache, fun other reply found => ?_, same.ended⟩
    exact (Function.update_of_ne (running here found) _ _).trans found
  | stored flight call value here =>
    refine ⟨fun other cached => ?_, same.calls, same.ended⟩
    rw [(sound.airborne _ _ here).2.1] at cached
    cases cached
  | finished flight answer here =>
    refine ⟨same.cache, same.calls, fun other entry ended => ?_⟩
    have different : other ≠ flight := by
      rintro rfl
      rw [sound.not_ended here] at ended
      cases ended
    exact (Function.update_of_ne different _ _).trans ended

/-- A flight that stays in the air. -/
theorem move {flight : Nat} {later : FlightStage}
    (here : r.flight = some (flight, stage)) (step : RefStep now r next)
    (there : next.flight = some (flight, later)) (ended : next.ended = r.ended)
    (began : ∀ call reply, next.calls call = some reply → call < now + 1)
    (reached : next.StageOf flight later)
    (kept : ∀ call value, next.Usable call value →
      next.cache = some value ∨ later = .storing call value)
    (cached : ∀ value, next.cache = some value → ∃ call, next.Usable call value)
    (once : ∀ first second value other, next.Usable first value → next.Usable second other →
      first = second) : next.Sound (now + 1) where
  began := began
  airborne other otherStage isOther := by
    cases there.symm.trans isOther
    exact ⟨(sound.tick.airborne _ _ here).1, reached⟩
  shared other answer instant shared := by
    obtain ⟨isAnswer, opened, before⟩ := sound.tick.shared other answer instant (ended ▸ shared)
    exact ⟨isAnswer.extended (sound.extended step), opened, before⟩
  after other otherStage earlier answer instant isOther shared := by
    cases there.symm.trans isOther
    exact sound.after _ _ _ _ _ here (ended ▸ shared)
  apart := ended ▸ sound.apart
  kept call value usable := (kept call value usable).imp_right fun storing =>
    ⟨flight, there.trans (by rw [storing])⟩
  cached := cached
  once := once
  called := ended ▸ sound.called

theorem setStage {flight : Nat} {later : FlightStage} (here : r.flight = some (flight, stage))
    (elsewhere : ∀ call value, stage ≠ .storing call value) (reached : r.StageOf flight later)
    (step : RefStep now r { r with flight := some (flight, later) }) :
    Sound (now + 1) { r with flight := some (flight, later) } := by
  refine sound.move here step rfl rfl sound.tick.began reached ?_ sound.cached sound.once
  intro call value usable
  refine (sound.kept call value usable).imp_right ?_
  rintro ⟨other, storing⟩
  cases here.symm.trans storing
  exact absurd rfl (elsewhere call value)

theorem openFlight (idle : r.flight = none) :
    Sound (now + 1) { r with flight := some (now, .opened) } where
  began := sound.tick.began
  airborne flight stage here := by
    cases here
    exact ⟨Nat.lt_succ_self now, trivial⟩
  shared := sound.tick.shared
  after flight stage earlier answer instant here ended := by
    cases here
    exact (sound.shared _ _ _ ended).2.2
  apart := sound.apart
  kept call value usable := by
    rcases sound.kept call value usable with cached | ⟨other, storing⟩
    · exact .inl cached
    · rw [idle] at storing
      cases storing
  cached := sound.cached
  once := sound.once
  called := sound.called

end

theorem usable_setCall {flight : Option (Nat × FlightStage)} {call other : Nat}
    {reply : Option (Option Bytes)} {value : Bytes}
    (usable : Usable { r with
      flight := flight, calls := Function.update r.calls call (some reply) } other value) :
    other = call ∧ reply = some (some value) ∨ r.Usable other value := by
  by_cases same : other = call
  · subst same
    have replied := (Function.update_self other (some reply) r.calls).symm.trans usable.1
    exact .inl ⟨rfl, Option.some.inj replied⟩
  · exact .inr ⟨(Function.update_of_ne same _ _).symm.trans usable.1, usable.2⟩

/-- A call of the backend or its reply: what is asked of it is only what the flight and
the usable replies become. -/
theorem setCall (sound : r.Sound now) {flight call : Nat} {later : FlightStage}
    {reply : Option (Option Bytes)} (here : r.flight = some (flight, stage))
    (past : call < now + 1) (uncached : r.cache = none)
    (isNext : next = { r with
      flight := some (flight, later), calls := Function.update r.calls call (some reply) })
    (step : RefStep now r next) (reached : next.StageOf flight later)
    (only : ∀ other value, next.Usable other value → other = call ∧ later = .storing call value) :
    next.Sound (now + 1) := by
  subst isNext
  refine sound.move here step rfl rfl ?_ reached ?_ ?_ ?_
  · intro other answer found
    by_cases same : other = call
    · rw [same]
      exact past
    · exact Nat.lt_succ_of_lt
        (sound.began other answer ((Function.update_of_ne same _ _).symm.trans found))
  · intro other value usable
    obtain ⟨rfl, storing⟩ := only other value usable
    exact .inr storing
  · intro value cached
    rw [uncached] at cached
    cases cached
  · intro first second value other one another
    exact (only first value one).1.trans (only second other another).1.symm

theorem store (sound : r.Sound now) {flight call : Nat} {value : Bytes}
    (here : r.flight = some (flight, .storing call value)) :
    Sound (now + 1) { r with
      cache := some value, flight := some (flight, .resolved (.fetched call value)) } := by
  obtain ⟨began, uncached, inFlight, usable⟩ := sound.airborne _ _ here
  refine sound.move here (.stored flight call value here) rfl rfl sound.tick.began
    ⟨inFlight, usable⟩ ?_ ?_ sound.once
  · intro other kept another
    have same := sound.once other call kept value another usable
    subst same
    cases another.1.symm.trans usable.1
    exact .inl rfl
  · intro other cached
    cases cached
    exact ⟨call, usable⟩

theorem finish (sound : r.Sound now) {flight : Nat} {answer : Answer}
    (here : r.flight = some (flight, .resolved answer)) :
    Sound (now + 1) { r with
      flight := none, ended := Function.update r.ended flight (some (answer, now)) } := by
  obtain ⟨began, isAnswer⟩ := sound.airborne _ _ here
  refine ⟨sound.tick.began, ?_, ?_, ?_, ?_, ?_, sound.cached, sound.once, ?_⟩
  · intro other stage there
    cases there
  · intro other shared instant ended
    by_cases same : other = flight
    · subst same
      have entry := (Function.update_self other (some (answer, now)) r.ended).symm.trans ended
      cases entry
      exact ⟨isAnswer, began, Nat.lt_succ_self now⟩
    · exact sound.tick.shared _ _ _ ((Function.update_of_ne same _ _).symm.trans ended)
  · intro other stage earlier shared instant there
    cases there
  · intro first second one another instant later endedFirst endedSecond before
    by_cases isFirst : first = flight
    · -- an earlier flight ended before the last one began
      subst isFirst
      have old := (Function.update_of_ne (by omega) _ _).symm.trans endedSecond
      have after := sound.after _ _ _ _ _ here old
      have opened := (sound.shared _ _ _ old).2.1
      omega
    · have old := (Function.update_of_ne isFirst _ _).symm.trans endedFirst
      by_cases isSecond : second = flight
      · subst isSecond
        exact sound.after _ _ _ _ _ here old
      · exact sound.apart _ _ _ _ _ _ old ((Function.update_of_ne isSecond _ _).symm.trans endedSecond)
          before
  · intro call value usable
    rcases sound.kept call value usable with cached | ⟨other, storing⟩
    · exact .inl cached
    · rw [here] at storing
      cases storing
  · intro other shared instant call ended isCall
    by_cases same : other = flight
    · subst same
      have entry := (Function.update_self other (some (answer, now)) r.ended).symm.trans ended
      cases entry
      exact sound.call_lt isAnswer isCall
    · exact sound.called _ _ _ _ ((Function.update_of_ne same _ _).symm.trans ended) isCall

theorem step (sound : r.Sound now) (step : RefStep now r next) : next.Sound (now + 1) := by
  cases step with
  | opened idle => exact sound.openFlight idle
  | hit flight value here cached =>
    exact sound.setStage here (by simp) cached (.hit flight value here cached)
  | cleared flight here uncached =>
    exact sound.setStage here (by simp) uncached (.cleared flight here uncached)
  | called flight here =>
    obtain ⟨began, uncached⟩ := sound.airborne _ _ here
    refine sound.setCall here (Nat.lt_succ_self now) uncached rfl (.called flight here)
      ⟨uncached, began, Function.update_self ..⟩ fun other value usable => ?_
    rcases usable_setCall usable with ⟨_, running⟩ | before
    · cases running
    · exact absurd before (sound.not_usable here uncached (by simp) other value)
  | usable flight call value here nonempty =>
    obtain ⟨_, uncached, inFlight, running⟩ := sound.airborne _ _ here
    refine sound.setCall here (Nat.lt_succ_of_lt (sound.began call _ running)) uncached rfl
      (.usable flight call value here nonempty)
      ⟨uncached, inFlight, Function.update_self .., nonempty⟩ fun other found usable => ?_
    rcases usable_setCall usable with ⟨same, replied⟩ | before
    · cases replied
      exact ⟨same, rfl⟩
    · exact absurd before (sound.not_usable here uncached (by simp) other found)
  | failed flight call answer here unusable =>
    obtain ⟨_, uncached, inFlight, running⟩ := sound.airborne _ _ here
    refine sound.setCall here (Nat.lt_succ_of_lt (sound.began call _ running)) uncached rfl
      (.failed flight call answer here unusable) ⟨inFlight, ?_⟩ fun other found usable => ?_
    · rcases unusable with rfl | rfl
      · exact .inl (Function.update_self ..)
      · exact .inr (Function.update_self ..)
    · rcases usable_setCall usable with ⟨_, replied⟩ | before
      · -- an unusable reply is no value that is not empty
        cases replied
        rcases unusable with absent | empty
        · cases absent
        · cases empty
          exact absurd rfl usable.2
      · exact absurd before (sound.not_usable here uncached (by simp) other found)
  | stored flight call value here => exact sound.store here
  | finished flight answer here => exact sound.finish here

end Sound

end RefState

/-! ## The callers -/

/-- Where the answer of a call of `Resolve` comes from: the cache, no provider, or what a
flight shared after the call had begun. -/
def ResolveOf (providers : Scheme → Bool) (r : RefState) (resolve : Nat) (ref : Bytes) :
    ResolveStage → Prop
  | .looking => True
  | .missed => providerFor providers ref = true
  | .waiting flight => providerFor providers ref = true ∧
      ((∃ stage, r.flight = some (flight, stage)) ∨
        ∃ answer shared, r.ended flight = some (answer, shared) ∧ resolve < shared)
  | .returned answer shared instant => shared ≤ instant ∧
      ((∃ value, answer = .stored value ∧ r.cache = some value) ∨
        (answer = .rejected ∧ providerFor providers ref = false) ∨
        providerFor providers ref = true ∧
          ∃ flight, r.ended flight = some (answer, shared) ∧ resolve < shared)

section Callers

variable {providers : Scheme → Bool} {now resolve : Nat} {r next : RefState} {ref : Bytes}
  {stage : ResolveStage}

theorem RefStep.flight (step : RefStep now r next) {flight : Nat} {old : FlightStage}
    (here : r.flight = some (flight, old)) :
    (∃ stage, next.flight = some (flight, stage)) ∨ ∃ answer, next.ended flight = some (answer, now) := by
  cases step
  case opened idle =>
    rw [idle] at here
    cases here
  case finished other answer there =>
    rw [there] at here
    cases here
    exact .inr ⟨answer, Function.update_self ..⟩
  all_goals
    left
    simp_all

theorem ResolveOf.step (known : ResolveOf providers r resolve ref stage) (sound : r.Sound now)
    (step : RefStep now r next) (began : resolve < now) :
    ResolveOf providers next resolve ref stage := by
  have later := sound.extended step
  cases stage with
  | looking => trivial
  | missed => exact known
  | waiting flight =>
    refine ⟨known.1, ?_⟩
    rcases known.2 with ⟨old, here⟩ | ⟨answer, shared, ended, after⟩
    · rcases step.flight here with inAir | ⟨answer, ended⟩
      · exact .inl inAir
      · exact .inr ⟨answer, now, ended, began⟩
    · exact .inr ⟨answer, shared, later.ended _ _ ended, after⟩
  | returned answer shared instant =>
    refine ⟨known.1, ?_⟩
    rcases known.2 with ⟨value, isStored, cached⟩ | rejected | ⟨provided, flight, ended, after⟩
    · exact .inl ⟨value, isStored, later.cache _ cached⟩
    · exact .inr (.inl rejected)
    · exact .inr (.inr ⟨provided, flight, later.ended _ _ ended, after⟩)

end Callers

/-! ## Runs -/

inductive Step (providers : Scheme → Bool) (s : State) : State → Prop where
  | started (ref : Bytes) : Step providers s (s.setResolve s.clock ref .looking).tick
  | looked (resolve : Nat) (ref : Bytes) (here : s.resolves resolve = some ⟨ref, .looking⟩) :
      Step providers s (s.setResolve resolve ref (lookStage providers s ref)).tick
  | joined (resolve : Nat) (ref : Bytes) (flight : Nat) (stage : FlightStage)
      (here : s.resolves resolve = some ⟨ref, .missed⟩)
      (found : (s.refs ref).flight = some (flight, stage)) :
      Step providers s (s.setResolve resolve ref (.waiting flight)).tick
  | opened (resolve : Nat) (ref : Bytes) (here : s.resolves resolve = some ⟨ref, .missed⟩)
      (idle : (s.refs ref).flight = none) :
      Step providers s ((s.setRef ref ((s.refs ref).openFlight s.clock)).setResolve resolve ref
        (.waiting s.clock)).tick
  | moved (ref : Bytes) (r : RefState) (step : RefStep s.clock (s.refs ref) r) :
      Step providers s (s.setRef ref r).tick
  | answered (resolve : Nat) (ref : Bytes) (flight : Nat) (answer : Answer) (shared : Nat)
      (here : s.resolves resolve = some ⟨ref, .waiting flight⟩)
      (ended : (s.refs ref).ended flight = some (answer, shared)) :
      Step providers s (s.setResolve resolve ref (.returned answer shared s.clock)).tick

variable {providers : Scheme → Bool} {s : State}

theorem step_cases {next : State} {action : Action}
    (stepped : step providers s action = some next) : Step providers s next := by
  cases action with
  | start ref =>
    cases stepped
    exact .started ref
  | look resolve =>
    simp only [step] at stepped
    split at stepped
    next ref here =>
      cases stepped
      exact .looked resolve ref here
    next => cases stepped
  | enter resolve =>
    simp only [step] at stepped
    split at stepped
    next ref here =>
      split at stepped
      next flight stage found =>
        cases stepped
        exact .joined resolve ref flight stage here found
      next idle =>
        cases stepped
        exact .opened resolve ref here idle
    next => cases stepped
  | lookAgain ref =>
    obtain ⟨r, moved, rfl⟩ := Option.map_eq_some_iff.mp stepped
    exact .moved ref r (RefState.lookAgain_eq_some moved)
  | call ref =>
    obtain ⟨r, moved, rfl⟩ := Option.map_eq_some_iff.mp stepped
    exact .moved ref r (RefState.call_eq_some moved)
  | reply ref answer =>
    obtain ⟨r, moved, rfl⟩ := Option.map_eq_some_iff.mp stepped
    exact .moved ref r (RefState.reply_eq_some moved)
  | store ref =>
    obtain ⟨r, moved, rfl⟩ := Option.map_eq_some_iff.mp stepped
    exact .moved ref r (RefState.store_eq_some moved)
  | finish ref =>
    obtain ⟨r, moved, rfl⟩ := Option.map_eq_some_iff.mp stepped
    exact .moved ref r (RefState.finish_eq_some moved)
  | answer resolve =>
    simp only [step] at stepped
    split at stepped
    next ref flight here =>
      split at stepped
      next answer shared ended =>
        cases stepped
        exact .answered resolve ref flight answer shared here ended
      next => cases stepped
    next => cases stepped

structure Consistent (providers : Scheme → Bool) (s : State) : Prop where
  refs : ∀ ref, (s.refs ref).Sound s.clock
  began : ∀ resolve entry, s.resolves resolve = some entry → resolve < s.clock
  resolves : ∀ resolve ref stage, s.resolves resolve = some ⟨ref, stage⟩ →
    ResolveOf providers (s.refs ref) resolve ref stage

namespace Consistent

variable {providers : Scheme → Bool} {s next : State}

theorem tick (consistent : Consistent providers s) : Consistent providers s.tick where
  refs ref := (consistent.refs ref).tick
  began resolve entry found := Nat.lt_succ_of_lt (consistent.began resolve entry found)
  resolves := consistent.resolves

theorem setResolve (consistent : Consistent providers s) {resolve : Nat} {ref : Bytes}
    {stage : ResolveStage} (began : resolve < s.clock)
    (reached : ResolveOf providers (s.refs ref) resolve ref stage) :
    Consistent providers (s.setResolve resolve ref stage) where
  refs := consistent.refs
  began other entry found := by
    by_cases same : other = resolve
    · rw [same]
      exact began
    · rw [s.setResolve_other same] at found
      exact consistent.began other entry found
  resolves other otherRef otherStage found := by
    by_cases same : other = resolve
    · subst same
      rw [s.setResolve_same] at found
      cases found
      exact reached
    · rw [s.setResolve_other same] at found
      exact consistent.resolves _ _ _ found

theorem setRef (consistent : Consistent providers s) {ref : Bytes} {r : RefState}
    (moved : RefStep s.clock (s.refs ref) r) : Consistent providers (s.setRef ref r).tick where
  refs other := by
    change ((s.setRef ref r).refs other).Sound (s.clock + 1)
    by_cases same : other = ref
    · subst same
      rw [s.setRef_same]
      exact (consistent.refs other).step moved
    · rw [s.setRef_other same]
      exact (consistent.refs other).tick
  began resolve entry found := Nat.lt_succ_of_lt (consistent.began resolve entry found)
  resolves resolve other stage found := by
    have known := consistent.resolves resolve other stage found
    change ResolveOf providers ((s.setRef ref r).refs other) resolve other stage
    by_cases same : other = ref
    · subst same
      rw [s.setRef_same]
      exact known.step (consistent.refs other) moved (consistent.began _ _ found)
    · rw [s.setRef_other same]
      exact known

theorem lookStage_of (providers : Scheme → Bool) (s : State) (resolve : Nat) (ref : Bytes) :
    ResolveOf providers (s.refs ref) resolve ref (lookStage providers s ref) := by
  unfold lookStage
  split
  next value cached => exact ⟨le_rfl, .inl ⟨value, rfl, cached⟩⟩
  next =>
    split
    next provided => exact provided
    next unknown => exact ⟨le_rfl, .inr (.inl ⟨rfl, Bool.eq_false_iff.mpr unknown⟩)⟩

theorem step (consistent : Consistent providers s) (stepped : Step providers s next) :
    Consistent providers next := by
  cases stepped with
  | started ref => exact consistent.tick.setResolve (Nat.lt_succ_self _) trivial
  | looked resolve ref here =>
    exact consistent.tick.setResolve (Nat.lt_succ_of_lt (consistent.began _ _ here))
      (lookStage_of providers s resolve ref)
  | joined resolve ref flight stage here found =>
    exact consistent.tick.setResolve (Nat.lt_succ_of_lt (consistent.began _ _ here))
      ⟨consistent.resolves _ _ _ here, .inl ⟨stage, found⟩⟩
  | opened resolve ref here idle =>
    refine (consistent.setRef (.opened idle)).setResolve
      (Nat.lt_succ_of_lt (consistent.began _ _ here)) ⟨consistent.resolves _ _ _ here, .inl ?_⟩
    exact ⟨.opened, congrArg RefState.flight (s.setRef_same ref _)⟩
  | moved ref r moved => exact consistent.setRef moved
  | answered resolve ref flight answer shared here ended =>
    obtain ⟨provided, place⟩ := consistent.resolves _ _ _ here
    have began : resolve < shared := by
      rcases place with ⟨stage, inAir⟩ | ⟨other, instant, there, after⟩
      · rw [(consistent.refs ref).not_ended inAir] at ended
        cases ended
      · rw [ended] at there
        cases there
        exact after
    exact consistent.tick.setResolve (Nat.lt_succ_of_lt (consistent.began _ _ here))
      ⟨((consistent.refs ref).shared _ _ _ ended).2.2.le, .inr (.inr ⟨provided, flight, ended, began⟩)⟩

theorem of_run {trace : List Action} {final : State}
    (ran : (machine providers).run newResolver trace = some final) : Consistent providers final := by
  refine Machine.run_invariant _ (Consistent providers)
    (fun state action next stepped consistent => consistent.step (step_cases stepped)) ran ?_
  have unused : RefState.Sound 0 ⟨none, none, fun _ => none, fun _ => none⟩ := by
    constructor <;> simp [RefState.Usable]
  exact ⟨fun _ => unused, by simp [newResolver], by simp [newResolver]⟩

end Consistent

def State.Returned (s : State) (resolve : Nat) (ref : Bytes) (answer : Answer) (shared instant : Nat) :
    Prop :=
  s.resolves resolve = some ⟨ref, .returned answer shared instant⟩

theorem Consistent.usable_of_returned (consistent : Consistent providers s)
    {resolve shared instant : Nat} {ref value : Bytes} {answer : Answer}
    (returned : s.Returned resolve ref answer shared instant)
    (success : answer.value = some value) : ∃ call, (s.refs ref).Usable call value := by
  have sound := consistent.refs ref
  have ofCache : (s.refs ref).cache = some value → ∃ call, (s.refs ref).Usable call value :=
    sound.cached value
  rcases (consistent.resolves _ _ _ returned).2 with ⟨found, rfl, cached⟩ | ⟨rfl, _⟩ |
    ⟨_, flight, ended, _⟩
  · cases success
    exact ofCache cached
  · cases success
  · have isAnswer := (sound.shared _ _ _ ended).1
    cases answer with
    | stored found =>
      cases success
      exact ofCache isAnswer
    | fetched call found =>
      cases success
      exact ⟨call, isAnswer.2⟩
    | failed | rejected => cases success

/-- An answer that a flight shared comes from the cache or from a call that began after
everything an earlier flight shared. -/
theorem Consistent.fresh_answer (consistent : Consistent providers s) {ref : Bytes}
    {first second shared later : Nat} {answer failure : Answer}
    (ended : (s.refs ref).ended first = some (failure, shared))
    (endedLater : (s.refs ref).ended second = some (answer, later)) (after : shared < later) :
    (∃ value, answer = .stored value) ∨ ∃ call, answer.call = some call ∧ shared < call := by
  have sound := consistent.refs ref
  have order : shared < second := by
    rcases Nat.lt_trichotomy first second with before | same | before
    · exact sound.apart _ _ _ _ _ _ ended endedLater before
    · subst same
      rw [ended] at endedLater
      cases endedLater
      omega
    · -- then the second flight had ended before the first began
      have past := sound.apart _ _ _ _ _ _ endedLater ended before
      have opened := (sound.shared _ _ _ ended).2.1
      omega
  have isAnswer := (sound.shared _ _ _ endedLater).1
  cases answer with
  | stored value => exact .inl ⟨value, rfl⟩
  | fetched call | failed call => exact .inr ⟨call, rfl, order.trans isAnswer.1⟩
  | rejected => exact isAnswer.elim

/-- Successes are cached once and failures never: in every run at most one call of the
backend for a reference has a usable reply, every success is that reply and not empty, and
what begins after a failure was returned answers from the cache or from a call that began
after that failure was shared. -/
theorem resolver_caches_only_successes (providers : Scheme → Bool) (trace : List Action)
    (final : State) (ran : (machine providers).run newResolver trace = some final) :
    (∀ ref first second value other, (final.refs ref).Usable first value →
      (final.refs ref).Usable second other → first = second) ∧
    (∀ resolve ref answer shared instant value,
      final.Returned resolve ref answer shared instant → answer.value = some value →
      value ≠ [] ∧ ∃ call, (final.refs ref).Usable call value) ∧
    ∀ resolve later ref failedCall shared instant answer sharedLater returnedAt,
      final.Returned resolve ref (.failed failedCall) shared instant →
      final.Returned later ref answer sharedLater returnedAt → instant < later →
      (∃ value, answer = .stored value) ∨
        ∃ call, answer.call = some call ∧ shared < call ∧ call ≠ failedCall := by
  have consistent := Consistent.of_run ran
  refine ⟨fun ref => (consistent.refs ref).once, ?_, ?_⟩
  · intro resolve ref answer shared instant value returned success
    obtain ⟨call, usable⟩ := consistent.usable_of_returned returned success
    exact ⟨usable.2, call, usable⟩
  · intro resolve later ref failedCall shared instant answer sharedLater returnedAt failed returned
      afterwards
    obtain ⟨past, source⟩ := consistent.resolves _ _ _ failed
    rcases source with ⟨value, isStored, _⟩ | ⟨rejected, _⟩ | ⟨provided, flight, ended, _⟩
    · cases isStored
    · cases rejected
    obtain ⟨_, source⟩ := consistent.resolves _ _ _ returned
    rcases source with ⟨value, isStored, _⟩ | ⟨_, unknown⟩ | ⟨_, again, endedLater, begun⟩
    · exact .inl ⟨value, isStored⟩
    · rw [provided] at unknown
      cases unknown
    · rcases consistent.fresh_answer ended endedLater (by omega) with cached | ⟨call, isCall, fresh⟩
      · exact .inl cached
      · refine .inr ⟨call, isCall, fresh, ?_⟩
        have begunBefore := (consistent.refs ref).called _ _ _ _ ended rfl
        omega

def keyRef : Bytes := lit "env:KEY"

def retryTrace : List Action :=
  [.start keyRef, .look 0, .enter 0, .lookAgain keyRef, .call keyRef, .reply keyRef none,
    .finish keyRef, .answer 0, .start keyRef, .look 8, .enter 8, .lookAgain keyRef, .call keyRef,
    .start keyRef, .look 13, .enter 13, .reply keyRef (some (lit "v")), .store keyRef,
    .finish keyRef, .answer 8, .answer 13]

theorem resolver_caches_only_successes_retry :
    ∃ final, (machine (fun _ => true)).run newResolver retryTrace = some final ∧
      final.Returned 0 keyRef (.failed 4) 6 7 ∧
      final.Returned 13 keyRef (.fetched 12 (lit "v")) 18 20 ∧
      ∃ call, (Answer.fetched 12 (lit "v")).call = some call ∧ 6 < call ∧ call ≠ 4 := by
  have facts : ((machine (fun _ => true)).run newResolver retryTrace).map
      (fun final => (final.resolves 0, final.resolves 13)) =
        some (some ⟨keyRef, .returned (.failed 4) 6 7⟩,
          some ⟨keyRef, .returned (.fetched 12 (lit "v")) 18 20⟩) := by
    decide +kernel
  obtain ⟨final, ran, shown⟩ := Option.map_eq_some_iff.mp facts
  obtain ⟨failed, fetched⟩ := Prod.mk.inj shown
  refine ⟨final, ran, failed, fetched, ?_⟩
  rcases (resolver_caches_only_successes _ _ final ran).2.2 _ _ _ _ _ _ _ _ _ failed fetched
      (by decide) with ⟨value, isStored⟩ | fresh
  · cases isStored
  · exact fresh

/-- A caller may return a failure late. The call that began at 11, after the failure was
shared at 6 and before it was returned at 12, answers who begins at 13. -/
example : ((machine (fun _ => true)).run newResolver
    [.start keyRef, .look 0, .enter 0, .lookAgain keyRef, .call keyRef, .reply keyRef none,
      .finish keyRef, .start keyRef, .look 7, .enter 7, .lookAgain keyRef, .call keyRef, .answer 0,
      .start keyRef, .look 13, .enter 13, .reply keyRef (some (lit "v")), .store keyRef,
      .finish keyRef, .answer 13]).map (fun final => (final.resolves 0, final.resolves 13)) =
    some (some ⟨keyRef, .returned (.failed 4) 6 12⟩,
      some ⟨keyRef, .returned (.fetched 11 (lit "v")) 18 19⟩) := by
  decide +kernel

/-! ## One call at a time -/

/-- A call without a reply is that of the flight in the air. -/
def RefState.Single (r : RefState) : Prop :=
  ∀ call, r.calls call = some none → ∃ flight, r.flight = some (flight, .calling call)

theorem RefState.Single.step {now : Nat} {r next : RefState} (single : r.Single)
    (step : RefStep now r next) : next.Single := by
  intro call waits
  cases step with
  | called flight here =>
    by_cases same : call = now
    · exact ⟨flight, same ▸ rfl⟩
    · simpa [here] using single call (by simpa [same] using waits)
  | _ => grind [Single]

theorem Step.single {next : State} (single : ∀ ref, (s.refs ref).Single)
    (stepped : Step providers s next) (ref : Bytes) : (next.refs ref).Single := by
  have moves {other : Bytes} {r : RefState} (moved : RefStep s.clock (s.refs other) r) :
      ((s.setRef other r).refs ref).Single := by
    by_cases same : ref = other
    · rw [same, s.setRef_same]
      exact (single other).step moved
    · rw [s.setRef_other same]
      exact single ref
  cases stepped with
  | opened _ _ _ idle => exact moves (.opened idle)
  | moved _ _ moved => exact moves moved
  | _ => exact single ref

/-- However the callers interleave, at most one call of the backend for a reference has no reply
yet, and none does once a value is cached. -/
theorem resolver_single_flight (providers : Scheme → Bool) (trace : List Action) (final : State)
    (ran : (machine providers).run newResolver trace = some final) (ref : Bytes) (first second : Nat)
    (waits : (final.refs ref).calls first = some none)
    (waitsToo : (final.refs ref).calls second = some none) :
    first = second ∧ (final.refs ref).cache = none := by
  have single := Machine.run_invariant _ (fun state => ∀ ref, (state.refs ref).Single)
    (fun _ _ _ stepped single => Step.single single (step_cases stepped)) ran
    (fun _ _ waits => nomatch waits) ref
  obtain ⟨flight, here⟩ := single first waits
  obtain ⟨_, there⟩ := single second waitsToo
  rw [here] at there
  cases there
  exact ⟨rfl, (((Consistent.of_run ran).refs ref).airborne _ _ here).2.1⟩

theorem resolver_single_flight_first : ∃ final,
    (machine (fun _ => true)).run newResolver (retryTrace.take 5) = some final ∧
      (final.refs keyRef).calls 4 = some none ∧ (final.refs keyRef).cache = none :=
  ⟨_, rfl, rfl, (resolver_single_flight (fun _ => true) (retryTrace.take 5) _ rfl keyRef 4 4 rfl rfl).2⟩

end Resolver

end ClusterRouter.Channel
