import ClusterRouter.Channel.RotationStore

/-! The two answers to a request that gets no key (`internal/channel/server.go`, `auth.go`), and
the response they are written to. -/

set_option autoImplicit false

namespace ClusterRouter.Channel

open Foundation

variable {Cursor : Type}

/-- `rotatingInjector.retryAfter`: the wait that the store names, or the floor. -/
def RotatingInjector.retryAfter (store : Option (Store Cursor)) (state : StoreState Cursor)
    (route : String) (now : Int) : StoreState Cursor × Int :=
  match store with
  | none => (state, minRetryAfter)
  | some s =>
    match s.retryAfter state route now with
    | (state, some wait) => (state, wait)
    | (state, none) => (state, minRetryAfter)

structure RefusalAnswer where
  code : String
  hint : String
  wait : Int
  deriving DecidableEq, Repr

/-- The store is asked for a wait only where no key is selectable. -/
def refusalAnswerFor (refusal : AdmissionRefusal) (store : Option (Store Cursor))
    (state : StoreState Cursor) (route : String) (now : Int) : StoreState Cursor × RefusalAnswer :=
  if refusal = .admission then
    (state,
      { code := "admission_limited"
        hint := "every upstream key on this route is at its per-window cap once the requests already in flight are counted; none has been retired and none is drained, so retry immediately rather than after a window"
        wait := minRetryAfter })
  else
    let (state, wait) := RotatingInjector.retryAfter store state route now
    (state,
      { code := "keys_exhausted"
        hint := "every upstream key on this route is retired or drained; retry after the advertised wait"
        wait := wait })

structure UnavailableResponse where
  status : Nat
  retryAfter : String
  contentType : String
  error : String
  hint : String
  route : String
  retryAfterSeconds : Int
  deriving DecidableEq, Repr

def wholeSeconds (wait : Int) : Int :=
  let secs := wait.tdiv Duration.second
  let secs := if wait.tmod Duration.second ≠ 0 then secs + 1 else secs
  if secs < 1 then 1 else secs

def writeUnavailable (route code hint : String) (wait : Int) : UnavailableResponse where
  status := 503
  retryAfter := toString (wholeSeconds wait)
  contentType := "application/json"
  error := code
  hint := hint
  route := route
  retryAfterSeconds := wholeSeconds wait

def denyUnavailable (refusal : AdmissionRefusal) (store : Option (Store Cursor))
    (state : StoreState Cursor) (route : String) (now : Int) :
    StoreState Cursor × UnavailableResponse :=
  let (state, answer) := refusalAnswerFor refusal store state route now
  (state, writeUnavailable route answer.code answer.hint answer.wait)

/-- A request at a pooled route: dispatched, or denied. The store reads its clock once for
the reservation and, if it is asked for a wait, once more. -/
def leaseOrDeny (s : Store Cursor) (state : StoreState Cursor) (route : String) (now later : Int) :
    StoreState Cursor × Option UnavailableResponse :=
  match s.reserve state route now with
  | (state, _, .none) => (state, none)
  | (state, _, refusal) =>
    let (state, response) := denyUnavailable refusal (some s) state route later
    (state, some response)

theorem wholeSeconds_spec {wait : Int} (nonneg : 0 ≤ wait) :
    1 ≤ wholeSeconds wait ∧ wait ≤ wholeSeconds wait * Duration.second ∧
      (Duration.second ≤ wait → wholeSeconds wait * Duration.second < wait + Duration.second) := by
  have positive : (0 : Int) < Duration.second := by decide
  have whole := Int.mul_ediv_add_emod wait Duration.second
  have left := Int.emod_nonneg wait (Int.ne_of_gt positive)
  have less := Int.emod_lt_of_pos wait positive
  unfold wholeSeconds
  rw [Int.tdiv_eq_ediv_of_nonneg nonneg, Int.tmod_eq_emod_of_nonneg nonneg]
  generalize wait / Duration.second = secs at *
  generalize wait % Duration.second = part at *
  simp only [Duration.second] at *
  by_cases noPart : part = 0
  · simp only [noPart, ne_eq, not_true_eq_false, if_false]
    split <;> omega
  · simp only [noPart, ne_eq, not_false_eq_true, if_true]
    split <;> omega

theorem leaseOrDeny_admission_iff {s : Store Cursor} {state : StoreState Cursor} {route : String}
    {now later : Int} {response : UnavailableResponse}
    (denied : (leaseOrDeny s state route now later).2 = some response) :
    response.error = "admission_limited" ↔ (s.reserve state route now).2.2 = .admission := by
  unfold leaseOrDeny at denied
  generalize s.reserve state route now = answer at denied ⊢
  obtain ⟨after, index, refusal⟩ := answer
  cases refusal with
  | none => cases denied
  | drained | admission =>
    cases denied
    simp [writeUnavailable]

end ClusterRouter.Channel
