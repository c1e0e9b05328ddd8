import ClusterRouter.Foundation.Binary64
import ClusterRouter.Foundation.Bytes
import ClusterRouter.Foundation.Machine
import ClusterRouter.Foundation.Time

/-! `internal/fairshare/fairshare.go`: a token bucket for each user, made on first use and
collected when idle. `Acquire` draws on the bucket after the scheduler's lock has been released,
so a collection may fall between. Tokens are exact rationals. -/

set_option autoImplicit false

namespace ClusterRouter.FairShare

open Foundation

structure Config where
  maxRequestsPerUser : Int
  window : Int
  burst : Int
  deriving DecidableEq, Repr

/-! ## Buckets -/

structure Bucket where
  tokens : ℚ
  maxTokens : Int
  window : Int
  lastRefill : Int
  lastAccess : Int
  deriving DecidableEq, Repr

def newBucket (cfg : Config) (now : Int) : Bucket :=
  let initial := if cfg.burst > cfg.maxRequestsPerUser then cfg.maxRequestsPerUser else cfg.burst
  ⟨initial, cfg.maxRequestsPerUser, cfg.window, now, now⟩

def Bucket.refill (b : Bucket) (now : Int) : Bucket :=
  let elapsed := Time.sub now b.lastRefill
  if 0 < elapsed ∧ 0 < b.window then
    { b with
      tokens := min (b.tokens + b.maxTokens * ((elapsed : ℚ) / b.window)) b.maxTokens
      lastRefill := now }
  else b

def Bucket.allow (b : Bucket) (now : Int) : Bool × Bucket :=
  let b := { b with lastAccess := now }.refill now
  if b.tokens < 1 then (false, b) else (true, { b with tokens := b.tokens - 1 })

/-! ## The scheduler -/

/-- A bucket is known by its place in the heap, which holds every bucket ever made. -/
structure Scheduler where
  cfg : Config
  heap : List Bucket
  buckets : Bytes → Option Nat

namespace Scheduler

def new (cfg : Config) : Scheduler := ⟨cfg, [], fun _ => none⟩

/-- The first part of `Acquire`: the user's bucket, made if there is none. -/
def lookup (s : Scheduler) (user : Bytes) (now : Int) : Nat × Scheduler :=
  match s.buckets user with
  | some found => (found, s)
  | none =>
    (s.heap.length, { s with
      heap := s.heap ++ [newBucket s.cfg now]
      buckets := Function.update s.buckets user (some s.heap.length) })

/-- The second part of `Acquire`, on the bucket that was found. -/
def allow (s : Scheduler) (pointer : Nat) (now : Int) : Bool × Scheduler :=
  match s.heap[pointer]? with
  | none => (false, s)
  | some b => ((b.allow now).1, { s with heap := s.heap.set pointer (b.allow now).2 })

def drops (s : Scheduler) (user : Bytes) (now : Int) : Bool :=
  ((s.buckets user).bind (s.heap[·]?)).any
    (fun b => decide (int64 (s.cfg.window * 2) < Time.sub now b.lastAccess))

def gc (s : Scheduler) (now : Int) : Scheduler :=
  { s with buckets := fun user => if s.drops user now then none else s.buckets user }

end Scheduler

/-! ## Callers -/

structure Call where
  user : Bytes
  instant : Int
  admitted : Bool
  deriving DecidableEq, Repr

/-- The scheduler with the calls that have found their bucket and not drawn on it yet. -/
structure World where
  scheduler : Scheduler
  clock : Int
  held : List (Bytes × Nat)
  calls : List Call

inductive Action where
  | lookup (user : Bytes) (now : Int)
  | allow (index : Nat) (now : Int)
  | gc (now : Int)
  deriving DecidableEq, Repr

def Action.now : Action → Int
  | .lookup _ now | .allow _ now | .gc now => now

namespace World

def start (cfg : Config) (clock : Int) : World := ⟨.new cfg, clock, [], []⟩

def lookup (w : World) (user : Bytes) (now : Int) : World :=
  let (pointer, scheduler) := w.scheduler.lookup user now
  { w with scheduler := scheduler, clock := now, held := w.held ++ [(user, pointer)] }

def allow (w : World) (index : Nat) (user : Bytes) (pointer : Nat) (now : Int) : World :=
  let (admitted, scheduler) := w.scheduler.allow pointer now
  { scheduler := scheduler
    clock := now
    held := w.held.eraseIdx index
    calls := w.calls ++ [⟨user, now, admitted⟩] }

def gc (w : World) (now : Int) : World :=
  { w with scheduler := w.scheduler.gc now, clock := now }

def admissions (w : World) (user : Bytes) (lo hi : ℚ) : Nat :=
  w.calls.countP (fun call =>
    decide (call.user = user ∧ call.admitted = true ∧ lo ≤ call.instant ∧ call.instant ≤ hi))

end World

/-- Steps of any callers and of the collector, under a clock that never goes back. -/
def machine : Machine World Action where
  step w action :=
    if action.now < w.clock then none
    else
      match action with
      | .lookup user now => some (w.lookup user now)
      | .allow index now =>
        w.held[index]?.map (fun (user, pointer) => w.allow index user pointer now)
      | .gc now => some (w.gc now)

theorem step_cases {w next : World} {action : Action} (stepped : machine.step w action = some next) :
    w.clock ≤ action.now ∧
      ((∃ user, action = .lookup user action.now ∧ next = w.lookup user action.now) ∨
        (∃ index user pointer, action = .allow index action.now ∧
          w.held[index]? = some (user, pointer) ∧ next = w.allow index user pointer action.now) ∨
        (action = .gc action.now ∧ next = w.gc action.now)) := by
  simp only [machine] at stepped
  split at stepped
  · cases stepped
  next later =>
    refine ⟨not_lt.mp later, ?_⟩
    cases action with
    | lookup user now =>
      cases stepped
      exact .inl ⟨user, rfl, rfl⟩
    | allow index now =>
      obtain ⟨⟨user, pointer⟩, found, rfl⟩ := Option.map_eq_some_iff.mp stepped
      exact .inr (.inl ⟨index, user, pointer, rfl, found, rfl⟩)
    | gc now =>
      cases stepped
      exact .inr (.inr ⟨rfl, rfl⟩)

end ClusterRouter.FairShare
