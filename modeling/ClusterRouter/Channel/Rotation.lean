import Mathlib

/-! Snapshots of a key's accounting and the policies that choose among the keys a store offers
(`internal/channel/rotation.go`). A policy answers with a position in the offered list. -/

set_option autoImplicit false

namespace ClusterRouter.Channel

/-- Why a key stopped being selectable; `unset` is the empty string. -/
inductive RetireReason where
  | unset
  | cap
  | quota
  | error
  | rateLimit
  | balance
  deriving DecidableEq, Repr

structure KeyState where
  index : Nat
  requests : Nat
  tokens : Int
  inFlight : Nat
  errors : Nat
  reclaimed : Nat
  estimated : Bool
  selectable : Bool
  softRetired : Bool
  drained : Bool
  retiredUntil : Option Int
  reason : RetireReason
  deriving DecidableEq, Repr

/-- `RotationPolicy`: the private state of the policy and its answer, a position
in the offered keys or a negative number to decline. -/
abbrev RotationPolicy (Cursor : Type) := Cursor → List KeyState → Int × Cursor

def roundRobin : RotationPolicy UInt64 := fun cursor states =>
  if states.length = 0 then (-1, cursor)
  else (((cursor % states.length.toUInt64).toNat : Int), cursor + 1)

def byLoad (k : KeyState) : Int := k.requests + k.inFlight

def pickMinScan (score : KeyState → Int) :
    List KeyState → Nat → Int → List Nat → List Nat
  | [], _, _, tied => tied
  | k :: rest, position, best, tied =>
    if score k < best then pickMinScan score rest (position + 1) (score k) [position]
    else if score k = best then pickMinScan score rest (position + 1) best (tied ++ [position])
    else pickMinScan score rest (position + 1) best tied

/-- `pickMin`: the position of a lowest-scoring key, ties shared out by a cursor
that advances once per selection. -/
def pickMin (cursor : UInt64) (states : List KeyState) (score : KeyState → Int) : Int × UInt64 :=
  match states with
  | [] => (-1, cursor)
  | first :: rest =>
    let tied := pickMinScan score rest 1 (score first) [0]
    ((tied.getD (cursor % tied.length.toUInt64).toNat 0 : Nat), cursor + 1)

def leastUsed : RotationPolicy UInt64 := fun cursor states => pickMin cursor states byLoad

/-- `leastTokensPolicy.Select`: an estimated sample on any offered key makes the
token totals incomparable, so that selection orders by load instead. -/
def leastTokens : RotationPolicy UInt64 := fun cursor states =>
  if states.any (·.estimated) then pickMin cursor states byLoad
  else pickMin cursor states (·.tokens)

inductive PolicyName where
  | roundRobin
  | leastUsed
  | leastTokens
  deriving DecidableEq, Repr

def newPolicy : PolicyName → RotationPolicy UInt64
  | .roundRobin => roundRobin
  | .leastUsed => leastUsed
  | .leastTokens => leastTokens

end ClusterRouter.Channel
