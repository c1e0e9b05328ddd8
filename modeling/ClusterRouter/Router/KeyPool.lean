import ClusterRouter.Foundation.Binary64
import ClusterRouter.Foundation.Bytes

/-! `internal/keypool/keypool.go`: round-robin over the keys of a node, past those that are
cooling down after a quota answer. -/

set_option autoImplicit false

namespace ClusterRouter.Router

open Foundation

/-- The counter is a 64-bit word. Instants are `UnixNano` values; one of zero means that the
key is healthy. -/
structure Pool where
  keys : List Bytes
  cooldown : Int
  idx : Nat
  coolUntil : List Int
  deriving DecidableEq, Repr

namespace Pool

def new (keys : List Bytes) (cooldown : Int) : Pool :=
  ⟨keys, cooldown, 0, List.replicate keys.length 0⟩

/-- The next key that is not cooling, or the plain round-robin key when all are. -/
def next (pool : Pool) (now : Int) : Bytes × Int × Pool :=
  let n := pool.keys.length
  if n = 0 then ([], -1, pool)
  else
    let start := pool.idx
    let order := (List.range n).map (fun off => (start + off) % 2 ^ 64 % n)
    let i := (order.find? (fun i => decide (pool.coolUntil.getD i 0 ≤ now))).getD (start % n)
    (pool.keys.getD i [], i, { pool with idx := (start + 1) % 2 ^ 64 })

def markExhausted (pool : Pool) (idx : Int) (now : Int) : Pool :=
  if idx < 0 ∨ pool.keys.length ≤ idx ∨ pool.cooldown ≤ 0 then pool
  else { pool with coolUntil := pool.coolUntil.set idx.toNat (int64 (now + pool.cooldown)) }

def cooling (pool : Pool) (now : Int) : Nat :=
  (pool.coolUntil.filter (fun instant => decide (now < instant))).length

def allCooling (pool : Pool) (now : Int) : Bool :=
  decide (0 < pool.keys.length ∧ pool.cooling now = pool.keys.length)

end Pool

end ClusterRouter.Router
