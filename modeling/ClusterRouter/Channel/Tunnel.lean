import ClusterRouter.Channel.TunnelDeadlines
import ClusterRouter.Foundation.Bytes
import ClusterRouter.Foundation.Machine

/-! The two copy loops `handleConnect` starts (`internal/channel/server.go`). Each statement of
`copyTunnelHalf`, and the two that follow it, is one step; the steps of both goroutines
interleave freely, and time may pass between any two. -/

set_option autoImplicit false

namespace ClusterRouter.Channel

open Foundation

def connectCopyBufferSize : Nat := 32 * 1024

def defaultConnectHalfCloseLinger : Int := 30 * 1000000000

def defaultConnectIdleTimeout : Int := 5 * 60 * 1000000000

structure TunnelConfig where
  connectLinger : Int
  idleTimeout : Int
  deriving DecidableEq, Repr

namespace TunnelConfig

def linger (config : TunnelConfig) : Int :=
  if config.connectLinger ≤ 0 then defaultConnectHalfCloseLinger else config.connectLinger

def idle (config : TunnelConfig) : Int :=
  if config.idleTimeout ≤ 0 then defaultConnectIdleTimeout else config.idleTimeout

theorem linger_pos (config : TunnelConfig) : 0 < config.linger := by
  unfold linger defaultConnectHalfCloseLinger
  split <;> omega

theorem idle_pos (config : TunnelConfig) : 0 < config.idle := by
  unfold idle defaultConnectIdleTimeout
  split <;> omega

end TunnelConfig

/-! ## One direction -/

inductive ConnError where
  | eof
  | deadline
  | failed
  deriving DecidableEq, Repr

inductive Ended where
  | read (err : ConnError)
  | write (err : ConnError)
  deriving DecidableEq, Repr

def Ended.err : Ended → ConnError
  | .read err => err
  | .write err => err

/-- Where the goroutine of one direction stands. A `Write` keeps what the connection has not
taken yet, and the error the `Read` before it returned. -/
inductive CopyStage where
  | refreshing
  | reading
  | writing (rest : Bytes) (rerr : Option ConnError)
  | finished (why : Ended)
  | shut (why : Ended)
  | done (why : Ended)
  deriving DecidableEq, Repr

namespace CopyStage

def afterRead : Option ConnError → CopyStage
  | none => .refreshing
  | some err => .finished (.read err)

def inflight : CopyStage → Bytes
  | .writing rest _ => rest
  | _ => []

def ended : CopyStage → Option Ended
  | .refreshing | .reading | .writing _ _ => none
  | .finished why | .shut why | .done why => some why

@[simp] theorem inflight_afterRead (rerr : Option ConnError) : (afterRead rerr).inflight = [] := by
  cases rerr <;> rfl

end CopyStage

/-- One direction, by the side it reads from. The last three fields are the history of the
direction: what its peer has sent, when it last did, and when the loop last went to read. -/
structure Half where
  incoming : Bytes
  closed : Bool
  stage : CopyStage
  delivered : Bytes
  arrived : Bytes
  lastArrival : Option Int
  since : Option Int
  deriving DecidableEq, Repr

namespace Half

def start (unread : Bytes) : Half := ⟨unread, false, .refreshing, [], unread, none, none⟩

/-- What a `Read` may return. A read deadline that has passed is reported whatever there is
to read. -/
def Answers (half : Half) (expired : Bool) (n : Nat) : Option ConnError → Prop
  | none => expired = false ∧ 0 < n ∧ n ≤ half.incoming.length ∧ n ≤ connectCopyBufferSize
  | some .eof =>
    expired = false ∧ half.closed = true ∧ n = half.incoming.length ∧ n ≤ connectCopyBufferSize
  | some .deadline => expired = true ∧ n = 0
  | some .failed => n ≤ half.incoming.length ∧ n ≤ connectCopyBufferSize

instance (half : Half) (expired : Bool) (n : Nat) (rerr : Option ConnError) :
    Decidable (half.Answers expired n rerr) := by
  unfold Answers
  split <;> infer_instance

def receive (half : Half) (n : Nat) (rerr : Option ConnError) : Half :=
  { half with
    incoming := half.incoming.drop n
    stage := if 0 < n then .writing (half.incoming.take n) rerr else .afterRead rerr }

def Returns (rest : Bytes) (expired : Bool) : Option ConnError → Prop
  | none => rest = []
  | some .eof => False
  | some .deadline => rest ≠ [] ∧ expired = true
  | some .failed => True

instance (rest : Bytes) (expired : Bool) (werr : Option ConnError) :
    Decidable (Returns rest expired werr) := by
  unfold Returns
  split <;> infer_instance

def afterWrite (rerr : Option ConnError) : Option ConnError → CopyStage
  | none => .afterRead rerr
  | some err => .finished (.write err)

end Half

inductive HalfAct where
  | refreshIdle
  | read (n : Nat) (rerr : Option ConnError)
  | accept (n : Nat)
  | wrote (werr : Option ConnError)
  | closeWrite
  | arm
  deriving DecidableEq, Repr

inductive TunnelAction where
  | pass (instant : Int)
  | arrive (side : Side) (bytes : Bytes)
  | close (side : Side)
  | half (src : Side) (act : HalfAct)
  deriving DecidableEq, Repr

/-! ## Both directions -/

/-- A connection taken over from the HTTP server: what the server has read ahead and not
used, which `Hijack` returns in its reader, and what has not been read. -/
structure Hijacked where
  buffered : Bytes
  unread : Bytes
  deriving DecidableEq, Repr

structure Tunnel where
  now : Int
  deadlines : TunnelDeadlines
  halves : Side → Half

def expired (deadline : Option Int) (now : Int) : Bool :=
  deadline.any (fun instant => decide (instant ≤ now))

@[simp] theorem expired_none (now : Int) : expired none now = false := rfl

@[simp] theorem expired_some (deadline now : Int) :
    expired (some deadline) now = true ↔ deadline ≤ now := by simp [expired]

@[simp] theorem expired_some_eq_false (deadline now : Int) :
    expired (some deadline) now = false ↔ now < deadline := by simp [expired]

theorem expired_mono {deadline : Option Int} {now later : Int} (passed : now ≤ later)
    (already : expired deadline now = true) : expired deadline later = true := by
  cases deadline with
  | none => cases already
  | some instant =>
    rw [expired_some] at already ⊢
    omega

namespace Tunnel

/-- `client, _, err := hijacker.Hijack()`: the reader `Hijack` returns is dropped. -/
def establish (config : TunnelConfig) (start : Int) (client : Hijacked) : Tunnel where
  now := start
  deadlines := .new config.idle config.linger
  halves
    | .client => .start client.unread
    | .upstream => .start []

def put (tunnel : Tunnel) (side : Side) (half : Half) : Tunnel :=
  { tunnel with halves := Side.set tunnel.halves side half }

def readExpired (tunnel : Tunnel) (src : Side) : Bool :=
  expired (tunnel.deadlines.conns src).read tunnel.now

def writeExpired (tunnel : Tunnel) (src : Side) : Bool :=
  expired (tunnel.deadlines.conns src.other).write tunnel.now

def act (tunnel : Tunnel) (src : Side) : HalfAct → Option Tunnel
  | .refreshIdle =>
    if (tunnel.halves src).stage = .refreshing then
      some
        { tunnel.put src { tunnel.halves src with stage := .reading, since := some tunnel.now } with
          deadlines := tunnel.deadlines.refreshIdle src tunnel.now }
    else none
  | .read n rerr =>
    if (tunnel.halves src).stage = .reading ∧
        (tunnel.halves src).Answers (tunnel.readExpired src) n rerr then
      some (tunnel.put src ((tunnel.halves src).receive n rerr))
    else none
  | .accept n =>
    match (tunnel.halves src).stage with
    | .writing rest rerr =>
      if tunnel.writeExpired src = false ∧ 0 < n ∧ n ≤ rest.length then
        some (tunnel.put src
          { tunnel.halves src with
            stage := .writing (rest.drop n) rerr
            delivered := (tunnel.halves src).delivered ++ rest.take n })
      else none
    | _ => none
  | .wrote werr =>
    match (tunnel.halves src).stage with
    | .writing rest rerr =>
      if Half.Returns rest (tunnel.writeExpired src) werr then
        some (tunnel.put src { tunnel.halves src with stage := Half.afterWrite rerr werr })
      else none
    | _ => none
  | .closeWrite =>
    match (tunnel.halves src).stage with
    | .finished why => some (tunnel.put src { tunnel.halves src with stage := .shut why })
    | _ => none
  | .arm =>
    match (tunnel.halves src).stage with
    | .shut why =>
      some
        { tunnel.put src { tunnel.halves src with stage := .done why } with
          deadlines := tunnel.deadlines.arm tunnel.now }
    | _ => none

def step (tunnel : Tunnel) : TunnelAction → Option Tunnel
  | .pass instant => if tunnel.now < instant then some { tunnel with now := instant } else none
  | .arrive side bytes =>
    if bytes ≠ [] ∧ (tunnel.halves side).closed = false then
      some (tunnel.put side
        { tunnel.halves side with
          incoming := (tunnel.halves side).incoming ++ bytes
          arrived := (tunnel.halves side).arrived ++ bytes
          lastArrival := some tunnel.now })
    else none
  | .close side =>
    if (tunnel.halves side).closed = false then
      some (tunnel.put side { tunnel.halves side with closed := true })
    else none
  | .half src act => tunnel.act src act

def machine : Machine Tunnel TunnelAction := ⟨step⟩

def copyRound (src : Side) (n : Nat) : List TunnelAction :=
  [.half src (.read n none), .half src (.accept n), .half src (.wrote none), .half src .refreshIdle]

inductive Step (tunnel : Tunnel) : TunnelAction → Tunnel → Prop where
  | pass {instant : Int} (later : tunnel.now < instant) :
      Step tunnel (.pass instant) { tunnel with now := instant }
  | arrive {side : Side} {bytes : Bytes} (brought : bytes ≠ [])
      (opened : (tunnel.halves side).closed = false) :
      Step tunnel (.arrive side bytes)
        (tunnel.put side
          { tunnel.halves side with
            incoming := (tunnel.halves side).incoming ++ bytes
            arrived := (tunnel.halves side).arrived ++ bytes
            lastArrival := some tunnel.now })
  | close {side : Side} (opened : (tunnel.halves side).closed = false) :
      Step tunnel (.close side) (tunnel.put side { tunnel.halves side with closed := true })
  | refreshIdle {src : Side} (stage : (tunnel.halves src).stage = .refreshing) :
      Step tunnel (.half src .refreshIdle)
        { tunnel.put src { tunnel.halves src with stage := .reading, since := some tunnel.now } with
          deadlines := tunnel.deadlines.refreshIdle src tunnel.now }
  | read {src : Side} {n : Nat} {rerr : Option ConnError}
      (stage : (tunnel.halves src).stage = .reading)
      (answers : (tunnel.halves src).Answers (tunnel.readExpired src) n rerr) :
      Step tunnel (.half src (.read n rerr)) (tunnel.put src ((tunnel.halves src).receive n rerr))
  | accept {src : Side} {n : Nat} {rest : Bytes} {rerr : Option ConnError}
      (stage : (tunnel.halves src).stage = .writing rest rerr)
      (intime : tunnel.writeExpired src = false) (positive : 0 < n) (within : n ≤ rest.length) :
      Step tunnel (.half src (.accept n))
        (tunnel.put src
          { tunnel.halves src with
            stage := .writing (rest.drop n) rerr
            delivered := (tunnel.halves src).delivered ++ rest.take n })
  | wrote {src : Side} {rest : Bytes} {rerr werr : Option ConnError}
      (stage : (tunnel.halves src).stage = .writing rest rerr)
      (returns : Half.Returns rest (tunnel.writeExpired src) werr) :
      Step tunnel (.half src (.wrote werr))
        (tunnel.put src { tunnel.halves src with stage := Half.afterWrite rerr werr })
  | closeWrite {src : Side} {why : Ended} (stage : (tunnel.halves src).stage = .finished why) :
      Step tunnel (.half src .closeWrite)
        (tunnel.put src { tunnel.halves src with stage := .shut why })
  | arm {src : Side} {why : Ended} (stage : (tunnel.halves src).stage = .shut why) :
      Step tunnel (.half src .arm)
        { tunnel.put src { tunnel.halves src with stage := .done why } with
          deadlines := tunnel.deadlines.arm tunnel.now }

theorem act_cases {tunnel next : Tunnel} {src : Side} {taken : HalfAct}
    (acted : tunnel.act src taken = some next) : Step tunnel (.half src taken) next := by
  cases taken with
  | refreshIdle =>
    obtain ⟨stage, same⟩ := Option.ite_none_right_eq_some.mp acted
    cases same
    exact .refreshIdle stage
  | read n rerr =>
    obtain ⟨⟨stage, answers⟩, same⟩ := Option.ite_none_right_eq_some.mp acted
    cases same
    exact .read stage answers
  | accept n =>
    simp only [act] at acted
    split at acted
    next rest rerr stage =>
      obtain ⟨⟨intime, positive, within⟩, same⟩ := Option.ite_none_right_eq_some.mp acted
      cases same
      exact .accept stage intime positive within
    · cases acted
  | wrote werr =>
    simp only [act] at acted
    split at acted
    next rest rerr stage =>
      obtain ⟨returns, same⟩ := Option.ite_none_right_eq_some.mp acted
      cases same
      exact .wrote stage returns
    · cases acted
  | closeWrite =>
    simp only [act] at acted
    split at acted
    next why stage =>
      cases acted
      exact .closeWrite stage
    · cases acted
  | arm =>
    simp only [act] at acted
    split at acted
    next why stage =>
      cases acted
      exact .arm stage
    · cases acted

theorem step_cases {tunnel next : Tunnel} {action : TunnelAction}
    (stepped : machine.step tunnel action = some next) : Step tunnel action next := by
  cases action with
  | pass instant =>
    obtain ⟨later, same⟩ := Option.ite_none_right_eq_some.mp stepped
    cases same
    exact .pass later
  | arrive side bytes =>
    obtain ⟨⟨brought, opened⟩, same⟩ := Option.ite_none_right_eq_some.mp stepped
    cases same
    exact .arrive brought opened
  | close side =>
    obtain ⟨opened, same⟩ := Option.ite_none_right_eq_some.mp stepped
    cases same
    exact .close opened
  | half src taken => exact act_cases stepped

@[simp] theorem put_now (tunnel : Tunnel) (side : Side) (half : Half) :
    (tunnel.put side half).now = tunnel.now := rfl

@[simp] theorem put_deadlines (tunnel : Tunnel) (side : Side) (half : Half) :
    (tunnel.put side half).deadlines = tunnel.deadlines := rfl

@[simp] theorem put_same (tunnel : Tunnel) (side : Side) (half : Half) :
    (tunnel.put side half).halves side = half := Side.set_same _ _ _

theorem put_of_ne {side other : Side} (different : other ≠ side) (tunnel : Tunnel) (half : Half) :
    (tunnel.put side half).halves other = tunnel.halves other := Side.set_of_ne different _ _

end Tunnel

end ClusterRouter.Channel
