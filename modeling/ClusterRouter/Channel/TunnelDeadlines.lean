import Mathlib

/-! `tunnelDeadlines` (`internal/channel/server.go`) is the one writer of the deadlines of both
connections of a tunnel. A deadline that is not set is `none`. -/

set_option autoImplicit false

namespace ClusterRouter.Channel

inductive Side where
  | client
  | upstream
  deriving DecidableEq, Repr

namespace Side

def other : Side → Side
  | .client => .upstream
  | .upstream => .client

@[simp] theorem other_other (side : Side) : side.other.other = side := by cases side <;> rfl

@[simp] theorem other_ne (side : Side) : side.other ≠ side := by cases side <;> decide

@[simp] theorem ne_other (side : Side) : side ≠ side.other := by cases side <;> decide

theorem eq_or_eq_other (side other : Side) : other = side ∨ other = side.other := by
  cases side <;> cases other <;> decide

instance {fact : Side → Prop} [∀ side, Decidable (fact side)] : Decidable (∀ side, fact side) :=
  decidable_of_iff (fact .client ∧ fact .upstream)
    ⟨fun both side => side.casesOn both.1 both.2, fun all => ⟨all _, all _⟩⟩

def set {Value : Type} (values : Side → Value) (side : Side) (value : Value) : Side → Value :=
  fun other => if other = side then value else values other

variable {Value : Type}

@[simp] theorem set_same (values : Side → Value) (side : Side) (value : Value) :
    set values side value side = value := if_pos rfl

theorem set_of_ne {side other : Side} (different : other ≠ side) (values : Side → Value)
    (value : Value) : set values side value other = values other :=
  if_neg different

@[simp] theorem set_other (values : Side → Value) (side : Side) (value : Value) :
    set values side value side.other = values side.other := set_of_ne (by simp) _ _

@[simp] theorem set_of_other (values : Side → Value) (side : Side) (value : Value) :
    set values side.other value side = values side := set_of_ne (by simp) _ _

end Side

structure ConnDeadlines where
  read : Option Int
  write : Option Int
  deriving DecidableEq, Repr

structure TunnelDeadlines where
  idle : Int
  linger : Int
  armed : Bool
  lingerAt : Int
  idleAt : Side → Option Int
  conns : Side → ConnDeadlines

namespace TunnelDeadlines

def new (idle linger : Int) : TunnelDeadlines where
  idle := idle
  linger := linger
  armed := false
  lingerAt := 0
  idleAt := fun _ => none
  conns := fun _ => ⟨none, none⟩

def clamped (d : TunnelDeadlines) (deadline : Int) : Int :=
  if d.armed = true ∧ d.lingerAt < deadline then d.lingerAt else deadline

/-- Taking over a connection has cleared its deadlines; each read is preceded by a fresh
one. -/
def refreshIdle (d : TunnelDeadlines) (src : Side) (now : Int) : TunnelDeadlines :=
  let deadline := d.clamped (now + d.idle)
  { d with
    idleAt := Side.set d.idleAt src (some deadline)
    conns := Side.set d.conns src { d.conns src with read := some deadline } }

def earlier (bound : Int) : Option Int → Int
  | none => bound
  | some deadline => if deadline < bound then deadline else bound

def tightened (d : TunnelDeadlines) (c : Side) : Int := earlier d.lingerAt (d.idleAt c)

def tightenLocked (d : TunnelDeadlines) (c : Side) : TunnelDeadlines :=
  { d with conns := Side.set d.conns c ⟨some (d.tightened c), some (d.tightened c)⟩ }

def arm (d : TunnelDeadlines) (now : Int) : TunnelDeadlines :=
  if d.armed then d
  else
    ({ d with armed := true, lingerAt := now + d.linger } |>.tightenLocked .client).tightenLocked
      .upstream

theorem lt_clamped_iff (d : TunnelDeadlines) (now deadline : Int) :
    now < d.clamped deadline ↔ now < deadline ∧ (d.armed = true → now < d.lingerAt) := by
  unfold clamped
  cases d.armed with
  | false => simp
  | true =>
    simp only [true_and, forall_const]
    split <;> omega

variable {d : TunnelDeadlines}

theorem refreshIdle_of_unarmed (unarmed : d.armed = false) (src : Side) (now : Int) :
    d.refreshIdle src now =
      { d with
        idleAt := Side.set d.idleAt src (some (now + d.idle))
        conns := Side.set d.conns src { d.conns src with read := some (now + d.idle) } } := by
  simp [refreshIdle, clamped, unarmed]

theorem arm_of_armed (armed : d.armed = true) (now : Int) :
    d.arm now = d := if_pos armed

theorem arm_of_unarmed (unarmed : d.armed = false) (now : Int) :
    d.arm now =
      { d with
        armed := true
        lingerAt := now + d.linger
        conns := fun c =>
          ⟨some ({ d with lingerAt := now + d.linger }.tightened c),
            some ({ d with lingerAt := now + d.linger }.tightened c)⟩ } := by
  have both : ∀ (conns : Side → ConnDeadlines) (first second : ConnDeadlines),
      Side.set (Side.set conns .client first) .upstream second =
        fun c => match c with | .client => first | .upstream => second := by
    intro conns first second
    funext c
    cases c <;> rfl
  rw [arm, if_neg (by simp [unarmed])]
  simp only [tightenLocked, both]
  congr 1
  funext c
  cases c <;> rfl

theorem armed_arm (d : TunnelDeadlines) (now : Int) : (d.arm now).armed = true := by
  cases armed : d.armed with
  | false => rw [arm_of_unarmed armed]
  | true => rw [arm_of_armed armed, armed]

end TunnelDeadlines

end ClusterRouter.Channel
