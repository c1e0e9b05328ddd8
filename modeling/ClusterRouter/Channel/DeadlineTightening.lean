import ClusterRouter.Channel.Tunnel

/-! The calls that both copy loops of a tunnel make on its deadlines
(`internal/channel/server.go`), in any order. Before `arm` the remembered idle deadline is the
read deadline that is set; from then on no read deadline exceeds the linger bound. -/

set_option autoImplicit false

namespace ClusterRouter.Channel

open Foundation

inductive DeadlineCall where
  | refreshIdle (src : Side)
  | arm
  deriving DecidableEq, Repr

structure DeadlineEvent where
  now : Int
  call : DeadlineCall
  deriving DecidableEq, Repr

structure DeadlineRun where
  deadlines : TunnelDeadlines
  clock : Int

namespace DeadlineRun

def start (idle linger began : Int) : DeadlineRun := ⟨.new idle linger, began⟩

def perform (d : TunnelDeadlines) (now : Int) : DeadlineCall → TunnelDeadlines
  | .refreshIdle src => d.refreshIdle src now
  | .arm => d.arm now

def step (state : DeadlineRun) (event : DeadlineEvent) : Option DeadlineRun :=
  if event.now < state.clock then none
  else some ⟨perform state.deadlines event.now event.call, event.now⟩

def machine : Machine DeadlineRun DeadlineEvent := ⟨step⟩

theorem step_eq_some {state next : DeadlineRun} {event : DeadlineEvent} :
    machine.step state event = some next ↔
      state.clock ≤ event.now ∧ next = ⟨perform state.deadlines event.now event.call, event.now⟩ := by
  change step state event = some next ↔ _
  unfold step
  split
  next back =>
    simp only [reduceCtorEq, false_iff, not_and]
    intro ordered
    omega
  next ordered =>
    simp only [Option.some.injEq]
    exact ⟨fun same => ⟨by omega, same.symm⟩, fun ⟨_, same⟩ => same.symm⟩

end DeadlineRun

namespace TunnelDeadlines

/-- Until `arm`, the read deadline of a connection is the idle deadline remembered for it. -/
def Remembered (d : TunnelDeadlines) : Prop :=
  d.armed = false → ∀ side, (d.conns side).read = d.idleAt side

/-- `arm` has run: the linger bound is fixed and holds on both connections. -/
structure Lingering (lingerAt : Int) (d : TunnelDeadlines) : Prop where
  armed : d.armed = true
  fixed : d.lingerAt = lingerAt
  bounded : ∀ side, ∃ deadline, (d.conns side).read = some deadline ∧ deadline ≤ lingerAt

theorem clamped_le (d : TunnelDeadlines) (deadline : Int) (armed : d.armed = true) :
    d.clamped deadline ≤ d.lingerAt := by
  unfold clamped
  split
  · exact Int.le_refl _
  next within =>
    have : ¬ d.lingerAt < deadline := fun late => within ⟨armed, late⟩
    omega

theorem earlier_le (bound : Int) (deadline : Option Int) :
    earlier bound deadline ≤ bound ∧ ∀ instant, deadline = some instant →
      earlier bound deadline ≤ instant := by
  cases deadline with
  | none => exact ⟨Int.le_refl _, by simp⟩
  | some instant =>
    unfold earlier
    simp only [Option.some.injEq, forall_eq']
    split <;> omega

theorem remembered_new (idle linger : Int) : Remembered (new idle linger) := fun _ _ => rfl

variable {d : TunnelDeadlines}

theorem Remembered.refreshIdle (remembered : d.Remembered) (src : Side) (now : Int) :
    (d.refreshIdle src now).Remembered := by
  intro unarmed side
  have before := remembered unarmed
  rcases Side.eq_or_eq_other src side with rfl | rfl
  · simp [TunnelDeadlines.refreshIdle]
  · simpa [TunnelDeadlines.refreshIdle] using before src.other

theorem Remembered.perform (remembered : d.Remembered) (now : Int) (call : DeadlineCall) :
    (DeadlineRun.perform d now call).Remembered := by
  cases call with
  | refreshIdle src => exact remembered.refreshIdle src now
  | arm =>
    intro unarmed
    rw [show DeadlineRun.perform d now .arm = d.arm now from rfl, armed_arm] at unarmed
    cases unarmed

theorem lingering_arm (now : Int) (already : d.armed = true → d.Lingering d.lingerAt) :
    (d.arm now).Lingering (d.arm now).lingerAt := by
  cases armed : d.armed with
  | true =>
    rw [arm_of_armed armed]
    exact already armed
  | false =>
    rw [arm_of_unarmed armed]
    exact ⟨rfl, rfl, fun side => ⟨_, rfl, (earlier_le _ _).1⟩⟩

theorem Lingering.perform {lingerAt : Int} (lingering : d.Lingering lingerAt) (now : Int)
    (call : DeadlineCall) : (DeadlineRun.perform d now call).Lingering lingerAt := by
  cases call with
  | arm =>
    have same : DeadlineRun.perform d now .arm = d := arm_of_armed lingering.armed now
    rw [same]
    exact lingering
  | refreshIdle src =>
    refine ⟨lingering.armed, lingering.fixed, fun side => ?_⟩
    rcases Side.eq_or_eq_other src side with rfl | rfl
    · refine ⟨d.clamped (now + d.idle), by simp [DeadlineRun.perform, TunnelDeadlines.refreshIdle], ?_⟩
      rw [← lingering.fixed]
      exact d.clamped_le _ lingering.armed
    · simpa [DeadlineRun.perform, TunnelDeadlines.refreshIdle] using lingering.bounded src.other

theorem arm_read_le (remembered : d.Remembered) (now : Int) {side : Side} {deadline : Int}
    (inForce : (d.conns side).read = some deadline) :
    ∃ left, ((d.arm now).conns side).read = some left ∧ left ≤ deadline := by
  cases armed : d.armed with
  | true =>
    rw [arm_of_armed armed]
    exact ⟨deadline, inForce, Int.le_refl _⟩
  | false =>
    rw [arm_of_unarmed armed]
    refine ⟨_, rfl, (earlier_le _ _).2 deadline ?_⟩
    rw [← inForce]
    exact (remembered armed side).symm

end TunnelDeadlines

structure DeadlineRun.Sound (state : DeadlineRun) : Prop where
  remembered : state.deadlines.Remembered
  lingering : state.deadlines.armed = true → state.deadlines.Lingering state.deadlines.lingerAt

theorem DeadlineRun.Sound.perform {state : DeadlineRun} (sound : state.Sound) (now : Int)
    (call : DeadlineCall) :
    (⟨DeadlineRun.perform state.deadlines now call, now⟩ : DeadlineRun).Sound := by
  refine ⟨sound.remembered.perform now call, ?_⟩
  intro armed
  cases before : state.deadlines.armed with
  | true =>
    have kept := (sound.lingering before).perform now call
    rw [kept.fixed]
    exact kept
  | false =>
    cases call with
    | arm => exact TunnelDeadlines.lingering_arm now sound.lingering
    | refreshIdle src =>
      have unarmed : (state.deadlines.refreshIdle src now).armed = false := before
      rw [show (DeadlineRun.perform state.deadlines now (.refreshIdle src)).armed = false
        from unarmed] at armed
      cases armed

theorem DeadlineRun.run_sound {idle linger began : Int} {trace : List DeadlineEvent}
    {state : DeadlineRun} (ran : machine.run (start idle linger began) trace = some state) :
    state.Sound := by
  refine machine.run_invariant Sound ?_ ran ⟨TunnelDeadlines.remembered_new idle linger, ?_⟩
  · intro state event next stepped sound
    obtain ⟨_, rfl⟩ := step_eq_some.mp stepped
    exact sound.perform event.now event.call
  · intro armed
    cases armed

/-- Whatever was called before and is called after it, `arm` fixes the linger bound, leaves
both connections bounded by it for good, and moves no read deadline in force to a later
instant. -/
theorem tunnel_deadlines_tighten {idle linger began : Int} {before after : List DeadlineEvent}
    {now : Int} {earlier armed later : DeadlineRun}
    (ranBefore : DeadlineRun.machine.run (.start idle linger began) before = some earlier)
    (arms : DeadlineRun.machine.step earlier ⟨now, .arm⟩ = some armed)
    (ranAfter : DeadlineRun.machine.run armed after = some later) :
    later.deadlines.lingerAt = armed.deadlines.lingerAt ∧
      (∀ side, ∃ deadline, (later.deadlines.conns side).read = some deadline ∧
        deadline ≤ later.deadlines.lingerAt) ∧
      ∀ side deadline, (earlier.deadlines.conns side).read = some deadline →
        ∃ left, (armed.deadlines.conns side).read = some left ∧ left ≤ deadline := by
  have sound := DeadlineRun.run_sound ranBefore
  obtain ⟨_, rfl⟩ := DeadlineRun.step_eq_some.mp arms
  have lingering := TunnelDeadlines.lingering_arm now sound.lingering
  have kept : later.deadlines.Lingering (earlier.deadlines.arm now).lingerAt := by
    refine DeadlineRun.machine.run_invariant
      (fun state => state.deadlines.Lingering (earlier.deadlines.arm now).lingerAt) ?_ ranAfter
      lingering
    intro state event next stepped lingers
    obtain ⟨_, rfl⟩ := DeadlineRun.step_eq_some.mp stepped
    exact lingers.perform event.now event.call
  refine ⟨kept.fixed, ?_, fun side deadline => TunnelDeadlines.arm_read_le sound.remembered now⟩
  rw [kept.fixed]
  exact kept.bounded

theorem tunnel_deadlines_tighten_shorter_idle :
    ∃ earlier armed later,
      DeadlineRun.machine.run (.start 5 30 0)
        [⟨0, .refreshIdle .client⟩, ⟨3, .refreshIdle .upstream⟩] = some earlier ∧
      DeadlineRun.machine.step earlier ⟨4, .arm⟩ = some armed ∧
      DeadlineRun.machine.run armed [⟨7, .refreshIdle .upstream⟩, ⟨33, .refreshIdle .client⟩] =
        some later ∧
      (∃ left, (armed.deadlines.conns .client).read = some left ∧ left ≤ 5) ∧
      ∃ deadline, (later.deadlines.conns .client).read = some deadline ∧ deadline ≤ 34 := by
  have tighten := @tunnel_deadlines_tighten 5 30 0
    [⟨0, .refreshIdle .client⟩, ⟨3, .refreshIdle .upstream⟩]
    [⟨7, .refreshIdle .upstream⟩, ⟨33, .refreshIdle .client⟩] 4 _ _ _ rfl rfl rfl
  exact ⟨_, _, _, rfl, rfl, rfl, tighten.2.2 .client 5 rfl, tighten.2.1 .client⟩

end ClusterRouter.Channel
