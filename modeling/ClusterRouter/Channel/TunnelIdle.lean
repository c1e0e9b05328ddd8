import ClusterRouter.Channel.TunnelProperties

/-! `IdleTimeout` is for a tunnel that carries no bytes in either direction. The deadlines are
kept for each direction by itself, so a tunnel survives as long as each direction gets bytes
within the bound. -/

set_option autoImplicit false

namespace ClusterRouter.Channel

open Foundation

namespace Tunnel

/-- No peer closes, and no call fails for a reason of its own. -/
def undisturbed (action : TunnelAction) : Prop :=
  ∀ side, action ≠ .close side ∧ fails side action = false

instance (action : TunnelAction) : Decidable (undisturbed action) := by
  unfold undisturbed
  infer_instance

def overdue (tunnel : Tunnel) (side : Side) : Bool :=
  decide ((tunnel.halves side).stage = .reading) && tunnel.idledOut side

/-- Time does not pass to where a direction would have waited for the idle bound. -/
def keepsBothBusy (tunnel : Tunnel) : TunnelAction → Prop
  | .pass instant => ∀ side, { tunnel with now := instant }.overdue side = false
  | _ => True

instance (tunnel : Tunnel) (action : TunnelAction) : Decidable (tunnel.keepsBothBusy action) := by
  unfold keepsBothBusy
  split <;> infer_instance

structure Live (tunnel : Tunnel) : Prop where
  unarmed : tunnel.deadlines.armed = false
  idle_pos : 0 < tunnel.deadlines.idle
  copying : ∀ side, (tunnel.halves side).Copying

theorem live_establish (config : TunnelConfig) (start : Int) (client : Hijacked) :
    (establish config start client).Live where
  unarmed := rfl
  idle_pos := config.idle_pos
  copying side := by cases side <;> exact ⟨rfl, trivial⟩

variable {tunnel next : Tunnel} {action : TunnelAction}

theorem Live.lapsed_iff (live : tunnel.Live) (wired : tunnel.Wired) (side : Side) :
    tunnel.Lapsed side ↔ tunnel.overdue side = true := by
  have read := wired live.unarmed side
  have write := wired live.unarmed side.other
  have copying := (live.copying side).2
  cases stage : (tunnel.halves side).stage with
  | refreshing => simp [Lapsed, overdue, stage]
  | reading => simp [Lapsed, overdue, idledOut, stage, readExpired, read.2, read.1]
  | writing rest rerr => simp [Lapsed, overdue, stage, writeExpired, write.2]
  | finished | shut | done => simp [stage, CopyStage.copying] at copying

theorem Live.step (live : tunnel.Live) (unlapsed : ∀ side, ¬tunnel.Lapsed side)
    (moved : Step tunnel action next) (peers : undisturbed action) : next.Live := by
  have copying := fun side =>
    copying_step (live.copying side) (unlapsed side) moved (peers side).1 (peers side).2
  cases moved with
  | @arm src why stage =>
    have going := (live.copying src).2
    simp [stage, CopyStage.copying] at going
  | pass | arrive | close | refreshIdle | read | accept | wrote | closeWrite =>
    exact ⟨live.unarmed, live.idle_pos, copying⟩

theorem overdue_of_not_reading {side : Side} (elsewhere : (tunnel.halves side).stage ≠ .reading) :
    tunnel.overdue side = false := by
  simp [overdue, elsewhere]

theorem overdue_step (live : tunnel.Live) (moved : Step tunnel action next)
    (busy : tunnel.keepsBothBusy action) (before : ∀ side, tunnel.overdue side = false)
    (side : Side) : next.overdue side = false := by
  have elsewhere : ∀ (src : Side) (half : Half), half.stage ≠ .reading →
      (tunnel.put src half).overdue side = false := by
    intro src half away
    by_cases here : side = src
    · subst here
      exact overdue_of_not_reading (by rwa [put_same])
    · have same := before side
      simpa [overdue, idledOut, put_of_ne here] using same
  cases moved with
  | pass later => exact busy side
  | @arrive other | @close other =>
    have same := before side
    rcases Side.eq_or_eq_other side other with rfl | rfl <;>
      simpa [overdue, idledOut, put_of_ne] using same
  | @refreshIdle src stage =>
    have same := before side
    have positive := live.idle_pos
    rcases Side.eq_or_eq_other side src with rfl | rfl
    · have ahead : tunnel.now < tunnel.now + tunnel.deadlines.idle := by omega
      simpa [overdue, idledOut, TunnelDeadlines.refreshIdle] using ahead
    · simpa [overdue, idledOut, put_of_ne, TunnelDeadlines.refreshIdle] using same
  | @read src n rerr stage answers => exact elsewhere src _ (Half.receive_stage_ne_reading _ _ _)
  | @accept src | @closeWrite src => exact elsewhere src _ (by simp)
  | @wrote src rest rerr werr stage returns =>
    exact elsewhere src _ (Half.afterWrite_ne_reading _ _)
  | @arm src why stage =>
    have going := (live.copying src).2
    simp [stage, CopyStage.copying] at going

theorem unlapsed_step_iff (wired : tunnel.Wired)
    (live : (∀ side, ¬tunnel.Lapsed side) → tunnel.Live) (moved : Step tunnel action next)
    (peers : undisturbed action) :
    (∀ side, ¬next.Lapsed side) ↔
      (∀ side, ¬tunnel.Lapsed side) ∧ tunnel.keepsBothBusy action := by
  constructor
  · intro after
    have unlapsed : ∀ side, ¬tunnel.Lapsed side := fun side lapsed =>
      after side (lapsed.step wired moved (peers side).2)
    refine ⟨unlapsed, ?_⟩
    have later := (live unlapsed).step unlapsed moved peers
    cases moved with
    | pass passed =>
      intro side
      have intime := mt (later.lapsed_iff (wired.step (.pass passed)) side).mpr (after side)
      simpa using intime
    | _ => trivial
  · rintro ⟨unlapsed, busy⟩ side
    have now := live unlapsed
    have before : ∀ side, tunnel.overdue side = false := fun side => by
      simpa using mt (now.lapsed_iff wired side).mpr (unlapsed side)
    rw [(now.step unlapsed moved peers).lapsed_iff (wired.step moved)]
    simpa using overdue_step now moved busy before side

/-- Over every run of an undisturbed tunnel, neither direction meets a deadline exactly if
no direction by itself waits in a `Read` for the idle bound. -/
theorem idle_bound_spares_iff {config : TunnelConfig} {start : Int} {client : Hijacked}
    {trace : List TunnelAction} {final : Tunnel} (peers : ∀ action ∈ trace, undisturbed action)
    (ran : machine.run (establish config start client) trace = some final) :
    (∀ side, ¬final.Lapsed side) ↔
      machine.Meets keepsBothBusy (establish config start client) trace := by
  have unlapsed : ∀ side, ¬(establish config start client).Lapsed side := by
    intro side
    cases side <;> exact id
  have exactly : (∀ side, ¬final.Lapsed side) ↔
      (∀ side, ¬(establish config start client).Lapsed side) ∧
        machine.Meets keepsBothBusy (establish config start client) trace := by
    refine machine.run_iff_meets_under
      (fun tunnel => tunnel.Wired ∧ ((∀ side, ¬tunnel.Lapsed side) → tunnel.Live))
      (fun tunnel => ∀ side, ¬tunnel.Lapsed side) ?_ ?_
      (machine.meets_of_forall peers _) ran
      ⟨wired_establish config start client, fun _ => live_establish config start client⟩
    · rintro tunnel action next quiet stepped ⟨wired, live⟩
      have moved := step_cases stepped
      refine ⟨wired.step moved, fun after => ?_⟩
      have unlapsed := ((unlapsed_step_iff wired live moved quiet).mp after).1
      exact (live unlapsed).step unlapsed moved quiet
    · rintro tunnel action next quiet stepped ⟨wired, live⟩
      exact unlapsed_step_iff wired live (step_cases stepped) quiet
  rw [exactly]
  exact and_iff_right unlapsed

def shortIdle : TunnelConfig where
  connectLinger := 30
  idleTimeout := 10

def bothBusy : List TunnelAction :=
  [.half .client .refreshIdle, .half .upstream .refreshIdle, .pass 6, .arrive .client [1]] ++
    copyRound .client 1 ++ [.arrive .upstream [2]] ++ copyRound .upstream 1 ++ [.pass 15]

theorem idle_bound_spares_both_busy :
    ∃ final, machine.run (establish shortIdle 0 ⟨[], []⟩) bothBusy = some final ∧
      ∀ side, ¬final.Lapsed side := by
  have ran : machine.run (establish shortIdle 0 ⟨[], []⟩) bothBusy = some _ := rfl
  exact ⟨_, ran, (idle_bound_spares_iff (by decide) ran).mpr (by decide +kernel)⟩

/-- The tunnel as a whole is not idle: bytes have come from one side or the other within
the bound. -/
def keepsTunnelBusy (tunnel : Tunnel) : TunnelAction → Prop
  | .pass instant =>
    ¬∀ side, (tunnel.halves side).lastArrival.all
      (fun arrival => decide (arrival + tunnel.deadlines.idle ≤ instant)) = true
  | _ => True

instance (tunnel : Tunnel) (action : TunnelAction) :
    Decidable (tunnel.keepsTunnelBusy action) := by
  unfold keepsTunnelBusy
  split <;> infer_instance

def streamed : List TunnelAction :=
  [.half .client .refreshIdle, .half .upstream .refreshIdle, .arrive .upstream [1]] ++
    copyRound .upstream 1 ++ [.pass 6, .arrive .upstream [2]] ++ copyRound .upstream 1 ++
    [.pass 10, .half .client (.read 0 (some .deadline)), .half .client .closeWrite,
      .half .client .arm, .arrive .upstream [3], .half .upstream (.read 1 none),
      .half .upstream (.wrote (some .deadline))]

/-- Bytes come every six instants, the bound is ten, and both directions are ended by it. -/
theorem streaming_tunnel_reaped :
    ∃ final, machine.run (establish shortIdle 0 ⟨[], []⟩) streamed = some final ∧
      (∀ action ∈ streamed, undisturbed action) ∧
      machine.Meets keepsTunnelBusy (establish shortIdle 0 ⟨[], []⟩) streamed ∧
      (final.halves .client).stage = .done (.read .deadline) ∧
      (final.halves .upstream).stage = .finished (.write .deadline) ∧
      (final.halves .upstream).delivered ≠ (final.halves .upstream).arrived := by
  have ran : machine.run (establish shortIdle 0 ⟨[], []⟩) streamed = some _ := rfl
  exact ⟨_, ran, by decide, by decide +kernel, rfl, rfl, by decide +kernel⟩

end Tunnel

end ClusterRouter.Channel
