import ClusterRouter.Channel.Tunnel

/-! No byte is lost or reordered, the deadlines in force are those the copy loops asked for
until one of them ends, and a direction whose deadline has passed does not recover. -/

set_option autoImplicit false

namespace ClusterRouter.Channel

open Foundation

/-! ## Bytes -/

namespace Half

/-- What has arrived has been delivered, is being written or waits to be read, in this
order, unless a `Write` has failed. -/
def Conserved (half : Half) : Prop :=
  (∀ err, half.stage.ended ≠ some (.write err)) →
    half.delivered ++ half.stage.inflight ++ half.incoming = half.arrived

theorem conserved_start (unread : Bytes) : (start unread).Conserved := fun _ => rfl

theorem Conserved.receive {half : Half} (conserved : half.Conserved)
    (stage : half.stage = .reading) (n : Nat) (rerr : Option ConnError) :
    (half.receive n rerr).Conserved := by
  have before : half.delivered ++ half.incoming = half.arrived := by
    simpa [Conserved, stage, CopyStage.ended, CopyStage.inflight] using conserved
  intro _
  simp only [Half.receive]
  split
  · simp only [CopyStage.inflight, List.append_assoc, List.take_append_drop]
    exact before
  · have none : n = 0 := by omega
    simp only [CopyStage.inflight_afterRead, List.append_nil, none, List.drop_zero]
    exact before

theorem Conserved.write {half : Half} {rest : Bytes} {rerr : Option ConnError}
    (conserved : half.Conserved) (stage : half.stage = .writing rest rerr) :
    half.delivered ++ rest ++ half.incoming = half.arrived := by
  simpa [Conserved, stage, CopyStage.ended, CopyStage.inflight] using conserved

theorem Conserved.wrote {half : Half} {rest : Bytes} {rerr werr : Option ConnError}
    {expired : Bool} (conserved : half.Conserved) (stage : half.stage = .writing rest rerr)
    (returns : Returns rest expired werr) :
    { half with stage := afterWrite rerr werr }.Conserved := by
  intro unfailed
  cases werr with
  | none =>
    cases returns
    simpa [afterWrite] using conserved.write stage
  | some err => exact absurd rfl (unfailed err)

end Half

theorem CopyStage.afterRead_ne_reading (rerr : Option ConnError) : afterRead rerr ≠ .reading := by
  cases rerr <;> simp [afterRead]

theorem Half.receive_stage_ne_reading (half : Half) (n : Nat) (rerr : Option ConnError) :
    (half.receive n rerr).stage ≠ .reading := by
  simp only [Half.receive]
  split
  · simp
  · exact CopyStage.afterRead_ne_reading rerr

theorem Half.afterWrite_ne_reading (rerr werr : Option ConnError) :
    afterWrite rerr werr ≠ .reading := by
  cases werr with
  | none => exact CopyStage.afterRead_ne_reading rerr
  | some err => simp [afterWrite]

namespace Tunnel

variable {tunnel next : Tunnel} {side src : Side} {action : TunnelAction}

theorem forall_put {fact : Half → Prop} {half : Half} (new : fact half)
    (old : ∀ other, fact (tunnel.halves other)) (other : Side) :
    fact ((tunnel.put side half).halves other) := by
  by_cases same : other = side
  · rw [same, put_same]
    exact new
  · rw [put_of_ne same]
    exact old other

/-- The step concerns the direction of the side: it is one of its own goroutine or peer, or
one that changes the clock or both connections. -/
def touches (side : Side) : TunnelAction → Bool
  | .pass _ => true
  | .arrive other _ => decide (other = side)
  | .close other => decide (other = side)
  | .half _ .arm => true
  | .half src _ => decide (src = side)

structure Untouched (side : Side) (tunnel next : Tunnel) : Prop where
  half : next.halves side = tunnel.halves side
  now : next.now = tunnel.now
  armed : next.deadlines.armed = tunnel.deadlines.armed
  lingerAt : next.deadlines.lingerAt = tunnel.deadlines.lingerAt
  read : next.readExpired side = tunnel.readExpired side
  write : next.writeExpired side = tunnel.writeExpired side

theorem untouched_put (elsewhere : src ≠ side) (tunnel : Tunnel) (half : Half) :
    Untouched side tunnel (tunnel.put src half) :=
  ⟨put_of_ne elsewhere.symm _ _, rfl, rfl, rfl, rfl, rfl⟩

theorem Step.untouched (moved : Step tunnel action next) (elsewhere : touches side action = false) :
    Untouched side tunnel next := by
  cases moved with
  | pass | arm => cases elsewhere
  | arrive | close | read | accept | wrote | closeWrite =>
    exact untouched_put (of_decide_eq_false elsewhere) _ _
  | @refreshIdle src stage =>
    obtain rfl := (Side.eq_or_eq_other side src).resolve_left (of_decide_eq_false elsewhere)
    refine ⟨put_of_ne (by simp) _ _, rfl, rfl, rfl, ?_, ?_⟩
    · simp [readExpired, TunnelDeadlines.refreshIdle]
    · simp [writeExpired, TunnelDeadlines.refreshIdle]

theorem conserved_step (moved : Step tunnel action next)
    (conserved : ∀ side, (tunnel.halves side).Conserved) :
    ∀ side, (next.halves side).Conserved := by
  cases moved with
  | pass later => exact conserved
  | @arrive side bytes brought opened =>
    refine forall_put (fun unfailed => ?_) conserved
    have before := conserved side unfailed
    simp only [← before, List.append_assoc]
  | @close side opened => exact forall_put (conserved side) conserved
  | @refreshIdle src stage =>
    refine forall_put (fun _ => ?_) conserved
    have before := conserved src (by simp [stage, CopyStage.ended])
    rwa [stage] at before
  | @read src n rerr stage answers =>
    exact forall_put ((conserved src).receive stage n rerr) conserved
  | @accept src n rest rerr stage intime positive within =>
    refine forall_put (fun _ => ?_) conserved
    have before := (conserved src).write stage
    rw [← List.take_append_drop n rest] at before
    simpa only [CopyStage.inflight, List.append_assoc] using before
  | @wrote src rest rerr werr stage returns =>
    exact forall_put ((conserved src).wrote stage returns) conserved
  | @closeWrite src why stage | @arm src why stage =>
    refine forall_put (fun unfailed => ?_) conserved
    have before := conserved src (by simpa [stage, CopyStage.ended] using unfailed)
    rwa [stage] at before

theorem conserved_of_run {config : TunnelConfig} {start : Int} {client : Hijacked}
    {trace : List TunnelAction} {final : Tunnel}
    (ran : machine.run (establish config start client) trace = some final) (side : Side) :
    (final.halves side).Conserved := by
  refine machine.run_invariant (fun tunnel => ∀ side, (tunnel.halves side).Conserved)
    (fun _ _ _ stepped => conserved_step (step_cases stepped)) ran ?_ side
  intro side
  cases side <;> exact Half.conserved_start _

/-! ## Deadlines -/

def idledOut (tunnel : Tunnel) (side : Side) : Bool :=
  expired ((tunnel.halves side).since.map (fun instant => instant + tunnel.deadlines.idle))
    tunnel.now

/-- Until a direction has ended, a connection has the read deadline its reader last asked
for, and no write deadline. -/
def Wired (tunnel : Tunnel) : Prop :=
  tunnel.deadlines.armed = false → ∀ side,
    tunnel.deadlines.idleAt side =
        (tunnel.halves side).since.map (fun instant => instant + tunnel.deadlines.idle) ∧
      tunnel.deadlines.conns side = ⟨tunnel.deadlines.idleAt side, none⟩

theorem wired_establish (config : TunnelConfig) (start : Int) (client : Hijacked) :
    (establish config start client).Wired := by
  intro _ side
  cases side <;> exact ⟨rfl, rfl⟩

theorem Wired.put (wired : tunnel.Wired) {half : Half}
    (same : half.since = (tunnel.halves side).since) : (tunnel.put side half).Wired := by
  intro unarmed other
  have before := wired unarmed other
  by_cases here : other = side
  · subst here
    rw [put_same, same]
    exact before
  · rw [put_of_ne here]
    exact before

theorem Wired.step (wired : tunnel.Wired) (moved : Step tunnel action next) : next.Wired := by
  cases moved with
  | pass later => exact wired
  | arrive | close | read | accept | wrote | closeWrite => exact wired.put rfl
  | @refreshIdle src stage =>
    intro (unarmed : tunnel.deadlines.armed = false) other
    rw [TunnelDeadlines.refreshIdle_of_unarmed unarmed]
    have before := wired unarmed other
    by_cases here : other = src
    · subst here
      simp [before.2]
    · simpa [put_of_ne here, Side.set_of_ne here] using before
  | arm stage =>
    intro unarmed
    rw [TunnelDeadlines.armed_arm] at unarmed
    cases unarmed

theorem bounds_step (moved : Step tunnel action next) :
    next.deadlines.idle = tunnel.deadlines.idle ∧
      next.deadlines.linger = tunnel.deadlines.linger := by
  cases moved with
  | arm stage =>
    cases armed : tunnel.deadlines.armed with
    | true => simp [TunnelDeadlines.arm_of_armed armed]
    | false => simp [TunnelDeadlines.arm_of_unarmed armed]
  | _ => exact ⟨rfl, rfl⟩

theorem bounds_of_run {config : TunnelConfig} {start : Int} {client : Hijacked}
    {trace : List TunnelAction} {final : Tunnel}
    (ran : machine.run (establish config start client) trace = some final) :
    final.deadlines.idle = config.idle ∧ final.deadlines.linger = config.linger := by
  refine machine.run_invariant
    (fun tunnel => tunnel.deadlines.idle = config.idle ∧ tunnel.deadlines.linger = config.linger)
    ?_ ran ⟨rfl, rfl⟩
  intro tunnel action next stepped bounds
  have same := bounds_step (step_cases stepped)
  exact ⟨same.1.trans bounds.1, same.2.trans bounds.2⟩

/-! ## Lapsed deadlines -/

/-- The direction has been ended by a deadline, or waits in a call whose deadline has
passed, which can then only report so. -/
def Lapsed (tunnel : Tunnel) (side : Side) : Prop :=
  match (tunnel.halves side).stage with
  | .refreshing => False
  | .reading => tunnel.readExpired side = true
  | .writing rest _ => rest ≠ [] ∧ tunnel.writeExpired side = true
  | .finished why | .shut why | .done why => why.err = .deadline

instance (tunnel : Tunnel) (side : Side) : Decidable (tunnel.Lapsed side) := by
  unfold Lapsed
  split <;> infer_instance

theorem Lapsed.mono (lapsed : tunnel.Lapsed side)
    (stage : (next.halves side).stage = (tunnel.halves side).stage)
    (read : tunnel.readExpired side = true → next.readExpired side = true)
    (write : tunnel.writeExpired side = true → next.writeExpired side = true) :
    next.Lapsed side := by
  unfold Lapsed at lapsed ⊢
  rw [stage]
  cases current : (tunnel.halves side).stage with
  | refreshing => simp [current] at lapsed
  | reading =>
    rw [current] at lapsed
    exact read lapsed
  | writing rest rerr =>
    rw [current] at lapsed
    exact ⟨lapsed.1, write lapsed.2⟩
  | finished | shut | done =>
    rw [current] at lapsed
    exact lapsed

theorem Wired.expired_arm (wired : tunnel.Wired) (c : Side)
    (lapsed : expired (tunnel.deadlines.conns c).read tunnel.now = true) :
    expired ((tunnel.deadlines.arm tunnel.now).conns c).read tunnel.now = true := by
  cases armed : tunnel.deadlines.armed with
  | true =>
    rw [TunnelDeadlines.arm_of_armed armed]
    exact lapsed
  | false =>
    rw [(wired armed c).2] at lapsed
    rw [TunnelDeadlines.arm_of_unarmed armed]
    cases idleAt : tunnel.deadlines.idleAt c with
    | none => simp [idleAt] at lapsed
    | some instant =>
      rw [idleAt, expired_some] at lapsed
      simp only [TunnelDeadlines.tightened, TunnelDeadlines.earlier, idleAt, expired_some]
      split <;> omega

theorem Wired.write_expired_arm (wired : tunnel.Wired) (c : Side)
    (lapsed : expired (tunnel.deadlines.conns c).write tunnel.now = true) :
    expired ((tunnel.deadlines.arm tunnel.now).conns c).write tunnel.now = true := by
  cases armed : tunnel.deadlines.armed with
  | true =>
    rw [TunnelDeadlines.arm_of_armed armed]
    exact lapsed
  | false =>
    rw [(wired armed c).2] at lapsed
    cases lapsed

def fails (side : Side) : TunnelAction → Bool
  | .half src (.read _ rerr) => decide (src = side ∧ rerr = some .failed)
  | .half src (.wrote werr) => decide (src = side ∧ werr = some .failed)
  | _ => false

theorem Lapsed.read {n : Nat} {rerr : Option ConnError} (lapsed : tunnel.Lapsed src)
    (stage : (tunnel.halves src).stage = .reading)
    (answers : (tunnel.halves src).Answers (tunnel.readExpired src) n rerr)
    (unfailed : rerr ≠ some .failed) :
    (tunnel.put src ((tunnel.halves src).receive n rerr)).Lapsed src := by
  have passed : tunnel.readExpired src = true := by simpa [Lapsed, stage] using lapsed
  rw [passed] at answers
  cases rerr with
  | none => exact absurd answers.1 (by decide)
  | some err =>
    cases err with
    | eof => exact absurd answers.1 (by decide)
    | failed => exact absurd rfl unfailed
    | deadline =>
      obtain ⟨_, rfl⟩ := answers
      simp [Lapsed, Half.receive, CopyStage.afterRead, Ended.err]

theorem Lapsed.wrote {rest : Bytes} {rerr werr : Option ConnError} (lapsed : tunnel.Lapsed src)
    (stage : (tunnel.halves src).stage = .writing rest rerr)
    (returns : Half.Returns rest (tunnel.writeExpired src) werr) (unfailed : werr ≠ some .failed) :
    (tunnel.put src { tunnel.halves src with stage := Half.afterWrite rerr werr }).Lapsed src := by
  have passed : rest ≠ [] ∧ tunnel.writeExpired src = true := by
    simpa [Lapsed, stage] using lapsed
  cases werr with
  | none => exact absurd returns passed.1
  | some err =>
    cases err with
    | eof => cases returns
    | failed => exact absurd rfl unfailed
    | deadline => simp [Lapsed, Half.afterWrite, Ended.err]

theorem Untouched.lapsed_iff (same : Untouched side tunnel next) :
    next.Lapsed side ↔ tunnel.Lapsed side := by
  simp only [Lapsed, same.half, same.read, same.write]

theorem Lapsed.step (lapsed : tunnel.Lapsed side) (wired : tunnel.Wired)
    (moved : Step tunnel action next) (unfailed : fails side action = false) :
    next.Lapsed side := by
  cases touched : touches side action with
  | false => exact (moved.untouched touched).lapsed_iff.mpr lapsed
  | true =>
    cases moved with
    | pass later =>
      have passed := Int.le_of_lt later
      exact lapsed.mono rfl (expired_mono passed) (expired_mono passed)
    | arrive | close =>
      obtain rfl := of_decide_eq_true touched
      exact lapsed.mono (by simp) id id
    | refreshIdle stage =>
      obtain rfl := of_decide_eq_true touched
      simp [Lapsed, stage] at lapsed
    | read stage answers =>
      obtain rfl := of_decide_eq_true touched
      exact lapsed.read stage answers (by simpa [fails] using unfailed)
    | accept stage intime positive within =>
      obtain rfl := of_decide_eq_true touched
      simp [Lapsed, stage, intime] at lapsed
    | wrote stage returns =>
      obtain rfl := of_decide_eq_true touched
      exact lapsed.wrote stage returns (by simpa [fails] using unfailed)
    | closeWrite stage =>
      obtain rfl := of_decide_eq_true touched
      simpa [Lapsed, stage] using lapsed
    | @arm src why stage =>
      rcases Side.eq_or_eq_other side src with rfl | rfl
      · simpa [Lapsed, stage] using lapsed
      · exact lapsed.mono (by simp [put_of_ne]) (wired.expired_arm _)
          (wired.write_expired_arm _)

end Tunnel

/-! ## Directions that go on -/

def CopyStage.copying : CopyStage → Prop
  | .refreshing | .reading => True
  | .writing _ rerr => rerr = none
  | .finished _ | .shut _ | .done _ => False

def Half.Copying (half : Half) : Prop := half.closed = false ∧ half.stage.copying

theorem Half.Copying.receive {half : Half} {n : Nat} {rerr : Option ConnError}
    (copying : half.Copying) (answers : half.Answers false n rerr)
    (unfailed : rerr ≠ some .failed) : (half.receive n rerr).Copying := by
  cases rerr with
  | none =>
    refine ⟨copying.1, ?_⟩
    simp [Half.receive, CopyStage.copying, answers.2.1]
  | some err =>
    cases err with
    | eof => exact absurd (copying.1.symm.trans answers.2.1) (by decide)
    | deadline => exact absurd answers.1 (by decide)
    | failed => exact absurd rfl unfailed

theorem Half.Copying.wrote {half : Half} {rest : Bytes} {rerr werr : Option ConnError}
    {expired : Bool} (copying : half.Copying) (stage : half.stage = .writing rest rerr)
    (intime : rest ≠ [] → expired = false) (returns : Returns rest expired werr)
    (unfailed : werr ≠ some .failed) :
    { half with stage := afterWrite rerr werr }.Copying := by
  obtain ⟨opened, unpaired⟩ := copying
  rw [stage] at unpaired
  cases unpaired
  cases werr with
  | none => exact ⟨opened, trivial⟩
  | some err =>
    cases err with
    | eof => cases returns
    | deadline => exact absurd (returns.2.symm.trans (intime returns.1)) (by decide)
    | failed => exact absurd rfl unfailed

namespace Tunnel

/-- A direction whose peer does not close and whose calls do not fail goes on until a
deadline passes. -/
theorem copying_step {tunnel next : Tunnel} {action : TunnelAction} {side : Side}
    (copying : (tunnel.halves side).Copying) (unlapsed : ¬tunnel.Lapsed side)
    (moved : Step tunnel action next) (peer : action ≠ .close side)
    (unfailed : fails side action = false) : (next.halves side).Copying := by
  cases touched : touches side action with
  | false =>
    rw [(moved.untouched touched).half]
    exact copying
  | true =>
    cases moved with
    | pass later => exact copying
    | arrive brought opened =>
      obtain rfl := of_decide_eq_true touched
      simpa [Half.Copying] using copying
    | close opened =>
      obtain rfl := of_decide_eq_true touched
      exact absurd rfl peer
    | refreshIdle stage =>
      obtain rfl := of_decide_eq_true touched
      simpa [Half.Copying, CopyStage.copying] using copying.1
    | @read src n rerr stage answers =>
      obtain rfl := of_decide_eq_true touched
      have intime : tunnel.readExpired src = false := by simpa [Lapsed, stage] using unlapsed
      rw [intime] at answers
      simpa using copying.receive answers (by simpa [fails] using unfailed)
    | accept stage intime positive within =>
      obtain rfl := of_decide_eq_true touched
      simpa [Half.Copying, CopyStage.copying, stage] using copying
    | @wrote src rest rerr werr stage returns =>
      obtain rfl := of_decide_eq_true touched
      have intime : rest ≠ [] → tunnel.writeExpired src = false := by
        simpa [Lapsed, stage] using unlapsed
      rw [put_same]
      exact copying.wrote stage intime returns (by simpa [fails] using unfailed)
    | closeWrite stage =>
      obtain rfl := of_decide_eq_true touched
      simp [Half.Copying, stage, CopyStage.copying] at copying
    | @arm src why stage =>
      rcases Side.eq_or_eq_other side src with rfl | rfl
      · simp [Half.Copying, stage, CopyStage.copying] at copying
      · simpa [put_of_ne] using copying

end Tunnel

end ClusterRouter.Channel
