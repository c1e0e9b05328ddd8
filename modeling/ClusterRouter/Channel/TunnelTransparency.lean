import ClusterRouter.Channel.TunnelProperties

/-! The copy loop from the client forwards every byte it can read, in order. What the HTTP
server had read ahead of the hijack is not among them. -/

set_option autoImplicit false

namespace ClusterRouter.Channel

open Foundation

/-! ## The end of a stream -/

def CopyStage.met : CopyStage → Option Ended
  | .refreshing | .reading => none
  | .writing _ rerr => rerr.map .read
  | .finished why | .shut why | .done why => some why

theorem CopyStage.met_afterRead (rerr : Option ConnError) :
    (afterRead rerr).met = rerr.map .read := by
  cases rerr <;> rfl

namespace Half

def Exhausted (half : Half) : Prop :=
  half.stage.met = some (.read .eof) → half.incoming = [] ∧ half.closed = true

theorem Exhausted.receive {half : Half} {expired : Bool} {n : Nat} {rerr : Option ConnError}
    (answers : half.Answers expired n rerr) : (half.receive n rerr).Exhausted := by
  intro met
  have atEnd : rerr = some .eof := by
    simp only [Half.receive] at met
    split at met
    · simpa [CopyStage.met] using met
    · simpa [CopyStage.met_afterRead] using met
  subst atEnd
  exact ⟨by simp [Half.receive, answers.2.2.1], answers.2.1⟩

theorem Exhausted.wrote {half : Half} {rest : Bytes} {rerr : Option ConnError}
    (exhausted : half.Exhausted) (stage : half.stage = .writing rest rerr)
    (werr : Option ConnError) : { half with stage := afterWrite rerr werr }.Exhausted := by
  intro met
  cases werr with
  | none => exact exhausted (by rw [stage]; exact (CopyStage.met_afterRead rerr).symm.trans met)
  | some err => simp [afterWrite, CopyStage.met] at met

end Half

namespace Tunnel

variable {tunnel : Tunnel} {src : Side} {rerr : Option ConnError}

theorem exhausted_step {next : Tunnel} {action : TunnelAction} (moved : Step tunnel action next)
    (exhausted : ∀ side, (tunnel.halves side).Exhausted) :
    ∀ side, (next.halves side).Exhausted := by
  cases moved with
  | pass later => exact exhausted
  | @arrive side bytes brought opened =>
    refine forall_put (fun met => ?_) exhausted
    exact absurd (opened.symm.trans (exhausted side met).2) (by decide)
  | @close side opened =>
    exact forall_put (fun met => ⟨(exhausted side met).1, rfl⟩) exhausted
  | refreshIdle stage => exact forall_put (fun met => by cases met) exhausted
  | read stage answers => exact forall_put (.receive answers) exhausted
  | @accept src n rest rerr stage | @closeWrite src why stage | @arm src why stage =>
    refine forall_put (fun met => ?_) exhausted
    exact exhausted src (by rw [stage]; exact met)
  | @wrote src rest rerr werr stage returns =>
    exact forall_put ((exhausted src).wrote stage werr) exhausted

theorem exhausted_of_run {config : TunnelConfig} {start : Int} {client : Hijacked}
    {trace : List TunnelAction} {final : Tunnel}
    (ran : machine.run (establish config start client) trace = some final) (side : Side) :
    (final.halves side).Exhausted := by
  refine machine.run_invariant (fun tunnel => ∀ side, (tunnel.halves side).Exhausted)
    (fun _ _ _ stepped => exhausted_step (step_cases stepped)) ran ?_ side
  intro side met
  cases side <;> cases met

/-! ## The loop delivers what it can read -/

def Reaches (src : Side) (tunnel next : Tunnel) : Prop :=
  ∃ acts : List HalfAct, machine.run tunnel (acts.map (.half src)) = some next

theorem Reaches.refl (src : Side) (tunnel : Tunnel) : Reaches src tunnel tunnel := ⟨[], rfl⟩

theorem Reaches.act {next : Tunnel} {taken : HalfAct} (acted : tunnel.act src taken = some next) :
    Reaches src tunnel next :=
  ⟨[taken], machine.run_cons_eq_some.mpr ⟨next, acted, rfl⟩⟩

theorem Reaches.trans {first second third : Tunnel} (one : Reaches src first second)
    (two : Reaches src second third) :
    Reaches src first third := by
  obtain ⟨front, frontRan⟩ := one
  obtain ⟨back, backRan⟩ := two
  refine ⟨front ++ back, ?_⟩
  rw [List.map_append]
  exact machine.run_append_eq_some.mpr ⟨second, frontRan, backRan⟩

/-- No deadline stands in the way of the direction. -/
structure Clear (src : Side) (tunnel : Tunnel) : Prop where
  read : (tunnel.halves src).stage = .reading → tunnel.readExpired src = false
  write : tunnel.writeExpired src = false
  linger : tunnel.deadlines.armed = true → tunnel.now < tunnel.deadlines.lingerAt

theorem Clear.put (clear : tunnel.Clear src) {half : Half} (elsewhere : half.stage ≠ .reading) :
    (tunnel.put src half).Clear src where
  read here := absurd (by rwa [put_same] at here) elsewhere
  write := clear.write
  linger := clear.linger

structure Advances (src : Side) (tunnel : Tunnel) (half : Half) (next : Tunnel) : Prop where
  reaches : Reaches src tunnel next
  clear : next.Clear src
  idle : next.deadlines.idle = tunnel.deadlines.idle
  half : next.halves src = half

theorem Advances.trans {first second third : Tunnel} {one two : Half}
    (front : Advances src first one second) (back : Advances src second two third) :
    Advances src first two third where
  reaches := front.reaches.trans back.reaches
  clear := back.clear
  idle := back.idle.trans front.idle
  half := back.half

section

variable (clear : tunnel.Clear src)

include clear

theorem Advances.put {half : Half} {taken : HalfAct} (elsewhere : half.stage ≠ .reading)
    (acted : tunnel.act src taken = some (tunnel.put src half)) :
    Advances src tunnel half (tunnel.put src half) where
  reaches := .act acted
  clear := clear.put elsewhere
  idle := rfl
  half := put_same _ _ _

theorem advances_refreshIdle (positive : 0 < tunnel.deadlines.idle)
    (stage : (tunnel.halves src).stage = .refreshing) :
    ∃ next, Advances src tunnel
      { tunnel.halves src with stage := .reading, since := some tunnel.now } next := by
  have acted : tunnel.act src .refreshIdle = some _ := if_pos stage
  refine ⟨_, .act acted, ⟨fun _ => ?_, ?_, clear.linger⟩, rfl, put_same _ _ _⟩
  · simp only [readExpired, TunnelDeadlines.refreshIdle, put_now, Side.set_same,
      expired_some_eq_false, TunnelDeadlines.lt_clamped_iff]
    exact ⟨by omega, clear.linger⟩
  · simpa [writeExpired, TunnelDeadlines.refreshIdle] using clear.write

theorem advances_accept {rest : Bytes} (stage : (tunnel.halves src).stage = .writing rest rerr) :
    ∃ next, Advances src tunnel
      { tunnel.halves src with
        stage := .writing [] rerr
        delivered := (tunnel.halves src).delivered ++ rest } next := by
  by_cases empty : rest = []
  · refine ⟨tunnel, .refl _ _, clear, rfl, ?_⟩
    cases half : tunnel.halves src
    simp_all
  · have positive : 0 < rest.length := List.length_pos_iff.mpr empty
    have acted : tunnel.act src (.accept rest.length) = some (tunnel.put src
        { tunnel.halves src with
          stage := .writing [] rerr
          delivered := (tunnel.halves src).delivered ++ rest }) := by
      simp [act, stage, clear.write, positive]
    exact ⟨_, .put clear (by simp) acted⟩

theorem advances_wrote (stage : (tunnel.halves src).stage = .writing [] rerr) :
    ∃ next, Advances src tunnel { tunnel.halves src with stage := .afterRead rerr } next := by
  have acted : tunnel.act src (.wrote none) =
      some (tunnel.put src { tunnel.halves src with stage := .afterRead rerr }) := by
    simp [act, stage, Half.Returns, Half.afterWrite]
  exact ⟨_, .put clear (CopyStage.afterRead_ne_reading rerr) acted⟩

theorem advances_write {rest : Bytes} (stage : (tunnel.halves src).stage = .writing rest rerr) :
    ∃ next, Advances src tunnel
      { tunnel.halves src with
        stage := .afterRead rerr
        delivered := (tunnel.halves src).delivered ++ rest } next := by
  obtain ⟨taken, first⟩ := advances_accept clear stage
  obtain ⟨next, second⟩ := advances_wrote first.clear (by rw [first.half])
  rw [first.half] at second
  exact ⟨next, first.trans second⟩

theorem advances_round (positive : 0 < tunnel.deadlines.idle)
    (stage : (tunnel.halves src).stage = .reading) (waiting : (tunnel.halves src).incoming ≠ []) :
    ∃ next half, Advances src tunnel half next ∧ half.stage = .reading ∧
      half.incoming = (tunnel.halves src).incoming.drop connectCopyBufferSize ∧
      half.delivered = (tunnel.halves src).delivered ++
        (tunnel.halves src).incoming.take connectCopyBufferSize := by
  have arrived : 0 < (tunnel.halves src).incoming.length := List.length_pos_iff.mpr waiting
  have room : 0 < connectCopyBufferSize := by decide
  have takes : 0 < min connectCopyBufferSize (tunnel.halves src).incoming.length := by omega
  have acted : tunnel.act src (.read (min connectCopyBufferSize _) none) = some _ :=
    if_pos ⟨stage, clear.read stage, takes, Nat.min_le_right _ _, Nat.min_le_left _ _⟩
  have read := Advances.put clear (Half.receive_stage_ne_reading _ _ _) acted
  obtain ⟨written, write⟩ := advances_write read.clear (by
    rw [read.half, Half.receive, if_pos takes])
  obtain ⟨next, refresh⟩ := advances_refreshIdle write.clear
    (by rw [write.idle, read.idle]; exact positive) (by rw [write.half]; rfl)
  refine ⟨next, _, (read.trans write).trans refresh, rfl, ?_, ?_⟩
  · rw [write.half, read.half]
    exact List.drop_eq_drop_min.symm
  · rw [write.half, read.half]
    exact congrArg _ List.take_eq_take_min.symm

theorem reading_delivers (positive : 0 < tunnel.deadlines.idle)
    (stage : (tunnel.halves src).stage = .reading) :
    ∃ next, Reaches src tunnel next ∧
      (next.halves src).delivered =
        (tunnel.halves src).delivered ++ (tunnel.halves src).incoming := by
  induction size : (tunnel.halves src).incoming.length using Nat.strongRecOn
    generalizing tunnel with
  | ind bound ih =>
    by_cases waiting : (tunnel.halves src).incoming = []
    · exact ⟨tunnel, .refl _ _, by rw [waiting, List.append_nil]⟩
    · obtain ⟨middle, half, round, reading, left, taken⟩ :=
        advances_round clear positive stage waiting
      have shorter : (middle.halves src).incoming.length < bound := by
        have arrived : 0 < (tunnel.halves src).incoming.length := List.length_pos_iff.mpr waiting
        have room : 0 < connectCopyBufferSize := by decide
        rw [round.half, left, List.length_drop]
        omega
      obtain ⟨next, reaches, delivered⟩ := ih _ shorter round.clear
        (by rw [round.idle]; exact positive) (by rw [round.half]; exact reading) rfl
      refine ⟨next, round.reaches.trans reaches, ?_⟩
      rw [delivered, round.half, taken, left, List.append_assoc, List.take_append_drop]

theorem refreshing_delivers (positive : 0 < tunnel.deadlines.idle)
    (stage : (tunnel.halves src).stage = .refreshing) :
    ∃ next, Reaches src tunnel next ∧
      (next.halves src).delivered =
        (tunnel.halves src).delivered ++ (tunnel.halves src).incoming := by
  obtain ⟨middle, refresh⟩ := advances_refreshIdle clear positive stage
  obtain ⟨next, reaches, delivered⟩ := reading_delivers refresh.clear
    (by rw [refresh.idle]; exact positive) (by rw [refresh.half])
  refine ⟨next, refresh.reaches.trans reaches, ?_⟩
  rw [delivered, refresh.half]

end

def Unfailed (src : Side) (tunnel : Tunnel) : Prop :=
  ∀ why, (tunnel.halves src).stage.met = some why → why = .read .eof

theorem delivers (clear : tunnel.Clear src) (positive : 0 < tunnel.deadlines.idle)
    (unfailed : tunnel.Unfailed src) (exhausted : (tunnel.halves src).Exhausted) :
    ∃ next, Reaches src tunnel next ∧
      (next.halves src).delivered = (tunnel.halves src).delivered ++
        (tunnel.halves src).stage.inflight ++ (tunnel.halves src).incoming := by
  have ended : ∀ why, (tunnel.halves src).stage.met = some why →
      (tunnel.halves src).incoming = [] := by
    intro why met
    cases unfailed why met
    exact (exhausted met).1
  cases stage : (tunnel.halves src).stage with
  | refreshing => simpa [CopyStage.inflight] using refreshing_delivers clear positive stage
  | reading => simpa [CopyStage.inflight] using reading_delivers clear positive stage
  | writing rest rerr =>
    obtain ⟨written, write⟩ := advances_write clear stage
    cases rerr with
    | none =>
      obtain ⟨next, reaches, delivered⟩ := refreshing_delivers write.clear
        (by rw [write.idle]; exact positive) (by rw [write.half]; rfl)
      refine ⟨next, write.reaches.trans reaches, ?_⟩
      rw [delivered, write.half, CopyStage.inflight]
    | some err =>
      have nothing := ended (.read err) (by rw [stage]; rfl)
      refine ⟨written, write.reaches, ?_⟩
      rw [write.half, nothing, CopyStage.inflight, List.append_nil]
  | finished why | shut why | done why =>
    have nothing := ended why (by rw [stage]; rfl)
    exact ⟨tunnel, .refl _ _, by simp [nothing, CopyStage.inflight]⟩

/-! ## The bytes the client sent -/

/-- What the client has sent after the headers of its request: what the HTTP server had
buffered when the connection was taken over, and what came on the connection since. -/
def sent (tunnel : Tunnel) (client : Hijacked) : Bytes :=
  client.buffered ++ (tunnel.halves .client).arrived

/-- Nothing sent is lost or out of order: it has been delivered, is being written, or waits
to be read, and what has not been delivered can be. -/
structure Transparent (tunnel : Tunnel) (client : Hijacked) : Prop where
  accounted : (tunnel.halves .client).delivered ++ (tunnel.halves .client).stage.inflight ++
    (tunnel.halves .client).incoming = tunnel.sent client
  deliverable : tunnel.Clear .client → ∃ next, Reaches .client tunnel next ∧
    (next.halves .client).delivered = tunnel.sent client

/-- While no error has ended the direction, the upstream receives what the client sent
exactly if the HTTP server had buffered none of it. -/
theorem tunnel_transparent_iff {config : TunnelConfig} {start : Int} {client : Hijacked}
    {trace : List TunnelAction} {final : Tunnel}
    (ran : machine.run (establish config start client) trace = some final)
    (unfailed : final.Unfailed .client) :
    final.Transparent client ↔ client.buffered = [] := by
  have arrived := conserved_of_run ran .client (by
    intro err ended
    have met : (final.halves .client).stage.met = some (.write err) := by
      cases stage : (final.halves .client).stage <;> simp_all [CopyStage.ended, CopyStage.met]
    cases unfailed _ met)
  constructor
  · intro transparent
    have same := transparent.accounted
    rw [arrived, sent] at same
    simpa using same
  · intro empty
    have all : final.sent client = (final.halves .client).arrived := by simp [sent, empty]
    refine ⟨by rw [all, arrived], fun clear => ?_⟩
    obtain ⟨next, reaches, delivered⟩ := delivers clear
      (by rw [(bounds_of_run ran).1]; exact config.idle_pos) unfailed (exhausted_of_run ran .client)
    exact ⟨next, reaches, by rw [delivered, arrived, all]⟩

def helloLater : List TunnelAction :=
  [.half .client .refreshIdle, .arrive .client [22, 3], .half .client (.read 2 none),
    .half .client (.accept 1)]

theorem tunnel_transparent_hello_later :
    ∃ final,
      machine.run (establish ⟨0, 0⟩ 0 ⟨[], []⟩) helloLater = some final ∧
        final.Transparent ⟨[], []⟩ := by
  have ran : machine.run (establish ⟨0, 0⟩ 0 ⟨[], []⟩) helloLater = some _ := rfl
  exact ⟨_, ran, (tunnel_transparent_iff ran (by intro why met; cases met)).mpr rfl⟩

def helloEarly : Hijacked where
  buffered := [22]
  unread := [3]

theorem buffered_byte_lost :
    ∃ final,
      machine.run (establish ⟨0, 0⟩ 0 helloEarly)
          [.half .client .refreshIdle, .half .client (.read 1 none), .half .client (.accept 1),
            .half .client (.wrote none), .half .client .refreshIdle] = some final ∧
        final.Unfailed .client ∧
        (final.halves .client).stage = .reading ∧ (final.halves .client).incoming = [] ∧
        final.sent helloEarly = [22, 3] ∧ (final.halves .client).delivered = [3] := by
  refine ⟨_, rfl, ?_, rfl, rfl, rfl, rfl⟩
  intro why met
  cases met

end Tunnel

end ClusterRouter.Channel
