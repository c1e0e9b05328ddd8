import ClusterRouter.Channel.TunnelProperties

/-! When the first direction ends, `arm` puts a deadline on both connections, and every later
`refreshIdle` is clamped to it. A peer that goes on sending is cut off when the linger bound
passes, however lively its stream, and before that when the connection it is copied to was idle.
-/

set_option autoImplicit false

namespace ClusterRouter.Channel

open Foundation

def CopyStage.isDone : CopyStage → Bool
  | .done _ => true
  | _ => false

theorem CopyStage.isDone_afterRead (rerr : Option ConnError) :
    (afterRead rerr).isDone = false := by
  cases rerr <;> rfl

theorem Half.isDone_receive (half : Half) (n : Nat) (rerr : Option ConnError) :
    (half.receive n rerr).stage.isDone = false := by
  simp only [Half.receive]
  split
  · rfl
  · exact CopyStage.isDone_afterRead rerr

theorem Half.isDone_afterWrite (rerr werr : Option ConnError) :
    (afterWrite rerr werr).isDone = false := by
  cases werr with
  | none => exact CopyStage.isDone_afterRead rerr
  | some err => rfl

namespace Tunnel

/-! ## The deadlines in force -/

/-- The write deadline the first `arm` leaves on the connection of the side that ended. -/
def writeBound (tunnel : Tunnel) (c : Side) : Int :=
  TunnelDeadlines.earlier tunnel.deadlines.lingerAt
    ((tunnel.halves c).since.map (fun instant => instant + tunnel.deadlines.idle))

theorem lt_writeBound_iff (tunnel : Tunnel) (c : Side) :
    tunnel.now < tunnel.writeBound c ↔
      tunnel.now < tunnel.deadlines.lingerAt ∧ tunnel.idledOut c = false := by
  unfold writeBound idledOut
  cases (tunnel.halves c).since with
  | none => simp [TunnelDeadlines.earlier]
  | some instant =>
    simp only [TunnelDeadlines.earlier, Option.map_some, expired_some_eq_false]
    split <;> omega

structure Bounded (tunnel : Tunnel) : Prop where
  reading : ∀ side, (tunnel.halves side).stage = .reading → ∃ instant,
    (tunnel.halves side).since = some instant ∧
      (tunnel.deadlines.conns side).read =
        some (tunnel.deadlines.clamped (instant + tunnel.deadlines.idle))
  -- The one that armed is done; the other direction writes to its connection.
  armed : tunnel.deadlines.armed = true → ∀ side, (tunnel.halves side).stage.isDone = false →
    (tunnel.halves side.other).stage.isDone = true ∧
      (tunnel.deadlines.conns side.other).write = some (tunnel.writeBound side.other)

theorem bounded_establish (config : TunnelConfig) (start : Int) (client : Hijacked) :
    (establish config start client).Bounded where
  reading side here := by cases side <;> cases here
  armed armed := by cases armed

variable {tunnel next : Tunnel} {src side : Side} {half : Half} {action : TunnelAction}

theorem Bounded.put (bounded : tunnel.Bounded) (since : half.since = (tunnel.halves src).since)
    (reading : half.stage = .reading → (tunnel.halves src).stage = .reading)
    (same : half.stage.isDone = (tunnel.halves src).stage.isDone) :
    (tunnel.put src half).Bounded := by
  have sinces : ∀ side, ((tunnel.put src half).halves side).since = (tunnel.halves side).since := by
    intro side
    rcases Side.eq_or_eq_other src side with rfl | rfl
    · rw [put_same, since]
    · rw [put_of_ne (by simp)]
  have dones : ∀ side, ((tunnel.put src half).halves side).stage.isDone =
      (tunnel.halves side).stage.isDone := by
    intro side
    rcases Side.eq_or_eq_other src side with rfl | rfl
    · rw [put_same, same]
    · rw [put_of_ne (by simp)]
  refine ⟨fun side here => ?_, fun armed side => ?_⟩
  · rw [sinces]
    refine bounded.reading side ?_
    rcases Side.eq_or_eq_other src side with rfl | rfl
    · exact reading (by rwa [put_same] at here)
    · rwa [put_of_ne (by simp)] at here
  · rw [dones, dones, writeBound, sinces]
    exact bounded.armed armed side

theorem Bounded.refreshIdle (bounded : tunnel.Bounded)
    (stage : (tunnel.halves src).stage = .refreshing) :
    { tunnel.put src { tunnel.halves src with stage := .reading, since := some tunnel.now } with
      deadlines := tunnel.deadlines.refreshIdle src tunnel.now }.Bounded := by
  refine ⟨fun side here => ?_, fun (armed : tunnel.deadlines.armed = true) side going => ?_⟩
  · rcases Side.eq_or_eq_other src side with rfl | rfl
    · exact ⟨tunnel.now, by simp, by simp [TunnelDeadlines.refreshIdle]; rfl⟩
    · have before := bounded.reading src.other (by simpa [put_of_ne] using here)
      rw [TunnelDeadlines.refreshIdle]
      simpa [put_of_ne, TunnelDeadlines.clamped] using before
  · have first := bounded.armed armed src (by rw [stage]; rfl)
    rcases Side.eq_or_eq_other src side with rfl | rfl
    · simpa [put_of_ne, TunnelDeadlines.refreshIdle, writeBound] using first
    · rw [put_of_ne (by simp), first.1] at going
      cases going

theorem Bounded.arm (bounded : tunnel.Bounded) (wired : tunnel.Wired) {why : Ended}
    (stage : (tunnel.halves src).stage = .shut why) :
    { tunnel.put src { tunnel.halves src with stage := .done why } with
      deadlines := tunnel.deadlines.arm tunnel.now }.Bounded := by
  cases armed : tunnel.deadlines.armed with
  | true =>
    have first := bounded.armed armed src (by rw [stage]; rfl)
    rw [TunnelDeadlines.arm_of_armed armed]
    refine ⟨fun side here => ?_, fun _ side going => ?_⟩
    · rcases Side.eq_or_eq_other src side with rfl | rfl
      · simp at here
      · have before := bounded.reading src.other (by simpa [put_of_ne] using here)
        simpa [put_of_ne] using before
    · rcases Side.eq_or_eq_other src side with rfl | rfl
      · simp [CopyStage.isDone] at going
      · rw [put_of_ne (by simp), first.1] at going
        cases going
  | false =>
    rw [TunnelDeadlines.arm_of_unarmed armed]
    refine ⟨fun side here => ?_, fun _ side going => ?_⟩
    · rcases Side.eq_or_eq_other src side with rfl | rfl
      · simp at here
      · obtain ⟨instant, since, _⟩ := bounded.reading src.other (by simpa [put_of_ne] using here)
        have idleAt := (wired armed src.other).1
        rw [since, Option.map_some] at idleAt
        refine ⟨instant, by simpa [put_of_ne] using since, ?_⟩
        simp only [TunnelDeadlines.tightened, TunnelDeadlines.earlier, idleAt,
          TunnelDeadlines.clamped, true_and]
        congr 1
        split <;> split <;> omega
    · rcases Side.eq_or_eq_other src side with rfl | rfl
      · simp [CopyStage.isDone] at going
      · refine ⟨by simp [CopyStage.isDone], ?_⟩
        have idleAt := (wired armed src).1
        simp only [TunnelDeadlines.tightened, writeBound, Side.other_other, put_same, idleAt]

theorem Bounded.step (bounded : tunnel.Bounded) (wired : tunnel.Wired)
    (moved : Step tunnel action next) : next.Bounded := by
  cases moved with
  | pass later => exact ⟨bounded.reading, bounded.armed⟩
  | arrive | close => exact bounded.put rfl id rfl
  | refreshIdle stage => exact bounded.refreshIdle stage
  | read stage answers =>
    refine bounded.put rfl (fun here => absurd here (Half.receive_stage_ne_reading _ _ _)) ?_
    rw [Half.isDone_receive, stage]
    rfl
  | accept stage | closeWrite stage =>
    refine bounded.put rfl (fun here => by cases here) ?_
    rw [stage]
    rfl
  | wrote stage returns =>
    refine bounded.put rfl (fun here => absurd here (Half.afterWrite_ne_reading _ _)) ?_
    rw [stage]
    exact Half.isDone_afterWrite _ _
  | arm stage => exact bounded.arm wired stage

/-! ## When a direction meets a deadline -/

theorem unlapsed_reading_iff {instant : Int} (bounded : tunnel.Bounded)
    (stage : (tunnel.halves side).stage = .reading)
    (since : (tunnel.halves side).since = some instant) :
    ¬tunnel.Lapsed side ↔
      tunnel.now < instant + tunnel.deadlines.idle ∧
        (tunnel.deadlines.armed = true → tunnel.now < tunnel.deadlines.lingerAt) := by
  obtain ⟨_, same, read⟩ := bounded.reading side stage
  cases since.symm.trans same
  rw [← TunnelDeadlines.lt_clamped_iff]
  simp [Lapsed, stage, readExpired, read]

theorem unlapsed_writing_iff {rest : Bytes} {rerr : Option ConnError} (bounded : tunnel.Bounded)
    (wired : tunnel.Wired) (stage : (tunnel.halves side).stage = .writing rest rerr) :
    ¬tunnel.Lapsed side ↔
      (rest ≠ [] → tunnel.deadlines.armed = true →
        tunnel.now < tunnel.deadlines.lingerAt ∧ tunnel.idledOut side.other = false) := by
  cases armed : tunnel.deadlines.armed with
  | false =>
    have write := (wired armed side.other).2
    simp [Lapsed, stage, writeExpired, write]
  | true =>
    have write := (bounded.armed armed side (by rw [stage]; rfl)).2
    rw [← lt_writeBound_iff]
    simp [Lapsed, stage, writeExpired, write]

theorem lapsed_put_other :
    (tunnel.put side.other half).Lapsed side ↔ tunnel.Lapsed side := by
  simp [Lapsed, put_of_ne, readExpired, writeExpired]

theorem lapsed_put_stage (same : half.stage = (tunnel.halves side).stage) :
    (tunnel.put side half).Lapsed side ↔ tunnel.Lapsed side := by
  simp [Lapsed, same, readExpired, writeExpired]

/-! ## The surviving direction -/

def Waits (half : Half) : Prop :=
  match half.stage with
  | .reading => half.incoming = []
  | .refreshing | .writing _ _ => False
  | .finished _ | .shut _ | .done _ => True

instance (half : Half) : Decidable (Waits half) := by
  unfold Waits
  split <;> infer_instance

/-- The peer of the side keeps sending and its receiver takes what it is sent: time passes
only while the loop waits, and never to where the last arrival is an idle or a linger bound
ago. -/
def keepsSending (side : Side) (tunnel : Tunnel) : TunnelAction → Prop
  | .pass instant =>
    Waits (tunnel.halves side) ∧
      (tunnel.halves side).lastArrival.all (fun arrival =>
        decide (instant < arrival + tunnel.deadlines.idle ∧
          instant < arrival + tunnel.deadlines.linger)) = true
  | action => action ≠ .close side ∧ fails side action = false

instance (side : Side) (tunnel : Tunnel) : ∀ action, Decidable (keepsSending side tunnel action)
  | .pass _ => inferInstanceAs (Decidable (_ ∧ _))
  | .arrive _ _ => inferInstanceAs (Decidable (_ ∧ _))
  | .close _ => inferInstanceAs (Decidable (_ ∧ _))
  | .half _ _ => inferInstanceAs (Decidable (_ ∧ _))

def spares (side : Side) (tunnel : Tunnel) : TunnelAction → Prop
  | .pass instant =>
    (tunnel.halves side).stage = .reading →
      ((tunnel.halves side).lastArrival = none →
          { tunnel with now := instant }.idledOut side = false) ∧
        (tunnel.deadlines.armed = true → instant < tunnel.deadlines.lingerAt)
  | .half src (.read _ none) =>
    src = side → tunnel.deadlines.armed = true → tunnel.idledOut side.other = false
  | .half src .arm =>
    src = side.other → tunnel.deadlines.armed = false →
      (tunnel.halves side).stage.inflight ≠ [] → tunnel.idledOut side.other = false
  | _ => True

instance (side : Side) (tunnel : Tunnel) : ∀ action, Decidable (spares side tunnel action)
  | .pass _ => inferInstanceAs (Decidable (_ → _))
  | .half _ (.read _ none) => inferInstanceAs (Decidable (_ → _))
  | .half _ .arm => inferInstanceAs (Decidable (_ → _))
  | .arrive _ _ | .close _ | .half _ .refreshIdle | .half _ (.read _ (some _)) |
    .half _ (.accept _) | .half _ (.wrote _) | .half _ .closeWrite => isTrue trivial

structure Surviving (side : Side) (tunnel : Tunnel) : Prop where
  copying : (tunnel.halves side).Copying
  heard : ∀ arrival, (tunnel.halves side).lastArrival = some arrival → arrival ≤ tunnel.now
  fresh : (tunnel.halves side).stage = .reading → (tunnel.halves side).incoming = [] →
    ∀ arrival instant, (tunnel.halves side).lastArrival = some arrival →
      (tunnel.halves side).since = some instant → arrival ≤ instant
  lingers : tunnel.deadlines.armed = true → tunnel.now < tunnel.deadlines.lingerAt
  idle_pos : 0 < tunnel.deadlines.idle
  linger_pos : 0 < tunnel.deadlines.linger

theorem surviving_establish (config : TunnelConfig) (start : Int) (client : Hijacked)
    (side : Side) : (establish config start client).Surviving side where
  copying := by cases side <;> exact ⟨rfl, trivial⟩
  heard := by cases side <;> exact fun _ none => by cases none
  fresh := by cases side <;> exact fun here => by cases here
  lingers armed := by cases armed
  idle_pos := config.idle_pos
  linger_pos := config.linger_pos

theorem Surviving.frame (surviving : tunnel.Surviving side)
    (half : next.halves side = tunnel.halves side) (now : next.now = tunnel.now)
    (lingers : next.deadlines.armed = true → next.now < next.deadlines.lingerAt)
    (bounds : next.deadlines.idle = tunnel.deadlines.idle ∧
      next.deadlines.linger = tunnel.deadlines.linger) : next.Surviving side where
  copying := by rw [half]; exact surviving.copying
  heard := by rw [half, now]; exact surviving.heard
  fresh := by rw [half]; exact surviving.fresh
  lingers := lingers
  idle_pos := by rw [bounds.1]; exact surviving.idle_pos
  linger_pos := by rw [bounds.2]; exact surviving.linger_pos

theorem Surviving.put (surviving : tunnel.Surviving side)
    (copying : ((tunnel.put side half).halves side).Copying)
    (arrival : half.lastArrival = (tunnel.halves side).lastArrival)
    (elsewhere : half.stage ≠ .reading) : (tunnel.put side half).Surviving side where
  copying := copying
  heard := by rw [put_same, arrival]; exact surviving.heard
  fresh here := absurd (by rwa [put_same] at here) elsewhere
  lingers := surviving.lingers
  idle_pos := surviving.idle_pos
  linger_pos := surviving.linger_pos

theorem keepsSending_quiet (keeps : keepsSending side tunnel action) :
    action ≠ .close side ∧ fails side action = false := by
  cases action with
  | pass instant => exact ⟨by simp, rfl⟩
  | arrive | close | half => exact keeps

theorem unlapsed_of_step (wired : tunnel.Wired) (moved : Step tunnel action next)
    (keeps : keepsSending side tunnel action) (after : ¬next.Lapsed side) :
    ¬tunnel.Lapsed side :=
  fun lapsed => after (lapsed.step wired moved (keepsSending_quiet keeps).2)

section

variable (surviving : tunnel.Surviving side)

include surviving

theorem Surviving.pass_iff {instant : Int}
    (bounded : tunnel.Bounded) (keeps : keepsSending side tunnel (.pass instant)) :
    (tunnel.halves side).stage = .reading ∧
      (¬{ tunnel with now := instant }.Lapsed side ↔ spares side tunnel (.pass instant)) := by
  obtain ⟨waits, gap⟩ := keeps
  have copying := surviving.copying.2
  unfold Waits at waits
  cases stage : (tunnel.halves side).stage with
  | reading =>
    rw [stage] at waits
    refine ⟨rfl, ?_⟩
    obtain ⟨since, isSince, _⟩ := bounded.reading side stage
    have later : { tunnel with now := instant }.Bounded := ⟨bounded.reading, bounded.armed⟩
    rw [unlapsed_reading_iff later stage isSince]
    simp only [spares, stage, idledOut, isSince, Option.map_some, expired_some_eq_false,
      true_implies]
    -- After an arrival the gap is what keeps the idle bound away.
    cases arrival : (tunnel.halves side).lastArrival with
    | none => simp
    | some last =>
      have before := surviving.fresh stage waits last since arrival isSince
      simp only [arrival, Option.all_some, decide_eq_true_eq] at gap
      have intime : instant < since + tunnel.deadlines.idle := by omega
      simp [intime]
  | refreshing | writing => simp [stage] at waits
  | finished | shut | done => simp [stage, CopyStage.copying] at copying

theorem Surviving.step (unlapsed : ¬tunnel.Lapsed side)
    (bounded : tunnel.Bounded) (moved : Step tunnel action next)
    (keeps : keepsSending side tunnel action) (after : ¬next.Lapsed side) :
    next.Surviving side := by
  have quiet := keepsSending_quiet keeps
  have copying := copying_step surviving.copying unlapsed moved quiet.1 quiet.2
  have bounds := bounds_step moved
  cases touched : touches side action with
  | false =>
    have same := moved.untouched touched
    refine surviving.frame same.half same.now ?_ bounds
    rw [same.armed, same.lingerAt, same.now]
    exact surviving.lingers
  | true =>
    cases moved with
    | @pass instant later =>
      obtain ⟨stage, spared⟩ := surviving.pass_iff bounded keeps
      exact {
        copying := copying
        heard := fun arrival isArrival =>
          Int.le_trans (surviving.heard arrival isArrival) (Int.le_of_lt later)
        fresh := surviving.fresh
        lingers := (spared.mp after stage).2
        idle_pos := surviving.idle_pos
        linger_pos := surviving.linger_pos }
    | arrive brought opened =>
      obtain rfl := of_decide_eq_true touched
      exact {
        copying := copying
        heard := fun arrival isArrival => by
          rw [put_same] at isArrival
          cases isArrival
          exact Int.le_refl _
        fresh := fun _ empty => by
          rw [put_same] at empty
          exact absurd (List.append_eq_nil_iff.mp empty).2 brought
        lingers := surviving.lingers
        idle_pos := surviving.idle_pos
        linger_pos := surviving.linger_pos }
    | close opened =>
      obtain rfl := of_decide_eq_true touched
      exact absurd rfl quiet.1
    | refreshIdle stage =>
      obtain rfl := of_decide_eq_true touched
      exact {
        copying := copying
        heard := by simpa using surviving.heard
        fresh := fun _ _ arrival instant isArrival isSince => by
          simp only [put_same] at isArrival isSince
          cases isSince
          exact surviving.heard arrival isArrival
        lingers := surviving.lingers
        idle_pos := surviving.idle_pos
        linger_pos := surviving.linger_pos }
    | read stage answers =>
      obtain rfl := of_decide_eq_true touched
      exact surviving.put copying rfl (Half.receive_stage_ne_reading _ _ _)
    | accept | closeWrite =>
      obtain rfl := of_decide_eq_true touched
      exact surviving.put copying rfl (by simp)
    | wrote stage returns =>
      obtain rfl := of_decide_eq_true touched
      exact surviving.put copying rfl (Half.afterWrite_ne_reading _ _)
    | @arm src why stage =>
      rcases Side.eq_or_eq_other side src with rfl | rfl
      · have going := surviving.copying.2
        simp [stage, CopyStage.copying] at going
      · refine surviving.frame (put_of_ne (by simp) _ _) rfl ?_ bounds
        cases armed : tunnel.deadlines.armed with
        | true =>
          rw [TunnelDeadlines.arm_of_armed armed]
          exact surviving.lingers
        | false =>
          have positive := surviving.linger_pos
          rw [TunnelDeadlines.arm_of_unarmed armed]
          intro _
          show tunnel.now < tunnel.now + tunnel.deadlines.linger
          omega

theorem Surviving.read_iff {n : Nat} {rerr : Option ConnError}
    (unlapsed : ¬tunnel.Lapsed side) (bounded : tunnel.Bounded) (wired : tunnel.Wired)
    (stage : (tunnel.halves side).stage = .reading)
    (answers : (tunnel.halves side).Answers (tunnel.readExpired side) n rerr)
    (unfailed : rerr ≠ some .failed) :
    ¬(tunnel.put side ((tunnel.halves side).receive n rerr)).Lapsed side ↔
      spares side tunnel (.half side (.read n rerr)) := by
  have moved : Step tunnel _ _ := .read stage answers
  have intime : tunnel.readExpired side = false := by simpa [Lapsed, stage] using unlapsed
  rw [intime] at answers
  cases rerr with
  | none =>
    have stays : ((tunnel.halves side).receive n none).stage =
        .writing ((tunnel.halves side).incoming.take n) none := if_pos answers.2.1
    have something : (tunnel.halves side).incoming.take n ≠ [] := by
      obtain ⟨_, positive, within, _⟩ := answers
      intro empty
      have length := congrArg List.length empty
      rw [List.length_take, List.length_nil] at length
      omega
    rw [unlapsed_writing_iff (bounded.step wired moved) (wired.step moved)
      ((congrArg Half.stage (put_same _ _ _)).trans stays)]
    simp only [put_deadlines, put_now, idledOut, put_of_ne (Side.other_ne side), spares,
      true_implies]
    constructor
    · exact fun all armed => (all something armed).2
    · exact fun all _ armed => ⟨surviving.lingers armed, all armed⟩
  | some err =>
    cases err with
    | eof => exact absurd (surviving.copying.1.symm.trans answers.2.1) (by decide)
    | deadline => exact absurd answers.1 (by decide)
    | failed => exact absurd rfl unfailed

theorem Surviving.arm_iff {why : Ended}
    (unlapsed : ¬tunnel.Lapsed side) (bounded : tunnel.Bounded) (wired : tunnel.Wired)
    (stage : (tunnel.halves side.other).stage = .shut why) :
    ¬{ tunnel.put side.other { tunnel.halves side.other with stage := .done why } with
        deadlines := tunnel.deadlines.arm tunnel.now }.Lapsed side ↔
      spares side tunnel (.half side.other .arm) := by
  have moved : Step tunnel _ _ := .arm stage
  have bounded' := bounded.step wired moved
  have wired' := wired.step moved
  have positive := surviving.linger_pos
  simp only [spares, true_implies]
  cases armed : tunnel.deadlines.armed with
  | true =>
    rw [TunnelDeadlines.arm_of_armed armed]
    exact iff_of_true (mt lapsed_put_other.mp unlapsed) (by simp)
  | false =>
    rw [TunnelDeadlines.arm_of_unarmed armed] at bounded' wired' ⊢
    cases going : (tunnel.halves side).stage with
    | refreshing => simp [Lapsed, put_of_ne, going, CopyStage.inflight]
    | reading =>
      obtain ⟨instant, since, _⟩ := bounded.reading side going
      have intime := ((unlapsed_reading_iff bounded going since).mp unlapsed).1
      have ahead : tunnel.now < tunnel.now + tunnel.deadlines.linger := by omega
      rw [unlapsed_reading_iff bounded' (by simpa [put_of_ne] using going)
        (by simpa [put_of_ne] using since)]
      simpa [CopyStage.inflight, ahead] using intime
    | writing rest rerr =>
      have ahead : tunnel.now < tunnel.now + tunnel.deadlines.linger := by omega
      rw [unlapsed_writing_iff bounded' wired' (by simpa [put_of_ne] using going)]
      simp [CopyStage.inflight, idledOut, ahead]
    | finished | shut | done =>
      exact absurd surviving.copying.2 (by simp [going, CopyStage.copying])

end

theorem spares_of_untouched (tunnel : Tunnel) (elsewhere : touches side action = false) :
    spares side tunnel action := by
  cases action with
  | pass instant => cases elsewhere
  | arrive other bytes => trivial
  | close other => trivial
  | half src taken =>
    cases taken with
    | read n rerr =>
      cases rerr with
      | none => exact fun same => absurd same (of_decide_eq_false elsewhere)
      | some err => trivial
    | arm => cases elsewhere
    | refreshIdle | accept | wrote | closeWrite => trivial

theorem Surviving.unlapsed_iff (surviving : tunnel.Surviving side)
    (unlapsed : ¬tunnel.Lapsed side) (bounded : tunnel.Bounded) (wired : tunnel.Wired)
    (moved : Step tunnel action next) (keeps : keepsSending side tunnel action) :
    ¬next.Lapsed side ↔ spares side tunnel action := by
  have quiet := keepsSending_quiet keeps
  cases touched : touches side action with
  | false =>
    exact iff_of_true (mt (moved.untouched touched).lapsed_iff.mp unlapsed)
      (spares_of_untouched tunnel touched)
  | true =>
    cases moved with
    | pass later => exact (surviving.pass_iff bounded keeps).2
    | arrive brought opened =>
      obtain rfl := of_decide_eq_true touched
      exact iff_of_true (mt (lapsed_put_stage (by rfl)).mp unlapsed) trivial
    | close opened =>
      obtain rfl := of_decide_eq_true touched
      exact absurd rfl quiet.1
    | refreshIdle stage =>
      obtain rfl := of_decide_eq_true touched
      have positive := surviving.idle_pos
      have ahead : tunnel.now < tunnel.now + tunnel.deadlines.idle := by omega
      rw [unlapsed_reading_iff (bounded.refreshIdle stage) (by simp) (by simp; rfl)]
      simpa [spares, TunnelDeadlines.refreshIdle, ahead] using surviving.lingers
    | read stage answers =>
      obtain rfl := of_decide_eq_true touched
      exact surviving.read_iff unlapsed bounded wired stage answers
        (by simpa [fails] using quiet.2)
    | @accept src n rest rerr stage intime positive within =>
      obtain rfl := of_decide_eq_true touched
      have same : ∀ half, (tunnel.put src half).writeExpired src = false := fun _ => intime
      simp [spares, Lapsed, same]
    | @wrote src rest rerr werr stage returns =>
      obtain rfl := of_decide_eq_true touched
      have intime : rest ≠ [] → tunnel.writeExpired src = false := by
        simpa [Lapsed, stage] using unlapsed
      have copying := surviving.copying.wrote stage intime returns
        (by simpa [fails] using quiet.2)
      refine iff_of_true (fun lapsed => ?_) trivial
      cases werr with
      | none =>
        cases rerr with
        | none => simp [Lapsed, Half.afterWrite, CopyStage.afterRead] at lapsed
        | some err => exact copying.2
      | some err => exact copying.2
    | closeWrite stage =>
      obtain rfl := of_decide_eq_true touched
      exact absurd surviving.copying.2 (by simp [stage, CopyStage.copying])
    | @arm src why stage =>
      rcases Side.eq_or_eq_other side src with rfl | rfl
      · exact absurd surviving.copying.2 (by simp [stage, CopyStage.copying])
      · exact surviving.arm_iff unlapsed bounded wired stage

/-- The direction has met no deadline, and every byte that has arrived has been delivered,
is being written or waits to be read, in order. -/
structure Survives (side : Side) (tunnel : Tunnel) : Prop where
  unlapsed : ¬tunnel.Lapsed side
  accounted : (tunnel.halves side).delivered ++ (tunnel.halves side).stage.inflight ++
    (tunnel.halves side).incoming = (tunnel.halves side).arrived

theorem Surviving.survives (surviving : tunnel.Surviving side) (unlapsed : ¬tunnel.Lapsed side)
    (conserved : (tunnel.halves side).Conserved) :
    tunnel.Survives side := by
  refine ⟨unlapsed, conserved fun err ended => ?_⟩
  have going := surviving.copying.2
  cases stage : (tunnel.halves side).stage <;>
    simp_all [CopyStage.ended, CopyStage.copying]

/-- Over every run in which the peer of one side keeps sending and its receiver takes what
it is sent, that direction survives exactly if, once the other direction has ended, time
does not pass to the linger bound while it waits, and no bytes are read, or are being
written at that moment, an idle bound after the other direction last went to read. -/
theorem live_stream_survives_iff {config : TunnelConfig} {start : Int} {client : Hijacked}
    {side : Side} {trace : List TunnelAction} {final : Tunnel}
    (keeps : machine.Meets (keepsSending side) (establish config start client) trace)
    (ran : machine.run (establish config start client) trace = some final) :
    final.Survives side ↔ machine.Meets (spares side) (establish config start client) trace := by
  have fresh : ¬(establish config start client).Lapsed side := by
    cases side <;> exact id
  have kept : ∀ tunnel action next, keepsSending side tunnel action →
      machine.step tunnel action = some next →
      tunnel.Wired ∧ tunnel.Bounded ∧ (¬tunnel.Lapsed side → tunnel.Surviving side) →
      next.Wired ∧ next.Bounded ∧ (¬next.Lapsed side → next.Surviving side) := by
    rintro tunnel action next sending stepped ⟨wired, bounded, surviving⟩
    have moved := step_cases stepped
    refine ⟨wired.step moved, bounded.step wired moved, fun after => ?_⟩
    have unlapsed := unlapsed_of_step wired moved sending after
    exact (surviving unlapsed).step unlapsed bounded moved sending after
  have begins := And.intro (wired_establish config start client)
    (And.intro (bounded_establish config start client)
      fun _ : ¬(establish config start client).Lapsed side =>
        surviving_establish config start client side)
  have exactly : ¬final.Lapsed side ↔ ¬(establish config start client).Lapsed side ∧
      machine.Meets (spares side) (establish config start client) trace := by
    refine machine.run_iff_meets_under _ (fun tunnel => ¬tunnel.Lapsed side) kept ?_ keeps ran begins
    rintro tunnel action next sending stepped ⟨wired, bounded, surviving⟩
    have moved := step_cases stepped
    constructor
    · intro after
      have unlapsed := unlapsed_of_step wired moved sending after
      exact ⟨unlapsed, ((surviving unlapsed).unlapsed_iff unlapsed bounded wired moved sending).mp
        after⟩
    · rintro ⟨unlapsed, spared⟩
      exact ((surviving unlapsed).unlapsed_iff unlapsed bounded wired moved sending).mpr spared
  have ends := machine.run_invariant_of_meets _ kept keeps ran begins
  constructor
  · exact fun survives => (exactly.mp survives.unlapsed).2
  · intro spared
    have unlapsed := exactly.mpr ⟨fresh, spared⟩
    exact (ends.2.2 unlapsed).survives unlapsed (conserved_of_run ran side)

def shortLinger : TunnelConfig where
  connectLinger := 30
  idleTimeout := 100

def halfClosed : List TunnelAction :=
  [.half .client .refreshIdle, .half .upstream .refreshIdle, .pass 1, .close .client,
    .half .client (.read 0 (some .eof)), .half .client .closeWrite, .half .client .arm,
    .arrive .upstream [1]] ++ copyRound .upstream 1 ++
    [.pass 11, .arrive .upstream [2]] ++ copyRound .upstream 1 ++
    [.pass 21, .arrive .upstream [3]] ++ copyRound .upstream 1

theorem live_stream_survives_within_linger :
    ∃ final, machine.run (establish shortLinger 0 ⟨[], []⟩) halfClosed = some final ∧
      final.Survives .upstream := by
  have ran : machine.run (establish shortLinger 0 ⟨[], []⟩) halfClosed = some _ := rfl
  exact ⟨_, ran, (live_stream_survives_iff (by decide +kernel) ran).mpr (by decide +kernel)⟩

def cutOff : List TunnelAction :=
  halfClosed ++
    [.pass 31, .arrive .upstream [4], .half .upstream (.read 0 (some .deadline))]

theorem live_stream_cut_by_linger :
    ∃ final, machine.run (establish shortLinger 0 ⟨[], []⟩) cutOff = some final ∧
      machine.Meets (keepsSending .upstream) (establish shortLinger 0 ⟨[], []⟩) cutOff ∧
      (final.halves .client).stage = .done (.read .eof) ∧
      (final.halves .upstream).stage = .finished (.read .deadline) ∧
      (final.halves .upstream).arrived = [1, 2, 3, 4] ∧
      (final.halves .upstream).delivered = [1, 2, 3] := by
  have ran : machine.run (establish shortLinger 0 ⟨[], []⟩) cutOff = some _ := rfl
  exact ⟨_, ran, by decide +kernel, rfl, rfl, rfl, rfl⟩

end Tunnel

end ClusterRouter.Channel
