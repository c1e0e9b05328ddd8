import ClusterRouter.Router.Relay

/-! An answer that exhausts one key is meant to score the node only when all of its keys are
cooling. It does so as well when the selection for the next key gives another node. -/

set_option autoImplicit false

namespace ClusterRouter.Router

open Foundation

def Exhausted (notes : List LoopNote) (attempt : Nat) : Prop :=
  ∃ node key, LoopNote.exhausted attempt node key ∈ notes

/-- An attempt whose answer exhausted a key is scored only if the check right after found
every key of the node cooling. -/
def QuotaIsolated (notes : List LoopNote) : Prop :=
  ∀ attempt, Exhausted notes attempt → .scored attempt ∈ notes → .checked attempt true ∈ notes

def Misscored (notes : List LoopNote) (attempt : Nat) : Prop :=
  Exhausted notes attempt ∧ .scored attempt ∈ notes ∧ .checked attempt true ∉ notes

variable {notes : List LoopNote} {displaced : List Nat} {library : Library} {action : Action}
    {phase : Phase} {world : World}

theorem quotaIsolated_iff (exactly : ∀ attempt, attempt ∈ displaced ↔ Misscored notes attempt) :
    QuotaIsolated notes ↔ displaced = [] := by
  rw [List.eq_nil_iff_forall_not_mem]
  refine forall_congr' fun attempt => ?_
  rw [exactly attempt, Misscored]
  constructor
  · rintro isolated ⟨exhausted, scored, unchecked⟩
    exact unchecked (isolated exhausted scored)
  · intro never exhausted scored
    exact Classical.byContradiction fun unchecked => never ⟨exhausted, scored, unchecked⟩

def Fresh (notes : List LoopNote) (attempt : Nat) : Prop :=
  ∀ note ∈ notes, note.attempt = attempt → ∃ node key, note = .tried attempt node key

def QuotaStanding (loop : Loop) (displaced : List Nat) (notes : List LoopNote) : Prop :=
  let current := loop.attemptIdx
  match loop.stage with
  | .top | .sent _ _ | .failed | .answered _ _ => Fresh notes current
  | .cooling _ =>
    Exhausted notes current ∧ .checked current true ∉ notes ∧ .scored current ∉ notes ∧
      current ∉ displaced
  | .retrying _ =>
    Exhausted notes current ∧ .checked current true ∉ notes ∧ .scored current ∉ notes
  | .refused _ =>
    (Exhausted notes current → .checked current true ∈ notes ∨ current ∈ displaced) ∧
      (current ∈ displaced → Exhausted notes current ∧ .checked current true ∉ notes)
  | .choosing | .left | .crashed => True

structure QuotaLedger (loop : Loop) (displaced : List Nat) (notes : List LoopNote) : Prop where
  bounded : ∀ note ∈ notes, note.attempt ≤ loop.attemptIdx
  misscored : ∀ attempt, Misscored notes attempt → attempt ∈ displaced
  recorded : ∀ attempt ∈ displaced, Misscored notes attempt ∨
    (attempt = loop.attemptIdx ∧ ∃ response, loop.stage = .refused response)
  standing : QuotaStanding loop displaced notes

section

variable {loop : Loop} {displaced : List Nat} {notes : List LoopNote} {stage : Stage}

variable {attempt : Nat} {allCooling : Bool} {after : Loop} {node : UpstreamNode}
    {response : Response}

theorem fresh_of_lt (old : ∀ note ∈ notes, note.attempt < attempt) :
    Fresh notes attempt :=
  fun note member is => absurd is (Nat.ne_of_lt (old note member))

theorem Fresh.not_exhausted (fresh : Fresh notes attempt) :
    ¬ Exhausted notes attempt := by
  rintro ⟨node, key, member⟩
  obtain ⟨_, _, is⟩ := fresh _ member rfl
  cases is

theorem Fresh.not_checked (fresh : Fresh notes attempt) :
    .checked attempt allCooling ∉ notes := by
  intro member
  obtain ⟨_, _, is⟩ := fresh _ member rfl
  cases is

theorem Fresh.not_scored (fresh : Fresh notes attempt) :
    .scored attempt ∉ notes := by
  intro member
  obtain ⟨_, _, is⟩ := fresh _ member rfl
  cases is

theorem QuotaLedger.not_displaced (ledger : QuotaLedger loop displaced notes)
    (fresh : Fresh notes loop.attemptIdx) (notRefused : ∀ response, loop.stage ≠ .refused response) :
    loop.attemptIdx ∉ displaced := by
  intro member
  rcases ledger.recorded _ member with misscored | ⟨_, response, stage⟩
  · exact fresh.not_exhausted misscored.1
  · exact notRefused response stage

theorem QuotaLedger.silent (ledger : QuotaLedger loop displaced notes)
    (notRefused : ∀ response, loop.stage ≠ .refused response)
    (advances : loop.attemptIdx ≤ after.attemptIdx)
    (standing : QuotaStanding after displaced notes) : QuotaLedger after displaced notes := by
  refine ⟨fun note member => Nat.le_trans (ledger.bounded note member) advances, ledger.misscored,
    fun attempt member => ?_, standing⟩
  rcases ledger.recorded attempt member with misscored | ⟨_, response, stage⟩
  · exact .inl misscored
  · exact absurd stage (notRefused response)

theorem misscored_append_tried {tried : Nat} {key : Option Int} :
    Misscored (notes ++ [.tried tried node key]) attempt ↔ Misscored notes attempt := by
  simp [Misscored, Exhausted]

theorem misscored_append_exhausted {current : Nat} {key : Int}
    (unscored : .scored current ∉ notes) :
    Misscored (notes ++ [.exhausted current node key]) attempt ↔ Misscored notes attempt := by
  by_cases same : attempt = current
  · subst same
    simp [Misscored, unscored]
  · simp [Misscored, Exhausted, same]

theorem misscored_append_checked {current : Nat} (unscored : .scored current ∉ notes) :
    Misscored (notes ++ [.checked current allCooling]) attempt ↔ Misscored notes attempt := by
  by_cases same : attempt = current
  · subst same
    simp [Misscored, unscored]
  · simp [Misscored, Exhausted, same]

section

variable (ledger : QuotaLedger loop displaced notes)

include ledger

theorem QuotaLedger.send {key : Option Int}
    (top : loop.stage = .top) (same : after.attemptIdx = loop.attemptIdx)
    (begun : after.stage = .failed ∨ ∃ used, after.stage = .sent used false) :
    QuotaLedger after displaced (notes ++ [.tried loop.attemptIdx node key]) := by
  have fresh : Fresh notes loop.attemptIdx := by
    have standing := ledger.standing
    simp only [QuotaStanding, top] at standing
    exact standing
  refine ⟨?_, fun attempt misscored => ledger.misscored attempt (misscored_append_tried.mp misscored),
    fun attempt member => ?_, ?_⟩
  · rw [same]
    exact forall_mem_concat ledger.bounded (Nat.le_refl _)
  · rcases ledger.recorded attempt member with misscored | ⟨_, response, stage⟩
    · exact .inl (misscored_append_tried.mpr misscored)
    · rw [top] at stage
      cases stage
  · have fresh : Fresh (notes ++ [.tried loop.attemptIdx node key]) after.attemptIdx := by
      intro note member is
      rw [same] at is ⊢
      rcases List.mem_append.mp member with old | new
      · exact fresh note old is
      · exact ⟨node, key, List.mem_singleton.mp new⟩
    unfold QuotaStanding
    rcases begun with failed | ⟨used, sent⟩
    · rw [failed]
      exact fresh
    · rw [sent]
      exact fresh

theorem QuotaLedger.mark {key used : Int}
    (answered : loop.stage = .answered response used) (same : after.attemptIdx = loop.attemptIdx)
    (cooling : after.stage = .cooling response) :
    QuotaLedger after displaced (notes ++ [.exhausted loop.attemptIdx node key]) := by
  have fresh : Fresh notes loop.attemptIdx := by
    have standing := ledger.standing
    simp only [QuotaStanding, answered] at standing
    exact standing
  have notDisplaced := ledger.not_displaced fresh (by simp [answered])
  refine ⟨?_, fun attempt misscored => ledger.misscored attempt
    ((misscored_append_exhausted fresh.not_scored).mp misscored), fun attempt member => ?_, ?_⟩
  · rw [same]
    exact forall_mem_concat ledger.bounded (Nat.le_refl _)
  · rcases ledger.recorded attempt member with misscored | ⟨_, _, stage⟩
    · exact .inl ((misscored_append_exhausted fresh.not_scored).mpr misscored)
    · rw [answered] at stage
      cases stage
  · unfold QuotaStanding
    rw [cooling, same]
    refine ⟨⟨node, key, by simp⟩, ?_, ?_, notDisplaced⟩
    · simpa using fresh.not_checked
    · simpa using fresh.not_scored

theorem QuotaLedger.check
    (cooling : loop.stage = .cooling response) (same : after.attemptIdx = loop.attemptIdx)
    (goes : after.stage = if allCooling then .refused response else .retrying response) :
    QuotaLedger after displaced (notes ++ [.checked loop.attemptIdx allCooling]) := by
  have standing := ledger.standing
  simp only [QuotaStanding, cooling] at standing
  obtain ⟨exhausted, unchecked, unscored, notDisplaced⟩ := standing
  have still : Exhausted (notes ++ [.checked loop.attemptIdx allCooling]) loop.attemptIdx := by
    obtain ⟨node, key, member⟩ := exhausted
    exact ⟨node, key, List.mem_append_left _ member⟩
  refine ⟨?_, fun attempt misscored => ledger.misscored attempt
    ((misscored_append_checked unscored).mp misscored), fun attempt member => ?_, ?_⟩
  · rw [same]
    exact forall_mem_concat ledger.bounded (Nat.le_refl _)
  · rcases ledger.recorded attempt member with misscored | ⟨_, _, stage⟩
    · exact .inl ((misscored_append_checked unscored).mpr misscored)
    · rw [cooling] at stage
      cases stage
  · unfold QuotaStanding
    rw [goes, same]
    cases allCooling with
    | true =>
      refine ⟨fun _ => .inl ?_, fun member => absurd member notDisplaced⟩
      exact List.mem_append_right _ (List.mem_singleton_self _)
    | false => exact ⟨still, by simpa using unchecked, by simpa using unscored⟩

theorem QuotaLedger.displace
    (retrying : loop.stage = .retrying response) (same : after.attemptIdx = loop.attemptIdx)
    (refused : after.stage = .refused response) :
    QuotaLedger after (displaced ++ [loop.attemptIdx]) notes := by
  have standing := ledger.standing
  simp only [QuotaStanding, retrying] at standing
  obtain ⟨exhausted, unchecked, _⟩ := standing
  refine ⟨same ▸ ledger.bounded, fun attempt misscored =>
    List.mem_append_left _ (ledger.misscored attempt misscored), fun attempt member => ?_, ?_⟩
  · rcases List.mem_append.mp member with old | new
    · rcases ledger.recorded attempt old with misscored | ⟨_, _, stage⟩
      · exact .inl misscored
      · rw [retrying] at stage
        cases stage
    · exact .inr ⟨(List.mem_singleton.mp new).trans same.symm, response, refused⟩
  · unfold QuotaStanding
    rw [refused, same]
    exact ⟨fun _ => .inr (List.mem_append_right _ (List.mem_singleton_self _)),
      fun _ => ⟨exhausted, unchecked⟩⟩

theorem QuotaLedger.score
    (refused : loop.stage = .refused response) (same : after.attemptIdx = loop.attemptIdx)
    (choosing : after.stage = .choosing) :
    QuotaLedger after displaced (notes ++ [.scored loop.attemptIdx]) := by
  have standing := ledger.standing
  simp only [QuotaStanding, refused] at standing
  obtain ⟨checked, unchecked⟩ := standing
  have exhausted (attempt : Nat) :
      Exhausted (notes ++ [.scored loop.attemptIdx]) attempt ↔ Exhausted notes attempt := by
    simp [Exhausted]
  have isChecked (attempt : Nat) : .checked attempt true ∈ notes ++ [.scored loop.attemptIdx] ↔
      .checked attempt true ∈ notes := by
    simp
  refine ⟨?_, ?_, fun attempt member => .inl ?_, ?_⟩
  · rw [same]
    exact forall_mem_concat ledger.bounded (Nat.le_refl _)
  · rintro attempt ⟨wasExhausted, scored, notChecked⟩
    rw [exhausted] at wasExhausted
    rw [isChecked] at notChecked
    rcases List.mem_append.mp scored with old | new
    · exact ledger.misscored attempt ⟨wasExhausted, old, notChecked⟩
    · cases List.mem_singleton.mp new
      exact (checked wasExhausted).resolve_left notChecked
  · rw [Misscored, exhausted, isChecked]
    rcases ledger.recorded attempt member with ⟨wasExhausted, scored, notChecked⟩ | ⟨rfl, _⟩
    · exact ⟨wasExhausted, List.mem_append_left _ scored, notChecked⟩
    · obtain ⟨wasExhausted, notChecked⟩ := unchecked member
      exact ⟨wasExhausted, List.mem_append_right _ (List.mem_singleton_self _), notChecked⟩
  · simp [QuotaStanding, choosing]

theorem QuotaLedger.advance (notRefused : ∀ response, loop.stage ≠ .refused response)
    (next : after.attemptIdx = loop.attemptIdx + 1) (top : after.stage = .top) :
    QuotaLedger after displaced notes := by
  refine ledger.silent notRefused (next ▸ Nat.le_succ _) ?_
  unfold QuotaStanding
  rw [top, next]
  exact fresh_of_lt fun note member => Nat.lt_succ_of_le (ledger.bounded note member)

end

end

theorem QuotaLedger.move {context : Context} {ask : Ask} {before after : Progress}
    (move : LoopMove library context ask before action after)
    (ledger : QuotaLedger before.loop before.trace.displaced notes) :
    QuotaLedger after.loop after.trace.displaced
      (notes ++ loopNotes library before.loop before.shared.heap action) := by
  have standing := ledger.standing
  cases move with
  | unbuildable stage candidate =>
    rw [loopNotes_send candidate]
    exact ledger.send stage rfl (.inl rfl)
  | send stage candidate =>
    rw [loopNotes_send candidate]
    exact ledger.send stage rfl (.inr ⟨_, rfl⟩)
  | response stage | resend stage | lost stage =>
    simp only [QuotaStanding, stage] at standing
    simp only [loopNotes, List.append_nil]
    exact ledger.silent (by simp [stage]) (Nat.le_refl _) standing
  | fail stage | crashAgain stage | crashNext stage =>
    simp only [loopNotes, List.append_nil]
    exact ledger.silent (by simp [stage]) (Nat.le_refl _) trivial
  | cool stage candidate quota =>
    rw [loopNotes_judge stage candidate, if_pos quota]
    exact ledger.mark stage rfl rfl
  | refuse stage candidate failover other =>
    simp only [QuotaStanding, stage] at standing
    have notDisplaced := ledger.not_displaced standing (by simp [stage])
    rw [loopNotes_judge stage candidate, if_neg (by simp [other]), List.append_nil]
    refine ledger.silent (by simp [stage]) (Nat.le_refl _) ?_
    exact ⟨fun exhausted => absurd exhausted standing.not_exhausted,
      fun member => absurd member notDisplaced⟩
  | serve stage candidate servable =>
    rw [loopNotes_judge stage candidate, if_neg (by simp [quotaAnswer, servable]), List.append_nil]
    exact ledger.silent (by simp [stage]) (Nat.le_refl _) trivial
  | allCooling stage candidate cooling =>
    rw [loopNotes_checkKeys candidate, cooling]
    exact ledger.check stage rfl rfl
  | hold stage candidate cooling =>
    rw [release_displaced, loopNotes_checkKeys candidate, cooling]
    exact ledger.check stage rfl rfl
  | again stage | choose stage =>
    simp only [loopNotes, List.append_nil]
    exact ledger.advance (by simp [stage]) rfl rfl
  | displace stage candidate =>
    simp only [loopNotes, List.append_nil]
    exact ledger.displace stage rfl rfl
  | score stage candidate rr =>
    rw [release_displaced]
    exact ledger.score stage rfl rfl

/-! ## Whole requests -/

def Phase.QuotaKept (phase : Phase) (displaced : List Nat) (notes : List LoopNote) : Prop :=
  match phase with
  | .looping _ _ loop => QuotaLedger loop displaced notes
  | .relaying _ | .returned _ => ∀ attempt, attempt ∈ displaced ↔ Misscored notes attempt
  | .arrived | .reading _ | .read _ | .classified _ _ | .queued _ _ _ => displaced = [] ∧ notes = []

theorem Phase.QuotaKept.empty (kept : phase.QuotaKept displaced notes) (early : phase.Early) :
    displaced = [] ∧ notes = [] := by
  cases phase with
  | arrived | reading | read | classified | queued => exact kept
  | looping | relaying | returned => exact early.elim

theorem Phase.QuotaKept.of_early (early : phase.Early) (unmoved : displaced = []) :
    phase.QuotaKept displaced [] := by
  cases phase with
  | arrived | reading | read | classified | queued => exact ⟨unmoved, rfl⟩
  | looping | relaying | returned => exact early.elim

theorem Phase.QuotaKept.late (late : phase.Late) : phase.QuotaKept displaced notes ↔
      ∀ attempt, attempt ∈ displaced ↔ Misscored notes attempt := by
  cases phase with
  | relaying | returned => exact Iff.rfl
  | arrived | reading | read | classified | queued | looping => exact late.elim

private theorem not_misscored_nil (attempt : Nat) : ¬ Misscored [] attempt := by
  rintro ⟨_, scored, _⟩
  cases scored

theorem Phase.QuotaKept.displaced_of_misscored {attempt : Nat}
    (kept : phase.QuotaKept displaced notes) (misscored : Misscored notes attempt) :
    attempt ∈ displaced := by
  cases phase with
  | arrived | reading | read | classified | queued =>
    obtain ⟨_, rfl⟩ := kept
    exact absurd misscored (not_misscored_nil attempt)
  | looping => exact QuotaLedger.misscored kept attempt misscored
  | relaying | returned => exact (kept attempt).mpr misscored

theorem Phase.QuotaKept.early_move {next : World} (move : WorldMove library world action next)
    (early : world.phase.Early) (unmoved : world.trace.displaced = []) :
    next.phase.QuotaKept next.trace.displaced [] := by
  cases move with
  | environment outside request phase trace grows flag =>
    rw [phase, trace]
    exact Phase.QuotaKept.of_early early unmoved
  | refuse | unrouted => simp [Phase.QuotaKept, unmoved, not_misscored_nil]
  | snapshot | readBody | classify | route => exact ⟨unmoved, rfl⟩
  | acquire phase =>
    refine ⟨by simp, fun attempt misscored => absurd misscored (not_misscored_nil attempt), ?_, ?_⟩
    · simp [unmoved]
    · exact fresh_of_lt (by simp)
  | loop phase | leaveOk phase | leaveHeld phase | leaveNone phase | leaveCrashed phase
  | finish phase =>
    rw [phase] at early
    exact early.elim

theorem Phase.QuotaKept.step {next : World} (stepped : world.step library action = some next)
    (kept : world.phase.QuotaKept world.trace.displaced notes) :
    next.phase.QuotaKept next.trace.displaced (notes ++ historyNotes library world action) := by
  cases World.step_cases stepped with
  | environment outside phase trace =>
    rw [phase, trace, historyNotes_of_not_inLoop outside, List.append_nil]
    exact kept
  | early outside early move =>
    obtain ⟨unmoved, rfl⟩ := kept.empty early
    rw [historyNotes_of_not_inLoop outside]
    exact early_move move early unmoved
  | @perform context ask loop progress phase move is =>
    subst is
    rw [phase] at kept
    simp only [historyNotes, phase]
    exact QuotaLedger.move move kept
  | @leave context ask loop outside phase ended late same =>
    rw [historyNotes_of_not_inLoop outside, List.append_nil, Phase.QuotaKept.late late, same]
    rw [phase] at kept
    refine fun attempt => ⟨fun member => ?_, kept.misscored attempt⟩
    rcases kept.recorded attempt member with misscored | ⟨_, response, stage⟩
    · exact misscored
    · rcases ended with crashed | ended
      · rw [stage] at crashed
        cases crashed
      · simp [Progress.ended, stage] at ended
  | finish outside phase late same =>
    rw [historyNotes_of_not_inLoop outside, List.append_nil, Phase.QuotaKept.late late, same]
    rw [phase] at kept
    exact kept

theorem quotaKept_of_run {cfg : Config} {heap : Heap} {request : Request} {final : World}
    {trace : List Action} (started : newRouter library cfg heap request = .ok world)
    (ran : (recorder library).run (world, []) trace = some (final, notes)) :
    final.phase.QuotaKept final.trace.displaced notes := by
  obtain ⟨phase, empty, _⟩ := newRouter_arrived started
  refine (machine library).recording_invariant (historyNotes library)
    (fun world notes => world.phase.QuotaKept world.trace.displaced notes)
    (fun _ _ _ _ stepped kept => kept.step stepped) ran ?_
  rw [phase, empty]
  exact ⟨rfl, rfl⟩

/-- While no selection for the next key of a node gives another one, an answer that
exhausts a key scores the node only if all of its keys were cooling then; once the loop is
over this holds in no other case. -/
theorem quota_answers_isolated_iff (library : Library) (cfg : Config) (heap : Heap)
    (request : Request) {world final : World} {trace : List Action} {notes : List LoopNote}
    (started : newRouter library cfg heap request = .ok world)
    (ran : (recorder library).run (world, []) trace = some (final, notes)) :
    ((machine library).Meets (fun world action => keepsNode world action = true) world trace →
        QuotaIsolated notes) ∧
      (final.phase.Late →
        (QuotaIsolated notes ↔
          (machine library).Meets (fun world action => keepsNode world action = true) world trace)) := by
  have kept := quotaKept_of_run started ran
  have runs := (machine library).run_of_recording (historyNotes library) ran
  rw [← displaced_eq_nil_iff started runs]
  constructor
  · intro unmoved attempt exhausted scored
    refine Classical.byContradiction fun unchecked => ?_
    have misscored : Misscored notes attempt := ⟨exhausted, scored, unchecked⟩
    have displaced : attempt ∈ final.trace.displaced := kept.displaced_of_misscored misscored
    rw [unmoved] at displaced
    cases displaced
  · intro late
    exact quotaIsolated_iff ((Phase.QuotaKept.late late).mp kept)

def cloudUpstream : UpstreamNode := ⟨0, cloudNode, none, by decide⟩

/-- The first key is exhausted and not scored; the second attempt is. -/
theorem quota_answers_isolated_second_key :
    ∃ final notes, observed plainLibrary (clusterOf [cloudNode, localNode]) freshHeap internalRequest
        secondKeySchedule = some (final, notes) ∧
      Exhausted notes 0 ∧ .scored 1 ∈ notes ∧ QuotaIsolated notes := by
  have facts : (observed plainLibrary (clusterOf [cloudNode, localNode]) freshHeap internalRequest
      secondKeySchedule).map (fun result => (result.1.phase, result.2)) =
      some (.relaying ⟨2, ⟨1, localNode, none, by decide⟩, ⟨200, []⟩⟩,
        [.tried 0 cloudUpstream (some 0),
          .exhausted 0 cloudUpstream 0, .checked 0 false,
          .tried 1 cloudUpstream (some 1), .scored 1,
          .tried 2 ⟨1, localNode, none, by decide⟩ (some 0)]) := by
    decide +kernel
  obtain ⟨⟨final, notes⟩, ran, known⟩ := Option.map_eq_some_iff.mp facts
  obtain ⟨phase, rfl⟩ := Prod.mk.inj known
  obtain ⟨world, started, runs⟩ := observed_eq_some ran
  have isolated := quota_answers_isolated_iff plainLibrary _ freshHeap internalRequest started runs
  exact ⟨final, _, ran, ⟨cloudUpstream, 0, by simp⟩, by simp,
    isolated.1 (secondKeySchedule_keepsNode started)⟩

/-- The second key of the node is not cooling, and the node is scored for the first. -/
theorem quota_answer_scored_with_key_left :
    ∃ final notes, observed plainLibrary (clusterOf [cloudNode, peerNode]) freshHeap internalRequest
        displacedSchedule = some (final, notes) ∧
      Exhausted notes 0 ∧ .checked 0 false ∈ notes ∧ .scored 0 ∈ notes ∧ ¬ QuotaIsolated notes := by
  have facts : (observed plainLibrary (clusterOf [cloudNode, peerNode]) freshHeap internalRequest
      displacedSchedule).map Prod.snd =
      some [.tried 0 cloudUpstream (some 0),
        .exhausted 0 cloudUpstream 0, .checked 0 false, .scored 0,
        .tried 1 ⟨1, peerNode, none, by decide⟩ (some 0)] := by
    decide +kernel
  obtain ⟨⟨final, notes⟩, ran, rfl⟩ := Option.map_eq_some_iff.mp facts
  refine ⟨final, _, ran, ⟨cloudUpstream, 0, by simp⟩, by simp, by simp, fun isolated => ?_⟩
  simpa using isolated 0 ⟨cloudUpstream, 0, by simp⟩ (by simp)

end ClusterRouter.Router
