import ClusterRouter.Crypto.Pairing
import ClusterRouter.Crypto.RoundTrip

/-! The records of a peer, cut off after any byte, and a transport that may return an error
together with its last bytes. As long as only deadlines have been reported the reader stands at
a known place of the stream. -/

set_option autoImplicit false

namespace ClusterRouter.Crypto

open Foundation

/-! ## Records within a number of bytes -/

def recordSize (sent : Nonce × Bytes) : Nat := 4 + (nonceSize + (sent.2.length + gcmTagSize))

/-- The records of which every byte is among the first `received`. -/
def wholeRecords : List (Nonce × Bytes) → Nat → List (Nonce × Bytes)
  | [], _ => []
  | sent :: rest, received =>
    if recordSize sent ≤ received then sent :: wholeRecords rest (received - recordSize sent)
    else []

theorem length_frameOf_sealedOf (aead : AEAD) (sent : Nonce × Bytes) :
    (frameOf (sealedOf aead sent)).length = recordSize sent := by
  rw [frameOf, List.length_append, length_putUint32, length_sealedOf, recordSize]

theorem length_writeChunks_cons (aead : AEAD) (sent : Nonce × Bytes) (rest : List (Nonce × Bytes)) :
    (writeChunks aead (sent :: rest)).length = recordSize sent + (writeChunks aead rest).length := by
  rw [writeChunks_cons, List.length_append, length_frameOf_sealedOf]

theorem writeChunks_append (aead : AEAD) (first second : List (Nonce × Bytes)) :
    writeChunks aead (first ++ second) = writeChunks aead first ++ writeChunks aead second := by
  induction first with
  | nil => rfl
  | cons sent rest ih =>
    rw [List.cons_append, writeChunks_cons, ih, ← List.append_assoc, ← writeChunks_cons]

theorem wholeRecords_append (aead : AEAD) (done remaining : List (Nonce × Bytes)) (more : Nat) :
    wholeRecords (done ++ remaining) ((writeChunks aead done).length + more) =
      done ++ wholeRecords remaining more := by
  induction done with
  | nil => simp [writeChunks]
  | cons sent rest ih =>
    have fits : recordSize sent ≤ (writeChunks aead (sent :: rest)).length + more := by
      rw [length_writeChunks_cons]
      omega
    have left : (writeChunks aead (sent :: rest)).length + more - recordSize sent =
        (writeChunks aead rest).length + more := by
      rw [length_writeChunks_cons]
      omega
    rw [List.cons_append, wholeRecords, if_pos fits, left, ih, List.cons_append]

theorem recordSize_pos (sent : Nonce × Bytes) : 4 < recordSize sent := by
  simp only [recordSize, nonceSize, gcmTagSize]
  omega

variable {sent : Nonce × Bytes} {stream : Bytes}

theorem wholeRecords_short {received : Nat} (short : received < recordSize sent)
    (rest : List (Nonce × Bytes)) :
    wholeRecords (sent :: rest) received = [] := by
  rw [wholeRecords, if_neg (by omega)]

theorem wholeRecords_exact (sent : Nonce × Bytes) (rest : List (Nonce × Bytes)) :
    wholeRecords (sent :: rest) (recordSize sent) = [sent] := by
  rw [wholeRecords, if_pos (Nat.le_refl _), Nat.sub_self]
  cases rest with
  | nil => rfl
  | cons next rest =>
    have positive := recordSize_pos next
    rw [wholeRecords_short (by omega)]

/-! ## The front of a cut stream -/

theorem nextItem_append {rest : Bytes} {item : Item} (next : nextItem stream = some (item, rest))
    (more : Bytes) :
    nextItem (stream ++ more) = some (item, rest ++ more) := by
  unfold nextItem at next ⊢
  split at next
  · cases next
  next long =>
    have front : (stream ++ more).take 4 = stream.take 4 := List.take_append_of_le_length (by omega)
    have back : (stream ++ more).drop 4 = stream.drop 4 ++ more :=
      List.drop_append_of_le_length (by omega)
    rw [if_neg (by rw [List.length_append]; omega)]
    dsimp only at next ⊢
    rw [front, back]
    split at next
    next bounds =>
      cases next
      rw [if_pos bounds]
    next inBounds =>
      rw [if_neg inBounds]
      split at next
      next small =>
        cases next
        rw [if_pos small]
      next large =>
        rw [if_neg large]
        split at next
        · cases next
        next whole =>
          cases next
          rw [if_neg (by rw [List.length_append]; omega),
            List.take_append_of_le_length (by omega), List.drop_append_of_le_length (by omega)]

theorem nextItem_of_prefix {aead : AEAD} {rest : List (Nonce × Bytes)}
    (bounded : sent.2.length ≤ maxFrame) {after : Bytes} {item : Item}
    (front : stream <+: writeChunks aead (sent :: rest))
    (next : nextItem stream = some (item, after)) :
    item = .record (sealedOf aead sent) ∧ after <+: writeChunks aead rest ∧
      stream.length = recordSize sent + after.length := by
  obtain ⟨more, whole⟩ := front
  have first := nextItem_append next more
  rw [whole, nextItem_writeChunks bounded rest] at first
  simp only [Option.some.injEq, Prod.mk.injEq] at first
  obtain ⟨same, tail⟩ := first
  refine ⟨same.symm, ⟨more, tail.symm⟩, ?_⟩
  have sizes := congrArg List.length whole
  have tails := congrArg List.length tail
  rw [length_writeChunks_cons, List.length_append] at sizes
  rw [List.length_append] at tails
  omega

theorem uint32_of_prefix {aead : AEAD} {rest : List (Nonce × Bytes)}
    (bounded : sent.2.length ≤ maxFrame) (front : stream <+: writeChunks aead (sent :: rest))
    (long : 4 ≤ stream.length) :
    4 + uint32 (stream.take 4) = recordSize sent := by
  have small : (sealedOf aead sent).length < 2 ^ 32 := by
    rw [length_sealedOf]
    simp only [maxFrame, nonceSize, gcmTagSize] at bounded ⊢
    omega
  obtain ⟨more, whole⟩ := front
  have prefixed : stream.take 4 = putUint32 (sealedOf aead sent).length := by
    rw [← List.take_append_of_le_length long, whole, writeChunks_cons, frameOf, List.append_assoc]
    exact List.take_left' (length_putUint32 _)
  rw [prefixed, uint32_putUint32 small, length_sealedOf, recordSize]

/-! ## A reader that has met nothing but deadlines -/

def Entry.opened : Entry → Option Bytes
  | ⟨.item (.record frame), .data _, _⟩ => some frame
  | _ => none

namespace Session

def opened (session : Session) : List Bytes := session.log.filterMap Entry.opened

theorem results_reads (openSealed : Nonce → Bytes → Option Bytes) (session : Session)
    (sizes : List Nat) : session.results <+: (session.reads openSealed sizes).results := by
  induction sizes generalizing session with
  | nil => exact List.prefix_rfl
  | cons size rest ih => exact (List.prefix_append _ _).trans (ih (session.read openSealed size))

theorem opened_of_cut {before after : Session} {taken : Option Taken} {result : ReadResult}
    {counted : Bool}
    (log : after.log = before.log ++ taken.toList.map (fun taken => ⟨taken, result, counted⟩))
    (uncounted : taken.toList.flatMap Taken.items = []) : after.opened = before.opened := by
  unfold opened
  rw [log]
  cases taken with
  | none => simp
  | some thing =>
    cases thing with
    | item => cases uncounted
    | cut => simp [Entry.opened]

def workload (session : Session) (remaining : List (Nonce × Bytes)) : Nat :=
  session.net.script.length + session.conn.readBuf.length +
    (remaining.map (fun sent => sent.2.length + 1)).sum

/-- The records `done` have been opened and the stream goes on with `remaining`, as far as
it was not cut off. -/
structure Undisturbed (aead : AEAD) (wire : Bytes) (done remaining : List (Nonce × Bytes))
    (session : Session) : Prop where
  valid : session.conn.Valid
  bounded : ∀ sent ∈ remaining, sent.2.length ≤ maxFrame
  stream : session.conn.stream session.net <+: writeChunks aead remaining
  position : (writeChunks aead done).length + (session.conn.stream session.net).length = wire.length
  opened : session.opened = done.map (sealedOf aead)
  conserved : session.delivered ++ session.conn.readBuf = (done.map Prod.snd).flatten
  tamperCount : session.conn.tamperCount = 0

/-- Where a call stands that gave nothing to the caller, `used` bytes into the next record. -/
structure Halted (aead : AEAD) (wire : Bytes) (done remaining : List (Nonce × Bytes))
    (before after : Session) (used : Nat) : Prop where
  opened : after.opened = done.map (sealedOf aead)
  delivered : after.delivered = (done.map Prod.snd).flatten
  position : (writeChunks aead done).length + used + after.net.wire.length = wire.length
  stream : (before.conn.stream before.net).length = used + after.net.wire.length
  whole : before.conn.faultEndsRecord before.net = true ↔
    ∃ sent rest, remaining = sent :: rest ∧ used = recordSize sent
  most : ∀ sent rest, remaining = sent :: rest → used ≤ recordSize sent

def asks (session : Session) (size : Nat) : Bool :=
  decide (size ≠ 0) && decide (session.conn.readBuf = [])

inductive Outcome (aead : AEAD) (wire : Bytes) (done remaining : List (Nonce × Bytes))
    (before after : Session) (size : Nat) : ReadResult → Prop where
  | data {bytes opened left} :
      done ++ remaining = opened ++ left → Undisturbed aead wire opened left after →
      (before.asks size = true → before.conn.faultEndsRecord before.net = false) →
      (0 < size → after.workload left < before.workload remaining) →
      Outcome aead wire done remaining before after size (.data bytes)
  | wait {result used} : before.asks size = true →
      result = .error .timeout ∨ result = .blocked →
      Undisturbed aead wire done remaining after →
      Halted aead wire done remaining before after used →
      after.workload remaining < before.workload remaining ∨
        (before.net.script = [] ∧ (before.net.wire = [] → before.net.atEnd ≠ some .closed)) →
      Outcome aead wire done remaining before after size result
  | cutPrefix {used} : before.asks size = true →
      Halted aead wire done remaining before after used → after.conn.tamperCount = 0 → used ≤ 4 →
      (before.conn.faultEndsPrefix before.net = true ↔ used = 4) →
      Outcome aead wire done remaining before after size (.error (.readLength .closed))
  | cutBody {used} : before.asks size = true →
      Halted aead wire done remaining before after used → after.conn.tamperCount = 1 → 4 ≤ used →
      before.conn.faultEndsPrefix before.net = false →
      Outcome aead wire done remaining before after size (.error (.shortFrame .closed))

namespace Undisturbed

variable {aead : AEAD} {wire : Bytes} {done remaining : List (Nonce × Bytes)}
  {before after : Session} {size : Nat} {result : ReadResult} {taken : Option Taken}

section

variable (undisturbed : Undisturbed aead wire done remaining before)

include undisturbed

theorem next_cases :
    (remaining = [] ∧ before.conn.stream before.net = []) ∨
      ∃ sent rest, remaining = sent :: rest ∧ sent.2.length ≤ maxFrame ∧
        before.conn.stream before.net <+: writeChunks aead (sent :: rest) := by
  have stream := undisturbed.stream
  cases remaining with
  | nil => exact .inl ⟨rfl, List.prefix_nil.mp stream⟩
  | cons sent rest =>
    exact .inr ⟨sent, rest, rfl, undisturbed.bounded sent List.mem_cons_self, stream⟩

theorem reached : WrapConn.Reached before.conn before.net (before.conn.assemble before.net) := by
  refine WrapConn.reached_assemble undisturbed.valid before.net fun long => ?_
  rcases undisturbed.next_cases with ⟨_, empty⟩ | ⟨sent, rest, _, bounded, front⟩
  · rw [empty] at long
    cases long
  · have length := uint32_of_prefix bounded front long
    simp only [recordSize, nonceSize, gcmTagSize, maxRecord, maxFrame] at length bounded ⊢
    omega

theorem recordLength_eq
    {sent : Nonce × Bytes} {rest : List (Nonce × Bytes)} (next : remaining = sent :: rest)
    (long : 4 ≤ (before.conn.stream before.net).length) :
    before.conn.recordLength before.net = recordSize sent := by
  subst next
  exact uint32_of_prefix (undisturbed.bounded sent List.mem_cons_self) undisturbed.stream long

theorem halted {next : WrapConn} (drained : before.conn.readBuf = [])
    (reached : WrapConn.Reached before.conn before.net (.stopped next after.net result))
    (opened : after.opened = before.opened) (delivered : after.delivered = before.delivered) :
    Halted aead wire done remaining before after (before.conn.used before.net after.net) := by
  have conserved := undisturbed.conserved
  have position := undisturbed.position
  rw [drained, List.append_nil] at conserved
  have all : before.conn.used before.net after.net + after.net.wire.length =
      (before.conn.stream before.net).length := by
    cases reached <;> assumption
  have halts (whole : before.conn.faultEndsRecord before.net = true ↔
        ∃ sent rest, remaining = sent :: rest ∧
          before.conn.used before.net after.net = recordSize sent)
      (most : ∀ sent rest, remaining = sent :: rest →
        before.conn.used before.net after.net ≤ recordSize sent) :
      Halted aead wire done remaining before after (before.conn.used before.net after.net) :=
    ⟨opened.trans undisturbed.opened, delivered.trans conserved, by omega, all.symm, whole, most⟩
  cases reached with
  | inPrefix _ _ most _ unpaired =>
    refine halts ?_ ?_
    · rw [unpaired]
      constructor
      · intro paired
        cases paired
      · rintro ⟨sent, _, _, used⟩
        have positive := recordSize_pos sent
        omega
    · intro sent _ _
      have positive := recordSize_pos sent
      omega
  | inBody _ _ _ least most paired =>
    have long : 4 ≤ (before.conn.stream before.net).length := by omega
    rcases undisturbed.next_cases with ⟨_, empty⟩ | ⟨first, later, isNext, _, _⟩
    · rw [empty] at long
      cases long
    · have length := undisturbed.recordLength_eq isNext long
      rw [length] at most paired
      refine halts ?_ ?_
      · rw [paired]
        constructor
        · exact fun used => ⟨first, later, isNext, used⟩
        · rintro ⟨sent, rest, isSent, used⟩
          cases isNext.symm.trans isSent
          exact used
      · intro sent rest isSent
        cases isNext.symm.trans isSent
        exact most

theorem stay (step : Reads aead.openSealed size before after result none)
    (stream : after.conn.stream after.net = before.conn.stream before.net)
    (buffered : result.bytes ++ after.conn.readBuf = before.conn.readBuf)
    (tampers : after.conn.tamperCount = before.conn.tamperCount) :
    Undisturbed aead wire done remaining after where
  valid := step.valid
  bounded := undisturbed.bounded
  stream := stream ▸ undisturbed.stream
  position := stream ▸ undisturbed.position
  opened := by
    rw [← undisturbed.opened, Session.opened, step.log]
    simp [Session.opened]
  conserved := by
    rw [step.delivered, List.append_assoc, buffered, undisturbed.conserved]
  tamperCount := tampers.trans undisturbed.tamperCount

end

def Answered (before after : Session) (result : ReadResult) : Prop :=
  before.conn.faultEndsRecord before.net = false ∧
      ((∃ bytes, result = .data bytes) ∨ result = .error .openFailed) ∨
    WrapConn.Reached before.conn before.net (.stopped after.conn after.net result)

theorem Answered.reached (answered : Answered before after result)
    (silent : ∀ bytes, result ≠ .data bytes) (unopened : result ≠ .error .openFailed) :
    WrapConn.Reached before.conn before.net (.stopped after.conn after.net result) := by
  rcases answered with ⟨_, ⟨bytes, isData⟩ | failed⟩ | reached
  · exact absurd isData (silent bytes)
  · exact absurd failed unopened
  · exact reached

theorem advance {sent : Nonce × Bytes} {rest : List (Nonce × Bytes)}
    (undisturbed : Undisturbed aead wire done (sent :: rest) before) (valid : after.conn.Valid)
    (drained : before.conn.readBuf = [])
    (tail : after.conn.stream after.net <+: writeChunks aead rest)
    (length : (before.conn.stream before.net).length =
      recordSize sent + (after.conn.stream after.net).length)
    (opened : after.opened = before.opened ++ [sealedOf aead sent])
    (delivered : after.delivered ++ after.conn.readBuf = before.delivered ++ sent.2)
    (tampers : after.conn.tamperCount = before.conn.tamperCount) :
    Undisturbed aead wire (done ++ [sent]) rest after where
  valid := valid
  bounded := fun other member => undisturbed.bounded other (List.mem_cons_of_mem _ member)
  stream := tail
  position := by
    have position := undisturbed.position
    rw [writeChunks_append, List.length_append, length_writeChunks_cons]
    simp only [writeChunks, List.length_nil]
    omega
  opened := by
    rw [opened, undisturbed.opened, List.map_append]
    rfl
  conserved := by
    have conserved := undisturbed.conserved
    rw [drained, List.append_nil] at conserved
    rw [delivered, conserved, List.map_append, List.flatten_append]
    simp
  tamperCount := tampers.trans undisturbed.tamperCount

theorem outcome_of_step (undisturbed : Undisturbed aead wire done remaining before)
    (positive : size ≠ 0) (step : Reads aead.openSealed size before after result taken)
    (answered : before.asks size = true → Answered before after result) :
    Outcome aead wire done remaining before after size result := by
  have fewer := step.later.script_le
  have asking (drained : before.conn.readBuf = []) : before.asks size = true := by
    simp [asks, drained, positive]
  cases step.turn with
  | empty zero streams kept tampers => exact absurd zero positive
  | drain held streams drains tampers =>
    refine .data rfl (undisturbed.stay step streams ?_ tampers) ?_ ?_
    · rw [drains, ReadResult.bytes, List.take_append_drop]
    · intro asks
      simp [Session.asks, held] at asks
    · intro _
      have buffered : 0 < before.conn.readBuf.length := List.length_pos_iff.mpr held
      simp only [workload, drains, List.length_drop]
      omega
  | wait waits progress drained streams still tampers =>
    have noBytes : result.bytes = [] := by rcases waits with rfl | rfl <;> rfl
    have stays := undisturbed.stay step streams
      (by rw [noBytes, List.nil_append, still, drained]) tampers
    have reached := (answered (asking drained)).reached
      (by rcases waits with rfl | rfl <;> simp) (by rcases waits with rfl | rfl <;> simp)
    refine .wait (asking drained) waits stays (undisturbed.halted drained reached ?_ ?_) ?_
    · rw [stays.opened, undisturbed.opened]
    · rw [step.delivered, noBytes, List.append_nil]
    · refine progress.imp (fun less => ?_) (And.imp_right fun idle arrived => (idle arrived).2)
      simp only [workload, drained, still]
      omega
  | rejected next opens drained still tampers =>
    rcases undisturbed.next_cases with ⟨_, empty⟩ | ⟨sent, rest, _, bounded, front⟩
    · rw [empty] at next
      cases next
    · obtain ⟨rfl, _⟩ := nextItem_of_prefix bounded front next
      rw [opens_sealed] at opens
      cases opens
  | opened next opens drained fills tampers =>
    rcases undisturbed.next_cases with ⟨_, empty⟩ | ⟨sent, rest, rfl, bounded, front⟩
    · rw [empty] at next
      cases next
    · obtain ⟨rfl, tail, length⟩ := nextItem_of_prefix bounded front next
      rw [opens_sealed] at opens
      cases opens
      refine .data (List.append_cons done sent rest)
        (undisturbed.advance step.valid drained tail length ?_ ?_ tampers) ?_ ?_
      · rw [Session.opened, step.log, List.filterMap_append]
        rfl
      · rw [step.delivered, fills, ReadResult.bytes, List.append_assoc, List.take_append_drop]
      · intro asks
        rcases answered asks with ⟨unpaired, _⟩ | reached
        · exact unpaired
        · cases reached with
          | inPrefix stops | inBody stops => simp at stops
      · intro _
        simp only [workload, drained, fills, List.length_drop, List.map_cons, List.sum_cons,
          List.length_nil]
        omega
  | cutPrefix cuts cut drained streams still tampers =>
    have reached := (answered (asking drained)).reached (by simp) (by simp)
    have uncounted : taken.toList.flatMap Taken.items = [] := by
      rw [cuts]
      split <;> rfl
    have stops := undisturbed.halted drained reached (opened_of_cut step.log uncounted)
      (step.delivered.trans (List.append_nil _))
    cases reached with
    | inPrefix _ _ most paired _ =>
      refine .cutPrefix (asking drained) stops ?_ most paired
      rw [tampers, undisturbed.tamperCount]
    | inBody isStop => simp at isStop
  | cutBody cut drained streams still tampers =>
    have reached := (answered (asking drained)).reached (by simp) (by simp)
    have stops := undisturbed.halted drained reached (opened_of_cut step.log rfl)
      (step.delivered.trans (List.append_nil _))
    cases reached with
    | inPrefix isStop => simp at isStop
    | inBody _ _ notPrefix least _ _ =>
      refine .cutBody (asking drained) stops ?_ least notPrefix
      rw [tampers, undisturbed.tamperCount]

theorem outcome (undisturbed : Undisturbed aead wire done remaining before) (size : Nat) :
    Outcome aead wire done remaining before (before.read aead.openSealed size) size
      (before.conn.read aead.openSealed before.net size).2.2 := by
  obtain ⟨turn, valid, later⟩ :=
    WrapConn.read_turn undisturbed.valid before.net size aead.openSealed
  have step : Reads aead.openSealed size before (before.read aead.openSealed size) _ _ :=
    ⟨turn, valid, later, rfl, rfl, rfl⟩
  by_cases zero : size = 0
  · subst zero
    refine .data rfl (undisturbed.stay step rfl rfl rfl) ?_ (fun positive => absurd positive (by omega))
    simp [asks]
  · refine undisturbed.outcome_of_step zero step fun asks => ?_
    simp only [Session.asks, Bool.and_eq_true, decide_eq_true_eq] at asks
    exact WrapConn.reached_read asks.1 asks.2 undisturbed.reached

theorem reads (undisturbed : Undisturbed aead wire done remaining before) {sizes : List Nat}
    (deadlines : ∀ error, .error error ∈ (before.reads aead.openSealed sizes).results →
      error = .timeout) :
    ∃ opened left, done ++ remaining = opened ++ left ∧
      Undisturbed aead wire opened left (before.reads aead.openSealed sizes) := by
  induction sizes generalizing before done remaining with
  | nil => exact ⟨done, remaining, rfl, undisturbed⟩
  | cons size rest ih =>
    have reported : ∀ error,
        (before.conn.read aead.openSealed before.net size).2.2 = .error error →
          error = .timeout := by
      intro error isError
      refine deadlines error ((results_reads aead.openSealed _ rest).subset ?_)
      rw [← isError]
      exact List.mem_append_right _ (List.mem_singleton_self _)
    have outcome := undisturbed.outcome size
    generalize (before.conn.read aead.openSealed before.net size).2.2 = result at reported outcome
    cases outcome with
    | data same next _ _ =>
      obtain ⟨opened, left, still, final⟩ := ih next deadlines
      exact ⟨opened, left, same.trans still, final⟩
    | wait _ _ next _ _ => exact ih next deadlines
    | cutPrefix | cutBody => cases reported _ rfl

end Undisturbed

def Delivers (aead : AEAD) (records : List (Nonce × Bytes)) (received : Nat) (session : Session) :
    Prop :=
  session.opened = (wholeRecords records received).map (sealedOf aead) ∧
    session.delivered = ((wholeRecords records received).map Prod.snd).flatten

namespace Halted

variable {aead : AEAD} {wire : Bytes} {done remaining : List (Nonce × Bytes)}
  {before after : Session} {used : Nat}

theorem delivers_iff (halted : Halted aead wire done remaining before after used) :
    after.Delivers aead (done ++ remaining) ((writeChunks aead done).length + used) ↔
      before.conn.faultEndsRecord before.net = false := by
  rw [Delivers, wholeRecords_append, ← Bool.not_eq_true, halted.whole, halted.opened,
    halted.delivered]
  cases remaining with
  | nil => simp [wholeRecords]
  | cons sent rest =>
    have most := halted.most sent rest rfl
    rcases Nat.lt_or_eq_of_le most with short | exact
    · rw [wholeRecords_short short]
      simp
      omega
    · rw [exact, wholeRecords_exact]
      simp

/-- Short of its last byte, a record in progress is no boundary. -/
theorem boundary_iff (halted : Halted aead wire done remaining before after used)
    (short : before.conn.faultEndsRecord before.net = false) :
    (writeChunks aead done).length + used =
        (writeChunks aead (wholeRecords (done ++ remaining)
          ((writeChunks aead done).length + used))).length ↔ used = 0 := by
  have unfinished : wholeRecords remaining used = [] := by
    rw [← Bool.not_eq_true, halted.whole] at short
    cases remaining with
    | nil => rfl
    | cons sent rest =>
      have most := halted.most sent rest rfl
      refine wholeRecords_short (Nat.lt_of_le_of_ne most fun exact => ?_) rest
      exact short ⟨sent, rest, rfl, exact⟩
  rw [wholeRecords_append, unfinished, List.append_nil]
  omega

end Halted

end Session

end ClusterRouter.Crypto
