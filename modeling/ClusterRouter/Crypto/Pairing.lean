import ClusterRouter.Crypto.WrapProperties

/-! The bytes a call of `Read` has used of the current record against reads of the transport
that return bytes together with an error. -/

set_option autoImplicit false

namespace ClusterRouter.Crypto

open Foundation

/-- The first error of the transport comes with byte number `target` of a record of
`record` bytes, when `got` bytes of it are there and `left` more are on their way. No
read asks beyond the length prefix, and none beyond the record. -/
def faultBrings (target record : Nat) : Nat → Nat → List Arrival → Bool
  | _, _, [] => false
  | got, left, arrival :: rest =>
    if target ≤ got then false
    else
      let limit := if got < 4 then 4 else record
      let n := min (min arrival.count (limit - got)) left
      match arrival.fault with
      | none => faultBrings target record (got + n) (left - n) rest
      | some _ => decide (got + n = target)

theorem faultBrings_short {target record got left : Nat} (short : got + left < target)
    (script : List Arrival) : faultBrings target record got left script = false := by
  induction script generalizing got left with
  | nil => rfl
  | cons arrival rest ih =>
    unfold faultBrings
    rw [if_neg (by omega)]
    dsimp only
    generalize arrival.count = count
    have within : min (min count ((if got < 4 then 4 else record) - got)) left ≤ left :=
      Nat.min_le_right _ _
    generalize min (min count ((if got < 4 then 4 else record) - got)) left = n at within
    cases arrival.fault with
    | none => exact ih (by omega)
    | some fault =>
      dsimp only
      rw [decide_eq_false_iff_not]
      omega

theorem faultBrings_done {target record got : Nat} (done : target ≤ got) (left : Nat)
    (script : List Arrival) : faultBrings target record got left script = false := by
  cases script with
  | nil => rfl
  | cons arrival rest =>
    unfold faultBrings
    rw [if_pos done]

theorem fill_blocked {goal : Nat} {wire bytes : Bytes} {atEnd : Option Fault}
    {script : List Arrival} (blocked : (fill goal wire atEnd bytes script).stop = .blocked) :
    (fill goal wire atEnd bytes script).bytes.length < goal := by
  induction script generalizing wire bytes with
  | nil =>
    unfold fill at blocked ⊢
    split
    next enough =>
      rw [if_pos enough] at blocked
      cases blocked
    next short =>
      cases atEnd <;> exact Nat.lt_of_not_le short
  | cons arrival rest ih =>
    unfold fill at blocked ⊢
    split
    next enough =>
      rw [if_pos enough] at blocked
      cases blocked
    next short =>
      rw [if_neg short] at blocked
      dsimp only at blocked ⊢
      cases stops : arrival.fault with
      | none =>
        rw [stops] at blocked
        exact ih blocked
      | some fault =>
        rw [stops] at blocked
        cases blocked

/-- A read loop is stopped at its goal exactly if the error comes with the last byte. The
loop reads the bytes from `offset` on. -/
theorem fill_fault_iff {offset goal record : Nat}
    (limit : ∀ got, offset ≤ got → got < offset + goal →
      (if got < 4 then 4 else record) = offset + goal)
    {bytes : Bytes} (fits : bytes.length ≤ goal) (wire : Bytes) (atEnd : Option Fault)
    (script : List Arrival) :
    faultBrings (offset + goal) record (offset + bytes.length) wire.length script = true ↔
      (∃ fault, (fill goal wire atEnd bytes script).stop = .fault fault) ∧
        (fill goal wire atEnd bytes script).bytes.length = goal := by
  induction script generalizing wire bytes with
  | nil =>
    unfold faultBrings fill
    by_cases enough : goal ≤ bytes.length
    · rw [if_pos enough]
      simp
    · rw [if_neg enough]
      have short : bytes.length ≠ goal := by omega
      cases atEnd <;> simp [short]
  | cons arrival rest ih =>
    unfold faultBrings fill
    by_cases enough : goal ≤ bytes.length
    · rw [if_pos enough, if_pos (by omega)]
      simp
    · rw [if_neg enough, if_neg (by omega)]
      dsimp only
      rw [limit _ (Nat.le_add_right _ _) (by omega)]
      have taken : (wire.take (min arrival.count (goal - bytes.length))).length =
          min (min arrival.count (offset + goal - (offset + bytes.length))) wire.length := by
        rw [List.length_take]
        congr 2
        omega
      have read : offset + (bytes ++ wire.take (min arrival.count (goal - bytes.length))).length =
          offset + bytes.length +
            min (min arrival.count (offset + goal - (offset + bytes.length))) wire.length := by
        rw [List.length_append, taken]
        omega
      cases arrival.fault with
      | none =>
        dsimp only
        have left : wire.length -
            min (min arrival.count (offset + goal - (offset + bytes.length))) wire.length =
              (wire.drop (min arrival.count (goal - bytes.length))).length := by
          rw [List.length_drop]
          omega
        rw [← read, left]
        refine ih ?_ _
        rw [List.length_append, taken]
        omega
      | some fault =>
        dsimp only
        rw [← read, decide_eq_true_iff]
        simp

/-- While the length prefix is read no error can come with the end of the record; once it
is there, what follows decides. -/
theorem faultBrings_prefix {record : Nat} (body : 4 < record) {hdr : Bytes}
    (fits : hdr.length ≤ 4) (wire : Bytes) (atEnd : Option Fault) (script : List Arrival) :
    faultBrings record record hdr.length wire.length script =
      match (fill 4 wire atEnd hdr script).stop with
      | .full =>
        faultBrings record record 4 (fill 4 wire atEnd hdr script).net.wire.length
          (fill 4 wire atEnd hdr script).net.script
      | _ => false := by
  induction script generalizing wire hdr with
  | nil =>
    unfold fill
    by_cases enough : 4 ≤ hdr.length
    · rw [if_pos enough]
      rfl
    · rw [if_neg enough]
      cases atEnd with
      | none => rfl
      | some fault => split <;> rfl
  | cons arrival rest ih =>
    unfold fill
    by_cases enough : 4 ≤ hdr.length
    · rw [if_pos enough]
      dsimp only
      rw [Nat.le_antisymm fits enough]
    · rw [if_neg enough]
      conv =>
        lhs
        unfold faultBrings
      rw [if_neg (by omega), if_pos (by omega)]
      dsimp only
      have taken : (hdr ++ wire.take (min arrival.count (4 - hdr.length))).length =
          hdr.length + min (min arrival.count (4 - hdr.length)) wire.length := by
        rw [List.length_append, List.length_take]
      have left : (wire.drop (min arrival.count (4 - hdr.length))).length =
          wire.length - min (min arrival.count (4 - hdr.length)) wire.length := by
        rw [List.length_drop]
        omega
      cases arrival.fault with
      | none =>
        dsimp only
        rw [← taken, ← left]
        exact ih (by rw [taken]; omega) _
      | some fault =>
        dsimp only
        rw [decide_eq_false_iff_not]
        omega

namespace WrapConn

def begun (w : WrapConn) : Bytes :=
  w.hdr ++ (match w.frame with | some frame => frame.bytes | none => [])

theorem stream_eq (w : WrapConn) (net : Net) : w.stream net = w.begun ++ net.wire := rfl

def recordLength (w : WrapConn) (net : Net) : Nat := 4 + uint32 ((w.stream net).take 4)

def faultEndsRecord (w : WrapConn) (net : Net) : Bool :=
  faultBrings (w.recordLength net) (w.recordLength net) w.begun.length net.wire.length net.script

def faultEndsPrefix (w : WrapConn) (net : Net) : Bool :=
  faultBrings 4 (w.recordLength net) w.begun.length net.wire.length net.script

def used (w : WrapConn) (net after : Net) : Nat := (w.stream net).length - after.wire.length

/-- Where the two phases of `Read` end, with the bytes used of the record. -/
inductive Reached (w : WrapConn) (net : Net) : Assembly → Prop where
  | whole {next frame after} :
      w.faultEndsPrefix net = false → w.faultEndsRecord net = false →
      Reached w net (.record next frame after)
  | inPrefix {next after result} :
      result = .error .timeout ∨ result = .blocked ∨ result = .error (.readLength .closed) →
      w.used net after + after.wire.length = (w.stream net).length → w.used net after ≤ 4 →
      (w.faultEndsPrefix net = true ↔ w.used net after = 4) →
      w.faultEndsRecord net = false → Reached w net (.stopped next after result)
  | inBody {next after result} :
      result = .error .timeout ∨ result = .blocked ∨ result = .error (.shortFrame .closed) →
      w.used net after + after.wire.length = (w.stream net).length →
      w.faultEndsPrefix net = false → 4 ≤ w.used net after →
      w.used net after ≤ w.recordLength net →
      (w.faultEndsRecord net = true ↔ w.used net after = w.recordLength net) →
      Reached w net (.stopped next after result)

variable {w : WrapConn} {net : Net}

theorem reached_readBody {within : WrapConn} {middle : Net} {size : Nat} {bytes : Bytes}
    (stream : w.stream net = within.hdr ++ bytes ++ middle.wire)
    (prefixed : within.hdr.length = 4) (length : w.recordLength net = 4 + size)
    (fits : bytes.length ≤ size) (notPrefix : w.faultEndsPrefix net = false)
    (ends : w.faultEndsRecord net =
      faultBrings (4 + size) (4 + size) (4 + bytes.length) middle.wire.length middle.script) :
    Reached w net (within.readBody middle size bytes) := by
  have limit : ∀ got, 4 ≤ got → got < 4 + size → (if got < 4 then 4 else 4 + size) = 4 + size := by
    intro got started _
    rw [if_neg (by omega)]
  have paired := fill_fault_iff limit fits middle.wire middle.atEnd middle.script
  have spec := fill_spec size bytes middle
  have waiting : (fill size middle.wire middle.atEnd bytes middle.script).stop = .blocked →
      (fill size middle.wire middle.atEnd bytes middle.script).bytes.length < size := fill_blocked
  rw [← ends] at paired
  unfold readBody
  dsimp only
  generalize fill size middle.wire middle.atEnd bytes middle.script = filled at paired spec waiting
  have most : filled.bytes.length ≤ size := spec.bounded fits
  have sizes := congrArg List.length spec.conserved
  rw [List.length_append, List.length_append] at sizes
  have used : w.used net filled.net = 4 + filled.bytes.length := by
    rw [WrapConn.used, stream]
    simp only [List.length_append]
    omega
  have all : w.used net filled.net + filled.net.wire.length = (w.stream net).length := by
    rw [used, stream]
    simp only [List.length_append]
    omega
  have stops {result : ReadResult} {next : WrapConn}
      (isStop : result = .error .timeout ∨ result = .blocked ∨
        result = .error (.shortFrame .closed))
      (exact : w.faultEndsRecord net = true ↔ filled.bytes.length = size) :
      Reached w net (.stopped next filled.net result) := by
    refine .inBody isStop all notPrefix (by omega) (by omega) ?_
    rw [exact, used, length]
    omega
  cases stop : filled.stop with
  | full =>
    refine .whole notPrefix ?_
    rw [← Bool.not_eq_true, paired, stop]
    simp
  | blocked =>
    refine stops (.inr (.inl rfl)) ?_
    have short := waiting stop
    rw [paired, stop]
    simp
    omega
  | fault fault =>
    have exact : w.faultEndsRecord net = true ↔ filled.bytes.length = size := by
      rw [paired, stop]
      simp
    cases fault with
    | timeout => exact stops (.inl rfl) exact
    | closed => exact stops (.inr (.inr rfl)) exact

theorem faultEndsPrefix_iff (begun : w.begun = w.hdr) (fits : w.hdr.length ≤ 4) (net : Net) :
    w.faultEndsPrefix net = true ↔
      (∃ fault, (fill 4 net.wire net.atEnd w.hdr net.script).stop = .fault fault) ∧
        (fill 4 net.wire net.atEnd w.hdr net.script).bytes.length = 4 := by
  have limit : ∀ got, 0 ≤ got → got < 0 + 4 →
      (if got < 4 then 4 else w.recordLength net) = 0 + 4 := by
    intro got _ short
    rw [if_pos (by omega)]
  have paired := fill_fault_iff limit fits net.wire net.atEnd net.script
  rw [Nat.zero_add, Nat.zero_add] at paired
  rw [faultEndsPrefix, begun]
  exact paired

theorem faultEndsRecord_prefix (begun : w.begun = w.hdr) (fits : w.hdr.length ≤ 4)
    (legit : 4 ≤ (w.stream net).length →
      ¬ uint32 ((w.stream net).take 4) < nonceSize + gcmTagSize) :
    w.faultEndsRecord net =
      match (fill 4 net.wire net.atEnd w.hdr net.script).stop with
      | .full =>
        faultBrings (w.recordLength net) (w.recordLength net) 4
          (fill 4 net.wire net.atEnd w.hdr net.script).net.wire.length
          (fill 4 net.wire net.atEnd w.hdr net.script).net.script
      | _ => false := by
  unfold faultEndsRecord
  rw [begun]
  by_cases long : 4 ≤ (w.stream net).length
  · refine faultBrings_prefix ?_ fits net.wire net.atEnd net.script
    have large := legit long
    unfold recordLength
    simp only [nonceSize, gcmTagSize] at large
    omega
  · have total : w.hdr.length + net.wire.length < 4 := by
      rw [stream_eq, begun, List.length_append] at long
      omega
    have spec := fill_spec 4 w.hdr net
    have sizes := congrArg List.length spec.conserved
    rw [List.length_append, List.length_append] at sizes
    rw [faultBrings_short (by unfold recordLength; omega)]
    split
    next full =>
      have enough := spec.full full
      omega
    next => rfl

theorem reached_assemble (valid : w.Valid) (net : Net)
    (legit : 4 ≤ (w.stream net).length →
      ¬ (uint32 ((w.stream net).take 4) = 0 ∨ maxRecord < uint32 ((w.stream net).take 4)) ∧
        ¬ uint32 ((w.stream net).take 4) < nonceSize + gcmTagSize) :
    Reached w net (w.assemble net) := by
  unfold assemble
  cases framed : w.frame with
  | some frame =>
    obtain ⟨prefixed, size, _, _, fits⟩ := valid.frame frame framed
    have begun : w.begun = w.hdr ++ frame.bytes := by simp [WrapConn.begun, framed]
    have stream : w.stream net = w.hdr ++ frame.bytes ++ net.wire := by
      rw [stream_eq, begun]
    have front : (w.stream net).take 4 = w.hdr := by
      rw [stream, List.append_assoc]
      exact List.take_left' prefixed
    have length : w.recordLength net = 4 + frame.size := by rw [recordLength, front, size]
    have got : w.begun.length = 4 + frame.bytes.length := by
      rw [begun, List.length_append, prefixed]
    refine reached_readBody stream prefixed length fits ?_ ?_
    · exact faultBrings_done (by omega) _ _
    · rw [faultEndsRecord, length, got]
  | none =>
    have begun : w.begun = w.hdr := by simp [WrapConn.begun, framed]
    have stream : w.stream net = w.hdr ++ net.wire := by rw [stream_eq, begun]
    have inPrefix := faultEndsPrefix_iff begun valid.hdr net
    have inRecord := faultEndsRecord_prefix begun valid.hdr (fun long => (legit long).2)
    have spec := fill_spec 4 w.hdr net
    have waiting : (fill 4 net.wire net.atEnd w.hdr net.script).stop = .blocked →
        (fill 4 net.wire net.atEnd w.hdr net.script).bytes.length < 4 := fill_blocked
    dsimp only
    generalize fill 4 net.wire net.atEnd w.hdr net.script = filled at inPrefix inRecord spec waiting
    have most : filled.bytes.length ≤ 4 := spec.bounded valid.hdr
    have sizes := congrArg List.length spec.conserved
    rw [List.length_append, List.length_append] at sizes
    have used : w.used net filled.net = filled.bytes.length := by
      rw [WrapConn.used, stream, List.length_append]
      omega
    have all : w.used net filled.net + filled.net.wire.length = (w.stream net).length := by
      rw [used, stream, List.length_append]
      exact sizes
    have stops {result : ReadResult} {next : WrapConn}
        (isStop : result = .error .timeout ∨ result = .blocked ∨
          result = .error (.readLength .closed))
        (exact : w.faultEndsPrefix net = true ↔ filled.bytes.length = 4)
        (unfilled : filled.stop ≠ .full) : Reached w net (.stopped next filled.net result) := by
      refine .inPrefix isStop all (by omega) (by rw [exact, used]) ?_
      rw [inRecord]
      split
      next full => exact absurd full unfilled
      next => rfl
    cases stop : filled.stop with
    | full =>
      have whole : filled.bytes.length = 4 := Nat.le_antisymm most (spec.full stop)
      have front : (w.stream net).take 4 = filled.bytes := by
        rw [stream, ← spec.conserved]
        exact List.take_left' whole
      obtain ⟨inBounds, large⟩ := legit (by rw [stream, List.length_append]; omega)
      rw [front] at inBounds large
      dsimp only
      unfold startBody
      dsimp only
      rw [if_neg inBounds, if_neg large]
      refine reached_readBody ?_ whole ?_ (Nat.zero_le _) ?_ ?_
      · rw [stream, ← spec.conserved, List.append_nil]
      · rw [recordLength, front]
      · rw [← Bool.not_eq_true, inPrefix, stop]
        simp
      · rw [inRecord, stop, recordLength, front]
        rfl
    | blocked =>
      refine stops (.inr (.inl rfl)) ?_ (by simp [stop])
      have short := waiting stop
      rw [inPrefix, stop]
      simp
      omega
    | fault fault =>
      have exact : w.faultEndsPrefix net = true ↔ filled.bytes.length = 4 := by
        rw [inPrefix, stop]
        simp
      cases fault with
      | timeout => exact stops (.inl rfl) exact (by simp [stop])
      | closed => exact stops (.inr (.inr rfl)) exact (by simp [stop])

/-- A read that turns to the transport ends in one of its two phases, or had a whole
record and no error with its last byte. -/
theorem reached_read {size : Nat} {openSealed : Nonce → Bytes → Option Bytes}
    (positive : size ≠ 0) (drained : w.readBuf = []) (reached : Reached w net (w.assemble net)) :
    w.faultEndsRecord net = false ∧
        ((∃ bytes, (w.read openSealed net size).2.2 = .data bytes) ∨
          (w.read openSealed net size).2.2 = .error .openFailed) ∨
      Reached w net (.stopped (w.read openSealed net size).1 (w.read openSealed net size).2.1
        (w.read openSealed net size).2.2) := by
  unfold read
  rw [if_neg positive, if_neg (not_not_intro drained)]
  generalize w.assemble net = assembly at reached
  cases assembly with
  | stopped next after result => exact .inr reached
  | record next frame after =>
    cases reached with
    | whole _ unpaired =>
      refine .inl ⟨unpaired, ?_⟩
      dsimp only
      cases openRecord openSealed frame with
      | none => exact .inr rfl
      | some plaintext => exact .inl ⟨_, rfl⟩

end WrapConn

end ClusterRouter.Crypto
