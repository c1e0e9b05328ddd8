import ClusterRouter.Crypto.Wrap

/-! Abstractly a reader stands at a record boundary of a byte stream, with plaintext not handed
out yet. A call of `Read` hands out plaintext, waits, or takes the next item off the stream. -/

set_option autoImplicit false

namespace ClusterRouter.Crypto

open Foundation

/-! ## The stream -/

inductive Item where
  | outOfBounds (frameLen : Nat)
  | underrun (frameLen : Nat)
  | record (frame : Bytes)
  deriving DecidableEq, Repr

def nextItem (stream : Bytes) : Option (Item × Bytes) :=
  if stream.length < 4 then none
  else
    let frameLen := uint32 (stream.take 4)
    if frameLen = 0 ∨ maxRecord < frameLen then some (.outOfBounds frameLen, stream.drop 4)
    else if frameLen < nonceSize + gcmTagSize then some (.underrun frameLen, stream.drop 4)
    else if (stream.drop 4).length < frameLen then none
    else some (.record ((stream.drop 4).take frameLen), (stream.drop 4).drop frameLen)

theorem uint32_putUint32 {n : Nat} (small : n < 2 ^ 32) : uint32 (putUint32 n) = n := by
  simp only [uint32, putUint32, List.foldl_cons, List.foldl_nil, UInt8.toNat_ofNat']
  omega

theorem length_putUint32 (n : Nat) : (putUint32 n).length = 4 := rfl

variable {frame : Bytes} {openSealed : Nonce → Bytes → Option Bytes}

theorem nextItem_prefixed {hdr : Bytes} (prefixed : hdr.length = 4) (rest : Bytes) :
    nextItem (hdr ++ rest) =
      if uint32 hdr = 0 ∨ maxRecord < uint32 hdr then some (.outOfBounds (uint32 hdr), rest)
      else if uint32 hdr < nonceSize + gcmTagSize then some (.underrun (uint32 hdr), rest)
      else if rest.length < uint32 hdr then none
      else some (.record (rest.take (uint32 hdr)), rest.drop (uint32 hdr)) := by
  have long : ¬ (hdr ++ rest).length < 4 := by
    rw [List.length_append]
    omega
  unfold nextItem
  rw [if_neg long, List.take_left' prefixed, List.drop_left' prefixed]

theorem nextItem_frameOf (large : nonceSize + gcmTagSize ≤ frame.length)
    (bounded : frame.length ≤ maxRecord) (rest : Bytes) :
    nextItem (frameOf frame ++ rest) = some (.record frame, rest) := by
  have small : frame.length < 2 ^ 32 := by
    simp only [maxRecord, nonceSize, maxFrame, gcmTagSize] at bounded
    omega
  have inBounds : ¬ (frame.length = 0 ∨ maxRecord < frame.length) := by
    simp only [nonceSize, gcmTagSize] at large
    omega
  have whole : ¬ (frame ++ rest).length < frame.length := by
    rw [List.length_append]
    omega
  rw [frameOf, List.append_assoc, nextItem_prefixed (length_putUint32 _), uint32_putUint32 small,
    if_neg inBounds, if_neg (by omega), if_neg whole, List.take_left, List.drop_left]

theorem length_lt_of_nextItem {stream rest : Bytes} {item : Item}
    (next : nextItem stream = some (item, rest)) : rest.length < stream.length := by
  unfold nextItem at next
  split at next
  · cases next
  next long =>
    dsimp only at next
    split at next
    · cases next
      rw [List.length_drop]
      omega
    · split at next
      · cases next
        rw [List.length_drop]
        omega
      · split at next
        · cases next
        · cases next
          rw [List.length_drop, List.length_drop]
          omega

/-- The items of a stream one behind the other, and what is left when no item follows. -/
def itemsWithin : Nat → Bytes → List Item × Bytes
  | 0, stream => ([], stream)
  | fuel + 1, stream =>
    match nextItem stream with
    | none => ([], stream)
    | some (item, rest) => (item :: (itemsWithin fuel rest).1, (itemsWithin fuel rest).2)

def items (stream : Bytes) : List Item := (itemsWithin stream.length stream).1

def remains (stream : Bytes) : Bytes := (itemsWithin stream.length stream).2

private theorem itemsWithin_enough {fuel more : Nat} {stream : Bytes}
    (enough : stream.length ≤ fuel) (also : stream.length ≤ more) :
    itemsWithin fuel stream = itemsWithin more stream := by
  induction fuel generalizing more stream with
  | zero =>
    cases List.eq_nil_of_length_eq_zero (Nat.le_zero.mp enough)
    cases more <;> rfl
  | succ fuel ih =>
    cases more with
    | zero =>
      cases List.eq_nil_of_length_eq_zero (Nat.le_zero.mp also)
      rfl
    | succ more =>
      unfold itemsWithin
      cases next : nextItem stream with
      | none => rfl
      | some taken =>
        have shorter := length_lt_of_nextItem next
        dsimp only
        rw [ih (by omega) (show _ ≤ more by omega)]

theorem items_of_nextItem {stream rest : Bytes} {item : Item}
    (next : nextItem stream = some (item, rest)) :
    items stream = item :: items rest ∧ remains stream = remains rest := by
  have shorter := length_lt_of_nextItem next
  obtain ⟨fuel, size⟩ : ∃ fuel, stream.length = fuel + 1 := ⟨stream.length - 1, by omega⟩
  have behind : itemsWithin fuel rest = itemsWithin rest.length rest :=
    itemsWithin_enough (by omega) (Nat.le_refl _)
  simp only [items, remains, size, itemsWithin, next, behind, and_self]

theorem items_of_none {stream : Bytes} (ended : nextItem stream = none) :
    items stream = [] ∧ remains stream = stream := by
  unfold items remains
  cases stream.length <;> simp [itemsWithin, ended]

theorem nextItem_of_items {stream : Bytes} (ended : items stream = []) : nextItem stream = none := by
  cases next : nextItem stream with
  | none => rfl
  | some taken =>
    rw [(items_of_nextItem next).1] at ended
    cases ended

/-! ## The read loops -/

/-- Deadlines may expire at any time; any other error comes alone and at the end. -/
def Net.Punctual (net : Net) : Prop := ∀ arrival ∈ net.script, arrival.fault ≠ some .closed

instance (net : Net) : Decidable net.Punctual :=
  inferInstanceAs (Decidable (∀ arrival ∈ net.script, arrival.fault ≠ some .closed))

def Arrival.carries (arrival : Arrival) : Bool := decide (0 < arrival.count)

/-- There is an arrival for every byte, however few of those offered a read asks for. -/
def Net.Plentiful (net : Net) : Prop := net.wire.length ≤ net.script.countP Arrival.carries

instance (net : Net) : Decidable net.Plentiful := inferInstanceAs (Decidable (_ ≤ _))

/-- Arrivals are used up in order, and without any left nothing arrives. -/
structure Net.Later (net after : Net) : Prop where
  script_le : after.script.length ≤ net.script.length
  idle : net.script = [] → after = net
  punctual : net.Punctual → after.Punctual
  plentiful : net.Plentiful → after.Plentiful
  atEnd : after.atEnd = net.atEnd

theorem Net.Later.refl (net : Net) : net.Later net := ⟨Nat.le_refl _, fun _ => rfl, id, id, rfl⟩

theorem Net.Later.trans {net middle after : Net} (first : net.Later middle)
    (second : middle.Later after) : net.Later after := by
  refine ⟨Nat.le_trans second.script_le first.script_le, ?_, second.punctual ∘ first.punctual,
    second.plentiful ∘ first.plentiful, second.atEnd.trans first.atEnd⟩
  intro used
  have same := first.idle used
  exact (second.idle (same ▸ used)).trans same

structure FillSpec (goal : Nat) (bytes : Bytes) (net : Net) (filled : Fill) : Prop where
  conserved : filled.bytes ++ filled.net.wire = bytes ++ net.wire
  bounded : bytes.length ≤ goal → filled.bytes.length ≤ goal
  later : net.Later filled.net
  full : filled.stop = .full → goal ≤ filled.bytes.length
  closed : filled.stop = .fault .closed → net.Punctual →
    filled.net.wire = [] ∧ filled.bytes.length < goal ∧ net.atEnd = some .closed
  waits : filled.stop = .fault .timeout ∨ filled.stop = .blocked →
    filled.net.script.length < net.script.length ∨
      (net.script = [] ∧ filled.bytes.length < goal ∧ (net.wire = [] → net.atEnd ≠ some .closed))

private theorem conserve {bytes wire : Bytes} (n : Nat) :
    bytes ++ wire.take n ++ wire.drop n = bytes ++ wire := by
  rw [List.append_assoc, List.take_append_drop]

theorem fill_spec (goal : Nat) (bytes : Bytes) (net : Net) :
    FillSpec goal bytes net (fill goal net.wire net.atEnd bytes net.script) := by
  obtain ⟨wire, script, atEnd⟩ := net
  dsimp only
  induction script generalizing bytes wire with
  | nil =>
    unfold fill
    by_cases enough : goal ≤ bytes.length
    · rw [if_pos enough]
      exact ⟨rfl, id, .refl _, fun _ => enough, by simp, by simp⟩
    · rw [if_neg enough]
      have short : bytes.length < goal := Nat.lt_of_not_le enough
      cases atEnd with
      | none => exact ⟨rfl, id, .refl _, by simp, by simp, fun _ => .inr ⟨rfl, short, by simp⟩⟩
      | some fault =>
        dsimp only
        by_cases empty : wire = []
        · rw [if_pos empty]
          refine ⟨rfl, id, .refl _, by simp, ?_, fun waits => .inr ⟨rfl, short, fun _ => ?_⟩⟩
          · intro stopped _
            cases stopped
            exact ⟨empty, short, rfl⟩
          · rintro ⟨⟩
            simp at waits
        · rw [if_neg empty]
          exact ⟨rfl, id, .refl _, by simp, by simp,
            fun _ => .inr ⟨rfl, short, fun arrived => absurd arrived empty⟩⟩
  | cons arrival rest ih =>
    unfold fill
    by_cases enough : goal ≤ bytes.length
    · rw [if_pos enough]
      exact ⟨rfl, id, .refl _, fun _ => enough, by simp, by simp⟩
    · rw [if_neg enough]
      dsimp only
      have shorter : min arrival.count (goal - bytes.length) ≤ goal - bytes.length :=
        Nat.min_le_right _ _
      have progress : 0 < arrival.count → 0 < min arrival.count (goal - bytes.length) := by omega
      generalize min arrival.count (goal - bytes.length) = n at shorter progress
      have bounded : (bytes ++ wire.take n).length ≤ goal := by
        rw [List.length_append, List.length_take]
        omega
      have later : Net.Later ⟨wire, arrival :: rest, atEnd⟩ ⟨wire.drop n, rest, atEnd⟩ := by
        refine ⟨Nat.le_succ _, by simp, fun all other member => all other (List.mem_cons_of_mem _ member),
          fun plentiful => ?_, rfl⟩
        simp only [Net.Plentiful, List.countP_cons, Arrival.carries, decide_eq_true_eq,
          List.length_drop] at plentiful ⊢
        split at plentiful <;> omega
      cases stops : arrival.fault with
      | none =>
        obtain ⟨conserved, within, after, full, closed, _⟩ :=
          ih (bytes ++ wire.take n) (wire.drop n)
        exact ⟨conserved.trans (conserve n), fun _ => within bounded, later.trans after, full,
          fun stopped all => closed stopped (later.punctual all),
          fun _ => .inl (Nat.lt_succ_of_le after.script_le)⟩
      | some fault =>
        refine ⟨conserve n, fun _ => bounded, later, by simp, ?_,
          fun _ => .inl (Nat.lt_succ_self _)⟩
        intro isClosed all
        cases isClosed
        exact absurd stops (all arrival List.mem_cons_self)

/-! ## Between two reads -/

namespace WrapConn

/-- A record body is being read only behind a whole length prefix that admits it. -/
structure Valid (w : WrapConn) : Prop where
  hdr : w.hdr.length ≤ 4
  frame : ∀ frame, w.frame = some frame →
    w.hdr.length = 4 ∧ frame.size = uint32 w.hdr ∧
      ¬ (frame.size = 0 ∨ maxRecord < frame.size) ∧ ¬ frame.size < nonceSize + gcmTagSize ∧
      frame.bytes.length ≤ frame.size

theorem valid_resetFraming (w : WrapConn) : w.resetFraming.Valid :=
  ⟨Nat.zero_le _, fun _ known => by cases known⟩

/-- The stream from the last record boundary on: what was read of the record in
progress, and what is still to arrive. -/
def stream (w : WrapConn) (net : Net) : Bytes :=
  w.hdr ++ (match w.frame with | some frame => frame.bytes | none => []) ++ net.wire

inductive Assembled (whole : Bytes) (w : WrapConn) (net : Net) : Assembly → Prop where
  | record {frame after} :
      nextItem whole = some (.record frame, after.wire) → net.Later after →
      Assembled whole w net (.record w.resetFraming frame after)
  | waiting {next after result} :
      result = .error .timeout ∨ result = .blocked → next.Valid → next.stream after = whole →
      next.readBuf = w.readBuf → next.tamperCount = w.tamperCount → net.Later after →
      after.script.length < net.script.length ∨
        (net.script = [] ∧ (net.wire = [] → nextItem whole = none ∧ net.atEnd ≠ some .closed)) →
      Assembled whole w net (.stopped next after result)
  | outOfBounds {frameLen after} :
      nextItem whole = some (.outOfBounds frameLen, after.wire) → net.Later after →
      Assembled whole w net
        (.stopped w.resetFraming.countTamper after (.error (.outOfBounds frameLen)))
  | underrun {frameLen after} :
      nextItem whole = some (.underrun frameLen, after.wire) → net.Later after →
      Assembled whole w net (.stopped w.resetFraming.countTamper after (.error (.underrun frameLen)))
  | cutPrefix {after} :
      (net.Punctual → whole.length < 4 ∧ after.wire = [] ∧ net.atEnd = some .closed) →
      net.Later after →
      Assembled whole w net (.stopped w.resetFraming after (.error (.readLength .closed)))
  | cutBody {after} :
      (net.Punctual → nextItem whole = none ∧ 4 ≤ whole.length ∧ after.wire = [] ∧
        net.atEnd = some .closed) →
      net.Later after →
      Assembled whole w net
        (.stopped w.resetFraming.countTamper after (.error (.shortFrame .closed)))

theorem assembled_readBody (w : WrapConn) {net : Net} (prefixed : w.hdr.length = 4)
    (inBounds : ¬ (uint32 w.hdr = 0 ∨ maxRecord < uint32 w.hdr))
    (large : ¬ uint32 w.hdr < nonceSize + gcmTagSize) {bytes : Bytes}
    (fits : bytes.length ≤ uint32 w.hdr) :
    Assembled (w.hdr ++ bytes ++ net.wire) w net (w.readBody net (uint32 w.hdr) bytes) := by
  have spec := fill_spec (uint32 w.hdr) bytes net
  have bounded := spec.bounded fits
  have item := nextItem_prefixed prefixed (bytes ++ net.wire)
  rw [if_neg inBounds, if_neg large, ← List.append_assoc] at item
  unfold readBody
  dsimp only
  generalize fill (uint32 w.hdr) net.wire net.atEnd bytes net.script = filled at spec bounded
  obtain ⟨read, after, stop⟩ := filled
  have conserved : read ++ after.wire = bytes ++ net.wire := spec.conserved
  have waiting {result : ReadResult} (waits : result = .error .timeout ∨ result = .blocked)
      (unfilled : stop = .fault .timeout ∨ stop = .blocked) :
      Assembled (w.hdr ++ bytes ++ net.wire) w net
        (.stopped { w with frame := some ⟨uint32 w.hdr, read⟩ } after result) := by
    refine .waiting waits ⟨Nat.le_of_eq prefixed, ?_⟩ ?_ rfl rfl spec.later ?_
    · intro frame same
      cases same
      exact ⟨prefixed, rfl, inBounds, large, bounded⟩
    · simp only [stream]
      rw [List.append_assoc, conserved, List.append_assoc]
    · rcases spec.waits unfilled with less | ⟨used, short, unended⟩
      · exact .inl less
      · refine .inr ⟨used, fun empty => ⟨?_, unended empty⟩⟩
        have same : after = net := spec.later.idle used
        rw [item, ← conserved, same, empty, List.append_nil, if_pos short]
  cases stop with
  | full =>
    have whole : read.length = uint32 w.hdr := Nat.le_antisymm bounded (spec.full rfl)
    refine .record ?_ spec.later
    rw [item, ← conserved, if_neg, ← whole, List.take_left, List.drop_left]
    rw [List.length_append]
    omega
  | blocked => exact waiting (.inr rfl) (.inr rfl)
  | fault fault =>
    cases fault with
    | timeout => exact waiting (.inl rfl) (.inl rfl)
    | closed =>
      refine .cutBody (fun punctual => ?_) spec.later
      obtain ⟨empty, short, ended⟩ := spec.closed rfl punctual
      dsimp only at empty short
      refine ⟨?_, ?_, empty, ended⟩
      · rw [item, ← conserved, empty, List.append_nil, if_pos short]
      · rw [List.append_assoc, List.length_append]
        omega

private theorem Assembled.of_hdr {whole hdr : Bytes} {w : WrapConn} {net middle : Net}
    {assembly : Assembly} (assembled : Assembled whole { w with hdr := hdr } middle assembly)
    (later : net.Later middle) : Assembled whole w net assembly := by
  cases assembled with
  | record item after => exact .record item (later.trans after)
  | waiting waits valid streams readBuf tamper after progress =>
    refine .waiting waits valid streams readBuf tamper (later.trans after) ?_
    have fewer := later.script_le
    rcases progress with less | ⟨used, idle⟩
    · exact .inl (Nat.lt_of_lt_of_le less fewer)
    · by_cases started : net.script = []
      · have same := later.idle started
        exact .inr ⟨started, same ▸ idle⟩
      · left
        rw [after.idle used, used]
        exact List.length_pos_iff.mpr started
  | outOfBounds item after => exact .outOfBounds item (later.trans after)
  | underrun item after => exact .underrun item (later.trans after)
  | cutPrefix cut after =>
    exact .cutPrefix (fun punctual => later.atEnd ▸ cut (later.punctual punctual)) (later.trans after)
  | cutBody cut after =>
    exact .cutBody (fun punctual => later.atEnd ▸ cut (later.punctual punctual)) (later.trans after)

private theorem assembled_startBody (w : WrapConn) {net : Net} (prefixed : w.hdr.length = 4) :
    Assembled (w.hdr ++ net.wire) w net (w.startBody net) := by
  have item := nextItem_prefixed prefixed net.wire
  unfold startBody
  dsimp only
  by_cases inBounds : uint32 w.hdr = 0 ∨ maxRecord < uint32 w.hdr
  · rw [if_pos inBounds] at item ⊢
    exact .outOfBounds item (.refl _)
  · rw [if_neg inBounds] at item ⊢
    by_cases large : uint32 w.hdr < nonceSize + gcmTagSize
    · rw [if_pos large] at item ⊢
      exact .underrun item (.refl _)
    · rw [if_neg large]
      have shorter : ([] : Bytes).length ≤ uint32 w.hdr := Nat.zero_le _
      have body : Assembled _ w net _ := assembled_readBody w prefixed inBounds large shorter
      rw [List.append_nil] at body
      exact body

theorem assembled_assemble {w : WrapConn} (valid : w.Valid) (net : Net) :
    Assembled (w.stream net) w net (w.assemble net) := by
  obtain ⟨hdr, frame, readBuf, tamperCount⟩ := w
  unfold assemble
  cases frame with
  | some frame =>
    obtain ⟨prefixed, size, inBounds, large, fits⟩ := valid.frame frame rfl
    dsimp only at prefixed size inBounds large fits ⊢
    simp only [stream]
    rw [size] at inBounds large fits ⊢
    exact assembled_readBody ⟨hdr, some frame, readBuf, tamperCount⟩ prefixed inBounds large fits
  | none =>
    have spec := fill_spec 4 hdr net
    have bounded := spec.bounded valid.hdr
    dsimp only
    generalize fill 4 net.wire net.atEnd hdr net.script = filled at spec bounded
    obtain ⟨read, after, stop⟩ := filled
    have conserved : read ++ after.wire = hdr ++ net.wire := spec.conserved
    simp only [stream, List.append_nil]
    have waiting {result : ReadResult} (waits : result = .error .timeout ∨ result = .blocked)
        (unfilled : stop = .fault .timeout ∨ stop = .blocked) :
        Assembled (hdr ++ net.wire) ⟨hdr, none, readBuf, tamperCount⟩ net
          (.stopped ⟨read, none, readBuf, tamperCount⟩ after result) := by
      refine .waiting waits ⟨bounded, fun _ same => by cases same⟩ ?_ rfl rfl spec.later ?_
      · simp only [stream, List.append_nil]
        exact conserved
      · rcases spec.waits unfilled with less | ⟨used, short, unended⟩
        · exact .inl less
        · refine .inr ⟨used, fun empty => ⟨?_, unended empty⟩⟩
          have same : after = net := spec.later.idle used
          unfold nextItem
          rw [← conserved, same, empty, List.append_nil, if_pos short]
    cases stop with
    | full =>
      have prefixed : read.length = 4 := Nat.le_antisymm bounded (spec.full rfl)
      rw [← conserved]
      exact (assembled_startBody ⟨read, none, readBuf, tamperCount⟩ prefixed).of_hdr spec.later
    | blocked => exact waiting (.inr rfl) (.inr rfl)
    | fault fault =>
      cases fault with
      | timeout => exact waiting (.inl rfl) (.inl rfl)
      | closed =>
        rw [← conserved]
        refine .cutPrefix (fun punctual => ?_) spec.later
        obtain ⟨empty, short, ended⟩ := spec.closed rfl punctual
        dsimp only at empty short
        rw [empty, List.append_nil]
        exact ⟨short, rfl, ended⟩

end WrapConn

/-! ## A read as a turn on the stream -/

theorem WrapConn.openRecord_append (openSealed : Nonce → Bytes → Option Bytes) (nonce : Nonce)
    (sealed : Bytes) : openRecord openSealed (nonce.val ++ sealed) = openSealed nonce sealed := by
  have front : (nonce.val ++ sealed).take nonceSize = nonce.val := List.take_left' nonce.property
  have back : (nonce.val ++ sealed).drop nonceSize = sealed := List.drop_left' nonce.property
  simp only [openRecord, front, back, nonce.property, dite_true]

def Item.opens (openSealed : Nonce → Bytes → Option Bytes) : Item → Except ReadError Bytes
  | .outOfBounds frameLen => .error (.outOfBounds frameLen)
  | .underrun frameLen => .error (.underrun frameLen)
  | .record frame =>
    match WrapConn.openRecord openSealed frame with
    | none => .error .openFailed
    | some plaintext => .ok plaintext

theorem Item.opens_record_eq_ok {plaintext : Bytes} :
    (Item.record frame).opens openSealed = .ok plaintext ↔
      WrapConn.openRecord openSealed frame = some plaintext := by
  cases opened : WrapConn.openRecord openSealed frame <;> simp [Item.opens, opened]

theorem Item.opens_record_eq_error {error : ReadError} :
    (Item.record frame).opens openSealed = .error error ↔
      WrapConn.openRecord openSealed frame = none ∧ error = .openFailed := by
  cases opened : WrapConn.openRecord openSealed frame <;> simp [Item.opens, opened, eq_comm]

theorem Item.isTampered_of_opens {item : Item} {error : ReadError}
    (rejected : item.opens openSealed = .error error) :
    error.isTampered = true := by
  cases item with
  | outOfBounds | underrun =>
    cases rejected
    rfl
  | record frame =>
    obtain ⟨_, rfl⟩ := Item.opens_record_eq_error.mp rejected
    rfl

/-- What a read takes off the stream: an item, or the remains of one when the
connection fails. -/
inductive Taken where
  | item (item : Item)
  | cut
  deriving DecidableEq, Repr

namespace WrapConn

def takes (w : WrapConn) (net : Net) (size : Nat) : Option Taken :=
  if size = 0 ∨ w.readBuf ≠ [] then none
  else
    match w.assemble net with
    | .record _ frame _ => some (.item (.record frame))
    | .stopped _ _ (.error (.outOfBounds frameLen)) => some (.item (.outOfBounds frameLen))
    | .stopped _ _ (.error (.underrun frameLen)) => some (.item (.underrun frameLen))
    | .stopped _ _ (.error (.shortFrame _)) => some .cut
    | .stopped _ after (.error (.readLength _)) =>
      if (w.stream net).length = after.wire.length then none else some .cut
    | .stopped .. => none

end WrapConn

/-- One call of `Read` with a buffer of `size` bytes, which leaves `next` of the connection and
`after` of the transport: its result and what it takes off the stream. -/
inductive Turn (openSealed : Nonce → Bytes → Option Bytes) (size : Nat) (w : WrapConn) (net : Net)
    (next : WrapConn) (after : Net) : ReadResult → Option Taken → Prop where
  | empty (zero : size = 0) (streams : next.stream after = w.stream net)
      (kept : next.readBuf = w.readBuf) (tampers : next.tamperCount = w.tamperCount) :
      Turn openSealed size w net next after (.data []) none
  | drain (held : w.readBuf ≠ []) (streams : next.stream after = w.stream net)
      (drains : next.readBuf = w.readBuf.drop size) (tampers : next.tamperCount = w.tamperCount) :
      Turn openSealed size w net next after (.data (w.readBuf.take size)) none
  | wait {result : ReadResult} (waits : result = .error .timeout ∨ result = .blocked)
      (progress : after.script.length < net.script.length ∨
        (net.script = [] ∧
          (net.wire = [] → nextItem (w.stream net) = none ∧ net.atEnd ≠ some .closed)))
      (drained : w.readBuf = []) (streams : next.stream after = w.stream net)
      (still : next.readBuf = []) (tampers : next.tamperCount = w.tamperCount) :
      Turn openSealed size w net next after result none
  | rejected {item : Item} {error : ReadError}
      (first : nextItem (w.stream net) = some (item, next.stream after))
      (opens : item.opens openSealed = .error error) (drained : w.readBuf = [])
      (still : next.readBuf = []) (tampers : next.tamperCount = w.tamperCount + 1) :
      Turn openSealed size w net next after (.error error) (some (.item item))
  | opened {plaintext : Bytes} {item : Item}
      (first : nextItem (w.stream net) = some (item, next.stream after))
      (opens : item.opens openSealed = .ok plaintext) (drained : w.readBuf = [])
      (fills : next.readBuf = plaintext.drop size) (tampers : next.tamperCount = w.tamperCount) :
      Turn openSealed size w net next after (.data (plaintext.take size)) (some (.item item))
  | cutPrefix {taken : Option Taken}
      (cuts : taken = if (w.stream net).length = after.wire.length then none else some .cut)
      (cut : net.Punctual →
        (w.stream net).length < 4 ∧ after.wire = [] ∧ net.atEnd = some .closed)
      (drained : w.readBuf = []) (streams : next.stream after = after.wire)
      (still : next.readBuf = []) (tampers : next.tamperCount = w.tamperCount) :
      Turn openSealed size w net next after (.error (.readLength .closed)) taken
  | cutBody
      (cut : net.Punctual → nextItem (w.stream net) = none ∧ 4 ≤ (w.stream net).length ∧
        after.wire = [] ∧ net.atEnd = some .closed)
      (drained : w.readBuf = []) (streams : next.stream after = after.wire)
      (still : next.readBuf = []) (tampers : next.tamperCount = w.tamperCount + 1) :
      Turn openSealed size w net next after (.error (.shortFrame .closed)) (some .cut)

namespace WrapConn

private theorem stream_resetFraming (w : WrapConn) (net : Net) :
    w.resetFraming.stream net = net.wire := by
  simp [stream, resetFraming]

private theorem stream_countTamper (w : WrapConn) (net : Net) :
    w.countTamper.stream net = w.stream net := rfl

private theorem valid_reset_countTamper (w : WrapConn) : w.resetFraming.countTamper.Valid :=
  ⟨Nat.zero_le _, fun _ same => by cases same⟩

theorem read_turn {w : WrapConn} (valid : w.Valid) (net : Net) (size : Nat)
    (openSealed : Nonce → Bytes → Option Bytes) :
    let (next, after, result) := w.read openSealed net size
    Turn openSealed size w net next after result (w.takes net size) ∧ next.Valid ∧
      net.Later after := by
  unfold read takes
  by_cases zero : size = 0
  · rw [if_pos zero, if_pos (.inl zero)]
    exact ⟨.empty zero rfl rfl rfl, valid, .refl _⟩
  rw [if_neg zero]
  by_cases drained : w.readBuf = []
  · have idle : ¬ (size = 0 ∨ w.readBuf ≠ []) := by simp [zero, drained]
    rw [if_neg (not_not_intro drained), if_neg idle]
    have assembled := assembled_assemble valid net
    generalize w.assemble net = assembly at assembled
    have counted (after : Net) : w.resetFraming.countTamper.stream after = after.wire := by
      rw [stream_countTamper, stream_resetFraming]
    cases assembled with
    | @record frame after item later =>
      dsimp only
      cases result : openRecord openSealed frame with
      | none =>
        refine ⟨.rejected ?_ (Item.opens_record_eq_error.mpr ⟨result, rfl⟩) drained drained rfl,
          valid_reset_countTamper w, later⟩
        rw [counted]
        exact item
      | some plaintext =>
        refine ⟨.opened ?_ (Item.opens_record_eq_ok.mpr result) drained rfl rfl,
          ⟨Nat.zero_le _, fun _ same => by cases same⟩, later⟩
        simp only [stream, deliver, resetFraming, List.nil_append]
        exact item
    | waiting waits nextValid streams readBuf tamper later progress =>
      have still := readBuf.trans drained
      dsimp only
      rcases waits with rfl | rfl
      · exact ⟨.wait (.inl rfl) progress drained streams still tamper, nextValid, later⟩
      · exact ⟨.wait (.inr rfl) progress drained streams still tamper, nextValid, later⟩
    | outOfBounds item later | underrun item later =>
      refine ⟨.rejected ?_ rfl drained drained rfl, valid_reset_countTamper w, later⟩
      rw [counted]
      exact item
    | @cutPrefix after cut later =>
      exact ⟨.cutPrefix rfl cut drained (stream_resetFraming w after) drained rfl,
        w.valid_resetFraming, later⟩
    | @cutBody after cut later =>
      exact ⟨.cutBody cut drained (counted after) drained rfl, valid_reset_countTamper w, later⟩
  · rw [if_pos drained, if_pos (.inr drained)]
    exact ⟨.drain drained rfl rfl rfl, ⟨valid.hdr, valid.frame⟩, .refl _⟩

end WrapConn

end ClusterRouter.Crypto
