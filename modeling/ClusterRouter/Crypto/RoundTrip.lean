import ClusterRouter.Crypto.ReadSession

/-! Reading what was written: whatever the fragmentation, the deadlines and the buffers, the
plaintext comes out in order, and all of it. -/

set_option autoImplicit false

namespace ClusterRouter.Crypto

open Foundation

/-! ## Writing -/

private theorem flatten_chunksWithin (fuel : Nat) (p : Bytes) :
    (chunksWithin fuel p).flatten = p := by
  induction fuel generalizing p with
  | zero => simp [chunksWithin]
  | succ fuel ih =>
    unfold chunksWithin
    split
    · simp
    · rw [List.flatten_cons, ih, List.take_append_drop]

private theorem length_le_of_mem_chunksWithin {fuel : Nat} {p chunk : Bytes}
    (enough : p.length ≤ maxFrame + fuel) (member : chunk ∈ chunksWithin fuel p) :
    chunk.length ≤ maxFrame := by
  induction fuel generalizing p with
  | zero =>
    cases List.mem_singleton.mp member
    exact enough
  | succ fuel ih =>
    unfold chunksWithin at member
    split at member
    next short =>
      cases List.mem_singleton.mp member
      exact short
    next long =>
      rcases List.mem_cons.mp member with rfl | later
      · exact List.length_take_le _ _
      · refine ih ?_ later
        have shrinks : 0 < maxFrame := by decide
        rw [List.length_drop]
        omega

theorem sentRecords_chunks (nonces : Nat → Nonce) (payloads : List Bytes) :
    (sentRecords nonces payloads).map Prod.snd = payloads.flatMap chunks := by
  simp only [sentRecords, List.map_map]
  exact List.zipIdx_map_fst 0 _

theorem flatten_sentRecords (nonces : Nat → Nonce) (payloads : List Bytes) :
    ((sentRecords nonces payloads).map Prod.snd).flatten = payloads.flatten := by
  rw [sentRecords_chunks]
  induction payloads with
  | nil => rfl
  | cons p rest ih =>
    rw [List.flatMap_cons, List.flatten_append, ih, List.flatten_cons, chunks,
      flatten_chunksWithin]

theorem sentRecords_bounded (nonces : Nat → Nonce) (payloads : List Bytes) :
    ∀ sent ∈ sentRecords nonces payloads, sent.2.length ≤ maxFrame := by
  intro sent member
  have chunked : sent.2 ∈ payloads.flatMap chunks := by
    rw [← sentRecords_chunks nonces]
    exact List.mem_map_of_mem member
  obtain ⟨p, _, within⟩ := List.mem_flatMap.mp chunked
  exact length_le_of_mem_chunksWithin (Nat.le_add_left _ _) within

/-! ## One record -/

def sealedOf (aead : AEAD) (sent : Nonce × Bytes) : Bytes :=
  sent.1.val ++ aead.sealChunk sent.1 sent.2

theorem length_sealedOf (aead : AEAD) (sent : Nonce × Bytes) :
    (sealedOf aead sent).length = nonceSize + (sent.2.length + gcmTagSize) := by
  rw [sealedOf, List.length_append, sent.1.property, aead.length_sealChunk]

theorem writeChunks_cons (aead : AEAD) (sent : Nonce × Bytes) (rest : List (Nonce × Bytes)) :
    writeChunks aead (sent :: rest) = frameOf (sealedOf aead sent) ++ writeChunks aead rest := rfl

theorem opens_sealed (aead : AEAD) (sent : Nonce × Bytes) :
    (Item.record (sealedOf aead sent)).opens aead.openSealed = .ok sent.2 := by
  rw [Item.opens_record_eq_ok, sealedOf, WrapConn.openRecord_append, aead.openSealed_sealChunk]

theorem nextItem_writeChunks {aead : AEAD} {sent : Nonce × Bytes} (bounded : sent.2.length ≤ maxFrame)
    (rest : List (Nonce × Bytes)) :
    nextItem (writeChunks aead (sent :: rest)) =
      some (.record (sealedOf aead sent), writeChunks aead rest) := by
  rw [writeChunks_cons]
  refine nextItem_frameOf ?_ ?_ _
  · rw [length_sealedOf]
    omega
  · rw [length_sealedOf, maxRecord]
    omega

theorem items_writeChunks (aead : AEAD) {records : List (Nonce × Bytes)}
    (bounded : ∀ sent ∈ records, sent.2.length ≤ maxFrame) :
    items (writeChunks aead records) = records.map (fun sent => .record (sealedOf aead sent)) ∧
      remains (writeChunks aead records) = [] := by
  induction records with
  | nil => exact ⟨rfl, rfl⟩
  | cons sent rest ih =>
    obtain ⟨behind, ended⟩ := ih fun other member => bounded other (List.mem_cons_of_mem _ member)
    obtain ⟨parsed, same⟩ :=
      items_of_nextItem (nextItem_writeChunks (bounded sent List.mem_cons_self) rest)
    exact ⟨by rw [parsed, behind, List.map_cons], same.trans ended⟩

theorem plaintexts_sealed (aead : AEAD) (records : List (Nonce × Bytes)) :
    plaintexts aead.openSealed (records.map (fun sent => .record (sealedOf aead sent))) =
      records.map Prod.snd := by
  induction records with
  | nil => rfl
  | cons sent rest ih =>
    rw [plaintexts, List.map_cons, List.filterMap_cons, opens_sealed, List.map_cons, ← ih]
    rfl

theorem sum_lengths (records : List (Nonce × Bytes)) :
    (records.map (fun sent => sent.2.length + 1)).sum =
      (records.map Prod.snd).flatten.length + records.length := by
  induction records with
  | nil => rfl
  | cons sent rest ih =>
    simp only [List.map_cons, List.sum_cons, ih, List.flatten_cons, List.length_append,
      List.length_cons]
    omega

theorem effort_sealed (aead : AEAD) (records : List (Nonce × Bytes)) :
    (records.map (fun sent => Item.record (sealedOf aead sent))).map (Item.effort aead.openSealed) =
      records.map (fun sent => sent.2.length + 1) := by
  simp only [List.map_map, Function.comp_def, Item.effort, opens_sealed]

/-- Whatever has been taken is one of the records, and opens. -/
theorem Session.Follows.answered {aead : AEAD} {net : Net} {session : Session}
    {records : List (Nonce × Bytes)} (follows : session.Follows aead.openSealed net)
    (parsed : items net.wire = records.map (fun sent => .record (sealedOf aead sent)))
    (ended : remains net.wire = []) {entry : Entry} (member : entry ∈ session.log) :
    (∃ bytes, entry.result = .data bytes) ∧ entry.counted = false := by
  have judged := follows.judged entry member
  cases taken : entry.taken with
  | cut =>
    rcases follows.rest with ⟨_, uncut⟩ | ⟨_, _, left, _⟩
    · exact absurd taken (uncut entry member)
    · exact absurd ended left
  | item item =>
    have among : item ∈ items net.wire := by
      rw [follows.parsed]
      refine List.mem_append_left _ (List.mem_flatMap.mpr ⟨entry, member, ?_⟩)
      rw [taken]
      exact List.mem_singleton_self item
    rw [parsed] at among
    obtain ⟨sent, _, rfl⟩ := List.mem_map.mp among
    simpa only [Judged, taken, opens_sealed] using judged

/-- What is written is read back: never anything else, no record is rejected, an end of
the stream is reported only behind all of it, and enough reads hand out all of it unless the
arrivals run out, which takes fewer of them than there are bytes. -/
theorem records_read_back (aead : AEAD) (nonces : Nat → Nonce) (payloads : List Bytes)
    (script : List Arrival) (atEnd : Option Fault) (sizes : List Nat)
    (punctual : ∀ arrival ∈ script, arrival.fault ≠ some .closed)
    (positive : ∀ size ∈ sizes, 0 < size) :
    let records := sentRecords nonces payloads
    let net : Net := ⟨writeChunks aead records, script, atEnd⟩
    let session := (Session.start net).reads aead.openSealed sizes
    session.delivered <+: payloads.flatten ∧
      (∀ error, .error error ∈ session.results → error = .timeout ∨
        (error = .readLength .closed ∧ session.delivered = payloads.flatten)) ∧
      session.conn.tamperCount = 0 ∧
      (script.length + payloads.flatten.length + records.length ≤ sizes.length →
        session.delivered = payloads.flatten ∨ (session.Starved ∧ ¬ net.Plentiful)) := by
  intro records net session
  have punctual : net.Punctual := punctual
  have follows : session.Follows aead.openSealed net := Session.follows_reads punctual sizes
  obtain ⟨parsed, ended⟩ := items_writeChunks aead (sentRecords_bounded nonces payloads)
  have conserved := follows.conserved
  rw [parsed, plaintexts_sealed, flatten_sentRecords] at conserved
  have complete (exhausted : session.Exhausted) : session.delivered = payloads.flatten := by
    rw [← conserved, exhausted.drained, exhausted.items]
    simp [plaintexts]
  refine ⟨⟨_, (List.append_assoc _ _ _).symm.trans conserved⟩, ?_, ?_, fun enough => ?_⟩
  · intro error reported
    rcases follows.errors error reported with deadline | ⟨closed, exhausted⟩ | ⟨entry, member, same⟩
    · exact .inl deadline
    · exact .inr ⟨closed, complete exhausted⟩
    · obtain ⟨⟨bytes, data⟩, _⟩ := follows.answered parsed ended member
      rw [data] at same
      cases same
  · rw [follows.tamperCount, List.countP_eq_zero]
    intro entry member
    simp [(follows.answered parsed ended member).2]
  · have effort : (Session.start net).effort aead.openSealed ≤ sizes.length := by
      have stream : (Session.start net).conn.stream (Session.start net).net = net.wire := rfl
      rw [Session.effort, stream, parsed, effort_sealed, sum_lengths, flatten_sentRecords, if_pos ended]
      change script.length + 0 + (payloads.flatten.length + records.length) + 0 ≤ sizes.length
      omega
    rcases Session.exhausted_reads (Session.valid_start net) punctual positive effort with
      exhausted | starved
    · exact .inl (complete exhausted)
    · exact .inr ⟨starved, Session.not_plentiful starved⟩

def paddingAEAD : AEAD where
  sealChunk _ chunk := chunk ++ List.replicate gcmTagSize 0
  openSealed _ sealed := some (sealed.take (sealed.length - gcmTagSize))
  length_sealChunk _ chunk := by simp
  openSealed_sealChunk _ chunk := by simp

def countedNonce (i : Nat) : Nonce := ⟨List.replicate nonceSize (UInt8.ofNat i), by simp⟩

def threeWrites : List Bytes := [[1, 2, 3], [], [4]]

def fragments : List Arrival :=
  [⟨3, some .timeout⟩, ⟨1, none⟩, ⟨20, some .timeout⟩, ⟨11, none⟩, ⟨0, some .timeout⟩] ++
    List.replicate 100 ⟨29, none⟩

def threeWritesRead : Session :=
  (Session.start ⟨writeChunks paddingAEAD (sentRecords countedNonce threeWrites), fragments,
    none⟩).reads paddingAEAD.openSealed (List.replicate 112 2)

theorem records_read_back_fragmented :
    threeWritesRead.delivered = threeWrites.flatten ∧ threeWritesRead.conn.tamperCount = 0 := by
  have punctual : ∀ arrival ∈ fragments, arrival.fault ≠ some .closed := by decide +kernel
  have positive : ∀ size ∈ List.replicate 112 2, 0 < size := by decide +kernel
  have plentiful : Net.Plentiful
      ⟨writeChunks paddingAEAD (sentRecords countedNonce threeWrites), fragments, none⟩ := by
    decide +kernel
  have enough : fragments.length + threeWrites.flatten.length +
      (sentRecords countedNonce threeWrites).length ≤ (List.replicate 112 2).length := by
    decide +kernel
  obtain ⟨_, _, untampered, whole⟩ := records_read_back paddingAEAD countedNonce threeWrites
    fragments none (List.replicate 112 2) punctual positive
  unfold threeWritesRead
  exact ⟨(whole enough).resolve_right fun starved => starved.2 plentiful, untampered⟩

end ClusterRouter.Crypto
