import ClusterRouter.Crypto.RoundTrip

/-! An attacker rearranges what was sent. Records are authenticated one by one and carry no
position, so a reader does not tell the next record from any other sealed one. -/

set_option autoImplicit false

namespace ClusterRouter.Crypto

open Foundation

def sealedRecord (sealChunk : Nonce → Bytes → Bytes) (sent : Nonce × Bytes) : Bytes :=
  sent.1.val ++ sealChunk sent.1 sent.2

/-- Only what was sealed under the key opens, each ciphertext to its own plaintext. -/
def Ideal (sealChunk : Nonce → Bytes → Bytes) (openSealed : Nonce → Bytes → Option Bytes)
    (ledger : List (Nonce × Bytes)) : Prop :=
  ∀ nonce sealed plaintext, openSealed nonce sealed = some plaintext ↔
    (nonce, plaintext) ∈ ledger ∧ sealed = sealChunk nonce plaintext

/-! ## What a session shows -/

def Item.frame : Item → Option Bytes
  | .record frame => some frame
  | _ => none

/-- The records among the items of a stream that were sealed under the key. -/
def authentic (sealed : List Bytes) (items : List Item) : List Bytes :=
  (items.filterMap Item.frame).filter (fun frame => decide (frame ∈ sealed))

def Entry.Flagged (entry : Entry) : Prop :=
  ∃ error, entry.result = .error error ∧ error.isTampered = true ∧ entry.counted = true

/-- The plaintext handed out is an initial part of what the peer sent, and whatever
else than the next record of the peer was taken off the stream has been flagged. -/
structure Session.InOrder (peer sealed : List Bytes) (plaintext : Bytes) (session : Session) :
    Prop where
  delivered : session.delivered <+: plaintext
  flagged : ∀ before entry after item, session.log = before ++ entry :: after →
    entry.taken = .item item →
    (∀ frame, item = .record frame → peer[(authentic sealed (itemsOf before)).length]? ≠ some frame) →
    entry.Flagged

/-- So have the remains of a record that a failing connection cut off. -/
def Session.CutsFlagged (session : Session) : Prop :=
  ∀ entry ∈ session.log, entry.taken = .cut → entry.Flagged

/-! ## Sealed records -/

section

variable {sealChunk : Nonce → Bytes → Bytes} {openSealed : Nonce → Bytes → Option Bytes}
  {ledger : List (Nonce × Bytes)}

section

variable (ideal : Ideal sealChunk openSealed ledger)

include ideal

theorem Ideal.openRecord_sealedRecord {sent : Nonce × Bytes} (member : sent ∈ ledger) :
    WrapConn.openRecord openSealed (sealedRecord sealChunk sent) = some sent.2 := by
  rw [sealedRecord, WrapConn.openRecord_append]
  exact (ideal _ _ _).mpr ⟨member, rfl⟩

theorem Ideal.mem_of_openRecord {frame plaintext : Bytes}
    (opened : WrapConn.openRecord openSealed frame = some plaintext) :
    frame ∈ ledger.map (sealedRecord sealChunk) := by
  unfold WrapConn.openRecord at opened
  split at opened
  next sized =>
    obtain ⟨member, same⟩ := (ideal _ _ _).mp opened
    refine List.mem_map.mpr ⟨_, member, ?_⟩
    rw [sealedRecord, ← same, List.take_append_drop]
  next => cases opened

theorem Ideal.opens_iff (frame : Bytes) :
    (∃ plaintext, (Item.record frame).opens openSealed = .ok plaintext) ↔
      frame ∈ ledger.map (sealedRecord sealChunk) := by
  constructor
  · rintro ⟨plaintext, opens⟩
    exact ideal.mem_of_openRecord (Item.opens_record_eq_ok.mp opens)
  · intro member
    obtain ⟨sent, known, rfl⟩ := List.mem_map.mp member
    exact ⟨sent.2, Item.opens_record_eq_ok.mpr (ideal.openRecord_sealedRecord known)⟩

theorem Ideal.plaintexts_authentic (items : List Item) :
    plaintexts openSealed items =
      (authentic (ledger.map (sealedRecord sealChunk)) items).filterMap
        (WrapConn.openRecord openSealed) := by
  rw [authentic, List.filterMap_filter, List.filterMap_filterMap, plaintexts]
  congr 1
  funext item
  cases item with
  | outOfBounds | underrun => rfl
  | record frame =>
    cases opened : WrapConn.openRecord openSealed frame with
    | none => simp [Item.opens, Item.frame, opened, Except.toOption]
    | some plaintext =>
      simp [Item.opens, Item.frame, opened, Except.toOption, ideal.mem_of_openRecord opened]

theorem Ideal.plaintexts {sent : List (Nonce × Bytes)} (known : ∀ record ∈ sent, record ∈ ledger) :
    (sent.map (sealedRecord sealChunk)).filterMap (WrapConn.openRecord openSealed) =
      sent.map Prod.snd := by
  induction sent with
  | nil => rfl
  | cons record rest ih =>
    rw [List.map_cons, List.filterMap_cons,
      ideal.openRecord_sealedRecord (known record List.mem_cons_self),
      ih (fun other member => known other (List.mem_cons_of_mem _ member)), List.map_cons]

end

end

private theorem concat_isPrefix {front whole : List Bytes} {frame : Bytes} (within : front <+: whole)
    (next : whole[front.length]? = some frame) : front ++ [frame] <+: whole := by
  obtain ⟨shorter, rfl⟩ := List.getElem?_eq_some_iff.mp next
  exact List.concat_get_prefix within shorter

theorem authentic_append (sealed : List Bytes) (first second : List Item) :
    authentic sealed (first ++ second) = authentic sealed first ++ authentic sealed second := by
  simp only [authentic, List.filterMap_append, List.filter_append]

theorem authentic_isPrefix (sealed : List Bytes) {first second : List Item}
    (within : first <+: second) : authentic sealed first <+: authentic sealed second :=
  (within.filterMap _).filter _

theorem authentic_of_mem {sealed : List Bytes} {entry : Entry} {frame : Bytes}
    (taken : entry.taken = .item (.record frame)) (known : frame ∈ sealed) :
    authentic sealed (itemsOf [entry]) = [frame] := by
  simp [itemsOf, authentic, taken, Taken.items, Item.frame, known]

theorem authentic_of_not_mem {sealed : List Bytes} {entry : Entry}
    (unknown : ∀ frame, entry.taken = .item (.record frame) → frame ∉ sealed) :
    authentic sealed (itemsOf [entry]) = [] := by
  obtain ⟨taken, result, counted⟩ := entry
  cases taken with
  | cut => rfl
  | item item =>
    cases item with
    | outOfBounds | underrun => rfl
    | record frame => simpa [itemsOf, authentic, Taken.items, Item.frame] using unknown frame rfl

namespace Session

variable {sealChunk : Nonce → Bytes → Bytes} {openSealed : Nonce → Bytes → Option Bytes}
  {peer own : List (Nonce × Bytes)} {net : Net} {session : Session} {entry : Entry}

section

variable (follows : Follows openSealed net session)

include follows

theorem Follows.flagged {item : Item} {error : ReadError}
    (member : entry ∈ session.log) (taken : entry.taken = .item item)
    (rejected : item.opens openSealed = .error error) : entry.Flagged := by
  have judged := follows.judged entry member
  simp only [Judged, taken, rejected] at judged
  exact ⟨error, judged.1, Item.isTampered_of_opens rejected, judged.2⟩

theorem Follows.not_flagged {item : Item}
    (member : entry ∈ session.log) (taken : entry.taken = .item item)
    (opens : ∃ plaintext, item.opens openSealed = .ok plaintext) : ¬ entry.Flagged := by
  have judged := follows.judged entry member
  obtain ⟨plaintext, opens⟩ := opens
  simp only [Judged, taken, opens] at judged
  obtain ⟨⟨bytes, result⟩, _⟩ := judged
  rintro ⟨error, same, _⟩
  rw [result] at same
  cases same

theorem Follows.not_flagged_cut
    (member : entry ∈ session.log) (taken : entry.taken = .cut) : ¬ entry.Flagged := by
  have judged := follows.judged entry member
  simp only [Judged, taken] at judged
  rintro ⟨error, same, tampered, _⟩
  obtain ⟨fault, result | result⟩ := judged
  all_goals
    rw [result] at same
    cases same
    cases tampered

theorem Follows.inOrder (ideal : Ideal sealChunk openSealed (peer ++ own))
    (initial : authentic ((peer ++ own).map (sealedRecord sealChunk)) (itemsOf session.log) <+:
      peer.map (sealedRecord sealChunk)) :
    session.InOrder (peer.map (sealedRecord sealChunk)) ((peer ++ own).map (sealedRecord sealChunk))
      (peer.map Prod.snd).flatten := by
  constructor
  · obtain ⟨rest, parts⟩ := initial
    have known : ∀ record ∈ peer, record ∈ peer ++ own := fun _ => List.mem_append_left _
    have opened := ideal.plaintexts known
    rw [← parts, List.filterMap_append, ← ideal.plaintexts_authentic] at opened
    rw [← opened, List.flatten_append, ← follows.delivered, List.append_assoc]
    exact List.prefix_append _ _
  · intro before entry after item logged taken unexpected
    have member : entry ∈ session.log := by simp [logged]
    cases opens : item.opens openSealed with
    | error error => exact follows.flagged member taken opens
    | ok plaintext =>
      cases item with
      | outOfBounds | underrun => cases opens
      | record frame =>
        have known := (ideal.opens_iff frame).mp ⟨plaintext, opens⟩
        refine absurd ?_ (unexpected frame rfl)
        rw [logged, List.append_cons, itemsOf_append, itemsOf_append, authentic_append,
          authentic_append, authentic_of_mem taken known] at initial
        obtain ⟨rest, parts⟩ := initial
        rw [← parts, List.append_assoc, List.append_assoc,
          List.getElem?_append_right (Nat.le_refl _), Nat.sub_self]
        rfl

theorem Follows.initial (ideal : Ideal sealChunk openSealed (peer ++ own)) {plaintext : Bytes}
    (inOrder : session.InOrder (peer.map (sealedRecord sealChunk))
      ((peer ++ own).map (sealedRecord sealChunk)) plaintext) :
    authentic ((peer ++ own).map (sealedRecord sealChunk)) (itemsOf session.log) <+:
      peer.map (sealedRecord sealChunk) := by
  -- The log is taken from the front, one entry at a time.
  have extend (after : List Entry) : ∀ before, session.log = before ++ after →
      authentic ((peer ++ own).map (sealedRecord sealChunk)) (itemsOf before) <+:
        peer.map (sealedRecord sealChunk) →
      authentic ((peer ++ own).map (sealedRecord sealChunk)) (itemsOf session.log) <+:
        peer.map (sealedRecord sealChunk) := by
    induction after with
    | nil =>
      intro before logged within
      rw [logged, List.append_nil]
      exact within
    | cons entry after ih =>
      intro before logged within
      refine ih (before ++ [entry]) (by rw [logged, List.append_assoc]; rfl) ?_
      rw [itemsOf_append, authentic_append]
      by_cases sealed : ∃ frame, entry.taken = .item (.record frame) ∧
          frame ∈ (peer ++ own).map (sealedRecord sealChunk)
      · obtain ⟨frame, taken, known⟩ := sealed
        rw [authentic_of_mem taken known]
        refine concat_isPrefix within (Classical.byContradiction fun unexpected => ?_)
        have flagged : entry.Flagged := inOrder.flagged before entry after _ logged taken
          (fun other same => by cases same; exact unexpected)
        have member : entry ∈ session.log := by simp [logged]
        exact follows.not_flagged member taken ((ideal.opens_iff frame).mpr known) flagged
      · rw [authentic_of_not_mem (fun frame taken known => sealed ⟨frame, taken, known⟩),
          List.append_nil]
        exact within
  exact extend session.log [] rfl ⟨_, rfl⟩

theorem Follows.isPrefix : itemsOf session.log <+: items net.wire :=
  ⟨_, follows.parsed.symm⟩

end

end Session

/-- However the bytes of a wire arrive and are read, the items are taken off it in order. They are
read in the order of the peer exactly when the sealed records on the wire are the peer's, from
the first one on and in order; a record cut off by the end of the connection is never
reported as tampering. -/
theorem stream_integrity_iff (sealChunk : Nonce → Bytes → Bytes)
    (openSealed : Nonce → Bytes → Option Bytes) (peerNonces ownNonces : Nat → Nonce)
    (payloads ownPayloads : List Bytes)
    (ideal : Ideal sealChunk openSealed
      (sentRecords peerNonces payloads ++ sentRecords ownNonces ownPayloads))
    (net : Net) (punctual : net.Punctual) (plentiful : net.Plentiful) :
    let sent := sentRecords peerNonces payloads
    let peer := sent.map (sealedRecord sealChunk)
    let sealed := (sent ++ sentRecords ownNonces ownPayloads).map (sealedRecord sealChunk)
    let session (sizes : List Nat) := (Session.start net).reads openSealed sizes
    (∀ sizes, itemsOf (session sizes).log <+: items net.wire) ∧
      ((∀ sizes, (session sizes).InOrder peer sealed payloads.flatten) ↔
        authentic sealed (items net.wire) <+: peer) ∧
      ((∀ sizes, (session sizes).CutsFlagged) ↔
        (net.atEnd = some .closed → remains net.wire = [])) := by
  intro sent peer sealed session
  have follows (sizes : List Nat) : (session sizes).Follows openSealed net :=
    Session.follows_reads punctual sizes
  obtain ⟨enough, exhausted⟩ := Session.exists_exhausted openSealed punctual plentiful
  have all := (follows enough).parsed
  rw [exhausted.items, List.append_nil] at all
  refine ⟨fun sizes => (follows sizes).isPrefix, ⟨fun inOrder => ?_, fun initial sizes => ?_⟩,
    fun flagged closed => ?_, fun ends sizes entry member cut => ?_⟩
  · rw [all]
    exact (follows enough).initial ideal (inOrder enough)
  · rw [← flatten_sentRecords peerNonces]
    exact (follows sizes).inOrder ideal
      ((authentic_isPrefix sealed (follows sizes).isPrefix).trans initial)
  · rcases (follows enough).rest with ⟨same, _⟩ | ⟨_, ⟨entry, member, cut⟩, _⟩
    · rw [← same, exhausted.ended ((follows enough).later.atEnd.trans closed)]
      rfl
    · exact absurd (flagged enough entry member cut) ((follows enough).not_flagged_cut member cut)
  · rcases (follows sizes).rest with ⟨_, uncut⟩ | ⟨_, _, left, closed⟩
    · exact absurd cut (uncut entry member)
    · exact absurd (ends closed) left

/-! ## Two streams -/

def ledgerOpen (sealChunk : Nonce → Bytes → Bytes) (ledger : List (Nonce × Bytes)) (nonce : Nonce)
    (sealed : Bytes) : Option Bytes :=
  (ledger.find? (fun sent => decide (sent.1 = nonce ∧ sealed = sealChunk sent.1 sent.2))).map Prod.snd

theorem ideal_ledgerOpen {sealChunk : Nonce → Bytes → Bytes}
    (injective : ∀ nonce first second, sealChunk nonce first = sealChunk nonce second →
      first = second) (ledger : List (Nonce × Bytes)) :
    Ideal sealChunk (ledgerOpen sealChunk ledger) ledger := by
  intro nonce sealed plaintext
  unfold ledgerOpen
  constructor
  · intro opened
    obtain ⟨sent, found, rfl⟩ := Option.map_eq_some_iff.mp opened
    have matched := List.find?_some found
    obtain ⟨rfl, same⟩ := of_decide_eq_true matched
    exact ⟨List.mem_of_find?_eq_some found, same⟩
  · rintro ⟨member, same⟩
    cases found : ledger.find? (fun sent => decide (sent.1 = nonce ∧
        sealed = sealChunk sent.1 sent.2)) with
    | none =>
      have absent := List.find?_eq_none.mp found _ member
      simp [same] at absent
    | some sent =>
      have matched := List.find?_some found
      obtain ⟨rfl, also⟩ := of_decide_eq_true matched
      rw [Option.map_some, injective _ _ _ (also.symm.trans same)]

def padded : Nonce → Bytes → Bytes := paddingAEAD.sealChunk

theorem padded_injective (nonce : Nonce) (first second : Bytes)
    (same : padded nonce first = padded nonce second) : first = second :=
  List.append_cancel_right same

def twoWrites : List Bytes := [[1, 2], [3]]

def twoWritesOpen : Nonce → Bytes → Option Bytes :=
  ledgerOpen padded (sentRecords countedNonce twoWrites ++ sentRecords countedNonce [])

def forgedWire : Net :=
  ⟨frameOf ((countedNonce 0).val ++ (padded (countedNonce 0) [1, 2]).dropLast ++ [1]) ++
      writeChunks paddingAEAD (sentRecords countedNonce twoWrites),
    List.replicate 128 ⟨100, none⟩, some .closed⟩

def forgedFirst : Session := (Session.start forgedWire).reads twoWritesOpen [8, 8, 8, 8]

theorem stream_integrity_forged_first :
    forgedFirst.InOrder ((sentRecords countedNonce twoWrites).map (sealedRecord padded))
        ((sentRecords countedNonce twoWrites ++ sentRecords countedNonce []).map
          (sealedRecord padded)) twoWrites.flatten ∧
      forgedFirst.CutsFlagged ∧ forgedFirst.conn.tamperCount = 1 := by
  have ideal : Ideal padded twoWritesOpen
      (sentRecords countedNonce twoWrites ++ sentRecords countedNonce []) :=
    ideal_ledgerOpen padded_injective _
  have initial : authentic ((sentRecords countedNonce twoWrites ++
      sentRecords countedNonce []).map (sealedRecord padded)) (items forgedWire.wire) <+:
        (sentRecords countedNonce twoWrites).map (sealedRecord padded) := by decide +kernel
  have uncut : remains forgedWire.wire = [] := by decide +kernel
  have counted : forgedFirst.conn.tamperCount = 1 := by decide +kernel
  obtain ⟨_, inOrder, cuts⟩ := stream_integrity_iff padded twoWritesOpen countedNonce countedNonce
    twoWrites [] ideal forgedWire (by decide +kernel) (by decide +kernel)
  exact ⟨inOrder.mpr initial [8, 8, 8, 8], cuts.mpr (fun _ => uncut) [8, 8, 8, 8], counted⟩

def replayedWire : Net :=
  ⟨writeChunks paddingAEAD [(countedNonce 0, [1, 2]), (countedNonce 0, [1, 2])],
    List.replicate 4 ⟨100, none⟩, none⟩

def replayedFirst : Session := (Session.start replayedWire).reads twoWritesOpen [8, 8]

theorem replayed_record_accepted :
    Ideal padded twoWritesOpen (sentRecords countedNonce twoWrites ++ sentRecords countedNonce []) ∧
      replayedFirst.delivered = [1, 2, 1, 2] ∧ replayedFirst.conn.tamperCount = 0 ∧
      replayedFirst.results = [.data [1, 2], .data [1, 2]] ∧
      ¬ replayedFirst.InOrder ((sentRecords countedNonce twoWrites).map (sealedRecord padded))
        ((sentRecords countedNonce twoWrites ++ sentRecords countedNonce []).map
          (sealedRecord padded)) twoWrites.flatten := by
  have twice : replayedFirst.delivered = [1, 2, 1, 2] := by decide +kernel
  refine ⟨ideal_ledgerOpen padded_injective _, twice, by decide +kernel, by decide +kernel, ?_⟩
  intro inOrder
  have within := inOrder.delivered
  rw [twice] at within
  revert within
  decide

/-! ## Authenticity -/

/-- Whatever is put on the wire and however it arrives and is read, what is handed out or buffered
are the plaintexts of the sealed records among the items taken so far, all of them, whole and in
the order of the wire; enough reads take every item. -/
theorem reads_authentic (sealChunk : Nonce → Bytes → Bytes)
    (openSealed : Nonce → Bytes → Option Bytes) (ledger : List (Nonce × Bytes))
    (ideal : Ideal sealChunk openSealed ledger) (net : Net) (punctual : net.Punctual)
    (sizes : List Nat) :
    let session := (Session.start net).reads openSealed sizes
    ∃ taken opened, taken <+: items net.wire ∧ opened ⊆ ledger ∧
      opened.map (sealedRecord sealChunk) =
        authentic (ledger.map (sealedRecord sealChunk)) taken ∧
      session.delivered ++ session.conn.readBuf = (opened.map Prod.snd).flatten ∧
      ((∀ size ∈ sizes, 0 < size) → (Session.start net).effort openSealed ≤ sizes.length →
        (taken = items net.wire ∧ session.conn.readBuf = []) ∨
          (session.Starved ∧ ¬ net.Plentiful)) := by
  intro session
  have follows : session.Follows openSealed net := Session.follows_reads punctual sizes
  have preimage (frames : List Bytes) (sealed : ∀ frame ∈ frames,
      frame ∈ ledger.map (sealedRecord sealChunk)) :
      ∃ opened ⊆ ledger, opened.map (sealedRecord sealChunk) = frames := by
    induction frames with
    | nil => exact ⟨[], List.nil_subset _, rfl⟩
    | cons frame rest ih =>
      obtain ⟨sent, inLedger, rfl⟩ := List.mem_map.mp (sealed frame List.mem_cons_self)
      obtain ⟨opened, known, rfl⟩ := ih fun other member => sealed other (List.mem_cons_of_mem _ member)
      exact ⟨sent :: opened, List.cons_subset.mpr ⟨inLedger, known⟩, rfl⟩
  obtain ⟨opened, known, same⟩ := preimage
    (authentic (ledger.map (sealedRecord sealChunk)) (itemsOf session.log))
    fun _ member => of_decide_eq_true (List.mem_filter.mp member).2
  refine ⟨itemsOf session.log, opened, follows.isPrefix, known, same, ?_, fun positive enough => ?_⟩
  · rw [follows.delivered, ideal.plaintexts_authentic, ← same, ideal.plaintexts known]
  · rcases Session.exhausted_reads (Session.valid_start net) punctual positive enough with
      exhausted | starved
    · left
      have all := follows.parsed
      rw [exhausted.items, List.append_nil] at all
      exact ⟨all.symm, exhausted.drained⟩
    · exact .inr ⟨starved, Session.not_plentiful starved⟩

theorem reads_authentic_replayed :
    replayedFirst.delivered = [1, 2, 1, 2] ∧
      ∃ opened ⊆ sentRecords countedNonce twoWrites ++ sentRecords countedNonce [],
        replayedFirst.delivered ++ replayedFirst.conn.readBuf = (opened.map Prod.snd).flatten := by
  obtain ⟨_, opened, _, known, _, plain, _⟩ := reads_authentic padded twoWritesOpen _
    (ideal_ledgerOpen padded_injective _) replayedWire (by decide +kernel) [8, 8]
  exact ⟨by decide +kernel, opened, known, plain⟩

end ClusterRouter.Crypto
