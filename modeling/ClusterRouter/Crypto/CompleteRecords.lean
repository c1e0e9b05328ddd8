import ClusterRouter.Crypto.StreamEnd

/-! A call that reports an error, or waits, has handed out every record received whole, exactly
if no transport error comes together with the last byte of a record. -/

set_option autoImplicit false

namespace ClusterRouter.Crypto

open Foundation

def ReadResult.isFailure : ReadResult → Bool
  | .error .timeout => false
  | .error _ => true
  | _ => false

def ReadResult.isData : ReadResult → Bool
  | .data _ => true
  | _ => false

theorem ReadResult.eq_timeout {error : ReadError}
    (unfailed : (ReadResult.error error).isFailure = false) : error = .timeout := by
  cases error <;> first | rfl | cases unfailed

def cutWire (aead : AEAD) (records : List (Nonce × Bytes)) (cut : Nat) : Bytes :=
  (writeChunks aead records).take cut

namespace Session

theorem undisturbed_start (aead : AEAD) {records : List (Nonce × Bytes)}
    (bounded : ∀ sent ∈ records, sent.2.length ≤ maxFrame) (cut : Nat) (script : List Arrival)
    (atEnd : Option Fault) :
    Undisturbed aead (cutWire aead records cut) [] records
      (.start ⟨cutWire aead records cut, script, atEnd⟩) where
  valid := valid_start _
  bounded := bounded
  stream := List.take_prefix _ _
  position := Nat.zero_add _
  opened := rfl
  conserved := rfl
  tamperCount := rfl

/-- After the call every record received whole has been delivered, unless the call itself
delivers, and a stream received up to a record boundary has not been counted as tampered
with. -/
def Keeps (aead : AEAD) (records : List (Nonce × Bytes)) (wire : Bytes) (session : Session)
    (size : Nat) : Prop :=
  let after := session.read aead.openSealed size
  let received := wire.length - after.net.wire.length
  ((session.conn.read aead.openSealed session.net size).2.2.isData = true ∨
      after.Delivers aead records received) ∧
    (received = (writeChunks aead (wholeRecords records received)).length →
      after.conn.tamperCount = 0)

/-- The transport, asked by this call, returns an error together with the last byte of a
record. -/
def EndsRecordWithFault (session : Session) (size : Nat) : Prop :=
  session.asks size = true ∧ session.conn.faultEndsRecord session.net = true

instance (session : Session) (size : Nat) : Decidable (session.EndsRecordWithFault size) :=
  inferInstanceAs (Decidable (_ ∧ _))

variable {aead : AEAD} {wire : Bytes} {done remaining : List (Nonce × Bytes)} {before : Session}
  {size : Nat}

theorem Undisturbed.keeps_iff (undisturbed : Undisturbed aead wire done remaining before)
    (size : Nat) :
    before.Keeps aead (done ++ remaining) wire size ↔ ¬ before.EndsRecordWithFault size := by
  have outcome := undisturbed.outcome size
  unfold Keeps EndsRecordWithFault
  dsimp only
  generalize (before.conn.read aead.openSealed before.net size).2.2 = result at outcome
  generalize before.read aead.openSealed size = after at outcome
  -- A call that stops hands out nothing, and has received what it has used of the record.
  have stops {used : Nat} (halted : Halted aead wire done remaining before after used)
      (silent : result.isData = false) :
      (result.isData = true ∨
          after.Delivers aead (done ++ remaining) (wire.length - after.net.wire.length)) ↔
        before.conn.faultEndsRecord before.net = false := by
    have position := halted.position
    have received : wire.length - after.net.wire.length =
        (writeChunks aead done).length + used := by omega
    rw [received, ← halted.delivers_iff, silent]
    simp
  cases outcome with
  | data same next unpaired _ =>
    refine iff_of_true ⟨.inl rfl, fun _ => next.tamperCount⟩ ?_
    rintro ⟨asks, paired⟩
    rw [unpaired asks] at paired
    cases paired
  | wait asks waits next halted _ =>
    have silent : result.isData = false := by rcases waits with rfl | rfl <;> rfl
    rw [stops halted silent]
    simp [asks, next.tamperCount]
  | cutPrefix asks halted untampered _ _ =>
    rw [stops halted rfl]
    simp [asks, untampered]
  | @cutBody used asks halted tampered least _ =>
    rw [stops halted rfl]
    constructor
    · rintro ⟨short, _⟩ ⟨_, paired⟩
      rw [short] at paired
      cases paired
    · intro unpaired
      have short : before.conn.faultEndsRecord before.net = false := by
        simpa [asks] using unpaired
      refine ⟨short, fun boundary => ?_⟩
      have position := halted.position
      have received : wire.length - after.net.wire.length =
          (writeChunks aead done).length + used := by omega
      rw [received, halted.boundary_iff short] at boundary
      omega

end Session

/-- Whatever the peer sent and wherever the stream is cut off, a call before which nothing
but deadlines was reported has delivered what was received whole, exactly if the
transport does not answer it with an error that comes with the last byte of a record. -/
theorem complete_records_delivered_iff (aead : AEAD) (nonces : Nat → Nonce)
    (payloads : List Bytes) (cut : Nat) (script : List Arrival) (atEnd : Option Fault)
    (sizes : List Nat) (size : Nat) :
    let records := sentRecords nonces payloads
    let wire := cutWire aead records cut
    let session := (Session.start ⟨wire, script, atEnd⟩).reads aead.openSealed sizes
    (∀ result ∈ session.results, result.isFailure = false) →
      (session.Keeps aead records wire size ↔ ¬ session.EndsRecordWithFault size) := by
  intro records wire session deadlines
  have start := Session.undisturbed_start aead (sentRecords_bounded nonces payloads) cut script atEnd
  obtain ⟨done, remaining, same, undisturbed⟩ := start.reads
    (fun error reported => ReadResult.eq_timeout (deadlines _ reported))
  rw [List.nil_append] at same
  have exact := undisturbed.keeps_iff size
  rwa [← same] at exact

def oneWrite : List Bytes := [[1, 2, 3]]

def endAlone : List Arrival := [⟨4, none⟩, ⟨20, some .timeout⟩, ⟨11, none⟩]

theorem complete_record_delivered_end_alone :
    let wire := cutWire paddingAEAD (sentRecords countedNonce oneWrite) 35
    let session := (Session.start ⟨wire, endAlone, some .closed⟩).reads paddingAEAD.openSealed [8, 8]
    session.delivered = [1, 2, 3] ∧
      session.Keeps paddingAEAD (sentRecords countedNonce oneWrite) wire 8 := by
  have deadlines : ∀ result ∈ ((Session.start
      ⟨cutWire paddingAEAD (sentRecords countedNonce oneWrite) 35, endAlone, some .closed⟩).reads
        paddingAEAD.openSealed [8, 8]).results, result.isFailure = false := by decide +kernel
  refine ⟨by decide +kernel, ?_⟩
  exact (complete_records_delivered_iff paddingAEAD countedNonce oneWrite 35 endAlone (some .closed)
    [8, 8] 8 deadlines).mpr (by decide +kernel)

def endWithRecord : List Arrival := [⟨4, none⟩, ⟨31, some .closed⟩]

theorem complete_record_lost :
    let wire := cutWire paddingAEAD (sentRecords countedNonce oneWrite) 35
    let session := (Session.start ⟨wire, endWithRecord, some .closed⟩).read paddingAEAD.openSealed 8
    wire = writeChunks paddingAEAD (sentRecords countedNonce oneWrite) ∧ session.net.wire = [] ∧
      session.results = [.error (.shortFrame .closed)] ∧ session.opened = [] ∧
      session.conn.tamperCount = 1 ∧
      ¬ (Session.start ⟨wire, endWithRecord, some .closed⟩).Keeps paddingAEAD
        (sentRecords countedNonce oneWrite) wire 8 := by
  refine ⟨by decide +kernel, by decide +kernel, by decide +kernel, by decide +kernel,
    by decide +kernel, ?_⟩
  intro keeps
  have untampered := keeps.2 (by decide +kernel)
  revert untampered
  decide +kernel

end ClusterRouter.Crypto
