import ClusterRouter.Crypto.CompleteRecords

/-! A stream of records cut off after any byte. The first call of `Read` that reports more than
a deadline meets the cut, and classifies it unless it is hidden from it. -/

set_option autoImplicit false

namespace ClusterRouter.Crypto

open Foundation

/-- The errors that wrap the transport's own; at the end of a stream that is `io.EOF`. -/
def ReadError.matchesEOF : ReadError → Bool
  | .readLength .closed => true
  | .shortFrame .closed => true
  | _ => false

def ReadError.isShortFrame : ReadError → Bool
  | .shortFrame _ => true
  | _ => false

namespace Session

/-- The transport reports its end only once no byte is left. -/
def endsAtCut (openSealed : Nonce → Bytes → Option Bytes) : Session → List Nat → Bool
  | _, [] => true
  | session, size :: rest =>
    (!(session.conn.read openSealed session.net size).2.2.isFailure ||
        (session.read openSealed size).net.wire.isEmpty) &&
      endsAtCut openSealed (session.read openSealed size) rest

/-- The outcome the cut demands: what came before it is delivered, a cut on a record
boundary is the end of the stream, and any other is counted as a truncation. -/
def Classifies (aead : AEAD) (records : List (Nonce × Bytes)) (length : Nat) (error : ReadError)
    (session : Session) : Prop :=
  session.Delivers aead records length ∧
    (length = (writeChunks aead (wholeRecords records length)).length →
      error.matchesEOF = true ∧ session.conn.tamperCount = 0) ∧
    (length ≠ (writeChunks aead (wholeRecords records length)).length →
      (error.isShortFrame = true ∨ error.isTampered = true) ∧ session.conn.tamperCount = 1)

/-- The cut leaves one to three bytes of a length prefix, or the end of the stream comes
together with the last byte of a length prefix or of a record. -/
def HidesCut (session : Session) : Prop :=
  (0 < (session.conn.stream session.net).length ∧ (session.conn.stream session.net).length < 4) ∨
    session.conn.faultEndsPrefix session.net = true ∨
    session.conn.faultEndsRecord session.net = true

instance (session : Session) : Decidable session.HidesCut :=
  inferInstanceAs (Decidable (_ ∨ _ ∨ _))

variable {aead : AEAD} {wire : Bytes} {done remaining : List (Nonce × Bytes)}
  {before after : Session} {size : Nat}

theorem Undisturbed.classifies_iff (undisturbed : Undisturbed aead wire done remaining before)
    {error : ReadError}
    (reported : (before.conn.read aead.openSealed before.net size).2.2 = .error error)
    (failed : error ≠ .timeout) (ended : (before.read aead.openSealed size).net.wire = []) :
    (before.read aead.openSealed size).Classifies aead (done ++ remaining) wire.length error ↔
      ¬ before.HidesCut := by
  have outcome := undisturbed.outcome size
  rw [reported] at outcome
  generalize before.read aead.openSealed size = after at outcome ended
  unfold Classifies HidesCut
  cases outcome with
  | wait _ waits => simp [failed] at waits
  | @cutPrefix used _ halted untampered most paired =>
    have position := halted.position
    have stream := halted.stream
    rw [ended, List.length_nil, Nat.add_zero] at position stream
    have unpaired : before.conn.faultEndsRecord before.net = false := by
      rw [← Bool.not_eq_true, halted.whole]
      rintro ⟨sent, _, _, whole⟩
      have positive := recordSize_pos sent
      omega
    rw [← position, ne_eq, halted.delivers_iff, halted.boundary_iff unpaired, stream, paired,
      unpaired, untampered]
    by_cases unused : used = 0
    · simp [unused, ReadError.matchesEOF]
    · simp [unused, ReadError.isShortFrame, ReadError.isTampered]
      omega
  | @cutBody used _ halted tampered least notPrefix =>
    have position := halted.position
    have stream := halted.stream
    rw [ended, List.length_nil, Nat.add_zero] at position stream
    rw [← position, halted.delivers_iff, stream, notPrefix, tampered]
    cases paired : before.conn.faultEndsRecord before.net with
    | true => simp
    | false =>
      have inside : used ≠ 0 := by omega
      have long : ¬ used < 4 := by omega
      rw [ne_eq, halted.boundary_iff paired]
      simp [inside, long, ReadError.isShortFrame]

/-- The call of `first` reads, then one of `size` bytes, that meets the end of the stream. -/
structure MeetsEnd (aead : AEAD) (session : Session) (first : List Nat) (size : Nat)
    (error : ReadError) : Prop where
  deadlines : ∀ result ∈ (session.reads aead.openSealed first).results, result.isFailure = false
  reported : ((session.reads aead.openSealed first).conn.read aead.openSealed
    (session.reads aead.openSealed first).net size).2.2 = .error error
  failed : error ≠ .timeout

theorem isFailure_read {openSealed : Nonce → Bytes → Option Bytes} {session : Session}
    (deadlines : ∀ result ∈ session.results, result.isFailure = false)
    (unfailed : (session.conn.read openSealed session.net size).2.2.isFailure = false) :
    ∀ result ∈ (session.read openSealed size).results, result.isFailure = false :=
  List.forall_mem_append.mpr ⟨deadlines, List.forall_mem_singleton.mpr unfailed⟩

/-- With a read to spare, the end of the stream is met: every read before it hands out
plaintext or uses up an arrival. -/
theorem Undisturbed.meetsEnd (undisturbed : Undisturbed aead wire done remaining before)
    {sizes : List Nat} (positive : ∀ size ∈ sizes, 0 < size)
    (enough : before.workload remaining < sizes.length) (atEnd : before.net.atEnd = some .closed)
    (deadlines : ∀ result ∈ before.results, result.isFailure = false)
    (honest : before.endsAtCut aead.openSealed sizes = true) :
    (∃ first size rest error, sizes = first ++ size :: rest ∧
        before.MeetsEnd aead first size error ∧
        ((before.reads aead.openSealed first).read aead.openSealed size).net.wire = []) ∨
      (before.reads aead.openSealed sizes).Starved := by
  induction sizes generalizing before done remaining with
  | nil => exact absurd enough (Nat.not_lt_zero _)
  | cons size rest ih =>
    have outcome := undisturbed.outcome size
    obtain ⟨_, _, step⟩ := reads_read undisturbed.valid size aead.openSealed
    simp only [endsAtCut, Bool.and_eq_true, Bool.or_eq_true, Bool.not_eq_true',
      List.isEmpty_iff] at honest
    -- A call that does not meet the end leaves less to do.
    have onward {opened left : List (Nonce × Bytes)}
        (next : Undisturbed aead wire opened left (before.read aead.openSealed size))
        (less : (before.read aead.openSealed size).workload left < before.workload remaining)
        (unfailed : (before.conn.read aead.openSealed before.net size).2.2.isFailure = false) :
        (∃ first last rest' error, size :: rest = first ++ last :: rest' ∧
            before.MeetsEnd aead first last error ∧
            ((before.reads aead.openSealed first).read aead.openSealed last).net.wire = []) ∨
          (before.reads aead.openSealed (size :: rest)).Starved := by
      rw [List.length_cons] at enough
      refine (ih next (fun other member => positive other (List.mem_cons_of_mem _ member))
        (by omega) (step.later.atEnd.trans atEnd) (isFailure_read deadlines unfailed)
        honest.2).imp_left ?_
      rintro ⟨first, last, rest', error, same, meets, empty⟩
      exact ⟨size :: first, last, rest', error, by rw [same, List.cons_append],
        ⟨meets.deadlines, meets.reported, meets.failed⟩, empty⟩
    -- A call that fails meets it.
    have here {error : ReadError}
        (reported : (before.conn.read aead.openSealed before.net size).2.2 = .error error)
        (failed : error ≠ .timeout) :
        ∃ first last rest' error, size :: rest = first ++ last :: rest' ∧
          before.MeetsEnd aead first last error ∧
          ((before.reads aead.openSealed first).read aead.openSealed last).net.wire = [] := by
      refine ⟨[], size, rest, error, rfl, ⟨deadlines, reported, failed⟩, ?_⟩
      refine honest.1.resolve_left ?_
      rw [reported]
      intro unfailed
      exact failed (ReadResult.eq_timeout unfailed)
    generalize reported : (before.conn.read aead.openSealed before.net size).2.2 = result
      at outcome
    cases outcome with
    | data _ next _ less =>
      exact onward next (less (positive size List.mem_cons_self)) (by rw [reported]; rfl)
    | wait _ waits next _ progress =>
      rcases progress with less | ⟨used, unended⟩
      · refine onward next less ?_
        rw [reported]
        rcases waits with rfl | rfl <;> rfl
      · right
        exact reads_invariant Starved (fun _ _ _ _ _ step => step.starved) undisturbed.valid
          ⟨used, fun arrived => unended arrived atEnd⟩ (size :: rest)
    | cutPrefix | cutBody => exact .inl (here reported (by simp))

end Session

theorem workload_start (nonces : Nat → Nonce) (payloads : List Bytes) (net : Net) :
    (Session.start net).workload (sentRecords nonces payloads) =
      net.script.length + payloads.flatten.length + (sentRecords nonces payloads).length := by
  rw [Session.workload, sum_lengths, flatten_sentRecords]
  simp only [Session.start, WrapConn.fresh, List.length_nil]
  omega

def cutArrivals : List Arrival :=
  [⟨4, none⟩, ⟨31, none⟩, ⟨2, some .timeout⟩] ++ List.replicate 43 ⟨2, none⟩

def cutInBody : Session :=
  .start ⟨cutWire paddingAEAD (sentRecords countedNonce [[1, 2, 3], [4]]) 46, cutArrivals,
    some .closed⟩

def cutInPrefix : Session :=
  .start ⟨cutWire paddingAEAD (sentRecords countedNonce oneWrite) 2, [⟨2, none⟩], some .closed⟩

end ClusterRouter.Crypto
