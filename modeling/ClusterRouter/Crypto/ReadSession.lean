import ClusterRouter.Crypto.WrapProperties

/-! The calls of `Read` on one connection, with what the caller was given and what was taken off
the stream on the way. As long as the connection fails only at its end, the reads take the items
of the wire one by one from the first on, and enough of them take all. -/

set_option autoImplicit false

namespace ClusterRouter.Crypto

open Foundation

def ReadResult.bytes : ReadResult → Bytes
  | .data bytes => bytes
  | _ => []

/-- Something taken off the stream, the result of that read, and whether the read moved
the tamper counter. -/
structure Entry where
  taken : Taken
  result : ReadResult
  counted : Bool
  deriving DecidableEq, Repr

structure Session where
  conn : WrapConn
  net : Net
  delivered : Bytes
  results : List ReadResult
  log : List Entry
  deriving DecidableEq, Repr

namespace Session

def start (net : Net) : Session := ⟨.fresh, net, [], [], []⟩

def read (openSealed : Nonce → Bytes → Option Bytes) (session : Session) (size : Nat) : Session :=
  let (conn, net, result) := session.conn.read openSealed session.net size
  let counted := decide (conn.tamperCount = session.conn.tamperCount + 1)
  { conn
    net
    delivered := session.delivered ++ result.bytes
    results := session.results ++ [result]
    log := session.log ++
      (session.conn.takes session.net size).toList.map (fun taken => ⟨taken, result, counted⟩) }

def reads (openSealed : Nonce → Bytes → Option Bytes) (session : Session) (sizes : List Nat) :
    Session :=
  sizes.foldl (read openSealed) session

variable {session : Session}

structure Reads (openSealed : Nonce → Bytes → Option Bytes) (size : Nat) (before after : Session)
    (result : ReadResult) (taken : Option Taken) : Prop where
  turn : Turn openSealed size before.conn before.net after.conn after.net result taken
  valid : after.conn.Valid
  later : before.net.Later after.net
  delivered : after.delivered = before.delivered ++ result.bytes
  results : after.results = before.results ++ [result]
  log : after.log = before.log ++ taken.toList.map (fun taken =>
    ⟨taken, result, decide (after.conn.tamperCount = before.conn.tamperCount + 1)⟩)

theorem reads_read (valid : session.conn.Valid) (size : Nat)
    (openSealed : Nonce → Bytes → Option Bytes) :
    ∃ result taken, Reads openSealed size session (session.read openSealed size) result taken := by
  obtain ⟨turn, nextValid, later⟩ := WrapConn.read_turn valid session.net size openSealed
  exact ⟨_, _, turn, nextValid, later, rfl, rfl, rfl⟩

theorem valid_start (net : Net) : (start net).conn.Valid :=
  ⟨Nat.zero_le _, fun _ same => by cases same⟩

theorem reads_invariant {openSealed : Nonce → Bytes → Option Bytes} (invariant : Session → Prop)
    (preserved : ∀ before after size result taken, Reads openSealed size before after result taken →
      invariant before → invariant after) (valid : session.conn.Valid) (start : invariant session)
    (sizes : List Nat) : invariant (session.reads openSealed sizes) := by
  induction sizes generalizing session with
  | nil => exact start
  | cons size rest ih =>
    obtain ⟨result, taken, step⟩ := reads_read valid size openSealed
    exact ih step.valid (preserved _ _ _ _ _ step start)

theorem later_reads (valid : session.conn.Valid) (openSealed : Nonce → Bytes → Option Bytes)
    (sizes : List Nat) :
    session.net.Later (session.reads openSealed sizes).net :=
  reads_invariant (fun final => session.net.Later final.net)
    (fun _ _ _ _ _ step later => later.trans step.later) valid (.refl _) sizes

end Session

/-! ## The items of the wire -/

def Taken.items : Taken → List Item
  | .item thing => [thing]
  | .cut => []

def itemsOf (log : List Entry) : List Item := log.flatMap (fun entry => entry.taken.items)

def plaintexts (openSealed : Nonce → Bytes → Option Bytes) (items : List Item) : List Bytes :=
  items.filterMap (fun item => (item.opens openSealed).toOption)

def Item.effort (openSealed : Nonce → Bytes → Option Bytes) (item : Item) : Nat :=
  match item.opens openSealed with
  | .ok plaintext => plaintext.length + 1
  | .error _ => 1

theorem Item.effort_pos (openSealed : Nonce → Bytes → Option Bytes) (item : Item) :
    0 < item.effort openSealed := by
  unfold Item.effort
  split <;> omega

theorem itemsOf_append (first second : List Entry) :
    itemsOf (first ++ second) = itemsOf first ++ itemsOf second :=
  List.flatMap_append

theorem plaintexts_append (openSealed : Nonce → Bytes → Option Bytes) (first second : List Item) :
    plaintexts openSealed (first ++ second) =
      plaintexts openSealed first ++ plaintexts openSealed second :=
  List.filterMap_append

namespace Session

/-- How a read answers what it takes off the stream. -/
def Judged (openSealed : Nonce → Bytes → Option Bytes) (entry : Entry) : Prop :=
  match entry.taken with
  | .item item =>
    match item.opens openSealed with
    | .error error => entry.result = .error error ∧ entry.counted = true
    | .ok _ => (∃ bytes, entry.result = .data bytes) ∧ entry.counted = false
  | .cut => ∃ fault, entry.result = .error (.readLength fault) ∨
      entry.result = .error (.shortFrame fault)

/-- The arrivals have been used up and bytes are left. -/
def Starved (session : Session) : Prop := session.net.script = [] ∧ session.net.wire ≠ []

/-- All has been handed out, and the end of the connection, if it ends, has been met. -/
structure Exhausted (session : Session) : Prop where
  drained : session.conn.readBuf = []
  items : items (session.conn.stream session.net) = []
  ended : session.net.atEnd = some .closed → session.conn.stream session.net = []

/-- The reads it takes at most: each uses up an arrival, hands out plaintext, takes an item or
meets the end inside of one. -/
def effort (openSealed : Nonce → Bytes → Option Bytes) (session : Session) : Nat :=
  session.net.script.length + session.conn.readBuf.length +
    ((items (session.conn.stream session.net)).map (Item.effort openSealed)).sum +
    (if remains (session.conn.stream session.net) = [] then 0 else 1)

/-- Where a reader stands that began with `net`. -/
structure Follows (openSealed : Nonce → Bytes → Option Bytes) (net : Net) (session : Session) :
    Prop where
  later : net.Later session.net
  parsed : Crypto.items net.wire =
    itemsOf session.log ++ Crypto.items (session.conn.stream session.net)
  rest : (remains (session.conn.stream session.net) = remains net.wire ∧
      ∀ entry ∈ session.log, entry.taken ≠ .cut) ∨
    (session.conn.stream session.net = [] ∧ (∃ entry ∈ session.log, entry.taken = .cut) ∧
      remains net.wire ≠ [] ∧ net.atEnd = some .closed)
  judged : ∀ entry ∈ session.log, Judged openSealed entry
  delivered : session.delivered ++ session.conn.readBuf =
    (plaintexts openSealed (itemsOf session.log)).flatten
  errors : ∀ error, .error error ∈ session.results → error = .timeout ∨
    (error = .readLength .closed ∧ session.Exhausted) ∨
    ∃ entry ∈ session.log, entry.result = .error error
  tamperCount : session.conn.tamperCount = session.log.countP Entry.counted

variable {openSealed : Nonce → Bytes → Option Bytes} {session before after : Session} {size : Nat}
  {result : ReadResult} {taken : Option Taken} {net : Net}

theorem exhausted_of_ended (drained : session.conn.readBuf = [])
    (ended : session.conn.stream session.net = []) : session.Exhausted :=
  ⟨drained, ended ▸ rfl, fun _ => ended⟩

theorem follows_start (net : Net) : Follows openSealed net (start net) where
  later := .refl net
  parsed := rfl
  rest := .inl ⟨rfl, by simp [start]⟩
  judged := by simp [start]
  delivered := rfl
  errors := by simp [start]
  tamperCount := rfl

section

variable (step : Reads openSealed size before after result taken)

include step

theorem Reads.starved (starved : before.Starved) : after.Starved := by
  unfold Starved
  rw [step.later.idle starved.1]
  exact starved

theorem Reads.exhausted (punctual : before.net.Punctual) (exhausted : before.Exhausted) :
    after.Exhausted := by
  have silent := nextItem_of_items exhausted.items
  have stays (drained : after.conn.readBuf = [])
      (streams : after.conn.stream after.net = before.conn.stream before.net) : after.Exhausted :=
    ⟨drained, streams ▸ exhausted.items, fun closed =>
      streams.trans (exhausted.ended (step.later.atEnd ▸ closed))⟩
  cases step.turn with
  | empty _ streams kept _ => exact stays (kept.trans exhausted.drained) streams
  | drain held => exact absurd exhausted.drained held
  | wait _ _ _ streams still _ => exact stays still streams
  | rejected first | opened first =>
    rw [silent] at first
    cases first
  | cutPrefix _ cut _ streams still _ =>
    exact exhausted_of_ended still (streams.trans (cut punctual).2.1)
  | cutBody cut _ streams still _ =>
    exact exhausted_of_ended still (streams.trans (cut punctual).2.2.1)

theorem Reads.effort_lt (punctual : before.net.Punctual) (positive : 0 < size) :
    after.effort openSealed < before.effort openSealed ∨ after.Exhausted ∨ before.Starved := by
  have fewer := step.later.script_le
  cases step.turn with
  | empty zero => omega
  | drain held streams drains _ =>
    left
    have buffered : 0 < before.conn.readBuf.length := List.length_pos_iff.mpr held
    simp only [effort, streams, drains, List.length_drop]
    omega
  | wait _ progress drained streams still _ =>
    rcases progress with less | ⟨used, idle⟩
    · left
      simp only [effort, streams, drained, still]
      omega
    · by_cases arrived : before.net.wire = []
      · obtain ⟨ended, unended⟩ := idle arrived
        refine .inr (.inl (step.exhausted punctual ⟨drained, (items_of_none ended).1, ?_⟩))
        exact fun closed => absurd closed unended
      · exact .inr (.inr ⟨used, arrived⟩)
  | rejected first opens drained still _ =>
    left
    obtain ⟨parsed, rest⟩ := items_of_nextItem first
    simp only [effort, parsed, rest, drained, still, List.map_cons, List.sum_cons, Item.effort, opens]
    omega
  | opened first opens drained fills _ =>
    left
    obtain ⟨parsed, rest⟩ := items_of_nextItem first
    simp only [effort, parsed, rest, drained, fills, List.map_cons, List.sum_cons, Item.effort, opens,
      List.length_drop, List.length_nil]
    omega
  | cutPrefix _ cut _ streams still _ =>
    exact .inr (.inl (exhausted_of_ended still (streams.trans (cut punctual).2.1)))
  | cutBody cut _ streams still _ =>
    exact .inr (.inl (exhausted_of_ended still (streams.trans (cut punctual).2.2.1)))

private theorem Follows.extend (follows : Follows openSealed net before) (punctual : net.Punctual)
    (parsed : items (before.conn.stream before.net) =
      taken.toList.flatMap Taken.items ++ items (after.conn.stream after.net))
    (rest : (remains (after.conn.stream after.net) = remains (before.conn.stream before.net) ∧
        taken ≠ some .cut) ∨
      (after.conn.stream after.net = [] ∧ taken = some .cut ∧
        remains (before.conn.stream before.net) ≠ [] ∧ before.net.atEnd = some .closed))
    (judged : ∀ thing, taken = some thing → Judged openSealed
      ⟨thing, result, decide (after.conn.tamperCount = before.conn.tamperCount + 1)⟩)
    (balanced : result.bytes ++ after.conn.readBuf = before.conn.readBuf ++
      (plaintexts openSealed (taken.toList.flatMap Taken.items)).flatten)
    (reported : ∀ error, result = .error error → error = .timeout ∨
      (error = .readLength .closed ∧ after.Exhausted) ∨ ∃ thing, taken = some thing)
    (tampers : after.conn.tamperCount = before.conn.tamperCount ∨
      (after.conn.tamperCount = before.conn.tamperCount + 1 ∧ ∃ thing, taken = some thing)) :
    Follows openSealed net after := by
  have grown : itemsOf after.log = itemsOf before.log ++ taken.toList.flatMap Taken.items := by
    rw [step.log, itemsOf_append]
    cases taken <;> rfl
  have logged (thing : Taken) (isTaken : taken = some thing) :
      ⟨thing, result, decide (after.conn.tamperCount = before.conn.tamperCount + 1)⟩ ∈ after.log := by
    rw [step.log, isTaken]
    simp
  have kept (entry : Entry) (member : entry ∈ before.log) : entry ∈ after.log := by
    rw [step.log]
    exact List.mem_append_left _ member
  have known (entry : Entry) (member : entry ∈ after.log) : entry ∈ before.log ∨
      ∃ thing, taken = some thing ∧ entry =
        ⟨thing, result, decide (after.conn.tamperCount = before.conn.tamperCount + 1)⟩ := by
    rw [step.log, List.mem_append, List.mem_map] at member
    exact member.imp_right fun ⟨thing, new, same⟩ => ⟨thing, Option.mem_toList.mp new, same.symm⟩
  refine ⟨follows.later.trans step.later, ?_, ?_, ?_, ?_, ?_, ?_⟩
  · rw [follows.parsed, parsed, grown, List.append_assoc]
  · rcases follows.rest with ⟨same, uncut⟩ | ⟨ended, ⟨entry, member, cut⟩, others⟩
    · rcases rest with ⟨still, notCut⟩ | ⟨ends, cut, left, closed⟩
      · refine .inl ⟨still.trans same, fun entry member => ?_⟩
        rcases known entry member with old | ⟨thing, isTaken, rfl⟩
        · exact uncut entry old
        · rintro rfl
          exact notCut isTaken
      · exact .inr ⟨ends, ⟨_, logged _ cut, rfl⟩, same ▸ left, follows.later.atEnd ▸ closed⟩
    · refine .inr ⟨?_, ⟨entry, kept entry member, cut⟩, others⟩
      rcases rest with ⟨still, _⟩ | ⟨ends, _⟩
      · rw [ended] at still parsed
        have silent := nextItem_of_items (List.append_eq_nil_iff.mp parsed.symm).2
        rw [(items_of_none silent).2] at still
        exact still
      · exact ends
  · intro entry member
    rcases known entry member with old | ⟨thing, isTaken, rfl⟩
    · exact follows.judged entry old
    · exact judged thing isTaken
  · rw [step.delivered, List.append_assoc, balanced, ← List.append_assoc, follows.delivered, grown,
      plaintexts_append, List.flatten_append]
  · intro error member
    rw [step.results, List.mem_append, List.mem_singleton] at member
    rcases member with old | new
    · rcases follows.errors error old with deadline | ⟨closed, exhausted⟩ | ⟨entry, inLog, same⟩
      · exact .inl deadline
      · exact .inr (.inl ⟨closed, step.exhausted (follows.later.punctual punctual) exhausted⟩)
      · exact .inr (.inr ⟨entry, kept entry inLog, same⟩)
    · exact (reported error new.symm).imp_right
        (Or.imp_right fun ⟨thing, isTaken⟩ => ⟨_, logged thing isTaken, new.symm⟩)
  · rw [step.log, List.countP_append, ← follows.tamperCount]
    rcases tampers with same | ⟨one, thing, isTaken⟩
    · rw [same]
      cases taken <;> simp
    · rw [one, isTaken]
      simp

theorem Follows.read (follows : Follows openSealed net before) (punctual : net.Punctual) :
    Follows openSealed net after := by
  have onTime := follows.later.punctual punctual
  cases step.turn with
  | empty _ streams kept tampers =>
    refine follows.extend step punctual ?_ (.inl ?_) (by simp) ?_ (by simp) (.inl tampers)
    · rw [streams]
      rfl
    · simp [streams]
    · simp [kept, ReadResult.bytes, plaintexts]
  | drain held streams drains tampers =>
    refine follows.extend step punctual ?_ (.inl ?_) (by simp) ?_ (by simp) (.inl tampers)
    · rw [streams]
      rfl
    · simp [streams]
    · simp [drains, ReadResult.bytes, plaintexts]
  | wait waits progress drained streams still tampers =>
    refine follows.extend step punctual ?_ (.inl ?_) (by simp) ?_ ?_ (.inl tampers)
    · rw [streams]
      rfl
    · simp [streams]
    · rcases waits with rfl | rfl <;> simp [drained, still, ReadResult.bytes, plaintexts]
    · rcases waits with rfl | rfl <;> simp
  | @rejected item error first opens drained still tampers =>
    obtain ⟨parsed, rest⟩ := items_of_nextItem first
    refine follows.extend step punctual parsed (.inl ⟨rest.symm, by simp⟩) ?_ ?_ (by simp)
      (.inr ⟨tampers, _, rfl⟩)
    · rintro thing ⟨⟩
      simp [Judged, opens, tampers]
    · simp [drained, still, ReadResult.bytes, plaintexts, Taken.items, opens, Except.toOption]
  | @opened plaintext item first opens drained fills tampers =>
    obtain ⟨parsed, rest⟩ := items_of_nextItem first
    refine follows.extend step punctual parsed (.inl ⟨rest.symm, by simp⟩) ?_ ?_ (by simp)
      (.inl tampers)
    · rintro thing ⟨⟩
      simp [Judged, opens, tampers]
    · simp [drained, fills, ReadResult.bytes, plaintexts, Taken.items, opens, Except.toOption]
  | cutPrefix cuts cut drained streams still tampers =>
    obtain ⟨short, empty, closed⟩ := cut onTime
    have ended : after.conn.stream after.net = [] := streams.trans empty
    have silent : nextItem (before.conn.stream before.net) = none := by
      rw [nextItem, if_pos short]
    obtain ⟨parsed, rest⟩ := items_of_none silent
    rw [empty, List.length_nil] at cuts
    have uncounted : taken.toList.flatMap Taken.items = [] := by
      rw [cuts]
      split <;> rfl
    refine follows.extend step punctual ?_ ?_ ?_ ?_ ?_ (.inl tampers)
    · rw [parsed, uncounted, ended]
      rfl
    · rw [rest, cuts]
      by_cases nothing : before.conn.stream before.net = []
      · simp [ended, nothing, remains, itemsWithin]
      · simp [ended, nothing, closed]
    · intro thing isTaken
      rw [cuts] at isTaken
      split at isTaken <;> cases isTaken
      exact ⟨_, .inl rfl⟩
    · simp [drained, still, ReadResult.bytes, uncounted, plaintexts]
    · rintro error ⟨⟩
      exact .inr (.inl ⟨rfl, exhausted_of_ended still ended⟩)
  | cutBody cut drained streams still tampers =>
    obtain ⟨silent, long, empty, closed⟩ := cut onTime
    have ended : after.conn.stream after.net = [] := streams.trans empty
    obtain ⟨parsed, rest⟩ := items_of_none silent
    refine follows.extend step punctual ?_ (.inr ⟨ended, rfl, ?_, closed⟩) ?_ ?_ (by simp)
      (.inr ⟨tampers, _, rfl⟩)
    · rw [parsed, ended]
      rfl
    · rw [rest]
      rintro nothing
      rw [nothing] at long
      cases long
    · rintro thing ⟨⟩
      exact ⟨_, .inr rfl⟩
    · simp [drained, still, ReadResult.bytes, plaintexts, Taken.items]

end

theorem follows_reads (punctual : net.Punctual) (sizes : List Nat) :
    Follows openSealed net ((start net).reads openSealed sizes) :=
  reads_invariant (Follows openSealed net)
    (fun _ _ _ _ _ step follows => follows.read step punctual) (valid_start net)
    (follows_start net) sizes

private theorem exhausted_of_effort (spent : session.effort openSealed = 0) : session.Exhausted := by
  obtain ⟨⟨⟨_, drained⟩, taken⟩, left⟩ : ((session.net.script = [] ∧ session.conn.readBuf = []) ∧
      ((items (session.conn.stream session.net)).map (Item.effort openSealed)).sum = 0) ∧
      remains (session.conn.stream session.net) = [] := by
    simpa [effort] using spent
  have silent : items (session.conn.stream session.net) = [] := by
    cases shape : items (session.conn.stream session.net) with
    | nil => rfl
    | cons item rest =>
      have positive := item.effort_pos openSealed
      rw [shape, List.map_cons, List.sum_cons] at taken
      omega
  refine ⟨drained, silent, fun _ => ?_⟩
  rw [← left, (items_of_none (nextItem_of_items silent)).2]

theorem Follows.conserved (follows : Follows openSealed net session) :
    session.delivered ++ session.conn.readBuf ++
        (plaintexts openSealed (items (session.conn.stream session.net))).flatten =
      (plaintexts openSealed (items net.wire)).flatten := by
  rw [follows.delivered, follows.parsed, plaintexts_append, List.flatten_append]

/-- Enough reads hand out all there is, unless the arrivals do not suffice. -/
theorem exhausted_reads (valid : session.conn.Valid) (punctual : session.net.Punctual)
    {sizes : List Nat} (positive : ∀ size ∈ sizes, 0 < size)
    (enough : session.effort openSealed ≤ sizes.length) :
    (session.reads openSealed sizes).Exhausted ∨ (session.reads openSealed sizes).Starved := by
  induction sizes generalizing session with
  | nil => exact .inl (exhausted_of_effort (Nat.le_zero.mp enough))
  | cons size rest ih =>
    obtain ⟨result, taken, step⟩ := reads_read valid size openSealed
    have onTime := step.later.punctual punctual
    rcases step.effort_lt punctual (positive size List.mem_cons_self) with less | done | starved
    · refine ih step.valid onTime
        (fun other member => positive other (List.mem_cons_of_mem _ member)) ?_
      rw [List.length_cons] at enough
      omega
    · left
      exact (reads_invariant (fun final => final.net.Punctual ∧ final.Exhausted)
        (fun _ _ _ _ _ next state =>
          ⟨next.later.punctual state.1, next.exhausted state.1 state.2⟩)
        step.valid ⟨onTime, done⟩ rest).2
    · right
      exact reads_invariant Starved (fun _ _ _ _ _ next => next.starved) step.valid
        (step.starved starved) rest

theorem not_plentiful {sizes : List Nat}
    (starved : ((start net).reads openSealed sizes).Starved) : ¬ net.Plentiful := by
  intro plentiful
  have still := (later_reads (valid_start net) openSealed sizes).plentiful plentiful
  rw [Net.Plentiful, starved.1] at still
  exact starved.2 (List.eq_nil_of_length_eq_zero (Nat.le_zero.mp still))

theorem exists_exhausted (openSealed : Nonce → Bytes → Option Bytes) (punctual : net.Punctual)
    (plentiful : net.Plentiful) : ∃ sizes, ((start net).reads openSealed sizes).Exhausted := by
  refine ⟨List.replicate ((start net).effort openSealed) 1, ?_⟩
  refine (exhausted_reads (valid_start net) punctual ?_ ?_).resolve_right
    fun starved => not_plentiful starved plentiful
  · intro size member
    rw [List.eq_of_mem_replicate member]
    exact Nat.one_pos
  · rw [List.length_replicate]

end Session

end ClusterRouter.Crypto
