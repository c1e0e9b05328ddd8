import ClusterRouter.Channel.RotationStore
import ClusterRouter.Foundation.Bytes

/-! A rolling window over the last bytes of a response body, scanned from its end for a readable
`"total_tokens": N` (`internal/channel/usage.go`). -/

set_option autoImplicit false

namespace ClusterRouter.Channel

open Foundation

def usageTailBytes : Nat := 8 * 1024

def usageMarker : Bytes := lit "\"total_tokens\""

def isJSONSpace (b : UInt8) : Bool := decide (b = 32 ∨ b = 9 ∨ b = 10 ∨ b = 13)

def skipSpace (b : Bytes) : Bytes := b.dropWhile isJSONSpace

def endsJSONValue (c : UInt8) : Bool := decide (c = 44 ∨ c = 125 ∨ c = 93) || isJSONSpace c

/-- `strconv.ParseInt` of decimal digits as a 64-bit integer. -/
def parseInt64 (digits : Bytes) : Option Int :=
  let value : Nat := digits.foldl (fun value b => value * 10 + (b.toNat - 48)) 0
  if value < 2 ^ 63 then some value else none

def parseUsageValue (b : Bytes) : Option Int :=
  match skipSpace b with
  | [] => none
  | c :: rest =>
    if c ≠ Bytes.colon then none
    else
      let rest := skipSpace rest
      let digits := rest.takeWhile Bytes.isDigit
      if digits = [] then none
      else
        match rest.dropWhile Bytes.isDigit with
        | [] => none
        | c :: _ => if endsJSONValue c then parseInt64 digits else none

structure TailExtractor where
  tail : Bytes
  deriving DecidableEq, Repr

namespace TailExtractor

def new : TailExtractor := ⟨[]⟩

def observe (e : TailExtractor) (b : Bytes) : TailExtractor :=
  if b.length = 0 then e
  else
    let tail := e.tail ++ b
    if usageTailBytes < tail.length then ⟨tail.drop (tail.length - usageTailBytes)⟩ else ⟨tail⟩

/-- The loop of `Result`: the last marker with a readable value. A marker that is passed
over is cut off, together with all that follows it. -/
def lastUsage (rest : Bytes) : Option Int :=
  match _found : Bytes.lastIndex rest usageMarker with
  | none => none
  | some position =>
    match parseUsageValue (rest.drop (position + usageMarker.length)) with
    | some n => some n
    | none => lastUsage (rest.take position)
termination_by rest.length
decreasing_by
  have := Bytes.lastIndex_lt (by decide) _found
  rw [List.length_take]
  omega

theorem lastUsage_of_lastIndex {rest : Bytes} {position : Nat} {n : Int}
    (found : Bytes.lastIndex rest usageMarker = some position)
    (read : parseUsageValue (rest.drop (position + usageMarker.length)) = some n) :
    lastUsage rest = some n := by
  rw [lastUsage]
  split
  next missing =>
    rw [found] at missing
    cases missing
  next other isOther =>
    cases found.symm.trans isOther
    rw [read]

theorem lastUsage_of_unmarked {rest : Bytes} (unmarked : Bytes.lastIndex rest usageMarker = none) :
    lastUsage rest = none := by
  rw [lastUsage]
  split
  next => rfl
  next position found =>
    rw [unmarked] at found
    cases found

def result (e : TailExtractor) : UsageSample :=
  match lastUsage e.tail with
  | some n => ⟨.completed, n, false⟩
  | none => ⟨.completed, tokensUnknown, true⟩

end TailExtractor

def usageOf (chunks : List Bytes) : UsageSample := (chunks.foldl TailExtractor.observe .new).result

/-! ## What the extractor can produce -/

/-- A sample that a response body can give rise to. -/
structure Readable (sample : UsageSample) : Prop where
  completed : sample.outcome = .completed
  tokens : sample.tokens = tokensUnknown ∨ (0 ≤ sample.tokens ∧ sample.tokens < 2 ^ 63)
  estimated : sample.estimated = true ↔ sample.tokens = tokensUnknown

theorem parseInt64_range {digits : Bytes} {n : Int} (read : parseInt64 digits = some n) :
    0 ≤ n ∧ n < 2 ^ 63 := by
  unfold parseInt64 at read
  dsimp only at read
  split at read
  next small =>
    cases read
    omega
  next => cases read

theorem parseUsageValue_range {b : Bytes} {n : Int} (read : parseUsageValue b = some n) :
    0 ≤ n ∧ n < 2 ^ 63 := by
  unfold parseUsageValue at read
  split at read
  next => cases read
  next c rest _ =>
    split at read
    next => cases read
    next =>
      dsimp only at read
      split at read
      next => cases read
      next =>
        split at read
        next => cases read
        next =>
          split at read
          next => exact parseInt64_range read
          next => cases read

theorem TailExtractor.lastUsage_range (rest : Bytes) {n : Int} (read : lastUsage rest = some n) :
    0 ≤ n ∧ n < 2 ^ 63 := by
  fun_induction lastUsage rest with
  | case1 rest _ => cases read
  | case2 rest position _ value parsed =>
    cases read
    exact parseUsageValue_range parsed
  | case3 rest position _ _ ih => exact ih read

theorem TailExtractor.result_readable (e : TailExtractor) : Readable e.result := by
  unfold result
  cases read : lastUsage e.tail with
  | none => exact ⟨rfl, .inl rfl, by simp⟩
  | some n =>
    have range := lastUsage_range e.tail read
    have known : n ≠ tokensUnknown := by
      unfold tokensUnknown
      omega
    exact ⟨rfl, .inr range, by simp [known]⟩

end ClusterRouter.Channel
