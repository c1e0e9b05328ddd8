import ClusterRouter.Channel.UpstreamBase

/-! Whether path and query arrive as they came in. The decoded path is spliced into a text that
is decoded once more, so a percent sign, a question mark or a number sign in it changes its
meaning. -/

set_option autoImplicit false

namespace ClusterRouter.Channel

open Foundation

/-- The path is that of the upstream, without slashes at its end, followed by the path behind
the route's prefix with a slash before it, and the query is the one asked for. -/
def TargetPreserved (reader : AuthorityReader) (upstream more rawQuery : Bytes) (u : URL) : Prop :=
  ∃ base, URL.ofRequest reader upstream = some base ∧
    u.path = trimRightSlash base.path ++ 47 :: more ∧ u.rawQuery = rawQuery

def endsInEscapedSlash (upstream : Bytes) : Bool :=
  decide ((Percent.unescaped (upstreamPath upstream)).getLast? = some 47)

def plainPath (more : Bytes) : Bool := more.all (fun b => decide (b ≠ 37 ∧ b ≠ 63 ∧ b ≠ 35))

theorem plainPath_iff {more : Bytes} : plainPath more = true ↔ 37 ∉ more ∧ ¬ URL.Marked more := by
  simp only [plainPath, List.all_eq_true, decide_eq_true_eq, URL.Marked]
  constructor
  · intro plain
    refine ⟨fun percent => (plain _ percent).1 rfl, ?_⟩
    rintro (number | question)
    · exact (plain _ number).2.2 rfl
    · exact (plain _ question).2.1 rfl
  · rintro ⟨noPercent, unmarked⟩ b member
    refine ⟨?_, ?_, ?_⟩
    · rintro rfl
      exact noPercent member
    · rintro rfl
      exact unmarked (.inr member)
    · rintro rfl
      exact unmarked (.inl member)

/-! ## Paths -/

theorem exists_slashes_append (s : Bytes) :
    ∃ slashes rest, s = List.replicate slashes 47 ++ rest ∧ rest.head? ≠ some 47 := by
  induction s with
  | nil => exact ⟨0, [], rfl, by simp⟩
  | cons b tail ih =>
    by_cases slash : b = 47
    · obtain ⟨slashes, rest, rfl, other⟩ := ih
      exact ⟨slashes + 1, rest, by rw [slash]; rfl, other⟩
    · exact ⟨0, b :: tail, rfl, by simpa using slash⟩

theorem hierOf_isPrefix (s : Bytes) : URL.hierOf s <+: s :=
  (Bytes.cut_prefix 63 _).trans (Bytes.cut_prefix 35 s)

theorem plainPath_of_unescape_hierOf {s : Bytes}
    (same : Percent.unescape (URL.hierOf s) = some s) : plainPath s = true := by
  have counted := Percent.length_unescape same
  have shorter := (hierOf_isPrefix s).length_le
  have whole : URL.hierOf s = s := (hierOf_isPrefix s).eq_of_length (by omega)
  rw [whole] at counted
  refine plainPath_iff.mpr ⟨List.count_eq_zero.mp (by omega), ?_⟩
  rintro (number | question)
  · have inside : 35 ∈ URL.hierOf s := by
      rw [whole]
      exact number
    exact Bytes.not_mem_cut 35 s ((Bytes.cut_prefix 63 _).subset inside)
  · have inside : 63 ∈ URL.hierOf s := by
      rw [whole]
      exact question
    exact Bytes.not_mem_cut 63 _ inside

theorem append_eq_iff {decoded later more : Bytes}
    (isLater : Percent.unescape (callerPath more) = some later) :
    decoded ++ later = trimRightSlash decoded ++ 47 :: more ↔
      decoded.getLast? ≠ some 47 ∧ plainPath more = true := by
  constructor
  · intro same
    obtain ⟨extra, split⟩ := exists_append_replicate decoded
    obtain ⟨slashes, rest, isPath, other⟩ := exists_slashes_append (47 :: more)
    rw [callerPath, isPath, URL.hierOf_append_of_not_marked (slashes_not_marked slashes),
      Percent.unescape_replicate_append] at isLater
    obtain ⟨back, isBack, rfl⟩ := Option.map_eq_some_iff.mp isLater
    have cancelled : List.replicate extra 47 ++ back = rest := by
      conv_lhs at same => rw [split]
      rw [isPath, List.append_assoc, List.append_cancel_left_eq, ← List.append_assoc,
        List.replicate_append_replicate, Nat.add_comm, ← List.replicate_append_replicate,
        List.append_assoc, List.append_cancel_left_eq] at same
      exact same
    have noExtra : extra = 0 := by
      cases extra with
      | zero => rfl
      | succ n =>
        rw [← cancelled, List.replicate_succ] at other
        exact absurd rfl other
    rw [noExtra, List.replicate_zero, List.nil_append] at cancelled
    rw [noExtra, List.replicate_zero, List.append_nil] at split
    refine ⟨split ▸ getLast?_trimRightSlash decoded, ?_⟩
    have plainRest := plainPath_of_unescape_hierOf (cancelled ▸ isBack)
    have plainWhole : plainPath (47 :: more) = true := by
      rw [isPath, plainPath, List.all_append, ← plainPath, ← plainPath, plainRest, Bool.and_true]
      simp [plainPath]
    simpa [plainPath] using plainWhole
  · rintro ⟨closed, plain⟩
    obtain ⟨noPercent, unmarked⟩ := plainPath_iff.mp plain
    have slashUnmarked : ¬ URL.Marked (47 :: more) := by
      simpa [URL.Marked] using unmarked
    have slashPlain : 37 ∉ 47 :: more := by simpa using noPercent
    rw [callerPath, URL.hierOf_of_not_marked slashUnmarked, Percent.unescape_of_not_mem slashPlain]
      at isLater
    cases isLater
    rw [trimRightSlash_of_getLast? closed]

/-! ## Queries -/

theorem queryOf_queryPart (rawQuery : Bytes) :
    URL.queryOf (queryPart rawQuery) = (Bytes.cut 35 rawQuery).1 := by
  unfold queryPart
  split
  next empty =>
    rw [empty]
    rfl
  · simp [URL.queryOf, Bytes.cut_cons]

theorem cut_fst_eq_iff {mark : UInt8} {s : Bytes} : (Bytes.cut mark s).1 = s ↔ mark ∉ s := by
  constructor
  · intro same
    rw [← same]
    exact Bytes.not_mem_cut mark s
  · intro absent
    rw [Bytes.cut_of_not_mem absent]

theorem append_queryPart_ne {front rawQuery : Bytes} (nonempty : front ≠ []) (unmarked : 35 ∉ front) :
    front ++ (Bytes.cut 35 (queryPart rawQuery)).1 ≠ rawQuery := by
  intro same
  have noNumber : 35 ∉ rawQuery := by
    rw [← same, List.mem_append, not_or]
    exact ⟨unmarked, Bytes.not_mem_cut _ _⟩
  have lengths := congrArg List.length same
  unfold queryPart at lengths
  split at lengths
  next empty =>
    rw [empty] at same
    exact nonempty (List.append_eq_nil_iff.mp same).1
  · rw [Bytes.cut_cons, if_neg (by decide), Bytes.cut_of_not_mem noNumber, List.length_append,
      List.length_cons] at lengths
    dsimp only at lengths
    omega

/-! ## Requests -/

section

variable {reader : AuthorityReader} {request : Request} {rt : BoundRoute} {more : Bytes} {u : URL}
  {scheme : Bytes} {slashes : Nat} (plain : URL.PlainScheme scheme)

include plain

theorem not_targetPreserved_of_bare (valid : ValidRoute rt.route)
    (trimmed : trimRightSlash rt.route.upstream = scheme ++ [58])
    (matched : request.path = rt.route.pathPrefix ++ more)
    (sent : sentURL reader request rt = some u) :
    ¬ TargetPreserved reader rt.route.upstream more request.rawQuery u := by
  rintro ⟨base, _, same, _⟩
  obtain ⟨rest, rfl, built⟩ := exists_authority_of_bare plain valid trimmed matched sent
  obtain ⟨_, fragment, authority, path, _, _, isPath, rfl⟩ :=
    (URL.ofRequest_eq_some_iff plain).mp built
  have read := Percent.length_unescape isPath
  have behind : (URL.fromSlash (URL.hierOf (rest ++ queryPart request.rawQuery))).length ≤
      rest.length := by
    have sameHier := hierOf_queryPart rest request.rawQuery
    rw [callerPath, URL.hierOf_slash, URL.hierOf_slash, List.cons.injEq] at sameHier
    rw [sameHier.2]
    exact ((List.dropWhile_suffix _).length_le).trans (hierOf_isPrefix rest).length_le
  have lengths := congrArg List.length same
  simp only [List.length_append, List.length_cons] at lengths
  omega

variable (is : rt.route.upstream = scheme ++ 58 :: 47 :: 47 ::
    (upstreamText rt.route.upstream ++ List.replicate slashes 47))
  (built : URL.ofRequest reader (scheme ++ 58 :: 47 :: 47 ::
    (upstreamText rt.route.upstream ++ 47 :: (more ++ queryPart request.rawQuery))) = some u)

include is built

theorem not_targetPreserved_of_query (marked : URL.Marked (upstreamText rt.route.upstream))
    (noFragment : 35 ∉ upstreamText rt.route.upstream) :
    ¬ TargetPreserved reader rt.route.upstream more request.rawQuery u := by
  rintro ⟨base, baseBuilt, samePath, sameQuery⟩
  obtain ⟨found, foundBuilt, _, _, ofBase, _, _, isQuery⟩ :=
    exists_base_of_marked plain marked built slashes
  rw [← is, baseBuilt] at foundBuilt
  cases foundBuilt
  obtain ⟨count, split⟩ := exists_append_replicate base.path
  have onlySlashes : 47 :: more = List.replicate count 47 := by
    rw [ofBase] at samePath
    conv_lhs at samePath => rw [split]
    exact (List.append_cancel_left samePath).symm
  have noNumber : 35 ∉ 47 :: more := by
    rw [onlySlashes]
    simp [List.mem_replicate]
  have noNumberBefore : 35 ∉ URL.queryOf (upstreamText rt.route.upstream) ++ 47 :: more := by
    have inQuery : ∀ b ∈ URL.queryOf (upstreamText rt.route.upstream),
        b ∈ upstreamText rt.route.upstream := by
      intro b member
      rw [URL.queryOf, Bytes.cut_of_not_mem noFragment] at member
      exact (List.dropWhile_suffix _).subset (List.drop_subset 1 _ member)
    rw [List.mem_append, not_or]
    exact ⟨fun member => noFragment (inQuery _ member), noNumber⟩
  have whole : u.rawQuery = (URL.queryOf (upstreamText rt.route.upstream) ++ 47 :: more) ++
      (Bytes.cut 35 (queryPart request.rawQuery)).1 := by
    rw [isQuery noFragment, ← List.cons_append, Bytes.cut_append_of_not_mem noNumber,
      List.append_assoc]
  exact append_queryPart_ne (by simp) noNumberBefore (whole ▸ sameQuery)

theorem targetPreserved_of_fragment_iff (fragment : 35 ∈ upstreamText rt.route.upstream) :
    TargetPreserved reader rt.route.upstream more request.rawQuery u ↔
      ∃ base, URL.ofRequest reader rt.route.upstream = some base ∧
        base.path = trimRightSlash base.path ++ 47 :: more ∧ base.rawQuery = request.rawQuery := by
  obtain ⟨found, foundBuilt, _, _, ofBase, _, isQuery, _⟩ :=
    exists_base_of_marked plain (.inl fragment) built slashes
  rw [← is] at foundBuilt
  unfold TargetPreserved
  rw [ofBase, isQuery fragment, foundBuilt]
  simp

theorem targetPreserved_of_not_marked_iff (unmarked : ¬ URL.Marked (upstreamText rt.route.upstream)) :
    TargetPreserved reader rt.route.upstream more request.rawQuery u ↔
      endsInEscapedSlash rt.route.upstream = false ∧ plainPath more = true ∧
        35 ∉ request.rawQuery := by
  obtain ⟨base, decoded, later, baseBuilt, _, _, isDecoded, isLater, basePath, _, isPath, _, isQuery⟩ :=
    exists_base_of_not_marked plain unmarked built slashes
  rw [← is] at baseBuilt
  rw [hierOf_queryPart] at isLater
  have ends : endsInEscapedSlash rt.route.upstream = false ↔ decoded.getLast? ≠ some 47 := by
    rw [endsInEscapedSlash, Percent.unescaped, upstreamPath, isDecoded]
    simp
  have paths := @append_eq_iff decoded later more isLater
  have preserved : TargetPreserved reader rt.route.upstream more request.rawQuery u ↔
      decoded ++ later = trimRightSlash decoded ++ 47 :: more ∧ u.rawQuery = request.rawQuery := by
    unfold TargetPreserved
    rw [baseBuilt]
    simp [basePath, isPath, trimRightSlash_append_replicate]
  rw [preserved, paths, ends, and_assoc]
  refine and_congr_right fun _ => and_congr_right fun plainMore => ?_
  have slashUnmarked : ¬ URL.Marked (47 :: more) := by
    simpa [URL.Marked] using (plainPath_iff.mp plainMore).2
  rw [isQuery, ← List.cons_append, URL.queryOf_append_of_not_marked slashUnmarked, queryOf_queryPart,
    cut_fst_eq_iff]

end

/-- A forwarded request has the path and the query that were asked for exactly if the
upstream names a host and carries neither query nor fragment, its path does not end in an
escaped slash, the path behind the prefix holds none of %, ? and #, and the query no #. An
upstream with a fragment is sent to as it is, so there it has to be what was asked for. -/
theorem target_preserved_iff {fold : CaseFolding} {file valid : ConfigFile}
    (accepted : validate fold file = .ok valid)
    {rt : BoundRoute} (member : rt.route ∈ valid.config.routes) (reader : AuthorityReader)
    {request : Request} {more : Bytes} (matched : request.path = rt.route.pathPrefix ++ more)
    {u : URL} (sent : sentURL reader request rt = some u) :
    TargetPreserved reader rt.route.upstream more request.rawQuery u ↔
      bareUpstream rt.route.upstream = false ∧
        (¬ URL.Marked rt.route.upstream ∧ endsInEscapedSlash rt.route.upstream = false ∧
            plainPath more = true ∧ 35 ∉ request.rawQuery ∨
          35 ∈ rt.route.upstream ∧ ∃ base, URL.ofRequest reader rt.route.upstream = some base ∧
            base.path = trimRightSlash base.path ++ 47 :: more ∧
            base.rawQuery = request.rawQuery) := by
  have isValid := (validate_eq_ok accepted).1.each rt.route member
  rcases isValid.upstreamShape with
    ⟨scheme, slashes, plain, is, trimmed, isBare⟩ | ⟨scheme, slashes, plain, is, trimmed, _, isNamed⟩
  · exact iff_of_false (not_targetPreserved_of_bare plain isValid trimmed matched sent)
      (by simp [isBare])
  · have built := built_of_named isValid trimmed matched sent
    have sameNumber := marked_upstream_iff plain is (.inl rfl)
    have sameMarks : URL.Marked rt.route.upstream ↔ URL.Marked (upstreamText rt.route.upstream) :=
      or_congr sameNumber (marked_upstream_iff plain is (.inr rfl))
    simp only [isNamed, true_and, sameMarks, sameNumber]
    by_cases marked : URL.Marked (upstreamText rt.route.upstream)
    · by_cases fragment : 35 ∈ upstreamText rt.route.upstream
      · rw [targetPreserved_of_fragment_iff plain is built fragment]
        simp [marked, fragment]
      · exact iff_of_false (not_targetPreserved_of_query plain is built marked fragment)
          (by simp [marked, fragment])
    · have fragment : 35 ∉ upstreamText rt.route.upstream := fun present => marked (.inl present)
      rw [targetPreserved_of_not_marked_iff plain is built marked]
      simp [marked, fragment]

theorem target_preserved_models :
    ∃ u, sentURL URL.netURL (requestFor (lit "/openai/models/a b") (lit "limit=2")) versionedRoute =
        some u ∧
      TargetPreserved URL.netURL versionedBlock.upstream (lit "models/a b") (lit "limit=2") u := by
  have accepted : validate asciiFolding (loopbackFile [versionedBlock]) = .ok versionedValid := rfl
  have sent : sentURL URL.netURL (requestFor (lit "/openai/models/a b") (lit "limit=2"))
      versionedRoute = some _ := rfl
  have matched : (requestFor (lit "/openai/models/a b") (lit "limit=2")).path =
      versionedRoute.route.pathPrefix ++ lit "models/a b" := rfl
  have preserved := target_preserved_iff accepted (List.mem_singleton_self _) URL.netURL matched sent
  exact ⟨_, sent, preserved.mpr ⟨rfl, .inl ⟨by decide, rfl, rfl, by decide⟩⟩⟩

/-- A question mark that came in escaped begins a query on the way out. -/
theorem escaped_question_mark_splits :
    validate asciiFolding (loopbackFile [versionedBlock]) = .ok versionedValid ∧
      versionedRoute.route ∈ versionedValid.config.routes ∧
      ∃ u, sentURL URL.netURL (requestFor (lit "/openai/files/a?b") []) versionedRoute = some u ∧
        u.path = lit "/v1/files/a" ∧ u.rawQuery = lit "b" ∧
        ¬ TargetPreserved URL.netURL versionedBlock.upstream (lit "files/a?b") [] u := by
  refine ⟨rfl, List.mem_singleton_self _, _, rfl, by decide +kernel, by decide +kernel, ?_⟩
  rintro ⟨base, _, _, query⟩
  revert query
  decide +kernel

end ClusterRouter.Channel
