import ClusterRouter.Channel.Validate
import ClusterRouter.Foundation.Authority

/-! `Forward` joins the upstream, the path behind the route's prefix and the query to one text,
which `http.NewRequest` parses (`internal/channel/forward.go`). -/

set_option autoImplicit false

namespace ClusterRouter.Channel

open Foundation

/-- The URL of the request that goes out. The client sends none to a URL without a host, and
follows no redirect. -/
def sentURL (reader : AuthorityReader) (request : Request) (rt : BoundRoute) : Option URL :=
  match forward request rt with
  | .error _ => none
  | .ok outbound => (URL.ofRequest reader outbound.target).filter (fun u => decide (u.host ≠ []))

theorem sentURL_eq_some {reader : AuthorityReader} {request : Request} {rt : BoundRoute} {u : URL}
    (sent : sentURL reader request rt = some u) :
    URL.ofRequest reader (upstreamTarget request rt.route) = some u ∧ u.host ≠ [] := by
  unfold sentURL at sent
  split at sent
  · cases sent
  next outbound forwarded =>
    unfold forward at forwarded
    obtain ⟨header, _, same⟩ := bind_eq_ok.mp forwarded
    cases same
    simpa [Option.filter_eq_some_iff] using sent

/-! ## Slashes at the end -/

theorem trimRightSlash_append_replicate (s : Bytes) (n : Nat) :
    trimRightSlash (s ++ List.replicate n 47) = trimRightSlash s := by
  induction n with
  | zero => simp
  | succ n ih =>
    rw [List.replicate_succ', ← List.append_assoc, ← ih]
    exact List.rdropWhile_concat_pos _ _ 47 rfl

theorem trimRightSlash_of_getLast? {s : Bytes} (unslashed : s.getLast? ≠ some 47) :
    trimRightSlash s = s := by
  refine List.rdropWhile_eq_self_iff.mpr fun nonempty slash => ?_
  rw [List.getLast?_eq_some_getLast nonempty] at unslashed
  exact unslashed (congrArg some (of_decide_eq_true slash))

theorem getLast?_trimRightSlash (s : Bytes) : (trimRightSlash s).getLast? ≠ some 47 := by
  intro slash
  have nonempty : trimRightSlash s ≠ [] := by
    intro empty
    rw [empty] at slash
    cases slash
  rw [List.getLast?_eq_some_getLast nonempty] at slash
  have last := List.rdropWhile_last_not (fun b => decide (b = 47)) s nonempty
  exact last (decide_eq_true (Option.some.inj slash))

theorem exists_append_replicate (s : Bytes) :
    ∃ n, s = trimRightSlash s ++ List.replicate n 47 := by
  have slashes : ∀ b ∈ s.rtakeWhile (fun b => decide (b = 47)), b = 47 := fun b member => by
    simpa using List.mem_rtakeWhile_imp member
  refine ⟨(s.rtakeWhile (fun b => decide (b = 47))).length, ?_⟩
  rw [← List.eq_replicate_of_mem slashes]
  exact List.rdropWhile_append_rtakeWhile.symm

/-! ## The upstream of an accepted route -/

def bareUpstream (upstream : Bytes) : Bool :=
  decide (trimRightSlash upstream = lit "https:" ∨ trimRightSlash upstream = lit "http:")

def upstreamText (upstream : Bytes) : Bytes := (Bytes.cut 58 (trimRightSlash upstream)).2.drop 2

inductive UpstreamShape (upstream : Bytes) : Prop
  | bare (scheme : Bytes) (slashes : Nat) (plain : URL.PlainScheme scheme)
      (is : upstream = scheme ++ 58 :: 47 :: 47 :: List.replicate slashes 47)
      (trimmed : trimRightSlash upstream = scheme ++ [58]) (isBare : bareUpstream upstream = true)
  | named (scheme : Bytes) (slashes : Nat) (plain : URL.PlainScheme scheme)
      (is : upstream =
        scheme ++ 58 :: 47 :: 47 :: (upstreamText upstream ++ List.replicate slashes 47))
      (trimmed : trimRightSlash upstream = scheme ++ 58 :: 47 :: 47 :: upstreamText upstream)
      (closed : (upstreamText upstream).getLast? ≠ some 47)
      (isNamed : bareUpstream upstream = false)

theorem upstreamShape_of_scheme {upstream scheme text : Bytes}
    (http : scheme = lit "https" ∨ scheme = lit "http")
    (is : upstream = scheme ++ 58 :: 47 :: 47 :: text) : UpstreamShape upstream := by
  have plain : URL.PlainScheme scheme := by
    rcases http with rfl | rfl
    · exact ⟨by decide, List.all_eq_true.mp rfl⟩
    · exact ⟨by decide, List.all_eq_true.mp rfl⟩
  have noColon : 58 ∉ scheme := plain.not_mem (by decide)
  obtain ⟨slashes, split⟩ := exists_append_replicate text
  by_cases empty : trimRightSlash text = []
  · rw [empty, List.nil_append] at split
    have whole : upstream = (scheme ++ [58]) ++ List.replicate (slashes + 2) 47 := by
      rw [is, split, List.append_assoc]
      rfl
    have trimmed : trimRightSlash upstream = scheme ++ [58] := by
      rw [whole, trimRightSlash_append_replicate]
      exact trimRightSlash_of_getLast? (by simp)
    refine .bare scheme slashes plain (split ▸ is) trimmed ?_
    rw [bareUpstream, trimmed]
    rcases http with rfl | rfl
    · rfl
    · rfl
  · have whole : upstream =
        (scheme ++ 58 :: 47 :: 47 :: trimRightSlash text) ++ List.replicate slashes 47 := by
      rw [is]
      conv_lhs => rw [split]
      simp
    have trimmed : trimRightSlash upstream = scheme ++ 58 :: 47 :: 47 :: trimRightSlash text := by
      rw [whole, trimRightSlash_append_replicate]
      refine trimRightSlash_of_getLast? ?_
      have last : (scheme ++ 58 :: 47 :: 47 :: trimRightSlash text).getLast? =
          (trimRightSlash text).getLast? := by
        have joined := List.getLast?_append_of_ne_nil (scheme ++ [58, 47, 47]) empty
        rw [List.append_assoc] at joined
        exact joined
      rw [last]
      exact getLast?_trimRightSlash text
    have isText : upstreamText upstream = trimRightSlash text := by
      rw [upstreamText, trimmed, Bytes.cut_append_of_not_mem noColon, Bytes.cut_cons, if_pos rfl]
      rfl
    refine .named scheme slashes plain ?_ (isText ▸ trimmed) (isText ▸ getLast?_trimRightSlash text) ?_
    · rw [isText, ← split, is]
    · rw [bareUpstream, trimmed]
      rcases http with rfl | rfl
      · simp [lit]
      · simp [lit]

theorem ValidRoute.upstreamShape {r : Route} (valid : ValidRoute r) : UpstreamShape r.upstream := by
  rcases valid.upstream with ⟨text, is⟩ | ⟨text, is⟩
  · exact upstreamShape_of_scheme (.inl rfl) is.symm
  · exact upstreamShape_of_scheme (.inr rfl) is.symm

/-! ## The text that is parsed -/

def queryPart (rawQuery : Bytes) : Bytes := if rawQuery = [] then [] else 63 :: rawQuery

theorem upstreamTarget_eq {r : Route} (valid : ValidRoute r) {request : Request} {more : Bytes}
    (matched : request.path = r.pathPrefix ++ more) :
    upstreamTarget request r =
      trimRightSlash r.upstream ++ 47 :: (more ++ queryPart request.rawQuery) := by
  obtain ⟨front, isPrefix⟩ := valid.ends
  have isSlash : FilePath.slash = 47 := rfl
  rw [isSlash] at isPrefix
  have shortened : Bytes.trimSuffix [47] r.pathPrefix = front := by
    rw [Bytes.trimSuffix, if_pos (List.isSuffixOf_iff_suffix.mpr ⟨front, isPrefix⟩), ← isPrefix]
    simp
  have stripped : Bytes.trimPrefix front request.path = 47 :: more := by
    have whole : request.path = front ++ 47 :: more := by simp [matched, ← isPrefix]
    rw [Bytes.trimPrefix, whole, if_pos (List.isPrefixOf_iff_prefix.mpr (List.prefix_append _ _)),
      List.drop_left]
  unfold upstreamTarget queryPart
  rw [shortened, stripped]
  split
  · simp_all
  · simp_all

/-- The part of the path behind the prefix, with the slash before it, that is read as a path. -/
def callerPath (more : Bytes) : Bytes := URL.hierOf (47 :: more)

theorem hierOf_queryPart (more rawQuery : Bytes) :
    URL.hierOf (47 :: (more ++ queryPart rawQuery)) = callerPath more := by
  have ends : URL.hierOf (queryPart rawQuery) = [] := by
    unfold queryPart
    split
    · rfl
    · simp [URL.hierOf, Bytes.cut_cons]
  have joined : 47 :: (more ++ queryPart rawQuery) = (47 :: more) ++ queryPart rawQuery := rfl
  rw [joined, callerPath]
  by_cases marked : URL.Marked (47 :: more)
  · rw [URL.hierOf_append_of_marked marked]
  · rw [URL.hierOf_append_of_not_marked marked, ends, URL.hierOf_of_not_marked marked,
      List.append_nil]

/-! ## The upstream's own URL -/

section

variable {reader : AuthorityReader} {scheme text rest : Bytes} {u : URL}

theorem slashes_rooted (n : Nat) : ∀ b ∈ (List.replicate n (47 : UInt8)).head?, b = 47 := by
  cases n with
  | zero => simp
  | succ n => simp [List.replicate_succ]

theorem slashes_not_marked (n : Nat) : ¬ URL.Marked (List.replicate n 47) := by
  simp [URL.Marked, List.mem_replicate]

theorem any_isControl_slashes (n : Nat) :
    (List.replicate n (47 : UInt8)).any URL.isControl = false := by
  rw [List.any_eq_false]
  intro b member
  rw [List.eq_of_mem_replicate member]
  decide

/-- An upstream with a query or a fragment is sent to as it is, whatever the path. -/
theorem exists_base_of_marked (plain : URL.PlainScheme scheme) (marked : URL.Marked text)
    (built : URL.ofRequest reader (scheme ++ 58 :: 47 :: 47 :: (text ++ 47 :: rest)) = some u)
    (slashes : Nat) :
    ∃ base, URL.ofRequest reader
        (scheme ++ 58 :: 47 :: 47 :: (text ++ List.replicate slashes 47)) = some base ∧
      u.scheme = base.scheme ∧ u.host = base.host ∧ u.path = base.path ∧
      u.rawPath = base.rawPath ∧
      (35 ∈ text → u.rawQuery = base.rawQuery) ∧
      (35 ∉ text → u.rawQuery = URL.queryOf text ++ (Bytes.cut 35 (47 :: rest)).1) := by
  obtain ⟨visible, fragment, authority, path, isFragment, isAuthority, isPath, rfl⟩ :=
    (URL.ofRequest_eq_some_iff plain).mp built
  rw [URL.hierOf_append_of_marked marked] at isAuthority isPath
  by_cases inFragment : 35 ∈ text
  · rw [Bytes.cut_append_of_mem inFragment] at visible isFragment
    obtain ⟨front, isFront⟩ := Percent.exists_of_unescape_append_slash isFragment
    have readable := Percent.unescape_append_replicate isFront slashes
    refine ⟨_, (URL.ofRequest_eq_some_iff plain).mpr
        ⟨?_, front ++ List.replicate slashes 47, authority, path, ?_, ?_, ?_, rfl⟩,
      rfl, rfl, rfl, ?_, fun _ => ?_, fun absent => absurd inFragment absent⟩
    · rw [Bytes.cut_append_of_mem inFragment]
      exact visible
    · rw [Bytes.cut_append_of_mem inFragment]
      exact readable
    · rw [URL.hierOf_append_of_marked marked]
      exact isAuthority
    · rw [URL.hierOf_append_of_marked marked]
      exact isPath
    · simp only [URL.hierOf_append_of_marked marked]
    · simp only [URL.queryOf, Bytes.cut_append_of_mem inFragment]
  · have inQuery := marked.resolve_left inFragment
    rw [Bytes.cut_append_of_not_mem inFragment, List.any_append, Bool.or_eq_false_iff] at visible
    have noFragment := (not_or.mp (slashes_not_marked slashes)).1
    refine ⟨_, (URL.ofRequest_eq_some_iff plain).mpr ⟨?_, [], authority, path, ?_, ?_, ?_, rfl⟩,
      rfl, rfl, rfl, ?_, fun present => absurd present inFragment, fun _ => ?_⟩
    · rw [Bytes.cut_append_of_not_mem inFragment, Bytes.cut_of_not_mem noFragment, List.any_append,
        visible.1, any_isControl_slashes]
      rfl
    · rw [Bytes.cut_append_of_not_mem inFragment, Bytes.cut_of_not_mem noFragment]
      rfl
    · rw [URL.hierOf_append_of_marked marked]
      exact isAuthority
    · rw [URL.hierOf_append_of_marked marked]
      exact isPath
    · simp only [URL.hierOf_append_of_marked marked]
    · simp only [URL.queryOf, Bytes.cut_append_of_not_mem inFragment, Bytes.cut_append_of_mem inQuery,
        Bytes.cut_of_not_mem inFragment]

theorem exists_base_of_not_marked (plain : URL.PlainScheme scheme) (unmarked : ¬ URL.Marked text)
    (built : URL.ofRequest reader (scheme ++ 58 :: 47 :: 47 :: (text ++ 47 :: rest)) = some u)
    (slashes : Nat) :
    ∃ base decoded later, URL.ofRequest reader
        (scheme ++ 58 :: 47 :: 47 :: (text ++ List.replicate slashes 47)) = some base ∧
      u.scheme = base.scheme ∧ u.host = base.host ∧
      Percent.unescape (URL.fromSlash text) = some decoded ∧
      Percent.unescape (URL.hierOf (47 :: rest)) = some later ∧
      base.path = decoded ++ List.replicate slashes 47 ∧
      base.rawPath = URL.hint base.path (URL.fromSlash text ++ List.replicate slashes 47) ∧
      u.path = decoded ++ later ∧
      u.rawPath = URL.hint u.path (URL.fromSlash text ++ URL.hierOf (47 :: rest)) ∧
      u.rawQuery = URL.queryOf (47 :: rest) := by
  obtain ⟨visible, fragment, authority, path, isFragment, isAuthority, isPath, rfl⟩ :=
    (URL.ofRequest_eq_some_iff plain).mp built
  have noFragment := (not_or.mp unmarked).1
  have noFragmentLater := (not_or.mp (slashes_not_marked slashes)).1
  have slashesHier : URL.hierOf (List.replicate slashes 47) = List.replicate slashes 47 :=
    URL.hierOf_of_not_marked (slashes_not_marked slashes)
  have rooted : ∀ b ∈ (URL.hierOf (47 :: rest)).head?, b = 47 := by
    rw [URL.hierOf_slash]
    simp
  rw [Bytes.cut_append_of_not_mem noFragment, List.any_append, Bool.or_eq_false_iff] at visible
  rw [URL.hierOf_append_of_not_marked unmarked] at isAuthority isPath
  rw [URL.beforeSlash_append rooted] at isAuthority
  rw [URL.fromSlash_append rooted, URL.hierOf_slash, Percent.unescape_append_slash] at isPath
  obtain ⟨decoded, isDecoded, isPath⟩ := Option.bind_eq_some_iff.mp isPath
  obtain ⟨back, isBack, rfl⟩ := Option.map_eq_some_iff.mp isPath
  have isLater : Percent.unescape (URL.hierOf (47 :: rest)) = some (47 :: back) := by
    rw [URL.hierOf_slash, Percent.unescape_cons (by decide), isBack]
    rfl
  refine ⟨_, decoded, 47 :: back, (URL.ofRequest_eq_some_iff plain).mpr
    ⟨?_, [], authority, decoded ++ List.replicate slashes 47, ?_, ?_, ?_, rfl⟩, rfl, rfl, isDecoded,
    isLater, rfl, ?_, rfl, ?_, ?_⟩
  · rw [Bytes.cut_append_of_not_mem noFragment, Bytes.cut_of_not_mem noFragmentLater, List.any_append,
      visible.1, any_isControl_slashes]
    rfl
  · rw [Bytes.cut_append_of_not_mem noFragment, Bytes.cut_of_not_mem noFragmentLater]
    rfl
  · rw [URL.hierOf_append_of_not_marked unmarked, slashesHier,
      URL.beforeSlash_append (slashes_rooted slashes)]
    exact isAuthority
  · rw [URL.hierOf_append_of_not_marked unmarked, slashesHier,
      URL.fromSlash_append (slashes_rooted slashes)]
    exact Percent.unescape_append_replicate isDecoded slashes
  · simp only [URL.hierOf_append_of_not_marked unmarked, slashesHier,
      URL.fromSlash_append (slashes_rooted slashes)]
  · simp only [URL.hierOf_append_of_not_marked unmarked, URL.fromSlash_append rooted]
  · simp only [URL.queryOf_append_of_not_marked unmarked]

theorem host_of_slashes (plain : URL.PlainScheme scheme) {slashes : Nat} {base : URL}
    (built : URL.ofRequest reader (scheme ++ 58 :: 47 :: 47 :: List.replicate slashes 47) =
      some base) : base.host = [] := by
  obtain ⟨_, fragment, authority, path, _, isAuthority, _, rfl⟩ :=
    (URL.ofRequest_eq_some_iff plain).mp built
  have noName : URL.beforeSlash (List.replicate slashes 47) = [] :=
    URL.beforeSlash_append (slashes_rooted slashes) []
  rw [URL.hierOf_of_not_marked (slashes_not_marked slashes), noName] at isAuthority
  simp only [reader.read_empty isAuthority]
  rfl

end

/-! ## What is sent for a route -/

section

variable {reader : AuthorityReader} {request : Request} {rt : BoundRoute} {more : Bytes} {u : URL}

/-- To a bare upstream only a path is sent that begins with two slashes: it names the host. -/
theorem exists_authority_of_bare {scheme : Bytes} (plain : URL.PlainScheme scheme)
    (valid : ValidRoute rt.route) (trimmed : trimRightSlash rt.route.upstream = scheme ++ [58])
    (matched : request.path = rt.route.pathPrefix ++ more)
    (sent : sentURL reader request rt = some u) :
    ∃ rest, more = 47 :: rest ∧ URL.ofRequest reader
      (scheme ++ 58 :: 47 :: 47 :: (rest ++ queryPart request.rawQuery)) = some u := by
  obtain ⟨built, named⟩ := sentURL_eq_some sent
  rw [upstreamTarget_eq valid matched, trimmed, List.append_assoc] at built
  have double : (more ++ queryPart request.rawQuery).head? = some 47 := by
    by_contra single
    exact named (URL.host_eq_nil_of_ofRequest plain single built)
  cases more with
  | nil =>
    rw [List.nil_append, queryPart] at double
    split at double
    · cases double
    · cases double
  | cons b rest =>
    cases double
    exact ⟨rest, rfl, built⟩

theorem built_of_named {scheme : Bytes} (valid : ValidRoute rt.route)
    (trimmed : trimRightSlash rt.route.upstream =
      scheme ++ 58 :: 47 :: 47 :: upstreamText rt.route.upstream)
    (matched : request.path = rt.route.pathPrefix ++ more)
    (sent : sentURL reader request rt = some u) :
    URL.ofRequest reader (scheme ++ 58 :: 47 :: 47 ::
      (upstreamText rt.route.upstream ++ 47 :: (more ++ queryPart request.rawQuery))) = some u := by
  have built := (sentURL_eq_some sent).1
  rw [upstreamTarget_eq valid matched, trimmed] at built
  simpa using built

theorem marked_upstream_iff {upstream scheme : Bytes} {slashes : Nat} (plain : URL.PlainScheme scheme)
    (is : upstream =
      scheme ++ 58 :: 47 :: 47 :: (upstreamText upstream ++ List.replicate slashes 47)) {mark : UInt8}
    (isMark : mark = 35 ∨ mark = 63) : mark ∈ upstream ↔ mark ∈ upstreamText upstream := by
  have absent : mark ∉ scheme := by
    rcases isMark with rfl | rfl
    · exact plain.not_mem (by decide)
    · exact plain.not_mem (by decide)
  have others : mark ≠ 58 ∧ mark ≠ 47 := by
    rcases isMark with rfl | rfl
    · decide
    · decide
  conv_lhs => rw [is]
  simp [absent, others, List.mem_replicate]

end

end ClusterRouter.Channel
