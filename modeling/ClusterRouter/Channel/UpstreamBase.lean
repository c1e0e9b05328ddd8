import ClusterRouter.Channel.ForwardTarget
import ClusterRouter.Channel.Routing

/-! Whether a forwarded request stays below the upstream once dot segments are removed.
`Forward` removes none, and lets a path name the host where the upstream names none. -/

set_option autoImplicit false

namespace ClusterRouter.Channel

open Foundation

/-- The URL has the scheme and the host of the upstream, and its path leads to the upstream's
path or below it. -/
def WithinBase (reader : AuthorityReader) (upstream : Bytes) (u : URL) : Prop :=
  ∃ base, URL.ofRequest reader upstream = some base ∧ u.scheme = base.scheme ∧
    u.host = base.host ∧
    URL.placeOf (trimRightSlash base.escapedPath) <+: URL.placeOf u.escapedPath

def wirePath (raw : Bytes) : Bytes :=
  if Percent.validEncoded raw then raw else Percent.escape (Percent.unescaped raw)

def upstreamPath (upstream : Bytes) : Bytes := URL.fromSlash (upstreamText upstream)

/-- The place that the base leads to, as it is sent in front of the caller's path: if that
has to be encoded anew, escaped slashes of the base become slashes. -/
def sentBase (upstream more : Bytes) : List Bytes :=
  walk [] ((Percent.readSegments (Percent.validEncoded (upstreamPath upstream ++ callerPath more))
    (upstreamPath upstream)).map URL.moveOf)

def callerClimb (upstream more : Bytes) : Climb Bytes :=
  Climb.ofMoves ((Percent.readSegments
    (Percent.validEncoded (upstreamPath upstream ++ callerPath more)) (callerPath more)).map URL.moveOf)

/-- Whatever the caller's path climbs out of the base, it enters again. -/
def ReentersBase (upstream more : Bytes) : Prop :=
  URL.placeOf (trimRightSlash (wirePath (upstreamPath upstream))) <+:
    (callerClimb upstream more).goal (sentBase upstream more)

instance (upstream more : Bytes) : Decidable (ReentersBase upstream more) :=
  inferInstanceAs (Decidable (_ <+: _))

theorem placeOf_trimRightSlash_prefix (path : Bytes) :
    URL.placeOf (trimRightSlash path) <+: URL.placeOf path := by
  obtain ⟨slashes, split⟩ := exists_append_replicate path
  cases slashes with
  | zero =>
    rw [List.replicate_zero, List.append_nil] at split
    rw [← split]
  | succ n =>
    have still : URL.moveOf (Percent.unescaped []) = .down [] := rfl
    have later : URL.placeOf path =
        URL.placeOf (trimRightSlash path) ++ List.replicate (n + 1) [] := by
      conv_lhs => rw [split]
      rw [URL.placeOf, List.replicate_succ, Percent.segments_append_slash, ← List.replicate_succ,
        Percent.segments_replicate, List.map_append, List.map_replicate, still, walk_append,
        ← List.map_replicate, walk_downs, URL.placeOf]
    rw [later]
    exact List.prefix_append _ _

section

variable {upstream more : Bytes}

theorem upstreamPath_rooted {rest : Bytes} (later : ∀ b ∈ rest.head?, b = 47) :
    ∀ b ∈ (upstreamPath upstream ++ rest).head?, b = 47 := by
  have rooted := URL.fromSlash_rooted (upstreamText upstream)
  cases path : upstreamPath upstream with
  | nil => simpa using later
  | cons b tail =>
    unfold upstreamPath at path
    rw [path] at rooted
    simpa using rooted

theorem trimRightSlash_escapedPath {base : URL} {decoded : Bytes} {slashes : Nat}
    (isDecoded : Percent.unescape (upstreamPath upstream) = some decoded)
    (isPath : base.path = decoded ++ List.replicate slashes 47)
    (isHint : base.rawPath =
      URL.hint base.path (upstreamPath upstream ++ List.replicate slashes 47)) :
    trimRightSlash base.escapedPath = trimRightSlash (wirePath (upstreamPath upstream)) := by
  have readable := Percent.unescape_append_replicate isDecoded slashes
  have slashesValid : Percent.validEncoded (List.replicate slashes 47) = true := by
    simp [Percent.validEncoded, show Percent.validByte 47 = true by decide]
  have slashesKept : Percent.escape (List.replicate slashes 47) = List.replicate slashes 47 := by
    simp [Percent.escape, show Percent.escapeByte 47 = [47] by decide, List.flatMap_replicate]
  rw [← isPath] at readable
  rw [URL.escapedPath_of_hint (upstreamPath_rooted (slashes_rooted slashes)) readable isHint,
    Percent.validEncoded, List.all_append, ← Percent.validEncoded, ← Percent.validEncoded,
    slashesValid, Bool.and_true, wirePath]
  split
  · exact trimRightSlash_append_replicate _ _
  · rw [isPath, Percent.escape_append, slashesKept, trimRightSlash_append_replicate, Percent.unescaped,
      isDecoded, Option.getD_some]

theorem placeOf_sent {u : URL} {decoded later : Bytes}
    (isDecoded : Percent.unescape (upstreamPath upstream) = some decoded)
    (isLater : Percent.unescape (callerPath more) = some later) (isPath : u.path = decoded ++ later)
    (isHint : u.rawPath = URL.hint u.path (upstreamPath upstream ++ callerPath more)) :
    URL.placeOf u.escapedPath = (callerClimb upstream more).goal (sentBase upstream more) := by
  have slash : callerPath more = 47 :: URL.hierOf more := URL.hierOf_slash more
  have readable : Percent.unescape (upstreamPath upstream ++ callerPath more) = some u.path := by
    rw [slash, Percent.unescape_cons (by decide)] at isLater
    obtain ⟨back, isBack, rfl⟩ := Option.map_eq_some_iff.mp isLater
    rw [slash, Percent.unescape_append_slash, isDecoded, isBack, isPath]
    rfl
  have rooted : ∀ b ∈ (callerPath more).head?, b = 47 := by simp [slash]
  have whole : (Percent.unescape (upstreamPath upstream ++ 47 :: URL.hierOf more)).isSome = true := by
    rw [← slash, readable]
    rfl
  have split := Percent.readSegments_append_slash
    (Percent.validEncoded (upstreamPath upstream ++ callerPath more)) whole
  rw [← slash] at split
  rw [URL.placeOf_escapedPath (upstreamPath_rooted rooted) readable isHint, split, List.map_append,
    walk_append, walk_eq_goal]
  rfl

end

/-- A forwarded request stays at its upstream and below it exactly if the upstream names a
host, and its text carries a query or a fragment or the caller's path enters again what it
climbs out of. -/
theorem stays_within_base_iff {fold : CaseFolding} {file valid : ConfigFile}
    (accepted : validate fold file = .ok valid)
    {rt : BoundRoute} (member : rt.route ∈ valid.config.routes)
    (reader : AuthorityReader) {request : Request} {more : Bytes}
    (matched : request.path = rt.route.pathPrefix ++ more) {u : URL}
    (sent : sentURL reader request rt = some u) :
    WithinBase reader rt.route.upstream u ↔
      bareUpstream rt.route.upstream = false ∧
        (URL.Marked rt.route.upstream ∨ ReentersBase rt.route.upstream more) := by
  have isValid := (validate_eq_ok accepted).1.each rt.route member
  rcases isValid.upstreamShape with
    ⟨scheme, slashes, plain, is, trimmed, isBare⟩ | ⟨scheme, slashes, plain, is, trimmed, _, isNamed⟩
  · refine iff_of_false ?_ (by simp [isBare])
    rintro ⟨base, built, _, sameHost, _⟩
    rw [is] at built
    exact (sentURL_eq_some sent).2 (sameHost.trans (host_of_slashes plain built))
  · have target := built_of_named isValid trimmed matched sent
    have sameMarks : URL.Marked rt.route.upstream ↔ URL.Marked (upstreamText rt.route.upstream) :=
      or_congr (marked_upstream_iff plain is (.inl rfl)) (marked_upstream_iff plain is (.inr rfl))
    simp only [isNamed, true_and, sameMarks]
    by_cases marked : URL.Marked (upstreamText rt.route.upstream)
    · obtain ⟨base, built, sameScheme, sameHost, samePath, sameRaw, _⟩ :=
        exists_base_of_marked plain marked target slashes
      rw [← is] at built
      refine iff_of_true ⟨base, built, sameScheme, sameHost, ?_⟩ (.inl marked)
      have sameWire : u.escapedPath = base.escapedPath := by
        rw [URL.escapedPath, URL.escapedPath, samePath, sameRaw]
      rw [sameWire]
      exact placeOf_trimRightSlash_prefix _
    · obtain ⟨base, decoded, later, built, sameScheme, sameHost, isDecoded, isLater, basePath, baseHint,
        isPath, isHint, _⟩ := exists_base_of_not_marked plain marked target slashes
      rw [← is] at built
      rw [hierOf_queryPart] at isLater isHint
      have place := placeOf_sent isDecoded isLater isPath isHint
      have basePlace := trimRightSlash_escapedPath isDecoded basePath baseHint
      simp only [marked, false_or, ReentersBase]
      rw [← basePlace, ← place]
      constructor
      · rintro ⟨other, otherBuilt, _, _, within⟩
        rw [built] at otherBuilt
        cases otherBuilt
        exact within
      · intro within
        exact ⟨base, built, sameScheme, sameHost, within⟩

def versionedBlock : RouteBlock :=
  passthroughBlock "openai" true (lit "/openai/") (lit "https://api.openai.com/v1")

def versionedValid : ConfigFile :=
  { loopbackFile [versionedBlock] with
    timeout := defaultTimeout
    routes := [{ versionedBlock with timeout := defaultTimeout }] }

def versionedRoute : BoundRoute := ⟨versionedBlock.toRoute, .passthrough⟩

def requestFor (path rawQuery : Bytes) : Request :=
  { codexRequest with path := path, rawQuery := rawQuery }

theorem stays_within_base_reentered :
    ∃ u, sentURL URL.netURL (requestFor (lit "/openai/../v1/models") []) versionedRoute = some u ∧
      WithinBase URL.netURL versionedBlock.upstream u := by
  have accepted : validate asciiFolding (loopbackFile [versionedBlock]) = .ok versionedValid := rfl
  have sent : sentURL URL.netURL (requestFor (lit "/openai/../v1/models") []) versionedRoute =
      some _ := rfl
  have matched : (requestFor (lit "/openai/../v1/models") []).path =
      versionedRoute.route.pathPrefix ++ lit "../v1/models" := rfl
  have within := stays_within_base_iff accepted (List.mem_singleton_self _) URL.netURL matched sent
  exact ⟨_, sent, within.mpr ⟨rfl, .inr (by decide +kernel)⟩⟩

/-- Dot segments of the caller's path are sent as they are and lead out of the base. -/
theorem dot_segments_leave_base :
    validate asciiFolding (loopbackFile [versionedBlock]) = .ok versionedValid ∧
      versionedRoute.route ∈ versionedValid.config.routes ∧
      ∃ u, sentURL URL.netURL (requestFor (lit "/openai/../../admin") []) versionedRoute = some u ∧
        u.escapedPath = lit "/v1/../../admin" ∧ URL.placeOf u.escapedPath = [lit "admin"] ∧
        ¬ WithinBase URL.netURL versionedBlock.upstream u := by
  refine ⟨rfl, List.mem_singleton_self _, _, rfl, by decide +kernel, by decide +kernel, ?_⟩
  rintro ⟨base, built, _, _, within⟩
  cases built
  revert within
  decide +kernel

end ClusterRouter.Channel
