import ClusterRouter.Foundation.Authority
import ClusterRouter.Router.UpstreamAuth

/-! What `LoadConfig` asks about a URL is answered by `url.Parse`, `Hostname` and
`strings.ToLower`. In a DNS name neither letter case nor a dot at the end matters. -/

set_option autoImplicit false

namespace ClusterRouter.Router

open Foundation

/-- `strings.ToLower`, of which only the treatment of ASCII is relied on: ASCII at the end
of a string is no part of a longer rune. -/
structure Lowering where
  lower : Bytes → Bytes
  lower_nil : lower [] = []
  lower_append : ∀ (front : Bytes) {back : Bytes}, (∀ b ∈ back, b < 128) →
    lower (front ++ back) = lower front ++ back.map Bytes.toLower

section

variable (reader : AuthorityReader) (lowering : Lowering)

def outsideOf (lookupEnv : Bytes → Option Bytes) : Outside where
  lookupEnv := lookupEnv
  lowerHostname raw := ((URL.parse reader raw).map (fun u => lowering.lower u.hostname)).getD []

def libraryOf (library : Library) : Library :=
  { library with parsesURL := fun raw => (URL.parse reader raw).isSome }

end

def belongsTo (host domain : Bytes) : Bool :=
  decide (host = domain) || (Bytes.dot :: domain).isSuffixOf host

def trimRootDot (name : Bytes) : Bytes :=
  if name.getLast? = some Bytes.dot then name.dropLast else name

def DenotesForbidden (host : Bytes) : Prop :=
  ∃ domain ∈ forbiddenUpstreamHostSuffixes,
    belongsTo (trimRootDot (host.map Bytes.toLower)) domain = true

def RootedForbidden (host : Bytes) : Prop :=
  host.getLast? = some Bytes.dot ∧ ∃ domain ∈ forbiddenUpstreamHostSuffixes,
    belongsTo (host.dropLast.map Bytes.toLower) domain = true

instance (host : Bytes) : Decidable (DenotesForbidden host) :=
  inferInstanceAs (Decidable (∃ domain ∈ forbiddenUpstreamHostSuffixes, _))

variable {reader : AuthorityReader} {lowering : Lowering} {host : Bytes}

theorem toLower_cases (b : UInt8) :
    Bytes.toLower b = b ∨ b < 128 ∧ Bytes.toLower b ≠ Bytes.dot ∧ b ≠ Bytes.dot := by
  unfold Bytes.toLower
  split
  next upper =>
    right
    simp only [Bytes.isUpper, decide_eq_true_eq, UInt8.le_iff_toNat_le, UInt8.reduceToNat] at upper
    simp only [Bytes.dot, UInt8.lt_iff_toNat_lt, ne_eq, ← UInt8.toNat_inj, UInt8.toNat_add,
      UInt8.reduceToNat]
    omega
  next => exact .inl rfl

theorem ascii_of_map_toLower {s t : Bytes} (lowered : s.map Bytes.toLower = t)
    (ascii : ∀ b ∈ t, b < 128) : ∀ b ∈ s, b < 128 := fun b member =>
  (toLower_cases b).elim (fun same => same ▸ ascii _ (lowered ▸ List.mem_map_of_mem member)) And.left

theorem rootedForbidden_iff : RootedForbidden host ↔
    DenotesForbidden host ∧ host.getLast? = some Bytes.dot := by
  unfold RootedForbidden DenotesForbidden trimRootDot
  rw [List.getLast?_map, List.map_dropLast]
  constructor
  · rintro ⟨dotted, domain, member, belongs⟩
    rw [dotted]
    exact ⟨⟨domain, member, belongs⟩, rfl⟩
  · rintro ⟨⟨domain, member, belongs⟩, dotted⟩
    rw [dotted] at belongs
    exact ⟨dotted, domain, member, belongs⟩

/-- Without the dot `strings.ToLower` shows a forbidden host as it is. -/
theorem belongsTo_lower {domain : Bytes} (ascii : ∀ b ∈ Bytes.dot :: domain, b < 128)
    (belongs : belongsTo (host.map Bytes.toLower) domain = true) :
    belongsTo (lowering.lower host) domain = true := by
  simp only [belongsTo, Bool.or_eq_true, decide_eq_true_eq, List.isSuffixOf_iff_suffix] at belongs ⊢
  rcases belongs with whole | ⟨front, parts⟩
  · left
    have lowered := lowering.lower_append [] (ascii_of_map_toLower whole fun b member =>
      ascii b (List.mem_cons_of_mem _ member))
    rw [List.nil_append, lowering.lower_nil, List.nil_append] at lowered
    rw [lowered, whole]
  · right
    obtain ⟨first, back, rfl, -, isBack⟩ := List.map_eq_append_iff.mp parts.symm
    rw [lowering.lower_append first (ascii_of_map_toLower isBack ascii), isBack]
    exact List.suffix_append ..

theorem not_denotesForbidden_of_validated {lookupEnv : Bytes → Option Bytes} {name raw : Bytes}
    {u : URL} (parsed : URL.parse reader raw = some u)
    (valid : validateUpstreamURL (outsideOf reader lowering lookupEnv) name raw = .ok ())
    (plain : u.hostname.getLast? ≠ some Bytes.dot) : ¬ DenotesForbidden u.hostname := by
  rintro ⟨domain, member, belongs⟩
  have undotted : trimRootDot (u.hostname.map Bytes.toLower) = u.hostname.map Bytes.toLower := by
    refine if_neg fun dotted => plain ?_
    rw [List.getLast?_map] at dotted
    obtain ⟨last, isLast, lowered⟩ := Option.map_eq_some_iff.mp dotted
    rcases toLower_cases last with same | ⟨-, other, -⟩
    · rw [isLast, ← same, lowered]
    · exact absurd lowered other
  have ascii : ∀ domain ∈ forbiddenUpstreamHostSuffixes, ∀ b ∈ Bytes.dot :: domain, b < 128 := by
    decide +kernel
  rw [undotted] at belongs
  have found : belongsTo (lowering.lower u.hostname) domain = true :=
    belongsTo_lower (ascii domain member) belongs
  have unnamed : ∀ domain ∈ forbiddenUpstreamHostSuffixes, belongsTo [] domain = false := by
    decide +kernel
  have hosted : lowering.lower u.hostname ≠ [] := by
    intro empty
    rw [empty, unnamed domain member] at found
    cases found
  have nonempty : raw ≠ [] := by
    rintro rfl
    cases parsed
    rw [show List.map Bytes.toLower _ = [] from rfl, unnamed domain member] at belongs
    cases belongs
  simp only [validateUpstreamURL, outsideOf, parsed, Option.map_some, Option.getD_some,
    if_neg hosted, if_neg nonempty] at valid
  split at valid
  · cases valid
  next unmatched => exact absurd found (List.find?_eq_none.mp unmatched domain member)

/-- No node of an accepted configuration is at a forbidden domain exactly if none is spelled
with a dot at the end of one. -/
theorem forbidden_hosts_refused_iff (reader : AuthorityReader) (lowering : Lowering)
    (lookupEnv : Bytes → Option Bytes) (library : Library) {raw cfg : Config} {id : Nat}
    {heap : Heap} {built : List UpstreamNode × Heap}
    (loaded : loadConfig (outsideOf reader lowering lookupEnv) raw = .ok cfg)
    (_accepted : buildReloadable (libraryOf reader library) cfg id heap = .ok built) :
    (∀ node ∈ cfg.nodes, ∀ u, URL.parse reader node.url = some u → ¬ DenotesForbidden u.hostname) ↔
      ∀ node ∈ cfg.nodes, ∀ u, URL.parse reader node.url = some u → ¬ RootedForbidden u.hostname := by
  refine forall₂_congr fun node member => forall₂_congr fun u parsed => not_congr ?_
  rw [rootedForbidden_iff]
  refine ⟨fun denotes => ⟨denotes, ?_⟩, And.left⟩
  obtain ⟨source, _, isNode⟩ := mem_of_loadConfig loaded member
  obtain ⟨rfl, _⟩ := loadNode_eq_ok isNode
  obtain ⟨_, valid, _⟩ := bind_eq_ok.mp isNode
  exact Classical.byContradiction fun plain =>
    not_denotesForbidden_of_validated parsed valid plain denotes

def asciiLowering : Lowering where
  lower := List.map Bytes.toLower
  lower_nil := rfl
  lower_append _ _ _ := List.map_append

def noEnv : Bytes → Option Bytes := fun _ => none

theorem forbidden_hosts_refused_cloud :
    ∃ cfg built, loadConfig (outsideOf URL.netURL asciiLowering noEnv) (clusterOf [cloudNode]) =
        .ok cfg ∧
      buildReloadable (libraryOf URL.netURL plainLibrary) cfg 0 freshHeap = .ok built ∧
      ∀ node ∈ cfg.nodes, ∀ u, URL.parse URL.netURL node.url = some u →
        ¬ DenotesForbidden u.hostname := by
  have loaded : loadConfig (outsideOf URL.netURL asciiLowering noEnv) (clusterOf [cloudNode]) =
    .ok _ := rfl
  refine ⟨_, _, loaded, rfl, ?_⟩
  refine (forbidden_hosts_refused_iff URL.netURL asciiLowering noEnv plainLibrary loaded
    (rfl : buildReloadable _ _ 0 freshHeap = _)).mpr ?_
  intro node member u parsed
  obtain rfl := List.mem_singleton.mp member
  cases parsed
  exact fun rooted => absurd rooted.1 (by decide)

def rootedNode : NodeConfig := { cloudNode with url := lit "https://api.zendesk.com./v1" }

theorem rooted_forbidden_host_accepted :
    ∃ cfg built, loadConfig (outsideOf URL.netURL asciiLowering noEnv) (clusterOf [rootedNode]) =
        .ok cfg ∧
      buildReloadable (libraryOf URL.netURL plainLibrary) cfg 0 freshHeap = .ok built ∧
      ¬ ∀ node ∈ cfg.nodes, ∀ u, URL.parse URL.netURL node.url = some u →
        ¬ DenotesForbidden u.hostname := by
  refine ⟨_, _, rfl, rfl, fun refused => ?_⟩
  exact refused _ List.mem_cons_self _ rfl (by decide +kernel)

end ClusterRouter.Router
