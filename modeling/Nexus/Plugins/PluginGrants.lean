import Nexus.Plugins.PluginPolicy
import Nexus.Lib.LexicalPath
import Mathlib.Tactic.Tauto

/-!
# What the grants of a plugin cover

`decideStorageAccess` and `decideNetworkAccess` of the plugin policy service. A path is normalised
to a text, and a grant covers the paths whose text is its own or starts with its own and a slash;
the text of a path and where it leads are related through its lexical form.

A grant whose text is a slash or empty has no text to start with, and a grant of steps up covers
paths of more steps up, which are above it. `decide_access_exact_iff` says for which grants and
which request the decision is nevertheless that of the directories and domains named in the grants.
-/

set_option autoImplicit false

namespace Nexus

open EventTopics PosixPath

namespace PluginPolicy

/-! ## Paths -/

/-- `path.replaceAll('\\', '/')`. -/
def withSlashes (path : String) : String :=
  String.ofList (path.toList.map fun c => if c = '\\' then '/' else c)

/-- One turn of the loop in `normalizePath`. -/
def normalizeSegment (hasRoot : Bool) (segments : List String) (segment : String) : List String :=
  if segment = "" ∨ segment = "." then segments
  else if segment = ".." then
    if segments ≠ [] ∧ segments.getLast? ≠ some ".." then segments.dropLast
    else if !hasRoot then segments ++ [segment]
    else segments
  else segments ++ [segment]

def normalizedSegments (path : String) : List String :=
  (names (withSlashes path)).foldl (normalizeSegment (isAbsolute (withSlashes path))) []

/-- `segments.join('/')`. -/
def joinSegments (segments : List String) : String :=
  String.ofList (['/'].intercalate (segments.map String.toList))

def normalizePath (path : String) : String :=
  let canonicalPath := joinSegments (normalizedSegments path)
  if isAbsolute (withSlashes path) then "/" ++ canonicalPath else canonicalPath

def pathCovers (allowedPath requestedPath : String) : Bool :=
  let normalizedAllowedPath := normalizePath allowedPath
  let normalizedRequestedPath := normalizePath requestedPath
  normalizedRequestedPath = normalizedAllowedPath ||
    startsWith normalizedRequestedPath (normalizedAllowedPath ++ "/")

def hostMatches (allowedHost requestedHost : String) : Bool :=
  if allowedHost = "*" then true
  else if startsWith allowedHost "*." then
    endsWith requestedHost (String.ofList (allowedHost.toList.drop 1))
  else allowedHost = requestedHost

/-! ## Decisions -/

def hasGrantedPermission (context : PluginPolicyContext) (predicate : PluginPermission → Bool) :
    Bool :=
  context.grantedPermissions.any predicate

def decideStorageAccess (context : PluginPolicyContext) (path access : String) :
    PluginPolicyDecision :=
  let activityDecision := decideRuntimeActivity context
  if !activityDecision.allowed then activityDecision
  else if hasGrantedPermission context fun permission =>
      match permission with
      | .filesystem access' paths => access' = access && paths.any (pathCovers · path)
      | _ => false then .allow
  else deny .permissionNotGranted

def decideNetworkAccess (context : PluginPolicyContext) (host : String) : PluginPolicyDecision :=
  let activityDecision := decideRuntimeActivity context
  if !activityDecision.allowed then activityDecision
  else if hasGrantedPermission context fun permission =>
      match permission with
      | .network hosts => hosts.any (hostMatches · host)
      | _ => false then .allow
  else deny .networkHostNotGranted

/-- The paths that a permission names for an access. -/
def pathsFor (access : String) : PluginPermission → List String
  | .filesystem access' paths => if access' = access then paths else []
  | _ => []

/-- The patterns of hosts that a permission names. -/
def hostsOf : PluginPermission → List String
  | .network hosts => hosts
  | _ => []

def grantedPaths (context : PluginPolicyContext) (access : String) : List String :=
  context.grantedPermissions.flatMap (pathsFor access)

def grantedHosts (context : PluginPolicyContext) : List String :=
  context.grantedPermissions.flatMap hostsOf

section Decisions

variable {context : PluginPolicyContext} {path access host : String}

/-- A permission that holds because of one of its names. -/
theorem hasGrantedPermission_iff {predicate : PluginPermission → Bool}
    {named : PluginPermission → List String} {covers : String → Bool}
    (h : ∀ permission, predicate permission = (named permission).any covers) :
    hasGrantedPermission context predicate = true ↔
      ∃ grant ∈ context.grantedPermissions.flatMap named, covers grant = true := by
  rw [hasGrantedPermission, funext h, ← List.any_flatMap, List.any_eq_true]

theorem decideStorageAccess_allowed_iff (h : (decideRuntimeActivity context).allowed = true) :
    (decideStorageAccess context path access).allowed = true ↔
      ∃ grant ∈ grantedPaths context access, pathCovers grant path = true := by
  rw [grantedPaths, ← hasGrantedPermission_iff fun _ => rfl, decideStorageAccess]
  simp only [h, Bool.not_true, Bool.false_eq_true, if_false]
  have hpredicate : ∀ permission : PluginPermission, (match permission with
      | .filesystem access' paths => decide (access' = access) && paths.any (pathCovers · path)
      | _ => false) = (pathsFor access permission).any (pathCovers · path) := by
    intro permission
    cases permission with
    | filesystem access' paths =>
        by_cases haccess : access' = access
        · simp [pathsFor, haccess]
        · simp [pathsFor, haccess]
    | network hosts => rfl
    | environment names => rfl
    | secrets names => rfl
    | internalCapability capabilities => rfl
  rw [funext hpredicate]
  split
  · rename_i hgranted
    exact ⟨fun _ => hgranted, fun _ => rfl⟩
  · rename_i hgranted
    exact ⟨fun hdenied => Bool.noConfusion hdenied, fun h => absurd h hgranted⟩

theorem decideNetworkAccess_allowed_iff (h : (decideRuntimeActivity context).allowed = true) :
    (decideNetworkAccess context host).allowed = true ↔
      ∃ grant ∈ grantedHosts context, hostMatches grant host = true := by
  rw [grantedHosts, ← hasGrantedPermission_iff fun _ => rfl, decideNetworkAccess]
  simp only [h, Bool.not_true, Bool.false_eq_true, if_false]
  have hpredicate : ∀ permission : PluginPermission, (match permission with
      | .network hosts => hosts.any (hostMatches · host)
      | _ => false) = (hostsOf permission).any (hostMatches · host) := by
    intro permission
    cases permission with
    | network hosts => rfl
    | filesystem access' paths => rfl
    | environment names => rfl
    | secrets names => rfl
    | internalCapability capabilities => rfl
  rw [funext hpredicate]
  split
  · rename_i hgranted
    exact ⟨fun _ => hgranted, fun _ => rfl⟩
  · rename_i hgranted
    exact ⟨fun hdenied => Bool.noConfusion hdenied, fun h => absurd h hgranted⟩

end Decisions

/-! ## The text of a path and its lexical form -/

/-- The lexical form of a path, whose slashes may be written backwards. -/
def lexicalPath (path : String) : LexicalPath := resolveLexically (withSlashes path)

/-- The segments of a lexical form. -/
def lexicalSegments (p : LexicalPath) : List String := List.replicate p.ups ".." ++ p.names

theorem dots_notMem {names : List String} (h : IsPlace names) : ".." ∉ names := fun hmem =>
  (h _ hmem).2.2.1 rfl

/-- One segment more on both sides. -/
theorem normalizeSegment_climbed {hasRoot : Bool} {path : Nat × List String}
    (hups : hasRoot = true → path.1 = 0) (hplace : IsPlace path.2) (segment : String) :
    normalizeSegment hasRoot (List.replicate path.1 ".." ++ path.2) segment =
      List.replicate (climb hasRoot path segment).1 ".." ++ (climb hasRoot path segment).2 := by
  unfold normalizeSegment climb
  by_cases hstay : segment = "" ∨ segment = "."
  · rw [if_pos hstay, if_pos hstay]
  · rw [if_neg hstay, if_neg hstay]
    by_cases hup : segment = ".."
    · rw [if_pos hup, if_pos hup]
      by_cases hnames : path.2 = []
      · -- the segments are steps up only, and the last of them is one
        have hlast : ¬ (List.replicate path.1 ".." ++ path.2 ≠ [] ∧
            (List.replicate path.1 ".." ++ path.2).getLast? ≠ some "..") := by
          rw [hnames, List.append_nil, List.getLast?_replicate]
          rintro ⟨hne, hlast⟩
          have hzero : path.1 ≠ 0 := fun h => hne (by rw [h]; rfl)
          exact hlast (if_neg hzero)
        rw [if_neg hlast, if_neg (not_not.2 hnames), hnames, List.append_nil]
        cases hasRoot with
        | true => simp [hnames]
        | false => simp [hup, List.replicate_succ']
      · have hlast : (List.replicate path.1 ".." ++ path.2).getLast? ≠ some ".." := by
          rw [List.getLast?_append_of_ne_nil _ hnames]
          exact fun h => dots_notMem hplace (List.mem_of_getLast? h)
        rw [if_pos ⟨List.append_ne_nil_of_right_ne_nil _ hnames, hlast⟩, if_pos hnames,
          List.dropLast_append_of_ne_nil hnames]
    · rw [if_neg hup, if_neg hup, List.append_assoc]

/-- The loop arrives at the segments of the lexical form. -/
theorem normalizedSegments_eq (path : String) :
    normalizedSegments path = lexicalSegments (lexicalPath path) := by
  generalize hroot : isAbsolute (withSlashes path) = hasRoot
  have hfold : ∀ (segments : List String) (start : Nat × List String),
      (hasRoot = true → start.1 = 0) → IsPlace start.2 →
      (∀ segment ∈ segments, '/' ∉ segment.toList) →
      segments.foldl (normalizeSegment hasRoot) (List.replicate start.1 ".." ++ start.2) =
        List.replicate (segments.foldl (climb hasRoot) start).1 ".." ++
          (segments.foldl (climb hasRoot) start).2 := by
    intro segments
    induction segments with
    | nil => exact fun _ _ _ _ => rfl
    | cons segment segments ih =>
        intro start hups hplace hsegments
        have hvalid := climb_valid hups hplace (hsegments segment List.mem_cons_self)
        rw [List.foldl_cons, List.foldl_cons, normalizeSegment_climbed hups hplace]
        exact ih _ hvalid.1 hvalid.2 fun segment' hmem =>
          hsegments segment' (List.mem_cons_of_mem _ hmem)
  rw [normalizedSegments, hroot]
  have hloop := hfold (names (withSlashes path)) (0, []) (fun _ => rfl) isPlace_root
    fun _ hname => slash_notMem_of_mem_names hname
  rw [List.replicate_zero, List.append_nil] at hloop
  simp only [hloop, lexicalSegments, lexicalPath, resolveLexically, climbed, hroot]

/-! ## Coverage on the texts -/

/-- Segments of a text: none is empty, and none has a slash. -/
def AreSegments (segments : List String) : Prop :=
  ∀ segment ∈ segments, segment ≠ "" ∧ '/' ∉ segment.toList

theorem areSegments_lexicalSegments (p : LexicalPath) : AreSegments (lexicalSegments p) := by
  intro segment hmem
  rcases List.mem_append.1 hmem with hmem | hmem
  · rw [List.eq_of_mem_replicate hmem]
    decide
  · exact ⟨(p.isPlace _ hmem).1, (p.isPlace _ hmem).2.2.2⟩

section Texts

variable {segments below : List String}

/-- Segments put together start with a character that is no slash. -/
theorem joinSegments_head (h : AreSegments segments) (hne : segments ≠ []) :
    ∃ c rest, (joinSegments segments).toList = c :: rest ∧ c ≠ '/' := by
  obtain ⟨segment, segments, rfl⟩ := List.exists_cons_of_ne_nil hne
  obtain ⟨hempty, hslash⟩ := h segment List.mem_cons_self
  have hchars : segment.toList ≠ [] := fun h => hempty (String.toList_eq_nil_iff.1 h)
  obtain ⟨c, rest, hchars⟩ := List.exists_cons_of_ne_nil hchars
  have hc : c ≠ '/' := fun h => hslash (by rw [hchars, h]; exact List.mem_cons_self)
  rw [joinSegments, String.toList_ofList, List.map_cons, hchars]
  cases segments with
  | nil => exact ⟨c, rest, by simp, hc⟩
  | cons next segments =>
      rw [List.map_cons, List.intercalate_cons_of_ne_nil (List.cons_ne_nil _ _)]
      exact ⟨c, _, by rw [List.cons_append, List.cons_append], hc⟩

theorem splitOn_joinSegments (h : AreSegments segments) (hne : segments ≠ []) :
    (joinSegments segments).toList.splitOn '/' = segments.map String.toList := by
  rw [joinSegments, String.toList_ofList, Parts.splitOn_intercalate (by simpa using hne),
    List.flatMap_map]
  clear hne
  induction segments with
  | nil => rfl
  | cons segment segments ih =>
      rw [List.flatMap_cons, List.splitOn_eq_singleton (h segment List.mem_cons_self).2,
        ih fun segment' hmem => h segment' (List.mem_cons_of_mem _ hmem)]
      rfl

theorem isPrefix_of_map_toList (h : segments.map String.toList <+: below.map String.toList) :
    segments <+: below := by
  have hback := h.map String.ofList
  rwa [List.map_map, List.map_map, String.ofList_comp_toList, List.map_id, List.map_id] at hback

/-- A text is the text of the first segments, or goes on with a slash after it. -/
theorem joinSegments_covers_iff (h : AreSegments segments) (hbelow : AreSegments below)
    (hne : segments ≠ []) :
    ((joinSegments below).toList = (joinSegments segments).toList ∨
        (joinSegments segments).toList ++ ['/'] <+: (joinSegments below).toList) ↔
      segments <+: below := by
  have hsplit := splitOn_joinSegments h hne
  constructor
  · intro hcovers
    have hne' : below ≠ [] := by
      rintro rfl
      obtain ⟨c, rest, htext, -⟩ := joinSegments_head h hne
      rw [htext] at hcovers
      rcases hcovers with hcovers | hcovers
      · nomatch hcovers
      · exact nomatch List.prefix_nil.1 hcovers
    have hsplit' := splitOn_joinSegments hbelow hne'
    apply isPrefix_of_map_toList
    rcases hcovers with heq | ⟨rest, hrest⟩
    · rw [← hsplit, ← hsplit', heq]
    · rw [← hsplit, ← hsplit', ← hrest, List.append_assoc, List.singleton_append,
        Parts.splitOn_append_sep]
      exact List.prefix_append _ _
  · rintro ⟨rest, rfl⟩
    by_cases hrest : rest = []
    · rw [hrest, List.append_nil]
      exact .inl rfl
    · right
      rw [joinSegments, joinSegments, String.toList_ofList, String.toList_ofList, List.map_append,
        Parts.intercalate_append (by simpa using hne) (by simpa using hrest)]
      exact ⟨_, List.append_assoc _ _ _⟩

/-- The same for texts with a slash in front of both or of neither. -/
theorem joinSegments_covers_iff_of_same (h : AreSegments segments) (hbelow : AreSegments below) :
    ((joinSegments below).toList = (joinSegments segments).toList ∨
        (joinSegments segments).toList ++ ['/'] <+: (joinSegments below).toList) ↔
      (segments ≠ [] ∨ below = []) ∧ segments <+: below := by
  by_cases hne : segments = []
  · subst hne
    have hroot : ¬ ['/'] <+: (joinSegments below).toList ∧
        ((joinSegments below).toList = [] ↔ below = []) := by
      by_cases hbelow' : below = []
      · rw [hbelow']
        decide
      · obtain ⟨c, rest, htext, hc⟩ := joinSegments_head hbelow hbelow'
        rw [htext, List.cons_prefix_cons]
        exact ⟨fun hslash => hc hslash.1.symm, by simp [hbelow']⟩
    have hempty : (joinSegments []).toList = [] := rfl
    rw [hempty, List.nil_append, hroot.2]
    simp [hroot.1]
  · rw [joinSegments_covers_iff h hbelow hne]
    simp [hne]

end Texts

/-! ## Coverage on the lexical forms -/

/-- The grant covers a path that its directory is at or above, and has a text of its own. -/
def CoversPlainly (grant path : LexicalPath) : Prop :=
  grant.rooted = path.rooted ∧ grant.ups = path.ups ∧ grant.names <+: path.names ∧
    (grant.ups ≠ 0 ∨ grant.names ≠ [] ∨ path.names = [])

/-- A relative grant without names that covers every path from the root, or the directories above
its own. -/
def CoversTooMuch (grant path : LexicalPath) : Prop :=
  grant.rooted = false ∧ grant.names = [] ∧
    ((grant.ups = 0 ∧ path.rooted = true) ∨ (0 < grant.ups ∧ grant.ups < path.ups))

/-- A grant without names, whose directory is above the path, that does not cover it. -/
def CoversTooLittle (grant path : LexicalPath) : Prop :=
  grant.rooted = path.rooted ∧ grant.names = [] ∧
    (path.ups < grant.ups ∨ (grant.ups = 0 ∧ path.ups = 0 ∧ path.names ≠ []))

section Coverage

variable {grant path : LexicalPath}

instance : Decidable (CoversPlainly grant path) := inferInstanceAs (Decidable (_ ∧ _))

instance : Decidable (CoversTooMuch grant path) := inferInstanceAs (Decidable (_ ∧ _))

instance : Decidable (CoversTooLittle grant path) := inferInstanceAs (Decidable (_ ∧ _))

theorem isAtOrAbove_iff_covers :
    grant.IsAtOrAbove path ↔ CoversPlainly grant path ∨ CoversTooLittle grant path := by
  unfold LexicalPath.IsAtOrAbove CoversPlainly CoversTooLittle
  rw [← and_or_left]
  refine and_congr_right fun _ => ⟨?_, ?_⟩
  · rintro (⟨hups, hnames⟩ | ⟨hlt, hnames⟩)
    · by_cases hzero : grant.ups = 0 ∧ grant.names = [] ∧ path.names ≠ []
      · exact .inr ⟨hzero.2.1, .inr ⟨hzero.1, hups ▸ hzero.1, hzero.2.2⟩⟩
      · exact .inl ⟨hups, hnames, by tauto⟩
    · exact .inr ⟨hnames, .inl hlt⟩
  · rintro (⟨hups, hnames, -⟩ | ⟨hnames, hlt | ⟨hzero, hzero', -⟩⟩)
    · exact .inl ⟨hups, hnames⟩
    · exact .inr ⟨hlt, hnames⟩
    · exact .inl ⟨hzero.trans hzero'.symm, hnames ▸ List.nil_prefix⟩

theorem lexicalSegments_eq_nil_iff (p : LexicalPath) :
    lexicalSegments p = [] ↔ p.ups = 0 ∧ p.names = [] := by
  simp [lexicalSegments]

/-- The condition on the texts, read on the lexical forms. -/
theorem segments_cover_iff :
    ((grant.rooted = path.rooted ∧ (lexicalSegments grant ≠ [] ∨ lexicalSegments path = []) ∧
          lexicalSegments grant <+: lexicalSegments path) ∨
        (grant.rooted = false ∧ path.rooted = true ∧ lexicalSegments grant = [])) ↔
      CoversPlainly grant path ∨ CoversTooMuch grant path := by
  have hups := grant.ups_rooted
  have hups' := path.ups_rooted
  simp only [lexicalSegments_eq_nil_iff, ne_eq]
  rw [lexicalSegments, lexicalSegments, replicate_append_isPrefix_iff (dots_notMem grant.isPlace)
    (dots_notMem path.isPlace), CoversPlainly, CoversTooMuch]
  constructor
  · rintro (⟨hrooted, hnonempty, ⟨heq, hnames⟩ | ⟨hlt, hnames⟩⟩ |
      ⟨hrooted, hrooted', hzero, hnames⟩)
    · exact .inl ⟨hrooted, heq, hnames, by tauto⟩
    · refine .inr ⟨?_, hnames, .inr ⟨?_, hlt⟩⟩
      · -- a path from the root has no steps up
        cases hroot : grant.rooted with
        | false => rfl
        | true =>
            have := hups' (hrooted ▸ hroot)
            omega
      · rcases hnonempty with hnonempty | hnonempty
        · exact Nat.pos_of_ne_zero fun hzero => hnonempty ⟨hzero, hnames⟩
        · omega
    · exact .inr ⟨hrooted, hnames, .inl ⟨hzero, hrooted'⟩⟩
  · rintro (⟨hrooted, heq, hnames, hnonempty⟩ | ⟨hrooted, hnames, ⟨hzero, hrooted'⟩ | ⟨hpos, hlt⟩⟩)
    · refine .inl ⟨hrooted, ?_, .inl ⟨heq, hnames⟩⟩
      by_cases hzero : grant.ups = 0 ∧ grant.names = []
      · exact .inr ⟨heq ▸ hzero.1, by tauto⟩
      · exact .inl hzero
    · exact .inr ⟨hrooted, hrooted', hzero, hnames⟩
    · refine .inl ⟨?_, .inl fun h => by omega, .inr ⟨hlt, hnames⟩⟩
      rw [hrooted]
      cases hroot : path.rooted with
      | false => rfl
      | true =>
          have := hups' hroot
          omega

end Coverage

section Paths

variable {grant path : String}

theorem toList_normalizePath (path : String) :
    (normalizePath path).toList = (if (lexicalPath path).rooted then ['/'] else []) ++
      (joinSegments (lexicalSegments (lexicalPath path))).toList := by
  have hrooted : isAbsolute (withSlashes path) = (lexicalPath path).rooted := by
    simp only [lexicalPath, resolveLexically]
  rw [normalizePath, normalizedSegments_eq, hrooted]
  cases (lexicalPath path).rooted with
  | true =>
      have hslash : "/".toList = ['/'] := rfl
      rw [if_pos rfl, if_pos rfl, String.toList_append, hslash]
  | false => rw [if_neg Bool.false_ne_true, if_neg Bool.false_ne_true, List.nil_append]

/-- **Coverage.** What the comparison of the texts comes to on the lexical forms. -/
theorem pathCovers_iff : pathCovers grant path = true ↔
    CoversPlainly (lexicalPath grant) (lexicalPath path) ∨
      CoversTooMuch (lexicalPath grant) (lexicalPath path) := by
  have htexts : pathCovers grant path = true ↔
      (normalizePath path).toList = (normalizePath grant).toList ∨
        (normalizePath grant).toList ++ ['/'] <+: (normalizePath path).toList := by
    rw [pathCovers, Bool.or_eq_true, decide_eq_true_eq, startsWith, decide_eq_true_eq,
      String.toList_append, String.toList_inj]
    rfl
  have hgrant := areSegments_lexicalSegments (lexicalPath grant)
  have hpath := areSegments_lexicalSegments (lexicalPath path)
  rw [htexts, ← segments_cover_iff, toList_normalizePath, toList_normalizePath,
    ← joinSegments_covers_iff_of_same hgrant hpath]
  cases hroot : (lexicalPath grant).rooted with
  | true =>
      cases hroot' : (lexicalPath path).rooted with
      | true => simp
      | false =>
          -- a text without a slash in front
          by_cases hne : lexicalSegments (lexicalPath path) = []
          · simp [hne, joinSegments]
          · obtain ⟨c, rest, htext, hc⟩ := joinSegments_head hpath hne
            simp [htext, hc, hc.symm]
  | false =>
      cases hroot' : (lexicalPath path).rooted with
      | true =>
          by_cases hne : lexicalSegments (lexicalPath grant) = []
          · simp [hne, joinSegments]
          · obtain ⟨c, rest, htext, hc⟩ := joinSegments_head hgrant hne
            simp [htext, hc, hc.symm, hne]
      | false => simp

/-- The directory that a grant names is at or above a path. -/
def NamesAncestor (grant path : String) : Prop :=
  IsAtOrAbove (withSlashes grant) (withSlashes path)

theorem namesAncestor_iff : NamesAncestor grant path ↔
    CoversPlainly (lexicalPath grant) (lexicalPath path) ∨
      CoversTooLittle (lexicalPath grant) (lexicalPath path) :=
  (isAtOrAbove_iff _ _).trans isAtOrAbove_iff_covers

end Paths

/-! ## Hosts -/

/-- The host is a name, a dot and the domain. -/
def IsProperSubdomain (host domain : String) : Prop :=
  ∃ name, name ≠ "" ∧ host = name ++ "." ++ domain

/-- The pattern is `*`, the host itself, or `*.` and a domain that the host is below. -/
def NamesHost (pattern host : String) : Prop :=
  pattern = "*" ∨ pattern = host ∨
    ∃ domain, pattern = "*." ++ domain ∧ IsProperSubdomain host domain

/-- A host that is a domain with no name in front of the dot, and the pattern of this domain. -/
def IsNameless (pattern host : String) : Prop :=
  ∃ domain, pattern = "*." ++ domain ∧ host = "." ++ domain

section Hosts

variable {pattern host : String}

theorem hostMatches_iff :
    hostMatches pattern host = true ↔ NamesHost pattern host ∨ IsNameless pattern host := by
  unfold hostMatches
  by_cases hall : pattern = "*"
  · rw [if_pos hall]
    exact ⟨fun _ => .inl (.inl hall), fun _ => rfl⟩
  · rw [if_neg hall]
    by_cases hwild : startsWith pattern "*." = true
    · rw [if_pos hwild]
      rw [startsWith, decide_eq_true_eq] at hwild
      obtain ⟨domain, hdomain⟩ := hwild
      have hpattern : pattern = "*." ++ String.ofList domain := by
        rw [← String.toList_inj, ← hdomain]
        simp
      have hinjective : ∀ domain' : String, pattern = "*." ++ domain' →
          domain' = String.ofList domain := fun domain' h =>
        (String.append_right_inj _).1 (h.symm.trans hpattern)
      have hends : endsWith host (String.ofList (pattern.toList.drop 1)) = true ↔
          ∃ name, host = name ++ "." ++ String.ofList domain := by
        have hdrop : pattern.toList.drop 1 = '.' :: domain := by
          rw [← hdomain]
          rfl
        rw [hdrop, endsWith, decide_eq_true_eq, String.toList_ofList]
        constructor
        · rintro ⟨name, hname⟩
          refine ⟨String.ofList name, ?_⟩
          rw [← String.toList_inj, ← hname]
          simp
        · rintro ⟨name, rfl⟩
          exact ⟨name.toList, by simp⟩
      rw [hends]
      constructor
      · rintro ⟨name, hhost⟩
        by_cases hname : name = ""
        · subst hname
          exact .inr ⟨_, hpattern, by simpa using hhost⟩
        · exact .inl (.inr (.inr ⟨_, hpattern, name, hname, hhost⟩))
      · rintro ((h | h | ⟨domain', h, name, -, hhost⟩) | ⟨domain', h, hhost⟩)
        · exact absurd h hall
        · exact ⟨"*", by rw [← h, hpattern]; rfl⟩
        · exact ⟨name, by rw [hhost, hinjective domain' h]⟩
        · exact ⟨"", by rw [hhost, hinjective domain' h]; rfl⟩
    · rw [if_neg hwild, decide_eq_true_eq]
      have hnot : ∀ domain, pattern ≠ "*." ++ domain := by
        rintro domain rfl
        apply hwild
        rw [startsWith, decide_eq_true_eq, String.toList_append]
        exact List.prefix_append _ _
      constructor
      · exact fun h => .inl (.inr (.inl h))
      · rintro ((h | h | ⟨domain, h, -⟩) | ⟨domain, h, -⟩)
        · exact absurd h hall
        · exact h
        · exact absurd h (hnot domain)
        · exact absurd h (hnot domain)

end Hosts

/-! ## Exactness -/

section Exactness

theorem or_iff_or_left_iff {P Q R : Prop} : (P ∨ Q ↔ P ∨ R) ↔ P ∨ (Q ↔ R) := by tauto

theorem or_iff_left_iff {P Q : Prop} : (P ∨ Q ↔ P) ↔ P ∨ ¬ Q := by tauto

variable {context : PluginPolicyContext}

/-- The decision on a path is that of the directories that the grants name. -/
def StorageExact (context : PluginPolicyContext) (path access : String) : Prop :=
  (decideStorageAccess context path access).allowed = true ↔
    ∃ grant ∈ grantedPaths context access, NamesAncestor grant path

/-- The decision on a host is that of the domains that the grants name. -/
def NetworkExact (context : PluginPolicyContext) (host : String) : Prop :=
  (decideNetworkAccess context host).allowed = true ↔
    ∃ grant ∈ grantedHosts context, NamesHost grant host

/-- **Exactness of the grants.** For a plugin that passes the checks on its state, a decision on a
path is exact when a grant covers the path plainly, and otherwise when a grant covers it that should
not exactly if one does not cover it that should. A decision on a host is exact except for a host
that is a granted domain behind a dot. -/
theorem decide_access_exact_iff (h : (decideRuntimeActivity context).allowed = true)
    (path access host : String) :
    (StorageExact context path access ↔
      (∃ grant ∈ grantedPaths context access,
          CoversPlainly (lexicalPath grant) (lexicalPath path)) ∨
        ((∃ grant ∈ grantedPaths context access,
            CoversTooMuch (lexicalPath grant) (lexicalPath path)) ↔
          ∃ grant ∈ grantedPaths context access,
            CoversTooLittle (lexicalPath grant) (lexicalPath path))) ∧
      (NetworkExact context host ↔
        (∃ grant ∈ grantedHosts context, NamesHost grant host) ∨
          ¬ ∃ grant ∈ grantedHosts context, IsNameless grant host) := by
  rw [StorageExact, NetworkExact, decideStorageAccess_allowed_iff h,
    decideNetworkAccess_allowed_iff h]
  simp only [pathCovers_iff, namesAncestor_iff, hostMatches_iff, and_or_left, exists_or]
  constructor
  · exact or_iff_or_left_iff
  · exact or_iff_left_iff

/-- An active plugin that may read a path and call the hosts of a pattern. -/
def grantedContext (path pattern : String) : PluginPolicyContext where
  pluginId := "notes"
  version := "1.0.0"
  trustLevel := .thirdParty
  isolationMode := .container
  lifecycleState := .enabled
  enabled := true
  grantedPermissions := [.filesystem "read" [path], .network [pattern]]
  scanStatus := .passed
  compatibilityStatus := .passed
  runtimeHealth := .healthy

theorem workspace_grant_exact :
    StorageExact (grantedContext "/workspace" "*.example.com") "/workspace//a/../b" "read" ∧
      NetworkExact (grantedContext "/workspace" "*.example.com") "api.example.com" := by
  have hactive : (decideRuntimeActivity (grantedContext "/workspace" "*.example.com")).allowed =
      true := by decide
  have hexact := decide_access_exact_iff hactive "/workspace//a/../b" "read" "api.example.com"
  refine ⟨hexact.1.2 (.inl ⟨"/workspace", by decide, by decide +kernel⟩), hexact.2.2 (.inl ?_)⟩
  exact ⟨"*.example.com", by decide, .inr (.inr ⟨"example.com", by decide, "api", by decide,
    by decide⟩)⟩

/-- A grant of the root does not cover the files in it, and a grant of the working directory covers
the paths from the root. -/
theorem root_and_dot_grants_inexact :
    (decideRuntimeActivity (grantedContext "/" "*")).allowed = true ∧
      ¬ StorageExact (grantedContext "/" "*") "/a" "read" ∧
      (decideRuntimeActivity (grantedContext "." "*")).allowed = true ∧
      ¬ StorageExact (grantedContext "." "*") "/etc/passwd" "read" := by
  refine ⟨by decide, fun hexact => ?_, by decide, fun hexact => ?_⟩
  · have hnames : NamesAncestor "/" "/a" := namesAncestor_iff.2 (.inr (by decide +kernel))
    exact absurd (hexact.2 ⟨"/", by decide, hnames⟩) (by decide +kernel)
  · obtain ⟨grant, hgrant, hnames⟩ := hexact.1 (by decide +kernel)
    have hdot : grant = "." := by simpa [grantedPaths, grantedContext, pathsFor] using hgrant
    rw [hdot, namesAncestor_iff] at hnames
    exact absurd hnames (by decide +kernel)

end Exactness

end PluginPolicy

end Nexus
