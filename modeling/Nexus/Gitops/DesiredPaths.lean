import Nexus.Gitops.DesiredFiles
import Nexus.Lib.PathParts

/-!
# The paths of the desired state

What `dispatchFile` makes of the paths that `serializeDesiredState` writes. A path is looked at
through its parts between the slashes: a scope node has `scopes`, the slugs of its path and
`scope.yaml`, an override has its directory and its own name after the slugs. `fileKind` is the
decision of `dispatchFile`, and the lemmas compute it for each kind of object: the name `scope` is
taken for a scope node, and a directory `agents` or `workflows` among the slugs is taken for the
directory of the override.
-/

set_option autoImplicit false

namespace Nexus

open GitopsLayout Parts

/-! ## Parts -/

/-- The texts between the slashes of a path. -/
def pathParts (path : String) : List (List Char) := path.toList.splitOn '/'

theorem pathParts_injective : Function.Injective pathParts := fun _ _ h =>
  String.toList_injective (splitOn_injective h)

/-- A path of parts. -/
theorem pathParts_append_slash (p q : String) :
    pathParts (p ++ "/" ++ q) = pathParts p ++ pathParts q := by
  have hlist : (p ++ "/" ++ q).toList = p.toList ++ '/' :: q.toList := by
    simp [String.toList_append]
  rw [pathParts, hlist, splitOn_append_sep]
  rfl

theorem pathParts_of_plain {name : String} (h : '/' ∉ name.toList) :
    pathParts name = [name.toList] := List.splitOn_eq_singleton h

theorem pathStartsWith_iff {path dir : String} (h : '/' ∉ dir.toList) :
    pathStartsWith path (dir ++ "/") = true ↔
      ∃ rest, rest ≠ [] ∧ pathParts path = dir.toList :: rest := by
  have hlist : (dir ++ "/").toList = dir.toList ++ ['/'] := by simp [String.toList_append]
  rw [pathStartsWith, decide_eq_true_eq, hlist, isPrefix_iff h]
  rfl

theorem pathEndsWith_iff {path name : String} (h : '/' ∉ name.toList) :
    pathEndsWith path ("/" ++ name) = true ↔
      ∃ init, init ≠ [] ∧ pathParts path = init ++ [name.toList] := by
  have hlist : ("/" ++ name).toList = '/' :: name.toList := by simp [String.toList_append]
  rw [pathEndsWith, decide_eq_true_eq, hlist, isSuffix_iff h]
  rfl

theorem pathIncludes_iff {path dir : String} (h : '/' ∉ dir.toList) :
    pathIncludes path ("/" ++ dir ++ "/") = true ↔
      ∃ init rest, init ≠ [] ∧ rest ≠ [] ∧ pathParts path = init ++ dir.toList :: rest := by
  have hlist : ("/" ++ dir ++ "/").toList = '/' :: dir.toList ++ ['/'] := by
    simp [String.toList_append]
  rw [pathIncludes, decide_eq_true_eq, hlist, isInfix_iff h]
  rfl

/-- The parts in between are neither the first nor the last one. -/
theorem exists_between_iff {α : Type} {first last part : α} {middle : List α} :
    (∃ init rest, init ≠ [] ∧ rest ≠ [] ∧ first :: (middle ++ [last]) = init ++ part :: rest) ↔
      part ∈ middle := by
  constructor
  · rintro ⟨init, rest, hinit, hrest, h⟩
    cases init with
    | nil => exact absurd rfl hinit
    | cons x init =>
        rw [List.cons_append, List.cons.injEq] at h
        rw [← List.dropLast_append_getLast hrest, ← List.cons_append, ← List.append_assoc] at h
        rw [(List.append_inj' h.2 rfl).1]
        simp
  · intro h
    obtain ⟨init, rest, rfl⟩ := List.append_of_mem h
    exact ⟨first :: init, rest ++ [last], List.cons_ne_nil _ _, by simp, by simp⟩

/-! ## Names and scopes -/

section Names

variable {s : String}

/-- A slug has neither a slash nor a dot. -/
theorem isSlug_chars (h : isSlug s = true) : ∀ c ∈ s.toList, c ≠ '/' ∧ c ≠ '.' := by
  intro c hc
  rw [isSlug, List.all_eq_true] at h
  rw [← intercalate_parts '-' s.toList] at hc
  rcases mem_intercalate hc with rfl | ⟨part, hpart, hc⟩
  · decide
  · have hpasses := h part hpart
    rw [Bool.and_eq_true, List.all_eq_true] at hpasses
    have hchar := hpasses.2 c hc
    constructor
    · rintro rfl
      exact absurd hchar (by decide)
    · rintro rfl
      exact absurd hchar (by decide)

theorem Slug.isSlug (name : Slug) : Nexus.isSlug name.val = true := by
  have h := name.property
  simp only [Checks.slug, List.all_cons, List.all_nil, Bool.and_true, Bool.and_eq_true] at h
  exact h.2

theorem Slug.fileName (name : Slug) : '/' ∉ (name.val ++ ".yaml").toList := by
  rw [String.toList_append, List.mem_append]
  rintro (h | h)
  · exact (isSlug_chars name.isSlug '/' h).1 rfl
  · exact absurd h (by decide)

/-- The slugs of a scope path. -/
def ScopePath.slugs (path : ScopePath) : List String := SlashPath.segments path.val

theorem ScopePath.isScopePath (path : ScopePath) : Nexus.isScopePath path.val = true := by
  have h := path.property
  simpa only [Checks.scopePath, List.all_cons, List.all_nil, Bool.and_true] using h

/-- A scope path is the root, or its slugs each after a slash. -/
theorem ScopePath.cases (path : ScopePath) :
    (path.val = "/" ∧ path.slugs = []) ∨
      ∃ slug slugs, (∀ s ∈ slug :: slugs, Nexus.isSlug (String.ofList s) = true) ∧
        pathParts path.val = [] :: slug :: slugs ∧
        path.slugs = (slug :: slugs).map String.ofList := by
  have h := path.isScopePath
  rw [Nexus.isScopePath, Bool.or_eq_true, decide_eq_true_eq] at h
  rcases h with h | h
  · exact .inl ⟨h, by rw [ScopePath.slugs, h, SlashPath.segments_root]⟩
  · right
    split at h
    · rename_i slug slugs hparts
      rw [List.all_eq_true] at h
      refine ⟨slug, slugs, h, hparts, ?_⟩
      have hne : ∀ s ∈ slug :: slugs, s ≠ [] := by
        rintro s hs rfl
        exact absurd (h [] hs) (by decide +kernel)
      rw [ScopePath.slugs, SlashPath.segments, hparts, List.filter_cons_of_neg (by simp),
        List.filter_eq_self.2 fun s hs => by simpa using hne s hs]
    · cases h

/-- The slugs of a scope path, as the parts of a path. -/
def ScopePath.parts (path : ScopePath) : List (List Char) := path.slugs.map String.toList

theorem ScopePath.mem_parts {path : ScopePath} {s : String} :
    s.toList ∈ path.parts ↔ s ∈ path.slugs := by
  rw [ScopePath.parts, List.mem_map]
  constructor
  · rintro ⟨t, ht, h⟩
    exact String.toList_injective h ▸ ht
  · exact fun h => ⟨s, h, rfl⟩

/-- A file below a scope: what comes after the scope follows its slugs. -/
theorem pathParts_below (path : ScopePath) (base : String) :
    pathParts (if path.val = "/" then base else base ++ path.val) =
      pathParts base ++ path.parts := by
  rcases path.cases with ⟨hroot, hslugs⟩ | ⟨slug, slugs, -, hparts, hslugs⟩
  · rw [if_pos hroot, ScopePath.parts, hslugs]
    simp
  · have hne : path.val ≠ "/" := by
      intro hroot
      rw [ScopePath.slugs, hroot, SlashPath.segments_root] at hslugs
      cases hslugs
    have hlist : path.val.toList = '/' :: ['/'].intercalate (slug :: slugs) := by
      rw [← intercalate_parts '/' path.val.toList]
      show ['/'].intercalate (pathParts path.val) = _
      rw [hparts, List.intercalate_cons_of_ne_nil (List.cons_ne_nil _ _)]
      rfl
    have hafter : (['/'].intercalate (slug :: slugs)).splitOn '/' = slug :: slugs := by
      have hsplit : pathParts path.val = [] :: (['/'].intercalate (slug :: slugs)).splitOn '/' := by
        rw [pathParts, hlist]
        exact splitOn_append_sep [] _
      exact (List.cons.inj (hsplit.symm.trans hparts)).2
    rw [if_neg hne, pathParts, String.toList_append, hlist, splitOn_append_sep, hafter,
      ScopePath.parts, hslugs, List.map_map]
    congr 1
    exact (List.map_id' _).symm.trans (List.map_congr_left fun s _ => String.toList_ofList.symm)

end Names

/-! ## The written paths -/

section Written

variable {dir : String} (path : ScopePath) (name : Slug)

theorem pathParts_scopeFilePath :
    pathParts (scopeFilePath path.val) =
      scopesDir.toList :: (path.parts ++ [scopeFile.toList]) := by
  have hpath : scopeFilePath path.val =
      (if path.val = "/" then scopesDir else scopesDir ++ path.val) ++ "/" ++ scopeFile := by
    rw [scopeFilePath]
    split <;> rfl
  rw [hpath, pathParts_append_slash, pathParts_below, pathParts_of_plain (by decide),
    pathParts_of_plain (by decide)]
  rfl

theorem pathParts_platformFilePath (hdir : '/' ∉ dir.toList) :
    pathParts (platformFilePath dir name.val) =
      [dir.toList, (name.val ++ ".yaml").toList] := by
  rw [platformFilePath, String.append_assoc, pathParts_append_slash, pathParts_of_plain hdir,
    pathParts_of_plain name.fileName]
  rfl

theorem pathParts_overrideFilePath (hdir : '/' ∉ dir.toList) :
    pathParts (overrideFilePath path.val dir name.val) =
      scopesDir.toList :: ((path.parts ++ [dir.toList]) ++ [(name.val ++ ".yaml").toList]) := by
  have hpath : overrideDir path.val dir =
      (if path.val = "/" then scopesDir else scopesDir ++ path.val) ++ "/" ++ dir := by
    rw [overrideDir]
    split <;> rfl
  rw [overrideFilePath, hpath, String.append_assoc, pathParts_append_slash,
    pathParts_append_slash, pathParts_below, pathParts_of_plain (by decide),
    pathParts_of_plain hdir, pathParts_of_plain name.fileName]
  rfl

/-- The name of a file names the object. -/
theorem fileName_inj {s t : String} :
    (s ++ ".yaml").toList = (t ++ ".yaml").toList ↔ s = t := by
  rw [String.toList_append, String.toList_append]
  constructor
  · exact fun h => String.toList_injective (List.append_cancel_right h)
  · rintro rfl
    rfl

theorem fileName_eq_scopeFile {s : String} :
    (s ++ ".yaml").toList = scopeFile.toList ↔ s = "scope" := fileName_inj (t := "scope")

variable {path name} {path' : ScopePath} {name' : Slug}

theorem ScopePath.parts_inj (h : path.parts = path'.parts) : path.val = path'.val := by
  have hslugs : path.slugs = path'.slugs :=
    List.map_injective_iff.2 (fun _ _ h => String.toList_injective h) h
  rcases path.cases with ⟨hroot, hnil⟩ | ⟨slug, slugs, -, hparts, hcons⟩
  · rcases path'.cases with ⟨hroot', -⟩ | ⟨_, _, -, -, hcons'⟩
    · rw [hroot, hroot']
    · rw [hnil, hcons'] at hslugs
      cases hslugs
  · rcases path'.cases with ⟨-, hnil'⟩ | ⟨slug', slugs', -, hparts', hcons'⟩
    · rw [hcons, hnil'] at hslugs
      cases hslugs
    · rw [hcons, hcons'] at hslugs
      apply pathParts_injective
      have hchars : Function.Injective String.ofList := fun cs ds h => by
        simpa using congrArg String.toList h
      rw [hparts, hparts', List.map_injective_iff.2 hchars hslugs]

theorem scopeFilePath_inj (h : scopeFilePath path.val = scopeFilePath path'.val) :
    path.val = path'.val := by
  have hparts := congrArg pathParts h
  rw [pathParts_scopeFilePath, pathParts_scopeFilePath] at hparts
  exact ScopePath.parts_inj (List.append_cancel_right (List.cons.inj hparts).2)

theorem platformFilePath_inj (hdir : '/' ∉ dir.toList)
    (h : platformFilePath dir name.val = platformFilePath dir name'.val) :
    name.val = name'.val := by
  have hparts := congrArg pathParts h
  rw [pathParts_platformFilePath name hdir, pathParts_platformFilePath name' hdir] at hparts
  exact fileName_inj.1 (List.cons.inj (List.cons.inj hparts).2).1

theorem overrideFilePath_inj (hdir : '/' ∉ dir.toList)
    (h : overrideFilePath path.val dir name.val = overrideFilePath path'.val dir name'.val) :
    path.val = path'.val ∧ name.val = name'.val := by
  have hparts := congrArg pathParts h
  rw [pathParts_overrideFilePath path name hdir,
    pathParts_overrideFilePath path' name' hdir] at hparts
  obtain ⟨hdirs, hname⟩ := List.append_inj' (List.cons.inj hparts).2 rfl
  exact ⟨ScopePath.parts_inj (List.append_cancel_right hdirs),
    fileName_inj.1 (List.cons.inj hname).1⟩

end Written

/-! ## scopeDirOf -/

/-- A pattern with a dot is not found before the first dot of a text. -/
theorem removeFirst_append {start rest pre : List Char} (hstart : '.' ∉ start) (hpre : '.' ∉ pre) :
    removeFirst (pre ++ '.' :: rest) (start ++ (pre ++ '.' :: rest)) = start := by
  induction start with
  | nil =>
      rw [List.nil_append]
      cases hpattern : pre ++ '.' :: rest with
      | nil => exact absurd hpattern (by simp)
      | cons c cs =>
          rw [removeFirst, if_pos List.prefix_rfl, List.drop_length]
  | cons c start ih =>
      have hnot : ¬ pre ++ '.' :: rest <+: c :: (start ++ (pre ++ '.' :: rest)) := by
        rintro ⟨back, hback⟩
        -- up to the first dot there are more characters on the right
        have htake := congrArg (List.takeWhile fun d => d ≠ '.') hback
        have hleft : (pre ++ '.' :: rest ++ back).takeWhile (fun d => d ≠ '.') = pre := by
          rw [List.append_assoc, List.cons_append, List.takeWhile_append_of_pos, List.takeWhile_cons,
            if_neg (by simp), List.append_nil]
          intro d hd
          simpa using fun h : d = '.' => hpre (h ▸ hd)
        have hright : (c :: (start ++ (pre ++ '.' :: rest))).takeWhile (fun d => d ≠ '.') =
            c :: (start ++ pre) := by
          have hassoc : c :: (start ++ (pre ++ '.' :: rest)) = (c :: (start ++ pre)) ++ '.' :: rest := by
            simp
          rw [hassoc, List.takeWhile_append_of_pos, List.takeWhile_cons, if_neg (by simp),
            List.append_nil]
          intro d hd
          have hne : d ≠ '.' := by
            rintro rfl
            rcases List.mem_cons.1 hd with rfl | hd
            · exact hstart List.mem_cons_self
            · rcases List.mem_append.1 hd with hd | hd
              · exact hstart (List.mem_cons_of_mem _ hd)
              · exact hpre hd
          simpa using hne
        rw [hleft, hright] at htake
        have hlength := congrArg List.length htake
        simp only [List.length_cons, List.length_append] at hlength
        omega
      rw [List.cons_append, removeFirst, if_neg hnot,
        ih fun hmem => hstart (List.mem_cons_of_mem _ hmem)]

theorem ScopePath.no_dot (path : ScopePath) : '.' ∉ path.val.toList := by
  rcases path.cases with ⟨hroot, -⟩ | ⟨slug, slugs, hslugs, hparts, -⟩
  · rw [hroot]
    decide
  · intro hmem
    rw [← intercalate_parts '/' path.val.toList] at hmem
    change '.' ∈ ['/'].intercalate (pathParts path.val) at hmem
    rw [hparts] at hmem
    rcases mem_intercalate hmem with h | ⟨part, hpart, h⟩
    · exact absurd h (by decide)
    · rcases List.mem_cons.1 hpart with rfl | hpart
      · cases h
      · have hchar := isSlug_chars (hslugs part hpart) '.'
        rw [String.toList_ofList] at hchar
        exact (hchar h).2 rfl

/-- The path of a scope node is read back from the path of its file. -/
theorem scopeDirOf_scopeFilePath (path : ScopePath) :
    scopeDirOf (scopeFilePath path.val) = path.val := by
  have hpattern : ("/" ++ scopeFile).toList = "/scope".toList ++ '.' :: "yaml".toList := by decide
  rw [scopeDirOf, scopeFilePath, hpattern]
  split
  · rename_i hroot
    rw [hroot]
    decide +kernel
  · have hrest : (scopesDir ++ path.val ++ "/" ++ scopeFile).toList.drop scopesDir.length =
        path.val.toList ++ ("/scope".toList ++ '.' :: "yaml".toList) := by
      rw [← hpattern]
      simp only [String.toList_append, List.append_assoc]
      exact List.drop_left' rfl
    rw [hrest, removeFirst_append path.no_dot (by decide), String.ofList_toList]
    apply if_neg
    intro hempty
    have h := path.isScopePath
    rw [hempty] at h
    exact absurd h (by decide +kernel)

/-! ## The decision of dispatchFile -/

inductive FileKind where
  | node
  | assignments
  | role
  | agent
  | workflow
  | skill
  | agentOverride
  | workflowOverride
  | skillOverride
  deriving DecidableEq, Repr

/-- The kind of file that a path is taken for. -/
def fileKind (path : String) : Option FileKind :=
  if path = manifest then none
  else if pathEndsWith path ("/" ++ scopeFile) then some .node
  else if path = assignmentsFile then some .assignments
  else if pathStartsWith path (rolesDir ++ "/") then some .role
  else if pathStartsWith path (agentsDir ++ "/") then some .agent
  else if pathStartsWith path (workflowsDir ++ "/") then some .workflow
  else if pathStartsWith path (skillsDir ++ "/") then some .skill
  else if pathIncludes path ("/" ++ agentsDir ++ "/") then some .agentOverride
  else if pathIncludes path ("/" ++ workflowsDir ++ "/") then some .workflowOverride
  else if pathIncludes path ("/" ++ skillsDir ++ "/") then some .skillOverride
  else none

/-- The step for a file of a kind. -/
def parseAs {zod : Zod} (kind : FileKind) (file : DesiredStateFile) (st : ParseState zod) :
    ParseState zod :=
  match kind with
  | .node => tryParse (scopeNodeDocSchema zod) file (fun doc draft =>
      { draft with nodes := draft.nodes ++ [(scopeDirOf file.path, doc)] }) st
  | .assignments => tryParse assignmentDocSchema file (fun list draft =>
      { draft with assignments := draft.assignments ++ list }) st
  | .role => tryParse roleDocSchema file (fun doc draft =>
      { draft with roles := draft.roles ++ [doc] }) st
  | .agent => tryParse agentProfileDocSchema file (fun doc draft =>
      { draft with agents := draft.agents ++ [doc] }) st
  | .workflow => tryParse workflowDocSchema file (fun doc draft =>
      { draft with workflows := draft.workflows ++ [doc] }) st
  | .skill => tryParse skillDocSchema file (fun doc draft =>
      { draft with skills := draft.skills ++ [doc] }) st
  | .agentOverride => tryParse agentOverrideDocSchema file (fun doc draft =>
      { draft with agentOverrides := draft.agentOverrides ++ [doc] }) st
  | .workflowOverride => tryParse workflowOverrideDocSchema file (fun doc draft =>
      { draft with workflowOverrides := draft.workflowOverrides ++ [doc] }) st
  | .skillOverride => tryParse skillOverrideDocSchema file (fun doc draft =>
      { draft with skillOverrides := draft.skillOverrides ++ [doc] }) st

theorem dispatchFile_eq {zod : Zod} (st : ParseState zod) (file : DesiredStateFile) :
    dispatchFile st file = ((fileKind file.path).map fun kind => parseAs kind file st).getD st := by
  unfold dispatchFile fileKind dispatchPlatformConfigFile dispatchScopedConfigFile
  split_ifs <;> rfl

section Kinds

variable {path : String} {first last : List Char} {middle : List (List Char)}

/-- A path with a slash is not a file at the top. -/
theorem ne_topFile {file : String} (hfile : '/' ∉ file.toList)
    (h : pathParts path = first :: (middle ++ [last])) : path ≠ file := by
  rintro rfl
  rw [pathParts_of_plain hfile] at h
  have hlength := congrArg List.length h
  simp only [List.length_cons, List.length_append, List.length_nil] at hlength
  omega

theorem pathEndsWith_parts (name : String) (hname : '/' ∉ name.toList)
    (h : pathParts path = first :: (middle ++ [last])) :
    pathEndsWith path ("/" ++ name) = true ↔ last = name.toList := by
  rw [pathEndsWith_iff hname, h]
  constructor
  · rintro ⟨init, -, hparts⟩
    rw [← List.cons_append] at hparts
    exact List.singleton_injective (List.append_inj' hparts rfl).2
  · rintro rfl
    exact ⟨first :: middle, List.cons_ne_nil _ _, rfl⟩

theorem pathStartsWith_parts (dir : String) (hdir : '/' ∉ dir.toList)
    (h : pathParts path = first :: (middle ++ [last])) :
    pathStartsWith path (dir ++ "/") = true ↔ first = dir.toList := by
  rw [pathStartsWith_iff hdir, h]
  constructor
  · rintro ⟨rest, -, hparts⟩
    exact (List.cons.inj hparts).1
  · rintro rfl
    exact ⟨middle ++ [last], by simp, rfl⟩

theorem pathIncludes_parts (dir : String) (hdir : '/' ∉ dir.toList)
    (h : pathParts path = first :: (middle ++ [last])) :
    pathIncludes path ("/" ++ dir ++ "/") = true ↔ dir.toList ∈ middle := by
  rw [pathIncludes_iff hdir, h]
  exact exists_between_iff

/-- What a path with a slash is taken for. -/
theorem fileKind_parts (h : pathParts path = first :: (middle ++ [last])) :
    fileKind path =
      if last = scopeFile.toList then some .node
      else if first = rolesDir.toList then some .role
      else if first = agentsDir.toList then some .agent
      else if first = workflowsDir.toList then some .workflow
      else if first = skillsDir.toList then some .skill
      else if agentsDir.toList ∈ middle then some .agentOverride
      else if workflowsDir.toList ∈ middle then some .workflowOverride
      else if skillsDir.toList ∈ middle then some .skillOverride
      else none := by
  unfold fileKind
  rw [if_neg (ne_topFile (by decide) h), if_neg (ne_topFile (by decide) h)]
  simp only [pathEndsWith_parts scopeFile (by decide) h,
    pathStartsWith_parts rolesDir (by decide) h,
    pathStartsWith_parts agentsDir (by decide) h,
    pathStartsWith_parts workflowsDir (by decide) h,
    pathStartsWith_parts skillsDir (by decide) h,
    pathIncludes_parts agentsDir (by decide) h,
    pathIncludes_parts workflowsDir (by decide) h,
    pathIncludes_parts skillsDir (by decide) h]

end Kinds

end Nexus
