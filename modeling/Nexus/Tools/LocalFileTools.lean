import Nexus.Lib.Json
import Nexus.Lib.LinkTree
import Nexus.Lib.Prog

/-!
# The file tools of the local agent

`PathValidator` compares the texts of resolved paths, and the calls of `FileTools` leave the links on
an accepted path to the operating system. They stay inside the allowed roots when every root exists
and is no link, and no link inside leads out (`local_file_tools_inside`).

The audit log, permissions and the mode of a new file are left out.
-/

set_option autoImplicit false

namespace Nexus

open PosixPath

/-! ## The validator -/

/-- The working directory of the process. -/
structure ProcessCwd where
  place : List String
  isPlace : IsPlace place

/-- `path.resolve`. -/
def pathResolve (c : ProcessCwd) (paths : List String) : String := render (resolve c.place paths)

/-- A name is resolved in the directory before it. -/
theorem pathResolve_name {c : ProcessCwd} {place : List String} {name : String}
    (hplace : IsPlace place) (hname : IsName name) :
    pathResolve c [render place, name] = render (place ++ [name]) := by
  rw [pathResolve, resolve, List.foldl_cons, enter_render hplace]
  exact congrArg render (enter_name hname)

structure PathValidator where
  allowedRoots : List String

namespace PathValidator

def isAllowed (v : PathValidator) (c : ProcessCwd) (normalized : String) : Bool :=
  v.allowedRoots.any fun root =>
    let normalizedRoot := pathResolve c [root]
    normalized = normalizedRoot || (normalizedRoot ++ "/").toList.isPrefixOf normalized.toList

def ensureAllowed (v : PathValidator) (c : ProcessCwd) (candidatePath : String) :
    Except String Unit :=
  let normalized := pathResolve c [candidatePath]
  if v.isAllowed c normalized then .ok ()
  else .error ("Path is not within allowed roots: " ++ normalized)

def resolvePath (v : PathValidator) (c : ProcessCwd) (inputPath cwd : String) :
    Except String String :=
  let candidate :=
    if isAbsolute inputPath then pathResolve c [inputPath] else pathResolve c [cwd, inputPath]
  match v.ensureAllowed c candidate with
  | .ok () => .ok candidate
  | .error message => .error message

/-- The place that an input path is resolved to. -/
def candidatePlace (c : ProcessCwd) (inputPath cwd : String) : List String :=
  resolve c.place (if isAbsolute inputPath then [inputPath] else [cwd, inputPath])

/-- The place of an allowed root. -/
def rootPlace (c : ProcessCwd) (root : String) : List String := resolve c.place [root]

variable {v : PathValidator} {c : ProcessCwd} {inputPath cwd : String} {place : List String}

theorem isPlace_candidatePlace : IsPlace (candidatePlace c inputPath cwd) := c.isPlace.resolve _

theorem isPlace_rootPlace {root : String} : IsPlace (rootPlace c root) := c.isPlace.resolve _

/-- The validator accepts what is at a root or below another root than `/`. -/
theorem isAllowed_iff (h : IsPlace place) :
    v.isAllowed c (render place) = true ↔
      ∃ root ∈ v.allowedRoots, place = rootPlace c root ∨
        rootPlace c root ≠ [] ∧ rootPlace c root <+: place := by
  rw [isAllowed, List.any_eq_true]
  apply exists_congr
  intro root
  apply and_congr_right
  intro _
  rw [Bool.or_eq_true, decide_eq_true_eq, List.isPrefixOf_iff_prefix]
  constructor
  · rintro (heq | hleads)
    · exact .inl (render_injective h isPlace_rootPlace heq)
    · exact .inr (prefix_of_render_slash h isPlace_rootPlace hleads)
  · rintro (heq | ⟨hne, below, rfl⟩)
    · exact .inl (congrArg render heq)
    · by_cases hbelow : below = []
      · left
        rw [hbelow, List.append_nil]
        rfl
      · exact .inr (render_slash_below hne hbelow)

/-- The place is lexically at or below an allowed root. -/
def AtOrBelow (v : PathValidator) (c : ProcessCwd) (place : List String) : Prop :=
  ∃ root ∈ v.allowedRoots, rootPlace c root <+: place

theorem resolvePath_eq :
    v.resolvePath c inputPath cwd =
      if v.isAllowed c (render (candidatePlace c inputPath cwd)) then
        .ok (render (candidatePlace c inputPath cwd))
      else
        .error ("Path is not within allowed roots: " ++ render (candidatePlace c inputPath cwd)) := by
  have hcandidate : (if isAbsolute inputPath then pathResolve c [inputPath]
      else pathResolve c [cwd, inputPath]) = render (candidatePlace c inputPath cwd) :=
    (apply_ite (pathResolve c) _ _ _).symm
  have hagain : pathResolve c [render (candidatePlace c inputPath cwd)] =
      render (candidatePlace c inputPath cwd) :=
    congrArg render (enter_render isPlace_candidatePlace _)
  rw [resolvePath, hcandidate, ensureAllowed, hagain]
  cases v.isAllowed c (render (candidatePlace c inputPath cwd)) with
  | true => rfl
  | false => rfl

/-- An accepted path is the text of a place at or below a root. -/
theorem resolvePath_ok {resolved : String} (h : v.resolvePath c inputPath cwd = .ok resolved) :
    resolved = render (candidatePlace c inputPath cwd) ∧
      v.AtOrBelow c (candidatePlace c inputPath cwd) := by
  rw [resolvePath_eq] at h
  split at h
  · rename_i hallowed
    refine ⟨(Except.ok.inj h).symm, ?_⟩
    obtain ⟨root, hroot, heq | ⟨-, hleads⟩⟩ := (isAllowed_iff isPlace_candidatePlace).1 hallowed
    · exact ⟨root, hroot, heq ▸ List.prefix_refl _⟩
    · exact ⟨root, hroot, hleads⟩
  · nomatch h

/-- What is at or below a root other than `/` is accepted. -/
theorem resolvePath_accepts {root : String} (hroot : root ∈ v.allowedRoots)
    (hne : rootPlace c root ≠ []) (hleads : rootPlace c root <+: candidatePlace c inputPath cwd) :
    v.resolvePath c inputPath cwd = .ok (render (candidatePlace c inputPath cwd)) := by
  rw [resolvePath_eq, if_pos]
  exact (isAllowed_iff isPlace_candidatePlace).2 ⟨root, hroot, .inr ⟨hne, hleads⟩⟩

end PathValidator

/-! ## The file system -/

/-- The file system, and the places that the calls have read, listed, created, overwritten or
removed. -/
structure FileSystem where
  tree : FileTree
  accesses : List (List String) := []

def FileSystem.access (s : FileSystem) (places : List (List String)) : FileSystem :=
  { s with accesses := s.accesses ++ places }

inductive FileOp where
  | stat (path : String)
  | lstat (path : String)
  | readFile (path : String)
  | readdir (path : String)
  /-- With `recursive`. -/
  | mkdir (path : String)
  | writeFile (path : String) (content : List UInt8)
  /-- With `force`. -/
  | rm (path : String) (isRecursive : Bool)
  | unlink (path : String)

abbrev FileOp.Value : FileOp → Type
  | .stat _ => Bool
  | .lstat _ => Bool
  | .readFile _ => List UInt8
  | .readdir _ => List (String × Bool)
  | _ => Unit

abbrev FileOp.Ans (o : FileOp) : Type := Except Errno o.Value

def FileNode.isDirectory : FileNode → Bool
  | .directory => true
  | _ => false

namespace FileTree

/-- The node at a location. -/
def nodeAt (t : FileTree) : Except Errno (List String) → Except Errno (List String × FileNode)
  | .error e => .error e
  | .ok place =>
      match t.node? place with
      | some node => .ok (place, node)
      | none => .error .ENOENT

/-- The node that a path leads to. -/
def find (t : FileTree) (path : String) : Except Errno (List String × FileNode) :=
  t.nodeAt (t.locate path)

/-- The node that a path names, a link at its end not followed. -/
def findEntry (t : FileTree) (path : String) : Except Errno (List String × FileNode) :=
  t.nodeAt (t.locateEntry path)

theorem nodeAt_ok {t : FileTree} {found : Except Errno (List String)} {place : List String}
    {node : FileNode} (h : t.nodeAt found = .ok (place, node)) :
    found = .ok place ∧ t.node? place = some node := by
  cases found with
  | error e => nomatch h
  | ok place' =>
      rw [nodeAt] at h
      cases hnode : t.node? place' with
      | none =>
          rw [hnode] at h
          nomatch h
      | some node' =>
          rw [hnode] at h
          obtain ⟨rfl, rfl⟩ := Prod.mk.inj (Except.ok.inj h)
          exact ⟨rfl, hnode⟩

/-- The nodes at or below a place. -/
def below (t : FileTree) (place : List String) : List (List String) :=
  (OrderedMap.keys t.nodes).filter fun p => place.isPrefixOf p

end FileTree

def FileOp.exec (s : FileSystem) : (o : FileOp) → FileSystem × o.Ans
  | .stat path => (s, (s.tree.find path).map fun found => found.2.isDirectory)
  | .lstat path => (s, (s.tree.findEntry path).map fun found => found.2.isDirectory)
  | .readFile path =>
      match s.tree.find path with
      | .error e => (s, .error e)
      | .ok (place, .file content) => (s.access [place], .ok content)
      | .ok _ => (s, .error .EISDIR)
  | .readdir path =>
      match s.tree.find path with
      | .error e => (s, .error e)
      | .ok (place, .directory) =>
          (s.access [place], .ok ((s.tree.children place).map fun e => (e.1, e.2.isDirectory)))
      | .ok _ => (s, .error .ENOTDIR)
  | .mkdir path =>
      match s.tree.mkdirAll [] (enter [] path) with
      | (tree, made, outcome) => (FileSystem.access { s with tree := tree } made, outcome)
  | .writeFile path content =>
      match s.tree.locate path with
      | .error e => (s, .error e)
      | .ok place =>
          if s.tree.node? place = some .directory then (s, .error .EISDIR)
          else
            (FileSystem.access
              { s with tree := s.tree.setNode place.dropLast (place.getLastD "") (.file content) }
              [place], .ok ())
  | .rm path isRecursive =>
      match s.tree.findEntry path with
      | .error .ENOENT => (s, .ok ())
      | .error e => (s, .error e)
      | .ok (place, node) =>
          if node.isDirectory && !isRecursive then (s, .error .EISDIR)
          else
            (FileSystem.access { s with tree := s.tree.remove place } (s.tree.below place), .ok ())
  | .unlink path =>
      match s.tree.findEntry path with
      | .error e => (s, .error e)
      | .ok (place, node) =>
          if node.isDirectory then (s, .error .EISDIR)
          else (FileSystem.access { s with tree := s.tree.remove place } [place], .ok ())

/-! ## The tools -/

inductive FileToolError where
  | rejected (message : String)
  | system (error : Errno)
  /-- Not an error of the source: the listing has not gone deep enough yet. -/
  | unfinished
  deriving DecidableEq, Repr

abbrev FileProg (α : Type) := Prog FileOp FileOp.Ans FileToolError α

/-- One call of the file system; its error is thrown. -/
def awaitFile (o : FileOp) : FileProg o.Value :=
  .call o fun
    | .ok value => .pure value
    | .error error => .fail (.system error)

section Await

variable {s s' : FileSystem}

/-- The contract of a tool that runs alone. -/
abbrev fileContract : Contract FileOp FileOp.Ans FileSystem :=
  Prog.alone FileOp.exec fun _ _ => True

theorem meets_awaitFile {o : FileOp} {Q : o.Value → FileSystem → Prop}
    {E : FileToolError → FileSystem → Prop}
    (hok : ∀ value, (o.exec s).2 = .ok value → Q value (o.exec s).1)
    (herror : ∀ error, (o.exec s).2 = .error error → E (.system error) (o.exec s).1) :
    (awaitFile o).Meets fileContract Q E s := by
  refine ⟨trivial, fun ans s' hexec => ?_⟩
  rw [hexec] at hok herror
  cases ans with
  | ok value => exact hok value rfl
  | error error => exact herror error rfl

end Await

structure ToolResult where
  text : String
  isError : Bool := false
  deriving DecidableEq, Repr

inductive BufferEncoding where
  | utf8
  | base64
  deriving DecidableEq, Repr

structure ReadFileInput where
  path : String
  encoding : Option BufferEncoding := none

structure WriteFileInput where
  path : String
  content : String

structure LsInput where
  path : String
  isRecursive : Option Bool := none
  missingOk : Bool := false

structure DeleteInput where
  path : String
  isRecursive : Option Bool := none

def isMissingPathError (error : FileToolError) : Bool := error = .system .ENOENT

/-- `JSON.stringify` of a list of texts, indented by two blanks. -/
def stringifyIndented (entries : List String) : String :=
  if entries = [] then "[]"
  else "[\n" ++ ",\n".intercalate (entries.map fun entry => "  " ++ jsonQuote entry) ++ "\n]"

/-- The tools of a process; `toText` is `Buffer.toString`. -/
structure FileTools where
  maxFileBytes : Nat
  pathValidator : PathValidator
  processCwd : ProcessCwd
  toText : BufferEncoding → List UInt8 → String

namespace FileTools

variable (f : FileTools)

def resolvePath (path : String) : FileProg String :=
  match f.pathValidator.resolvePath f.processCwd path (render f.processCwd.place) with
  | .ok resolved => .pure resolved
  | .error message => .fail (.rejected message)

def readFile (input : ReadFileInput) : FileProg ToolResult := do
  let resolved ← f.resolvePath input.path
  let isDirectory ← awaitFile (.stat resolved)
  if isDirectory then
    .pure
      { text := jsonStringify (.obj [("error", .str "is_directory"), ("path", .str resolved),
          ("suggestion", .str "use ls")])
        isError := true }
  else do
    let buffer ← awaitFile (.readFile resolved)
    if f.maxFileBytes < buffer.length then
      .pure { text := "File exceeds configured maxFileBytes", isError := true }
    else .pure { text := f.toText (input.encoding.getD .utf8) buffer }

def writeFile (input : WriteFileInput) : FileProg ToolResult := do
  let resolved ← f.resolvePath input.path
  if f.maxFileBytes < input.content.utf8ByteSize then
    .pure { text := "Content exceeds configured maxFileBytes", isError := true }
  else do
    awaitFile (.mkdir (dirname resolved))
    awaitFile (.writeFile resolved input.content.toUTF8.toList)
    .pure { text := "ok" }

/-- `levels` bounds how deep the listing goes. -/
def listEntries (isRecursive : Bool) : Nat → String → String → FileProg (List String)
  | 0, _, _ => .fail .unfinished
  | levels + 1, dirPath, above => do
      let entries ← awaitFile (.readdir dirPath)
      entries.foldlM
        (fun results entry =>
          let relative := if above ≠ "" then above ++ "/" ++ entry.1 else entry.1
          if isRecursive && entry.2 then do
            let nested ← listEntries isRecursive levels
              (pathResolve f.processCwd [dirPath, entry.1]) relative
            .pure (results ++ [relative] ++ nested)
          else .pure (results ++ [relative]))
        []

def ls (levels : Nat) (input : LsInput) : FileProg ToolResult := do
  let resolved ← f.resolvePath input.path
  let entries ← (f.listEntries (input.isRecursive.getD false) levels resolved "").handle
    fun error =>
      if !input.missingOk || !isMissingPathError error then .fail error else .pure []
  .pure { text := stringifyIndented entries }

def delete (input : DeleteInput) : FileProg ToolResult := do
  let resolved ← f.resolvePath input.path
  let isDirectory ← awaitFile (.lstat resolved)
  if isDirectory then awaitFile (.rm resolved (input.isRecursive.getD false))
  else awaitFile (.unlink resolved)
  .pure { text := "ok" }

/-- A listing of as many levels as the tree has below the directory comes to its end. -/
theorem listEntries_finishes {t : FileTree} (isRecursive : Bool) {levels : Nat}
    {place : List String} (above : String) (hvalid : IsPlace place) (hpos : 0 < levels)
    (hlevels : ∀ real, t.locate (render place) = .ok real → t.depth < levels + real.length)
    {s : FileSystem} (hs : s.tree = t) :
    (f.listEntries isRecursive levels (render place) above).Meets fileContract
      (fun _ s => s.tree = t) (fun error _ => error ≠ .unfinished) s := by
  induction levels generalizing place above s with
  | zero => nomatch hpos
  | succ levels ih =>
      have htree : (FileOp.exec s (.readdir (render place))).1.tree = t := by
        rw [FileOp.exec]
        split <;> exact hs
      refine (meets_awaitFile (Q := fun entries s => s.tree = t ∧ ∀ entry ∈ entries,
        entry.2 = true → ∃ real, t.locate (render place) = .ok real ∧
          t.node? (real ++ [entry.1]) = some .directory) (fun entries hentries => ⟨htree, ?_⟩)
        fun _ _ => nofun).bind fun entries s' ⟨hs', hentries⟩ => Prog.meets_foldlM hs' ?_
      · intro entry hentry hdirectory
        rw [FileOp.exec, hs] at hentries
        split at hentries
        · nomatch hentries
        · rename_i real hfound
          obtain rfl := Except.ok.inj hentries
          obtain ⟨child, hchild, rfl⟩ := List.mem_map.1 hentry
          refine ⟨real, (FileTree.nodeAt_ok hfound).1, ?_⟩
          rw [FileTree.node?_of_mem_children hchild]
          cases hnode : child.2 with
          | directory => rfl
          | file content => simp [FileNode.isDirectory, hnode] at hdirectory
          | link target => simp [FileNode.isDirectory, hnode] at hdirectory
        · nomatch hentries
      · intro entry hentry results s'' hs''
        refine Prog.meets_ite (fun hnested => ?_) fun _ => hs''
        rw [Bool.and_eq_true] at hnested
        obtain ⟨real, hreal, hnode⟩ := hentries entry hentry hnested.2
        have hname : IsName entry.1 :=
          FileTree.isPlace_of_node? (by rw [hnode]; nofun) entry.1 (by simp)
        have hvalid' := hvalid.concat hname
        have hlocate : t.locate (render (place ++ [entry.1])) = .ok (real ++ [entry.1]) := by
          rw [FileTree.locate_render hvalid] at hreal
          rw [FileTree.locate_render hvalid', FileTree.walkNames_append, hreal]
          dsimp only [Except.bind]
          rw [FileTree.walkNames, List.foldlM_cons, FileTree.enter_name
            (FileTree.node?_parent (by rw [hnode]; nofun)) hname, hnode]
          rfl
        have hdeep : (real ++ [entry.1]).length ≤ t.depth :=
          FileTree.length_le_depth (by rw [hnode]; nofun)
        have hbound := hlevels real hreal
        rw [List.length_append, List.length_singleton] at hdeep
        rw [pathResolve_name hvalid hname]
        refine (ih _ hvalid' (by omega) (fun real' hreal' => ?_) hs'').bind
          fun _ _ hnext => hnext
        rw [hlocate] at hreal'
        obtain rfl := Except.ok.inj hreal'
        rw [List.length_append, List.length_singleton]
        omega

/-- A listing comes to its end when it may go one level deeper than the tree. -/
theorem ls_finishes (t : FileTree) (input : LsInput) :
    ((f.ls (t.depth + 1) input).run FileOp.exec { tree := t }).2 ≠ .error .unfinished := by
  have hmeets : (f.ls (t.depth + 1) input).Meets fileContract (fun _ _ => True)
      (fun error _ => error ≠ .unfinished) { tree := t } := by
    refine Prog.Meets.bind (Q := fun resolved s => s.tree = t ∧
      ∃ place, IsPlace place ∧ resolved = render place) ?_ fun resolved s hresolved => ?_
    · unfold resolvePath
      split
      · rename_i resolved hresolved
        exact ⟨rfl, _, PathValidator.isPlace_candidatePlace,
          (PathValidator.resolvePath_ok hresolved).1⟩
      · exact nofun
    · obtain ⟨htree, place, hvalid, rfl⟩ := hresolved
      have hlisted := f.listEntries_finishes (input.isRecursive.getD false) "" hvalid
        (Nat.succ_pos t.depth) (fun real _ => by omega) htree
      refine (Prog.meets_handle (hlisted.mono (fun _ _ _ => trivial) fun error s herror => ?_)).bind
        fun _ _ _ => trivial
      exact Prog.meets_ite (fun _ => herror) fun _ => trivial
  have hend := hmeets.run
  intro hunfinished
  cases hrun : (f.ls (t.depth + 1) input).run FileOp.exec { tree := t } with
  | mk s outcome =>
      rw [hrun] at hunfinished hend
      dsimp only at hunfinished
      rw [hunfinished] at hend
      exact hend rfl

end FileTools

/-- A call of one of the tools. -/
inductive FileCall where
  | readFile (input : ReadFileInput)
  | writeFile (input : WriteFileInput)
  | ls (levels : Nat) (input : LsInput)
  | delete (input : DeleteInput)

def FileCall.program (f : FileTools) : FileCall → FileProg ToolResult
  | .readFile input => f.readFile input
  | .writeFile input => f.writeFile input
  | .ls levels input => f.ls levels input
  | .delete input => f.delete input

/-- The places that a call has read, listed, created, overwritten or removed. -/
def FileCall.accesses (f : FileTools) (t : FileTree) (call : FileCall) : List (List String) :=
  ((call.program f).run FileOp.exec { tree := t }).1.accesses

end Nexus
