import Nexus.Lib.JsonText
import Nexus.Lib.PathParts
import Nexus.Workflow.Definition
import Mathlib.Data.List.TakeWhile

/-!
# Session files

`V3SessionWriter` writes a session as lines of JSON: a header, and one node for every call of
`appendNode` with the id of the node before it as its parent. A writer keeps the id of the last node
in memory; a writer that opens an existing file takes the id of the last line.

The last line of a file without nodes is the header, which has an id as well. So a file that is
opened directly after it was created has another first node than one that is not
(`reopening_transparent_iff`).
-/

set_option autoImplicit false

namespace Nexus

open JsonText

namespace SessionFile

/-! ## The writer -/

/-- What a node is written from, without the fields that the writer assigns. -/
structure V3NodePayload (ν : Type) where
  fields : List (String × JsonValue ν)
  distinct : Distinct (.obj fields)

/-- What the calls of `genId` and `now` return, one after the other. -/
structure V3WriterOptions where
  genId : Nat → String
  now : Nat → String

/-- The file, the parent in the memory of the writer, and the calls of `genId` and `now` so far. -/
structure V3SessionWriter (ν : Type) where
  file : List Char
  parentId : JsonValue ν
  calls : Nat

section Writer

variable {ν : Type} [OfNat ν 3] (N : NumberText ν) (opts : V3WriterOptions)

def header (cwd : String) : JsonValue ν :=
  .obj [("type", .str "session"), ("version", .num 3), ("id", .str (opts.genId 0)),
    ("timestamp", .str (opts.now 0)), ("cwd", .str cwd)]

def create (cwd : String) : V3SessionWriter ν where
  file := text N (header opts cwd) ++ ['\n']
  parentId := .null
  calls := 1

/-- `split('\n').filter((l) => l.trim())`. -/
def lines (file : List Char) : List (List Char) :=
  (file.splitOn '\n').filter fun line => trimChars line ≠ []

/-- `value?.id`, where nothing is there for `undefined`. -/
def idOf : JsonValue ν → Option (JsonValue ν)
  | .obj fields => OrderedMap.get? fields "id"
  | _ => none

/-- A new writer on the file; `none` when the last line is no JSON. -/
def openFile (w : V3SessionWriter ν) : Option (V3SessionWriter ν) :=
  match (lines w.file).getLast? with
  | none => some { w with parentId := .null }
  | some line => (read N line).map fun last => { w with parentId := (idOf last).getD .null }

/-- The node of a payload: the three fields of the writer come over those of the payload. -/
def nodeOf (calls : Nat) (parentId : JsonValue ν) (payload : V3NodePayload ν) : JsonValue ν :=
  .obj (OrderedMap.set (OrderedMap.set (OrderedMap.set payload.fields
    "id" (.str (opts.genId calls))) "parentId" parentId) "timestamp" (.str (opts.now calls)))

def appendNode (w : V3SessionWriter ν) (payload : V3NodePayload ν) : V3SessionWriter ν where
  file := w.file ++ (text N (nodeOf opts w.calls w.parentId payload) ++ ['\n'])
  parentId := .str (opts.genId w.calls)
  calls := w.calls + 1

inductive SessionOp (ν : Type) where
  | append (payload : V3NodePayload ν)
  | open

def step (w : V3SessionWriter ν) : SessionOp ν → Option (V3SessionWriter ν)
  | .append payload => some (appendNode N opts w payload)
  | .open => openFile N w

/-- The file after a sequence of calls. -/
def fileAfter (w : V3SessionWriter ν) (ops : List (SessionOp ν)) : Option (List Char) :=
  (ops.foldlM (step N opts) w).map V3SessionWriter.file

/-- The payloads that a sequence of calls appends. -/
def payloads : List (SessionOp ν) → List (V3NodePayload ν)
  | [] => []
  | .append payload :: ops => payload :: payloads ops
  | .open :: ops => payloads ops

/-- The same calls without the reopenings. -/
def withoutOpens (ops : List (SessionOp ν)) : List (SessionOp ν) := (payloads ops).map .append

end Writer

/-! ## Files of records -/

section Records

variable {ν : Type} {N : NumberText ν} {records : List (JsonValue ν)} {w : V3SessionWriter ν}

/-- The lines of records. -/
def render (N : NumberText ν) (records : List (JsonValue ν)) : List Char :=
  records.flatMap fun record => text N record ++ ['\n']

/-- Records whose texts determine them. -/
def IsRecord (record : JsonValue ν) : Prop := Distinct record ∧ ∃ fields, record = .obj fields

theorem newline_notMem_text (record : JsonValue ν) : '\n' ∉ text N record := fun h =>
  absurd (printable_text record '\n' h) (by decide)

theorem trimChars_ne_nil {c : Char} {cs : List Char} (h : isJsWhitespace c = false) :
    trimChars (c :: cs) ≠ [] := by
  rw [trimChars, List.dropWhile_cons_of_neg (by simp [h])]
  intro hnil
  rw [List.reverse_eq_nil_iff] at hnil
  have hall := List.dropWhile_eq_nil_iff.1 hnil c (by simp)
  exact Bool.noConfusion (hall.symm.trans h)

theorem trimChars_text {record : JsonValue ν} (h : IsRecord record) :
    trimChars (text N record) ≠ [] := by
  obtain ⟨-, fields, rfl⟩ := h
  cases fields with
  | nil => exact trimChars_ne_nil (by decide)
  | cons field fields =>
      obtain ⟨k, v⟩ := field
      rw [text]
      exact trimChars_ne_nil (by decide)

/-- The lines of the file of records are their texts. -/
theorem lines_render (h : ∀ record ∈ records, IsRecord record) :
    lines (render N records) = records.map (text N) := by
  have hsplit : (render N records).splitOn '\n' = records.map (text N) ++ [[]] := by
    clear h
    induction records with
    | nil => rfl
    | cons record records ih =>
        rw [render, List.flatMap_cons, List.append_assoc, List.singleton_append,
          Parts.splitOn_append_sep, List.splitOn_eq_singleton (newline_notMem_text record)]
        exact congrArg (text N record :: ·) ih
  rw [lines, hsplit, List.filter_append, List.filter_eq_self.2, List.filter_cons_of_neg,
    List.filter_nil, List.append_nil]
  · simp [trimChars]
  · intro line hline
    obtain ⟨record, hmem, rfl⟩ := List.mem_map.1 hline
    exact decide_eq_true (trimChars_text (h record hmem))

/-- Files of records are the same only when the records are. -/
theorem render_injective {records' : List (JsonValue ν)} (h : ∀ record ∈ records, IsRecord record)
    (h' : ∀ record ∈ records', IsRecord record) (hfile : render N records = render N records') :
    records = records' := by
  have hlines := congrArg lines hfile
  rw [lines_render h, lines_render h'] at hlines
  clear hfile
  induction records generalizing records' with
  | nil => exact (List.map_eq_nil_iff.1 hlines.symm).symm
  | cons record records ih =>
      cases records' with
      | nil => nomatch hlines
      | cons record' records' =>
          rw [List.map_cons, List.map_cons, List.cons.injEq] at hlines
          have hrecord := text_injective (h record List.mem_cons_self).1
            (h' record' List.mem_cons_self).1 hlines.1
          rw [hrecord, ih (fun record hmem => h record (List.mem_cons_of_mem _ hmem))
            (fun record hmem => h' record (List.mem_cons_of_mem _ hmem)) hlines.2]

/-- A writer that opens a file of records takes the id of the last one. -/
theorem openFile_render {last : JsonValue ν} (h : ∀ record ∈ records ++ [last], IsRecord record)
    (hfile : w.file = render N (records ++ [last])) :
    openFile N w = some { w with parentId := (idOf last).getD .null } := by
  have hlast := h last (List.mem_append_right _ List.mem_cons_self)
  rw [openFile, hfile, lines_render h, List.map_append, List.map_singleton, List.getLast?_concat]
  simp only
  rw [read_text hlast.1, Option.map_some]

end Records

/-! ## Chains -/

section Chains

variable {ν : Type} {N : NumberText ν} {opts : V3WriterOptions} {records : List (JsonValue ν)}
  {w : V3SessionWriter ν}

theorem distinctFields_set {fields : List (String × JsonValue ν)} {k : String} {v : JsonValue ν}
    (h : DistinctFields fields) (hv : Distinct v) : DistinctFields (OrderedMap.set fields k v) := by
  induction fields with
  | nil => exact ⟨hv, trivial⟩
  | cons field fields ih =>
      obtain ⟨k', v'⟩ := field
      rw [OrderedMap.set]
      split
      · exact ⟨hv, h.2⟩
      · exact ⟨h.1, ih h.2⟩

theorem distinct_set {fields : List (String × JsonValue ν)} {k : String} {v : JsonValue ν}
    (h : Distinct (.obj fields)) (hv : Distinct v) :
    Distinct (.obj (OrderedMap.set fields k v)) :=
  ⟨OrderedMap.nodup_keys_set h.1 k v, distinctFields_set h.2 hv⟩

variable {calls : Nat} {parentId : JsonValue ν}

theorem isRecord_nodeOf (h : Distinct parentId) (payload : V3NodePayload ν) :
    IsRecord (nodeOf opts calls parentId payload) :=
  ⟨distinct_set (distinct_set (distinct_set payload.distinct trivial) h) trivial, _, rfl⟩

theorem idOf_nodeOf (calls : Nat) (parentId : JsonValue ν) (payload : V3NodePayload ν) :
    idOf (nodeOf opts calls parentId payload) = some (.str (opts.genId calls)) := by
  rw [nodeOf, idOf, OrderedMap.get?_set_of_ne _ _ (by decide),
    OrderedMap.get?_set_of_ne _ _ (by decide), OrderedMap.get?_set_self]

/-- `node.parentId`. -/
def parentOf : JsonValue ν → Option (JsonValue ν)
  | .obj fields => OrderedMap.get? fields "parentId"
  | _ => none

theorem parentOf_nodeOf (calls : Nat) (parentId : JsonValue ν) (payload : V3NodePayload ν) :
    parentOf (nodeOf opts calls parentId payload) = some parentId := by
  rw [nodeOf, parentOf, OrderedMap.get?_set_of_ne _ _ (by decide), OrderedMap.get?_set_self]

theorem isRecord_header [OfNat ν 3] (cwd : String) : IsRecord (header opts cwd : JsonValue ν) := by
  refine ⟨⟨?_, ?_⟩, _, rfl⟩
  · show ["type", "version", "id", "timestamp", "cwd"].Nodup
    decide
  · exact ⟨trivial, trivial, trivial, trivial, trivial, trivial⟩

/-- Every node has the id of the node before it as its parent, and the first one has `parentId`. -/
def ChainFrom (parentId : JsonValue ν) : List (JsonValue ν) → Prop
  | [] => True
  | node :: nodes =>
      parentOf node = some parentId ∧ ∃ id, idOf node = some id ∧ ChainFrom id nodes

/-- The nodes of payloads, one after the other. -/
def chainNodes (opts : V3WriterOptions) (calls : Nat) (parentId : JsonValue ν) :
    List (V3NodePayload ν) → List (JsonValue ν)
  | [] => []
  | payload :: rest =>
      nodeOf opts calls parentId payload ::
        chainNodes opts (calls + 1) (.str (opts.genId calls)) rest

theorem chainFrom_chainNodes (payloads : List (V3NodePayload ν)) (calls : Nat)
    (parentId : JsonValue ν) : ChainFrom parentId (chainNodes opts calls parentId payloads) := by
  induction payloads generalizing calls parentId with
  | nil => trivial
  | cons payload payloads ih =>
      exact ⟨parentOf_nodeOf _ _ _, _, idOf_nodeOf _ _ _, ih _ _⟩

theorem isRecord_of_mem_chainNodes {payloads : List (V3NodePayload ν)} {record : JsonValue ν}
    (h : Distinct parentId) (hmem : record ∈ chainNodes opts calls parentId payloads) :
    IsRecord record := by
  induction payloads generalizing calls parentId with
  | nil => nomatch hmem
  | cons payload payloads ih =>
      rcases List.mem_cons.1 hmem with rfl | hmem
      · exact isRecord_nodeOf h payload
      · have hid : Distinct (.str (opts.genId calls) : JsonValue ν) := trivial
        exact ih hid hmem

/-! ## Runs -/

/-- A writer whose parent is the id of the last record of its file. -/
structure Linked (N : NumberText ν) (w : V3SessionWriter ν) (records : List (JsonValue ν)) :
    Prop where
  file : w.file = render N records
  isRecord : ∀ record ∈ records, IsRecord record
  parentId : ∃ before last, records = before ++ [last] ∧ idOf last = some w.parentId
  distinct : Distinct w.parentId

theorem Linked.openFile (h : Linked N w records) : openFile N w = some w := by
  obtain ⟨before, last, hrecords, hid⟩ := h.parentId
  rw [openFile_render (hrecords ▸ h.isRecord) (hrecords ▸ h.file), hid, Option.getD_some]

/-- After a node the parent is its id. -/
theorem linked_appendNode (opts : V3WriterOptions) (hfile : w.file = render N records)
    (hrecords : ∀ record ∈ records, IsRecord record) (hparent : Distinct w.parentId)
    (payload : V3NodePayload ν) :
    Linked N (appendNode N opts w payload)
      (records ++ [nodeOf opts w.calls w.parentId payload]) where
  file := by
    rw [appendNode, hfile, render, render, List.flatMap_append, List.flatMap_singleton]
  isRecord := by
    intro record hmem
    rcases List.mem_append.1 hmem with hmem | hmem
    · exact hrecords record hmem
    · rw [List.mem_singleton.1 hmem]
      exact isRecord_nodeOf hparent payload
  parentId := ⟨_, _, rfl, idOf_nodeOf _ _ _⟩
  distinct := trivial

/-- Calls on a linked writer add the chain of their payloads. -/
theorem fileAfter_linked (opts : V3WriterOptions) (h : Linked N w records)
    (ops : List (SessionOp ν)) :
    fileAfter N opts w ops =
      some (render N (records ++ chainNodes opts w.calls w.parentId (payloads ops))) := by
  induction ops generalizing w records with
  | nil =>
      rw [payloads, chainNodes, List.append_nil, ← h.file]
      rfl
  | cons op ops ih =>
      cases op with
      | append payload =>
          have hnext := ih (linked_appendNode opts h.file h.isRecord h.distinct payload)
          rw [payloads, chainNodes, List.append_cons]
          exact hnext
      | «open» =>
          have hopen : fileAfter N opts w (.open :: ops) = fileAfter N opts w ops := by
            rw [fileAfter, List.foldlM_cons, step, h.openFile]
            rfl
          rw [hopen, payloads, ih h]

theorem payloads_map_append (rest : List (V3NodePayload ν)) :
    payloads (rest.map SessionOp.append) = rest := by
  induction rest with
  | nil => rfl
  | cons payload rest ih => rw [List.map_cons, payloads, ih]

variable [OfNat ν 3]

theorem file_create (N : NumberText ν) (opts : V3WriterOptions) (cwd : String) :
    (create N opts cwd).file = render N [header opts cwd] := by
  rw [create, render, List.flatMap_singleton]

/-- Opening a fresh file takes the header for the last node. -/
theorem linked_open_create (N : NumberText ν) (opts : V3WriterOptions) (cwd : String) :
    ∃ w, openFile N (create N opts cwd) = some w ∧ Linked N w [header opts cwd] ∧
      w.parentId = .str (opts.genId 0) ∧ w.calls = 1 := by
  have hid : idOf (header opts cwd : JsonValue ν) = some (.str (opts.genId 0)) := rfl
  have hrecord : ∀ record ∈ [(header opts cwd : JsonValue ν)], IsRecord record := by
    rw [List.forall_mem_singleton]
    exact isRecord_header cwd
  have hfile : (create N opts cwd).file = render N ([] ++ [header opts cwd]) :=
    file_create N opts cwd
  refine ⟨_, openFile_render hrecord hfile, ?_, ?_, rfl⟩
  · exact ⟨file_create N opts cwd, hrecord, ⟨[], _, rfl, by rw [hid]; rfl⟩, by rw [hid]; trivial⟩
  · rw [hid]
    rfl

/-- The file after calls that start with a reopening. -/
theorem fileAfter_create_open (N : NumberText ν) (opts : V3WriterOptions) (cwd : String)
    (ops : List (SessionOp ν)) :
    fileAfter N opts (create N opts cwd) (.open :: ops) =
      some (render N (header opts cwd ::
        chainNodes opts 1 (.str (opts.genId 0)) (payloads ops))) := by
  obtain ⟨w, hopen, hlinked, hparent, hcalls⟩ := linked_open_create N opts cwd
  have hrest := fileAfter_linked opts hlinked ops
  rw [hparent, hcalls] at hrest
  rw [fileAfter, List.foldlM_cons, step, hopen]
  exact hrest

/-- The file after calls that start with a node. -/
theorem fileAfter_create_append (cwd : String) (payload : V3NodePayload ν)
    (ops : List (SessionOp ν)) :
    fileAfter N opts (create N opts cwd) (.append payload :: ops) =
      some (render N (header opts cwd ::
        chainNodes opts 1 .null (payloads (.append payload :: ops)))) := by
  have hrecord : ∀ record ∈ [(header opts cwd : JsonValue ν)], IsRecord record := by
    rw [List.forall_mem_singleton]
    exact isRecord_header cwd
  have hlinked := linked_appendNode opts (file_create N opts cwd) hrecord trivial
    payload
  exact fileAfter_linked opts hlinked ops

theorem isRecord_header_chain (cwd : String) (h : Distinct parentId)
    {rest : List (V3NodePayload ν)} :
    ∀ record ∈ header opts cwd :: chainNodes opts calls parentId rest, IsRecord record := by
  rw [List.forall_mem_cons]
  exact ⟨isRecord_header cwd, fun record hmem => isRecord_of_mem_chainNodes h hmem⟩

/-- The file that is written without reopenings. -/
theorem fileAfter_withoutOpens (cwd : String) (ops : List (SessionOp ν)) :
    fileAfter N opts (create N opts cwd) (withoutOpens ops) =
      some (render N (header opts cwd :: chainNodes opts 1 .null (payloads ops))) := by
  rw [withoutOpens]
  cases hpayloads : payloads ops with
  | nil =>
      rw [List.map_nil, chainNodes, ← file_create]
      rfl
  | cons payload rest =>
      rw [List.map_cons, fileAfter_create_append, payloads, payloads_map_append]

/-! ## Transparency -/

/-- The file is the one that is written without reopenings, and its nodes are one chain. -/
def ReopeningTransparent (N : NumberText ν) (opts : V3WriterOptions) (cwd : String)
    (ops : List (SessionOp ν)) : Prop :=
  fileAfter N opts (create N opts cwd) ops =
      fileAfter N opts (create N opts cwd) (withoutOpens ops) ∧
    ∃ nodes : List (JsonValue ν), ChainFrom .null nodes ∧
      fileAfter N opts (create N opts cwd) ops =
        some (text N (header opts cwd) ++ '\n' :: nodes.flatMap fun node => text N node ++ ['\n'])

/-- **Reopening a session file.** It is transparent exactly when the first call is no reopening, or
no node is appended. -/
theorem reopening_transparent_iff (N : NumberText ν) (opts : V3WriterOptions) (cwd : String)
    (ops : List (SessionOp ν)) :
    ReopeningTransparent N opts cwd ops ↔ ops.head? ≠ some .open ∨ payloads ops = [] := by
  have hchain : ∀ (rest : List (V3NodePayload ν)) (parentId : JsonValue ν),
      render N (header opts cwd :: chainNodes opts 1 parentId rest) =
        text N (header opts cwd) ++ '\n' :: (chainNodes opts 1 parentId rest).flatMap fun node =>
          text N node ++ ['\n'] := by
    intro rest parentId
    rw [render, List.flatMap_cons, List.append_assoc]
    rfl
  have htransparent : fileAfter N opts (create N opts cwd) ops =
      some (render N (header opts cwd :: chainNodes opts 1 .null (payloads ops))) →
      ReopeningTransparent N opts cwd ops := by
    intro hfile
    refine ⟨hfile.trans (fileAfter_withoutOpens cwd ops).symm, _, chainFrom_chainNodes _ _ _,
      hfile.trans (congrArg some (hchain _ _))⟩
  cases ops with
  | nil => exact ⟨fun _ => .inr rfl, fun _ => htransparent (fileAfter_withoutOpens cwd [])⟩
  | cons op ops =>
      cases op with
      | append payload =>
          exact ⟨fun _ => .inl (by simp), fun _ =>
            htransparent (fileAfter_create_append cwd payload ops)⟩
      | «open» =>
          have hfile := fileAfter_create_open N opts cwd ops
          constructor
          · -- the first node has the header for its parent, and no parent otherwise
            rintro ⟨hsame, -⟩
            right
            rw [hfile, fileAfter_withoutOpens, Option.some.injEq] at hsame
            have hid : Distinct (.str (opts.genId 0) : JsonValue ν) := trivial
            have hnull : Distinct (.null : JsonValue ν) := trivial
            have hrecords := render_injective (isRecord_header_chain cwd hid)
              (isRecord_header_chain cwd hnull) hsame
            rw [List.cons.injEq] at hrecords
            have hnodes := hrecords.2
            rw [payloads] at hnodes ⊢
            cases hpayloads : payloads ops with
            | nil => rfl
            | cons payload rest =>
                rw [hpayloads, chainNodes, chainNodes, List.cons.injEq] at hnodes
                have hparent := congrArg parentOf hnodes.1
                rw [parentOf_nodeOf, parentOf_nodeOf] at hparent
                nomatch hparent
          · rintro (hhead | hnone)
            · exact absurd rfl hhead
            · apply htransparent
              rw [payloads] at hnone ⊢
              rw [hfile, hnone]
              rfl

end Chains

/-- Ids and times that count. -/
def countingOptions : V3WriterOptions where
  genId n := (toString n)
  now n := (toString n)

def emptyPayload : V3NodePayload Int where
  fields := []
  distinct := ⟨List.nodup_nil, trivial⟩

/-- The first node of a file that is reopened before it has one gets the header for its parent. -/
theorem header_taken_for_node :
    ¬ ReopeningTransparent intText countingOptions "/work" [.open, .append emptyPayload] := by
  rintro ⟨hsame, -⟩
  exact absurd hsame (by decide +kernel)

end SessionFile

end Nexus
