import Nexus.Lib.JsonWrites
import Nexus.Workflow.ArrayLiterals
import Nexus.Workflow.Validation
import Mathlib

/-!
# The addresses of flags and outputs

A flag of a job is claimed at a path made of segments and set and read at a dotted key that is split
again; both are spelled as an array literal. For two jobs of a definition the three addresses are
one, writes for one job are not seen in the variables of the other, and what is set is read back,
just when `OneAddressWhen` holds (`oneAddressEach_iff`): the ids are literal texts without dots, the
values on the way to the variables are records or missing, and the value set can be stored. The dot
of an id is enough to break it (`dotted_id_two_addresses`).
-/

set_option autoImplicit false

namespace Nexus

namespace FlagAddress

/-! ## Accesses -/

/-- A text the database can hold: one without NUL. -/
def holdsNoNul (s : String) : Bool := s.toList.all fun c => c.toNat ≠ 0

mutual

/-- `stripNullBytesDeep`; the assignment of a field `__proto__` makes no field. -/
def sanitized : Json → Json
  | .str s => .str (stripNullBytes s)
  | .arr xs => .arr (sanitizedList xs)
  | .obj fields => .obj (sanitizedFields fields)
  | .null => .null
  | .bool b => .bool b
  | .num n => .num n

def sanitizedList : List Json → List Json
  | [] => []
  | x :: xs => sanitized x :: sanitizedList xs

def sanitizedFields : List (String × Json) → List (String × Json)
  | [] => []
  | (k, v) :: fields =>
      if k = "__proto__" then sanitizedFields fields
      else (k, sanitized v) :: sanitizedFields fields

end

mutual

/-- The cast of a value to `jsonb` succeeds: no text and no name holds a NUL. -/
def castable : Json → Bool
  | .str s => holdsNoNul s
  | .arr xs => castableList xs
  | .obj fields => castableFields fields
  | .null => true
  | .bool _ => true
  | .num _ => true

def castableList : List Json → Bool
  | [] => true
  | x :: xs => castable x && castableList xs

def castableFields : List (String × Json) → Bool
  | [] => true
  | (k, v) :: fields => holdsNoNul k && castable v && castableFields fields

end

/-- `setVariable`: the column after the write, or `none` for a statement that fails. -/
def setVariable (t : Json) (key : String) (value : Json) : Option Json :=
  if holdsNoNul key = true ∧ castable (sanitized value) = true then
    buildNestedJsonbSetExpr (splitDots key) (sanitized value) t
  else none

/-- `tryMarkJobQueued` and `tryMarkJobCompleted`. -/
def tryMarkJob (t : Json) (group : FlagGroup) (jobId : String) : Option (Option Json) :=
  if holdsNoNul jobId = true then claimFlag t group jobId else none

/-- What the read of a property yields in JavaScript. -/
inductive JsValue where
  | undefined
  | value (v : Json)
  | inherited (name : String)

/-- The read of a property that an object has from its prototype, and of properties below it:
`__proto__` is a record of functions, the other ones are functions, which are no records. -/
def inheritedValue (key : String) (path : List String) : JsValue :=
  if key = "__proto__" then
    match path with
    | [] => .inherited key
    | [key'] =>
        if key' = "__proto__" then .value .null
        else if key' ∈ inheritedNames then .inherited key' else .undefined
    | _ :: _ :: _ => .undefined
  else if key ∈ inheritedNames ∧ path = [] then .inherited key
  else .undefined

def getNestedValue : Json → List String → JsValue
  | t, [] => .value t
  | .obj fields, key :: path =>
      match OrderedMap.get? fields key with
      | some c => getNestedValue c path
      | none => inheritedValue key path
  | _, _ :: _ => .undefined

def getVariable (t : Json) (key : String) : JsValue := getNestedValue t (splitDots key)

/-! ## One address -/

/-- The flags and the output of a job. -/
inductive JobVariable where
  | flag (group : FlagGroup)
  | output
  deriving DecidableEq

/-- The state variable of a job. -/
def JobVariable.stateKey (jobId : String) : JobVariable → StateKey
  | flag group => group.key jobId
  | output => .output jobId

/-- The dotted key of a variable of a job. -/
def JobVariable.key (jobId : String) (x : JobVariable) : String := (x.stateKey jobId).path

/-- The path at which a flag is claimed. -/
def claimedPath (group : FlagGroup) (jobId : String) : Option (List String) :=
  if holdsNoNul jobId = true then pgSetPath ["_internal", group.text, jobId] else none

/-- The path that `setVariable` writes. -/
def writtenPath (key : String) : Option (List String) :=
  if holdsNoNul key = true then pgSetPath (splitDots key) else none

/-- The flags of a job are claimed, set and read at one path. -/
def OneAddress (jobId : String) : Prop :=
  ∀ group : FlagGroup,
    claimedPath group jobId = some (splitDots ((JobVariable.flag group).key jobId)) ∧
      writtenPath ((JobVariable.flag group).key jobId) =
        some (splitDots ((JobVariable.flag group).key jobId))

/-- A write of a flag or of the output of a job. -/
inductive VariableWrite where
  | claim (group : FlagGroup)
  | set (x : JobVariable) (value : Json)

/-- The column after a write; a statement that fails or matches no row leaves it. -/
def VariableWrite.after (t : Json) (jobId : String) : VariableWrite → Json
  | claim group => ((tryMarkJob t group jobId).bind id).getD t
  | set x value => (setVariable t (x.key jobId) value).getD t

/-- The writes of a job are not seen in the variables of another one. -/
def Apart (t : Json) (jobId jobId' : String) : Prop :=
  ∀ (w : VariableWrite) (x : JobVariable),
    getVariable (w.after t jobId) (x.key jobId') = getVariable t (x.key jobId')

/-- A value set is read back. -/
def ReadsBack (t : Json) (jobId : String) (value : Json) : Prop :=
  ∀ x : JobVariable, ∃ t', setVariable t (x.key jobId) value = some t' ∧
    getVariable t' (x.key jobId) = .value value

/-- The flags and outputs of two jobs have one address each. -/
structure OneAddressEach (jobId jobId' : String) (t value : Json) : Prop where
  address : OneAddress jobId
  address' : OneAddress jobId'
  apart : Apart t jobId jobId'
  apart' : Apart t jobId' jobId
  readsBack : ReadsBack t jobId value
  readsBack' : ReadsBack t jobId' value

/-! ## The condition -/

mutual

/-- A value that can be stored as it is: without NUL and without a field `__proto__`. -/
def storable : Json → Bool
  | .str s => holdsNoNul s
  | .arr xs => storableList xs
  | .obj fields => storableFields fields
  | .null => true
  | .bool _ => true
  | .num _ => true

def storableList : List Json → Bool
  | [] => true
  | x :: xs => storable x && storableList xs

def storableFields : List (String × Json) → Bool
  | [] => true
  | (k, v) :: fields =>
      decide (k ≠ "__proto__") && holdsNoNul k && storable v && storableFields fields

end

/-- An id that is one segment in both spellings: a literal text without dots and NUL. -/
structure OneSegment (jobId : String) : Prop where
  literal : LiteralText jobId
  noDot : '.' ∉ jobId.toList
  noNul : holdsNoNul jobId = true

/-- When the flags and outputs of two jobs have one address each. -/
structure OneAddressWhen (jobId jobId' : String) (t value : Json) : Prop where
  segment : OneSegment jobId
  segment' : OneSegment jobId'
  settable : ∀ x : JobVariable, Json.Settable (x.stateKey jobId).segs t
  settable' : ∀ x : JobVariable, Json.Settable (x.stateKey jobId').segs t
  storable : storable value = true
  /-- The flags of a job with the name of an inherited property need their records. -/
  inherited : jobId ∈ inheritedNames ∨ jobId' ∈ inheritedNames → ∀ group : FlagGroup,
    (t.getNested ["_internal", group.text]).isSome = true

/-! ## Stored values -/

theorem stripNullBytes_eq_self_iff (s : String) : stripNullBytes s = s ↔ holdsNoNul s = true := by
  rw [← String.toList_inj, stripNullBytes, String.toList_ofList, List.filter_eq_self, holdsNoNul,
    List.all_eq_true]

theorem sanitizedFields_length_le (fields : List (String × Json)) :
    (sanitizedFields fields).length ≤ fields.length := by
  induction fields with
  | nil => exact Nat.le_refl _
  | cons field fields ih =>
      obtain ⟨k, v⟩ := field
      rw [sanitizedFields]
      split
      · exact Nat.le_succ_of_le ih
      · exact Nat.succ_le_succ ih

mutual

/-- A storable value is stored as it is, and no other one is. -/
theorem storable_iff : ∀ v : Json, storable v = true ↔ sanitized v = v ∧ castable v = true
  | .str s => by
      rw [storable, sanitized, castable, Json.str.injEq, stripNullBytes_eq_self_iff, and_self]
  | .arr xs => by
      rw [storable, sanitized, castable, Json.arr.injEq]
      exact storableList_iff xs
  | .obj fields => by
      rw [storable, sanitized, castable, Json.obj.injEq]
      exact storableFields_iff fields
  | .null => by simp [storable, sanitized, castable]
  | .bool _ => by simp [storable, sanitized, castable]
  | .num _ => by simp [storable, sanitized, castable]

theorem storableList_iff : ∀ xs : List Json,
    storableList xs = true ↔ sanitizedList xs = xs ∧ castableList xs = true
  | [] => by simp [storableList, sanitizedList, castableList]
  | x :: xs => by
      rw [storableList, sanitizedList, castableList, Bool.and_eq_true, Bool.and_eq_true,
        storable_iff x, storableList_iff xs, List.cons.injEq]
      exact and_and_and_comm

theorem storableFields_iff : ∀ fields : List (String × Json),
    storableFields fields = true ↔
      sanitizedFields fields = fields ∧ castableFields fields = true
  | [] => by simp [storableFields, sanitizedFields, castableFields]
  | (k, v) :: fields => by
      rw [storableFields, sanitizedFields, castableFields]
      by_cases hproto : k = "__proto__"
      · rw [if_pos hproto]
        constructor
        · intro h
          simp [hproto] at h
        · rintro ⟨hsame, -⟩
          have hle := sanitizedFields_length_le fields
          rw [hsame, List.length_cons] at hle
          omega
      · rw [if_neg hproto]
        simp only [Bool.and_eq_true, storable_iff v, storableFields_iff fields, List.cons.injEq,
          Prod.mk.injEq, true_and, decide_eq_true_eq, ne_eq, hproto, not_false_eq_true]
        constructor
        · rintro ⟨⟨hname, hv, hvcast⟩, hfields, hcast⟩
          exact ⟨⟨hv, hfields⟩, ⟨hname, hvcast⟩, hcast⟩
        · rintro ⟨⟨hv, hfields⟩, ⟨hname, hvcast⟩, hcast⟩
          exact ⟨⟨hname, hv, hvcast⟩, hfields, hcast⟩

end

/-! ## Keys of one segment -/

theorem holdsNoNul_dotted (segments : List String) :
    holdsNoNul (dotted segments) = segments.all holdsNoNul := by
  induction segments with
  | nil => rfl
  | cons s segments ih =>
      cases segments with
      | nil => simp [holdsNoNul, dotted]
      | cons s' segments =>
          rw [List.all_cons, ← ih]
          simp [holdsNoNul, dotted, List.intercalate_cons_cons]

theorem holdsNoNul_key (x : JobVariable) (jobId : String) :
    holdsNoNul (x.key jobId) = holdsNoNul jobId := by
  have hinternal : holdsNoNul "_internal" = true := by decide
  have hqueued : holdsNoNul "queued_jobs" = true := by decide
  have hcompleted : holdsNoNul "completed_jobs" = true := by decide
  have hjobs : holdsNoNul "jobs" = true := by decide
  have houtput : holdsNoNul "output" = true := by decide
  rw [JobVariable.key, StateKey.path, holdsNoNul_dotted]
  cases x with
  | flag group =>
      cases group <;>
        simp [JobVariable.stateKey, FlagGroup.key, StateKey.segs, hinternal, hqueued, hcompleted]
  | output => simp [JobVariable.stateKey, StateKey.segs, hjobs, houtput]

variable {jobId jobId' : String}

theorem OneSegment.literalTexts (h : OneSegment jobId) (x : JobVariable) :
    ∀ s ∈ (x.stateKey jobId).segs, LiteralText s := by
  have hplain : ∀ s ∈ ["_internal", "queued_jobs", "completed_jobs", "jobs", "output"],
      LiteralText s := by
    intro s hs
    apply literalText_of_plainId
    revert s
    decide
  intro s hs
  have hcases : s = jobId ∨
      s ∈ ["_internal", "queued_jobs", "completed_jobs", "jobs", "output"] := by
    cases x with
    | flag group =>
        cases group
        all_goals
          simp [JobVariable.stateKey, FlagGroup.key, StateKey.segs] at hs ⊢
          tauto
    | output =>
        simp [JobVariable.stateKey, StateKey.segs] at hs ⊢
        tauto
  rcases hcases with rfl | hs
  · exact h.literal
  · exact hplain s hs

theorem OneSegment.splitDots_key (h : '.' ∉ jobId.toList) (x : JobVariable) :
    splitDots (x.key jobId) = (x.stateKey jobId).segs := by
  apply splitDots_dotted (StateKey.segs_ne_nil _)
  have hconst : ∀ s ∈ ["_internal", "queued_jobs", "completed_jobs", "jobs", "output"],
      '.' ∉ s.toList := by decide
  cases x with
  | flag group => cases group <;> simp_all [JobVariable.stateKey, FlagGroup.key, StateKey.segs]
  | output => simp_all [JobVariable.stateKey, StateKey.segs]

/-- **The flags of a job have one address just when its id is one segment.** -/
theorem oneAddress_iff (jobId : String) : OneAddress jobId ↔ OneSegment jobId := by
  constructor
  · intro h
    have hclaimed := (h .queuedJobs).1
    rw [claimedPath] at hclaimed
    split at hclaimed
    · rename_i hnul
      have hdot : '.' ∉ jobId.toList := by
        intro hdot
        exact pgSetPath_ne_splitDots ⟨jobId, by simp, hdot⟩ _ hclaimed
      rw [OneSegment.splitDots_key hdot] at hclaimed
      have hliteral := (pgSetPath_eq_self_iff (by simp)).1 hclaimed
      exact ⟨hliteral jobId (by simp), hdot, hnul⟩
    · nomatch hclaimed
  · intro h group
    have hpath := pgSetPath_literalTexts (StateKey.segs_ne_nil _) (h.literalTexts (.flag group))
    have hsegs : ((JobVariable.flag group).stateKey jobId).segs =
        ["_internal", group.text, jobId] := by cases group <;> rfl
    rw [OneSegment.splitDots_key h.noDot]
    constructor
    · rw [claimedPath, if_pos h.noNul, ← hsegs, hpath]
    · rw [writtenPath, holdsNoNul_key, if_pos h.noNul, OneSegment.splitDots_key h.noDot, hpath]

theorem OneSegment.setVariable (h : OneSegment jobId) (x : JobVariable) (t v : Json) :
    FlagAddress.setVariable t (x.key jobId) v =
      if castable (sanitized v) = true then
        Json.upsertPath t (x.stateKey jobId).segs (sanitized v) else none := by
  rw [FlagAddress.setVariable, holdsNoNul_key, OneSegment.splitDots_key h.noDot,
    buildNestedJsonbSetExpr_literalTexts (StateKey.segs_ne_nil _) (h.literalTexts x)]
  simp [h.noNul]

/-! ## Reads -/

theorem inheritedValue_of_notMem {key : String} (h : key ∉ inheritedNames) (path : List String) :
    inheritedValue key path = .undefined := by
  have hproto : key ≠ "__proto__" := by
    rintro rfl
    exact h (by decide)
  rw [inheritedValue.eq_def, if_neg hproto, if_neg fun h' => h h'.1]

theorem inheritedValue_nil (key : String) : inheritedValue key [] =
    if key ∈ inheritedNames then .inherited key else .undefined := by
  by_cases hproto : key = "__proto__"
  · subst hproto
    rfl
  · simp [inheritedValue.eq_def, hproto]

/-- A function has no properties that are read here, and neither has the prototype. -/
theorem inheritedValue_cons (key : String) {key' : String} (h : key' ∉ inheritedNames)
    (path : List String) : inheritedValue key (key' :: path) = .undefined := by
  have hproto : key' ≠ "__proto__" := by
    rintro rfl
    exact h (by decide)
  rw [inheritedValue.eq_def]
  split
  · cases path with
    | nil => simp [hproto, h]
    | cons key'' path => rfl
  · simp

/-- The read below a record of a name that no object inherits. -/
theorem getNestedValue_cons {key : String} (h : key ∉ inheritedNames) (t : Json)
    (path : List String) : getNestedValue t (key :: path) =
      match t.field? key with
      | some c => getNestedValue c path
      | none => .undefined := by
  cases t with
  | obj fields =>
      rw [getNestedValue, Json.field?]
      cases OrderedMap.get? fields key with
      | some c => rfl
      | none => exact inheritedValue_of_notMem h path
  | _ => rfl

theorem getNested_cons (t : Json) (key : String) (path : List String) :
    t.getNested (key :: path) = (t.field? key).bind fun c => c.getNested path := by
  cases t with
  | obj fields =>
      rw [Json.getNested, Json.field?]
      cases OrderedMap.get? fields key <;> rfl
  | _ => rfl

/-- The read of an output sees own properties only. -/
theorem getNestedValue_output (t : Json) (jobId : String) :
    getNestedValue t ["jobs", jobId, "output"] =
      match t.getNested ["jobs", jobId, "output"] with
      | some v => .value v
      | none => .undefined := by
  rw [getNestedValue_cons (by decide), getNested_cons]
  cases t.field? "jobs" with
  | none => rfl
  | some jobs =>
      rw [Option.bind_some, getNested_cons]
      cases hjob : jobs.field? jobId with
      | none =>
          cases jobs with
          | obj fields =>
              rw [Json.field?] at hjob
              have houtput : "output" ∉ inheritedNames := by decide
              simp [getNestedValue, hjob, inheritedValue_cons _ houtput]
          | _ => rfl
      | some job =>
          cases jobs with
          | obj fields =>
              rw [Json.field?] at hjob
              simp only [getNestedValue, hjob]
              rw [getNestedValue_cons (by decide), Option.bind_some, getNested_cons]
              cases job.field? "output" <;> rfl
          | _ => cases hjob

/-- There is a record for the flags of a group. -/
def hasFlags (t : Json) (group : FlagGroup) : Bool :=
  match t.getNested ["_internal", group.text] with
  | some (.obj _) => true
  | _ => false

/-- The read of a flag sees what the record of the flags inherits. -/
theorem getNestedValue_flag (t : Json) (group : FlagGroup) (jobId : String) :
    getNestedValue t ["_internal", group.text, jobId] =
      match t.getNested ["_internal", group.text, jobId] with
      | some v => .value v
      | none =>
          if jobId ∈ inheritedNames ∧ hasFlags t group = true then .inherited jobId
          else .undefined := by
  have hgroup : group.text ∉ inheritedNames := by cases group <;> decide
  have hflags : hasFlags t group = match ((t.field? "_internal").bind fun c =>
      c.field? group.text) with
      | some (.obj _) => true
      | _ => false := by
    rw [hasFlags, getNested_cons]
    cases t.field? "_internal" with
    | none => rfl
    | some internal =>
        rw [Option.bind_some, Option.bind_some, getNested_cons]
        cases internal.field? group.text <;> rfl
  rw [getNestedValue_cons (by decide), getNested_cons]
  cases hinternal : t.field? "_internal" with
  | none =>
      rw [hinternal] at hflags
      simp [hflags]
  | some internal =>
      simp only [Option.bind_some, hinternal] at hflags ⊢
      rw [getNestedValue_cons hgroup, getNested_cons]
      cases hfield : internal.field? group.text with
      | none =>
          rw [hfield] at hflags
          simp [hflags]
      | some flags =>
          rw [hfield] at hflags
          simp only [Option.bind_some]
          cases flags with
          | obj fields =>
              cases hflag : OrderedMap.get? fields jobId with
              | some v => simp [getNestedValue, Json.getNested, hflag]
              | none =>
                  simp [getNestedValue, Json.getNested, hflag, inheritedValue_nil, hflags]
          | _ => simp [getNestedValue, Json.getNested, hflags]

theorem getVariable_eq_value_iff (h : '.' ∉ jobId.toList) (x : JobVariable) (t v : Json) :
    getVariable t (x.key jobId) = .value v ↔
      t.getNested (x.stateKey jobId).segs = some v := by
  rw [getVariable, OneSegment.splitDots_key h]
  cases x with
  | flag group =>
      have hsegs : ((JobVariable.flag group).stateKey jobId).segs =
          ["_internal", group.text, jobId] := by cases group <;> rfl
      rw [hsegs, getNestedValue_flag]
      cases t.getNested ["_internal", group.text, jobId] with
      | some v' => simp
      | none =>
          simp only [reduceCtorEq, iff_false]
          split <;> simp
  | output =>
      rw [JobVariable.stateKey, StateKey.segs, getNestedValue_output]
      cases t.getNested ["jobs", jobId, "output"] <;> simp

variable {t : Json}

/-- A variable is read as before when its value and the records of the flags are. -/
theorem getVariable_congr (h : '.' ∉ jobId.toList) (x : JobVariable) {t' : Json}
    (hread : t'.getNested (x.stateKey jobId).segs = t.getNested (x.stateKey jobId).segs)
    (hflags : jobId ∈ inheritedNames → ∀ group, hasFlags t' group = hasFlags t group) :
    getVariable t' (x.key jobId) = getVariable t (x.key jobId) := by
  rw [getVariable, getVariable, OneSegment.splitDots_key h]
  cases x with
  | flag group =>
      have hsegs : ((JobVariable.flag group).stateKey jobId).segs =
          ["_internal", group.text, jobId] := by cases group <;> rfl
      rw [hsegs] at hread ⊢
      rw [getNestedValue_flag, getNestedValue_flag, hread]
      by_cases hmem : jobId ∈ inheritedNames
      · rw [hflags hmem]
      · simp [hmem]
  | output =>
      rw [JobVariable.stateKey, StateKey.segs] at hread ⊢
      rw [getNestedValue_output, getNestedValue_output, hread]

/-! ## Writes -/

/-- **A value set is read back just when its path is settable and it can be stored.** -/
theorem readsBack_iff (h : OneSegment jobId) (t v : Json) :
    ReadsBack t jobId v ↔
      (∀ x : JobVariable, Json.Settable (x.stateKey jobId).segs t) ∧ storable v = true := by
  have hone : ∀ x : JobVariable, (∃ t', FlagAddress.setVariable t (x.key jobId) v = some t' ∧
      getVariable t' (x.key jobId) = .value v) ↔
        Json.Settable (x.stateKey jobId).segs t ∧ storable v = true := by
    intro x
    have hne := (x.stateKey jobId).segs_ne_nil
    simp only [h.setVariable x, getVariable_eq_value_iff h.noDot]
    constructor
    · rintro ⟨t', hset, hread⟩
      split at hset
      · rename_i hcast
        -- the value read is the sanitised one, so it is the value set only when that is the same
        obtain ⟨hsettable, hsame⟩ := Json.eq_of_getNested_upsertPath hne hset hread
        exact ⟨hsettable, (storable_iff v).2 ⟨hsame.symm, hsame ▸ hcast⟩⟩
      · nomatch hset
    · rintro ⟨hsettable, hstorable⟩
      obtain ⟨hsame, hcast⟩ := (storable_iff v).1 hstorable
      rw [hsame, if_pos hcast]
      exact (Json.getNested_upsertPath_iff hne v t).2 hsettable
  constructor
  · intro hback
    exact ⟨fun x => ((hone x).1 (hback x)).1, ((hone .output).1 (hback .output)).2⟩
  · rintro ⟨hsettable, hstorable⟩ x
    exact (hone x).2 ⟨hsettable x, hstorable⟩

theorem OneSegment.upsertPath
    (hsettable : ∀ x : JobVariable, Json.Settable (x.stateKey jobId).segs t) (x : JobVariable)
    (v : Json) : Json.upsertPath t (x.stateKey jobId).segs v =
      some (Json.setDeep (x.stateKey jobId).segs v t) := by
  have hne := (x.stateKey jobId).segs_ne_nil
  obtain ⟨fields, rfl⟩ := (hsettable x).obj hne
  exact Json.upsertPath_eq_setDeep v _ fields hne (hsettable x)

theorem JobVariable.segs_flag (group : FlagGroup) (jobId : String) :
    ((JobVariable.flag group).stateKey jobId).segs = ["_internal", group.text, jobId] := by
  cases group <;> rfl

/-- The claim of a flag writes it when it is not set. -/
theorem after_claim (h : OneSegment jobId)
    (hsettable : ∀ x : JobVariable, Json.Settable (x.stateKey jobId).segs t) (group : FlagGroup) :
    (VariableWrite.claim group).after t jobId =
      if isTrueText (t.getNested ((JobVariable.flag group).stateKey jobId).segs) = true then t
      else Json.setDeep ((JobVariable.flag group).stateKey jobId).segs (.bool true) t := by
  have hset := hsettable (.flag group)
  have hliteral := h.literalTexts (.flag group)
  have hupsert := OneSegment.upsertPath hsettable (.flag group) (.bool true)
  rw [JobVariable.segs_flag] at hset hliteral hupsert ⊢
  obtain ⟨es, hes, hnames⟩ :=
    Option.bind_eq_some_iff.1 (pgSetPath_literalTexts (List.cons_ne_nil _ _) hliteral)
  rw [VariableWrite.after, tryMarkJob, if_pos h.noNul]
  simp only [claimFlag, hes, hnames, Option.bind_some, Json.jsonbGet_eq_getNested _ _ hset,
    buildNestedJsonbSetExpr_literalTexts (List.cons_ne_nil _ _) hliteral, hupsert]
  split <;> simp

/-- A write of a job keeps the column or writes one of its variables. -/
theorem VariableWrite.after_cases (h : OneSegment jobId)
    (hsettable : ∀ x : JobVariable, Json.Settable (x.stateKey jobId).segs t) (w : VariableWrite) :
    w.after t jobId = t ∨ ∃ (x : JobVariable) (v : Json),
      w.after t jobId = Json.setDeep (x.stateKey jobId).segs v t := by
  cases w with
  | claim group =>
      rw [after_claim h hsettable]
      split
      · exact Or.inl rfl
      · exact Or.inr ⟨.flag group, _, rfl⟩
  | set x v =>
      rw [VariableWrite.after, h.setVariable x]
      split
      · rw [OneSegment.upsertPath hsettable]
        exact Or.inr ⟨x, _, rfl⟩
      · exact Or.inl rfl

/-! ## Two jobs -/

theorem diverge_of_ne (hne : jobId ≠ jobId') (x y : JobVariable) :
    Json.Diverge (x.stateKey jobId).segs (y.stateKey jobId').segs := by
  apply StateKey.diverge_of_ne
  cases x with
  | flag group =>
      cases y with
      | flag group' =>
          cases group <;> cases group' <;> simp [JobVariable.stateKey, FlagGroup.key, hne]
      | output => cases group <;> simp [JobVariable.stateKey, FlagGroup.key]
  | output =>
      cases y with
      | flag group' => cases group' <;> simp [JobVariable.stateKey, FlagGroup.key]
      | output => simp [JobVariable.stateKey, hne]

/-- Below a settable flag, what is at the group of flags is a record. -/
theorem hasFlags_eq_isSome {group : FlagGroup}
    (h : Json.Settable ["_internal", group.text, jobId] t) :
    hasFlags t group = (t.getNested ["_internal", group.text]).isSome := by
  rw [hasFlags]
  cases hread : t.getNested ["_internal", group.text] with
  | none => rfl
  | some c =>
      obtain ⟨fields, rfl⟩ :=
        Json.Settable.getNested_obj (p := ["_internal", group.text]) h hread
      rfl

/-- The record of a group of flags is there after a write for a job when it was there before, or
when the write is of one of its flags. -/
theorem hasFlags_setDeep (hne : jobId ≠ jobId') (x : JobVariable) (v : Json) {group : FlagGroup}
    (hx : Json.Settable (x.stateKey jobId).segs t)
    (h : Json.Settable ["_internal", group.text, jobId'] t)
    (hflags : ["_internal", group.text] <+: (x.stateKey jobId).segs ∨ hasFlags t group = true) :
    hasFlags (Json.setDeep (x.stateKey jobId).segs v t) group = true := by
  have hdiverge := diverge_of_ne hne x (.flag group)
  rw [JobVariable.segs_flag] at hdiverge
  rw [hasFlags_eq_isSome (Json.settable_setDeep v _ _ t (Or.inr hdiverge) h)]
  by_cases hpre : ["_internal", group.text] <+: (x.stateKey jobId).segs
  · exact Json.getNested_setDeep_prefix v _ _ t hpre hx
  · have hpast : Json.Diverge (x.stateKey jobId).segs ["_internal", group.text] := by
      refine ⟨fun hshort => ?_, hpre⟩
      have hlength := hshort.length_le
      cases x with
      | flag group' =>
          rw [JobVariable.segs_flag] at hlength
          simp at hlength
      | output => simp [JobVariable.stateKey, StateKey.segs] at hlength
    rw [Json.getNested_setDeep_of_diverge v _ _ t hpast, ← hasFlags_eq_isSome h]
    exact hflags.resolve_left hpre

theorem apart_of_when (hne : jobId ≠ jobId') {v : Json} (h : OneAddressWhen jobId jobId' t v) :
    Apart t jobId jobId' := by
  intro w x
  rcases VariableWrite.after_cases h.segment h.settable w with heq | ⟨y, v, heq⟩
  · rw [heq]
  · rw [heq]
    apply getVariable_congr h.segment'.noDot
    · exact Json.getNested_setDeep_of_diverge _ _ _ _ (diverge_of_ne hne y x)
    · intro hmem group
      have hset := h.settable' (.flag group)
      rw [JobVariable.segs_flag] at hset
      have hflags : hasFlags t group = true := by
        rw [hasFlags_eq_isSome hset]
        exact h.inherited (Or.inr hmem) group
      rw [hflags]
      exact hasFlags_setDeep hne y v (h.settable y) hset (Or.inr hflags)

/-- Where a claimed flag of one job is not seen in an inherited name, the record of the flags was
there before. -/
theorem flags_of_apart (hne : jobId ≠ jobId') (h : OneSegment jobId) (h' : OneSegment jobId')
    (hsettable : ∀ x : JobVariable, Json.Settable (x.stateKey jobId).segs t)
    (hsettable' : ∀ x : JobVariable, Json.Settable (x.stateKey jobId').segs t)
    (hapart : Apart t jobId jobId') (hmem : jobId' ∈ inheritedNames) (group : FlagGroup) :
    (t.getNested ["_internal", group.text]).isSome = true := by
  have hset := hsettable (.flag group)
  have hset' := hsettable' (.flag group)
  rw [JobVariable.segs_flag] at hset hset'
  by_contra hnone
  have hflags : hasFlags t group = false := by
    rw [hasFlags_eq_isSome hset']
    simpa using hnone
  -- without the record no flag is set, so the claim writes one and makes the record
  have habsent : ∀ id : String, t.getNested ["_internal", group.text, id] = none := by
    intro id
    have happend := Json.getNested_append ["_internal", group.text] [id] t
    rw [Option.not_isSome_iff_eq_none.1 hnone] at happend
    exact happend
  have hread := hapart (.claim group) (.flag group)
  rw [after_claim h hsettable, JobVariable.segs_flag, habsent,
    if_neg (by simp [isTrueText])] at hread
  have hdiverge := diverge_of_ne hne (.flag group) (.flag group)
  rw [JobVariable.segs_flag, JobVariable.segs_flag] at hdiverge
  have hmade : hasFlags (Json.setDeep ["_internal", group.text, jobId] (.bool true) t) group =
      true := by
    have hmade := hasFlags_setDeep hne (.flag group) (.bool true) (hsettable _) hset'
      (Or.inl (by rw [JobVariable.segs_flag]; exact ⟨[jobId], rfl⟩))
    rwa [JobVariable.segs_flag] at hmade
  rw [getVariable, getVariable, OneSegment.splitDots_key h'.noDot, JobVariable.segs_flag,
    getNestedValue_flag, getNestedValue_flag, Json.getNested_setDeep_of_diverge _ _ _ _ hdiverge,
    habsent, hflags, hmade] at hread
  simp [hmem] at hread

theorem OneAddressWhen.symm {v : Json} (h : OneAddressWhen jobId jobId' t v) :
    OneAddressWhen jobId' jobId t v :=
  ⟨h.segment', h.segment, h.settable', h.settable, h.storable, fun hmem => h.inherited hmem.symm⟩

/-- **Addresses of two jobs.** The flags and outputs of two jobs have one address each just when
both ids are one segment, the values on the way to their variables are records or missing, the
value set can be stored, and no flag is named like an inherited property of a record that is
missing. -/
theorem oneAddressEach_iff {jobId jobId' : String} (hne : jobId ≠ jobId') (t v : Json) :
    OneAddressEach jobId jobId' t v ↔ OneAddressWhen jobId jobId' t v := by
  constructor
  · intro h
    have hsegment := (oneAddress_iff jobId).1 h.address
    have hsegment' := (oneAddress_iff jobId').1 h.address'
    obtain ⟨hsettable, hstorable⟩ := (readsBack_iff hsegment t v).1 h.readsBack
    obtain ⟨hsettable', -⟩ := (readsBack_iff hsegment' t v).1 h.readsBack'
    refine ⟨hsegment, hsegment', hsettable, hsettable', hstorable, ?_⟩
    rintro (hmem | hmem) group
    · exact flags_of_apart hne.symm hsegment' hsegment hsettable' hsettable h.apart' hmem group
    · exact flags_of_apart hne hsegment hsegment' hsettable hsettable' h.apart hmem group
  · intro h
    exact ⟨(oneAddress_iff jobId).2 h.segment, (oneAddress_iff jobId').2 h.segment',
      apart_of_when hne h, apart_of_when hne.symm h.symm,
      (readsBack_iff h.segment t v).2 ⟨h.settable, h.storable⟩,
      (readsBack_iff h.segment' t v).2 ⟨h.settable', h.storable⟩⟩

/-- Two jobs with plain ids in a run that has no variables yet. -/
theorem build_and_test :
    OneAddressEach "build" "test" Json.empty (.str "done") := by
  have hsegment : ∀ s : String, PlainId s → holdsNoNul s = true → OneSegment s :=
    fun s hs hnul => ⟨literalText_of_plainId hs, plainId_notMem_dot hs, hnul⟩
  apply (oneAddressEach_iff (by decide) _ _).2
  exact ⟨hsegment _ (by decide) (by decide), hsegment _ (by decide) (by decide),
    fun _ => Json.settable_empty _, fun _ => Json.settable_empty _, by decide,
    fun h => absurd h (by decide)⟩

/-- The read yields nothing. -/
def JsValue.isUndefined : JsValue → Bool
  | .undefined => true
  | _ => false

/-- Two jobs, one with a dot in its id. -/
def dottedDefinition : IWorkflowDefinition where
  workflow_id := "workflow"
  jobs := some [{ id := "build.web" }, { id := "test" }]

/-- A flag claimed for an id with a dot is not at the key of the flag. -/
theorem dotted_id_two_addresses :
    (validateWorkflow (fun _ => []) dottedDefinition).valid = true ∧
      ((tryMarkJob Json.empty .completedJobs "build.web").bind id).map (fun t =>
        (getVariable t "_internal.completed_jobs.build.web").isUndefined) = some true ∧
      ¬ OneAddressEach "build.web" "test" Json.empty (.bool true) := by
  refine ⟨by decide +kernel, by decide +kernel, fun h => ?_⟩
  have hsegment := (oneAddress_iff "build.web").1 h.address
  exact hsegment.noDot (by decide)

end FlagAddress

end Nexus
