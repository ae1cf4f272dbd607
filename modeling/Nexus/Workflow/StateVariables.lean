import Nexus.Workflow.StatePath

/-!
# The state variables of a run

The variables the engine keeps about the jobs of a run, and the four accesses to them: the read of
a dotted key (`StateManagerService.getVariable`), the atomic write and the atomic removal of a
dotted key (`setStateVariableAtomic`, `deleteStateVariableAtomic`), and the compare-and-set of a
flag (`tryClaimInternalJobFlag`). On a well-formed value and plain ids the writes are seen under
their own key only.
-/

set_option autoImplicit false

namespace Nexus

/-- The variables of a job (`loops` counts the transitions of a pair of jobs). -/
inductive StateKey where
  | queued (jobId : String)
  | completed (jobId : String)
  | jobResult (jobId : String)
  | output (jobId : String)
  | result (jobId : String)
  | loops (jobId nextJobId : String)
  | retryAttempt (jobId : String)
  | retryFirstFailureAt (jobId : String)
  | retryLastFailure (jobId : String)
  | healthCheckFailed (jobId : String)
  deriving DecidableEq

namespace StateKey

/-- The steps of the key. -/
def segs : StateKey → List String
  | queued j => ["_internal", "queued_jobs", j]
  | completed j => ["_internal", "completed_jobs", j]
  | jobResult j => ["_internal", "job_results", j]
  | output j => ["jobs", j, "output"]
  | result j => ["jobs", j, "result"]
  | loops j n => ["_internal", "loops", j, n]
  | retryAttempt j => ["_internal", "auto_retry", j, "attempt"]
  | retryFirstFailureAt j => ["_internal", "auto_retry", j, "first_failure_at"]
  | retryLastFailure j => ["_internal", "auto_retry", j, "last_failure"]
  | healthCheckFailed j => ["_internal", "container_health_check_failed", j]

/-- Every id of the key is plain. -/
def Plain : StateKey → Prop
  | queued j => PlainId j
  | completed j => PlainId j
  | jobResult j => PlainId j
  | output j => PlainId j
  | result j => PlainId j
  | loops j n => PlainId j ∧ PlainId n
  | retryAttempt j => PlainId j
  | retryFirstFailureAt j => PlainId j
  | retryLastFailure j => PlainId j
  | healthCheckFailed j => PlainId j

end StateKey

/-- The dotted key of a list of steps, a template such as `_internal.queued_jobs.${jobId}`. -/
def dotted (segments : List String) : String :=
  String.ofList (['.'].intercalate (segments.map String.toList))

/-- The dotted key of a state variable. -/
def StateKey.path (k : StateKey) : String := dotted k.segs

/-- `_internal.auto_retry.${jobId}`. -/
def autoRetryEntrySegs (jobId : String) : List String := ["_internal", "auto_retry", jobId]

def autoRetryEntryPath (jobId : String) : String := dotted (autoRetryEntrySegs jobId)

/-- Removes every NUL from a string. -/
def stripNullBytes (s : String) : String := String.ofList (s.toList.filter fun c => c.toNat ≠ 0)

mutual

/-- Removes NUL from every string of a value; keys are kept. -/
def stripNullBytesDeep : Json → Json
  | .str s => .str (stripNullBytes s)
  | .arr xs => .arr (stripNullBytesList xs)
  | .obj fields => .obj (stripNullBytesFields fields)
  | .null => .null
  | .bool b => .bool b
  | .num n => .num n

def stripNullBytesList : List Json → List Json
  | [] => []
  | x :: xs => stripNullBytesDeep x :: stripNullBytesList xs

def stripNullBytesFields : List (String × Json) → List (String × Json)
  | [] => []
  | (k, v) :: fields => (k, stripNullBytesDeep v) :: stripNullBytesFields fields

end

/-! ## Accesses -/

/-- The value of a dotted key. -/
def getStateVariable (t : Json) (key : String) : Option Json := t.getNested (splitDots key)

/-- The column after the atomic write of a dotted key; `none` is a failing statement. -/
def setStateVariable (t : Json) (key : String) (value : Json) : Option Json :=
  buildNestedJsonbSetExpr (splitDots key) (stripNullBytesDeep value) t

/-- The column after the atomic removal of a dotted key. -/
def deleteStateVariable (t : Json) (key : String) : Option Json :=
  (pgSetPath (splitDots key)).bind t.jsonbDelete

/-- The two groups of flags claimed by compare-and-set. -/
inductive FlagGroup where
  | queuedJobs
  | completedJobs
  deriving DecidableEq, Repr

/-- The name of the group. -/
def FlagGroup.text : FlagGroup → String
  | queuedJobs => "queued_jobs"
  | completedJobs => "completed_jobs"

/-- The key of a flag of the group. -/
def FlagGroup.key : FlagGroup → String → StateKey
  | queuedJobs, j => .queued j
  | completedJobs, j => .completed j

/-- Whether `#>>` yields the text `true`. -/
def isTrueText : Option Json → Bool
  | some (.bool true) => true
  | some (.str s) => s = "true"
  | _ => false

/-- The compare-and-set of a flag: `none` is a failing statement, `some none` a flag that was
already set, `some (some t')` the column with the flag set. The id is one segment here. -/
def claimFlag (t : Json) (group : FlagGroup) (jobId : String) : Option (Option Json) :=
  let segments := ["_internal", group.text, jobId]
  match pgPath segments with
  | none => none
  | some path =>
      let current := (path.mapM id).bind t.jsonbGet
      if isTrueText current then some none
      else (buildNestedJsonbSetExpr segments (.bool true) t).map some

/-! ## Keys as paths -/

theorem plainId_notMem_dot {s : String} (h : PlainId s) : '.' ∉ s.toList := by
  intro hmem
  have hp := List.all_eq_true.1 h.2.1 '.' hmem
  revert hp
  decide

theorem splitDots_dotted {segments : List String} (hne : segments ≠ [])
    (h : ∀ s ∈ segments, '.' ∉ s.toList) : splitDots (dotted segments) = segments := by
  have hsplit : (['.'].intercalate (segments.map String.toList)).splitOn '.' =
      segments.map String.toList := by
    apply List.splitOn_intercalate
    · intro l hl
      obtain ⟨s, hs, rfl⟩ := List.mem_map.1 hl
      exact h s hs
    · simpa using hne
  simp [splitDots, dotted, hsplit, Function.comp_def]

variable {k : StateKey}

namespace StateKey

theorem segs_ne_nil (k : StateKey) : k.segs ≠ [] := by cases k <;> simp [segs]

theorem plainId_of_mem_segs (hk : k.Plain) : ∀ s ∈ k.segs, PlainId s := by
  have h1 : PlainId "_internal" := by decide
  have h2 : PlainId "jobs" := by decide
  have h3 : PlainId "queued_jobs" := by decide
  have h4 : PlainId "completed_jobs" := by decide
  have h5 : PlainId "job_results" := by decide
  have h6 : PlainId "output" := by decide
  have h7 : PlainId "result" := by decide
  have h8 : PlainId "loops" := by decide
  have h9 : PlainId "auto_retry" := by decide
  have h10 : PlainId "attempt" := by decide
  have h11 : PlainId "first_failure_at" := by decide
  have h12 : PlainId "last_failure" := by decide
  have h13 : PlainId "container_health_check_failed" := by decide
  cases k with
  | loops j n => simp [segs, h1, h8, hk.1, hk.2]
  | queued j => simp [segs, h1, h3, show PlainId j from hk]
  | completed j => simp [segs, h1, h4, show PlainId j from hk]
  | jobResult j => simp [segs, h1, h5, show PlainId j from hk]
  | output j => simp [segs, h2, h6, show PlainId j from hk]
  | result j => simp [segs, h2, h7, show PlainId j from hk]
  | retryAttempt j => simp [segs, h1, h9, h10, show PlainId j from hk]
  | retryFirstFailureAt j => simp [segs, h1, h9, h11, show PlainId j from hk]
  | retryLastFailure j => simp [segs, h1, h9, h12, show PlainId j from hk]
  | healthCheckFailed j => simp [segs, h1, h13, show PlainId j from hk]

theorem splitDots_path (hk : k.Plain) : splitDots k.path = k.segs :=
  splitDots_dotted k.segs_ne_nil fun s hs => plainId_notMem_dot (plainId_of_mem_segs hk s hs)

/-- Two different keys name diverging paths. -/
theorem diverge_of_ne {k' : StateKey} (h : k ≠ k') : Json.Diverge k.segs k'.segs := by
  cases k <;> cases k' <;> simp_all [segs, Json.Diverge, List.cons_prefix_cons] <;> grind

/-- The entry of the automatic retries of a job is a prefix of its keys and diverges from every
other one. -/
theorem autoRetryEntry_cases (jobId : String) (k : StateKey) :
    autoRetryEntrySegs jobId <+: k.segs ∧ autoRetryEntrySegs jobId ≠ k.segs ∨
      Json.Diverge (autoRetryEntrySegs jobId) k.segs := by
  cases k <;> simp [segs, autoRetryEntrySegs, Json.Diverge, List.cons_prefix_cons] <;> grind

end StateKey

/-! ## Well-formed values -/

/-- A record below which every state variable can be written. -/
structure WellFormed (t : Json) : Prop where
  record : ∃ fields, t = .obj fields
  settable : ∀ k : StateKey, Json.Settable k.segs t

/-- The value of a state variable. -/
def readKey (t : Json) (k : StateKey) : Option Json := t.getNested k.segs

/-- A launch's state: a record without `jobs` and `_internal`. -/
structure FreshState (t : Json) : Prop where
  record : ∃ fields, t = .obj fields
  noJobs : t.field? "jobs" = none
  noInternal : t.field? "_internal" = none

variable {t : Json}

theorem FreshState.readKey (h : FreshState t) (k : StateKey) : readKey t k = none := by
  obtain ⟨⟨fields, rfl⟩, hj, hi⟩ := h
  simp only [Json.field?] at hj hi
  cases k <;> simp [Nexus.readKey, StateKey.segs, Json.getNested, hj, hi]

theorem FreshState.wellFormed (h : FreshState t) : WellFormed t := by
  obtain ⟨⟨fields, rfl⟩, hj, hi⟩ := h
  simp only [Json.field?] at hj hi
  refine ⟨⟨fields, rfl⟩, fun k => ?_⟩
  cases k <;> simp [StateKey.segs, Json.Settable, hj, hi]

theorem getStateVariable_path (t : Json) (hk : k.Plain) :
    getStateVariable t k.path = readKey t k := by
  rw [getStateVariable, StateKey.splitDots_path hk, readKey]

/-- Whether `jobs` has an entry for a job. -/
def hasEntry (t : Json) (jobId : String) : Bool := (t.getNested ["jobs", jobId]).isSome

/-- The entry of `jobs` a variable belongs to. -/
def StateKey.entry : StateKey → Option String
  | .output j => some j
  | .result j => some j
  | _ => none

/-- A variable is below its own entry and diverges from the others. -/
theorem StateKey.entry_cases (k : StateKey) (jobId : String) :
    k.entry = some jobId ∧ ["jobs", jobId] <+: k.segs ∨
      k.entry ≠ some jobId ∧ Json.Diverge k.segs ["jobs", jobId] := by
  cases k <;> simp [segs, entry, Json.Diverge, List.cons_prefix_cons] <;> grind

/-- A value with one variable written: the variable is read back, the others are as they were. -/
structure Written (t : Json) (k : StateKey) (x t' : Json) : Prop where
  wellFormed : WellFormed t'
  read : ∀ k', readKey t' k' = if k = k' then some x else readKey t k'
  entry : ∀ jobId, hasEntry t' jobId = (decide (k.entry = some jobId) || hasEntry t jobId)

/-- The write of a plain key succeeds. -/
theorem setStateVariable_path (ht : WellFormed t) (hk : k.Plain) (v : Json) :
    ∃ t', setStateVariable t k.path v = some t' ∧ Written t k (stripNullBytesDeep v) t' := by
  obtain ⟨⟨fields, rfl⟩, hs⟩ := ht
  refine ⟨Json.setDeep k.segs (stripNullBytesDeep v) (.obj fields), ?_, ⟨?_, fun k' => ?_⟩,
    fun k' => ?_, fun jobId => ?_⟩
  · rw [setStateVariable, StateKey.splitDots_path hk,
      buildNestedJsonbSetExpr_plain k.segs_ne_nil (StateKey.plainId_of_mem_segs hk),
      Json.upsertPath_eq_setDeep _ _ _ k.segs_ne_nil (hs k)]
  · cases h : k.segs with
    | nil => exact absurd h k.segs_ne_nil
    | cons a as => exact ⟨_, rfl⟩
  · refine Json.settable_setDeep _ _ _ _ ?_ (hs k')
    by_cases h : k = k'
    · exact Or.inl (by rw [h])
    · exact Or.inr (StateKey.diverge_of_ne h)
  · by_cases h : k = k'
    · subst h
      rw [if_pos rfl, readKey, Json.getNested_setDeep_self _ _ _ (hs k)]
    · rw [if_neg h, readKey, readKey,
        Json.getNested_setDeep_of_diverge _ _ _ _ (StateKey.diverge_of_ne h)]
  · rcases k.entry_cases jobId with ⟨he, hpre⟩ | ⟨he, hdiv⟩
    · rw [hasEntry, Json.getNested_setDeep_prefix _ _ _ _ hpre (hs k)]
      simp [he]
    · rw [hasEntry, Json.getNested_setDeep_of_diverge _ _ _ _ hdiv]
      simp [he, hasEntry]

variable {jobId : String}

/-- The removal of a job's retry entry keeps the variables of other groups. -/
theorem deleteStateVariable_autoRetry (ht : WellFormed t) (hj : PlainId jobId) :
    ∃ t', deleteStateVariable t (autoRetryEntryPath jobId) = some t' ∧
      WellFormed t' ∧ (∀ id, hasEntry t' id = hasEntry t id) ∧
      ∀ k', ¬ autoRetryEntrySegs jobId <+: k'.segs → readKey t' k' = readKey t k' := by
  obtain ⟨⟨fields, rfl⟩, hs⟩ := ht
  have hplain : ∀ s ∈ autoRetryEntrySegs jobId, PlainId s := by
    simp only [autoRetryEntrySegs, List.mem_cons, List.not_mem_nil, or_false]
    rintro s (rfl | rfl | rfl)
    · decide
    · decide
    · exact hj
  have hne : autoRetryEntrySegs jobId ≠ [] := by simp [autoRetryEntrySegs]
  have hset : Json.Settable (autoRetryEntrySegs jobId) (.obj fields) :=
    Json.Settable.of_prefix ⟨["attempt"], rfl⟩ (hs (.retryAttempt jobId))
  refine ⟨Json.eraseDeep (autoRetryEntrySegs jobId) (.obj fields), ?_, ⟨?_, fun k' => ?_⟩,
    fun id => ?_, fun k' hk' => ?_⟩
  · rw [deleteStateVariable, autoRetryEntryPath,
      splitDots_dotted hne fun s h => plainId_notMem_dot (hplain s h),
      pgSetPath_plain hne hplain]
    exact Json.jsonbDelete_eq_eraseDeep _ _ hset
  · exact Json.eraseDeep_obj _ _
  · exact Json.settable_eraseDeep _ _ _ (hs k')
  · have hdiv : Json.Diverge (autoRetryEntrySegs jobId) ["jobs", id] := by
      simp [autoRetryEntrySegs, Json.Diverge, List.cons_prefix_cons]
    rw [hasEntry, Json.getNested_eraseDeep_of_diverge _ _ _ hdiv, hasEntry]
  · rcases StateKey.autoRetryEntry_cases jobId k' with h | h
    · exact absurd h.1 hk'
    · exact Json.getNested_eraseDeep_of_diverge _ _ _ h

/-- The compare-and-set of a plain flag: it fails on a set flag and sets it otherwise. -/
theorem claimFlag_plain (ht : WellFormed t) (group : FlagGroup) (hj : PlainId jobId) :
    (isTrueText (readKey t (group.key jobId)) = true ∧ claimFlag t group jobId = some none) ∨
    (isTrueText (readKey t (group.key jobId)) = false ∧
      ∃ t', claimFlag t group jobId = some (some t') ∧
        Written t (group.key jobId) (.bool true) t') := by
  have hplain : (group.key jobId).Plain := by cases group <;> exact hj
  have hsegs : (group.key jobId).segs = ["_internal", group.text, jobId] := by cases group <;> rfl
  have hmem := StateKey.plainId_of_mem_segs hplain
  rw [hsegs] at hmem
  have hpath := pgSetPath_plain (by simp) hmem
  obtain ⟨path, hp, hpm⟩ : ∃ path, pgPath ["_internal", group.text, jobId] = some path ∧
      path.mapM id = some ["_internal", group.text, jobId] := by
    rw [pgSetPath, Option.bind_eq_some_iff] at hpath
    exact hpath
  have hget : t.jsonbGet ["_internal", group.text, jobId] = readKey t (group.key jobId) := by
    rw [readKey, hsegs, ← hsegs]
    exact Json.jsonbGet_eq_getNested _ _ (ht.settable _)
  obtain ⟨t', hset, hwritten⟩ := setStateVariable_path ht hplain (.bool true)
  rw [setStateVariable, StateKey.splitDots_path hplain, hsegs] at hset
  have hclaim : claimFlag t group jobId =
      if isTrueText (readKey t (group.key jobId)) then some none else some (some t') := by
    simp only [claimFlag, hp, hpm, Option.bind_some, hget]
    simp only [stripNullBytesDeep] at hset
    rw [hset]
    rfl
  cases htrue : isTrueText (readKey t (group.key jobId)) with
  | true => exact Or.inl ⟨rfl, by rw [hclaim, htrue]; rfl⟩
  | false => exact Or.inr ⟨rfl, t', by rw [hclaim, htrue]; rfl, hwritten⟩

/-- A claimed flag is seen in no field but `_internal`. -/
theorem field?_claimFlag {t' : Json} {group : FlagGroup}
    (h : claimFlag t group jobId = some (some t')) {key : String} (hne : key ≠ "_internal") :
    t'.field? key = t.field? key := by
  simp only [claimFlag] at h
  split at h
  · nomatch h
  · split at h
    · simp at h
    · obtain ⟨u, hu, hut⟩ := Option.map_eq_some_iff.1 h
      obtain rfl : u = t' := Option.some.inj hut
      exact field?_buildNestedJsonbSetExpr (by decide) hu hne

end Nexus
