import Nexus.Workflow.Store
import Nexus.Workflow.Validation
import Mathlib.Data.List.DropRight

/-!
# Ids of jobs on the queues

The queues name a job of a run by a text of the two ids, each of them normalised first. The
normalisation replaces runs of characters, so distinct ids can become one text: the queue ids of two
jobs of a run are distinct just when the ids of the jobs differ in their words
(`queueJobIds_disjoint_iff`).
-/

set_option autoImplicit false

namespace Nexus

namespace WorkflowJobIdentity

/-- `sanitizeIdentitySegment` of a text. -/
def sanitizeIdentitySegment (value fallback : String) : String :=
  if normalizeIdentitySegment value ≠ "" then normalizeIdentitySegment value
  else normalizeIdentitySegment fallback

def buildWorkflowStepQueueJobId (workflowRunId jobId : String) : String :=
  "workflow-step-" ++ sanitizeIdentitySegment workflowRunId "run" ++ "-" ++
    sanitizeIdentitySegment jobId "job"

def buildRequiredToolRetryQueueJobId (workflowRunId jobId : String) : String :=
  "required-tool-retry-" ++ sanitizeIdentitySegment workflowRunId "run" ++ "-" ++
    sanitizeIdentitySegment jobId "job"

def buildAutoRetryQueueJobId (workflowRunId jobId : String) : String :=
  "auto-retry-" ++ sanitizeIdentitySegment workflowRunId "run" ++ "-" ++
    sanitizeIdentitySegment jobId "job"

/-- The ids under which a job can be put on a queue. -/
def queueJobIds (workflowRunId jobId : String) : List String :=
  [buildWorkflowStepQueueJobId workflowRunId jobId,
    buildRequiredToolRetryQueueJobId workflowRunId jobId,
    buildAutoRetryQueueJobId workflowRunId jobId]

/-! ## Words -/

/-- A letter, a digit or a dot. -/
def isInnerChar (c : Char) : Bool := c.isAlphanum || c = '.'

def isWordChar (c : Char) : Bool := isInnerChar c || c = '-'

/-- The characters from the first letter, digit or dot to the last. -/
def inner (cs : List Char) : List Char :=
  (cs.dropWhile fun c => !isInnerChar c).rdropWhile fun c => !isInnerChar c

/-- The longest parts of letters, digits, dots and hyphens. -/
def wordsOf (cs : List Char) : List (List Char) :=
  (cs.splitOnP fun c => !isWordChar c).filter fun word => word ≠ []

/-- The words of an id; an id without a letter, digit or dot counts as `job`. -/
def identityWords (id : String) : List (List Char) :=
  if inner id.toList = [] then ["job".toList] else wordsOf (inner id.toList)

variable {c : Char}

theorem isEdgeChar_of_not_inner (hword : isWordChar c = true) (h : isInnerChar c = false) :
    isEdgeChar c = true := by
  simp only [isWordChar, h, Bool.false_or, decide_eq_true_eq] at hword
  simp [isEdgeChar, hword]

theorem isEdgeChar_of_inner (h : isInnerChar c = true) : isEdgeChar c = false := by
  by_contra hedge
  simp only [isEdgeChar, Bool.or_eq_false_iff, decide_eq_false_iff_not, not_and_or,
    not_not] at hedge
  rcases hedge with rfl | rfl <;> exact absurd h (by decide)

theorem isSafe_iff_word (c : Char) :
    (isSafeIdentityChar c = true ∧ c ≠ '_') ↔ isWordChar c = true := by
  by_cases hunderscore : c = '_'
  · subst hunderscore
    decide
  · simp [isSafeIdentityChar, isWordChar, isInnerChar, hunderscore, or_assoc]

theorem collapseUnsafe_word (h : isWordChar c = true) (b : Bool) (cs : List Char) :
    collapseUnsafe b (c :: cs) = c :: collapseUnsafe false cs := by
  rw [collapseUnsafe, if_pos ((isSafe_iff_word c).2 h)]

theorem collapseUnsafe_break (h : isWordChar c = false) (cs : List Char) (b : Bool) :
    collapseUnsafe b (c :: cs) =
      if b = true then collapseUnsafe true cs else '_' :: collapseUnsafe true cs := by
  have hnot : ¬ (isSafeIdentityChar c = true ∧ c ≠ '_') := by
    rw [isSafe_iff_word, h]
    exact Bool.false_ne_true
  rw [collapseUnsafe, if_neg hnot]

theorem isWordChar_of_inner (h : isInnerChar c = true) : isWordChar c = true := by
  simp [isWordChar, h]

/-! ## The normal form -/

theorem dropWhile_collapseUnsafe (b : Bool) (cs : List Char) :
    (collapseUnsafe b cs).dropWhile isEdgeChar =
      collapseUnsafe false (cs.dropWhile fun c => !isInnerChar c) := by
  induction cs generalizing b with
  | nil => rfl
  | cons c cs ih =>
      cases hinner : isInnerChar c with
      | true =>
          have hword := isWordChar_of_inner hinner
          rw [List.dropWhile_cons_of_neg (by simp [hinner]), collapseUnsafe_word hword,
            collapseUnsafe_word hword, List.dropWhile_cons_of_neg
              (by simp [isEdgeChar_of_inner hinner])]
      | false =>
          rw [List.dropWhile_cons_of_pos (by simp [hinner])]
          cases hword : isWordChar c with
          | true =>
              rw [collapseUnsafe_word hword,
                List.dropWhile_cons_of_pos (isEdgeChar_of_not_inner hword hinner), ih]
          | false =>
              rw [collapseUnsafe_break hword]
              split
              · exact ih true
              · rw [List.dropWhile_cons_of_pos (by decide), ih]

theorem rdropWhile_cons (p : Char → Bool) (c : Char) (cs : List Char) :
    (c :: cs).rdropWhile p =
      if cs.rdropWhile p = [] then if p c then [] else [c] else c :: cs.rdropWhile p := by
  rw [List.rdropWhile, List.rdropWhile, List.reverse_cons, List.dropWhile_append]
  by_cases hempty : cs.reverse.dropWhile p = []
  · rw [if_pos (by simp [hempty]), hempty, if_pos List.reverse_nil]
    cases hp : p c <;> simp [hp]
  · rw [if_neg (by simpa using hempty), if_neg (by simpa using hempty), List.reverse_append]
    rfl

variable {cs : List Char}

theorem collapseUnsafe_ne_nil {b : Bool} (h : cs.rdropWhile (fun c => !isInnerChar c) = cs)
    (hne : cs ≠ []) :
    collapseUnsafe b cs ≠ [] := by
  induction cs generalizing b with
  | nil => exact absurd rfl hne
  | cons c cs ih =>
      cases hword : isWordChar c with
      | true => simp [collapseUnsafe_word hword]
      | false =>
          have hnot : isInnerChar c = false := by
            by_contra hinner
            rw [Bool.not_eq_false] at hinner
            rw [isWordChar_of_inner hinner] at hword
            cases hword
          rw [rdropWhile_cons] at h
          split at h
          · rw [if_pos (by simp [hnot])] at h
            cases h
          · rename_i hrest
            have htail := (List.cons.inj h).2
            rw [collapseUnsafe_break hword]
            split
            · exact ih htail (htail ▸ hrest)
            · simp

theorem rdropWhile_collapseUnsafe (b : Bool) (cs : List Char) :
    (collapseUnsafe b cs).rdropWhile isEdgeChar =
      collapseUnsafe b (cs.rdropWhile fun c => !isInnerChar c) := by
  have hlast : ∀ cs : List Char, (cs.rdropWhile fun c => !isInnerChar c).rdropWhile
      (fun c => !isInnerChar c) = cs.rdropWhile fun c => !isInnerChar c :=
    fun cs => List.rdropWhile_idempotent _ _
  induction cs generalizing b with
  | nil => rfl
  | cons c cs ih =>
      cases hword : isWordChar c with
      | true =>
          rw [collapseUnsafe_word hword, rdropWhile_cons, rdropWhile_cons, ih]
          by_cases hrest : cs.rdropWhile (fun c => !isInnerChar c) = []
          · rw [if_pos (by simp [hrest, collapseUnsafe]), if_pos hrest]
            cases hinner : isInnerChar c with
            | true =>
                rw [if_neg (by simp [isEdgeChar_of_inner hinner]), if_neg (by simp)]
                rw [collapseUnsafe_word hword, collapseUnsafe]
            | false =>
                rw [if_pos (isEdgeChar_of_not_inner hword hinner), if_pos (by simp)]
                rfl
          · rw [if_neg (collapseUnsafe_ne_nil (hlast cs) hrest), if_neg hrest,
              collapseUnsafe_word hword]
      | false =>
          have hnot : isInnerChar c = false := by
            by_contra hinner
            rw [Bool.not_eq_false] at hinner
            rw [isWordChar_of_inner hinner] at hword
            cases hword
          by_cases hrest : cs.rdropWhile (fun c => !isInnerChar c) = []
          · have hnil : (c :: cs).rdropWhile (fun c => !isInnerChar c) = [] := by
              rw [rdropWhile_cons, if_pos hrest, if_pos (by simp [hnot])]
            have hcollapsed : (collapseUnsafe true cs).rdropWhile isEdgeChar = [] := by
              rw [ih, hrest, collapseUnsafe]
            rw [hnil, collapseUnsafe_break hword, collapseUnsafe]
            cases b with
            | true => exact hcollapsed
            | false =>
                rw [if_neg Bool.false_ne_true, rdropWhile_cons, if_pos hcollapsed]
                rfl
          · rw [rdropWhile_cons _ c, if_neg hrest, collapseUnsafe_break hword,
              collapseUnsafe_break hword]
            cases b with
            | true => exact ih true
            | false =>
                rw [if_neg Bool.false_ne_true, if_neg Bool.false_ne_true, rdropWhile_cons, ih,
                  if_neg (collapseUnsafe_ne_nil (hlast cs) hrest)]

theorem not_inner_of_whitespace (h : isJsWhitespace c = true) : isInnerChar c = false := by
  have hvalue : c.toNat = c.val.toNat := rfl
  simp only [isJsWhitespace, Bool.or_eq_true, Bool.and_eq_true, decide_eq_true_eq] at h
  rw [isInnerChar, Bool.or_eq_false_iff]
  constructor
  · simp only [Char.isAlphanum, Char.isAlpha, Char.isUpper, Char.isLower, Char.isDigit,
      Bool.or_eq_false_iff, Bool.and_eq_false_iff, decide_eq_false_iff_not, ge_iff_le,
      UInt32.le_iff_toNat_le]
    refine ⟨⟨?_, ?_⟩, ?_⟩ <;> simp <;> omega
  · rw [decide_eq_false_iff_not]
    rintro rfl
    revert h
    decide

/-- The two ends are cut off in either order. -/
theorem rdropWhile_dropWhile (p : Char → Bool) (cs : List Char) :
    (cs.dropWhile p).rdropWhile p = (cs.rdropWhile p).dropWhile p := by
  induction cs with
  | nil => rfl
  | cons c cs ih =>
      cases hp : p c with
      | true =>
          rw [List.dropWhile_cons_of_pos hp, ih, rdropWhile_cons]
          split
          · rename_i hrest
            rw [hrest]
          · rw [List.dropWhile_cons_of_pos hp]
      | false =>
          have hneg : ¬ p c = true := by simp [hp]
          rw [List.dropWhile_cons_of_neg hneg, rdropWhile_cons]
          split
          · rw [List.dropWhile_cons_of_neg hneg]
          · rw [List.dropWhile_cons_of_neg hneg]

/-- Trimming takes nothing that the edges would keep. -/
theorem inner_trimChars (cs : List Char) : inner (trimChars cs) = inner cs := by
  have hleft : ∀ cs : List Char, (cs.dropWhile isJsWhitespace).dropWhile
      (fun c => !isInnerChar c) = cs.dropWhile fun c => !isInnerChar c := by
    intro cs
    induction cs with
    | nil => rfl
    | cons c cs ih =>
        cases hspace : isJsWhitespace c with
        | true =>
            have hnot := not_inner_of_whitespace hspace
            rw [List.dropWhile_cons_of_pos hspace, List.dropWhile_cons_of_pos (by simp [hnot]), ih]
        | false => rw [List.dropWhile_cons_of_neg (by simp [hspace])]
  have hright : ∀ cs : List Char, (cs.rdropWhile isJsWhitespace).rdropWhile
      (fun c => !isInnerChar c) = cs.rdropWhile fun c => !isInnerChar c := by
    intro cs
    rw [List.rdropWhile, List.rdropWhile, List.reverse_reverse, hleft, List.rdropWhile]
  have htrim : trimChars cs = (cs.dropWhile isJsWhitespace).rdropWhile isJsWhitespace := rfl
  rw [inner, htrim, rdropWhile_dropWhile, hright, ← rdropWhile_dropWhile, hleft, inner]

theorem toList_normalizeIdentitySegment (value : String) :
    (normalizeIdentitySegment value).toList = collapseUnsafe false (inner value.toList) := by
  have hedges : (normalizeIdentitySegment value).toList =
      ((collapseUnsafe false (trimChars value.toList)).dropWhile isEdgeChar).rdropWhile
        isEdgeChar := String.toList_ofList
  rw [hedges, dropWhile_collapseUnsafe, rdropWhile_collapseUnsafe, ← inner_trimChars]
  rfl

/-! ## Words of the normal form -/

theorem wordsOf_break (h : isWordChar c = false) (cs : List Char) :
    wordsOf (c :: cs) = wordsOf cs := by
  rw [wordsOf, List.splitOnP_cons_eq_if_modifyHead, if_pos (by simp [h]),
    List.filter_cons_of_neg (by simp)]
  rfl

theorem wordsOf_singleton (h : isWordChar c = true) : wordsOf [c] = [[c]] := by
  simp [wordsOf, List.splitOnP_cons_eq_if_modifyHead, h]

/-- A character before a break is a word of its own, unless more characters come before it. -/
theorem wordsOf_word_break {c' : Char} (h : isWordChar c = true) (h' : isWordChar c' = false)
    (cs : List Char) : wordsOf (c :: c' :: cs) = [c] :: wordsOf cs := by
  simp [wordsOf, List.splitOnP_cons_eq_if_modifyHead, h, h']

/-- A character before another one belongs to the same word. -/
theorem wordsOf_word_word {c' : Char} (h : isWordChar c = true) (h' : isWordChar c' = true)
    (cs : List Char) : ∃ word words, wordsOf (c' :: cs) = word :: words ∧
      wordsOf (c :: c' :: cs) = (c :: word) :: words := by
  cases hsplit : cs.splitOnP fun c => !isWordChar c with
  | nil => exact absurd hsplit (List.splitOnP_ne_nil _ _)
  | cons word words =>
      refine ⟨c' :: word, words.filter fun word => word ≠ [], ?_, ?_⟩
      · simp [wordsOf, List.splitOnP_cons_eq_if_modifyHead, h', hsplit]
      · simp [wordsOf, List.splitOnP_cons_eq_if_modifyHead, h, h', hsplit]

theorem underscore_notMem_wordsOf (cs : List Char) : ∀ word ∈ wordsOf cs, '_' ∉ word := by
  have hunderscore : isWordChar '_' = false := by decide
  induction cs with
  | nil => simp [wordsOf]
  | cons c cs ih =>
      cases h : isWordChar c with
      | false =>
          rw [wordsOf_break h]
          exact ih
      | true =>
          have hne : '_' ≠ c := by
            rintro rfl
            rw [hunderscore] at h
            cases h
          cases cs with
          | nil =>
              rw [wordsOf_singleton h]
              simpa using hne
          | cons c' cs =>
              cases h' : isWordChar c' with
              | false =>
                  rw [wordsOf_break h'] at ih
                  rw [wordsOf_word_break h h']
                  simpa [hne] using ih
              | true =>
                  obtain ⟨word, words, hrest, hwhole⟩ := wordsOf_word_word h h' cs
                  rw [hrest] at ih
                  rw [hwhole]
                  simpa [hne] using ih

/-- Characters that end with a letter, digit or dot. -/
def EndsInner (cs : List Char) : Prop := cs.rdropWhile (fun c => !isInnerChar c) = cs

theorem endsInner_tail (h : EndsInner (c :: cs)) : EndsInner cs := by
  rw [EndsInner, rdropWhile_cons] at h
  split at h
  · split at h
    · cases h
    · have hnil : cs = [] := (List.cons.inj h).2.symm
      rw [hnil]
      rfl
  · exact (List.cons.inj h).2

theorem wordsOf_ne_nil (h : EndsInner cs) (hne : cs ≠ []) : wordsOf cs ≠ [] := by
  induction cs with
  | nil => exact absurd rfl hne
  | cons c cs ih =>
      cases hword : isWordChar c with
      | false =>
          rw [wordsOf_break hword]
          apply ih (endsInner_tail h)
          rintro rfl
          have hinner : isInnerChar c = false := by
            by_contra hinner
            rw [Bool.not_eq_false] at hinner
            rw [isWordChar_of_inner hinner] at hword
            cases hword
          rw [EndsInner, List.rdropWhile_singleton, if_pos (by simp [hinner])] at h
          cases h
      | true =>
          cases cs with
          | nil => simp [wordsOf_singleton hword]
          | cons c' cs =>
              cases hword' : isWordChar c' with
              | false => simp [wordsOf_word_break hword hword']
              | true =>
                  obtain ⟨word, words, -, hwhole⟩ := wordsOf_word_word hword hword' cs
                  simp [hwhole]

/-- The normal form of characters that end with a letter, digit or dot joins their words. -/
theorem collapseUnsafe_eq_intercalate (h : EndsInner cs) :
    collapseUnsafe true cs = ['_'].intercalate (wordsOf cs) ∧
      collapseUnsafe false cs =
        (if (cs.head?.any fun c => !isWordChar c) = true then ['_'] else []) ++
          ['_'].intercalate (wordsOf cs) := by
  induction cs with
  | nil => simp [collapseUnsafe, wordsOf, List.intercalate]
  | cons c cs ih =>
      have hrest := ih (endsInner_tail h)
      cases hword : isWordChar c with
      | false =>
          rw [collapseUnsafe_break hword, collapseUnsafe_break hword, wordsOf_break hword, hrest.1]
          simp [hword]
      | true =>
          -- the characters of a word are kept, and what follows starts a new word after a break
          have hword_join :
              ['_'].intercalate (wordsOf (c :: cs)) = c :: collapseUnsafe false cs := by
            rw [hrest.2]
            cases cs with
            | nil =>
                rw [wordsOf_singleton hword]
                simp [wordsOf, List.intercalate]
            | cons c' cs =>
                cases hword' : isWordChar c' with
                | false =>
                    have hne := wordsOf_ne_nil (endsInner_tail h) (by simp)
                    rw [wordsOf_break hword'] at hne ⊢
                    rw [wordsOf_word_break hword hword']
                    obtain ⟨word, words, hwords⟩ := List.exists_cons_of_ne_nil hne
                    simp [hwords, hword', List.intercalate]
                | true =>
                    obtain ⟨word, words, htail, hwhole⟩ := wordsOf_word_word hword hword' cs
                    rw [htail, hwhole]
                    cases words <;> simp [hword', List.intercalate]
          rw [collapseUnsafe_word hword, collapseUnsafe_word hword, hword_join]
          simp [hword]

theorem endsInner_inner (cs : List Char) : EndsInner (inner cs) := List.rdropWhile_idempotent _ _

theorem head_inner (cs : List Char) :
    ((inner cs).head?.any fun c => !isWordChar c) = false := by
  rw [inner, rdropWhile_dropWhile]
  cases hcs : (cs.rdropWhile fun c => !isInnerChar c).dropWhile fun c => !isInnerChar c with
  | nil => rfl
  | cons c rest =>
      have hfirst := List.head?_dropWhile_not (fun c => !isInnerChar c)
        (cs.rdropWhile fun c => !isInnerChar c)
      simp only [hcs, List.head?_cons, Bool.not_eq_false'] at hfirst
      simp [isWordChar_of_inner hfirst]

/-- **The sanitised id of a job joins its words.** -/
theorem toList_sanitizeIdentitySegment (jobId : String) :
    (sanitizeIdentitySegment jobId "job").toList = ['_'].intercalate (identityWords jobId) := by
  have hjoin : ∀ cs, collapseUnsafe false (inner cs) = ['_'].intercalate (wordsOf (inner cs)) := by
    intro cs
    rw [(collapseUnsafe_eq_intercalate (endsInner_inner cs)).2, head_inner]
    rfl
  have hempty : normalizeIdentitySegment jobId = "" ↔ inner jobId.toList = [] := by
    rw [← String.toList_inj, toList_normalizeIdentitySegment]
    constructor
    · intro h
      by_contra hne
      exact collapseUnsafe_ne_nil (endsInner_inner _) hne h
    · intro h
      rw [h]
      rfl
  rw [sanitizeIdentitySegment, identityWords]
  by_cases h : inner jobId.toList = []
  · rw [if_neg (not_not.2 (hempty.2 h)), if_pos h]
    decide
  · rw [if_pos (fun hnormal => h (hempty.1 hnormal)), if_neg h,
      toList_normalizeIdentitySegment, hjoin]

theorem identityWords_ne_nil (id : String) : identityWords id ≠ [] := by
  rw [identityWords]
  split
  · simp
  · exact wordsOf_ne_nil (endsInner_inner _) ‹_›

/-- Two ids have one sanitised form just when they have the same words. -/
theorem sanitizeIdentitySegment_eq_iff (jobId jobId' : String) :
    sanitizeIdentitySegment jobId "job" = sanitizeIdentitySegment jobId' "job" ↔
      identityWords jobId = identityWords jobId' := by
  have hwords : ∀ id : String,
      (['_'].intercalate (identityWords id)).splitOn '_' = identityWords id := by
    intro id
    apply List.splitOn_intercalate
    · intro word hword
      rw [identityWords] at hword
      split at hword
      · rw [List.mem_singleton.1 hword]
        decide
      · exact underscore_notMem_wordsOf _ word hword
    · exact identityWords_ne_nil id
  rw [← String.toList_inj, toList_sanitizeIdentitySegment, toList_sanitizeIdentitySegment]
  constructor
  · intro h
    rw [← hwords jobId, h, hwords jobId']
  · intro h
    rw [h]

theorem append_left_cancel {start value value' : String} (h : start ++ value = start ++ value') :
    value = value' := by
  have hlists := congrArg String.toList h
  rw [String.toList_append, String.toList_append] at hlists
  exact String.toList_inj.1 (List.append_cancel_left hlists)

/-- The first characters of a run's ids on the queues. -/
theorem head_queueJobIds (workflowRunId jobId : String) :
    (queueJobIds workflowRunId jobId).map (fun queueJobId => queueJobId.toList.head?) =
      [some 'w', some 'r', some 'a'] := by
  unfold queueJobIds buildWorkflowStepQueueJobId buildRequiredToolRetryQueueJobId
    buildAutoRetryQueueJobId
  simp

/-- **The queue ids of two jobs of a run are distinct just when their ids have different words.** -/
theorem queueJobIds_disjoint_iff (workflowRunId jobId jobId' : String) :
    (∀ queueJobId ∈ queueJobIds workflowRunId jobId,
      queueJobId ∉ queueJobIds workflowRunId jobId') ↔
      identityWords jobId ≠ identityWords jobId' := by
  rw [ne_eq, ← sanitizeIdentitySegment_eq_iff]
  constructor
  · intro hdisjoint hsame
    apply hdisjoint (buildWorkflowStepQueueJobId workflowRunId jobId) (by simp [queueJobIds])
    rw [buildWorkflowStepQueueJobId, hsame]
    exact List.mem_cons_self
  · intro hne queueJobId hmem hmem'
    have hheads := head_queueJobIds workflowRunId jobId
    have hheads' := head_queueJobIds workflowRunId jobId'
    simp only [queueJobIds, List.map_cons, List.map_nil, List.cons.injEq,
      and_true] at hheads hheads'
    obtain ⟨hstep, hretry, hauto⟩ := hheads
    obtain ⟨hstep', hretry', hauto'⟩ := hheads'
    simp only [queueJobIds, List.mem_cons, List.not_mem_nil, or_false] at hmem hmem'
    -- ids of different builders differ in their first character, ids of one builder in the segment
    rcases hmem with rfl | rfl | rfl <;> rcases hmem' with h | h | h
    · unfold buildWorkflowStepQueueJobId at h
      exact hne (append_left_cancel h)
    · rw [h, hretry'] at hstep
      cases hstep
    · rw [h, hauto'] at hstep
      cases hstep
    · rw [h, hstep'] at hretry
      cases hretry
    · unfold buildRequiredToolRetryQueueJobId at h
      exact hne (append_left_cancel h)
    · rw [h, hauto'] at hretry
      cases hretry
    · rw [h, hstep'] at hauto
      cases hauto
    · rw [h, hretry'] at hauto
      cases hauto
    · unfold buildAutoRetryQueueJobId at h
      exact hne (append_left_cancel h)

/-- Two jobs whose ids have the same words. -/
def spelledDefinition : IWorkflowDefinition where
  workflow_id := "workflow"
  jobs := some [{ id := "run tests" }, { id := "run_tests" }]

/-- Ids that differ in a character the normalisation replaces are one id on every queue. -/
theorem run_tests_twice :
    (validateWorkflow (fun _ => []) spelledDefinition).valid = true ∧
      spelledDefinition.jobList.map IJob.id = ["run tests", "run_tests"] ∧
      ∀ workflowRunId, queueJobIds workflowRunId "run tests" =
        queueJobIds workflowRunId "run_tests" := by
  refine ⟨by decide +kernel, rfl, ?_⟩
  intro workflowRunId
  have hsame : sanitizeIdentitySegment "run tests" "job" =
      sanitizeIdentitySegment "run_tests" "job" :=
    (sanitizeIdentitySegment_eq_iff _ _).2 (by decide +kernel)
  unfold queueJobIds buildWorkflowStepQueueJobId buildRequiredToolRetryQueueJobId
    buildAutoRetryQueueJobId
  rw [hsame]

end WorkflowJobIdentity

end Nexus
