import Nexus.Workflow.RunProgress

/-!
# The conditions of a dry run

`evaluateJobCondition` of `workflow-dry-run.utils.ts`, with the equality expressions it accepts, and
when its verdict is the one of DAG progression (`dryRun_predicts_iff`). The dry run renders a
condition with its own Handlebars instance, so the renderer is a parameter of the function.
-/

set_option autoImplicit false

namespace Nexus

/-! ## Equality expressions -/

/-- The characters that `.` of a regular expression does not match. -/
def isLineTerminator (c : Char) : Bool :=
  c = '\n' || c = '\r' || c.toNat = 0x2028 || c.toNat = 0x2029

/-- What may follow a match of `\s*`, the longest match first. -/
def afterSpaces : List Char → List (List Char)
  | [] => [[]]
  | c :: cs => if isJsWhitespace c then afterSpaces cs ++ [c :: cs] else [c :: cs]

/-- The right operand, when the rest of a text matches `\s*OP\s*(.+)$`. -/
def matchOperator (op cs : List Char) : Option (List Char) :=
  (afterSpaces cs).findSome? fun atOp =>
    if op.isPrefixOf atOp then
      (afterSpaces (atOp.drop op.length)).find? fun right =>
        right ≠ [] ∧ right.all fun c => !isLineTerminator c
    else none

/-- The operands, when a text matches `/^(.+?)\s*OP\s*(.+)$/`; `left` has been taken before `cs`. -/
def matchOperands (op : List Char) : List Char → List Char → Option (List Char × List Char)
  | _, [] => none
  | left, c :: cs =>
      if isLineTerminator c then none
      else
        match matchOperator op cs with
        | some right => some (left ++ [c], right)
        | none => matchOperands op (left ++ [c]) cs

/-- `normalizeConditionOperand`: a quoted operand loses its quotes. -/
def normalizeConditionOperand (value : List Char) : List Char :=
  let trimmed := trimChars value
  if (trimmed.head? = some '\'' ∧ trimmed.getLast? = some '\'') ∨
      (trimmed.head? = some '"' ∧ trimmed.getLast? = some '"') then
    (trimmed.drop 1).dropLast
  else trimmed

/-- The operators in the order they are tried, and whether they expect equal operands. -/
def equalityOperations : List (String × Bool) :=
  [("===", true), ("==", true), ("!==", false), ("!=", false)]

/-- The first operator whose pattern the text matches decides. -/
def evaluateEqualityExpression (expression : String) : Bool :=
  let verdict := equalityOperations.findSome? fun operation =>
    (matchOperands operation.1.toList [] expression.toList).map fun operands =>
      decide (normalizeConditionOperand operands.1 = normalizeConditionOperand operands.2) ==
        operation.2
  verdict.getD false

/-- `evaluateJobCondition` of the dry run; `render` is its `substituteTemplate`. -/
def evaluateJobCondition (render : String → Json → Except String String)
    (condition : Option String) (vars : Json) : Except String Bool :=
  match condition with
  | none => .ok true
  | some template =>
      if template = "" then .ok true
      else
        (render template vars).map fun text =>
          let rendered := jsTrim text
          if rendered = "true" then true
          else if rendered = "false" then false
          else evaluateEqualityExpression rendered

-- `!==` is read as `==` after the left operand `a !`
example : evaluateEqualityExpression "a !== b" = false := by decide +kernel

/-! ## The decisions of the two evaluators -/

/-- The text a dry run compares with `true` and `false`. -/
def dryRunText (render : String → Json → Except String String) (condition : String)
    (vars : Json) : Except String String :=
  (render condition vars).map jsTrim

/-- The text the engine compares with `true`. -/
def engineText (env : Env) (condition : String) (vars : Json) : Except String String :=
  (renderWith env condition vars).map jsTrim

/-- A dry run reads a text as an equality of equal, or an inequality of different, operands. -/
def IsHoldingEquality (text : Except String String) : Prop :=
  ∃ t, text = .ok t ∧ evaluateEqualityExpression t = true

/-- When a dry run predicts the engine: a condition written under `if` alone holds; a condition
that renders to an equality that holds renders to `true` for the engine; and any other condition
renders to `true` for both or for neither. -/
def PredictsEngine (render : String → Json → Except String String) (env : Env) (job : IJob)
    (vars : Json) : Prop :=
  match job.condition with
  | none => ∀ c, job.ifCondition = some c → c ≠ "" → engineText env c vars = .ok "true"
  | some c =>
      c ≠ "" →
        (IsHoldingEquality (dryRunText render c vars) → engineText env c vars = .ok "true") ∧
        (¬ IsHoldingEquality (dryRunText render c vars) →
          (dryRunText render c vars = .ok "true" ↔ engineText env c vars = .ok "true"))

section Verdicts

variable {render : String → Json → Except String String} {env : Env} {job : IJob} {vars : Json}

theorem not_equality_false : evaluateEqualityExpression "false" = false := by decide +kernel

/-- A dry run meets the texts `true` and the equalities that hold. -/
theorem evaluateJobCondition_some_iff {c : String} (hc : c ≠ "") :
    evaluateJobCondition render (some c) vars = .ok true ↔
      dryRunText render c vars = .ok "true" ∨ IsHoldingEquality (dryRunText render c vars) := by
  have heval : evaluateJobCondition render (some c) vars =
      (render c vars).map fun text =>
        if jsTrim text = "true" then true
        else if jsTrim text = "false" then false
        else evaluateEqualityExpression (jsTrim text) := if_neg hc
  rw [heval, dryRunText, IsHoldingEquality]
  cases render c vars with
  | error message => simp [Except.map]
  | ok text =>
      simp only [Except.map, Except.ok.injEq, exists_eq_left']
      by_cases ht : jsTrim text = "true"
      · simp [ht]
      · by_cases hf : jsTrim text = "false"
        · simp [hf, not_equality_false]
        · simp [ht, hf]

theorem conditionValue_eq_true_iff :
    conditionValue env job vars = .ok true ↔
      ∀ c, job.jobCondition = some c → engineText env c vars = .ok "true" := by
  unfold conditionValue engineText
  cases job.jobCondition with
  | none => simp
  | some c =>
      simp only [Option.some.injEq, forall_eq']
      cases renderWith env c vars <;> simp [Except.map]

theorem jobCondition_eq_some_iff {c : String} :
    job.jobCondition = some c ↔ (job.condition <|> job.ifCondition) = some c ∧ c ≠ "" := by
  unfold IJob.jobCondition
  cases (job.condition <|> job.ifCondition) with
  | none => simp
  | some c' =>
      by_cases hc' : c' = ""
      · simp only [if_pos hc', reduceCtorEq, Option.some.injEq, false_iff, not_and, not_not]
        intro h
        rw [← h, hc']
      · simp only [if_neg hc', Option.some.injEq]
        constructor
        · rintro rfl
          exact ⟨rfl, hc'⟩
        · exact And.left

/-- The verdicts agree in the described cases and in no other. -/
theorem evaluateJobCondition_agrees_iff :
    (evaluateJobCondition render job.condition vars = .ok true ↔
      conditionValue env job vars = .ok true) ↔ PredictsEngine render env job vars := by
  rw [conditionValue_eq_true_iff]
  simp only [jobCondition_eq_some_iff]
  unfold PredictsEngine
  cases job.condition with
  | none =>
      have hmet : evaluateJobCondition render none vars = .ok true := rfl
      have hcond : (none <|> job.ifCondition) = job.ifCondition := by cases job.ifCondition <;> rfl
      simp only [hmet, true_iff, hcond, and_imp]
  | some c =>
      have hcond : (some c <|> job.ifCondition) = some c := rfl
      simp only [hcond, Option.some.injEq, and_imp, forall_eq']
      by_cases hc : c = ""
      · simp [hc, evaluateJobCondition]
      · rw [evaluateJobCondition_some_iff hc]
        have hne : c ≠ "" := hc
        simp only [hne, ne_eq, not_false_eq_true, forall_true_left]
        by_cases heq : IsHoldingEquality (dryRunText render c vars)
        · simp [heq]
        · simp [heq]

end Verdicts

/-! ## Prediction of DAG progression -/

open JobCompletionHandler

section Progression

variable {env : Env} {render : String → Json → Except String String} {w : World} {r : RunId}
  {definition : IWorkflowDefinition} {jobId : String} {job : IJob}

/-- The operations that leave the stores as they are. -/
def IsRead (o : Op) : Prop := ∀ w, (o.exec w).1 = w

theorem uses_getVariable {key : String} : Prog.Uses IsRead (getVariable r key) :=
  Prog.uses_bind (Prog.uses_op fun _ => rfl) fun run => by cases run <;> exact trivial

theorem uses_areFlaggedCompleted :
    ∀ ids : List String, Prog.Uses IsRead (areFlaggedCompleted r ids)
  | [] => trivial
  | _ :: ids => by
      refine Prog.uses_bind uses_getVariable fun completed => ?_
      cases isTrue completed with
      | true => exact uses_areFlaggedCompleted ids
      | false => exact trivial

theorem uses_areDependenciesCompleted :
    Prog.Uses IsRead (areDependenciesCompleted r definition job) := by
  unfold areDependenciesCompleted
  cases resolveStrictDependencies definition job with
  | false => exact uses_areFlaggedCompleted _
  | true =>
      refine Prog.uses_bind ?_ fun needs => Prog.uses_bind ?_ fun _ => trivial
      · cases normalizeWorkflowJobNeeds job <;> exact trivial
      · exact Prog.uses_bind (Prog.uses_op fun _ => rfl) fun run => by cases run <;> exact trivial

/-- Looking at the dependencies of a job leaves the stores as they are. -/
theorem areDependenciesCompleted_reads :
    ((areDependenciesCompleted r definition job).run Op.exec w).1 = w := by
  have hmeets : Prog.Meets (Prog.alone Op.exec fun _ _ => True) (fun _ w' => w' = w)
      (fun _ w' => w' = w) (areDependenciesCompleted r definition job) w := by
    refine Prog.Uses.meets uses_areDependenciesCompleted rfl (fun _ _ _ _ => trivial) ?_
    intro w₁ o ans w₂ h₁ ho hpost
    have hexec : o.exec w₁ = (w₂, ans) := hpost
    rw [← h₁, ← ho w₁, hexec]
  have hrun := hmeets.run
  rcases hp : (areDependenciesCompleted r definition job).run Op.exec w with ⟨w', e | b⟩
  · rw [hp] at hrun
    exact hrun
  · rw [hp] at hrun
    exact hrun

/-- A job whose dependencies are completed is enqueued when its condition holds. -/
theorem tryAdvanceToNextJob_eq_true_iff (hjob : definition.findJob jobId = some job)
    (hreached : ((areDependenciesCompleted r definition job).run Op.exec w).2 = .ok true) :
    ((tryAdvanceToNextJob env r definition jobId).run Op.exec w).2 = .ok true ↔
      conditionValue env job (w.state r) = .ok true := by
  have hspec : RunsTo (fun _ _ => True) (conditionHolds env r job) w
      (fun b w' => w' = w ∧ conditionValue env job (w.state r) = .ok b)
      (fun _ w' => w' = w ∧ ∃ message, conditionValue env job (w.state r) = .error message) :=
    conditionHolds_spec
  have hcondition := hspec.run
  have hrun : (tryAdvanceToNextJob env r definition jobId).run Op.exec w =
      ((conditionHolds env r job).bind fun holds =>
        if !holds then (markJobSkipped r jobId "condition_false").bind fun _ => .pure false
        else .pure true).run Op.exec w := by
    have hready : (areDependenciesCompleted r definition job).run Op.exec w = (w, .ok true) :=
      Prod.ext areDependenciesCompleted_reads hreached
    unfold tryAdvanceToNextJob
    simp only [hjob, Prog.bind_eq]
    rw [Prog.run_bind_ok Op.exec hready]
    rfl
  rw [hrun]
  rcases hc : (conditionHolds env r job).run Op.exec w with ⟨w', e | holds⟩
  · rw [hc] at hcondition
    obtain ⟨-, message, herror⟩ := hcondition
    rw [Prog.run_bind_error Op.exec hc, herror]
    simp
  · rw [hc] at hcondition
    obtain ⟨rfl, hvalue⟩ := hcondition
    rw [Prog.run_bind_ok Op.exec hc, hvalue]
    cases holds with
    | true => simp
    | false =>
        simp only [Bool.not_false, if_true, Except.ok.injEq, Bool.false_eq_true, iff_false]
        rw [Prog.run_bind]
        rcases (markJobSkipped r jobId "condition_false").run Op.exec w' with ⟨w'', e | u⟩ <;> simp

end Progression

/-- A job that depends on another one and is written with a condition. -/
def announceDefinition (condition ifCondition : Option String) : IWorkflowDefinition where
  workflow_id := "workflow"
  jobs := some
    [{ id := "build" },
     { id := "announce", depends_on := some ["build"], condition := condition,
       ifCondition := ifCondition }]

/-- The stores when the first job has been recorded, before the graph is progressed. -/
def World.beforeProgress (definition : IWorkflowDefinition) : World :=
  ((acceptCompletion (.ofDefinition definition) 0 "build" []).run Op.exec
    (World.ofLaunch definition)).1

end Nexus
