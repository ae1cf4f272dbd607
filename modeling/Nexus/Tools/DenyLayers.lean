import Nexus.Tools.ToolPolicy

/-!
# Denied tools across the layers

A tool that the job denies is never allowed. A tool that only the workflow denies comes back when
the permissions of the job allow it, by its name, by a name with a suffix, by the wildcard or by
default, because the job layer adds every candidate it allows to what the workflow layer has left
(`deny_wins_iff`). Companion expansion and the exception for `set_job_output` let no denied tool
through by themselves.
-/

set_option autoImplicit false

namespace Nexus

/-! ## Denied names -/

/-- The rule has the effect and names the tool. -/
def RuleNames (rule : Json) (effect tool : String) : Prop :=
  ∃ text, toolPolicyRuleParts rule = (some (.str effect), some (.str text)) ∧
    jsTrim text = tool ∧ tool ≠ ""

/-- The rules of the permissions. -/
def toolPolicyRules (permissions : Option Json) : List Json :=
  match (permissions.bind fun record => record.field? "tool_policy").bind
      fun record => record.field? "rules" with
  | some (.arr rules) => rules
  | _ => []

/-- A rule of the permissions denies exactly this name. -/
def DeniesName (permissions : Option Json) (name : String) : Prop :=
  ∃ rule ∈ toolPolicyRules permissions, ∃ effect ∈ toolPolicyDenyEffects,
    RuleNames rule effect name

/-- The permissions deny the tool, by its name or by the wildcard. -/
def Denies (permissions : Option Json) (tool : String) : Prop :=
  DeniesName permissions tool ∨ DeniesName permissions "*"

/-- The permissions allow the tool, by its name, by the name before a colon, by the wildcard or by
default. -/
def Allows (permissions : Option Json) (tool : String) : Prop :=
  "*" ∈ (normalizeToolPolicy permissions).allow ∨
    tool ∈ (normalizeToolPolicy permissions).allow ∨
    ∃ name ∈ (normalizeToolPolicy permissions).allow, baseName? name = some tool

section Normalization

variable {policy : NormalizedToolPolicy} {permissions : Option Json} {name tool : String}

/-- What a rule adds to the denied names. -/
theorem mem_deny_addRule {rule : Json} :
    name ∈ (addRule policy rule).deny ↔
      name ∈ policy.deny ∨ ∃ effect ∈ toolPolicyDenyEffects, RuleNames rule effect name := by
  rw [addRule]
  cases hparts : toolPolicyRuleParts rule with
  | mk effect tool =>
      show name ∈ (addToolPolicyRule policy effect tool).deny ↔ _
      unfold addToolPolicyRule
      split
      · rename_i effect text
        by_cases hempty : jsTrim text = ""
        · -- a rule for the empty name denies nothing
          rw [if_pos hempty]
          refine ⟨.inl, fun h => h.resolve_right ?_⟩
          rintro ⟨_, -, text', hrule, rfl, hne⟩
          rw [hparts] at hrule
          cases hrule
          exact hne hempty
        · rw [if_neg hempty]
          by_cases heffect : effect ∈ toolPolicyDenyEffects
          · simp only [if_pos heffect, mem_addName]
            apply or_congr_right
            constructor
            · rintro rfl
              exact ⟨effect, heffect, text, hparts, rfl, hempty⟩
            · rintro ⟨_, -, text', hrule, rfl, -⟩
              rw [hparts] at hrule
              cases hrule
              rfl
          · simp only [if_neg heffect]
            refine ⟨.inl, fun h => h.resolve_right ?_⟩
            rintro ⟨effect', heffect', text', hrule, -⟩
            rw [hparts] at hrule
            cases hrule
            exact heffect heffect'
      · rename_i hnotText
        refine ⟨.inl, fun h => h.resolve_right ?_⟩
        rintro ⟨effect', -, text', hrule, -⟩
        rw [hparts] at hrule
        cases hrule
        exact hnotText _ _ rfl rfl

theorem mem_deny_foldl_addRule (rules : List Json) :
    name ∈ (rules.foldl addRule policy).deny ↔
      name ∈ policy.deny ∨
        ∃ rule ∈ rules, ∃ effect ∈ toolPolicyDenyEffects, RuleNames rule effect name := by
  induction rules generalizing policy with
  | nil => simp
  | cons rule rules ih =>
      rw [List.foldl_cons, ih, mem_deny_addRule, List.exists_mem_cons_iff, or_assoc]

theorem addDefault_deny {toolPolicy : Option Json} :
    (addDefault policy toolPolicy).deny = policy.deny := by
  unfold addDefault
  split <;> rfl

/-- The denied names are those that a rule denies. -/
theorem mem_deny_iff :
    name ∈ (normalizeToolPolicy permissions).deny ↔ DeniesName permissions name := by
  unfold normalizeToolPolicy addStructuredToolPolicyRules DeniesName toolPolicyRules
  rcases (permissions.bind fun record => record.field? "tool_policy").bind
    fun record => record.field? "rules" with _ | x
  · simp [addDefault_deny]
  · cases x with
    | arr rules => simp [mem_deny_foldl_addRule, addDefault_deny]
    | _ => simp [addDefault_deny]

theorem denyOf_eq : denyOf permissions = (normalizeToolPolicy permissions).deny := by
  cases permissions <;> rfl

theorem denies_iff :
    Denies permissions tool ↔ tool ∈ (normalizeToolPolicy permissions).deny ∨
      "*" ∈ (normalizeToolPolicy permissions).deny := by
  rw [Denies, mem_deny_iff, mem_deny_iff]

theorem isToolExplicitlyDenied_iff :
    isToolExplicitlyDenied permissions = true ↔ Denies permissions "set_job_output" := by
  rw [denies_iff]
  simp [isToolExplicitlyDenied]

end Normalization

/-! ## One layer -/

section Layer

variable {base candidates allow : List String} {policy : Option Json} {tool : String}

theorem mem_foldl_addName (names : List String) :
    tool ∈ names.foldl addName base ↔ tool ∈ base ∨ tool ∈ names := by
  induction names generalizing base with
  | nil => simp
  | cons name names ih => rw [List.foldl_cons, ih, mem_addName, List.mem_cons, or_assoc]

/-- What one allowed name adds: itself, and the name before its colon. -/
theorem mem_addAllowed {resolved : List String} {name : String} :
    tool ∈ addAllowed base candidates resolved name ↔
      tool ∈ resolved ∨ (tool = name ∧ tool ∈ candidates) ∨
        (baseName? name = some tool ∧ (tool ∈ base ∨ tool ∈ candidates)) := by
  have hself : tool ∈ (if name ∈ candidates then addName resolved name else resolved) ↔
      tool ∈ resolved ∨ (tool = name ∧ tool ∈ candidates) := by
    by_cases hname : name ∈ candidates
    · rw [if_pos hname, mem_addName]
      apply or_congr_right
      constructor
      · rintro rfl
        exact ⟨rfl, hname⟩
      · exact fun h => h.1
    · rw [if_neg hname]
      refine ⟨.inl, fun h => h.resolve_right ?_⟩
      rintro ⟨rfl, hcandidate⟩
      exact hname hcandidate
  rw [← or_assoc, ← hself, addAllowed]
  cases hbase : baseName? name with
  | none => simp
  | some baseName =>
      by_cases hoffered : baseName ∈ base ∨ baseName ∈ candidates
      · simp only [if_pos hoffered, mem_addName, Option.some.injEq]
        apply or_congr_right
        constructor
        · rintro rfl
          exact ⟨rfl, hoffered⟩
        · exact fun h => h.1.symm
      · simp only [if_neg hoffered, Option.some.injEq]
        refine ⟨.inl, fun h => h.resolve_right ?_⟩
        rintro ⟨rfl, hmem⟩
        exact hoffered hmem

theorem mem_foldl_addAllowed (names : List String) {resolved : List String} :
    tool ∈ names.foldl (addAllowed base candidates) resolved ↔
      tool ∈ resolved ∨ (tool ∈ names ∧ tool ∈ candidates) ∨
        ((∃ name ∈ names, baseName? name = some tool) ∧ (tool ∈ base ∨ tool ∈ candidates)) := by
  induction names generalizing resolved with
  | nil => simp
  | cons name names ih =>
      rw [List.foldl_cons, ih, mem_addAllowed, List.mem_cons, List.exists_mem_cons_iff]
      tauto

/-- **One layer.** What is left is not denied; it was there and nothing is allowed, or it is
allowed and was there or is a candidate. -/
theorem mem_applyPolicyToToolNames :
    tool ∈ applyPolicyToToolNames base candidates policy ↔
      ¬ Denies policy tool ∧
        (((normalizeToolPolicy policy).allow = [] ∧ tool ∈ base) ∨
          (Allows policy tool ∧ (tool ∈ base ∨ tool ∈ candidates))) := by
  rw [denies_iff]
  unfold applyPolicyToToolNames Allows
  cases hpolicy : normalizeToolPolicy policy with
  | mk allow deny =>
      simp only
      by_cases hstar : "*" ∈ deny
      · simp [hstar]
      · rw [if_neg hstar, List.mem_filter, decide_eq_true_eq]
        simp only [hstar, or_false]
        rw [and_comm]
        apply and_congr_right
        intro _
        by_cases hnone : allow = []
        · simp [hnone]
        · rw [if_neg hnone]
          by_cases hall : "*" ∈ allow
          · simp [hall, hnone, mem_foldl_addName]
          · rw [if_neg hall, resolveAllowedFromPolicy, mem_foldl_addAllowed, List.mem_filter,
              decide_eq_true_eq]
            simp only [hnone, hall, false_and, false_or]
            tauto

end Layer

/-! ## The layers of a step -/

section Step

variable {params : StepToolParams} {tool : String}

theorem spawn_ne_setJobOutput : "spawn_subagent_async" ≠ "set_job_output" := by decide

theorem spawn_ne_wait : "spawn_subagent_async" ≠ "wait_for_subagents" := by decide

/-- The profile allows candidates only. -/
theorem mem_allCandidateNames_of_allowedByProfile (h : tool ∈ params.allowedByProfile) :
    tool ∈ params.allCandidateNames := by
  have htools : ∀ x, x ∈ params.resolveAllowedByProfile → x ∈ params.tools := by
    intro x hx
    unfold StepToolParams.resolveAllowedByProfile at hx
    split at hx
    · simpa [mem_foldl_addName] using hx
    · have hx' := by simpa [mem_foldl_addName] using hx
      exact hx'.1
  have hcandidate : ∀ x, x ∈ params.tools → x ∈ params.allCandidateNames := by
    intro x hx
    unfold StepToolParams.allCandidateNames
    split
    · simp [mem_foldl_addName, hx]
    · simp [mem_foldl_addName, hx]
  unfold StepToolParams.allowedByProfile at h
  split at h
  · rename_i hoffered
    rcases mem_addName.1 h with h | rfl
    · exact hcandidate tool (htools tool h)
    · exact hoffered
  · exact hcandidate tool (htools tool h)

/-- What the workflow layer leaves is neither denied by the workflow nor new. -/
theorem mem_workflowScoped (hstrategy : params.policyStrategy ≠ some .profileOnly)
    (h : tool ∈ params.workflowScoped) :
    ¬ Denies params.workflowPermissions tool ∧ tool ∈ params.allCandidateNames := by
  rw [StepToolParams.workflowScoped, if_neg hstrategy, mem_applyPolicyToToolNames] at h
  obtain ⟨hdenies, ⟨-, hprofile⟩ | ⟨-, hprofile | hcandidate⟩⟩ := h
  · exact ⟨hdenies, mem_allCandidateNames_of_allowedByProfile hprofile⟩
  · exact ⟨hdenies, mem_allCandidateNames_of_allowedByProfile hprofile⟩
  · exact ⟨hdenies, hcandidate⟩

/-- The job layer adds the tool to what the workflow layer has left. -/
def AddedByJob (params : StepToolParams) (tool : String) : Prop :=
  tool ∈ params.allCandidateNames ∧ ¬ Denies params.job.permissions tool ∧
    Allows params.job.permissions tool

/-- The job layer adds the tools it allows. -/
theorem mem_jobScoped_of_addedByJob (h : AddedByJob params tool) : tool ∈ params.jobScoped :=
  mem_applyPolicyToToolNames.2 ⟨h.2.1, .inr ⟨h.2.2, .inr h.1⟩⟩

/-- What the job layer leaves has been left by the workflow layer or is added. -/
theorem mem_jobScoped (hstrategy : params.policyStrategy ≠ some .profileOnly)
    (h : tool ∈ params.jobScoped) :
    AddedByJob params tool ∨ ((normalizeToolPolicy params.job.permissions).allow = [] ∧
      ¬ Denies params.workflowPermissions tool ∧ ¬ Denies params.job.permissions tool) := by
  obtain ⟨hdenies, ⟨hnone, hleft⟩ | ⟨hallows, hleft | hcandidate⟩⟩ :=
    mem_applyPolicyToToolNames.1 h
  · exact .inr ⟨hnone, (mem_workflowScoped hstrategy hleft).1, hdenies⟩
  · exact .inl ⟨(mem_workflowScoped hstrategy hleft).2, hdenies, hallows⟩
  · exact .inl ⟨hcandidate, hdenies, hallows⟩

/-- What the exception for `set_job_output` and the companions add to the job layer. -/
theorem mem_expandedScope :
    tool ∈ params.expandedScope ↔ tool ∈ params.jobScoped ∨
      (tool = "set_job_output" ∧ params.shouldPreserveSetJobOutput = true) ∨
      (tool = "wait_for_subagents" ∧ "spawn_subagent_async" ∈ params.jobScoped ∧
        tool ∈ params.allCandidateNames ∧ ¬ DeniesName params.job.permissions tool ∧
        ¬ DeniesName params.workflowPermissions tool) := by
  have hpreserved : ∀ x, x ∈ (if params.shouldPreserveSetJobOutput then
        addName params.jobScoped "set_job_output" else params.jobScoped) ↔
      x ∈ params.jobScoped ∨
        (x = "set_job_output" ∧ params.shouldPreserveSetJobOutput = true) := by
    intro x
    by_cases hpreserve : params.shouldPreserveSetJobOutput = true
    · simp [hpreserve]
    · simp [hpreserve]
  rw [← or_assoc, ← hpreserved tool, ← mem_deny_iff, ← mem_deny_iff]
  have hspawn := hpreserved "spawn_subagent_async"
  simp only [spawn_ne_setJobOutput, false_and, or_false] at hspawn
  rw [← hspawn]
  unfold StepToolParams.expandedScope expandCompanionsInJobScoped defaultCompanionRules
  rw [List.foldl_cons, List.foldl_nil, denyOf_eq, denyOf_eq]
  unfold addCompanion
  by_cases hcompanion : "spawn_subagent_async" ∈ (if params.shouldPreserveSetJobOutput then
        addName params.jobScoped "set_job_output" else params.jobScoped) ∧
      "wait_for_subagents" ∈ params.allCandidateNames ∧
      "wait_for_subagents" ∉ (normalizeToolPolicy params.job.permissions).deny ∧
      "wait_for_subagents" ∉ (normalizeToolPolicy params.workflowPermissions).deny
  · rw [if_pos hcompanion, mem_addName]
    apply or_congr_right
    constructor
    · rintro rfl
      exact ⟨rfl, hcompanion⟩
    · exact fun h => h.1
  · rw [if_neg hcompanion]
    refine ⟨.inl, fun h => h.resolve_right ?_⟩
    rintro ⟨rfl, hmem⟩
    exact hcompanion hmem

/-- The last intersection with the profile: the companion follows its primary tool. -/
theorem mem_resolveAllowedToolNamesForExecution {requested allowed : List String} :
    tool ∈ resolveAllowedToolNamesForExecution requested allowed defaultCompanionRules ↔
      tool ∈ requested ∧
        if tool = "wait_for_subagents" then
          "spawn_subagent_async" ∈ requested ∧ "spawn_subagent_async" ∈ allowed
        else tool ∈ allowed := by
  unfold resolveAllowedToolNamesForExecution defaultCompanionRules
  rw [List.foldl_cons, List.foldl_nil, applyCompanionRule]
  by_cases hspawn : "spawn_subagent_async" ∈ requested.filter fun tool => tool ∈ allowed
  · have hspawn' : "spawn_subagent_async" ∈ requested ∧ "spawn_subagent_async" ∈ allowed := by
      simpa using hspawn
    rw [if_pos hspawn]
    by_cases hwait : tool = "wait_for_subagents"
    · subst hwait
      by_cases hrequested : "wait_for_subagents" ∈ requested
      · simp [hrequested, hspawn']
      · simp [hrequested]
    · by_cases hrequested : "wait_for_subagents" ∈ requested
      · simp [hrequested, hwait]
      · simp [hrequested, hwait]
  · have hspawn' : ¬ ("spawn_subagent_async" ∈ requested ∧ "spawn_subagent_async" ∈ allowed) := by
      simpa using hspawn
    rw [if_neg hspawn]
    by_cases hwait : tool = "wait_for_subagents"
    · simp [hwait, hspawn']
    · simp [hwait]

theorem not_preserved (h : Denies params.workflowPermissions "set_job_output" ∨
      Denies params.job.permissions "set_job_output")
    (hstrategy : params.policyStrategy ≠ some .profileOnly) :
    params.shouldPreserveSetJobOutput = false := by
  rw [← isToolExplicitlyDenied_iff, ← isToolExplicitlyDenied_iff] at h
  unfold StepToolParams.shouldPreserveSetJobOutput
  rcases h with h | h
  · simp [h, hstrategy]
  · simp [h]

/-- **The job layer.** A tool that the job denies is not allowed before the profile is looked at. -/
theorem not_mem_expandedScope_of_job (hstrategy : params.policyStrategy ≠ some .profileOnly)
    (hdenies : Denies params.job.permissions tool) : tool ∉ params.expandedScope := by
  rw [mem_expandedScope]
  rintro (hjob | ⟨rfl, hpreserve⟩ | ⟨-, hspawn, -, hname, -⟩)
  · exact (mem_applyPolicyToToolNames.1 hjob).1 hdenies
  · rw [not_preserved (.inr hdenies) hstrategy] at hpreserve
    exact absurd hpreserve (by simp)
  · -- the companion is denied by the wildcard, so its primary tool is denied too
    exact (mem_applyPolicyToToolNames.1 hspawn).1 (.inr (hdenies.resolve_left hname))

/-- **The workflow layer.** A tool that the workflow denies is there because the job adds it, or as
the companion of a denied tool that the job adds. -/
theorem added_of_mem_expandedScope (hstrategy : params.policyStrategy ≠ some .profileOnly)
    (hdenies : Denies params.workflowPermissions tool) (h : tool ∈ params.expandedScope) :
    AddedByJob params tool ∨ (tool = "wait_for_subagents" ∧
      Denies params.workflowPermissions "spawn_subagent_async" ∧
      AddedByJob params "spawn_subagent_async") := by
  rcases mem_expandedScope.1 h with hjob | ⟨rfl, hpreserve⟩ | ⟨hwait, hspawn, -, -, hname⟩
  · rcases mem_jobScoped hstrategy hjob with hadded | ⟨-, hnot, -⟩
    · exact .inl hadded
    · exact absurd hdenies hnot
  · rw [not_preserved (.inl hdenies) hstrategy] at hpreserve
    exact absurd hpreserve (by simp)
  · have hstar : Denies params.workflowPermissions "spawn_subagent_async" :=
      .inr (hdenies.resolve_left hname)
    rcases mem_jobScoped hstrategy hspawn with hadded | ⟨-, hnot, -⟩
    · exact .inr ⟨hwait, hstar, hadded⟩
    · exact absurd hstar hnot

/-- The profile, if there is one, lets the tool through; the companion follows its primary tool. -/
def PassesProfile (params : StepToolParams) (tool : String) : Prop :=
  params.profile? = none ∨
    if tool = "wait_for_subagents" then
      AddedByJob params "spawn_subagent_async" ∧ "spawn_subagent_async" ∈ params.allowedByProfile
    else tool ∈ params.allowedByProfile

/-- The job allows a tool that the workflow denies, and the profile does not hold it back. -/
def Overrides (params : StepToolParams) (tool : String) : Prop :=
  Denies params.workflowPermissions tool ∧ AddedByJob params tool ∧ PassesProfile params tool

theorem mem_resolve_of_overrides (h : Overrides params tool) :
    tool ∈ resolveAllowedToolNamesForStep params := by
  obtain ⟨-, hadded, hprofile⟩ := h
  have hscope : ∀ x, AddedByJob params x → x ∈ params.expandedScope := fun x hx =>
    mem_expandedScope.2 (.inl (mem_jobScoped_of_addedByJob hx))
  unfold resolveAllowedToolNamesForStep
  cases hprofile? : params.profile? with
  | none => exact hscope tool hadded
  | some agentProfile =>
      have hpasses := hprofile.resolve_left (by simp [hprofile?])
      refine mem_resolveAllowedToolNamesForExecution.2 ⟨hscope tool hadded, ?_⟩
      by_cases hwait : tool = "wait_for_subagents"
      · rw [if_pos hwait] at hpasses ⊢
        exact ⟨hscope _ hpasses.1, hpasses.2⟩
      · rw [if_neg hwait] at hpasses ⊢
        exact hpasses

theorem mem_expandedScope_of_resolve (h : tool ∈ resolveAllowedToolNamesForStep params) :
    tool ∈ params.expandedScope := by
  unfold resolveAllowedToolNamesForStep at h
  cases hprofile : params.profile? with
  | none =>
      rw [hprofile] at h
      exact h
  | some agentProfile =>
      rw [hprofile] at h
      exact (mem_resolveAllowedToolNamesForExecution.1 h).1

theorem not_allows_of_nil {permissions : Option Json}
    (h : (normalizeToolPolicy permissions).allow = []) : ¬ Allows permissions tool := by
  simp [Allows, h]

theorem spawn_mem_jobScoped (h : "spawn_subagent_async" ∈ params.expandedScope) :
    "spawn_subagent_async" ∈ params.jobScoped := by
  rcases mem_expandedScope.1 h with h | ⟨h, -⟩ | ⟨h, -⟩
  · exact h
  · exact absurd h spawn_ne_setJobOutput
  · exact absurd h spawn_ne_wait

/-- A tool that is allowed although the workflow denies it gives a tool that the job overrides. -/
theorem overrides_of_mem_resolve (hstrategy : params.policyStrategy ≠ some .profileOnly)
    (hdenies : Denies params.workflowPermissions tool)
    (h : tool ∈ resolveAllowedToolNamesForStep params) : ∃ x, Overrides params x := by
  have hscope := mem_expandedScope_of_resolve h
  have hadded := added_of_mem_expandedScope hstrategy hdenies hscope
  unfold resolveAllowedToolNamesForStep at h
  cases hprofile : params.profile? with
  | none =>
      rcases hadded with hadded | ⟨-, hstar, hspawn⟩
      · exact ⟨tool, hdenies, hadded, .inl hprofile⟩
      · exact ⟨_, hstar, hspawn, .inl hprofile⟩
  | some agentProfile =>
      rw [hprofile] at h
      have hpasses := (mem_resolveAllowedToolNamesForExecution.1 h).2
      by_cases hwait : tool = "wait_for_subagents"
      · rw [if_pos hwait] at hpasses
        rcases hadded with hadded | ⟨-, hstar, hspawn⟩
        · -- the primary tool is left by the job layer, which allows something
          have hspawn : AddedByJob params "spawn_subagent_async" := by
            rcases mem_jobScoped hstrategy (spawn_mem_jobScoped hpasses.1) with h | ⟨hnone, -⟩
            · exact h
            · exact absurd hadded.2.2 (not_allows_of_nil hnone)
          refine ⟨tool, hdenies, hadded, .inr ?_⟩
          rw [if_pos hwait]
          exact ⟨hspawn, hpasses.2⟩
        · refine ⟨_, hstar, hspawn, .inr ?_⟩
          rw [if_neg spawn_ne_wait]
          exact hpasses.2
      · rw [if_neg hwait] at hpasses
        rcases hadded with hadded | ⟨hwait', -⟩
        · refine ⟨tool, hdenies, hadded, .inr ?_⟩
          rw [if_neg hwait]
          exact hpasses
        · exact absurd hwait' hwait

/-- **Deny wins across the layers exactly when** no tool that the workflow denies is allowed by the
permissions of the job and let through by the profile. -/
theorem deny_wins_iff (hstrategy : params.policyStrategy ≠ some .profileOnly) :
    (∀ tool, Denies params.workflowPermissions tool ∨ Denies params.job.permissions tool →
      tool ∉ resolveAllowedToolNamesForStep params) ↔ ∀ tool, ¬ Overrides params tool := by
  constructor
  · intro hwins tool hoverrides
    exact hwins tool (.inl hoverrides.1) (mem_resolve_of_overrides hoverrides)
  · rintro hnone tool (hworkflow | hjob) hmem
    · obtain ⟨x, hx⟩ := overrides_of_mem_resolve hstrategy hworkflow hmem
      exact hnone x hx
    · exact not_mem_expandedScope_of_job hstrategy hjob (mem_expandedScope_of_resolve hmem)

end Step

/-! ## A workflow that denies a tool -/

/-- Permissions with a default and rules. -/
def toolPermissions (default : String) (rules : List String) : Option Json :=
  some (.obj [("tool_policy", .obj [("default", .str default), ("rules", .arr (rules.map .str))])])

/-- A workflow that denies `bash`, and a job. -/
def denyingParams (jobPermissions : Option Json) : StepToolParams where
  tools := ["read", "bash"]
  job := { permissions := jobPermissions }
  workflowPermissions := toolPermissions "allow" ["deny bash"]
  canProfileUseTool _ _ := true

/-- A job that allows another tool: what the workflow denies is denied. -/
theorem deny_wins_read : "bash" ∉
    resolveAllowedToolNamesForStep (denyingParams (toolPermissions "deny" ["allow read"])) := by
  have hnone : ∀ tool,
      ¬ Overrides (denyingParams (toolPermissions "deny" ["allow read"])) tool := by
    rintro tool ⟨hdenies, ⟨hcandidate, -, hallows⟩, -⟩
    have hcandidates : (denyingParams (toolPermissions "deny" ["allow read"])).allCandidateNames =
        ["read", "bash"] := by decide +kernel
    rw [hcandidates] at hcandidate
    rw [denies_iff] at hdenies
    rcases List.mem_pair.1 hcandidate with rfl | rfl
    · exact absurd hdenies (by decide +kernel)
    · unfold Allows at hallows
      exact absurd hallows (by decide +kernel)
  have hdenies : Denies (toolPermissions "allow" ["deny bash"]) "bash" := by
    rw [denies_iff]
    decide +kernel
  exact (deny_wins_iff (by decide)).2 hnone "bash" (.inl hdenies)

/-- The job allows by default what the workflow denies. -/
theorem workflow_deny_overridden :
    ∃ params : StepToolParams, params.policyStrategy ≠ some .profileOnly ∧
      Denies params.workflowPermissions "bash" ∧ "bash" ∈ resolveAllowedToolNamesForStep params := by
  refine ⟨denyingParams (toolPermissions "allow" []), by decide, ?_, by decide +kernel⟩
  rw [denies_iff]
  decide +kernel

end Nexus
