import Nexus.Lib.Uuid
import Mathlib.Data.List.Basic

/-!
# Conflict keys of mutations

A mutation of the kanban board holds a lease for each of its conflict keys. Two modules build them:
`WorkItemRunLeaseService` for the launch of a run on one work item, and
`structuredDecisionToIntentInput` for a decision of the orchestrator. The keys of a launch and of a
decision on the same work item never meet (`run_launch_shares_no_key`), and two decisions that have
neither an item nor a branch in common meet exactly when the texts of their workflow scopes do.
-/

set_option autoImplicit false

namespace Nexus

/-- `ORCHESTRATION_LANES`. -/
inductive OrchestrationLane where
  | discovery
  | specification
  | workItemGeneration
  | dispatch
  | implementation
  | review
  | merge
  | repair
  | upstreamAnalysis
  | strategy
  | workItemTransition
  | projectHealth
  deriving DecidableEq, Repr, Inhabited

inductive OrchestrationConflictKeyKind where
  | workItem
  | targetBranch
  | filePath
  | modulePath
  | workflowScope
  | workflowRun
  deriving DecidableEq, Repr, Inhabited

structure OrchestrationConflictKey where
  kind : OrchestrationConflictKeyKind
  value : String
  deriving DecidableEq, Repr, Inhabited

/-! ## Launches of runs -/

/-- The actions of a launch. -/
inductive WorkItemRunAction where
  | dispatch
  | review
  | merge
  | lifecycleLink
  | dispatchSelected
  deriving DecidableEq, Repr

def WorkItemRunAction.text : WorkItemRunAction → String
  | .dispatch => "dispatch"
  | .review => "review"
  | .merge => "merge"
  | .lifecycleLink => "lifecycle_link"
  | .dispatchSelected => "dispatch_selected"

namespace WorkItemRunLeaseService

def ownerIdPrefix : String := "kanban:work-item-run"

def conflictKeyPrefix : String := "work_item_dispatch:"

/-- The owner id of every launch with the action on the work item. -/
def deriveOwnerId (projectId workItemId : String) (action : WorkItemRunAction) : String :=
  ownerIdPrefix ++ ":" ++ projectId ++ ":" ++ workItemId ++ ":" ++ action.text

def buildConflictKey (projectId workItemId : String) : OrchestrationConflictKey :=
  ⟨.workItem, conflictKeyPrefix ++ projectId ++ ":" ++ workItemId⟩

end WorkItemRunLeaseService

/-! ## Decisions -/

inductive StructuredDecisionAction where
  | requestWakeup
  | dispatchWorkItems
  | transitionWorkItemStatus
  | recordOnly
  deriving DecidableEq, Repr

inductive OrchestrationIntentType where
  | discoverUnknowns
  | reanalyzeUpstreamChange
  | refineSpec
  | generateWorkItems
  | dispatchCandidates
  | implementWorkItem
  | reviewWorkItem
  | mergeWorkItem
  | repairFailedRun
  | reconcileStaleLinks
  | validateProjectHealth
  deriving DecidableEq, Repr

/-- `z.uuid()`: the versions 1 to 8 of the common variant, and the two uuids of equal digits. -/
def isZodUuid (text : String) : Bool :=
  matchesPattern
    (uuidPatternOf isHexDigit (fun c => '1' ≤ c && c ≤ '8')
      fun c => c ∈ ['8', '9', 'a', 'b', 'A', 'B'])
    text.toList ||
  text = "00000000-0000-0000-0000-000000000000" ||
  text = "ffffffff-ffff-ffff-ffff-ffffffffffff"

/-- A decision that `structuredDecisionSchema` accepts; a schema without a limit on a text takes
every text. -/
structure StructuredOrchestrationDecision where
  action : StructuredDecisionAction
  lane : OrchestrationLane
  intent_type : OrchestrationIntentType
  reason : String
  work_item_ids : List String := []
  target_status : Option String := none
  target_branch : Option String := none
  workflow_id : Option String := none
  workflow_scope : Option String := none
  reason_nonempty : reason ≠ "" := by decide
  uuids : ∀ id ∈ work_item_ids, isZodUuid id = true := by decide

/-- A text that JavaScript takes for true. -/
def truthyText (s : Option String) : Option String := s.filter fun text => text ≠ ""

namespace StructuredOrchestrationDecision

variable (decision : StructuredOrchestrationDecision)

/-- The workflow and the scope of a decision that names a workflow. -/
def scopes : List (String × String) :=
  (truthyText decision.workflow_id).toList.map fun id =>
    (id, decision.workflow_scope.getD "global")

def branches : List String := (truthyText decision.target_branch).toList

end StructuredOrchestrationDecision

/-- The text of a scope in its key. -/
def workflowScopeValue (scope : String × String) : String := scope.1 ++ ":" ++ scope.2

def buildDecisionConflictKeys (decision : StructuredOrchestrationDecision) :
    List OrchestrationConflictKey :=
  decision.work_item_ids.map (fun value => ⟨.workItem, value⟩) ++
    decision.branches.map (fun value => ⟨.targetBranch, value⟩) ++
    decision.scopes.map fun scope => ⟨.workflowScope, workflowScopeValue scope⟩

/-! ## Requests -/

/-- A request that takes leases for its conflict keys. -/
inductive MutationRequest where
  | runLaunch (workItemId : String) (action : WorkItemRunAction)
  | decision (d : StructuredOrchestrationDecision)

namespace MutationRequest

def conflictKeys (projectId : String) : MutationRequest → List OrchestrationConflictKey
  | .runLaunch workItemId _ => [WorkItemRunLeaseService.buildConflictKey projectId workItemId]
  | .decision d => buildDecisionConflictKeys d

/-- The work items a request is about. -/
def workItems : MutationRequest → List String
  | .runLaunch workItemId _ => [workItemId]
  | .decision d => d.work_item_ids

def branches : MutationRequest → List String
  | .runLaunch _ _ => []
  | .decision d => d.branches

def scopes : MutationRequest → List (String × String)
  | .runLaunch _ _ => []
  | .decision d => d.scopes

/-- Some key belongs to both requests, so that the lease table cannot grant both at once. -/
def ShareKey (projectId : String) (r r' : MutationRequest) : Prop :=
  ∃ key ∈ r.conflictKeys projectId, key ∈ r'.conflictKeys projectId

end MutationRequest

open MutationRequest

/-! ## Which keys meet -/

theorem colon_not_mem_of_isZodUuid {text : String} (h : isZodUuid text = true) :
    ':' ∉ text.toList := by
  simp only [isZodUuid, Bool.or_eq_true, decide_eq_true_eq] at h
  rcases h with (hpattern | rfl) | rfl
  · exact not_mem_of_uuid (by decide) (by decide) (by decide) (by decide) hpattern
  · decide
  · decide

theorem colon_mem_buildConflictKey (projectId workItemId : String) :
    ':' ∈ (WorkItemRunLeaseService.buildConflictKey projectId workItemId).value.toList := by
  simp [WorkItemRunLeaseService.buildConflictKey]

theorem buildConflictKey_inj {projectId i i' : String}
    (h : WorkItemRunLeaseService.buildConflictKey projectId i =
      WorkItemRunLeaseService.buildConflictKey projectId i') : i = i' := by
  have hvalue := congrArg (fun key => key.value.toList) h
  simp only [WorkItemRunLeaseService.buildConflictKey, String.toList_append] at hvalue
  exact String.toList_inj.1 (List.append_cancel_left hvalue)

theorem mem_buildDecisionConflictKeys {decision : StructuredOrchestrationDecision}
    {key : OrchestrationConflictKey} :
    key ∈ buildDecisionConflictKeys decision ↔
      (key.kind = .workItem ∧ key.value ∈ decision.work_item_ids) ∨
      (key.kind = .targetBranch ∧ key.value ∈ decision.branches) ∨
      (key.kind = .workflowScope ∧ ∃ scope ∈ decision.scopes, key.value = workflowScopeValue scope)
      := by
  obtain ⟨kind, value⟩ := key
  simp only [buildDecisionConflictKeys, List.mem_append, List.mem_map,
    OrchestrationConflictKey.mk.injEq, or_assoc]
  constructor
  · rintro (⟨id, hid, rfl, rfl⟩ | ⟨branch, hbranch, rfl, rfl⟩ | ⟨scope, hscope, rfl, rfl⟩)
    · exact Or.inl ⟨rfl, hid⟩
    · exact Or.inr (Or.inl ⟨rfl, hbranch⟩)
    · exact Or.inr (Or.inr ⟨rfl, scope, hscope, rfl⟩)
  · rintro (⟨rfl, hid⟩ | ⟨rfl, hbranch⟩ | ⟨rfl, scope, hscope, rfl⟩)
    · exact Or.inl ⟨value, hid, rfl, rfl⟩
    · exact Or.inr (Or.inl ⟨value, hbranch, rfl, rfl⟩)
    · exact Or.inr (Or.inr ⟨scope, hscope, rfl, rfl⟩)

/-- The composed key of a launch is the key of no work item of a decision. -/
theorem not_shareKey_launch_decision (projectId item : String) (action : WorkItemRunAction)
    (decision : StructuredOrchestrationDecision) :
    ¬ ShareKey projectId (.runLaunch item action) (.decision decision) := by
  rintro ⟨key, hlaunch, hdecision⟩
  obtain rfl := List.mem_singleton.1 hlaunch
  rcases mem_buildDecisionConflictKeys.1 hdecision with ⟨-, hid⟩ | ⟨hkind, -⟩ | ⟨hkind, -⟩
  · exact colon_not_mem_of_isZodUuid (decision.uuids _ hid)
      (colon_mem_buildConflictKey projectId item)
  · exact absurd hkind (by simp [WorkItemRunLeaseService.buildConflictKey])
  · exact absurd hkind (by simp [WorkItemRunLeaseService.buildConflictKey])

theorem MutationRequest.ShareKey.symm {projectId : String} {r r' : MutationRequest}
    (h : ShareKey projectId r r') : ShareKey projectId r' r := by
  obtain ⟨key, hkey, hkey'⟩ := h
  exact ⟨key, hkey', hkey⟩

/-- Two decisions share a key when they share an item, a branch or the text of a scope. -/
theorem shareKey_decisions_iff {projectId : String} {d d' : StructuredOrchestrationDecision} :
    ShareKey projectId (.decision d) (.decision d') ↔
      (∃ id ∈ d.work_item_ids, id ∈ d'.work_item_ids) ∨
      (∃ branch ∈ d.branches, branch ∈ d'.branches) ∨
      ∃ scope ∈ d.scopes, ∃ scope' ∈ d'.scopes,
        workflowScopeValue scope = workflowScopeValue scope' := by
  constructor
  · rintro ⟨⟨kind, value⟩, hkey, hkey'⟩
    rcases mem_buildDecisionConflictKeys.1 hkey with ⟨hkind, h⟩ | ⟨hkind, h⟩ | ⟨hkind, s, hs, h⟩ <;>
      rcases mem_buildDecisionConflictKeys.1 hkey' with
        ⟨hkind', h'⟩ | ⟨hkind', h'⟩ | ⟨hkind', s', hs', h'⟩ <;>
      first
        | exact Or.inl ⟨value, h, h'⟩
        | exact Or.inr (Or.inl ⟨value, h, h'⟩)
        | exact Or.inr (Or.inr ⟨s, hs, s', hs', h.symm.trans h'⟩)
        | exact absurd (hkind.symm.trans hkind') (by decide)
  · rintro (⟨id, hid, hid'⟩ | ⟨branch, hbranch, hbranch'⟩ | ⟨scope, hscope, scope', hscope', heq⟩)
    · exact ⟨⟨.workItem, id⟩, mem_buildDecisionConflictKeys.2 (Or.inl ⟨rfl, hid⟩),
        mem_buildDecisionConflictKeys.2 (Or.inl ⟨rfl, hid'⟩)⟩
    · exact ⟨⟨.targetBranch, branch⟩, mem_buildDecisionConflictKeys.2 (Or.inr (Or.inl ⟨rfl, hbranch⟩)),
        mem_buildDecisionConflictKeys.2 (Or.inr (Or.inl ⟨rfl, hbranch'⟩))⟩
    · exact ⟨⟨.workflowScope, workflowScopeValue scope⟩,
        mem_buildDecisionConflictKeys.2 (Or.inr (Or.inr ⟨rfl, scope, hscope, rfl⟩)),
        mem_buildDecisionConflictKeys.2 (Or.inr (Or.inr ⟨rfl, scope', hscope', heq⟩))⟩

/-- **Launches and decisions.** No launch on a work item shares a key with a decision that includes
the item. Two requests without a common work item share none exactly when they have no branch and
no text of a scope in common. -/
theorem run_launch_shares_no_key (projectId : String) :
    (∀ (item : String) (action : WorkItemRunAction) (d : StructuredOrchestrationDecision),
      item ∈ d.work_item_ids →
        ¬ ShareKey projectId (.runLaunch item action) (.decision d)) ∧
    ∀ r r' : MutationRequest, (∀ item ∈ r.workItems, item ∉ r'.workItems) →
      (¬ ShareKey projectId r r' ↔
        (∀ branch ∈ r.branches, branch ∉ r'.branches) ∧
        ∀ scope ∈ r.scopes, ∀ scope' ∈ r'.scopes,
          workflowScopeValue scope ≠ workflowScopeValue scope') := by
  refine ⟨fun item action d _ => not_shareKey_launch_decision projectId item action d, ?_⟩
  intro r r' hitems
  cases r with
  | runLaunch item action =>
      have hnone : ¬ ShareKey projectId (.runLaunch item action) r' := by
        cases r' with
        | runLaunch item' action' =>
            rintro ⟨key, hkey, hkey'⟩
            obtain rfl := List.mem_singleton.1 hkey
            have hsame := buildConflictKey_inj (List.mem_singleton.1 hkey')
            exact hitems item List.mem_cons_self (hsame ▸ List.mem_cons_self)
        | decision d => exact not_shareKey_launch_decision projectId item action d
      exact iff_of_true hnone ⟨(fun _ h => nomatch h), (fun _ h => nomatch h)⟩
  | decision d =>
      cases r' with
      | runLaunch item action =>
          have hnone : ¬ ShareKey projectId (.decision d) (.runLaunch item action) := fun h =>
            not_shareKey_launch_decision projectId item action d h.symm
          exact iff_of_true hnone ⟨(fun _ _ h => nomatch h), (fun _ _ _ h => nomatch h)⟩
      | decision d' =>
          have hdisjoint : ¬ ∃ id ∈ d.work_item_ids, id ∈ d'.work_item_ids := by
            rintro ⟨id, hid, hid'⟩
            exact hitems id hid hid'
          rw [shareKey_decisions_iff, or_iff_right hdisjoint, not_or]
          simp only [not_exists, not_and, branches, scopes]

/-- A transition of one item. -/
def transitionDecision : StructuredOrchestrationDecision where
  action := .transitionWorkItemStatus
  lane := .workItemTransition
  intent_type := .implementWorkItem
  reason := "transition"
  work_item_ids := ["58a8780e-521d-480c-85a7-c7a42cd7910d"]
  target_status := some "in-progress"

/-- A wakeup of a workflow in a scope. -/
def wakeupDecision (workflowId scope : String) : StructuredOrchestrationDecision where
  action := .requestWakeup
  lane := .strategy
  intent_type := .discoverUnknowns
  reason := "wakeup"
  workflow_id := some workflowId
  workflow_scope := some scope

/-- A dispatch and a transition of the same item share no key, and two wakeups of different
workflows in different scopes share one. -/
theorem conflict_keys_drift_apart :
    (¬ ∀ (projectId item : String) (action : WorkItemRunAction)
      (d : StructuredOrchestrationDecision), item ∈ d.work_item_ids →
        ShareKey projectId (.runLaunch item action) (.decision d)) ∧
    ¬ ∀ (projectId : String) (r r' : MutationRequest),
      (∀ item ∈ r.workItems, item ∉ r'.workItems) →
      (∀ branch ∈ r.branches, branch ∉ r'.branches) →
      (∀ scope ∈ r.scopes, scope ∉ r'.scopes) → ¬ ShareKey projectId r r' := by
  constructor
  · intro h
    obtain ⟨key, hkey, hkey'⟩ := h "08155b29-9c9e-4a7f-91ad-d2b1a5b0a0f1"
      "58a8780e-521d-480c-85a7-c7a42cd7910d" .dispatch transitionDecision List.mem_cons_self
    exact not_shareKey_launch_decision _ _ _ _ ⟨key, hkey, hkey'⟩
  · intro h
    have hnone := h "08155b29-9c9e-4a7f-91ad-d2b1a5b0a0f1"
      (.decision (wakeupDecision "sync:nightly" "repo")) (.decision (wakeupDecision "sync" "nightly:repo"))
      (by decide) (by decide) (by decide)
    exact hnone ⟨⟨.workflowScope, "sync:nightly:repo"⟩, by decide, by decide⟩

end Nexus
