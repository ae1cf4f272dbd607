import Nexus.Kanban.DispatchLimits

/-!
# The files of the items in flight

A pass that checks for file contention compares a candidate with the items that were in flight when
its loop began. Two candidates that name the same file are both launched by one pass; apart from
that no launch shares a planned file (`pass_keeps_files_apart`).
-/

set_option autoImplicit false

namespace Nexus

/-- The plans of two items name a common file. -/
def SharesFile (item other : WorkItem) : Prop :=
  ∃ file ∈ targetFiles item, file ∈ targetFiles other

instance (item other : WorkItem) : Decidable (SharesFile item other) :=
  inferInstanceAs (Decidable (∃ file ∈ targetFiles item, file ∈ targetFiles other))

namespace Board

/-- An item that a pass may launch: nothing in flight edits its files or owns its branch. -/
structure Launchable (w : Board) (projectId : String) (row : WorkItem) : Prop extends
    w.Dispatchable projectId row where
  uncontended : ∀ other ∈ w.projectItems projectId, isInFlight other = true → other.id ≠ row.id →
    ¬ SharesFile row other
  unowned : ∀ branch, getTargetBranch row = some branch →
    ∀ other ∈ w.projectItems projectId, ownsTargetBranch other = true →
      getTargetBranch other ≠ some branch

/-- The items that a pass may launch share no planned file with one another, and none with an item
that the reconciliation of the pass has taken out of flight. -/
structure PlansApart (w w' : Board) (projectId : String) : Prop where
  launchable : ∀ row other, w'.Launchable projectId row → w'.Launchable projectId other →
    row.id ≠ other.id → ¬ SharesFile row other
  landed : ∀ row, w'.Launchable projectId row → ∀ other ∈ w.projectItems projectId,
    isInFlight other = true →
    (∀ other' ∈ w'.projectItems projectId, other'.id = other.id → isInFlight other' = false) →
    row.id ≠ other.id → ¬ SharesFile row other

/-- No launched item shares a planned file with another one, or with an item that was in flight
before the pass. -/
structure KeepsFilesApart (w : Board) (projectId : String) (ids : List String) : Prop where
  launched : ∀ row ∈ w.items, row.id ∈ ids → ∀ other ∈ w.items, other.id ∈ ids →
    row.id ≠ other.id → ¬ SharesFile row other
  inFlight : ∀ row ∈ w.items, row.id ∈ ids → ∀ other ∈ w.projectItems projectId,
    isInFlight other = true → row.id ≠ other.id → ¬ SharesFile row other

end Board

theorem sharesFile_congr {item item' other other' : WorkItem}
    (h : item'.execution_config = item.execution_config)
    (hother : other'.execution_config = other.execution_config) :
    SharesFile item' other' ↔ SharesFile item other := by
  unfold SharesFile targetFiles planOf
  rw [h, hother]

/-- Without contention no other item in flight shares a file. -/
theorem not_sharesFile_of_contention {item : WorkItem} {inFlight : List WorkItem}
    (h : findTargetFileContention item inFlight = none) {other : WorkItem} (hother : other ∈ inFlight)
    (hid : other.id ≠ item.id) : ¬ SharesFile item other := by
  rintro ⟨file, hfile, hshared⟩
  rw [findTargetFileContention, Option.map_eq_none_iff, List.find?_eq_none] at h
  have hnone := h other hother
  simp only [Bool.and_eq_true, decide_eq_true_eq, List.any_eq_true, not_and, not_exists] at hnone
  exact hnone hid file hfile hshared

theorem IsCopyOf.isInFlight {copy row : WorkItem} (h : IsCopyOf copy row)
    (hflight : Nexus.isInFlight row = true) : Nexus.isInFlight copy = true := by
  unfold Nexus.isInFlight at hflight ⊢
  rw [h.linked_run_id]
  rcases h.status with hsame | ⟨hprogress, -⟩
  · rw [hsame]
    exact hflight
  · simp [hprogress]

/-! ## The launches of the loop -/

namespace DispatchContext

/-- What every launch of a loop satisfies, whatever became of the ones before. -/
structure MayLaunch (ctx : DispatchContext) (item : WorkItem) : Prop extends ctx.Admits item where
  unowned : ∀ branch, getTargetBranch item = some branch → branch ∉ ctx.claimedTargetBranches

/-- Core has accepted runs of such items only. -/
def LaunchesOnly (ctx : DispatchContext) (base : List AcceptedRun) (w : Board) : Prop :=
  ∃ launched, Launched base w launched ∧ ∀ item ∈ launched, ctx.MayLaunch item

/-- The contexts of one loop keep the claims it began with. -/
structure Explores (ctx₀ ctx : DispatchContext) : Prop where
  same : SameLimits ctx₀ ctx
  owned : ctx₀.claimedTargetBranches ⊆ ctx.claimedTargetBranches

section Launches

variable {ctx₀ ctx claimed : DispatchContext} {base : List AcceptedRun} {w w' : Board}
  {item : WorkItem} {cond : Board → BoardOp → Prop}

theorem LaunchesOnly.of_accepted (h : ctx₀.LaunchesOnly base w)
    (hsame : w'.accepted = w.accepted) : ctx₀.LaunchesOnly base w' := by
  obtain ⟨launched, hlaunched, hmay⟩ := h
  exact ⟨launched, hlaunched.of_accepted hsame, hmay⟩

theorem Explores.withResult (h : Explores ctx₀ ctx) (result : DispatchResult) :
    Explores ctx₀ { ctx with result := result } :=
  ⟨h.same.trans ⟨result, _, _, _, _, rfl⟩, h.owned⟩

theorem linkAcceptedRun_uses (item : WorkItem) (runId : String) :
    Prog.Uses (fun o => o.isRequest = false) (linkAcceptedRun item runId) := by
  refine Prog.uses_bind (uses_awaitBoard rfl) fun linked => ?_
  split
  · trivial
  · refine Prog.uses_bind (uses_awaitBoard rfl) fun saved => ?_
    cases saved with
    | none => trivial
    | some saved =>
        dsimp only
        split <;> trivial

theorem launchCandidate_launchesOnly (ctx : DispatchContext) (h : ctx₀.LaunchesOnly base w)
    (hmay : ctx₀.MayLaunch item) :
    Prog.Meets (boardContract cond)
      (fun ctx' w' => (∃ result, ctx' = ctx.linked item result) ∧ ctx₀.LaunchesOnly base w')
      (fun _ w' => ctx₀.LaunchesOnly base w') (ctx.launchCandidate item) w := by
  refine Prog.meets_bind (awaitBoard_spec (fun _ => ?_) fun _ _ _ => h)
  obtain ⟨launched, hlaunched, hall⟩ := h
  have haccepted : Launched base (BoardOp.effect w.tick (w.outcomes w.issued)
      (.requestWorkflowRun (ctx.runRequest item))).1 (launched ++ [item]) :=
    hlaunched.request
  have hmore : ∀ other ∈ launched ++ [item], ctx₀.MayLaunch other := by
    intro other hother
    rcases List.mem_append.1 hother with hother | hother
    · exact hall other hother
    · exact List.mem_singleton.1 hother ▸ hmay
  refine Prog.meets_bind (Prog.meets_handle ((keepsAccepted (linkAcceptedRun_uses item _)).mono ?_ ?_))
  · intro saved w' hsame
    exact ⟨⟨_, rfl⟩, _, haccepted.of_accepted hsame, hmore⟩
  · intro error w' hsame
    exact ⟨_, haccepted.of_accepted hsame, hmore⟩

/-- The context of an outcome. -/
def OutcomeOf (ctx : DispatchContext) (item : WorkItem) : LaunchOutcome → Prop
  | .launched ctx' => ∃ result, ctx' = ctx.linked item result
  | .claimedButFailed _ => True
  | .skipped ctx' _ => ctx' = ctx.releaseBranch item

theorem launchWithFailureMode_launchesOnly (ctx : DispatchContext) (h : ctx₀.LaunchesOnly base w)
    (hmay : ctx₀.MayLaunch item) :
    Prog.Meets (boardContract cond)
      (fun outcome w' => ctx.OutcomeOf item outcome ∧ ctx₀.LaunchesOnly base w')
      (fun _ w' => ctx₀.LaunchesOnly base w') (ctx.launchWithFailureMode item) w := by
  have hlaunch : Prog.Meets (boardContract cond) _ _ (ctx.launchCandidate item) w :=
    launchCandidate_launchesOnly ctx h hmay
  unfold launchWithFailureMode
  refine Prog.meets_ite (fun _ => ?_) fun _ => ?_
  · exact Prog.Meets.bind hlaunch fun _ _ hleft => hleft
  · refine Prog.meets_handle (Prog.meets_bind (hlaunch.mono (fun _ _ hleft => hleft) ?_))
    intro error w' hthrown
    split
    · exact ⟨trivial, hthrown⟩
    · exact ⟨rfl, hthrown⟩

/-- Whatever the outcome, the claims the loop began with are kept. -/
theorem Explores.afterLaunch (h : Explores ctx₀ ctx) (hclaims : Claims ctx claimed item)
    {outcome : LaunchOutcome} (houtcome : claimed.OutcomeOf item outcome) :
    Explores ctx₀ (claimed.afterLaunch item outcome) := by
  have hkeeps := hclaims.keeps
  have hrelease := hclaims.release
  obtain ⟨branches, rfl⟩ := hclaims.context
  cases outcome with
  | launched ctx' =>
      obtain ⟨result, rfl⟩ := houtcome
      exact ⟨h.same.trans ⟨_, _, _, _, _, rfl⟩, fun _ hb => hkeeps (h.owned hb)⟩
  | claimedButFailed detail =>
      exact ⟨h.same.trans ⟨_, _, _, _, _, rfl⟩, fun _ hb => hkeeps (h.owned hb)⟩
  | skipped ctx' detail =>
      obtain rfl := houtcome
      obtain ⟨⟨released, hreleased⟩, hkept⟩ := hrelease
      simp only [DispatchContext.afterLaunch]
      rw [hreleased] at hkept ⊢
      exact ⟨h.same.trans ⟨_, _, _, _, _, rfl⟩, fun _ hb => hkept (h.owned hb)⟩

theorem dispatchCandidate_launchesOnly (h : Explores ctx₀ ctx) (hw : ctx₀.LaunchesOnly base w)
    (hresolved : ctx₀.resolveCandidate item.id = .ok item) (htodo : item.status = .todo)
    (hunlinked : isTruthyText item.linked_run_id = false)
    (hleaf : isContainerCandidate item ctx₀.childrenParentIds = false) :
    Prog.Meets (boardContract cond) (fun ctx' w' => Explores ctx₀ ctx' ∧ ctx₀.LaunchesOnly base w')
      (fun _ w' => ctx₀.LaunchesOnly base w') (ctx.dispatchCandidate item) w := by
  apply dispatchCandidate_rule
  · exact fun result => ⟨h.withResult result, hw⟩
  · intro claimed hpasses hok
    obtain ⟨hclaims, huncontended⟩ := claims_of_claimOrSkipBranch hok
    have hmay : ctx₀.MayLaunch item := by
      have hready := (passes_of_runPreFlight hpasses).2.2.1
      have hfree := hclaims.fresh
      have howned := h.owned
      obtain ⟨result, active, branches, launches, accepted, rfl⟩ := h.same
      exact ⟨⟨hresolved, htodo, hunlinked, hleaf, hready, huncontended⟩,
        fun branch hbranch hmem => hfree branch hbranch (howned hmem)⟩
    refine (launchWithFailureMode_launchesOnly claimed hw hmay).mono ?_ fun _ _ hleft => hleft
    rintro outcome w' ⟨houtcome, hleft⟩
    exact ⟨h.afterLaunch hclaims houtcome, hleft⟩

theorem processCandidate_launchesOnly {id : String} (h : Explores ctx₀ ctx)
    (hw : ctx₀.LaunchesOnly base w)
    (hids : ∀ id item, ctx₀.resolveCandidate id = .ok item → item.id = id) :
    Prog.Meets (boardContract cond) (fun ctx' w' => Explores ctx₀ ctx' ∧ ctx₀.LaunchesOnly base w')
      (fun _ w' => ctx₀.LaunchesOnly base w') (ctx.processCandidate id) w := by
  apply processCandidate_rule
  · exact fun result w' hsame => ⟨h.withResult result, hw.of_accepted hsame⟩
  · exact fun w' hsame => hw.of_accepted hsame
  · intro item hok htodo hunlinked hleaf
    have hresolved := h.same.resolveCandidate.1 hok
    obtain rfl := hids id item hresolved
    rw [h.same.childrenParentIds] at hleaf
    exact dispatchCandidate_launchesOnly h hw hresolved htodo hunlinked hleaf

theorem processCandidates_launchesOnly (ids : List String) (h : Explores ctx₀ ctx)
    (hw : ctx₀.LaunchesOnly base w)
    (hids : ∀ id item, ctx₀.resolveCandidate id = .ok item → item.id = id) :
    Prog.Meets (boardContract cond) (fun _ w' => ctx₀.LaunchesOnly base w')
      (fun _ w' => ctx₀.LaunchesOnly base w') (ctx.processCandidates ids) w := by
  induction ids generalizing ctx w with
  | nil => exact hw
  | cons id ids ih =>
      refine Prog.Meets.bind (processCandidate_launchesOnly h hw hids) ?_
      rintro ctx' w' ⟨h', hw'⟩
      exact ih h' hw'

end Launches

end DispatchContext

/-! ## A pass -/

section Pass

variable {w w' : Board} {deps : DispatchCoreDeps} {options : DispatchCoreOptions}
  {dependencies : List DependencyRecord} {r : Reconciliation} {maxActive : Option Int}
  {item : WorkItem}

/-- What the loop may launch is the copy of a row that can be launched. -/
theorem Prepared.launchable (h : Prepared options w w' dependencies r) (hw : w.Sound)
    (hcheck : options.targetBranchCheck = true)
    (hmay : (initialContext deps options maxActive dependencies r).MayLaunch item) :
    ∃ row, w'.Launchable options.projectId row ∧ IsCopyOf item row := by
  have hcopies := h.copiesOfRows hw
  obtain ⟨-, row, hrow, hagrees⟩ := h.row_of_resolved hw hmay.resolved
  refine ⟨row, ⟨h.dispatchable hw hmay.toAdmits hrow hagrees, ?_, ?_⟩, hagrees⟩
  · intro other hother hflight hid hshared
    obtain ⟨copy, hcopy, hcopyAgrees⟩ := exists_left_of_forall₂ hcopies hother
    have hmem : copy ∈ r.projectItems.filter isInFlight :=
      List.mem_filter.2 ⟨hcopy, hcopyAgrees.isInFlight hflight⟩
    refine not_sharesFile_of_contention (hmay.uncontended hcheck) hmem ?_ ?_
    · rw [hcopyAgrees.id, hagrees.id]
      exact hid
    · exact (sharesFile_congr hagrees.execution_config hcopyAgrees.execution_config).2 hshared
  · intro branch hbranch other hother howns hsame
    obtain ⟨copy, hcopy, hcopyAgrees⟩ := exists_left_of_forall₂ hcopies hother
    refine hmay.unowned branch (hagrees.getTargetBranch.trans hbranch) ?_
    exact List.mem_filterMap.2 ⟨copy,
      List.mem_filter.2 ⟨hcopy, hcopyAgrees.ownsTargetBranch howns⟩,
      hcopyAgrees.getTargetBranch.trans hsame⟩

/-- The launches of a loop are apart when the plans are. -/
theorem Prepared.keepsFilesApart {launched : List WorkItem}
    (h : Prepared options w w' dependencies r) (hw : w.Sound)
    (hcheck : options.targetBranchCheck = true) (hapart : w.PlansApart w' options.projectId)
    (hmay : ∀ item ∈ launched,
      (initialContext deps options maxActive dependencies r).MayLaunch item) :
    w.KeepsFilesApart options.projectId (launched.map WorkItem.id) := by
  -- the row of a launched item, before the pass and when the loop begins
  have hlaunched : ∀ row ∈ w.items, row.id ∈ launched.map WorkItem.id →
      ∃ row', w'.Launchable options.projectId row' ∧ row'.id = row.id ∧
        row'.execution_config = row.execution_config := by
    intro row hrow hid
    obtain ⟨item, hitem, hsame⟩ := List.mem_map.1 hid
    obtain ⟨row', hlaunchable, hagrees⟩ := h.launchable hw hcheck (hmay item hitem)
    obtain ⟨row₀, hrow₀, hkept⟩ := h.origin hlaunchable.mem
    have hid' : row'.id = row.id := hagrees.id.symm.trans hsame
    obtain rfl := hw.eq_of_id (Board.mem_projectItems.1 hrow₀).1 hrow (hkept.id.symm.trans hid')
    exact ⟨row', hlaunchable, hid', hkept.execution_config⟩
  constructor
  case launched =>
    intro row hrow hid other hother hotherId hne hshared
    obtain ⟨row', hlaunchable, hsame, hconfig⟩ := hlaunched row hrow hid
    obtain ⟨other', hotherLaunchable, hotherSame, hotherConfig⟩ := hlaunched other hother hotherId
    refine hapart.launchable row' other' hlaunchable hotherLaunchable ?_ ?_
    · rw [hsame, hotherSame]
      exact hne
    · exact (sharesFile_congr hconfig hotherConfig).2 hshared
  case inFlight =>
    intro row hrow hid other hother hflight hne hshared
    obtain ⟨row', hlaunchable, hsame, hconfig⟩ := hlaunched row hrow hid
    by_cases hlanded : ∀ other' ∈ w'.projectItems options.projectId,
        other'.id = other.id → isInFlight other' = false
    · refine hapart.landed row' hlaunchable other hother hflight hlanded (hsame ▸ hne) ?_
      exact (sharesFile_congr hconfig rfl).2 hshared
    · -- the other item is still in flight when the loop begins
      simp only [not_forall, Bool.not_eq_false] at hlanded
      obtain ⟨other', hother', hotherSame, hstill⟩ := hlanded
      obtain ⟨other₀, hother₀, hkept⟩ := h.origin hother'
      obtain rfl := hw.eq_of_id (Board.mem_projectItems.1 hother₀).1
        (Board.mem_projectItems.1 hother).1 (hkept.id.symm.trans hotherSame)
      refine hlaunchable.uncontended other' hother' hstill ?_ ?_
      · rw [hotherSame, hsame]
        exact hne.symm
      · exact (sharesFile_congr hconfig hkept.execution_config).2 hshared

end Pass

/-- **No two items in flight edit the same files.** In every run of a pass that checks for file
contention, with every pattern of outcomes: when the plans of the items that its loop may launch are
apart, no item it launches shares a planned file with another one or with one in flight. -/
theorem pass_keeps_files_apart (deps : DispatchCoreDeps) (options : DispatchCoreOptions)
    (w : Board) (hw : w.Sound) (hcheck : options.targetBranchCheck = true)
    (hapart : w.PlansApart ((prepareDispatchContext deps options).run BoardOp.exec w).1
      options.projectId) :
    w.KeepsFilesApart options.projectId
      (acceptedIds w ((dispatchWorkItems deps options).run BoardOp.exec w).1) := by
  have hpass : Prog.Meets (boardContract fun _ _ => True)
      (fun _ w' => w.KeepsFilesApart options.projectId (acceptedIds w w'))
      (fun _ w' => w.KeepsFilesApart options.projectId (acceptedIds w w'))
      (dispatchWorkItems deps options) w := by
    apply dispatchWorkItems_rule hw
    · intro dependencies r w₁ h hrun
      rw [hrun] at hapart
      have hstart : (initialContext deps options (projectBudget deps options w) dependencies
          r).LaunchesOnly w.accepted w₁ :=
        ⟨[], ⟨[], by simp [h.rewrites.accepted], rfl⟩, fun _ hitem => nomatch hitem⟩
      have hends : ∀ w', (initialContext deps options (projectBudget deps options w) dependencies
          r).LaunchesOnly w.accepted w' →
          w.KeepsFilesApart options.projectId (acceptedIds w w') := by
        rintro w' ⟨launched, hlaunched, hmay⟩
        rw [acceptedIds_of_launched hlaunched]
        exact h.keepsFilesApart hw hcheck hapart hmay
      refine (DispatchContext.processCandidates_launchesOnly _
        ⟨⟨_, _, _, _, _, rfl⟩, fun _ hb => hb⟩ hstart
        fun id item hresolved => (h.row_of_resolved hw hresolved).1).mono ?_ ?_
      · exact fun _ w' => hends w'
      · exact fun _ w' => hends w'
    · intro w' hnone
      rw [hnone]
      exact ⟨(fun _ _ hid => nomatch hid), fun _ _ hid => nomatch hid⟩
  exact hpass.state_when BoardOp.exec fun _ _ => trivial

/-- An execution config whose plan names one file. -/
def planWith (file : String) : Json :=
  .obj [("implementationPlan", .obj [("milestones", .arr [.obj [("tasks", .arr [.obj
    [("target_files", .arr [.str file])]])]])])]

def readyPass : DispatchCoreOptions where
  projectId := "p"
  workflowId := "work_item_in_progress"

/-- Two items that can be dispatched and edit the same file. -/
def overlappingBoard : Board where
  items := [{ id := "a", project_id := "p", status := .todo, execution_config := planWith "x.ts" },
    { id := "b", project_id := "p", status := .todo, execution_config := planWith "x.ts" }]

/-- One pass launches both. -/
theorem pass_launches_overlapping : overlappingBoard.Sound ∧
    readyPass.targetBranchCheck = true ∧
    ¬ overlappingBoard.KeepsFilesApart "p"
      (acceptedIds overlappingBoard
        ((dispatchWorkItems {} readyPass).run BoardOp.exec overlappingBoard).1) := by
  have haccepted : acceptedIds overlappingBoard
      ((dispatchWorkItems {} readyPass).run BoardOp.exec overlappingBoard).1 = ["a", "b"] := by
    decide +kernel
  refine ⟨by unfold Board.Sound; decide, by decide, fun h => ?_⟩
  have hlaunched := h.launched
  rw [haccepted] at hlaunched
  revert hlaunched
  decide +kernel

/-- An item in flight, one that edits the same file, and one that edits another. -/
def apartBoard : Board where
  items :=
    [{ id := "a"
       project_id := "p"
       status := .inProgress
       linked_run_id := "r"
       current_execution_id := "r"
       execution_config := planWith "x.ts" },
     { id := "b", project_id := "p", status := .todo, execution_config := planWith "x.ts" },
     { id := "c", project_id := "p", status := .todo, execution_config := planWith "y.ts" }]

theorem pass_launches_beside_flight :
    acceptedIds apartBoard ((dispatchWorkItems {} readyPass).run BoardOp.exec apartBoard).1 = ["c"] ∧
    apartBoard.KeepsFilesApart "p"
      (acceptedIds apartBoard ((dispatchWorkItems {} readyPass).run BoardOp.exec apartBoard).1) := by
  refine ⟨by decide +kernel, pass_keeps_files_apart {} readyPass apartBoard ?_ (by decide) ?_⟩
  · unfold Board.Sound
    decide
  · have hrows : ((prepareDispatchContext {} readyPass).run BoardOp.exec apartBoard).1.projectItems
        readyPass.projectId = apartBoard.items := by
      rfl
    have htodo : ∀ row ∈ apartBoard.items, ∀ other ∈ apartBoard.items, row.status = .todo →
        other.status = .todo → row.id ≠ other.id → ¬ SharesFile row other := by
      decide +kernel
    have hlanded : ∀ other ∈ apartBoard.items, isInFlight other = true →
        ¬ ∀ other' ∈ apartBoard.items, other'.id = other.id → isInFlight other' = false := by
      decide +kernel
    constructor
    case launchable =>
      intro row other hrow hother
      have hmem := hrow.mem
      have hmem' := hother.mem
      rw [hrows] at hmem hmem'
      exact htodo row hmem other hmem' hrow.todo hother.todo
    case landed =>
      intro row _ other hother hflight hgone
      rw [hrows] at hgone
      exact absurd hgone (hlanded other hother hflight)

end Nexus
