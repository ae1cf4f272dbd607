import Nexus.Kanban.Dispatch

/-!
# The launches of a pass

The budgets of a pass over the copies it has read (`WithinLimits`), as an invariant of the loop over
its candidates. The counters and the claimed branches follow the run requests that Core accepted,
whether the link of the run succeeds, fails or throws; a request that fails gives its branch back.
-/

set_option autoImplicit false

namespace Nexus

/-! ## Programs over the board -/

/-- The statements that link a run do not fail without a message. -/
def NamesLinkErrors (w : Board) : BoardOp → Prop
  | .linkRunIfUnlinked _ _ _ => (w.outcomes w.issued).error ≠ some ""
  | .save entity => ∀ runId, entity.linked_run_id = some (some runId) →
      (w.outcomes w.issued).error ≠ some ""
  | _ => True

/-- The contract of a program that runs alone on a board, for the runs whose steps satisfy a
condition. -/
abbrev boardContract (cond : Board → BoardOp → Prop) : Contract BoardOp BoardOp.Ans Board :=
  Prog.aloneWhen BoardOp.exec cond

/-- The contract of a pass whose links fail with a message. -/
abbrev passContract : Contract BoardOp BoardOp.Ans Board := boardContract NamesLinkErrors

def BoardOp.isRequest : BoardOp → Bool
  | .requestWorkflowRun _ => true
  | _ => false

section Programs

variable {w : Board} {α : Type} {cond : Board → BoardOp → Prop}

variable {o : BoardOp} {E : BoardError → Board → Prop}

theorem tryBoard_spec {Q : o.Ans → Board → Prop}
    (hok : (w.outcomes w.issued).error = none → Q (.ok (o.effect w.tick (w.outcomes w.issued)).2)
      (o.effect w.tick (w.outcomes w.issued)).1)
    (herror : ∀ message, cond w o → (w.outcomes w.issued).error = some message → Q (.error
      message) w.tick) :
    Prog.Meets (boardContract cond) Q E (tryBoard o) w := by
  refine Prog.meets_op trivial ?_
  rintro ans w' ⟨hcond, hexec⟩
  cases hfails : (w.outcomes w.issued).error with
  | none =>
      simp only [BoardOp.exec, hfails, Prod.mk.injEq] at hexec
      obtain ⟨rfl, rfl⟩ := hexec
      exact hok hfails
  | some message =>
      simp only [BoardOp.exec, hfails, Prod.mk.injEq] at hexec
      obtain ⟨rfl, rfl⟩ := hexec
      exact herror message hcond hfails

variable {Q : o.Value → Board → Prop}

theorem awaitBoard_spec
    (hok : (w.outcomes w.issued).error = none → Q (o.effect w.tick (w.outcomes w.issued)).2
      (o.effect w.tick (w.outcomes w.issued)).1)
    (herror : ∀ message, cond w o → (w.outcomes w.issued).error = some message → E (.error
      message) w.tick) :
    Prog.Meets (boardContract cond) Q E (awaitBoard o) w :=
  Prog.meets_bind (tryBoard_spec hok herror)

/-- `awaitBoard_spec` with the value and the board named. -/
theorem awaitBoard_effect
    (hok : ∀ value w', o.effect w.tick (w.outcomes w.issued) = (w', value) → Q value w')
    (herror : ∀ message, E (.error message) w.tick) :
    Prog.Meets (boardContract cond) Q E (awaitBoard o) w :=
  awaitBoard_spec (fun _ => hok _ _ rfl) fun message _ _ => herror message

theorem uses_awaitBoard {allowed : BoardOp → Prop} (h : allowed o) :
    Prog.Uses allowed (awaitBoard o) := by
  refine Prog.uses_bind (Prog.uses_op h) fun ans => ?_
  cases ans <;> trivial

@[simp] theorem accepted_save (w : Board) (c : WorkItemColumns) :
    (w.save c).accepted = w.accepted := by
  unfold Board.save
  split <;> rfl

/-- Only a run request adds to the accepted ones. -/
theorem accepted_exec (h : o.isRequest = false) : (o.exec w).1.accepted = w.accepted := by
  unfold BoardOp.exec
  split
  · rfl
  · cases o with
    | requestWorkflowRun request => cases h
    | save entity => exact accepted_save w.tick entity
    | _ => rfl

/-- `awaitBoard_spec` for an operation that requests no run. -/
theorem awaitBoard_silent (hrequest : o.isRequest = false)
    (hok : ∀ value w', w'.accepted = w.accepted → Q value w')
    (herror : ∀ message w', w'.accepted = w.accepted → cond w o → (w.outcomes w.issued).error =
      some message → E (.error message) w') :
    Prog.Meets (boardContract cond) Q E (awaitBoard o) w := by
  refine awaitBoard_spec (fun hfails => hok _ _ ?_) fun message hcond hfails =>
    herror message _ rfl hcond hfails
  have hkept := accepted_exec (w := w) hrequest
  simp only [BoardOp.exec, hfails] at hkept
  exact hkept

/-- A program without run requests leaves the accepted ones alone. -/
theorem keepsAccepted {p : BoardProg α} (hp : Prog.Uses (fun o => o.isRequest = false) p) :
    Prog.Meets (boardContract cond) (fun _ w' => w'.accepted = w.accepted)
      (fun _ w' => w'.accepted = w.accepted) p w := by
  refine Prog.Uses.meets (I := fun w' : Board => w'.accepted = w.accepted) hp rfl
    (fun _ _ _ _ => trivial) ?_
  rintro w₁ o ans w₂ hsame hrequest ⟨-, hexec⟩
  have hkept := accepted_exec (w := w₁) hrequest
  rw [hexec] at hkept
  exact hkept.trans hsame

end Programs

theorem uses_findDependencies {allowed : BoardOp → Prop} (ids : List String)
    (h : allowed (.findDependenciesByWorkItemIds ids)) :
    Prog.Uses allowed (KanbanWorkItemRepository.findDependenciesByWorkItemIds ids) := by
  unfold KanbanWorkItemRepository.findDependenciesByWorkItemIds
  split
  · trivial
  · exact uses_awaitBoard h

theorem updateStatus_uses (projectId workItemId : String) (status : WorkItemStatus) :
    Prog.Uses (fun o => o.isRequest = false) (updateStatus projectId workItemId status) := by
  refine Prog.uses_bind (Prog.uses_bind (uses_awaitBoard rfl) fun found => ?_) fun item => ?_
  · cases found <;> trivial
  · split
    · exact Prog.uses_bind (uses_findDependencies _ rfl) fun _ => trivial
    · refine Prog.uses_bind (uses_awaitBoard rfl) fun gate => ?_
      cases gate with
      | passed =>
          exact Prog.uses_bind (uses_awaitBoard rfl) fun _ =>
            Prog.uses_bind (uses_findDependencies _ rfl) fun _ => uses_awaitBoard rfl
      | blocked heldAt failures => exact Prog.uses_bind (uses_awaitBoard rfl) fun _ => trivial

/-! ## Launches -/

/-- The items whose run requests Core accepted after `base`, in their order. -/
def Launched (base : List AcceptedRun) (w : Board) (launched : List WorkItem) : Prop :=
  ∃ runs, w.accepted = base ++ runs ∧ runs.map (fun run => run.request.item) = launched

theorem Launched.of_accepted {base : List AcceptedRun} {w w' : Board} {launched : List WorkItem}
    (h : Launched base w launched) (hsame : w'.accepted = w.accepted) :
    Launched base w' launched := by
  obtain ⟨runs, hruns, hitems⟩ := h
  exact ⟨runs, hsame.trans hruns, hitems⟩

theorem Launched.request {base : List AcceptedRun} {w : Board} {launched : List WorkItem}
    {request : WorkflowRunRequest} (h : Launched base w launched) :
    Launched base (BoardOp.effect w.tick (w.outcomes w.issued) (.requestWorkflowRun request)).1
      (launched ++ [request.item]) := by
  obtain ⟨runs, hruns, rfl⟩ := h
  refine ⟨runs ++ [⟨request, (w.outcomes w.issued).runId⟩], ?_, by simp⟩
  simp [BoardOp.effect, Board.tick, hruns]

theorem message_ne_empty {a b : String} (h : a ≠ "") : a ++ b ≠ "" := by
  intro hempty
  exact h (String.append_eq_empty_iff.1 hempty).1

/-- A link that fails says why, and requests no run. -/
theorem linkAcceptedRun_spec (item : WorkItem) (runId : String) (w : Board) :
    Prog.Meets passContract (fun _ w' => w'.accepted = w.accepted)
      (fun error w' => error.message ≠ "" ∧ w'.accepted = w.accepted)
      (linkAcceptedRun item runId) w := by
  have hnotLinked : s!"Work item {item.id} is already linked to a workflow run" ≠ "" :=
    message_ne_empty (message_ne_empty (by decide))
  have hnotConfirmed : s!"Dispatch mutation was not confirmed for work item {item.id}" ≠ "" :=
    message_ne_empty (by decide)
  refine Prog.meets_bind (awaitBoard_silent rfl ?_ ?_)
  · intro linked w₁ hlink
    split
    · exact ⟨hnotLinked, hlink⟩
    · refine Prog.meets_bind (awaitBoard_silent rfl ?_ ?_)
      · intro saved w₂ hsave
        have hkept : w₂.accepted = w.accepted := hsave.trans hlink
        cases saved with
        | none => exact ⟨hnotConfirmed, hkept⟩
        | some saved =>
            refine Prog.meets_ite (fun _ => ?_) fun _ => ?_
            · exact ⟨hnotConfirmed, hkept⟩
            · exact hkept
      · intro message w₂ hsave hnames herror
        have hnamed : message ≠ "" := fun hempty =>
          hnames runId rfl (herror.trans (congrArg some hempty))
        exact ⟨hnamed, hsave.trans hlink⟩
  · intro message w₁ hlink hnames herror
    have hnamed : message ≠ "" := fun hempty => hnames (herror.trans (congrArg some hempty))
    exact ⟨hnamed, hlink⟩

namespace DispatchContext

/-- The context after a launch whose link was confirmed. -/
def linked (ctx : DispatchContext) (item : WorkItem) (result : DispatchResult) : DispatchContext :=
  { ctx with
    activeByAgent := incrementActiveAgentCount item ctx.activeByAgent
    result := result }

/-- Whether Core had accepted the run when a launch threw. -/
def AcceptedAtThrow (base : List AcceptedRun) (launched : List WorkItem) (item : WorkItem)
    (error : BoardError) (w : Board) : Prop :=
  if isAcceptedRunLinkError error then Launched base w (launched ++ [item])
  else Launched base w launched

section Launch

variable {base : List AcceptedRun} {w : Board} {launched : List WorkItem}

theorem launchCandidate_spec (ctx : DispatchContext) (item : WorkItem)
    (h : Launched base w launched) :
    Prog.Meets passContract
      (fun ctx' w' => Launched base w' (launched ++ [item]) ∧
        ∃ result, ctx' = ctx.linked item result)
      (AcceptedAtThrow base launched item) (ctx.launchCandidate item) w := by
  refine Prog.meets_bind (awaitBoard_spec (fun _ => ?_) fun message _ _ => ?_)
  · -- Core has accepted the run; what follows is its link
    have haccepted : Launched base (BoardOp.effect w.tick (w.outcomes w.issued)
        (.requestWorkflowRun (ctx.runRequest item))).1 (launched ++ [item]) := h.request
    refine Prog.meets_bind (Prog.meets_handle ((linkAcceptedRun_spec item _ _).mono ?_ ?_))
    · intro saved w' hsame
      exact ⟨haccepted.of_accepted hsame, _, rfl⟩
    · rintro error w' ⟨hmessage, hsame⟩
      have hlink : isAcceptedRunLinkError (.acceptedRunLinkError error.message) = true :=
        decide_eq_true hmessage
      have hlaunched := haccepted.of_accepted hsame
      rwa [Prog.meets_fail, AcceptedAtThrow, if_pos hlink]
  · exact h

/-- What a launch leaves: the accepted runs, and the context of the outcome. -/
def LaunchLeaves (base : List AcceptedRun) (launched : List WorkItem) (ctx : DispatchContext)
    (item : WorkItem) (w : Board) : LaunchOutcome → Prop
  | .launched ctx' => Launched base w (launched ++ [item]) ∧ ∃ result, ctx' = ctx.linked item result
  | .claimedButFailed _ => Launched base w (launched ++ [item])
  | .skipped ctx' _ => Launched base w launched ∧ ctx' = ctx.releaseBranch item

theorem launchWithFailureMode_spec (ctx : DispatchContext) (item : WorkItem)
    (h : Launched base w launched) :
    Prog.Meets passContract
      (fun outcome w' => LaunchLeaves base launched ctx item w' outcome)
      (AcceptedAtThrow base launched item) (ctx.launchWithFailureMode item) w := by
  have hlaunch := launchCandidate_spec ctx item h
  unfold launchWithFailureMode
  refine Prog.meets_ite (fun _ => ?_) fun _ => ?_
  · exact Prog.Meets.bind hlaunch fun ctx' w' hleft => hleft
  · refine Prog.meets_handle (Prog.meets_bind (hlaunch.mono (fun ctx' w' hleft => hleft) ?_))
    intro error w' hthrown
    unfold AcceptedAtThrow at hthrown
    split
    · rename_i hlink
      rw [if_pos hlink] at hthrown
      exact hthrown
    · rename_i hlink
      rw [if_neg hlink] at hthrown
      exact ⟨hthrown, rfl⟩

end Launch

/-! ## Budgets -/

/-- The launches of an agent's items. -/
def launchesOf (agentId : String) (launched : List WorkItem) : Nat :=
  (launched.filter fun item => assignedAgent? item = some agentId).length

/-- What the checks ask of the copy of a candidate. -/
structure Admits (ctx : DispatchContext) (item : WorkItem) : Prop where
  resolved : ctx.resolveCandidate item.id = .ok item
  todo : item.status = .todo
  unlinked : isTruthyText item.linked_run_id = false
  leaf : isContainerCandidate item ctx.childrenParentIds = false
  ready : dependenciesReady item ctx.dependencyIdsByItem ctx.itemById = true
  uncontended : ctx.options.targetBranchCheck = true →
    findTargetFileContention item ctx.inFlightItems = none

/-- The launches keep within every budget of the context the loop started with. -/
structure WithinLimits (ctx : DispatchContext) (launched : List WorkItem) : Prop where
  admitted : ∀ item ∈ launched, ctx.Admits item
  once : (launched.map WorkItem.id).Nodup
  limit : ∀ maxItems, ctx.options.maxItems = some maxItems →
    (launched.length : Int) ≤ max 0 maxItems
  project : ∀ maxActive, ctx.maxActivePerProject = some maxActive →
    (launched.length : Int) ≤ max 0 (maxActive - ctx.initialProjectActiveCount)
  agents : ∀ maximum agentId, ctx.options.maxConcurrentPerAgent = some maximum →
    (activeOf ctx.activeByAgent agentId + launchesOf agentId launched : Int) ≤
      max maximum (activeOf ctx.activeByAgent agentId)
  unowned : ∀ branch ∈ launched.filterMap getTargetBranch, branch ∉ ctx.claimedTargetBranches
  branchOnce : (launched.filterMap getTargetBranch).Nodup

/-- The contexts of one loop differ in their result, their counters and their claims only. -/
def SameLimits (ctx₀ ctx : DispatchContext) : Prop :=
  ∃ result activeByAgent claimedTargetBranches launchedCount acceptedProjectLaunches,
    ctx = { ctx₀ with
      result := result
      activeByAgent := activeByAgent
      claimedTargetBranches := claimedTargetBranches
      launchedCount := launchedCount
      acceptedProjectLaunches := acceptedProjectLaunches }

/-- The counters and the claims follow the launches. -/
structure Follows (ctx₀ ctx : DispatchContext) (launched : List WorkItem) : Prop where
  same : SameLimits ctx₀ ctx
  counted : ctx.launchedCount = launched.length
  accepted : ctx.acceptedProjectLaunches = launched.length
  active : ∀ agentId, activeOf ctx.activeByAgent agentId =
    activeOf ctx₀.activeByAgent agentId + launchesOf agentId launched
  owned : ctx₀.claimedTargetBranches ⊆ ctx.claimedTargetBranches
  claimed : launched.filterMap getTargetBranch ⊆ ctx.claimedTargetBranches
  within : WithinLimits ctx₀ launched

/-- The claim of a candidate. -/
structure Claims (ctx claimed : DispatchContext) (item : WorkItem) : Prop where
  context : ∃ branches, claimed = { ctx with claimedTargetBranches := branches }
  keeps : ctx.claimedTargetBranches ⊆ claimed.claimedTargetBranches
  fresh : ∀ branch, getTargetBranch item = some branch → branch ∉ ctx.claimedTargetBranches
  owns : ∀ branch, getTargetBranch item = some branch → branch ∈ claimed.claimedTargetBranches

variable {skipped : DispatchContext} {id : String}

section Budgets

variable {ctx₀ ctx claimed : DispatchContext} {item : WorkItem} {launched : List WorkItem}

theorem launchesOf_append (agentId : String) :
    launchesOf agentId (launched ++ [item]) =
      launchesOf agentId launched + if assignedAgent? item = some agentId then 1 else 0 := by
  by_cases h : assignedAgent? item = some agentId <;> simp [launchesOf, List.filter_append, h]

theorem activeOf_increment (activeByAgent : OrderedMap String Nat) (agentId : String) :
    activeOf (incrementActiveAgentCount item activeByAgent) agentId =
      activeOf activeByAgent agentId + if assignedAgent? item = some agentId then 1 else 0 := by
  unfold incrementActiveAgentCount
  cases hagent : assignedAgent? item with
  | none => simp
  | some owner =>
      by_cases h : owner = agentId
      · subst h
        simp [activeOf]
      · simp [activeOf, OrderedMap.get?_set_of_ne _ _ h, h]

theorem claims_of_claimBranch (h : ctx.claimBranch item = .ok claimed) : Claims ctx claimed item := by
  unfold claimBranch at h
  split at h
  · rename_i hnone
    cases h
    exact ⟨⟨_, rfl⟩, fun _ hb => hb, fun branch hb => (nomatch hnone.symm.trans hb),
      fun branch hb => (nomatch hnone.symm.trans hb)⟩
  · rename_i branch hsome
    split at h
    · cases h
    · rename_i hfree
      cases h
      have hsame : ∀ branch', getTargetBranch item = some branch' → branch' = branch :=
        fun branch' hb => (Option.some.inj (hsome.symm.trans hb)).symm
      refine ⟨⟨_, rfl⟩, fun _ hb => List.mem_cons_of_mem _ hb, fun branch' hb => ?_,
        fun branch' hb => ?_⟩
      · rw [hsame branch' hb]
        exact hfree
      · rw [hsame branch' hb]
        exact List.mem_cons_self

theorem claims_of_claimOrSkipBranch (h : ctx.claimOrSkipBranch item = .ok claimed) :
    Claims ctx claimed item ∧ (ctx.options.targetBranchCheck = true →
      findTargetFileContention item ctx.inFlightItems = none) := by
  unfold claimOrSkipBranch at h
  split at h
  · unfold claimDispatchSlot at h
    split at h
    · cases h
    · rename_i hnone
      exact ⟨claims_of_claimBranch h, fun _ => hnone⟩
  · rename_i hcheck
    exact ⟨claims_of_claimBranch h, fun hcheck' => absurd hcheck' hcheck⟩

/-- What a candidate has passed when `runPreFlight` skips nothing. -/
theorem passes_of_runPreFlight (h : ctx.runPreFlight item = none) :
    ctx.limitReached = false ∧
    canLaunchNewWork ctx.initialProjectActiveCount ctx.maxActivePerProject
      ctx.acceptedProjectLaunches = true ∧
    dependenciesReady item ctx.dependencyIdsByItem ctx.itemById = true ∧
    agentCapacityReached ctx.options.maxConcurrentPerAgent item ctx.activeByAgent = false := by
  unfold runPreFlight at h
  split at h
  · split at h <;> cases h
  · rename_i hlimit
    split at h
    · cases h
    · rename_i hproject
      split at h
      · cases h
      · rename_i hready
        split at h
        · cases h
        · rename_i hagent
          simp only [Bool.not_eq_true, Bool.not_eq_false'] at hlimit hproject hready hagent
          exact ⟨hlimit, by simpa using hproject, by simpa using hready, hagent⟩

/-- A candidate that does not pass changes the result only. -/
theorem withResult_of_runPreFlight (h : ctx.runPreFlight item = some skipped) :
    ∃ result, skipped = { ctx with result := result } := by
  unfold runPreFlight at h
  split at h
  · split at h <;> cases h <;> exact ⟨_, rfl⟩
  · repeat' split at h
    all_goals cases h
    all_goals exact ⟨_, rfl⟩

/-- A claim that is refused changes the result only. -/
theorem withResult_of_claimOrSkipBranch (h : ctx.claimOrSkipBranch item = .error skipped) :
    ∃ result, skipped = { ctx with result := result } := by
  have hbranch : ctx.claimBranch item = .error skipped →
      ∃ result, skipped = { ctx with result := result } := by
    intro hclaim
    unfold claimBranch at hclaim
    repeat' split at hclaim
    all_goals cases hclaim
    exact ⟨_, rfl⟩
  unfold claimOrSkipBranch at h
  split at h
  · unfold claimDispatchSlot at h
    split at h
    · cases h
      exact ⟨_, rfl⟩
    · exact hbranch h
  · exact hbranch h

/-- The contexts of one loop resolve the same candidates. -/
theorem SameLimits.resolveCandidate (h : SameLimits ctx₀ ctx) :
    ctx.resolveCandidate id = .ok item ↔ ctx₀.resolveCandidate id = .ok item := by
  obtain ⟨result, active, branches, launches, accepted, rfl⟩ := h
  simp only [DispatchContext.resolveCandidate]
  split
  · split <;> simp
  · split
    · simp
    · split <;> simp

theorem SameLimits.trans {ctx' : DispatchContext} (h : SameLimits ctx₀ ctx)
    (h' : SameLimits ctx ctx') : SameLimits ctx₀ ctx' := by
  obtain ⟨result, active, branches, launches, accepted, rfl⟩ := h
  obtain ⟨result', active', branches', launches', accepted', rfl⟩ := h'
  exact ⟨result', active', branches', launches', accepted', rfl⟩

/-- An item that is launched again has no target branch. -/
theorem Follows.branch_none_of_mem (h : Follows ctx₀ ctx launched) (hclaims : Claims ctx claimed item)
    (hresolved : ctx₀.resolveCandidate item.id = .ok item)
    (hmem : item.id ∈ launched.map WorkItem.id) : getTargetBranch item = none := by
  obtain ⟨other, hother, hid⟩ := List.mem_map.1 hmem
  have hsame : other = item := by
    have hadmitted := (h.within.admitted other hother).resolved
    rw [hid, hresolved] at hadmitted
    exact (Except.ok.inj hadmitted).symm
  subst hsame
  cases hbranch : getTargetBranch other with
  | none => rfl
  | some branch =>
      have hclaimed := h.claimed (List.mem_filterMap.2 ⟨other, hother, hbranch⟩)
      exact absurd hclaimed (hclaims.fresh branch hbranch)

/-- **One more launch.** A candidate that passes every check keeps the launches within the
budgets. -/
theorem Follows.launch (h : Follows ctx₀ ctx launched) (hadmits : ctx₀.Admits item)
    (hpasses : ctx.runPreFlight item = none) (hclaims : Claims ctx claimed item)
    (hfresh : getTargetBranch item = none → item.id ∉ launched.map WorkItem.id) :
    WithinLimits ctx₀ (launched ++ [item]) := by
  obtain ⟨hlimit, hproject, -, hagent⟩ := passes_of_runPreFlight hpasses
  have hcounted := h.counted
  have haccepted := h.accepted
  have hactive := h.active
  have hclaimed := h.claimed
  have howned := h.owned
  have hnotAgain : item.id ∉ launched.map WorkItem.id := fun hmem =>
    hfresh (h.branch_none_of_mem hclaims hadmits.resolved hmem) hmem
  obtain ⟨result, active, branches, launches, accepted, rfl⟩ := h.same
  have hw := h.within
  constructor
  case admitted =>
    intro other hother
    rcases List.mem_append.1 hother with hother | hother
    · exact hw.admitted other hother
    · rw [List.mem_singleton.1 hother]
      exact hadmits
  case once =>
    rw [List.map_append, List.nodup_append]
    refine ⟨hw.once, List.nodup_singleton _, ?_⟩
    rintro id hid id' hid' rfl
    rw [List.map_singleton, List.mem_singleton] at hid'
    exact hnotAgain (hid' ▸ hid)
  case limit =>
    intro maxItems hmax
    simp only [limitReached, hmax, Option.any_some, decide_eq_false_iff_not, Int.not_le] at hlimit
    simp only at hcounted
    rw [List.length_append, List.length_singleton]
    omega
  case project =>
    intro maxActive hmax
    simp only [canLaunchNewWork, hmax, decide_eq_true_eq] at hproject
    simp only at haccepted
    rw [List.length_append, List.length_singleton]
    omega
  case agents =>
    intro maximum agentId hmax
    have hbefore := hw.agents maximum agentId hmax
    rw [launchesOf_append]
    split
    · rename_i hassigned
      simp only [agentCapacityReached, hassigned, hmax, decide_eq_false_iff_not, Int.not_le] at hagent
      have hcount := hactive agentId
      simp only at hcount
      omega
    · simpa using hbefore
  case unowned =>
    intro branch hbranch
    rw [List.filterMap_append, List.mem_append] at hbranch
    rcases hbranch with hbranch | hbranch
    · exact hw.unowned branch hbranch
    · have hitem : getTargetBranch item = some branch := by simpa using hbranch
      exact fun hmem => hclaims.fresh branch hitem (howned hmem)
  case branchOnce =>
    rw [List.filterMap_append, List.nodup_append]
    refine ⟨hw.branchOnce, ?_, ?_⟩
    · cases hbranch : getTargetBranch item <;> simp [hbranch]
    · rintro branch hbranch branch' hbranch' rfl
      have hitem : getTargetBranch item = some branch := by simpa using hbranch'
      exact hclaims.fresh branch hitem (hclaimed hbranch)

/-- Only the result changes. -/
theorem Follows.withResult (h : Follows ctx₀ ctx launched) (result : DispatchResult) :
    Follows ctx₀ { ctx with result := result } launched where
  same := h.same.trans ⟨result, _, _, _, _, rfl⟩
  counted := h.counted
  accepted := h.accepted
  active := h.active
  owned := h.owned
  claimed := h.claimed
  within := h.within

/-- A claim without a launch. -/
theorem Follows.claim (h : Follows ctx₀ ctx launched) (hclaims : Claims ctx claimed item) :
    Follows ctx₀ claimed launched := by
  have hkeeps := hclaims.keeps
  obtain ⟨branches, rfl⟩ := hclaims.context
  exact
    { same := h.same.trans ⟨_, _, branches, _, _, rfl⟩
      counted := h.counted
      accepted := h.accepted
      active := h.active
      owned := fun _ hb => hkeeps (h.owned hb)
      claimed := fun _ hb => hkeeps (h.claimed hb)
      within := h.within }

/-- A failed launch gives back the claim it made, and no other one. -/
theorem Claims.release (h : Claims ctx claimed item) :
    (∃ branches, claimed.releaseBranch item = { claimed with claimedTargetBranches := branches }) ∧
      ctx.claimedTargetBranches ⊆ (claimed.releaseBranch item).claimedTargetBranches := by
  unfold releaseBranch
  split
  · exact ⟨⟨_, rfl⟩, h.keeps⟩
  · rename_i branch hbranch
    split
    · refine ⟨⟨_, rfl⟩, fun other hother => ?_⟩
      refine List.mem_filter.2 ⟨h.keeps hother, decide_eq_true fun hsame => ?_⟩
      exact h.fresh branch hbranch (hsame ▸ hother)
    · exact ⟨⟨_, rfl⟩, h.keeps⟩

theorem Follows.release (h : Follows ctx₀ ctx launched) (hclaims : Claims ctx claimed item) :
    Follows ctx₀ (claimed.releaseBranch item) launched := by
  have hclaim := h.claim hclaims
  obtain ⟨⟨branches, hbranches⟩, hkeeps⟩ := hclaims.release
  rw [hbranches] at hkeeps ⊢
  exact
    { same := hclaim.same.trans ⟨_, _, branches, _, _, rfl⟩
      counted := hclaim.counted
      accepted := hclaim.accepted
      active := hclaim.active
      owned := fun _ hb => hkeeps (h.owned hb)
      claimed := fun _ hb => hkeeps (h.claimed hb)
      within := h.within }

/-- The counters after an accepted launch. -/
theorem Follows.count (h : Follows ctx₀ ctx launched) (hclaims : Claims ctx claimed item)
    (hwithin : WithinLimits ctx₀ (launched ++ [item])) (result : DispatchResult) :
    Follows ctx₀ (claimed.linked item result).countLaunch (launched ++ [item]) := by
  have hclaim := h.claim hclaims
  exact
    { same := hclaim.same.trans ⟨_, _, _, _, _, rfl⟩
      counted := by simp [countLaunch, linked, hclaim.counted]
      accepted := by simp [countLaunch, linked, hclaim.accepted]
      active := fun agentId => by
        simp only [countLaunch, linked, activeOf_increment, launchesOf_append, hclaim.active,
          Nat.add_assoc]
      owned := hclaim.owned
      claimed := fun branch hbranch => by
        rw [List.filterMap_append, List.mem_append] at hbranch
        rcases hbranch with hbranch | hbranch
        · exact hclaim.claimed hbranch
        · exact hclaims.owns branch (by simpa using hbranch)
      within := hwithin }

end Budgets

/-! ## The loop -/

section Loop

variable {base : List AcceptedRun} {w : Board} {ctx₀ ctx : DispatchContext}
  {launched : List WorkItem} {cond : Board → BoardOp → Prop}

/-- Where one candidate leads: the launches are the ones before, with the candidate at most. -/
def Continues (base : List AcceptedRun) (ctx₀ : DispatchContext) (launched : List WorkItem)
    (id : String) (ctx : DispatchContext) (w : Board) : Prop :=
  ∃ launched', Launched base w launched' ∧ Follows ctx₀ ctx launched' ∧
    ∀ item ∈ launched', item ∈ launched ∨ item.id = id

/-- Where an exception leads. -/
def Stops (base : List AcceptedRun) (ctx₀ : DispatchContext) (w : Board) : Prop :=
  ∃ launched, Launched base w launched ∧ WithinLimits ctx₀ launched

theorem Follows.continues (h : Follows ctx₀ ctx launched) (hw : Launched base w launched)
    (id : String) : Continues base ctx₀ launched id ctx w :=
  ⟨launched, hw, h, fun _ hitem => Or.inl hitem⟩

/-- A candidate that is skipped changes the result only; the rest is its launch. -/
theorem dispatchCandidate_rule {Q : DispatchContext → Board → Prop} {E : Board → Prop}
    {item : WorkItem} (hresult : ∀ result, Q { ctx with result := result } w)
    (hlaunch : ∀ claimed, ctx.runPreFlight item = none → ctx.claimOrSkipBranch item = .ok claimed →
      Prog.Meets (boardContract cond) (fun outcome => Q (claimed.afterLaunch item outcome))
        (fun _ => E) (claimed.launchWithFailureMode item) w) :
    Prog.Meets (boardContract cond) Q (fun _ => E) (ctx.dispatchCandidate item) w := by
  unfold dispatchCandidate
  split
  · rename_i skipped hskipped
    obtain ⟨result, rfl⟩ := withResult_of_runPreFlight hskipped
    exact hresult result
  · rename_i hpasses
    split
    · rename_i skipped hskipped
      obtain ⟨result, rfl⟩ := withResult_of_claimOrSkipBranch hskipped
      exact hresult result
    · rename_i claimed hok
      exact Prog.meets_bind (hlaunch claimed hpasses hok)

theorem dispatchCandidate_spec {item : WorkItem} (h : Follows ctx₀ ctx launched)
    (hw : Launched base w launched) (hresolved : ctx₀.resolveCandidate item.id = .ok item)
    (htodo : item.status = .todo) (hunlinked : isTruthyText item.linked_run_id = false)
    (hleaf : isContainerCandidate item ctx₀.childrenParentIds = false)
    (hfresh : getTargetBranch item = none → item.id ∉ launched.map WorkItem.id) :
    Prog.Meets passContract (Continues base ctx₀ launched item.id)
      (fun _ => Stops base ctx₀) (ctx.dispatchCandidate item) w := by
  apply dispatchCandidate_rule
  · exact fun result => (h.withResult result).continues hw item.id
  · intro claimed hpasses hok
    obtain ⟨hclaims, huncontended⟩ := claims_of_claimOrSkipBranch hok
    have hadmits : ctx₀.Admits item := by
      have hready := (passes_of_runPreFlight hpasses).2.2.1
      obtain ⟨result, active, branches, launches, accepted, rfl⟩ := h.same
      exact ⟨hresolved, htodo, hunlinked, hleaf, hready, huncontended⟩
    have hwithin := h.launch hadmits hpasses hclaims hfresh
    have hmember : ∀ other ∈ launched ++ [item], other ∈ launched ∨ other.id = item.id := by
      intro other hother
      rcases List.mem_append.1 hother with hother | hother
      · exact Or.inl hother
      · exact Or.inr (congrArg WorkItem.id (List.mem_singleton.1 hother))
    refine (launchWithFailureMode_spec claimed item hw).mono ?_ ?_
    · intro outcome w' hleaves
      cases outcome with
      | launched ctx' =>
          obtain ⟨hlaunched, result, rfl⟩ := hleaves
          exact ⟨_, hlaunched, h.count hclaims hwithin result, hmember⟩
      | claimedButFailed detail =>
          exact ⟨_, hleaves, (h.count hclaims hwithin claimed.result).withResult _, hmember⟩
      | skipped ctx' detail =>
          obtain ⟨hlaunched, rfl⟩ := hleaves
          exact ((h.release hclaims).withResult _).continues hlaunched item.id
    · intro error w' hthrown
      unfold AcceptedAtThrow at hthrown
      split at hthrown
      · exact ⟨_, hthrown, hwithin⟩
      · exact ⟨_, hthrown, h.within⟩

/-- An id without a candidate changes the result only. -/
theorem withResult_of_resolveCandidate (h : ctx.resolveCandidate id = .error skipped) :
    ∃ result, skipped = { ctx with result := result } := by
  unfold resolveCandidate at h
  repeat' split at h
  all_goals cases h
  all_goals exact ⟨_, rfl⟩

/-- What becomes of an id: a result, a transition to refinement, or the dispatch of its candidate. -/
theorem processCandidate_rule {Q : DispatchContext → Board → Prop} {E : Board → Prop} {id : String}
    (hresult : ∀ result w', w'.accepted = w.accepted → Q { ctx with result := result } w')
    (hthrow : ∀ w', w'.accepted = w.accepted → E w')
    (hdispatch : ∀ item, ctx.resolveCandidate id = .ok item → item.status = .todo →
      isTruthyText item.linked_run_id = false →
      isContainerCandidate item ctx.childrenParentIds = false →
      Prog.Meets (boardContract cond) Q (fun _ => E) (ctx.dispatchCandidate item) w) :
    Prog.Meets (boardContract cond) Q (fun _ => E) (ctx.processCandidate id) w := by
  unfold processCandidate
  split
  · rename_i skipped hskipped
    obtain ⟨result, rfl⟩ := withResult_of_resolveCandidate hskipped
    exact hresult result w rfl
  · rename_i item hok
    refine Prog.meets_ite (fun _ => hresult ctx.result w rfl) fun _ => ?_
    refine Prog.meets_ite (fun _ => hresult _ w rfl) fun hunlinked => ?_
    refine Prog.meets_ite (fun _ => hresult _ w rfl) fun htodo => ?_
    refine Prog.meets_ite (fun _ => hresult _ w rfl) fun hleaf => ?_
    refine Prog.meets_ite (fun _ => ?_) fun _ => ?_
    · -- the gate fires: the item moves to refinement
      refine Prog.meets_bind ((keepsAccepted (updateStatus_uses _ _ _)).mono ?_ ?_)
      · exact fun _ w' hsame => hresult _ w' hsame
      · exact fun _ w' hsame => hthrow w' hsame
    · exact hdispatch item hok (by simpa using htodo) (by simpa using hunlinked)
        (by simpa using hleaf)

theorem SameLimits.childrenParentIds (h : SameLimits ctx₀ ctx) :
    ctx.childrenParentIds = ctx₀.childrenParentIds := by
  obtain ⟨result, active, branches, launches, accepted, rfl⟩ := h
  rfl

theorem processCandidate_spec (h : Follows ctx₀ ctx launched) (hw : Launched base w launched)
    (hids : ∀ id item, ctx₀.resolveCandidate id = .ok item → item.id = id)
    (hfresh : ∀ item, ctx₀.resolveCandidate id = .ok item → getTargetBranch item = none → item.id
      ∉ launched.map WorkItem.id) :
    Prog.Meets passContract (Continues base ctx₀ launched id) (fun _ => Stops base ctx₀)
      (ctx.processCandidate id) w := by
  apply processCandidate_rule
  · exact fun result w' hsame => (h.withResult result).continues (hw.of_accepted hsame) id
  · exact fun w' hsame => ⟨launched, hw.of_accepted hsame, h.within⟩
  · intro item hok htodo hunlinked hleaf
    have hresolved := h.same.resolveCandidate.1 hok
    obtain rfl := hids id item hresolved
    rw [h.same.childrenParentIds] at hleaf
    exact dispatchCandidate_spec h hw hresolved htodo hunlinked hleaf (hfresh item hresolved)

/-- **The loop.** No item without a target branch is a candidate twice; then every outcome of the
launches keeps them within the budgets. -/
theorem processCandidates_spec (ids : List String) (h : Follows ctx₀ ctx launched)
    (hw : Launched base w launched)
    (hids : ∀ id item, ctx₀.resolveCandidate id = .ok item → item.id = id)
    (honce : ∀ id item, ctx₀.resolveCandidate id = .ok item → getTargetBranch item = none →
      ids.count id ≤ 1)
    (hfresh : ∀ item ∈ launched, getTargetBranch item = none → item.id ∉ ids) :
    Prog.Meets passContract (fun _ => Stops base ctx₀) (fun _ => Stops base ctx₀)
      (ctx.processCandidates ids) w := by
  induction ids generalizing ctx launched w with
  | nil => exact ⟨launched, hw, h.within⟩
  | cons id ids ih =>
      refine Prog.meets_bind ((processCandidate_spec h hw hids ?_).mono ?_ fun _ _ hstops => hstops)
      · -- the candidate was launched before only if it is in the rest of the list again
        intro item hresolved hnone hmem
        obtain ⟨other, hother, hsame⟩ := List.mem_map.1 hmem
        have hotherResolved := (h.within.admitted other hother).resolved
        have hid := hids id item hresolved
        rw [hsame, hid, hresolved] at hotherResolved
        obtain rfl := Except.ok.inj hotherResolved
        exact hfresh item hother hnone (hid ▸ List.mem_cons_self)
      · rintro ctx' w' ⟨launched', hw', h', hmember⟩
        refine ih h' hw' (fun id' item hresolved hnone => ?_) fun item hitem hnone => ?_
        · have hcount := honce id' item hresolved hnone
          rw [List.count_cons] at hcount
          omega
        · rcases hmember item hitem with hbefore | rfl
          · exact fun hmem => hfresh item hbefore hnone (List.mem_cons_of_mem _ hmem)
          · intro hmem
            have hcount := honce item.id item (h'.within.admitted item hitem).resolved hnone
            rw [List.count_cons_self] at hcount
            have hpositive := List.count_pos_iff.2 hmem
            omega

end Loop

end DispatchContext

end Nexus
