import Nexus.Kanban.DispatchLimits
import Nexus.Kanban.RunLinks

/-!
# What a pass does to the items

What the answers of its operations tell about a dispatch pass: the copies of the project's items
that its count of active items goes by, the row that a transition has read, how many runs it was
accepted, and the item whose accepted run it is linking. A pass requests a run only while its own
count is below the cap of the project, links it before it does anything else, and writes a
transition over the row it has read (`dispatchWorkItems_keeps`).
-/

set_option autoImplicit false

namespace Nexus

/-! ## Traces -/

/-- Where a pass is with the run that Core has accepted last. -/
inductive LaunchPhase where
  | idle
  | requested (projectId itemId : String)
  | linked (itemId : String)
  deriving DecidableEq

/-- The item whose run a pass is linking. -/
def LaunchPhase.item? : LaunchPhase → Option String
  | .idle => none
  | .requested _ itemId => some itemId
  | .linked itemId => some itemId

structure PassTrace where
  copies : List WorkItem := []
  found : Option WorkItem := none
  launches : Nat := 0
  phase : LaunchPhase := .idle

/-- The copy of an item that goes back to `todo`. -/
def WorkItem.backToTodo (id : String) (item : WorkItem) : WorkItem :=
  if item.id = id ∧ item.status = .inProgress then { item with status := .todo } else item

/-- The copy of an item that loses its links. -/
def WorkItem.unlink (id : String) (item : WorkItem) : WorkItem :=
  if item.id = id then item.withLinks none else item

/-- The row with the id has this status. -/
def PassTrace.sees (g : PassTrace) (id : String) (status : Option WorkItemStatus) : PassTrace :=
  if status = some .todo then { g with copies := g.copies.map (WorkItem.backToTodo id) } else g

def PassTrace.next (g : PassTrace) : (o : BoardOp) → o.Ans → PassTrace
  | .findByProjectId _, .ok rows => { g with copies := rows }
  | .findByProjectAndId _ workItemId, .ok found =>
      PassTrace.sees { g with found := found } workItemId (found.map WorkItem.status)
  | .clearRunLinksIfMatches _ workItemId _, .ok true =>
      { g with copies := g.copies.map (WorkItem.unlink workItemId) }
  | .requestWorkflowRun request, .ok _ =>
      { g with
        launches := g.launches + 1
        phase := .requested request.item.project_id request.item.id }
  | .linkRunIfUnlinked _ workItemId _, .ok true => { g with phase := .linked workItemId }
  | .linkRunIfUnlinked _ _ _, _ => { g with phase := .idle }
  | .save entity, .ok _ => PassTrace.sees { g with phase := .idle } entity.id entity.status
  | .save _, .error _ => { g with phase := .idle }
  | _, _ => g

/-- The number of active items, as the pass has them, with the runs it was accepted. -/
def PassTrace.count (g : PassTrace) : Nat := countActiveProjectDispatches g.copies + g.launches

/-- The entity of a transition: the row that was read, with another status and other metadata. -/
def IsTransitionOf (found : WorkItem) (entity : WorkItemColumns) : Prop :=
  ∃ status metadata, entity = ({ found with status := status, metadata := metadata }).columns ∧
    (status = .todo ∨ status = .refinement ∨ status = found.status)

/-- What a pass issues under a cap. -/
def PassIssues (cap : Int) (g : PassTrace) : BoardOp → Prop
  | .requestWorkflowRun _ => g.phase = .idle ∧ (g.count : Int) < cap
  | .linkRunIfUnlinked projectId workItemId _ => g.phase = .requested projectId workItemId
  | .save entity => match g.phase with
    | .idle => ∃ found, g.found = some found ∧ IsTransitionOf found entity
    | .requested _ _ => False
    | .linked itemId => entity.id = itemId ∧ entity.status = some .inProgress
  | _ => g.phase = .idle

/-- The statements that link an accepted run do not throw. -/
def PassAnswers (g : PassTrace) : (o : BoardOp) → o.Ans → Prop
  | .linkRunIfUnlinked _ _ _, .error _ => False
  | .save _, .error _ => g.phase = .idle
  | .findByProjectAndId _ workItemId, .ok found => ∀ row, found = some row → row.id = workItemId
  | _, _ => True

/-- The contract of a pass under a cap. -/
abbrev passRules (cap : Int) : Contract BoardOp BoardOp.Ans PassTrace :=
  Pool.following PassTrace.next (PassIssues cap) PassAnswers

/-- The operations that a trace does not show. -/
def BoardOp.isUnseen : BoardOp → Bool
  | .findByIds _ | .findByExternalSyncRef _ _ _ | .findDependenciesByWorkItemIds _
  | .maxActivePerProject | .getWorkflowRunStatus _ | .runTransitionGate _ _ _ | .other => true
  | _ => false

section Operations

variable {cap : Int} {g : PassTrace} {o : BoardOp} {E : BoardError → PassTrace → Prop}

theorem tryBoard_keeps {Q : o.Ans → PassTrace → Prop} (hissue : PassIssues cap g o)
    (h : ∀ ans, PassAnswers g o ans → Q ans (g.next o ans)) :
    Prog.Meets (passRules cap) Q E (tryBoard o) g := by
  refine Prog.meets_op hissue ?_
  rintro ans g' ⟨rfl, hans⟩
  exact h ans hans

theorem awaitBoard_keeps {Q : o.Value → PassTrace → Prop} (hissue : PassIssues cap g o)
    (hok : ∀ value, PassAnswers g o (.ok value) → Q value (g.next o (.ok value)))
    (herror : ∀ message, PassAnswers g o (.error message) →
      E (.error message) (g.next o (.error message))) :
    Prog.Meets (passRules cap) Q E (awaitBoard o) g := by
  refine Prog.meets_bind (tryBoard_keeps hissue fun ans hans => ?_)
  cases ans with
  | ok value => exact hok value hans
  | error message => exact herror message hans

theorem next_unseen (h : o.isUnseen = true) (ans : o.Ans) : g.next o ans = g := by
  cases o with
  | findByIds ids | findByExternalSyncRef projectId connectionId externalId
  | findDependenciesByWorkItemIds ids | maxActivePerProject | getWorkflowRunStatus runId
  | runTransitionGate projectId workItemId status | other => rfl
  | _ => cases h

theorem issues_unseen (h : o.isUnseen = true) (hidle : g.phase = .idle) : PassIssues cap g o := by
  cases o with
  | findByIds ids | findByExternalSyncRef projectId connectionId externalId
  | findDependenciesByWorkItemIds ids | maxActivePerProject | getWorkflowRunStatus runId
  | runTransitionGate projectId workItemId status | other => exact hidle
  | _ => cases h

/-- An operation that the trace does not show leads nowhere else. -/
theorem unseen_keeps {Q : o.Value → PassTrace → Prop} (h : o.isUnseen = true)
    (hidle : g.phase = .idle) (hok : ∀ value, Q value g) (herror : ∀ error, E error g) :
    Prog.Meets (passRules cap) Q E (awaitBoard o) g := by
  refine awaitBoard_keeps (issues_unseen h hidle) (fun value _ => ?_) fun message _ => ?_
  · rw [next_unseen h]
    exact hok value
  · rw [next_unseen h]
    exact herror _

theorem findDependencies_keeps {Q : List DependencyRecord → PassTrace → Prop} (ids : List String)
    (hidle : g.phase = .idle) (hok : ∀ value, Q value g) (herror : ∀ error, E error g) :
    Prog.Meets (passRules cap) Q E
      (KanbanWorkItemRepository.findDependenciesByWorkItemIds ids) g :=
  Prog.meets_ite (fun _ => hok []) fun _ => unseen_keeps rfl hidle hok herror

theorem findByIds_keeps {Q : List WorkItem → PassTrace → Prop} (ids : List String)
    (hidle : g.phase = .idle) (hok : ∀ value, Q value g) (herror : ∀ error, E error g) :
    Prog.Meets (passRules cap) Q E (KanbanWorkItemRepository.findByIds ids) g :=
  Prog.meets_ite (fun _ => hok []) fun _ => unseen_keeps rfl hidle hok herror

end Operations

/-! ## Copies -/

/-- A copy of the trace counts as active only where the item of the pass does. -/
structure Understates (item copy : WorkItem) : Prop where
  id : copy.id = item.id
  linked : isTruthyText copy.linked_run_id = true → isTruthyText item.linked_run_id = true
  current : isTruthyText copy.current_execution_id = true →
    isTruthyText item.current_execution_id = true
  status : copy.status = item.status ∨ copy.status = .todo ∧ item.status = .inProgress

section Copies

variable {item copy : WorkItem}

theorem understates_self (item : WorkItem) : Understates item item :=
  ⟨rfl, fun h => h, fun h => h, .inl rfl⟩

theorem Understates.active (h : Understates item copy)
    (hactive : isProjectDispatchActive copy = true) : isProjectDispatchActive item = true := by
  simp only [isProjectDispatchActive, Bool.and_eq_true, Bool.or_eq_true, decide_eq_true_eq]
    at hactive ⊢
  obtain ⟨hdone, hactive⟩ := hactive
  rcases h.status with hsame | ⟨-, hprogress⟩
  · rw [← hsame]
    refine ⟨hdone, ?_⟩
    rcases hactive with (hlinked | hcurrent) | hstatus
    · exact .inl (.inl (h.linked hlinked))
    · exact .inl (.inr (h.current hcurrent))
    · exact .inr hstatus
  · rw [hprogress]
    exact ⟨by decide, .inr (by decide)⟩

theorem Understates.unlink (h : Understates item copy) (id : String) :
    Understates item (copy.unlink id) := by
  rw [WorkItem.unlink]
  split
  · exact ⟨h.id, fun hlinked => (nomatch hlinked), fun hcurrent => (nomatch hcurrent), h.status⟩
  · exact h

theorem Understates.unlinked (h : Understates item copy) :
    Understates (item.withLinks none) (copy.unlink item.id) := by
  rw [WorkItem.unlink, if_pos h.id]
  exact ⟨h.id, fun hlinked => hlinked, fun hcurrent => hcurrent, h.status⟩

theorem Understates.backToTodo (h : Understates item copy) (id : String) :
    Understates item (copy.backToTodo id) := by
  rw [WorkItem.backToTodo]
  split
  · rename_i hreset
    refine ⟨h.id, h.linked, h.current, .inr ⟨rfl, ?_⟩⟩
    rcases h.status with hsame | ⟨-, hprogress⟩
    · exact hsame.symm.trans hreset.2
    · exact hprogress
  · exact h

theorem Understates.reset (h : Understates item copy) (hprogress : item.status = .inProgress) :
    Understates { item with status := .todo } (copy.backToTodo item.id) := by
  rw [WorkItem.backToTodo]
  split
  · exact ⟨h.id, h.linked, h.current, .inl rfl⟩
  · rename_i hkept
    refine ⟨h.id, h.linked, h.current, .inl ?_⟩
    rcases h.status with hsame | ⟨htodo, -⟩
    · exact absurd ⟨h.id, hsame.trans hprogress⟩ hkept
    · exact htodo

end Copies

/-- Every right element changes, and one left element with its own. -/
theorem forall₂_map_at {α β : Type} {R : α → β → Prop} {f : β → β} {a a' : α} {done rest : List α}
    {bs : List β} (h : List.Forall₂ R (done ++ a :: rest) bs) (hf : ∀ x y, R x y → R x (f y))
    (ha : ∀ y, R a y → R a' (f y)) : List.Forall₂ R (done ++ a' :: rest) (bs.map f) := by
  induction done generalizing bs with
  | nil =>
      obtain ⟨b, bs', hb, hrest, rfl⟩ := List.forall₂_cons_left_iff.1 h
      exact .cons (ha b hb) (List.forall₂_map_right_iff.2 (hrest.imp hf))
  | cons x done ih =>
      obtain ⟨b, bs', hb, hrest, rfl⟩ := List.forall₂_cons_left_iff.1 h
      exact .cons (hf x b hb) (ih hrest)

/-- Before its first launch a pass has at least the active items of its trace. -/
structure Tracks (g : PassTrace) (items : List WorkItem) : Prop where
  idle : g.phase = .idle
  launches : g.launches = 0
  copies : List.Forall₂ Understates items g.copies

section Tracked

variable {g : PassTrace} {items done rest : List WorkItem} {item : WorkItem}

theorem Tracks.count_le (h : Tracks g items) : g.count ≤ countActiveProjectDispatches items := by
  rw [PassTrace.count, h.launches]
  exact length_filter_le_of_forall₂ h.copies fun _ _ hcopy => hcopy.active

theorem Tracks.map {f : WorkItem → WorkItem} (h : Tracks g items)
    (hf : ∀ item copy, Understates item copy → Understates item (f copy)) :
    Tracks { g with copies := g.copies.map f } items :=
  ⟨h.idle, h.launches, List.forall₂_map_right_iff.2 (h.copies.imp hf)⟩

/-- The copies change, and one item with them. -/
theorem Tracks.map_at {f : WorkItem → WorkItem} {item' : WorkItem}
    (h : Tracks g (done ++ item :: rest))
    (hf : ∀ item copy, Understates item copy → Understates item (f copy))
    (hitem : ∀ copy, Understates item copy → Understates item' (f copy)) :
    Tracks { g with copies := g.copies.map f } (done ++ item' :: rest) := by
  exact ⟨h.idle, h.launches, forall₂_map_at h.copies hf hitem⟩

end Tracked

/-! ## Transitions -/

/-- The trace after a transition of an item. -/
structure Lowered (id : String) (g g' : PassTrace) : Prop where
  idle : g'.phase = .idle
  launches : g'.launches = g.launches
  copies : g'.copies = g.copies ∨ g'.copies = g.copies.map (WorkItem.backToTodo id)

variable {id : String} {g' : PassTrace}

section Transitions

variable {cap : Int} {g : PassTrace}

theorem backToTodo_twice (id : String) (copies : List WorkItem) :
    (copies.map (WorkItem.backToTodo id)).map (WorkItem.backToTodo id) =
      copies.map (WorkItem.backToTodo id) := by
  rw [List.map_map]
  apply List.map_congr_left
  intro copy _
  simp only [Function.comp, WorkItem.backToTodo]
  split
  · rw [if_neg]
    rintro ⟨-, hstatus⟩
    cases hstatus
  · rfl

theorem Lowered.trans {g₁ g₂ : PassTrace} (h : Lowered id g g₁) (h' : Lowered id g₁ g₂) :
    Lowered id g g₂ := by
  refine ⟨h'.idle, h'.launches.trans h.launches, ?_⟩
  rcases h.copies with hsame | hmapped
  · rw [← hsame]
    exact h'.copies
  · right
    rcases h'.copies with hsame' | hmapped'
    · exact hsame'.trans hmapped
    · rw [hmapped', hmapped, backToTodo_twice]

theorem sees_lowered (id : String) (status : Option WorkItemStatus) (hidle : g'.phase = .idle)
    (hlaunches : g'.launches = g.launches) (hcopies : g'.copies = g.copies) :
    Lowered id g (g'.sees id status) := by
  rw [PassTrace.sees]
  split
  · exact ⟨hidle, hlaunches, .inr (congrArg _ hcopies)⟩
  · exact ⟨hidle, hlaunches, .inl hcopies⟩

@[simp] theorem sees_found (g : PassTrace) (id : String) (status : Option WorkItemStatus) :
    (g.sees id status).found = g.found := by
  rw [PassTrace.sees]
  split <;> rfl

/-- The row that a transition works on. -/
theorem requireWorkItem_keeps (projectId workItemId : String) (hidle : g.phase = .idle) :
    Prog.Meets (passRules cap)
      (fun item g' => item.id = workItemId ∧ Lowered workItemId g g' ∧ g'.found = some item ∧
        (item.status = .todo → g'.copies = g.copies.map (WorkItem.backToTodo workItemId)) ∧
        (item.status ≠ .todo → g'.copies = g.copies))
      (fun _ g' => Lowered workItemId g g') (requireWorkItem projectId workItemId) g := by
  refine Prog.meets_bind (awaitBoard_keeps hidle ?_ ?_)
  · intro found hfound
    have hlowered : Lowered workItemId g
        (g.next (.findByProjectAndId projectId workItemId) (.ok found)) :=
      sees_lowered workItemId _ hidle rfl rfl
    cases found with
    | none => exact hlowered
    | some item =>
        refine ⟨hfound item rfl, hlowered, sees_found .., fun htodo => ?_, fun hother => ?_⟩
        · simp [PassTrace.next, PassTrace.sees, htodo]
        · simp [PassTrace.next, PassTrace.sees, hother]
  · exact fun message _ => ⟨hidle, rfl, .inl rfl⟩

/-- The save that ends a transition. -/
theorem saveTransition_keeps {item : WorkItem} {entity : WorkItemColumns}
    {E : BoardError → PassTrace → Prop} {Q : Option WorkItem → PassTrace → Prop}
    (hidle : g.phase = .idle) (hfound : g.found = some item)
    (htransition : IsTransitionOf item entity)
    (hok : ∀ saved, Q saved (g.next (.save entity) (.ok saved))) (herror : ∀ error, E error g) :
    Prog.Meets (passRules cap) Q E (awaitBoard (.save entity)) g := by
  refine awaitBoard_keeps ?_ (fun saved _ => hok saved) fun message _ => ?_
  · rw [PassIssues, hidle]
    exact ⟨item, hfound, htransition⟩
  · have hsame : g.next (.save entity) (.error message) = g := by
      rw [PassTrace.next, ← hidle]
    rw [hsame]
    exact herror _

theorem updateStatus_keeps (projectId workItemId : String) {status : WorkItemStatus}
    (hstatus : status = .todo ∨ status = .refinement) (hidle : g.phase = .idle) :
    Prog.Meets (passRules cap)
      (fun _ g' => Lowered workItemId g g' ∧
        (status = .todo → g'.copies = g.copies.map (WorkItem.backToTodo workItemId)))
      (fun _ g' => Lowered workItemId g g') (updateStatus projectId workItemId status) g := by
  refine (requireWorkItem_keeps projectId workItemId hidle).bind ?_
  rintro item g₁ ⟨hid, hlowered, hfound, htodo, hother⟩
  refine Prog.meets_ite (fun hsame => ?_) fun hdiffers => ?_
  · refine Prog.meets_bind (findDependencies_keeps _ hlowered.idle (fun _ => ?_) fun _ => hlowered)
    exact ⟨hlowered, fun hreset => htodo (hsame.trans hreset)⟩
  · have hsaved : ∀ (s : WorkItemStatus) (metadata : Option Json) (saved : Option WorkItem),
        Lowered workItemId g (g₁.next (.save { item with
          status := s, metadata := metadata }.columns) (.ok saved)) := fun s metadata saved =>
      hid ▸ hlowered.trans (hid ▸ sees_lowered item.id (some s) rfl rfl rfl)
    refine Prog.meets_bind (unseen_keeps rfl hlowered.idle (fun gate => ?_) fun _ => hlowered)
    cases gate with
    | blocked heldAt failures =>
        refine Prog.meets_bind (saveTransition_keeps hlowered.idle hfound
          ⟨_, _, rfl, .inr (.inr rfl)⟩ (fun saved => ?_) fun _ => hlowered)
        exact hsaved item.status _ saved
    | passed =>
        refine Prog.meets_bind (saveTransition_keeps hlowered.idle hfound
          ⟨_, _, rfl, hstatus.imp_right .inl⟩ (fun saved => ?_) fun _ => hlowered)
        have hnow := hsaved status (some (clearGateMetadata item.metadata)) saved
        refine Prog.meets_bind (findDependencies_keeps _ hnow.idle (fun _ => ?_) fun _ => hnow)
        refine unseen_keeps rfl hnow.idle (fun _ => ⟨hnow, fun hreset => ?_⟩) fun _ => hnow
        -- the copies are lowered by the save, after they were not by the read
        subst hreset
        show (PassTrace.sees { g₁ with phase := .idle } item.id (some .todo)).copies = _
        rw [PassTrace.sees, if_pos rfl, hid]
        exact congrArg _ (hother hdiffers)

end Transitions

/-! ## Reconciliation -/

/-- What a pass keeps to, whatever it throws. -/
abbrev PassKeeps {α : Type} (cap : Int) (p : BoardProg α) (g : PassTrace)
    (Q : α → PassTrace → Prop) : Prop :=
  Prog.Meets (passRules cap) Q (fun _ _ => True) p g

section Reconciliation

variable {cap : Int} {g : PassTrace} {done rest : List WorkItem} {item : WorkItem}

/-- The transition of an item back to `todo` that was not made, or not confirmed. -/
theorem Tracks.lowered {items : List WorkItem} (h : Tracks g items) (hlowered : Lowered id g g') :
    Tracks g' items := by
  refine ⟨hlowered.idle, hlowered.launches.trans h.launches, ?_⟩
  rcases hlowered.copies with hsame | hmapped
  · exact hsame ▸ h.copies
  · rw [hmapped]
    exact (h.map fun _ _ hcopy => hcopy.backToTodo id).copies

/-- The transition of an item back to `todo`. -/
theorem Tracks.reset (h : Tracks g (done ++ item :: rest)) (hprogress : item.status = .inProgress)
    (hlowered : Lowered item.id g g')
    (hcopies : g'.copies = g.copies.map (WorkItem.backToTodo item.id)) :
    Tracks g' (done ++ { item with status := .todo } :: rest) := by
  refine ⟨hlowered.idle, hlowered.launches.trans h.launches, ?_⟩
  rw [hcopies]
  exact (h.map_at (fun _ _ hcopy => hcopy.backToTodo item.id)
    fun _ hcopy => hcopy.reset hprogress).copies

theorem clearTerminalLinkedRun_keeps (deps : DispatchCoreDeps) (result : DispatchResult)
    (pushSkip : Bool) (h : Tracks g (done ++ item :: rest)) :
    PassKeeps cap (clearTerminalLinkedRun deps item result pushSkip) g fun r g' =>
      Tracks g' (done ++ r.item :: rest) := by
  rw [clearTerminalLinkedRun]
  split
  · exact h
  · rename_i runId _
    refine Prog.meets_ite (fun _ => h) fun _ => ?_
    refine Prog.meets_bind (tryBoard_keeps (issues_unseen rfl h.idle) fun ans _ => ?_)
    rw [next_unseen rfl]
    cases ans with
    | error message => exact Prog.meets_ite (fun _ => h) fun _ => h
    | ok report =>
        refine Prog.meets_ite (fun _ => h) fun _ => ?_
        refine Prog.meets_bind (awaitBoard_keeps h.idle (fun cleared _ => ?_) fun _ _ => trivial)
        cases cleared with
        | false => exact h
        | true =>
            have hcleared : Tracks { g with copies := g.copies.map (WorkItem.unlink item.id) }
                (done ++ item.withLinks none :: rest) :=
              h.map_at (fun _ _ hcopy => hcopy.unlink item.id) fun _ hcopy => hcopy.unlinked
            refine Prog.meets_ite (fun hnot => (nomatch hnot)) fun _ => ?_
            refine Prog.meets_ite (fun hfailed => ?_) fun _ => hcleared
            refine ((updateStatus_keeps item.project_id item.id (.inl rfl) hcleared.idle).mono
              (fun _ _ hdone => hdone) fun _ _ _ => trivial).bind ?_
            rintro ⟨⟩ g' ⟨hlowered, hcopies⟩
            exact hcleared.reset hfailed.1 hlowered (hcopies rfl)

theorem append_singleton_append (done rest : List WorkItem) (item : WorkItem) :
    (done ++ [item]) ++ rest = done ++ item :: rest := by
  rw [List.append_assoc, List.singleton_append]

theorem reconcileAllLinkedRuns_keeps (deps : DispatchCoreDeps) (pushSkip : Bool)
    {items : List WorkItem} (result : DispatchResult) (h : Tracks g (done ++ items)) :
    PassKeeps cap (reconcileAllLinkedRuns deps pushSkip items result) g fun r g' =>
      Tracks g' (done ++ r.1) := by
  induction items generalizing g done result with
  | nil => exact h
  | cons item items ih =>
      refine (clearTerminalLinkedRun_keeps deps result pushSkip h).bind ?_
      intro cleared g₁ hcleared
      rw [← append_singleton_append] at hcleared
      refine (ih cleared.result hcleared).bind ?_
      rintro ⟨items', result'⟩ g₂ hrest
      rw [append_singleton_append] at hrest
      exact hrest

theorem reconcileSelectedScope_keeps (deps : DispatchCoreDeps) (scope : ReconcileScope)
    {items : List WorkItem} (requestedById : OrderedMap String WorkItem) (result : DispatchResult)
    (h : Tracks g (done ++ items)) :
    PassKeeps cap (reconcileSelectedScope deps scope items requestedById result) g fun r g' =>
      Tracks g' (done ++ r.1) := by
  induction items generalizing g done requestedById result with
  | nil => exact h
  | cons item items ih =>
      have hcons : ∀ {g₁ : PassTrace} {item' : WorkItem} (byId : OrderedMap String WorkItem)
          (result' : DispatchResult), Tracks g₁ (done ++ item' :: items) →
          PassKeeps cap ((reconcileSelectedScope deps scope items byId result').bind
            fun (r : List WorkItem × OrderedMap String WorkItem × DispatchResult) =>
              .pure (item' :: r.1, r.2.1, r.2.2)) g₁ fun r g' => Tracks g' (done ++ r.1) := by
        intro g₁ item' byId result' htracks
        rw [← append_singleton_append] at htracks
        refine (ih byId result' htracks).bind ?_
        rintro ⟨items', byId', result''⟩ g₂ hrest
        rw [append_singleton_append] at hrest
        exact hrest
      refine Prog.meets_ite (fun _ => hcons requestedById result h) fun _ => ?_
      refine (clearTerminalLinkedRun_keeps deps result false h).bind ?_
      intro cleared g₁ hcleared
      exact hcons _ cleared.result hcleared

theorem resetOrphan_keeps (deps : DispatchCoreDeps) (result : DispatchResult)
    (h : Tracks g (done ++ item :: rest)) :
    PassKeeps cap (resetOrphan deps item result) g fun r g' => Tracks g' (done ++ r.1 :: rest) := by
  refine Prog.meets_ite (fun horphan => ?_) fun _ => h
  have hprogress : item.status = .inProgress := by
    simp only [isOrphanedInProgressItem, Bool.and_eq_true, decide_eq_true_eq] at horphan
    exact horphan.2.1.1
  refine Prog.meets_handle (Prog.Meets.bind
    (updateStatus_keeps item.project_id item.id (.inl rfl) h.idle |>.mono (fun _ _ hdone => hdone)
      fun _ _ hlowered => h.lowered hlowered) ?_)
  rintro ⟨⟩ g' ⟨hlowered, hcopies⟩
  exact h.reset hprogress hlowered (hcopies rfl)

theorem reconcileOrphans_keeps (deps : DispatchCoreDeps) {items : List WorkItem}
    (result : DispatchResult) (h : Tracks g (done ++ items)) :
    PassKeeps cap (reconcileOrphans deps items result) g fun r g' => Tracks g' (done ++ r.1) := by
  induction items generalizing g done result with
  | nil => exact h
  | cons item items ih =>
      refine (resetOrphan_keeps deps result h).bind ?_
      rintro ⟨item', result'⟩ g₁ hreset
      rw [← append_singleton_append] at hreset
      refine (ih result' hreset).bind ?_
      rintro ⟨items', result''⟩ g₂ hrest
      rw [append_singleton_append] at hrest
      exact hrest

end Reconciliation

/-! ## The context -/

section Prepare

variable {cap : Int} {g : PassTrace}

variable {r : Reconciliation}

theorem reconcileRunStatus_keeps (deps : DispatchCoreDeps) (options : DispatchCoreOptions)
    (requestedItems : List WorkItem) (h : Tracks g r.projectItems) :
    PassKeeps cap (reconcileRunStatus deps options requestedItems r) g fun r' g' =>
      Tracks g' r'.projectItems := by
  have htracks : Tracks g ([] ++ r.projectItems) := h
  refine Prog.meets_ite (fun _ => Prog.meets_ite (fun _ => ?_) fun _ => ?_) fun _ => h
  · refine (reconcileSelectedScope_keeps deps _ r.requestedById r.result htracks).bind ?_
    rintro ⟨items, byId, result⟩ g' hdone
    exact hdone
  · refine (reconcileAllLinkedRuns_keeps deps true r.result htracks).bind ?_
    rintro ⟨items, result⟩ g' hdone
    exact hdone

theorem reconcileOrphanStatus_keeps (deps : DispatchCoreDeps) (options : DispatchCoreOptions)
    (h : Tracks g r.projectItems) :
    PassKeeps cap (reconcileOrphanStatus deps options r) g fun r' g' =>
      Tracks g' r'.projectItems := by
  have htracks : Tracks g ([] ++ r.projectItems) := h
  refine Prog.meets_ite (fun _ => ?_) fun _ => h
  refine (reconcileOrphans_keeps deps r.result htracks).bind ?_
  rintro ⟨items, result⟩ g' hdone
  exact hdone

theorem refreshRequested_keeps (options : DispatchCoreOptions) (h : Tracks g r.projectItems) :
    PassKeeps cap (refreshRequested options r) g fun r' g' => Tracks g' r'.projectItems := by
  rw [refreshRequested]
  split
  · exact h
  · refine Prog.meets_bind (Prog.meets_handle (Prog.meets_bind ?_))
    exact findByIds_keeps _ h.idle (fun _ => h) fun _ => h

theorem readAndReconcile_keeps (deps : DispatchCoreDeps) (options : DispatchCoreOptions)
    (hidle : g.phase = .idle) (hlaunches : g.launches = 0) :
    PassKeeps cap (readAndReconcile deps options) g fun r g' => Tracks g' r.2.projectItems := by
  refine Prog.meets_bind (awaitBoard_keeps hidle (fun projectItems _ => ?_) fun _ _ => trivial)
  have hread : Tracks (g.next (.findByProjectId options.projectId) (.ok projectItems))
      projectItems := ⟨hidle, hlaunches, List.forall₂_same.2 fun item _ => understates_self item⟩
  refine Prog.meets_bind (findDependencies_keeps _ hread.idle (fun dependencies => ?_)
    fun _ => trivial)
  have hrequested : PassKeeps cap (loadRequestedItems options)
      (g.next (.findByProjectId options.projectId) (.ok projectItems))
      fun _ g' => Tracks g' projectItems := by
    rw [loadRequestedItems]
    split
    · exact hread
    · exact findByIds_keeps _ hread.idle (fun _ => hread) fun _ => trivial
  refine hrequested.bind fun requestedItems g₁ h₁ => ?_
  refine (reconcileRunStatus_keeps deps options requestedItems h₁).bind fun r₁ g₂ h₂ => ?_
  refine (reconcileOrphanStatus_keeps deps options h₂).bind fun r₂ g₃ h₃ => ?_
  exact (refreshRequested_keeps options h₃).bind fun r₃ g₄ h₄ => h₄

/-- The count of a pass is at least the one of its trace, and its cap is this one. -/
structure Counted (cap : Int) (ctx : DispatchContext) (g : PassTrace) : Prop where
  idle : g.phase = .idle
  count : g.count ≤ ctx.initialProjectActiveCount + ctx.acceptedProjectLaunches
  cap : ctx.maxActivePerProject = some cap

theorem prepareDispatchContext_keeps (deps : DispatchCoreDeps) {options : DispatchCoreOptions}
    (hcap : options.maxActivePerProject = some cap) (hidle : g.phase = .idle)
    (hlaunches : g.launches = 0) :
    PassKeeps cap (prepareDispatchContext deps options) g fun ctx g' => Counted cap ctx g' := by
  rw [prepareDispatchContext, hcap]
  have htoolchains : PassKeeps cap (loadProjectRuntimeToolchains deps) g fun _ g' => g' = g :=
    Prog.meets_ite (fun _ => unseen_keeps rfl hidle (fun _ => rfl) fun _ => trivial) fun _ => rfl
  refine htoolchains.bind ?_
  rintro ⟨⟩ g' rfl
  refine (readAndReconcile_keeps deps options hidle hlaunches).bind ?_
  rintro ⟨dependencies, r⟩ g' htracks
  exact ⟨htracks.idle, htracks.count_le, rfl⟩

end Prepare

/-! ## The loop -/

section Launch

variable {cap : Int} {g : PassTrace} {ctx : DispatchContext} {item : WorkItem}

/-- Only the result, the agents and the branches change. -/
theorem Counted.of_same {ctx' : DispatchContext} (h : Counted cap ctx g)
    (hinitial : ctx'.initialProjectActiveCount = ctx.initialProjectActiveCount)
    (haccepted : ctx'.acceptedProjectLaunches = ctx.acceptedProjectLaunches)
    (hcap : ctx'.maxActivePerProject = ctx.maxActivePerProject) : Counted cap ctx' g :=
  ⟨h.idle, by rw [hinitial, haccepted]; exact h.count, hcap.trans h.cap⟩

/-- The run of a pass is linked, or its link has failed. -/
def Settled (n : Nat) (g : PassTrace) : Prop := g.phase = .idle ∧ g.count = n

/-- A link that fails says why. -/
theorem linkAcceptedRun_keeps (item : WorkItem) (runId : String)
    (hphase : g.phase = .requested item.project_id item.id) :
    Prog.Meets (passRules cap) (fun _ g' => Settled g.count g')
      (fun error g' => error.message ≠ "" ∧ Settled g.count g') (linkAcceptedRun item runId) g := by
  have hnotLinked : s!"Work item {item.id} is already linked to a workflow run" ≠ "" :=
    message_ne_empty (message_ne_empty (by decide))
  have hnotConfirmed : s!"Dispatch mutation was not confirmed for work item {item.id}" ≠ "" :=
    message_ne_empty (by decide)
  refine Prog.meets_bind (awaitBoard_keeps hphase (fun linked _ => ?_) fun _ h => h.elim)
  cases linked with
  | false => exact ⟨hnotLinked, rfl, rfl⟩
  | true =>
      refine Prog.meets_ite (fun hnot => (nomatch hnot)) fun _ => ?_
      refine Prog.meets_bind (awaitBoard_keeps ⟨rfl, rfl⟩ (fun saved _ => ?_) fun _ h => ?_)
      · cases saved with
        | none => exact ⟨hnotConfirmed, rfl, rfl⟩
        | some saved =>
            exact Prog.meets_ite (fun _ => ⟨hnotConfirmed, rfl, rfl⟩) fun _ => ⟨rfl, rfl⟩
      · cases h

theorem launchCandidate_keeps (item : WorkItem) (h : Counted cap ctx g)
    (hroom : (g.count : Int) < cap) :
    Prog.Meets (passRules cap)
      (fun ctx' g' => Settled (g.count + 1) g' ∧ ∃ result, ctx' = ctx.linked item result)
      (fun error g' => Settled
        (if DispatchContext.isAcceptedRunLinkError error then g.count + 1 else g.count) g')
      (ctx.launchCandidate item) g := by
  refine Prog.meets_bind
    (awaitBoard_keeps ⟨h.idle, hroom⟩ (fun runId _ => ?_) fun message _ => ?_)
  · have hcount : (g.next (.requestWorkflowRun (ctx.runRequest item)) (.ok runId)).count =
        g.count + 1 := rfl
    refine Prog.meets_bind (Prog.meets_handle ((linkAcceptedRun_keeps item runId rfl).mono ?_ ?_))
    · intro saved g' hsettled
      exact ⟨hcount ▸ hsettled, _, rfl⟩
    · rintro error g' ⟨hmessage, hsettled⟩
      have hlink : DispatchContext.isAcceptedRunLinkError (.acceptedRunLinkError error.message) =
          true := decide_eq_true hmessage
      rw [Prog.meets_fail, if_pos hlink, ← hcount]
      exact hsettled
  · exact ⟨h.idle, rfl⟩

theorem launchWithFailureMode_keeps (h : Counted cap ctx g) (hroom : (g.count : Int) < cap) :
    PassKeeps cap (ctx.launchWithFailureMode item) g fun outcome g' =>
      Counted cap (ctx.afterLaunch item outcome) g' := by
  have hlaunch := launchCandidate_keeps item h hroom
  have hcount := h.count
  have hlaunched : ∀ {g' : PassTrace} {ctx' : DispatchContext}, Settled (g.count + 1) g' →
      ctx'.initialProjectActiveCount = ctx.initialProjectActiveCount →
      ctx'.acceptedProjectLaunches = ctx.acceptedProjectLaunches + 1 →
      ctx'.maxActivePerProject = ctx.maxActivePerProject → Counted cap ctx' g' := by
    intro g' ctx' hsettled hinitial haccepted hcap
    refine ⟨hsettled.1, ?_, hcap.trans h.cap⟩
    rw [hsettled.2, hinitial, haccepted]
    omega
  rw [DispatchContext.launchWithFailureMode]
  refine Prog.meets_ite (fun _ => ?_) fun _ => ?_
  · refine (hlaunch.mono (fun _ _ hdone => hdone) fun _ _ _ => trivial).bind ?_
    rintro ctx' g' ⟨hsettled, result, rfl⟩
    exact hlaunched hsettled rfl rfl rfl
  · refine Prog.meets_handle (Prog.meets_bind (hlaunch.mono ?_ ?_))
    · rintro ctx' g' ⟨hsettled, result, rfl⟩
      exact hlaunched hsettled rfl rfl rfl
    · intro error g' hsettled
      split
      · rename_i hlink
        rw [if_pos hlink] at hsettled
        exact hlaunched hsettled rfl rfl rfl
      · rename_i hlink
        rw [if_neg hlink] at hsettled
        have hreleased : Counted cap (ctx.releaseBranch item) g' := by
          rw [DispatchContext.releaseBranch]
          split
          · exact ⟨hsettled.1, hsettled.2 ▸ hcount, h.cap⟩
          · split <;> exact ⟨hsettled.1, hsettled.2 ▸ hcount, h.cap⟩
        exact hreleased.of_same rfl rfl rfl

theorem dispatchCandidate_keeps (h : Counted cap ctx g) :
    PassKeeps cap (ctx.dispatchCandidate item) g fun ctx' g' => Counted cap ctx' g' := by
  rw [DispatchContext.dispatchCandidate]
  split
  · rename_i skipped hskipped
    obtain ⟨result, rfl⟩ := DispatchContext.withResult_of_runPreFlight hskipped
    exact h.of_same rfl rfl rfl
  · rename_i hpasses
    split
    · rename_i skipped hskipped
      obtain ⟨result, rfl⟩ := DispatchContext.withResult_of_claimOrSkipBranch hskipped
      exact h.of_same rfl rfl rfl
    · rename_i claimed hok
      obtain ⟨⟨branches, rfl⟩, -, -, -⟩ := (DispatchContext.claims_of_claimOrSkipBranch hok).1
      have hroom := (DispatchContext.passes_of_runPreFlight hpasses).2.1
      have hcount := h.count
      simp only [canLaunchNewWork, h.cap, decide_eq_true_eq] at hroom
      refine Prog.meets_bind (launchWithFailureMode_keeps (h.of_same rfl rfl rfl) ?_)
      omega

theorem countActive_backToTodo (id : String) (copies : List WorkItem) :
    countActiveProjectDispatches (copies.map (WorkItem.backToTodo id)) ≤
      countActiveProjectDispatches copies := by
  refine length_filter_le_of_forall₂ (R := fun item copy => Understates item copy) ?_
    fun _ _ hcopy => hcopy.active
  rw [List.forall₂_map_right_iff, List.forall₂_same]
  exact fun item _ => (understates_self item).backToTodo id

theorem Counted.lowered (h : Counted cap ctx g) (hlowered : Lowered id g g') :
    Counted cap ctx g' := by
  refine ⟨hlowered.idle, Nat.le_trans ?_ h.count, h.cap⟩
  rw [PassTrace.count, PassTrace.count, hlowered.launches]
  rcases hlowered.copies with hsame | hmapped
  · exact Nat.le_of_eq (by rw [hsame])
  · rw [hmapped]
    exact Nat.add_le_add_right (countActive_backToTodo id g.copies) _

theorem processCandidate_keeps (h : Counted cap ctx g) (id : String) :
    PassKeeps cap (ctx.processCandidate id) g fun ctx' g' => Counted cap ctx' g' := by
  rw [DispatchContext.processCandidate]
  split
  · rename_i skipped hskipped
    obtain ⟨result, rfl⟩ := DispatchContext.withResult_of_resolveCandidate hskipped
    exact h.of_same rfl rfl rfl
  · rename_i item hok
    refine Prog.meets_ite (fun _ => h) fun _ => ?_
    refine Prog.meets_ite (fun _ => h.of_same rfl rfl rfl) fun _ => ?_
    refine Prog.meets_ite (fun _ => h.of_same rfl rfl rfl) fun _ => ?_
    refine Prog.meets_ite (fun _ => h.of_same rfl rfl rfl) fun _ => ?_
    refine Prog.meets_ite (fun _ => ?_) fun _ => dispatchCandidate_keeps h
    refine ((updateStatus_keeps item.project_id item.id (.inr rfl) h.idle).mono
      (fun _ _ hdone => hdone) fun _ _ _ => trivial).bind ?_
    rintro ⟨⟩ g' ⟨hlowered, -⟩
    exact (h.lowered hlowered).of_same rfl rfl rfl

theorem processCandidates_keeps (h : Counted cap ctx g) (ids : List String) :
    PassKeeps cap (ctx.processCandidates ids) g fun ctx' g' => Counted cap ctx' g' := by
  induction ids generalizing ctx g with
  | nil => exact h
  | cons id ids ih =>
      exact (processCandidate_keeps h id).bind fun ctx' g' hdone => ih hdone

/-- **A pass keeps to its rules.** -/
theorem dispatchWorkItems_keeps (deps : DispatchCoreDeps) {options : DispatchCoreOptions}
    (hcap : options.maxActivePerProject = some cap) :
    PassKeeps cap (dispatchWorkItems deps options) {} fun _ _ => True := by
  refine (prepareDispatchContext_keeps deps hcap rfl rfl).bind fun ctx g hctx => ?_
  exact (processCandidates_keeps hctx ctx.candidateIds).bind fun _ _ _ => trivial

end Launch

end Nexus
