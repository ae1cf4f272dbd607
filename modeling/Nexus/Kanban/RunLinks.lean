import Nexus.Kanban.LinkWriters
import Nexus.Lib.TableRows

/-!
# The run links of an item

Every writer gives an item both links or none, so the links agree in every interleaving. Half of the
writers save an entity that was read several operations earlier: a link that was set or cleared in
between is lost or comes back. In the runs in which the links of an item do not change between the
read and the save (`Undisturbed`), a link goes by a clear for its run and comes by a link only
(`run_links_kept`).
-/

set_option autoImplicit false

namespace Nexus

namespace Board

/-- Both links are null, or both name the same run. -/
def LinksAgree (w : Board) : Prop :=
  ∀ row ∈ w.items, row.current_execution_id = row.linked_run_id

/-- An operation removes the link to a run only by a clear for the run, and sets one only by the
conditional link. -/
structure KeepsLinks (w w' : Board) (o : BoardOp) : Prop where
  removed : ∀ row ∈ w.items, ∀ runId, row.linked_run_id = some runId →
    (∃ row' ∈ w'.items, row'.id = row.id ∧ row'.linked_run_id = some runId) ∨
      ∃ projectId, o = .clearRunLinksIfMatches projectId row.id runId
  written : ∀ row' ∈ w'.items, ∀ runId, row'.linked_run_id = some runId →
    (∃ row ∈ w.items, row.id = row'.id ∧ row.linked_run_id = some runId) ∨
      ∃ projectId, o = .linkRunIfUnlinked projectId row'.id runId

end Board

/-! ## What a call knows of a link -/

/-- The item and the link that a call takes it to have: the copy it has read last, or the link it
has set itself. -/
abbrev HeldLink := Option (String × Option String)

/-- The item of a copy, and its link. -/
def WorkItem.link (item : WorkItem) : String × Option String := (item.id, item.linked_run_id)

def linkNext : HeldLink → (o : BoardOp) → o.Ans → HeldLink
  | _, .findByProjectAndId _ _, .ok found => found.map WorkItem.link
  | _, .findByExternalSyncRef _ _ _, .ok found => found.map WorkItem.link
  | _, .linkRunIfUnlinked _ workItemId runId, .ok true => some (workItemId, some runId)
  | held, _, _ => held

/-- A save writes the link that the call holds, into both columns; without a copy, none. -/
def LinkIssues (held : HeldLink) : BoardOp → Prop
  | .save entity => entity.linked_run_id = some (held.bind Prod.snd) ∧
      entity.current_execution_id = some (held.bind Prod.snd) ∧
      ∀ link, held = some link → entity.id = link.1
  | _ => True

/-- The links of the rows that are read agree. -/
def LinkAnswers (_ : HeldLink) : (o : BoardOp) → o.Ans → Prop
  | .findByProjectAndId _ _, .ok found => ∀ item ∈ found, item.current_execution_id = item.linked_run_id
  | .findByExternalSyncRef _ _ _, .ok found =>
      ∀ item ∈ found, item.current_execution_id = item.linked_run_id
  | _, _ => True

abbrev linkContract : Contract BoardOp BoardOp.Ans HeldLink :=
  Pool.following linkNext LinkIssues LinkAnswers

def BoardOp.isSave : BoardOp → Bool
  | .save _ => true
  | _ => false

/-- Whatever it holds before, the program saves the links that it holds. -/
def SavesLinks {α : Type} (p : BoardProg α) : Prop :=
  ∀ held, Prog.Meets linkContract (fun _ _ => True) (fun _ _ => True) p held

section Programs

variable {α β : Type}

theorem savesLinks_pure (a : α) : SavesLinks (.pure a : BoardProg α) := fun _ => trivial

theorem savesLinks_fail (error : BoardError) : SavesLinks (.fail error : BoardProg α) :=
  fun _ => trivial

theorem SavesLinks.bind {p : BoardProg α} {f : α → BoardProg β} (hp : SavesLinks p)
    (hf : ∀ a, SavesLinks (f a)) : SavesLinks (p.bind f) := fun held =>
  Prog.Meets.bind (hp held) fun a held' _ => hf a held'

theorem SavesLinks.handle {p : BoardProg α} {h : BoardError → BoardProg α} (hp : SavesLinks p)
    (hh : ∀ error, SavesLinks (h error)) : SavesLinks (p.handle h) := fun held =>
  Prog.meets_handle ((hp held).mono (fun _ _ h => h) fun error held' _ => hh error held')

theorem savesLinks_ite {P : Prop} [Decidable P] {p q : BoardProg α} (hp : SavesLinks p)
    (hq : SavesLinks q) : SavesLinks (if P then p else q) := fun held =>
  Prog.meets_ite (fun _ => hp held) fun _ => hq held

/-- An operation that is no save, whatever follows. -/
theorem savesLinks_try {o : BoardOp} (hsave : o.isSave = false) : SavesLinks (tryBoard o) := by
  intro held
  refine Prog.meets_op ?_ fun _ _ _ => trivial
  cases o with
  | save entity => cases hsave
  | _ => trivial

theorem savesLinks_await {o : BoardOp} (hsave : o.isSave = false) :
    SavesLinks (awaitBoard o) := by
  refine (savesLinks_try hsave).bind fun ans => ?_
  cases ans with
  | ok value => exact savesLinks_pure value
  | error message => exact savesLinks_fail _

/-- A save of what the call holds. -/
theorem meets_save {entity : WorkItemColumns} {held : HeldLink} {Q : Option WorkItem → HeldLink → Prop}
    (hissue : LinkIssues held (.save entity)) (hQ : ∀ saved, Q saved held) :
    Prog.Meets linkContract Q (fun _ _ => True) (awaitBoard (.save entity)) held := by
  refine Prog.meets_bind (Prog.meets_op hissue ?_)
  rintro ans held' ⟨rfl, -⟩
  cases ans with
  | ok saved => exact hQ saved
  | error message => trivial

theorem findDependencies_savesLinks (ids : List String) :
    SavesLinks (KanbanWorkItemRepository.findDependenciesByWorkItemIds ids) :=
  savesLinks_ite (savesLinks_pure _) (savesLinks_await rfl)

theorem findByIds_savesLinks (ids : List String) :
    SavesLinks (KanbanWorkItemRepository.findByIds ids) :=
  savesLinks_ite (savesLinks_pure _) (savesLinks_await rfl)

/-- The copy that a transition works on. -/
theorem requireWorkItem_held (projectId workItemId : String) (held : HeldLink) :
    Prog.Meets linkContract
      (fun item held' => held' = some item.link ∧ item.current_execution_id = item.linked_run_id)
      (fun _ _ => True) (requireWorkItem projectId workItemId) held := by
  refine Prog.meets_bind (Prog.meets_bind (Prog.meets_op trivial ?_))
  rintro ans held' ⟨rfl, hans⟩
  cases ans with
  | error message => trivial
  | ok found =>
      cases found with
      | none => trivial
      | some item => exact ⟨rfl, hans item rfl⟩

/-- A save with the links of the copy that the call holds. -/
theorem issues_copy {item : WorkItem} {entity : WorkItemColumns}
    (hagree : item.current_execution_id = item.linked_run_id) (hid : entity.id = item.id)
    (hlinked : entity.linked_run_id = some item.linked_run_id)
    (hcurrent : entity.current_execution_id = some item.current_execution_id) :
    LinkIssues (some item.link) (.save entity) := by
  refine ⟨hlinked, hcurrent.trans (congrArg some hagree), fun link hlink => ?_⟩
  rw [← Option.some.inj hlink]
  exact hid

theorem updateStatus_savesLinks (projectId workItemId : String) (status : WorkItemStatus) :
    SavesLinks (updateStatus projectId workItemId status) := by
  intro held
  refine Prog.Meets.bind (requireWorkItem_held projectId workItemId held) ?_
  rintro item held' ⟨rfl, hagree⟩
  -- either save writes the links of the copy
  have hissue : ∀ (s : WorkItemStatus) (metadata : Option Json),
      LinkIssues (some item.link)
        (.save { item with status := s, metadata := metadata }.columns) :=
    fun s metadata => issues_copy hagree rfl rfl rfl
  refine Prog.meets_ite (fun _ => ?_) fun _ => ?_
  · exact (findDependencies_savesLinks _).bind (fun _ => savesLinks_pure ()) _
  · refine Prog.meets_bind (Prog.meets_bind (Prog.meets_op trivial ?_))
    rintro ans held'' ⟨rfl, -⟩
    cases ans with
    | error message => trivial
    | ok gate =>
        cases gate with
        | blocked heldAt failures =>
            exact Prog.meets_bind (meets_save (hissue _ _) fun _ => trivial)
        | passed =>
            refine Prog.meets_bind (meets_save (hissue _ _) fun _ => ?_)
            refine (findDependencies_savesLinks _).bind (fun _ => ?_) _
            exact savesLinks_await rfl

theorem linkAcceptedRun_savesLinks (item : WorkItem) (runId : String) :
    SavesLinks (linkAcceptedRun item runId) := by
  intro held
  refine Prog.meets_bind (Prog.meets_bind (Prog.meets_op trivial ?_))
  rintro ans held' ⟨rfl, -⟩
  cases ans with
  | error message => trivial
  | ok linked =>
      cases linked with
      | false => trivial
      | true =>
          -- the call holds the link it has just set
          refine Prog.meets_bind (meets_save ⟨rfl, rfl, fun link hlink => ?_⟩ fun saved => ?_)
          · rw [← Option.some.inj hlink]
            rfl
          · cases saved with
            | none => trivial
            | some saved => exact savesLinks_ite (savesLinks_fail _) (savesLinks_pure _) _

theorem clearTerminalLinkedRun_savesLinks (deps : DispatchCoreDeps) (item : WorkItem)
    (result : DispatchResult) (pushSkip : Bool) :
    SavesLinks (clearTerminalLinkedRun deps item result pushSkip) := by
  unfold clearTerminalLinkedRun
  split
  · exact savesLinks_pure _
  · refine savesLinks_ite (savesLinks_pure _) ?_
    refine (savesLinks_try rfl).bind fun report => ?_
    cases report with
    | error message => exact savesLinks_ite (savesLinks_pure _) (savesLinks_pure _)
    | ok report =>
        refine savesLinks_ite (savesLinks_pure _) ?_
        refine (savesLinks_await rfl).bind fun cleared => ?_
        refine savesLinks_ite (savesLinks_pure _) (savesLinks_ite ?_ (savesLinks_pure _))
        exact (updateStatus_savesLinks _ _ _).bind fun _ => savesLinks_pure _

theorem reconcileAllLinkedRuns_savesLinks (deps : DispatchCoreDeps) (pushSkip : Bool)
    (items : List WorkItem) (result : DispatchResult) :
    SavesLinks (reconcileAllLinkedRuns deps pushSkip items result) := by
  induction items generalizing result with
  | nil => exact savesLinks_pure _
  | cons item items ih =>
      exact (clearTerminalLinkedRun_savesLinks deps item result pushSkip).bind fun cleared =>
        (ih cleared.result).bind fun _ => savesLinks_pure _

theorem reconcileSelectedScope_savesLinks (deps : DispatchCoreDeps) (scope : ReconcileScope)
    (items : List WorkItem) (requestedById : OrderedMap String WorkItem)
    (result : DispatchResult) :
    SavesLinks (reconcileSelectedScope deps scope items requestedById result) := by
  induction items generalizing requestedById result with
  | nil => exact savesLinks_pure _
  | cons item items ih =>
      refine savesLinks_ite ((ih _ _).bind fun _ => savesLinks_pure _) ?_
      exact (clearTerminalLinkedRun_savesLinks deps item result false).bind fun _ =>
        (ih _ _).bind fun _ => savesLinks_pure _

theorem reconcileOrphans_savesLinks (deps : DispatchCoreDeps) (items : List WorkItem)
    (result : DispatchResult) : SavesLinks (reconcileOrphans deps items result) := by
  induction items generalizing result with
  | nil => exact savesLinks_pure _
  | cons item items ih =>
      refine SavesLinks.bind ?_ fun reset => (ih reset.2).bind fun _ => savesLinks_pure _
      refine savesLinks_ite (SavesLinks.handle ?_ fun _ => savesLinks_pure _) (savesLinks_pure _)
      exact (updateStatus_savesLinks _ _ _).bind fun _ => savesLinks_pure _

theorem readAndReconcile_savesLinks (deps : DispatchCoreDeps) (options : DispatchCoreOptions) :
    SavesLinks (readAndReconcile deps options) := by
  refine (savesLinks_await rfl).bind fun projectItems => ?_
  refine (findDependencies_savesLinks _).bind fun dependencies => ?_
  refine SavesLinks.bind ?_ fun requestedItems => ?_
  · unfold loadRequestedItems
    split
    · exact savesLinks_pure _
    · exact findByIds_savesLinks _
  · refine SavesLinks.bind (savesLinks_ite (savesLinks_ite ?_ ?_) (savesLinks_pure _)) fun r => ?_
    · exact (reconcileSelectedScope_savesLinks _ _ _ _ _).bind fun _ => savesLinks_pure _
    · exact (reconcileAllLinkedRuns_savesLinks _ _ _ _).bind fun _ => savesLinks_pure _
    · refine SavesLinks.bind (savesLinks_ite ?_ (savesLinks_pure _)) fun r' => ?_
      · exact (reconcileOrphans_savesLinks _ _ _).bind fun _ => savesLinks_pure _
      · refine SavesLinks.bind ?_ fun _ => savesLinks_pure _
        unfold refreshRequested
        split
        · exact savesLinks_pure _
        · refine SavesLinks.bind (SavesLinks.handle ?_ fun _ => savesLinks_pure _) fun _ =>
            savesLinks_pure _
          exact (findByIds_savesLinks _).bind fun _ => savesLinks_pure _

theorem prepareDispatchContext_savesLinks (deps : DispatchCoreDeps)
    (options : DispatchCoreOptions) : SavesLinks (prepareDispatchContext deps options) := by
  refine SavesLinks.bind ?_ fun maxActive => SavesLinks.bind ?_ fun _ =>
    (readAndReconcile_savesLinks deps options).bind fun _ => savesLinks_pure _
  · unfold resolveMaxActivePerProject
    split
    · exact savesLinks_pure _
    · refine savesLinks_ite ?_ (savesLinks_pure _)
      exact (savesLinks_await rfl).bind fun _ => savesLinks_pure _
  · exact savesLinks_ite (savesLinks_await rfl) (savesLinks_pure _)

theorem launchCandidate_savesLinks (ctx : DispatchContext) (item : WorkItem) :
    SavesLinks (ctx.launchCandidate item) := by
  refine (savesLinks_await rfl).bind fun runId => ?_
  refine SavesLinks.bind (SavesLinks.handle (linkAcceptedRun_savesLinks item runId) ?_) ?_
  · exact fun error => savesLinks_fail _
  · exact fun saved => savesLinks_pure _

theorem processCandidate_savesLinks (ctx : DispatchContext) (id : String) :
    SavesLinks (ctx.processCandidate id) := by
  unfold DispatchContext.processCandidate
  split
  · exact savesLinks_pure _
  · rename_i item _
    refine savesLinks_ite (savesLinks_pure _) (savesLinks_ite (savesLinks_pure _) ?_)
    refine savesLinks_ite (savesLinks_pure _) (savesLinks_ite (savesLinks_pure _) ?_)
    refine savesLinks_ite ?_ ?_
    · exact (updateStatus_savesLinks _ _ _).bind fun _ => savesLinks_pure _
    · unfold DispatchContext.dispatchCandidate
      split
      · exact savesLinks_pure _
      · split
        · exact savesLinks_pure _
        · refine SavesLinks.bind (savesLinks_ite ?_ (SavesLinks.handle ?_ fun error => ?_)) fun _ =>
            savesLinks_pure _
          · exact (launchCandidate_savesLinks _ item).bind fun _ => savesLinks_pure _
          · exact (launchCandidate_savesLinks _ item).bind fun _ => savesLinks_pure _
          · exact savesLinks_ite (savesLinks_pure _) (savesLinks_pure _)

theorem dispatchWorkItems_savesLinks (deps : DispatchCoreDeps) (options : DispatchCoreOptions) :
    SavesLinks (dispatchWorkItems deps options) := by
  have hloop : ∀ (ids : List String) (ctx : DispatchContext),
      SavesLinks (ctx.processCandidates ids) := by
    intro ids
    induction ids with
    | nil => exact fun ctx => savesLinks_pure ctx
    | cons id ids ih =>
        exact fun ctx => (processCandidate_savesLinks ctx id).bind fun ctx' => ih ctx'
  exact (prepareDispatchContext_savesLinks deps options).bind fun ctx =>
    (hloop _ ctx).bind fun _ => savesLinks_pure _

theorem projectLifecycleEvent_savesLinks (event : RunLifecycleEvent) :
    SavesLinks (projectLifecycleEvent event) := by
  refine (savesLinks_await rfl).bind fun _ => SavesLinks.bind ?_ fun _ => ?_
  · refine savesLinks_ite (savesLinks_pure _) ((savesLinks_await rfl).bind fun _ => ?_)
    refine savesLinks_ite ?_ (savesLinks_pure _)
    refine (savesLinks_try rfl).bind fun linked => (savesLinks_try rfl).bind fun _ => ?_
    cases linked with
    | ok _ => exact savesLinks_pure _
    | error message => exact savesLinks_fail _
  · refine savesLinks_ite (savesLinks_pure _) ((savesLinks_await rfl).bind fun cleared => ?_)
    cases cleared with
    | true => exact savesLinks_await rfl
    | false => exact (savesLinks_await rfl).bind fun _ => savesLinks_await rfl

theorem processTicket_savesLinks (ticket : InboundTicket) : SavesLinks (processTicket ticket) := by
  refine (savesLinks_await rfl).bind fun _ held => ?_
  refine Prog.meets_bind (Prog.meets_bind (Prog.meets_op trivial ?_))
  rintro ans held' ⟨rfl, hans⟩
  cases ans with
  | error message => trivial
  | ok found =>
      cases found with
      | none =>
          refine Prog.meets_bind (meets_save ⟨rfl, rfl, fun link hlink => nomatch hlink⟩ fun _ => ?_)
          exact savesLinks_await rfl _
      | some existing =>
          refine Prog.meets_ite (fun _ => ?_) fun _ => savesLinks_await rfl _
          refine Prog.meets_bind (meets_save (issues_copy (hans existing rfl) rfl rfl rfl) fun _ => ?_)
          exact savesLinks_await rfl _

theorem processDeletedEvent_savesLinks (projectId connectionId externalId deletedAt : String) :
    SavesLinks (processDeletedEvent projectId connectionId externalId deletedAt) := by
  refine (savesLinks_await rfl).bind fun _ held => ?_
  refine Prog.meets_bind (Prog.meets_bind (Prog.meets_op trivial ?_))
  rintro ans held' ⟨rfl, hans⟩
  cases ans with
  | error message => trivial
  | ok found =>
      cases found with
      | none => exact savesLinks_await rfl _
      | some existing =>
          refine Prog.meets_bind (meets_save (issues_copy (hans existing rfl) rfl rfl rfl) fun _ => ?_)
          exact savesLinks_await rfl _

theorem program_savesLinks (call : LinkCall) : SavesLinks call.program := by
  cases call with
  | updateStatus projectId workItemId status => exact updateStatus_savesLinks _ _ _
  | dispatchWorkItems deps options =>
      exact (dispatchWorkItems_savesLinks deps options).bind fun _ => savesLinks_pure _
  | reconcileProjectLinkedRuns deps projectId =>
      refine SavesLinks.bind ?_ fun _ => savesLinks_pure _
      refine (savesLinks_await rfl).bind fun items => ?_
      refine (reconcileAllLinkedRuns_savesLinks deps true items {}).bind fun r => ?_
      exact (reconcileOrphans_savesLinks deps r.1 r.2).bind fun _ => savesLinks_pure _
  | lifecycleEvent event => exact projectLifecycleEvent_savesLinks event
  | processTicket ticket => exact processTicket_savesLinks ticket
  | processDeletedEvent projectId connectionId externalId deletedAt =>
      exact processDeletedEvent_savesLinks _ _ _ _

end Programs

/-! ## What an operation does to a link -/

/-- The operation has set or cleared the links of an item. -/
def BoardOp.changesLink (id : String) : (o : BoardOp) → o.Ans → Bool
  | .clearRunLinksIfMatches _ workItemId _, .ok true => workItemId = id
  | .linkRunIfUnlinked _ workItemId _, .ok true => workItemId = id
  | _, _ => false

/-- A row before and after an operation that has changed its link. -/
def LinkChange (o : BoardOp) (row row' : WorkItem) : Prop :=
  (∃ projectId runId, o = .clearRunLinksIfMatches projectId row.id runId ∧
      row.linked_run_id = some runId ∧ row'.linked_run_id = none) ∨
    ∃ projectId runId, o = .linkRunIfUnlinked projectId row.id runId ∧
      row.linked_run_id = none ∧ row'.linked_run_id = some runId

section Operations

variable {w : Board} {id : String} {row : WorkItem} {held : HeldLink} {o : BoardOp}

theorem WorkItem.withLinks_id (row : WorkItem) (link : Option String) :
    (row.withLinks link).id = row.id := rfl

theorem WorkItem.write_id (row : WorkItem) (c : WorkItemColumns) : (row.write c).id = row.id := rfl

variable {p : WorkItem → Bool} {f : WorkItem → WorkItem}

theorem find_updateWhere (hf : ∀ row, (f row).id = row.id) :
    (w.updateWhere p f).find id = (w.find id).map fun row => if p row then f row else row := by
  refine TableRows.find?_map (fun row => ?_) id
  by_cases hp : p row <;> simp [hp, hf]

theorem find_updateWhere_some (hf : ∀ row, (f row).id = row.id) (h : w.find id = some row) :
    (w.updateWhere p f).find id = some (if p row then f row else row) := by
  rw [find_updateWhere hf, h, Option.map_some]

theorem find_updateWhere_none (hf : ∀ row, (f row).id = row.id) (h : w.find id = none) :
    (w.updateWhere p f).find id = none := by
  rw [find_updateWhere hf, h, Option.map_none]

theorem find_save_some {c : WorkItemColumns} (h : w.find id = some row) :
    (w.save c).find id = some (if row.id = c.id then row.write c else row) := by
  unfold Board.save
  cases hfind : w.find c.id with
  | some found =>
      have hwritten := find_updateWhere_some (p := fun row => row.id = c.id)
        (f := fun row => row.write c) (fun row => row.write_id c) h
      simpa only [decide_eq_true_eq] using hwritten
  | none =>
      have hne : row.id ≠ c.id := by
        intro hid
        rw [← hid, (Board.find_mem h).2, h] at hfind
        cases hfind
      rw [if_neg hne, ← h]
      simp only [Board.find, List.find?_append] at h ⊢
      rw [h, Option.some_or]

theorem find_save_none {c : WorkItemColumns} (h : w.find id = none) :
    (w.save c).find id = none ∨
      c.id = id ∧ ∃ row, (w.save c).find id = some row ∧
        row.linked_run_id = c.linked_run_id.getD none := by
  unfold Board.save
  cases hfind : w.find c.id with
  | some found => exact Or.inl (find_updateWhere_none (fun row => row.write_id c) h)
  | none =>
      simp only [Board.find] at h ⊢
      by_cases hid : c.id = id
      · refine Or.inr ⟨hid, WorkItem.write
          { id := c.id, project_id := c.project_id.getD "", status := .todo } c, ?_, rfl⟩
        simp [List.find?_append, h, WorkItem.write, hid]
      · left
        simp [List.find?_append, h, WorkItem.write, hid]

/-- The link of a row after an operation that saves it with the link it has, if at all. -/
theorem link_exec (h : w.find id = some row)
    (hsaves : ∀ c, o = .save c → c.id = id → c.linked_run_id = some row.linked_run_id) :
    ∃ row', (o.exec w).1.find id = some row' ∧ (row'.linked_run_id = row.linked_run_id ∨
      o.changesLink id (o.exec w).2 = true ∧ LinkChange o row row') := by
  have hid := (Board.find_mem h).2
  have hmem := (Board.find_mem h).1
  unfold BoardOp.exec
  split
  · exact ⟨row, h, Or.inl rfl⟩
  · cases o with
    | save c =>
        refine ⟨_, find_save_some (w := w.tick) h, Or.inl ?_⟩
        split
        · rename_i hsame
          simp [WorkItem.write, hsaves c rfl (hsame.symm.trans hid)]
        · rfl
    | clearRunLinksIfMatches projectId workItemId runId =>
        refine ⟨_, find_updateWhere_some (w := w.tick) (fun row => row.withLinks_id _) h, ?_⟩
        split
        · rename_i hlinked
          have hany : w.items.any (WorkItem.isLinkedTo projectId workItemId runId) = true :=
            List.any_eq_true.2 ⟨row, hmem, hlinked⟩
          simp only [WorkItem.isLinkedTo, WorkItem.isRow, Bool.and_eq_true,
            decide_eq_true_eq] at hlinked
          obtain ⟨⟨⟨hrow, -⟩, hrun⟩, -⟩ := hlinked
          refine Or.inr ⟨?_, Or.inl ⟨projectId, runId, by rw [hrow], hrun, rfl⟩⟩
          simp only [BoardOp.effect, Board.tick, hany, BoardOp.changesLink, decide_eq_true_eq]
          exact hrow.symm.trans hid
        · exact Or.inl rfl
    | linkRunIfUnlinked projectId workItemId runId =>
        refine ⟨_, find_updateWhere_some (w := w.tick) (fun row => row.withLinks_id _) h, ?_⟩
        split
        · rename_i hunlinked
          have hany : (w.items.any fun row => row.isRow projectId workItemId && row.isUnlinked) =
              true := List.any_eq_true.2 ⟨row, hmem, hunlinked⟩
          simp only [WorkItem.isUnlinked, WorkItem.isRow, Bool.and_eq_true,
            decide_eq_true_eq] at hunlinked
          obtain ⟨⟨hrow, -⟩, hnone, -⟩ := hunlinked
          refine Or.inr ⟨?_, Or.inr ⟨projectId, runId, by rw [hrow], hnone, rfl⟩⟩
          simp only [BoardOp.effect, Board.tick, hany, BoardOp.changesLink, decide_eq_true_eq]
          exact hrow.symm.trans hid
        · exact Or.inl rfl
    | _ => exact ⟨row, h, Or.inl rfl⟩

/-- A row that an operation adds. -/
theorem find_exec_none (h : w.find id = none) : (o.exec w).1.find id = none ∨
    ∃ c row, o = .save c ∧ c.id = id ∧ (o.exec w).1.find id = some row ∧
      row.linked_run_id = c.linked_run_id.getD none := by
  unfold BoardOp.exec
  split
  · exact Or.inl h
  · cases o with
    | save c =>
        rcases find_save_none (w := w.tick) (c := c) h with hnone | ⟨hid, row, hrow, hlink⟩
        · exact Or.inl hnone
        · exact Or.inr ⟨c, row, rfl, hid, hrow, hlink⟩
    | clearRunLinksIfMatches projectId workItemId runId =>
        exact Or.inl (find_updateWhere_none (w := w.tick) (fun row => row.withLinks_id _) h)
    | linkRunIfUnlinked projectId workItemId runId =>
        exact Or.inl (find_updateWhere_none (w := w.tick) (fun row => row.withLinks_id _) h)
    | _ => exact Or.inl h

theorem sound_updateWhere (h : w.Sound) (hf : ∀ row, (f row).id = row.id) :
    (w.updateWhere p f).Sound := by
  unfold Board.Sound Board.updateWhere at *
  rw [List.map_map]
  have hsame : (WorkItem.id ∘ fun row => if p row then f row else row) = WorkItem.id := by
    funext row
    by_cases hp : p row <;> simp [Function.comp, hp, hf]
  rw [hsame]
  exact h

theorem boardSound_exec (h : w.Sound) (o : BoardOp) : (o.exec w).1.Sound := by
  unfold BoardOp.exec
  split
  · exact h
  · cases o with
    | save c =>
        simp only [BoardOp.effect, Board.save]
        split
        · exact sound_updateWhere (w := w.tick) h fun row => row.write_id c
        · rename_i hnone
          have hfresh : c.id ∉ w.items.map WorkItem.id := by
            intro hmem
            obtain ⟨row, hrow, hid⟩ := List.mem_map.1 hmem
            have hfind := h.find_eq hrow
            rw [hid] at hfind
            exact nomatch hfind.symm.trans hnone
          unfold Board.Sound
          rw [List.map_append, List.nodup_append]
          refine ⟨h, List.nodup_singleton _, ?_⟩
          rintro id hid id' hid' rfl
          have hsame : id = c.id := List.mem_singleton.1 hid'
          exact hfresh (hsame ▸ hid)
    | clearRunLinksIfMatches projectId workItemId runId =>
        exact sound_updateWhere (w := w.tick) h fun row => row.withLinks_id _
    | linkRunIfUnlinked projectId workItemId runId =>
        exact sound_updateWhere (w := w.tick) h fun row => row.withLinks_id _
    | _ => exact h

/-- **The links agree** after every operation that a call may issue. -/
theorem linksAgree_exec (h : w.LinksAgree) (hissue : LinkIssues held o) :
    (o.exec w).1.LinksAgree := by
  have hupdate : ∀ (p : WorkItem → Bool) (f : WorkItem → WorkItem),
      (∀ row ∈ w.items, (f row).current_execution_id = (f row).linked_run_id) →
      (w.tick.updateWhere p f).LinksAgree := by
    intro p f hf row hrow
    obtain ⟨before, hbefore, rfl⟩ := List.mem_map.1 hrow
    split
    · exact hf before hbefore
    · exact h before hbefore
  unfold BoardOp.exec
  split
  · exact h
  · cases o with
    | save c =>
        obtain ⟨hlinked, hcurrent, -⟩ := hissue
        simp only [BoardOp.effect, Board.save]
        split
        · refine hupdate _ _ fun row _ => ?_
          simp [WorkItem.write, hlinked, hcurrent]
        · intro row hrow
          rcases List.mem_append.1 hrow with hrow | hrow
          · exact h row hrow
          · rw [List.mem_singleton.1 hrow]
            simp [WorkItem.write, hlinked, hcurrent]
    | clearRunLinksIfMatches projectId workItemId runId => exact hupdate _ _ fun _ _ => rfl
    | linkRunIfUnlinked projectId workItemId runId => exact hupdate _ _ fun _ _ => rfl
    | _ => exact h

theorem linkAnswers_exec (h : w.LinksAgree) (held : HeldLink) (o : BoardOp) :
    LinkAnswers held o (o.exec w).2 := by
  unfold BoardOp.exec
  split
  · cases o <;> trivial
  · cases o with
    | findByProjectAndId projectId workItemId =>
        exact fun item hitem => h item (List.mem_of_find?_eq_some hitem)
    | findByExternalSyncRef projectId connectionId externalId =>
        exact fun item hitem => h item (List.mem_of_find?_eq_some hitem)
    | _ => trivial

end Operations

/-! ## Interleavings -/

abbrev LinkSystem := Config Nat BoardOp BoardOp.Ans BoardError Unit Board

def boardStore : Machine BoardOp BoardOp.Ans Board := ⟨BoardOp.exec, fun _ _ => True⟩

instance (w : Board) (o : BoardOp) : Decidable (boardStore.enabled w o) :=
  inferInstanceAs (Decidable True)

/-- The calls before their first operation. -/
def LinkSystem.init (w : Board) (calls : Nat → LinkCall) : LinkSystem :=
  Pool.start w fun t => (calls t).program

/-- What the calls hold, read off the log. -/
def heldLink (log : List (Entry Nat BoardOp BoardOp.Ans)) (t : Nat) : HeldLink :=
  Pool.track linkNext (fun _ => none) log t

/-- The operation has given its call a hold on the link of an item. -/
def BoardOp.takesLink (id : String) (o : BoardOp) (ans : o.Ans) : Bool :=
  (linkNext none o ans).any fun link => link.1 = id

/-- The links of an item were set or cleared after a call took hold of them. -/
def linkChangedSince (t : Nat) (id : String) : List (Entry Nat BoardOp BoardOp.Ans) → Bool
  | [] => false
  | e :: log =>
      if e.tid = t ∧ e.op.takesLink id e.ans = true then false
      else e.op.changesLink id e.ans || linkChangedSince t id log

/-- A step that saves a copy of an item, or the link that the call has set itself, while the links of
the item have not changed since; a new item gets an id of its own. -/
def Undisturbed (c : LinkSystem) (t : Nat) : BoardOp → Prop
  | .save entity =>
      match heldLink c.log t with
      | some (id, _) => linkChangedSince t id c.log = false
      | none => c.world.find entity.id = none
  | _ => True

instance (c : LinkSystem) (t : Nat) (o : BoardOp) : Decidable (Undisturbed c t o) := by
  cases o with
  | save entity =>
      simp only [Undisturbed]
      split <;> infer_instance
  | _ => exact inferInstanceAs (Decidable True)

/-- What a call holds is the link of the row, or the link has changed since. -/
def LinksHeld (c : LinkSystem) : Prop :=
  ∀ t id link, heldLink c.log t = some (id, link) → linkChangedSince t id c.log = false →
    ∃ row, c.world.find id = some row ∧ row.linked_run_id = link

section Step

variable {c : LinkSystem} {t : Nat} {o : BoardOp} {k : o.Ans → BoardProg Unit}

/-- A save that is not disturbed writes the link that the row has. -/
theorem saves_of_undisturbed (hinv : LinksHeld c) (hissue : LinkIssues (heldLink c.log t) o)
    (hundisturbed : Undisturbed c t o) {id : String} {row : WorkItem}
    (hrow : c.world.find id = some row) :
    ∀ entity, o = .save entity → entity.id = id →
      entity.linked_run_id = some row.linked_run_id := by
  rintro entity rfl rfl
  obtain ⟨hlinked, -, hid⟩ := hissue
  simp only [Undisturbed] at hundisturbed
  cases hheld : heldLink c.log t with
  | none =>
      rw [hheld] at hundisturbed
      exact nomatch hrow.symm.trans hundisturbed
  | some link =>
      rw [hheld] at hundisturbed hlinked
      obtain ⟨row', hrow', hlink⟩ := hinv t link.1 link.2 hheld hundisturbed
      rw [← hid link hheld, hrow, Option.some.injEq] at hrow'
      rw [hlinked, hrow', hlink]
      rfl

/-- A call that took no hold of the link in a step holds what it held. -/
theorem linkNext_of_not_takes {held : HeldLink} {ans : o.Ans} {id : String} {link : Option String}
    (h : linkNext held o ans = some (id, link)) (htakes : o.takesLink id ans = false) :
    held = some (id, link) := by
  have hread : ∀ found : Option WorkItem, found.map WorkItem.link = some (id, link) →
      ((found.map WorkItem.link).any fun link => decide (link.1 = id)) = true := by
    intro found hfound
    rw [hfound]
    exact decide_eq_true rfl
  cases o with
  | findByProjectAndId projectId workItemId =>
      cases ans with
      | error message => exact h
      | ok found => exact nomatch (hread found h).symm.trans htakes
  | findByExternalSyncRef projectId connectionId externalId =>
      cases ans with
      | error message => exact h
      | ok found => exact nomatch (hread found h).symm.trans htakes
  | linkRunIfUnlinked projectId workItemId runId =>
      cases ans with
      | error message => exact h
      | ok linked =>
          cases linked with
          | false => exact h
          | true =>
              simp only [linkNext, Option.some.injEq, Prod.mk.injEq] at h
              simp [BoardOp.takesLink, linkNext, h.1] at htakes
  | _ => exact h

/-- A call takes hold of the link that the row has. -/
theorem takes_exec {w : Board} (hw : w.Sound) {held : HeldLink} {id : String}
    {link : Option String} (h : linkNext held o (o.exec w).2 = some (id, link))
    (htakes : o.takesLink id (o.exec w).2 = true) :
    ∃ row, (o.exec w).1.find id = some row ∧ row.linked_run_id = link := by
  have hread : ∀ found : Option WorkItem, (∀ item ∈ found, item ∈ w.items) →
      found.map WorkItem.link = some (id, link) →
      ∃ row, w.tick.find id = some row ∧ row.linked_run_id = link := by
    intro found hfound hlink
    obtain ⟨item, hitem, hsame⟩ := Option.map_eq_some_iff.1 hlink
    simp only [WorkItem.link, Prod.mk.injEq] at hsame
    obtain ⟨rfl, rfl⟩ := hsame
    exact ⟨item, hw.find_eq (hfound item hitem), rfl⟩
  unfold BoardOp.exec at h htakes ⊢
  split at h
  · rename_i message hfails
    simp only [hfails] at htakes
    cases o <;> cases htakes
  · rename_i hfails
    simp only [hfails] at htakes
    cases o with
    | findByProjectAndId projectId workItemId =>
        exact hread _ (fun item hitem => List.mem_of_find?_eq_some hitem) h
    | findByExternalSyncRef projectId connectionId externalId =>
        exact hread _ (fun item hitem => List.mem_of_find?_eq_some hitem) h
    | linkRunIfUnlinked projectId workItemId runId =>
        cases hany : w.items.any fun row => row.isRow projectId workItemId && row.isUnlinked with
        | false =>
            simp only [BoardOp.effect, Board.tick, hany] at htakes
            cases htakes
        | true =>
            simp only [BoardOp.effect, Board.tick, hany, linkNext, Option.some.injEq,
              Prod.mk.injEq] at h
            obtain ⟨rfl, rfl⟩ := h
            obtain ⟨row, hrow, hunlinked⟩ := List.any_eq_true.1 hany
            have hid : row.id = workItemId := by
              simp only [WorkItem.isRow, Bool.and_eq_true, decide_eq_true_eq] at hunlinked
              exact hunlinked.1.1
            have hfind := find_updateWhere_some (w := w.tick)
              (p := fun row => row.isRow projectId workItemId && row.isUnlinked)
              (fun row => row.withLinks_id (some runId)) (hid ▸ hw.find_eq hrow)
            rw [if_pos hunlinked] at hfind
            exact ⟨_, hfind, rfl⟩
    | _ => cases htakes

theorem linksHeld_start (w : Board) (calls : Nat → LinkCall) :
    LinksHeld (LinkSystem.init w calls) := by
  intro t id link hheld
  cases hheld

/-- **A step keeps the holds**, or marks the link as changed. -/
theorem linksHeld_step (hw : c.world.Sound) (hinv : LinksHeld c)
    (hissue : LinkIssues (heldLink c.log t) o) (hundisturbed : Undisturbed c t o) :
    LinksHeld (Pool.advance boardStore c t o k) := by
  intro u id link hheld hsame
  -- the row of a hold that was taken before the step and is not marked by it
  have hkept : heldLink c.log u = some (id, link) → linkChangedSince u id c.log = false →
      o.changesLink id (o.exec c.world).2 = false →
      ∃ row, (o.exec c.world).1.find id = some row ∧ row.linked_run_id = link := by
    intro hbefore hbeforeSame hunchanged
    obtain ⟨row, hrow, rfl⟩ := hinv u id link hbefore hbeforeSame
    obtain ⟨row', hrow', hlink | ⟨hchanged, -⟩⟩ :=
      link_exec hrow (saves_of_undisturbed hinv hissue hundisturbed hrow)
    · exact ⟨row', hrow', hlink⟩
    · rw [hunchanged] at hchanged
      cases hchanged
  have hlog : linkChangedSince u id (Pool.advance boardStore c t o k).log =
      if t = u ∧ o.takesLink id (o.exec c.world).2 = true then false
      else o.changesLink id (o.exec c.world).2 || linkChangedSince u id c.log := rfl
  rw [hlog] at hsame
  by_cases hu : u = t
  · subst hu
    have hself : heldLink (Pool.advance boardStore c u o k).log u =
        linkNext (heldLink c.log u) o (o.exec c.world).2 := Pool.track_advance_self
    rw [hself] at hheld
    cases htakes : o.takesLink id (o.exec c.world).2 with
    | true => exact takes_exec hw hheld htakes
    | false =>
        rw [htakes] at hsame
        simp only [Bool.false_eq_true, and_false, if_false, Bool.or_eq_false_iff] at hsame
        exact hkept (linkNext_of_not_takes hheld htakes) hsame.2 hsame.1
  · have hother : heldLink (Pool.advance boardStore c t o k).log u = heldLink c.log u :=
      Pool.track_advance_of_ne hu
    rw [hother] at hheld
    rw [if_neg fun h => hu h.1.symm, Bool.or_eq_false_iff] at hsame
    exact hkept hheld hsame.2 hsame.1

/-- **A step keeps the links.** -/
theorem keepsLinks_step (hw : c.world.Sound) (hinv : LinksHeld c)
    (hissue : LinkIssues (heldLink c.log t) o) (hundisturbed : Undisturbed c t o) :
    c.world.KeepsLinks (o.exec c.world).1 o := by
  constructor
  case removed =>
    intro row hrow runId hlinked
    have hfind := hw.find_eq hrow
    obtain ⟨row', hrow', hlink | ⟨-, hchange⟩⟩ :=
      link_exec hfind (saves_of_undisturbed hinv hissue hundisturbed hfind)
    · obtain ⟨hmem', hid'⟩ := Board.find_mem hrow'
      exact Or.inl ⟨row', hmem', hid', hlink.trans hlinked⟩
    · rcases hchange with ⟨projectId, cleared, ho, hcleared, -⟩ | ⟨-, -, -, hnone, -⟩
      · rw [hlinked, Option.some.injEq] at hcleared
        exact Or.inr ⟨projectId, hcleared ▸ ho⟩
      · rw [hlinked] at hnone
        cases hnone
  case written =>
    intro row' hrow' runId hlinked
    have hfind' := (boardSound_exec hw o).find_eq hrow'
    cases hfind : c.world.find row'.id with
    | none =>
        -- the operation has added the row, without a link
        rcases find_exec_none (o := o) hfind with hnone | ⟨entity, added, rfl, hid, hadded, hlink⟩
        · exact nomatch hfind'.symm.trans hnone
        · rw [hfind', Option.some.injEq] at hadded
          subst hadded
          obtain ⟨hentity, -, hheldId⟩ := hissue
          cases hheld : heldLink c.log t with
          | none =>
              rw [hlinked, hentity, hheld] at hlink
              cases hlink
          | some link =>
              simp only [Undisturbed, hheld] at hundisturbed
              obtain ⟨row, hrow, -⟩ := hinv t link.1 link.2 hheld hundisturbed
              rw [← hheldId link hheld, hid, hfind] at hrow
              cases hrow
    | some row =>
        obtain ⟨hmem, hid⟩ := Board.find_mem hfind
        obtain ⟨row'', hrow'', hchanged⟩ :=
          link_exec hfind (saves_of_undisturbed hinv hissue hundisturbed hfind)
        rw [hfind', Option.some.injEq] at hrow''
        subst hrow''
        rcases hchanged with hlink | ⟨-, ⟨-, -, -, -, hnone⟩ | ⟨projectId, run, ho, -, hrun⟩⟩
        · exact Or.inl ⟨row, hmem, hid, hlink.symm.trans hlinked⟩
        · rw [hlinked] at hnone
          cases hnone
        · rw [hlinked, Option.some.injEq] at hrun
          rw [hid, ← hrun] at ho
          exact Or.inr ⟨projectId, ho⟩

end Step

section Runs

variable {w : Board} {calls : Nat → LinkCall} {c : LinkSystem}
  {cond : LinkSystem → Nat → BoardOp → Prop}

theorem meets_start (t : Nat) :
    Prog.Meets linkContract (fun _ _ => True) (fun _ _ => True)
      ((LinkSystem.init w calls).threads t) (heldLink (LinkSystem.init w calls).log t) :=
  program_savesLinks (calls t) none

/-- The links agree in the board of a configuration. -/
def LinksAgreeIn (c : LinkSystem) : Prop := c.world.LinksAgree

/-- What holds in every configuration reached without disturbance. -/
structure LinksSettled (c : LinkSystem) : Prop where
  sound : c.world.Sound
  agree : c.world.LinksAgree
  held : LinksHeld c

/-- The links agree in every configuration reached. -/
theorem linksAgree_of_reach (hagree : w.LinksAgree)
    (h : Pool.Reach boardStore cond (LinkSystem.init w calls) c) :
    c.world.LinksAgree ∧ ∀ t, Prog.Meets linkContract (fun _ _ => True) (fun _ _ => True)
      (c.threads t) (heldLink c.log t) := by
  have hstart : LinksAgreeIn (LinkSystem.init w calls) := hagree
  refine Pool.Reach.follows meets_start hstart ?_ h
  intro c t o k hinv _ hissue _ _
  exact ⟨linkAnswers_exec hinv _ o, linksAgree_exec hinv hissue⟩

/-- What the calls hold, in every configuration reached without disturbance. -/
theorem linksSettled_of_reach (hw : w.Sound) (hagree : w.LinksAgree)
    (h : Pool.Reach boardStore Undisturbed (LinkSystem.init w calls) c) :
    LinksSettled c ∧
      ∀ t, Prog.Meets linkContract (fun _ _ => True) (fun _ _ => True)
        (c.threads t) (heldLink c.log t) := by
  have hstart : LinksSettled (LinkSystem.init w calls) := ⟨hw, hagree, linksHeld_start w calls⟩
  refine Pool.Reach.follows meets_start hstart ?_ h
  rintro c t o k ⟨hsound, hagrees, hheld⟩ _ hissue _ hundisturbed
  exact ⟨linkAnswers_exec hagrees _ o, boardSound_exec hsound o, linksAgree_exec hagrees hissue,
    linksHeld_step hsound hheld hissue hundisturbed⟩

end Runs

/-- **Run links.** From a board whose links agree, they agree in every state of every interleaving;
and in the runs whose steps are undisturbed every step keeps the links: the link to a run is removed
by a clear for the run only, and no save writes a link back. -/
theorem run_links_kept {w : Board} {calls : Nat → LinkCall} (hw : w.Sound) (hagree : w.LinksAgree) :
    (∀ c, Pool.Reach boardStore Pool.anyStep (LinkSystem.init w calls) c → c.world.LinksAgree) ∧
    ∀ c, Pool.Reach boardStore Undisturbed (LinkSystem.init w calls) c →
      ∀ t o k, c.threads t = .call o k → Undisturbed c t o →
        c.world.KeepsLinks (o.exec c.world).1 o := by
  refine ⟨fun c h => (linksAgree_of_reach hagree h).1, fun c h t o k hthread hundisturbed => ?_⟩
  obtain ⟨⟨hsound, -, hheld⟩, hmeets⟩ := linksSettled_of_reach hw hagree h
  have hissue := hmeets t
  rw [hthread, Prog.meets_call] at hissue
  exact keepsLinks_step hsound hheld hissue.1 hundisturbed

/-! ## Runs of one item -/

/-- An item in review, linked to a run. -/
def linkedBoard : Board where
  items :=
    [{ id := "i"
       project_id := "p"
       status := .inReview
       current_execution_id := "r"
       linked_run_id := "r" }]

/-- A transition, the end of the run, and the start of another. -/
def linkCalls : Nat → LinkCall
  | 0 => .updateStatus "p" "i" .readyToMerge
  | 1 => .lifecycleEvent { projectId := "p", workItemId := "i", runId := "r", status := .completed }
  | _ => .lifecycleEvent { projectId := "p", workItemId := "i", runId := "r2", status := .running }

def linkStart : LinkSystem := LinkSystem.init linkedBoard linkCalls

/-- The configuration after a schedule. -/
def linkRun (sched : List (Nat × Nat)) : LinkSystem := Pool.play boardStore sched linkStart

/-- The items and their links. -/
def Board.runLinks (w : Board) : List (String × Option String) := w.items.map WorkItem.link

/-- The next operation of a call is a save. -/
def LinkSystem.standsAtSave (c : LinkSystem) (t : Nat) : Bool :=
  match c.threads t with
  | .call o _ => o.isSave
  | _ => false

/-- A save that keeps the links leaves the links to runs as they are. -/
theorem links_of_keepsLinks {c : LinkSystem} {t : Nat} (hsave : c.standsAtSave t = true)
    (h : ∀ o k, c.threads t = .call o k → c.world.KeepsLinks (o.exec c.world).1 o)
    (id runId : String) :
    (id, some runId) ∈ c.world.runLinks ↔
      (id, some runId) ∈ (Pool.playStep boardStore c t).world.runLinks := by
  unfold LinkSystem.standsAtSave at hsave
  unfold Pool.playStep
  cases hthread : c.threads t with
  | pure a => simp [hthread] at hsave
  | fail error => simp [hthread] at hsave
  | call o k =>
      rw [hthread] at hsave
      have hkeeps := h o k hthread
      simp only [Board.runLinks, List.mem_map, WorkItem.link, Prod.mk.injEq]
      constructor
      · rintro ⟨row, hrow, rfl, hlinked⟩
        rcases hkeeps.removed row hrow runId hlinked with hkept | ⟨projectId, rfl⟩
        · exact hkept
        · cases hsave
      · rintro ⟨row', hrow', rfl, hlinked⟩
        rcases hkeeps.written row' hrow' runId hlinked with hkept | ⟨projectId, rfl⟩
        · exact hkept
        · cases hsave

/-- The transition reads the item, the run ends and its link is cleared, and the save of the
transition writes it back. -/
theorem run_link_revived : linkedBoard.Sound ∧ linkedBoard.LinksAgree ∧
    ¬ ∀ c, Pool.Reach boardStore Pool.anyStep linkStart c → ∀ t o k, c.threads t = .call o k →
      c.world.KeepsLinks (o.exec c.world).1 o := by
  refine ⟨by unfold Board.Sound; decide, by unfold Board.LinksAgree; decide, fun h => ?_⟩
  have hreach : Pool.Reach boardStore Pool.anyStep linkStart (linkRun [(0, 2), (1, 2)]) :=
    Pool.reach_play (M := boardStore) [(0, 2), (1, 2)] linkStart
  have hsave : (linkRun [(0, 2), (1, 2)]).standsAtSave 0 = true := by decide +kernel
  have hlinks := links_of_keepsLinks hsave (h _ hreach 0) "i" "r"
  revert hlinks
  decide +kernel

/-- The transition runs before the end of the run and after it. -/
theorem run_links_kept_sequential :
    (linkRun [(0, 5), (1, 3), (2, 3)]).world.runLinks = [("i", some "r2")] ∧
    (linkRun [(0, 2)]).standsAtSave 0 = true ∧
    (("i", some "r") ∈ (linkRun [(0, 2)]).world.runLinks ↔
      ("i", some "r") ∈ (Pool.playStep boardStore (linkRun [(0, 2)]) 0).world.runLinks) := by
  have hsave : (linkRun [(0, 2)]).standsAtSave 0 = true := by decide +kernel
  refine ⟨by decide +kernel, hsave, links_of_keepsLinks hsave (fun o k hthread => ?_) "i" "r"⟩
  have hreach : Pool.Reach boardStore Undisturbed linkStart (linkRun [(0, 2)]) :=
    Pool.reach_play_of_admits _ _ (by decide +kernel)
  have hadmits : Pool.admitsSteps boardStore Undisturbed 0 1 (linkRun [(0, 2)]) = true := by
    decide +kernel
  rw [Pool.admitsSteps, hthread, Bool.and_eq_true, decide_eq_true_eq] at hadmits
  exact (run_links_kept (by unfold Board.Sound; decide) (by unfold Board.LinksAgree; decide)).2 _
    hreach 0 o k hthread hadmits.1

end Nexus
