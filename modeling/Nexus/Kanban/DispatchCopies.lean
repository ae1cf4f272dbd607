import Nexus.Kanban.DispatchLoop

/-!
# The copies of a pass

What a pass that runs alone knows of the rows once it has read and reconciled them: every copy it
holds agrees with its row (`IsCopyOf`), up to an orphan whose reset threw after the row was written,
which the pass takes for an item in progress.
-/

set_option autoImplicit false

namespace Nexus

/-- A copy agrees with a row. -/
structure IsCopyOf (copy row : WorkItem) : Prop where
  id : copy.id = row.id
  project_id : copy.project_id = row.project_id
  type : copy.type = row.type
  parent_work_item_id : copy.parent_work_item_id = row.parent_work_item_id
  assigned_agent_id : copy.assigned_agent_id = row.assigned_agent_id
  execution_config : copy.execution_config = row.execution_config
  linked_run_id : copy.linked_run_id = row.linked_run_id
  current_execution_id : copy.current_execution_id = row.current_execution_id
  status : copy.status = row.status ∨ copy.status = .inProgress ∧ row.status = .todo

theorem isCopyOf_self (row : WorkItem) : IsCopyOf row row :=
  ⟨rfl, rfl, rfl, rfl, rfl, rfl, rfl, rfl, Or.inl rfl⟩

namespace Board

/-- The board has the row of a copy. -/
def HasRowOf (w : Board) (copy : WorkItem) : Prop := ∃ row ∈ w.items, IsCopyOf copy row

/-- The rows were rewritten one by one, and nothing else has changed. -/
structure Rewrites (R : WorkItem → WorkItem → Prop) (w w' : Board) : Prop where
  rows : ∃ f : WorkItem → WorkItem, w'.items = w.items.map f ∧ ∀ row ∈ w.items, R row (f row)
  dependencies : w'.dependencies = w.dependencies
  accepted : w'.accepted = w.accepted

/-- What a reconciliation leaves of a row; its links stay, or both of them go. -/
structure Keeps (row row' : WorkItem) : Prop where
  id : row'.id = row.id
  project_id : row'.project_id = row.project_id
  execution_config : row'.execution_config = row.execution_config
  links : row'.linked_run_id = row.linked_run_id ∧
      row'.current_execution_id = row.current_execution_id ∨
    row'.linked_run_id = none ∧ row'.current_execution_id = none

theorem keeps_self (row : WorkItem) : Keeps row row := ⟨rfl, rfl, rfl, Or.inl ⟨rfl, rfl⟩⟩

theorem Keeps.trans {row row₁ row' : WorkItem} (h : Keeps row row₁) (h' : Keeps row₁ row') :
    Keeps row row' where
  id := h'.id.trans h.id
  project_id := h'.project_id.trans h.project_id
  execution_config := h'.execution_config.trans h.execution_config
  links := by
    rcases h'.links with ⟨hlinked, hcurrent⟩ | hnone
    · rcases h.links with ⟨hlinked', hcurrent'⟩ | ⟨hlinked', hcurrent'⟩
      · exact Or.inl ⟨hlinked.trans hlinked', hcurrent.trans hcurrent'⟩
      · exact Or.inr ⟨hlinked.trans hlinked', hcurrent.trans hcurrent'⟩
    · exact Or.inr hnone

/-- The status and the metadata of the row with an id are written. -/
def Restates (id : String) (ok : WorkItemStatus → WorkItemStatus → Prop) (row row' : WorkItem) :
    Prop :=
  (row.id ≠ id → row' = row) ∧
    (row.id = id → ∃ status metadata,
      row' = { row with status := status, metadata := metadata } ∧ ok row.status status)

section Rewriting

variable {w w₁ w' : Board} {R S : WorkItem → WorkItem → Prop} {copy copy' row row' : WorkItem}
  {id : String} {ok : WorkItemStatus → WorkItemStatus → Prop}

theorem Rewrites.mono (h : Rewrites R w w') (hRS : ∀ row ∈ w.items, ∀ row', R row row' → S row row') :
    Rewrites S w w' := by
  obtain ⟨f, hf, hR⟩ := h.rows
  exact ⟨⟨f, hf, fun row hrow => hRS row hrow _ (hR row hrow)⟩, h.dependencies, h.accepted⟩

theorem rewrites_self (hR : ∀ row ∈ w.items, R row row) (hitems : w'.items = w.items)
    (hdependencies : w'.dependencies = w.dependencies) (haccepted : w'.accepted = w.accepted) :
    Rewrites R w w' :=
  ⟨⟨id, by rw [hitems, List.map_id], hR⟩, hdependencies, haccepted⟩

theorem Rewrites.trans (h : Rewrites Keeps w w₁) (h' : Rewrites Keeps w₁ w') :
    Rewrites Keeps w w' := by
  obtain ⟨f, hf, hR⟩ := h.rows
  obtain ⟨g, hg, hS⟩ := h'.rows
  refine ⟨⟨g ∘ f, by rw [hg, hf, List.map_map], fun row hrow => ?_⟩,
    h'.dependencies.trans h.dependencies, h'.accepted.trans h.accepted⟩
  exact (hR row hrow).trans (hS (f row) (hf ▸ List.mem_map_of_mem hrow))

theorem Rewrites.ids (h : Rewrites Keeps w w') :
    w'.items.map WorkItem.id = w.items.map WorkItem.id := by
  obtain ⟨f, hf, hR⟩ := h.rows
  rw [hf, List.map_map]
  exact List.map_congr_left fun row hrow => (hR row hrow).id

theorem Rewrites.sound (h : Rewrites Keeps w w') (hw : w.Sound) : w'.Sound := by
  rw [Sound, h.ids]
  exact hw

/-- The rows of a project keep their ids. -/
theorem Rewrites.projectIds (h : Rewrites Keeps w w') (projectId : String) :
    (w'.items.filter fun row => row.project_id = projectId).map WorkItem.id =
      (w.items.filter fun row => row.project_id = projectId).map WorkItem.id := by
  obtain ⟨f, hf, hR⟩ := h.rows
  rw [hf, List.filter_map, List.map_map]
  have hfilter : w.items.filter ((fun row => decide (row.project_id = projectId)) ∘ f) =
      w.items.filter fun row => decide (row.project_id = projectId) :=
    List.filter_congr fun row hrow => by simp only [Function.comp, (hR row hrow).project_id]
  rw [hfilter]
  exact List.map_congr_left fun row hrow => (hR row (List.mem_of_mem_filter hrow)).id

/-- A copy after its row was rewritten. -/
theorem Rewrites.hasRowOf (h : Rewrites R w w') (hcopy : w.HasRowOf copy)
    (hR : ∀ row ∈ w.items, IsCopyOf copy row → ∀ row', R row row' → IsCopyOf copy' row') :
    w'.HasRowOf copy' := by
  obtain ⟨row, hrow, hagrees⟩ := hcopy
  obtain ⟨f, hf, hf'⟩ := h.rows
  exact ⟨f row, hf ▸ List.mem_map_of_mem hrow, hR row hrow hagrees _ (hf' row hrow)⟩

theorem Restates.keeps (h : Restates id ok row row') : Keeps row row' := by
  by_cases hid : row.id = id
  · obtain ⟨status, metadata, rfl, -⟩ := h.2 hid
    exact ⟨rfl, rfl, rfl, Or.inl ⟨rfl, rfl⟩⟩
  · rw [h.1 hid]
    exact keeps_self row

/-- A copy of a row whose status was written. -/
theorem Restates.isCopyOf (h : Restates id ok row row') (hcopy : IsCopyOf copy row)
    (hstatus : row.id = id → ∀ status, ok row.status status →
      copy'.status = status ∨ copy'.status = .inProgress ∧ status = .todo)
    (hsame : copy' = { copy with status := copy'.status })
    (hother : row.id ≠ id → copy'.status = copy.status) : IsCopyOf copy' row' := by
  rw [hsame]
  by_cases hid : row.id = id
  · obtain ⟨status, metadata, rfl, hok⟩ := h.2 hid
    exact ⟨hcopy.id, hcopy.project_id, hcopy.type, hcopy.parent_work_item_id,
      hcopy.assigned_agent_id, hcopy.execution_config, hcopy.linked_run_id,
      hcopy.current_execution_id, hstatus hid status hok⟩
  · rw [h.1 hid, hother hid]
    exact hcopy

/-- A status that was written may have been written. -/
theorem Rewrites.weaken {status : WorkItemStatus}
    (h : Rewrites (Restates id fun _ s => s = status) w w') :
    Rewrites (Restates id fun s s' => s' = s ∨ s' = status) w w' := by
  refine h.mono fun row _ row' hrow => ⟨hrow.1, fun hid => ?_⟩
  obtain ⟨s, metadata, hrow', hs⟩ := hrow.2 hid
  exact ⟨s, metadata, hrow', Or.inr hs⟩

end Rewriting

end Board

/-! ## Writes -/

section Writes

variable {w : Board} {projectId workItemId : String} {cond : Board → BoardOp → Prop}

@[simp] theorem dependencies_save (w : Board) (c : WorkItemColumns) :
    (w.save c).dependencies = w.dependencies := by
  unfold Board.save
  split <;> rfl

/-- The rows after the save of an entity that has a row. -/
theorem items_save {item : WorkItem} (hitem : item ∈ w.items) (c : WorkItemColumns)
    (hid : c.id = item.id) :
    (w.save c).items = w.items.map fun row => if row.id = c.id then row.write c else row := by
  obtain ⟨found, hfound⟩ : ∃ found, w.find c.id = some found := by
    rw [← Option.isSome_iff_exists, Board.find, List.find?_isSome]
    exact ⟨item, hitem, decide_eq_true hid.symm⟩
  simp only [Board.save, hfound, Board.updateWhere, decide_eq_true_eq]

/-- The save of a row with another status and other metadata. -/
theorem restates_save (hw : w.Sound) {item : WorkItem} (hitem : item ∈ w.items)
    (status : WorkItemStatus) (metadata : Option Json)
    {ok : WorkItemStatus → WorkItemStatus → Prop} (hok : ok item.status status) {w' : Board}
    (hitems : w'.items = w.items.map fun row => if row.id = item.id then
      row.write { item with status := status, metadata := metadata }.columns else row)
    (hdependencies : w'.dependencies = w.dependencies) (haccepted : w'.accepted = w.accepted) :
    Board.Rewrites (Board.Restates item.id ok) w w' := by
  refine ⟨⟨_, hitems, fun row hrow => ⟨fun hid => if_neg hid, fun hid => ?_⟩⟩, hdependencies,
    haccepted⟩
  obtain rfl := hw.eq_of_id hrow hitem hid
  exact ⟨status, metadata, by simp [WorkItem.write, WorkItem.columns], hok⟩

theorem requireWorkItem_spec :
    Prog.Meets (boardContract cond)
      (fun item w' => w' = w.tick ∧ item ∈ w.items ∧ item.id = workItemId ∧
        item.project_id = projectId)
      (fun _ w' => w' = w.tick) (requireWorkItem projectId workItemId) w := by
  refine Prog.meets_bind (awaitBoard_effect ?_ fun _ => rfl)
  intro found w' heffect
  simp only [BoardOp.effect, Prod.mk.injEq] at heffect
  obtain ⟨rfl, hfound⟩ := heffect
  cases found with
  | none => rfl
  | some item =>
      have hrow := List.find?_some hfound
      simp only [WorkItem.isRow, Bool.and_eq_true, decide_eq_true_eq] at hrow
      exact ⟨rfl, List.mem_of_find?_eq_some hfound, hrow.1, hrow.2⟩

/-- Reads leave the rows alone. -/
theorem findDependencies_spec (ids : List String) :
    Prog.Meets (boardContract cond)
      (fun found w' => (w'.items = w.items ∧ w'.dependencies = w.dependencies ∧
        w'.accepted = w.accepted) ∧
        found = w.dependencies.filter fun dependency => dependency.work_item_id ∈ ids)
      (fun _ w' => w'.items = w.items ∧ w'.dependencies = w.dependencies ∧
        w'.accepted = w.accepted)
      (KanbanWorkItemRepository.findDependenciesByWorkItemIds ids) w := by
  unfold KanbanWorkItemRepository.findDependenciesByWorkItemIds
  refine Prog.meets_ite (fun hempty => ?_) fun _ => ?_
  · obtain rfl := List.isEmpty_iff.1 hempty
    exact ⟨⟨rfl, rfl, rfl⟩, by simp⟩
  · refine awaitBoard_effect ?_ fun _ => ⟨rfl, rfl, rfl⟩
    intro found w' heffect
    simp only [BoardOp.effect, Prod.mk.injEq] at heffect
    obtain ⟨rfl, rfl⟩ := heffect
    exact ⟨⟨rfl, rfl, rfl⟩, rfl⟩

/-- A transition that returns has written the status; one that throws has done so at most. -/
theorem updateStatus_spec (hw : w.Sound) (status : WorkItemStatus) :
    Prog.Meets (boardContract cond)
      (fun _ w' => Board.Rewrites (Board.Restates workItemId fun _ s => s = status) w w')
      (fun _ w' => Board.Rewrites (Board.Restates workItemId fun s s' => s' = s ∨ s' = status) w w')
      (updateStatus projectId workItemId status) w := by
  have hsame : ∀ w' : Board, w'.items = w.items → w'.dependencies = w.dependencies →
      w'.accepted = w.accepted →
      Board.Rewrites (Board.Restates workItemId fun s s' => s' = s ∨ s' = status) w w' :=
    fun w' => Board.rewrites_self fun row _ =>
      ⟨fun _ => rfl, fun _ => ⟨row.status, row.metadata, rfl, Or.inl rfl⟩⟩
  refine Prog.meets_bind (requireWorkItem_spec.mono ?_ ?_)
  · rintro item w₁ ⟨rfl, hitem, rfl, rfl⟩
    have hsound : w.tick.Sound := hw
    refine Prog.meets_ite (fun hstatus => ?_) fun _ => ?_
    · -- the item has the status already
      refine Prog.meets_bind ((findDependencies_spec _).mono ?_ ?_)
      · rintro _ w' ⟨⟨hitems, hdependencies, haccepted⟩, -⟩
        refine Board.rewrites_self (fun row hrow => ⟨fun _ => rfl, fun hid => ?_⟩) hitems
          hdependencies haccepted
        obtain rfl := hw.eq_of_id hrow hitem hid
        exact ⟨row.status, row.metadata, rfl, hstatus⟩
      · rintro _ w' ⟨hitems, hdependencies, haccepted⟩
        exact hsame w' hitems hdependencies haccepted
    · refine Prog.meets_bind (awaitBoard_effect ?_ fun _ => hsame _ rfl rfl rfl)
      intro gate w₁ heffect
      simp only [BoardOp.effect, Prod.mk.injEq] at heffect
      obtain ⟨rfl, -⟩ := heffect
      -- the save that either answer of the gate leads to
      have hsaved : ∀ (s : WorkItemStatus) (metadata : Option Json)
          (ok : WorkItemStatus → WorkItemStatus → Prop) (w' : Board), ok item.status s →
          w'.items = (w.tick.tick.tick.save
            { item with status := s, metadata := metadata }.columns).items →
          w'.dependencies = w.dependencies → w'.accepted = w.accepted →
          Board.Rewrites (Board.Restates item.id ok) w w' := by
        intro s metadata ok w' hok hitems hdependencies haccepted
        refine restates_save hw hitem s metadata hok ?_ hdependencies haccepted
        exact hitems.trans (items_save (w := w.tick.tick.tick) hitem _ rfl)
      cases gate with
      | blocked heldAt failures =>
          refine Prog.meets_bind (awaitBoard_effect ?_ fun _ => hsame _ rfl rfl rfl)
          intro saved w₂ heffect
          simp only [BoardOp.effect, Prod.mk.injEq] at heffect
          obtain ⟨rfl, -⟩ := heffect
          exact hsaved item.status _ (fun s s' => s' = s ∨ s' = status) _ (Or.inl rfl) rfl
            (dependencies_save _ _) (accepted_save _ _)
      | passed =>
          refine Prog.meets_bind (awaitBoard_effect ?_ fun _ => hsame _ rfl rfl rfl)
          intro saved w₂ heffect
          simp only [BoardOp.effect, Prod.mk.injEq] at heffect
          obtain ⟨rfl, -⟩ := heffect
          -- what follows the save reads and announces
          refine Prog.meets_bind ((findDependencies_spec _).mono ?_ ?_)
          · rintro _ w₃ ⟨⟨hitems, hdependencies, haccepted⟩, -⟩
            refine awaitBoard_effect (fun _ w₄ heffect => ?_) fun _ => ?_
            · simp only [BoardOp.effect, Prod.mk.injEq] at heffect
              obtain ⟨rfl, -⟩ := heffect
              exact hsaved status _ (fun _ s => s = status) _ rfl hitems
                (hdependencies.trans (dependencies_save _ _)) (haccepted.trans (accepted_save _ _))
            · exact hsaved status _ (fun s s' => s' = s ∨ s' = status) _ (Or.inr rfl) hitems
                (hdependencies.trans (dependencies_save _ _)) (haccepted.trans (accepted_save _ _))
          · rintro _ w₃ ⟨hitems, hdependencies, haccepted⟩
            exact hsaved status _ (fun s s' => s' = s ∨ s' = status) _ (Or.inr rfl) hitems
              (hdependencies.trans (dependencies_save _ _)) (haccepted.trans (accepted_save _ _))
  · rintro error w' rfl
    exact hsame _ rfl rfl rfl

end Writes

/-! ## Reconciliation -/

/-- What a reconciliation of one item knows of the copies after it. -/
structure Reconciled (w w' : Board) (item : WorkItem) (r : ClearedRun) : Prop where
  rewrites : Board.Rewrites Board.Keeps w w'
  id : r.item.id = item.id
  copy : w'.HasRowOf r.item
  others : ∀ copy, w.HasRowOf copy → copy.id ≠ item.id → w'.HasRowOf copy
  same : ∀ copy, w.HasRowOf copy → copy.id = item.id →
    w'.HasRowOf (if r.cleared then copy.withLinks none else copy)

section Reconciliation

variable {w : Board} {item : WorkItem} {cond : Board → BoardOp → Prop}

theorem IsCopyOf.withLinks {copy row : WorkItem} (h : IsCopyOf copy row) (link : Option String) :
    IsCopyOf (copy.withLinks link) (row.withLinks link) :=
  ⟨h.id, h.project_id, h.type, h.parent_work_item_id, h.assigned_agent_id, h.execution_config,
    rfl, rfl, h.status⟩

theorem Board.rewrites_keeps {w' : Board} (hitems : w'.items = w.items)
    (hdependencies : w'.dependencies = w.dependencies) (haccepted : w'.accepted = w.accepted) :
    Board.Rewrites Board.Keeps w w' :=
  Board.rewrites_self (fun row _ => Board.keeps_self row) hitems hdependencies haccepted

/-- Nothing was cleared. -/
theorem reconciled_self (hcopy : w.HasRowOf item) {w' : Board} (hitems : w'.items = w.items)
    (hdependencies : w'.dependencies = w.dependencies) (haccepted : w'.accepted = w.accepted)
    (result : DispatchResult) : Reconciled w w' item ⟨item, result, false⟩ := by
  have hkept : ∀ copy, w.HasRowOf copy → w'.HasRowOf copy := by
    rintro copy ⟨row, hrow, hagrees⟩
    exact ⟨row, hitems ▸ hrow, hagrees⟩
  exact ⟨Board.rewrites_keeps hitems hdependencies haccepted, rfl, hkept item hcopy,
    fun copy h _ => hkept copy h, fun copy h _ => hkept copy h⟩

/-- A clear that matches no row changes nothing. -/
theorem items_updateWhere_of_not_any {p : WorkItem → Bool} {f : WorkItem → WorkItem}
    (h : w.items.any p = false) : (w.updateWhere p f).items = w.items := by
  have hnone : ∀ row ∈ w.items, p row = false := by simpa using h
  have hmap : w.items.map (fun row => if p row then f row else row) = w.items.map id :=
    List.map_congr_left fun row hrow => by rw [hnone row hrow]; rfl
  exact hmap.trans (List.map_id _)

/-- A clear that matches a row clears the links of the copies with its id. -/
theorem reconciled_clear (hw : w.Sound) {projectId runId : String} (hcopy : w.HasRowOf item)
    (hmatch : w.items.any (WorkItem.isLinkedTo projectId item.id runId) = true)
    {w' : Board}
    (hitems : w'.items = (w.updateWhere (WorkItem.isLinkedTo projectId item.id runId)
      (WorkItem.withLinks · none)).items)
    (hdependencies : w'.dependencies = w.dependencies) (haccepted : w'.accepted = w.accepted)
    (result : DispatchResult) : Reconciled w w' item ⟨item.withLinks none, result, true⟩ := by
  obtain ⟨linked, hlinked, hmatches⟩ := List.any_eq_true.1 hmatch
  have hid : linked.id = item.id := by
    simp only [WorkItem.isLinkedTo, WorkItem.isRow, Bool.and_eq_true, decide_eq_true_eq] at hmatches
    exact hmatches.1.1.1
  have hrewrites : Board.Rewrites
      (fun row row' => (row.id ≠ item.id → row' = row) ∧
        (row.id = item.id → row' = row.withLinks none)) w w' := by
    refine ⟨⟨_, hitems, fun row hrow => ⟨fun hne => if_neg ?_, fun heq => ?_⟩⟩, hdependencies,
      haccepted⟩
    · simp [WorkItem.isLinkedTo, WorkItem.isRow, hne]
    · obtain rfl := hw.eq_of_id hrow hlinked (heq.trans hid.symm)
      exact if_pos hmatches
  have hcleared : ∀ copy, w.HasRowOf copy → copy.id = item.id →
      w'.HasRowOf (copy.withLinks none) := by
    intro copy h hsame
    refine hrewrites.hasRowOf h fun row _ hagrees row' hrow' => ?_
    rw [hrow'.2 (hagrees.id.symm.trans hsame)]
    exact hagrees.withLinks none
  refine ⟨hrewrites.mono fun row _ row' hrow' => ?_, rfl, hcleared item hcopy rfl,
    fun copy h hne => ?_, hcleared⟩
  · by_cases heq : row.id = item.id
    · rw [hrow'.2 heq]
      exact ⟨rfl, rfl, rfl, Or.inr ⟨rfl, rfl⟩⟩
    · rw [hrow'.1 heq]
      exact Board.keeps_self row
  · refine hrewrites.hasRowOf h fun row _ hagrees row' hrow' => ?_
    rw [hrow'.1 fun heq => hne (hagrees.id.trans heq)]
    exact hagrees

/-- Every copy survives the reset of an item that was in progress, also one that throws. -/
theorem hasRowOf_reset (hw : w.Sound) (hitem : w.HasRowOf item) (hstatus : item.status = .inProgress)
    {w' : Board}
    (h : Board.Rewrites (Board.Restates item.id fun s s' => s' = s ∨ s' = .todo) w w')
    {copy : WorkItem} (hcopy : w.HasRowOf copy) : w'.HasRowOf copy := by
  obtain ⟨itemRow, hitemRow, hitemAgrees⟩ := hitem
  refine h.hasRowOf hcopy fun row hrow hagrees row' hrow' => ?_
  refine hrow'.isCopyOf hagrees (fun hid s hs => ?_) rfl fun _ => rfl
  obtain rfl := hw.eq_of_id hrow hitemRow (hid.trans hitemAgrees.id)
  have hrowStatus : row.status = .inProgress ∨ row.status = .todo := by
    rcases hitemAgrees.status with hsame | ⟨-, htodo⟩
    · exact Or.inl (hsame.symm.trans hstatus)
    · exact Or.inr htodo
  rcases hs with rfl | rfl
  · exact hagrees.status
  · rcases hagrees.status with hsame | ⟨hprogress, -⟩
    · rcases hrowStatus with hprogress | htodo
      · exact Or.inr ⟨hsame.trans hprogress, rfl⟩
      · exact Or.inl (hsame.trans htodo)
    · exact Or.inr ⟨hprogress, rfl⟩

/-- The copy of an item after its reset. -/
theorem hasRowOf_todo {w' : Board} (hitem : w.HasRowOf item)
    (h : Board.Rewrites (Board.Restates item.id fun _ s => s = .todo) w w') :
    w'.HasRowOf { item with status := .todo } := by
  refine h.hasRowOf hitem fun row _ hagrees row' hrow' => ?_
  exact hrow'.isCopyOf hagrees (fun _ s hs => Or.inl hs.symm) rfl fun hne =>
    absurd hagrees.id.symm hne

theorem clearTerminalLinkedRun_spec (hw : w.Sound) (hcopy : w.HasRowOf item)
    (deps : DispatchCoreDeps) (result : DispatchResult) (pushSkip : Bool) :
    Prog.Meets (boardContract cond) (fun r w' => Reconciled w w' item r)
      (fun _ w' => w'.accepted = w.accepted) (clearTerminalLinkedRun deps item result pushSkip) w := by
  have hself : ∀ result, Reconciled w w item ⟨item, result, false⟩ :=
    reconciled_self hcopy rfl rfl rfl
  have hticked : ∀ result, Reconciled w w.tick item ⟨item, result, false⟩ :=
    reconciled_self hcopy rfl rfl rfl
  unfold clearTerminalLinkedRun
  split
  · exact hself result
  · rename_i runId hrun
    refine Prog.meets_ite (fun _ => hself result) fun _ => ?_
    refine Prog.meets_bind (tryBoard_spec (fun _ => ?_) fun message _ _ => ?_)
    · refine Prog.meets_ite (fun _ => hticked result) fun _ => ?_
      refine Prog.meets_bind (awaitBoard_effect ?_ fun _ => rfl)
      intro cleared w₁ heffect
      simp only [BoardOp.effect, Prod.mk.injEq] at heffect
      obtain ⟨hw₁, hmatch⟩ := heffect
      refine Prog.meets_ite (fun hnot => ?_) fun hnot => ?_
      · -- no row is linked to the run any more
        have hnone : w.items.any (WorkItem.isLinkedTo item.project_id item.id runId) = false := by
          have hfalse : cleared = false := by simpa using hnot
          exact hmatch.trans hfalse
        subst hw₁
        exact reconciled_self hcopy (items_updateWhere_of_not_any (w := w.tick.tick) hnone) rfl rfl
          result
      · have hmatched : w.items.any (WorkItem.isLinkedTo item.project_id item.id runId) = true := by
          have htrue : cleared = true := by simpa using hnot
          exact hmatch.trans htrue
        have haccepted : w₁.accepted = w.accepted := by rw [← hw₁]; rfl
        have hclear : ∀ result, Reconciled w w₁ item ⟨item.withLinks none, result, true⟩ :=
          reconciled_clear hw hcopy hmatched (by rw [← hw₁]; rfl) (by rw [← hw₁]; rfl) haccepted
        refine Prog.meets_ite (fun hreset => ?_) fun _ => hclear _
        have hfirst := hclear result
        have hsound : w₁.Sound := hfirst.rewrites.sound hw
        have hprogress : (item.withLinks none).status = .inProgress := hreset.1
        refine Prog.meets_bind ((updateStatus_spec hsound .todo).mono (fun _ w₂ hwritten => ?_)
          fun _ w₂ hthrown => hthrown.accepted.trans haccepted)
        have hkept := fun {copy : WorkItem} (h : w₁.HasRowOf copy) =>
          hasRowOf_reset hsound hfirst.copy hprogress hwritten.weaken h
        exact
          { rewrites := hfirst.rewrites.trans (hwritten.mono fun _ _ _ hrow => hrow.keeps)
            id := rfl
            copy := hasRowOf_todo hfirst.copy hwritten
            others := fun copy h hne => hkept (hfirst.others copy h hne)
            same := fun copy h hsame => hkept (hfirst.same copy h hsame) }
    · exact Prog.meets_ite (fun _ => hticked _) fun _ => hticked _

/-- What a reconciliation of several items knows of the copies after it. -/
structure ReconciledAll (w w' : Board) (items items' : List WorkItem) : Prop where
  rewrites : Board.Rewrites Board.Keeps w w'
  ids : items'.map WorkItem.id = items.map WorkItem.id
  copies : ∀ copy ∈ items', w'.HasRowOf copy
  others : ∀ copy, w.HasRowOf copy → copy.id ∉ items.map WorkItem.id → w'.HasRowOf copy

/-- The requested copies are filed under their ids. -/
def RequestedAgree (w : Board) (requestedById : OrderedMap String WorkItem) : Prop :=
  ∀ id copy, OrderedMap.get? requestedById id = some copy → copy.id = id ∧ w.HasRowOf copy

theorem reconciledAll_nil {w w' : Board} (hitems : w'.items = w.items)
    (hdependencies : w'.dependencies = w.dependencies) (haccepted : w'.accepted = w.accepted) :
    ReconciledAll w w' [] [] where
  rewrites := Board.rewrites_keeps hitems hdependencies haccepted
  ids := rfl
  copies := fun _ h => nomatch h
  others := fun _ ⟨row, hrow, hagrees⟩ _ => ⟨row, hitems ▸ hrow, hagrees⟩

variable {r : ClearedRun} {items : List WorkItem}

/-- One more item was reconciled before the others. -/
theorem Reconciled.cons {w₁ w₂ : Board} {items' : List WorkItem} (h : Reconciled w w₁ item r)
    (hrest : ReconciledAll w₁ w₂ items items') (hnotMem : item.id ∉ items.map WorkItem.id) :
    ReconciledAll w w₂ (item :: items) (r.item :: items') where
  rewrites := h.rewrites.trans hrest.rewrites
  ids := by rw [List.map_cons, List.map_cons, h.id, hrest.ids]
  copies := by
    intro copy hcopy
    rcases List.mem_cons.1 hcopy with rfl | hcopy
    · exact hrest.others r.item h.copy (h.id ▸ hnotMem)
    · exact hrest.copies copy hcopy
  others := by
    intro copy hcopy hother
    rw [List.map_cons, List.mem_cons, not_or] at hother
    exact hrest.others copy (h.others copy hcopy hother.1) hother.2

/-- The copies of the rest of the items after the first one was reconciled. -/
theorem Reconciled.rest {w₁ : Board} (h : Reconciled w w₁ item r)
    (hitems : ∀ copy ∈ item :: items, w.HasRowOf copy) (hnotMem : item.id ∉ items.map WorkItem.id) :
    ∀ copy ∈ items, w₁.HasRowOf copy := by
  intro copy hcopy
  refine h.others copy (hitems copy (List.mem_cons_of_mem _ hcopy)) fun hid => hnotMem ?_
  exact hid ▸ List.mem_map_of_mem hcopy

/-- The requested copies after one item was reconciled. -/
theorem Reconciled.requested {w₁ : Board} {requestedById : OrderedMap String WorkItem}
    (h : Reconciled w w₁ item r) (hrequested : RequestedAgree w requestedById) :
    RequestedAgree w₁
      (if r.cleared then clearRequested requestedById item.id else requestedById) := by
  intro id copy hget
  by_cases hid : id = item.id
  · subst hid
    cases hcleared : r.cleared with
    | false =>
        simp only [hcleared, Bool.false_eq_true, if_false] at hget
        obtain ⟨hcopyId, hcopy⟩ := hrequested _ _ hget
        have hkept := h.same copy hcopy hcopyId
        rw [hcleared] at hkept
        exact ⟨hcopyId, hkept⟩
    | true =>
        simp only [hcleared, if_true, clearRequested] at hget
        cases hbefore : OrderedMap.get? requestedById item.id with
        | none => simp [hbefore] at hget
        | some requested =>
            simp only [hbefore, OrderedMap.get?_set_self, Option.some.injEq] at hget
            subst hget
            obtain ⟨hcopyId, hcopy⟩ := hrequested _ _ hbefore
            have hkept := h.same requested hcopy hcopyId
            rw [hcleared] at hkept
            exact ⟨hcopyId, hkept⟩
  · have hbefore : OrderedMap.get? requestedById id = some copy := by
      rw [← hget]
      split
      · unfold clearRequested
        split
        · rfl
        · exact (OrderedMap.get?_set_of_ne _ _ (Ne.symm hid)).symm
      · rfl
    obtain ⟨hcopyId, hcopy⟩ := hrequested _ _ hbefore
    exact ⟨hcopyId, h.others copy hcopy (hcopyId ▸ hid)⟩

theorem reconcileAllLinkedRuns_spec (deps : DispatchCoreDeps) (pushSkip : Bool)
    (items : List WorkItem) (result : DispatchResult) (hw : w.Sound)
    (hitems : ∀ copy ∈ items, w.HasRowOf copy) (hnodup : (items.map WorkItem.id).Nodup) :
    Prog.Meets (boardContract cond) (fun r w' => ReconciledAll w w' items r.1)
      (fun _ w' => w'.accepted = w.accepted)
      (reconcileAllLinkedRuns deps pushSkip items result) w := by
  induction items generalizing result w with
  | nil => exact reconciledAll_nil rfl rfl rfl
  | cons item items ih =>
      rw [List.map_cons, List.nodup_cons] at hnodup
      refine Prog.Meets.bind (clearTerminalLinkedRun_spec hw (hitems item List.mem_cons_self) deps
        result pushSkip) ?_
      intro r w₁ hfirst
      have hrest := hfirst.rest hitems hnodup.1
      refine Prog.meets_bind ((ih r.result (hfirst.rewrites.sound hw) hrest hnodup.2).mono ?_ ?_)
      · intro rest w₂ hall
        exact hfirst.cons hall hnodup.1
      · intro error w₂ hsame
        exact hsame.trans hfirst.rewrites.accepted

theorem reconcileSelectedScope_spec (deps : DispatchCoreDeps) (scope : ReconcileScope)
    (items : List WorkItem) (requestedById : OrderedMap String WorkItem) (result : DispatchResult)
    (hw : w.Sound) (hitems : ∀ copy ∈ items, w.HasRowOf copy)
    (hnodup : (items.map WorkItem.id).Nodup) (hrequested : RequestedAgree w requestedById) :
    Prog.Meets (boardContract cond)
      (fun r w' => ReconciledAll w w' items r.1 ∧ RequestedAgree w' r.2.1)
      (fun _ w' => w'.accepted = w.accepted)
      (reconcileSelectedScope deps scope items requestedById result) w := by
  induction items generalizing requestedById result w with
  | nil => exact ⟨reconciledAll_nil rfl rfl rfl, hrequested⟩
  | cons item items ih =>
      rw [List.map_cons, List.nodup_cons] at hnodup
      have hitem := hitems item List.mem_cons_self
      have hself : Reconciled w w item ⟨item, result, false⟩ :=
        reconciled_self hitem rfl rfl rfl result
      refine Prog.meets_ite (fun _ => ?_) fun _ => ?_
      · refine Prog.meets_bind ((ih requestedById result hw (hself.rest hitems hnodup.1) hnodup.2
          hrequested).mono ?_ fun _ _ hsame => hsame)
        rintro ⟨rest, requested, result'⟩ w₂ ⟨hall, hagree⟩
        exact ⟨hself.cons hall hnodup.1, hagree⟩
      · refine Prog.Meets.bind (clearTerminalLinkedRun_spec hw hitem deps result false) ?_
        intro r w₁ hfirst
        refine Prog.meets_bind ((ih _ r.result (hfirst.rewrites.sound hw)
          (hfirst.rest hitems hnodup.1) hnodup.2 (hfirst.requested hrequested)).mono ?_ ?_)
        · rintro ⟨rest, requested, result'⟩ w₂ ⟨hall, hagree⟩
          exact ⟨hfirst.cons hall hnodup.1, hagree⟩
        · intro error w₂ hsame
          exact hsame.trans hfirst.rewrites.accepted

/-- An orphan that is reset is a copy again, and no copy is lost. -/
theorem resetOrphan_spec (deps : DispatchCoreDeps) (result : DispatchResult) (hw : w.Sound)
    (hitem : w.HasRowOf item) :
    Prog.Meets (boardContract cond)
      (fun r w' => Board.Rewrites Board.Keeps w w' ∧ r.1.id = item.id ∧ w'.HasRowOf r.1 ∧
        ∀ copy, w.HasRowOf copy → w'.HasRowOf copy)
      (fun _ w' => w'.accepted = w.accepted) (resetOrphan deps item result) w := by
  refine Prog.meets_ite (fun horphan => ?_) fun _ => ?_
  · have hprogress : item.status = .inProgress := by
      simp only [isOrphanedInProgressItem, Bool.and_eq_true, decide_eq_true_eq] at horphan
      exact horphan.2.1.1
    refine Prog.meets_handle (Prog.meets_bind ((updateStatus_spec hw .todo).mono ?_ ?_))
    · intro _ w₁ hwritten
      have hkept := fun copy (h : w.HasRowOf copy) =>
        hasRowOf_reset hw hitem hprogress hwritten.weaken h
      exact ⟨hwritten.mono fun _ _ _ hrow => hrow.keeps, rfl, hasRowOf_todo hitem hwritten,
        hkept⟩
    · intro _ w₁ hmaybe
      have hkept := fun copy (h : w.HasRowOf copy) =>
        hasRowOf_reset hw hitem hprogress hmaybe h
      exact ⟨hmaybe.mono fun _ _ _ hrow => hrow.keeps, rfl, hkept item hitem, hkept⟩
  · exact ⟨Board.rewrites_keeps rfl rfl rfl, rfl, hitem, fun _ h => h⟩

theorem reconcileOrphans_spec (deps : DispatchCoreDeps) (items : List WorkItem)
    (result : DispatchResult) (hw : w.Sound) (hitems : ∀ copy ∈ items, w.HasRowOf copy) :
    Prog.Meets (boardContract cond)
      (fun r w' => Board.Rewrites Board.Keeps w w' ∧
        r.1.map WorkItem.id = items.map WorkItem.id ∧ (∀ copy ∈ r.1, w'.HasRowOf copy) ∧
        ∀ copy, w.HasRowOf copy → w'.HasRowOf copy)
      (fun _ w' => w'.accepted = w.accepted) (reconcileOrphans deps items result) w := by
  induction items generalizing result w with
  | nil =>
      have hnone : ∀ copy ∈ ([] : List WorkItem), w.HasRowOf copy := fun _ h => nomatch h
      exact ⟨Board.rewrites_keeps rfl rfl rfl, rfl, hnone, fun _ h => h⟩
  | cons item items ih =>
      refine Prog.Meets.bind (resetOrphan_spec deps result hw (hitems item List.mem_cons_self)) ?_
      rintro ⟨item', result'⟩ w₁ ⟨hrewrites, hid, hcopy, hkept⟩
      have hrest : ∀ copy ∈ items, w₁.HasRowOf copy := fun copy h =>
        hkept copy (hitems copy (List.mem_cons_of_mem _ h))
      refine Prog.meets_bind ((ih result' (hrewrites.sound hw) hrest).mono ?_ ?_)
      · rintro ⟨rest, result''⟩ w₂ ⟨hrewrites', hids, hcopies, hkept'⟩
        refine ⟨hrewrites.trans hrewrites', ?_, ?_, fun copy h => hkept' copy (hkept copy h)⟩
        · simp only [List.map_cons] at hids ⊢
          rw [hids, hid]
        · intro copy h
          rcases List.mem_cons.1 h with rfl | h
          · exact hkept' copy hcopy
          · exact hcopies copy h
      · intro error w₂ hsame
        exact hsame.trans hrewrites.accepted

/-! ## The context -/

theorem get?_mapById_mem {id : String} {item : WorkItem}
    (h : OrderedMap.get? (mapById items) id = some item) : item ∈ items ∧ item.id = id := by
  have hfold : ∀ (items : List WorkItem) (m : OrderedMap String WorkItem),
      OrderedMap.get? (items.foldl (fun byId item => OrderedMap.set byId item.id item) m) id =
        some item → (item ∈ items ∧ item.id = id) ∨ OrderedMap.get? m id = some item := by
    intro items
    induction items with
    | nil => exact fun m h => Or.inr h
    | cons other items ih =>
        intro m h
        rcases ih _ h with ⟨hmem, hid⟩ | hget
        · exact Or.inl ⟨List.mem_cons_of_mem _ hmem, hid⟩
        · by_cases hid : other.id = id
          · subst hid
            rw [OrderedMap.get?_set_self, Option.some.injEq] at hget
            subst hget
            exact Or.inl ⟨List.mem_cons_self, rfl⟩
          · rw [OrderedMap.get?_set_of_ne _ _ hid] at hget
            exact Or.inr hget
  rcases hfold items [] h with hfound | hnone
  · exact hfound
  · cases hnone

theorem requestedAgree_mapById (h : ∀ copy ∈ items, w.HasRowOf copy) :
    RequestedAgree w (mapById items) := by
  intro id copy hget
  obtain ⟨hmem, hid⟩ := get?_mapById_mem hget
  exact ⟨hid, h copy hmem⟩

theorem findByIds_spec (ids : List String) :
    Prog.Meets (boardContract cond)
      (fun found w' => (w'.items = w.items ∧ w'.dependencies = w.dependencies ∧
        w'.accepted = w.accepted) ∧ ∀ row ∈ found, row ∈ w.items)
      (fun _ w' => w'.items = w.items ∧ w'.dependencies = w.dependencies ∧
        w'.accepted = w.accepted)
      (KanbanWorkItemRepository.findByIds ids) w := by
  unfold KanbanWorkItemRepository.findByIds
  refine Prog.meets_ite (fun _ => ⟨⟨rfl, rfl, rfl⟩, fun _ h => nomatch h⟩) fun _ => ?_
  refine awaitBoard_effect ?_ fun _ => ⟨rfl, rfl, rfl⟩
  intro found w' heffect
  simp only [BoardOp.effect, Prod.mk.injEq] at heffect
  obtain ⟨rfl, rfl⟩ := heffect
  exact ⟨⟨rfl, rfl, rfl⟩, fun row hrow => List.mem_of_mem_filter hrow⟩

/-- The copies of the project's items, in their order, and the requested copies. -/
structure Holds (ids : List String) (w w' : Board) (r : Reconciliation) : Prop where
  rewrites : Board.Rewrites Board.Keeps w w'
  ids : r.projectItems.map WorkItem.id = ids
  copies : ∀ copy ∈ r.projectItems, w'.HasRowOf copy
  requested : RequestedAgree w' r.requestedById

/-- What a pass knows once it has read and reconciled. -/
structure Prepared (options : DispatchCoreOptions) (w w' : Board)
    (dependencies : List DependencyRecord) (r : Reconciliation) : Prop extends
    Holds ((w.items.filter fun row => row.project_id = options.projectId).map WorkItem.id) w w' r
    where
  dependencies : dependencies = w.dependencies.filter fun dependency =>
    dependency.work_item_id ∈ r.projectItems.map WorkItem.id

section Context

variable {w₀ : Board} {ids : List String} {deps : DispatchCoreDeps} {options : DispatchCoreOptions}
  {r : Reconciliation}

theorem loadRequestedItems_spec :
    Prog.Meets (boardContract cond)
      (fun found w' => (w'.items = w.items ∧ w'.dependencies = w.dependencies ∧
        w'.accepted = w.accepted) ∧ (∀ row ∈ found, row ∈ w.items) ∧
        (options.selectedMode = false → found = []))
      (fun _ w' => w'.accepted = w.accepted) (loadRequestedItems options) w := by
  unfold loadRequestedItems
  split
  · exact ⟨⟨rfl, rfl, rfl⟩, (fun _ h => nomatch h), fun _ => rfl⟩
  · rename_i selected hselected
    refine (findByIds_spec selected).mono ?_ fun _ _ h => h.2.2
    rintro found w' ⟨hsame, hfound⟩
    exact ⟨hsame, hfound, fun hmode => by simp [DispatchCoreOptions.selectedMode, hselected] at hmode⟩

theorem reconcileRunStatus_spec (requestedItems : List WorkItem) (hw : w₀.Sound)
    (h : Holds ids w₀ w r) (hnodup : ids.Nodup)
    (hnone : options.selectedMode = false → r.requestedById = []) :
    Prog.Meets (boardContract cond) (fun r' w' => Holds ids w₀ w' r')
      (fun _ w' => w'.accepted = w₀.accepted)
      (reconcileRunStatus deps options requestedItems r) w := by
  have hsound := h.rewrites.sound hw
  have hitemIds : (r.projectItems.map WorkItem.id).Nodup := h.ids ▸ hnodup
  refine Prog.meets_ite (fun _ => ?_) fun _ => h
  refine Prog.meets_ite (fun _ => ?_) fun hmode => ?_
  · refine Prog.meets_bind ((reconcileSelectedScope_spec deps _ _ _ _ hsound h.copies hitemIds
      h.requested).mono ?_ fun _ _ hsame => hsame.trans h.rewrites.accepted)
    rintro ⟨projectItems, requestedById, result⟩ w' ⟨hall, hagree⟩
    exact ⟨h.rewrites.trans hall.rewrites, hall.ids.trans h.ids, hall.copies, hagree⟩
  · refine Prog.meets_bind ((reconcileAllLinkedRuns_spec deps true _ _ hsound h.copies hitemIds).mono
      ?_ fun _ _ hsame => hsame.trans h.rewrites.accepted)
    rintro ⟨projectItems, result⟩ w' hall
    refine ⟨h.rewrites.trans hall.rewrites, hall.ids.trans h.ids, hall.copies, ?_⟩
    intro id copy hget
    rw [hnone (by simpa using hmode)] at hget
    cases hget

theorem reconcileOrphanStatus_spec (hw : w₀.Sound) (h : Holds ids w₀ w r) :
    Prog.Meets (boardContract cond) (fun r' w' => Holds ids w₀ w' r')
      (fun _ w' => w'.accepted = w₀.accepted) (reconcileOrphanStatus deps options r) w := by
  refine Prog.meets_ite (fun _ => ?_) fun _ => h
  refine Prog.meets_bind ((reconcileOrphans_spec deps _ _ (h.rewrites.sound hw) h.copies).mono
    ?_ fun _ _ hsame => hsame.trans h.rewrites.accepted)
  rintro ⟨projectItems, result⟩ w' ⟨hrewrites, hids, hcopies, hkept⟩
  refine ⟨h.rewrites.trans hrewrites, hids.trans h.ids, hcopies, fun id copy hget => ?_⟩
  obtain ⟨hid, hcopy⟩ := h.requested id copy hget
  exact ⟨hid, hkept copy hcopy⟩

theorem refreshRequested_spec (h : Holds ids w₀ w r) :
    Prog.Meets (boardContract cond) (fun r' w' => Holds ids w₀ w' r' ∧ r'.projectItems = r.projectItems)
      (fun _ w' => w'.accepted = w₀.accepted) (refreshRequested options r) w := by
  have hkept : ∀ w' : Board, w'.items = w.items → w'.dependencies = w.dependencies →
      w'.accepted = w.accepted → Board.Rewrites Board.Keeps w₀ w' ∧
        ∀ copy, w.HasRowOf copy → w'.HasRowOf copy := by
    intro w' hitems hdependencies haccepted
    refine ⟨h.rewrites.trans (Board.rewrites_keeps hitems hdependencies haccepted), ?_⟩
    rintro copy ⟨row, hrow, hagrees⟩
    exact ⟨row, hitems ▸ hrow, hagrees⟩
  unfold refreshRequested
  split
  · exact ⟨h, rfl⟩
  · rename_i selected _
    refine Prog.meets_bind (Prog.meets_handle (Prog.meets_bind ((findByIds_spec selected).mono ?_ ?_)))
    · rintro found w' ⟨⟨hitems, hdependencies, haccepted⟩, hfound⟩
      obtain ⟨hrewrites, hcopies⟩ := hkept w' hitems hdependencies haccepted
      refine ⟨⟨hrewrites, h.ids, fun copy hcopy => hcopies copy (h.copies copy hcopy), ?_⟩, rfl⟩
      exact requestedAgree_mapById fun row hrow => ⟨row, hitems ▸ hfound row hrow, isCopyOf_self row⟩
    · rintro error w' ⟨hitems, hdependencies, haccepted⟩
      obtain ⟨hrewrites, hcopies⟩ := hkept w' hitems hdependencies haccepted
      refine ⟨⟨hrewrites, h.ids, fun copy hcopy => hcopies copy (h.copies copy hcopy), ?_⟩, rfl⟩
      intro id copy hget
      obtain ⟨hid, hcopy⟩ := h.requested id copy hget
      exact ⟨hid, hcopies copy hcopy⟩

/-- **The preparation.** Every copy agrees with its row when the loop begins. -/
theorem readAndReconcile_spec (hw : w.Sound) :
    Prog.Meets (boardContract cond) (fun d w' => Prepared options w w' d.1 d.2)
      (fun _ w' => w'.accepted = w.accepted) (readAndReconcile deps options) w := by
  refine Prog.meets_bind (awaitBoard_effect ?_ fun _ => rfl)
  intro projectItems w₁ heffect
  simp only [BoardOp.effect, Prod.mk.injEq] at heffect
  obtain ⟨rfl, hprojectItems⟩ := heffect
  have hread : projectItems = w.items.filter fun row => row.project_id = options.projectId :=
    hprojectItems.symm
  refine Prog.meets_bind ((findDependencies_spec _).mono ?_ fun _ _ h => h.2.2)
  rintro dependencies w₂ ⟨⟨hitems₂, hdependencies₂, haccepted₂⟩, hfound⟩
  refine Prog.meets_bind (loadRequestedItems_spec.mono ?_ fun _ _ h => h.trans haccepted₂)
  rintro requestedItems w₃ ⟨⟨hitems₃, hdependencies₃, haccepted₃⟩, hrequested, hmode⟩
  have hitems : w₃.items = w.items := hitems₃.trans hitems₂
  have hrow : ∀ row ∈ w.items, w₃.HasRowOf row := fun row h =>
    ⟨row, hitems ▸ h, isCopyOf_self row⟩
  have hstart : Holds ((w.items.filter fun row => row.project_id = options.projectId).map
      WorkItem.id) w w₃ { projectItems, requestedById := mapById requestedItems } := by
    refine ⟨Board.rewrites_keeps hitems (hdependencies₃.trans hdependencies₂)
      (haccepted₃.trans haccepted₂), by rw [hread], fun copy hcopy => ?_, ?_⟩
    · rw [hread] at hcopy
      exact hrow copy (List.mem_of_mem_filter hcopy)
    · exact requestedAgree_mapById fun row h => hrow row (hitems₂ ▸ hrequested row h)
  have hnodup : ((w.items.filter fun row => row.project_id = options.projectId).map
      WorkItem.id).Nodup := hw.sublist (List.filter_sublist.map _)
  refine Prog.Meets.bind (reconcileRunStatus_spec requestedItems hw hstart hnodup fun hoff => ?_) ?_
  · simp [hmode hoff, mapById]
  · intro r₁ w₄ h₁
    refine Prog.Meets.bind (reconcileOrphanStatus_spec hw h₁) fun r₂ w₅ h₂ => ?_
    refine Prog.meets_bind ((refreshRequested_spec h₂).mono ?_ fun _ _ h => h)
    rintro r₃ w₆ ⟨h₃, hsame⟩
    refine ⟨h₃, ?_⟩
    rw [hfound, h₃.ids, hread]
    rfl

/-- The budget of a project that a pass goes by. -/
def projectBudget (deps : DispatchCoreDeps) (options : DispatchCoreOptions) (w : Board) :
    Option Int :=
  match options.maxActivePerProject with
  | some maxActive => some maxActive
  | none => if deps.resolveMaxActivePerProject then some w.maxActive else none

theorem resolveMaxActivePerProject_spec :
    Prog.Meets (boardContract cond)
      (fun maxActive w' => maxActive = projectBudget deps options w ∧ (w'.items = w.items ∧
        w'.dependencies = w.dependencies ∧ w'.accepted = w.accepted))
      (fun _ w' => w'.accepted = w.accepted)
      (resolveMaxActivePerProject deps options.maxActivePerProject) w := by
  unfold resolveMaxActivePerProject projectBudget
  cases options.maxActivePerProject with
  | some maxActive => exact ⟨rfl, rfl, rfl, rfl⟩
  | none =>
      refine Prog.meets_ite (fun hresolve => ?_) fun hresolve => ?_
      · refine Prog.meets_bind (awaitBoard_effect ?_ fun _ => rfl)
        intro maxActive w' heffect
        simp only [BoardOp.effect, Prod.mk.injEq] at heffect
        obtain ⟨rfl, rfl⟩ := heffect
        exact ⟨(if_pos hresolve).symm, rfl, rfl, rfl⟩
      · exact ⟨(if_neg hresolve).symm, rfl, rfl, rfl⟩

theorem loadProjectRuntimeToolchains_spec :
    Prog.Meets (boardContract cond)
      (fun _ w' => w'.items = w.items ∧ w'.dependencies = w.dependencies ∧ w'.accepted = w.accepted)
      (fun _ w' => w'.accepted = w.accepted) (loadProjectRuntimeToolchains deps) w := by
  refine Prog.meets_ite (fun _ => ?_) fun _ => ⟨rfl, rfl, rfl⟩
  refine awaitBoard_effect ?_ fun _ => rfl
  intro _ w' heffect
  simp only [BoardOp.effect, Prod.mk.injEq] at heffect
  obtain ⟨rfl, -⟩ := heffect
  exact ⟨rfl, rfl, rfl⟩

/-- The context the loop begins with. -/
theorem prepareDispatchContext_spec (deps : DispatchCoreDeps) (options : DispatchCoreOptions)
    (hw : w.Sound) :
    Prog.Meets (boardContract cond)
      (fun ctx w' => ∃ dependencies r, Prepared options w w' dependencies r ∧
        ctx = initialContext deps options (projectBudget deps options w) dependencies r)
      (fun _ w' => w'.accepted = w.accepted) (prepareDispatchContext deps options) w := by
  refine Prog.Meets.bind resolveMaxActivePerProject_spec ?_
  rintro maxActive w₁ ⟨rfl, hitems₁, hdependencies₁, haccepted₁⟩
  refine Prog.meets_bind (loadProjectRuntimeToolchains_spec.mono ?_ fun _ _ h =>
    h.trans haccepted₁)
  rintro _ w₂ ⟨hitems₂, hdependencies₂, haccepted₂⟩
  have hitems : w₂.items = w.items := hitems₂.trans hitems₁
  have hdependencies : w₂.dependencies = w.dependencies := hdependencies₂.trans hdependencies₁
  have haccepted : w₂.accepted = w.accepted := haccepted₂.trans haccepted₁
  have hsound : w₂.Sound := by
    rw [Board.Sound, hitems]
    exact hw
  refine Prog.meets_bind ((readAndReconcile_spec hsound).mono ?_ fun _ _ h => h.trans haccepted)
  rintro ⟨dependencies, r⟩ w₃ h
  refine ⟨dependencies, r, ⟨⟨?_, ?_, h.copies, h.requested⟩, ?_⟩, rfl⟩
  · exact (Board.rewrites_keeps hitems hdependencies haccepted).trans h.rewrites
  · rw [h.ids, hitems]
  · have hfound := h.dependencies
    rw [hdependencies] at hfound
    exact hfound

end Context

end Reconciliation

end Nexus
