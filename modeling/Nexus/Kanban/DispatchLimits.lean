import Nexus.Kanban.DispatchCopies
import Mathlib.Data.List.Forall2

/-!
# The limits of a dispatch

One pass of the dispatch core over a board, with every pattern of outcomes. The candidates are
copies that a launch does not refresh, so a selection that lists an item without a target branch
twice launches it twice; and a link that fails without a message is taken for a launch that failed.
Apart from that a pass respects every limit (`dispatch_respects_limits`).
-/

set_option autoImplicit false

namespace Nexus

namespace Board

def projectItems (w : Board) (projectId : String) : List WorkItem :=
  w.items.filter fun row => row.project_id = projectId

/-- A todo leaf without a linked run whose dependencies are all done. -/
structure Dispatchable (w : Board) (projectId : String) (row : WorkItem) : Prop where
  mem : row ∈ w.projectItems projectId
  todo : row.status = .todo
  unlinked : isTruthyText row.linked_run_id = false
  notEpic : row.type ≠ .epic
  childless : ∀ child ∈ w.projectItems projectId, child.parent_work_item_id ≠ some row.id
  ready : ∀ dependency ∈ w.dependencies, dependency.work_item_id = row.id →
    ∃ row' ∈ w.projectItems projectId,
      row'.id = dependency.depends_on_work_item_id ∧ row'.status = .done

/-- The rows of ids. -/
def rowsOf (w : Board) (ids : List String) : List WorkItem := ids.filterMap w.find

/-- The items of an agent that carry a run. -/
def activeLinked (w : Board) (projectId agentId : String) : Nat :=
  ((w.projectItems projectId).filter fun row =>
    isTruthyText row.linked_run_id && assignedAgent? row = some agentId).length

end Board

/-- The launches of a pass respect every limit of the board that its loop began with. -/
structure RespectsLimits (options : DispatchCoreOptions) (budget : Option Int) (w : Board)
    (ids : List String) : Prop where
  dispatchable : ∀ id ∈ ids, ∃ row, w.find id = some row ∧
    w.Dispatchable options.projectId row ∧ isTruthyText row.current_execution_id = false
  once : ids.Nodup
  limit : ∀ maxItems, options.maxItems = some maxItems → (ids.length : Int) ≤ max 0 maxItems
  project : ∀ maxActive, budget = some maxActive → (ids.length : Int) ≤
    max 0 (maxActive - countActiveProjectDispatches (w.projectItems options.projectId))
  agents : ∀ maximum agentId, options.maxConcurrentPerAgent = some maximum →
    (w.activeLinked options.projectId agentId +
        DispatchContext.launchesOf agentId (w.rowsOf ids) : Int) ≤
      max maximum (w.activeLinked options.projectId agentId)
  unowned : ∀ row ∈ w.projectItems options.projectId, ownsTargetBranch row = true →
    ∀ branch, getTargetBranch row = some branch →
      branch ∉ (w.rowsOf ids).filterMap getTargetBranch
  branchOnce : ((w.rowsOf ids).filterMap getTargetBranch).Nodup

/-- The ids of the items whose run requests Core accepted between two boards. -/
def acceptedIds (w w' : Board) : List String :=
  (w'.accepted.drop w.accepted.length).map fun run => run.request.item.id

/-! ## Copies and rows, one by one -/

section Pointwise

variable {α β : Type} {R : α → β → Prop}

variable {bs : List β}

/-- Lists with the same keys, in which every element has its counterpart. -/
theorem forall₂_of_keys {κ : Type} {f : α → κ} {g : β → κ} {as : List α}
    (hkeys : as.map f = bs.map g) (hnodup : (bs.map g).Nodup)
    (hpartner : ∀ a ∈ as, ∃ b ∈ bs, f a = g b ∧ R a b) : List.Forall₂ R as bs := by
  induction as generalizing bs with
  | nil =>
      cases bs with
      | nil => exact List.Forall₂.nil
      | cons b bs => cases hkeys
  | cons a as ih =>
      cases bs with
      | nil => cases hkeys
      | cons b bs =>
          simp only [List.map_cons, List.cons.injEq] at hkeys
          rw [List.map_cons, List.nodup_cons] at hnodup
          obtain ⟨hkey, hrest⟩ := hkeys
          refine List.Forall₂.cons ?_ (ih hrest hnodup.2 fun a' ha' => ?_)
          · obtain ⟨b', hb', hkey', hR⟩ := hpartner a List.mem_cons_self
            rcases List.mem_cons.1 hb' with rfl | hb'
            · exact hR
            · exact absurd (List.mem_map.2 ⟨b', hb', hkey'.symm.trans hkey⟩) hnodup.1
          · obtain ⟨b', hb', hkey', hR⟩ := hpartner a' (List.mem_cons_of_mem _ ha')
            rcases List.mem_cons.1 hb' with rfl | hb'
            · have hmem : f a' ∈ bs.map g := hrest ▸ List.mem_map_of_mem ha'
              exact absurd (hkey' ▸ hmem) hnodup.1
            · exact ⟨b', hb', hkey', hR⟩

theorem length_filter_le_of_forall₂ {as : List α} (h : List.Forall₂ R as bs) {p : α → Bool}
    {q : β → Bool} (hpq : ∀ a b, R a b → q b = true → p a = true) :
    (bs.filter q).length ≤ (as.filter p).length := by
  induction h with
  | nil => exact Nat.le_refl _
  | @cons a b as bs hab _ ih =>
      cases hq : q b with
      | true =>
          rw [List.filter_cons_of_pos hq, List.filter_cons_of_pos (hpq a b hab hq)]
          exact Nat.succ_le_succ ih
      | false =>
          rw [List.filter_cons_of_neg (by simp [hq])]
          refine Nat.le_trans ih ?_
          exact ((List.sublist_cons_self a as).filter p).length_le

theorem length_filter_eq_of_forall₂ {as : List α} (h : List.Forall₂ R as bs) {p : α → Bool}
    {q : β → Bool} (hpq : ∀ a b, R a b → p a = q b) :
    (as.filter p).length = (bs.filter q).length := by
  induction h with
  | nil => rfl
  | @cons a b as bs hab _ ih =>
      rw [List.filter_cons, List.filter_cons, hpq a b hab]
      split
      · exact congrArg (· + 1) ih
      · exact ih

theorem filterMap_eq_of_forall₂ {γ : Type} {as : List α} (h : List.Forall₂ R as bs)
    {f : α → Option γ} {g : β → Option γ} (hfg : ∀ a b, R a b → f a = g b) :
    as.filterMap f = bs.filterMap g := by
  induction h with
  | nil => rfl
  | @cons a b as bs hab _ ih =>
      rw [List.filterMap_cons, List.filterMap_cons, hfg a b hab, ih]

theorem exists_right_of_forall₂ {as : List α} (h : List.Forall₂ R as bs) {a : α} (ha : a ∈ as) :
    ∃ b ∈ bs, R a b := by
  induction h with
  | nil => cases ha
  | @cons a' b as bs hab _ ih =>
      rcases List.mem_cons.1 ha with rfl | ha
      · exact ⟨b, List.mem_cons_self, hab⟩
      · obtain ⟨b', hb', hR⟩ := ih ha
        exact ⟨b', List.mem_cons_of_mem _ hb', hR⟩

theorem exists_left_of_forall₂ {as : List α} (h : List.Forall₂ R as bs) {b : β} (hb : b ∈ bs) :
    ∃ a ∈ as, R a b := by
  obtain ⟨a, ha, hR⟩ := exists_right_of_forall₂ h.flip hb
  exact ⟨a, ha, hR⟩

end Pointwise

namespace IsCopyOf

variable {copy row : WorkItem}

theorem getTargetBranch (h : IsCopyOf copy row) :
    Nexus.getTargetBranch copy = Nexus.getTargetBranch row := by
  unfold Nexus.getTargetBranch
  rw [h.execution_config]

theorem assignedAgent? (h : IsCopyOf copy row) :
    Nexus.assignedAgent? copy = Nexus.assignedAgent? row := by
  unfold Nexus.assignedAgent?
  rw [h.assigned_agent_id]

/-- A copy whose status is not in progress has the status of its row. -/
theorem status_eq (h : IsCopyOf copy row) (hstatus : copy.status ≠ .inProgress) :
    row.status = copy.status := by
  rcases h.status with hsame | ⟨hprogress, -⟩
  · exact hsame.symm
  · exact absurd hprogress hstatus

theorem ownsTargetBranch (h : IsCopyOf copy row) (howns : Nexus.ownsTargetBranch row = true) :
    Nexus.ownsTargetBranch copy = true := by
  unfold Nexus.ownsTargetBranch at howns ⊢
  rw [h.linked_run_id, h.current_execution_id]
  rcases h.status with hsame | ⟨hprogress, -⟩
  · rw [hsame]
    exact howns
  · simp [hprogress, branchOwningStatuses]

theorem isProjectDispatchActive (h : IsCopyOf copy row)
    (hactive : Nexus.isProjectDispatchActive row = true) :
    Nexus.isProjectDispatchActive copy = true := by
  unfold Nexus.isProjectDispatchActive at hactive ⊢
  rw [h.linked_run_id, h.current_execution_id]
  rcases h.status with hsame | ⟨hprogress, -⟩
  · rw [hsame]
    exact hactive
  · simp [hprogress, projectDispatchActiveStatuses]

end IsCopyOf

/-! ## Counters and dependencies -/

theorem get?_groupDependencyIds {dependencies : List DependencyRecord}
    {dependency : DependencyRecord} (h : dependency ∈ dependencies) :
    dependency.depends_on_work_item_id ∈
      (OrderedMap.get? (groupDependencyIds dependencies) dependency.work_item_id).getD [] := by
  have hfold : ∀ (dependencies : List DependencyRecord) (grouped : OrderedMap String (List String)),
      (dependency ∈ dependencies ∨ dependency.depends_on_work_item_id ∈
        (OrderedMap.get? grouped dependency.work_item_id).getD []) →
      dependency.depends_on_work_item_id ∈
        (OrderedMap.get? (dependencies.foldl (fun grouped dependency =>
          OrderedMap.set grouped dependency.work_item_id
            ((OrderedMap.get? grouped dependency.work_item_id).getD [] ++
              [dependency.depends_on_work_item_id])) grouped) dependency.work_item_id).getD [] := by
    intro dependencies
    induction dependencies with
    | nil =>
        intro grouped h
        exact h.resolve_left fun hmem => nomatch hmem
    | cons other rest ih =>
        intro grouped h
        apply ih
        simp only
        by_cases hkey : other.work_item_id = dependency.work_item_id
        · rw [hkey, OrderedMap.get?_set_self]
          rcases h with hmem | hgrouped
          · rcases List.mem_cons.1 hmem with rfl | hmem
            · exact Or.inr (List.mem_append.2 (Or.inr (List.mem_singleton.2 rfl)))
            · exact Or.inl hmem
          · exact Or.inr (List.mem_append.2 (Or.inl hgrouped))
        · rw [OrderedMap.get?_set_of_ne _ _ hkey]
          rcases h with hmem | hgrouped
          · rcases List.mem_cons.1 hmem with rfl | hmem
            · exact absurd rfl hkey
            · exact Or.inl hmem
          · exact Or.inr hgrouped
  exact hfold dependencies [] (Or.inl h)

theorem activeOf_countActiveLinkedByAgent (items : List WorkItem) (agentId : String) :
    activeOf (countActiveLinkedByAgent items) agentId =
      (items.filter fun item =>
        isTruthyText item.linked_run_id && assignedAgent? item = some agentId).length := by
  have hfold : ∀ (items : List WorkItem) (activeByAgent : OrderedMap String Nat),
      activeOf (items.foldl (fun activeByAgent item =>
        if isTruthyText item.linked_run_id then incrementActiveAgentCount item activeByAgent
        else activeByAgent) activeByAgent) agentId =
      activeOf activeByAgent agentId + (items.filter fun item =>
        isTruthyText item.linked_run_id && assignedAgent? item = some agentId).length := by
    intro items
    induction items with
    | nil => exact fun _ => rfl
    | cons item items ih =>
        intro activeByAgent
        rw [List.foldl_cons, ih]
        cases hlinked : isTruthyText item.linked_run_id with
        | false => simp [hlinked]
        | true =>
            rw [if_pos rfl, DispatchContext.activeOf_increment]
            by_cases hagent : assignedAgent? item = some agentId
            · simp [hlinked, hagent, Nat.add_assoc, Nat.add_comm]
            · simp [hlinked, hagent]
  exact (hfold items []).trans (Nat.zero_add _)

/-! ## The context and the board -/

variable {launched : List WorkItem}

section Context

variable {w w' : Board} {deps : DispatchCoreDeps} {options : DispatchCoreOptions}
  {dependencies : List DependencyRecord} {r : Reconciliation} {maxActive : Option Int}
  {item row : WorkItem} {id : String}

theorem Board.mem_projectItems {projectId : String} :
    row ∈ w.projectItems projectId ↔ row ∈ w.items ∧ row.project_id = projectId := by
  rw [Board.projectItems, List.mem_filter, decide_eq_true_eq]

/-- Where a candidate is resolved. -/
theorem ok_of_resolveCandidate {ctx : DispatchContext} (h : ctx.resolveCandidate id = .ok item) :
    ctx.options.selectedMode = false ∧ OrderedMap.get? ctx.itemById id = some item ∨
      ctx.options.selectedMode = true ∧ OrderedMap.get? ctx.requestedById id = some item ∧
        item.project_id = ctx.options.projectId := by
  unfold DispatchContext.resolveCandidate at h
  split at h
  · rename_i hmode
    split at h
    · rename_i copy hget
      obtain rfl := Except.ok.inj h
      exact Or.inl ⟨by simpa using hmode, hget⟩
    · cases h
  · rename_i hmode
    split at h
    · cases h
    · rename_i copy hget
      split at h
      · cases h
      · rename_i hproject
        obtain rfl := Except.ok.inj h
        exact Or.inr ⟨by simpa using hmode, hget, not_not.1 hproject⟩

namespace Prepared

theorem sound (h : Prepared options w w' dependencies r) (hw : w.Sound) : w'.Sound :=
  h.rewrites.sound hw

/-- The copies of the project's items are copies of its rows, in their order. -/
theorem copiesOfRows (h : Prepared options w w' dependencies r) (hw : w.Sound) :
    List.Forall₂ IsCopyOf r.projectItems (w'.projectItems options.projectId) := by
  have hids : r.projectItems.map WorkItem.id =
      (w'.projectItems options.projectId).map WorkItem.id :=
    h.ids.trans (h.rewrites.projectIds options.projectId).symm
  have hnodup : ((w'.projectItems options.projectId).map WorkItem.id).Nodup :=
    (h.sound hw).sublist (List.filter_sublist.map _)
  refine forall₂_of_keys hids hnodup fun copy hcopy => ?_
  obtain ⟨row, hrow, hagrees⟩ := h.copies copy hcopy
  have hid : row.id ∈ (w'.projectItems options.projectId).map WorkItem.id := by
    rw [← hids, ← hagrees.id]
    exact List.mem_map_of_mem hcopy
  obtain ⟨row', hrow', hsame⟩ := List.mem_map.1 hid
  obtain rfl := (h.sound hw).eq_of_id (Board.mem_projectItems.1 hrow').1 hrow hsame
  exact ⟨row', hrow', hagrees.id, hagrees⟩

/-- A candidate that is resolved is the copy of a row of the project. -/
theorem row_of_resolved (h : Prepared options w w' dependencies r) (hw : w.Sound)
    (hresolved : (initialContext deps options maxActive dependencies r).resolveCandidate id =
      .ok item) :
    item.id = id ∧ ∃ row ∈ w'.projectItems options.projectId, IsCopyOf item row := by
  rcases ok_of_resolveCandidate hresolved with ⟨-, hget⟩ | ⟨-, hget, hproject⟩
  · -- the ready mode resolves among the project's items
    obtain ⟨hmem, hid⟩ := get?_mapById_mem hget
    obtain ⟨row, hrow, hagrees⟩ := exists_right_of_forall₂ (h.copiesOfRows hw) hmem
    exact ⟨hid, row, hrow, hagrees⟩
  · obtain ⟨hid, row, hrow, hagrees⟩ := h.requested id item hget
    exact ⟨hid, row, Board.mem_projectItems.2 ⟨hrow, hagrees.project_id ▸ hproject⟩, hagrees⟩

/-- The row of the board that a row of the loop's board comes from. -/
theorem origin (h : Prepared options w w' dependencies r)
    (hrow : row ∈ w'.projectItems options.projectId) :
    ∃ row₀ ∈ w.projectItems options.projectId, Board.Keeps row₀ row := by
  obtain ⟨hmem, hproject⟩ := Board.mem_projectItems.1 hrow
  obtain ⟨f, hf, hkeeps⟩ := h.rewrites.rows
  rw [hf] at hmem
  obtain ⟨row₀, hrow₀, rfl⟩ := List.mem_map.1 hmem
  have hkept := hkeeps row₀ hrow₀
  exact ⟨row₀, Board.mem_projectItems.2 ⟨hrow₀, hkept.project_id ▸ hproject⟩, hkept⟩

/-- A candidate that the checks admit is the copy of a row that can be dispatched. -/
theorem dispatchable (h : Prepared options w w' dependencies r) (hw : w.Sound)
    (hadmits : (initialContext deps options maxActive dependencies r).Admits item)
    (hrow : row ∈ w'.projectItems options.projectId) (hagrees : IsCopyOf item row) :
    w'.Dispatchable options.projectId row := by
  have hcopies := h.copiesOfRows hw
  have htodo : row.status = .todo := by
    rw [hagrees.status_eq (by simp [hadmits.todo]), hadmits.todo]
  have hleaf := hadmits.leaf
  simp only [isContainerCandidate, isDispatchable, initialContext, Bool.not_eq_false',
    Bool.and_eq_true, Bool.not_eq_true', decide_eq_true_eq, decide_eq_false_iff_not,
    List.mem_filterMap, not_exists, not_and] at hleaf
  refine ⟨hrow, htodo, hagrees.linked_run_id ▸ hadmits.unlinked,
    hagrees.type ▸ hleaf.1, fun child hchild hparent => ?_, fun dependency hmem hitem => ?_⟩
  · obtain ⟨copy, hcopy, hchildAgrees⟩ := exists_left_of_forall₂ hcopies hchild
    refine hleaf.2 copy hcopy ?_
    rw [hchildAgrees.parent_work_item_id, hparent, hagrees.id]
  · -- the dependency is among the ones the pass has read, and its copy is done
    have hread : dependency ∈ dependencies := by
      rw [h.dependencies, List.mem_filter, decide_eq_true_eq, h.ids, hitem]
      refine ⟨h.rewrites.dependencies ▸ hmem, ?_⟩
      rw [← h.rewrites.projectIds]
      exact List.mem_map_of_mem hrow
    have hgrouped := get?_groupDependencyIds hread
    have hready := hadmits.ready
    simp only [dependenciesReady, initialContext, List.all_eq_true] at hready
    have hdone := hready dependency.depends_on_work_item_id (by
      rw [hagrees.id, ← hitem]
      exact hgrouped)
    obtain ⟨copy, hget, hstatus⟩ := (Option.any_eq_true _ _).1 hdone
    rw [decide_eq_true_eq] at hstatus
    obtain ⟨hcopy, hid⟩ := get?_mapById_mem hget
    obtain ⟨row', hrow', hdoneAgrees⟩ := exists_right_of_forall₂ hcopies hcopy
    refine ⟨row', hrow', hdoneAgrees.id.symm.trans hid, ?_⟩
    rw [hdoneAgrees.status_eq (by simp [hstatus]), hstatus]

end Prepared

/-- The rows of the items that were launched. -/
theorem Board.Sound.rowsOf_ids (hw : w.Sound) (h : ∀ item ∈ launched, w.HasRowOf item) :
    List.Forall₂ IsCopyOf launched (w.rowsOf (launched.map WorkItem.id)) := by
  induction launched with
  | nil => exact List.Forall₂.nil
  | cons item launched ih =>
      obtain ⟨row, hrow, hagrees⟩ := h item List.mem_cons_self
      have hfind : w.find item.id = some row := hagrees.id ▸ hw.find_eq hrow
      rw [List.map_cons, Board.rowsOf, List.filterMap_cons, hfind]
      exact List.Forall₂.cons hagrees (ih fun other hother => h other (List.mem_cons_of_mem _ hother))

/-- No item without a target branch is selected twice. -/
def DispatchCoreOptions.SelectsOnce (options : DispatchCoreOptions) (w : Board) : Prop :=
  ∀ ids, options.selectedWorkItemIds = some ids →
    ∀ row ∈ w.projectItems options.projectId, getTargetBranch row = none → ids.count row.id ≤ 1

/-- No item without a target branch carries an execution without a linked run. -/
def Board.LinksWhole (w : Board) (projectId : String) : Prop :=
  ∀ row ∈ w.projectItems projectId, getTargetBranch row = none →
    isTruthyText row.linked_run_id = false → isTruthyText row.current_execution_id = false

/-- What the loop began with, and what the launches kept within, is about the rows. -/
theorem Prepared.respectsLimits (h : Prepared options w w' dependencies r) (hw : w.Sound)
    (hwhole : w.LinksWhole options.projectId)
    (hwithin : DispatchContext.WithinLimits (initialContext deps options maxActive dependencies
      r) launched) :
    RespectsLimits options maxActive w' (launched.map WorkItem.id) := by
  have hcopies := h.copiesOfRows hw
  have hsound := h.sound hw
  have hrowOf : ∀ item ∈ launched, ∃ row ∈ w'.projectItems options.projectId, IsCopyOf item row :=
    fun item hitem => (h.row_of_resolved hw (hwithin.admitted item hitem).resolved).2
  have hrows : List.Forall₂ IsCopyOf launched (w'.rowsOf (launched.map WorkItem.id)) := by
    refine hsound.rowsOf_ids fun item hitem => ?_
    obtain ⟨row, hrow, hagrees⟩ := hrowOf item hitem
    exact ⟨row, (Board.mem_projectItems.1 hrow).1, hagrees⟩
  have hbranches : launched.filterMap getTargetBranch =
      (w'.rowsOf (launched.map WorkItem.id)).filterMap getTargetBranch :=
    filterMap_eq_of_forall₂ hrows fun _ _ hagrees => hagrees.getTargetBranch
  -- the branches of the rows are the ones the pass has collected
  have howned : ∀ row ∈ w'.projectItems options.projectId, ownsTargetBranch row = true →
      ∀ branch, getTargetBranch row = some branch →
        branch ∉ launched.filterMap getTargetBranch := by
    intro row hrow howns branch hbranch hmem
    obtain ⟨copy, hcopy, hagrees⟩ := exists_left_of_forall₂ hcopies hrow
    refine hwithin.unowned branch hmem ?_
    exact List.mem_filterMap.2 ⟨copy, List.mem_filter.2 ⟨hcopy, hagrees.ownsTargetBranch howns⟩,
      hagrees.getTargetBranch.trans hbranch⟩
  constructor
  case dispatchable =>
    intro id hid
    obtain ⟨item, hitem, rfl⟩ := List.mem_map.1 hid
    obtain ⟨row, hrow, hagrees⟩ := hrowOf item hitem
    refine ⟨row, hagrees.id ▸ hsound.find_eq (Board.mem_projectItems.1 hrow).1,
      h.dispatchable hw (hwithin.admitted item hitem) hrow hagrees, ?_⟩
    cases hbranch : getTargetBranch row with
    | none =>
        obtain ⟨row₀, hrow₀, hkept⟩ := h.origin hrow
        rcases hkept.links with ⟨hlinked, hcurrent⟩ | ⟨-, hcurrent⟩
        · rw [hcurrent]
          refine hwhole row₀ hrow₀ ?_ ?_
          · rw [← hbranch]
            unfold getTargetBranch
            rw [hkept.execution_config]
          · rw [← hlinked, ← hagrees.linked_run_id]
            exact (hwithin.admitted item hitem).unlinked
        · rw [hcurrent]
          rfl
    | some branch =>
        -- the item would own the branch itself
        cases hcurrent : isTruthyText row.current_execution_id with
        | false => rfl
        | true =>
            refine absurd (List.mem_filterMap.2 ⟨item, hitem, ?_⟩)
              (howned row hrow (by simp [ownsTargetBranch, hcurrent]) branch hbranch)
            exact hagrees.getTargetBranch.trans hbranch
  case once => exact hwithin.once
  case limit =>
    intro maxItems hmax
    rw [List.length_map]
    exact hwithin.limit maxItems hmax
  case project =>
    intro maximum hmax
    have hcount : countActiveProjectDispatches (w'.projectItems options.projectId) ≤
        countActiveProjectDispatches r.projectItems :=
      length_filter_le_of_forall₂ hcopies fun _ _ hagrees => hagrees.isProjectDispatchActive
    have hlaunched := hwithin.project maximum hmax
    simp only [initialContext] at hlaunched
    rw [List.length_map]
    omega
  case agents =>
    intro maximum agentId hmax
    have hactive : activeOf (countActiveLinkedByAgent r.projectItems) agentId =
        w'.activeLinked options.projectId agentId := by
      rw [activeOf_countActiveLinkedByAgent]
      refine length_filter_eq_of_forall₂ hcopies fun _ _ hagrees => ?_
      rw [hagrees.linked_run_id, hagrees.assignedAgent?]
    have hlaunches : DispatchContext.launchesOf agentId launched =
        DispatchContext.launchesOf agentId (w'.rowsOf (launched.map WorkItem.id)) :=
      length_filter_eq_of_forall₂ hrows fun _ _ hagrees => by rw [hagrees.assignedAgent?]
    have hwithinAgent := hwithin.agents maximum agentId hmax
    simp only [initialContext] at hwithinAgent
    rw [hactive, hlaunches] at hwithinAgent
    exact hwithinAgent
  case unowned =>
    intro row hrow howns branch hbranch
    rw [← hbranches]
    exact howned row hrow howns branch hbranch
  case branchOnce =>
    rw [← hbranches]
    exact hwithin.branchOnce

end Context

/-! ## A pass -/

/-- A pass without launches. -/
theorem respectsLimits_nil (options : DispatchCoreOptions) (budget : Option Int) (w : Board) :
    RespectsLimits options budget w [] where
  dispatchable := fun _ hid => nomatch hid
  once := List.nodup_nil
  limit := fun maxItems _ => Int.le_max_left 0 maxItems
  project := fun _ _ => Int.le_max_left 0 _
  agents := fun maximum _ _ => Int.le_max_right maximum _
  unowned := fun _ _ _ _ _ hmem => nomatch hmem
  branchOnce := List.nodup_nil

section Pass

variable {w w' : Board} {deps : DispatchCoreDeps} {options : DispatchCoreOptions}
  {dependencies : List DependencyRecord} {r : Reconciliation} {maxActive : Option Int}

theorem follows_initialContext :
    DispatchContext.Follows (initialContext deps options maxActive dependencies r)
      (initialContext deps options maxActive dependencies r) [] where
  same := ⟨_, _, _, _, _, rfl⟩
  counted := rfl
  accepted := rfl
  active := fun _ => rfl
  owned := fun _ h => h
  claimed := fun _ h => nomatch h
  within :=
    { admitted := fun _ h => nomatch h
      once := List.nodup_nil
      limit := fun maxItems _ => Int.le_max_left 0 maxItems
      project := fun _ _ => Int.le_max_left 0 _
      agents := fun maximum _ _ => Int.le_max_right maximum _
      unowned := fun _ h => nomatch h
      branchOnce := List.nodup_nil }

/-- The launches of the loop, whatever the outcomes. -/
theorem loop_spec (h : Prepared options w w' dependencies r) (hw : w.Sound)
    (honce : options.SelectsOnce w) :
    Prog.Meets passContract
      (fun _ => DispatchContext.Stops w.accepted
        (initialContext deps options maxActive dependencies r))
      (fun _ => DispatchContext.Stops w.accepted
        (initialContext deps options maxActive dependencies r))
      ((initialContext deps options maxActive dependencies r).processCandidates
        (initialContext deps options maxActive dependencies r).candidateIds) w' := by
  refine DispatchContext.processCandidates_spec _ follows_initialContext
    ⟨[], by simp [h.rewrites.accepted], rfl⟩
    (fun id item hresolved => (h.row_of_resolved hw hresolved).1) ?_ fun _ hitem => nomatch hitem
  intro id item hresolved hnone
  obtain ⟨hid, row, hrow, hagrees⟩ := h.row_of_resolved hw hresolved
  obtain ⟨row₀, hrow₀, hkept⟩ := h.origin hrow
  simp only [initialContext, buildCandidateList]
  cases hselected : options.selectedWorkItemIds with
  | none =>
      -- the ready mode has every id of the project once
      have hnodup : (r.projectItems.map WorkItem.id).Nodup := by
        rw [h.ids]
        exact hw.sublist (List.filter_sublist.map _)
      exact List.nodup_iff_count_le_one.1 hnodup id
  | some ids =>
      have hsame : row₀.id = id := by rw [← hkept.id, ← hagrees.id, hid]
      have hbranch : getTargetBranch row₀ = none := by
        rw [hagrees.getTargetBranch] at hnone
        rw [← hnone]
        unfold getTargetBranch
        rw [hkept.execution_config]
      exact hsame ▸ honce ids hselected row₀ hrow₀ hbranch

/-- The ids of the accepted launches. -/
theorem acceptedIds_of_launched {w₂ : Board} (h : Launched w.accepted w₂ launched) :
    acceptedIds w w₂ = launched.map WorkItem.id := by
  obtain ⟨runs, hruns, rfl⟩ := h
  rw [acceptedIds, hruns, List.drop_left, List.map_map]
  rfl

/-- A pass: its preparation launches nothing, and its loop begins with copies of the rows. -/
theorem dispatchWorkItems_rule {cond : Board → BoardOp → Prop} {I : Board → Prop} (hw : w.Sound)
    (hloop : ∀ dependencies r w₁, Prepared options w w₁ dependencies r →
      ((prepareDispatchContext deps options).run BoardOp.exec w).1 = w₁ →
      Prog.Meets (boardContract cond) (fun _ => I) (fun _ => I)
        ((initialContext deps options (projectBudget deps options w) dependencies
          r).processCandidates (initialContext deps options (projectBudget deps options w)
            dependencies r).candidateIds) w₁)
    (hnone : ∀ w', acceptedIds w w' = [] → I w') :
    Prog.Meets (boardContract cond) (fun _ => I) (fun _ => I) (dispatchWorkItems deps options)
      w := by
  have hprepared := Prog.Meets.with_run_of (C := boardContract cond) BoardOp.exec
    (fun _ _ _ _ hpost => hpost.2) (prepareDispatchContext_spec deps options hw)
  refine Prog.meets_bind (hprepared.mono ?_ ?_)
  · rintro ctx w₁ ⟨⟨dependencies, r, h, rfl⟩, hrun⟩
    exact Prog.Meets.bind (hloop dependencies r w₁ h (congrArg Prod.fst hrun)) fun _ _ hI => hI
  · rintro error w' ⟨hsame, -⟩
    apply hnone
    rw [acceptedIds, hsame, List.drop_length, List.map_nil]

/-- **A pass respects its limits.** In every run of a pass, with every pattern of outcomes, in which
no statement that links a run fails without a message: when no item without a target branch is
selected twice or carries an execution without a linked run, the launches that Core has accepted
respect every limit of the board that the loop began with. -/
theorem dispatch_respects_limits (deps : DispatchCoreDeps) (options : DispatchCoreOptions)
    (w : Board) (hw : w.Sound) (honce : options.SelectsOnce w)
    (hwhole : w.LinksWhole options.projectId)
    (hnames : ∀ e ∈ (dispatchWorkItems deps options).trace BoardOp.exec w,
      NamesLinkErrors e.1 e.2) :
    RespectsLimits options (projectBudget deps options w)
      ((prepareDispatchContext deps options).run BoardOp.exec w).1
      (acceptedIds w ((dispatchWorkItems deps options).run BoardOp.exec w).1) := by
  have hpass : Prog.Meets passContract
      (fun _ w' => RespectsLimits options (projectBudget deps options w)
        ((prepareDispatchContext deps options).run BoardOp.exec w).1 (acceptedIds w w'))
      (fun _ w' => RespectsLimits options (projectBudget deps options w)
        ((prepareDispatchContext deps options).run BoardOp.exec w).1 (acceptedIds w w'))
      (dispatchWorkItems deps options) w := by
    apply dispatchWorkItems_rule hw
    · intro dependencies r w₁ h hrun
      rw [hrun]
      have hstops : ∀ w', DispatchContext.Stops w.accepted (initialContext deps options
          (projectBudget deps options w) dependencies r) w' →
          RespectsLimits options (projectBudget deps options w) w₁ (acceptedIds w w') := by
        rintro w' ⟨launched, hlaunched, hwithin⟩
        rw [acceptedIds_of_launched hlaunched]
        exact h.respectsLimits hw hwhole hwithin
      refine (loop_spec h hw honce).mono ?_ ?_
      · exact fun _ w' => hstops w'
      · exact fun _ w' => hstops w'
    · intro w' hnone
      rw [hnone]
      exact respectsLimits_nil _ _ _
  exact hpass.state_when BoardOp.exec hnames

end Pass

/-! ## Boards -/

@[simp] theorem outcomes_exec (w : Board) (o : BoardOp) : (o.exec w).1.outcomes = w.outcomes := by
  unfold BoardOp.exec
  split
  · rfl
  · cases o with
    | save entity =>
        simp only [BoardOp.effect, Board.save]
        split <;> rfl
    | _ => rfl

/-- On a board where no operation fails without a message, no link does. -/
theorem namesLinkErrors_of_outcomes {α : Type} (p : BoardProg α) (w : Board)
    (h : ∀ n, (w.outcomes n).error ≠ some "") :
    ∀ e ∈ p.trace BoardOp.exec w, NamesLinkErrors e.1 e.2 := by
  induction p generalizing w with
  | pure a => exact fun _ he => nomatch he
  | fail error => exact fun _ he => nomatch he
  | call o k ih =>
      intro e he
      rcases List.mem_cons.1 he with rfl | he
      · cases o with
        | save entity => exact fun _ _ => h w.issued
        | linkRunIfUnlinked projectId workItemId runId => exact h w.issued
        | _ => trivial
      · refine ih _ _ (fun n => ?_) e he
        rw [outcomes_exec]
        exact h n

/-- A board of two items that can be dispatched. -/
def twoItemBoard : Board where
  items := [{ id := "a", project_id := "p", status := .todo },
    { id := "b", project_id := "p", status := .todo }]

/-- A selection that lists an item twice. -/
def repeatedSelection : DispatchCoreOptions where
  projectId := "p"
  workflowId := "work_item_in_progress"
  selectedWorkItemIds := some ["a", "a"]
  partialFailure := true

/-- The second request is accepted before its link is refused. -/
theorem dispatch_launches_twice : twoItemBoard.Sound ∧
    acceptedIds twoItemBoard
      ((dispatchWorkItems {} repeatedSelection).run BoardOp.exec twoItemBoard).1 = ["a", "a"] ∧
    ¬ RespectsLimits repeatedSelection (projectBudget {} repeatedSelection twoItemBoard)
      ((prepareDispatchContext {} repeatedSelection).run BoardOp.exec twoItemBoard).1
      (acceptedIds twoItemBoard
        ((dispatchWorkItems {} repeatedSelection).run BoardOp.exec twoItemBoard).1) := by
  have haccepted : acceptedIds twoItemBoard
      ((dispatchWorkItems {} repeatedSelection).run BoardOp.exec twoItemBoard).1 = ["a", "a"] := by
    decide +kernel
  refine ⟨by unfold Board.Sound; decide, haccepted, fun h => ?_⟩
  have honce := h.once
  rw [haccepted] at honce
  exact absurd honce (by decide)

/-- A ready pass over two items with one slot. -/
def oneSlot : DispatchCoreOptions where
  projectId := "p"
  workflowId := "work_item_in_progress"
  maxActivePerProject := some 1

theorem dispatch_respects_one_slot :
    acceptedIds twoItemBoard ((dispatchWorkItems {} oneSlot).run BoardOp.exec twoItemBoard).1 =
      ["a"] ∧
    RespectsLimits oneSlot (projectBudget {} oneSlot twoItemBoard)
      ((prepareDispatchContext {} oneSlot).run BoardOp.exec twoItemBoard).1
      (acceptedIds twoItemBoard
        ((dispatchWorkItems {} oneSlot).run BoardOp.exec twoItemBoard).1) := by
  refine ⟨by decide +kernel, dispatch_respects_limits {} oneSlot twoItemBoard ?_ ?_ ?_ ?_⟩
  · unfold Board.Sound
    decide
  · exact fun ids hids => nomatch hids
  · unfold Board.LinksWhole
    decide
  · exact namesLinkErrors_of_outcomes _ _ fun _ h => nomatch h

end Nexus
