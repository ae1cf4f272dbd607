import Nexus.Kanban.PassTraces
import Mathlib

/-!
# Overlapping dispatch passes

A pass decides by the items it has read once, so two passes that overlap take the same free slot, or
request a run for the same item; the conditional link refuses the second run after Core has started
it. In every run in which a pass requests a run only while its own count of active items is up to
date and the item is as free as it was read, in which a transition overwrites only the row it has
read, and in which no statement that links an accepted run throws (`KeepsCap`), the active items
stay within the cap, and no item gets two runs.
-/

set_option autoImplicit false

namespace Nexus

abbrev PassSystem := Config Nat BoardOp BoardOp.Ans BoardError DispatchResult Board

def PassSystem.init (w : Board) (deps : Nat → DispatchCoreDeps)
    (options : Nat → DispatchCoreOptions) : PassSystem :=
  Pool.start w fun t => dispatchWorkItems (deps t) (options t)

/-! ## What a log tells -/

variable {id : String}

section Logs

variable (log : List (Entry Nat BoardOp BoardOp.Ans))

def passTrace (t : Nat) : PassTrace := Pool.track PassTrace.next (fun _ => {}) log t

/-- The item whose run request Core has accepted. -/
def startedItem? : (o : BoardOp) → o.Ans → Option String
  | .requestWorkflowRun request, .ok _ => some request.item.id
  | _, _ => none

/-- The items for which runs were started, the last one first. -/
def startedIds : List String := log.filterMap fun e => startedItem? e.op e.ans

/-- The items whose accepted run a pass is linking. -/
def launchingIds : List String := log.filterMap fun e => (passTrace log e.tid).phase.item?

variable {log}

theorem passTrace_of_not_mem {t : Nat} (h : ∀ e ∈ log, e.tid ≠ t) : passTrace log t = {} := by
  induction log with
  | nil => rfl
  | cons e log ih =>
      rw [passTrace, Pool.track, if_neg (h e List.mem_cons_self)]
      exact ih fun e' he' => h e' (List.mem_cons_of_mem _ he')

theorem mem_launchingIds :
    id ∈ launchingIds log ↔ ∃ t, (passTrace log t).phase.item? = some id := by
  rw [launchingIds, List.mem_filterMap]
  constructor
  · rintro ⟨e, -, he⟩
    exact ⟨e.tid, he⟩
  · rintro ⟨t, ht⟩
    by_contra hnone
    have hidle : passTrace log t = {} := passTrace_of_not_mem fun e he htid =>
      hnone ⟨e, he, htid ▸ ht⟩
    rw [hidle] at ht
    cases ht

end Logs

/-! ## The condition -/

/-- The row takes a slot of the project: it is active, or a run of it is being linked. -/
def isOccupied (projectId : String) (launching : List String) (row : WorkItem) : Bool :=
  row.project_id = projectId && isProjectDispatchActive row || row.id ∈ launching

def occupied (projectId : String) (c : PassSystem) : Nat :=
  c.world.items.countP (isOccupied projectId (launchingIds c.log))

/-- A row has not changed in what a dispatch looks at. -/
def SameState (found row : WorkItem) : Prop :=
  row.project_id = found.project_id ∧ row.status = found.status ∧
    row.linked_run_id = found.linked_run_id ∧
    row.current_execution_id = found.current_execution_id

instance (found row : WorkItem) : Decidable (SameState found row) :=
  inferInstanceAs (Decidable (_ ∧ _))

/-- The item of a request has a row without a run, and no pass is launching it. -/
def IsFree (c : PassSystem) (item : WorkItem) : Prop :=
  item.id ∉ launchingIds c.log ∧ ∃ row ∈ c.world.find item.id,
    row.project_id = item.project_id ∧ row.status = .todo ∧ row.isUnlinked = true

/-- A transition overwrites the row as it was read, which is not at its end, and it moves no item
back to `todo` for which a run was started. -/
def OverwritesRead (c : PassSystem) (t : Nat) (entity : WorkItemColumns) : Prop :=
  (∃ row ∈ c.world.find entity.id, row.status ≠ .done ∧
    ∃ found ∈ (passTrace c.log t).found, SameState found row) ∧
  (entity.status = some .todo → entity.id ∉ startedIds c.log)

/-- The condition on an operation that throws this, or nothing. -/
def KeepsCapWhen (projectId : String) (c : PassSystem) (t : Nat) : Option String → BoardOp → Prop
  | some _, .linkRunIfUnlinked _ _ _ => False
  | some _, .save _ => (passTrace c.log t).phase = .idle
  | none, .requestWorkflowRun request =>
      IsFree c request.item ∧ occupied projectId c ≤ (passTrace c.log t).count
  | none, .save entity => (passTrace c.log t).phase = .idle → OverwritesRead c t entity
  | _, _ => True

/-- The condition on a step. -/
def KeepsCap (projectId : String) (c : PassSystem) (t : Nat) (o : BoardOp) : Prop :=
  KeepsCapWhen projectId c t (c.world.outcomes c.world.issued).error o

instance (c : PassSystem) (item : WorkItem) : Decidable (IsFree c item) :=
  inferInstanceAs (Decidable (_ ∧ ∃ row ∈ _, _))

instance (c : PassSystem) (t : Nat) (entity : WorkItemColumns) :
    Decidable (OverwritesRead c t entity) :=
  inferInstanceAs (Decidable ((∃ row ∈ _, _ ∧ ∃ found ∈ _, _) ∧ _))

instance (projectId : String) (c : PassSystem) (t : Nat) (error : Option String) (o : BoardOp) :
    Decidable (KeepsCapWhen projectId c t error o) := by
  rcases error
  case none =>
    rcases o
    case requestWorkflowRun => exact inferInstanceAs (Decidable (_ ∧ _))
    case save => exact inferInstanceAs (Decidable (_ → _))
    all_goals exact isTrue trivial
  case some =>
    rcases o
    case linkRunIfUnlinked => exact isFalse not_false
    case save => exact inferInstanceAs (Decidable (_ = _))
    all_goals exact isTrue trivial

instance (projectId : String) (c : PassSystem) (t : Nat) (o : BoardOp) :
    Decidable (KeepsCap projectId c t o) := inferInstanceAs (Decidable (KeepsCapWhen ..))

/-! ## The invariant -/

/-- What holds of the rows and of the passes over them. -/
structure CapKept (projectId : String) (bound : Int) (c : PassSystem) : Prop where
  sound : c.world.Sound
  slots : (occupied projectId c : Int) ≤ bound
  alone : ∀ t u id, (passTrace c.log t).phase.item? = some id →
    (passTrace c.log u).phase.item? = some id → t = u
  requested : ∀ t itemProjectId id, (passTrace c.log t).phase = .requested itemProjectId id →
    ∃ row, c.world.find id = some row ∧ row.project_id = itemProjectId ∧ row.isUnlinked = true
  linked : ∀ t id, (passTrace c.log t).phase = .linked id → ∃ row, c.world.find id = some row
  once : (startedIds c.log).Nodup
  started : ∀ id ∈ startedIds c.log, (∃ t, (passTrace c.log t).phase.item? = some id) ∨
    ∃ row, c.world.find id = some row ∧ row.status ≠ .todo

theorem find_map {w w' : Board} {f : WorkItem → WorkItem} (hitems : w'.items = w.items.map f)
    (hf : ∀ row, (f row).id = row.id) (id : String) : w'.find id = (w.find id).map f := by
  rw [Board.find, hitems, TableRows.find?_map hf, Board.find]

section Step

variable {projectId : String} {bound cap : Int} {c : PassSystem} {t : Nat} {o : BoardOp}
  {k : o.Ans → BoardProg DispatchResult}

theorem passTrace_advance (u : Nat) :
    passTrace (Pool.advance boardStore c t o k).log u =
      if u = t then (passTrace c.log t).next o (o.exec c.world).2 else passTrace c.log u := by
  split
  · rename_i hu
    subst hu
    exact Pool.track_advance_self
  · rename_i hu
    exact Pool.track_advance_of_ne hu

theorem startedIds_advance :
    startedIds (Pool.advance boardStore c t o k).log =
      (startedItem? o (o.exec c.world).2).toList ++ startedIds c.log := by
  show startedIds (⟨t, o, (o.exec c.world).2⟩ :: c.log) = _
  rw [startedIds, List.filterMap_cons]
  cases startedItem? o (o.exec c.world).2 <;> rfl

/-- An item that is being launched has a row. -/
theorem CapKept.launching_row (hinv : CapKept projectId bound c) {u : Nat}
    (h : (passTrace c.log u).phase.item? = some id) : ∃ row, c.world.find id = some row := by
  cases hphase : (passTrace c.log u).phase with
  | idle =>
      rw [hphase] at h
      cases h
  | requested itemProjectId id' =>
      rw [hphase] at h
      cases h
      obtain ⟨row, hfound, -⟩ := hinv.requested u itemProjectId id hphase
      exact ⟨row, hfound⟩
  | linked id' =>
      rw [hphase] at h
      cases h
      exact hinv.linked u id hphase

/-- **A step that starts no run.** The rows change one by one, and the pass keeps the item it is
launching or leaves it launched. -/
theorem CapKept.change (hinv : CapKept projectId bound c) {f : WorkItem → WorkItem}
    (hitems : (o.exec c.world).1.items = c.world.items.map f) (hid : ∀ row, (f row).id = row.id)
    (hstarted : startedItem? o (o.exec c.world).2 = none)
    (hactive : ∀ row ∈ c.world.items, row.id ∉ launchingIds c.log →
      (f row).project_id = projectId → isProjectDispatchActive (f row) = true →
      row.project_id = projectId ∧ isProjectDispatchActive row = true)
    (hunlinked : ∀ row u itemProjectId, c.world.find row.id = some row →
      (passTrace (Pool.advance boardStore c t o k).log u).phase = .requested itemProjectId row.id →
      row.project_id = itemProjectId → row.isUnlinked = true →
      (f row).project_id = itemProjectId ∧ (f row).isUnlinked = true)
    (hstatus : ∀ row, c.world.find row.id = some row → row.id ∈ startedIds c.log →
      row.status ≠ .todo → (f row).status ≠ .todo)
    (hrequested : ∀ itemProjectId id,
      ((passTrace c.log t).next o (o.exec c.world).2).phase = .requested itemProjectId id →
        (passTrace c.log t).phase = .requested itemProjectId id)
    (hphase : ((passTrace c.log t).next o (o.exec c.world).2).phase.item? =
        (passTrace c.log t).phase.item? ∨
      ((passTrace c.log t).next o (o.exec c.world).2).phase.item? = none ∧
        ∀ row, c.world.find row.id = some row → (passTrace c.log t).phase.item? = some row.id →
          (f row).status ≠ .todo) :
    CapKept projectId bound (Pool.advance boardStore c t o k) := by
  have hfind : ∀ id, (Pool.advance boardStore c t o k).world.find id = (c.world.find id).map f :=
    find_map hitems hid
  -- an item that is being launched after the step was so before it
  have hitem : ∀ u id, (passTrace (Pool.advance boardStore c t o k).log u).phase.item? = some id →
      (passTrace c.log u).phase.item? = some id := by
    intro u id hu
    rw [passTrace_advance] at hu
    split at hu
    · rename_i hut
      subst hut
      rcases hphase with hsame | ⟨hnone, -⟩
      · exact hsame.symm.trans hu
      · exact nomatch hnone.symm.trans hu
    · exact hu
  have hids : startedIds (Pool.advance boardStore c t o k).log = startedIds c.log := by
    rw [startedIds_advance, hstarted]
    rfl
  have hrow : ∀ {id row}, c.world.find id = some row → c.world.find row.id = some row := by
    intro id row hfound
    rw [(Board.find_mem hfound).2]
    exact hfound
  constructor
  case sound => exact boardSound_exec hinv.sound o
  case slots =>
    refine Int.le_trans (Int.ofNat_le.2 ?_) hinv.slots
    rw [occupied, show (Pool.advance boardStore c t o k).world.items = _ from hitems,
      List.countP_map]
    refine List.countP_mono_left fun row hmem hoccupied => ?_
    simp only [Function.comp, isOccupied, Bool.or_eq_true, Bool.and_eq_true, decide_eq_true_eq, hid]
      at hoccupied ⊢
    by_cases hlaunching : row.id ∈ launchingIds c.log
    · exact .inr hlaunching
    · rcases hoccupied with ⟨hproject, hact⟩ | hlaunching'
      · exact .inl (hactive row hmem hlaunching hproject hact)
      · obtain ⟨u, hu⟩ := mem_launchingIds.1 hlaunching'
        exact .inr (mem_launchingIds.2 ⟨u, hitem u row.id hu⟩)
  case alone =>
    intro u v id hu hv
    exact hinv.alone u v id (hitem u id hu) (hitem v id hv)
  case requested =>
    intro u itemProjectId id hu
    have hbefore : (passTrace c.log u).phase = .requested itemProjectId id := by
      rw [passTrace_advance] at hu
      split at hu
      · rename_i hut
        subst hut
        exact hrequested itemProjectId id hu
      · exact hu
    obtain ⟨row, hfound, hproject, hfree⟩ := hinv.requested u itemProjectId id hbefore
    refine ⟨f row, by rw [hfind, hfound]; rfl, ?_⟩
    have hsame := (Board.find_mem hfound).2
    exact hunlinked row u itemProjectId (hrow hfound) (hsame ▸ hu) hproject hfree
  case linked =>
    intro u id hu
    have hlaunching : (passTrace c.log u).phase.item? = some id := hitem u id (by rw [hu]; rfl)
    obtain ⟨row, hfound⟩ := hinv.launching_row hlaunching
    exact ⟨f row, by rw [hfind, hfound]; rfl⟩
  case once =>
    rw [hids]
    exact hinv.once
  case started =>
    rw [hids]
    intro id hmem
    rcases hinv.started id hmem with ⟨u, hu⟩ | ⟨row, hfound, hother⟩
    · by_cases hut : u = t
      · subst hut
        rcases hphase with hsame | ⟨-, hleft⟩
        · refine .inl ⟨u, ?_⟩
          rw [passTrace_advance, if_pos rfl]
          exact hsame.trans hu
        · -- the launch has ended, and its row is not in `todo`
          obtain ⟨row, hfound⟩ := hinv.launching_row hu
          refine .inr ⟨f row, by rw [hfind, hfound]; rfl, hleft row (hrow hfound) ?_⟩
          rw [(Board.find_mem hfound).2]
          exact hu
      · refine .inl ⟨u, ?_⟩
        rw [passTrace_advance, if_neg hut]
        exact hu
    · refine .inr ⟨f row, by rw [hfind, hfound]; rfl, hstatus row (hrow hfound) ?_ hother⟩
      rw [(Board.find_mem hfound).2]
      exact hmem

@[simp] theorem sees_phase (g : PassTrace) (id : String) (status : Option WorkItemStatus) :
    (g.sees id status).phase = g.phase := by
  rw [PassTrace.sees]
  split <;> rfl

/-- A step that leaves the rows and the launches. -/
theorem CapKept.same (hinv : CapKept projectId bound c)
    (hitems : (o.exec c.world).1.items = c.world.items)
    (hstarted : startedItem? o (o.exec c.world).2 = none)
    (hphase : ((passTrace c.log t).next o (o.exec c.world).2).phase =
      (passTrace c.log t).phase) :
    CapKept projectId bound (Pool.advance boardStore c t o k) := by
  refine hinv.change (f := fun row => row) (hitems.trans (List.map_id' _).symm) (fun _ => rfl)
    hstarted ?_ ?_ ?_ ?_ ?_
  · exact fun row _ _ hproject hactive => ⟨hproject, hactive⟩
  · exact fun row u itemProjectId _ _ hproject hfree => ⟨hproject, hfree⟩
  · exact fun row _ _ hother => hother
  · exact fun itemProjectId id h => hphase ▸ h
  · exact .inl (congrArg LaunchPhase.item? hphase)

/-- The links of rows are cleared. -/
theorem CapKept.clear (hinv : CapKept projectId bound c) {p : WorkItem → Bool}
    (hp : ∀ row, p row = true → row.linked_run_id ≠ none)
    (hitems : (o.exec c.world).1.items =
      c.world.items.map fun row => if p row then row.withLinks none else row)
    (hstarted : startedItem? o (o.exec c.world).2 = none)
    (hphase : ((passTrace c.log t).next o (o.exec c.world).2).phase =
      (passTrace c.log t).phase) :
    CapKept projectId bound (Pool.advance boardStore c t o k) := by
  refine hinv.change hitems (fun row => ?_) hstarted ?_ ?_ ?_ ?_ ?_
  · split <;> rfl
  · intro row _ _ hproject hactive
    split at hproject
    · rename_i hcleared
      rw [if_pos hcleared] at hactive
      refine ⟨hproject, ?_⟩
      simp only [isProjectDispatchActive, Bool.and_eq_true, Bool.or_eq_true] at hactive ⊢
      refine ⟨hactive.1, .inr ?_⟩
      rcases hactive.2 with (hlinked | hcurrent) | hstatus
      · cases hlinked
      · cases hcurrent
      · exact hstatus
    · rename_i hkept
      rw [if_neg hkept] at hactive
      exact ⟨hproject, hactive⟩
  · intro row u itemProjectId _ _ hproject hfree
    have hkept : ¬ p row = true := by
      intro hcleared
      simp only [WorkItem.isUnlinked, Bool.and_eq_true, decide_eq_true_eq] at hfree
      exact hp row hcleared hfree.1
    rw [if_neg hkept]
    exact ⟨hproject, hfree⟩
  · intro row _ _ hother
    split <;> exact hother
  · exact fun itemProjectId id h => hphase ▸ h
  · exact .inl (congrArg LaunchPhase.item? hphase)

/-- A step that throws. -/
theorem CapKept.throws (hinv : CapKept projectId bound c) {message : String}
    (hissue : PassIssues cap (passTrace c.log t) o) (hcond : KeepsCap projectId c t o)
    (herror : (c.world.outcomes c.world.issued).error = some message) :
    PassAnswers (passTrace c.log t) o (o.exec c.world).2 ∧
      CapKept projectId bound (Pool.advance boardStore c t o k) := by
  rw [KeepsCap, herror] at hcond
  have hexec : o.exec c.world = (c.world.tick, .error message) := by
    rw [BoardOp.exec, herror]
  have hitems : (o.exec c.world).1.items = c.world.items := by
    rw [hexec]
    rfl
  cases o with
  | linkRunIfUnlinked itemProjectId workItemId runId => exact hcond.elim
  | save entity =>
      have hidle : (passTrace c.log t).phase = .idle := hcond
      refine ⟨?_, hinv.same hitems ?_ ?_⟩ <;> rw [hexec]
      · exact hidle
      · rfl
      · exact hidle.symm
  | _ =>
      refine ⟨?_, hinv.same hitems ?_ ?_⟩ <;> rw [hexec] <;> trivial

theorem exec_of_no_error (herror : (c.world.outcomes c.world.issued).error = none) :
    o.exec c.world = ((o.effect c.world.tick (c.world.outcomes c.world.issued)).1,
      .ok (o.effect c.world.tick (c.world.outcomes c.world.issued)).2) := by
  rw [BoardOp.exec, herror]

variable {entity : WorkItemColumns} {row : WorkItem}

/-- The row that a save finds is written. -/
theorem items_saved (hfound : c.world.find entity.id = some row) :
    (c.world.tick.save entity).items =
      c.world.items.map fun row => if row.id = entity.id then row.write entity else row := by
  rw [Board.save, show c.world.tick.find entity.id = some row from hfound]
  simp [Board.updateWhere, Board.tick]

/-- The conditional link of an accepted run is made. -/
theorem CapKept.link {itemProjectId workItemId runId : String}
    {k : (BoardOp.linkRunIfUnlinked itemProjectId workItemId runId).Ans →
      BoardProg DispatchResult}
    (hinv : CapKept projectId bound c)
    (hissue : (passTrace c.log t).phase = .requested itemProjectId workItemId)
    (herror : (c.world.outcomes c.world.issued).error = none) :
    CapKept projectId bound (Pool.advance boardStore c t
      (.linkRunIfUnlinked itemProjectId workItemId runId) k) := by
  obtain ⟨row, hfound, hproject, hfree⟩ := hinv.requested t itemProjectId workItemId hissue
  obtain ⟨hmem, hid⟩ := Board.find_mem hfound
  have hlinks : (c.world.items.any fun row =>
      row.isRow itemProjectId workItemId && row.isUnlinked) = true := by
    refine List.any_eq_true.2 ⟨row, hmem, ?_⟩
    simp [WorkItem.isRow, hid, hproject, hfree]
  have hexec := exec_of_no_error (o := .linkRunIfUnlinked itemProjectId workItemId runId) herror
  have hnext : (passTrace c.log t).next (.linkRunIfUnlinked itemProjectId workItemId runId)
      ((BoardOp.linkRunIfUnlinked itemProjectId workItemId runId).exec c.world).2 =
        { passTrace c.log t with phase := .linked workItemId } := by
    rw [hexec]
    show (passTrace c.log t).next (.linkRunIfUnlinked itemProjectId workItemId runId)
      (.ok (c.world.items.any fun row =>
        row.isRow itemProjectId workItemId && row.isUnlinked)) = _
    rw [hlinks]
    rfl
  have hlaunching : workItemId ∈ launchingIds c.log :=
    mem_launchingIds.2 ⟨t, by rw [hissue]; rfl⟩
  refine hinv.change (f := fun row =>
    if row.isRow itemProjectId workItemId && row.isUnlinked then row.withLinks (some runId)
    else row) ?_ (fun row => ?_) ?_ ?_ ?_ ?_ ?_ ?_
  · rw [hexec]
    rfl
  · split <;> rfl
  · rw [hexec]
    rfl
  · -- a row outside of the launch is not linked
    intro row _ hother hproject hactive
    have hkept : ¬ (row.isRow itemProjectId workItemId && row.isUnlinked) = true := by
      intro hlink
      simp only [WorkItem.isRow, Bool.and_eq_true, decide_eq_true_eq] at hlink
      exact hother (hlink.1.1 ▸ hlaunching)
    rw [if_neg hkept] at hproject hactive
    exact ⟨hproject, hactive⟩
  · intro row u itemProjectId' _ hu hproject hfree
    rw [passTrace_advance, hnext] at hu
    have hkept : ¬ (row.isRow itemProjectId workItemId && row.isUnlinked) = true := by
      intro hlink
      simp only [WorkItem.isRow, Bool.and_eq_true, decide_eq_true_eq] at hlink
      split at hu
      · cases hu
      · rename_i hut
        -- no other pass launches the item
        refine hut (hinv.alone u t workItemId ?_ (by rw [hissue]; rfl))
        rw [hu, hlink.1.1]
        rfl
    rw [if_neg hkept]
    exact ⟨hproject, hfree⟩
  · intro row _ _ hother
    split <;> exact hother
  · intro itemProjectId' id hu
    rw [hnext] at hu
    cases hu
  · left
    rw [hnext, hissue]
    rfl

/-- The save that ends a launch. -/
theorem CapKept.launched {k : (BoardOp.save entity).Ans → BoardProg DispatchResult}
    (hinv : CapKept projectId bound c) (hphase : (passTrace c.log t).phase = .linked id)
    (hid : entity.id = id) (hprogress : entity.status = some .inProgress)
    (herror : (c.world.outcomes c.world.issued).error = none) :
    CapKept projectId bound (Pool.advance boardStore c t (.save entity) k) := by
  subst hid
  obtain ⟨row, hfound⟩ := hinv.linked t entity.id hphase
  have hexec := exec_of_no_error (o := .save entity) herror
  have hnext : ((passTrace c.log t).next (.save entity)
      ((BoardOp.save entity).exec c.world).2).phase = .idle := by
    rw [hexec, PassTrace.next, sees_phase]
  have hlaunching : (passTrace c.log t).phase.item? = some entity.id := by
    rw [hphase]
    rfl
  refine hinv.change (f := fun row => if row.id = entity.id then row.write entity else row)
    ?_ (fun row => ?_) ?_ ?_ ?_ ?_ ?_ ?_
  · rw [hexec]
    exact items_saved hfound
  · split <;> rfl
  · rw [hexec]
    rfl
  · intro row _ hother hproject hactive
    have hkept : row.id ≠ entity.id := fun hsame =>
      hother (mem_launchingIds.2 ⟨t, hsame ▸ hlaunching⟩)
    rw [if_neg hkept] at hproject hactive
    exact ⟨hproject, hactive⟩
  · intro row u itemProjectId _ hu hproject hfree
    rw [passTrace_advance] at hu
    have hkept : row.id ≠ entity.id := by
      intro hsame
      split at hu
      · rw [hnext] at hu
        cases hu
      · rename_i hut
        refine hut (hinv.alone u t entity.id ?_ hlaunching)
        rw [hu, hsame]
        rfl
    rw [if_neg hkept]
    exact ⟨hproject, hfree⟩
  · intro row _ _ hother
    split
    · simp [WorkItem.write, hprogress]
    · exact hother
  · intro itemProjectId id hu
    rw [hnext] at hu
    cases hu
  · refine .inr ⟨by rw [hnext]; rfl, fun row _ hrow => ?_⟩
    rw [hlaunching] at hrow
    rw [if_pos (Option.some.inj hrow).symm]
    simp [WorkItem.write, hprogress]

/-- The row that a transition leaves. -/
theorem write_transition {found : WorkItem} (htransition : IsTransitionOf found entity)
    (hsame : SameState found row) :
    (row.write entity).project_id = row.project_id ∧
    (row.write entity).linked_run_id = row.linked_run_id ∧
    (row.write entity).current_execution_id = row.current_execution_id ∧
    ((row.write entity).status = .todo ∧ entity.status = some .todo ∨
      (row.write entity).status = .refinement ∨ (row.write entity).status = row.status) := by
  obtain ⟨status, metadata, rfl, hstatus⟩ := htransition
  obtain ⟨hproject, hrowStatus, hlinked, hcurrent⟩ := hsame
  refine ⟨hproject.symm, hlinked.symm, hcurrent.symm, ?_⟩
  rcases hstatus with rfl | rfl | rfl
  · exact .inl ⟨rfl, rfl⟩
  · exact .inr (.inl rfl)
  · exact .inr (.inr hrowStatus.symm)

theorem active_transition {row' : WorkItem} (hdone : row.status ≠ .done)
    (hlinked : row'.linked_run_id = row.linked_run_id)
    (hcurrent : row'.current_execution_id = row.current_execution_id)
    (hstatus : row'.status = .todo ∨ row'.status = .refinement ∨ row'.status = row.status)
    (hactive : isProjectDispatchActive row' = true) : isProjectDispatchActive row = true := by
  simp only [isProjectDispatchActive, hlinked, hcurrent, Bool.and_eq_true, Bool.or_eq_true,
    decide_eq_true_eq] at hactive ⊢
  refine ⟨hdone, hactive.2.imp_right fun hmem => ?_⟩
  rcases hstatus with htodo | hrefinement | hsame
  · rw [htodo] at hmem
    exact absurd hmem (by decide)
  · rw [hrefinement] at hmem
    exact absurd hmem (by decide)
  · rw [← hsame]
    exact hmem

/-- The save of a transition. -/
theorem CapKept.transition {found : WorkItem}
    {k : (BoardOp.save entity).Ans → BoardProg DispatchResult} (hinv : CapKept projectId bound c)
    (hidle : (passTrace c.log t).phase = .idle) (hread : (passTrace c.log t).found = some found)
    (htransition : IsTransitionOf found entity) (hcond : OverwritesRead c t entity)
    (herror : (c.world.outcomes c.world.issued).error = none) :
    CapKept projectId bound (Pool.advance boardStore c t (.save entity) k) := by
  obtain ⟨⟨row, hrow, hdone, found', hfound', hsame⟩, hkeptOut⟩ := hcond
  cases hread.symm.trans hfound'
  have hexec := exec_of_no_error (o := .save entity) herror
  have hphase : ((passTrace c.log t).next (.save entity)
      ((BoardOp.save entity).exec c.world).2).phase = (passTrace c.log t).phase := by
    rw [hexec, PassTrace.next, sees_phase, hidle]
  obtain ⟨hproject, hlinked, hcurrent, hstatus⟩ := write_transition htransition hsame
  -- the row with the id of the entity is the one that was read
  have hthe : ∀ other ∈ c.world.items, other.id = entity.id → other = row := by
    intro other hother hid
    refine hinv.sound.eq_of_id hother (Board.find_mem hrow).1 ?_
    rw [hid, (Board.find_mem hrow).2]
  refine hinv.change (f := fun row => if row.id = entity.id then row.write entity else row)
    ?_ (fun row => ?_) ?_ ?_ ?_ ?_ ?_ ?_
  · rw [hexec]
    exact items_saved hrow
  · split <;> rfl
  · rw [hexec]
    rfl
  · intro other hother _ hin hactive
    split at hin
    · rename_i hid
      rw [if_pos hid] at hactive
      cases hthe other hother hid
      rw [hproject] at hin
      exact ⟨hin, active_transition hdone hlinked hcurrent (hstatus.imp_left And.left) hactive⟩
    · rename_i hid
      rw [if_neg hid] at hactive
      exact ⟨hin, hactive⟩
  · intro other u itemProjectId hother _ hin hfree
    split
    · rename_i hid
      cases hthe other (Board.find_mem hother).1 hid
      rw [hproject, WorkItem.isUnlinked, hlinked, hcurrent]
      exact ⟨hin, hfree⟩
    · exact ⟨hin, hfree⟩
  · intro other hother hstarted hnot
    split
    · rename_i hid
      cases hthe other (Board.find_mem hother).1 hid
      rcases hstatus with ⟨-, htodo⟩ | hrefinement | hkept
      · exact absurd (hid ▸ hstarted) (hkeptOut htodo)
      · rw [hrefinement]
        decide
      · rw [hkept]
        exact hnot
    · exact hnot
  · exact fun itemProjectId id h => hphase ▸ h
  · exact .inl (congrArg LaunchPhase.item? hphase)

/-- One more item takes one more slot. -/
theorem countP_isOccupied_cons {items : List WorkItem} {launching launching' : List String}
    (id : String) (hnodup : (items.map WorkItem.id).Nodup)
    (hlaunching : ∀ id' ∈ launching', id' = id ∨ id' ∈ launching) :
    items.countP (isOccupied projectId launching') ≤
      items.countP (isOccupied projectId launching) + 1 := by
  induction items with
  | nil => exact Nat.zero_le _
  | cons row items ih =>
      rw [List.map_cons, List.nodup_cons] at hnodup
      have hrest := ih hnodup.2
      by_cases hid : row.id = id
      · -- the other rows have other ids
        have hsame : items.countP (isOccupied projectId launching') ≤
            items.countP (isOccupied projectId launching) := by
          refine List.countP_mono_left fun other hother hoccupied => ?_
          simp only [isOccupied, Bool.or_eq_true, decide_eq_true_eq] at hoccupied ⊢
          refine hoccupied.imp_right fun hmem => ?_
          rcases hlaunching _ hmem with hthis | hbefore
          · exact absurd (List.mem_map.2 ⟨other, hother, hthis.trans hid.symm⟩) hnodup.1
          · exact hbefore
        rw [List.countP_cons, List.countP_cons]
        split <;> split <;> omega
      · have hrow : isOccupied projectId launching' row = true →
            isOccupied projectId launching row = true := by
          intro hoccupied
          simp only [isOccupied, Bool.or_eq_true, decide_eq_true_eq] at hoccupied ⊢
          refine hoccupied.imp_right fun hmem => ?_
          exact (hlaunching _ hmem).resolve_left hid
        rw [List.countP_cons, List.countP_cons]
        split
        · rename_i hoccupied
          rw [if_pos (hrow hoccupied)]
          omega
        · omega

/-- An accepted run request. -/
theorem CapKept.request {request : WorkflowRunRequest}
    {k : (BoardOp.requestWorkflowRun request).Ans → BoardProg DispatchResult}
    (hinv : CapKept projectId bound c) (hbound : cap ≤ bound)
    (hissue : PassIssues cap (passTrace c.log t) (.requestWorkflowRun request))
    (hcond : IsFree c request.item ∧ occupied projectId c ≤ (passTrace c.log t).count)
    (herror : (c.world.outcomes c.world.issued).error = none) :
    CapKept projectId bound (Pool.advance boardStore c t (.requestWorkflowRun request) k) := by
  obtain ⟨hidle, hroom⟩ := hissue
  obtain ⟨⟨hfree, row, hrow, hproject, htodo, hunlinked⟩, hfresh⟩ := hcond
  have hexec := exec_of_no_error (o := .requestWorkflowRun request) herror
  have htrace : ∀ u, (passTrace (Pool.advance boardStore c t
      (.requestWorkflowRun request) k).log u).phase = if u = t then
        .requested request.item.project_id request.item.id else (passTrace c.log u).phase := by
    intro u
    rw [passTrace_advance, hexec]
    split <;> rfl
  have hitems : (Pool.advance boardStore c t (.requestWorkflowRun request) k).world.items =
      c.world.items := by
    show ((BoardOp.requestWorkflowRun request).exec c.world).1.items = _
    rw [hexec]
    rfl
  have hfind : ∀ id, (Pool.advance boardStore c t (.requestWorkflowRun request) k).world.find id =
      c.world.find id := by
    intro id
    rw [Board.find, hitems, Board.find]
  have hids : startedIds (Pool.advance boardStore c t (.requestWorkflowRun request) k).log =
      request.item.id :: startedIds c.log := by
    rw [startedIds_advance, hexec]
    rfl
  -- an item that is launched after the step is the one of the request, or was so before
  have hitem : ∀ u id, (passTrace (Pool.advance boardStore c t
      (.requestWorkflowRun request) k).log u).phase.item? = some id →
        u = t ∧ id = request.item.id ∨ u ≠ t ∧ (passTrace c.log u).phase.item? = some id := by
    intro u id hu
    rw [htrace] at hu
    split at hu
    · rename_i hut
      exact .inl ⟨hut, (Option.some.inj hu).symm⟩
    · rename_i hut
      exact .inr ⟨hut, hu⟩
  constructor
  case sound => exact boardSound_exec hinv.sound _
  case slots =>
    have hmore : occupied projectId (Pool.advance boardStore c t (.requestWorkflowRun request) k) ≤
        occupied projectId c + 1 := by
      rw [occupied, hitems]
      refine countP_isOccupied_cons request.item.id hinv.sound fun id hmem => ?_
      obtain ⟨u, hu⟩ := mem_launchingIds.1 hmem
      rcases hitem u id hu with ⟨-, hid⟩ | ⟨-, hbefore⟩
      · exact .inl hid
      · exact .inr (mem_launchingIds.2 ⟨u, hbefore⟩)
    omega
  case alone =>
    intro u v id hu hv
    rcases hitem u id hu with ⟨hut, hid⟩ | ⟨-, hbefore⟩
    · rcases hitem v id hv with ⟨hvt, -⟩ | ⟨-, hbefore'⟩
      · exact hut.trans hvt.symm
      · exact absurd (mem_launchingIds.2 ⟨v, hid ▸ hbefore'⟩) hfree
    · rcases hitem v id hv with ⟨-, hid⟩ | ⟨-, hbefore'⟩
      · exact absurd (mem_launchingIds.2 ⟨u, hid ▸ hbefore⟩) hfree
      · exact hinv.alone u v id hbefore hbefore'
  case requested =>
    intro u itemProjectId id hu
    rw [hfind]
    rw [htrace] at hu
    split at hu
    · cases hu
      exact ⟨row, hrow, hproject, hunlinked⟩
    · exact hinv.requested u itemProjectId id hu
  case linked =>
    intro u id hu
    rw [hfind]
    rw [htrace] at hu
    split at hu
    · cases hu
    · exact hinv.linked u id hu
  case once =>
    rw [hids, List.nodup_cons]
    refine ⟨fun hmem => ?_, hinv.once⟩
    -- the item of a started run is launched or not in `todo`
    rcases hinv.started _ hmem with ⟨u, hu⟩ | ⟨row', hrow', hother⟩
    · exact hfree (mem_launchingIds.2 ⟨u, hu⟩)
    · cases hrow.symm.trans hrow'
      exact hother htodo
  case started =>
    rw [hids]
    intro id hmem
    rcases List.mem_cons.1 hmem with rfl | hmem
    · refine .inl ⟨t, ?_⟩
      rw [htrace, if_pos rfl]
      rfl
    · rcases hinv.started id hmem with ⟨u, hu⟩ | ⟨row', hrow', hother⟩
      · refine .inl ⟨u, ?_⟩
        have hut : u ≠ t := by
          rintro rfl
          rw [hidle] at hu
          cases hu
        rw [htrace, if_neg hut]
        exact hu
      · exact .inr ⟨row', by rw [hfind]; exact hrow', hother⟩

/-- **One step.** Under the condition the links are answered, and the invariant is kept. -/
theorem capKept_step (hinv : CapKept projectId bound c) (hbound : cap ≤ bound)
    (hissue : PassIssues cap (passTrace c.log t) o) (hcond : KeepsCap projectId c t o) :
    PassAnswers (passTrace c.log t) o (o.exec c.world).2 ∧
      CapKept projectId bound (Pool.advance boardStore c t o k) := by
  cases herror : (c.world.outcomes c.world.issued).error with
  | some message => exact hinv.throws hissue hcond herror
  | none =>
      have hexec := exec_of_no_error (o := o) herror
      rw [KeepsCap, herror] at hcond
      cases o with
      | requestWorkflowRun request =>
          refine ⟨?_, hinv.request hbound hissue hcond herror⟩
          rw [hexec]
          trivial
      | linkRunIfUnlinked itemProjectId workItemId runId =>
          refine ⟨?_, hinv.link hissue herror⟩
          rw [hexec]
          trivial
      | save entity =>
          refine ⟨?_, ?_⟩
          · rw [hexec]
            trivial
          · rw [PassIssues] at hissue
            split at hissue
            · rename_i hidle
              obtain ⟨found, hread, htransition⟩ := hissue
              exact hinv.transition hidle hread htransition (hcond hidle) herror
            · exact hissue.elim
            · rename_i id hlinked
              exact hinv.launched hlinked hissue.1 hissue.2 herror
      | clearRunLinksIfMatches itemProjectId workItemId runId =>
          refine ⟨?_, hinv.clear (p := WorkItem.isLinkedTo itemProjectId workItemId runId)
            (fun row hlinked => ?_) ?_ ?_ ?_⟩
          · rw [hexec]
            trivial
          · simp only [WorkItem.isLinkedTo, Bool.and_eq_true, decide_eq_true_eq] at hlinked
            rw [hlinked.1.2]
            exact Option.some_ne_none _
          · rw [hexec]
            rfl
          · rw [hexec]
            rfl
          · rw [hexec]
            show ((passTrace c.log t).next (.clearRunLinksIfMatches itemProjectId workItemId runId)
              (.ok (c.world.items.any _))).phase = _
            cases c.world.items.any (WorkItem.isLinkedTo itemProjectId workItemId runId) <;> rfl
      | findByProjectAndId itemProjectId workItemId =>
          refine ⟨?_, hinv.same ?_ ?_ ?_⟩ <;> rw [hexec]
          · intro row hrow
            have hfound := List.find?_some hrow
            simp only [WorkItem.isRow, Bool.and_eq_true, decide_eq_true_eq] at hfound
            exact hfound.1
          · rfl
          · rfl
          · rw [PassTrace.next, sees_phase]
      | findByProjectId itemProjectId | findByIds ids
      | findByExternalSyncRef itemProjectId connectionId externalId
      | findDependenciesByWorkItemIds ids | maxActivePerProject | getWorkflowRunStatus runId
      | runTransitionGate itemProjectId workItemId status | other =>
          refine ⟨?_, hinv.same ?_ ?_ ?_⟩ <;> rw [hexec] <;> trivial

end Step

/-! ## Runs -/

theorem capKept_init {projectId : String} {cap : Int} {w : Board} (hw : w.Sound)
    (deps : Nat → DispatchCoreDeps) (options : Nat → DispatchCoreOptions) :
    CapKept projectId (max cap (countActiveProjectDispatches (w.projectItems projectId)))
      (PassSystem.init w deps options) where
  sound := hw
  slots := by
    refine Int.le_trans (Int.ofNat_le.2 ?_) (Int.le_max_right _ _)
    rw [occupied, countActiveProjectDispatches, Board.projectItems, List.filter_filter,
      ← List.countP_eq_length_filter]
    refine List.countP_mono_left fun row _ hoccupied => ?_
    simp only [isOccupied, launchingIds, PassSystem.init, Pool.start, List.filterMap_nil,
      List.not_mem_nil, decide_false, Bool.or_false] at hoccupied
    rw [Bool.and_comm]
    exact hoccupied
  alone _ _ _ h := nomatch h
  requested _ _ _ h := nomatch h
  linked _ _ h := nomatch h
  once := List.nodup_nil
  started _ h := nomatch h

/-- **Overlapping passes keep the cap.** In every run of passes with one cap whose steps all meet
the condition, the active items of the project are never more than the cap, or than there were at
the start, and no item gets two runs. -/
theorem overlapping_passes_keep_cap {w : Board} {deps : Nat → DispatchCoreDeps}
    {options : Nat → DispatchCoreOptions} {projectId : String} {cap : Int} {c : PassSystem}
    (hw : w.Sound) (hcap : ∀ t, (options t).maxActivePerProject = some cap)
    (h : Pool.Reach boardStore (KeepsCap projectId) (PassSystem.init w deps options) c) :
    (countActiveProjectDispatches (c.world.projectItems projectId) : Int) ≤
        max cap (countActiveProjectDispatches (w.projectItems projectId)) ∧
      (startedIds c.log).Nodup := by
  have hmeets : ∀ t, Prog.Meets (passRules cap) (fun _ _ => True) (fun _ _ => True)
      ((PassSystem.init w deps options).threads t)
      (Pool.track PassTrace.next (fun _ => {}) (PassSystem.init w deps options).log t) :=
    fun t => dispatchWorkItems_keeps (deps t) (hcap t)
  have hkept := (Pool.Reach.follows (M := boardStore) hmeets (capKept_init hw deps options)
    (fun c t o k hinv _ hissue _ hcond =>
      capKept_step hinv (Int.le_max_left _ _) hissue hcond) h).1
  refine ⟨Int.le_trans (Int.ofNat_le.2 ?_) hkept.slots, hkept.once⟩
  rw [occupied, countActiveProjectDispatches, Board.projectItems, List.filter_filter,
    ← List.countP_eq_length_filter]
  refine List.countP_mono_left fun row _ hactive => ?_
  rw [isOccupied, Bool.or_eq_true]
  left
  rw [Bool.and_comm]
  exact hactive

/-! ## Two passes -/

def openItem (id : String) : WorkItem := { id := id, project_id := "project-1", status := .todo }

/-- Two items in `todo`; Core starts a new run for every request. -/
def openBoard : Board where
  items := [openItem "item-1", openItem "item-2"]
  outcomes n := { runId := "run-" ++ toString n }

/-- A pass over selected items of a project with a cap of one. -/
def selecting (ids : List String) : DispatchCoreOptions where
  projectId := "project-1"
  workflowId := "workflow-1"
  selectedWorkItemIds := some ids
  reconcileRunStatus := some true
  reconcileOrphans := some false
  checkTargetFileContention := some false
  partialFailure := true
  capacitySkipReason := some .concurrencyExceeded
  maxActivePerProject := some 1

/-- The first pass selects the first item, every other one the second. -/
def selectOneEach : Nat → DispatchCoreOptions
  | 0 => selecting ["item-1"]
  | _ => selecting ["item-2"]

def passRun (options : Nat → DispatchCoreOptions) (sched : List (Nat × Nat)) : PassSystem :=
  Pool.play boardStore sched (PassSystem.init openBoard (fun _ => {}) options)

/-- The second pass begins before the first one, and reads the items after it. -/
theorem overlapping_passes_keep_cap_one :
    startedIds (passRun selectOneEach [(1, 1), (0, 8), (1, 12)]).log = ["item-1"] ∧
    (countActiveProjectDispatches ((passRun selectOneEach
      [(1, 1), (0, 8), (1, 12)]).world.projectItems "project-1") : Int) ≤ max 1 0 := by
  have hadmits : Pool.admits boardStore (KeepsCap "project-1") [(1, 1), (0, 8), (1, 12)]
      (PassSystem.init openBoard (fun _ => {}) selectOneEach) = true := by decide +kernel
  have hcap : ∀ t, (selectOneEach t).maxActivePerProject = some 1 := by
    intro t
    cases t <;> rfl
  refine ⟨by decide +kernel, ?_⟩
  exact (overlapping_passes_keep_cap (by rw [Board.Sound]; decide) hcap
    (Pool.reach_play_of_admits _ _ hadmits)).1

/-- Two passes that have read the items before either links its run: with different items both take
the one slot, and with one item both start a run for it. -/
theorem overlapping_passes_exceed_cap :
    (∃ c : PassSystem, Pool.Reach boardStore Pool.anyStep
        (PassSystem.init openBoard (fun _ => {}) selectOneEach) c ∧
      countActiveProjectDispatches (openBoard.projectItems "project-1") = 0 ∧
      countActiveProjectDispatches (c.world.projectItems "project-1") = 2) ∧
    ∃ c : PassSystem, Pool.Reach boardStore Pool.anyStep
        (PassSystem.init openBoard (fun _ => {}) fun _ => selecting ["item-1"]) c ∧
      startedIds c.log = ["item-1", "item-1"] :=
  ⟨⟨passRun selectOneEach [(0, 5), (1, 8), (0, 8)], Pool.reach_play (M := boardStore) _ _,
      by decide +kernel, by decide +kernel⟩,
    passRun (fun _ => selecting ["item-1"]) [(0, 5), (1, 8), (0, 8)],
    Pool.reach_play (M := boardStore) _ _, by decide +kernel⟩

end Nexus
