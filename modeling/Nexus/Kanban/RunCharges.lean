import Nexus.Kanban.RunBooks

/-!
# The usage of a run is added once

What one entry, one poll and one replay of dead letters do to the books, and from it what a run of
polls, replays and emissions does, any of the calls cut off between two statements. While one entry
is handled its charge is due or paid; the cursor, a dead letter or a deleted row makes the books
agree with it again.
-/

set_option autoImplicit false

namespace Nexus

open CoreLifecycleStreamConsumerService

/-! ## The condition on the steps -/

/-- The charges that were emitted on the stream so far. -/
def LifecycleStore.emitted (reader : EnvelopeReader) (db : LifecycleStore) : List RunEvent :=
  (db.stream.map toFields).filterMap (chargedEvent reader db.keys)

/-- The project of a run without one is found, an addition to a row that is there is made, nothing
is parked while a charge is in two places, and then the cursor is saved or the dead letter
deleted. -/
def LifecycleOp.CountsOnce (reader : EnvelopeReader) (db : LifecycleStore) : LifecycleOp → Prop
  | .findByLinkedWorkflowRun runId =>
      ∀ event ∈ db.emitted reader, event.run_id = runId → ∀ key ∈ db.keys, event.concerns key →
        db.outcome.error = none ∧ db.outcome.orchestration = some key.project_id
  | .addTokenSpend projectId workItemId _ =>
      ⟨workItemId, projectId⟩ ∈ db.keys → db.outcome.error = none
  | .addCostSpend projectId workItemId _ =>
      ⟨workItemId, projectId⟩ ∈ db.keys → db.outcome.error = none
  | .saveDeadLetter _ _ _ => db.unsettled reader = false
  | .saveCursor _ => db.unsettled reader = true → db.outcome.error = none
  | .deleteDeadLetter _ => db.unsettled reader = true → db.outcome.error = none
  | _ => True

section Steps

variable (reader : EnvelopeReader) (kind : SpendKind) (start : List (WorkItemKey × Nat))

/-- The books are balanced whenever no charge is in two places. -/
def LifecycleStore.Safe (db : LifecycleStore) : Prop :=
  db.unsettled reader = false → (db.books kind).Balanced reader kind start db.consumed

/-- The contract of the calls, which may be cut off anywhere. -/
abbrev countsOnce : Contract LifecycleOp LifecycleOp.Ans LifecycleStore :=
  Prog.interruptible LifecycleOp.exec (LifecycleStore.Safe reader kind start)
    fun db o => o.CountsOnce reader db

variable {reader kind start} {α : Type} {p : LifecycleProg α} {db db' : LifecycleStore} {b : Books}

theorem LifecycleStore.Safe.of_balanced
    (h : (db.books kind).Balanced reader kind start (db.books kind).consumed) :
    db.Safe reader kind start := fun _ => h

theorem LifecycleStore.Safe.of_unsettled (h : db.unsettled reader = true) :
    db.Safe reader kind start := fun hsettled => by rw [h] at hsettled; cases hsettled

variable {o : LifecycleOp} {keys : List WorkItemKey}

theorem LifecycleOp.IsPlain.isAside (h : o.IsPlain) : o.IsAside kind keys := by
  cases o with
  | saveCursor streamId => exact h
  | xadd rawFields => exact h
  | saveDeadLetter streamId reason payload => exact h
  | deleteDeadLetter id => exact h
  | addTokenSpend projectId workItemId amount => exact h.elim
  | addCostSpend projectId workItemId amountCents => exact h.elim
  | _ => exact trivial

theorem unsettled_exec_aside (h : o.IsAside kind db.keys) (hu : db.unsettled reader = true) :
    (o.exec db).1.unsettled reader = true := by
  apply LifecycleStore.unsettled_exec _ _ hu
  · rintro streamId rfl
    exact h
  · rintro id rfl
    exact h

/-- Statements that are aside keep balanced books as they are. -/
theorem meets_aside_due (hp : p.Uses (LifecycleOp.IsAside kind b.keys))
    (hb : b.Balanced reader kind start b.consumed) (h : db.books kind = b) :
    p.Meets (countsOnce reader kind start) (fun _ db' => db'.books kind = b)
      (fun _ db' => db'.books kind = b) db := by
  refine Prog.Uses.meets (I := fun db' : LifecycleStore => db'.books kind = b) hp h ?_ ?_
  · rintro db' o rfl _
    exact .of_balanced hb
  · rintro db' o ans db'' rfl haside ⟨-, hexec⟩
    rw [LifecycleStore.books_keys] at haside
    have hdb : (o.exec db').1 = db'' := congrArg Prod.fst hexec
    rw [← hdb]
    exact LifecycleStore.books_exec_aside _ _ haside

/-- They keep a charge that has been added in two places. -/
theorem meets_aside_paid (hp : p.Uses (LifecycleOp.IsAside kind b.keys))
    (h : db.books kind = b ∧ db.unsettled reader = true) :
    p.Meets (countsOnce reader kind start)
      (fun _ db' => db'.books kind = b ∧ db'.unsettled reader = true)
      (fun _ db' => db'.books kind = b ∧ db'.unsettled reader = true) db := by
  refine Prog.Uses.meets
    (I := fun db' : LifecycleStore => db'.books kind = b ∧ db'.unsettled reader = true) hp h ?_ ?_
  · rintro db' o ⟨-, hu⟩ _
    exact .of_unsettled hu
  · rintro db' o ans db'' ⟨rfl, hu⟩ haside ⟨-, hexec⟩
    rw [LifecycleStore.books_keys] at haside
    have hdb : (o.exec db').1 = db'' := congrArg Prod.fst hexec
    rw [← hdb]
    exact ⟨LifecycleStore.books_exec_aside _ _ haside, unsettled_exec_aside haside hu⟩

/-! ## One entry -/

omit reader in
theorem RunEvent.concerns_iff {event : RunEvent} {key : WorkItemKey} :
    event.concerns key = true ↔ event.realWorkItem = some key.id ∧
      ∀ projectId ∈ event.contextProject, projectId = key.project_id := by
  rw [RunEvent.concerns, Bool.and_eq_true, decide_eq_true_eq, Option.all_eq_true]
  simp

theorem chargedEvent_eq_some {fields : Fields} {event : RunEvent}
    (h : chargedEvent reader keys fields = some event) :
    handleEntry reader fields = handleRunEvent event ∧ event.terminalStatus.isSome = true ∧
      ∃ key ∈ keys, event.concerns key = true := by
  unfold chargedEvent at h
  split at h
  · cases h
  · rename_i hrouter
    split at h
    · rename_i event' hparse
      split at h
      · rename_i hcounts
        obtain rfl := Option.some.inj h
        simp only [Bool.and_eq_true, List.any_eq_true] at hcounts
        refine ⟨?_, hcounts.1.1, hcounts.2⟩
        simp only [handleEntry, hrouter, hparse]
        rfl
      · cases h
    · cases h

/-- The usage of the run has been added to its work item. -/
def LifecycleStore.Paid (reader : EnvelopeReader) (kind : SpendKind) (b : Books) (event : RunEvent)
    (db : LifecycleStore) : Prop :=
  ∃ key, (∀ k ∈ b.keys, event.concerns k = decide (k = key)) ∧
    db.books kind = b.credit key (kind.amount event) ∧ db.unsettled reader = true

/-- The charge of the entry is due, or its usage has been added. -/
def LifecycleStore.DueOrPaid (reader : EnvelopeReader) (kind : SpendKind) (b : Books)
    (event : RunEvent) (db : LifecycleStore) : Prop :=
  db.books kind = b ∨ db.Paid reader kind b event

variable {event : RunEvent} {fields : Fields}

theorem meets_aside_after_addition {key : WorkItemKey}
    (hp : p.Uses (LifecycleOp.IsAside kind b.keys))
    (hkey : ∀ k ∈ b.keys, event.concerns k = decide (k = key))
    (h : db.books kind = b.credit key (kind.amount event) ∧ db.unsettled reader = true) :
    p.Meets (countsOnce reader kind start) (fun _ => LifecycleStore.Paid reader kind b event)
      (fun _ => LifecycleStore.Paid reader kind b event) db := by
  rw [← Books.keys_credit b key (kind.amount event)] at hp
  apply (meets_aside_paid hp h).mono
  · exact fun _ db' h' => ⟨key, hkey, h'⟩
  · exact fun _ db' h' => ⟨key, hkey, h'⟩

variable {projectId : String}

/-- The addition in the column of the books. -/
theorem meets_own_addition {workItemId : String} {E : String → LifecycleStore → Prop}
    (hb : b.Balanced reader kind start b.consumed) (h : db.books kind = b)
    (hmem : ⟨workItemId, projectId⟩ ∈ b.keys) (hpos : 0 < kind.amount event) :
    (accrue (kind.amount event) (kind.addition projectId workItemId (kind.amount event))).Meets
      (countsOnce reader kind start)
      (fun _ db' => db'.books kind = b.credit ⟨workItemId, projectId⟩ (kind.amount event) ∧
        db'.unsettled reader = true) E db := by
  subst h
  rw [LifecycleStore.books_keys] at hmem
  unfold accrue
  rw [if_pos hpos]
  refine ⟨.of_balanced hb, ?_⟩
  rintro ans db' ⟨hcond, hexec⟩
  have houtcome : db.outcome.error = none := by
    cases kind with
    | tokens => exact hcond hmem
    | cents => exact hcond hmem
  obtain ⟨hbooks, hunsettled⟩ := LifecycleStore.addition_books reader kind projectId workItemId
    (kind.amount event) houtcome
  rw [hexec] at hbooks hunsettled
  exact ⟨hbooks, hunsettled hmem⟩

/-- The usage of a run is added in both columns. -/
theorem meets_accrue {workItemId : String} (hitem : event.realWorkItem = some workItemId)
    (hb : b.Balanced reader kind start b.consumed) (h : db.books kind = b)
    (hmem : ⟨workItemId, projectId⟩ ∈ b.keys)
    (hkey : ∀ k ∈ b.keys, event.concerns k = decide (k = ⟨workItemId, projectId⟩))
    (hpos : 0 < kind.amount event) :
    (accrueWorkItemTokenSpend projectId event).Meets (countsOnce reader kind start)
      (fun _ => LifecycleStore.Paid reader kind b event)
      (fun _ => LifecycleStore.DueOrPaid reader kind b event) db := by
  have hprogram : accrueWorkItemTokenSpend projectId event =
      (accrue (SpendKind.tokens.amount event)
        (SpendKind.tokens.addition projectId workItemId (SpendKind.tokens.amount event))).bind
      fun _ => accrue (SpendKind.cents.amount event)
        (SpendKind.cents.addition projectId workItemId (SpendKind.cents.amount event)) := by
    rw [accrueWorkItemTokenSpend, hitem]
    rfl
  rw [hprogram]
  cases kind with
  | tokens =>
      have haside : (accrue (SpendKind.cents.amount event) (SpendKind.cents.addition projectId
          workItemId (SpendKind.cents.amount event))).Uses
          (LifecycleOp.IsAside .tokens b.keys) := by
        apply accrue_uses
        exact fun _ => Or.inl rfl
      apply (meets_own_addition hb h hmem hpos).bind
      intro _ db' h'
      exact (meets_aside_after_addition haside hkey h').mono (fun _ _ hpaid => hpaid)
        fun _ _ hpaid => Or.inr hpaid
  | cents =>
      have haside : (accrue (SpendKind.tokens.amount event) (SpendKind.tokens.addition projectId
          workItemId (SpendKind.tokens.amount event))).Uses
          (LifecycleOp.IsAside .cents b.keys) := by
        apply accrue_uses
        exact fun _ => Or.inl rfl
      apply ((meets_aside_due haside hb h).mono (fun _ _ h' => h') fun _ _ h' => Or.inl h').bind
      intro _ db' h'
      exact (meets_own_addition hb h' hmem hpos).mono (fun _ _ hpaid => ⟨_, hkey, hpaid⟩)
        fun _ _ h => h

/-- The project of a charged run is the one of its work item. -/
theorem meets_resolveProject (hb : b.Balanced reader kind start b.consumed)
    (h : db.books kind = b) (hn : b.stream[b.consumed]? = some fields)
    (hcharged : chargedEvent reader b.keys fields = some event) :
    (resolveProjectIdForWorkflowRun event).Meets (countsOnce reader kind start)
      (fun answer db' => db'.books kind = b ∧ ∃ projectId workItemId, answer = some projectId ∧
        event.realWorkItem = some workItemId ∧ ⟨workItemId, projectId⟩ ∈ b.keys ∧
        ∀ k ∈ b.keys, event.concerns k = decide (k = ⟨workItemId, projectId⟩))
      (fun _ db' => db'.books kind = b) db := by
  obtain ⟨-, -, key, hkey, hconcerns⟩ := chargedEvent_eq_some hcharged
  obtain ⟨hitem, hproject⟩ := RunEvent.concerns_iff.1 hconcerns
  unfold resolveProjectIdForWorkflowRun
  cases hcontext : event.contextProject with
  | some projectId =>
      have heq : projectId = key.project_id := hproject projectId (by rw [hcontext]; rfl)
      refine ⟨h, projectId, key.id, rfl, hitem, heq ▸ hkey, fun k _ => ?_⟩
      rw [RunEvent.concerns, hitem, hcontext]
      cases k
      simp [eq_comm]
  | none =>
      subst h
      rw [LifecycleStore.books_keys] at hkey hcharged ⊢
      refine ⟨.of_balanced hb, ?_⟩
      rintro ans db' ⟨hcond, hexec⟩
      have hemitted : event ∈ db.emitted reader :=
        List.mem_filterMap.2 ⟨fields, List.mem_of_getElem? hn, hcharged⟩
      -- The orchestration of the run is the one of the work item's project.
      have hanswer (k : WorkItemKey) (hk : k ∈ db.keys) (hc : event.concerns k = true) :=
        hcond event hemitted rfl k hk hc
      obtain ⟨herror, horchestration⟩ := hanswer key hkey hconcerns
      have hbooks := LifecycleStore.books_exec_aside kind db
        (o := .findByLinkedWorkflowRun event.run_id) trivial
      rw [LifecycleStore.exec_returns herror] at hexec hbooks
      obtain ⟨hdb, rfl⟩ := Prod.mk.inj hexec
      have hnonempty : key.project_id ≠ "" := hb.projects key (by simpa using hkey)
      refine ⟨hdb ▸ hbooks, key.project_id, key.id, ?_, hitem, hkey, fun k hk => ?_⟩
      · show db.outcome.orchestration.filter (· ≠ "") = some key.project_id
        rw [horchestration]
        simp [hnonempty]
      · rw [Bool.eq_iff_iff, decide_eq_true_eq]
        constructor
        · intro hc
          have hid := (RunEvent.concerns_iff.1 hc).1
          have hproject' := (hanswer k hk hc).2
          rw [hitem] at hid
          rw [horchestration] at hproject'
          cases k
          simp_all
        · rintro rfl
          exact hconcerns

/-- What is projected from an event adds nothing to a column. -/
theorem projectRunEvent_isAside (event : RunEvent) :
    (projectRunEvent event).Uses (LifecycleOp.IsAside kind keys) :=
  projectRunEvent_uses event (fun _ h => h.isAside) trivial

/-- The evaluation of a charged run adds its usage. -/
theorem meets_evaluate (hb : b.Balanced reader kind start b.consumed) (h : db.books kind = b)
    (hn : b.stream[b.consumed]? = some fields)
    (hcharged : chargedEvent reader b.keys fields = some event) (hpos : 0 < kind.amount event) :
    (evaluateContinuationForTerminalRun event).Meets (countsOnce reader kind start)
      (fun _ => LifecycleStore.Paid reader kind b event)
      (fun _ => LifecycleStore.DueOrPaid reader kind b event) db := by
  obtain ⟨-, hterminal, -⟩ := chargedEvent_eq_some hcharged
  obtain ⟨terminalStatus, hterminal⟩ := Option.isSome_iff_exists.1 hterminal
  unfold evaluateContinuationForTerminalRun
  rw [hterminal]
  apply ((meets_resolveProject hb h hn hcharged).mono (fun _ _ h' => h') fun _ _ h' =>
    Or.inl h').bind
  rintro _ db' ⟨hdb', projectId, workItemId, rfl, hitem, hmem, hkey⟩
  apply (meets_accrue hitem hb hdb' hmem hkey hpos).bind
  rintro _ db'' ⟨key, hkey', hpaid⟩
  have haside : (continueAfterAccrual projectId event terminalStatus).Uses
      (LifecycleOp.IsAside kind b.keys) :=
    (continueAfterAccrual_isPlain event projectId terminalStatus).mono fun _ h => h.isAside
  exact (meets_aside_after_addition haside hkey' hpaid).mono (fun _ _ h' => h')
    fun _ _ h' => Or.inr h'

/-- The handling of an entry with a charge adds it, or throws before or after that. -/
theorem meets_handleEntry_charged (hb : b.Balanced reader kind start b.consumed)
    (h : db.books kind = b) (hn : b.stream[b.consumed]? = some fields)
    (hcharged : chargedEvent reader b.keys fields = some event) (hpos : 0 < kind.amount event) :
    (handleEntry reader fields).Meets (countsOnce reader kind start)
      (fun _ => LifecycleStore.Paid reader kind b event)
      (fun _ => LifecycleStore.DueOrPaid reader kind b event) db := by
  obtain ⟨hhandle, -, -⟩ := chargedEvent_eq_some hcharged
  rw [hhandle]
  apply ((meets_aside_due (projectRunEvent_isAside event) hb h).mono (fun _ _ h' => h')
    fun _ _ h' => Or.inl h').bind
  intro _ db' hdb'
  exact meets_evaluate hb hdb' hn hcharged hpos

theorem accrueWorkItemTokenSpend_isAside
    (h : ∀ workItemId, event.realWorkItem = some workItemId → 0 < kind.amount event →
      ⟨workItemId, projectId⟩ ∉ keys) :
    (accrueWorkItemTokenSpend projectId event).Uses (LifecycleOp.IsAside kind keys) := by
  unfold accrueWorkItemTokenSpend
  cases hitem : event.realWorkItem with
  | none => exact trivial
  | some workItemId =>
      have habsent := h workItemId hitem
      apply Prog.uses_bind
      · apply accrue_uses
        intro hpos
        cases kind with
        | tokens => exact Or.inr (habsent hpos)
        | cents => exact Or.inl rfl
      · intro _
        apply accrue_uses
        intro hpos
        cases kind with
        | tokens => exact Or.inl rfl
        | cents => exact Or.inr (habsent hpos)

/-- The evaluation of a run that charges no work item in the column adds nothing to it. -/
theorem evaluate_isAside (hzero : ∀ key ∈ keys, event.concerns key = true → kind.amount event = 0) :
    (evaluateContinuationForTerminalRun event).Uses (LifecycleOp.IsAside kind keys) := by
  unfold evaluateContinuationForTerminalRun
  cases event.terminalStatus with
  | none => exact trivial
  | some terminalStatus =>
      have hcontinue (projectId : String) : (continueAfterAccrual projectId event
          terminalStatus).Uses (LifecycleOp.IsAside kind keys) :=
        (continueAfterAccrual_isPlain event projectId terminalStatus).mono fun _ h => h.isAside
      have haccrue (projectId : String) (hp : ∀ p ∈ event.contextProject, p = projectId) :
          (accrueWorkItemTokenSpend projectId event).Uses (LifecycleOp.IsAside kind keys) := by
        apply accrueWorkItemTokenSpend_isAside
        intro workItemId hitem hpos hmem
        have := hzero _ hmem (RunEvent.concerns_iff.2 ⟨hitem, hp⟩)
        omega
      cases hcontext : event.contextProject with
      | some projectId =>
          have hresolve : resolveProjectIdForWorkflowRun event = .pure (some projectId) := by
            rw [resolveProjectIdForWorkflowRun, hcontext]
            rfl
          rw [hresolve]
          apply Prog.uses_bind (haccrue projectId ?_) fun _ => hcontinue projectId
          rw [hcontext]
          rintro p ⟨⟩
          rfl
      | none =>
          apply Prog.uses_bind
          · exact (resolveProjectIdForWorkflowRun_isPlain event).mono fun _ h => h.isAside
          · intro answer
            cases answer with
            | none => exact trivial
            | some projectId =>
                apply Prog.uses_bind (haccrue projectId ?_) fun _ => hcontinue projectId
                rw [hcontext]
                rintro p ⟨⟩

/-- The handling of an entry that charges nothing in the column adds nothing to it. -/
theorem handleEntry_isAside
    (hzero : ∀ event ∈ chargedEvent reader keys fields, kind.amount event = 0) :
    (handleEntry reader fields).Uses (LifecycleOp.IsAside kind keys) := by
  unfold chargedEvent at hzero
  unfold handleEntry
  by_cases hrouter : routerHandles (OrderedMap.get? fields "event_type") = true
  · rw [if_pos hrouter]
    exact uses_awaitLifecycle trivial
  · rw [if_neg hrouter] at hzero ⊢
    cases hparse : parseEnvelope reader (OrderedMap.get? fields "envelope") with
    | error message => exact trivial
    | ok envelope =>
        cases envelope with
        | step => exact trivial
        | run event =>
            rw [hparse] at hzero
            apply Prog.uses_bind (projectRunEvent_isAside event)
            intro _
            by_cases hterminal : event.terminalStatus.isSome = true
            · apply evaluate_isAside
              intro key hmem hconcerns
              by_contra hne
              -- The entry charges the work item otherwise.
              have hused : (0 < SpendKind.tokens.amount event ||
                  0 < SpendKind.cents.amount event) = true := by
                cases kind <;> simp <;> omega
              have hany : keys.any event.concerns = true := List.any_eq_true.2 ⟨key, hmem, hconcerns⟩
              simp only [hterminal, hused, hany, Bool.and_self, if_true] at hzero
              exact hne (hzero event rfl)
            · rw [Bool.not_eq_true, Option.isSome_eq_false_iff, Option.isNone_iff_eq_none]
                at hterminal
              rw [evaluateContinuationForTerminalRun, hterminal]
              exact trivial

/-- The books agree with a cursor after the entry, and agree with the one before it unless a charge
is in two places. -/
structure LifecycleStore.Handled (reader : EnvelopeReader) (kind : SpendKind)
    (start : List (WorkItemKey × Nat)) (b : Books) (db : LifecycleStore) : Prop where
  stream : (db.books kind).stream = b.stream
  consumed : (db.books kind).consumed = b.consumed
  after : (db.books kind).Balanced reader kind start (b.consumed + 1)
  before : db.unsettled reader = true ∨ (db.books kind).Balanced reader kind start b.consumed

theorem LifecycleStore.Handled.safe (h : db.Handled reader kind start b) :
    db.Safe reader kind start := by
  rcases h.before with hu | hbalanced
  · exact .of_unsettled hu
  · rw [← h.consumed] at hbalanced
    exact .of_balanced hbalanced

/-- A dead letter keeps the charge of its entry. -/
theorem meets_saveDeadLetter {streamId : Nat} {reason : String}
    (hb : b.Balanced reader kind start b.consumed) (hn : b.stream[b.consumed]? = some fields)
    (hfields : toFields fields = fields) (h : db.books kind = b ∨ db.unsettled reader = true) :
    Prog.Meets (countsOnce reader kind start)
      (fun _ => LifecycleStore.Handled reader kind start b) (fun _ db' => db'.books kind = b)
      (awaitLifecycle (.saveDeadLetter streamId reason fields)) db := by
  refine ⟨?_, ?_⟩
  · rcases h with rfl | hu
    · exact .of_balanced hb
    · exact .of_unsettled hu
  · rintro ans db' ⟨hcond, hexec⟩
    have hsettled : db.unsettled reader = false := hcond
    obtain rfl : db.books kind = b := by
      rcases h with h | hu
      · exact h
      · rw [hsettled] at hu
        cases hu
    cases houtcome : db.outcome.error with
    | some message =>
        rw [LifecycleStore.exec_throws houtcome] at hexec
        obtain ⟨rfl, rfl⟩ := Prod.mk.inj hexec
        exact rfl
    | none =>
        obtain ⟨hbooks, hunsettled⟩ := LifecycleStore.saveDeadLetter_books reader kind
          streamId reason fields houtcome
        rw [LifecycleStore.exec_returns houtcome] at hexec hbooks hunsettled
        obtain ⟨rfl, rfl⟩ := Prod.mk.inj hexec
        refine ⟨by rw [hbooks]; rfl, by rw [hbooks]; rfl, ?_, ?_⟩
        · rw [hbooks]
          exact hb.park hn hfields
        · cases hcharged : chargedEvent reader db.keys fields with
          | some event => exact Or.inl (hunsettled (by rw [hcharged]; rfl))
          | none =>
              rw [hbooks]
              exact Or.inr (hb.park_of_none hfields (by simpa using hcharged))

theorem meets_handleOrPark {streamId : Nat} (hb : b.Balanced reader kind start b.consumed)
    (h : db.books kind = b) (hn : b.stream[b.consumed]? = some fields)
    (hfields : toFields fields = fields) :
    (handleOrPark reader streamId fields).Meets (countsOnce reader kind start)
      (fun _ => LifecycleStore.Handled reader kind start b) (fun _ db' => db'.books kind = b)
      db := by
  have hpark (reason : String) (db' : LifecycleStore)
      (h' : db'.books kind = b ∨ db'.unsettled reader = true) :
      Prog.Meets (countsOnce reader kind start)
        (fun _ => LifecycleStore.Handled reader kind start b) (fun _ db' => db'.books kind = b)
        (do awaitLifecycle (.saveDeadLetter streamId reason fields); pure false) db' :=
    (meets_saveDeadLetter hb hn hfields h').bind fun _ _ hhandled => hhandled
  apply Prog.meets_handle
  by_cases hzero : ∀ event ∈ chargedEvent reader b.keys fields, kind.amount event = 0
  · -- The entry charges nothing in the column.
    apply ((meets_aside_due (handleEntry_isAside hzero) hb h).mono (fun _ _ h' => h')
      fun reason db' h' => hpark reason db' (Or.inl h')).bind
    rintro _ db' rfl
    exact ⟨rfl, rfl, hb.skip hn hzero, Or.inr hb⟩
  · simp only [not_forall] at hzero
    obtain ⟨event, hcharged, hne⟩ := hzero
    apply ((meets_handleEntry_charged hb h hn hcharged (Nat.pos_of_ne_zero hne)).mono
      (fun _ _ h' => h') fun reason db' h' => hpark reason db' ?_).bind
    · rintro _ db' ⟨key, hkey, hbooks, hu⟩
      refine ⟨by rw [hbooks]; rfl, by rw [hbooks]; rfl, ?_, Or.inl hu⟩
      rw [hbooks]
      exact hb.credit hn hcharged hkey
    · rcases h' with hdue | ⟨key, -, -, hu⟩
      · exact Or.inl hdue
      · exact Or.inr hu

/-! ## A poll -/

/-- The entries are the ones of the stream from a position on. -/
def Follows (stream : List Fields) : Nat → List RedisStreamEntry → Prop
  | _, [] => True
  | n, entry :: entries =>
      entry.id = n ∧ stream[n]? = some (toFields entry.rawFields) ∧ Follows stream (n + 1) entries

theorem follows_entriesAfter (db : LifecycleStore) (after : Option Nat) :
    Follows (db.stream.map toFields) (after.elim 0 (· + 1)) (db.entriesAfter after) := by
  have hgen : ∀ (l : List (RawFields × Nat)) (n : Nat), l = db.stream.zipIdx.drop n →
      Follows (db.stream.map toFields) n (l.map fun entry => ⟨entry.2, entry.1⟩) := by
    intro l
    induction l with
    | nil => exact fun _ _ => trivial
    | cons entry l ih =>
        intro n hl
        have hlt : n < db.stream.zipIdx.length := by
          by_contra hge
          rw [List.drop_eq_nil_of_le (Nat.le_of_not_lt hge)] at hl
          cases hl
        rw [List.drop_eq_getElem_cons hlt, List.getElem_zipIdx] at hl
        obtain ⟨rfl, hrest⟩ := List.cons.inj hl
        rw [List.length_zipIdx] at hlt
        exact ⟨by simp, by simp [hlt], ih (n + 1) hrest⟩
  exact hgen _ _ rfl

/-- The books are balanced, and these are the entries after the cursor. -/
structure LifecycleStore.Ready (reader : EnvelopeReader) (kind : SpendKind)
    (start : List (WorkItemKey × Nat)) (entries : List RedisStreamEntry) (db : LifecycleStore) :
    Prop where
  balanced : (db.books kind).Balanced reader kind start (db.books kind).consumed
  entries : Follows (db.books kind).stream (db.books kind).consumed entries

/-- The cursor makes the books agree with what was done about the entry before it. -/
theorem meets_saveCursor (h : db.Handled reader kind start b) :
    Prog.Meets (countsOnce reader kind start)
      (fun _ db' => db'.books kind = { db.books kind with consumed := b.consumed + 1 })
      (fun _ => LifecycleStore.Safe reader kind start)
      (awaitLifecycle (.saveCursor b.consumed)) db := by
  refine ⟨h.safe, ?_⟩
  rintro ans db' ⟨hcond, hexec⟩
  cases houtcome : db.outcome.error with
  | some message =>
      rw [LifecycleStore.exec_throws houtcome] at hexec
      obtain ⟨rfl, rfl⟩ := Prod.mk.inj hexec
      -- No charge is in two places, or the cursor would have been saved.
      intro _
      rcases h.before with hu | hbalanced
      · have := hcond hu
        rw [houtcome] at this
        cases this
      · rw [← h.consumed] at hbalanced
        exact hbalanced
  | none =>
      have hbooks := (LifecycleStore.saveCursor_books reader kind b.consumed houtcome).1
      rw [LifecycleStore.exec_returns houtcome] at hexec hbooks
      obtain ⟨rfl, rfl⟩ := Prod.mk.inj hexec
      exact hbooks

/-- One entry leaves balanced books and the entries after it. -/
theorem meets_processEntry {entry : RedisStreamEntry} {entries : List RedisStreamEntry}
    (h : db.Ready reader kind start (entry :: entries)) :
    (processEntry reader entry).Meets (countsOnce reader kind start)
      (fun _ => LifecycleStore.Ready reader kind start entries)
      (fun _ => LifecycleStore.Safe reader kind start) db := by
  obtain ⟨hid, hn, hentries⟩ := h.entries
  have hfields := toFields_toFields entry.rawFields
  apply ((meets_handleOrPark h.balanced rfl hn hfields).mono (fun _ _ h' => h')
    fun _ db' hbooks => ?_).bind
  · intro processed db' hhandled
    rw [hid]
    apply (meets_saveCursor hhandled).bind
    intro _ db'' hbooks
    have hbalanced := hhandled.after
    refine ⟨?_, ?_⟩
    · rw [hbooks]
      exact ⟨hbalanced.bound, hbalanced.ids, hbalanced.fresh, hbalanced.payloads,
        hbalanced.projects, hbalanced.split⟩
    · rw [hbooks]
      show Follows (db'.books kind).stream _ entries
      rw [hhandled.stream]
      exact hentries
  · exact .of_balanced (hbooks ▸ h.balanced)

theorem meets_processEntries (entries : List RedisStreamEntry) :
    ∀ {db : LifecycleStore} (result : ProcessResult), db.Ready reader kind start entries →
      (processEntries reader entries result).Meets (countsOnce reader kind start)
        (fun _ => LifecycleStore.Safe reader kind start)
        (fun _ => LifecycleStore.Safe reader kind start) db := by
  induction entries with
  | nil => exact fun result h => .of_balanced h.balanced
  | cons entry entries ih =>
      intro db result h
      apply (meets_processEntry h).bind
      exact fun processed db' h' => ih _ h'

/-- A statement that is aside and may throw. -/
theorem meets_await_aside (ho : o.IsAside kind b.keys)
    (hb : b.Balanced reader kind start b.consumed) (h : db.books kind = b) :
    Prog.Meets (countsOnce reader kind start)
      (fun value db' => db'.books kind = b ∧ value = (o.effect db).2)
      (fun _ => LifecycleStore.Safe reader kind start) (awaitLifecycle o) db := by
  subst h
  refine ⟨.of_balanced hb, ?_⟩
  rintro ans db' ⟨-, hexec⟩
  rw [LifecycleStore.books_keys] at ho
  have hbooks := LifecycleStore.books_exec_aside kind db ho
  cases houtcome : db.outcome.error with
  | some message =>
      rw [LifecycleStore.exec_throws houtcome] at hexec hbooks
      obtain ⟨rfl, rfl⟩ := Prod.mk.inj hexec
      exact .of_balanced (hbooks ▸ hb)
  | none =>
      rw [LifecycleStore.exec_returns houtcome] at hexec hbooks
      obtain ⟨rfl, rfl⟩ := Prod.mk.inj hexec
      exact ⟨hbooks, rfl⟩

theorem meets_replayFromCursor
    (h : (db.books kind).Balanced reader kind start (db.books kind).consumed) :
    (replayFromCursor reader).Meets (countsOnce reader kind start)
      (fun _ => LifecycleStore.Safe reader kind start)
      (fun _ => LifecycleStore.Safe reader kind start) db := by
  apply (meets_await_aside (o := .getCursor) trivial h rfl).bind
  rintro _ db' ⟨hdb', rfl⟩
  apply (meets_await_aside (o := .xrange db.cursor) trivial h hdb').bind
  rintro _ db'' ⟨hdb'', rfl⟩
  apply meets_processEntries
  refine ⟨hdb'' ▸ h, ?_⟩
  rw [hdb'', ← hdb']
  have hconsumed : (db'.books kind).consumed = db.cursor.elim 0 (· + 1) := by
    rw [hdb']
    rfl
  rw [hconsumed]
  exact follows_entriesAfter db' db.cursor

/-! ## A replay of dead letters -/

open DeadLetterReplay

/-- The books are balanced, and these dead letters are there. -/
structure LifecycleStore.Holds (reader : EnvelopeReader) (kind : SpendKind)
    (start : List (WorkItemKey × Nat)) (rows : List DeadLetterRow) (db : LifecycleStore) :
    Prop where
  balanced : (db.books kind).Balanced reader kind start (db.books kind).consumed
  ids : (rows.map DeadLetterRow.id).Nodup
  rows : ∀ row ∈ rows, (row.id, row.payload) ∈ (db.books kind).deadLetters

variable {row : DeadLetterRow} {rows : List DeadLetterRow}

theorem LifecycleStore.Holds.of_cons (h : db.Holds reader kind start (row :: rows)) :
    db.Holds reader kind start rows where
  balanced := h.balanced
  ids := (List.nodup_cons.1 h.ids).2
  rows row' hrow' := h.rows row' (List.mem_cons_of_mem _ hrow')

/-- The row is on the stream again: the books agree with its deletion, and agree with the row as
well unless its charge is in two places. -/
structure LifecycleStore.Resent (reader : EnvelopeReader) (kind : SpendKind)
    (start : List (WorkItemKey × Nat)) (b : Books) (id : Nat) (db : LifecycleStore) : Prop where
  letters : (db.books kind).deadLetters = b.deadLetters
  after : ((db.books kind).discard id).Balanced reader kind start (db.books kind).consumed
  before : db.unsettled reader = true ∨
    (db.books kind).Balanced reader kind start (db.books kind).consumed

/-- Sending the payload of a row again. -/
theorem meets_republish (hb : b.Balanced reader kind start b.consumed) (h : db.books kind = b)
    (hrow : (row.id, row.payload) ∈ b.deadLetters) :
    (republishDeadLetterPayload row.payload).Meets (countsOnce reader kind start)
      (fun _ => LifecycleStore.Resent reader kind start b row.id)
      (fun _ db' => db'.books kind = b) db := by
  subst h
  cases hpayload : row.payload with
  | none => exact rfl
  | some payload =>
      rw [hpayload] at hrow
      have hfields : toFields payload = payload := hb.payloads _ hrow payload rfl
      refine ⟨.of_balanced hb, ?_⟩
      rintro ans db' ⟨-, hexec⟩
      cases houtcome : db.outcome.error with
      | some message =>
          rw [LifecycleStore.exec_throws houtcome] at hexec
          obtain ⟨rfl, rfl⟩ := Prod.mk.inj hexec
          exact rfl
      | none =>
          obtain ⟨hbooks, hunsettled⟩ := LifecycleStore.xadd_books reader kind payload
            houtcome
          rw [hfields] at hbooks hunsettled
          rw [LifecycleStore.exec_returns houtcome] at hexec hbooks hunsettled
          obtain ⟨rfl, rfl⟩ := Prod.mk.inj hexec
          refine ⟨by rw [hbooks]; rfl, ?_, ?_⟩
          · rw [hbooks]
            exact hb.resend hrow
          · cases hcharged : chargedEvent reader db.keys payload with
            | some event => exact Or.inl (hunsettled (by rw [hcharged]; rfl))
            | none =>
                rw [hbooks]
                exact Or.inr (hb.send_of_none (by simpa using hcharged))

/-- The deletion of a row that was sent again leaves the other rows. -/
theorem meets_deletePublished (hids : ((row :: rows).map DeadLetterRow.id).Nodup)
    (hrows : ∀ row' ∈ rows, (row'.id, row'.payload) ∈ b.deadLetters)
    (h : db.Resent reader kind start b row.id) :
    (deletePublished row).Meets (countsOnce reader kind start)
      (fun _ => LifecycleStore.Holds reader kind start rows)
      (fun _ => LifecycleStore.Safe reader kind start) db := by
  have hsafe : db.Safe reader kind start := by
    rcases h.before with hu | hbalanced
    · exact .of_unsettled hu
    · exact .of_balanced hbalanced
  rw [List.map_cons, List.nodup_cons] at hids
  refine ⟨hsafe, ?_⟩
  rintro ans db' ⟨hcond, hexec⟩
  cases houtcome : db.outcome.error with
  | some message =>
      rw [LifecycleStore.exec_throws houtcome] at hexec
      obtain ⟨rfl, rfl⟩ := Prod.mk.inj hexec
      -- The charge is in one place, or the row would have been deleted.
      have hbalanced : (db.books kind).Balanced reader kind start (db.books kind).consumed := by
        rcases h.before with hu | hbalanced
        · have := hcond hu
          rw [houtcome] at this
          cases this
        · exact hbalanced
      refine ⟨hbalanced, hids.2, fun row' hrow' => ?_⟩
      show _ ∈ (db.books kind).deadLetters
      rw [h.letters]
      exact hrows row' hrow'
  | none =>
      have hbooks := (LifecycleStore.deleteDeadLetter_books reader kind row.id
        houtcome).1
      rw [LifecycleStore.exec_returns houtcome] at hexec hbooks
      obtain ⟨rfl, rfl⟩ := Prod.mk.inj hexec
      refine ⟨hbooks ▸ h.after, hids.2, fun row' hrow' => ?_⟩
      rw [hbooks]
      apply List.mem_filter.2 ⟨h.letters ▸ hrows row' hrow', _⟩
      have hne : row'.id ≠ row.id := fun heq => hids.1 (heq ▸ List.mem_map_of_mem hrow')
      simpa using hne

theorem meets_processDeadLetterRow (proposalIds : List String)
    (h : db.Holds reader kind start (row :: rows)) :
    (processDeadLetterRow reader proposalIds row).Meets (countsOnce reader kind start)
      (fun _ => LifecycleStore.Holds reader kind start rows)
      (fun _ => LifecycleStore.Safe reader kind start) db := by
  have hrest := h.of_cons
  apply Prog.meets_ite
  · exact fun _ => hrest
  · intro _
    have hrow := h.rows row List.mem_cons_self
    have hpublish : Prog.Meets (countsOnce reader kind start)
        (fun published db' => if published then db'.Resent reader kind start (db.books kind) row.id
          else db'.books kind = db.books kind)
        (fun _ => LifecycleStore.Safe reader kind start)
        (((republishDeadLetterPayload row.payload).bind fun _ => pure true).handle fun _ =>
          pure false) db := by
      apply Prog.meets_handle
      apply ((meets_republish h.balanced rfl hrow).mono (fun _ _ h' => h') fun _ db' h' => h').bind
      exact fun _ db' h' => h'
    apply hpublish.bind
    intro published db' h'
    cases published with
    | true =>
        exact meets_deletePublished h.ids (fun row' hrow' => hrest.rows row' hrow') h'
    | false =>
        have hbooks : db'.books kind = db.books kind := h'
        exact ⟨hbooks ▸ hrest.balanced, hrest.ids, hbooks ▸ hrest.rows⟩

theorem meets_replayBatch (proposalIds : List String) (rows : List DeadLetterRow) :
    ∀ {db : LifecycleStore} (tally : Tally), db.Holds reader kind start rows →
      (replayBatch reader proposalIds rows tally).Meets (countsOnce reader kind start)
        (fun _ => LifecycleStore.Holds reader kind start [])
        (fun _ => LifecycleStore.Safe reader kind start) db := by
  induction rows with
  | nil => exact fun tally h => h
  | cons row rows ih =>
      intro db tally h
      apply Prog.meets_ite
      · exact fun _ => ih tally h.of_cons
      · intro _
        apply (meets_processDeadLetterRow proposalIds h).bind
        exact fun outcome db' h' => ih _ h'

/-- The rows of a batch are dead letters. -/
theorem holds_take (n : Nat)
    (h : (db.books kind).Balanced reader kind start (db.books kind).consumed) :
    db.Holds reader kind start (db.deadLetters.take n) where
  balanced := h
  ids := by
    have hids : (db.deadLetters.map DeadLetterRow.id).Nodup := by
      have := h.ids
      rwa [LifecycleStore.books, List.map_map] at this
    exact hids.sublist ((List.take_sublist n _).map _)
  rows row hrow := List.mem_map.2 ⟨row, List.mem_of_mem_take hrow, rfl⟩

theorem meets_replayBatches (proposalIds : List String) (n : Nat) :
    ∀ {db : LifecycleStore} (tally : Tally),
      (db.books kind).Balanced reader kind start (db.books kind).consumed →
      (replayBatches reader proposalIds n tally).Meets (countsOnce reader kind start)
        (fun _ db' => (db'.books kind).Balanced reader kind start (db'.books kind).consumed)
        (fun _ => LifecycleStore.Safe reader kind start) db := by
  induction n with
  | zero => exact fun tally h => h
  | succ n ih =>
      intro db tally h
      apply (meets_await_aside (o := .listDeadLetters) trivial h rfl).bind
      rintro _ db' ⟨hdb', rfl⟩
      have h' : (db'.books kind).Balanced reader kind start (db'.books kind).consumed := hdb' ▸ h
      apply Prog.meets_ite
      · exact fun _ => h'
      · intro _
        have hrows : db'.Holds reader kind start (db.deadLetters.take 100) := by
          have hholds := holds_take 100 h
          exact ⟨h', hholds.ids, hdb' ▸ hholds.rows⟩
        apply (meets_replayBatch proposalIds _ _ hrows).bind
        intro tally' db'' h''
        apply Prog.meets_ite
        · exact fun _ => h''.balanced
        · exact fun _ => ih tally' h''.balanced

theorem meets_replayDeadLetters (proposalIds : List String) (batches : Nat)
    (h : (db.books kind).Balanced reader kind start (db.books kind).consumed) :
    (replayDeadLetters reader proposalIds batches).Meets (countsOnce reader kind start)
      (fun _ => LifecycleStore.Safe reader kind start)
      (fun _ => LifecycleStore.Safe reader kind start) db := by
  apply (meets_replayBatches proposalIds batches {} h).bind
  intro tally db' h'
  apply (meets_await_aside (o := .countRecent) trivial h' rfl).bind
  rintro remaining db'' ⟨hdb'', -⟩
  exact .of_balanced (hdb'' ▸ h')

end Steps

end Nexus
