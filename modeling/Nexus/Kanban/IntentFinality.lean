import Nexus.Kanban.OrchestrationIntents

/-!
# Generations of an intent

`createIntent` looks for an intent under the key itself only, so a second intent of an ended key is
not found by the next call, and the status is written without a look at the status the row has. At
most one intent of a key is not at its end, and an end is final, in every run in which an intent is
saved under a key with a suffix only when every intent of the key has ended, and no intent at its
end gets another status than an end (`KeepsEnds`). A step of such a run that breaks the condition
breaks the property.
-/

set_option autoImplicit false

namespace Nexus

/-! ## The property and the condition -/

/-- At most one intent of a key is not at its end. -/
def IntentStore.AtMostOneActive (w : IntentStore) : Prop :=
  ∀ i j row row', w.findById i = some row → w.findById j = some row' →
    row.base_key = row'.base_key → row.status.isTerminal = false →
    row'.status.isTerminal = false → i = j

/-- Every intent at its end in `w` is at an end in `w'`. -/
def IntentStore.EndsKept (w w' : IntentStore) : Prop :=
  ∀ id row, w.findById id = some row → row.status.isTerminal = true →
    ∃ row', w'.findById id = some row' ∧ row'.status.isTerminal = true

/-- The condition on a step: an intent that is saved under another key than its own finds every
intent of its own key at its end, and an intent that gets a status which is no end is at no end. -/
def KeepsEnds (c : IntentSystem) (_ : Nat) : IntentOp → Prop
  | .save _ baseKey idempotencyKey => idempotencyKey ≠ baseKey →
      c.world.findByIdempotencyKey idempotencyKey = none →
      ∀ row ∈ c.world.intents, row.base_key = baseKey → row.status.isTerminal = true
  | .updateStatus id status _ => status.isTerminal = false →
      ∀ row ∈ c.world.intents, row.id = id → row.status.isTerminal = false
  | _ => True

instance (c : IntentSystem) (t : Nat) (o : IntentOp) : Decidable (KeepsEnds c t o) := by
  cases o with
  | save input baseKey idempotencyKey =>
      have : Decidable (c.world.findByIdempotencyKey idempotencyKey = none) :=
        decidable_of_iff _ Option.isNone_iff_eq_none
      have : Decidable (∀ row ∈ c.world.intents, row.base_key = baseKey →
          row.status.isTerminal = true) := List.decidableBAll _ _
      exact inferInstanceAs (Decidable (_ → _))
  | updateStatus id status terminalOutcome =>
      have : Decidable (∀ row ∈ c.world.intents, row.id = id →
          row.status.isTerminal = false) := List.decidableBAll _ _
      exact inferInstanceAs (Decidable (_ → _))
  | _ => exact isTrue trivial

/-! ## The contract of the calls -/

/-- The keys under which a call has found an intent. -/
abbrev SeenKeys := List String

def SeenKeys.next (g : SeenKeys) : (o : IntentOp) → o.Ans → SeenKeys
  | .findByIdempotencyKey key, some _ => key :: g
  | _, _ => g

/-- An intent is saved under its key, or after an intent was found under its key. -/
def SeenIssues (g : SeenKeys) : IntentOp → Prop
  | .save _ baseKey idempotencyKey => idempotencyKey = baseKey ∨ baseKey ∈ g
  | _ => True

def seenKeys (log : List (Entry Nat IntentOp IntentOp.Ans)) (t : Nat) : SeenKeys :=
  Pool.track SeenKeys.next (fun _ => []) log t

abbrev KeepsSeen {α : Type} (p : IntentProg α) (g : SeenKeys) : Prop :=
  Prog.Meets (Pool.following SeenKeys.next SeenIssues fun _ _ _ => True) (fun _ _ => True)
    (fun _ _ => True) p g

/-- No save. -/
def savesNothing : IntentOp → Prop
  | .save _ _ _ => False
  | _ => True

/-- A program that saves nothing keeps to the contract. -/
theorem keepsSeen_of_uses {α : Type} {p : IntentProg α} (h : Prog.Uses savesNothing p)
    (g : SeenKeys) : KeepsSeen p g := by
  refine (Prog.Uses.meets (I := fun _ => True) h trivial ?_ ?_).mono (fun _ _ _ => trivial)
    fun _ _ _ => trivial
  · intro g o _ hallowed
    cases o with
    | save input baseKey idempotencyKey => exact hallowed.elim
    | _ => trivial
  · exact fun _ _ _ _ _ _ _ => trivial

section Calls

open KanbanOrchestrationIntentRepository OrchestrationControlPlaneScheduler

theorem saveNewIntent_keepsSeen (input : CreateOrchestrationIntentInput)
    {baseKey idempotencyKey : String} {g : SeenKeys}
    (h : idempotencyKey = baseKey ∨ baseKey ∈ g) :
    KeepsSeen (saveNewIntent input baseKey idempotencyKey) g := by
  refine ⟨h, ?_⟩
  rintro saved g₁ -
  cases saved with
  | some intent => trivial
  | none =>
      refine ⟨trivial, ?_⟩
      rintro existing g₂ -
      cases existing with
      | none => trivial
      | some existingAfterRace =>
          exact Prog.meets_ite (fun _ => trivial) fun _ => trivial

theorem createIntent_keepsSeen (digest : IntentDigest) (input : CreateOrchestrationIntentInput)
    (g : SeenKeys) :
    KeepsSeen (KanbanOrchestrationIntentRepository.createIntent digest input) g := by
  refine ⟨trivial, ?_⟩
  rintro existing g₁ ⟨hnext, -⟩
  cases existing with
  | none => exact saveNewIntent_keepsSeen input (.inl rfl)
  | some intent =>
      refine Prog.meets_ite (fun _ => ⟨trivial, ?_⟩) fun _ => trivial
      rintro now g₂ ⟨rfl, -⟩
      apply saveNewIntent_keepsSeen
      rw [hnext]
      exact .inr List.mem_cons_self

/-! The calls of the scheduler save nothing. -/

theorem requireIntent_saves (intentId : Nat) : Prog.Uses savesNothing (requireIntent intentId) := by
  refine ⟨trivial, fun intent => ?_⟩
  cases intent <;> trivial

theorem recordDecision_saves (intent : OrchestrationIntent) (input : DecisionInput) :
    Prog.Uses savesNothing (recordDecision intent input) :=
  ⟨trivial, fun _ => ⟨trivial, fun _ => trivial⟩⟩

theorem evaluationTime_saves (policy : SchedulerPolicyInput) :
    Prog.Uses savesNothing (evaluationTime policy) := by
  rw [evaluationTime]
  cases policy.now with
  | none => exact Prog.uses_op trivial
  | some now => trivial

theorem isLaneCapacityReached_saves (intent : OrchestrationIntent) (policy : SchedulerPolicyInput) :
    Prog.Uses savesNothing (isLaneCapacityReached intent policy) := by
  rw [isLaneCapacityReached]
  cases policy.maxActivePerLane with
  | none => trivial
  | some maxActivePerLane => exact ⟨trivial, fun _ => trivial⟩

theorem findMissingFreshFacts_saves (projectId : String)
    (requirements : List FreshFactRequirement) (now : Int) :
    Prog.Uses savesNothing (findMissingFreshFacts projectId requirements now) :=
  Prog.uses_ite trivial ⟨trivial, fun _ => trivial⟩

theorem evaluateIntent_saves (intentId : Nat) (policy : SchedulerPolicyInput) :
    Prog.Uses savesNothing (evaluateIntent intentId policy) := by
  refine Prog.uses_bind (requireIntent_saves intentId) fun intent => ?_
  refine Prog.uses_bind (evaluationTime_saves policy) fun now => ?_
  refine Prog.uses_bind (isLaneCapacityReached_saves intent policy) fun reached => ?_
  refine Prog.uses_ite (recordDecision_saves intent _) ?_
  refine Prog.uses_bind (findMissingFreshFacts_saves _ _ now) fun missingFacts => ?_
  exact recordDecision_saves intent _

theorem markIntentRunning_saves (intentId : Nat) (metadata : Option (List (String × Json))) :
    Prog.Uses savesNothing (markIntentRunning intentId metadata) :=
  Prog.uses_bind (requireIntent_saves intentId) fun _ => ⟨trivial, fun _ => trivial⟩

theorem completeIntent_saves (intentId : Nat) (reason : SchedulerOutcomeReason)
    (metadata : Option (List (String × Json))) :
    Prog.Uses savesNothing (completeIntent intentId reason metadata) :=
  Prog.uses_bind (requireIntent_saves intentId) fun intent =>
    ⟨trivial, fun _ => recordDecision_saves intent _⟩

theorem terminalizeIntent_saves (intentId : Nat) (terminalOutcome : TerminalOutcome)
    (reason : SchedulerOutcomeReason) (metadata : Option (List (String × Json))) :
    Prog.Uses savesNothing (terminalizeIntent intentId terminalOutcome reason metadata) :=
  Prog.uses_bind (requireIntent_saves intentId) fun intent =>
    ⟨trivial, fun _ => recordDecision_saves intent _⟩

theorem intentProgram_keepsSeen (digest : IntentDigest) (call : IntentCall) (g : SeenKeys) :
    KeepsSeen (call.program digest) g := by
  have hquiet : ∀ {p : IntentProg SchedulerDecision}, Prog.Uses savesNothing p →
      KeepsSeen (p.bind fun _ => .pure ()) g :=
    fun hp => (keepsSeen_of_uses hp g).bind fun _ _ _ => trivial
  cases call with
  | createIntent input => exact (createIntent_keepsSeen digest input g).bind fun _ _ _ => trivial
  | evaluateIntent intentId policy => exact hquiet (evaluateIntent_saves intentId policy)
  | markIntentRunning intentId metadata => exact hquiet (markIntentRunning_saves intentId metadata)
  | completeIntent intentId reason metadata =>
      exact hquiet (completeIntent_saves intentId reason metadata)
  | terminalizeIntent intentId terminalOutcome reason metadata =>
      exact hquiet (terminalizeIntent_saves intentId terminalOutcome reason metadata)

end Calls

/-! ## The invariant -/

/-- What holds of the table and of the keys the calls have seen. -/
structure IntentsKept (c : IntentSystem) : Prop where
  seen : ∀ t, ∀ key ∈ seenKeys c.log t, c.world.findByIdempotencyKey key ≠ none
  base : ∀ id row, c.world.findById id = some row →
    c.world.findByIdempotencyKey row.base_key ≠ none
  unique : c.world.AtMostOneActive

theorem intentsKept_init (digest : IntentDigest) (w : IntentStore) (calls : Nat → IntentCall) :
    IntentsKept (IntentSystem.init digest w calls) where
  seen _ _ h := nomatch h
  base _ _ h := nomatch h
  unique _ _ _ _ h := nomatch h

section Step

variable {c : IntentSystem} {t : Nat} {o : IntentOp} {k : o.Ans → IntentProg Unit}

/-- The keys seen after a step are taken. -/
theorem IntentsKept.seen_step (hinv : IntentsKept c) (u : Nat) {key : String}
    (hkey : key ∈ seenKeys (Pool.advance intentMachine c t o k).log u) :
    (o.write c.world).findByIdempotencyKey key ≠ none := by
  apply IntentOp.write_keeps_key
  by_cases hu : u = t
  · subst hu
    have hself : seenKeys (Pool.advance intentMachine c u o k).log u =
        (seenKeys c.log u).next o (o.answer c.world) := Pool.track_advance_self
    rw [hself] at hkey
    cases o with
    | findByIdempotencyKey key' =>
        cases hfind : c.world.findByIdempotencyKey key' with
        | none =>
            rw [IntentOp.answer, hfind] at hkey
            exact hinv.seen u key hkey
        | some existing =>
            rw [IntentOp.answer, hfind] at hkey
            rcases List.mem_cons.1 hkey with rfl | hold
            · rw [hfind]
              exact Option.some_ne_none _
            · exact hinv.seen u key hold
    | newDate | findById id | listActiveByLane projectId lane
    | listFreshFacts projectId requirements time | recordOutcome input
    | save input baseKey idempotencyKey | updateStatus id status terminalOutcome =>
        exact hinv.seen u key hkey
  · have hother : seenKeys (Pool.advance intentMachine c t o k).log u = seenKeys c.log u :=
      Pool.track_advance_of_ne hu
    rw [hother] at hkey
    exact hinv.seen u key hkey

theorem IntentsKept.insert (hinv : IntentsKept c) {input : CreateOrchestrationIntentInput}
    {baseKey key : String} (hissue : SeenIssues (seenKeys c.log t) (.save input baseKey key))
    (hcond : KeepsEnds c t (.save input baseKey key))
    (hfree : c.world.findByIdempotencyKey key = none) :
    (∀ id row, (c.world.insert input baseKey key hfree).findById id = some row →
      (c.world.insert input baseKey key hfree).findByIdempotencyKey row.base_key ≠ none) ∧
    (c.world.insert input baseKey key hfree).AtMostOneActive := by
  -- the intents of the key before the insert have ended
  have hended : ∀ id row, c.world.findById id = some row → row.base_key = baseKey →
      row.status.isTerminal = true := by
    intro id row hrow hbase
    by_cases hkey : key = baseKey
    · exact absurd (hkey ▸ hfree) (hbase ▸ hinv.base id row hrow)
    · exact hcond hkey hfree row (IntentStore.mem_of_findById hrow).1 hbase
  have htaken : ∀ {key'}, c.world.findByIdempotencyKey key' ≠ none →
      (c.world.insert input baseKey key hfree).findByIdempotencyKey key' ≠ none := by
    intro key' hkey'
    rw [IntentStore.findByIdempotencyKey_ne_none] at hkey' ⊢
    rw [IntentStore.insert, List.map_append]
    exact List.mem_append_left _ hkey'
  refine ⟨fun id row hrow => ?_, fun i j row row' hrow hrow' hbase hactive hactive' => ?_⟩
  · rw [IntentStore.findById_insert] at hrow
    split at hrow
    · cases hrow
      rcases hissue with rfl | hseen
      · rw [IntentStore.findByIdempotencyKey_ne_none, IntentStore.insert, List.map_append]
        exact List.mem_append_right _ List.mem_cons_self
      · exact htaken (hinv.seen t baseKey hseen)
    · exact htaken (hinv.base id row hrow)
  · rw [IntentStore.findById_insert] at hrow hrow'
    split at hrow <;> split at hrow'
    · rename_i hi hj
      exact hi.trans hj.symm
    · cases hrow
      rw [hended j row' hrow' hbase.symm] at hactive'
      cases hactive'
    · cases hrow'
      rw [hended i row hrow hbase] at hactive
      cases hactive
    · exact hinv.unique i j row row' hrow hrow' hbase hactive hactive'

/-- A status is written to a row with the same key, and no end is left. -/
theorem updateStatus_old {id : Nat} {status : OrchestrationIntentStatus}
    {terminalOutcome : Option String}
    (hcond : KeepsEnds c t (.updateStatus id status terminalOutcome)) :
    (∀ i row, (c.world.updateStatus id status terminalOutcome).findById i = some row →
      ∃ old, c.world.findById i = some old ∧ old.base_key = row.base_key ∧
        (row.status.isTerminal = false → old.status.isTerminal = false)) := by
  intro i row hrow
  rw [IntentStore.findById_updateStatus] at hrow
  split at hrow
  · rename_i hid
    obtain ⟨old, hold, rfl⟩ := Option.map_eq_some_iff.1 hrow
    obtain ⟨hmem, hi⟩ := IntentStore.mem_of_findById hold
    exact ⟨old, hold, rfl, fun hactive => hcond hactive old hmem (hi.trans hid)⟩
  · exact ⟨row, hrow, rfl, fun hactive => hactive⟩

/-- **One step.** Under the condition the table keeps to the property. -/
theorem intentsKept_step (hinv : IntentsKept c) (hissue : SeenIssues (seenKeys c.log t) o)
    (hcond : KeepsEnds c t o) : IntentsKept (Pool.advance intentMachine c t o k) := by
  have hseen : ∀ u, ∀ key ∈ seenKeys (Pool.advance intentMachine c t o k).log u,
      (o.write c.world).findByIdempotencyKey key ≠ none :=
    fun u key hkey => hinv.seen_step u hkey
  cases o with
  | save input baseKey key =>
      rcases IntentOp.write_save c.world input baseKey key with ⟨hfree, hwrite⟩ | ⟨-, hwrite⟩
      · obtain ⟨hbase, hunique⟩ := hinv.insert hissue hcond hfree
        refine ⟨hseen, ?_, ?_⟩
        · show ∀ id row, (IntentOp.write c.world _).findById id = some row →
            (IntentOp.write c.world _).findByIdempotencyKey row.base_key ≠ none
          rw [hwrite]
          exact hbase
        · show (IntentOp.write c.world _).AtMostOneActive
          rw [hwrite]
          exact hunique
      · refine ⟨hseen, ?_, ?_⟩
        · show ∀ id row, (IntentOp.write c.world _).findById id = some row →
            (IntentOp.write c.world _).findByIdempotencyKey row.base_key ≠ none
          rw [hwrite]
          exact hinv.base
        · show (IntentOp.write c.world _).AtMostOneActive
          rw [hwrite]
          exact hinv.unique
  | updateStatus id status terminalOutcome =>
      have hold := updateStatus_old hcond
      refine ⟨hseen, fun i row hrow => ?_, fun i j row row' hrow hrow' hbase hactive hactive' => ?_⟩
      · obtain ⟨old, hfind, hsame, -⟩ := hold i row hrow
        rw [← hsame]
        exact IntentOp.write_keeps_key (hinv.base i old hfind)
          (.updateStatus id status terminalOutcome)
      · obtain ⟨old, hfind, hsame, hwas⟩ := hold i row hrow
        obtain ⟨old', hfind', hsame', hwas'⟩ := hold j row' hrow'
        exact hinv.unique i j old old' hfind hfind' (hsame.trans (hbase.trans hsame'.symm))
          (hwas hactive) (hwas' hactive')
  | newDate | findById id | findByIdempotencyKey key | listActiveByLane projectId lane
  | listFreshFacts projectId requirements time | recordOutcome input =>
      exact ⟨hseen, hinv.base, hinv.unique⟩

/-- An intent at its end stays at an end over a step under the condition. -/
theorem endsKept_step (hcond : KeepsEnds c t o) : c.world.EndsKept (o.write c.world) := by
  intro i row hrow hended
  cases o with
  | save input baseKey key =>
      rcases IntentOp.write_save c.world input baseKey key with ⟨hfree, hwrite⟩ | ⟨-, hwrite⟩
      · have hne : i ≠ c.world.intents.length := by
          rintro rfl
          rw [IntentStore.findById_length] at hrow
          cases hrow
        rw [hwrite, IntentStore.findById_insert, if_neg hne]
        exact ⟨row, hrow, hended⟩
      · rw [hwrite]
        exact ⟨row, hrow, hended⟩
  | updateStatus id status terminalOutcome =>
      show ∃ row', (c.world.updateStatus id status terminalOutcome).findById i = some row' ∧ _
      rw [IntentStore.findById_updateStatus]
      split
      · rename_i hid
        obtain ⟨hmem, hi⟩ := IntentStore.mem_of_findById hrow
        refine ⟨_, by rw [hrow]; rfl, ?_⟩
        -- a status that is no end is not written to an intent at its end
        by_contra hactive
        have hwas := hcond (by simpa using hactive) row hmem (hi.trans hid)
        rw [hended] at hwas
        cases hwas
      · exact ⟨row, hrow, hended⟩
  | newDate | findById id | findByIdempotencyKey key | listActiveByLane projectId lane
  | listFreshFacts projectId requirements time | recordOutcome input =>
      exact ⟨row, hrow, hended⟩

/-- A step that breaks the condition breaks the property. -/
theorem keepsEnds_of_kept (hunique : (o.write c.world).AtMostOneActive)
    (hends : c.world.EndsKept (o.write c.world)) : KeepsEnds c t o := by
  cases o with
  | save input baseKey key =>
      intro _ hfree row hmem hbase
      rcases IntentOp.write_save c.world input baseKey key with ⟨hfree, hwrite⟩ | ⟨htaken, -⟩
      · rw [hwrite] at hunique
        by_contra hactive
        have hrow := IntentStore.findById_of_mem hmem
        have hne : row.id ≠ c.world.intents.length := by
          intro heq
          rw [heq, IntentStore.findById_length] at hrow
          cases hrow
        -- the row that the save inserts is pending
        refine hne (hunique row.id c.world.intents.length row
          (input.entity baseKey key c.world.intents.length (c.world.clock c.world.steps)) ?_ ?_
          hbase (by simpa using hactive) rfl)
        · rw [IntentStore.findById_insert, if_neg hne]
          exact hrow
        · rw [IntentStore.findById_insert, if_pos rfl]
      · exact absurd hfree htaken
  | updateStatus id status terminalOutcome =>
      intro hactive row hmem hid
      by_contra hended
      obtain ⟨row', hrow', hended'⟩ :=
        hends row.id row (IntentStore.findById_of_mem hmem) (by simpa using hended)
      have hwritten := (IntentStore.findById_updateStatus id status terminalOutcome).symm.trans hrow'
      rw [if_pos hid, IntentStore.findById_of_mem hmem] at hwritten
      cases hwritten
      rw [hactive] at hended'
      cases hended'
  | newDate | findById id | findByIdempotencyKey key | listActiveByLane projectId lane
  | listFreshFacts projectId requirements time | recordOutcome input => trivial

end Step

/-! ## Runs -/

section Runs

variable {c c' : IntentSystem}

theorem IntentStore.EndsKept.trans {w w' w'' : IntentStore} (h : w.EndsKept w')
    (h' : w'.EndsKept w'') : w.EndsKept w'' := by
  intro id row hrow hended
  obtain ⟨row', hrow', hended'⟩ := h id row hrow hended
  exact h' id row' hrow' hended'

/-- The calls keep to their contracts. -/
abbrev KeepSeen (c : IntentSystem) : Prop := ∀ t, KeepsSeen (c.threads t) (seenKeys c.log t)

/-- The table keeps to the property, and every intent at its end in `c` is at an end. -/
def KeptSince (c c' : IntentSystem) : Prop := IntentsKept c' ∧ c.world.EndsKept c'.world

/-- **Runs under the condition.** -/
theorem keptSince_reach (hkept : IntentsKept c) (hkeep : KeepSeen c)
    (h : Pool.Reach intentMachine KeepsEnds c c') : KeptSince c c' ∧ KeepSeen c' := by
  have hinit : KeptSince c c := ⟨hkept, fun id row hrow hended => ⟨row, hrow, hended⟩⟩
  refine Pool.Reach.follows hkeep hinit ?_ h
  rintro c₁ t o k ⟨hinv, hends⟩ _ hissue _ hcond
  exact ⟨trivial, intentsKept_step hinv hissue hcond, hends.trans (endsKept_step hcond)⟩

end Runs

/-- **Intents and their ends.** In every run whose steps meet the condition, at most one intent of
a key is not at its end, and an intent at its end stays at an end. The next step of such a run
keeps this exactly when it meets the condition. -/
theorem intents_idempotent_and_final {digest : IntentDigest} {w : IntentStore}
    {calls : Nat → IntentCall} {c : IntentSystem}
    (h : Pool.Reach intentMachine KeepsEnds (IntentSystem.init digest w calls) c) :
    c.world.AtMostOneActive ∧
    (∀ c', Pool.Reach intentMachine KeepsEnds c c' → c.world.EndsKept c'.world) ∧
    ∀ t o k, c.threads t = .call o k →
      (KeepsEnds c t o ↔ (Pool.advance intentMachine c t o k).world.AtMostOneActive ∧
        c.world.EndsKept (Pool.advance intentMachine c t o k).world) := by
  have hkeep : KeepSeen (IntentSystem.init digest w calls) :=
    fun t => intentProgram_keepsSeen digest (calls t) _
  obtain ⟨⟨hkept, -⟩, hkeep'⟩ := keptSince_reach (intentsKept_init digest w calls) hkeep h
  refine ⟨hkept.unique, fun c' hreach => (keptSince_reach hkept hkeep' hreach).1.2, ?_⟩
  intro t o k hthread
  constructor
  · intro hcond
    have hstep : Pool.Step intentMachine KeepsEnds c (Pool.advance intentMachine c t o k) :=
      ⟨t, o, k, hthread, trivial, hcond, rfl⟩
    obtain ⟨hnext, hends⟩ := (keptSince_reach hkept hkeep' (.single hstep)).1
    exact ⟨hnext.unique, hends⟩
  · rintro ⟨hunique, hends⟩
    exact keepsEnds_of_kept hunique hends

/-! ## Runs of one key -/

def repairInput : CreateOrchestrationIntentInput where
  projectId := "project-1"
  lane := .repair
  type := .repairFailedRun
  requester := "orchestrator"
  reason := "run failed"
  idempotencyKey := some "repair:run-1"

/-- No intents and no facts. -/
def noIntents : IntentStore where
  intents := []
  ids := IntentStore.ids_nil
  keys := List.nodup_nil
  clock n := n
  clock_mono := by
    intro m n hmn
    exact Int.ofNat_lt.2 hmn
  facts _ := []

/-- The key is requested over and over; the first intent is completed and evaluated. -/
def intentCalls : Nat → IntentCall
  | 0 => .createIntent repairInput
  | 1 => .completeIntent 0 .directMutationCompleted none
  | 2 => .evaluateIntent 0 {}
  | _ => .createIntent repairInput

def intentRun (sched : List (Nat × Nat)) : IntentSystem :=
  Pool.play intentMachine sched (IntentSystem.init (fun _ _ _ _ _ => "") noIntents intentCalls)

/-- The intent is completed, and the next request of its key saves a second one. -/
theorem intents_idempotent_and_final_next :
    (intentRun [(0, 2), (1, 4), (3, 3)]).world.AtMostOneActive := by
  have hadmits : Pool.admits intentMachine KeepsEnds [(0, 2), (1, 4), (3, 3)]
      (IntentSystem.init (fun _ _ _ _ _ => "") noIntents intentCalls) = true := by decide +kernel
  exact (intents_idempotent_and_final (Pool.reach_play_of_admits _ _ hadmits)).1

/-- After the first intent has ended, two requests of its key save two pending intents; and an
evaluation of the completed intent makes it launchable. -/
theorem ended_key_is_saved_twice :
    (∃ c, Pool.Reach intentMachine Pool.anyStep
        (IntentSystem.init (fun _ _ _ _ _ => "") noIntents intentCalls) c ∧
      ¬ c.world.AtMostOneActive) ∧
    ∃ c c', Pool.Reach intentMachine Pool.anyStep
        (IntentSystem.init (fun _ _ _ _ _ => "") noIntents intentCalls) c ∧
      Pool.Reach intentMachine Pool.anyStep c c' ∧ ¬ c.world.EndsKept c'.world := by
  refine ⟨⟨intentRun [(0, 2), (1, 4), (3, 3), (4, 3)],
      Pool.reach_play (M := intentMachine) _ _, fun hunique => ?_⟩,
    ⟨intentRun [(0, 2), (1, 4)],
      Pool.play intentMachine [(2, 4)] (intentRun [(0, 2), (1, 4)]),
      Pool.reach_play (M := intentMachine) _ _, Pool.reach_play (M := intentMachine) _ _,
      fun hends => ?_⟩⟩
  · have hsecond : ((intentRun [(0, 2), (1, 4), (3, 3), (4, 3)]).world.findById 1).map
        (fun row => (row.base_key, row.status)) = some ("repair:run-1", .pending) := by
      decide +kernel
    have hthird : ((intentRun [(0, 2), (1, 4), (3, 3), (4, 3)]).world.findById 2).map
        (fun row => (row.base_key, row.status)) = some ("repair:run-1", .pending) := by
      decide +kernel
    obtain ⟨row, hrow, heq⟩ := Option.map_eq_some_iff.1 hsecond
    obtain ⟨row', hrow', heq'⟩ := Option.map_eq_some_iff.1 hthird
    obtain ⟨hbase, hstatus⟩ := Prod.mk.inj heq
    obtain ⟨hbase', hstatus'⟩ := Prod.mk.inj heq'
    have hsame := hunique 1 2 row row' hrow hrow' (hbase.trans hbase'.symm)
      (by rw [hstatus]; rfl) (by rw [hstatus']; rfl)
    cases hsame
  · have hcompleted : ((intentRun [(0, 2), (1, 4)]).world.findById 0).map
        (fun row => row.status) = some .completed := by decide +kernel
    have hevaluated : ((Pool.play intentMachine [(2, 4)]
        (intentRun [(0, 2), (1, 4)])).world.findById 0).map
        (fun row => row.status) = some .launchable := by decide +kernel
    obtain ⟨row, hrow, hstatus⟩ := Option.map_eq_some_iff.1 hcompleted
    obtain ⟨row', hrow', hended⟩ := hends 0 row hrow (by rw [hstatus]; rfl)
    rw [hrow', Option.map_some, Option.some.injEq] at hevaluated
    rw [hevaluated] at hended
    cases hended

end Nexus
