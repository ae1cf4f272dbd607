import Nexus.Events.Outbox

/-!
# Delivery from the outbox

A publish fans its event out and leaves the row pending, and a pass that finds a failing handler
takes the row off the list. An event is fanned out no more once its handlers have succeeded, and
stays pending after a failure, in every run in which no pass lists an event that has succeeded, a
fan-out that succeeds is the last one under way for its event, and no pass marks an event failed
whose last fan-out has failed (`DeliversOnce`).
-/

set_option autoImplicit false

namespace Nexus

/-! ## Fan-outs of a run -/

/-- The fan-out of a step: its event, and whether the handlers succeeded. -/
def Entry.fanOut? : Entry Nat OutboxOp OutboxOp.Ans → Option (String × Bool)
  | ⟨_, .fanOut event, result⟩ => some (event.eventId, Option.isNone result)
  | _ => none

/-- The outcomes of the fan-outs of an event, the last one first. -/
def fanOutsOf (id : String) : List (Entry Nat OutboxOp OutboxOp.Ans) → List Bool
  | [] => []
  | e :: log =>
      match e.fanOut? with
      | some (id', outcome) => if id' = id then outcome :: fanOutsOf id log else fanOutsOf id log
      | none => fanOutsOf id log

/-- What a call has in hand: the events it has appended or listed and not fanned out yet, and its
last fan-out. -/
structure Hand where
  events : List String := []
  last : Option (String × Bool) := none

def Hand.next (g : Hand) : (o : OutboxOp) → o.Ans → Hand
  | .save entity, _ => { g with events := entity.eventId :: g.events }
  | .findPending _, rows => { g with events := (rows.map fun row => row.eventId) ++ g.events }
  | .fanOut event, result =>
      { events := g.events.filter fun id => id ≠ event.eventId
        last := some (event.eventId, Option.isNone result) }
  | .updateStatus _ _ _, _ => g
  | .incrementAttemptCount _, _ => g

def handOf (log : List (Entry Nat OutboxOp OutboxOp.Ans)) (t : Nat) : Hand :=
  Pool.track Hand.next (fun _ => {}) log t

/-- The condition on a step: an event is appended once; a pass lists no event that has succeeded;
handlers succeed when no other call has the event in hand; an event whose last fan-out has failed is
not marked failed. -/
def DeliversOnce (c : OutboxSystem) (t : Nat) : OutboxOp → Prop
  | .save entity => c.world.find entity.eventId = none
  | .findPending limit =>
      ∀ row ∈ c.world.findPending limit, true ∉ fanOutsOf row.eventId c.log
  | .fanOut event => c.world.handlers c.world.fanOuts event = none →
      ∀ e ∈ c.log, e.tid ≠ t → event.eventId ∉ (handOf c.log e.tid).events
  | .updateStatus id .failed _ => (fanOutsOf id c.log).head? ≠ some false
  | _ => True

instance (c : OutboxSystem) (t : Nat) (o : OutboxOp) : Decidable (DeliversOnce c t o) := by
  cases o with
  | save entity =>
      exact decidable_of_iff ((c.world.find entity.eventId).isNone = true) Option.isNone_iff_eq_none
  | findPending limit => exact List.decidableBAll _ _
  | fanOut event =>
      have : Decidable (∀ e ∈ c.log, e.tid ≠ t → event.eventId ∉ (handOf c.log e.tid).events) :=
        List.decidableBAll _ _
      exact inferInstanceAs (Decidable (_ → _))
  | updateStatus id status lastError =>
      cases status <;> simp only [DeliversOnce] <;> exact inferInstance
  | incrementAttemptCount id => exact isTrue trivial

/-! ## The contract of the calls -/

/-- An event is appended as pending, only an event in hand is fanned out, and a mark says how the
last fan-out went. -/
def HandIssues (g : Hand) : OutboxOp → Prop
  | .save entity => entity.deliveryStatus = .pending
  | .fanOut event => event.eventId ∈ g.events
  | .updateStatus id .delivered _ => g.last = some (id, true)
  | .updateStatus id .failed _ => g.last = some (id, false)
  | .updateStatus _ .pending _ => False
  | _ => True

def HandAnswers (_ : Hand) : (o : OutboxOp) → o.Ans → Prop
  | .findPending _, rows => (rows.map fun row => row.eventId).Nodup
  | _, _ => True

/-- The program keeps to the contract from a hand. -/
abbrev KeepsHand {α : Type} (p : OutboxProg α) (g : Hand) : Prop :=
  Prog.Meets (Pool.following Hand.next HandIssues HandAnswers) (fun _ _ => True)
    (fun _ _ => True) p g

theorem publish_keepsHand (event : DomainEventEnvelope) (g : Hand) :
    KeepsHand (OutboxDomainEventBus.publish event) g := by
  refine ⟨rfl, ?_⟩
  rintro - g₁ ⟨rfl, -⟩
  refine ⟨List.mem_cons_self, ?_⟩
  rintro result g₂ -
  cases result <;> trivial

theorem publishAll_keepsHand (events : List DomainEventEnvelope) (g : Hand) :
    KeepsHand (OutboxDomainEventBus.publishAll events) g := by
  induction events generalizing g with
  | nil => trivial
  | cons event events ih => exact (publish_keepsHand event g).bind fun _ g' _ => ih g'

theorem drainEvents_keepsHand (events : List DomainEventOutboxEntity) (result : DrainResult)
    (g : Hand) (hkeys : (events.map fun event => event.eventId).Nodup)
    (hmem : ∀ event ∈ events, event.eventId ∈ g.events) :
    KeepsHand (DomainEventOutboxWorker.drainEvents events result) g := by
  induction events generalizing result g with
  | nil => trivial
  | cons event events ih =>
      rw [List.map_cons, List.nodup_cons] at hkeys
      -- the rest of the page stays in hand when its first event is fanned out
      have hrest : ∀ event' ∈ events,
          event'.eventId ∈ g.events.filter fun id => id ≠ event.eventId := by
        intro event' hevent'
        have hne : event'.eventId ≠ event.eventId := by
          intro heq
          exact hkeys.1 (heq ▸ List.mem_map.2 ⟨event', hevent', rfl⟩)
        simpa [hne] using hmem event' (List.mem_cons_of_mem _ hevent')
      refine ⟨hmem event List.mem_cons_self, ?_⟩
      rintro outcome g₁ ⟨rfl, -⟩
      cases outcome with
      | none =>
          refine ⟨rfl, ?_⟩
          rintro - g₂ ⟨rfl, -⟩
          exact ih _ _ hkeys.2 hrest
      | some message =>
          refine ⟨trivial, ?_⟩
          rintro - g₂ ⟨rfl, -⟩
          refine ⟨rfl, ?_⟩
          rintro - g₃ ⟨rfl, -⟩
          exact ih _ _ hkeys.2 hrest

theorem program_keepsHand (call : OutboxCall) (g : Hand) : KeepsHand call.program g := by
  cases call with
  | publish event => exact publish_keepsHand event g
  | publishAll events => exact publishAll_keepsHand events g
  | drainPending limit =>
      have hdrain : KeepsHand (DomainEventOutboxWorker.drainPending limit) g := by
        refine ⟨trivial, ?_⟩
        rintro rows g₁ ⟨rfl, hkeys⟩
        refine drainEvents_keepsHand rows {} _ hkeys fun row hrow => ?_
        exact List.mem_append_left _ (List.mem_map.2 ⟨row, hrow, rfl⟩)
      exact hdrain.bind fun _ _ _ => trivial

/-! ## The invariant -/

/-- What holds between the rows, the fan-outs and the hands of the calls. -/
structure Delivering (c : OutboxSystem) : Prop where
  once : ∀ id, true ∉ (fanOutsOf id c.log).tail
  pending : ∀ id, (fanOutsOf id c.log).head? = some false →
    c.world.statusOf id = some .pending
  known : ∀ id, fanOutsOf id c.log ≠ [] → c.world.statusOf id ≠ none
  hand : ∀ t id, id ∈ (handOf c.log t).events →
    c.world.statusOf id = some .pending ∧ true ∉ fanOutsOf id c.log
  last : ∀ t id outcome, (handOf c.log t).last = some (id, outcome) →
    fanOutsOf id c.log ≠ [] ∧ (outcome = true → true ∈ fanOutsOf id c.log)

theorem delivering_start (w : Outbox) (calls : Nat → OutboxCall) :
    Delivering (OutboxSystem.init w calls) where
  once _ h := nomatch h
  pending _ h := nomatch h
  known _ h := absurd rfl h
  hand _ _ h := nomatch h
  last _ _ _ h := nomatch h

section Step

variable {c c' : OutboxSystem} {t : Nat}

variable {id : String}

/-- A failure that came last came after no success. -/
theorem Delivering.not_mem_of_head (hinv : Delivering c)
    (h : (fanOutsOf id c.log).head? = some false) : true ∉ fanOutsOf id c.log := by
  have honce := hinv.once id
  cases hlist : fanOutsOf id c.log with
  | nil => simp
  | cons outcome rest =>
      rw [hlist] at h honce
      have hfalse : outcome = false := by simpa using h
      simpa [hfalse] using honce

/-- A step without a fan-out keeps the invariant when the status of a row changes after a success
only, and what comes in hand is pending and has not succeeded. -/
theorem Delivering.of_quiet (hinv : Delivering c)
    (hfan : ∀ id, fanOutsOf id c'.log = fanOutsOf id c.log)
    (hlast : ∀ u, (handOf c'.log u).last = (handOf c.log u).last)
    (hhand : ∀ u id, id ∈ (handOf c'.log u).events → id ∈ (handOf c.log u).events ∨
      (c'.world.statusOf id = some .pending ∧ true ∉ fanOutsOf id c.log))
    (hstatus : ∀ id, c.world.statusOf id ≠ none → c'.world.statusOf id = c.world.statusOf id ∨
      (true ∈ fanOutsOf id c.log ∧ c'.world.statusOf id ≠ none)) :
    Delivering c' where
  once id := by
    rw [hfan]
    exact hinv.once id
  pending id h := by
    rw [hfan] at h
    have hpending := hinv.pending id h
    rcases hstatus id (by simp [hpending]) with hsame | ⟨hsucceeded, -⟩
    · exact hsame.trans hpending
    · exact absurd hsucceeded (hinv.not_mem_of_head h)
  known id h := by
    rw [hfan] at h
    rcases hstatus id (hinv.known id h) with hsame | ⟨-, hsome⟩
    · rw [hsame]
      exact hinv.known id h
    · exact hsome
  hand u id h := by
    rw [hfan]
    rcases hhand u id h with hold | hnew
    · obtain ⟨hpending, hnot⟩ := hinv.hand u id hold
      rcases hstatus id (by simp [hpending]) with hsame | ⟨hsucceeded, -⟩
      · exact ⟨hsame.trans hpending, hnot⟩
      · exact absurd hsucceeded hnot
    · exact hnew
  last u id outcome h := by
    rw [hlast] at h
    rw [hfan]
    exact hinv.last u id outcome h

variable {o : OutboxOp}

variable {k : o.Ans → OutboxProg Unit}

theorem handOf_advance_self :
    handOf (Pool.advance outboxMachine c t o k).log t =
      (handOf c.log t).next o (o.exec c.world).2 :=
  Pool.track_advance_self

theorem handOf_advance_of_ne {u : Nat} (h : u ≠ t) :
    handOf (Pool.advance outboxMachine c t o k).log u = handOf c.log u :=
  Pool.track_advance_of_ne h

theorem delivering_save (hinv : Delivering c) {entity : DomainEventOutboxEntity}
    {k : (OutboxOp.save entity).Ans → OutboxProg Unit}
    (hissue : HandIssues (handOf c.log t) (.save entity))
    (hcond : DeliversOnce c t (.save entity)) :
    Delivering (Pool.advance outboxMachine c t (.save entity) k) := by
  have hpending : entity.deliveryStatus = .pending := hissue
  have hnew : c.world.find entity.eventId = none := hcond
  have hnone : c.world.statusOf entity.eventId = none := by rw [Outbox.statusOf, hnew]; rfl
  have hstatus : ∀ id, (c.world.save entity).statusOf id =
      if id = entity.eventId then some .pending else c.world.statusOf id := by
    intro id
    rw [← hpending]
    exact Outbox.statusOf_save hnew
  have hnever : fanOutsOf entity.eventId c.log = [] := by
    by_contra hne
    exact hinv.known _ hne hnone
  refine hinv.of_quiet (fun _ => rfl) (fun u => ?_) (fun u id h => ?_) (fun id hsome => ?_)
  · by_cases hu : u = t
    · subst hu
      rw [handOf_advance_self]
      rfl
    · rw [handOf_advance_of_ne hu]
  · by_cases hu : u = t
    · subst hu
      rw [handOf_advance_self] at h
      rcases List.mem_cons.1 h with rfl | hold
      · exact Or.inr ⟨(hstatus _).trans (if_pos rfl), by simp [hnever]⟩
      · exact Or.inl hold
    · rw [handOf_advance_of_ne hu] at h
      exact Or.inl h
  · refine Or.inl ((hstatus id).trans (if_neg ?_))
    rintro rfl
    exact hsome hnone

theorem delivering_findPending (hinv : Delivering c) {limit : Nat}
    {k : (OutboxOp.findPending limit).Ans → OutboxProg Unit}
    (hcond : DeliversOnce c t (.findPending limit)) :
    Delivering (Pool.advance outboxMachine c t (.findPending limit) k) := by
  refine hinv.of_quiet (fun _ => rfl) (fun u => ?_) (fun u id h => ?_) (fun _ _ => Or.inl rfl)
  · by_cases hu : u = t
    · subst hu
      rw [handOf_advance_self]
      rfl
    · rw [handOf_advance_of_ne hu]
  · by_cases hu : u = t
    · subst hu
      rw [handOf_advance_self] at h
      rcases List.mem_append.1 h with hlisted | hold
      · obtain ⟨row, hrow, rfl⟩ := List.mem_map.1 hlisted
        exact Or.inr ⟨Outbox.statusOf_findPending hrow, hcond row hrow⟩
      · exact Or.inl hold
    · rw [handOf_advance_of_ne hu] at h
      exact Or.inl h

/-- The marks leave the hands alone. -/
theorem handOf_advance_mark (hmark : ∀ g : Hand, g.next o (o.exec c.world).2 = g) (u : Nat) :
    handOf (Pool.advance outboxMachine c t o k).log u = handOf c.log u := by
  by_cases hu : u = t
  · subst hu
    rw [handOf_advance_self, hmark]
  · exact handOf_advance_of_ne hu

theorem delivering_updateStatus (hinv : Delivering c) {status : DomainEventDeliveryStatus}
    {lastError : Option String}
    {k : (OutboxOp.updateStatus id status lastError).Ans → OutboxProg Unit}
    (hissue : HandIssues (handOf c.log t) (.updateStatus id status lastError))
    (hcond : DeliversOnce c t (.updateStatus id status lastError)) :
    Delivering (Pool.advance outboxMachine c t (.updateStatus id status lastError) k) := by
  have hsucceeded : true ∈ fanOutsOf id c.log := by
    cases status with
    | pending => exact hissue.elim
    | delivered => exact (hinv.last t id true hissue).2 rfl
    | failed =>
        -- another fan-out came after the one that failed
        have hne := (hinv.last t id false hissue).1
        have hhead : (fanOutsOf id c.log).head? ≠ some false := hcond
        cases hlist : fanOutsOf id c.log with
        | nil => exact absurd hlist hne
        | cons outcome rest =>
            rw [hlist] at hhead
            have htrue : outcome = true := by simpa using hhead
            simp [htrue]
  have hhands := handOf_advance_mark (c := c) (t := t) (k := k) fun _ => rfl
  refine hinv.of_quiet (fun _ => rfl) (fun u => by rw [hhands]) (fun u id' h => ?_)
    (fun id' hsome => ?_)
  · rw [hhands] at h
    exact Or.inl h
  · have hstatus : ((OutboxOp.updateStatus id status lastError).exec c.world).1.statusOf id' =
        if id' = id then (c.world.statusOf id').map fun _ => status else c.world.statusOf id' :=
      Outbox.statusOf_updateStatus
    by_cases hid : id' = id
    · subst hid
      refine Or.inr ⟨hsucceeded, ?_⟩
      intro hnone
      have hmap := hstatus.symm.trans hnone
      rw [if_pos rfl, Option.map_eq_none_iff] at hmap
      exact hsome hmap
    · exact Or.inl (hstatus.trans (if_neg hid))

theorem delivering_incrementAttemptCount (hinv : Delivering c)
    {k : (OutboxOp.incrementAttemptCount id).Ans → OutboxProg Unit} :
    Delivering (Pool.advance outboxMachine c t (.incrementAttemptCount id) k) := by
  have hhands := handOf_advance_mark (c := c) (t := t) (k := k) fun _ => rfl
  refine hinv.of_quiet (fun _ => rfl) (fun u => by rw [hhands]) (fun u id' h => ?_)
    (fun id' _ => Or.inl Outbox.statusOf_incrementAttemptCount)
  rw [hhands] at h
  exact Or.inl h

/-- Only a call that has taken a step has an event in hand. -/
theorem mem_log_of_hand {log : List (Entry Nat OutboxOp OutboxOp.Ans)} {u : Nat}
    (h : id ∈ (handOf log u).events) : ∃ e ∈ log, e.tid = u := by
  induction log with
  | nil => cases h
  | cons e log ih =>
      by_cases htid : e.tid = u
      · exact ⟨e, List.mem_cons_self, htid⟩
      · have hsame : handOf (e :: log) u = handOf log u := if_neg htid
        rw [hsame] at h
        obtain ⟨e', he', htid'⟩ := ih h
        exact ⟨e', List.mem_cons_of_mem _ he', htid'⟩

theorem fanOutsOf_advance {event : DomainEventEnvelope}
    {k : (OutboxOp.fanOut event).Ans → OutboxProg Unit} (id : String) :
    fanOutsOf id (Pool.advance outboxMachine c t (.fanOut event) k).log =
      if event.eventId = id then
        (c.world.handlers c.world.fanOuts event).isNone :: fanOutsOf id c.log
      else fanOutsOf id c.log := rfl

theorem delivering_fanOut (hinv : Delivering c) {event : DomainEventEnvelope}
    {k : (OutboxOp.fanOut event).Ans → OutboxProg Unit}
    (hissue : HandIssues (handOf c.log t) (.fanOut event))
    (hcond : DeliversOnce c t (.fanOut event)) :
    Delivering (Pool.advance outboxMachine c t (.fanOut event) k) := by
  obtain ⟨hpending, hnot⟩ := hinv.hand t event.eventId hissue
  have hworld : ∀ id, (Pool.advance outboxMachine c t (.fanOut event) k).world.statusOf id =
      c.world.statusOf id := fun _ => rfl
  refine ⟨fun id => ?_, fun id h => ?_, fun id h => ?_, fun u id h => ?_, fun u id outcome h => ?_⟩
  · rw [fanOutsOf_advance]
    split
    · rename_i hid
      rw [← hid]
      exact hnot
    · exact hinv.once id
  · rw [fanOutsOf_advance] at h
    rw [hworld]
    split at h
    · rename_i hid
      rw [← hid]
      exact hpending
    · exact hinv.pending id h
  · rw [fanOutsOf_advance] at h
    rw [hworld]
    split at h
    · rename_i hid
      rw [← hid, hpending]
      exact Option.some_ne_none _
    · exact hinv.known id h
  · rw [fanOutsOf_advance, hworld]
    by_cases hu : u = t
    · subst hu
      rw [handOf_advance_self] at h
      obtain ⟨hmem, hne⟩ := List.mem_filter.1 h
      rw [if_neg (Ne.symm (by simpa using hne))]
      exact hinv.hand u id hmem
    · rw [handOf_advance_of_ne hu] at h
      obtain ⟨hstatus, hnever⟩ := hinv.hand u id h
      split
      · rename_i hid
        -- another call holds the event, so the handlers have failed
        subst hid
        refine ⟨hstatus, ?_⟩
        cases hresult : c.world.handlers c.world.fanOuts event with
        | none =>
            obtain ⟨e, he, htid⟩ := mem_log_of_hand h
            have hother := hcond hresult e he (htid ▸ hu)
            rw [htid] at hother
            exact absurd h hother
        | some message => simpa using hnever
      · exact ⟨hstatus, hnever⟩
  · rw [fanOutsOf_advance]
    by_cases hu : u = t
    · subst hu
      rw [handOf_advance_self] at h
      have hown : (event.eventId, (c.world.handlers c.world.fanOuts event).isNone) =
          (id, outcome) := Option.some.inj h
      obtain ⟨hid, houtcome⟩ := Prod.mk.inj hown
      rw [if_pos hid, houtcome]
      exact ⟨List.cons_ne_nil _ _, fun htrue => htrue ▸ List.mem_cons_self⟩
    · rw [handOf_advance_of_ne hu] at h
      obtain ⟨hne, hmem⟩ := hinv.last u id outcome h
      split
      · exact ⟨List.cons_ne_nil _ _, fun htrue => List.mem_cons_of_mem _ (hmem htrue)⟩
      · exact ⟨hne, hmem⟩

/-- **One step.** Every operation a call may issue keeps the invariant under the condition. -/
theorem delivering_step (hinv : Delivering c) (hissue : HandIssues (handOf c.log t) o)
    (hcond : DeliversOnce c t o) :
    Delivering (Pool.advance outboxMachine c t o k) := by
  cases o with
  | save entity => exact delivering_save hinv hissue hcond
  | findPending limit => exact delivering_findPending hinv hcond
  | updateStatus id status lastError => exact delivering_updateStatus hinv hissue hcond
  | incrementAttemptCount id => exact delivering_incrementAttemptCount hinv
  | fanOut event => exact delivering_fanOut hinv hissue hcond

end Step

def runEvent : DomainEventEnvelope :=
  { eventId := "event-1", eventType := "workflow.run.status_changed", aggregateId := "run-1",
    aggregateType := "workflow_run" }

/-- A publish of the event, and passes. -/
def outboxCalls : Nat → OutboxCall
  | 0 => .publish runEvent
  | _ => .drainPending 100

/-- An empty outbox whose first fan-outs fail. -/
def outboxFailing (failures : Nat) : Outbox where
  handlers n _ := if n < failures then some "boom" else none

/-- The configuration after a schedule. -/
def outboxRun (failures : Nat) (sched : List (Nat × Nat)) : OutboxSystem :=
  Pool.play outboxMachine sched (OutboxSystem.init (outboxFailing failures) outboxCalls)

end Nexus
