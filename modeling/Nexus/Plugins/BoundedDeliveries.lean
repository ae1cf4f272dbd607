import Nexus.Plugins.EventDeliveries

/-!
# Bounded and exclusive deliveries

A delivery that is worked on in line keeps the claimable status `pending` and is due, a delivery
that policy denied or whose last attempt failed without a dead letter keeps the claimable status
`failed` and its old due time. Every row gets at most `max_attempts` calls of the runtime, one at a
time and none after its last mark, in every run in which no pass claims a row that a call still has
in hand, that policy denied, or that has no attempts left (`ClaimsRetries`).
-/

set_option autoImplicit false

namespace Nexus

/-! ## What the log says of a row -/

/-- The log of the deliveries, the last step first. -/
abbrev DeliveryLog := List (Entry Nat DeliveryOp DeliveryOp.Ans)

/-- The metadata `markPolicyFailure` writes. -/
def isPolicyDenied (errorMetadata : Option (List (String × Json))) : Bool :=
  match errorMetadata with
  | none => false
  | some fields =>
      match OrderedMap.get? fields "status" with
      | some (.str status) => status = "policy_denied"
      | _ => false

/-- The row is delivered, dead-lettered, denied by policy, or has no attempts left. -/
def PluginEventDelivery.isSettled (row : PluginEventDelivery) : Bool :=
  row.status = .delivered || row.status = .deadLettered || isPolicyDenied row.errorMetadata ||
    row.maxAttempts ≤ row.attemptCount

/-- The mark of a step delivers the row, dead-letters it, denies it or uses up its attempts. -/
def Entry.settles (id : Nat) : Entry Nat DeliveryOp DeliveryOp.Ans → Bool
  | ⟨_, .markDelivered id' _, _⟩ => id' = id
  | ⟨_, .markDeadLettered input, _⟩ => input.id = id
  | ⟨_, .markFailed input, written⟩ =>
      input.id = id && (isPolicyDenied input.errorMetadata ||
        match (written : Option PluginEventDelivery) with
        | some row => decide (row.maxAttempts ≤ row.attemptCount)
        | none => false)
  | _ => false

def settledIn (id : Nat) (log : DeliveryLog) : Bool := log.any (Entry.settles id)

def Entry.callsRow (id : Nat) : Entry Nat DeliveryOp DeliveryOp.Ans → Bool
  | ⟨_, .callRuntime id' _, _⟩ => id' = id
  | _ => false

def Entry.endsCall (id : Nat) : Entry Nat DeliveryOp DeliveryOp.Ans → Bool
  | ⟨_, .awaitRuntime id' _, _⟩ => id' = id
  | _ => false

/-- How often the runtime was called for the row. -/
def callsOf (id : Nat) (log : DeliveryLog) : Nat := log.countP (Entry.callsRow id)

/-- How many calls for the row are in progress. -/
def callsInProgress (id : Nat) (log : DeliveryLog) : Nat :=
  callsOf id log - log.countP (Entry.endsCall id)

/-- The runtime was called for the row after the row was settled. -/
def calledAfterSettled (id : Nat) : DeliveryLog → Bool
  | [] => false
  | e :: log => (e.callsRow id && settledIn id log) || calledAfterSettled id log

/-! ## Rows in hand -/

/-- How far a call is with a row it created or claimed and has not marked yet. -/
inductive HandPhase where
  | fresh
  | calling
  | called
  deriving DecidableEq, Repr

/-- The rows a call has in hand. -/
abbrev RowHand := Nat → Option HandPhase

def RowHand.next (g : RowHand) : (o : DeliveryOp) → o.Ans → RowHand
  | .createPending _, row => Function.update g row.id (some .fresh)
  | .claimDueDeliveries _ _, rows => fun id =>
      if id ∈ (rows.map fun row => row.id) then some .fresh else g id
  | .callRuntime id _, _ => Function.update g id (some .calling)
  | .awaitRuntime id _, _ => Function.update g id (some .called)
  | .markDelivered id _, _ => Function.update g id none
  | .markFailed input, _ => Function.update g input.id none
  | .markDeadLettered input, _ => Function.update g input.id none
  | _, _ => g

/-- The rows thread `t` has in hand after the steps of a log. -/
def rowHand (log : DeliveryLog) (t : Nat) : RowHand :=
  Pool.track RowHand.next (fun _ _ => none) log t

/-- The condition on a step: a pass claims no row that a call has in hand, that policy denied, or
that has no attempts left. -/
def ClaimsRetries (c : DeliverySystem) (_ : Nat) : DeliveryOp → Prop
  | .claimDueDeliveries limit now => ∀ row ∈ c.world.dueDeliveries limit now,
      (∀ e ∈ c.log, rowHand c.log e.tid row.id = none) ∧
        isPolicyDenied row.errorMetadata = false ∧ row.attemptCount < row.maxAttempts
  | _ => True

instance (c : DeliverySystem) (t : Nat) (o : DeliveryOp) : Decidable (ClaimsRetries c t o) := by
  cases o with
  | claimDueDeliveries limit moment =>
      have (row : PluginEventDelivery) :
          Decidable (∀ e ∈ c.log, rowHand c.log e.tid row.id = none) := List.decidableBAll _ _
      exact List.decidableBAll _ _
  | _ => exact isTrue trivial

/-! ## The contract of the calls -/

/-- A row is called when it is fresh in hand and marked after its call, or denied before it. -/
def RowIssues (g : RowHand) : DeliveryOp → Prop
  | .createPending input => 0 < input.maxAttempts
  | .callRuntime id _ => g id = some .fresh
  | .awaitRuntime id _ => g id = some .calling
  | .markDelivered id _ => g id = some .called
  | .markDeadLettered input => g input.id = some .called
  | .markFailed input =>
      (input.incrementAttemptCount = true ∧ isPolicyDenied input.errorMetadata = false ∧
        g input.id = some .called) ∨
      (input.incrementAttemptCount = false ∧ isPolicyDenied input.errorMetadata = true ∧
        g input.id = some .fresh)
  | _ => True

def RowAnswers (_ : RowHand) : (o : DeliveryOp) → o.Ans → Prop
  | .claimDueDeliveries _ _, rows => (rows.map fun row => row.id).Nodup
  | _, _ => True

/-- The program keeps to the contract from a hand; `Q` is what it returns with. -/
abbrev KeepsRows {α : Type} (Q : α → RowHand → Prop) (p : DeliveryProg α) (g : RowHand) : Prop :=
  Prog.Meets (Pool.following RowHand.next RowIssues RowAnswers) Q (fun _ _ => True) p g

variable {delivery : Nat}

section Contract

variable {g : RowHand}

/-- A call that is thrown leaves the row in hand. -/
theorem deliverEvent_keepsRows (request : PluginRuntimeEventDeliveryRequest)
    (hfresh : g delivery = some .fresh) :
    KeepsRows (fun _ g' => g' = Function.update g delivery (some .called))
      (deliverEvent delivery request) g := by
  refine ⟨hfresh, ?_⟩
  rintro - g₁ ⟨rfl, -⟩
  refine ⟨Function.update_self .., ?_⟩
  rintro result g₂ ⟨rfl, -⟩
  cases result with
  | ok result => simp [RowHand.next, Function.update_idem]
  | error message => trivial

/-- A failure of the runtime is marked on every branch. -/
theorem recordFailure_keepsRows {delivery : PluginEventDelivery} (error : PluginRuntimeError)
    (errorMessage : String) (retryMetadata : Int → List (String × Json))
    (hretry : ∀ time, isPolicyDenied (some (retryMetadata time)) = false)
    (hcalled : g delivery.id = some .called) :
    KeepsRows (fun _ g' => g' = Function.update g delivery.id none)
      (recordFailure delivery error errorMessage retryMetadata) g := by
  unfold recordFailure
  simp only
  split
  · refine ⟨trivial, ?_⟩
    rintro now g₁ ⟨rfl, -⟩
    refine ⟨.inl ⟨rfl, hretry _, hcalled⟩, ?_⟩
    rintro written g₂ ⟨rfl, -⟩
    rfl
  · split
    · refine ⟨hcalled, ?_⟩
      rintro written g₁ ⟨rfl, -⟩
      rfl
    · refine ⟨.inl ⟨rfl, rfl, hcalled⟩, ?_⟩
      rintro written g₁ ⟨rfl, -⟩
      rfl

theorem markPolicyFailure_keepsRows {deliveryId : Nat} (envelope : PluginEventEnvelope)
    (subscription : DeliverableSubscription) (code message : String)
    (hfresh : g deliveryId = some .fresh) :
    KeepsRows (fun _ _ => True)
      (PluginEventDeliveryEngine.markPolicyFailure deliveryId envelope subscription code message)
      g := by
  refine ⟨.inr ⟨rfl, rfl, hfresh⟩, ?_⟩
  rintro written g₁ -
  trivial

theorem deliverInLine_keepsRows {createdDelivery : PluginEventDelivery}
    (envelope : PluginEventEnvelope) (subscription : DeliverableSubscription)
    (hfresh : g createdDelivery.id = some .fresh) :
    KeepsRows (fun _ _ => True)
      (PluginEventDeliveryEngine.deliverInLine createdDelivery envelope subscription) g := by
  refine (deliverEvent_keepsRows _ hfresh).bind ?_
  rintro result g₁ rfl
  have hcalled : Function.update g createdDelivery.id (some HandPhase.called) createdDelivery.id =
      some .called := Function.update_self ..
  cases result with
  | error error =>
      have hrecord := recordFailure_keepsRows error "Plugin event delivery failed."
        (fun _ => [("retryable", .bool true)]) (fun _ => rfl) hcalled
      exact hrecord.bind fun _ _ _ => trivial
  | ok _ =>
      refine ⟨trivial, ?_⟩
      rintro now g₂ ⟨rfl, -⟩
      refine ⟨hcalled, ?_⟩
      rintro written g₃ -
      trivial

theorem deliverToSubscription_keepsRows (envelope : PluginEventEnvelope)
    (subscription : DeliverableSubscription) (g : RowHand) :
    KeepsRows (fun _ _ => True)
      (PluginEventDeliveryEngine.deliverToSubscription envelope subscription) g := by
  refine ⟨trivial, ?_⟩
  rintro now g₁ ⟨rfl, -⟩
  refine ⟨subscription.retry.maxAttempts_bounds.1, ?_⟩
  rintro createdDelivery g₂ ⟨hnext, -⟩
  have hfresh : g₂ createdDelivery.id = some .fresh := by
    rw [hnext]
    exact Function.update_self ..
  refine ⟨trivial, ?_⟩
  rintro entry g₃ ⟨rfl, -⟩
  cases entry with
  | none => exact markPolicyFailure_keepsRows envelope subscription _ _ hfresh
  | some registryEntry =>
      refine ⟨trivial, ?_⟩
      rintro active g₄ ⟨rfl, -⟩
      simp only [Prog.pure_bind]
      split
      · exact markPolicyFailure_keepsRows envelope subscription _ _ hfresh
      · exact deliverInLine_keepsRows envelope subscription hfresh

theorem deliverToSubscriptions_keepsRows (envelope : PluginEventEnvelope)
    (subscriptions : List DeliverableSubscription)
    (deliveries : List PluginEventCandidateDeliveryResult) (g : RowHand) :
    KeepsRows (fun _ _ => True)
      (PluginEventDeliveryEngine.deliverToSubscriptions envelope subscriptions deliveries) g := by
  induction subscriptions generalizing deliveries g with
  | nil => trivial
  | cons subscription subscriptions ih =>
      refine (deliverToSubscription_keepsRows envelope subscription g).bind ?_
      rintro deliveryResult g₁ -
      apply Prog.meets_ite
      · exact fun _ => trivial
      · exact fun _ => ih _ _

section Worker

variable (toISOString : Int → String)

theorem processOneDelivery_keepsRows {delivery : PluginEventDelivery}
    (hfresh : g delivery.id = some .fresh) :
    KeepsRows (fun _ g' => g' = Function.update g delivery.id none)
      (PluginEventDeliveryWorker.processOneDelivery toISOString delivery) g := by
  refine (deliverEvent_keepsRows _ hfresh).bind ?_
  rintro result g₁ rfl
  have hcalled : Function.update g delivery.id (some HandPhase.called) delivery.id =
      some .called := Function.update_self ..
  cases result with
  | error error =>
      have hrecord := recordFailure_keepsRows error
        (PluginEventDeliveryWorker.toSafeMessage error.message)
        (fun nextAttemptAt =>
          [("retryable", .bool true), ("nextAttemptAt", .str (toISOString nextAttemptAt))])
        (fun _ => rfl) hcalled
      rw [Function.update_idem] at hrecord
      exact hrecord
  | ok _ =>
      refine ⟨trivial, ?_⟩
      rintro now g₂ ⟨rfl, -⟩
      refine ⟨hcalled, ?_⟩
      rintro written g₃ ⟨rfl, -⟩
      exact Function.update_idem ..

/-- The rows of a pass stay in hand until their turn. -/
theorem processDeliveries_keepsRows (deliveries : List PluginEventDelivery) (g : RowHand)
    (hids : (deliveries.map fun row => row.id).Nodup)
    (hfresh : ∀ row ∈ deliveries, g row.id = some .fresh) :
    KeepsRows (fun _ _ => True)
      (PluginEventDeliveryWorker.processDeliveries toISOString deliveries) g := by
  induction deliveries generalizing g with
  | nil => trivial
  | cons delivery deliveries ih =>
      rw [List.map_cons, List.nodup_cons] at hids
      refine (processOneDelivery_keepsRows toISOString (hfresh _ List.mem_cons_self)).bind ?_
      rintro - g₁ rfl
      refine ih _ hids.2 fun row hrow => ?_
      have hne : row.id ≠ delivery.id := by
        intro heq
        exact hids.1 (heq ▸ List.mem_map.2 ⟨row, hrow, rfl⟩)
      rw [Function.update_of_ne hne]
      exact hfresh row (List.mem_cons_of_mem _ hrow)

theorem deliveryProgram_keepsRows (call : DeliveryCall) (g : RowHand) :
    KeepsRows (fun _ _ => True) (call.program toISOString) g := by
  cases call with
  | deliver envelope =>
      have hdeliver : KeepsRows (fun _ _ => True) (PluginEventDeliveryEngine.deliver envelope)
          g := by
        refine ⟨trivial, ?_⟩
        rintro subscriptions g₁ ⟨rfl, -⟩
        exact deliverToSubscriptions_keepsRows envelope subscriptions [] _
      exact hdeliver.bind fun _ _ _ => trivial
  | processDueDeliveries limit =>
      have hpass : KeepsRows (fun _ _ => True)
          (PluginEventDeliveryWorker.processDueDeliveries toISOString limit) g := by
        refine ⟨trivial, ?_⟩
        rintro now g₁ ⟨rfl, -⟩
        refine ⟨trivial, ?_⟩
        rintro rows g₂ ⟨rfl, hids⟩
        refine (processDeliveries_keepsRows toISOString rows _ hids fun row hrow => ?_).bind
          fun _ _ _ => trivial
        exact if_pos (List.mem_map.2 ⟨row, hrow, rfl⟩)
      exact hpass.bind fun _ _ _ => trivial

end Worker

end Contract

/-! ## The invariant -/

/-- The calls of a phase that `attempt_count` does not count yet. -/
def HandPhase.calls : HandPhase → Nat
  | .fresh => 0
  | .calling => 1
  | .called => 1

/-- The calls of a phase that are in progress. -/
def HandPhase.inProgress : HandPhase → Nat
  | .calling => 1
  | _ => 0

/-- A row that some call works on. -/
structure InWork (row : PluginEventDelivery) (id : Nat) (phase : HandPhase) (log : DeliveryLog) :
    Prop where
  status : row.status = .pending ∨ row.status = .delivering
  unsettled : settledIn id log = false
  calls : callsOf id log ≤ row.attemptCount + phase.calls
  attempts : row.attemptCount < row.maxAttempts

/-- A row that no call works on. -/
structure AtRest (row : PluginEventDelivery) (id : Nat) (log : DeliveryLog) : Prop where
  status : row.status ≠ .pending ∧ row.status ≠ .delivering
  calls : callsOf id log ≤ row.maxAttempts
  retries : row.status = .failed → callsOf id log ≤ row.attemptCount
  settled : settledIn id log = true → row.isSettled = true

/-- What is known of a row and of the calls that have it in hand. -/
structure RowBounded (c : DeliverySystem) (id : Nat) : Prop where
  unique : ∀ t u, rowHand c.log t id ≠ none → rowHand c.log u id ≠ none → t = u
  held : ∀ t phase, rowHand c.log t id = some phase →
    (∃ row, c.world.find id = some row ∧ InWork row id phase c.log) ∧
      callsOf id c.log = c.log.countP (Entry.endsCall id) + phase.inProgress
  free : (∀ t, rowHand c.log t id = none) →
    callsOf id c.log = c.log.countP (Entry.endsCall id) ∧
      ∀ row, c.world.find id = some row → AtRest row id c.log
  unknown : c.world.find id = none → callsOf id c.log = 0 ∧ settledIn id c.log = false
  order : calledAfterSettled id c.log = false

section Step

variable {c c' : DeliverySystem} {t : Nat} {id : Nat}

theorem rowBounded_init (toISOString : Int → String) (w : DeliveryStore)
    (calls : Nat → DeliveryCall) (id : Nat) :
    RowBounded (DeliverySystem.init toISOString w calls) id where
  unique _ _ h := absurd rfl h
  held _ _ h := nomatch h
  free _ := ⟨rfl, fun _ hrow => nomatch hrow⟩
  unknown _ := ⟨rfl, rfl⟩
  order := rfl

variable {row : PluginEventDelivery}

/-- A row that one call has in hand after a step. -/
theorem RowBounded.of_holder (t : Nat) (phase : HandPhase)
    (hhand : ∀ u, rowHand c'.log u id = if u = t then some phase else none)
    (hfind : c'.world.find id = some row) (hwork : InWork row id phase c'.log)
    (hcalls : callsOf id c'.log = c'.log.countP (Entry.endsCall id) + phase.inProgress)
    (horder : calledAfterSettled id c'.log = false) : RowBounded c' id where
  unique u v hu hv := by
    have huniq : ∀ u, rowHand c'.log u id ≠ none → u = t := by
      intro u hu
      by_contra hne
      exact hu ((hhand u).trans (if_neg hne))
    exact (huniq u hu).trans (huniq v hv).symm
  held u phase' hu := by
    rw [hhand] at hu
    split at hu
    · cases hu
      exact ⟨⟨row, hfind, hwork⟩, hcalls⟩
    · cases hu
  free hnone := by
    have ht := hnone t
    rw [hhand, if_pos rfl] at ht
    cases ht
  unknown hnone := by
    rw [hfind] at hnone
    cases hnone
  order := horder

/-- A row that no call has in hand after a step. -/
theorem RowBounded.of_free (hhand : ∀ u, rowHand c'.log u id = none)
    (hfind : c'.world.find id = some row) (hrest : AtRest row id c'.log)
    (hcalls : callsOf id c'.log = c'.log.countP (Entry.endsCall id))
    (horder : calledAfterSettled id c'.log = false) : RowBounded c' id where
  unique u _ hu := absurd (hhand u) hu
  held u _ hu := by
    rw [hhand] at hu
    cases hu
  free _ := by
    refine ⟨hcalls, fun row' hrow' => ?_⟩
    rw [hfind] at hrow'
    cases hrow'
    exact hrest
  unknown hnone := by
    rw [hfind] at hnone
    cases hnone
  order := horder

/-- A step that is about another row. -/
theorem RowBounded.frame (h : RowBounded c id) {e : Entry Nat DeliveryOp DeliveryOp.Ans}
    (hlog : c'.log = e :: c.log) (hhand : ∀ u, rowHand c'.log u id = rowHand c.log u id)
    (hfind : c'.world.find id = c.world.find id) (hcall : e.callsRow id = false)
    (hend : e.endsCall id = false) (hsettle : e.settles id = false) : RowBounded c' id := by
  have hcalls : callsOf id c'.log = callsOf id c.log := by
    rw [hlog, callsOf, callsOf, List.countP_cons, hcall]
    rfl
  have hends : c'.log.countP (Entry.endsCall id) = c.log.countP (Entry.endsCall id) := by
    rw [hlog, List.countP_cons, hend]
    rfl
  have hsettled : settledIn id c'.log = settledIn id c.log := by
    rw [hlog, settledIn, settledIn, List.any_cons, hsettle, Bool.false_or]
  have horder : calledAfterSettled id c'.log = calledAfterSettled id c.log := by
    rw [hlog, calledAfterSettled, hcall, Bool.false_and, Bool.false_or]
  refine ⟨fun u v hu hv => ?_, fun u phase hu => ?_, fun hnone => ?_, fun hnone => ?_, ?_⟩
  · rw [hhand] at hu hv
    exact h.unique u v hu hv
  · rw [hhand] at hu
    rw [hcalls, hends, hfind]
    obtain ⟨⟨row, hrow, hwork⟩, hcount⟩ := h.held u phase hu
    refine ⟨⟨row, hrow, hwork.status, ?_, ?_, hwork.attempts⟩, hcount⟩
    · rw [hsettled]
      exact hwork.unsettled
    · rw [hcalls]
      exact hwork.calls
  · obtain ⟨hcount, hrest⟩ := h.free fun u => (hhand u).symm.trans (hnone u)
    rw [hcalls, hends, hfind]
    refine ⟨hcount, fun row hrow => ?_⟩
    have hold := hrest row hrow
    refine ⟨hold.status, ?_, fun hfailed => ?_, fun hset => ?_⟩
    · rw [hcalls]
      exact hold.calls
    · rw [hcalls]
      exact hold.retries hfailed
    · rw [hsettled] at hset
      exact hold.settled hset
  · rw [hfind] at hnone
    rw [hcalls, hsettled]
    exact h.unknown hnone
  · rw [horder]
    exact h.order

/-- No other call has the row in hand. -/
theorem RowBounded.others (h : RowBounded c id) (ht : rowHand c.log t id ≠ none) {u : Nat}
    (hu : u ≠ t) : rowHand c.log u id = none := by
  by_contra hne
  exact hu (h.unique u t hne ht)

section Advance

variable {o : DeliveryOp} {k : o.Ans → DeliveryProg Unit}

theorem rowHand_advance_self :
    rowHand (Pool.advance deliveryMachine c t o k).log t =
      (rowHand c.log t).next o (o.exec c.world).2 := Pool.track_advance_self

theorem rowHand_advance_of_ne {u : Nat} (hu : u ≠ t) :
    rowHand (Pool.advance deliveryMachine c t o k).log u = rowHand c.log u :=
  Pool.track_advance_of_ne hu

/-- The hands after a step of the call that had the row in hand. -/
theorem RowBounded.hand_advance (h : RowBounded c id) (ht : rowHand c.log t id ≠ none)
    {phase : Option HandPhase}
    (hnext : (rowHand c.log t).next o (o.exec c.world).2 id = phase) (u : Nat) :
    rowHand (Pool.advance deliveryMachine c t o k).log u id = if u = t then phase else none := by
  by_cases hu : u = t
  · subst hu
    rw [if_pos rfl, rowHand_advance_self, hnext]
  · rw [if_neg hu, rowHand_advance_of_ne hu]
    exact h.others ht hu

/-- The hands on a row that an operation is not about. -/
theorem hand_advance_frame
    (hnext : (rowHand c.log t).next o (o.exec c.world).2 id = rowHand c.log t id) (u : Nat) :
    rowHand (Pool.advance deliveryMachine c t o k).log u id = rowHand c.log u id := by
  by_cases hu : u = t
  · subst hu
    rw [rowHand_advance_self, hnext]
  · rw [rowHand_advance_of_ne hu]

end Advance

/-! ## What each operation does to a row -/

/-- A call without a step has no row in hand. -/
theorem rowHand_eq_none {log : DeliveryLog}
    (h : ∀ e ∈ log, rowHand log e.tid id = none) (u : Nat) : rowHand log u id = none := by
  by_cases hu : ∃ e ∈ log, e.tid = u
  · obtain ⟨e, he, rfl⟩ := hu
    exact h e he
  · have hno : ∀ e ∈ log, e.tid ≠ u := fun e he htid => hu ⟨e, he, htid⟩
    clear h hu
    induction log with
    | nil => rfl
    | cons e log ih =>
        have hsame : rowHand (e :: log) u = rowHand log u := if_neg (hno e List.mem_cons_self)
        rw [hsame]
        exact ih fun e' he' => hno e' (List.mem_cons_of_mem _ he')

theorem rowBounded_createPending (h : ∀ id, RowBounded c id)
    {input : CreatePendingPluginEventDeliveryInput}
    {k : (DeliveryOp.createPending input).Ans → DeliveryProg Unit}
    (hissue : RowIssues (rowHand c.log t) (.createPending input)) (id : Nat) :
    RowBounded (Pool.advance deliveryMachine c t (.createPending input) k) id := by
  have hfind : (Pool.advance deliveryMachine c t (.createPending input) k).world.find id =
      if id = c.world.deliveries.length then some (input.entity id) else c.world.find id :=
    DeliveryStore.find_createPending
  by_cases hid : id = c.world.deliveries.length
  · -- the row is new: it was not called, and no call has it in hand
    subst hid
    rw [if_pos rfl] at hfind
    have hnone : c.world.find c.world.deliveries.length = none := DeliveryStore.find_length
    obtain ⟨hcalls, hsettled⟩ := (h _).unknown hnone
    have hfree : ∀ u, rowHand c.log u c.world.deliveries.length = none := by
      intro u
      cases hu : rowHand c.log u c.world.deliveries.length with
      | none => rfl
      | some phase =>
          obtain ⟨⟨row, hrow, -⟩, -⟩ := (h _).held u phase hu
          rw [hnone] at hrow
          cases hrow
    refine .of_holder t .fresh (fun u => ?_) hfind ⟨.inl rfl, hsettled, ?_, hissue⟩ ?_
      (h _).order
    · by_cases hu : u = t
      · subst hu
        rw [if_pos rfl, rowHand_advance_self]
        exact Function.update_self ..
      · rw [if_neg hu, rowHand_advance_of_ne hu]
        exact hfree u
    · exact Nat.le_of_eq hcalls
    · exact ((h _).free hfree).1
  · rw [if_neg hid] at hfind
    refine (h id).frame rfl (hand_advance_frame ?_) hfind rfl rfl rfl
    exact Function.update_of_ne hid ..

theorem rowBounded_claimDueDeliveries (h : ∀ id, RowBounded c id) {limit : Nat} {now : Int}
    {k : (DeliveryOp.claimDueDeliveries limit now).Ans → DeliveryProg Unit}
    (hcond : ClaimsRetries c t (.claimDueDeliveries limit now)) (id : Nat) :
    RowBounded (Pool.advance deliveryMachine c t (.claimDueDeliveries limit now) k) id := by
  have hfind : (Pool.advance deliveryMachine c t (.claimDueDeliveries limit now) k).world.find id =
      if id ∈ (c.world.dueDeliveries limit now).map fun due => due.id then
        (c.world.find id).map fun row => { row with status := .delivering }
      else c.world.find id := DeliveryStore.find_claimDueDeliveries
  have hids : ((c.world.dueDeliveries limit now).map fun row =>
      { row with status := .delivering }).map (fun row => row.id) =
      (c.world.dueDeliveries limit now).map fun due => due.id := by
    rw [List.map_map]
    rfl
  have hnext : (rowHand c.log t).next (.claimDueDeliveries limit now)
      ((DeliveryOp.claimDueDeliveries limit now).exec c.world).2 id =
      if id ∈ (c.world.dueDeliveries limit now).map fun due => due.id then some .fresh
      else rowHand c.log t id := by
    rw [← hids]
    rfl
  by_cases hid : id ∈ (c.world.dueDeliveries limit now).map fun due => due.id
  · rw [if_pos hid] at hfind hnext
    obtain ⟨row, hrow, rfl⟩ := List.mem_map.1 hid
    obtain ⟨hhands, hdenied, hattempts⟩ := hcond row hrow
    obtain ⟨hold, hstatus⟩ := DeliveryStore.mem_dueDeliveries hrow
    rw [hold] at hfind
    have hfree := rowHand_eq_none hhands
    obtain ⟨hcount, hrest⟩ := (h row.id).free hfree
    have hresting := hrest row hold
    -- a claimable row at rest has failed
    have hfailed : row.status = .failed := by
      rcases List.mem_cons.1 hstatus with hpending | hstatus
      · exact absurd hpending hresting.status.1
      · exact List.mem_singleton.1 hstatus
    have hsettled : settledIn row.id c.log = false := by
      by_contra hset
      have hsettled := hresting.settled (by simpa using hset)
      simp only [PluginEventDelivery.isSettled, hfailed, hdenied, Bool.or_false, Bool.or_eq_true,
        decide_eq_true_eq] at hsettled
      rcases hsettled with (hstatus | hstatus) | hexhausted
      · cases hstatus
      · cases hstatus
      · exact Nat.not_le_of_lt hattempts hexhausted
    refine .of_holder t .fresh (fun u => ?_) hfind
      ⟨.inr rfl, hsettled, hresting.retries hfailed, hattempts⟩ hcount (h row.id).order
    by_cases hu : u = t
    · subst hu
      rw [if_pos rfl, rowHand_advance_self, hnext]
    · rw [if_neg hu, rowHand_advance_of_ne hu]
      exact hfree u
  · rw [if_neg hid] at hfind hnext
    exact (h id).frame rfl (hand_advance_frame hnext) hfind rfl rfl rfl

theorem rowBounded_callRuntime (h : ∀ id, RowBounded c id)
    {request : PluginRuntimeEventDeliveryRequest}
    {k : (DeliveryOp.callRuntime delivery request).Ans → DeliveryProg Unit}
    (hissue : rowHand c.log t delivery = some .fresh) (id : Nat) :
    RowBounded (Pool.advance deliveryMachine c t (.callRuntime delivery request) k) id := by
  by_cases hid : id = delivery
  · subst hid
    obtain ⟨⟨row, hrow, hwork⟩, hcount⟩ := (h id).held t .fresh hissue
    have hcalls : callsOf id (Pool.advance deliveryMachine c t
        (.callRuntime id request) k).log = callsOf id c.log + 1 := by
      simp [Pool.advance, callsOf, Entry.callsRow]
    refine .of_holder t .calling
      ((h id).hand_advance (by simp [hissue]) (Function.update_self ..)) hrow
      ⟨hwork.status, hwork.unsettled, ?_, hwork.attempts⟩ ?_ ?_
    · rw [hcalls]
      exact Nat.add_le_add_right hwork.calls 1
    · rw [hcalls, hcount]
      rfl
    · -- the row was not settled before the call
      show ((_ && settledIn id c.log) || calledAfterSettled id c.log) = false
      rw [hwork.unsettled, Bool.and_false, Bool.false_or]
      exact (h id).order
  · refine (h id).frame rfl (hand_advance_frame (Function.update_of_ne hid ..)) rfl ?_ rfl rfl
    exact decide_eq_false (Ne.symm hid)

theorem rowBounded_awaitRuntime (h : ∀ id, RowBounded c id)
    {request : PluginRuntimeEventDeliveryRequest}
    {k : (DeliveryOp.awaitRuntime delivery request).Ans → DeliveryProg Unit}
    (hissue : rowHand c.log t delivery = some .calling) (id : Nat) :
    RowBounded (Pool.advance deliveryMachine c t (.awaitRuntime delivery request) k) id := by
  by_cases hid : id = delivery
  · subst hid
    obtain ⟨⟨row, hrow, hwork⟩, hcount⟩ := (h id).held t .calling hissue
    have hends : (Pool.advance deliveryMachine c t (.awaitRuntime id request) k).log.countP
        (Entry.endsCall id) = c.log.countP (Entry.endsCall id) + 1 := by
      simp [Pool.advance, Entry.endsCall]
    refine .of_holder t .called
      ((h id).hand_advance (by simp [hissue]) (Function.update_self ..)) hrow
      ⟨hwork.status, hwork.unsettled, hwork.calls, hwork.attempts⟩ ?_ (h id).order
    rw [hends]
    exact hcount
  · refine (h id).frame rfl (hand_advance_frame (Function.update_of_ne hid ..)) rfl rfl ?_ rfl
    exact decide_eq_false (Ne.symm hid)

variable {phase : HandPhase}

/-- A mark of a row in hand: the row is at rest after it, the other rows are as they were. -/
theorem rowBounded_mark (h : ∀ id, RowBounded c id) (o : DeliveryOp)
    (k : o.Ans → DeliveryProg Unit) (marked : Nat) (f : PluginEventDelivery → PluginEventDelivery)
    (hhand : rowHand c.log t marked = some phase) (hphase : phase.inProgress = 0)
    (hfind : ∀ id, (Pool.advance deliveryMachine c t o k).world.find id = if id = marked then
      (c.world.find id).map f else c.world.find id)
    (hnext : (rowHand c.log t).next o (o.exec c.world).2 = Function.update (rowHand c.log t)
      marked none) (hcall : ∀ id, Entry.callsRow id ⟨t, o, (o.exec c.world).2⟩ = false)
    (hend : ∀ id, Entry.endsCall id ⟨t, o, (o.exec c.world).2⟩ = false)
    (hsettle : ∀ id, id ≠ marked → Entry.settles id ⟨t, o, (o.exec c.world).2⟩ = false)
    (hrest : ∀ row, c.world.find marked = some row → InWork row marked phase c.log → AtRest (f
      row) marked (Pool.advance deliveryMachine c t o k).log) (id : Nat) :
    RowBounded (Pool.advance deliveryMachine c t o k) id := by
  by_cases hid : id = marked
  · subst hid
    obtain ⟨⟨row, hrow, hwork⟩, hcount⟩ := (h id).held t phase hhand
    have hfree : ∀ u, rowHand (Pool.advance deliveryMachine c t o k).log u id = none := by
      intro u
      have hself : (rowHand c.log t).next o (o.exec c.world).2 id = none := by
        rw [hnext]
        exact Function.update_self ..
      rw [(h id).hand_advance (by simp [hhand]) hself u]
      exact ite_self _
    have hrow' : (Pool.advance deliveryMachine c t o k).world.find id = some (f row) := by
      rw [hfind, if_pos rfl, hrow]
      rfl
    refine .of_free hfree hrow' (hrest row hrow hwork) ?_ ?_
    · show List.countP _ (_ :: c.log) = List.countP _ (_ :: c.log)
      rw [List.countP_cons, List.countP_cons]
      erw [hcall, hend]
      rw [hphase] at hcount
      exact hcount
    · show ((Entry.callsRow id ⟨t, o, (o.exec c.world).2⟩ && settledIn id c.log) ||
        calledAfterSettled id c.log) = false
      rw [hcall, Bool.false_and, Bool.false_or]
      exact (h id).order
  · refine (h id).frame rfl (hand_advance_frame ?_) ?_ (hcall id) (hend id) (hsettle id hid)
    · rw [hnext]
      exact Function.update_of_ne hid ..
    · rw [hfind, if_neg hid]

/-- A row in work has had at most as many calls as it has attempts. -/
theorem InWork.calls_le {log : DeliveryLog} (h : InWork row id phase log) :
    callsOf id log ≤ row.maxAttempts := by
  have hcalls := h.calls
  have hattempts := h.attempts
  have hphase : phase.calls ≤ 1 := by cases phase <;> decide
  omega

theorem rowBounded_markDelivered (h : ∀ id, RowBounded c id) {marked : Nat} {deliveredAt : Int}
    {k : (DeliveryOp.markDelivered marked deliveredAt).Ans → DeliveryProg Unit}
    (hissue : rowHand c.log t marked = some .called) (id : Nat) :
    RowBounded (Pool.advance deliveryMachine c t (.markDelivered marked deliveredAt) k) id := by
  refine rowBounded_mark h _ k marked (deliveredRow deliveredAt) hissue rfl
    (fun _ => DeliveryStore.find_markDelivered ..) rfl (fun _ => rfl) (fun _ => rfl)
    (fun id' hid' => decide_eq_false (Ne.symm hid')) (fun row _ hwork => ?_) id
  exact ⟨⟨nofun, nofun⟩, hwork.calls_le, nofun, fun _ => rfl⟩

theorem rowBounded_markDeadLettered (h : ∀ id, RowBounded c id)
    {input : MarkDeadLetteredPluginEventDeliveryInput}
    {k : (DeliveryOp.markDeadLettered input).Ans → DeliveryProg Unit}
    (hissue : rowHand c.log t input.id = some .called) (id : Nat) :
    RowBounded (Pool.advance deliveryMachine c t (.markDeadLettered input) k) id := by
  refine rowBounded_mark h _ k input.id (deadLetteredRow input (c.world.clock c.world.steps))
    hissue rfl (fun _ => DeliveryStore.find_markDeadLettered ..) rfl (fun _ => rfl) (fun _ => rfl)
    (fun id' hid' => decide_eq_false (Ne.symm hid')) (fun row _ hwork => ?_) id
  exact ⟨⟨nofun, nofun⟩, hwork.calls_le, nofun, fun _ => rfl⟩

theorem rowBounded_markFailed (h : ∀ id, RowBounded c id)
    {input : MarkFailedPluginEventDeliveryInput}
    {k : (DeliveryOp.markFailed input).Ans → DeliveryProg Unit}
    (hissue : RowIssues (rowHand c.log t) (.markFailed input)) (id : Nat) :
    RowBounded (Pool.advance deliveryMachine c t (.markFailed input) k) id := by
  have hother : ∀ id', id' ≠ input.id →
      Entry.settles id' ⟨t, .markFailed input, ((DeliveryOp.markFailed input).exec c.world).2⟩ =
        false := by
    intro id' hid'
    simp [Entry.settles, Ne.symm hid']
  have hfind : ∀ id', (Pool.advance deliveryMachine c t (.markFailed input) k).world.find id' =
      if id' = input.id then (c.world.find id').map (failedRow input) else c.world.find id' :=
    fun _ => DeliveryStore.find_markFailed ..
  rcases hissue with ⟨hincrement, hdenied, hhand⟩ | ⟨hincrement, hdenied, hhand⟩
  · -- a failure of the runtime, counted as an attempt
    refine rowBounded_mark h _ k input.id (failedRow input) hhand rfl hfind rfl (fun _ => rfl)
      (fun _ => rfl) hother (fun row hrow hwork => ?_) id
    have hwritten : ((DeliveryOp.markFailed input).exec c.world).2 = some (failedRow input row) := by
      refine (hfind input.id).trans ?_
      rw [if_pos rfl, hrow]
      rfl
    refine ⟨⟨nofun, nofun⟩, hwork.calls_le, fun _ => ?_, fun hsettled => ?_⟩
    · rw [failedRow, hincrement]
      exact hwork.calls
    · have hentry : Entry.settles input.id
          ⟨t, .markFailed input, ((DeliveryOp.markFailed input).exec c.world).2⟩ = true := by
        have hor : (Entry.settles input.id
            ⟨t, .markFailed input, ((DeliveryOp.markFailed input).exec c.world).2⟩ ||
            settledIn input.id c.log) = true := hsettled
        rwa [hwork.unsettled, Bool.or_false] at hor
      rw [hwritten] at hentry
      simp only [Entry.settles, hdenied, decide_true, Bool.true_and, Bool.false_or] at hentry
      rw [PluginEventDelivery.isSettled, hentry, Bool.or_true]
  · refine rowBounded_mark h _ k input.id (failedRow input) hhand rfl hfind rfl (fun _ => rfl)
      (fun _ => rfl) hother (fun row _ hwork => ?_) id
    refine ⟨⟨nofun, nofun⟩, hwork.calls_le, fun _ => ?_, fun _ => ?_⟩
    · rw [failedRow, hincrement]
      exact hwork.calls
    · simp [PluginEventDelivery.isSettled, failedRow, hdenied]

/-- **One step.** Every operation a call may issue keeps every row bounded under the condition. -/
theorem rowBounded_step {o : DeliveryOp} {k : o.Ans → DeliveryProg Unit}
    (h : ∀ id, RowBounded c id) (hissue : RowIssues (rowHand c.log t) o)
    (hcond : ClaimsRetries c t o) (id : Nat) :
    RowBounded (Pool.advance deliveryMachine c t o k) id := by
  cases o with
  | createPending input => exact rowBounded_createPending h hissue id
  | claimDueDeliveries limit now => exact rowBounded_claimDueDeliveries h hcond id
  | callRuntime delivery request => exact rowBounded_callRuntime h hissue id
  | awaitRuntime delivery request => exact rowBounded_awaitRuntime h hissue id
  | markDelivered marked deliveredAt => exact rowBounded_markDelivered h hissue id
  | markFailed input => exact rowBounded_markFailed h hissue id
  | markDeadLettered input => exact rowBounded_markDeadLettered h hissue id
  | newDate | findMatchingSubscriptions topic payload | findByPluginIdAndVersion pluginId version
  | listActiveSubscriptions =>
      exact (h id).frame rfl (hand_advance_frame rfl) rfl rfl rfl rfl

/-- A row in hand is not delivered. -/
theorem RowBounded.not_delivered (h : RowBounded c id) (hhand : rowHand c.log t id = some phase)
    (hrow : c.world.find id = some row) : row.status ≠ .delivered := by
  obtain ⟨⟨row', hrow', hwork⟩, -⟩ := h.held t phase hhand
  rw [hrow] at hrow'
  cases hrow'
  rcases hwork.status with hstatus | hstatus <;> rw [hstatus] <;> exact nofun

/-- The row is delivered. -/
def DeliveryStore.isDelivered (w : DeliveryStore) (id : Nat) : Prop :=
  (w.find id).map (fun row => row.status) = some .delivered

instance (w : DeliveryStore) (id : Nat) : Decidable (w.isDelivered id) :=
  inferInstanceAs (Decidable (_ = _))

theorem DeliveryStore.isDelivered_iff {w : DeliveryStore} :
    w.isDelivered id ↔ ∃ row, w.find id = some row ∧ row.status = .delivered :=
  Option.map_eq_some_iff

theorem delivered_step {o : DeliveryOp} {k : o.Ans → DeliveryProg Unit}
    (h : ∀ id, RowBounded c id) (hissue : RowIssues (rowHand c.log t) o)
    (hdelivered : c.world.isDelivered id) :
    (Pool.advance deliveryMachine c t o k).world.isDelivered id := by
  rw [DeliveryStore.isDelivered_iff] at hdelivered ⊢
  obtain ⟨row, hrow, hstatus⟩ := hdelivered
  -- a mark is made by a call that has the row in hand
  have hmark : ∀ {marked phase}, rowHand c.log t marked = some phase → id ≠ marked := by
    rintro marked phase hhand rfl
    exact (h id).not_delivered hhand hrow hstatus
  cases o with
  | createPending input =>
      have hne : id ≠ c.world.deliveries.length := by
        rintro rfl
        rw [DeliveryStore.find_length] at hrow
        cases hrow
      refine ⟨row, DeliveryStore.find_createPending.trans ?_, hstatus⟩
      exact (if_neg hne).trans hrow
  | claimDueDeliveries limit now =>
      have hnot : id ∉ (c.world.dueDeliveries limit now).map fun due => due.id := by
        intro hmem
        obtain ⟨due, hdue, rfl⟩ := List.mem_map.1 hmem
        obtain ⟨hfind, hclaimable⟩ := DeliveryStore.mem_dueDeliveries hdue
        rw [hrow] at hfind
        cases hfind
        rw [hstatus] at hclaimable
        revert hclaimable
        decide
      refine ⟨row, DeliveryStore.find_claimDueDeliveries.trans ?_, hstatus⟩
      exact (if_neg hnot).trans hrow
  | markDelivered marked deliveredAt =>
      refine ⟨row, (DeliveryStore.find_markDelivered ..).trans ?_, hstatus⟩
      exact (if_neg (hmark hissue)).trans hrow
  | markFailed input =>
      have hne : id ≠ input.id := by
        rcases hissue with ⟨-, -, hhand⟩ | ⟨-, -, hhand⟩
        · exact hmark hhand
        · exact hmark hhand
      refine ⟨row, (DeliveryStore.find_markFailed ..).trans ?_, hstatus⟩
      exact (if_neg hne).trans hrow
  | markDeadLettered input =>
      refine ⟨row, (DeliveryStore.find_markDeadLettered ..).trans ?_, hstatus⟩
      exact (if_neg (hmark hissue)).trans hrow
  | newDate | findMatchingSubscriptions topic payload | findByPluginIdAndVersion pluginId version
  | listActiveSubscriptions | callRuntime delivery request | awaitRuntime delivery request =>
      exact ⟨row, hrow, hstatus⟩

end Step

/-! ## Runs -/

section Runs

variable {c c' : DeliverySystem}

/-- The calls keep to their contracts. -/
abbrev KeepRows (c : DeliverySystem) : Prop :=
  ∀ t, KeepsRows (fun _ _ => True) (c.threads t) (rowHand c.log t)

/-- Every row is bounded, and the row `id` is delivered if it was delivered in `c`. -/
def BoundedSince (c : DeliverySystem) (id : Nat) (c' : DeliverySystem) : Prop :=
  (∀ id, RowBounded c' id) ∧ (c.world.isDelivered id → c'.world.isDelivered id)

/-- **Runs under the condition.** Rows stay bounded and delivered rows stay delivered. -/
theorem rowBounded_reach (id : Nat) (hbounded : ∀ id, RowBounded c id) (hkeep : KeepRows c)
    (h : Pool.Reach deliveryMachine ClaimsRetries c c') :
    BoundedSince c id c' ∧ KeepRows c' := by
  have hinit : BoundedSince c id c := ⟨hbounded, fun hd => hd⟩
  refine Pool.Reach.follows hkeep hinit ?_ h
  rintro c₁ t o k ⟨hinv, hdelivered⟩ _ hissue _ hcond
  refine ⟨?_, rowBounded_step hinv hissue hcond, fun hd => ?_⟩
  · cases o with
    | claimDueDeliveries limit now =>
        show (List.map _ (List.map _ _)).Nodup
        rw [List.map_map]
        exact DeliveryStore.dueDeliveries_nodup
    | _ => trivial
  · exact delivered_step hinv hissue (hdelivered hd)

/-- A row was called at most as often as it has attempts, and at most one call is in progress. -/
theorem RowBounded.calls_le {id : Nat} (h : RowBounded c id) :
    (∀ row, c.world.find id = some row → callsOf id c.log ≤ row.maxAttempts) ∧
      callsInProgress id c.log ≤ 1 := by
  rw [callsInProgress]
  by_cases hheld : ∃ t phase, rowHand c.log t id = some phase
  · obtain ⟨t, phase, hhand⟩ := hheld
    obtain ⟨⟨row, hrow, hwork⟩, hcount⟩ := h.held t phase hhand
    refine ⟨fun row' hrow' => ?_, ?_⟩
    · rw [hrow] at hrow'
      cases hrow'
      exact hwork.calls_le
    · have hphase : phase.inProgress ≤ 1 := by cases phase <;> decide
      omega
  · have hfree : ∀ t, rowHand c.log t id = none := by
      intro t
      cases hhand : rowHand c.log t id with
      | none => rfl
      | some phase => exact absurd ⟨t, phase, hhand⟩ hheld
    obtain ⟨hcount, hrest⟩ := h.free hfree
    refine ⟨fun row hrow => (hrest row hrow).calls, ?_⟩
    omega

end Runs

def retriedSubscription (maxAttempts : Nat) (h : 1 ≤ maxAttempts ∧ maxAttempts ≤ 10) :
    DeliverableSubscription where
  pluginId := "acme.audit"
  version := "1.0.0"
  contributionId := "audit-subscription"
  topics := ["workflow.run.completed.v1"]
  retry := { maxAttempts := maxAttempts, maxAttempts_bounds := h }

def auditEntry : PluginRegistryEntry where
  pluginId := "acme.audit"
  version := "1.0.0"
  trustLevel := .thirdParty
  isolationMode := .container
  lifecycleState := .enabled
  enabled := true
  grantedPermissions := none
  scanResult := some "passed"
  compatibilityResult := some "passed"

/-- One subscription with so many attempts, whose plugin the registry has or not; the runtime fails
until a step. -/
def deliveryStore (maxAttempts : Nat) (h : 1 ≤ maxAttempts ∧ maxAttempts ≤ 10)
    (registry : List PluginRegistryEntry) (fails : Nat → Bool) : DeliveryStore where
  ids := DeliveryStore.ids_nil
  clock n := 60000 * n
  clock_mono := by
    intro m n hmn
    show (60000 * m : Int) ≤ 60000 * n
    omega
  subscriptions _ := [retriedSubscription maxAttempts h]
  registry _ := registry
  runtime n _ :=
    if fails n then
      .ok (.error { code := "runtime_timeout", message := "boom", retryable := true })
    else .ok (.ok ())

/-- A delivery of one event, and passes. -/
def deliveryCalls : Nat → DeliveryCall
  | 0 => .deliver
      { topic := "workflow.run.completed.v1", eventName := "workflow.run.completed.v1" }
  | _ => .processDueDeliveries 20

def deliveryRun (w : DeliveryStore) (sched : List (Nat × Nat)) : DeliverySystem :=
  Pool.play deliveryMachine sched (DeliverySystem.init (fun _ => "") w deliveryCalls)

end Nexus
