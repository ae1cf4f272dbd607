import Nexus.Tools.ApprovalPhases

/-!
# Approval resolutions are final

Four kinds of threads write the status of a request or report it to a wait. A decision reads the
row, and a timeout does not even do that, before it writes: two of them that overlap with different
outcomes both take effect. While they do not (`NoClash`), a stored resolution stays as it is and
every wait hears of the stored one. That an approval is reported only when a call has approved the
request holds of every run.
-/

set_option autoImplicit false

namespace Nexus

section Runs

variable {ι : Type} [DecidableEq ι]

/-! ## What holds while no writers clash -/

/-- The status is stored for the request, or is about to be. -/
def Heard (s : ApprovalState) (ph : ι → ApprovalPhase) (requestId : Nat) (status : ApprovalStatus) :
    Prop :=
  status ≠ .pending ∧ (s.statusOf requestId = some status ∨
    (s.statusOf requestId = some .pending ∧ ∃ u, ph u = .writing requestId status))

structure ApprovalConsistent (s : ApprovalState) (ph : ι → ApprovalPhase) : Prop where
  writing : ∀ t requestId status, ph t = .writing requestId status → status ≠ .pending ∧
    (s.statusOf requestId = some .pending ∨ s.statusOf requestId = some status)
  agree : ∀ t u requestId status, ph t = .writing requestId status →
    (ph u).WritesOnly requestId status
  reporting : ∀ t requestId status wait, ph t = .reporting requestId status wait →
    status ≠ .pending ∧ s.statusOf requestId = some status
  results : ∀ w ∈ s.waits, ∀ result, w.result = some result →
    Heard s ph w.requestId result.status

section Consistent

variable {s s' : ApprovalState} {ph : ι → ApprovalPhase} {t : ι} {g' : ApprovalPhase}

/-- A step of a thread that was not about to write. -/
theorem ApprovalConsistent.step (h : ApprovalConsistent s ph)
    (hstatus : ∀ id status, s.statusOf id = some status → s'.statusOf id = some status)
    (hnot : ∀ id status, ph t ≠ .writing id status)
    (hwriting : ∀ id status, g' = .writing id status → status ≠ .pending ∧
      (s.statusOf id = some .pending ∨ s.statusOf id = some status) ∧
      ∀ u, (ph u).WritesOnly id status)
    (hreporting : ∀ id status wait, g' = .reporting id status wait →
      status ≠ .pending ∧ s.statusOf id = some status)
    (hresults : ∀ w ∈ s'.waits, ∀ result, w.result = some result →
      Heard s (Function.update ph t g') w.requestId result.status ∨
        ∃ old ∈ s.waits, old.requestId = w.requestId ∧ old.result = some result) :
    ApprovalConsistent s' (Function.update ph t g') where
  writing := by
    intro u id status hu
    by_cases hut : u = t
    · subst hut
      rw [Function.update_self] at hu
      obtain ⟨hne, hstored, -⟩ := hwriting id status hu
      exact ⟨hne, hstored.imp (hstatus id _) (hstatus id _)⟩
    · rw [Function.update_of_ne hut] at hu
      obtain ⟨hne, hstored⟩ := h.writing u id status hu
      exact ⟨hne, hstored.imp (hstatus id _) (hstatus id _)⟩
  agree := by
    intro u v id status hu
    by_cases hut : u = t
    · subst hut
      rw [Function.update_self] at hu
      by_cases hvu : v = u
      · subst hvu
        rw [Function.update_self, hu]
        exact fun _ => rfl
      · rw [Function.update_of_ne hvu]
        exact (hwriting id status hu).2.2 v
    · rw [Function.update_of_ne hut] at hu
      by_cases hvt : v = t
      · subst hvt
        rw [Function.update_self]
        cases hg : g' with
        | writing id' status' =>
            -- the new writer agrees with the old ones
            rintro rfl
            have hagrees := (hwriting id' status' hg).2.2 u
            rw [hu] at hagrees
            exact (hagrees rfl).symm
        | _ => trivial
      · rw [Function.update_of_ne hvt]
        exact h.agree u v id status hu
  reporting := by
    intro u id status wait hu
    by_cases hut : u = t
    · subst hut
      rw [Function.update_self] at hu
      obtain ⟨hne, hstored⟩ := hreporting id status wait hu
      exact ⟨hne, hstatus id status hstored⟩
    · rw [Function.update_of_ne hut] at hu
      obtain ⟨hne, hstored⟩ := h.reporting u id status wait hu
      exact ⟨hne, hstatus id status hstored⟩
  results := by
    intro w hw result hresult
    rcases hresults w hw result hresult with hheard | ⟨old, hold, hid, hsame⟩
    · exact ⟨hheard.1, hheard.2.imp (hstatus _ _) fun hpending => ⟨hstatus _ _ hpending.1, hpending.2⟩⟩
    · obtain ⟨hne, hheard⟩ := h.results old hold result hsame
      rw [hid] at hheard
      refine ⟨hne, hheard.imp (hstatus _ _) ?_⟩
      rintro ⟨hpending, u, hu⟩
      refine ⟨hstatus _ _ hpending, u, ?_⟩
      have hut : u ≠ t := by
        rintro rfl
        exact hnot _ _ hu
      rw [Function.update_of_ne hut]
      exact hu

/-- The step in which a thread stores the status that it was about to write. -/
theorem ApprovalConsistent.store (h : ApprovalConsistent s ph) {requestId : Nat}
    {status : ApprovalStatus} (ht : ph t = .writing requestId status)
    (hstored : ∀ id, s'.statusOf id =
      if id = requestId then (s.statusOf id).map fun _ => status else s.statusOf id)
    (hwaits : s'.waits = s.waits)
    (hg' : g' = .finished ∨ ∃ wait, g' = .reporting requestId status wait) :
    ApprovalConsistent s' (Function.update ph t g') := by
  obtain ⟨hne, hbefore⟩ := h.writing t requestId status ht
  have hself : s'.statusOf requestId = some status := by
    rw [hstored, if_pos rfl]
    rcases hbefore with hbefore | hbefore <;> rw [hbefore] <;> rfl
  have hother : ∀ id, id ≠ requestId → s'.statusOf id = s.statusOf id := by
    intro id hid
    rw [hstored, if_neg hid]
  have hnot : ∀ id other, g' ≠ .writing id other := by
    rintro id other rfl
    rcases hg' with hg' | ⟨wait, hg'⟩ <;> simp at hg'
  -- whoever else is about to write to the request writes the same status
  have hsame : ∀ u other, ph u = .writing requestId other → other = status := by
    intro u other hu
    have hagrees := h.agree t u requestId status ht
    rw [hu] at hagrees
    exact hagrees rfl
  -- a status other than `pending` that was stored before is the one stored now
  have hkeeps : ∀ id other, other ≠ .pending → s.statusOf id = some other →
      s'.statusOf id = some other := by
    intro id other hother' hold
    by_cases hid : id = requestId
    · subst hid
      rw [hold] at hbefore
      rcases hbefore with hbefore | hbefore
      · exact absurd (Option.some.inj hbefore) hother'
      · rw [hself, ← Option.some.inj hbefore]
    · rw [hother id hid]
      exact hold
  refine ⟨?_, ?_, ?_, ?_⟩
  · intro u id other hu
    by_cases hut : u = t
    · subst hut
      rw [Function.update_self] at hu
      exact absurd hu (hnot id other)
    · rw [Function.update_of_ne hut] at hu
      obtain ⟨hpending, hrow⟩ := h.writing u id other hu
      refine ⟨hpending, ?_⟩
      by_cases hid : id = requestId
      · subst hid
        rw [hsame u other hu]
        exact .inr hself
      · rw [hother id hid]
        exact hrow
  · intro u v id other hu
    by_cases hut : u = t
    · subst hut
      rw [Function.update_self] at hu
      exact absurd hu (hnot id other)
    · rw [Function.update_of_ne hut] at hu
      by_cases hvt : v = t
      · subst hvt
        rw [Function.update_self]
        rcases hg' with rfl | ⟨wait, rfl⟩
        · trivial
        · trivial
      · rw [Function.update_of_ne hvt]
        exact h.agree u v id other hu
  · intro u id other wait hu
    by_cases hut : u = t
    · subst hut
      rw [Function.update_self] at hu
      rcases hg' with rfl | ⟨wait', rfl⟩
      · simp at hu
      · obtain ⟨rfl, rfl, -⟩ : requestId = id ∧ status = other ∧ wait' = wait := by simpa using hu
        exact ⟨hne, hself⟩
    · rw [Function.update_of_ne hut] at hu
      obtain ⟨hpending, hrow⟩ := h.reporting u id other wait hu
      exact ⟨hpending, hkeeps id other hpending hrow⟩
  · intro w hw result hresult
    rw [hwaits] at hw
    obtain ⟨hpending, hheard⟩ := h.results w hw result hresult
    refine ⟨hpending, ?_⟩
    by_cases hid : w.requestId = requestId
    · left
      rcases hheard with hrow | ⟨-, u, hu⟩
      · exact hkeeps _ _ hpending hrow
      · rw [hid] at hu ⊢
        rw [hself, hsame u _ hu]
    · rw [hother _ hid]
      refine hheard.imp id ?_
      rintro ⟨hrow, u, hu⟩
      have hut : u ≠ t := by
        rintro rfl
        rw [ht] at hu
        exact hid (ApprovalPhase.writing.inj hu).1.symm
      exact ⟨hrow, u, by rw [Function.update_of_ne hut]; exact hu⟩

omit [DecidableEq ι] in
/-- The results after a wait was resolved with a status that is stored. -/
theorem results_updateWait {wait : Nat} {w₀ : ApprovalWait} (hw₀ : s.waits[wait]? = some w₀)
    {ph' : ι → ApprovalPhase} {result : ToolCallApprovalResolution}
    (hheard : Heard s ph' w₀.requestId result.status) {f : ApprovalWait → ApprovalWait}
    (hf : ∀ w, ((f w).requestId, (f w).result) = (w.requestId, w.result.or (some result))) :
    ∀ w ∈ (s.updateWait wait f).waits, ∀ heard, w.result = some heard →
      Heard s ph' w.requestId heard.status ∨
        ∃ old ∈ s.waits, old.requestId = w.requestId ∧ old.result = some heard := by
  intro w hw heard hresult
  rcases mem_updateWait hw with hmem | ⟨old, hold, rfl⟩
  · exact .inr ⟨w, hmem, rfl, hresult⟩
  · obtain rfl := Option.some.inj (hw₀.symm.trans hold)
    obtain ⟨hid, hresolved⟩ := Prod.mk.inj (hf w₀)
    rw [hresolved] at hresult
    cases hprior : w₀.result with
    | some prior =>
        rw [hprior] at hresult
        exact .inr ⟨w₀, List.mem_of_getElem? hw₀, hid.symm, hprior.trans hresult⟩
    | none =>
        rw [hprior] at hresult
        obtain rfl := Option.some.inj hresult
        rw [hid]
        exact .inl hheard

/-- **A step that does not clash keeps the statuses consistent.** -/
theorem ApprovalConsistent.advance (h : ApprovalConsistent s ph) {calls : ι → ApprovalCall}
    (hlinked : ApprovalLinked calls s ph) {o : ApprovalOp}
    (hissue : ApprovalPhase.Issues (calls t).decision (ph t) o) (henabled : o.enabled s = true)
    (hclash : NoClashIn calls s ph t o) :
    ApprovalConsistent (o.exec s).1 (Function.update ph t ((ph t).next o (o.exec s).2)) := by
  have hphase := hlinked.phases t
  generalize hg : ph t = g at hissue hphase ⊢
  have hold : ∀ {s' : ApprovalState} {g' : ApprovalPhase}, s'.waits = s.waits →
      ∀ w ∈ s'.waits, ∀ result, w.result = some result →
        Heard s (Function.update ph t g') w.requestId result.status ∨
          ∃ old ∈ s.waits, old.requestId = w.requestId ∧ old.result = some result := by
    intro s' g' hwaits w hw result hresult
    exact .inr ⟨w, hwaits ▸ hw, rfl, hresult⟩
  cases hissue with
  | findPending correlationId =>
      refine h.step (fun _ _ hs => hs) (by simp [hg]) ?_ ?_ (hold rfl)
      all_goals
        rw [ApprovalOp.exec]
        cases s.rows.find? fun row => row.correlationId = correlationId && row.status = .pending
        all_goals simp [ApprovalPhase.next]
  | insert request hpending =>
      rw [ApprovalOp.exec]
      by_cases hadmits : s.admits request = true
      · rw [if_pos hadmits]
        exact h.step (fun _ _ hs => statusOf_append hs) (by simp [hg])
          (by simp [ApprovalPhase.next]) (by simp [ApprovalPhase.next]) (hold rfl)
      · rw [if_neg hadmits]
        exact h.step (fun _ _ hs => hs) (by simp [hg]) (by simp [ApprovalPhase.next])
          (by simp [ApprovalPhase.next]) (hold rfl)
  | register requestId =>
      refine h.step (fun _ _ hs => hs) (by simp [hg]) (by simp [ApprovalPhase.next])
        (by simp [ApprovalPhase.next]) ?_
      intro w hw result hresult
      rcases List.mem_append.1 hw with hmem | hnew
      · exact .inr ⟨w, hmem, rfl, hresult⟩
      · obtain rfl := List.mem_singleton.1 hnew
        simp at hresult
  | tick wait =>
      exact h.step (fun _ _ hs => hs) (by simp [hg]) (by simp [ApprovalPhase.next])
        (by simp [ApprovalPhase.next]) (hold rfl)
  | fire wait =>
      obtain ⟨hrow, hagree⟩ := hclash
      obtain ⟨w₀, hw₀, -⟩ := (Option.any_eq_true _ _).1 henabled
      have hid : s.requestOf wait = w₀.requestId := requestOf_eq ⟨w₀, hw₀, rfl⟩
      refine h.step (fun _ _ hs => hs) (by simp [hg]) ?_ (by simp [ApprovalPhase.next]) ?_
      · intro id status hwrites
        obtain ⟨rfl, rfl⟩ := ApprovalPhase.writing.inj hwrites
        exact ⟨by decide, hrow, hagree⟩
      · intro w hw result hresult
        rcases mem_updateWait hw with hmem | ⟨old, holdw, rfl⟩
        · exact .inr ⟨w, hmem, rfl, hresult⟩
        · obtain rfl := Option.some.inj (hw₀.symm.trans holdw)
          cases hprior : w₀.result with
          | some prior =>
              have hsame : prior = result := by
                simpa [ApprovalWait.resolve, hprior] using hresult
              exact .inr ⟨w₀, List.mem_of_getElem? hw₀, rfl, hsame ▸ hprior⟩
          | none =>
              -- the promise is resolved as expired, and the thread is about to store that
              have hsame : ({ status := .expired } : ToolCallApprovalResolution) = result := by
                simpa [ApprovalWait.resolve, hprior] using hresult
              left
              subst hsame
              refine ⟨by decide, ?_⟩
              rw [hid] at hrow
              refine hrow.symm.imp id fun hpending => ⟨hpending, t, ?_⟩
              rw [Function.update_self]
              exact congrArg (ApprovalPhase.writing · .expired) hid
  | read requestId status hstatus =>
      have hdecision : (calls t).decision = some (requestId, status) := hphase.symm
      rw [ApprovalOp.exec]
      cases hfind : s.find requestId with
      | none =>
          exact h.step (fun _ _ hs => hs) (by simp [hg]) (by simp [ApprovalPhase.next])
            (by simp [ApprovalPhase.next]) (hold rfl)
      | some row =>
          have hnext : (ApprovalPhase.start (some (requestId, status))).next (.findOne requestId)
              (some row) = if row.status = .pending then .writing requestId status else .finished := rfl
          rw [hnext]
          by_cases hpending : row.status = .pending
          · rw [if_pos hpending]
            have hrow : s.statusOf requestId = some .pending := by
              rw [ApprovalState.statusOf, hfind, Option.map_some, hpending]
            refine h.step (fun _ _ hs => hs) (by simp [hg]) ?_ (by simp) (hold rfl)
            intro id other hwrites
            obtain ⟨rfl, rfl⟩ := ApprovalPhase.writing.inj hwrites
            exact ⟨hstatus, .inl hrow, hclash (requestId, status) hdecision hrow⟩
          · rw [if_neg hpending]
            exact h.step (fun _ _ hs => hs) (by simp [hg]) (by simp) (by simp) (hold rfl)
  | poll wait requestId =>
      rw [ApprovalOp.exec]
      cases hfind : s.find requestId with
      | none =>
          exact h.step (fun _ _ hs => hs) (by simp [hg]) (by simp [ApprovalPhase.next])
            (by simp [ApprovalPhase.next]) (hold rfl)
      | some row =>
          have hnext : (ApprovalPhase.polling wait requestId).next (.findOne requestId)
              (some row) = if row.status = .pending then .finished
                else .reporting requestId row.status (some wait) := rfl
          rw [hnext]
          by_cases hpending : row.status = .pending
          · rw [if_pos hpending]
            exact h.step (fun _ _ hs => hs) (by simp [hg]) (by simp) (by simp) (hold rfl)
          · rw [if_neg hpending]
            refine h.step (fun _ _ hs => hs) (by simp [hg]) (by simp) ?_ (hold rfl)
            intro id status other hreports
            obtain ⟨rfl, rfl, -⟩ := ApprovalPhase.reporting.inj hreports
            refine ⟨hpending, ?_⟩
            rw [ApprovalState.statusOf, hfind]
            rfl
  | save request hdecision =>
      refine h.store hg (fun id => ?_) rfl (.inr ⟨none, rfl⟩)
      exact statusOf_updateRow (fun _ _ => ⟨rfl, rfl⟩) id
  | expire requestId =>
      refine h.store hg (fun id => ?_) rfl (.inl rfl)
      have hexpired : ∀ row : ToolCallApprovalRequest, row.id = requestId →
          ({ row with status := .expired } : ToolCallApprovalRequest).id = requestId ∧
            ({ row with status := .expired } : ToolCallApprovalRequest).status = .expired :=
        fun _ hid => ⟨hid, rfl⟩
      exact statusOf_updateRow hexpired id
  | resolveWait requestId result =>
      obtain ⟨hne, hrow⟩ := h.reporting t requestId result.status none hg
      rw [ApprovalOp.exec]
      cases hget : OrderedMap.get? s.pendingWaits requestId with
      | none =>
          exact h.step (fun _ _ hs => hs) (by simp [hg]) (by simp [ApprovalPhase.next])
            (by simp [ApprovalPhase.next]) (hold rfl)
      | some wait =>
          obtain ⟨w₀, hw₀, hid⟩ := hlinked.registered requestId wait hget
          have hheard : ∀ g', Heard s (Function.update ph t g') w₀.requestId result.status :=
            fun g' => ⟨hne, .inl (hid ▸ hrow)⟩
          refine h.step (fun _ _ hs => hs) (by simp [hg]) (by simp [ApprovalPhase.next])
            (by simp [ApprovalPhase.next]) ?_
          exact results_updateWait hw₀ (hheard _) fun _ => rfl
  | settle wait requestId result =>
      obtain ⟨hne, hrow⟩ := h.reporting t requestId result.status (some wait) hg
      obtain ⟨w₀, hw₀, hid⟩ : s.WaitFor wait requestId := hphase
      have hheard : ∀ g', Heard s (Function.update ph t g') w₀.requestId result.status :=
        fun g' => ⟨hne, .inl (hid ▸ hrow)⟩
      refine h.step (fun _ _ hs => hs) (by simp [hg]) (by simp [ApprovalPhase.next])
        (by simp [ApprovalPhase.next]) ?_
      exact results_updateWait hw₀ (hheard _) fun _ => rfl

end Consistent

/-! ## Where approvals come from -/

/-- Nobody knows of an approval that no call has given and that was not stored at the start. -/
structure ApprovalTraced (known : Nat → Prop) (s : ApprovalState) (ph : ι → ApprovalPhase) :
    Prop where
  stored : ∀ requestId, s.statusOf requestId = some .approved → known requestId
  reported : ∀ t requestId wait, ph t = .reporting requestId .approved wait → known requestId
  results : ∀ w ∈ s.waits, ∀ result, w.result = some result → result.status = .approved →
    known w.requestId

section Traced

variable {s s' : ApprovalState} {ph : ι → ApprovalPhase} {t : ι} {g' : ApprovalPhase}
  {known : Nat → Prop} {calls : ι → ApprovalCall}

/-- A step that makes no approval known. -/
theorem ApprovalTraced.step (h : ApprovalTraced known s ph)
    (hstored : ∀ id, s'.statusOf id = some .approved → known id)
    (hreported : ∀ id wait, g' = .reporting id .approved wait → known id)
    (hresults : ∀ w ∈ s'.waits, ∀ result, w.result = some result → result.status = .approved →
      known w.requestId) : ApprovalTraced known s' (Function.update ph t g') where
  stored := hstored
  reported := by
    intro u id wait hu
    by_cases hut : u = t
    · subst hut
      rw [Function.update_self] at hu
      exact hreported id wait hu
    · rw [Function.update_of_ne hut] at hu
      exact h.reported u id wait hu
  results := hresults

omit [DecidableEq ι] in
theorem ApprovalTraced.updateWait (h : ApprovalTraced known s ph) {wait : Nat} {w₀ : ApprovalWait}
    (hw₀ : s.waits[wait]? = some w₀) {result : ToolCallApprovalResolution}
    (hknown : result.status = .approved → known w₀.requestId) {f : ApprovalWait → ApprovalWait}
    (hf : ∀ w, ((f w).requestId, (f w).result) = (w.requestId, w.result.or (some result))) :
    ∀ w ∈ (s.updateWait wait f).waits, ∀ heard, w.result = some heard → heard.status = .approved →
      known w.requestId := by
  intro w hw heard hresult happroved
  rcases mem_updateWait hw with hmem | ⟨old, hold, rfl⟩
  · exact h.results w hmem heard hresult happroved
  · obtain rfl := Option.some.inj (hw₀.symm.trans hold)
    obtain ⟨hid, hresolved⟩ := Prod.mk.inj (hf w₀)
    rw [hid]
    rw [hresolved] at hresult
    cases hprior : w₀.result with
    | some prior =>
        rw [hprior] at hresult
        exact h.results w₀ (List.mem_of_getElem? hw₀) heard (hprior.trans hresult) happroved
    | none =>
        rw [hprior] at hresult
        obtain rfl := Option.some.inj hresult
        exact hknown happroved

theorem statusOf_of_append {row : ToolCallApprovalRequest} {nextId requestId : Nat}
    {status : ApprovalStatus} (hrow : row.status ≠ status)
    (h : ({ s with rows := s.rows ++ [row], nextId := nextId } : ApprovalState).statusOf requestId =
      some status) : s.statusOf requestId = some status := by
  obtain ⟨found, hfind, rfl⟩ := Option.map_eq_some_iff.1 h
  have hfind : (s.rows ++ [row]).find? (fun row => row.id = requestId) = some found := hfind
  rw [List.find?_append] at hfind
  cases hold : s.rows.find? fun row => row.id = requestId with
  | some old =>
      rw [hold] at hfind
      obtain rfl : old = found := Option.some.inj hfind
      rw [ApprovalState.statusOf, ApprovalState.find, hold]
      rfl
  | none =>
      rw [hold] at hfind
      have hmem := List.mem_of_find?_eq_some (Option.or_eq_some_iff.1 hfind |>.resolve_left (by simp) |>.2)
      obtain rfl := List.mem_singleton.1 hmem
      exact absurd rfl hrow

/-- **Only a call of `approveRequest` makes an approval known.** -/
theorem ApprovalTraced.advance (h : ApprovalTraced known s ph) (hlinked : ApprovalLinked calls s ph)
    {o : ApprovalOp} (hissue : ApprovalPhase.Issues (calls t).decision (ph t) o)
    (hsaved : ∀ request, o = .save request → (calls t).decision = some (request.id, .approved) →
      known request.id) :
    ApprovalTraced known (o.exec s).1 (Function.update ph t ((ph t).next o (o.exec s).2)) := by
  have hphase := hlinked.phases t
  generalize hg : ph t = g at hissue hphase ⊢
  cases hissue with
  | findPending correlationId =>
      refine h.step h.stored ?_ h.results
      rw [ApprovalOp.exec]
      cases s.rows.find? fun row => row.correlationId = correlationId && row.status = .pending
      all_goals simp [ApprovalPhase.next]
  | insert request hpending =>
      rw [ApprovalOp.exec]
      by_cases hadmits : s.admits request = true
      · rw [if_pos hadmits]
        refine h.step (fun id hid => h.stored id ?_) (by simp [ApprovalPhase.next]) h.results
        exact statusOf_of_append (by simp [hpending]) hid
      · rw [if_neg hadmits]
        exact h.step h.stored (by simp [ApprovalPhase.next]) h.results
  | register requestId =>
      refine h.step h.stored (by simp [ApprovalPhase.next]) ?_
      intro w hw result hresult happroved
      rcases List.mem_append.1 hw with hmem | hnew
      · exact h.results w hmem result hresult happroved
      · obtain rfl := List.mem_singleton.1 hnew
        simp at hresult
  | tick wait => exact h.step h.stored (by simp [ApprovalPhase.next]) h.results
  | fire wait =>
      refine h.step h.stored (by simp [ApprovalPhase.next]) ?_
      intro w hw result hresult happroved
      rcases mem_updateWait hw with hmem | ⟨old, hold, rfl⟩
      · exact h.results w hmem result hresult happroved
      · cases hprior : old.result with
        | some prior =>
            have hsame : prior = result := by simpa [ApprovalWait.resolve, hprior] using hresult
            exact h.results old (List.mem_of_getElem? hold) result (hsame ▸ hprior) happroved
        | none =>
            have hsame : ({ status := .expired } : ToolCallApprovalResolution) = result := by
              simpa [ApprovalWait.resolve, hprior] using hresult
            subst hsame
            exact absurd happroved (by decide)
  | read requestId status hstatus =>
      rw [ApprovalOp.exec]
      refine h.step h.stored ?_ h.results
      intro id wait hnext
      cases hfind : s.find requestId with
      | none =>
          rw [hfind] at hnext
          simp [ApprovalPhase.next] at hnext
      | some row =>
          rw [hfind] at hnext
          by_cases hpending : row.status = .pending
          · simp [ApprovalPhase.next, ApprovalPhase.afterRead, hpending] at hnext
          · simp [ApprovalPhase.next, ApprovalPhase.afterRead, hpending] at hnext
  | poll wait requestId =>
      rw [ApprovalOp.exec]
      refine h.step h.stored ?_ h.results
      intro id wait' hnext
      cases hfind : s.find requestId with
      | none =>
          rw [hfind] at hnext
          simp [ApprovalPhase.next] at hnext
      | some row =>
          rw [hfind] at hnext
          by_cases hpending : row.status = .pending
          · simp [ApprovalPhase.next, ApprovalPhase.afterRead, hpending] at hnext
          · have hreports : requestId = id ∧ row.status = .approved ∧ wait = wait' := by
              simpa [ApprovalPhase.next, ApprovalPhase.afterRead, hpending] using hnext
            obtain ⟨rfl, happroved, -⟩ := hreports
            apply h.stored
            rw [ApprovalState.statusOf, hfind, Option.map_some, happroved]
  | save request hdecision =>
      have hself : request.status = .approved → known request.id := fun happroved =>
        hsaved request rfl (happroved ▸ hdecision)
      refine h.step (fun id hid => ?_) ?_ h.results
      · have hstored : (s.updateRow request.id fun _ => request).statusOf id =
            if id = request.id then (s.statusOf id).map fun _ => request.status
            else s.statusOf id := statusOf_updateRow (fun _ _ => ⟨rfl, rfl⟩) id
        have hid : (s.updateRow request.id fun _ => request).statusOf id = some .approved := hid
        rw [hstored] at hid
        by_cases hsame : id = request.id
        · rw [if_pos hsame] at hid
          obtain ⟨-, -, happroved⟩ := Option.map_eq_some_iff.1 hid
          exact hsame ▸ hself happroved
        · rw [if_neg hsame] at hid
          exact h.stored id hid
      · intro id wait hnext
        obtain ⟨rfl, happroved, -⟩ := ApprovalPhase.reporting.inj hnext
        exact hself happroved
  | expire requestId =>
      refine h.step (fun id hid => ?_) (by simp [ApprovalPhase.next]) h.results
      have hexpired : ∀ row : ToolCallApprovalRequest, row.id = requestId →
          ({ row with status := .expired } : ToolCallApprovalRequest).id = requestId ∧
            ({ row with status := .expired } : ToolCallApprovalRequest).status = .expired :=
        fun _ hid => ⟨hid, rfl⟩
      have hid : (s.updateRow requestId fun row => { row with status := .expired }).statusOf id =
          some .approved := hid
      rw [statusOf_updateRow hexpired id] at hid
      by_cases hsame : id = requestId
      · rw [if_pos hsame] at hid
        obtain ⟨-, -, hne⟩ := Option.map_eq_some_iff.1 hid
        exact absurd hne (by decide)
      · rw [if_neg hsame] at hid
        exact h.stored id hid
  | resolveWait requestId result =>
      rw [ApprovalOp.exec]
      cases hget : OrderedMap.get? s.pendingWaits requestId with
      | none => exact h.step h.stored (by simp [ApprovalPhase.next]) h.results
      | some wait =>
          obtain ⟨w₀, hw₀, hid⟩ := hlinked.registered requestId wait hget
          refine h.step h.stored (by simp [ApprovalPhase.next]) ?_
          refine h.updateWait hw₀ (fun happroved => ?_) fun _ => rfl
          rw [hid]
          exact h.reported t requestId none (happroved ▸ hg)
  | settle wait requestId result =>
      obtain ⟨w₀, hw₀, hid⟩ : s.WaitFor wait requestId := hphase
      refine h.step h.stored (by simp [ApprovalPhase.next]) ?_
      refine h.updateWait hw₀ (fun happroved => ?_) fun _ => rfl
      rw [hid]
      exact h.reported t requestId (some wait) (happroved ▸ hg)

end Traced

/-! ## Runs -/

section Reached

variable {calls : ι → ApprovalCall} {digest : String → String}
  {rows : List ToolCallApprovalRequest} {nextId : Nat} {c c' : ApprovalConfig ι} {t : ι}
  {o : ApprovalOp} {k : o.Ans → ApprovalProg Unit}

theorem approvalPhase_advance :
    approvalPhase calls (Pool.advance approvalService c t o k).log =
      Function.update (approvalPhase calls c.log) t
        ((approvalPhase calls c.log t).next o (o.exec c.world).2) :=
  Pool.track_advance (k := k)

/-- An approval was stored before the process started, or a call has given it. -/
def KnownApproval (calls : ι → ApprovalCall) (rows : List ToolCallApprovalRequest)
    (log : ApprovalLog ι) (requestId : Nat) : Prop :=
  ApprovalState.statusOf { rows := rows } requestId = some .approved ∨
    ApprovedIn calls log requestId

omit [DecidableEq ι] in
theorem KnownApproval.cons {log : ApprovalLog ι} {requestId : Nat}
    (h : KnownApproval calls rows log requestId) (entry : Entry ι ApprovalOp ApprovalOp.Ans) :
    KnownApproval calls rows (entry :: log) requestId := by
  refine h.imp id ?_
  rintro ⟨e, he, hsaved⟩
  exact ⟨e, List.mem_cons_of_mem entry he, hsaved⟩

/-- What holds of every run. -/
structure ApprovalRun (calls : ι → ApprovalCall) (rows : List ToolCallApprovalRequest)
    (c : ApprovalConfig ι) : Prop where
  linked : ApprovalLinked calls c.world (approvalPhase calls c.log)
  traced : ApprovalTraced (KnownApproval calls rows c.log) c.world (approvalPhase calls c.log)

theorem ApprovalRun.start : ApprovalRun calls rows (approvalStart digest calls rows nextId) where
  linked := {
    requests := fun _ hw => absurd hw List.not_mem_nil
    registered := fun _ _ hget => by simp [approvalStart, Pool.start] at hget
    armed := fun _ hw => absurd hw List.not_mem_nil
    phases := fun _ => rfl }
  traced := {
    stored := fun _ hstored => .inl hstored
    reported := fun _ _ _ hreports => by
      simp [approvalPhase, approvalStart, Pool.start, Pool.track] at hreports
    results := fun _ hw => absurd hw List.not_mem_nil }

theorem ApprovalRun.advance (h : ApprovalRun calls rows c)
    (hissue : ApprovalPhase.Issues (calls t).decision (approvalPhase calls c.log t) o)
    (henabled : o.enabled c.world = true) :
    ApprovalPhase.Answers o (o.exec c.world).2 ∧
      ApprovalRun calls rows (Pool.advance approvalService c t o k) := by
  obtain ⟨hanswers, hlinked⟩ := h.linked.advance hissue henabled
  refine ⟨hanswers, ?_, ?_⟩
  · rw [approvalPhase_advance]
    exact hlinked
  · rw [approvalPhase_advance]
    have htraced : ApprovalTraced (KnownApproval calls rows
        (Pool.advance approvalService c t o k).log) c.world (approvalPhase calls c.log) :=
      { stored := fun id hid => (h.traced.stored id hid).cons _
        reported := fun u id wait hu => (h.traced.reported u id wait hu).cons _
        results := fun w hw result hresult happroved =>
          (h.traced.results w hw result hresult happroved).cons _ }
    refine htraced.advance h.linked hissue ?_
    rintro request rfl hdecision
    exact .inr ⟨_, List.mem_cons_self, hdecision, request, rfl, rfl⟩

/-- What holds of every run, with an invariant of the runs that satisfy a condition. -/
def ApprovalRunWith (calls : ι → ApprovalCall) (rows : List ToolCallApprovalRequest)
    (I : ApprovalConfig ι → Prop) (c : ApprovalConfig ι) : Prop :=
  ApprovalRun calls rows c ∧ I c

/-- The programs keep to the phases in every run, and what holds of every run holds. -/
theorem approvalRun_of_reach {cond : ApprovalConfig ι → ι → ApprovalOp → Prop}
    {I : ApprovalConfig ι → Prop} (hinit : I (approvalStart digest calls rows nextId))
    (hstep : ∀ (c : ApprovalConfig ι) (t : ι) (o : ApprovalOp) (k : o.Ans → ApprovalProg Unit),
      ApprovalRun calls rows c → I c →
      ApprovalPhase.Issues (calls t).decision (approvalPhase calls c.log t) o →
      o.enabled c.world = true → cond c t o → I (Pool.advance approvalService c t o k))
    (h : Pool.Reach approvalService cond (approvalStart digest calls rows nextId) c) :
    ApprovalRunWith calls rows I c ∧
      ∀ t, ApprovalSpec (calls t).decision (c.threads t) (approvalPhase calls c.log t) := by
  have hstart : ApprovalRunWith calls rows I (approvalStart digest calls rows nextId) :=
    ⟨.start, hinit⟩
  refine Pool.Reach.follows (fun t => (calls t).prog_spec digest) hstart ?_ h
  intro c t o k ⟨hrun, hinv⟩ _ hissue henabled hcond
  obtain ⟨hanswers, hrun'⟩ := hrun.advance hissue henabled
  exact ⟨hanswers, hrun', hstep c t o k hrun hinv hissue henabled hcond⟩

theorem approvalConsistent_start :
    ApprovalConsistent (approvalStart digest calls rows nextId).world
      (approvalPhase calls (approvalStart digest calls rows nextId).log) where
  writing := fun _ _ _ hwrites => by
    simp [approvalPhase, approvalStart, Pool.start, Pool.track] at hwrites
  agree := fun _ _ _ _ hwrites => by
    simp [approvalPhase, approvalStart, Pool.start, Pool.track] at hwrites
  reporting := fun _ _ _ _ hreports => by
    simp [approvalPhase, approvalStart, Pool.start, Pool.track] at hreports
  results := fun _ hw => absurd hw List.not_mem_nil

/-- While no writers clash, the statuses are consistent. -/
theorem approvalConsistent_of_reach
    (h : Pool.Reach approvalService (NoClash calls) (approvalStart digest calls rows nextId) c) :
    ApprovalRunWith calls rows (fun c => ApprovalConsistent c.world (approvalPhase calls c.log)) c ∧
      ∀ t, ApprovalSpec (calls t).decision (c.threads t) (approvalPhase calls c.log t) := by
  refine approvalRun_of_reach
    (I := fun c => ApprovalConsistent c.world (approvalPhase calls c.log))
    approvalConsistent_start ?_ h
  intro c t o k hrun hconsistent hissue henabled hcond
  rw [approvalPhase_advance]
  exact hconsistent.advance hrun.linked hissue henabled hcond

omit [DecidableEq ι] in
/-- **The step lemma of finality.** A status other than `pending` stays. -/
theorem ApprovalConsistent.status_kept {s : ApprovalState} {ph : ι → ApprovalPhase}
    (h : ApprovalConsistent s ph) {decision : Option (Nat × ApprovalStatus)}
    (hissue : ApprovalPhase.Issues decision (ph t) o) {id : Nat} {status : ApprovalStatus}
    (hne : status ≠ .pending) (hstored : s.statusOf id = some status) :
    (o.exec s).1.statusOf id = some status := by
  -- a thread that writes to a request with a status writes that status
  have hwrites : ∀ {other : ApprovalStatus}, ph t = .writing id other → other = status := by
    intro other ht
    rcases (h.writing t id other ht).2 with hrow | hrow <;> rw [hstored] at hrow
    · exact absurd (Option.some.inj hrow) hne
    · exact (Option.some.inj hrow).symm
  generalize hg : ph t = g at hissue
  cases hissue with
  | insert request hpending =>
      rw [ApprovalOp.exec]
      by_cases hadmits : s.admits request = true
      · rw [if_pos hadmits]
        exact statusOf_append hstored
      · rwa [if_neg hadmits]
  | save request hdecision =>
      show (s.updateRow request.id fun _ => request).statusOf id = some status
      have hsave : (s.updateRow request.id fun _ => request).statusOf id =
          if id = request.id then (s.statusOf id).map fun _ => request.status
          else s.statusOf id := statusOf_updateRow (fun _ _ => ⟨rfl, rfl⟩) id
      rw [hsave]
      by_cases hid : id = request.id
      · subst hid
        rw [if_pos rfl, hstored, Option.map_some, hwrites hg]
      · rwa [if_neg hid]
  | expire requestId =>
      show (s.updateRow requestId fun row => { row with status := .expired }).statusOf id =
        some status
      have hexpired : ∀ row : ToolCallApprovalRequest, row.id = requestId →
          ({ row with status := .expired } : ToolCallApprovalRequest).id = requestId ∧
            ({ row with status := .expired } : ToolCallApprovalRequest).status = .expired :=
        fun _ hid => ⟨hid, rfl⟩
      rw [statusOf_updateRow hexpired id]
      by_cases hid : id = requestId
      · subst hid
        rw [if_pos rfl, hstored, Option.map_some, hwrites hg]
      · rwa [if_neg hid]
  | resolveWait requestId result =>
      rw [ApprovalOp.exec]
      cases OrderedMap.get? s.pendingWaits requestId with
      | none => exact hstored
      | some wait => exact hstored
  | _ => exact hstored

/-- **Resolutions are final while no writers clash.** A status other than `pending` stays as it is
in the rest of the run; a wait that is not resolved still has its timeout, and what a resolved one
has heard is stored, or about to be by a thread that has fired. In every run at all, an approval is
heard only of a request that a call has approved, or that was approved before the process started. -/
theorem approval_resolutions_final :
    (Pool.Reach approvalService (NoClash calls) (approvalStart digest calls rows nextId) c →
      (∀ c', Pool.Reach approvalService (NoClash calls) c c' → ∀ id status, status ≠ .pending →
        c.world.statusOf id = some status → c'.world.statusOf id = some status) ∧
      ∀ w ∈ c.world.waits, (w.result = none → w.timeout = true) ∧
        ∀ result, w.result = some result →
          Heard c.world (approvalPhase calls c.log) w.requestId result.status) ∧
    (Pool.Reach approvalService Pool.anyStep (approvalStart digest calls rows nextId) c →
      ∀ w ∈ c.world.waits, ∀ result, w.result = some result → result.status = .approved →
        KnownApproval calls rows c.log w.requestId) := by
  constructor
  · intro h
    obtain ⟨⟨hrun, hconsistent⟩, -⟩ := approvalConsistent_of_reach h
    refine ⟨fun c' h' id status hne hstored => ?_, fun w hw => ⟨hrun.linked.armed w hw, ?_⟩⟩
    · induction h' with
      | refl => exact hstored
      | tail hprefix hlast ih =>
          obtain ⟨⟨-, hbefore⟩, hmeets⟩ := approvalConsistent_of_reach (h.trans hprefix)
          obtain ⟨t, o, k, hthread, -, -, rfl⟩ := hlast
          have hissue := hmeets t
          rw [hthread] at hissue
          exact hbefore.status_kept hissue.1 hne ih
    · exact hconsistent.results w hw
  · intro h
    obtain ⟨⟨hrun, -⟩, -⟩ := approvalRun_of_reach (I := fun _ => True) trivial
      (fun _ _ _ _ _ _ _ _ _ => trivial) h
    exact hrun.traced.results

end Reached

end Runs

/-! ## Two runs -/

instance (requestId : Nat) (status : ApprovalStatus) (g : ApprovalPhase) :
    Decidable (g.WritesOnly requestId status) :=
  match g with
  | .writing id other => inferInstanceAs (Decidable (id = requestId → other = status))
  | .start _ | .joining _ | .polling _ _ | .reporting _ _ _ | .finished =>
      inferInstanceAs (Decidable True)

instance {n : Nat} (calls : Fin n → ApprovalCall) (c : ApprovalConfig (Fin n)) (t : Fin n)
    (o : ApprovalOp) : Decidable (NoClash calls c t o) :=
  match o with
  | .findOne requestId =>
      inferInstanceAs (Decidable (∀ decision ∈ (calls t).decision,
        c.world.statusOf requestId = some .pending →
          ∀ u, (approvalPhase calls c.log u).WritesOnly requestId decision.2))
  | .fire wait =>
      inferInstanceAs (Decidable ((c.world.statusOf (c.world.requestOf wait) = some .pending ∨
        c.world.statusOf (c.world.requestOf wait) = some .expired) ∧
        ∀ u, (approvalPhase calls c.log u).WritesOnly (c.world.requestOf wait) .expired))
  | .findPendingByCorrelationId _ | .insert _ | .save _ | .expire _ | .register _
  | .resolveWait _ _ | .tick _ | .settle _ _ => inferInstanceAs (Decidable True)

/-- The digest of the one correlation text of the runs below. -/
def listingDigest (_ : String) : String :=
  "1d88c6fd324bd672d490675af996ebe3ffe1872adad2b2662d28a73726846952"

/-- A shell command that waits for an approval. -/
def listingCall : ApprovalCall :=
  .request {
    workflowRunId := some "run-1"
    jobId := some "job-1"
    toolName := "bash"
    payload := [("command", .str "ls")]
    requestedBy := "senior_dev" }

/-- The command waits, is approved, and a tick of its interval comes after that. -/
def polledCalls : Fin 3 → ApprovalCall
  | 0 => listingCall
  | 1 => .approve 0 "user-1" none
  | 2 => .poll 0

def polledRun : ApprovalConfig (Fin 3) :=
  Pool.play approvalService [(0, 3), (1, 3), (2, 3)] (approvalStart listingDigest polledCalls [] 0)

theorem approval_resolutions_final_polled :
    Heard polledRun.world (approvalPhase polledCalls polledRun.log) 0 .approved ∧
      KnownApproval polledCalls [] polledRun.log 0 := by
  have hreach : Pool.Reach approvalService (NoClash polledCalls)
      (approvalStart listingDigest polledCalls [] 0) polledRun :=
    Pool.reach_play_of_admits _ _ (by decide +kernel)
  obtain ⟨w, hw, hid, hresult⟩ : ∃ w, polledRun.world.waits[0]? = some w ∧ w.requestId = 0 ∧
      w.result = some { status := .approved, approvedBy := some "user-1" } :=
    ⟨⟨0, false, false, some { status := .approved, approvedBy := some "user-1" }⟩, rfl, rfl, rfl⟩
  have hmem := List.mem_of_getElem? hw
  rw [← hid]
  exact ⟨((approval_resolutions_final.1 hreach).2 w hmem).2 _ hresult,
    approval_resolutions_final.2 (Pool.reach_play _ _) w hmem _ hresult rfl⟩

/-- The command waits and is approved, and its timeout fires before the next tick. -/
def lateCalls : Fin 3 → ApprovalCall
  | 0 => listingCall
  | 1 => .approve 0 "user-1" none
  | 2 => .timeout 0

/-- The run up to the report of the approval. -/
def approvedRun : ApprovalConfig (Fin 3) :=
  Pool.play approvalService [(0, 3), (1, 3)] (approvalStart listingDigest lateCalls [] 0)

/-- The rest of the run: the timeout, whose timer the report has not cleared. -/
def lateRun : ApprovalConfig (Fin 3) := Pool.play approvalService [(2, 2)] approvedRun

/-- **A late timeout turns a stored approval into an expiry.** The wait has been told of the
approval, the status changes again after it, and all three threads are through. -/
theorem late_timeout_expires_approval :
    Pool.Reach approvalService Pool.anyStep (approvalStart listingDigest lateCalls [] 0)
        approvedRun ∧
      Pool.Reach approvalService Pool.anyStep approvedRun lateRun ∧
      approvedRun.world.statusOf 0 = some .approved ∧ lateRun.world.statusOf 0 = some .expired ∧
      (lateRun.world.waits.map fun w => w.result) =
        [some { status := .approved, approvedBy := some "user-1" }] ∧
      ∀ t, (lateRun.threads t).isRunning = false :=
  ⟨Pool.reach_play _ _, Pool.reach_play _ _, by decide +kernel, by decide +kernel,
    by decide +kernel, by decide +kernel⟩

end Nexus
