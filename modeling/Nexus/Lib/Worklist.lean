import Mathlib.Data.List.Perm.Subperm

/-!
# Worklist traversals

A traversal takes nodes off a queue, each once, and puts what a taken node lists at the end. Whether
a node is taken and what it lists may depend on a state that taking a node changes. The file has the
loop and its rule (`run_spec`): when the state always answers as a fixed graph would for the nodes
that are not taken yet (`Follows`), the traversal ends, and it has taken exactly the nodes that a
chain of accepted nodes reaches from the first one, each once.
-/

set_option autoImplicit false

namespace Nexus

variable {α σ : Type}

/-- The nodes that a chain of accepted nodes reaches from a node, itself among them. -/
inductive Chained (accepts : α → Prop) (edge : α → α → Prop) (root : α) : α → Prop
  | root : accepts root → Chained accepts edge root root
  | step {x y : α} : Chained accepts edge root x → edge x y → accepts y →
      Chained accepts edge root y

theorem Chained.accepts {accepts : α → Prop} {edge : α → α → Prop} {root x : α}
    (h : Chained accepts edge root x) : accepts x := by
  cases h with
  | root hr => exact hr
  | step _ _ hy => exact hy

/-- What a traversal does with a node: `visit` takes it or skips it, `next` lists what follows a
node that was taken. -/
structure Traversal (α σ : Type) where
  visit : α → σ → Option σ
  next : α → σ → List α

namespace Traversal

variable (T : Traversal α σ)

section Loop

variable [DecidableEq α]

/-- The loop over the queue. -/
def run : Nat → List α → List α → σ → Option σ
  | 0, _, _, _ => none
  | _ + 1, [], _, s => some s
  | fuel + 1, x :: queue, visited, s =>
      if x ∈ visited then run fuel queue visited s
      else
        match T.visit x s with
        | none => run fuel queue (x :: visited) s
        | some s' =>
            run fuel (queue ++ (T.next x s').filter (· ∉ x :: visited)) (x :: visited) s'

/-- More fuel does not change a run that ends. -/
theorem run_of_le {fuel fuel' : Nat} (hle : fuel ≤ fuel') {queue visited : List α} {s s' : σ}
    (h : T.run fuel queue visited s = some s') : T.run fuel' queue visited s = some s' := by
  induction fuel generalizing fuel' queue visited s with
  | zero => cases h
  | succ fuel ih =>
      obtain ⟨more, rfl⟩ : ∃ more, fuel' = more + 1 := ⟨fuel' - 1, by omega⟩
      have hle' : fuel ≤ more := by omega
      cases queue with
      | nil => exact h
      | cons x queue =>
          rw [run] at h ⊢
          split at h
          · rename_i hx
            rw [if_pos hx]
            exact ih hle' h
          · rename_i hx
            rw [if_neg hx]
            split at h
            · exact ih hle' h
            · exact ih hle' h

end Loop

/-- The states of a traversal answer as a graph does. `Taken done s` says that `s` is the state
after the nodes `done` were taken, the last one first. -/
structure Follows (accepts : α → Prop) (edge : α → α → Prop) (Taken : List α → σ → Prop) :
    Prop where
  skips : ∀ {done s x}, Taken done s → x ∉ done → T.visit x s = none → ¬ accepts x
  takes : ∀ {done s x s'}, Taken done s → x ∉ done → T.visit x s = some s' →
    accepts x ∧ Taken (x :: done) s'
  edge_of_next : ∀ {done s x y}, Taken done s → x ∈ done → y ∈ T.next x s → edge x y
  next_of_edge : ∀ {done s x y}, Taken done s → x ∈ done → edge x y → accepts y →
    y ∈ done ∨ y ∈ T.next x s

/-- The invariant of the loop. -/
structure Walk (accepts : α → Prop) (edge : α → α → Prop) (root : α)
    (queue visited done : List α) : Prop where
  nodup : done.Nodup
  seen : ∀ x ∈ done, x ∈ visited
  sound : ∀ x ∈ done, Chained accepts edge root x
  queued : ∀ x ∈ queue, accepts x → Chained accepts edge root x
  covers : root ∈ visited ∨ root ∈ queue
  taken : ∀ x ∈ visited, accepts x → x ∈ done
  closed : ∀ x ∈ done, ∀ y, edge x y → accepts y → y ∈ visited ∨ y ∈ queue

section Rule

variable {T} {accepts : α → Prop} {edge : α → α → Prop} {root : α}

theorem Walk.start (root : α) : Walk accepts edge root [root] [] [] where
  nodup := List.nodup_nil
  seen := fun _ hx => absurd hx List.not_mem_nil
  sound := fun _ hx => absurd hx List.not_mem_nil
  queued := by
    intro x hx haccepts
    rw [List.mem_singleton] at hx
    subst hx
    exact .root haccepts
  covers := .inr List.mem_cons_self
  taken := fun _ hx => absurd hx List.not_mem_nil
  closed := fun _ hx => absurd hx List.not_mem_nil

variable {queue visited done : List α} {x : α}

/-- A node that was visited before leaves the queue. -/
theorem Walk.again (h : Walk accepts edge root (x :: queue) visited done) (hx : x ∈ visited) :
    Walk accepts edge root queue visited done where
  nodup := h.nodup
  seen := h.seen
  sound := h.sound
  queued := fun y hy => h.queued y (List.mem_cons_of_mem x hy)
  covers := by
    rcases h.covers with hr | hr
    · exact .inl hr
    · rcases List.mem_cons.mp hr with rfl | hr
      · exact .inl hx
      · exact .inr hr
  taken := h.taken
  closed := by
    intro y hy z hedge hz
    rcases h.closed y hy z hedge hz with hv | hq
    · exact .inl hv
    · rcases List.mem_cons.mp hq with rfl | hq
      · exact .inl hx
      · exact .inr hq

/-- A node that is not accepted is visited and left out. -/
theorem Walk.skip (h : Walk accepts edge root (x :: queue) visited done) (hx : ¬ accepts x) :
    Walk accepts edge root queue (x :: visited) done := by
  have hmore : Walk accepts edge root (x :: queue) (x :: visited) done := by
    refine ⟨h.nodup, fun y hy => List.mem_cons_of_mem x (h.seen y hy), h.sound, h.queued, ?_,
      fun y hy haccepts => ?_, fun y hy z hedge hz => ?_⟩
    · exact h.covers.imp_left (List.mem_cons_of_mem x)
    · rcases List.mem_cons.mp hy with rfl | hy
      · exact absurd haccepts hx
      · exact h.taken y hy haccepts
    · exact (h.closed y hy z hedge hz).imp_left (List.mem_cons_of_mem x)
  exact hmore.again List.mem_cons_self

/-- With the queue used up the taken nodes are the chained ones. -/
theorem Walk.complete (h : Walk accepts edge root [] visited done) :
    ∀ y, y ∈ done ↔ Chained accepts edge root y := by
  refine fun y => ⟨h.sound y, fun hy => ?_⟩
  induction hy with
  | root hr => exact h.taken root (h.covers.resolve_right List.not_mem_nil) hr
  | step _ hedge hz ih =>
      exact h.taken _ ((h.closed _ ih _ hedge hz).resolve_right List.not_mem_nil) hz

variable [DecidableEq α]

/-- A node that is accepted is taken, and what it lists is queued. -/
theorem Walk.take (h : Walk accepts edge root (x :: queue) visited done) (hx : x ∉ visited)
    (haccepts : accepts x) {more : List α} (hedge : ∀ y ∈ more, edge x y)
    (hmore : ∀ y, edge x y → accepts y → y ∈ x :: done ∨ y ∈ more) :
    Walk accepts edge root (queue ++ more.filter (· ∉ x :: visited)) (x :: visited)
      (x :: done) := by
  have hchained : Chained accepts edge root x := h.queued x List.mem_cons_self haccepts
  -- what was known of the nodes before, with the queue extended and `x` among the visited
  have hkeep : ∀ y, y ∈ visited ∨ y ∈ x :: queue →
      y ∈ x :: visited ∨ y ∈ queue ++ more.filter (· ∉ x :: visited) := by
    rintro y (hv | hq)
    · exact .inl (List.mem_cons_of_mem x hv)
    · rcases List.mem_cons.mp hq with rfl | hq
      · exact .inl List.mem_cons_self
      · exact .inr (List.mem_append_left _ hq)
  refine ⟨?_, fun y hy => ?_, fun y hy => ?_, fun y hy hacc => ?_, hkeep root h.covers,
    fun y hy hacc => ?_, fun y hy z hedge' hz => ?_⟩
  · exact List.nodup_cons.mpr ⟨fun hd => hx (h.seen x hd), h.nodup⟩
  · rcases List.mem_cons.mp hy with rfl | hy
    · exact List.mem_cons_self
    · exact List.mem_cons_of_mem x (h.seen y hy)
  · rcases List.mem_cons.mp hy with rfl | hy
    · exact hchained
    · exact h.sound y hy
  · rcases List.mem_append.mp hy with hy | hy
    · exact h.queued y (List.mem_cons_of_mem x hy) hacc
    · exact .step hchained (hedge y (List.mem_filter.mp hy).1) hacc
  · rcases List.mem_cons.mp hy with rfl | hy
    · exact List.mem_cons_self
    · exact List.mem_cons_of_mem x (h.taken y hy hacc)
  · rcases List.mem_cons.mp hy with rfl | hy
    · rcases hmore z hedge' hz with hd | hm
      · rcases List.mem_cons.mp hd with rfl | hd
        · exact .inl List.mem_cons_self
        · exact .inl (List.mem_cons_of_mem _ (h.seen z hd))
      · by_cases hz' : z ∈ y :: visited
        · exact .inl hz'
        · exact .inr (List.mem_append_right _ (List.mem_filter.mpr ⟨hm, by simpa using hz'⟩))
    · exact hkeep z (h.closed y hy z hedge' hz)

variable {Taken : List α → σ → Prop}

/-- **The rule of traversals.** Over a finite set of nodes and with bounded lists, the traversal
ends in a state after exactly the chained nodes were taken, each once. -/
theorem run_walk (hT : T.Follows accepts edge Taken) {nodes : List α} {width : Nat}
    (hnodes : ∀ x, accepts x → x ∈ nodes)
    (hwidth : ∀ {done s x}, Taken done s → (T.next x s).length ≤ width) (fuel : Nat) :
    ∀ {queue visited done : List α} {s : σ}, Taken done s →
      Walk accepts edge root queue visited done →
      queue.length + (nodes.length - done.length) * width < fuel →
      ∃ done' s', T.run fuel queue visited s = some s' ∧ Taken done' s' ∧ done'.Nodup ∧
        ∀ y, y ∈ done' ↔ Chained accepts edge root y := by
  induction fuel with
  | zero => exact fun _ _ h => absurd h (Nat.not_lt_zero _)
  | succ fuel ih =>
      intro queue visited done s hs hwalk hfuel
      cases queue with
      | nil => exact ⟨done, s, rfl, hs, hwalk.nodup, hwalk.complete⟩
      | cons x queue =>
          rw [List.length_cons] at hfuel
          rw [run]
          by_cases hx : x ∈ visited
          · rw [if_pos hx]
            exact ih hs (hwalk.again hx) (by omega)
          have hdone : x ∉ done := fun hd => hx (hwalk.seen x hd)
          rw [if_neg hx]
          cases hv : T.visit x s with
          | none => exact ih hs (hwalk.skip (hT.skips hs hdone hv)) (by omega)
          | some s' =>
              obtain ⟨haccepts, hs'⟩ := hT.takes hs hdone hv
              have htaken := hwalk.take hx haccepts
                (fun y => hT.edge_of_next hs' List.mem_cons_self)
                fun y => hT.next_of_edge hs' List.mem_cons_self
              refine ih hs' htaken ?_
              -- one node fewer to take pays for the list of the node
              have hlen : (x :: done).length ≤ nodes.length :=
                (List.subperm_of_subset htaken.nodup
                  fun y hy => hnodes y (htaken.sound y hy).accepts).length_le
              have hfilter := List.length_filter_le (fun y => decide (y ∉ x :: visited))
                (T.next x s')
              have hnext := hwidth (x := x) hs'
              rw [List.length_cons] at hlen ⊢
              have hgap : nodes.length - done.length = nodes.length - (done.length + 1) + 1 := by
                omega
              rw [hgap, Nat.add_mul, Nat.one_mul] at hfuel
              rw [List.length_append]
              omega

end Rule

end Traversal

end Nexus
