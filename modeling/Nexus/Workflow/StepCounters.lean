import Nexus.Workflow.ArrayLiterals
import Nexus.Workflow.StepExecution

/-!
# The counters of the steps

`setNestedValue` writes a field of a step at a dotted key that is split at its dots, `getLoopCount`
reads the counter at a list of names. Both agree for a step whose id and whose job's id have no dot,
when no array is on the way (`Counted`); the counter of such a step is what was written last. The
counter of any other step is never written: it stays what the run's variables held at first.
-/

set_option autoImplicit false

namespace Nexus

namespace StepExecutionService

/-! ## Assignments -/

/-- No array is on the way to the value of a path. -/
def Assignable : List String → Json → Prop
  | [], _ => True
  | _ :: _, .arr _ => False
  | key :: path, .obj fields => ∀ c, OrderedMap.get? fields key = some c → Assignable path c
  | _ :: _, _ => True

theorem assignable_empty (path : List String) : Assignable path .empty := by
  cases path with
  | nil => exact trivial
  | cons key path =>
      intro c hc
      simp at hc

variable {path : List String}

theorem Assignable.objectOrEmpty {value : Option Json}
    (h : ∀ c, value = some c → Assignable path c) :
    Assignable path (objectOrEmpty value) := by
  cases value with
  | none => exact assignable_empty path
  | some c =>
      cases c with
      | obj fields => exact h _ rfl
      | arr xs => exact h _ rfl
      | _ => exact assignable_empty path

/-- Below a name, the read of what an assignment goes on with is the read of what is there. -/
theorem getNested_objectOrEmpty (hne : path ≠ []) (value : Option Json) :
    (objectOrEmpty value).getNested path = value.bind fun c => c.getNested path := by
  cases path with
  | nil => exact absurd rfl hne
  | cons key path =>
      cases value with
      | none => rfl
      | some c => cases c <;> rfl

theorem setNestedValue_obj (path : List String) (value : Json) (fields : List (String × Json)) :
    ∃ fields', setNestedValue path value (.obj fields) = .obj fields' := by
  match path with
  | [] => exact ⟨fields, rfl⟩
  | [key] => exact ⟨_, rfl⟩
  | key :: key' :: path => exact ⟨_, rfl⟩

theorem objectOrEmpty_cases (value : Option Json) :
    (∃ fields, objectOrEmpty value = .obj fields) ∨ ∃ xs, objectOrEmpty value = .arr xs := by
  cases value with
  | none => exact Or.inl ⟨[], rfl⟩
  | some c =>
      cases c with
      | obj fields => exact Or.inl ⟨fields, rfl⟩
      | arr xs => exact Or.inr ⟨xs, rfl⟩
      | _ => exact Or.inl ⟨[], rfl⟩

/-- A value assigned is read back when no array is on the way. -/
theorem getNested_setNestedValue_self (value : Json) :
    ∀ (path : List String) (fields : List (String × Json)), path ≠ [] →
      Assignable path (.obj fields) →
      (setNestedValue path value (.obj fields)).getNested path = some value
  | [], _, hne, _ => absurd rfl hne
  | [key], fields, _, _ => by simp [setNestedValue, Json.getNested]
  | key :: key' :: path, fields, _, h => by
      simp only [setNestedValue, Json.getNested, OrderedMap.get?_set_self]
      have hchild : Assignable (key' :: path) (objectOrEmpty (OrderedMap.get? fields key)) :=
        Assignable.objectOrEmpty h
      rcases objectOrEmpty_cases (OrderedMap.get? fields key) with ⟨f, hf⟩ | ⟨xs, hxs⟩
      · rw [hf] at hchild ⊢
        exact getNested_setNestedValue_self value (key' :: path) f (by simp) hchild
      · rw [hxs] at hchild
        exact hchild.elim

/-- An assignment is not seen on a path that diverges from it. -/
theorem getNested_setNestedValue_of_diverge (value : Json) :
    ∀ (p q : List String) (t : Json), Json.Diverge p q →
      (setNestedValue p value t).getNested q = t.getNested q
  | [], _, _, h => absurd List.nil_prefix h.1
  | _ :: _, [], _, h => absurd List.nil_prefix h.2
  | [key], key' :: q, t, h => by
      have hne : key ≠ key' := by
        rintro rfl
        exact h.1 ((List.prefix_cons_inj key).2 List.nil_prefix)
      cases t with
      | obj fields =>
          simp only [setNestedValue, Json.getNested, OrderedMap.get?_set_of_ne _ _ hne]
      | _ => rfl
  | key :: key₂ :: p, key' :: q, t, h => by
      cases t with
      | obj fields =>
          by_cases hkey : key = key'
          · subst hkey
            have hrest := h.tail
            have hq : q ≠ [] := by
              rintro rfl
              exact hrest.2 List.nil_prefix
            simp only [setNestedValue, Json.getNested, OrderedMap.get?_set_self]
            rw [getNested_setNestedValue_of_diverge value (key₂ :: p) q _ hrest,
              getNested_objectOrEmpty hq]
            cases OrderedMap.get? fields key <;> rfl
          · simp only [setNestedValue, Json.getNested, OrderedMap.get?_set_of_ne _ _ hkey]
      | _ => rfl

/-- An assignment at the path itself, or at one that diverges from it, keeps arrays off the way. -/
theorem assignable_setNestedValue (value : Json) :
    ∀ (p q : List String) (t : Json), p = q ∨ Json.Diverge p q → Assignable q t →
      Assignable q (setNestedValue p value t)
  | [], q, _, hpq, _ => by
      rcases hpq with rfl | h
      · exact trivial
      · exact absurd List.nil_prefix h.1
  | _ :: _, [], _, _, _ => trivial
  | [key], key' :: q, .obj fields, hpq, hq => by
      intro c hc
      rcases hpq with h | h
      · obtain rfl : [] = q := (List.cons.inj h).2
        exact trivial
      · have hne : key ≠ key' := by
          rintro rfl
          exact h.1 ((List.prefix_cons_inj key).2 List.nil_prefix)
        rw [OrderedMap.get?_set_of_ne _ _ hne] at hc
        exact hq c hc
  | key :: key₂ :: p, key' :: q, .obj fields, hpq, hq => by
      intro c hc
      by_cases hkey : key = key'
      · subst hkey
        rw [OrderedMap.get?_set_self, Option.some.injEq] at hc
        subst hc
        have hrest : key₂ :: p = q ∨ Json.Diverge (key₂ :: p) q := by
          rcases hpq with h | h
          · exact Or.inl (List.cons.inj h).2
          · exact Or.inr h.tail
        exact assignable_setNestedValue value _ q _ hrest (Assignable.objectOrEmpty hq)
      · rw [OrderedMap.get?_set_of_ne _ _ hkey] at hc
        exact hq c hc
  | _ :: _, _ :: _, .arr _, _, hq => hq.elim
  | [_], _ :: _, .null, _, hq => hq
  | _ :: _ :: _, _ :: _, .null, _, hq => hq
  | [_], _ :: _, .bool _, _, hq => hq
  | _ :: _ :: _, _ :: _, .bool _, _, hq => hq
  | [_], _ :: _, .num _, _, hq => hq
  | _ :: _ :: _, _ :: _, .num _, _, hq => hq
  | [_], _ :: _, .str _, _, hq => hq
  | _ :: _ :: _, _ :: _, .str _, _, hq => hq

/-- What is at the first name of a path with an array on its way is no scalar. -/
theorem not_assignable_child {key : String} {fields : List (String × Json)}
    (h : ¬ Assignable (key :: path) (.obj fields)) :
    ∃ c, OrderedMap.get? fields key = some c ∧ ¬ Assignable path c ∧
      objectOrEmpty (some c) = c := by
  simp only [Assignable, not_forall] at h
  obtain ⟨c, hc, hnot⟩ := h
  refine ⟨c, hc, hnot, ?_⟩
  cases path with
  | nil => exact absurd trivial hnot
  | cons key' path =>
      cases c with
      | obj f => rfl
      | arr xs => rfl
      | _ => exact absurd trivial hnot

/-- An assignment that is not shorter than a path leaves an array on its way. -/
theorem not_assignable_setNestedValue (value : Json) :
    ∀ (p q : List String) (t : Json), q.length ≤ p.length → ¬ Assignable q t →
      ¬ Assignable q (setNestedValue p value t)
  | _, [], _, _, h => absurd trivial h
  | [], _ :: _, _, hlength, _ => by simp at hlength
  | [key], key' :: q, .obj fields, hlength, h => by
      obtain ⟨c, -, hnot, -⟩ := not_assignable_child h
      have hq : q = [] := by simpa using hlength
      subst hq
      exact absurd trivial hnot
  | key :: key₂ :: p, key' :: q, .obj fields, hlength, h => by
      obtain ⟨c, hc, hnot, hobject⟩ := not_assignable_child h
      intro hset
      by_cases hkey : key = key'
      · subst hkey
        have hchild := hset _ (OrderedMap.get?_set_self _ _ _)
        rw [hc, hobject] at hchild
        exact not_assignable_setNestedValue value (key₂ :: p) q c (by simpa using hlength) hnot
          hchild
      · apply hnot
        apply hset c
        rw [OrderedMap.get?_set_of_ne _ _ hkey, hc]
  | [_], _ :: _, .arr _, _, h => h
  | _ :: _ :: _, _ :: _, .arr _, _, h => h
  | _, _ :: _, .null, _, h => absurd trivial h
  | _, _ :: _, .bool _, _, h => absurd trivial h
  | _, _ :: _, .num _, _, h => absurd trivial h
  | _, _ :: _, .str _, _, h => absurd trivial h

theorem getNested_of_not_assignable :
    ∀ (q : List String) (t : Json), ¬ Assignable q t → t.getNested q = none
  | [], _, h => absurd trivial h
  | key :: q, t, h => by
      cases t with
      | obj fields =>
          obtain ⟨c, hc, hnot, -⟩ := not_assignable_child h
          simp only [Json.getNested, hc]
          exact getNested_of_not_assignable q c hnot
      | _ => rfl

/-! ## Fields of steps -/

/-- The names at which the counter of a step is read. -/
def counterPath (jobId stepId : String) : List String :=
  ["jobs", jobId, "steps", stepId, "loop_count"]

/-- The counter of a step is read where it is written: no dot is in the ids, and no array is on the
way to the counter. -/
structure Counted (jobId stepId : String) (state : Json) : Prop where
  jobNoDot : '.' ∉ jobId.toList
  stepNoDot : '.' ∉ stepId.toList
  assignable : Assignable (counterPath jobId stepId) state

variable {field jobId stepId : String}

/-- A field of a step is at its names when the ids have no dot. -/
theorem splitDots_stepFieldPath (hjob : '.' ∉ jobId.toList) (hstep : '.' ∉ stepId.toList)
    (hfield : '.' ∉ field.toList) :
    splitDots (stepFieldPath jobId stepId field) = ["jobs", jobId, "steps", stepId, field] := by
  apply splitDots_dotted (by simp)
  have hjobs : '.' ∉ "jobs".toList := by decide
  have hsteps : '.' ∉ "steps".toList := by decide
  simp only [List.mem_cons, List.not_mem_nil, or_false]
  rintro s (rfl | rfl | rfl | rfl | rfl) <;> assumption

/-- A key is split at the dots between what it was made of, and inside. -/
theorem splitDots_dotted_cons (s s' : String) (segments : List String) :
    splitDots (dotted (s :: s' :: segments)) =
      splitDots s ++ splitDots (dotted (s' :: segments)) := by
  simp only [splitDots, dotted, String.toList_ofList, List.map_cons,
    List.intercalate_cons_cons, List.append_assoc, List.singleton_append,
    Parts.splitOn_append_sep, List.map_append]

/-- A key has as many parts as it was made of at least. -/
theorem length_le_splitDots_dotted (segments : List String) :
    segments.length ≤ (splitDots (dotted segments)).length := by
  have hpos : ∀ s : String, 1 ≤ (splitDots s).length := fun s => by
    rw [splitDots, List.length_map]
    exact List.length_pos_iff.2 (List.splitOn_ne_nil _ _)
  induction segments with
  | nil => exact Nat.zero_le _
  | cons s segments ih =>
      cases segments with
      | nil => exact hpos _
      | cons s' segments =>
          have hfirst := hpos s
          rw [splitDots_dotted_cons, List.length_append, List.length_cons]
          omega

/-- A name with a dot is in no split key, so a path with such a name diverges from every key that is
as long. -/
theorem diverge_of_dot {p q : List String} (hp : ∀ s ∈ p, '.' ∉ s.toList)
    (hq : ∃ s ∈ q, '.' ∈ s.toList) (hlength : q.length ≤ p.length) : Json.Diverge p q := by
  obtain ⟨s, hs, hdot⟩ := hq
  constructor
  · intro hpq
    have heq := hpq.eq_of_length (Nat.le_antisymm hpq.length_le hlength)
    exact hp s (heq ▸ hs) hdot
  · intro hqp
    exact hp s (hqp.subset hs) hdot

/-- The fields of the steps are written elsewhere than a counter is read that is not counted. -/
theorem getLoopCount_of_not_counted {state : Json} (h : ¬ Counted jobId stepId state)
    (stepId' field : String) (value : Json) :
    getLoopCount (setNestedValue (splitDots (stepFieldPath jobId stepId' field)) value state)
      jobId stepId = getLoopCount state jobId stepId ∧
    ¬ Counted jobId stepId
      (setNestedValue (splitDots (stepFieldPath jobId stepId' field)) value state) := by
  have hlength : (counterPath jobId stepId).length ≤
      (splitDots (stepFieldPath jobId stepId' field)).length :=
    length_le_splitDots_dotted ["jobs", jobId, "steps", stepId', field]
  by_cases hdot : '.' ∈ jobId.toList ∨ '.' ∈ stepId.toList
  · have hdiverge : Json.Diverge (splitDots (stepFieldPath jobId stepId' field))
        (counterPath jobId stepId) := by
      apply diverge_of_dot (dot_notMem_splitDots _) _ hlength
      rcases hdot with hdot | hdot
      · exact ⟨jobId, by simp [counterPath], hdot⟩
      · exact ⟨stepId, by simp [counterPath], hdot⟩
    have hread := getNested_setNestedValue_of_diverge value _ _ state hdiverge
    rw [counterPath] at hread
    refine ⟨by rw [getLoopCount, hread, getLoopCount], fun hcounted => ?_⟩
    rcases hdot with hdot | hdot
    · exact hcounted.jobNoDot hdot
    · exact hcounted.stepNoDot hdot
  · rw [not_or] at hdot
    have harray : ¬ Assignable (counterPath jobId stepId) state :=
      fun hassignable => h ⟨hdot.1, hdot.2, hassignable⟩
    have harray' := not_assignable_setNestedValue value _ _ state hlength harray
    have hread := getNested_of_not_assignable _ _ harray
    have hread' := getNested_of_not_assignable _ _ harray'
    rw [counterPath] at hread hread'
    exact ⟨by rw [getLoopCount, hread', getLoopCount, hread],
      fun hcounted => harray' hcounted.assignable⟩

/-- Two steps of a job without a dot in its id have their fields apart. -/
theorem diverge_stepField {stepId' field' : String} (h : stepId ≠ stepId' ∨ field ≠ field') :
    Json.Diverge ["jobs", jobId, "steps", stepId, field]
      ["jobs", jobId, "steps", stepId', field'] := by
  simp only [Json.Diverge, List.cons_prefix_cons, List.prefix_rfl, true_and, and_true]
  rcases h with h | h
  · exact ⟨fun heq => h heq.1, fun heq => h heq.1.symm⟩
  · exact ⟨fun heq => h heq.2, fun heq => h heq.2.symm⟩

/-- A field that is no counter, or is the one of another step, leaves a counter as it is. -/
theorem getLoopCount_of_other {stepId' : String} {state : Json} (h : Counted jobId stepId state)
    (hstep : '.' ∉ stepId'.toList) (hfield : '.' ∉ field.toList)
    (hother : stepId' ≠ stepId ∨ field ≠ "loop_count") (value : Json) :
    getLoopCount (setNestedValue (splitDots (stepFieldPath jobId stepId' field)) value state)
      jobId stepId = getLoopCount state jobId stepId ∧
    Counted jobId stepId
      (setNestedValue (splitDots (stepFieldPath jobId stepId' field)) value state) := by
  rw [splitDots_stepFieldPath h.jobNoDot hstep hfield]
  have hdiverge : Json.Diverge ["jobs", jobId, "steps", stepId', field]
      (counterPath jobId stepId) := diverge_stepField hother
  have hread := getNested_setNestedValue_of_diverge value _ _ state hdiverge
  rw [counterPath] at hread
  exact ⟨by rw [getLoopCount, hread, getLoopCount], h.jobNoDot, h.stepNoDot,
    assignable_setNestedValue value _ _ state (Or.inr hdiverge) h.assignable⟩

/-- The counter written is the counter read. -/
theorem getLoopCount_of_counter {fields : List (String × Json)}
    (h : Counted jobId stepId (.obj fields)) (n : Int) :
    getLoopCount (setNestedValue (splitDots (stepFieldPath jobId stepId "loop_count")) (.num n)
      (.obj fields)) jobId stepId = n ∧
    Counted jobId stepId
      (setNestedValue (splitDots (stepFieldPath jobId stepId "loop_count")) (.num n)
        (.obj fields)) := by
  rw [splitDots_stepFieldPath h.jobNoDot h.stepNoDot (by decide)]
  have hread := getNested_setNestedValue_self (.num n) (counterPath jobId stepId) fields
    (by simp [counterPath]) h.assignable
  rw [counterPath] at hread
  exact ⟨by rw [getLoopCount, hread], h.jobNoDot, h.stepNoDot,
    assignable_setNestedValue _ _ _ _ (Or.inl rfl) h.assignable⟩

end StepExecutionService

end Nexus
