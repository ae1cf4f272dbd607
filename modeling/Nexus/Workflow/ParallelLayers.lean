import Mathlib.Data.List.Perm.Lattice
import Mathlib.Logic.Relation
import Nexus.Workflow.DagFacts

/-!
# Parallel layers

What `buildDependencyGraph` rejects, exactly, and what `findParallelJobs` makes of the rest. A list
of jobs is rejected for needs that do not normalise, for a need or a transition that names no job,
and for a cycle. The groups of an accepted list have no holes, hold every job once, and put a job
one past the last group of its dependencies.
-/

set_option autoImplicit false

namespace Nexus

/-! ## Needs that do not normalise -/

/-- The target an entry of `needs` names for a job. -/
def WorkflowNeed.target : WorkflowNeed → Option String
  | .id target => some target
  | .object job _ _ _ => job

/-- An entry that names no target, or a blank one. -/
def WorkflowNeed.isBlank (need : WorkflowNeed) : Bool :=
  !need.target.any isNonEmptyString

/-- The needs of a job are ill-formed: both spellings are given, or an entry is blank. -/
def IJob.illFormedNeeds (job : IJob) : Bool :=
  (job.needs.isSome && job.depends_on.isSome) || (job.needs.getD []).any WorkflowNeed.isBlank

theorem normalizeNeed_ok_iff {ownerId : String} {need : WorkflowNeed} :
    (∃ n, normalizeNeed ownerId .job need = .ok n) ↔ need.isBlank = false := by
  cases need with
  | id target =>
      by_cases h : isNonEmptyString target = true
      · simp [normalizeNeed, WorkflowNeed.isBlank, WorkflowNeed.target, h]
      · simp [normalizeNeed, WorkflowNeed.isBlank, WorkflowNeed.target, h]
  | object job step result optional =>
      cases job with
      | none => simp [normalizeNeed, WorkflowNeed.isBlank, WorkflowNeed.target]
      | some target =>
          by_cases h : isNonEmptyString target = true
          · simp [normalizeNeed, WorkflowNeed.isBlank, WorkflowNeed.target, h]
          · simp [normalizeNeed, WorkflowNeed.isBlank, WorkflowNeed.target, h]

theorem mapM_normalizeNeed_ok_iff (ownerId : String) (needs : List WorkflowNeed) :
    (∃ ns, needs.mapM (normalizeNeed ownerId .job) = .ok ns) ↔
      ∀ need ∈ needs, need.isBlank = false := by
  induction needs with
  | nil => simp [pure, Except.pure]
  | cons need needs ih =>
      rw [List.forall_mem_cons, ← ih, ← @normalizeNeed_ok_iff ownerId, List.mapM_cons]
      cases hn : normalizeNeed ownerId .job need with
      | error e => simp [bind, Except.bind]
      | ok n =>
          cases hm : needs.mapM (normalizeNeed ownerId .job) with
          | error e => simp [bind, Except.bind]
          | ok ns => simp [bind, Except.bind, pure, Except.pure]

/-- Needs normalise exactly when they are well-formed. -/
theorem normalizeWorkflowJobNeeds_ok_iff {job : IJob} :
    normalizeWorkflowJobNeeds job = .ok job.needList ↔ job.illFormedNeeds = false := by
  have hlist : normalizeWorkflowJobNeeds job = .ok job.needList ↔
      ∃ ns, normalizeWorkflowJobNeeds job = .ok ns := by
    constructor
    · exact fun h => ⟨_, h⟩
    · rintro ⟨ns, h⟩
      rw [IJob.needList, h]
  rw [hlist]
  unfold normalizeWorkflowJobNeeds normalizeWorkflowNeeds IJob.illFormedNeeds
  cases hneeds : job.needs with
  | none => simp
  | some needs =>
      cases hlegacy : job.depends_on with
      | none => simpa using mapM_normalizeNeed_ok_iff job.id needs
      | some legacy => simp

namespace DAGResolverService

/-! ## What is rejected -/

/-- A need or a transition of a job names no job of the list. -/
def namesUnknownJob (jobs : List IJob) : Bool :=
  jobs.any fun job => job.needIds.any (fun d => d ∉ jobs.map IJob.id) ||
    job.transitionList.any fun t => t.next ∉ jobs.map IJob.id

/-- A job of this id lists the other id among its needs. -/
def DependsOn (jobs : List IJob) (id dep : String) : Prop :=
  ∃ job ∈ jobs, job.id = id ∧ dep ∈ job.needIds

/-- A job depends on itself, over any number of needs. -/
def Cyclic (jobs : List IJob) : Prop := ∃ id, Relation.TransGen (DependsOn jobs) id id

/-- What `buildDependencyGraph` rejects. -/
def Rejected (jobs : List IJob) : Prop :=
  (∃ job ∈ jobs, job.illFormedNeeds = true) ∨ namesUnknownJob jobs = true ∨ Cyclic jobs

variable {jobs : List IJob}

theorem namesUnknownJob_eq_false :
    namesUnknownJob jobs = false ↔
      ∀ j ∈ jobs, (∀ d ∈ j.needIds, d ∈ jobs.map IJob.id) ∧
        ∀ t ∈ j.transitionList, t.next ∈ jobs.map IJob.id := by
  simp [namesUnknownJob]

/-- In the graph of the jobs the dependencies of a node are the needs of the job. -/
theorem mem_deps_jobGraph (hd : (jobs.map IJob.id).Nodup) {id dep : String} :
    dep ∈ deps (jobGraph jobs) id ↔ DependsOn jobs id dep := by
  constructor
  · intro h
    unfold deps at h
    cases hg : (jobGraph jobs).get? id with
    | none => simp [hg] at h
    | some ds =>
        rw [hg, Option.getD_some] at h
        obtain ⟨job, hj, he⟩ := List.mem_map.1 (OrderedMap.mem_of_get? hg)
        cases he
        exact ⟨job, hj, rfl, h⟩
  · rintro ⟨job, hj, rfl, hdep⟩
    rwa [deps_jobGraph hd hj]

/-! ### The search finds only cycles -/

/-- The outcome of a search from a node that every node on the stack reaches. -/
def Traced (graph : DependencyGraph) (s : CycleSearch) : Except CycleError CycleSearch → Prop
  | .ok s' => ∀ x ∈ s'.recursionStack, x ∈ s.recursionStack
  | .error (.circular _) => ∃ x, Relation.TransGen (fun y d => d ∈ deps graph y) x x
  | .error .outOfFuel => True

theorem traced_foldlM (graph : DependencyGraph)
    (step : CycleSearch → String → Except CycleError CycleSearch) (stack : List String)
    (ns : List String) :
    ∀ s : CycleSearch, (∀ s n, n ∈ ns → (∀ x ∈ s.recursionStack, x ∈ stack) →
        Traced graph s (step s n)) →
      (∀ x ∈ s.recursionStack, x ∈ stack) → Traced graph s (ns.foldlM step s) := by
  induction ns with
  | nil => exact fun s _ _ x hx => hx
  | cons n ns ih =>
      intro s hstep hs
      have hfirst := hstep s n List.mem_cons_self hs
      rw [List.foldlM_cons]
      cases h₁ : step s n with
      | error e =>
          rw [h₁] at hfirst
          exact hfirst
      | ok s₁ =>
          rw [h₁] at hfirst
          have hrest := ih s₁ (fun s n hn => hstep s n (List.mem_cons_of_mem _ hn))
            fun x hx => hs x (hfirst x hx)
          simp only [bind, Except.bind]
          cases h₂ : ns.foldlM step s₁ with
          | error e =>
              rw [h₂] at hrest
              cases e with
              | circular jobId => exact hrest
              | outOfFuel => trivial
          | ok s₂ =>
              rw [h₂] at hrest
              exact fun x hx => hfirst x (hrest x hx)

variable {graph : DependencyGraph}

/-- A neighbour on the stack closes a cycle: the stack reaches the node, and the node the
neighbour. -/
theorem dfs_traced (fuel : Nat) :
    ∀ (node : String) (s : CycleSearch),
      (∀ x ∈ s.recursionStack, Relation.TransGen (fun y d => d ∈ deps graph y) x node) →
      Traced graph s (dfs graph fuel node s) := by
  induction fuel with
  | zero => exact fun _ _ _ => trivial
  | succ fuel ih =>
      intro node s hstack
      -- what is on the stack reaches every neighbour of the node
      have hreach : ∀ n ∈ deps graph node, ∀ x ∈ node :: s.recursionStack,
          Relation.TransGen (fun y d => d ∈ deps graph y) x n := by
        intro n hn x hx
        rcases List.mem_cons.1 hx with rfl | hx
        · exact .single hn
        · exact (hstack x hx).tail hn
      have hfold := traced_foldlM graph
        (fun s neighbor =>
          if neighbor ∉ s.visited then dfs graph fuel neighbor s
          else if neighbor ∈ s.recursionStack then .error (.circular neighbor)
          else .ok s)
        (node :: s.recursionStack) (deps graph node) ⟨node :: s.visited, node :: s.recursionStack⟩
        (by
          intro s₀ n hn hs₀
          split
          · exact ih n s₀ fun x hx => hreach n hn x (hs₀ x hx)
          · split
            · rename_i hmem
              exact ⟨n, hreach n hn n (hs₀ n hmem)⟩
            · exact fun _ hx => hx)
        fun _ hx => hx
      rw [dfs]
      simp only [bind, Except.bind]
      unfold deps at hfold
      split
      · rename_i e he
        rw [he] at hfold
        cases e with
        | circular jobId => exact hfold
        | outOfFuel => trivial
      · rename_i left hleft
        rw [hleft] at hfold
        intro x hx
        obtain ⟨hx, hne⟩ := List.mem_filter.1 hx
        exact (List.mem_cons.1 (hfold x hx)).resolve_left (by simpa using hne)

/-- A graph without a cycle is accepted. -/
theorem detectCycles_of_acyclic (h : ∀ x, ¬ Relation.TransGen (fun y d => d ∈ deps graph y) x x) :
    detectCycles graph = .ok () := by
  have htraced := traced_foldlM graph
    (fun s node => if node ∉ s.visited then dfs graph (size graph) node s else .ok s)
    [] graph.keys ⟨[], []⟩
    (by
      intro s n _ hs
      split
      · exact dfs_traced _ n s fun x hx => absurd (hs x hx) List.not_mem_nil
      · exact fun _ hx => hx)
    fun _ hx => hx
  have hfuel := detectCycles_not_outOfFuel graph
  unfold detectCycles
  unfold searchCycles at hfuel ⊢
  split
  · rfl
  · rename_i jobId he
    rw [he] at htraced
    obtain ⟨x, hx⟩ := htraced
    exact absurd hx (h x)
  · rename_i he
    exact absurd he hfuel

/-- The graph of jobs whose needs normalise and name jobs is built. -/
theorem foldlM_addJob_of_known (jobIds : List String) (jobs : List IJob) :
    ∀ graph : DependencyGraph, (∀ j ∈ jobs, normalizeWorkflowJobNeeds j = .ok j.needList ∧
        ∀ d ∈ j.needIds, d ∈ jobIds) →
      ∃ graph', jobs.foldlM (addJob jobIds) graph = .ok graph' := by
  induction jobs with
  | nil => exact fun graph _ => ⟨graph, rfl⟩
  | cons j jobs ih =>
      intro graph h
      obtain ⟨hneeds, hknown⟩ := h j List.mem_cons_self
      have hnone : (j.needList.map NormalizedWorkflowNeed.id).find? (fun dep => dep ∉ jobIds) =
          none := by
        rw [List.find?_eq_none]
        intro d hdep
        simpa using hknown d hdep
      have hadd : addJob jobIds graph j = .ok (graph.set j.id j.needIds) := by
        simp only [addJob, hneeds, bind, Except.bind, hnone]
        rfl
      rw [List.foldlM_cons, hadd]
      exact ih _ fun j' hj' => h j' (List.mem_cons_of_mem _ hj')

/-- No element below which a relation is well-founded is related to itself. -/
theorem not_self_of_acc {α : Type} {r : α → α → Prop} {x : α} (h : Acc r x) : ¬ r x x := by
  induction h with
  | intro x _ ih => exact fun hx => ih x hx hx

/-- **What is accepted.** Exactly the lists that are not rejected. -/
theorem buildDependencyGraph_error_iff (hd : (jobs.map IJob.id).Nodup) :
    (∃ message, buildDependencyGraph jobs = .error message) ↔ Rejected jobs := by
  constructor
  · rintro ⟨message, herror⟩
    by_contra hrejected
    simp only [Rejected, not_or, not_exists, not_and, Bool.not_eq_true] at hrejected
    obtain ⟨hneeds, hnames, hcycle⟩ := hrejected
    rw [namesUnknownJob_eq_false] at hnames
    have hvalid : validateTransitionTargets jobs (jobs.map IJob.id) = .ok () := by
      unfold validateTransitionTargets
      rw [List.findSome?_eq_none_iff.mpr]
      intro j hj
      rw [Option.map_eq_none_iff, List.find?_eq_none]
      intro t ht
      simpa using (hnames j hj).2 t ht
    obtain ⟨graph, hgraph⟩ := foldlM_addJob_of_known (jobs.map IJob.id) jobs []
      fun j hj => ⟨normalizeWorkflowJobNeeds_ok_iff.mpr (hneeds j hj), (hnames j hj).1⟩
    have heq : graph = jobGraph jobs := by
      have hfold := (foldlM_addJob jobs [] graph (by simpa [OrderedMap.keys] using hd) hgraph).1
      simpa [jobGraph] using hfold
    have hcycles : detectCycles graph = .ok () := by
      refine detectCycles_of_acyclic fun x hx => hcycle ⟨x, ?_⟩
      rw [heq] at hx
      exact Relation.TransGen.mono (fun _ _ hdep => (mem_deps_jobGraph hd).mp hdep) x x hx
    simp [buildDependencyGraph, bind, Except.bind, hvalid, hgraph, hcycles] at herror
  · intro hrejected
    cases hbuild : buildDependencyGraph jobs with
    | error message => exact ⟨message, rfl⟩
    | ok graph =>
        obtain ⟨rfl, hcycles, hneeds, htransitions⟩ := buildDependencyGraph_ok hd hbuild
        exfalso
        rcases hrejected with ⟨job, hj, hbad⟩ | hnames | ⟨id, hcycle⟩
        · rw [normalizeWorkflowJobNeeds_ok_iff.mp (hneeds job hj).1] at hbad
          exact Bool.noConfusion hbad
        · rw [namesUnknownJob_eq_false.mpr fun j hj => ⟨(hneeds j hj).2, htransitions j hj⟩]
            at hnames
          exact Bool.noConfusion hnames
        · have hgraph : Relation.TransGen (fun d y => d ∈ deps (jobGraph jobs) y) id id := by
            rw [← Relation.transGen_swap] at hcycle
            exact Relation.TransGen.mono (fun _ _ hdep => (mem_deps_jobGraph hd).mpr hdep) id id
              hcycle
          have hkey : id ∈ (jobGraph jobs).keys := by
            obtain ⟨dep, hdep, -⟩ := Relation.TransGen.head'_iff.mp hcycle
            obtain ⟨job, hj, rfl, -⟩ := hdep
            rw [keys_jobGraph]
            exact List.mem_map_of_mem hj
          exact not_self_of_acc (acc_of_detectCycles hcycles hkey).transGen hgraph

/-! ## The groups -/

theorem maxDependencyLevel_congr {levels levels' : OrderedMap String Int} {ds : List String}
    (h : ∀ d ∈ ds, levels.get? d = levels'.get? d) :
    maxDependencyLevel levels ds = maxDependencyLevel levels' ds := by
  unfold maxDependencyLevel
  refine List.foldl_ext _ _ _ fun level d hd => ?_
  simp only [raiseLevel, h d hd]

/-- The level of a node is one more than the highest level of its dependencies. -/
theorem assignLevels_eq {sorted : List String} (h : DependencyOrder (deps graph) sorted) :
    ∀ n ∈ sorted, (assignLevels graph sorted).get? n =
      some (maxDependencyLevel (assignLevels graph sorted) (deps graph n) + 1) := by
  induction h with
  | nil => exact fun n hn => absurd hn List.not_mem_nil
  | @snoc l x hl hx hdeps ih =>
      have hset : assignLevels graph (l ++ [x]) = (assignLevels graph l).set x
          (maxDependencyLevel (assignLevels graph l) (deps graph x) + 1) := by
        rw [assignLevels, List.foldl_append]
        rfl
      -- the levels given earlier stay, and every node depends on earlier ones only
      have hother : ∀ n ∈ l, (assignLevels graph l).get? n =
          (assignLevels graph (l ++ [x])).get? n := by
        intro n hn
        rw [hset, OrderedMap.get?_set_of_ne]
        rintro rfl
        exact hx hn
      intro n hn
      rcases List.mem_append.1 hn with hn | hn
      · rw [← hother n hn, ih n hn,
          maxDependencyLevel_congr fun d hd => hother d (hl.closed hn hd)]
      · rw [List.mem_singleton.1 hn,
          ← maxDependencyLevel_congr fun d hd => hother d (hdeps d hd), hset,
          OrderedMap.get?_set_self]

/-- The level of a node with dependencies is one past a highest level among them. -/
theorem jobLevel_next {n : String} (horder : DependencyOrder (deps graph) (topologicalSort graph))
    (hn : n ∈ topologicalSort graph) (hne : deps graph n ≠ []) :
    ∃ d ∈ deps graph n, jobLevel graph n = jobLevel graph d + 1 ∧
      ∀ other ∈ deps graph n, jobLevel graph other ≤ jobLevel graph d := by
  have hlevels := assignLevels_spec horder
  have hlevel : ∀ d ∈ deps graph n, (assignLevels graph (topologicalSort graph)).get? d =
      some (jobLevel graph d : Int) := by
    intro d hd
    obtain ⟨k, hk, -⟩ := hlevels.level d (horder.closed hn hd)
    simp [jobLevel, hk]
  obtain ⟨-, hmax, hattained⟩ := maxDependencyLevel_spec
    (assignLevels graph (topologicalSort graph)) (deps graph n)
  have heq := assignLevels_eq horder n hn
  rcases hattained with hnone | ⟨d, hd, hd'⟩
  · obtain ⟨d, hd⟩ := List.exists_mem_of_ne_nil _ hne
    have hle := hmax d hd
    rw [hlevel d hd, Option.getD_some] at hle
    omega
  · rw [hlevel d hd, Option.getD_some] at hd'
    refine ⟨d, hd, ?_, fun other ho => ?_⟩
    · rw [← hd'] at heq
      rw [jobLevel, heq, Option.getD_some]
      omega
    · have hle := hmax other ho
      rw [hlevel other ho, Option.getD_some] at hle
      omega

theorem lt_length_pushGroup (node : String) (i : Nat) :
    ∀ (groups : List (List String)) (level : Nat),
      i < (pushGroup groups level node).length ↔ i < groups.length ∨ i ≤ level
  | [], 0 => by simp [pushGroup]
  | [], level + 1 => by
      have ih := lt_length_pushGroup node (i - 1) [] level
      simp only [pushGroup, List.length_cons, List.length_nil] at ih ⊢
      omega
  | g :: gs, 0 => by
      simp only [pushGroup, List.length_cons]
      omega
  | g :: gs, level + 1 => by
      have ih := lt_length_pushGroup node (i - 1) gs level
      simp only [pushGroup, List.length_cons] at ih ⊢
      omega

/-- There are as many groups as the levels reach. -/
theorem lt_length_foldl_pushGroup (i : Nat) (levels : List (String × Int)) :
    ∀ groups : List (List String),
      i < (levels.foldl (fun groups e => pushGroup groups e.2.toNat e.1) groups).length ↔
        i < groups.length ∨ ∃ e ∈ levels, i ≤ e.2.toNat := by
  induction levels with
  | nil => simp
  | cons e levels ih =>
      intro groups
      rw [List.foldl_cons, ih, lt_length_pushGroup, List.exists_mem_cons_iff, or_assoc]

theorem perm_flatten_pushGroup (node : String) :
    ∀ (groups : List (List String)) (level : Nat),
      (pushGroup groups level node).flatten.Perm (node :: groups.flatten)
  | [], 0 => .refl _
  | [], level + 1 => by
      rw [pushGroup, List.flatten_cons, List.nil_append]
      exact perm_flatten_pushGroup node [] level
  | g :: gs, 0 => by
      rw [pushGroup, List.flatten_cons, List.flatten_cons, List.append_assoc]
      exact List.perm_middle
  | g :: gs, level + 1 => by
      rw [pushGroup, List.flatten_cons, List.flatten_cons]
      exact ((perm_flatten_pushGroup node gs level).append_left g).trans List.perm_middle

/-- The groups hold every node that has a level, once. -/
theorem perm_flatten_foldl_pushGroup (levels : List (String × Int)) :
    ∀ groups : List (List String),
      (levels.foldl (fun groups e => pushGroup groups e.2.toNat e.1) groups).flatten.Perm
        (levels.map Prod.fst ++ groups.flatten) := by
  induction levels with
  | nil => exact fun groups => .refl _
  | cons e levels ih =>
      intro groups
      rw [List.foldl_cons, List.map_cons, List.cons_append]
      exact (ih _).trans
        (((perm_flatten_pushGroup e.1 groups e.2.toNat).append_left _).trans List.perm_middle)

/-- What `findParallelJobs` makes of the jobs: the groups hold every job once, none is empty, and
the level of a job is its group: the first without dependencies, else one past a last group of
them. -/
structure Layered (jobs : List IJob) (groups : List (List String)) (level : String → Nat) :
    Prop where
  partition : groups.flatten.Perm (jobs.map IJob.id)
  dense : ∀ group ∈ groups, group ≠ []
  mem : ∀ x i, x ∈ groups.getD i [] ↔ x ∈ jobs.map IJob.id ∧ level x = i
  first : ∀ j ∈ jobs, j.needIds = [] → level j.id = 0
  next : ∀ j ∈ jobs, j.needIds ≠ [] → ∃ d ∈ j.needIds, level j.id = level d + 1 ∧
    ∀ other ∈ j.needIds, level other ≤ level d

/-- Below a job there is a job of every lower level. -/
theorem exists_level {level : String → Nat}
    (hknown : ∀ j ∈ jobs, ∀ d ∈ j.needIds, d ∈ jobs.map IJob.id)
    (hfirst : ∀ j ∈ jobs, j.needIds = [] → level j.id = 0)
    (hnext : ∀ j ∈ jobs, j.needIds ≠ [] → ∃ d ∈ j.needIds, level j.id = level d + 1 ∧ ∀ other ∈
      j.needIds, level other ≤ level d) (i gap : Nat) :
    ∀ x ∈ jobs.map IJob.id, level x = i + gap → ∃ y ∈ jobs.map IJob.id, level y = i := by
  induction gap with
  | zero => exact fun x hx hlevel => ⟨x, hx, hlevel⟩
  | succ gap ih =>
      intro x hx hlevel
      obtain ⟨j, hj, rfl⟩ := List.mem_map.1 hx
      by_cases hnil : j.needIds = []
      · rw [hfirst j hj hnil] at hlevel
        omega
      · obtain ⟨d, hd, hstep, -⟩ := hnext j hj hnil
        exact ih d (hknown j hj d hd) (by omega)

/-- **The groups of an accepted list.** -/
theorem layered_of_accepted (hd : (jobs.map IJob.id).Nodup) (hempty : "" ∉ jobs.map IJob.id)
    (h : buildDependencyGraph jobs = .ok graph) :
    ∃ level, Layered jobs (findParallelJobs graph) level := by
  obtain ⟨rfl, -, hneeds, -⟩ := buildDependencyGraph_ok hd h
  obtain ⟨horder, hmem⟩ := topologicalSort_jobGraph hd hempty h
  have hgroups := groupedJobs_jobLevel hd hempty h
  have hlevels := assignLevels_spec horder
  have hfirst : ∀ j ∈ jobs, j.needIds = [] → jobLevel (jobGraph jobs) j.id = 0 :=
    fun j hj => (hgroups.zero j hj).mpr
  have hnext : ∀ j ∈ jobs, j.needIds ≠ [] → ∃ d ∈ j.needIds,
      jobLevel (jobGraph jobs) j.id = jobLevel (jobGraph jobs) d + 1 ∧
        ∀ other ∈ j.needIds, jobLevel (jobGraph jobs) other ≤ jobLevel (jobGraph jobs) d := by
    intro j hj hne
    rw [← deps_jobGraph hd hj] at hne ⊢
    exact jobLevel_next horder ((hmem j.id).mpr (List.mem_map_of_mem hj)) hne
  refine ⟨jobLevel (jobGraph jobs), ?_, ?_, hgroups.mem, hfirst, hnext⟩
  · have hperm := perm_flatten_foldl_pushGroup
      (assignLevels (jobGraph jobs) (topologicalSort (jobGraph jobs))) []
    rw [List.flatten_nil, List.append_nil] at hperm
    refine hperm.trans ?_
    have hkeys : (assignLevels (jobGraph jobs) (topologicalSort (jobGraph jobs))).map Prod.fst =
      topologicalSort (jobGraph jobs) := hlevels.keys
    rw [hkeys, List.perm_ext_iff_of_nodup horder.nodup hd]
    exact hmem
  · intro group hgroup hnil
    obtain ⟨i, hi, heq⟩ := List.getElem_of_mem hgroup
    -- the groups reach no further than some job, and below it no level is left out
    have hreach := hi
    rw [findParallelJobs, lt_length_foldl_pushGroup] at hreach
    obtain ⟨e, he, hle⟩ := hreach.resolve_left (Nat.not_lt_zero i)
    have hid : e.1 ∈ jobs.map IJob.id := by
      rw [← hmem, ← hlevels.keys]
      exact List.mem_map_of_mem he
    have hlevel : jobLevel (jobGraph jobs) e.1 = e.2.toNat := by
      rw [jobLevel, OrderedMap.get?_of_mem (v := e.2) (by rw [hlevels.keys]; exact horder.nodup) he,
        Option.getD_some]
    obtain ⟨y, hy, hyi⟩ := exists_level (fun j hj => (hneeds j hj).2) hfirst hnext i
      (e.2.toNat - i) e.1 hid (by omega)
    have hin := (hgroups.mem y i).mpr ⟨hy, hyi⟩
    rw [List.getD_eq_getElem?_getD, List.getElem?_eq_getElem hi, Option.getD_some, heq, hnil] at hin
    exact absurd hin List.not_mem_nil

/-- **Parallel layers.** A list of jobs with distinct, non-empty ids is rejected exactly for needs
that do not normalise, an unknown name or a cycle, and otherwise laid out in layers. -/
theorem parallel_layers_exact {jobs : List IJob} (hd : (jobs.map IJob.id).Nodup)
    (hempty : "" ∉ jobs.map IJob.id) :
    ((∃ message, buildDependencyGraph jobs = .error message) ↔ Rejected jobs) ∧
      ∀ graph, buildDependencyGraph jobs = .ok graph →
        ∃ level, Layered jobs (findParallelJobs graph) level :=
  ⟨buildDependencyGraph_error_iff hd, fun _ h => layered_of_accepted hd hempty h⟩

/-- Three jobs, one after the other, one of them listing its dependency twice. -/
def chainedJobs : List IJob :=
  [{ id := "c", needs := some [.id "a", .id "b"] }, { id := "b", depends_on := some ["a", "a"] },
    { id := "a" }]

theorem parallel_layers_chain : ∃ level, Layered chainedJobs [["a"], ["b"], ["c"]] level := by
  have hgroups : findParallelJobs (jobGraph chainedJobs) = [["a"], ["b"], ["c"]] := by
    decide +kernel
  rw [← hgroups]
  exact (parallel_layers_exact (by decide) (by decide)).2 _ (by decide +kernel)

/-- A job that gives both spellings of its needs. -/
def bothSpellings : List IJob := [{ id := "a", needs := some [], depends_on := some [] }]

/-- It is rejected although it names nothing and depends on nothing. -/
theorem both_spellings_rejected :
    (bothSpellings.map IJob.id).Nodup ∧ "" ∉ bothSpellings.map IJob.id ∧
      buildDependencyGraph bothSpellings =
        .error "Job a cannot define both needs and depends_on" ∧
      namesUnknownJob bothSpellings = false ∧ ¬ Cyclic bothSpellings := by
  refine ⟨by decide, by decide, by decide, by decide, ?_⟩
  rintro ⟨id, hcycle⟩
  obtain ⟨dep, ⟨job, hj, -, hdep⟩, -⟩ := Relation.TransGen.head'_iff.mp hcycle
  have hnone : job.needIds = [] := by
    rw [List.mem_singleton.mp hj]
    decide
  rw [hnone] at hdep
  exact absurd hdep List.not_mem_nil

end DAGResolverService

end Nexus
