import Mathlib.Data.List.Perm.Subperm
import Nexus.Lib.DependencyOrder
import Nexus.Workflow.Dag

/-!
# Facts of the dependency graph

What an accepted definition guarantees: the graph lists every job with its needs, its searches never
run out of fuel, it has no cycle, the topological sort is complete and in dependency order, and every
job stands in one parallel group, above the groups of the jobs it needs.
-/

set_option autoImplicit false

namespace Nexus

variable {jobs : List IJob} {j : IJob}

namespace DAGResolverService

/-! ## The graph -/

variable {graph : DependencyGraph}

theorem addJob_ok {jobIds : List String} {graph' : DependencyGraph} {job : IJob}
    (h : addJob jobIds graph job = .ok graph') :
    normalizeWorkflowJobNeeds job = .ok job.needList ∧ (∀ d ∈ job.needIds, d ∈ jobIds) ∧
      graph' = graph.set job.id job.needIds := by
  unfold addJob at h
  cases hn : normalizeWorkflowJobNeeds job with
  | error e =>
      rw [hn] at h
      cases h
  | ok needs =>
      have hlist : job.needList = needs := by simp only [IJob.needList, hn]
      have hids : job.needIds = needs.map NormalizedWorkflowNeed.id := by
        rw [IJob.needIds, hlist]
      rw [hn] at h
      simp only [bind, Except.bind] at h
      cases hf : (needs.map NormalizedWorkflowNeed.id).find? fun dep => dep ∉ jobIds with
      | some dep =>
          rw [hf] at h
          cases h
      | none =>
          rw [hf] at h
          simp only [Except.ok.injEq] at h
          refine ⟨by rw [hlist], fun d hd => ?_, by rw [hids, h]⟩
          rw [hids] at hd
          simpa using List.find?_eq_none.1 hf d hd

theorem foldlM_addJob {jobIds : List String} :
    ∀ (jobs : List IJob) (graph graph' : DependencyGraph),
      (graph.keys ++ jobs.map IJob.id).Nodup →
      jobs.foldlM (addJob jobIds) graph = .ok graph' →
      graph' = graph ++ jobs.map (fun j => (j.id, j.needIds)) ∧
        ∀ j ∈ jobs, normalizeWorkflowJobNeeds j = .ok j.needList ∧ ∀ d ∈ j.needIds, d ∈ jobIds
  | [], graph, graph', _, h => by
      simp only [List.foldlM_nil] at h
      cases h
      simp
  | j :: jobs, graph, graph', hd, h => by
      rw [List.foldlM_cons] at h
      cases ha : addJob jobIds graph j with
      | error e =>
          rw [ha] at h
          cases h
      | ok g₁ =>
          rw [ha] at h
          obtain ⟨hn, hdeps, rfl⟩ := addJob_ok ha
          have hnotMem : j.id ∉ graph.keys := by
            intro hmem
            rw [List.nodup_append] at hd
            exact hd.2.2 _ hmem _ (by simp) rfl
          have hset : graph.set j.id j.needIds = graph ++ [(j.id, j.needIds)] :=
            OrderedMap.set_of_notMem _ hnotMem
          have hd' : ((graph.set j.id j.needIds).keys ++ jobs.map IJob.id).Nodup := by
            rw [hset]
            simpa [OrderedMap.keys] using hd
          obtain ⟨hg, hrest⟩ := foldlM_addJob jobs _ _ hd' h
          refine ⟨by rw [hg, hset]; simp, fun j' hj' => ?_⟩
          rcases List.mem_cons.1 hj' with rfl | hj'
          · exact ⟨hn, hdeps⟩
          · exact hrest j' hj'

/-- The graph of jobs with distinct ids lists every job with its needs. -/
def jobGraph (jobs : List IJob) : DependencyGraph := jobs.map fun j => (j.id, j.needIds)

theorem buildDependencyGraph_ok (hd : (jobs.map IJob.id).Nodup)
    (h : buildDependencyGraph jobs = .ok graph) :
    graph = jobGraph jobs ∧ detectCycles graph = .ok () ∧
      (∀ j ∈ jobs, normalizeWorkflowJobNeeds j = .ok j.needList ∧
        ∀ d ∈ j.needIds, d ∈ jobs.map IJob.id) ∧
      ∀ j ∈ jobs, ∀ t ∈ j.transitionList, t.next ∈ jobs.map IJob.id := by
  unfold buildDependencyGraph at h
  simp only [bind, Except.bind] at h
  cases hv : validateTransitionTargets jobs (jobs.map IJob.id) with
  | error e =>
      rw [hv] at h
      cases h
  | ok u =>
      rw [hv] at h
      simp only at h
      cases hf : jobs.foldlM (addJob (jobs.map IJob.id)) [] with
      | error e =>
          rw [hf] at h
          cases h
      | ok g =>
          rw [hf] at h
          simp only at h
          cases hc : detectCycles g with
          | error e =>
              rw [hc] at h
              cases h
          | ok u' =>
              rw [hc] at h
              simp only [Except.ok.injEq] at h
              subst h
              obtain ⟨hg, hjobs⟩ := foldlM_addJob jobs [] g (by simpa [OrderedMap.keys] using hd) hf
              refine ⟨by simpa [jobGraph] using hg, hc, hjobs, fun j hj t ht => ?_⟩
              unfold validateTransitionTargets at hv
              split at hv
              · cases hv
              · rename_i hnone
                rw [List.findSome?_eq_none_iff] at hnone
                have hj' := hnone j hj
                rw [Option.map_eq_none_iff, List.find?_eq_none] at hj'
                simpa using hj' t ht

theorem keys_jobGraph (jobs : List IJob) : (jobGraph jobs).keys = jobs.map IJob.id := by
  simp [jobGraph, OrderedMap.keys, Function.comp_def]

theorem get?_jobGraph (hd : (jobs.map IJob.id).Nodup) (hj : j ∈ jobs) :
    (jobGraph jobs).get? j.id = some j.needIds :=
  OrderedMap.get?_of_mem (by rwa [keys_jobGraph])
    (List.mem_map.2 ⟨j, hj, rfl⟩)

/-! ## Cycles -/

/-- The dependencies of a node. -/
def deps (graph : DependencyGraph) (node : String) : List String := (graph.get? node).getD []

/-- The nodes that are left have an acyclic past. -/
structure Sound (graph : DependencyGraph) (s : CycleSearch) : Prop where
  stack : ∀ x ∈ s.recursionStack, x ∈ s.visited
  acc : ∀ x ∈ s.visited, x ∉ s.recursionStack → Acc (fun d y => d ∈ deps graph y) x

/-- What a search from a node, or through a list of nodes, does to the sets. -/
structure Searched (graph : DependencyGraph) (nodes : List String) (s s' : CycleSearch) :
    Prop where
  sound : Sound graph s'
  stack : ∀ x, x ∈ s'.recursionStack ↔ x ∈ s.recursionStack
  grows : ∀ x ∈ s.visited, x ∈ s'.visited
  covers : ∀ x ∈ nodes, x ∈ s'.visited ∧ x ∉ s'.recursionStack

theorem searched_foldlM {graph : DependencyGraph}
    {step : CycleSearch → String → Except CycleError CycleSearch} {stack : List String}
    (hstep : ∀ s n s', Sound graph s → (∀ x, x ∈ s.recursionStack ↔ x ∈ stack) →
      step s n = .ok s' → Searched graph [n] s s') :
    ∀ (nodes : List String) (s s' : CycleSearch), Sound graph s →
      (∀ x, x ∈ s.recursionStack ↔ x ∈ stack) →
      nodes.foldlM step s = .ok s' → Searched graph nodes s s'
  | [], s, s', hs, _, h => by
      simp only [List.foldlM_nil] at h
      cases h
      exact ⟨hs, fun _ => Iff.rfl, fun _ hx => hx, by simp⟩
  | n :: nodes, s, s', hs, hst, h => by
      rw [List.foldlM_cons] at h
      cases h₁ : step s n with
      | error e =>
          rw [h₁] at h
          cases h
      | ok s₁ =>
          rw [h₁] at h
          have hfirst := hstep s n s₁ hs hst h₁
          have hrest := searched_foldlM hstep nodes s₁ s' hfirst.sound
            (fun x => (hfirst.stack x).trans (hst x)) h
          refine ⟨hrest.sound, fun x => (hrest.stack x).trans (hfirst.stack x),
            fun x hx => hrest.grows x (hfirst.grows x hx), fun x hx => ?_⟩
          rcases List.mem_cons.1 hx with rfl | hx
          · have hc := hfirst.covers x (by simp)
            exact ⟨hrest.grows x hc.1, fun hmem => hc.2 ((hrest.stack x).1 hmem)⟩
          · exact hrest.covers x hx

theorem dfs_searched {graph : DependencyGraph} :
    ∀ (fuel : Nat) (node : String) (s s' : CycleSearch), Sound graph s → node ∉ s.visited →
      dfs graph fuel node s = .ok s' → Searched graph [node] s s'
  | 0, _, _, _, _, _, h => by simp [dfs] at h
  | fuel + 1, node, s, s', hs, hnode, h => by
      have hentered : Sound graph ⟨node :: s.visited, node :: s.recursionStack⟩ := by
        refine ⟨fun x hx => ?_, fun x hx hnot => ?_⟩
        · rcases List.mem_cons.1 hx with rfl | hx
          · simp
          · exact List.mem_cons_of_mem _ (hs.stack x hx)
        · simp only [List.mem_cons, not_or] at hnot
          exact hs.acc x ((List.mem_cons.1 hx).resolve_left hnot.1) hnot.2
      rw [dfs] at h
      simp only [bind, Except.bind] at h
      split at h
      · cases h
      · rename_i left hleft
        simp only [Except.ok.injEq] at h
        subst h
        have hsearch : Searched graph (deps graph node)
            ⟨node :: s.visited, node :: s.recursionStack⟩ left := by
          refine searched_foldlM ?_ _ _ _ hentered (fun x => Iff.rfl) hleft
          intro s₀ n s₁ hs₀ _ hn
          by_cases hv : n ∈ s₀.visited
          · rw [if_neg (by simpa using hv)] at hn
            by_cases hst : n ∈ s₀.recursionStack
            · rw [if_pos hst] at hn
              cases hn
            · rw [if_neg hst] at hn
              cases hn
              exact ⟨hs₀, fun _ => Iff.rfl, fun _ hx => hx, by simpa using ⟨hv, hst⟩⟩
          · rw [if_pos hv] at hn
            exact dfs_searched fuel n s₀ s₁ hs₀ hv hn
        have hacc : Acc (fun d y => d ∈ deps graph y) node :=
          ⟨_, fun d hd => hsearch.sound.acc d (hsearch.covers d hd).1 (hsearch.covers d hd).2⟩
        refine ⟨⟨fun x hx => ?_, fun x hx hnot => ?_⟩, fun x => ?_, fun x hx => ?_, ?_⟩
        · exact hsearch.sound.stack x (List.mem_filter.1 hx).1
        · by_cases hxn : x = node
          · exact hxn ▸ hacc
          · refine hsearch.sound.acc x hx fun hmem => hnot ?_
            exact List.mem_filter.2 ⟨hmem, by simpa using hxn⟩
        · simp only [List.mem_filter, hsearch.stack, List.mem_cons, decide_eq_true_eq]
          constructor
          · rintro ⟨rfl | hx, hne⟩
            · exact absurd rfl hne
            · exact hx
          · intro hx
            refine ⟨Or.inr hx, ?_⟩
            rintro rfl
            exact hnode (hs.stack _ hx)
        · exact hsearch.grows x (List.mem_cons_of_mem _ hx)
        · intro x hx
          rw [List.mem_singleton.1 hx]
          refine ⟨hsearch.grows node (by simp), ?_⟩
          simp

variable {node : String}

/-- **An accepted graph has no cycle.** -/
theorem acc_of_detectCycles (h : detectCycles graph = .ok ()) (hnode : node ∈ graph.keys) :
    Acc (fun d y => d ∈ deps graph y) node := by
  unfold detectCycles at h
  split at h
  · rename_i s hs
    have hsearch : Searched graph graph.keys ⟨[], []⟩ s := by
      refine @searched_foldlM graph _ [] ?_ _ _ _ ⟨by simp, by simp⟩ (fun x => Iff.rfl) hs
      intro s₀ n s₁ hs₀ hst hn
      by_cases hv : n ∈ s₀.visited
      · rw [if_neg (by simpa using hv)] at hn
        cases hn
        have hnot : n ∉ s₀.recursionStack := by simp [hst]
        exact ⟨hs₀, fun _ => Iff.rfl, fun _ hx => hx, by simpa using ⟨hv, hnot⟩⟩
      · rw [if_pos hv] at hn
        exact dfs_searched _ n s₀ s₁ hs₀ hv hn
    have hc := hsearch.covers node hnode
    exact hsearch.sound.acc node hc.1 hc.2
  · cases h
  · cases h

/-! ### The fuel of the search -/

/-- The ids a search can meet. -/
def nodes (graph : DependencyGraph) : List String := graph.flatMap fun e => e.1 :: e.2

theorem length_nodes (graph : DependencyGraph) : (nodes graph).length = size graph := by
  simp [nodes, size, List.length_flatMap]

theorem deps_subset_nodes {d : String} (h : d ∈ deps graph node) : d ∈ nodes graph := by
  unfold deps at h
  cases hg : graph.get? node with
  | none =>
      rw [hg] at h
      simp at h
  | some ds =>
      rw [hg] at h
      exact List.mem_flatMap.2 ⟨(node, ds), OrderedMap.mem_of_get? hg, by simpa using Or.inr h⟩

/-- The number of ids that are not visited yet. -/
def unvisited (graph : DependencyGraph) (s : CycleSearch) : Nat :=
  ((nodes graph).filter fun n => n ∉ s.visited).length

theorem unvisited_mono {s s' : CycleSearch} (h : ∀ x ∈ s.visited, x ∈ s'.visited) :
    unvisited graph s' ≤ unvisited graph s := by
  refine List.Sublist.length_le (List.monotone_filter_right _ fun n hn => ?_)
  simp only [decide_eq_true_eq] at hn ⊢
  exact fun hx => hn (h n hx)

theorem unvisited_enter {s : CycleSearch} (hmem : node ∈ nodes graph) (hnode : node ∉ s.visited)
    (st : List String) :
    unvisited graph ⟨node :: s.visited, st⟩ < unvisited graph s := by
  have hsub : ((nodes graph).filter fun n => n ∉ node :: s.visited).Sublist
      (((nodes graph).filter fun n => n ∉ s.visited).filter fun n => n ≠ node) := by
    rw [List.filter_filter]
    refine List.monotone_filter_right _ fun n hn => ?_
    simpa using hn
  refine lt_of_le_of_lt hsub.length_le ?_
  refine List.length_filter_lt_length_iff_exists.2 ⟨node, ?_, by simp⟩
  exact List.mem_filter.2 ⟨hmem, by simpa using hnode⟩

/-- The outcome of a search with enough fuel. -/
def Fueled (s : CycleSearch) : Except CycleError CycleSearch → Prop
  | .ok s' => ∀ x ∈ s.visited, x ∈ s'.visited
  | .error e => e ≠ .outOfFuel

theorem fueled_foldlM (graph : DependencyGraph) (bound : Nat)
    (step : CycleSearch → String → Except CycleError CycleSearch) :
    ∀ (ns : List String) (s : CycleSearch),
      (∀ s n, n ∈ ns → unvisited graph s ≤ bound → Fueled s (step s n)) →
      unvisited graph s ≤ bound → Fueled s (ns.foldlM step s)
  | [], s, _, _ => by
      show ∀ x ∈ s.visited, x ∈ s.visited
      exact fun _ hx => hx
  | n :: ns, s, hstep, hs => by
      rw [List.foldlM_cons]
      have hfirst := hstep s n (by simp) hs
      cases h₁ : step s n with
      | error e =>
          rw [h₁] at hfirst
          exact hfirst
      | ok s₁ =>
          rw [h₁] at hfirst
          have hrest := fueled_foldlM graph bound step ns s₁ (fun s n hn => hstep s n (by simp [hn]))
            ((unvisited_mono hfirst).trans hs)
          simp only [bind, Except.bind]
          cases h₂ : ns.foldlM step s₁ with
          | error e =>
              rw [h₂] at hrest
              exact hrest
          | ok s₂ =>
              rw [h₂] at hrest
              exact fun x hx => hrest x (hfirst x hx)

theorem dfs_fueled {graph : DependencyGraph} :
    ∀ (fuel : Nat) (node : String) (s : CycleSearch), node ∈ nodes graph → node ∉ s.visited →
      unvisited graph s ≤ fuel → Fueled s (dfs graph fuel node s)
  | 0, node, s, hmem, hnode, hfuel => by
      have := unvisited_enter hmem hnode []
      omega
  | fuel + 1, node, s, hmem, hnode, hfuel => by
      have henter := unvisited_enter hmem hnode (node :: s.recursionStack)
      have hfold := fueled_foldlM graph fuel
        (fun s neighbor =>
          if neighbor ∉ s.visited then dfs graph fuel neighbor s
          else if neighbor ∈ s.recursionStack then .error (.circular neighbor)
          else .ok s)
        (deps graph node) ⟨node :: s.visited, node :: s.recursionStack⟩
        (by
          intro s₀ n hn hs₀
          by_cases hv : n ∈ s₀.visited
          · rw [if_neg (by simpa using hv)]
            split
            · exact CycleError.noConfusion
            · exact fun _ hx => hx
          · rw [if_pos hv]
            exact dfs_fueled fuel n s₀ (deps_subset_nodes hn) hv hs₀)
        (by omega)
      rw [dfs]
      simp only [bind, Except.bind]
      unfold deps at hfold
      split
      · rename_i e he
        rw [he] at hfold
        exact hfold
      · rename_i left hleft
        rw [hleft] at hfold
        exact fun x hx => hfold x (List.mem_cons_of_mem _ hx)

/-- The search for cycles has enough fuel. -/
theorem detectCycles_not_outOfFuel (graph : DependencyGraph) :
    searchCycles graph ≠ .error .outOfFuel := by
  have hfold := fueled_foldlM graph (size graph)
    (fun s node => if node ∉ s.visited then dfs graph (size graph) node s else .ok s)
    graph.keys ⟨[], []⟩
    (by
      intro s n hn hs
      by_cases hv : n ∈ s.visited
      · rw [if_neg (by simpa using hv)]
        exact fun _ hx => hx
      · rw [if_pos hv]
        refine dfs_fueled _ n s ?_ hv hs
        obtain ⟨e, he, rfl⟩ := List.mem_map.1 hn
        exact List.mem_flatMap.2 ⟨e, he, by simp⟩)
    (by
      rw [← length_nodes]
      exact List.length_filter_le _ _)
  intro h
  unfold searchCycles at h
  rw [h] at hfold
  exact hfold rfl

/-! ## Topological sort -/

theorem buildInDegreeMap_eq (hd : graph.keys.Nodup) :
    buildInDegreeMap graph = graph.map fun e => (e.1, (e.2.length : Int)) := by
  rw [buildInDegreeMap, OrderedMap.foldl_set_nil Prod.fst (fun _ => (0 : Int)) graph hd,
    OrderedMap.foldl_set_map Prod.fst (fun e => (e.2.length : Int)) (fun _ => 0) graph hd]

theorem get?_pushDependents (node k : String) :
    ∀ (ds : List String) (m : DependencyGraph),
      (ds.foldl (fun m d => pushDependent m d node) m).get? k =
        (m.get? k).map fun l => l ++ List.replicate (ds.count k) node
  | [], m => by
      rw [List.foldl_nil]
      cases m.get? k <;> simp
  | d :: ds, m => by
      rw [List.foldl_cons, get?_pushDependents node k ds]
      unfold pushDependent
      by_cases hdk : d = k
      · subst hdk
        cases hg : m.get? d with
        | none => simp [hg]
        | some l =>
            simp only [OrderedMap.get?_set_self, Option.map_some, List.count_cons_self,
              List.append_assoc, List.singleton_append, Option.some.injEq,
              List.append_cancel_left_eq]
            rfl
      · rw [List.count_cons_of_ne hdk]
        cases hg : m.get? d with
        | none => rfl
        | some l => simp only [OrderedMap.get?_set_of_ne _ _ hdk]

theorem get?_reverse_fold (k : String) :
    ∀ (es m : DependencyGraph),
      (es.foldl (fun m e => e.2.foldl (fun m d => pushDependent m d e.1) m) m).get? k =
        (m.get? k).map fun l => l ++ es.flatMap fun e => List.replicate (e.2.count k) e.1
  | [], m => by
      rw [List.foldl_nil]
      cases m.get? k <;> simp
  | e :: es, m => by
      rw [List.foldl_cons, get?_reverse_fold k es, get?_pushDependents]
      cases m.get? k <;> simp

/-- The dependents of a node, each as often as it lists the node. -/
theorem reverseGraph_get? (hd : graph.keys.Nodup) {k : String} (hk : k ∈ graph.keys) :
    (buildReverseGraph graph).get? k =
      some (graph.flatMap fun e => List.replicate (e.2.count k) e.1) := by
  have hbase : OrderedMap.get? (graph.map fun e => (e.1, ([] : List String))) k = some [] := by
    refine OrderedMap.get?_of_mem ?_ ?_
    · simpa [OrderedMap.keys, Function.comp_def] using hd
    · obtain ⟨e, he, rfl⟩ := List.mem_map.1 hk
      exact List.mem_map.2 ⟨e, he, rfl⟩
  rw [buildReverseGraph, OrderedMap.foldl_set_nil Prod.fst (fun _ => []) graph hd,
    get?_reverse_fold, hbase]
  simp

theorem count_dependents (n k : String) :
    ∀ (graph : DependencyGraph), graph.keys.Nodup →
      (graph.flatMap fun e => List.replicate (e.2.count k) e.1).count n =
        ((graph.get? n).getD []).count k
  | [], _ => rfl
  | (n', ds) :: graph, hd => by
      simp only [OrderedMap.keys, List.map_cons, List.nodup_cons] at hd
      rw [List.flatMap_cons, List.count_append, count_dependents n k graph hd.2,
        OrderedMap.get?_cons]
      by_cases hn : n' = n
      · subst hn
        have hnone : OrderedMap.get? graph n' = none :=
          (OrderedMap.get?_eq_none_iff graph n').2 hd.1
        simp [hnone]
      · simp [hn, List.count_replicate]

/-- The counters of an in-degree map. -/
def counter (inDegree : OrderedMap String Int) : String → Int :=
  fun n => (inDegree.get? n).getD 0

theorem counter_set (m : OrderedMap String Int) (n : String) (v : Int) :
    counter (m.set n v) = Function.update (counter m) n v := by
  funext y
  unfold counter
  rw [OrderedMap.get?_set]
  by_cases h : n = y
  · subst h
    simp
  · rw [if_neg h, Function.update_of_ne (Ne.symm h)]

theorem foldl_releaseNeighbor :
    ∀ (ns queue : List String) (m : OrderedMap String Int),
      (ns.foldl releaseNeighbor (queue, m)).1 = queue ++ released (counter m) ns ∧
        counter (ns.foldl releaseNeighbor (queue, m)).2 = takenOff (counter m) ns
  | [], queue, m => by
      refine ⟨by simp [released], ?_⟩
      funext y
      simp [takenOff]
  | n :: ns, queue, m => by
      rw [List.foldl_cons]
      obtain ⟨hqueue, hcounter⟩ := foldl_releaseNeighbor ns
        (releaseNeighbor (queue, m) n).1 (releaseNeighbor (queue, m) n).2
      have hset : counter (releaseNeighbor (queue, m) n).2 =
          Function.update (counter m) n (counter m n - 1) := counter_set _ _ _
      rw [hset] at hqueue hcounter
      refine ⟨?_, hcounter.trans (takenOff_cons _ _ _)⟩
      rw [hqueue]
      have hfirst : (releaseNeighbor (queue, m) n).1 =
          if counter m n - 1 = 0 then queue ++ [n] else queue := rfl
      rw [hfirst, released]
      by_cases h0 : counter m n - 1 = 0
      · rw [if_pos h0, if_pos h0, List.append_assoc, List.singleton_append]
      · rw [if_neg h0, if_neg h0]

/-- The number of dependencies that are not sorted yet. -/
def missing (graph : DependencyGraph) (sorted : List String) (n : String) : Nat :=
  (deps graph n).countP fun d => d ∉ sorted

variable {sorted : List String}

theorem missing_eq_zero {n : String} :
    missing graph sorted n = 0 ↔ ∀ d ∈ deps graph n, d ∈ sorted := by
  simp [missing, List.countP_eq_zero]

theorem missing_snoc {x n : String} (hx : x ∉ sorted) :
    missing graph sorted n = missing graph (sorted ++ [x]) n + (deps graph n).count x := by
  unfold missing
  induction deps graph n with
  | nil => rfl
  | cons d ds ih =>
      by_cases hd : d = x
      · subst hd
        simp only [List.countP_cons, List.count_cons_self, hx, not_false_eq_true, decide_true,
          if_true, List.mem_append, List.mem_singleton, or_true, not_true_eq_false, decide_false,
          Bool.false_eq_true, if_false, ih]
        omega
      · rw [List.count_cons_of_ne hd, List.countP_cons, List.countP_cons, ih]
        have hiff : (d ∉ sorted ++ [x]) ↔ d ∉ sorted := by simp [hd]
        simp only [hiff]
        omega

/-- The invariant of the loop: the sorted part is in dependency order, the queue holds the nodes
whose dependencies are sorted, and the counters hold what is missing. -/
structure Walking (graph : DependencyGraph) (queue : List String)
    (inDegree : OrderedMap String Int) (sorted : List String) : Prop where
  order : DependencyOrder (deps graph) sorted
  nodup : (sorted ++ queue).Nodup
  keys : ∀ n ∈ sorted ++ queue, n ∈ graph.keys
  counters : ∀ n ∈ graph.keys, counter inDegree n = missing graph sorted n
  ready : ∀ n ∈ graph.keys, n ∈ sorted ++ queue ↔ ∀ d ∈ deps graph n, d ∈ sorted

theorem Walking.step (hd : graph.keys.Nodup) {current : String} {queue : List String}
    {inDegree : OrderedMap String Int} (h : Walking graph (current :: queue) inDegree sorted) :
    Walking graph
      ((((buildReverseGraph graph).get? current).getD []).foldl releaseNeighbor
        (queue, inDegree)).1
      ((((buildReverseGraph graph).get? current).getD []).foldl releaseNeighbor
        (queue, inDegree)).2
      (sorted ++ [current]) := by
  have hcur : current ∈ graph.keys := h.keys current (by simp)
  have hnot : current ∉ sorted := by
    intro hmem
    have := h.nodup
    rw [List.nodup_append] at this
    exact this.2.2 _ hmem _ (by simp) rfl
  rw [reverseGraph_get? hd hcur, Option.getD_some]
  obtain ⟨hqueue, hcounter⟩ := foldl_releaseNeighbor
    (graph.flatMap fun e => List.replicate (e.2.count current) e.1) queue inDegree
  rw [hqueue]
  have hcount : ∀ n, (graph.flatMap fun e => List.replicate (e.2.count current) e.1).count n =
      (deps graph n).count current := fun n => count_dependents n current graph hd
  have hreleased : ∀ n ∈ graph.keys,
      (n ∈ released (counter inDegree)
          (graph.flatMap fun e => List.replicate (e.2.count current) e.1) ↔
        1 ≤ missing graph sorted n ∧ missing graph (sorted ++ [current]) n = 0) := by
    intro n hn
    have hm := @missing_snoc graph sorted current n hnot
    rw [mem_released, hcount, h.counters n hn]
    omega
  have hkeys : ∀ n ∈ released (counter inDegree)
      (graph.flatMap fun e => List.replicate (e.2.count current) e.1), n ∈ graph.keys := by
    intro n hn
    rw [mem_released] at hn
    have hpos : 0 < (graph.flatMap fun e => List.replicate (e.2.count current) e.1).count n := by
      omega
    obtain ⟨e, he, hne⟩ := List.mem_flatMap.1 (List.count_pos_iff.1 hpos)
    rw [List.eq_of_mem_replicate hne]
    exact List.mem_map_of_mem he
  have hready : ∀ n ∈ graph.keys, n ∈ sorted ++ current :: queue ↔ missing graph sorted n = 0 :=
    fun n hn => (h.ready n hn).trans missing_eq_zero.symm
  refine ⟨?_, ?_, ?_, ?_, ?_⟩
  · exact .snoc h.order hnot ((h.ready current hcur).1 (by simp))
  · have hnd := h.nodup
    rw [show sorted ++ [current] ++ (queue ++ released (counter inDegree)
        (graph.flatMap fun e => List.replicate (e.2.count current) e.1)) =
      (sorted ++ current :: queue) ++ released (counter inDegree)
        (graph.flatMap fun e => List.replicate (e.2.count current) e.1) by simp,
      List.nodup_append]
    refine ⟨hnd, nodup_released, fun a ha b hb => ?_⟩
    rintro rfl
    have hak := h.keys a ha
    have h0 := (hready a hak).1 ha
    have h1 := (hreleased a hak).1 hb
    omega
  · intro n hn
    simp only [List.mem_append, List.mem_singleton] at hn
    rcases hn with (hn | rfl) | hn | hn
    · exact h.keys n (by simp [hn])
    · exact hcur
    · exact h.keys n (by simp [hn])
    · exact hkeys n hn
  · intro n hn
    rw [hcounter, takenOff, hcount, h.counters n hn, @missing_snoc graph sorted current n hnot]
    push_cast
    omega
  · intro n hn
    rw [← missing_eq_zero]
    have hm := @missing_snoc graph sorted current n hnot
    have hr := hready n hn
    have hl := hreleased n hn
    simp only [List.mem_append, List.mem_cons, List.not_mem_nil, or_false] at hr hl ⊢
    constructor
    · rintro ((hn' | hn') | hn' | hn')
      · have := hr.1 (Or.inl hn')
        omega
      · have := hr.1 (Or.inr (Or.inl hn'))
        omega
      · have := hr.1 (Or.inr (Or.inr hn'))
        omega
      · exact (hl.1 hn').2
    · intro h0
      by_cases h1 : missing graph sorted n = 0
      · rcases hr.2 h1 with hn' | hn' | hn'
        · exact Or.inl (Or.inl hn')
        · exact Or.inl (Or.inr hn')
        · exact Or.inr (Or.inl hn')
      · exact Or.inr (Or.inr (hl.2 ⟨by omega, h0⟩))

/-- The loop with enough fuel ends with the queue empty. -/
theorem walk_spec {graph : DependencyGraph} (hd : graph.keys.Nodup) (hempty : "" ∉ graph.keys) :
    ∀ (fuel : Nat) (queue : List String) (inDegree : OrderedMap String Int)
      (sorted : List String), Walking graph queue inDegree sorted →
      graph.keys.length < fuel + sorted.length →
      ∃ inDegree', Walking graph [] inDegree'
        (walkTopologicalOrder (buildReverseGraph graph) fuel queue inDegree sorted)
  | 0, queue, inDegree, sorted, h, hfuel => by
      have hsub : sorted.length ≤ graph.keys.length := by
        refine (List.subperm_of_subset h.order.nodup ?_).length_le
        exact fun n hn => h.keys n (List.mem_append_left _ hn)
      omega
  | _ + 1, [], inDegree, sorted, h, _ => ⟨inDegree, h⟩
  | fuel + 1, current :: queue, inDegree, sorted, h, hfuel => by
      have hne : current ≠ "" := by
        rintro rfl
        exact hempty (h.keys "" (by simp))
      rw [walkTopologicalOrder, if_neg hne]
      refine walk_spec hd hempty fuel _ _ _ (h.step hd) ?_
      simp only [List.length_append, List.length_singleton]
      omega

theorem length_le_size : ∀ graph : DependencyGraph, graph.length ≤ size graph
  | [] => by simp
  | e :: graph => by
      have ih := length_le_size graph
      simp only [size] at ih
      simp only [size, List.map_cons, List.sum_cons, List.length_cons]
      omega

/-- **The sort of an acyclic graph** lists every node once, in dependency order. -/
theorem topologicalSort_spec (hd : graph.keys.Nodup) (hempty : "" ∉ graph.keys)
    (hdeps : ∀ n d, d ∈ deps graph n → d ∈ graph.keys)
    (hacc : ∀ n ∈ graph.keys, Acc (fun d y => d ∈ deps graph y) n) :
    DependencyOrder (deps graph) (topologicalSort graph) ∧
      ∀ n, n ∈ topologicalSort graph ↔ n ∈ graph.keys := by
  have hkeysIn : (buildInDegreeMap graph).keys = graph.keys := by
    rw [buildInDegreeMap_eq hd]
    simp [OrderedMap.keys, Function.comp_def]
  have hcounter : ∀ n ∈ graph.keys,
      (buildInDegreeMap graph).get? n = some ((deps graph n).length : Int) := by
    intro n hn
    obtain ⟨e, he, rfl⟩ := List.mem_map.1 hn
    have hget : graph.get? e.1 = some e.2 := OrderedMap.get?_of_mem hd he
    rw [deps, hget]
    refine OrderedMap.get?_of_mem (by rwa [hkeysIn]) ?_
    rw [buildInDegreeMap_eq hd]
    exact List.mem_map.2 ⟨e, he, rfl⟩
  have hzero : ∀ n, n ∈ collectZeroInDegreeNodes (buildInDegreeMap graph) ↔
      n ∈ graph.keys ∧ deps graph n = [] := by
    intro n
    rw [collectZeroInDegreeNodes, List.mem_filterMap]
    constructor
    · rintro ⟨e, he, hif⟩
      split at hif
      · rename_i h0
        simp only [Option.some.injEq] at hif
        subst hif
        have hek : e.1 ∈ graph.keys := by
          rw [← hkeysIn]
          exact List.mem_map_of_mem he
        have hget := OrderedMap.get?_of_mem (by rwa [hkeysIn]) (k := e.1) (v := e.2) he
        rw [hcounter e.1 hek, Option.some.injEq] at hget
        refine ⟨hek, List.length_eq_zero_iff.1 ?_⟩
        omega
      · cases hif
    · rintro ⟨hn, hnil⟩
      have hget := hcounter n hn
      rw [hnil] at hget
      exact ⟨(n, 0), OrderedMap.mem_of_get? hget, by simp⟩
  have hinit : Walking graph (collectZeroInDegreeNodes (buildInDegreeMap graph))
      (buildInDegreeMap graph) [] := by
    refine ⟨.nil, ?_, ?_, ?_, ?_⟩
    · rw [List.nil_append]
      have hsub : (collectZeroInDegreeNodes (buildInDegreeMap graph)).Sublist
          (buildInDegreeMap graph).keys := by
        rw [collectZeroInDegreeNodes, OrderedMap.keys]
        induction buildInDegreeMap graph with
        | nil => simp
        | cons e m ih =>
            rw [List.filterMap_cons, List.map_cons]
            split
            · exact ih.cons _
            · rename_i b hb
              split at hb
              · simp only [Option.some.injEq] at hb
                subst hb
                exact ih.cons_cons _
              · cases hb
      rw [hkeysIn] at hsub
      exact hd.sublist hsub
    · intro n hn
      rw [List.nil_append] at hn
      exact ((hzero n).1 hn).1
    · intro n hn
      rw [counter, hcounter n hn, Option.getD_some, missing]
      simp
    · intro n hn
      rw [List.nil_append, hzero n]
      constructor
      · rintro ⟨-, hnil⟩ d hmem
        simp [hnil] at hmem
      · intro hall
        refine ⟨hn, List.eq_nil_iff_forall_not_mem.2 fun d hmem => ?_⟩
        simpa using hall d hmem
  have hfuel : graph.keys.length < size graph + 1 + ([] : List String).length := by
    have hle : graph.keys.length ≤ size graph := by
      rw [OrderedMap.keys, List.length_map]
      exact length_le_size graph
    simp only [List.length_nil]
    omega
  obtain ⟨inDegree', hend⟩ := walk_spec hd hempty _ _ _ _ hinit hfuel
  refine ⟨hend.order, fun n => ⟨fun hn => ?_, fun hn => ?_⟩⟩
  · exact hend.keys n (List.mem_append_left _ hn)
  · refine mem_of_acc (K := fun n => n ∈ graph.keys) (fun x d _ hdx => hdeps x d hdx)
      (fun x hx hall => ?_) (hacc n hn) hn
    have := (hend.ready x hx).2 hall
    rwa [List.append_nil] at this

/-! ## Levels -/

theorem foldl_raiseLevel (levels : OrderedMap String Int) :
    ∀ (ds : List String) (m : Int),
      m ≤ ds.foldl (raiseLevel levels) m ∧
        (∀ d ∈ ds, (levels.get? d).getD (-1) ≤ ds.foldl (raiseLevel levels) m) ∧
        (ds.foldl (raiseLevel levels) m = m ∨
          ∃ d ∈ ds, (levels.get? d).getD (-1) = ds.foldl (raiseLevel levels) m)
  | [], m => by simp
  | d :: ds, m => by
      have hraise : m ≤ raiseLevel levels m d ∧
          (levels.get? d).getD (-1) ≤ raiseLevel levels m d ∧
          (raiseLevel levels m d = m ∨ (levels.get? d).getD (-1) = raiseLevel levels m d) := by
        simp only [raiseLevel]
        split
        · exact ⟨by omega, le_refl _, Or.inr rfl⟩
        · exact ⟨le_refl _, by omega, Or.inl rfl⟩
      obtain ⟨h1, h2, h3⟩ := foldl_raiseLevel levels ds (raiseLevel levels m d)
      rw [List.foldl_cons]
      refine ⟨hraise.1.trans h1, fun x hx => ?_, ?_⟩
      · rcases List.mem_cons.1 hx with rfl | hx
        · exact hraise.2.1.trans h1
        · exact h2 x hx
      · rcases h3 with h3 | ⟨x, hx, h3⟩
        · rw [h3]
          rcases hraise.2.2 with h | h
          · exact Or.inl h
          · exact Or.inr ⟨d, by simp, h⟩
        · exact Or.inr ⟨x, by simp [hx], h3⟩

theorem maxDependencyLevel_spec (levels : OrderedMap String Int) (ds : List String) :
    -1 ≤ maxDependencyLevel levels ds ∧
      (∀ d ∈ ds, (levels.get? d).getD (-1) ≤ maxDependencyLevel levels ds) ∧
      (maxDependencyLevel levels ds = -1 ∨
        ∃ d ∈ ds, (levels.get? d).getD (-1) = maxDependencyLevel levels ds) :=
  foldl_raiseLevel levels ds (-1)

/-- What the levels of an ordered list say: every node has a level above its dependencies, and
level zero without any. -/
structure Leveled (graph : DependencyGraph) (sorted : List String)
    (levels : OrderedMap String Int) : Prop where
  keys : levels.keys = sorted
  level : ∀ n ∈ sorted, ∃ k : Nat, levels.get? n = some (k : Int) ∧
    (∀ d ∈ deps graph n, ∃ k' : Nat, levels.get? d = some (k' : Int) ∧ k' < k) ∧
    (deps graph n = [] ↔ k = 0)

theorem assignLevels_spec (h : DependencyOrder (deps graph) sorted) :
    Leveled graph sorted (assignLevels graph sorted) := by
  induction h with
  | nil => exact ⟨rfl, by simp⟩
  | @snoc l x hl hx hdeps ih =>
      have hset : assignLevels graph (l ++ [x]) = (assignLevels graph l).set x
          (maxDependencyLevel (assignLevels graph l) (deps graph x) + 1) := by
        rw [assignLevels, List.foldl_append]
        rfl
      obtain ⟨h1, h2, h3⟩ := maxDependencyLevel_spec (assignLevels graph l) (deps graph x)
      have hnotMem : x ∉ (assignLevels graph l).keys := by rwa [ih.keys]
      have hother : ∀ n ∈ l, (assignLevels graph (l ++ [x])).get? n =
          (assignLevels graph l).get? n := by
        intro n hn
        rw [hset, OrderedMap.get?_set_of_ne]
        rintro rfl
        exact hx hn
      refine ⟨?_, fun n hn => ?_⟩
      · have hkeys := ih.keys
        rw [OrderedMap.keys] at hkeys
        rw [hset, OrderedMap.set_of_notMem _ hnotMem, OrderedMap.keys, List.map_append, hkeys]
        rfl
      · rcases List.mem_append.1 hn with hn | hn
        · obtain ⟨k, hk, hbelow, hzero⟩ := ih.level n hn
          refine ⟨k, by rw [hother n hn, hk], fun d hd => ?_, hzero⟩
          obtain ⟨k', hk', hlt⟩ := hbelow d hd
          exact ⟨k', by rw [hother d (hl.closed hn hd), hk'], hlt⟩
        · rw [List.mem_singleton] at hn
          subst hn
          refine ⟨(maxDependencyLevel (assignLevels graph l) (deps graph n) + 1).toNat, ?_,
            fun d hd => ?_, ?_⟩
          · rw [hset, OrderedMap.get?_set_self, Int.toNat_of_nonneg (by omega)]
          · obtain ⟨k, hk, -, -⟩ := ih.level d (hdeps d hd)
            refine ⟨k, by rw [hother d (hdeps d hd), hk], ?_⟩
            have := h2 d hd
            rw [hk, Option.getD_some] at this
            omega
          · constructor
            · intro hnil
              rcases h3 with h3 | ⟨d, hd, -⟩
              · omega
              · simp [hnil] at hd
            · intro h0
              refine List.eq_nil_iff_forall_not_mem.2 fun d hd => ?_
              obtain ⟨k, hk, -, -⟩ := ih.level d (hdeps d hd)
              have := h2 d hd
              rw [hk, Option.getD_some] at this
              omega

theorem mem_pushGroup (x node : String) :
    ∀ (groups : List (List String)) (level i : Nat),
      x ∈ (pushGroup groups level node).getD i [] ↔
        (i = level ∧ x = node) ∨ x ∈ groups.getD i []
  | [], 0, i => by
      cases i <;> simp [pushGroup]
  | [], level + 1, i => by
      cases i with
      | zero => simp [pushGroup]
      | succ i =>
          have ih := mem_pushGroup x node [] level i
          simp only [pushGroup, List.getD_cons_succ, ih]
          simp
  | g :: gs, 0, i => by
      cases i with
      | zero => simp [pushGroup, or_comm]
      | succ i => simp [pushGroup]
  | g :: gs, level + 1, i => by
      cases i with
      | zero => simp [pushGroup]
      | succ i =>
          have ih := mem_pushGroup x node gs level i
          simp only [pushGroup, List.getD_cons_succ, ih]
          simp

theorem mem_foldl_pushGroup (x : String) (i : Nat) :
    ∀ (levels : List (String × Int)) (groups : List (List String)),
      x ∈ (levels.foldl (fun groups e => pushGroup groups e.2.toNat e.1) groups).getD i [] ↔
        (∃ e ∈ levels, e.1 = x ∧ e.2.toNat = i) ∨ x ∈ groups.getD i []
  | [], groups => by simp
  | e :: levels, groups => by
      rw [List.foldl_cons, mem_foldl_pushGroup x i levels, mem_pushGroup]
      simp only [List.mem_cons, exists_eq_or_imp]
      constructor
      · rintro (h | ⟨rfl, rfl⟩ | h)
        · exact Or.inl (Or.inr h)
        · exact Or.inl (Or.inl ⟨rfl, rfl⟩)
        · exact Or.inr h
      · rintro ((⟨rfl, rfl⟩ | h) | h)
        · exact Or.inr (Or.inl ⟨rfl, rfl⟩)
        · exact Or.inl h
        · exact Or.inr (Or.inr h)

end DAGResolverService

/-! ## Accepted definitions -/

open DAGResolverService

/-- What the groups of an accepted definition guarantee: a level for every job, its group, above the
levels of the jobs it needs. -/
structure GroupedJobs (jobs : List IJob) (groups : List (List String)) (level : String → Nat) :
    Prop where
  mem : ∀ x i, x ∈ groups.getD i [] ↔ x ∈ jobs.map IJob.id ∧ level x = i
  above : ∀ j ∈ jobs, ∀ d ∈ j.needIds, level d < level j.id
  zero : ∀ j ∈ jobs, level j.id = 0 ↔ j.needIds = []

/-- The level a node gets from the sort. -/
def jobLevel (graph : DependencyGraph) (node : String) : Nat :=
  (((assignLevels graph (topologicalSort graph)).get? node).getD 0).toNat

theorem deps_jobGraph (hd : (jobs.map IJob.id).Nodup) (hj : j ∈ jobs) :
    deps (jobGraph jobs) j.id = j.needIds := by
  rw [deps, get?_jobGraph hd hj, Option.getD_some]

/-- The sort of an accepted definition lists every job, in dependency order. -/
theorem topologicalSort_jobGraph (hd : (jobs.map IJob.id).Nodup) (hempty : "" ∉ jobs.map IJob.id)
    (h : buildDependencyGraph jobs = .ok (jobGraph jobs)) :
    DependencyOrder (deps (jobGraph jobs)) (topologicalSort (jobGraph jobs)) ∧
      ∀ n, n ∈ topologicalSort (jobGraph jobs) ↔ n ∈ jobs.map IJob.id := by
  obtain ⟨-, hcycles, hneeds, -⟩ := buildDependencyGraph_ok hd h
  have hkeys := keys_jobGraph jobs
  have hclosed : ∀ n d, d ∈ deps (jobGraph jobs) n → d ∈ (jobGraph jobs).keys := by
    intro n d hdn
    by_cases hn : n ∈ (jobGraph jobs).keys
    · rw [hkeys] at hn
      obtain ⟨j, hj, rfl⟩ := List.mem_map.1 hn
      rw [deps_jobGraph hd hj] at hdn
      rw [hkeys]
      exact (hneeds j hj).2 d hdn
    · rw [deps, (OrderedMap.get?_eq_none_iff _ _).2 hn] at hdn
      simp at hdn
  obtain ⟨horder, hmem⟩ := @topologicalSort_spec (jobGraph jobs) (by rwa [hkeys])
    (by rwa [hkeys]) hclosed fun n hn => acc_of_detectCycles hcycles hn
  exact ⟨horder, fun n => by rw [hmem, hkeys]⟩

/-- The groups of an accepted definition follow the levels of the sort. -/
theorem groupedJobs_jobLevel (hd : (jobs.map IJob.id).Nodup) (hempty : "" ∉ jobs.map IJob.id)
    (h : buildDependencyGraph jobs = .ok (jobGraph jobs)) :
    GroupedJobs jobs (findParallelJobs (jobGraph jobs)) (jobLevel (jobGraph jobs)) := by
  obtain ⟨horder, hmem⟩ := topologicalSort_jobGraph hd hempty h
  have hlevels := assignLevels_spec horder
  have hmemKeys : ∀ n, n ∈ (assignLevels (jobGraph jobs)
      (topologicalSort (jobGraph jobs))).keys ↔ n ∈ jobs.map IJob.id := by
    intro n
    rw [hlevels.keys, hmem]
  have hnodup : (assignLevels (jobGraph jobs) (topologicalSort (jobGraph jobs))).keys.Nodup := by
    rw [hlevels.keys]
    exact horder.nodup
  have hsorted : ∀ j ∈ jobs, j.id ∈ topologicalSort (jobGraph jobs) := by
    intro j hj
    rw [hmem]
    exact List.mem_map_of_mem hj
  refine ⟨fun x i => ?_, fun j hj d hdj => ?_, fun j hj => ?_⟩
  · rw [findParallelJobs, mem_foldl_pushGroup, ← hmemKeys]
    simp only [List.getD_nil, List.not_mem_nil, or_false]
    constructor
    · rintro ⟨e, he, rfl, rfl⟩
      refine ⟨List.mem_map_of_mem he, ?_⟩
      rw [jobLevel, OrderedMap.get?_of_mem hnodup (v := e.2) he, Option.getD_some]
    · rintro ⟨hx, rfl⟩
      obtain ⟨e, he, rfl⟩ := List.mem_map.1 hx
      refine ⟨e, he, rfl, ?_⟩
      rw [jobLevel, OrderedMap.get?_of_mem hnodup (v := e.2) he, Option.getD_some]
  · obtain ⟨k, hk, hbelow, -⟩ := hlevels.level j.id (hsorted j hj)
    rw [deps_jobGraph hd hj] at hbelow
    obtain ⟨k', hk', hlt⟩ := hbelow d hdj
    simp only [jobLevel, hk, hk', Option.getD_some, Int.toNat_natCast]
    exact hlt
  · obtain ⟨k, hk, -, hzero⟩ := hlevels.level j.id (hsorted j hj)
    rw [deps_jobGraph hd hj] at hzero
    simp only [jobLevel, hk, Option.getD_some, Int.toNat_natCast]
    exact hzero.symm

/-- **The parallel groups of an accepted definition.** -/
theorem parallelGroups_spec {groups : List (List String)} (hd : (jobs.map IJob.id).Nodup)
    (hempty : "" ∉ jobs.map IJob.id) (h : parallelGroups jobs = .ok groups) :
    ∃ level, GroupedJobs jobs groups level := by
  unfold parallelGroups at h
  cases hg : buildDependencyGraph jobs with
  | error e =>
      rw [hg] at h
      cases h
  | ok graph =>
      rw [hg] at h
      simp only [Except.map, Except.ok.injEq] at h
      obtain ⟨rfl, -⟩ := buildDependencyGraph_ok hd hg
      rw [← h]
      exact ⟨_, groupedJobs_jobLevel hd hempty hg⟩

/-- The level `findJobLevel` finds. -/
theorem GroupedJobs.findJobLevel {groups : List (List String)} {level : String → Nat}
    (h : GroupedJobs jobs groups level) (hj : j ∈ jobs) :
    findJobLevel groups j.id = some (level j.id) := by
  have hmem := (h.mem j.id (level j.id)).2 ⟨List.mem_map_of_mem hj, rfl⟩
  have hlt : level j.id < groups.length := by
    by_contra hge
    rw [List.getD_eq_getElem?_getD, List.getElem?_eq_none (by omega)] at hmem
    simp at hmem
  rw [Nexus.findJobLevel, List.findIdx?_eq_some_iff_getElem]
  refine ⟨hlt, ?_, fun i hi => ?_⟩
  · rw [List.getD_eq_getElem?_getD, List.getElem?_eq_getElem hlt] at hmem
    simpa using hmem
  · have hnot : j.id ∉ groups.getD i [] := fun hmem' => by
      have := ((h.mem j.id i).1 hmem').2
      omega
    rw [List.getD_eq_getElem?_getD, List.getElem?_eq_getElem (by omega)] at hnot
    simpa using hnot

end Nexus
