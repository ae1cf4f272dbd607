import Nexus.Lib.OrderedMap
import Nexus.Workflow.Definition
import Mathlib

/-!
# The dependency graph of a workflow

`DAGResolverService`: the graph of the normalised needs, its rejection of unknown jobs and cycles,
the topological sort, and the levels of jobs that run in parallel. The searches carry fuel; the
amounts they are started with are never used up (`detectCycles_not_outOfFuel` and
`topologicalSort_spec` in the module on the facts of the graph).
-/

set_option autoImplicit false

namespace Nexus

/-- Every job with the ids it depends on. -/
abbrev DependencyGraph := OrderedMap String (List String)

namespace DAGResolverService

/-- The first transition to an unknown job is an error. -/
def validateTransitionTargets (jobs : List IJob) (jobIds : List String) : Except String Unit :=
  match jobs.findSome? fun job => (job.transitionList.find? fun t => t.next ∉ jobIds).map fun t =>
      "Job " ++ job.id ++ " transitions to unknown job: " ++ t.next with
  | some message => .error message
  | none => .ok ()

/-! ## Cycles -/

/-- The sets of the depth-first search. -/
structure CycleSearch where
  visited : List String
  recursionStack : List String

inductive CycleError where
  | circular (jobId : String)
  | outOfFuel
  deriving DecidableEq

/-- The depth-first search from a node. -/
def dfs (graph : DependencyGraph) : Nat → String → CycleSearch → Except CycleError CycleSearch
  | 0, _, _ => .error .outOfFuel
  | fuel + 1, node, s => do
      let entered : CycleSearch := ⟨node :: s.visited, node :: s.recursionStack⟩
      let left ← ((graph.get? node).getD []).foldlM (fun s neighbor =>
        if neighbor ∉ s.visited then dfs graph fuel neighbor s
        else if neighbor ∈ s.recursionStack then .error (.circular neighbor)
        else .ok s) entered
      .ok { left with recursionStack := left.recursionStack.filter (· ≠ node) }

/-- The nodes and the edges of a graph. -/
def size (graph : DependencyGraph) : Nat := (graph.map fun e => e.2.length + 1).sum

/-- The search from every node that is not visited yet. -/
def searchCycles (graph : DependencyGraph) : Except CycleError CycleSearch :=
  graph.keys.foldlM (fun s node =>
    if node ∉ s.visited then dfs graph (size graph) node s else .ok s) ⟨[], []⟩

def detectCycles (graph : DependencyGraph) : Except String Unit :=
  match searchCycles graph with
  | .ok _ => .ok ()
  | .error (.circular jobId) =>
      .error ("Circular dependency detected involving job: " ++ jobId)
  | .error .outOfFuel => .error ""

/-- Adds a job to the graph; a dependency on an unknown job is an error. -/
def addJob (jobIds : List String) (graph : DependencyGraph) (job : IJob) :
    Except String DependencyGraph := do
  let needs ← normalizeWorkflowJobNeeds job
  let explicit := needs.map NormalizedWorkflowNeed.id
  match explicit.find? fun dep => dep ∉ jobIds with
  | some dep => .error ("Job " ++ job.id ++ " depends on unknown job: " ++ dep)
  | none => .ok (graph.set job.id explicit)

def buildDependencyGraph (jobs : List IJob) : Except String DependencyGraph := do
  let jobIds := jobs.map IJob.id
  validateTransitionTargets jobs jobIds
  let graph ← jobs.foldlM (addJob jobIds) []
  detectCycles graph
  .ok graph

/-! ## Topological sort -/

def buildInDegreeMap (graph : DependencyGraph) : OrderedMap String Int :=
  graph.foldl (fun m e => m.set e.1 (e.2.length : Int))
    (graph.foldl (fun m e => m.set e.1 0) [])

/-- `reverseGraph.get(dependency)?.push(node)`. -/
def pushDependent (m : DependencyGraph) (dependency node : String) : DependencyGraph :=
  match m.get? dependency with
  | none => m
  | some dependents => m.set dependency (dependents ++ [node])

def buildReverseGraph (graph : DependencyGraph) : DependencyGraph :=
  graph.foldl (fun m e => e.2.foldl (fun m dependency => pushDependent m dependency e.1) m)
    (graph.foldl (fun m e => m.set e.1 []) [])

def collectZeroInDegreeNodes (inDegree : OrderedMap String Int) : List String :=
  inDegree.filterMap fun e => if e.2 = 0 then some e.1 else none

/-- Takes one dependency off a neighbour and queues it at zero. -/
def releaseNeighbor (s : List String × OrderedMap String Int) (neighbor : String) :
    List String × OrderedMap String Int :=
  let degree := (s.2.get? neighbor).getD 0 - 1
  (if degree = 0 then s.1 ++ [neighbor] else s.1, s.2.set neighbor degree)

/-- The loop over the queue. -/
def walkTopologicalOrder (reverseGraph : DependencyGraph) :
    Nat → List String → OrderedMap String Int → List String → List String
  | 0, _, _, sorted => sorted
  | _ + 1, [], _, sorted => sorted
  | fuel + 1, current :: queue, inDegree, sorted =>
      if current = "" then walkTopologicalOrder reverseGraph fuel queue inDegree sorted
      else
        let next := ((reverseGraph.get? current).getD []).foldl releaseNeighbor (queue, inDegree)
        walkTopologicalOrder reverseGraph fuel next.1 next.2 (sorted ++ [current])

def topologicalSort (graph : DependencyGraph) : List String :=
  let inDegree := buildInDegreeMap graph
  walkTopologicalOrder (buildReverseGraph graph) (size graph + 1)
    (collectZeroInDegreeNodes inDegree) inDegree []

/-! ## Levels -/

/-- Raises the highest level so far to the level of a dependency. -/
def raiseLevel (levels : OrderedMap String Int) (maxLevel : Int) (dep : String) : Int :=
  let depLevel := (levels.get? dep).getD (-1)
  if depLevel > maxLevel then depLevel else maxLevel

/-- The highest level of the dependencies, `-1` without one. -/
def maxDependencyLevel (levels : OrderedMap String Int) (deps : List String) : Int :=
  deps.foldl (raiseLevel levels) (-1)

/-- The level of every node, in the order of the sort. -/
def assignLevels (graph : DependencyGraph) (sorted : List String) : OrderedMap String Int :=
  sorted.foldl (fun levels node =>
    levels.set node (maxDependencyLevel levels ((graph.get? node).getD []) + 1)) []

/-- `groups[level].push(node)`; a level nothing was pushed to is empty. -/
def pushGroup : List (List String) → Nat → String → List (List String)
  | [], 0, node => [[node]]
  | [], level + 1, node => [] :: pushGroup [] level node
  | g :: gs, 0, node => (g ++ [node]) :: gs
  | g :: gs, level + 1, node => g :: pushGroup gs level node

def findParallelJobs (graph : DependencyGraph) : List (List String) :=
  (assignLevels graph (topologicalSort graph)).foldl
    (fun groups e => pushGroup groups e.2.toNat e.1) []

end DAGResolverService

/-- `findJobLevel`; `none` is the source's `-1`. -/
def findJobLevel (parallelGroups : List (List String)) (jobId : String) : Option Nat :=
  parallelGroups.findIdx? fun group => jobId ∈ group

/-- The groups of the jobs of a definition, when its graph is accepted. -/
def parallelGroups (jobs : List IJob) : Except String (List (List String)) :=
  (DAGResolverService.buildDependencyGraph jobs).map DAGResolverService.findParallelJobs

end Nexus
