import Nexus.Lib.Pool
import Mathlib

/-!
# Eviction of memory segments

One pass of `MemoryEvictionReaperService` beside pins, accesses, archivings and changes of the source
of segments. Every repository call is one atomic step. The settings, the segments that the
usefulness predicate retains and the deletions that fail are the environment's; failures of the
predicate retain nothing.

The pass scans once and then deletes by id. A segment that stops to be evictable between the two is
deleted all the same (`pinned_segment_evicted`).
-/

set_option autoImplicit false

namespace Nexus

namespace MemoryEvictionReaper

/-! ## Segments -/

structure MemorySegment where
  id : String
  source : Option String := none
  pinned : Bool := false
  archived_at : Option Int := none
  access_count : Nat := 0
  last_accessed_at : Option Int := none
  created_at : Int
  deriving DecidableEq

structure EvictionSettings where
  maxIdleDays : Nat
  minAccessCount : Nat
  protectedSources : List String

structure MemoryEvictionRunOptions where
  now : Int
  maxRows : Option Nat := none

def DEFAULT_MAX_ROWS_PER_RUN : Nat := 1000

def MS_PER_DAY : Int := 86400000

def idleCutoff (options : MemoryEvictionRunOptions) (settings : EvictionSettings) : Int :=
  options.now - settings.maxIdleDays * MS_PER_DAY

/-- The condition of `findEvictionCandidates`. -/
def isCandidate (protectedSources : List String) (minAccessCount : Nat) (idleCutoff : Int)
    (segment : MemorySegment) : Bool :=
  segment.archived_at.isNone && !segment.pinned && segment.access_count < minAccessCount &&
    (protectedSources = [] || segment.source.all fun source => source ∉ protectedSources) &&
    match segment.last_accessed_at with
    | some accessedAt => accessedAt < idleCutoff
    | none => segment.created_at < idleCutoff

/-- What a segment is changed by beside the pass. -/
inductive SegmentChange where
  | pin (pinned : Bool)
  | access (at_ : Int)
  | archive (at_ : Int)
  | setSource (source : Option String)

def SegmentChange.apply (segment : MemorySegment) : SegmentChange → MemorySegment
  | .pin pinned => { segment with pinned := pinned }
  | .access at_ =>
      { segment with access_count := segment.access_count + 1, last_accessed_at := some at_ }
  | .archive at_ => { segment with archived_at := some at_ }
  | .setSource source => { segment with source := source }

theorem SegmentChange.apply_id (segment : MemorySegment) (change : SegmentChange) :
    (change.apply segment).id = segment.id := by
  cases change <;> rfl

/-- The rows of `memory_segments`, with the ids as their primary key. -/
structure SegmentTable where
  rows : List MemorySegment
  keyed : (rows.map MemorySegment.id).Nodup

def SegmentTable.change (table : SegmentTable) (id : String) (change : SegmentChange) :
    SegmentTable where
  rows := table.rows.map fun row => if row.id = id then change.apply row else row
  keyed := by
    have hids : MemorySegment.id ∘ (fun row => if row.id = id then change.apply row else row) =
        MemorySegment.id := by
      funext row
      by_cases hid : row.id = id
      · simp [hid, change.apply_id]
      · simp [hid]
    rw [List.map_map, hids]
    exact table.keyed

def SegmentTable.remove (table : SegmentTable) (id : String) : SegmentTable where
  rows := table.rows.filter fun row => row.id ≠ id
  keyed := table.keyed.sublist (List.filter_sublist.map _)

/-! ## Operations -/

/-- What the environment decides; the deletions by the number of the step. -/
structure EvictionEnv where
  settings : EvictionSettings
  retained : List MemorySegment → List String := fun _ => []
  removeFails : Nat → Bool := fun _ => false

structure EvictionStore where
  table : SegmentTable
  steps : Nat := 0

inductive EvictionOp where
  | resolveSettings
  | findEvictionCandidates (protectedSources : List String) (minAccessCount : Nat)
      (idleCutoff : Int)
  | resolveValueRetainedIds (candidates : List MemorySegment)
  | remove (id : String)
  | emitEvicted (segment : MemorySegment)
  | change (id : String) (change : SegmentChange)

/-- A deletion answers the rows it has deleted, unless it throws. -/
abbrev EvictionOp.Ans : EvictionOp → Type
  | .resolveSettings => EvictionSettings
  | .findEvictionCandidates _ _ _ => List MemorySegment
  | .resolveValueRetainedIds _ => List String
  | .remove _ => Option (List MemorySegment)
  | .emitEvicted _ => Unit
  | .change _ _ => Unit

def EvictionOp.write (env : EvictionEnv) (s : EvictionStore) : EvictionOp → SegmentTable
  | .remove id => if env.removeFails s.steps then s.table else s.table.remove id
  | .change id edit => s.table.change id edit
  | _ => s.table

def EvictionOp.answer (env : EvictionEnv) (s : EvictionStore) : (o : EvictionOp) → o.Ans
  | .resolveSettings => env.settings
  | .findEvictionCandidates protectedSources minAccessCount idleCutoff =>
      s.table.rows.filter (isCandidate protectedSources minAccessCount idleCutoff)
  | .resolveValueRetainedIds candidates => env.retained candidates
  | .remove id =>
      if env.removeFails s.steps then none else some (s.table.rows.filter fun row => row.id = id)
  | .emitEvicted _ => ()
  | .change _ _ => ()

def evictionMachine (env : EvictionEnv) : Machine EvictionOp EvictionOp.Ans EvictionStore where
  exec s o := ({ table := o.write env s, steps := s.steps + 1 }, o.answer env s)
  enabled _ _ := True

instance (env : EvictionEnv) (s : EvictionStore) (o : EvictionOp) :
    Decidable ((evictionMachine env).enabled s o) :=
  inferInstanceAs (Decidable True)

/-! ## The pass -/

abbrev EvictionProg (α : Type) := Prog EvictionOp EvictionOp.Ans Empty α

def awaitEviction (o : EvictionOp) : EvictionProg o.Ans := .call o .pure

inductive EvictOutcome where
  | evicted
  | skipped
  | error

structure EvictionTally where
  evicted : Nat := 0
  skipped : Nat := 0
  errors : Nat := 0
  deriving DecidableEq

def EvictionTally.count (tally : EvictionTally) : EvictOutcome → EvictionTally
  | .evicted => { tally with evicted := tally.evicted + 1 }
  | .skipped => { tally with skipped := tally.skipped + 1 }
  | .error => { tally with errors := tally.errors + 1 }

def EvictionTally.sum (tally : EvictionTally) : Nat := tally.evicted + tally.skipped + tally.errors

structure MemoryEvictionRunSummary extends EvictionTally where
  scanned : Nat
  deriving DecidableEq

/-- Every candidate is counted, unless the pass has stopped at its cap. -/
def MemoryEvictionRunSummary.Counts (options : MemoryEvictionRunOptions)
    (summary : MemoryEvictionRunSummary) : Prop :=
  summary.scanned = summary.sum ∨
    options.maxRows.getD DEFAULT_MAX_ROWS_PER_RUN ≤ summary.evicted + summary.errors

def evictOne (candidate : MemorySegment) (retainedByValue : List String) :
    EvictionProg EvictOutcome :=
  if candidate.pinned then .pure .skipped
  else if candidate.id ∈ retainedByValue then .pure .skipped
  else do
    match ← awaitEviction (.remove candidate.id) with
    | none => .pure .error
    | some _ => do
        awaitEviction (.emitEvicted candidate)
        .pure .evicted

/-- The loop over the candidates; it ends early at the cap. -/
def evictAll (maxRows : Nat) (retainedByValue : List String) :
    List MemorySegment → EvictionTally → EvictionProg EvictionTally
  | [], tally => .pure tally
  | candidate :: rest, tally =>
      if maxRows ≤ tally.evicted + tally.errors then .pure tally
      else do
        let outcome ← evictOne candidate retainedByValue
        evictAll maxRows retainedByValue rest (tally.count outcome)

def runOnce (options : MemoryEvictionRunOptions) : EvictionProg MemoryEvictionRunSummary := do
  let settings ← awaitEviction .resolveSettings
  let candidates ← awaitEviction (.findEvictionCandidates settings.protectedSources
    settings.minAccessCount (idleCutoff options settings))
  let retainedByValue ← awaitEviction (.resolveValueRetainedIds candidates)
  let tally ← evictAll (options.maxRows.getD DEFAULT_MAX_ROWS_PER_RUN) retainedByValue candidates {}
  .pure { tally with scanned := candidates.length }

/-- The pass, and the changes beside it, each of a thread of its own. -/
def evictionThreads {ι : Type} (options : MemoryEvictionRunOptions)
    (changes : ι → String × SegmentChange) :
    Option ι → EvictionProg (Option MemoryEvictionRunSummary)
  | none => do
      let summary ← runOnce options
      .pure (some summary)
  | some t => do
      awaitEviction (.change (changes t).1 (changes t).2)
      .pure none

/-! ## What is evictable -/

/-- The segment may be evicted. -/
def Evictable (settings : EvictionSettings) (cutoff : Int) (segment : MemorySegment) : Prop :=
  segment.archived_at = none ∧ segment.pinned = false ∧
    (∀ source ∈ segment.source, source ∉ settings.protectedSources) ∧
    segment.access_count < settings.minAccessCount ∧
    segment.last_accessed_at.getD segment.created_at < cutoff

instance (settings : EvictionSettings) (cutoff : Int) (segment : MemorySegment) :
    Decidable (Evictable settings cutoff segment) :=
  inferInstanceAs (Decidable (_ ∧ _ ∧ (∀ source ∈ _, _) ∧ _ ∧ _))

theorem evictable_of_isCandidate {settings : EvictionSettings} {cutoff : Int}
    {segment : MemorySegment} (h : isCandidate settings.protectedSources settings.minAccessCount
      cutoff segment = true) : Evictable settings cutoff segment := by
  simp only [isCandidate, Bool.and_eq_true, Bool.or_eq_true, decide_eq_true_eq,
    Bool.not_eq_true', Option.isNone_iff_eq_none] at h
  obtain ⟨⟨⟨⟨harchived, hpinned⟩, hcount⟩, hsource⟩, hidle⟩ := h
  refine ⟨harchived, hpinned, fun source hs => ?_, hcount, ?_⟩
  · rcases hsource with hnil | hall
    · simp [hnil]
    · simpa [Option.mem_def.1 hs] using hall
  · cases haccessed : segment.last_accessed_at with
    | none => simpa [haccessed] using hidle
    | some accessedAt => simpa [haccessed] using hidle

/-! ## Runs -/

section Runs

variable {ι : Type}

abbrev EvictionEntry (ι : Type) : Type := Entry (Option ι) EvictionOp EvictionOp.Ans

abbrev EvictionConfig (ι : Type) : Type :=
  Config (Option ι) EvictionOp EvictionOp.Ans Empty (Option MemoryEvictionRunSummary) EvictionStore

/-- The rows that a step has deleted. -/
def deletedRows : EvictionEntry ι → List MemorySegment
  | ⟨_, .remove _, some rows⟩ => rows
  | _ => []

/-- Every deleted row was evictable. -/
def DeletesEvictable (env : EvictionEnv) (options : MemoryEvictionRunOptions)
    (c : EvictionConfig ι) : Prop :=
  ∀ e ∈ c.log, ∀ row ∈ deletedRows e, Evictable env.settings (idleCutoff options env.settings) row

instance (env : EvictionEnv) (options : MemoryEvictionRunOptions) (c : EvictionConfig ι) :
    Decidable (DeletesEvictable env options c) :=
  inferInstanceAs (Decidable (∀ e ∈ _, ∀ row ∈ _, _))

/-- A pass that has ended has counted every candidate, unless it has stopped at its cap. -/
def CountsCandidates (options : MemoryEvictionRunOptions) (c : EvictionConfig ι) : Prop :=
  ∀ summary, c.threads none = .pure (some summary) → summary.Counts options

/-- The candidates that a thread has scanned. -/
def scan (candidates : List MemorySegment) : (o : EvictionOp) → o.Ans → List MemorySegment
  | .findEvictionCandidates _ _ _, found => found
  | _, _ => candidates

/-! ## The contract of the pass -/

/-- What a thread may issue: the pass scans by the settings and deletes what it has scanned. -/
def Issues (env : EvictionEnv) (options : MemoryEvictionRunOptions) :
    Option ι → List MemorySegment → EvictionOp → Prop
  | none, _, .findEvictionCandidates protectedSources minAccessCount cutoff =>
      protectedSources = env.settings.protectedSources ∧
        minAccessCount = env.settings.minAccessCount ∧ cutoff = idleCutoff options env.settings
  | none, candidates, .remove id => id ∈ candidates.map MemorySegment.id
  | none, _, .change _ _ => False
  | none, _, _ => True
  | some _, _, o => ∃ id edit, o = .change id edit

def Answers (env : EvictionEnv) (_ : Option ι) (_ : List MemorySegment) :
    (o : EvictionOp) → o.Ans → Prop
  | .resolveSettings, settings => settings = env.settings
  | _, _ => True

/-- The pass returns a summary that has counted. -/
def Returns (options : MemoryEvictionRunOptions) :
    Option ι → Option MemoryEvictionRunSummary → List MemorySegment → Prop
  | none, result, _ => ∀ summary, result = some summary → summary.Counts options
  | some _, _, _ => True

abbrev Follows (env : EvictionEnv) (options : MemoryEvictionRunOptions) (t : Option ι) {α : Type}
    (Q : α → List MemorySegment → Prop) (p : EvictionProg α) (g : List MemorySegment) : Prop :=
  p.Meets (Pool.following scan (Issues env options t) (Answers env t)) Q (fun _ _ => True) g

variable {env : EvictionEnv} {options : MemoryEvictionRunOptions} {g : List MemorySegment}
  {t : Option ι}

theorem follows_await {o : EvictionOp} {Q : o.Ans → List MemorySegment → Prop}
    (hissue : Issues env options t g o)
    (hQ : ∀ ans, Answers env t g o ans → Q ans (scan g o ans)) :
    Follows env options t Q (awaitEviction o) g := by
  refine ⟨hissue, ?_⟩
  rintro ans g' ⟨rfl, hans⟩
  exact hQ ans hans

theorem evictOne_follows {candidate : MemorySegment} (retainedByValue : List String)
    (hmem : candidate.id ∈ g.map MemorySegment.id) :
    Follows env options (none : Option ι) (fun _ g' => g' = g)
      (evictOne candidate retainedByValue) g := by
  refine Prog.meets_ite (fun _ => rfl) fun _ => Prog.meets_ite (fun _ => rfl) fun _ => ?_
  refine Prog.Meets.bind (follows_await (Q := fun _ g' => g' = g) hmem fun _ _ => rfl) ?_
  rintro removed g' rfl
  cases removed with
  | none => exact rfl
  | some rows =>
      exact Prog.Meets.bind (follows_await (Q := fun _ g₁ => g₁ = g') trivial fun _ _ => rfl)
        fun _ _ hg => hg

theorem sum_count (tally : EvictionTally) (outcome : EvictOutcome) :
    (tally.count outcome).sum = tally.sum + 1 := by
  cases outcome <;> simp only [EvictionTally.count, EvictionTally.sum] <;> omega

/-- The loop counts the candidates it is left with, unless it ends at the cap. -/
theorem evictAll_follows (maxRows : Nat) (retainedByValue : List String)
    (candidates : List MemorySegment) (tally : EvictionTally)
    (hmem : ∀ candidate ∈ candidates, candidate.id ∈ g.map MemorySegment.id) :
    Follows env options (none : Option ι)
      (fun tally' _ => tally'.sum = tally.sum + candidates.length ∨
        maxRows ≤ tally'.evicted + tally'.errors)
      (evictAll maxRows retainedByValue candidates tally) g := by
  induction candidates generalizing tally with
  | nil => exact .inl rfl
  | cons candidate rest ih =>
      refine Prog.meets_ite (fun hcap => .inr hcap) fun _ => ?_
      refine (evictOne_follows retainedByValue (hmem candidate List.mem_cons_self)).bind ?_
      rintro outcome g' rfl
      refine (ih (tally.count outcome) fun c hc => hmem c (List.mem_cons_of_mem _ hc)).mono ?_
        fun _ _ h => h
      intro tally' _ hcounted
      rw [sum_count] at hcounted
      rw [List.length_cons]
      exact hcounted.imp_left fun heq => by omega

theorem threads_follow (env : EvictionEnv) (changes : ι → String × SegmentChange) (t : Option ι) :
    Follows env options t (Returns options t) (evictionThreads options changes t) [] := by
  cases t with
  | some t => exact Prog.Meets.bind (follows_await ⟨_, _, rfl⟩ fun _ _ => trivial) fun _ _ hg => hg
  | none =>
      have hpass : Follows env options (none : Option ι)
          (fun summary _ => summary.Counts options) (runOnce options) [] := by
        refine Prog.Meets.bind (follows_await (o := .resolveSettings)
          (Q := fun settings _ => settings = env.settings) trivial fun _ hans => hans) ?_
        rintro settings g₁ rfl
        refine Prog.Meets.bind (follows_await (Q := fun found g' => g' = found) ⟨rfl, rfl, rfl⟩
          fun _ _ => rfl) ?_
        rintro candidates g₂ rfl
        refine Prog.Meets.bind (follows_await (Q := fun _ g₃ => g₃ = g₂) trivial fun _ _ => rfl) ?_
        rintro retained g₃ rfl
        refine (evictAll_follows _ retained g₃ {} fun c hc => List.mem_map_of_mem hc).bind ?_
        intro tally g₄ hcounted
        refine hcounted.imp_left fun heq => ?_
        simpa [EvictionTally.sum] using heq.symm
      refine hpass.bind fun summary g' hcounts => ?_
      intro summary' hsummary
      rw [← Option.some.inj hsummary]
      exact hcounts

theorem answers_exec (w : EvictionStore) (o : EvictionOp) :
    Answers env t g o ((evictionMachine env).exec w o).2 := by
  cases o with
  | resolveSettings => exact rfl
  | _ => exact trivial

variable [DecidableEq ι]

/-- The ids that the pass has scanned after a log. -/
def scannedIds (log : List (EvictionEntry ι)) : List String :=
  (Pool.track scan (fun _ => []) log none).map MemorySegment.id

/-- A change of a segment that the pass has scanned leaves it evictable. -/
def KeepsCandidates (env : EvictionEnv) (cutoff : Int) (c : EvictionConfig ι) (_ : Option ι) :
    EvictionOp → Prop
  | .change id change => id ∈ scannedIds c.log → ∀ row ∈ c.world.table.rows, row.id = id →
      Evictable env.settings cutoff (change.apply row)
  | _ => True

instance (env : EvictionEnv) (cutoff : Int) (c : EvictionConfig ι) (t : Option ι) (o : EvictionOp) :
    Decidable (KeepsCandidates env cutoff c t o) := by
  cases o with
  | change id edit => exact inferInstanceAs (Decidable (_ → ∀ row ∈ _, _ → _))
  | _ => exact isTrue trivial

/-- What holds in a run that keeps its candidates. -/
structure EvictionKept (env : EvictionEnv) (options : MemoryEvictionRunOptions)
    (c : EvictionConfig ι) : Prop where
  rows : ∀ row ∈ c.world.table.rows, row.id ∈ scannedIds c.log →
    Evictable env.settings (idleCutoff options env.settings) row
  deletions : DeletesEvictable env options c

theorem scannedIds_advance {c : EvictionConfig ι} {o : EvictionOp} {k : o.Ans → EvictionProg _}
    (ho : ∀ protectedSources minAccessCount cutoff,
      o ≠ .findEvictionCandidates protectedSources minAccessCount cutoff) :
    scannedIds (Pool.advance (evictionMachine env) c t o k).log = scannedIds c.log := by
  rw [scannedIds, scannedIds]
  congr 1
  by_cases ht : none = t
  · subst ht
    rw [Pool.track_advance_self]
    cases o with
    | findEvictionCandidates => exact absurd rfl (ho _ _ _)
    | _ => rfl
  · rw [Pool.track_advance_of_ne ht]

/-- **The step lemma.** -/
theorem evictionKept_step {c : EvictionConfig ι} {o : EvictionOp} {k : o.Ans → EvictionProg _}
    (h : EvictionKept env options c)
    (hissue : Issues env options t (Pool.track scan (fun _ => []) c.log t) o)
    (hkeeps : KeepsCandidates env (idleCutoff options env.settings) c t o) :
    EvictionKept env options (Pool.advance (evictionMachine env) c t o k) := by
  cases o with
  | findEvictionCandidates protectedSources minAccessCount cutoff =>
      cases t with
      | some t =>
          obtain ⟨id, edit, ho⟩ := hissue
          cases ho
      | none =>
          obtain ⟨rfl, rfl, rfl⟩ := hissue
          refine ⟨fun row hrow hscanned => ?_, List.forall_mem_cons.2 ⟨nofun, h.deletions⟩⟩
          rw [scannedIds, Pool.track_advance_self] at hscanned
          obtain ⟨found, hfound, hid⟩ := List.mem_map.1 hscanned
          obtain ⟨hmem, hcandidate⟩ := List.mem_filter.1 hfound
          obtain rfl := List.inj_on_of_nodup_map c.world.table.keyed hmem hrow hid
          exact evictable_of_isCandidate hcandidate
  | remove id =>
      cases t with
      | some t =>
          obtain ⟨id', edit, ho⟩ := hissue
          cases ho
      | none =>
          have hkept : ∀ row ∈ ((EvictionOp.remove id).write env c.world).rows,
              row ∈ c.world.table.rows := by
            intro row hrow
            rw [EvictionOp.write] at hrow
            split at hrow
            · exact hrow
            · exact (List.mem_filter.1 hrow).1
          refine ⟨fun row hrow hscanned => h.rows row (hkept row hrow) ?_,
            List.forall_mem_cons.2 ⟨fun row hrow => ?_, h.deletions⟩⟩
          · rwa [scannedIds_advance (by simp)] at hscanned
          · change row ∈ deletedRows ⟨none, .remove id, if env.removeFails c.world.steps then none
              else some (c.world.table.rows.filter fun row => row.id = id)⟩ at hrow
            split at hrow
            · cases hrow
            · obtain ⟨hmem, hid⟩ := List.mem_filter.1 hrow
              exact h.rows row hmem (of_decide_eq_true hid ▸ hissue)
  | change id edit =>
      refine ⟨fun row hrow hscanned => ?_, List.forall_mem_cons.2 ⟨nofun, h.deletions⟩⟩
      rw [scannedIds_advance (by simp)] at hscanned
      obtain ⟨old, hold, rfl⟩ := List.mem_map.1 hrow
      by_cases hid : old.id = id
      · rw [if_pos hid] at hscanned ⊢
        rw [SegmentChange.apply_id, hid] at hscanned
        exact hkeeps hscanned old hold hid
      · rw [if_neg hid] at hscanned ⊢
        exact h.rows old hold hscanned
  | resolveSettings | resolveValueRetainedIds candidates | emitEvicted segment =>
      refine ⟨fun row hrow hscanned => h.rows row hrow ?_,
        List.forall_mem_cons.2 ⟨nofun, h.deletions⟩⟩
      rwa [scannedIds_advance (by simp)] at hscanned

/-- **A pass deletes evictable segments** in a run whose changes leave the scanned segments
evictable. In every run it counts every candidate, unless it stops at its cap. -/
theorem eviction_deletes_evictable (env : EvictionEnv) (options : MemoryEvictionRunOptions)
    (w : EvictionStore) (changes : ι → String × SegmentChange) (c : EvictionConfig ι) :
    (Pool.Reach (evictionMachine env) Pool.anyStep
      (Pool.start w (evictionThreads options changes)) c → CountsCandidates options c) ∧
    (Pool.Reach (evictionMachine env) (KeepsCandidates env (idleCutoff options env.settings))
      (Pool.start w (evictionThreads options changes)) c → DeletesEvictable env options c) := by
  refine ⟨fun hreach summary hsummary => ?_, fun hreach => ?_⟩
  · have hinit : Function.const (EvictionConfig ι) True
        (Pool.start w (evictionThreads options changes)) := trivial
    have hpass := (Pool.Reach.follows (threads_follow env changes) hinit
      (fun _ t o _ _ _ _ _ _ => ⟨answers_exec _ o, trivial⟩) hreach).2 none
    rw [hsummary] at hpass
    exact hpass summary rfl
  · have hinit : EvictionKept env options (Pool.start w (evictionThreads options changes)) :=
      ⟨fun row _ hscanned => absurd hscanned List.not_mem_nil,
        by simp [DeletesEvictable, Pool.start]⟩
    exact (Pool.Reach.follows (threads_follow env changes) hinit
      (fun _ t o _ h _ hissue _ hkeeps =>
        ⟨answers_exec _ o, evictionKept_step h hissue hkeeps⟩) hreach).1.deletions

end Runs

/-! ## A segment that is idle -/

def idleEnv : EvictionEnv where
  settings := { maxIdleDays := 30, minAccessCount := 1, protectedSources := ["learning_candidate"] }

def idleOptions : MemoryEvictionRunOptions := { now := 100 * MS_PER_DAY }

def idleStore : EvictionStore where
  table := { rows := [{ id := "segment", created_at := 0 }], keyed := List.nodup_singleton _ }

/-- A user pins the segment. -/
def pins (_ : Unit) : String × SegmentChange := ("segment", .pin true)

/-- The user pins the segment after it has been deleted. -/
def pinnedLate : EvictionConfig Unit :=
  Pool.play (evictionMachine idleEnv) [(none, 5), (some (), 1)]
    (Pool.start idleStore (evictionThreads idleOptions pins))

theorem eviction_deletes_evictable_pinnedLate :
    CountsCandidates idleOptions pinnedLate ∧ DeletesEvictable idleEnv idleOptions pinnedLate :=
  (eviction_deletes_evictable idleEnv idleOptions idleStore pins pinnedLate).imp
    (fun h => h (Pool.reach_play _ _))
    (fun h => h (Pool.reach_play_of_admits _ _ (by decide +kernel)))

/-- A segment that a user pins between the scan and the deletion is deleted. -/
theorem pinned_segment_evicted :
    ∃ c : EvictionConfig Unit, Pool.Reach (evictionMachine idleEnv) Pool.anyStep
      (Pool.start idleStore (evictionThreads idleOptions pins)) c ∧
      (c.log.flatMap deletedRows).map MemorySegment.pinned = [true] ∧
      ¬ DeletesEvictable idleEnv idleOptions c :=
  ⟨Pool.play (evictionMachine idleEnv) [(none, 3), (some (), 1), (none, 2)] _,
    Pool.reach_play _ _, by decide +kernel, by decide +kernel⟩

end MemoryEvictionReaper

end Nexus
