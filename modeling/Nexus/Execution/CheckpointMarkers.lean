import Nexus.Await.AgentAwait
import Mathlib

/-!
# Session checkpoint markers

`SessionCheckpointWriter` appends a marker to a sidecar file when a tool starts (`intent`) and when
it ends (`result`); `readLatestMarker` reads the sidecar after the process has died. A writer starts
its numbers again in every process, nothing waits for its writes, and both markers of a call have
one number, of which the reader keeps the first. So the marker it finds is the wanted one just when
the number of the latest call stands out in the sidecar (`latest_found_iff`).

Every marker carries the call it belongs to for bookkeeping; no modelled function reads it.
-/

set_option autoImplicit false

namespace Nexus

/-! ## Markers -/

inductive SessionCheckpointPhase where
  | intent
  | result
  deriving DecidableEq, Repr

structure SessionCheckpointMarker where
  engine : String
  sessionRef : Option HarnessSessionRef
  resumeNodeId : Option String
  phase : SessionCheckpointPhase
  callSeq : Nat
  toolName : String
  idempotencyKey : Option String := none
  deriving DecidableEq

def BUILTIN_HARNESS_IDS : List String := ["pi", "claude-code"]

def isHarnessId (value : String) : Bool :=
  BUILTIN_HARNESS_IDS.contains value ||
    ("custom:".toList.isPrefixOf value.toList && decide ("custom:".length < value.length))

/-- `isSessionCheckpointMarker`: the types of the phase and the number are those of the fields. -/
def isSessionCheckpointMarker (value : SessionCheckpointMarker) : Bool := isHarnessId value.engine

/-- A tool call: the process that made it and its number there. -/
structure ToolCallId where
  process : Nat
  callSeq : Nat
  deriving DecidableEq, Repr

/-- A marker and the call it belongs to. -/
abbrev CallMarker := ToolCallId × SessionCheckpointMarker

/-! ## The sidecar -/

/-- What stands on a line: the whole text of a marker, or the beginning of one. -/
inductive SidecarPiece where
  | text (marker : CallMarker)
  | torn
  deriving DecidableEq

/-- The file: the lines that are ended and what follows the last end of a line. -/
structure Sidecar where
  ended : List (List SidecarPiece) := []
  last : List SidecarPiece := []

/-- `raw.split('\n')`. -/
def Sidecar.lines (file : Sidecar) : List (List SidecarPiece) := file.ended ++ [file.last]

/-- `appendFile(JSON.stringify(marker) + '\n')`. -/
def Sidecar.appendLine (file : Sidecar) (marker : CallMarker) : Sidecar where
  ended := file.ended ++ [file.last ++ [.text marker]]
  last := []

/-- What is left of an append that was cut off. -/
def Sidecar.appendPiece (file : Sidecar) (piece : SidecarPiece) : Sidecar :=
  { file with last := file.last ++ [piece] }

/-- The marker on a line. The texts of markers are objects: the beginning of one is no JSON text,
nor is a line with anything before or after one. -/
def parseLine : List SidecarPiece → Option CallMarker
  | [.text marker] => if isSessionCheckpointMarker marker.2 then some marker else none
  | _ => none

/-- The whole text of a marker. -/
def pieceMarker? : SidecarPiece → Option CallMarker
  | .text marker => some marker
  | .torn => none

/-- All whole texts of markers, in the order of the file. -/
def Sidecar.texts (file : Sidecar) : List CallMarker := file.lines.flatten.filterMap pieceMarker?

/-- The loop of `readLatestMarker` on one line. -/
def keepHighest (best : Option SessionCheckpointMarker) (line : List SidecarPiece) :
    Option SessionCheckpointMarker :=
  match parseLine line with
  | none => best
  | some parsed =>
      match best with
      | none => some parsed.2
      | some found => if found.callSeq < parsed.2.callSeq then some parsed.2 else some found

/-- `readLatestMarker`; a file that does not exist has no marker. -/
def readLatestMarker : Option Sidecar → Option SessionCheckpointMarker
  | none => none
  | some file => file.lines.foldl keepHighest none

/-! ## The writer -/

/-- The engines that have a writer. -/
inductive CheckpointEngine where
  | pi
  | claudeCode
  deriving DecidableEq, Repr

def CheckpointEngine.text : CheckpointEngine → String
  | pi => "pi"
  | claudeCode => "claude-code"

/-- `maybeCreateCheckpointWriter`, where the sidecar has a path: the harness with this id has a
writer. -/
def checkpointEngine? (harnessId : String) : Option CheckpointEngine :=
  if harnessId = "pi" then some .pi
  else if harnessId = "claude-code" then some .claudeCode
  else none

/-- `getSessionRef`, given the session id produced so far. -/
def getSessionRef (engine : CheckpointEngine) (producedSessionId : Option String) :
    Option HarnessSessionRef :=
  match engine with
  | .claudeCode =>
      match producedSessionId with
      | some sessionId => if sessionId = "" then none else some (.claudeCode sessionId)
      | none => none
  | .pi => none

/-- `resolveNodeId`. -/
def resolveNodeId : Option HarnessSessionRef → Option String
  | some (.pi _ resumeNodeId) => resumeNodeId
  | _ => none

structure SessionCheckpointWriter where
  engine : CheckpointEngine
  seq : Nat := 0
  seqByCall : OrderedMap String Nat := []

/-- A digest of the number, the tool and the arguments of a call. -/
abbrev IdempotencyDigest := Nat → String → Json → String

/-- `onEvent` for `tool_execution_start`: the writer after it and the marker that it writes. -/
def SessionCheckpointWriter.onToolStart (digest : IdempotencyDigest)
    (writer : SessionCheckpointWriter) (producedSessionId : Option String)
    (toolCallId toolName : String) (args : Json) :
    SessionCheckpointWriter × SessionCheckpointMarker :=
  let callSeq := writer.seq + 1
  let sessionRef := getSessionRef writer.engine producedSessionId
  ({ writer with
      seq := callSeq
      seqByCall := OrderedMap.set writer.seqByCall toolCallId callSeq },
    { engine := writer.engine.text
      sessionRef := sessionRef
      resumeNodeId := resolveNodeId sessionRef
      phase := .intent
      callSeq := callSeq
      toolName := toolName
      idempotencyKey := some (digest callSeq toolName args) })

/-- `onEvent` for `tool_execution_end`: an end without a start writes nothing. -/
def SessionCheckpointWriter.onToolEnd (writer : SessionCheckpointWriter)
    (producedSessionId : Option String) (toolCallId toolName : String) :
    SessionCheckpointWriter × Option SessionCheckpointMarker :=
  match OrderedMap.get? writer.seqByCall toolCallId with
  | none => (writer, none)
  | some callSeq =>
      let sessionRef := getSessionRef writer.engine producedSessionId
      ({ writer with seqByCall := OrderedMap.erase writer.seqByCall toolCallId },
        some
          { engine := writer.engine.text
            sessionRef := sessionRef
            resumeNodeId := resolveNodeId sessionRef
            phase := .result
            callSeq := callSeq
            toolName := toolName })

/-! ## Histories -/

/-- A running process: its writer and the writes that are under way. -/
structure HarnessProcess where
  writer : SessionCheckpointWriter
  inFlight : List CallMarker := []

/-- What a crash leaves of a write that is under way. -/
inductive CrashRest where
  | nothing
  | beginning (place : Nat)
  | textWithoutNewline (place : Nat)

inductive HarnessEvent where
  | spawn (harnessId : String)
  | toolStart (producedSessionId : Option String) (toolCallId toolName : String) (args : Json)
  | toolEnd (producedSessionId : Option String) (toolCallId toolName : String)
  /-- The write at a place is done; writes under way are done in any order. -/
  | written (place : Nat)
  /-- The write at a place fails, which is only logged. -/
  | writeFailed (place : Nat)
  | crash (rest : CrashRest)

/-- The sidecar of a step, the process that appends to it, how many there were, and all calls in the
order of their starts. -/
structure HarnessHistory where
  sidecar : Option Sidecar := none
  process : Option HarnessProcess := none
  processes : Nat := 0
  calls : List ToolCallId := []

namespace HarnessHistory

/-- What a crash leaves of the sidecar. -/
def tear (file : Option Sidecar) (inFlight : List CallMarker) : CrashRest → Option Sidecar
  | .nothing => file
  | .beginning place =>
      if place < inFlight.length then some ((file.getD {}).appendPiece .torn) else file
  | .textWithoutNewline place =>
      match inFlight[place]? with
      | some marker => some ((file.getD {}).appendPiece (.text marker))
      | none => file

/-- One event; an event that cannot happen changes nothing. -/
def step (digest : IdempotencyDigest) (h : HarnessHistory) : HarnessEvent → HarnessHistory
  | .spawn harnessId =>
      match h.process, checkpointEngine? harnessId with
      | none, some engine =>
          { h with
            process := some { writer := { engine := engine } }
            processes := h.processes + 1 }
      | _, _ => h
  | .toolStart producedSessionId toolCallId toolName args =>
      match h.process with
      | none => h
      | some process =>
          let started :=
            process.writer.onToolStart digest producedSessionId toolCallId toolName args
          let call : ToolCallId := ⟨h.processes, started.1.seq⟩
          { h with
            process := some ⟨started.1, process.inFlight ++ [(call, started.2)]⟩
            calls := h.calls ++ [call] }
  | .toolEnd producedSessionId toolCallId toolName =>
      match h.process with
      | none => h
      | some process =>
          match process.writer.onToolEnd producedSessionId toolCallId toolName with
          | (_, none) => h
          | (writer, some marker) =>
              let call : ToolCallId := ⟨h.processes, marker.callSeq⟩
              { h with process := some ⟨writer, process.inFlight ++ [(call, marker)]⟩ }
  | .written place =>
      match h.process with
      | none => h
      | some process =>
          match process.inFlight[place]? with
          | none => h
          | some marker =>
              { h with
                sidecar := some ((h.sidecar.getD {}).appendLine marker)
                process := some { process with inFlight := process.inFlight.eraseIdx place } }
  | .writeFailed place =>
      match h.process with
      | none => h
      | some process =>
          { h with process := some { process with inFlight := process.inFlight.eraseIdx place } }
  | .crash rest =>
      match h.process with
      | none => h
      | some process => { h with sidecar := tear h.sidecar process.inFlight rest, process := none }

/-- The history of a list of events. -/
def run (digest : IdempotencyDigest) (events : List HarnessEvent) : HarnessHistory :=
  events.foldl (step digest) {}

/-! ## The latest call -/

/-- The complete marker lines. -/
def complete (h : HarnessHistory) : List CallMarker :=
  match h.sidecar with
  | none => []
  | some file => file.lines.filterMap parseLine

/-- The line of a call with a phase is complete. -/
def IsComplete (h : HarnessHistory) (call : ToolCallId) (phase : SessionCheckpointPhase) : Prop :=
  ∃ marker, (call, marker) ∈ h.complete ∧ marker.phase = phase

/-- The call started last of those whose intent line is complete. -/
def Latest (h : HarnessHistory) (call : ToolCallId) : Prop :=
  h.IsComplete call .intent ∧ ∃ before after, h.calls = before ++ call :: after ∧
    ∀ later ∈ after, ¬ h.IsComplete later .intent

/-- A marker of a call: of its result line if that is complete, else of its intent line. -/
def Wanted (h : HarnessHistory) (call : ToolCallId) (marker : SessionCheckpointMarker) : Prop :=
  (call, marker) ∈ h.complete ∧ (h.IsComplete call .result → marker.phase = .result)

/-- The reader finds the marker of the latest call, and none only when no marker line is
complete. -/
def LatestFound (h : HarnessHistory) : Prop :=
  (∀ call, h.Latest call → ∃ marker, h.Wanted call marker ∧
    readLatestMarker h.sidecar = some marker) ∧
  (readLatestMarker h.sidecar = none → h.complete = [])

/-- The first complete line of a call. -/
def firstLine? (h : HarnessHistory) (call : ToolCallId) : Option CallMarker :=
  h.complete.find? fun e => e.1 = call

/-- The first complete line with a number that an earlier process than that of the call wrote. -/
def earlierLine? (h : HarnessHistory) (call : ToolCallId) : Option CallMarker :=
  h.complete.find? fun e => e.1.process < call.process ∧ e.2.callSeq = call.callSeq

/-- The number of a call stands out: no complete line has a higher one; and if earlier processes
wrote complete lines with the same one, the first of them carries the marker wanted, and otherwise
the result line of the call is not complete or is its first line. -/
structure StandsOut (h : HarnessHistory) (call : ToolCallId) : Prop where
  highest : ∀ e ∈ h.complete, e.2.callSeq ≤ call.callSeq
  earlier : ∀ e, h.earlierLine? call = some e → h.Wanted call e.2
  own : h.earlierLine? call = none → h.IsComplete call .result →
    ∀ e, h.firstLine? call = some e → e.2.phase = .result

/-! ## The order of the lines -/

/-- All whole texts of markers in the sidecar, in the order they were written. -/
def texts (h : HarnessHistory) : List CallMarker := (h.sidecar.getD {}).texts

/-- What stands in the sidecar was written process after process, with the numbers of the calls,
which all were started. -/
structure Ordered (h : HarnessHistory) : Prop where
  numbered : ∀ e ∈ h.texts, e.2.callSeq = e.1.callSeq
  sorted : h.texts.Pairwise fun e e' => e.1.process ≤ e'.1.process
  past : ∀ e ∈ h.texts, e.1.process ≤ h.processes
  started : ∀ e ∈ h.texts, e.1 ∈ h.calls
  inFlight : ∀ process, h.process = some process → ∀ e ∈ process.inFlight,
    e.1.process = h.processes ∧ e.2.callSeq = e.1.callSeq ∧ e.1 ∈ h.calls
  mapped : ∀ process, h.process = some process → ∀ toolCallId callSeq,
    OrderedMap.get? process.writer.seqByCall toolCallId = some callSeq →
      (⟨h.processes, callSeq⟩ : ToolCallId) ∈ h.calls

theorem texts_appendLine (file : Sidecar) (marker : CallMarker) :
    (file.appendLine marker).texts = file.texts ++ [marker] := by
  simp [Sidecar.texts, Sidecar.appendLine, Sidecar.lines, pieceMarker?]

theorem texts_appendPiece (file : Sidecar) (piece : SidecarPiece) :
    (file.appendPiece piece).texts = file.texts ++ (pieceMarker? piece).toList := by
  cases piece <;> simp [Sidecar.texts, Sidecar.appendPiece, Sidecar.lines, pieceMarker?]

theorem ordered_init : Ordered {} := by
  have hnone : ∀ e, e ∉ (texts {} : List CallMarker) := fun _ => List.not_mem_nil
  refine ⟨fun e he => absurd he (hnone e), List.Pairwise.nil, fun e he => absurd he (hnone e),
    fun e he => absurd he (hnone e), ?_, ?_⟩
  · intro process hprocess
    nomatch hprocess
  · intro process hprocess
    nomatch hprocess

variable {h : HarnessHistory}

/-- A sidecar with one more text of the running process. -/
theorem Ordered.append {h' : HarnessHistory} (ho : Ordered h) {marker : CallMarker}
    (htexts : h'.texts = h.texts ++ [marker]) (hprocesses : h'.processes = h.processes)
    (hcalls : h'.calls = h.calls)
    (hmarker : marker.1.process = h.processes ∧ marker.2.callSeq = marker.1.callSeq ∧ marker.1 ∈
      h.calls)
    (hinFlight : ∀ process, h'.process = some process → ∀ e ∈ process.inFlight, e.1.process =
      h.processes ∧ e.2.callSeq = e.1.callSeq ∧ e.1 ∈ h.calls)
    (hmapped : ∀ process, h'.process = some process → ∀ toolCallId callSeq, OrderedMap.get?
      process.writer.seqByCall toolCallId = some callSeq → (⟨h.processes, callSeq⟩ : ToolCallId)
      ∈ h.calls) : Ordered h' := by
  obtain ⟨hprocess, hseq, hcall⟩ := hmarker
  refine ⟨?_, ?_, ?_, ?_, ?_, ?_⟩
  · intro e he
    rw [htexts, List.mem_append, List.mem_singleton] at he
    rcases he with he | rfl
    · exact ho.numbered e he
    · exact hseq
  · rw [htexts, List.pairwise_append]
    refine ⟨ho.sorted, List.pairwise_singleton _ _, ?_⟩
    intro e he e' he'
    rw [List.mem_singleton.1 he', hprocess]
    exact ho.past e he
  · intro e he
    rw [htexts, List.mem_append, List.mem_singleton] at he
    rw [hprocesses]
    rcases he with he | rfl
    · exact ho.past e he
    · exact hprocess.le
  · intro e he
    rw [htexts, List.mem_append, List.mem_singleton] at he
    rw [hcalls]
    rcases he with he | rfl
    · exact ho.started e he
    · exact hcall
  · rw [hprocesses, hcalls]
    exact hinFlight
  · rw [hprocesses, hcalls]
    exact hmapped

/-- A history with the same texts in the sidecar. -/
theorem Ordered.keep {h' : HarnessHistory} (ho : Ordered h) (htexts : h'.texts = h.texts)
    (hprocesses : h.processes ≤ h'.processes) (hcalls : ∀ call ∈ h.calls, call ∈ h'.calls)
    (hinFlight : ∀ process, h'.process = some process → ∀ e ∈ process.inFlight, e.1.process =
      h'.processes ∧ e.2.callSeq = e.1.callSeq ∧ e.1 ∈ h'.calls)
    (hmapped : ∀ process, h'.process = some process → ∀ toolCallId callSeq, OrderedMap.get?
      process.writer.seqByCall toolCallId = some callSeq → (⟨h'.processes, callSeq⟩ : ToolCallId)
      ∈ h'.calls) : Ordered h' := by
  refine ⟨?_, ?_, ?_, ?_, hinFlight, hmapped⟩
  · rw [htexts]
    exact ho.numbered
  · rw [htexts]
    exact ho.sorted
  · rw [htexts]
    exact fun e he => (ho.past e he).trans hprocesses
  · rw [htexts]
    exact fun e he => hcalls e.1 (ho.started e he)

theorem Ordered.spawn (ho : Ordered h) (digest : IdempotencyDigest) (harnessId : String) :
    Ordered (step digest h (.spawn harnessId)) := by
  unfold step
  dsimp only
  split
  · refine ho.keep rfl (Nat.le_succ _) (fun _ hcall => hcall) ?_ ?_
    · rintro process hprocess e he
      obtain rfl := Option.some.inj hprocess
      exact absurd he List.not_mem_nil
    · rintro process hprocess toolCallId callSeq hget
      obtain rfl := Option.some.inj hprocess
      simp at hget
  · exact ho

theorem Ordered.toolStart (ho : Ordered h) (digest : IdempotencyDigest)
    (producedSessionId : Option String) (toolCallId toolName : String) (args : Json) :
    Ordered (step digest h (.toolStart producedSessionId toolCallId toolName args)) := by
  cases hrunning : h.process with
  | none =>
      simp only [step, hrunning]
      exact ho
  | some process =>
      simp only [step, hrunning]
      refine ho.keep rfl (Nat.le_refl _) (fun _ hcall => List.mem_append_left _ hcall) ?_ ?_
      · rintro process' hprocess' e he
        obtain rfl := Option.some.inj hprocess'
        rcases List.mem_append.1 he with he | he
        · obtain ⟨hown, hseq, hcall⟩ := ho.inFlight process hrunning e he
          exact ⟨hown, hseq, List.mem_append_left _ hcall⟩
        · obtain rfl := List.mem_singleton.1 he
          exact ⟨rfl, rfl, List.mem_append_right _ (List.mem_singleton_self _)⟩
      · rintro process' hprocess' toolCallId' callSeq hget
        obtain rfl := Option.some.inj hprocess'
        simp only [SessionCheckpointWriter.onToolStart, OrderedMap.get?_set] at hget ⊢
        split at hget
        · obtain rfl := Option.some.inj hget
          exact List.mem_append_right _ (List.mem_singleton_self _)
        · exact List.mem_append_left _ (ho.mapped process hrunning toolCallId' callSeq hget)

theorem Ordered.toolEnd (ho : Ordered h) (digest : IdempotencyDigest)
    (producedSessionId : Option String) (toolCallId toolName : String) :
    Ordered (step digest h (.toolEnd producedSessionId toolCallId toolName)) := by
  cases hrunning : h.process with
  | none =>
      simp only [step, hrunning]
      exact ho
  | some process =>
      cases hget : OrderedMap.get? process.writer.seqByCall toolCallId with
      | none =>
          -- an end without a start
          simp only [step, hrunning, SessionCheckpointWriter.onToolEnd, hget]
          exact ho
      | some callSeq =>
          simp only [step, hrunning, SessionCheckpointWriter.onToolEnd, hget]
          refine ho.keep rfl (Nat.le_refl _) (fun _ hcall => hcall) ?_ ?_
          · rintro process' hprocess' e he
            obtain rfl := Option.some.inj hprocess'
            rcases List.mem_append.1 he with he | he
            · exact ho.inFlight process hrunning e he
            · obtain rfl := List.mem_singleton.1 he
              exact ⟨rfl, rfl, ho.mapped process hrunning toolCallId callSeq hget⟩
          · rintro process' hprocess' toolCallId' callSeq' hget'
            obtain rfl := Option.some.inj hprocess'
            rw [OrderedMap.get?_erase] at hget'
            split at hget'
            · cases hget'
            · exact ho.mapped process hrunning toolCallId' callSeq' hget'

theorem Ordered.written (ho : Ordered h) (digest : IdempotencyDigest) (place : Nat) :
    Ordered (step digest h (.written place)) := by
  cases hrunning : h.process with
  | none =>
      simp only [step, hrunning]
      exact ho
  | some process =>
      cases hmarker : process.inFlight[place]? with
      | none =>
          simp only [step, hrunning, hmarker]
          exact ho
      | some marker =>
          simp only [step, hrunning, hmarker]
          refine ho.append ?_ rfl rfl
            (ho.inFlight process hrunning marker (List.mem_of_getElem? hmarker)) ?_ ?_
          · exact texts_appendLine _ _
          · rintro process' hprocess' e he
            obtain rfl := Option.some.inj hprocess'
            exact ho.inFlight process hrunning e (List.mem_of_mem_eraseIdx he)
          · rintro process' hprocess'
            obtain rfl := Option.some.inj hprocess'
            exact ho.mapped process hrunning

theorem Ordered.writeFailed (ho : Ordered h) (digest : IdempotencyDigest) (place : Nat) :
    Ordered (step digest h (.writeFailed place)) := by
  cases hrunning : h.process with
  | none =>
      simp only [step, hrunning]
      exact ho
  | some process =>
      simp only [step, hrunning]
      refine ho.keep rfl (Nat.le_refl _) (fun _ hcall => hcall) ?_ ?_
      · rintro process' hprocess' e he
        obtain rfl := Option.some.inj hprocess'
        exact ho.inFlight process hrunning e (List.mem_of_mem_eraseIdx he)
      · rintro process' hprocess'
        obtain rfl := Option.some.inj hprocess'
        exact ho.mapped process hrunning

theorem Ordered.crash (ho : Ordered h) (digest : IdempotencyDigest) (rest : CrashRest) :
    Ordered (step digest h (.crash rest)) := by
  cases hrunning : h.process with
  | none =>
      simp only [step, hrunning]
      exact ho
  | some process =>
      simp only [step, hrunning]
      have hdead : ∀ process', (none : Option HarnessProcess) = some process' → False :=
        fun _ hsome => nomatch hsome
      have hsame : ∀ sidecar : Option Sidecar, (sidecar.getD {}).texts = h.texts →
          Ordered { h with sidecar := sidecar, process := none } := fun sidecar htexts =>
        ho.keep htexts (Nat.le_refl _) (fun _ hcall => hcall)
          (fun _ hsome => (hdead _ hsome).elim) fun _ hsome => (hdead _ hsome).elim
      cases rest with
      | nothing => exact hsame h.sidecar rfl
      | beginning place =>
          unfold tear
          dsimp only
          split_ifs
          · exact hsame _ ((texts_appendPiece _ _).trans (List.append_nil _))
          · exact hsame h.sidecar rfl
      | textWithoutNewline place =>
          unfold tear
          dsimp only
          cases hmarker : process.inFlight[place]? with
          | none => exact hsame h.sidecar rfl
          | some marker =>
              exact ho.append (texts_appendPiece _ _) rfl rfl
                (ho.inFlight process hrunning marker (List.mem_of_getElem? hmarker))
                (fun _ hsome => (hdead _ hsome).elim) fun _ hsome => (hdead _ hsome).elim

theorem Ordered.step (ho : Ordered h) (digest : IdempotencyDigest) (event : HarnessEvent) :
    Ordered (step digest h event) := by
  cases event with
  | spawn harnessId => exact ho.spawn digest harnessId
  | toolStart producedSessionId toolCallId toolName args =>
      exact ho.toolStart digest producedSessionId toolCallId toolName args
  | toolEnd producedSessionId toolCallId toolName =>
      exact ho.toolEnd digest producedSessionId toolCallId toolName
  | written place => exact ho.written digest place
  | writeFailed place => exact ho.writeFailed digest place
  | crash rest => exact ho.crash digest rest

/-- Every history is ordered. -/
theorem ordered_run (digest : IdempotencyDigest) (events : List HarnessEvent) :
    Ordered (run digest events) := by
  have hfold : ∀ h : HarnessHistory, Ordered h →
      Ordered (events.foldl (HarnessHistory.step digest) h) := by
    induction events with
    | nil => exact fun h ho => ho
    | cons event events ih => exact fun h ho => ih _ (ho.step digest event)
  exact hfold _ ordered_init

/-! ## The reader -/

theorem parseLine_eq_some {line : List SidecarPiece} {marker : CallMarker}
    (h : parseLine line = some marker) : line = [.text marker] := by
  unfold parseLine at h
  split at h
  · split_ifs at h
    rw [Option.some.inj h]
  · nomatch h

/-- The complete lines are among the texts, in their order. -/
theorem complete_sublist (h : HarnessHistory) : h.complete.Sublist h.texts := by
  have hlines : ∀ lines : List (List SidecarPiece),
      (lines.filterMap parseLine).Sublist (lines.flatten.filterMap pieceMarker?) := by
    intro lines
    induction lines with
    | nil => exact List.Sublist.refl _
    | cons line lines ih =>
        rw [List.flatten_cons, List.filterMap_append]
        cases hline : parseLine line with
        | none =>
            rw [List.filterMap_cons_none hline]
            exact ih.trans (List.sublist_append_right _ _)
        | some marker =>
            rw [List.filterMap_cons_some hline, parseLine_eq_some hline]
            exact ih.cons_cons marker
  rw [complete, texts]
  cases h.sidecar with
  | none => exact List.nil_sublist _
  | some file => exact hlines file.lines

/-- The reader finds the first of the complete markers with the highest number. -/
theorem readLatestMarker_eq (h : HarnessHistory) :
    readLatestMarker h.sidecar = (h.complete.argmax fun e => e.2.callSeq).map Prod.snd := by
  have hlines : ∀ lines : List (List SidecarPiece), lines.foldl keepHighest none =
      ((lines.filterMap parseLine).argmax fun e => e.2.callSeq).map Prod.snd := by
    intro lines
    induction lines using List.reverseRecOn with
    | nil => rfl
    | append_singleton lines line ih =>
        rw [List.foldl_append, List.foldl_cons, List.foldl_nil, ih, List.filterMap_append]
        cases hline : parseLine line with
        | none => simp [keepHighest, hline]
        | some parsed =>
            rw [List.filterMap_cons_some hline, List.filterMap_nil, List.argmax_concat]
            cases hbest : (lines.filterMap parseLine).argmax fun e => e.2.callSeq with
            | none => simp [keepHighest, hline]
            | some found =>
                simp only [keepHighest, hline, Option.map_some]
                split_ifs <;> rfl
  rw [complete]
  cases h.sidecar with
  | none => rfl
  | some file => exact hlines file.lines

/-- With a bound that is reached, the first maximum is the first element at the bound. -/
theorem argmax_eq_find {α : Type} [DecidableEq α] {f : α → Nat} {l : List α} {s : Nat}
    (hle : ∀ x ∈ l, f x ≤ s) {a : α} (ha : (l.find? fun x => f x = s) = some a) :
    l.argmax f = some a := by
  obtain ⟨hs, before, after, rfl, hbefore⟩ := List.find?_eq_some_iff_append.1 ha
  have hs' : f a = s := of_decide_eq_true hs
  have hnot : ∀ x ∈ before, f x ≠ s := fun x hx => by simpa using hbefore x hx
  rw [List.argmax_eq_some_iff]
  refine ⟨by simp, fun x hx => hs'.symm ▸ hle x hx, fun x hx hmax => ?_⟩
  have hx' : f x = s := Nat.le_antisymm (hle x hx) (hs' ▸ hmax)
  have ha' : a ∉ before := fun hmem => hnot a hmem hs'
  have hx'' : x ∉ before := fun hmem => hnot x hmem hx'
  rw [List.idxOf_append_of_notMem ha', List.idxOf_append_of_notMem hx'', List.idxOf_cons_self]
  exact Nat.add_le_add_left (Nat.zero_le _) _

/-! ## The latest call is found -/

theorem Ordered.numbered_complete (ho : Ordered h) {e : CallMarker} (he : e ∈ h.complete) :
    e.2.callSeq = e.1.callSeq :=
  ho.numbered e (h.complete_sublist.subset he)

variable {call : ToolCallId}

/-- The first line with a number, given that an earlier process wrote one. -/
theorem find_of_earlierLine (ho : Ordered h) {e : CallMarker} (he : h.earlierLine? call = some e) :
    (h.complete.find? fun e => e.2.callSeq = call.callSeq) = some e := by
  obtain ⟨hboth, before, after, hlist, hbefore⟩ := List.find?_eq_some_iff_append.1 he
  obtain ⟨hprocess, hseq⟩ := of_decide_eq_true hboth
  rw [List.find?_eq_some_iff_append]
  refine ⟨decide_eq_true hseq, before, after, hlist, fun x hx => ?_⟩
  -- the lines before it are of no later process
  have hsorted := ho.sorted.sublist h.complete_sublist
  rw [hlist, List.pairwise_append] at hsorted
  have hle := hsorted.2.2 x hx e List.mem_cons_self
  have hnot := hbefore x hx
  simp only [Bool.not_eq_true', decide_eq_false_iff_not, not_and] at hnot ⊢
  exact hnot (hle.trans_lt hprocess)

/-- The first line with the number of a call is the first line of the call, when no earlier process
wrote one. -/
theorem find_of_no_earlierLine (ho : Ordered h) (hnone : h.earlierLine? call = none)
    {marker : SessionCheckpointMarker} (hmarker : (call, marker) ∈ h.complete) :
    ∃ e, (h.complete.find? fun e => e.2.callSeq = call.callSeq) = some e ∧
      h.firstLine? call = some e ∧ e.1 = call := by
  have hnumber : marker.callSeq = call.callSeq := ho.numbered_complete hmarker
  obtain ⟨e, he⟩ : ∃ e, (h.complete.find? fun e => e.2.callSeq = call.callSeq) = some e := by
    rw [← Option.isSome_iff_exists, List.find?_isSome]
    exact ⟨_, hmarker, decide_eq_true hnumber⟩
  obtain ⟨hseq, before, after, hlist, hbefore⟩ := List.find?_eq_some_iff_append.1 he
  have hseq' : e.2.callSeq = call.callSeq := of_decide_eq_true hseq
  have hmem : e ∈ h.complete := List.mem_of_find?_eq_some he
  have hnot : ∀ x ∈ before, x.2.callSeq ≠ call.callSeq := fun x hx => by simpa using hbefore x hx
  -- it is of no later process than the line of the call
  have hle : e.1.process ≤ call.process := by
    have hsorted := ho.sorted.sublist h.complete_sublist
    rw [hlist, List.pairwise_append, List.pairwise_cons] at hsorted
    rw [hlist, List.mem_append, List.mem_cons] at hmarker
    rcases hmarker with hbefore' | heq | hafter
    · exact absurd hnumber (hnot _ hbefore')
    · rw [← heq]
    · exact hsorted.2.1.1 _ hafter
  have hge : ¬ e.1.process < call.process := by
    intro hlt
    have hnot' := List.find?_eq_none.1 hnone e hmem
    exact hnot' (decide_eq_true ⟨hlt, hseq'⟩)
  have hcall : e.1 = call := by
    have hown := ho.numbered_complete hmem
    obtain ⟨⟨process, callSeq⟩, m⟩ := e
    obtain ⟨process', callSeq'⟩ := call
    simp only [ToolCallId.mk.injEq]
    exact ⟨Nat.le_antisymm hle (Nat.not_lt.1 hge), hown.symm.trans hseq'⟩
  refine ⟨e, he, ?_, hcall⟩
  rw [firstLine?, List.find?_eq_some_iff_append]
  refine ⟨decide_eq_true hcall, before, after, hlist, fun x hx => ?_⟩
  simp only [Bool.not_eq_true', decide_eq_false_iff_not]
  rintro rfl
  have hx' : x ∈ h.complete := by
    rw [hlist]
    exact List.mem_append_left _ hx
  exact hnot x hx (ho.numbered_complete hx')

/-- The reader returns a marker that is wanted just when the number of the call stands out. -/
theorem wanted_found_iff (ho : Ordered h) (hintent : h.IsComplete call .intent) :
    (∃ marker, h.Wanted call marker ∧ readLatestMarker h.sidecar = some marker) ↔
      h.StandsOut call := by
  obtain ⟨intent, hmem, hphase⟩ := hintent
  have hseq : intent.callSeq = call.callSeq := ho.numbered_complete hmem
  obtain ⟨first, hfirst⟩ :
      ∃ e, (h.complete.find? fun e => e.2.callSeq = call.callSeq) = some e := by
    rw [← Option.isSome_iff_exists, List.find?_isSome]
    exact ⟨_, hmem, decide_eq_true hseq⟩
  have hread : (∀ e ∈ h.complete, e.2.callSeq ≤ call.callSeq) →
      readLatestMarker h.sidecar = some first.2 := by
    intro hle
    rw [readLatestMarker_eq, argmax_eq_find hle hfirst, Option.map_some]
  constructor
  · rintro ⟨marker, hwanted, hfound⟩
    have hhighest : ∀ e ∈ h.complete, e.2.callSeq ≤ call.callSeq := by
      intro e he
      rw [readLatestMarker_eq, Option.map_eq_some_iff] at hfound
      obtain ⟨best, hbest, rfl⟩ := hfound
      have hmax := (List.argmax_eq_some_iff.1 hbest).2.1 e he
      exact hmax.trans_eq (ho.numbered_complete hwanted.1)
    obtain rfl : first.2 = marker := Option.some.inj ((hread hhighest).symm.trans hfound)
    refine ⟨hhighest, ?_, ?_⟩
    · intro e he
      have hsame := (find_of_earlierLine ho he).symm.trans hfirst
      rw [Option.some.inj hsame]
      exact hwanted
    · intro hnone hresult e he
      obtain ⟨e', he', hown, -⟩ := find_of_no_earlierLine ho hnone hmem
      have hsame : e = first := Option.some.inj
        (he.symm.trans (hown.trans (he'.symm.trans hfirst)))
      rw [hsame]
      exact hwanted.2 hresult
  · rintro ⟨hhighest, hearlier, hown⟩
    refine ⟨first.2, ?_, hread hhighest⟩
    cases hcase : h.earlierLine? call with
    | some e =>
        have hsame := (find_of_earlierLine ho hcase).symm.trans hfirst
        rw [← Option.some.inj hsame]
        exact hearlier e hcase
    | none =>
        obtain ⟨e, he, hfirst', hcall⟩ := find_of_no_earlierLine ho hcase hmem
        obtain rfl : e = first := Option.some.inj (he.symm.trans hfirst)
        refine ⟨?_, fun hresult => hown hcase hresult e hfirst'⟩
        rw [← hcall]
        exact List.mem_of_find?_eq_some he

/-- **The latest checkpoint.** After every history the reader finds the marker of the latest call
just when the number of that call stands out in the sidecar. -/
theorem latest_found_iff (digest : IdempotencyDigest) (events : List HarnessEvent) :
    (run digest events).LatestFound ↔
      ∀ call, (run digest events).Latest call → (run digest events).StandsOut call := by
  have ho := ordered_run digest events
  constructor
  · intro h call hlatest
    exact (wanted_found_iff ho hlatest.1).1 (h.1 call hlatest)
  · intro h
    refine ⟨fun call hlatest => (wanted_found_iff ho hlatest.1).2 (h call hlatest), ?_⟩
    intro hnone
    rw [readLatestMarker_eq, Option.map_eq_none_iff, List.argmax_eq_none] at hnone
    exact hnone

/-- A call that starts and ends in one process. -/
def finishedCall : List HarnessEvent :=
  [.spawn "pi", .toolStart none "c1" "fs.write" .empty, .written 0, .toolEnd none "c1" "fs.write",
    .written 0]

/-- Two calls in a process that dies, and one in the process after it. -/
def restartedProcess : List HarnessEvent :=
  [.spawn "pi", .toolStart none "c1" "fs.read" .empty, .written 0,
    .toolStart none "c2" "fs.read" .empty, .written 0, .crash .nothing, .spawn "pi",
    .toolStart none "c3" "fs.write" .empty, .written 0]

/-- The result of a finished call is not found, because its intent has the same number; nor is the
call of a process that starts to count again. -/
theorem finished_call_reads_intent :
    ¬ (run (fun _ _ _ => "") finishedCall).LatestFound ∧
      (readLatestMarker (run (fun _ _ _ => "") finishedCall).sidecar).map (·.phase) =
        some .intent ∧
    ¬ (run (fun _ _ _ => "") restartedProcess).LatestFound ∧
      (readLatestMarker (run (fun _ _ _ => "") restartedProcess).sidecar).map (·.toolName) =
        some "fs.read" := by
  have hphase : (readLatestMarker (run (fun _ _ _ => "") finishedCall).sidecar).map (·.phase) =
      some .intent := by decide +kernel
  have htool : (readLatestMarker (run (fun _ _ _ => "") restartedProcess).sidecar).map
      (·.toolName) = some "fs.read" := by decide +kernel
  refine ⟨?_, hphase, ?_, htool⟩
  · rintro ⟨hfound, -⟩
    have hresult : (run (fun _ _ _ => "") finishedCall).IsComplete ⟨1, 1⟩ .result := by
      refine ⟨⟨"pi", none, none, .result, 1, "fs.write", none⟩, ?_, rfl⟩
      decide +kernel
    have hlatest : (run (fun _ _ _ => "") finishedCall).Latest ⟨1, 1⟩ := by
      refine ⟨⟨⟨"pi", none, none, .intent, 1, "fs.write", some ""⟩, ?_, rfl⟩, [], [], rfl, ?_⟩
      · decide +kernel
      · exact fun _ hnil => absurd hnil List.not_mem_nil
    obtain ⟨marker, hwanted, hread⟩ := hfound _ hlatest
    rw [hread, Option.map_some, hwanted.2 hresult] at hphase
    exact absurd hphase (by decide)
  · rintro ⟨hfound, -⟩
    have hlatest : (run (fun _ _ _ => "") restartedProcess).Latest ⟨2, 1⟩ := by
      refine ⟨⟨⟨"pi", none, none, .intent, 1, "fs.write", some ""⟩, ?_, rfl⟩,
        [⟨1, 1⟩, ⟨1, 2⟩], [], rfl, ?_⟩
      · decide +kernel
      · exact fun _ hnil => absurd hnil List.not_mem_nil
    obtain ⟨marker, hwanted, hread⟩ := hfound _ hlatest
    have htools : ∀ e ∈ (run (fun _ _ _ => "") restartedProcess).complete,
        e.1 = ⟨2, 1⟩ → e.2.toolName = "fs.write" := by decide +kernel
    rw [hread, Option.map_some, htools _ hwanted.1 rfl] at htool
    exact absurd htool (by decide)

end HarnessHistory

end Nexus
