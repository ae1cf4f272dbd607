import Nexus.Lib.ChainedLock
import Mathlib

/-!
# Locks in the process

`WorkflowConcurrencyManager.runExclusive` and `withWorkspaceLock` of the desired-state loader: any
calls with any keys, and tasks that return or throw at any time. Both put their promise into a map
under their key and take it out again if it is still there, as the tickets of a `ChainedLock` do.
-/

set_option autoImplicit false

namespace Nexus

namespace InProcessLocks

open ChainedLock

variable {α ε : Type}

/-! ## The promises in the maps -/

/-- `marker` is `next.then(() => undefined).catch(() => undefined)`: it settles once the task has
returned or thrown. -/
def markerSettles (call : Ticket String (Except ε α)) : Prop := call.hasEnded

/-- `current` is the promise that `release` resolves in the `finally` block. -/
def currentSettles (call : Ticket String (Except ε α)) : Prop :=
  call.hasEnded ∧ call.returned ≠ none

/-- The steps of `runExclusive(key, task)` calls: a call takes `previous` from `workflowStartLocks`
and puts its `marker` there (`arrive`), `previous.catch(() => undefined)` settles (`prepare`),
`.then(() => task())` starts the task (`start`), which returns or throws (`finish`), `marker`
settles (`settle`), and `finally` deletes the entry that is still `marker` while `return await next`
passes on what the task came to (`leave`). -/
def runExclusive : State String (Except ε α) → State String (Except ε α) → Prop :=
  Step markerSettles

/-- The steps of `withWorkspaceLock(workspacePath, task)` calls: a call takes `previous` from
`workspaceLocks` and puts `current` there (`arrive`), the callback of `previous.then` assigns
`release` (`prepare`), the task starts after `await previous` (`start`) and returns or throws
(`finish`), `finally` calls `release` and deletes the entry that is still `current` (`leave`), and
`current` settles (`settle`). The callback was registered on `previous` before the `await`. -/
def withWorkspaceLock : State String (Except ε α) → State String (Except ε α) → Prop :=
  Step currentSettles

/-- Two calls with one key: the task of the first throws, and that of the second starts. -/
theorem starts_after_throw {settles : Ticket String (Except String Nat) → Prop}
    (hlive : ∀ call, call.hasEnded → call.returned ≠ none → settles call) :
    ∃ calls, Relation.ReflTransGen (Step settles) {} calls ∧ calls.starts = [0, 1] := by
  have hcalled : Reached settles (arrive (arrive {} "key") "key") :=
    (Relation.ReflTransGen.single (.arrive "key")).tail (.arrive "key")
  have hstarted := (hcalled.tail (.react (.prepare (i := 0) rfl trivial rfl))).tail
    (.react (.start (i := 0) rfl rfl rfl))
  have hleft := (hstarted.tail (.finish (i := 0) (.error "boom") rfl rfl)).tail
    (.react (.leave (i := 0) rfl rfl rfl))
  have hsettled := hleft.tail (.react (.settle (i := 0) rfl (hlive _ ⟨_, rfl⟩ (by simp)) rfl))
  exact ⟨_, (hsettled.tail (.react (.prepare (i := 1) rfl ⟨_, rfl, rfl⟩ rfl))).tail
    (.react (.start (i := 1) rfl rfl rfl)), rfl⟩

end InProcessLocks

end Nexus
