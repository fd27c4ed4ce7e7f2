import Mathlib.Data.List.MinMax
import Mathlib.Data.Finset.Insert
import Xir.Framework.Dict
import Xir.Framework.Run
import Xir.Impl.XirLab.Schedule

/-!
# `BoundedScheduler` of `src/xir_lab/execute/scheduler.py`

A call that raises changes nothing: each method checks before it writes.
-/

namespace Xir.Impl.XirLab

structure BoundedScheduler where
  plan : ExecutionPlan
  nextIndex : Nat
  active : List ScheduledAttempt
  completed : Finset String
  retries : List ScheduledAttempt

namespace BoundedScheduler

/-- `cast_int`. -/
def castInt {α : Type} (value : Option α) : Except LabError α :=
  orRevert (.scheduleError "required live limit is missing") value

/-- `__init__`. -/
def init (plan : ExecutionPlan) : Except LabError BoundedScheduler := do
  revertIf (plan.executable = false) (.scheduleError "template plans cannot be dispatched")
  revertIf (plan.limits.maxBatchAttempts = none ∨ plan.limits.maxInFlightAttempts = none)
    (.scheduleError "live plan is missing batch or in-flight limits")
  return ⟨plan, 0, [], ∅, []⟩

variable (s : BoundedScheduler)

/-- `complete`. -/
def Complete : Prop :=
  s.nextIndex = s.plan.attempts.length ∧ s.active = [] ∧ ∀ retry ∈ s.retries, retry.attemptID ∈ s.completed

/-- The retries that are neither active nor completed. -/
def pendingRetries : List ScheduledAttempt :=
  s.retries.filter fun retry =>
    retry.attemptID ∉ s.completed ∧ (Dict.get (·.attemptID) s.active retry.attemptID).isNone

/-- The retry that comes first. -/
def nextRetry : Option ScheduledAttempt := s.pendingRetries.argmin (·.sequenceIndex)

def activate (item : ScheduledAttempt) : BoundedScheduler :=
  { s with active := Dict.put (·.attemptID) item s.active }

/-- `claim_next`. -/
def claimNext : Except LabError (Option ScheduledAttempt × BoundedScheduler) := do
  let maximum ← castInt s.plan.limits.maxInFlightAttempts
  if maximum ≤ s.active.length then return (none, s)
  else match s.plan.attempts[s.nextIndex]? with
    | none => match s.nextRetry with
      | none => return (none, s)
      | some item => return (some item, s.activate item)
    | some item =>
      if ∃ active ∈ s.active, active.batchIndex ≠ item.batchIndex then return (none, s)
      else if item.pairID ≠ none ∧ ∃ active ∈ s.active, active.pairID = item.pairID then return (none, s)
      else return (some item, { s.activate item with nextIndex := s.nextIndex + 1 })

/-- `complete_attempt`. -/
def completeAttempt (attemptID : String) : Except LabError BoundedScheduler := do
  revertIf (Dict.get (·.attemptID) s.active attemptID = none)
    (.scheduleError "only an active planned attempt can complete")
  return { s with active := Dict.del (·.attemptID) attemptID s.active, completed := insert attemptID s.completed }

/-- The planned attempt of an identifier: of several, the last. -/
def planned (attemptID : String) : Option ScheduledAttempt :=
  Dict.get (·.attemptID) s.plan.attempts.reverse attemptID

/-- `_root_attempt_id`, in so many rounds of its loop. -/
def rootAttemptID (retries : List ScheduledAttempt) : Nat → ScheduledAttempt → Option String
  | 0, _ => none
  | rounds + 1, current => match current.retryOf with
    | none => some current.attemptID
    | some retryOf => match Dict.get (·.attemptID) retries retryOf with
      | none => some retryOf
      | some predecessor => rootAttemptID retries rounds predecessor

/-- `_root_attempt_id`. The loop goes through each retry at most once. -/
def root (item : ScheduledAttempt) : Option String := rootAttemptID s.retries (s.retries.length + 1) item

variable [ScheduleLibraries]

open ScheduleLibraries

/-- The retry that `register_retry` builds. -/
def retry (root prior : ScheduledAttempt) (retryIndex : Int) (maxBatchAttempts : ℕ+) : ScheduledAttempt where
  attemptID := stableID "attempt" [.text s.plan.runID, .text root.attemptID, .text "retry", .number retryIndex]
  condition := root.condition
  arm := root.arm
  attemptKind := .retry
  pairID := root.pairID
  pairSlotIndex := root.pairSlotIndex
  retryOf := some prior.attemptID
  retryIndex := some retryIndex
  sequenceIndex := s.plan.attempts.length + s.retries.length
  batchIndex := (s.plan.attempts.map (·.batchIndex)).foldr max 0 + 1 + s.retries.length / maxBatchAttempts

/-- `register_retry`. -/
def registerRetry (priorAttemptID : String) (retryIndex : Int) :
    Except LabError (ScheduledAttempt × BoundedScheduler) := do
  let maximum ← castInt s.plan.limits.maxRetriesPerLineage
  revertIf (retryIndex < 1 ∨ maximum < retryIndex) (.scheduleError "retry index exceeds the frozen profile limit")
  let prior ← orRevert (.scheduleError "retry predecessor is outside the frozen plan")
    ((s.planned priorAttemptID).or (Dict.get (·.attemptID) s.retries priorAttemptID))
  let rootID ← orRevert .diverges (s.root prior)
  let root ← orRevert .keyError (s.planned rootID)
  revertIf (∃ item ∈ s.retries, s.root item = some root.attemptID ∧ item.retryIndex = some retryIndex)
    (.scheduleError "retry index is already registered")
  revertIf (2 ^ 53 ≤ retryIndex) .integerDomainError
  let maxBatchAttempts ← castInt s.plan.limits.maxBatchAttempts
  let retry := s.retry root prior retryIndex maxBatchAttempts
  return (retry, { s with retries := Dict.put (·.attemptID) retry s.retries })

end BoundedScheduler

/-! ## Runs -/

inductive SchedulerCall
  | claimNext
  | completeAttempt (attemptID : String)
  | registerRetry (priorAttemptID : String) (retryIndex : Int)

variable [ScheduleLibraries]

/-- A call, with the attempt that it returns. -/
def SchedulerCall.does (s : BoundedScheduler) :
    SchedulerCall → Except LabError (Option ScheduledAttempt × BoundedScheduler)
  | claimNext => s.claimNext
  | completeAttempt attemptID => do return (none, ← s.completeAttempt attemptID)
  | registerRetry priorAttemptID retryIndex => do
    let (retry, s) ← s.registerRetry priorAttemptID retryIndex
    return (some retry, s)

/-- A call, and what it returned or raised. -/
abbrev SchedulerEvent := SchedulerCall × Except LabError (Option ScheduledAttempt)

inductive SchedulerStep (s : BoundedScheduler) : SchedulerEvent → BoundedScheduler → Prop
  | returned {call : SchedulerCall} {r : Option ScheduledAttempt} {s' : BoundedScheduler} :
    call.does s = .ok (r, s') → SchedulerStep s (call, .ok r) s'
  | raised {call : SchedulerCall} {e : LabError} : call.does s = .error e → SchedulerStep s (call, .error e) s

end Xir.Impl.XirLab
