import Mathlib.Data.Finset.Insert
import Mathlib.Data.List.Dedup
import Mathlib.Data.PNat.Basic
import Xir.Impl.XirLab.Store

/-!
# `expand_plan` of `src/xir_lab/execute/scheduler.py`

The plan that an execution profile is expanded to. The hashes that order the
attempts and name them are parameters. The limits have the minima of the
profile's schema as their types.
-/

namespace Xir.Impl.XirLab

inductive Arm
  | baseline
  | xir
  deriving DecidableEq

def Arm.name : Arm → String
  | baseline => "baseline"
  | xir => "xir"

inductive ScheduleAttemptKind
  | pilot
  | warmup
  | primary
  | retry
  deriving DecidableEq

def ScheduleAttemptKind.name : ScheduleAttemptKind → String
  | pilot => "pilot"
  | warmup => "warmup"
  | primary => "primary"
  | retry => "retry"

structure ScheduledAttempt where
  attemptID : String
  condition : String
  arm : Arm
  attemptKind : ScheduleAttemptKind
  pairID : Option String
  pairSlotIndex : Option Nat
  retryOf : Option String
  retryIndex : Option Int
  sequenceIndex : Nat
  batchIndex : Nat
  deriving DecidableEq

structure LiveLimits where
  maxRetriesPerLineage : Option Nat
  maxBatchAttempts : Option ℕ+
  maxInFlightAttempts : Option ℕ+

structure ExecutionPlan where
  planID : String
  runID : String
  profileID : String
  fixedSeed : String
  profileKind : String
  executable : Bool
  limits : LiveLimits
  attempts : List ScheduledAttempt
  planSHA256 : String

structure ProfileCounts where
  pairSlotsPerCondition : Nat
  plannedPairSlots : Nat
  designatedAttemptKind : String
  warmupsPerConditionArm : Nat
  plannedTotalNonRetryAttempts : Nat

inductive ProfileMode
  | template
  | live

structure ExecutionProfile where
  profileID : String
  profileMode : ProfileMode
  profileKind : String
  fixedSeed : String
  conditions : List String
  counts : ProfileCounts
  liveLimits : LiveLimits

def ExecutionProfile.executable (profile : ExecutionProfile) : Bool :=
  match profile.profileMode with
  | .template => false
  | .live => true

/-- A component of an identifier, or a coordinate of a key. -/
inductive Component
  | text (value : String)
  | number (value : Int)

/-- What the scheduler uses of its libraries: SHA-256 digests of canonical forms. -/
class ScheduleLibraries where
  /-- `stable_id`. -/
  stableID : String → List Component → String
  /-- `_seeded_key`. -/
  seededKey : String → String → List Component → String
  /-- `_plan_digest`. -/
  planDigest : String → String → ExecutionProfile → List ScheduledAttempt → String

/-- Different components have different identifiers. -/
def DistinctIDs [ScheduleLibraries] : Prop := ∀ kind, Function.Injective (ScheduleLibraries.stableID kind)

section

variable [ScheduleLibraries]

open ScheduleLibraries

/-- An element of `raw`: an attempt before it is numbered. -/
structure RawAttempt where
  condition : String
  arm : Arm
  kind : ScheduleAttemptKind
  pairID : Option String
  slot : Option Nat

/-- `warmup_coordinates`. -/
def warmupCoordinates (profile : ExecutionProfile) : List (String × Arm) :=
  let seed := profile.fixedSeed
  let key (item : String × Arm) := seededKey seed "warmup-order" [.text item.1, .text item.2.name]
  let coordinates := profile.conditions.flatMap fun condition => [Arm.baseline, Arm.xir].flatMap fun arm =>
    List.replicate profile.counts.warmupsPerConditionArm (condition, arm)
  coordinates.mergeSort fun a b => key a ≤ key b

/-- `pair_coordinates`. -/
def pairCoordinates (profile : ExecutionProfile) : List (String × Nat) :=
  let key (item : String × Nat) := seededKey profile.fixedSeed "pair-order" [.text item.1, .number item.2]
  let coordinates := profile.conditions.flatMap fun condition =>
    (List.range profile.counts.pairSlotsPerCondition).map fun slot => (condition, slot)
  coordinates.mergeSort fun a b => key a ≤ key b

/-- The arms of a pair, in their order. -/
def pairArms (seed : String) (condition : String) (slot : Nat) : List Arm :=
  let key := seededKey seed "within-pair-order" [.text condition, .number slot]
  if key.toList.getLast?.any (· ∈ "02468ace".toList) then [.baseline, .xir] else [.xir, .baseline]

def rawAttempts (profile : ExecutionProfile) (runID : String) (scheduledKind : ScheduleAttemptKind) : List RawAttempt :=
  (warmupCoordinates profile).map (fun (condition, arm) => ⟨condition, arm, .warmup, none, none⟩) ++
    (pairCoordinates profile).flatMap fun (condition, slot) =>
      (pairArms profile.fixedSeed condition slot).map fun arm =>
        ⟨condition, arm, scheduledKind, some (stableID "pair" [.text runID, .text condition, .number slot]), some slot⟩

/-- Numbers the attempts, from `sequenceIndex`, with the warmups of each cell that there were before. -/
def numberAttempts (runID designatedKind : String) (batchSize : Option ℕ+) :
    List RawAttempt → (String × Arm → Nat) → Nat → Except LabError (List ScheduledAttempt)
  | [], _, _ => return []
  | item :: raw, cells, sequenceIndex => do
    let cell := (item.condition, item.arm)
    let attempt (kind : String) (number : Nat) : ScheduledAttempt :=
      { attemptID := stableID "attempt"
          [.text runID, .text item.condition, .text item.arm.name, .text kind, .number number]
        condition := item.condition, arm := item.arm, attemptKind := item.kind, pairID := item.pairID
        pairSlotIndex := item.slot, retryOf := none, retryIndex := none, sequenceIndex
        batchIndex := batchSize.elim 0 fun size => sequenceIndex / size }
    if item.kind = .warmup then
      let rest ← numberAttempts runID designatedKind batchSize raw (Function.update cells cell (cells cell + 1))
        (sequenceIndex + 1)
      return attempt "warmup" (cells cell) :: rest
    else
      let slot ← orRevert (.scheduleError "designated attempt lost its pair slot") item.slot
      let rest ← numberAttempts runID designatedKind batchSize raw cells (sequenceIndex + 1)
      return attempt designatedKind slot :: rest

/-- `cast`, after the check of the designated kind. -/
def scheduledKind : String → Except LabError ScheduleAttemptKind
  | "pilot" => return .pilot
  | "primary" => return .primary
  | _ => throw (.scheduleError "profile designated attempt kind is unsupported")

/-- How many attempts a condition and arm have of a kind. -/
def perCell (attempts : List ScheduledAttempt) (kind : ScheduleAttemptKind) (cell : String × Arm) : Nat :=
  attempts.countP fun item => item.condition = cell.1 ∧ item.arm = cell.2 ∧ item.attemptKind = kind

def expandPlan (profile : ExecutionProfile) (runID : String) : Except LabError ExecutionPlan := do
  revertIf (runID = "") (.scheduleError "run ID must be non-empty")
  let counts := profile.counts
  let kind ← scheduledKind counts.designatedAttemptKind
  let frozen ← numberAttempts runID counts.designatedAttemptKind profile.liveLimits.maxBatchAttempts
    (rawAttempts profile runID kind) (fun _ => 0) 0
  revertIf (frozen.length ≠ counts.plannedTotalNonRetryAttempts)
    (.scheduleError "expanded attempt count differs from profile identity")
  revertIf ((frozen.filterMap (·.pairID)).dedup.length ≠ counts.plannedPairSlots)
    (.scheduleError "expanded pair-slot count differs from profile identity")
  let cells := profile.conditions.flatMap fun condition => [(condition, Arm.baseline), (condition, Arm.xir)]
  revertIf ((cells.map (perCell frozen kind)).toFinset ≠ {counts.pairSlotsPerCondition})
    (.scheduleError "condition/arm designated counts are not balanced")
  let planID := stableID "run" [.text runID, .text profile.profileID, .text profile.fixedSeed]
  return {
    planID, runID, profileID := profile.profileID, fixedSeed := profile.fixedSeed, profileKind := profile.profileKind
    executable := profile.executable, limits := profile.liveLimits, attempts := frozen
    planSHA256 := planDigest planID runID profile frozen }

end

end Xir.Impl.XirLab
