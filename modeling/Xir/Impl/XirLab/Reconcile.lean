import Xir.Impl.XirLab.Outcomes
import Xir.Impl.XirLab.Schedule
import Xir.Impl.XirLab.Submission

/-!
# Reconciliation

`RunReconciler.reconcile` of `src/xir_lab/analysis/reconcile.py`, over the tables
that the coordinators of the submissions and the recorder of the outcomes write.
Of a declared scope, its run and its attempts are kept. A violation is named by
the digest of what it says, so here by what it says.
-/

namespace Xir.Impl.XirLab

structure CountExpectation where
  condition : String
  arm : String
  attemptKind : String
  count : Int

def CountExpectation.key (e : CountExpectation) : String × String × String := (e.condition, e.arm, e.attemptKind)

inductive IssueCode
  | conditionArmKindCount
  | plannedSubmissionIdentity
  | submittedTerminalIdentity
  | primaryPairArms
  | retryLineage
  | freezeScopePending
  | freezeScopeMissing
  deriving DecidableEq

structure ReconciliationIssue where
  code : IssueCode
  subjectID : String
  detail : String
  deriving DecidableEq

structure ReconciliationReport where
  runID : String
  planned : Nat
  submitted : Nat
  notSubmitted : Nat
  terminalAtDeadline : Nat
  pendingBackfill : Nat
  issues : List ReconciliationIssue

/-- `valid`. -/
def ReconciliationReport.valid (report : ReconciliationReport) : Bool := report.issues.isEmpty

/-- What the plan says of a row of `attempts`, with its condition. -/
structure PlannedAttempt where
  attemptID : String
  conditionID : String
  carrierSequence : String
  pairID : Option String
  arm : Arm
  attemptKind : ScheduleAttemptKind
  retryOf : Option String

inductive BackfillState
  | pending
  | resolved
  deriving DecidableEq

/-- A row of `declared_freeze_scopes`. -/
structure ScopeRow where
  runID : String
  attemptIDs : List String

/-- A row of `invariant_violations`. -/
structure RunViolation where
  runID : String
  issue : ReconciliationIssue
  deriving DecidableEq

/-- The store, with the tables that the reconciler reads and writes. -/
structure ReconcileStore extends AttemptStore where
  planned : List PlannedAttempt
  backfills : String → Option BackfillState
  scopes : String → Option ScopeRow
  violations : List RunViolation

/-- A row of the query of `reconcile`. -/
structure RunRow extends PlannedAttempt where
  state : AttemptState
  submitted : Bool
  terminalAtDeadline : Bool
  backfillState : BackfillState

def RunRow.key (row : RunRow) : String × String × String := (row.carrierSequence, row.arm.name, row.attemptKind.name)

/-- The states of a transaction that was handed to the broadcaster. -/
def submittedStates : List TransactionState :=
  [.broadcastUnknown, .submitted, .included, .finalized, .other "orphaned"]

namespace ReconcileStore

variable (s : ReconcileStore)

/-- The attempt of a transaction. -/
def attemptOf (t : TransactionRow) : Option String := do
  let intent ← s.store.intent t.intentID
  let stage ← s.store.stage intent.stageID
  return stage.attemptID

def submitted (attemptID : String) : Bool :=
  s.store.transactions.any fun t => s.attemptOf t = some attemptID ∧ t.state ∈ submittedStates

def terminalAtDeadline (attemptID : String) : Bool :=
  s.outcomes.any fun o => o.attemptID = attemptID ∧ o.kind = .deadline

def runRow (runID : String) (p : PlannedAttempt) : Option RunRow :=
  match s.store.attempts p.attemptID with
  | none => none
  | some attempt =>
    if attempt.runID = runID then
      some { p with
        state := attempt.state
        submitted := s.submitted p.attemptID
        terminalAtDeadline := s.terminalAtDeadline p.attemptID
        backfillState := (s.backfills p.attemptID).getD .resolved }
    else none

/-- The attempts of a run, by their identifiers. -/
def attemptsOf (runID : String) : List RunRow :=
  (s.planned.mergeSort fun a b => decide (a.attemptID ≤ b.attemptID)).filterMap (s.runRow runID)

end ReconcileStore

namespace RunReconciler

def keyLE (a b : String × String × String) : Bool :=
  decide (a.1 < b.1 ∨ a.1 = b.1 ∧ (a.2.1 < b.2.1 ∨ a.2.1 = b.2.1 ∧ a.2.2 ≤ b.2.2))

variable (runID : String) (rows : List RunRow) (expectations : List CountExpectation) (scopeIDs : List String)

/-- `expected_map`. -/
def expectedCount (key : String × String × String) : Int :=
  ((expectations.find? fun e => e.key = key).map CountExpectation.count).getD 0

/-- `actual_map`. -/
def actualCount (key : String × String × String) : Nat := rows.countP fun row => row.key = key

def countIssues : List ReconciliationIssue :=
  let keys := (expectations.map CountExpectation.key ++ rows.map RunRow.key).dedup.mergeSort keyLE
  (keys.filter fun key => expectedCount expectations key ≠ actualCount rows key).map fun key =>
    ⟨.conditionArmKindCount, key.1 ++ "/" ++ key.2.1 ++ "/" ++ key.2.2,
      "expected=" ++ toString (expectedCount expectations key) ++ " actual=" ++ toString (actualCount rows key)⟩

def submittedCount : Nat := rows.countP RunRow.submitted

def notSubmittedCount : Nat := rows.countP fun row => row.state = .other "not_submitted"

def terminalCount : Nat := rows.countP RunRow.terminalAtDeadline

def pendingCount : Nat := rows.countP fun row => row.backfillState = .pending

/-- An identity of counts that does not hold. -/
def identityIssue (code : IssueCode) (whole part rest : Nat) : List ReconciliationIssue :=
  if whole ≠ part + rest then
    [⟨code, runID, toString whole ++ " != " ++ toString part ++ " + " ++ toString rest⟩]
  else []

def identityIssues : List ReconciliationIssue :=
  identityIssue runID .plannedSubmissionIdentity rows.length (submittedCount rows) (notSubmittedCount rows) ++
    identityIssue runID .submittedTerminalIdentity (submittedCount rows) (terminalCount rows) (pendingCount rows)

/-- `pair_groups`, in the order of their first attempts. -/
def pairIDs : List String :=
  ((rows.filter fun row => row.attemptKind = .primary).filterMap fun row => row.pairID).eraseDups

def pairArms (pairID : String) : List String :=
  ((rows.filter fun row => row.attemptKind = .primary ∧ row.pairID = some pairID).map fun row => row.arm.name).mergeSort
    fun a b => decide (a ≤ b)

def pairIssues : List ReconciliationIssue :=
  ((pairIDs rows).filter fun pairID => pairArms rows pairID ≠ ["baseline", "xir"]).map fun pairID =>
    ⟨.primaryPairArms, pairID,
      "arms=[" ++ ", ".intercalate ((pairArms rows pairID).map fun arm => "'" ++ arm ++ "'") ++ "]"⟩

/-- A retry has the coordinates of the attempt that it retries. -/
def retryMatched (row : RunRow) : Bool :=
  match row.retryOf.bind fun retryOf => rows.find? fun prior => prior.attemptID = retryOf with
  | none => false
  | some prior => (prior.conditionID, prior.pairID, prior.arm) = (row.conditionID, row.pairID, row.arm)

def retryIssue (row : RunRow) : List ReconciliationIssue :=
  if row.attemptKind = .retry ∧ retryMatched rows row = false then
    [⟨.retryLineage, row.attemptID, "retry predecessor changed matching coordinates"⟩]
  else []

def scopeIssue (row : RunRow) : List ReconciliationIssue :=
  if row.attemptID ∈ scopeIDs ∧ (row.terminalAtDeadline = false ∨ row.backfillState = .pending) then
    [⟨.freezeScopePending, row.attemptID, "scope attempt lacks reconciled deadline or has pending backfill"⟩]
  else []

def missingIssues : List ReconciliationIssue :=
  let missing := scopeIDs.filter fun attemptID => ¬ rows.any fun row => row.attemptID = attemptID
  (missing.dedup.mergeSort fun a b => decide (a ≤ b)).map fun attemptID =>
    ⟨.freezeScopeMissing, attemptID, "declared scope attempt is absent"⟩

def issues : List ReconciliationIssue :=
  countIssues rows expectations ++ identityIssues runID rows ++ pairIssues rows ++
    (rows.flatMap fun row => retryIssue rows row ++ scopeIssue scopeIDs row) ++ missingIssues rows scopeIDs

/-- `_record_issues`. -/
def recordIssues (s : ReconcileStore) (runID : String) (issues : List ReconciliationIssue) : ReconcileStore :=
  let insertOrIgnore (rows : List RunViolation) (issue : ReconciliationIssue) : List RunViolation :=
    if ⟨runID, issue⟩ ∈ rows then rows else rows ++ [⟨runID, issue⟩]
  { s with violations := issues.foldl insertOrIgnore s.violations }

/-- `reconcile`. -/
def reconcile (s : ReconcileStore) (freezeScopeID : String) (recordViolations : Bool) :
    Except LabError (ReconcileStore × ReconciliationReport) := do
  let undeclared := LabError.reconciliationError "formal reconciliation requires a declared scope"
  let rows := s.attemptsOf runID
  let scope ← orRevert undeclared (s.scopes freezeScopeID)
  revertIf (scope.runID ≠ runID) undeclared
  revertIf (¬ (expectations.map CountExpectation.key).Nodup ∨ expectations.any fun e => e.count < 0)
    (.reconciliationError "count expectations are invalid or duplicated")
  let issues := issues runID rows expectations scope.attemptIDs
  let report := ⟨runID, rows.length, submittedCount rows, notSubmittedCount rows, terminalCount rows,
    pendingCount rows, issues⟩
  return (if recordViolations then recordIssues s runID issues else s, report)

end RunReconciler

/-! ## A run of the experiments -/

/-- The store, the spool, and what was handed to the broadcaster until now. -/
structure RunLab where
  tables : ReconcileStore
  spool : PrivateSpool
  sent : List Sent

namespace RunLab

variable (l : RunLab)

/-- What the submissions see. -/
def lab : Lab := ⟨l.tables.store, l.spool, l.sent⟩

def withLab (lab : Lab) : RunLab := ⟨{ l.tables with store := lab.store }, lab.spool, lab.sent⟩

def withAttempts (s : AttemptStore) : RunLab := { l with tables := { l.tables with toAttemptStore := s } }

end RunLab

inductive RunOp
  | submission (op : SubmissionOp)
  | attempt (op : AttemptOp)

@[reducible] def RunOp.Answer : RunOp → Type
  | submission op => op.Answer
  | attempt op => op.Answer

variable [SignerLibraries]

/-- An operation of a submission, or on an attempt. -/
inductive RunLab.Answers (l : RunLab) : (op : RunOp) → Except LabError op.Answer → RunLab → Prop
  | submission {op : SubmissionOp} {r : Except LabError op.Answer} {lab : Lab} :
    l.lab.Answers op r lab → Answers l (.submission op) r (l.withLab lab)
  | attempt {op : AttemptOp} {r : Except LabError op.Answer} {s : AttemptStore} :
    l.tables.Answers op r s → Answers l (.attempt op) r (l.withAttempts s)

/-- The methods that attempts are executed through. -/
inductive RunCall
  | submission (c : SubmissionCoordinator.Call)
  | outcome (c : OutcomeClockRecorder.Call)
  | markSourceInFlight (reservationID : String)

abbrev RunProgram := Prog RunOp (fun op => Except LabError op.Answer) LabError

def RunProgram.ofSubmission {α : Type} (p : SubmissionCoordinator.Program α) : RunProgram α :=
  p.interp fun op => Prog.ask (RunOp.submission op)

def RunProgram.ofAttempt {α : Type} (p : OutcomeClockRecorder.Program α) : RunProgram α :=
  p.interp fun op => Prog.ask (RunOp.attempt op)

def RunCall.prog : RunCall → RunProgram Unit
  | submission c => .ofSubmission c.prog
  | outcome c => .ofAttempt c.prog
  | markSourceInFlight reservationID => .ofAttempt (OutcomeClockRecorder.Writer.markSourceInFlight reservationID).prog

/-- The leases, the approvals, the finality of the stages, and all else that
writes neither the states of the attempts nor their outcomes. -/
structure AroundRun (l : RunLab) (_ : Unit) (l' : RunLab) : Prop where
  states : ∀ id, l'.tables.state id = l.tables.state id
  outcomes : l'.tables.outcomes = l.tables.outcomes

/-- A step of a run of the experiments. -/
abbrev RunStep {τ : Type} [DecidableEq τ] :
    Threads τ RunLab RunOp (fun op => Except LabError op.Answer) LabError Unit →
      Threads.Event τ RunCall RunOp ⊕ Unit →
        Threads τ RunLab RunOp (fun op => Except LabError op.Answer) LabError Unit → Prop :=
  Threads.WorldStep (fun op l => l.Answers op) RunCall.prog AroundRun

end Xir.Impl.XirLab
