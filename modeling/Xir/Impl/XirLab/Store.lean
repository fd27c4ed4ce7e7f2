import Mathlib.Logic.Function.Basic
import Xir.Framework.Except
import Xir.Framework.Table

/-!
# `src/xir_lab/evidence`: the store

The tables of `migrations/001_initial.sql` that the leases, the controls and the
submissions work on, with the columns that they read or that a claim of the
schema is about. A table that is only looked up by its key is a map. A statement
that leaves a table in violation of its constraints raises, and what the
transaction wrote before is rolled back: an operation is a function to `Except`.
The times are integers. The journal, the JSON details of events and the times at
which rows were written are left out.
-/

namespace Xir.Impl.XirLab

/-- What an operation raises. -/
inductive LabError
  | leaseError (text : String)
  | budgetError (text : String)
  | controlError (text : String)
  | submissionError (text : String)
  | signerError (text : String)
  | resolutionError (text : String)
  | scheduleError (text : String)
  | approvalError (text : String)
  | finalityError (text : String)
  | storeError (text : String)
  | stopPolicyError (text : String)
  | outcomeError (text : String)
  | executorError (text : String)
  | reconciliationError (text : String)
  | planError (text : String)
  | topologyError (text : String)
  | gatewayError (text : String)
  | valueError (text : String)
  | assertionError
  /-- A dictionary has no such key. -/
  | keyError
  /-- A loop does not end. -/
  | diverges
  /-- A constraint of a table, or an integer that no column can hold. -/
  | sqliteError
  /-- `rfc8785` refuses an integer. -/
  | integerDomainError
  /-- A file cannot be read. -/
  | osError
  deriving DecidableEq, Repr

/-- `ControlMode`, which `runs.state` has as well. -/
inductive ControlMode
  | running
  | drain
  | halted
  | revoked
  deriving DecidableEq, Repr

def ControlMode.name : ControlMode → String
  | running => "running"
  | drain => "drain"
  | halted => "halted"
  | revoked => "revoked"

inductive AttemptState
  | planned
  | inFlight
  | other (name : String)
  deriving DecidableEq

inductive TransactionState
  | prepared
  | signerReturn
  | signedHashPersisted
  | broadcastUnknown
  | submitted
  | included
  | finalized
  | released
  | dropped
  | other (name : String)
  deriving DecidableEq

inductive BudgetState
  | reserved
  | inFlight
  | settled
  | released
  deriving DecidableEq

inductive SubState
  | reserved
  | active
  | broadcastUnknown
  | submitted
  | included
  | finalized
  | released
  | reopened
  deriving DecidableEq

inductive NonceState
  | active
  | broadcastUnknown
  | submitted
  | included
  | finalized
  | released
  deriving DecidableEq

inductive WorkState
  | active
  | released
  | expired
  deriving DecidableEq

/-! ## Rows -/

/-- A row of `attempts`, with the run of its condition. -/
structure AttemptRow where
  runID : String
  state : AttemptState

structure StageRow where
  stageID : String
  attemptID : String
  stageName : String

structure IntentRow where
  intentID : String
  stageID : String
  signerOperationID : String
  chainID : Int
  nonce : Int
  state : TransactionState
  payloadSHA256 : String
  approvalID : String
  approvalPayloadSHA256 : String
  signerID : String
  signerIdentitySHA256 : String
  networkIdentitySHA256 : String
  quoteSHA256 : String
  quoteValidUntil : Int
  simulationSHA256 : String
  simulationValidUntil : Int
  reservationID : String
  reservationStageKey : String
  requestedWei : Int

structure TransactionRow where
  transactionID : String
  intentID : String
  chainID : Int
  nonce : Int
  transactionHash : Option String
  replacesTransactionID : Option String
  state : TransactionState
  signedSHA256 : Option String
  signedLength : Option Int
  spoolRelativePath : Option String

structure ApprovalRow where
  payloadSHA256 : String
  validFrom : Int
  validUntil : Int

/-- A row of `budgets`: what a reservation holds on a chain. -/
structure BudgetRow where
  reservationID : String
  attemptID : String
  runID : String
  batchID : String
  chainID : Int
  reservedWei : Int
  provisionalWei : Int
  finalizedWei : Int
  sourceInFlight : Bool
  state : BudgetState
  deriving DecidableEq

/-- A row of `transaction_subreservations`: what a stage of a reservation holds. -/
structure SubreservationRow where
  subreservationID : String
  reservationID : String
  attemptID : String
  stageKey : String
  chainID : Int
  lineageID : Option String
  reservedWei : Int
  allocatedWei : Int
  provisionalWei : Int
  finalizedWei : Int
  state : SubState
  releaseProofSHA256 : Option String
  manualReleaseDecisionSHA256 : Option String
  signedBytesDestroyed : Bool
  deriving DecidableEq

structure NonceLeaseRow where
  leaseID : String
  lineageID : String
  chainID : Int
  signerID : String
  holderID : String
  nonce : Int
  attemptID : String
  stageKey : String
  reservationID : String
  intentID : Option String
  state : NonceState
  locked : Bool
  deriving DecidableEq

structure WorkLeaseRow where
  leaseID : String
  attemptID : String
  holderID : String
  expiresAt : Int
  state : WorkState
  deriving DecidableEq

/-- What a row of `budget_limits` holds. -/
structure BudgetLimit where
  maxTransactionWei : Int
  maxBatchWei : Int
  maxRunWei : Int
  minimumRunnerBalanceWei : Int
  observedRunnerBalanceWei : Int
  deriving DecidableEq

/-- The amounts of a row of totals, or those that an event changes. -/
structure Amounts where
  reserved : Int
  provisional : Int
  finalized : Int
  deriving DecidableEq

structure BudgetEventRow where
  runID : String
  batchID : String
  chainID : Int
  reservationID : String
  subreservationID : Option String
  eventType : String
  delta : Amounts
  deriving DecidableEq

structure ViolationRow where
  violationID : String
  runID : String
  invariantCode : String
  deriving DecidableEq

structure ControlDecision where
  decisionID : String
  decisionSHA256 : String
  reasonCode : String
  approvalPayloadSHA256 : Option String
  deriving DecidableEq

/-- A row of `run_controls`. -/
structure ControlRow where
  mode : ControlMode
  decision : ControlDecision
  sequence : Nat
  deriving DecidableEq

structure ControlEventRow where
  runID : String
  fromMode : Option ControlMode
  toMode : ControlMode
  decision : ControlDecision
  deriving DecidableEq

/-- A lowercase SHA-256 value. -/
def LowerSHA256 (digest : String) : Prop :=
  digest.length = 64 ∧ ∀ c ∈ digest.toList, c ∈ "0123456789abcdef".toList

instance (digest : String) : Decidable (LowerSHA256 digest) := inferInstanceAs (Decidable (_ ∧ _))

namespace Amounts

instance : Add Amounts where
  add a b := ⟨a.reserved + b.reserved, a.provisional + b.provisional, a.finalized + b.finalized⟩

instance : Zero Amounts where
  zero := ⟨0, 0, 0⟩

@[simp] theorem add_reserved (a b : Amounts) : (a + b).reserved = a.reserved + b.reserved := rfl

@[simp] theorem add_provisional (a b : Amounts) : (a + b).provisional = a.provisional + b.provisional := rfl

@[simp] theorem add_finalized (a b : Amounts) : (a + b).finalized = a.finalized + b.finalized := rfl

end Amounts

/-! ## Constraints -/

/-- The constraints of `intents`. -/
def IntentRow.Constraints (rows : List IntentRow) : Prop :=
  (∀ i ∈ rows, 0 ≤ i.nonce ∧ 0 ≤ i.requestedWei) ∧
  Table.Unique (fun i : IntentRow => some i.intentID) rows ∧
  Table.Unique (fun i : IntentRow => some i.signerOperationID) rows

instance (rows : List IntentRow) : Decidable (IntentRow.Constraints rows) := inferInstanceAs (Decidable (_ ∧ _))

/-- The constraints of `transactions`. -/
def TransactionRow.Constraints (rows : List TransactionRow) : Prop :=
  (∀ t ∈ rows, 0 ≤ t.nonce ∧ (∀ d ∈ t.signedSHA256, d.length = 64) ∧ ∀ n ∈ t.signedLength, 0 < n) ∧
  Table.Unique (fun t : TransactionRow => some t.transactionID) rows ∧
  Table.Unique (fun t : TransactionRow => t.transactionHash.map fun h => (t.chainID, h)) rows

instance (rows : List TransactionRow) : Decidable (TransactionRow.Constraints rows) :=
  inferInstanceAs (Decidable (_ ∧ _))

/-- An amount that a column with `CHECK(... >= 0)` can hold. -/
def Stored (v : Int) : Prop := 0 ≤ v ∧ v < 2 ^ 63

instance (v : Int) : Decidable (Stored v) := inferInstanceAs (Decidable (_ ∧ _))

/-- The checks of a row of totals. -/
def Amounts.Valid (a : Amounts) : Prop := Stored a.reserved ∧ Stored a.provisional ∧ Stored a.finalized

instance (a : Amounts) : Decidable a.Valid := inferInstanceAs (Decidable (_ ∧ _))

/-- The checks of a row of `budget_limits`. -/
def BudgetLimit.Valid (l : BudgetLimit) : Prop :=
  Stored l.maxTransactionWei ∧ Stored l.maxBatchWei ∧ Stored l.maxRunWei ∧ Stored l.minimumRunnerBalanceWei ∧
    Stored l.observedRunnerBalanceWei

instance (l : BudgetLimit) : Decidable l.Valid := inferInstanceAs (Decidable (_ ∧ _))

namespace BudgetRow

def key (b : BudgetRow) : String × Int := (b.reservationID, b.chainID)

/-- The constraints of `budgets`. -/
def Constraints (rows : List BudgetRow) : Prop :=
  (∀ b ∈ rows, Stored b.reservedWei ∧ Stored b.provisionalWei ∧ Stored b.finalizedWei) ∧
  Table.Unique (fun b : BudgetRow => some b.key) rows ∧
  Table.Unique (fun b : BudgetRow => some (b.attemptID, b.chainID)) rows

instance (rows : List BudgetRow) : Decidable (Constraints rows) := inferInstanceAs (Decidable (_ ∧ _))

end BudgetRow

namespace SubreservationRow

def key (r : SubreservationRow) : String × Int := (r.reservationID, r.chainID)

/-- The constraints of `transaction_subreservations`. -/
def Constraints (rows : List SubreservationRow) : Prop :=
  (∀ r ∈ rows, Stored r.reservedWei ∧ Stored r.allocatedWei ∧ Stored r.provisionalWei ∧ Stored r.finalizedWei) ∧
  Table.Unique (fun r : SubreservationRow => some r.subreservationID) rows ∧
  Table.Unique (fun r : SubreservationRow => some (r.reservationID, r.stageKey)) rows ∧
  Table.Unique SubreservationRow.lineageID rows

instance (rows : List SubreservationRow) : Decidable (Constraints rows) := inferInstanceAs (Decidable (_ ∧ _))

end SubreservationRow

/-- The constraints of `nonce_leases`. -/
def NonceLeaseRow.Constraints (rows : List NonceLeaseRow) : Prop :=
  (∀ n ∈ rows, Stored n.nonce) ∧
  Table.Unique (fun n : NonceLeaseRow => some n.leaseID) rows ∧
  Table.Unique (fun n : NonceLeaseRow => some n.lineageID) rows ∧
  Table.Unique (fun n : NonceLeaseRow => some (n.chainID, n.signerID, n.nonce)) rows

instance (rows : List NonceLeaseRow) : Decidable (NonceLeaseRow.Constraints rows) := inferInstanceAs (Decidable (_ ∧ _))

/-- The constraints of `work_leases`, with the index `one_live_work_lease`. -/
def WorkLeaseRow.Constraints (rows : List WorkLeaseRow) : Prop :=
  Table.Unique (fun w : WorkLeaseRow => some w.leaseID) rows ∧
  Table.Unique (fun w : WorkLeaseRow => if w.state = .active then some w.attemptID else none) rows

instance (rows : List WorkLeaseRow) : Decidable (WorkLeaseRow.Constraints rows) := inferInstanceAs (Decidable (_ ∧ _))

/-- The constraints of `invariant_violations`. -/
def ViolationRow.Constraints (rows : List ViolationRow) : Prop :=
  Table.Unique (fun v : ViolationRow => some v.violationID) rows

instance (rows : List ViolationRow) : Decidable (ViolationRow.Constraints rows) :=
  inferInstanceAs (Decidable (Table.Unique _ _))

/-- The constraints of `control_events`. -/
def ControlEventRow.Constraints (rows : List ControlEventRow) : Prop :=
  Table.Unique (fun e : ControlEventRow => some (e.runID, e.decision.decisionID)) rows

instance (rows : List ControlEventRow) : Decidable (ControlEventRow.Constraints rows) :=
  inferInstanceAs (Decidable (Table.Unique _ _))

/-! ## The store -/

structure Store where
  /-- `runs.state`. -/
  runs : String → Option ControlMode
  attempts : String → Option AttemptRow
  stages : List StageRow
  intents : List IntentRow
  transactions : List TransactionRow
  approvals : String → Option ApprovalRow
  /-- The approvals that `approval_revocations` names. -/
  approvalRevocations : List String
  workLeases : List WorkLeaseRow
  nonceLeases : List NonceLeaseRow
  budgets : List BudgetRow
  budgetLimits : String × Int → Option BudgetLimit
  budgetTotals : String × Int → Option Amounts
  batchBudgetTotals : String × String × Int → Option Amounts
  subreservations : List SubreservationRow
  budgetEvents : List BudgetEventRow
  runControls : String → Option ControlRow
  controlEvents : List ControlEventRow
  violations : List ViolationRow

namespace Store

/-- A store with no rows. -/
def empty : Store where
  runs := fun _ => none
  attempts := fun _ => none
  stages := []
  intents := []
  transactions := []
  approvals := fun _ => none
  approvalRevocations := []
  workLeases := []
  nonceLeases := []
  budgets := []
  budgetLimits := fun _ => none
  budgetTotals := fun _ => none
  batchBudgetTotals := fun _ => none
  subreservations := []
  budgetEvents := []
  runControls := fun _ => none
  controlEvents := []
  violations := []

variable (s : Store)

/-! ## Statements -/

def putIntents (rows : List IntentRow) : Except LabError Store :=
  if IntentRow.Constraints rows then .ok { s with intents := rows } else .error .sqliteError

def putTransactions (rows : List TransactionRow) : Except LabError Store :=
  if TransactionRow.Constraints rows then .ok { s with transactions := rows } else .error .sqliteError

def putBudgets (rows : List BudgetRow) : Except LabError Store :=
  if BudgetRow.Constraints rows then .ok { s with budgets := rows } else .error .sqliteError

def putSubreservations (rows : List SubreservationRow) : Except LabError Store :=
  if SubreservationRow.Constraints rows then .ok { s with subreservations := rows } else .error .sqliteError

def putNonceLeases (rows : List NonceLeaseRow) : Except LabError Store :=
  if NonceLeaseRow.Constraints rows then .ok { s with nonceLeases := rows } else .error .sqliteError

def putWorkLeases (rows : List WorkLeaseRow) : Except LabError Store :=
  if WorkLeaseRow.Constraints rows then .ok { s with workLeases := rows } else .error .sqliteError

def putViolations (rows : List ViolationRow) : Except LabError Store :=
  if ViolationRow.Constraints rows then .ok { s with violations := rows } else .error .sqliteError

def putControlEvents (rows : List ControlEventRow) : Except LabError Store :=
  if ControlEventRow.Constraints rows then .ok { s with controlEvents := rows } else .error .sqliteError

def putBudgetLimit (runID : String) (chainID : Int) (limit : BudgetLimit) : Except LabError Store :=
  if limit.Valid ∧ - 2 ^ 63 ≤ chainID ∧ chainID < 2 ^ 63 then
    .ok { s with budgetLimits := Function.update s.budgetLimits (runID, chainID) (some limit) }
  else .error .sqliteError

def putBudgetTotals (runID : String) (chainID : Int) (a : Amounts) : Except LabError Store :=
  if a.Valid then .ok { s with budgetTotals := Function.update s.budgetTotals (runID, chainID) (some a) }
  else .error .sqliteError

def putBatchBudgetTotals (runID batchID : String) (chainID : Int) (a : Amounts) : Except LabError Store :=
  if a.Valid then
    .ok { s with batchBudgetTotals := Function.update s.batchBudgetTotals (runID, batchID, chainID) (some a) }
  else .error .sqliteError

end Store

end Xir.Impl.XirLab
