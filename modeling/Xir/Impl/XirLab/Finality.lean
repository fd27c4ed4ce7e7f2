import Xir.Impl.XirLab.Submission

/-!
# `FinalityManager` of `src/xir_lab/collect/finality.py`

The manager is a program whose operations are its reads of the store, the two
lookups of its provider, and its two writes: the append of an observation, and
the state of a transaction with that of its stage. Each is a store transaction
of its own. The provider answers what it likes.
-/

namespace Xir.Impl.XirLab

inductive FinalityKind
  | confirmations
  | l2Safe
  | l2Finalized
  | l1Settlement
  deriving DecidableEq

def FinalityKind.name : FinalityKind → String
  | confirmations => "confirmations"
  | l2Safe => "l2-safe"
  | l2Finalized => "l2-finalized"
  | l1Settlement => "l1-settlement"

structure ChainFinalityPolicy where
  chainID : Int
  kind : FinalityKind
  confirmationCount : Option Int

inductive ObservationState
  | included
  | finalized
  | orphaned
  deriving DecidableEq

def ObservationState.name : ObservationState → String
  | included => "included"
  | finalized => "finalized"
  | orphaned => "orphaned"

/-- The state of a transaction that is observed so. -/
def ObservationState.toState : ObservationState → TransactionState
  | included => .included
  | finalized => .finalized
  | orphaned => .other "orphaned"

structure FinalityObservation where
  observationID : String
  transactionID : String
  state : ObservationState
  blockNumber : Int
  blockHash : String
  policyKind : FinalityKind
  policyHeadBlock : Option Int
  supersedesObservationID : Option String

/-- A row of `finality_policies`. -/
structure PolicyRow where
  kind : FinalityKind
  confirmationCount : Option Int

/-- A row of `transaction_finality_observations`. -/
structure ObservationRow extends FinalityObservation where
  chainID : Int
  canonical : Bool

/-- A row of `transaction_receipts`. -/
structure ReceiptRow where
  blockNumber : Int
  blockHash : String

/-- What `_transaction_receipt` selects. -/
structure TransactionReceipt extends ReceiptRow where
  chainID : Int
  runID : String

structure FinalityAudit where
  runID : String
  finalizedTransactions : Nat
  labels : List FinalityKind
  orphanedTransactions : List String

/-- The constraints of `transaction_finality_observations`. -/
def ObservationRow.Constraints (rows : List ObservationRow) : Prop :=
  (∀ o ∈ rows, Stored o.blockNumber ∧ ∀ head ∈ o.policyHeadBlock, - 2 ^ 63 ≤ head ∧ head < 2 ^ 63) ∧
  Table.Unique (fun o : ObservationRow => some o.observationID) rows ∧
  Table.Unique (fun o : ObservationRow => o.supersedesObservationID) rows

instance (rows : List ObservationRow) : Decidable (ObservationRow.Constraints rows) :=
  inferInstanceAs (Decidable (_ ∧ _))

/-- The store, with the tables that the manager reads and writes. -/
structure FinalityStore where
  store : Store
  /-- `stages.state`. -/
  stageStates : String → Option String
  receipts : String → Option ReceiptRow
  policies : String × Int → Option PolicyRow
  observations : List ObservationRow

namespace FinalityStore

variable (s : FinalityStore)

/-- A later observation supersedes this one. -/
def Superseded (o : ObservationRow) : Prop :=
  ∃ later ∈ s.observations, later.supersedesObservationID = some o.observationID

instance (o : ObservationRow) : Decidable (s.Superseded o) := inferInstanceAs (Decidable (∃ _ ∈ _, _))

/-- `_latest`. -/
def latest (transactionID : String) : Option FinalityObservation :=
  (s.observations.find? fun current => current.transactionID = transactionID ∧ ¬ s.Superseded current).map
    ObservationRow.toFinalityObservation

/-- The run of the attempt of a transaction. -/
def runOf (record : TransactionRow) : Option String := do
  let intent ← s.store.intent record.intentID
  let stage ← s.store.stage intent.stageID
  let attempt ← s.store.attempts stage.attemptID
  return attempt.runID

/-- The transactions of a run, in the order of their identifiers. -/
def transactionsOf (runID : String) : List TransactionRow :=
  (s.store.transactions.filter fun t => s.runOf t = some runID).mergeSort fun a b => a.transactionID ≤ b.transactionID

/-- `_transaction_receipt`. -/
def transactionReceipt (transactionID : String) : Except LabError TransactionReceipt := do
  let missing := LabError.finalityError "finality requires a collected transaction receipt"
  let record ← orRevert missing (s.store.transaction transactionID)
  let receipt ← orRevert missing (s.receipts transactionID)
  let runID ← orRevert missing (s.runOf record)
  return { receipt with chainID := record.chainID, runID }

/-- `_policy`. -/
def policy (runID : String) (chainID : Int) : Except LabError ChainFinalityPolicy := do
  let row ←
    orRevert (.finalityError "transaction chain has no preregistered finality policy") (s.policies (runID, chainID))
  return ⟨chainID, row.kind, row.confirmationCount⟩

/-- The write of `_append`. -/
def append (row : ObservationRow) : Except LabError FinalityStore :=
  let rows := s.observations ++ [row]
  if ObservationRow.Constraints rows then .ok { s with observations := rows } else .error .sqliteError

/-- `_set_transaction_state`. -/
def setTransactionState (transactionID : String) (state : ObservationState) (completeStage collectStage : Bool) :
    Except LabError FinalityStore := do
  let unknown := LabError.finalityError ("unknown transaction: " ++ transactionID)
  let record ← orRevert unknown (s.store.transaction transactionID)
  let intent ← orRevert unknown (s.store.intent record.intentID)
  let stage ← orRevert unknown (s.store.stage intent.stageID)
  let current ← orRevert unknown (s.stageStates stage.stageID)
  let store ← s.store.setTransaction transactionID fun t => { t with state := state.toState }
  let stageState := if completeStage then "completed" else if collectStage then "collecting" else current
  return { s with store, stageStates := Function.update s.stageStates stage.stageID (some stageState) }

end FinalityStore

/-! ## Operations -/

inductive FinalityOp
  | receipt (transactionID : String)
  | policy (runID : String) (chainID : Int)
  | canonicalBlockHash (chainID blockNumber : Int)
  | policyHead (chainID : Int) (kind : FinalityKind)
  | latest (transactionID : String)
  | transactions (runID : String)
  | append (row : ObservationRow)
  | setTransactionState (transactionID : String) (state : ObservationState) (completeStage collectStage : Bool)

@[reducible] def FinalityOp.Answer : FinalityOp → Type
  | receipt _ => TransactionReceipt
  | policy .. => ChainFinalityPolicy
  | canonicalBlockHash .. => Option String
  | policyHead .. => Option Int
  | latest _ => Option FinalityObservation
  | transactions _ => List TransactionRow
  | append _ | setTransactionState .. => Unit

/-- What the manager uses of its libraries. -/
class FinalityLibraries where
  /-- `text.lower()`. -/
  lower : String → String
  lower_lower (text : String) : lower (lower text) = lower text
  /-- `stable_id`. -/
  stableID : String → List String → String

namespace FinalityManager

/-- An operation raises, and changes nothing, or it does what it should. -/
inductive Answers (s : FinalityStore) : (op : FinalityOp) → Except LabError op.Answer → FinalityStore → Prop
  | raises (op : FinalityOp) (e : LabError) : Answers s op (.error e) s
  | receipt {transactionID : String} {receipt : TransactionReceipt} : s.transactionReceipt transactionID = .ok receipt →
    Answers s (.receipt transactionID) (.ok receipt) s
  | policy {runID : String} {chainID : Int} {policy : ChainFinalityPolicy} : s.policy runID chainID = .ok policy →
    Answers s (.policy runID chainID) (.ok policy) s
  | canonicalBlockHash (chainID blockNumber : Int) (hash : Option String) :
    Answers s (.canonicalBlockHash chainID blockNumber) (.ok hash) s
  | policyHead (chainID : Int) (kind : FinalityKind) (head : Option Int) :
      Answers s (.policyHead chainID kind) (.ok head) s
  | latest (transactionID : String) : Answers s (.latest transactionID) (.ok (s.latest transactionID)) s
  | transactions (runID : String) : Answers s (.transactions runID) (.ok (s.transactionsOf runID)) s
  | append {row : ObservationRow} {s' : FinalityStore} : s.append row = .ok s' → Answers s (.append row) (.ok ()) s'
  | setTransactionState {transactionID : String} {state : ObservationState} {completeStage collectStage : Bool}
    {s' : FinalityStore} : s.setTransactionState transactionID state completeStage collectStage = .ok s' →
    Answers s (.setTransactionState transactionID state completeStage collectStage) (.ok ()) s'

abbrev Program := Prog FinalityOp (fun op => Except LabError op.Answer) LabError

abbrev call (op : FinalityOp) : Program op.Answer := Prog.call op

/-! ## Methods -/

variable [FinalityLibraries]

open FinalityLibraries

/-- `_append`. -/
def append (transactionID : String) (chainID blockNumber : Int) (blockHash : String) (state : ObservationState)
    (canonical : Bool) (policyKind : FinalityKind) (policyHeadBlock : Option Int) (supersedes : Option String) :
    Program FinalityObservation := do
  let observationID := stableID "observation"
    ["transaction-finality", transactionID, state.name, lower blockHash, supersedes.getD "root"]
  let row : ObservationRow := {
    observationID, transactionID, state, blockNumber, blockHash := lower blockHash, policyKind, policyHeadBlock
    supersedesObservationID := supersedes, chainID, canonical }
  call (.append row)
  return row.toFinalityObservation

/-- `_policy_for_transaction`. -/
def policyForTransaction (transactionID : String) : Program ChainFinalityPolicy := do
  let transaction ← call (.receipt transactionID)
  call (.policy transaction.runID transaction.chainID)

/-- The observation is of the inclusion of this receipt. -/
def Observes (latest : FinalityObservation) (receipt : ReceiptRow) : Prop :=
  latest.state ∈ [.included, .finalized] ∧ latest.blockNumber = receipt.blockNumber ∧
    latest.blockHash = lower receipt.blockHash

instance (latest : FinalityObservation) (receipt : ReceiptRow) : Decidable (Observes latest receipt) :=
  inferInstanceAs (Decidable (_ ∧ _))

/-- What `observe_included` does about a receipt that no latest observation is of. -/
def appendIncluded (transactionID : String) (transaction : TransactionReceipt) (policy : ChainFinalityPolicy)
    (supersedes : Option String) : Program FinalityObservation := do
  let observation ← append transactionID policy.chainID transaction.blockNumber transaction.blockHash .included true
    policy.kind none supersedes
  call (.setTransactionState transactionID .included false false)
  return observation

/-- `observe_included`. -/
def observeIncluded (transactionID : String) : Program FinalityObservation := do
  let transaction ← call (.receipt transactionID)
  let policy ← call (.policy transaction.runID transaction.chainID)
  let canonicalHash ← call (.canonicalBlockHash policy.chainID transaction.blockNumber)
  Prog.ofExcept (revertIf (canonicalHash.map lower ≠ some (lower transaction.blockHash))
    (.finalityError "included receipt is not on the canonical chain"))
  match ← call (.latest transactionID) with
  | none => appendIncluded transactionID transaction policy none
  | some latest =>
    if Observes latest transaction.toReceiptRow then return latest
    else appendIncluded transactionID transaction policy (some latest.observationID)

/-- Whether a policy accepts a block as final, at a head. -/
def Reached (policy : ChainFinalityPolicy) (policyHead blockNumber : Int) : Prop :=
  match policy.kind with
  | .confirmations => ∃ count ∈ policy.confirmationCount, count ≤ policyHead - blockNumber + 1
  | _ => blockNumber ≤ policyHead

instance (policy : ChainFinalityPolicy) (policyHead blockNumber : Int) :
    Decidable (Reached policy policyHead blockNumber) := by
  unfold Reached
  split <;> infer_instance

/-- What `finalize` does about an observed inclusion. -/
def finalizeIncluded (transactionID : String) (included : FinalityObservation) : Program FinalityObservation := do
  let policy ← policyForTransaction transactionID
  let policyHead ← call (.policyHead policy.chainID policy.kind)
  let policyHead ← Prog.ofExcept (orRevert (.finalityError "approved finality head is unavailable") policyHead)
  Prog.ofExcept (revertIf (policy.kind = .confirmations ∧ policy.confirmationCount = none) .assertionError)
  Prog.ofExcept (revertIf (¬ Reached policy policyHead included.blockNumber)
    (.finalityError "transaction has not reached approved finality"))
  let canonicalHash ← call (.canonicalBlockHash policy.chainID included.blockNumber)
  Prog.ofExcept (revertIf (canonicalHash.map lower ≠ some included.blockHash)
    (.finalityError "canonical hash changed before finalization"))
  let observation ← append transactionID policy.chainID included.blockNumber included.blockHash .finalized true
    policy.kind (some policyHead) (some included.observationID)
  call (.setTransactionState transactionID .finalized true false)
  return observation

/-- `finalize`. -/
def finalize (transactionID : String) : Program FinalityObservation := do
  let included ← observeIncluded transactionID
  if included.state = .finalized then return included
  else finalizeIncluded transactionID included

/-- What `recheck_canonicality` does about a latest observation: whether it is orphaned. -/
def recheckLatest (transactionID : String) (latest : FinalityObservation) : Program Bool := do
  let policy ← policyForTransaction transactionID
  let canonicalHash ← call (.canonicalBlockHash policy.chainID latest.blockNumber)
  let canonicalHash ← Prog.ofExcept (orRevert
    (.finalityError ("canonical block hash unavailable for " ++ transactionID)) canonicalHash)
  if lower canonicalHash = latest.blockHash then return false
  else
    let _ ← append transactionID policy.chainID latest.blockNumber latest.blockHash .orphaned false policy.kind none
      (some latest.observationID)
    call (.setTransactionState transactionID .orphaned false true)
    return true

/-- What `recheck_canonicality` does about a transaction. -/
def recheckTransaction (transactionID : String) : Program Bool := do
  match ← call (.latest transactionID) with
  | none => return false
  | some latest =>
    if latest.state = .orphaned then return false
    else recheckLatest transactionID latest

/-- The loop of `recheck_canonicality`. -/
def recheckAll : List TransactionRow → Program (List String)
  | [] => return []
  | row :: rows => do
    let orphaned ← recheckTransaction row.transactionID
    let rest ← recheckAll rows
    return if orphaned then row.transactionID :: rest else rest

/-- `recheck_canonicality`. -/
def recheckCanonicality (runID : String) : Program (List String) := do
  let rows ← call (.transactions runID)
  recheckAll rows

/-- The loop of `audit_for_freeze`: what is incomplete, and the labels of the rest. -/
def auditAll : List TransactionRow → Program (List String × List FinalityKind)
  | [] => return ([], [])
  | row :: rows => do
    let latest ← call (.latest row.transactionID)
    let (incomplete, labels) ← auditAll rows
    match latest with
    | some latest =>
      if row.state = .finalized ∧ latest.state = .finalized then return (incomplete, latest.policyKind :: labels)
      else return (row.transactionID :: incomplete, labels)
    | none => return (row.transactionID :: incomplete, labels)

/-- `audit_for_freeze`. -/
def auditForFreeze (runID : String) : Program FinalityAudit := do
  let orphaned ← recheckCanonicality runID
  let rows ← call (.transactions runID)
  let (incomplete, labels) ← auditAll rows
  Prog.ofExcept (revertIf (orphaned ≠ [] ∨ incomplete ≠ []) (.finalityError
    ("freeze finality audit has unresolved transactions: " ++
      ",".intercalate ((orphaned ++ incomplete).dedup.mergeSort (· ≤ ·)))))
  return ⟨runID, rows.length, labels.dedup.mergeSort fun a b => a.name ≤ b.name, []⟩

/-- The operations of the manager. -/
inductive Call
  | observeIncluded (transactionID : String)
  | finalize (transactionID : String)
  | recheckCanonicality (runID : String)
  | auditForFreeze (runID : String)

/-- What a call returns. -/
@[reducible] def Call.Result : Call → Type
  | observeIncluded _ | finalize _ => FinalityObservation
  | recheckCanonicality _ => List String
  | auditForFreeze _ => FinalityAudit

def Call.prog : (c : Call) → Program c.Result
  | observeIncluded transactionID => FinalityManager.observeIncluded transactionID
  | finalize transactionID => FinalityManager.finalize transactionID
  | recheckCanonicality runID => FinalityManager.recheckCanonicality runID
  | auditForFreeze runID => FinalityManager.auditForFreeze runID

end FinalityManager

end Xir.Impl.XirLab
