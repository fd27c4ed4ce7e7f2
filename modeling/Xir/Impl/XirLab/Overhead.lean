import Mathlib.Data.Rat.Defs
import Xir.Impl.XirLab.Finality
import Xir.Impl.XirLab.Schedule

/-!
# `PairFirstAnalyzer` of `src/xir_lab/analysis/overhead.py`

`decide_pairs` and `pair_values`, over the tables that they read. Amounts of wei
are integers, which the columns hold as texts, and the quotients of differences
are not rounded. The times of the decisions are left out.
-/

namespace Xir.Impl.XirLab

inductive AccountingBucket
  | source
  | intermediate
  | destination
  deriving DecidableEq

def AccountingBucket.name : AccountingBucket → String
  | source => "source"
  | intermediate => "intermediate"
  | destination => "destination"

inductive Metric
  | gasUsed
  | inputBytes
  | executionFeeWei
  | l1DataFeeWei
  | carrierPaymentWei
  | transactionValueWei
  | transactionCount
  deriving DecidableEq

/-- A row of `pairs`, with its condition. -/
structure PairRow where
  pairID : String
  runID : String
  carrierSequence : String

/-- The columns of `attempts` that the analysis reads. -/
structure PairAttempt where
  attemptID : String
  pairID : Option String
  arm : Arm
  attemptKind : ScheduleAttemptKind
  state : AttemptState

/-- The columns of `stages` that the analysis reads. -/
structure StageRecord where
  stageID : String
  attemptID : String
  chainID : Option Int
  accountingBucket : Option AccountingBucket
  state : String

/-- The columns of `transactions` that the analysis reads. -/
structure TransactionRecord where
  transactionID : String
  intentID : String
  state : TransactionState

/-- A row of `transaction_resources`. -/
structure ResourceRow where
  transactionID : String
  inputBytes : Int
  transactionValueWei : Int
  gasUsed : Int
  executionFeeWei : Int
  l1DataFeeWei : Option Int
  carrierPaymentWei : Int

/-- A row of `destination_effects`. -/
structure DestinationEffect where
  effectID : String
  predicateSHA256 : String
  succeeded : Bool
  deriving DecidableEq

structure PairDecision where
  pairID : String
  baselineAttemptID : String
  xirAttemptID : String
  eligible : Bool
  reasons : List String
  deriving DecidableEq

/-- A row of `pair_eligibility_decisions`. -/
structure DecisionRow where
  baselineAttemptID : String
  xirAttemptID : String
  eligible : Bool
  reasons : List String
  deriving DecidableEq

/-- The row of a decision. -/
def PairDecision.row (d : PairDecision) : DecisionRow := ⟨d.baselineAttemptID, d.xirAttemptID, d.eligible, d.reasons⟩

structure PairValue where
  pairID : String
  condition : String
  chainID : Int
  accountingBucket : AccountingBucket
  metric : Metric
  baselineValue : Option Int
  xirValue : Option Int
  difference : Option Int
  relativeDifference : Option ℚ
  unavailableReason : Option String

/-- The amount of a metric that a transaction is counted with. -/
def Metric.amount : Metric → ResourceRow → Option Int
  | gasUsed, r => some r.gasUsed
  | inputBytes, r => some r.inputBytes
  | executionFeeWei, r => some r.executionFeeWei
  | l1DataFeeWei, r => r.l1DataFeeWei
  | carrierPaymentWei, r => some r.carrierPaymentWei
  | transactionValueWei, r => some r.transactionValueWei
  | transactionCount, _ => some 1

/-- The tables that the analyzer reads, with their primary keys. -/
structure OverheadTables where
  pairs : List PairRow
  attempts : List PairAttempt
  stages : List StageRecord
  /-- `intents.stage_id`. -/
  intents : String → Option String
  transactions : List TransactionRecord
  resources : List ResourceRow
  observations : List ObservationRow
  effects : String → Option DestinationEffect
  decisions : String → Option DecisionRow
  pairs_unique : (pairs.map PairRow.pairID).Nodup
  stages_unique : (stages.map StageRecord.stageID).Nodup
  transactions_unique : (transactions.map TransactionRecord.transactionID).Nodup
  resources_unique : (resources.map ResourceRow.transactionID).Nodup

namespace OverheadTables

variable (s : OverheadTables)

/-- The stage of a transaction. -/
def stageOf (transactionID : String) : Option StageRecord := do
  let record ← s.transactions.find? fun t => t.transactionID = transactionID
  let stageID ← s.intents record.intentID
  s.stages.find? fun stage => stage.stageID = stageID

/-- The transactions of an attempt. -/
def transactionsOf (attemptID : String) : List TransactionRecord :=
  s.transactions.filter fun t => (s.stageOf t.transactionID).map StageRecord.attemptID = some attemptID

/-- No later observation supersedes this one. -/
def current (transactionID : String) : Option ObservationRow :=
  s.observations.find? fun o =>
    o.transactionID = transactionID ∧
      ¬ s.observations.any fun later => later.supersedesObservationID = some o.observationID

end OverheadTables

namespace PairFirstAnalyzer

variable (s : OverheadTables)

/-! ## `decide_pairs` -/

/-- What `_attempt_evidence_reasons` says of a transaction. -/
def transactionReasons (arm : Arm) (t : TransactionRecord) : List String :=
  (if t.state ≠ .finalized then [arm.name ++ "_nonfinal_transaction"] else []) ++
  (if ¬ s.resources.any fun r => r.transactionID = t.transactionID then [arm.name ++ "_resource_missing"] else []) ++
  (if (s.stageOf t.transactionID).bind StageRecord.accountingBucket = none
    then [arm.name ++ "_bucket_missing"] else []) ++
  (match s.current t.transactionID with
    | none => [arm.name ++ "_canonical_finality_missing"]
    | some latest =>
      if latest.state ≠ .finalized ∨ latest.canonical = false then [arm.name ++ "_canonical_finality_missing"] else [])

/-- `_attempt_evidence_reasons`. -/
def attemptEvidenceReasons (attemptID : String) (arm : Arm) : List String :=
  (if (s.transactionsOf attemptID).isEmpty then [arm.name ++ "_no_physical_transaction"] else []) ++
    (s.transactionsOf attemptID).flatMap (transactionReasons s arm)

/-- The primary attempts of an arm of a pair. -/
def designated (pairID : String) (arm : Arm) : List PairAttempt :=
  s.attempts.filter fun a => a.pairID = some pairID ∧ a.attemptKind = .primary ∧ a.arm = arm

def armReasons (a : PairAttempt) : List String :=
  (if a.state ≠ .other "delivered" then [a.arm.name ++ "_not_delivered"] else []) ++
    attemptEvidenceReasons s a.attemptID a.arm

def effectReasons (baselineID xirID : String) : List String :=
  match s.effects baselineID, s.effects xirID with
  | some baseline, some xir => if baseline ≠ xir then ["destination_effect_mismatch"] else []
  | _, _ => ["destination_effect_missing"]

/-- The decision on a pair with an attempt of each arm. -/
def decision (pairID : String) (baseline xir : PairAttempt) : PairDecision :=
  let reasons := armReasons s baseline ++ armReasons s xir ++ effectReasons s baseline.attemptID xir.attemptID
  ⟨pairID, baseline.attemptID, xir.attemptID, reasons.isEmpty, reasons.dedup.mergeSort fun a b => decide (a ≤ b)⟩

/-- The resources that `_metric` adds up. -/
def metricRows (attemptID : String) (chainID : Int) (bucket : AccountingBucket) : List ResourceRow :=
  s.resources.filter fun r => (s.stageOf r.transactionID).any fun stage =>
    stage.attemptID = attemptID ∧ stage.chainID = some chainID ∧ stage.accountingBucket = some bucket

/-- The stages of an attempt at a coordinate. -/
def stagesAt (attemptID : String) (chainID : Int) (bucket : AccountingBucket) : List StageRecord :=
  s.stages.filter fun stage =>
    stage.attemptID = attemptID ∧ stage.chainID = some chainID ∧ stage.accountingBucket = some bucket

/-- `_metric`. -/
def metric (attemptID : String) (chainID : Int) (bucket : AccountingBucket) (m : Metric) : Except String Int :=
  let rows := metricRows s attemptID chainID bucket
  let stages := stagesAt s attemptID chainID bucket
  if rows.isEmpty then
    if stages ≠ [] ∧ stages.all fun stage => stage.state = "completed" then .ok 0
    else .error "bucket_completeness_unproved"
  else if m = .l1DataFeeWei ∧ rows.any fun r => r.l1DataFeeWei.isNone then .error "l1_data_fee_unavailable"
  else .ok (Table.total (fun r => (m.amount r).getD 0) rows)

/-- The order of the coordinates. -/
def coordinateLE (a b : Int × AccountingBucket) : Bool :=
  decide (a.1 < b.1 ∨ a.1 = b.1 ∧ a.2.name ≤ b.2.name)

/-- The coordinate of a stage. -/
def coordinate (stage : StageRecord) : Option (Int × AccountingBucket) := do
  return (← stage.chainID, ← stage.accountingBucket)

def coordinates (d : PairDecision) : List (Int × AccountingBucket) :=
  ((s.stages.filter fun stage => stage.attemptID = d.baselineAttemptID ∨ stage.attemptID = d.xirAttemptID).filterMap
    coordinate).dedup.mergeSort coordinateLE

end PairFirstAnalyzer

end Xir.Impl.XirLab
