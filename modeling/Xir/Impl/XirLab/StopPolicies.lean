import Mathlib.Data.PNat.Basic
import Xir.Framework.Prog
import Xir.Impl.XirLab.Controls

/-!
# `StopPolicyEngine` of `src/xir_lab/execute/stop_policies.py`

A check reads what it needs, or records an outcome, then records its event, and
then stops the run if its threshold is met. Each of these is a store transaction
of its own, which is an operation of the program. The thresholds have the minima
that the engine demands of them as their types. Times are in microseconds.
-/

namespace Xir.Impl.XirLab

/-! ## Policies -/

structure FinancialStopPolicy where
  maxQuoteAgeSeconds : Nat
  maxQuoteMovementBps : Nat

/-- The actions of the integrity checks are `halt`. -/
structure ExecutionStopPolicy where
  consecutiveFailures : ℕ+
  rollingWindow : ℕ+
  rollingFailureRate : Rat
  timeoutCount : ℕ+
  rate_nonneg : 0 ≤ rollingFailureRate
  rate_le_one : rollingFailureRate ≤ 1

structure EvidenceOperationsStopPolicy where
  collectorBacklog : Nat
  collectorHeartbeatSeconds : ℕ+
  diskFloorBytes : Nat

structure StopPolicyEngine where
  financial : FinancialStopPolicy
  execution : Option ExecutionStopPolicy
  evidenceOperations : Option EvidenceOperationsStopPolicy

inductive PolicyCategory
  | financial
  | execution
  | evidenceOperations
  deriving DecidableEq

/-- A value of what an event holds of a threshold, or of what was observed. -/
inductive PolicyValue
  | number (n : Int)
  | rate (q : Rat)
  | flag (b : Bool)
  | text (t : String)
  | digests (d : List (String × String))

abbrev PolicyDetails := List (String × PolicyValue)

structure QuoteObservation where
  quoteID : String
  quotedAt : Int
  amountWei : Int
  referenceAmountWei : Int

structure PolicyResult where
  eventID : String
  policyCode : String
  triggered : Bool

/-- What an event is identified by. -/
structure PolicyMaterial where
  runID : String
  category : PolicyCategory
  policyCode : String
  threshold : PolicyDetails
  observed : PolicyDetails
  occurredAt : Int

/-! ## Tables -/

/-- A row of `execution_outcomes`. -/
structure OutcomeRow where
  outcomeID : String
  runID : String
  failed : Bool
  timedOut : Bool
  deriving DecidableEq

/-- A row of `stop_policy_events`. -/
structure StopPolicyEventRow where
  eventID : String
  runID : String
  category : PolicyCategory
  policyCode : String
  triggered : Bool
  deriving DecidableEq

/-- What `check_budget` selects. -/
structure BudgetPolicyRow where
  limits : BudgetLimit
  totals : Amounts
  batch : Amounts

/-- What `record_execution_outcome` selects: the newest outcomes of the run, and how many of all timed out. -/
structure OutcomeRows where
  recent : List OutcomeRow
  timeoutTotal : Nat

structure StopStore where
  store : Store
  outcomes : List OutcomeRow
  events : List StopPolicyEventRow

namespace StopStore

variable (s : StopStore)

/-- The outcomes of a run, the newest first. -/
def outcomesOf (runID : String) : List OutcomeRow := (s.outcomes.filter fun o => o.runID = runID).reverse

def budgetRow (runID batchID : String) (chainID : Int) : Except LabError BudgetPolicyRow := do
  let unconfigured := LabError.stopPolicyError "budget policy lacks configured limits and totals"
  let limits ← orRevert unconfigured (s.store.budgetLimits (runID, chainID))
  let totals ← orRevert unconfigured (s.store.budgetTotals (runID, chainID))
  return ⟨limits, totals, (s.store.batchBudgetTotals (runID, batchID, chainID)).getD 0⟩

/-- The transaction of `record_execution_outcome`. -/
def insertOutcome (row : OutcomeRow) (rollingWindow : ℕ+) : Except LabError (OutcomeRows × StopStore) := do
  revertIf (s.store.runs row.runID = none ∨ ∃ o ∈ s.outcomes, o.outcomeID = row.outcomeID)
    (.stopPolicyError "execution outcome is duplicate or invalid")
  let s' := { s with outcomes := s.outcomes ++ [row] }
  return (⟨(s'.outcomesOf row.runID).take rollingWindow, (s'.outcomesOf row.runID).countP (·.timedOut)⟩, s')

/-- The transaction of `_record_event`. -/
def recordEvent (row : StopPolicyEventRow) : Except LabError StopStore :=
  let collision := LabError.stopPolicyError "stop-policy event identity collision"
  match s.events.find? fun e => e.eventID = row.eventID with
  | some existing => if existing = row then .ok s else .error collision
  | none => if s.store.runs row.runID = none then .error collision else .ok { s with events := s.events ++ [row] }

end StopStore

/-! ## Operations -/

inductive StopOp
  /-- `datetime.now`. -/
  | now
  | budgetRow (runID batchID : String) (chainID : Int)
  | insertOutcome (row : OutcomeRow) (rollingWindow : ℕ+)
  | recordEvent (row : StopPolicyEventRow)
  | controlState (runID : String)
  | drain (runID : String) (decision : ControlDecision)
  | halt (runID : String) (decision : ControlDecision)

@[reducible] def StopOp.Answer : StopOp → Type
  | now => Int
  | budgetRow .. => BudgetPolicyRow
  | insertOutcome .. => OutcomeRows
  | controlState _ => ControlRow
  | recordEvent _ | drain .. | halt .. => Unit

/-- What the engine uses of its libraries. -/
class StopLibraries where
  /-- The first 24 digits of the digest of an event, after `stop_`. -/
  eventID : PolicyMaterial → String
  /-- The digest of a decision to stop. -/
  decisionSHA256 : (eventID runID policyCode : String) → String
  /-- The product of a float and an integer. -/
  product : Rat → Nat → Rat
  /-- A float product is rounded, but not past an integer. -/
  product_le {rate : Rat} {window count : Nat} : window ≤ 2 ^ 53 → count ≤ window → rate * window ≤ count →
    product rate window ≤ count

namespace StopPolicyEngine

/-- An operation raises, and changes nothing, or it does what it should. -/
inductive Answers (s : StopStore) : (op : StopOp) → Except LabError op.Answer → StopStore → Prop
  | raises (op : StopOp) (e : LabError) : Answers s op (.error e) s
  | now (t : Int) : Answers s .now (.ok t) s
  | budgetRow {runID batchID : String} {chainID : Int} {row : BudgetPolicyRow} :
      s.budgetRow runID batchID chainID = .ok row →
    Answers s (.budgetRow runID batchID chainID) (.ok row) s
  | insertOutcome {row : OutcomeRow} {rollingWindow : ℕ+} {rows : OutcomeRows} {s' : StopStore} :
    s.insertOutcome row rollingWindow = .ok (rows, s') → Answers s (.insertOutcome row rollingWindow) (.ok rows) s'
  | recordEvent {row : StopPolicyEventRow} {s' : StopStore} : s.recordEvent row = .ok s' →
    Answers s (.recordEvent row) (.ok ()) s'
  | controlState {runID : String} {row : ControlRow} : RunControlManager.state s.store runID = .ok row →
    Answers s (.controlState runID) (.ok row) s
  | drain {runID : String} {decision : ControlDecision} {store : Store} :
    RunControlManager.drain s.store runID decision = .ok store →
    Answers s (.drain runID decision) (.ok ()) { s with store }
  | halt {runID : String} {decision : ControlDecision} {store : Store} :
    RunControlManager.halt s.store runID decision = .ok store →
    Answers s (.halt runID decision) (.ok ()) { s with store }

abbrev Program := Prog StopOp (fun op => Except LabError op.Answer) LabError

abbrev call (op : StopOp) : Program op.Answer := Prog.call op

/-- An operation on the controls, whose errors are turned into those of the engine. -/
def guarded (op : StopOp) : Program op.Answer :=
  Prog.op op fun r => Prog.ofExcept (r.mapError fun
    | .controlError _ => .stopPolicyError "triggered policy could not establish persistent stop"
    | e => e)

variable [StopLibraries]

open StopLibraries

/-- `_utc`. -/
def utc : Option Int → Program Int
  | some t => return t
  | none => call .now

/-- `_record_event`. -/
def recordEvent (runID : String) (category : PolicyCategory) (policyCode : String) (triggered : Bool)
    (threshold observed : PolicyDetails) (occurred : Int) : Program PolicyResult := do
  let row : StopPolicyEventRow := {
    eventID := eventID ⟨runID, category, policyCode, threshold, observed, occurred⟩
    runID, category, policyCode, triggered }
  call (.recordEvent row)
  return ⟨row.eventID, policyCode, triggered⟩

/-- The stop of `_record_and_stop`. -/
def establish (runID : String) (triggeredMode : TriggeredMode) (decision : ControlDecision) : Program Unit := do
  let state ← guarded (.controlState runID)
  if triggeredMode = .halted ∧ state.mode ∈ [.running, .drain] then
    guarded (.halt runID decision)
    let _ ← guarded (.controlState runID)
  else if triggeredMode = .drain ∧ state.mode = .running then
    guarded (.drain runID decision)
    let _ ← guarded (.controlState runID)

/-- `_record_and_stop`. -/
def recordAndStop (runID : String) (category : PolicyCategory) (policyCode : String) (triggered : Bool)
    (threshold observed : PolicyDetails) (checkedAt : Option Int) (triggeredMode : TriggeredMode) :
    Program PolicyResult := do
  let occurred ← utc checkedAt
  let result ← recordEvent runID category policyCode triggered threshold observed occurred
  if triggered then
    establish runID triggeredMode ⟨result.eventID, decisionSHA256 result.eventID runID policyCode, policyCode, none⟩
  return result

/-! ## Checks -/

/-- The use of a batch, the use of a run and the balance that a request would leave. -/
def budgetUse (row : BudgetPolicyRow) (requestedWei : Int) : Int × Int × Int :=
  (row.batch.reserved + row.batch.finalized + requestedWei, row.totals.reserved + row.totals.finalized + requestedWei,
    row.limits.observedRunnerBalanceWei - row.totals.reserved - requestedWei)

def budgetCode (row : BudgetPolicyRow) (requestedWei : Int) : String :=
  let (batchUse, runUse, remainingBalance) := budgetUse row requestedWei
  if requestedWei > row.limits.maxTransactionWei then "transaction_budget_exhausted"
  else if batchUse > row.limits.maxBatchWei then "batch_budget_exhausted"
  else if runUse > row.limits.maxRunWei then "run_budget_exhausted"
  else if remainingBalance < row.limits.minimumRunnerBalanceWei then "runner_balance_floor"
  else "financial_budget_pass"

/-- `check_budget`. -/
def checkBudget (runID batchID : String) (chainID requestedWei : Int) (checkedAt : Option Int) :
    Program PolicyResult := do
  Prog.ofExcept (revertIf (requestedWei < 0) (.stopPolicyError "requested budget cannot be negative"))
  let row ← call (.budgetRow runID batchID chainID)
  let (batchUse, runUse, remainingBalance) := budgetUse row requestedWei
  let code := budgetCode row requestedWei
  recordAndStop runID .financial code (code ≠ "financial_budget_pass")
    [("max_transaction_wei", .number row.limits.maxTransactionWei), ("max_batch_wei", .number row.limits.maxBatchWei),
      ("max_run_wei", .number row.limits.maxRunWei),
      ("minimum_runner_balance_wei", .number row.limits.minimumRunnerBalanceWei)]
    [("chain_id", .number chainID), ("batch_id", .text batchID), ("requested_wei", .number requestedWei),
      ("batch_use_wei", .number batchUse), ("run_use_wei", .number runUse),
      ("remaining_balance_wei", .number remainingBalance)]
    checkedAt .halted

/-- The whole seconds from a time to a later one. -/
def ageSeconds (checked time : Int) : Int := max 0 ((checked - time).tdiv 1000000)

/-- A quote has moved further than a policy allows. -/
def MovementExceeded (policy : FinancialStopPolicy) (quote : QuoteObservation) : Prop :=
  if quote.referenceAmountWei = 0 then quote.amountWei ≠ 0
  else quote.referenceAmountWei * policy.maxQuoteMovementBps < |quote.amountWei - quote.referenceAmountWei| * 10000

instance (policy : FinancialStopPolicy) (quote : QuoteObservation) : Decidable (MovementExceeded policy quote) := by
  unfold MovementExceeded
  infer_instance

def quoteCode (policy : FinancialStopPolicy) (quote : QuoteObservation) (checked : Int) : String :=
  if ageSeconds checked quote.quotedAt > policy.maxQuoteAgeSeconds then "quote_age_exceeded"
  else if MovementExceeded policy quote then "quote_movement_exceeded"
  else "financial_quote_pass"

variable (engine : StopPolicyEngine)

/-- `check_quote`. -/
def checkQuote (runID : String) (quote : QuoteObservation) (checkedAt : Option Int) : Program PolicyResult := do
  let checked ← utc checkedAt
  Prog.ofExcept (revertIf (quote.amountWei < 0 ∨ quote.referenceAmountWei < 0)
    (.stopPolicyError "quote amounts cannot be negative"))
  let code := quoteCode engine.financial quote checked
  recordAndStop runID .financial code (code ≠ "financial_quote_pass")
    [("max_quote_age_seconds", .number engine.financial.maxQuoteAgeSeconds),
      ("max_quote_movement_bps", .number engine.financial.maxQuoteMovementBps)]
    [("quote_id", .text quote.quoteID), ("quoted_at", .number quote.quotedAt), ("checked_at", .number checked),
      ("age_seconds", .number (ageSeconds checked quote.quotedAt)), ("amount_wei", .number quote.amountWei),
      ("reference_amount_wei", .number quote.referenceAmountWei),
      ("movement_numerator", .number (|quote.amountWei - quote.referenceAmountWei| * 10000)),
      ("movement_denominator", .number quote.referenceAmountWei)]
    (some checked) .halted

/-- `_execution_policy`. -/
def executionPolicy : Except LabError ExecutionStopPolicy :=
  orRevert (.stopPolicyError "execution stop policy is not configured") engine.execution

/-- `_evidence_operations_policy`. -/
def evidenceOperationsPolicy : Except LabError EvidenceOperationsStopPolicy :=
  orRevert (.stopPolicyError "evidence/operations stop policy is not configured") engine.evidenceOperations

/-- The failures that the newest outcomes are, up to the first that is none. -/
def consecutive (recent : List OutcomeRow) : Nat := (recent.takeWhile (·.failed)).length

def failureCount (recent : List OutcomeRow) : Nat := recent.countP (·.failed)

def RollingExceeded (policy : ExecutionStopPolicy) (recent : List OutcomeRow) : Prop :=
  recent.length = (policy.rollingWindow : Nat) ∧ 0 < failureCount recent ∧
    product policy.rollingFailureRate policy.rollingWindow ≤ failureCount recent

instance (policy : ExecutionStopPolicy) (recent : List OutcomeRow) : Decidable (RollingExceeded policy recent) :=
  inferInstanceAs (Decidable (_ ∧ _))

def outcomeCode (policy : ExecutionStopPolicy) (rows : OutcomeRows) : String :=
  if policy.consecutiveFailures ≤ consecutive rows.recent then "consecutive_failures"
  else if RollingExceeded policy rows.recent then "rolling_failure_rate"
  else if policy.timeoutCount ≤ rows.timeoutTotal then "timeout_count"
  else "execution_outcome_pass"

/-- `record_execution_outcome`. -/
def recordExecutionOutcome (runID outcomeID : String) (failed timedOut : Bool) (occurredAt : Option Int) :
    Program PolicyResult := do
  let policy ← Prog.ofExcept engine.executionPolicy
  Prog.ofExcept (revertIf (outcomeID = "") (.stopPolicyError "execution outcome ID must be non-empty"))
  let occurred ← utc occurredAt
  let rows ← call (.insertOutcome ⟨outcomeID, runID, failed, timedOut⟩ policy.rollingWindow)
  let code := outcomeCode policy rows
  recordAndStop runID .execution code (code ≠ "execution_outcome_pass")
    [("consecutive_failures", .number policy.consecutiveFailures), ("rolling_window", .number policy.rollingWindow),
      ("rolling_failure_rate", .rate policy.rollingFailureRate), ("timeout_count", .number policy.timeoutCount)]
    [("outcome_id", .text outcomeID), ("failed", .flag failed), ("timed_out", .flag timedOut),
      ("consecutive_failures", .number (consecutive rows.recent)), ("rolling_observations", .number rows.recent.length),
      ("rolling_failures", .number (failureCount rows.recent)), ("timeout_total", .number rows.timeoutTotal)]
    (some occurred) .halted

/-- `check_nonce_gap`. -/
def checkNonceGap (runID : String) (chainID expectedNonce observedNonce : Int) (checkedAt : Option Int) :
    Program PolicyResult := do
  let _ ← Prog.ofExcept engine.executionPolicy
  Prog.ofExcept (revertIf (min expectedNonce observedNonce < 0) (.stopPolicyError "nonces cannot be negative"))
  recordAndStop runID .execution (if expectedNonce ≠ observedNonce then "nonce_gap" else "nonce_contiguous")
    (expectedNonce ≠ observedNonce) [("action", .text "halt")]
    [("chain_id", .number chainID), ("expected_nonce", .number expectedNonce),
      ("observed_nonce", .number observedNonce)]
    checkedAt .halted

/-- `check_rpc_agreement`, with the digests by their providers. -/
def checkRPCAgreement (runID subjectID : String) (providerDigests : List (String × String)) (checkedAt : Option Int) :
    Program PolicyResult := do
  let _ ← Prog.ofExcept engine.executionPolicy
  Prog.ofExcept (revertIf (providerDigests.length < 2)
    (.stopPolicyError "RPC agreement requires at least two providers"))
  let triggered := (providerDigests.map Prod.snd).dedup.length ≠ 1
  recordAndStop runID .execution (if triggered then "rpc_disagreement" else "rpc_agreement") triggered
    [("action", .text "halt")]
    [("subject_id", .text subjectID), ("provider_digests", .digests (providerDigests.mergeSort fun a b => a.1 ≤ b.1))]
    checkedAt .halted

/-- `check_reorganization`. -/
def checkReorganization (runID : String) (chainID blockNumber : Int) (priorBlockHash currentBlockHash : String)
    (checkedAt : Option Int) : Program PolicyResult := do
  let _ ← Prog.ofExcept engine.executionPolicy
  Prog.ofExcept (revertIf (blockNumber < 0) (.stopPolicyError "block number cannot be negative"))
  recordAndStop runID .execution
    (if priorBlockHash ≠ currentBlockHash then "chain_reorganization" else "canonical_block_match")
    (priorBlockHash ≠ currentBlockHash) [("action", .text "halt")]
    [("chain_id", .number chainID), ("block_number", .number blockNumber), ("prior_block_hash", .text priorBlockHash),
      ("current_block_hash", .text currentBlockHash)]
    checkedAt .halted

def evidenceOperationsCode (policy : EvidenceOperationsStopPolicy)
    (collectorBacklog heartbeatAge diskAvailableBytes : Int) :
    String × TriggeredMode :=
  if diskAvailableBytes < policy.diskFloorBytes then ("disk_floor", .halted)
  else if heartbeatAge > policy.collectorHeartbeatSeconds then ("collector_heartbeat_loss", .drain)
  else if collectorBacklog > policy.collectorBacklog then ("collector_backlog", .drain)
  else ("evidence_operations_pass", .drain)

/-- `check_evidence_operations`. -/
def checkEvidenceOperations (runID : String) (collectorBacklog collectorHeartbeatAt diskAvailableBytes : Int)
    (checkedAt : Option Int) : Program PolicyResult := do
  let policy ← Prog.ofExcept engine.evidenceOperationsPolicy
  let checked ← utc checkedAt
  Prog.ofExcept (revertIf (collectorBacklog < 0 ∨ diskAvailableBytes < 0)
    (.stopPolicyError "backlog and disk availability cannot be negative"))
  let heartbeatAge := ageSeconds checked collectorHeartbeatAt
  let (code, mode) := evidenceOperationsCode policy collectorBacklog heartbeatAge diskAvailableBytes
  recordAndStop runID .evidenceOperations code (code ≠ "evidence_operations_pass")
    [("collector_backlog", .number policy.collectorBacklog),
      ("collector_heartbeat_seconds", .number policy.collectorHeartbeatSeconds),
      ("disk_floor_bytes", .number policy.diskFloorBytes)]
    [("collector_backlog", .number collectorBacklog), ("collector_heartbeat_at", .number collectorHeartbeatAt),
      ("collector_heartbeat_age_seconds", .number heartbeatAge), ("disk_available_bytes", .number diskAvailableBytes)]
    (some checked) mode

/-- `manual_stop`. -/
def manualStop (runID : String) (mode : TriggeredMode) (decision : ControlDecision) (checkedAt : Option Int) :
    Program PolicyResult := do
  let occurred ← utc checkedAt
  match mode with
  | .drain => call (.drain runID decision)
  | .halted => call (.halt runID decision)
  let _ ← call (.controlState runID)
  let (name, code) := match mode with
    | .drain => ("drain", "manual_drain")
    | .halted => ("halted", "manual_halt")
  recordEvent runID .evidenceOperations code true [("mode", .text name)]
    [("decision_id", .text decision.decisionID), ("reason_code", .text decision.reasonCode)] occurred

/-- The calls of the engine. -/
inductive Call
  | checkBudget (runID batchID : String) (chainID requestedWei : Int) (checkedAt : Option Int)
  | checkQuote (runID : String) (quote : QuoteObservation) (checkedAt : Option Int)
  | recordExecutionOutcome (runID outcomeID : String) (failed timedOut : Bool) (occurredAt : Option Int)
  | checkNonceGap (runID : String) (chainID expectedNonce observedNonce : Int) (checkedAt : Option Int)
  | checkRPCAgreement (runID subjectID : String) (providerDigests : List (String × String)) (checkedAt : Option Int)
  | checkReorganization (runID : String) (chainID blockNumber : Int) (priorBlockHash currentBlockHash : String)
    (checkedAt : Option Int)
  | checkEvidenceOperations (runID : String) (collectorBacklog collectorHeartbeatAt diskAvailableBytes : Int)
    (checkedAt : Option Int)
  | manualStop (runID : String) (mode : TriggeredMode) (decision : ControlDecision) (checkedAt : Option Int)

def Call.runID : Call → String
  | checkBudget runID .. | checkQuote runID .. | recordExecutionOutcome runID .. | checkNonceGap runID ..
  | checkRPCAgreement runID .. | checkReorganization runID .. | checkEvidenceOperations runID ..
  | manualStop runID .. =>
    runID

def Call.prog : Call → Program PolicyResult
  | checkBudget runID batchID chainID requestedWei checkedAt =>
    StopPolicyEngine.checkBudget runID batchID chainID requestedWei checkedAt
  | checkQuote runID quote checkedAt => engine.checkQuote runID quote checkedAt
  | recordExecutionOutcome runID outcomeID failed timedOut occurredAt =>
    engine.recordExecutionOutcome runID outcomeID failed timedOut occurredAt
  | checkNonceGap runID chainID expectedNonce observedNonce checkedAt =>
    engine.checkNonceGap runID chainID expectedNonce observedNonce checkedAt
  | checkRPCAgreement runID subjectID providerDigests checkedAt =>
    engine.checkRPCAgreement runID subjectID providerDigests checkedAt
  | checkReorganization runID chainID blockNumber priorBlockHash currentBlockHash checkedAt =>
    engine.checkReorganization runID chainID blockNumber priorBlockHash currentBlockHash checkedAt
  | checkEvidenceOperations runID collectorBacklog collectorHeartbeatAt diskAvailableBytes checkedAt =>
    engine.checkEvidenceOperations runID collectorBacklog collectorHeartbeatAt diskAvailableBytes checkedAt
  | manualStop runID mode decision checkedAt => StopPolicyEngine.manualStop runID mode decision checkedAt

end StopPolicyEngine

end Xir.Impl.XirLab
