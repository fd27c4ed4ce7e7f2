import Xir.Impl.XirLab.Store

/-!
# `src/xir_lab/execute/leases.py`

An operation is a store transaction: what it returns is committed, and an error
rolls it back. `reopenAfterReorganization` alone commits and then raises.
-/

namespace Xir.Impl.XirLab

structure PlannedStageBudget where
  stageKey : String
  chainID : Int
  gasWei : Int
  carrierPaymentWei : Int
  transactionValueWei : Int
  otherRunnerFundedWei : Int
  replacementAllowanceWei : Int

/-- `worst_case_wei`. -/
def PlannedStageBudget.worstCaseWei (stage : PlannedStageBudget) : Except LabError Int := do
  let values := [stage.gasWei, stage.carrierPaymentWei, stage.transactionValueWei, stage.otherRunnerFundedWei,
    stage.replacementAllowanceWei]
  revertIf (∃ value ∈ values, value < 0) (.budgetError "planned stage budget values cannot be negative")
  return values.sum

namespace Store

variable (s : Store)

/-! ## Rows that an operation looks up -/

/-- `_attempt_has_unresolved_submission`. -/
def AttemptHasUnresolvedSubmission (attemptID : String) : Prop :=
  (∃ t ∈ s.transactions, t.state ∉ [.finalized, .released, .dropped] ∧
    ∃ i ∈ s.intents, i.intentID = t.intentID ∧
      ∃ stage ∈ s.stages, stage.stageID = i.stageID ∧ stage.attemptID = attemptID) ∨
  ∃ n ∈ s.nonceLeases, n.attemptID = attemptID ∧ n.locked = true

instance (attemptID : String) : Decidable (s.AttemptHasUnresolvedSubmission attemptID) :=
  inferInstanceAs (Decidable (_ ∨ _))

/-- `_limit`. -/
def limit (runID : String) (chainID : Int) : Except LabError BudgetLimit :=
  orRevert (.budgetError ("missing budget limit for chain " ++ toString chainID)) (s.budgetLimits (runID, chainID))

/-- The row of `budgets` that a stage is joined with. -/
def owner (sub : SubreservationRow) : Option BudgetRow := s.budgets.find? fun b => b.key = sub.key

/-- `_lineage`: the stage of a lineage, and its row of `budgets`. -/
def lineage (lineageID : String) : Except LabError (SubreservationRow × BudgetRow) := do
  let unknown := LabError.leaseError ("unknown nonce lineage: " ++ lineageID)
  let sub ← orRevert unknown (s.subreservations.find? fun sub => sub.lineageID = some lineageID)
  revertIf (¬ ∃ n ∈ s.nonceLeases, n.lineageID = lineageID) unknown
  let budget ← orRevert unknown (s.owner sub)
  return (sub, budget)

/-- `_assert_capacity`. -/
def assertCapacity (runID batchID : String) (chainID requestedWei finalizedCreditWei : Int) :
    Except LabError Unit := do
  let limit ← s.limit runID chainID
  let total ← orRevert (.budgetError "budget totals were not initialized") (s.budgetTotals (runID, chainID))
  let batch := (s.batchBudgetTotals (runID, batchID, chainID)).getD 0
  let runUse := total.reserved + total.finalized - finalizedCreditWei + requestedWei
  let batchUse := batch.reserved + batch.finalized - finalizedCreditWei + requestedWei
  revertIf (limit.maxRunWei < runUse) (.budgetError ("run budget exhausted on chain " ++ toString chainID))
  revertIf (limit.maxBatchWei < batchUse) (.budgetError ("batch budget exhausted on chain " ++ toString chainID))
  let balanceAfterReservations := limit.observedRunnerBalanceWei - total.reserved - requestedWei
  revertIf (balanceAfterReservations < limit.minimumRunnerBalanceWei)
    (.budgetError ("runner balance floor would be violated on chain " ++ toString chainID))

/-! ## Statements that operations share -/

/-- The update of `budget_totals` in `_change_totals`. -/
def changeRunTotals (runID : String) (chainID : Int) (delta : Amounts) : Except LabError Store :=
  match s.budgetTotals (runID, chainID) with
  | some total => s.putBudgetTotals runID chainID (total + delta)
  | none => .ok s

/-- The update of `batch_budget_totals` in `_change_totals`, or the insertion of its row. -/
def changeBatchTotals (runID batchID : String) (chainID : Int) (delta : Amounts) : Except LabError Store :=
  match s.batchBudgetTotals (runID, batchID, chainID) with
  | some batch => s.putBatchBudgetTotals runID batchID chainID (batch + delta)
  | none => do
    revertIf (min (min delta.reserved delta.provisional) delta.finalized < 0)
      (.budgetError "cannot subtract from missing batch budget totals")
    s.putBatchBudgetTotals runID batchID chainID delta

/-- `_change_totals`. -/
def changeTotals (runID batchID : String) (chainID : Int) (delta : Amounts) : Except LabError Store := do
  let s ← s.changeRunTotals runID chainID delta
  s.changeBatchTotals runID batchID chainID delta

/-- `_event`. -/
def event (row : BudgetEventRow) : Store := { s with budgetEvents := s.budgetEvents ++ [row] }

/-- `_lineage_event`. -/
def lineageEvent (sub : SubreservationRow) (budget : BudgetRow) (eventType : String) (delta : Amounts) : Store :=
  s.event ⟨budget.runID, budget.batchID, sub.chainID, sub.reservationID, some sub.subreservationID, eventType, delta⟩

/-- `_settle_completed_budget_rows`. -/
def settleCompletedBudgetRows (reservationID : String) : Except LabError Store :=
  s.putBudgets (Table.update
    (fun b => b.reservationID = reservationID ∧
      ¬ ∃ sub ∈ s.subreservations, sub.key = b.key ∧ sub.state ≠ .finalized ∧ sub.state ≠ .released)
    (fun b => { b with state := .settled }) s.budgets)

/-- What an operation changes of the rows of a lineage. -/
structure LineageWrite where
  sub : SubreservationRow → SubreservationRow
  nonce : NonceLeaseRow → NonceLeaseRow
  budget : BudgetRow → BudgetRow
  delta : Amounts
  eventType : String

/-- The statements of an operation that settles a lineage or changes what it spends. -/
def writeLineage (lineageID : String) (sub : SubreservationRow) (budget : BudgetRow) (w : LineageWrite) :
    Except LabError Store := do
  let s ← s.putSubreservations (Table.update (fun r => r.lineageID = some lineageID) w.sub s.subreservations)
  let s ← s.putNonceLeases (Table.update (fun n => n.lineageID = lineageID) w.nonce s.nonceLeases)
  let s ← s.putBudgets (Table.update (fun b => b.key = sub.key) w.budget s.budgets)
  let s ← s.changeTotals budget.runID budget.batchID sub.chainID w.delta
  return s.lineageEvent sub budget w.eventType w.delta

end Store

namespace LeaseBudgetManager

variable (s : Store)

/-! ## Limits -/

/-- What `configure_limits` does for a row. -/
def configureLimit (runID : String) (s : Store) (row : Int × BudgetLimit) : Except LabError Store := do
  let (chainID, limit) := row
  revertIf (∃ value ∈ [limit.maxTransactionWei, limit.maxBatchWei, limit.maxRunWei, limit.minimumRunnerBalanceWei,
    limit.observedRunnerBalanceWei], value < 0) (.budgetError "budget limits and balances cannot be negative")
  revertIf (¬ (limit.maxTransactionWei ≤ limit.maxBatchWei ∧ limit.maxBatchWei ≤ limit.maxRunWei))
    (.budgetError "budget limits must satisfy transaction <= batch <= run")
  revertIf (∃ present ∈ s.budgetLimits (runID, chainID),
      { present with observedRunnerBalanceWei := limit.observedRunnerBalanceWei } ≠ limit)
    (.budgetError "configured cumulative budget limits are immutable")
  let s ← s.putBudgetLimit runID chainID limit
  match s.budgetTotals (runID, chainID) with
  | some _ => return s
  | none => s.putBudgetTotals runID chainID 0

/-- `configure_limits`. -/
def configureLimits (runID : String) (limits : List (Int × BudgetLimit)) : Except LabError Store := do
  revertIf (limits.isEmpty = true) (.budgetError "at least one chain budget limit is required")
  revertIf (¬ (limits.map Prod.fst).Nodup) (.budgetError "chain budget limits must be unique")
  let _ ← orRevert (.budgetError ("unknown run: " ++ runID)) (s.runs runID)
  limits.foldlM (configureLimit runID) s

/-! ## Work leases -/

/-- What `acquire_work` does about the active lease of an attempt. -/
def expireWork (attemptID : String) (now : Int) : Except LabError Store :=
  match s.workLeases.find? fun w => w.attemptID = attemptID ∧ w.state = .active with
  | none => .ok s
  | some active => do
    revertIf (now < active.expiresAt) (.leaseError ("attempt already leased by holder " ++ active.holderID))
    revertIf (s.AttemptHasUnresolvedSubmission attemptID)
      (.leaseError "expired work lease has unresolved transaction or nonce state")
    s.putWorkLeases (Table.update (fun w => w.leaseID = active.leaseID) (fun w => { w with state := .expired })
      s.workLeases)

/-- `acquire_work`. -/
def acquireWork (leaseID attemptID holderID : String) (ttl now : Int) : Except LabError Store := do
  revertIf (ttl ≤ 0) (.leaseError "work lease TTL must be positive")
  let _ ← orRevert (.leaseError ("unknown attempt: " ++ attemptID)) (s.attempts attemptID)
  let s ← expireWork s attemptID now
  s.putWorkLeases (s.workLeases ++ [⟨leaseID, attemptID, holderID, now + ttl, .active⟩])

/-- The active lease that a holder names. -/
def activeWork (leaseID holderID : String) : Except LabError WorkLeaseRow := do
  let row ← orRevert (.leaseError "work lease is not active") (s.workLeases.find? fun w => w.leaseID = leaseID)
  revertIf (row.state ≠ .active) (.leaseError "work lease is not active")
  revertIf (row.holderID ≠ holderID) (.leaseError "work lease holder mismatch")
  return row

/-- `heartbeat_work`. -/
def heartbeatWork (leaseID holderID : String) (ttl now : Int) : Except LabError Store := do
  revertIf (ttl ≤ 0) (.leaseError "work lease TTL must be positive")
  let row ← activeWork s leaseID holderID
  revertIf (row.expiresAt ≤ now) (.leaseError "work lease has expired")
  s.putWorkLeases (Table.update (fun w => w.leaseID = leaseID) (fun w => { w with expiresAt := now + ttl })
    s.workLeases)

/-- `release_work`. -/
def releaseWork (leaseID holderID : String) : Except LabError Store := do
  let _ ← activeWork s leaseID holderID
  s.putWorkLeases (Table.update (fun w => w.leaseID = leaseID) (fun w => { w with state := .released })
    s.workLeases)

/-! ## Reservations -/

/-- `stage_totals`. -/
def stageTotals (stages : List PlannedStageBudget) : Except LabError (List (PlannedStageBudget × Int)) :=
  stages.mapM fun stage => return (stage, ← stage.worstCaseWei)

/-- `by_chain`, in the order in which the chains first occur. -/
def byChain (stageTotals : List (PlannedStageBudget × Int)) : List (Int × Int) :=
  stageTotals.foldl (fun chains stage => Table.bump stage.1.chainID stage.2 chains) []

/-- The identifier of the stage of a reservation. -/
def subreservationID (reservationID : String) (index : Nat) : String :=
  reservationID ++ ":stage:" ++ toString index

/-- The row of `budgets` for a chain, with its totals and its event. -/
def reserveChain (reservationID attemptID runID batchID : String) (s : Store) (chain : Int × Int) :
    Except LabError Store := do
  let (chainID, requested) := chain
  let s ← s.putBudgets (s.budgets ++
    [⟨reservationID, attemptID, runID, batchID, chainID, requested, 0, 0, false, .reserved⟩])
  let s ← s.changeTotals runID batchID chainID ⟨requested, 0, 0⟩
  return s.event ⟨runID, batchID, chainID, reservationID, none, "route_reserved", ⟨requested, 0, 0⟩⟩

/-- The row of a stage of a new reservation. -/
def plannedRow (reservationID attemptID : String) (index : Nat) (stage : PlannedStageBudget × Int) :
    SubreservationRow where
  subreservationID := subreservationID reservationID index
  reservationID := reservationID
  attemptID := attemptID
  stageKey := stage.1.stageKey
  chainID := stage.1.chainID
  lineageID := none
  reservedWei := stage.2
  allocatedWei := 0
  provisionalWei := 0
  finalizedWei := 0
  state := .reserved
  releaseProofSHA256 := none
  manualReleaseDecisionSHA256 := none
  signedBytesDestroyed := false

/-- `reserve_complete_route`. -/
def reserveCompleteRoute (reservationID attemptID batchID : String) (stages : List PlannedStageBudget) :
    Except LabError Store := do
  revertIf (stages.isEmpty = true) (.budgetError "complete-route reservation requires planned stages")
  revertIf (¬ (stages.map PlannedStageBudget.stageKey).Nodup)
    (.budgetError "planned stage keys must be unique within an attempt")
  let stageTotals ← stageTotals stages
  let byChain := byChain stageTotals
  let unknown := LabError.budgetError ("unknown attempt: " ++ attemptID)
  let attempt ← orRevert unknown (s.attempts attemptID)
  let runState ← orRevert unknown (s.runs attempt.runID)
  revertIf (attempt.state ≠ .planned) (.budgetError "complete-route reservation requires a planned attempt")
  revertIf (runState ≠ .running) (.budgetError ("run state blocks new source attempts: " ++ runState.name))
  revertIf (∃ b ∈ s.budgets, b.attemptID = attemptID)
    (.budgetError "attempt already has a complete-route reservation")
  stageTotals.forM fun stage => do
    let limit ← s.limit attempt.runID stage.1.chainID
    revertIf (limit.maxTransactionWei < stage.2)
      (.budgetError ("stage " ++ stage.1.stageKey ++ " exceeds per-transaction limit"))
  byChain.forM fun chain => s.assertCapacity attempt.runID batchID chain.1 chain.2 0
  let s ← byChain.foldlM (reserveChain reservationID attemptID attempt.runID batchID) s
  let s ← s.putSubreservations (s.subreservations ++ stageTotals.mapIdx (plannedRow reservationID attemptID))
  revertIf (∃ chain ∈ byChain, 2 ^ 53 ≤ chain.2) .integerDomainError
  return s

/-- The rows of a reservation, with the state of their run. -/
def reservationRows (reservationID : String) : List (BudgetRow × ControlMode) :=
  (s.budgets.filter fun b => b.reservationID = reservationID).filterMap fun b =>
    (s.runs b.runID).map fun state => (b, state)

/-- `mark_source_in_flight`. -/
def markSourceInFlight (reservationID : String) : Except LabError Store :=
  match reservationRows s reservationID with
  | [] => .error (.budgetError ("unknown reservation: " ++ reservationID))
  | (first, runState) :: rest =>
    if ∃ row ∈ (first, runState) :: rest, row.1.sourceInFlight = true then .ok s
    else do
      revertIf (runState ≠ .running) (.budgetError "drain or hard stop blocks source-attempt start")
      let unplanned := LabError.budgetError "source start requires a planned attempt"
      let attempt ← orRevert unplanned (s.attempts first.attemptID)
      revertIf (attempt.state ≠ .planned) unplanned
      let s ← s.putBudgets (Table.update (fun b => b.reservationID = reservationID)
        (fun b => { b with sourceInFlight := true, state := .inFlight }) s.budgets)
      return { s with attempts := Function.update s.attempts first.attemptID (some { attempt with state := .inFlight }) }

/-- What `acquire_nonce_subreservation` does for a nonce that is leased already. -/
def acquireAgain (sub : SubreservationRow) (existing : NonceLeaseRow) (lineageID reservationID stageKey : String)
    (requestedWei : Int) : Except LabError Store := do
  revertIf ((existing.lineageID, existing.reservationID, existing.stageKey) ≠ (lineageID, reservationID, stageKey))
    (.leaseError "nonce is already bound to another lineage")
  s.putSubreservations (Table.update (fun r => r.subreservationID = sub.subreservationID)
    (fun r => { r with allocatedWei := max r.allocatedWei requestedWei }) s.subreservations)

/-- What `acquire_nonce_subreservation` does for a nonce that is not leased. -/
def bindLineage (sub : SubreservationRow) (leaseID lineageID reservationID stageKey signerID holderID : String)
    (nonce requestedWei : Int) : Except LabError Store := do
  revertIf (sub.lineageID ≠ none) (.leaseError "stage is already bound to another nonce lineage")
  let s ← s.putNonceLeases (s.nonceLeases ++ [⟨leaseID, lineageID, sub.chainID, signerID, holderID, nonce,
    sub.attemptID, stageKey, reservationID, none, .active, true⟩])
  s.putSubreservations (Table.update (fun r => r.subreservationID = sub.subreservationID)
    (fun r => { r with lineageID := some lineageID, allocatedWei := requestedWei, state := .active })
    s.subreservations)

/-- `acquire_nonce_subreservation`. -/
def acquireNonceSubreservation (leaseID lineageID reservationID stageKey signerID holderID : String)
    (nonce requestedWei ttl : Int) : Except LabError Store := do
  revertIf (nonce < 0 ∨ requestedWei < 0 ∨ ttl ≤ 0)
    (.leaseError "nonce, requested amount, and TTL must be non-negative")
  let unknown := LabError.leaseError "unknown transaction sub-reservation"
  let sub ← orRevert unknown
    (s.subreservations.find? fun r => r.reservationID = reservationID ∧ r.stageKey = stageKey)
  let budget ← orRevert unknown (s.owner sub)
  revertIf (budget.sourceInFlight = false) (.leaseError "source attempt is not in flight")
  revertIf (sub.reservedWei < requestedWei) (.budgetError "transaction does not fit its pre-existing reservation")
  let limit ← s.limit budget.runID sub.chainID
  revertIf (limit.maxTransactionWei < requestedWei)
    (.budgetError "transaction exceeds the approved per-transaction limit")
  revertIf (2 ^ 63 ≤ nonce) .sqliteError
  match s.nonceLeases.find? fun n => n.chainID = sub.chainID ∧ n.signerID = signerID ∧ n.nonce = nonce with
  | some existing => acquireAgain s sub existing lineageID reservationID stageKey requestedWei
  | none => bindLineage s sub leaseID lineageID reservationID stageKey signerID holderID nonce requestedWei

/-! ## Lineages -/

/-- The states of a nonce lease and of its stage that `mark_lineage_pending` accepts. -/
def pendingState : String → Option (NonceState × SubState)
  | "broadcast_unknown" => some (.broadcastUnknown, .broadcastUnknown)
  | "submitted" => some (.submitted, .submitted)
  | _ => none

/-- `mark_lineage_pending`. -/
def markLineagePending (lineageID state : String) : Except LabError Store := do
  let pending ← orRevert (.leaseError "pending lineage state must be broadcast_unknown or submitted")
    (pendingState state)
  let (sub, budget) ← s.lineage lineageID
  revertIf (sub.state = .finalized ∨ sub.state = .released)
    (.leaseError "settled nonce lineage cannot become pending")
  let s ← s.putNonceLeases (Table.update (fun n => n.lineageID = lineageID)
    (fun n => { n with state := pending.1, locked := true }) s.nonceLeases)
  let s ← s.putSubreservations (Table.update (fun r => r.lineageID = some lineageID)
    (fun r => { r with state := pending.2 }) s.subreservations)
  return s.lineageEvent sub budget ("lineage_" ++ state) 0

/-- `record_included`. -/
def recordIncluded (lineageID : String) (actualSpentWei : Int) : Except LabError Store := do
  revertIf (actualSpentWei < 0) (.budgetError "actual spending cannot be negative")
  let (sub, budget) ← s.lineage lineageID
  revertIf (sub.state = .finalized ∨ sub.state = .released)
    (.leaseError "settled nonce lineage cannot become included")
  revertIf (sub.reservedWei < actualSpentWei) (.budgetError "receipt spending exceeds the locked reservation")
  let difference := actualSpentWei - sub.provisionalWei
  s.writeLineage lineageID sub budget
    { sub := fun r => { r with provisionalWei := actualSpentWei, state := .included }
      nonce := fun n => { n with state := .included, locked := true }
      budget := fun b => { b with provisionalWei := b.provisionalWei + difference }
      delta := ⟨0, difference, 0⟩
      eventType := "receipt_included" }

/-- `finalize_lineage`. -/
def finalizeLineage (lineageID : String) (actualSpentWei : Int) : Except LabError Store := do
  revertIf (actualSpentWei < 0) (.budgetError "actual spending cannot be negative")
  let (sub, budget) ← s.lineage lineageID
  if sub.state = .finalized then
    revertIf (sub.finalizedWei ≠ actualSpentWei) (.budgetError "finalized spending is immutable")
    return s
  else
    revertIf (sub.state = .released) (.leaseError "released lineage cannot be finalized")
    revertIf (sub.reservedWei < actualSpentWei) (.budgetError "final spending exceeds the locked reservation")
    let s ← s.writeLineage lineageID sub budget
      { sub := fun r => { r with provisionalWei := 0, finalizedWei := actualSpentWei, state := .finalized }
        nonce := fun n => { n with state := .finalized, locked := false }
        budget := fun b => { b with
          provisionalWei := b.provisionalWei - sub.provisionalWei, finalizedWei := b.finalizedWei + actualSpentWei }
        delta := ⟨-sub.reservedWei, -sub.provisionalWei, actualSpentWei⟩
        eventType := "lineage_finalized" }
    s.settleCompletedBudgetRows sub.reservationID

/-- `release_dead_lineage`. -/
def releaseDeadLineage (lineageID : String) (proofSHA256 : Option String) (signedBytesDestroyed : Bool)
    (manualReleaseDecisionSHA256 : Option String) : Except LabError Store := do
  let proofRelease := proofSHA256.isSome && signedBytesDestroyed
  revertIf (proofRelease = manualReleaseDecisionSHA256.isSome)
    (.budgetError "release requires either proof plus destroyed bytes or one manual decision")
  revertIf (∃ digest ∈ proofSHA256.toList ++ manualReleaseDecisionSHA256.toList, ¬ LowerSHA256 digest)
    (.budgetError "release digests must be lowercase SHA-256 values")
  let (sub, budget) ← s.lineage lineageID
  revertIf (sub.state = .included ∨ sub.state = .finalized)
    (.budgetError "included or finalized lineage must be canonically resolved first")
  if sub.state = .released then
    return s
  else
    let s ← s.writeLineage lineageID sub budget
      { sub := fun r => { r with
          state := .released, releaseProofSHA256 := proofSHA256,
          manualReleaseDecisionSHA256 := manualReleaseDecisionSHA256, signedBytesDestroyed := signedBytesDestroyed }
        nonce := fun n => { n with state := .released, locked := false }
        budget := id
        delta := ⟨-sub.reservedWei, 0, 0⟩
        eventType := if proofRelease then "lineage_proof_released" else "lineage_manual_released" }
    s.settleCompletedBudgetRows sub.reservationID

/-! ## Reorganizations and cancellations -/

/-- What `reopen_after_reorganization` does for an included lineage. -/
def reopenIncluded (lineageID : String) (sub : SubreservationRow) (budget : BudgetRow) : Except LabError Store :=
  s.writeLineage lineageID sub budget
    { sub := fun r => { r with provisionalWei := 0, state := .reopened }
      nonce := fun n => { n with state := .active, locked := true }
      budget := fun b => { b with provisionalWei := b.provisionalWei - sub.provisionalWei }
      delta := ⟨0, -sub.provisionalWei, 0⟩
      eventType := "included_receipt_reopened" }

/-- What it does for a finalized lineage whose reservation can be restored. -/
def reopenFinalized (lineageID : String) (sub : SubreservationRow) (budget : BudgetRow) : Except LabError Store :=
  s.writeLineage lineageID sub budget
    { sub := fun r => { r with finalizedWei := 0, state := .reopened }
      nonce := fun n => { n with state := .active, locked := true }
      budget := fun b => { b with finalizedWei := b.finalizedWei - sub.finalizedWei, state := .inFlight }
      delta := ⟨sub.reservedWei, 0, -sub.finalizedWei⟩
      eventType := "finalized_receipt_reopened" }

/-- What it does if the reservation cannot be restored. -/
def haltRun (budget : BudgetRow) (violationID : String) : Except LabError Store :=
  let s := { s with runs := Function.update s.runs budget.runID ((s.runs budget.runID).map fun _ => .halted) }
  s.putViolations (s.violations ++ [⟨violationID, budget.runID, "budget_reorg_restore_failed"⟩])

/-- `reopen_after_reorganization`: what it commits, and what it raises after that. -/
def reopenAfterReorganization (lineageID violationID : String) : Except LabError (Store × Except LabError Unit) := do
  let (sub, budget) ← s.lineage lineageID
  if sub.state = .included then
    return (← reopenIncluded s lineageID sub budget, .ok ())
  else
    revertIf (sub.state ≠ .finalized) (.leaseError "only included or finalized lineages can be reorganized")
    match s.assertCapacity budget.runID budget.batchID sub.chainID sub.reservedWei sub.finalizedWei with
    | .ok () => return (← reopenFinalized s lineageID sub budget, .ok ())
    | .error _ => return (← haltRun s budget violationID,
        .error (.budgetError "reorganization reservation could not be restored; run halted"))

/-- The totals and the event of a row of a reservation that is cancelled. -/
def releaseChain (s : Store) (b : BudgetRow) : Except LabError Store := do
  let s ← s.changeTotals b.runID b.batchID b.chainID ⟨-b.reservedWei, 0, 0⟩
  return s.event ⟨b.runID, b.batchID, b.chainID, b.reservationID, none, "unstarted_route_released",
    ⟨-b.reservedWei, 0, 0⟩⟩

/-- `release_unstarted_route`. -/
def releaseUnstartedRoute (reservationID : String) : Except LabError Store := do
  let budgets := s.budgets.filter fun b => b.reservationID = reservationID
  revertIf (budgets.isEmpty = true) (.budgetError ("unknown reservation: " ++ reservationID))
  revertIf (∃ b ∈ budgets, b.sourceInFlight = true)
    (.budgetError "in-flight route reservation cannot be cancelled")
  let s ← budgets.foldlM releaseChain s
  let s ← s.putSubreservations (Table.update (fun r => r.reservationID = reservationID)
    (fun r => { r with state := .released }) s.subreservations)
  s.putBudgets (Table.update (fun b => b.reservationID = reservationID) (fun b => { b with state := .released })
    s.budgets)

/-! ## Calls -/

inductive Call
  | configureLimits (runID : String) (limits : List (Int × BudgetLimit))
  | acquireWork (leaseID attemptID holderID : String) (ttl now : Int)
  | heartbeatWork (leaseID holderID : String) (ttl now : Int)
  | releaseWork (leaseID holderID : String)
  | reserveCompleteRoute (reservationID attemptID batchID : String) (stages : List PlannedStageBudget)
  | markSourceInFlight (reservationID : String)
  | acquireNonceSubreservation (leaseID lineageID reservationID stageKey signerID holderID : String)
    (nonce requestedWei ttl : Int)
  | markLineagePending (lineageID state : String)
  | recordIncluded (lineageID : String) (actualSpentWei : Int)
  | finalizeLineage (lineageID : String) (actualSpentWei : Int)
  | releaseDeadLineage (lineageID : String) (proofSHA256 : Option String) (signedBytesDestroyed : Bool)
    (manualReleaseDecisionSHA256 : Option String)
  | reopenAfterReorganization (lineageID violationID : String)
  | releaseUnstartedRoute (reservationID : String)

/-- What a call commits. -/
def Call.commit : Call → Except LabError Store
  | configureLimits runID limits => LeaseBudgetManager.configureLimits s runID limits
  | acquireWork leaseID attemptID holderID ttl now =>
    LeaseBudgetManager.acquireWork s leaseID attemptID holderID ttl now
  | heartbeatWork leaseID holderID ttl now => LeaseBudgetManager.heartbeatWork s leaseID holderID ttl now
  | releaseWork leaseID holderID => LeaseBudgetManager.releaseWork s leaseID holderID
  | reserveCompleteRoute reservationID attemptID batchID stages =>
    LeaseBudgetManager.reserveCompleteRoute s reservationID attemptID batchID stages
  | markSourceInFlight reservationID => LeaseBudgetManager.markSourceInFlight s reservationID
  | acquireNonceSubreservation leaseID lineageID reservationID stageKey signerID holderID nonce requestedWei ttl =>
    LeaseBudgetManager.acquireNonceSubreservation s leaseID lineageID reservationID stageKey signerID holderID nonce
      requestedWei ttl
  | markLineagePending lineageID state => LeaseBudgetManager.markLineagePending s lineageID state
  | recordIncluded lineageID actualSpentWei => LeaseBudgetManager.recordIncluded s lineageID actualSpentWei
  | finalizeLineage lineageID actualSpentWei => LeaseBudgetManager.finalizeLineage s lineageID actualSpentWei
  | releaseDeadLineage lineageID proofSHA256 signedBytesDestroyed manualReleaseDecisionSHA256 =>
    LeaseBudgetManager.releaseDeadLineage s lineageID proofSHA256 signedBytesDestroyed manualReleaseDecisionSHA256
  | reopenAfterReorganization lineageID violationID =>
    (LeaseBudgetManager.reopenAfterReorganization s lineageID violationID).map Prod.fst
  | releaseUnstartedRoute reservationID => LeaseBudgetManager.releaseUnstartedRoute s reservationID

/-- The store after a call: what it commits, or the same store if it raises before. -/
def Call.after (call : Call) : Store :=
  match call.commit s with
  | .ok s' => s'
  | .error _ => s

/-- The tables of the leases are the same, up to the intents of the nonces. -/
structure SameLeases (s s' : Store) : Prop where
  workLeases : s'.workLeases = s.workLeases
  nonceLeases : s'.nonceLeases.map (fun n => { n with intentID := none }) =
    s.nonceLeases.map fun n => { n with intentID := none }
  budgets : s'.budgets = s.budgets
  budgetLimits : s'.budgetLimits = s.budgetLimits
  budgetTotals : s'.budgetTotals = s.budgetTotals
  batchBudgetTotals : s'.batchBudgetTotals = s.batchBudgetTotals
  subreservations : s'.subreservations = s.subreservations
  budgetEvents : s'.budgetEvents = s.budgetEvents
  /-- No run is deleted. -/
  runs : ∀ runID, s.runs runID ≠ none → s'.runs runID ≠ none

/-- A call, or what the rest of the laboratory does, which writes to other tables. -/
inductive Step : Store → Option Call → Store → Prop
  | call (s : Store) (call : Call) : Step s (some call) (call.after s)
  | others {s s' : Store} (same : SameLeases s s') : Step s none s'

end LeaseBudgetManager

end Xir.Impl.XirLab
