import Xir.Impl.XirLab.Finality

/-!
# The state of an attempt

`OutcomeClockRecorder` of `src/xir_lab/collect/outcomes.py`, with
`complete_attempt` of the executor and `update_attempt_state` of the store: the
methods that write `attempts.state`, next to `mark_source_in_flight` of the
leases. A method is a program whose operations are its store transactions, any
of which may raise. Of the journal, the rows about attempts are kept. An
outcome's identifier is left out, which is a digest of its attempt, kind and
outcome. The times are integers, of microseconds.
-/

namespace Xir.Impl.XirLab

def AttemptState.ofName (name : String) : AttemptState :=
  if name = "planned" then planned else if name = "in_flight" then inFlight else other name

/-- `TERMINAL_ATTEMPT_STATES`. -/
def terminalAttemptStates : List AttemptState :=
  [.other "not_submitted", .other "delivered", .other "submission_failed", .other "carrier_failed",
    .other "xir_rejected", .other "destination_failed", .other "timed_out", .other "observer_failed",
    .other "incomplete_evidence"]

inductive FailureSource
  | observer
  | evidence
  | submission
  | carrier
  | xir
  | destination
  deriving DecidableEq

inductive FailureOutcome
  | observerFailed
  | incompleteEvidence
  | submissionFailed
  | carrierFailed
  | xirRejected
  | destinationFailed
  deriving DecidableEq

inductive EventualOutcome
  | deliveredAfterTimeout
  | carrierFailedAfterTimeout
  | xirRejectedAfterTimeout
  | destinationFailedAfterTimeout
  | incompleteEvidence
  deriving DecidableEq

def FailureOutcome.name : FailureOutcome → String
  | observerFailed => "observer_failed"
  | incompleteEvidence => "incomplete_evidence"
  | submissionFailed => "submission_failed"
  | carrierFailed => "carrier_failed"
  | xirRejected => "xir_rejected"
  | destinationFailed => "destination_failed"

def EventualOutcome.name : EventualOutcome → String
  | deliveredAfterTimeout => "delivered_after_timeout"
  | carrierFailedAfterTimeout => "carrier_failed_after_timeout"
  | xirRejectedAfterTimeout => "xir_rejected_after_timeout"
  | destinationFailedAfterTimeout => "destination_failed_after_timeout"
  | incompleteEvidence => "incomplete_evidence"

/-- `expected_sources`. -/
def FailureOutcome.expectedSources : FailureOutcome → List FailureSource
  | observerFailed => [.observer]
  | incompleteEvidence => [.observer, .evidence]
  | submissionFailed => [.submission]
  | carrierFailed => [.carrier]
  | xirRejected => [.xir]
  | destinationFailed => [.destination]

inductive OutcomeKind
  | deadline
  | eventual
  | failure
  deriving DecidableEq

def OutcomeKind.name : OutcomeKind → String
  | deadline => "deadline"
  | eventual => "eventual"
  | failure => "failure"

/-- A row of `attempt_outcome_observations`. -/
structure AttemptOutcomeRow where
  attemptID : String
  kind : OutcomeKind
  outcome : String
  failureSource : Option FailureSource
  failureCode : Option String
  observationHorizonMs : Option Int
  observedUTC : Int
  observerSessionID : String
  observedMonotonicNs : Int
  proofFinalityObservationID : Option String

/-- The constraints of `attempt_outcome_observations`. -/
def AttemptOutcomeRow.Constraints (rows : List AttemptOutcomeRow) : Prop :=
  (∀ o ∈ rows, Stored o.observedMonotonicNs ∧ ∀ ms ∈ o.observationHorizonMs, Stored ms) ∧
  Table.Unique (fun o : AttemptOutcomeRow => some (o.attemptID, o.kind)) rows

instance (rows : List AttemptOutcomeRow) : Decidable (AttemptOutcomeRow.Constraints rows) :=
  inferInstanceAs (Decidable (_ ∧ _))

/-- A row of `attempt_observation_windows`. -/
structure WindowRow where
  startedUTC : Int
  deadlineUTC : Int

/-- A row of `transition_journal` about an attempt. -/
structure AttemptTransition where
  attemptID : String
  fromState : AttemptState
  toState : AttemptState
  deriving DecidableEq

/-- The store, with the tables that the outcomes are in. -/
structure AttemptStore extends FinalityStore where
  /-- `stages.ordinal`. -/
  ordinals : String → Int
  windows : String → Option WindowRow
  outcomes : List AttemptOutcomeRow
  journal : List AttemptTransition

namespace AttemptStore

variable (s : AttemptStore)

/-- `attempts.state`. -/
def state (attemptID : String) : Option AttemptState := (s.store.attempts attemptID).map AttemptRow.state

/-- Writes `attempts.state`; nothing if there is no such attempt. -/
def setState (attemptID : String) (state : AttemptState) : AttemptStore :=
  let row := (s.store.attempts attemptID).map fun a => { a with state := state }
  { s with store := { s.store with attempts := Function.update s.store.attempts attemptID row } }

/-- `append_transition`. -/
def appendTransition (attemptID : String) (fromState toState : AttemptState) : AttemptStore :=
  { s with journal := s.journal ++ [⟨attemptID, fromState, toState⟩] }

/-- `update_attempt_state`. -/
def updateAttemptState (attemptID toState : String) : Except LabError AttemptStore := do
  let current ← orRevert (.storeError ("unknown attempt: " ++ attemptID)) (s.state attemptID)
  revertIf (current ∈ terminalAttemptStates) (.storeError ("terminal attempt cannot transition: " ++ attemptID))
  return (s.setState attemptID (.ofName toState)).appendTransition attemptID current (.ofName toState)

/-- `mark_source_in_flight`, with its row of the journal. -/
def markSourceInFlight (reservationID : String) : Except LabError AttemptStore := do
  let store ← LeaseBudgetManager.markSourceInFlight s.store reservationID
  let marked := { s with store := store }
  match LeaseBudgetManager.reservationRows s.store reservationID with
  | [] => return marked
  | (first, runState) :: rest =>
    if ∃ row ∈ (first, runState) :: rest, row.1.sourceInFlight = true then return marked
    else return marked.appendTransition first.attemptID .planned .inFlight

/-- The stages of an attempt. -/
def stagesOf (attemptID : String) : List StageRow := s.store.stages.filter fun stage => stage.attemptID = attemptID

/-- The write of `complete_attempt`. -/
def completeAttempt (attemptID : String) : Except LabError AttemptStore := do
  let unknown := LabError.executorError ("unknown attempt: " ++ attemptID)
  let current ← orRevert unknown (s.state attemptID)
  revertIf ((s.stagesOf attemptID).isEmpty = true) unknown
  revertIf ((s.stagesOf attemptID).any fun stage => s.stageStates stage.stageID ≠ some "completed")
    (.executorError "attempt cannot complete with unfinished stages")
  if current = .other "delivered" then return s
  else return (s.setState attemptID (.other "delivered")).appendTransition attemptID current (.other "delivered")

/-- `_outcome`. -/
def outcome (attemptID : String) (kind : OutcomeKind) : Option AttemptOutcomeRow :=
  s.outcomes.find? fun o => o.attemptID = attemptID ∧ o.kind = kind

/-- The write of `_append_outcome`, which refers to an attempt. -/
def appendOutcome (row : AttemptOutcomeRow) : Except LabError AttemptStore :=
  let rows := s.outcomes ++ [row]
  if AttemptOutcomeRow.Constraints rows ∧ s.state row.attemptID ≠ none then .ok { s with outcomes := rows }
  else .error (.outcomeError (row.kind.name ++ " outcome is already recorded"))

/-- `_validate_destination_finality`. -/
def validateDestinationFinality (attemptID observationID : String) : Except LabError Unit := do
  let unproved := LabError.outcomeError "eventual delivery proof is not canonical finalized destination evidence"
  let finality ← orRevert unproved (s.observations.find? fun o => o.observationID = observationID)
  revertIf (s.Superseded finality) unproved
  let record ← orRevert unproved (s.store.transaction finality.transactionID)
  let intent ← orRevert unproved (s.store.intent record.intentID)
  let stage ← orRevert unproved (s.store.stage intent.stageID)
  revertIf (stage.attemptID ≠ attemptID ∨ finality.state ≠ .finalized ∨ finality.canonical = false) unproved
  revertIf ((s.stagesOf stage.attemptID).any fun peer => s.ordinals stage.stageID < s.ordinals peer.stageID) unproved

end AttemptStore

/-! ## Operations -/

inductive AttemptOp
  | updateAttemptState (attemptID toState : String)
  | markSourceInFlight (reservationID : String)
  | completeAttempt (attemptID : String)
  | releaseWork (leaseID holderID : String)
  | window (attemptID : String)
  | state (attemptID : String)
  | outcome (attemptID : String) (kind : OutcomeKind)
  | validateDestinationFinality (attemptID observationID : String)
  | appendOutcome (row : AttemptOutcomeRow)
  | setTimedOut (attemptID : String)
  | setFailure (attemptID : String) (outcome : FailureOutcome)

@[reducible] def AttemptOp.Answer : AttemptOp → Type
  | window _ => WindowRow
  | state _ => AttemptState
  | outcome .. => Option AttemptOutcomeRow
  | updateAttemptState .. | markSourceInFlight _ | completeAttempt _ | releaseWork .. | validateDestinationFinality ..
  | appendOutcome _ | setTimedOut _ | setFailure .. => Unit

namespace AttemptStore

variable (s : AttemptStore)

/-- A store transaction. -/
def commit (x : Except LabError AttemptStore) : Except LabError (AttemptStore × Unit) := do
  return (← x, ())

/-- What an operation leaves, and what it answers. -/
def does : (op : AttemptOp) → Except LabError (AttemptStore × op.Answer)
  | .updateAttemptState attemptID toState => commit (s.updateAttemptState attemptID toState)
  | .markSourceInFlight reservationID => commit (s.markSourceInFlight reservationID)
  | .completeAttempt attemptID => commit (s.completeAttempt attemptID)
  | .releaseWork leaseID holderID => do
    return ({ s with store := ← LeaseBudgetManager.releaseWork s.store leaseID holderID }, ())
  | .window attemptID => do
    return (s, ← orRevert (.outcomeError "attempt has no approval-bound observation window") (s.windows attemptID))
  | .state attemptID => do
    return (s, ← orRevert (.outcomeError ("unknown attempt: " ++ attemptID)) (s.state attemptID))
  | .outcome attemptID kind => return (s, s.outcome attemptID kind)
  | .validateDestinationFinality attemptID observationID => do
    return (s, ← s.validateDestinationFinality attemptID observationID)
  | .appendOutcome row => commit (s.appendOutcome row)
  | .setTimedOut attemptID => return (s.setState attemptID (.other "timed_out"), ())
  | .setFailure attemptID outcome => return (s.setState attemptID (.other outcome.name), ())

/-- An operation may raise at any time. -/
inductive Answers : (op : AttemptOp) → Except LabError op.Answer → AttemptStore → Prop
  | raises (op : AttemptOp) (e : LabError) : Answers op (.error e) s
  | does {op : AttemptOp} {s' : AttemptStore} {a : op.Answer} : s.does op = .ok (s', a) → Answers op (.ok a) s'

end AttemptStore

/-! ## Methods -/

namespace OutcomeClockRecorder

abbrev Program := Prog AttemptOp (fun op => Except LabError op.Answer) LabError

/-- Does an operation, and raises what it raises. -/
abbrev call (op : AttemptOp) : Program op.Answer := Prog.call op

/-- What an observer says of an outcome. -/
structure Observer where
  observedUTC : Int
  observerSessionID : String
  observedMonotonicNs : Int

/-- `_append_outcome`. -/
def appendOutcome (row : AttemptOutcomeRow) : Program Unit := do
  Prog.ofExcept (revertIf (row.observedMonotonicNs < 0 ∨ row.observerSessionID = "")
    (.outcomeError "outcome observer clock is invalid"))
  call (.appendOutcome row)

/-- The outcomes that a deadline comes too late for. -/
def terminalChainOutcomes : List AttemptState :=
  [.other "delivered", .other "carrier_failed", .other "xir_rejected", .other "destination_failed"]

def timeoutRow (attemptID : String) (window : WindowRow) (observer : Observer) : AttemptOutcomeRow where
  attemptID := attemptID
  kind := .deadline
  outcome := "timed_out"
  failureSource := none
  failureCode := none
  observationHorizonMs := some ((window.deadlineUTC - window.startedUTC).tdiv 1000)
  observedUTC := observer.observedUTC
  observerSessionID := observer.observerSessionID
  observedMonotonicNs := observer.observedMonotonicNs
  proofFinalityObservationID := none

/-- `mark_deadline_timeout`. -/
def markDeadlineTimeout (attemptID : String) (observer : Observer) : Program Unit := do
  let window ← call (.window attemptID)
  Prog.ofExcept (revertIf (observer.observedUTC < window.deadlineUTC)
    (.outcomeError "observation deadline has not been reached"))
  let state ← call (.state attemptID)
  Prog.ofExcept (revertIf (state ∈ terminalChainOutcomes)
    (.outcomeError "terminal chain outcome already exists at deadline"))
  appendOutcome (timeoutRow attemptID window observer)
  call (.setTimedOut attemptID)

/-- The check of the proof of an eventual outcome. -/
def validateProof (attemptID : String) (outcome : EventualOutcome) (proof : Option String) : Program Unit :=
  if outcome = .deliveredAfterTimeout then do
    let observationID ← Prog.ofExcept
      (orRevert (LabError.outcomeError "eventual delivery requires finalized chain proof") proof)
    call (.validateDestinationFinality attemptID observationID)
  else Prog.ofExcept (revertIf (proof ≠ none) (.outcomeError "failure eventual outcome cannot use delivery proof"))

def eventualRow (attemptID : String) (outcome : EventualOutcome) (observer : Observer) (proof : Option String) :
    AttemptOutcomeRow where
  attemptID := attemptID
  kind := .eventual
  outcome := outcome.name
  failureSource := none
  failureCode := none
  observationHorizonMs := none
  observedUTC := observer.observedUTC
  observerSessionID := observer.observerSessionID
  observedMonotonicNs := observer.observedMonotonicNs
  proofFinalityObservationID := proof

/-- `record_eventual_outcome`. -/
def recordEventualOutcome (attemptID : String) (outcome : EventualOutcome) (observer : Observer)
    (proof : Option String) : Program Unit := do
  let deadline ← call (.outcome attemptID .deadline)
  Prog.ofExcept (revertIf (deadline.map AttemptOutcomeRow.outcome ≠ some "timed_out")
    (.outcomeError "eventual outcome requires historical timeout"))
  validateProof attemptID outcome proof
  appendOutcome (eventualRow attemptID outcome observer proof)

def failureRow (attemptID : String) (outcome : FailureOutcome) (source : FailureSource) (failureCode : String)
    (observer : Observer) : AttemptOutcomeRow where
  attemptID := attemptID
  kind := .failure
  outcome := outcome.name
  failureSource := some source
  failureCode := some failureCode
  observationHorizonMs := none
  observedUTC := observer.observedUTC
  observerSessionID := observer.observerSessionID
  observedMonotonicNs := observer.observedMonotonicNs
  proofFinalityObservationID := none

/-- `record_failure`. -/
def recordFailure (attemptID : String) (outcome : FailureOutcome) (source : FailureSource) (failureCode : String)
    (observer : Observer) : Program Unit := do
  let _ ← call (.window attemptID)
  Prog.ofExcept (revertIf (source ∉ outcome.expectedSources)
    (.outcomeError "failure source does not match outcome class"))
  appendOutcome (failureRow attemptID outcome source failureCode observer)
  let deadline ← call (.outcome attemptID .deadline)
  if deadline.isNone then call (.setFailure attemptID outcome)

/-- `complete_attempt`. -/
def completeAttempt (attemptID workLeaseID holderID : String) : Program Unit := do
  call (.completeAttempt attemptID)
  call (.releaseWork workLeaseID holderID)

inductive Call
  | markDeadlineTimeout (attemptID : String) (observer : Observer)
  | recordEventualOutcome (attemptID : String) (outcome : EventualOutcome) (observer : Observer) (proof : Option String)
  | recordFailure (attemptID : String) (outcome : FailureOutcome) (source : FailureSource) (failureCode : String)
    (observer : Observer)
  | completeAttempt (attemptID workLeaseID holderID : String)

def Call.prog : Call → Program Unit
  | markDeadlineTimeout attemptID observer => OutcomeClockRecorder.markDeadlineTimeout attemptID observer
  | recordEventualOutcome attemptID outcome observer proof =>
    OutcomeClockRecorder.recordEventualOutcome attemptID outcome observer proof
  | recordFailure attemptID outcome source failureCode observer =>
    OutcomeClockRecorder.recordFailure attemptID outcome source failureCode observer
  | completeAttempt attemptID workLeaseID holderID =>
    OutcomeClockRecorder.completeAttempt attemptID workLeaseID holderID

/-- The writers of `attempts.state`: a call of these methods, or one of the two that are one transaction. -/
inductive Writer
  | call (c : Call)
  | updateAttemptState (attemptID toState : String)
  | markSourceInFlight (reservationID : String)

def Writer.prog : Writer → Program Unit
  | call c => c.prog
  | updateAttemptState attemptID toState => OutcomeClockRecorder.call (.updateAttemptState attemptID toState)
  | markSourceInFlight reservationID => OutcomeClockRecorder.call (.markSourceInFlight reservationID)

/-- A step of the writers, each with the method that it is in. -/
abbrev WriterStep {τ : Type} [DecidableEq τ] :
    Threads τ AttemptStore AttemptOp (fun op => Except LabError op.Answer) LabError Unit →
      Threads.Event τ Writer AttemptOp →
        Threads τ AttemptStore AttemptOp (fun op => Except LabError op.Answer) LabError Unit → Prop :=
  Threads.Step (fun op s => s.Answers op) Writer.prog

end OutcomeClockRecorder

end Xir.Impl.XirLab
