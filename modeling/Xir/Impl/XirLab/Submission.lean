import Xir.Framework.Threads
import Xir.Impl.XirLab.Controls
import Xir.Impl.XirLab.Signer

/-!
# `src/xir_lab/execute/submission.py`

A method is a program whose operations are the store transactions, the calls to
the signer and to the broadcaster, and the reads and writes of the spool. Any
of them may raise. The operations name the transaction that they are done for,
also where the source does not hand it over. The times are integers; the
journal and the times at which rows were written are left out, and so is
`recover_spool`, which only moves files of the spool.
-/

namespace Xir.Impl.XirLab

structure IntentPreparation where
  transactionID : String
  stageID : String
  lineageID : String
  reservationID : String
  reservationStageKey : String
  approvalID : String
  approvalPayloadSHA256 : String
  signerIdentitySHA256 : String
  networkIdentitySHA256 : String
  quoteSHA256 : String
  quoteValidUntil : Int
  simulationSHA256 : String
  simulationValidUntil : Int
  payloadSHA256 : String
  requestedWei : Int
  request : SignerRequest
  replacesTransactionID : Option String

structure GateEvidence where
  approvalID : String
  approvalPayloadSHA256 : String
  signerID : String
  signerIdentitySHA256 : String
  networkIdentitySHA256 : String
  quoteSHA256 : String
  observedNonce : Int
  checkedAt : Int
  simulationSHA256 : String
  simulationValidUntil : Int

structure BroadcastResult where
  accepted : Bool
  providerReference : Option String

inductive Phase
  | sign
  | broadcast

def Phase.name : Phase → String
  | sign => "sign"
  | broadcast => "broadcast"

def TransactionState.name : TransactionState → String
  | prepared => "prepared"
  | signerReturn => "signer_return"
  | signedHashPersisted => "signed_hash_persisted"
  | broadcastUnknown => "broadcast_unknown"
  | submitted => "submitted"
  | included => "included"
  | finalized => "finalized"
  | released => "released"
  | dropped => "dropped"
  | other name => name

/-- A row of `transactions`, with the operation of its intent. -/
structure SubmissionRow where
  record : TransactionRow
  signerOperationID : String

namespace Store

variable (s : Store)

def transaction (transactionID : String) : Option TransactionRow :=
  s.transactions.find? fun t => t.transactionID = transactionID

def intent (intentID : String) : Option IntentRow := s.intents.find? fun i => i.intentID = intentID

def stage (stageID : String) : Option StageRow := s.stages.find? fun stage => stage.stageID = stageID

/-- Rewrites a row of `transactions`. -/
def setTransaction (transactionID : String) (f : TransactionRow → TransactionRow) : Except LabError Store :=
  s.putTransactions (Table.update (fun t => t.transactionID = transactionID) f s.transactions)

def setIntentState (intentID : String) (state : TransactionState) : Except LabError Store :=
  s.putIntents (Table.update (fun i => i.intentID = intentID) (fun i => { i with state := state }) s.intents)

end Store

namespace SubmissionCoordinator

/-- `_digest`. -/
def digest (value label : String) : Except LabError Unit :=
  revertIf (¬ LowerSHA256 value) (.submissionError (label ++ " must be a lowercase SHA-256 value"))

/-- `_reference`. -/
def reference (row : SubmissionRow) : Except LabError SpoolReference := do
  let incomplete := LabError.submissionError "signed spool metadata is incomplete"
  let relativePath ← orRevert incomplete row.record.spoolRelativePath
  let signedSHA256 ← orRevert incomplete row.record.signedSHA256
  let signedLength ← orRevert incomplete row.record.signedLength
  return ⟨row.signerOperationID, relativePath, signedSHA256, signedLength⟩

variable (s : Store)

/-- `_transaction_from`. -/
def transactionFrom (transactionID : String) : Except LabError SubmissionRow := do
  let unknown := LabError.submissionError ("unknown transaction: " ++ transactionID)
  let record ← orRevert unknown (s.transaction transactionID)
  let intent ← orRevert unknown (s.intent record.intentID)
  return ⟨record, intent.signerOperationID⟩

/-! ## `prepare_intent` -/

/-- What `prepare_intent` checks before its transaction, and the operation that it returns. -/
def preparedOperation [SignerLibraries] (preparation : IntentPreparation) : Except LabError String := do
  let request := preparation.request
  revertIf (request.intentID = "" ∨ preparation.transactionID = "")
    (.submissionError "intent and transaction identifiers must be non-empty")
  revertIf (request.chainID < 0 ∨ request.nonce < 0 ∨ preparation.requestedWei < 0)
    (.submissionError "chain, nonce, and requested amount cannot be negative")
  digest preparation.approvalPayloadSHA256 "approval payload digest"
  digest preparation.signerIdentitySHA256 "signer identity digest"
  digest preparation.networkIdentitySHA256 "network identity digest"
  digest preparation.quoteSHA256 "quote digest"
  digest preparation.simulationSHA256 "simulation digest"
  digest preparation.payloadSHA256 "payload digest"
  signerOperationID request

/-- The check of a replacement, for a lineage that is bound to another intent. -/
def replacementAllowed (preparation : IntentPreparation) (attemptID : String) : Except LabError Unit := do
  let replaced ← orRevert (.submissionError "nonce lineage is already bound to another intent")
    preparation.replacesTransactionID
  let changed := LabError.submissionError "replacement changed nonce lineage or attempt"
  let prior ← orRevert changed (s.transaction replaced)
  let intent ← orRevert changed (s.intent prior.intentID)
  let stage ← orRevert changed (s.stage intent.stageID)
  revertIf ((prior.chainID, prior.nonce, stage.attemptID) ≠
    (preparation.request.chainID, preparation.request.nonce, attemptID)) changed

/-- The checks of the stage, of the lineage and of the approval of an intent. -/
def preparationAllowed (preparation : IntentPreparation) : Except LabError Unit := do
  let request := preparation.request
  let unmatched := LabError.submissionError "stage, nonce, and budget coordinates do not match"
  let stage ← orRevert unmatched (s.stage preparation.stageID)
  let sub ← orRevert unmatched (s.subreservations.find? fun sub =>
    sub.reservationID = preparation.reservationID ∧ sub.stageKey = preparation.reservationStageKey)
  revertIf (sub.attemptID ≠ stage.attemptID) unmatched
  let nonce ← orRevert unmatched (s.nonceLeases.find? fun n => n.lineageID = preparation.lineageID)
  revertIf (nonce.reservationID ≠ sub.reservationID ∨ nonce.stageKey ≠ sub.stageKey) unmatched
  let budget ← orRevert unmatched (s.owner sub)
  revertIf (sub.chainID ≠ request.chainID ∨ nonce.nonce ≠ request.nonce ∨ nonce.signerID ≠ request.signerID)
    (.submissionError "request changed approved chain, nonce, or signer")
  revertIf (budget.sourceInFlight = false ∨ nonce.locked = false ∨ nonce.state = .finalized ∨ nonce.state = .released)
    (.submissionError "nonce lineage or complete-route reservation is inactive")
  if nonce.intentID ≠ none ∧ nonce.intentID ≠ some request.intentID then
    replacementAllowed s preparation stage.attemptID
  revertIf (sub.allocatedWei < preparation.requestedWei)
    (.submissionError "intent exceeds its transaction sub-reservation")
  let unconsumed := LabError.submissionError "approval is not consumed for this operation"
  let approval ← orRevert unconsumed (s.approvals preparation.approvalID)
  revertIf (approval.payloadSHA256 ≠ preparation.approvalPayloadSHA256) unconsumed

def intentRow (preparation : IntentPreparation) (operationID : String) : IntentRow where
  intentID := preparation.request.intentID
  stageID := preparation.stageID
  signerOperationID := operationID
  chainID := preparation.request.chainID
  nonce := preparation.request.nonce
  state := .prepared
  payloadSHA256 := preparation.payloadSHA256
  approvalID := preparation.approvalID
  approvalPayloadSHA256 := preparation.approvalPayloadSHA256
  signerID := preparation.request.signerID
  signerIdentitySHA256 := preparation.signerIdentitySHA256
  networkIdentitySHA256 := preparation.networkIdentitySHA256
  quoteSHA256 := preparation.quoteSHA256
  quoteValidUntil := preparation.quoteValidUntil
  simulationSHA256 := preparation.simulationSHA256
  simulationValidUntil := preparation.simulationValidUntil
  reservationID := preparation.reservationID
  reservationStageKey := preparation.reservationStageKey
  requestedWei := preparation.requestedWei

def transactionRow (preparation : IntentPreparation) : TransactionRow where
  transactionID := preparation.transactionID
  intentID := preparation.request.intentID
  chainID := preparation.request.chainID
  nonce := preparation.request.nonce
  transactionHash := none
  replacesTransactionID := preparation.replacesTransactionID
  state := .prepared
  signedSHA256 := none
  signedLength := none
  spoolRelativePath := none

/-- The transaction of `prepare_intent`. -/
def prepareIntent (preparation : IntentPreparation) (operationID : String) : Except LabError (Store × String) := do
  match s.intent preparation.request.intentID with
  | some existing =>
    revertIf (existing.signerOperationID ≠ operationID)
      (.submissionError "intent ID is already bound to different bytes")
    return (s, operationID)
  | none =>
    preparationAllowed s preparation
    let s ← s.putIntents (s.intents ++ [intentRow preparation operationID])
    let transactions := s.transactions ++ [transactionRow preparation]
    -- The foreign key of a replacement.
    revertIf (∃ replaced ∈ preparation.replacesTransactionID, ¬ ∃ t ∈ transactions, t.transactionID = replaced)
      .sqliteError
    let s ← s.putTransactions transactions
    let s ← s.putNonceLeases (Table.update
      (fun n => n.lineageID = preparation.lineageID ∧
        (n.intentID = none ∨ n.intentID = some preparation.request.intentID))
      (fun n => { n with intentID := some preparation.request.intentID }) s.nonceLeases)
    return (s, operationID)

/-! ## `revalidate` -/

/-- `revalidate`. -/
def revalidate (transactionID : String) (gates : GateEvidence) (phase : Phase) : Except LabError Unit := do
  let unresolved := LabError.submissionError "submission gates cannot resolve durable coordinates"
  let record ← orRevert unresolved (s.transaction transactionID)
  let intent ← orRevert unresolved (s.intent record.intentID)
  let stage ← orRevert unresolved (s.stage intent.stageID)
  let attempt ← orRevert unresolved (s.attempts stage.attemptID)
  let runState ← orRevert unresolved (s.runs attempt.runID)
  let sub ← orRevert unresolved (s.subreservations.find? fun sub =>
    sub.reservationID = intent.reservationID ∧ sub.stageKey = intent.reservationStageKey)
  revertIf (sub.attemptID ≠ stage.attemptID) unresolved
  let nonce ← orRevert unresolved (s.nonceLeases.find? fun n => some n.lineageID = sub.lineageID)
  let budget ← orRevert unresolved (s.owner sub)
  let approval ← orRevert unresolved (s.approvals intent.approvalID)
  revertIf (intent.approvalID ≠ gates.approvalID ∨ intent.approvalPayloadSHA256 ≠ gates.approvalPayloadSHA256 ∨
      intent.signerID ≠ gates.signerID ∨ intent.signerIdentitySHA256 ≠ gates.signerIdentitySHA256 ∨
      intent.networkIdentitySHA256 ≠ gates.networkIdentitySHA256 ∨ intent.quoteSHA256 ≠ gates.quoteSHA256 ∨
      intent.simulationSHA256 ≠ gates.simulationSHA256 ∨ intent.nonce ≠ gates.observedNonce)
    (.submissionError "approval, identity, quote, or nonce gate changed")
  revertIf (approval.payloadSHA256 ≠ gates.approvalPayloadSHA256)
    (.submissionError "consumed approval no longer matches the intent")
  revertIf (intent.approvalID ∈ s.approvalRevocations) (.submissionError "approval is revoked")
  revertIf (¬ (approval.validFrom ≤ gates.checkedAt ∧ gates.checkedAt < approval.validUntil))
    (.submissionError "approval is expired or not yet valid")
  revertIf (runState = .halted ∨ runState = .revoked)
    (.submissionError ("persistent stop state blocks " ++ phase.name))
  let isSource := stage.stageName.startsWith "source"
  revertIf (runState = .drain ∧ isSource = true)
    (.submissionError "drain blocks a new source signature or broadcast")
  revertIf (attempt.state ≠ .inFlight ∨ budget.sourceInFlight = false)
    (.submissionError "attempt no longer owns an in-flight route reservation")
  revertIf (nonce.locked = false ∨ nonce.state = .finalized ∨ nonce.state = .released ∨
      nonce.nonce ≠ gates.observedNonce ∨ nonce.signerID ≠ gates.signerID)
    (.submissionError "nonce lease is no longer valid")
  revertIf (sub.state = .finalized ∨ sub.state = .released ∨ sub.allocatedWei < intent.requestedWei)
    (.submissionError "transaction reservation is no longer valid")
  revertIf (intent.quoteValidUntil ≤ gates.checkedAt) (.submissionError "quote is stale")
  revertIf (intent.simulationValidUntil ≤ gates.checkedAt ∨ gates.simulationValidUntil ≤ gates.checkedAt)
    (.submissionError "simulation is stale")

/-! ## The transactions of the phases -/

/-- The first write of `sign_prepared`. -/
def signerReturned (transactionID : String) : Except LabError Store := do
  let current ← transactionFrom s transactionID
  revertIf (current.record.state ∉ [.prepared, .signerReturn])
    (.submissionError "transaction changed while signer was running")
  s.setTransaction transactionID fun t => { t with state := .signerReturn }

/-- The second write of `sign_prepared`. -/
def hashPersisted (transactionID intentID : String) (signed : SignedTransaction) (spooled : SpoolReference) :
    Except LabError (Store × SpoolReference) := do
  let current ← transactionFrom s transactionID
  revertIf (current.record.state ∉ [.signerReturn, .signedHashPersisted])
    (.submissionError "transaction changed before spool reference persistence")
  if current.record.state = .signedHashPersisted then
    let existing ← reference current
    revertIf (existing ≠ spooled) (.submissionError "persisted signer operation metadata changed")
    return (s, existing)
  else
    let s ← s.setTransaction transactionID fun t => { t with
      state := .signedHashPersisted
      transactionHash := some signed.transactionHash
      signedSHA256 := some spooled.signedSHA256
      signedLength := some spooled.signedLength
      spoolRelativePath := some spooled.relativePath }
    let s ← s.setIntentState intentID .signedHashPersisted
    return (s, spooled)

/-- The states that `broadcast` accepts. -/
def allowed (allowRepeat : Bool) : List TransactionState :=
  [.signedHashPersisted, .broadcastUnknown] ++ if allowRepeat then [.submitted] else []

/-- The first write of `broadcast`. -/
def broadcastStarted (transactionID intentID : String) (allowRepeat : Bool) : Except LabError Store := do
  let current ← transactionFrom s transactionID
  revertIf (current.record.state ∉ allowed allowRepeat) (.submissionError "transaction changed before broadcast")
  let s ← s.setTransaction transactionID fun t => { t with state := .broadcastUnknown }
  s.setIntentState intentID .broadcastUnknown

/-- The second write of `broadcast`. -/
def acknowledged (transactionID intentID : String) : Except LabError Store := do
  let current ← transactionFrom s transactionID
  revertIf (current.record.state ≠ .broadcastUnknown)
    (.submissionError "transaction changed before RPC acknowledgement")
  let s ← s.setTransaction transactionID fun t => { t with state := .submitted }
  s.setIntentState intentID .submitted

inductive Observation
  | included
  | finalized

def Observation.expected : Observation → List TransactionState
  | included => [.broadcastUnknown, .submitted]
  | finalized => [.included]

def Observation.toState : Observation → TransactionState
  | included => .included
  | finalized => .finalized

/-- `_advance_observation`. -/
def advanceObservation (transactionID : String) (observation : Observation) : Except LabError Store := do
  let row ← transactionFrom s transactionID
  if row.record.state = observation.toState then
    return s
  else
    revertIf (row.record.state ∉ observation.expected) (.submissionError
      ("cannot advance transaction from " ++ row.record.state.name ++ " to " ++ observation.toState.name))
    let s ← s.setTransaction transactionID fun t => { t with state := observation.toState }
    s.setIntentState row.record.intentID observation.toState

end SubmissionCoordinator

/-! ## Operations -/

/-- What was handed to the broadcaster. -/
structure Sent where
  transactionID : String
  signedBytes : PyBytes
  transactionHash : String

/-- The store and the spool, and what was handed to the broadcaster until now. -/
structure Lab where
  store : Store
  spool : PrivateSpool
  sent : List Sent

inductive SubmissionOp
  | prepareIntent (preparation : IntentPreparation) (operationID : String)
  | transaction (transactionID : String)
  | revalidate (transactionID : String) (gates : GateEvidence) (phase : Phase)
  | signTransaction (transactionID operationID : String) (request : SignerRequest)
  | signerReturned (transactionID : String)
  | read (path : String)
  | mkstemp (operationID : String)
  | write (path : String) (data : PyBytes)
  | fsync (path : String)
  | replace (path destination : String)
  | syncDirectory (path : String)
  | hashPersisted (transactionID intentID : String) (signed : SignedTransaction) (spooled : SpoolReference)
  | load (spooled : SpoolReference)
  | broadcastStarted (transactionID intentID : String) (allowRepeat : Bool)
  | broadcast (sent : Sent)
  | acknowledged (transactionID intentID : String)
  | advanceObservation (transactionID : String) (observation : SubmissionCoordinator.Observation)

@[reducible] def SubmissionOp.Answer : SubmissionOp → Type
  | prepareIntent .. | mkstemp _ => String
  | transaction _ => SubmissionRow
  | signTransaction .. => SignedTransaction
  | read _ => Option PyBytes
  | hashPersisted .. => SpoolReference
  | load _ => PyBytes
  | broadcast _ => Except LabError BroadcastResult
  | revalidate .. | signerReturned _ | write .. | fsync _ | replace .. | syncDirectory _ | broadcastStarted ..
  | acknowledged .. | advanceObservation .. => Unit

/-- What the signer, the broadcaster and the operating system reply. -/
structure Replies where
  sign : String → SignerRequest → Except LabError SignedTransaction
  broadcast : Sent → Except LabError BroadcastResult
  token : String

namespace Lab

variable (l : Lab)

/-- A store transaction. -/
def commit (x : Except LabError Store) : Except LabError (Lab × Unit) := do
  return ({ l with store := ← x }, ())

/-- A change of the spool. -/
def change (x : Except LabError PrivateSpool) : Except LabError (Lab × Unit) := do
  return ({ l with spool := ← x }, ())

variable [SignerLibraries]

/-- What an operation leaves, and what it answers. -/
def does (replies : Replies) : (op : SubmissionOp) → Except LabError (Lab × op.Answer)
  | .prepareIntent preparation operationID => do
    let (s, id) ← SubmissionCoordinator.prepareIntent l.store preparation operationID
    return ({ l with store := s }, id)
  | .transaction transactionID => do
    return (l, ← SubmissionCoordinator.transactionFrom l.store transactionID)
  | .revalidate transactionID gates phase => do
    return (l, ← SubmissionCoordinator.revalidate l.store transactionID gates phase)
  | .signTransaction _ operationID request => do
    return (l, ← replies.sign operationID request)
  | .signerReturned transactionID => l.commit (SubmissionCoordinator.signerReturned l.store transactionID)
  | .read path => return (l, (l.spool.files.lookup path).map SpoolFile.data)
  | .mkstemp operationID => do
    let path := PrivateSpool.temporaryPath operationID replies.token
    return ({ l with spool := ← l.spool.mkstemp path }, path)
  | .write path data => l.change (l.spool.write path data)
  | .fsync path => l.change (l.spool.fsync path)
  | .replace path destination => l.change (l.spool.replace path destination)
  | .syncDirectory path => return ({ l with spool := l.spool.syncDirectory path }, ())
  | .hashPersisted transactionID intentID signed spooled => do
    let (s, spooled) ← SubmissionCoordinator.hashPersisted l.store transactionID intentID signed spooled
    return ({ l with store := s }, spooled)
  | .load spooled => do
    return (l, ← l.spool.load spooled)
  | .broadcastStarted transactionID intentID allowRepeat =>
    l.commit (SubmissionCoordinator.broadcastStarted l.store transactionID intentID allowRepeat)
  -- The bytes may reach the network also if the broadcaster raises.
  | .broadcast sent => return ({ l with sent := l.sent ++ [sent] }, replies.broadcast sent)
  | .acknowledged transactionID intentID =>
    l.commit (SubmissionCoordinator.acknowledged l.store transactionID intentID)
  | .advanceObservation transactionID observation =>
    l.commit (SubmissionCoordinator.advanceObservation l.store transactionID observation)

/-- What an operation that raises leaves: `persist` removes its temporary file. -/
def raised : SubmissionOp → Lab
  | .write path _ | .fsync path | .replace path _ => { l with spool := l.spool.unlink path }
  | _ => l

/-- The answer of an operation, and what it leaves. -/
def answer (replies : Replies) (op : SubmissionOp) : Except LabError op.Answer × Lab :=
  match l.does replies op with
  | .ok (l', a) => (.ok a, l')
  | .error e => (.error e, l.raised op)

/-- An operation may raise at any time, and the others reply what they like. -/
inductive Answers : (op : SubmissionOp) → Except LabError op.Answer → Lab → Prop
  | raises (op : SubmissionOp) (e : LabError) : Answers op (.error e) (l.raised op)
  | does {op : SubmissionOp} {replies : Replies} {l' : Lab} {a : op.Answer} :
    l.does replies op = .ok (l', a) → Answers op (.ok a) l'

end Lab

/-! ## Methods -/

namespace SubmissionCoordinator

abbrev Program := Prog SubmissionOp (fun op => Except LabError op.Answer) LabError

/-- Does an operation, and raises what it raises. -/
abbrev call (op : SubmissionOp) : Program op.Answer := Prog.call op

variable [SignerLibraries]

/-- `obtain_signed`, of the signer's coordinator. -/
def obtainSigned (transactionID : String) (request : SignerRequest) : Program SignedTransaction := do
  let operationID ← Prog.ofExcept (signerOperationID request)
  let signed ← call (.signTransaction transactionID operationID request)
  Prog.ofExcept (revertIf (signed.operationID ≠ operationID)
    (.signerError "signer returned a different operation ID"))
  return signed

/-- `persist`, for a file that does not exist. -/
def persistNew (transaction : SignedTransaction) (destination : String) : Program Unit := do
  let temporary ← call (.mkstemp transaction.operationID)
  let midpoint := max 1 (transaction.signedBytes.length / 2)
  call (.write temporary (transaction.signedBytes.take midpoint))
  call (.write temporary (transaction.signedBytes.drop midpoint))
  call (.fsync temporary)
  call (.replace temporary destination)
  call (.syncDirectory destination)

/-- `persist`, of the spool. -/
def persist (transaction : SignedTransaction) : Program SpoolReference := do
  Prog.ofExcept (revertIf (transaction.operationID = "" ∨ transaction.signedBytes = [])
    (.signerError "signed transaction and operation ID must be non-empty"))
  let signedSHA256 := SignerLibraries.sha256 transaction.signedBytes
  let destination := PrivateSpool.relativePath transaction.operationID
  match ← call (.read destination) with
  | some existing => Prog.ofExcept (revertIf (SignerLibraries.sha256 existing ≠ signedSHA256)
      (.signerError "operation ID already maps to different signed bytes"))
  | none => persistNew transaction destination
  return ⟨transaction.operationID, destination, signedSHA256, transaction.signedBytes.length⟩

/-- What `sign_prepared` does once the gates passed. -/
def signGated (transactionID : String) (request : SignerRequest) : Program SpoolReference := do
  let signed ← obtainSigned transactionID request
  call (.signerReturned transactionID)
  let spooled ← persist signed
  call (.hashPersisted transactionID request.intentID signed spooled)

/-- What `sign_prepared` does for a transaction that is not signed. -/
def sign (row : SubmissionRow) (transactionID : String) (request : SignerRequest) (gates : GateEvidence) :
    Program SpoolReference := do
  Prog.ofExcept (revertIf (row.record.intentID ≠ request.intentID)
    (.submissionError "signer request changed the prepared intent"))
  let operationID ← Prog.ofExcept (signerOperationID request)
  Prog.ofExcept (revertIf (row.signerOperationID ≠ operationID)
    (.submissionError "signer request changed after intent preparation"))
  call (.revalidate transactionID gates .sign)
  signGated transactionID request

/-- `sign_prepared`. -/
def signPrepared (transactionID : String) (request : SignerRequest) (gates : GateEvidence) :
    Program SpoolReference := do
  let row ← call (.transaction transactionID)
  if row.record.state ∈ [.prepared, .signerReturn] then
    sign row transactionID request gates
  else if row.record.state = .signedHashPersisted then
    Prog.ofExcept (reference row)
  else
    Prog.fail (.submissionError "transaction is not eligible for signing")

/-- `broadcast`. -/
def broadcast (transactionID : String) (gates : GateEvidence) (allowRepeat : Bool) : Program BroadcastResult := do
  let row ← call (.transaction transactionID)
  Prog.ofExcept (revertIf (row.record.state ∉ allowed allowRepeat)
    (.submissionError "transaction is not eligible for this broadcast"))
  call (.revalidate transactionID gates .broadcast)
  let spooled ← Prog.ofExcept (reference row)
  let signedBytes ← call (.load spooled)
  let expectedHash := row.record.transactionHash.getD "None"
  call (.broadcastStarted transactionID row.record.intentID allowRepeat)
  let reply ← call (.broadcast ⟨transactionID, signedBytes, expectedHash⟩)
  let result ← Prog.ofExcept reply
  if result.accepted then
    call (.acknowledged transactionID row.record.intentID)
  return result

inductive Call
  | prepareIntent (preparation : IntentPreparation)
  | signPrepared (transactionID : String) (request : SignerRequest) (gates : GateEvidence)
  | broadcast (transactionID : String) (gates : GateEvidence) (allowRepeat : Bool)
  | recordIncluded (transactionID : String)
  | recordFinalized (transactionID : String)

/-- The program of a call, for what it does. -/
def Call.prog : Call → Program Unit
  | prepareIntent preparation => do
    let operationID ← Prog.ofExcept (preparedOperation preparation)
    let _ ← SubmissionCoordinator.call (.prepareIntent preparation operationID)
  | signPrepared transactionID request gates => do
    let _ ← SubmissionCoordinator.signPrepared transactionID request gates
  | broadcast transactionID gates allowRepeat => do
    let _ ← SubmissionCoordinator.broadcast transactionID gates allowRepeat
  | recordIncluded transactionID => SubmissionCoordinator.call (.advanceObservation transactionID .included)
  | recordFinalized transactionID => SubmissionCoordinator.call (.advanceObservation transactionID .finalized)

end SubmissionCoordinator

/-- What happens around the coordinators: a call for the controls of a run, or
anything that leaves `transactions`. -/
inductive Around : Lab → Option RunControlManager.Call → Lab → Prop
  | control (l : Lab) (call : RunControlManager.Call) : Around l (some call) { l with store := call.after l.store }
  | others {l l' : Lab} (transactions : l'.store.transactions = l.store.transactions) (sent : l'.sent = l.sent) :
    Around l none l'

/-- The coordinators, each with the method that it is in. -/
abbrev Coordinators (τ : Type) :=
  Threads τ Lab SubmissionOp (fun op => Except LabError op.Answer) LabError Unit

/-- A step of a coordinator, or of what is around them. -/
abbrev SubmissionStep {τ : Type} [DecidableEq τ] [SignerLibraries] :
    Coordinators τ → Threads.Event τ SubmissionCoordinator.Call SubmissionOp ⊕ Option RunControlManager.Call →
      Coordinators τ → Prop :=
  Threads.WorldStep (fun op l => l.Answers op) SubmissionCoordinator.Call.prog Around

end Xir.Impl.XirLab
