import Xir.Framework.Prog
import Xir.Impl.GoRuntime.LayerZero
import Xir.Impl.GoRuntime.Runner

/-!
# `go-runtime/internal/runner`: an attempt

`runAttempt` and the functions that it calls up to the requests of the
transactor, as programs over calls of the ledger, of the transactor and of the
nodes, each of which may fail. The requests are made in the order of the source,
with their stages and what they call; `finality`, the decoding of logs and the
checkpoint of a dispatch are in the calls that answer them. The gas of a request
is left out.
-/

namespace Xir.Impl

open GoXir LayerZero
open XIREncoding (ascii)

/-- An attempt of a configuration. -/
structure CampaignAttempt extends Attempt where
  phase : String
  switchCount : Int
  payloadSHA256 : String

/-- What a request of the transactor calls. -/
inductive RunnerCall
  | createRecord (destinationApp : TypedId) (payload : Bytes) (context : VerifiedContext) (registryVersion : UInt32)
  | dispatch (call : SendCall)
  | record (payload : Bytes) (envelope : Envelope) (hopIndex : Nat) (outboundProfile : Bytes32)
  | deliver (envelope : Envelope) (payload : Bytes) (receiver : Address)
  | process (callData : GoBytes)
  | worker (callData : GoBytes)

structure RunnerRequest where
  attemptID : String
  stage : String
  chainRole : Nat
  target : Address
  call : RunnerCall
  value : Nat
  /-- The `record_nonce` of the intent's detail. -/
  recordNonce : Option UInt64

def RunnerRequest.actionID (request : RunnerRequest) : String := request.attemptID ++ ":" ++ request.stage

/-- A step of `layerzero.Plan`. -/
structure DeliveryAction where
  stage : String
  target : Address
  callData : GoBytes
  expectedTopic : String

/-- The infrastructure of a destination that a delivery addresses. -/
structure DeliveryTargets where
  dvn : Address
  receiveULN : Address
  executor : Address

inductive RunnerOp
  | beginAttempt (attempt : CampaignAttempt)
  | finishAttempt (attemptID : String)
  | recordStage (attemptID stage transactionHash : String)
  | recordEvent (attemptID stage event source : String) (role hopIndex : Nat) (transactionHash : String)
  | rootNonce (attempt : CampaignAttempt)
  /-- Whether the intent of the root has its detail: there is no action, or one that has it. -/
  | rootIntent (attemptID : String)
  | execute (request : RunnerRequest)
  | verifyRootCreation (attempt : CampaignAttempt) (record : Record) (context : VerifiedContext) (rid : Bytes32)
    (transactionHash : String)
  | signPersonalDigest (rid : Bytes32)
  | dispatchFee (attemptID : String) (request : HopRequest)
  /-- The `guid`s of the `VerifiedEvidenceForwarded` events of a receipt. -/
  | evidenceForwarded (transactionHash : String)
  /-- The message ids of its `HyperlaneDispatched` events. -/
  | hyperlaneDispatched (transactionHash : String)
  | collectDelivery (request : HopRequest) (transactionHash : String)
  | readPacket (request : HopRequest) (transactionHash : String)
  /-- `readCheckpoint`, the signature of the validator and `hyperlane.Plan`. -/
  | hyperlanePlan (request : HopRequest) (message : GoBytes)
  | processEvents (transactionHash : String)
  | deliveryTargets (role : Nat)
  /-- The expiration that the frozen action of the stage has, or a new one. -/
  | expiration (attemptID stage : String)
  | verifyStageTopic (transactionHash expectedTopic stage : String)
  | awaitVerified (attemptID : String) (request : HopRequest) (evidence : Bytes32)
  /-- The `outboundProfileHash` of the `NativeMultihopTransitionRecorded` events. -/
  | transitionRecorded (transactionHash : String)
  /-- The attempt, message and sequence of the `NativeMultihopEffectApplied` events. -/
  | effectApplied (transactionHash : String)
  | consumedAttempts (role : Nat) (attemptKey : Bytes32)

/-- The calldata and the mailbox of `Mailbox.process`. -/
structure ProcessPlan where
  mailbox : Address
  callData : GoBytes

abbrev RunnerOp.Answer : RunnerOp → Type
  | beginAttempt _ | rootIntent _ | consumedAttempts _ _ => Bool
  | finishAttempt _ | recordStage .. | recordEvent .. | verifyRootCreation .. | verifyStageTopic ..
  | awaitVerified .. =>
    Unit
  | rootNonce _ => UInt64
  | execute _ => String
  | signPersonalDigest _ => Bytes
  | dispatchFee .. | processEvents _ => Nat
  | evidenceForwarded _ | hyperlaneDispatched _ | transitionRecorded _ => List Bytes32
  | collectDelivery .. => GoBytes
  | readPacket .. => Packet
  | hyperlanePlan .. => ProcessPlan
  | deliveryTargets _ => DeliveryTargets
  | expiration .. => Int
  | effectApplied _ => List (Bytes32 × Bytes32 × UInt64)

abbrev RunnerProg := Prog RunnerOp (fun op => Except GoError op.Answer) GoError

abbrev RunnerOp.ask (op : RunnerOp) : RunnerProg op.Answer := Prog.call op

abbrev RunnerProg.check (c : Prop) [Decidable c] (text : String) : RunnerProg Unit :=
  Prog.ofExcept (revertIf c (.errorf text))

/-- The encoders of `layerzero.Plan`, under the worker's key. -/
class DeliveryEncoders where
  encodeDVNExecute : Packet → DeliveryTargets → Int → Except GoError GoBytes
  encodeCommitVerification : Packet → Except GoError GoBytes
  encodeExecutorSubmission : Packet → Except GoError GoBytes

structure CampaignRunner where
  deployment : Deployment
  options : Bytes
  embeddedAgents : Bool
  faultAfterStage : String
  policyLabel : String
  gateway : Nat → Address
  receiver : Nat → Address
  transitionRecorder : Nat → Address
  applicationPayload : CampaignAttempt → Except GoError Bytes

namespace CampaignRunner

/-! ## Stages -/

def StageRootCreate : String := "root_create"

def StageDestinationDelivery : String := "destination_verify_deliver"

def transitionStage (hopIndex : Nat) : String := "hop_" ++ toString hopIndex ++ "_xir_transition"

def dispatchStage (hopIndex : Nat) (protocol : Protocol) : String :=
  "hop_" ++ toString hopIndex ++ "_" ++ String.singleton protocol.letter.toLower ++ "_dispatch"

def hyperlaneProcessStage (hopIndex : Nat) : String := "hop_" ++ toString hopIndex ++ "_hyperlane_process"

def layerZeroStage (hopIndex : Nat) (stage : String) : String := "hop_" ++ toString hopIndex ++ "_layerzero_" ++ stage

/-- `layerzero.Plan`. -/
def deliveryPlan [DeliveryEncoders] (packet : Packet) (targets : DeliveryTargets) (expiration : Int) :
    Except GoError (List DeliveryAction) := do
  let dvnExecute ← DeliveryEncoders.encodeDVNExecute packet targets expiration
  let commitVerification ← DeliveryEncoders.encodeCommitVerification packet
  let executorExecute ← DeliveryEncoders.encodeExecutorSubmission packet
  return [⟨"dvn_execute", targets.dvn, dvnExecute, "PayloadVerified"⟩,
    ⟨"commit_verification", targets.receiveULN, commitVerification, "PacketVerified"⟩,
    ⟨"executor_execute", targets.executor, executorExecute, "PacketDelivered"⟩]

variable [Keccak] [DeliveryEncoders] (r : CampaignRunner)

def fault (stage : String) : RunnerProg Unit :=
  .check (r.faultAfterStage ≠ "" ∧ r.faultAfterStage = stage) ("runner: injected fault after stage " ++ stage)

/-! ## The root -/

/-- The root of an attempt: the variables that `createRoot` returns. -/
structure Root where
  record : Record
  context : VerifiedContext
  rid : Bytes32
  signature : Bytes

def createRoot (attempt : CampaignAttempt) (payload : Bytes) : RunnerProg Root := do
  let D := r.deployment
  let gatewayID ← Prog.ofExcept (gatewayTypedID (D.specs 0).chainID)
  let sourceApp ← Prog.ofExcept (newEVMID D.runner.val)
  let destinationApp ← Prog.ofExcept (newEVMID (r.receiver attempt.route.length).val)
  let nonce ← RunnerOp.ask (.rootNonce attempt)
  let record : Record := ⟨gatewayID, sourceApp, destinationApp, nonce, keccak256 payload⟩
  let context : VerifiedContext := ⟨1, keccak256 (ascii r.policyLabel)⟩
  let rid ← Prog.ofExcept (rootID record context RegistryVersion)
  let frozen ← RunnerOp.ask (.rootIntent attempt.attemptID)
  let transactionHash ← RunnerOp.ask (.execute {
    attemptID := attempt.attemptID
    stage := StageRootCreate
    chainRole := 0
    target := r.gateway 0
    call := .createRecord record.destinationApp payload context RegistryVersion
    value := 0
    recordNonce := if frozen then some nonce else none })
  RunnerOp.ask (.verifyRootCreation attempt record context rid transactionHash)
  RunnerOp.ask (.recordStage attempt.attemptID StageRootCreate transactionHash)
  r.fault StageRootCreate
  let signature ← RunnerOp.ask (.signPersonalDigest rid)
  RunnerOp.ask (.recordEvent attempt.attemptID "root_certificate_ready" "ready" "root_signer" 0 0 transactionHash)
  return ⟨record, context, rid, signature⟩

/-! ## Carriers -/

/-- `send` of a contract that is bound on a chain. -/
def send (attemptID stage : String) (role : Nat) (target : Address) (call : RunnerCall) (value : Nat) :
    RunnerProg String :=
  RunnerOp.ask (.execute ⟨attemptID, stage, role, target, call, value, none⟩)

/-- What a carrier keeps of its dispatch for the delivery. -/
inductive CarrierDelivery
  | hyperlane (message : GoBytes)
  | layerZero (packet : Packet)

structure DispatchResult where
  evidence : Bytes32
  stage : String
  transaction : String
  delivery : CarrierDelivery

/-- `Dispatch` of the carrier of a hop. -/
def dispatch (attempt : CampaignAttempt) (request : HopRequest) : RunnerProg DispatchResult := do
  let D := r.deployment
  let stage := dispatchStage request.hopIndex request.protocol
  let fee ← RunnerOp.ask (.dispatchFee attempt.attemptID request)
  let transaction ← send attempt.attemptID stage request.sourceRole
    (D.manifest attempt.route request.hopIndex .outbound) (.dispatch (GoRunner.dispatchCall r.options request)) fee
  match request.protocol with
  | .H =>
    let events ← RunnerOp.ask (.hyperlaneDispatched transaction)
    .check (events.length ≠ 1) ("runner: hop " ++ toString request.hopIndex ++ " dispatch emitted " ++
      toString events.length ++ " HyperlaneDispatched events")
    let message ← RunnerOp.ask (.collectDelivery request transaction)
    return ⟨D.evidenceFor attempt.route request 0, stage, transaction, .hyperlane message⟩
  | .L =>
    let events ← RunnerOp.ask (.evidenceForwarded transaction)
    .check (events.length ≠ 1) ("runner: hop " ++ toString request.hopIndex ++ " dispatch emitted " ++
      toString events.length ++ " VerifiedEvidenceForwarded events")
    let packet ← RunnerOp.ask (.readPacket request transaction)
    return ⟨D.evidenceFor attempt.route request (events.headD 0), stage, transaction, .layerZero packet⟩

/-- `hyperlaneCarrier.deliver`. -/
def deliverHyperlane (attempt : CampaignAttempt) (request : HopRequest) (message : GoBytes) : RunnerProg Unit := do
  let plan ← RunnerOp.ask (.hyperlanePlan request message)
  let stage := hyperlaneProcessStage request.hopIndex
  let transaction ← send attempt.attemptID stage request.destinationRole plan.mailbox (.process plan.callData) 0
  let events ← RunnerOp.ask (.processEvents transaction)
  .check (events ≠ 1) ("runner: hop " ++ toString request.hopIndex ++ " process emitted " ++ toString events ++
    " Process events")
  RunnerOp.ask (.recordEvent attempt.attemptID stage "succeeded" "embedded-relayer" request.destinationRole
    request.hopIndex transaction)

/-- The loop of `layerZeroCarrier.deliver`. -/
def deliverActions (attempt : CampaignAttempt) (request : HopRequest) : List DeliveryAction → RunnerProg Unit
  | [] => pure ()
  | action :: actions => do
    let stage := layerZeroStage request.hopIndex action.stage
    let transaction ← send attempt.attemptID stage request.destinationRole action.target (.worker action.callData) 0
    r.fault stage
    RunnerOp.ask (.verifyStageTopic transaction action.expectedTopic action.stage)
    RunnerOp.ask (.recordEvent attempt.attemptID stage "succeeded" "embedded-worker" request.destinationRole
      request.hopIndex transaction)
    deliverActions attempt request actions

/-- `layerZeroCarrier.deliver`. -/
def deliverLayerZero (attempt : CampaignAttempt) (request : HopRequest) (packet : Packet) : RunnerProg Unit := do
  let targets ← RunnerOp.ask (.deliveryTargets request.destinationRole)
  let expiration ← RunnerOp.ask (.expiration attempt.attemptID (layerZeroStage request.hopIndex "dvn_execute"))
  let actions ← Prog.ofExcept ((deliveryPlan packet targets expiration).mapError
    (.wrap "runner: layerzero delivery plan: "))
  r.deliverActions attempt request actions

/-- `Confirm` of the carrier of a hop. -/
def confirm (attempt : CampaignAttempt) (request : HopRequest) (dispatched : DispatchResult) : RunnerProg Unit := do
  match request.protocol, dispatched.delivery with
  | .H, .hyperlane message =>
    if r.embeddedAgents then deliverHyperlane attempt request message
  | .L, .layerZero packet =>
    if r.embeddedAgents then r.deliverLayerZero attempt request packet
  | .H, .layerZero _ => Prog.ofExcept (.error (.errorf "runner: hyperlane dispatch result is missing delivery data"))
  | .L, .hyperlane _ => Prog.ofExcept (.error (.errorf "runner: layerzero dispatch result is missing delivery data"))
  RunnerOp.ask (.awaitVerified attempt.attemptID request dispatched.evidence)

/-! ## Hops -/

/-- The envelope of a root with receipts. -/
def envelope (root : Root) (receipts : List Receipt) : Envelope :=
  ⟨root.record, root.context, ⟨RegistryVersion, root.signature⟩, receipts⟩

def recordTransition (attempt : CampaignAttempt) (payload : Bytes) (root : Root) (receipts : List Receipt)
    (hopIndex : Nat) : RunnerProg Unit := do
  let nextProfile ← Prog.ofExcept (profileHash attempt.route (hopIndex + 1))
  let stage := transitionStage (hopIndex + 1)
  let transaction ← send attempt.attemptID stage hopIndex (r.transitionRecorder hopIndex)
    (.record payload (envelope root receipts) hopIndex nextProfile) 0
  r.fault stage
  let events ← RunnerOp.ask (.transitionRecorded transaction)
  .check (events.length ≠ 1) ("runner: switch at hop " ++ toString hopIndex ++ " emitted " ++ toString events.length ++
    " transition events")
  .check (events.headD 0 ≠ nextProfile) "runner: recorded transition does not carry the outbound profile"

/-- A turn of the loop of `walkHops`, at an index of the route. -/
def walkHop (attempt : CampaignAttempt) (payload : Bytes) (root : Root) (index : Nat) (protocol : Protocol)
    (w : WalkState) : RunnerProg WalkState := do
  let hop ← Prog.ofExcept (r.deployment.startHop attempt.route root.record root.context w.receipts index)
  let request := { hop.request with protocol := protocol }
  let dispatched ← r.dispatch attempt request
  RunnerOp.ask (.recordStage attempt.attemptID dispatched.stage dispatched.transaction)
  r.fault dispatched.stage
  r.confirm attempt request dispatched
  let w ← Prog.ofExcept (Deployment.finishHop hop dispatched.evidence w)
  if index + 1 < attempt.route.length ∧ attempt.route[index + 1]? ≠ some protocol then
    r.recordTransition attempt payload root w.receipts (index + 1)
  return w

/-- The loop of `walkHops`, over what is left of the route. -/
def walkHops (attempt : CampaignAttempt) (payload : Bytes) (root : Root) (index : Nat) :
    Route → WalkState → RunnerProg (List Receipt)
  | [], w => pure w.receipts
  | protocol :: route, w => do
    let w ← r.walkHop attempt payload root index protocol w
    walkHops attempt payload root (index + 1) route w

def deliver (attempt : CampaignAttempt) (payload : Bytes) (root : Root) (receipts : List Receipt) :
    RunnerProg Unit := do
  let role := attempt.route.length
  let transaction ← send attempt.attemptID StageDestinationDelivery role (r.gateway role)
    (.deliver (envelope root receipts) payload (r.receiver role)) 0
  r.fault StageDestinationDelivery
  let events ← RunnerOp.ask (.effectApplied transaction)
  .check (events.length ≠ 1) ("runner: delivery emitted " ++ toString events.length ++ " effect events")
  let effect := events.headD (0, 0, 0)
  let attemptKey := keccak256 (ascii attempt.attemptID)
  .check (effect.1 ≠ attemptKey) "runner: effect attempt id differs from the attempt"
  let rid ← Prog.ofExcept (rootID root.record root.context RegistryVersion)
  let expectedMid ← Prog.ofExcept (messageID rid root.record.destinationApp)
  .check (effect.2.1 ≠ expectedMid) "runner: effect message id differs from the derived mid"
  .check (effect.2.2 ≠ attempt.routeSequence) "runner: effect route sequence differs from the attempt"
  let consumed ← RunnerOp.ask (.consumedAttempts role attemptKey)
  .check (consumed = false) "runner: destination effect is not visible"
  RunnerOp.ask (.recordEvent attempt.attemptID "destination_effect_observation" "observed" "coordinator_read" role
    attempt.route.length transaction)

/-- One attempt. -/
def runAttempt (attempt : CampaignAttempt) : RunnerProg Unit := do
  Prog.ofExcept (GoRunner.checkAttempt attempt.toAttempt)
  let first ← RunnerOp.ask (.beginAttempt attempt)
  if first then
    let payload ← Prog.ofExcept (r.applicationPayload attempt)
    let root ← r.createRoot attempt payload
    let receipts ← r.walkHops attempt payload root 0 attempt.route ⟨[], rootPrefix root.rid⟩
    r.deliver attempt payload root receipts
    RunnerOp.ask (.finishAttempt attempt.attemptID)
    RunnerOp.ask (.recordEvent attempt.attemptID StageDestinationDelivery "completed" "coordinator" attempt.route.length
      attempt.route.length "")

end CampaignRunner

/-! ## The ledger -/

/-- The identity of an action. -/
structure RecordedAction where
  actionID : String
  attemptID : String
  stage : String

structure RecordedAttempt where
  attempt : CampaignAttempt
  succeeded : Bool

/-- The columns that `BeginAttempt` compares. -/
def CampaignAttempt.SamePlan (a b : CampaignAttempt) : Prop :=
  a.phase = b.phase ∧ a.route = b.route ∧ a.switchCount = b.switchCount ∧ a.routeSequence = b.routeSequence

/-- The attempts and the actions of the ledger, in the order in which they were recorded. -/
structure RunnerLedger where
  attempts : List RecordedAttempt
  actions : List RecordedAction

namespace RunnerLedger

def empty : RunnerLedger := ⟨[], []⟩

variable (s : RunnerLedger)

/-- The row of a request, unless there is one of its action. -/
def record (request : RunnerRequest) : RunnerLedger :=
  if ∃ a ∈ s.actions, a.actionID = request.actionID then s
  else { s with actions := s.actions ++ [⟨request.actionID, request.attemptID, request.stage⟩] }

def finish (attemptID : String) : RunnerLedger :=
  { s with attempts := s.attempts.map fun r =>
      if r.attempt.attemptID = attemptID then { r with succeeded := true } else r }

/-- The stages of the actions of an attempt. -/
def stages (attemptID : String) : List String :=
  (s.actions.filter fun a => a.attemptID = attemptID).map RecordedAction.stage

end RunnerLedger

/-- The operations that change the attempts or the actions. -/
def RunnerOp.Writes : RunnerOp → Prop
  | beginAttempt _ | finishAttempt _ | execute _ => True
  | _ => False

/-- What an operation that succeeds does. -/
inductive RunnerEffect (s : RunnerLedger) : (op : RunnerOp) → op.Answer → RunnerLedger → Prop
  | beginNew {attempt : CampaignAttempt} : (∀ r ∈ s.attempts, r.attempt.attemptID ≠ attempt.attemptID) →
    RunnerEffect s (.beginAttempt attempt) true { s with attempts := s.attempts ++ [⟨attempt, false⟩] }
  | beginAgain {attempt : CampaignAttempt} {r : RecordedAttempt} : r ∈ s.attempts →
    r.attempt.attemptID = attempt.attemptID → r.attempt.SamePlan attempt →
    RunnerEffect s (.beginAttempt attempt) (!r.succeeded) s
  | finish {attemptID : String} : RunnerEffect s (.finishAttempt attemptID) () (s.finish attemptID)
  | execute {request : RunnerRequest} (transactionHash : String) :
    RunnerEffect s (.execute request) transactionHash (s.record request)
  | other {op : RunnerOp} (answer : op.Answer) : ¬ op.Writes → RunnerEffect s op answer s

/-- An operation succeeds, or fails before or after it has done what it does. -/
inductive RunnerStep : (op : RunnerOp) → RunnerLedger → Except GoError op.Answer → RunnerLedger → Prop
  | answer {op : RunnerOp} {s t : RunnerLedger} {v : op.Answer} : RunnerEffect s op v t → RunnerStep op s (.ok v) t
  | fail {op : RunnerOp} {s : RunnerLedger} (e : GoError) : RunnerStep op s (.error e) s
  | failAfter {op : RunnerOp} {s t : RunnerLedger} {v : op.Answer} (e : GoError) : RunnerEffect s op v t →
    RunnerStep op s (.error e) t

end Xir.Impl
