import Xir.Framework.Dict
import Xir.Impl.XirLab.LayerZeroWorker
import Xir.Impl.XirLab.MultihopScalability
import Xir.Impl.XirLab.XirTrace

/-!
# `src/xir_lab/native/multihop_runner.py`

The tables of the runner's state, and `run_attempt` with what it calls, as
programs over calls of the tables, of the nodes, of the private files and of the
root signer, each of which may raise. A statement is committed when it is made.
The details of a stage are a record of what the runner reads in them again; the
events, the history of the stages and the times are left out.
-/

namespace Xir.Impl.XirLab

open Strings XirTrace
open XIREncoding (ascii)

/-- What `_persist_receipt` adds to a detail. -/
structure PersistedReceipt where
  path : String
  gasUsed : Nat
  blockNumber : Nat
  calldataBytes : Nat

/-- `detail_json` of a stage. -/
structure StageDetail where
  role : Nat
  nonce : Nat
  target : String
  calldataSHA256 : String
  rawSHA256 : Option String
  recordNonce : Option Int
  evidence : Option Bytes
  nativeMessageID : Option String
  receipt : Option PersistedReceipt

inductive NativeStageState
  | intended
  | signed
  | succeeded
  | failed
  deriving DecidableEq

structure NativeStageRow where
  attemptID : String
  stage : String
  state : NativeStageState
  transactionHash : Option String
  detail : StageDetail

/-- The primary key of `stages`. -/
def NativeStageRow.key (r : NativeStageRow) : String × String := (r.attemptID, r.stage)

structure DurableSignedRow where
  attemptID : String
  stage : String
  transactionHash : String
  rawTransaction : GoBytes
  rawSHA256 : String

structure NativeAttemptRow where
  attempt : MultihopAttempt
  succeeded : Bool

structure MultihopTables where
  attempts : List NativeAttemptRow
  stages : List NativeStageRow
  signed : List DurableSignedRow

namespace MultihopTables

def empty : MultihopTables := ⟨[], [], []⟩

variable (s : MultihopTables)

def attempt (attemptID : String) : Option NativeAttemptRow := s.attempts.find? fun r => r.attempt.attemptID = attemptID

/-- `begin`: whether the attempt has still to be run. -/
def begin (attempt : MultihopAttempt) : Except NativeError (MultihopTables × Bool) :=
  match s.attempt attempt.attemptID with
  | some row =>
    if row.attempt = attempt then .ok (s, !row.succeeded)
    else .error (.localTopologyError "durable multihop attempt coordinates differ from the frozen plan")
  | none => .ok ({ s with attempts := s.attempts ++ [⟨attempt, false⟩] }, true)

def finish (attemptID : String) : MultihopTables :=
  { s with attempts := s.attempts.map fun r =>
      if r.attempt.attemptID = attemptID then { r with succeeded := true } else r }

def stage (attemptID stage : String) : Option NativeStageRow := Dict.get NativeStageRow.key s.stages (attemptID, stage)

def durableSignedTransaction (attemptID stage : String) : Option DurableSignedRow :=
  s.signed.find? fun r => r.attemptID = attemptID ∧ r.stage = stage

def recordStage (row : NativeStageRow) : MultihopTables := { s with stages := Dict.put NativeStageRow.key row s.stages }

/-- `record_durable_signed_stage`. -/
def recordDurableSignedStage (row : DurableSignedRow) (detail : StageDetail) : Except NativeError MultihopTables := do
  revertIf (∃ r ∈ s.signed, (r.attemptID = row.attemptID ∧ r.stage = row.stage) ∨
    r.transactionHash = row.transactionHash)
    .sqliteError
  return { s with
    signed := s.signed ++ [row] }.recordStage ⟨row.attemptID, row.stage, .signed, some row.transactionHash, detail⟩

end MultihopTables

/-! ## Calls -/

/-- A request of an adapter. -/
structure AdapterRequest where
  verifiers : List String
  profiles : List Bytes
  evidenceHashes : List Bytes
  transitions : List Bytes
  currentProfile : Bytes
  currentTransition : Bytes

structure PyEnvelope where
  record : XIRRecord
  context : XIRContext
  signature : Bytes
  receipts : List XIRReceipt

/-- A function of a contract, with its arguments. -/
inductive MultihopFunction
  | createRecord (destinationApp : XirTrace.TypedId) (payload : Bytes) (context : XIRContext) (registryVersion : Nat)
  | sendSource (request : AdapterRequest)
  | forwardInFlight (request : AdapterRequest)
  | sendSourceBundle (request : AdapterRequest)
  | forwardInFlightBundle (request : AdapterRequest)
  | record (payload : Bytes) (envelope : PyEnvelope) (hopIndex : Nat) (outboundProfile : Bytes)
  | deliver (envelope : PyEnvelope) (payload : Bytes) (receiver : String)

/-- The dictionary that `build_transaction` returns. -/
structure BuiltTransaction where
  value : Nat
  chainID : Nat
  nonce : Nat
  maxFeePerGas : Nat
  target : String
  data : GoBytes

structure NativeLog where
  address : String
  topics : List String

structure NativeReceipt where
  status : Nat
  gasUsed : Nat
  blockNumber : Nat
  logs : List NativeLog

/-- What a node says to a raw transaction: it takes it, or raises `ValueError` or `Web3RPCError`. -/
inductive SendReply
  | accepted
  | refused (text : String) (transient : Bool)

inductive MultihopOp
  | begin (attempt : MultihopAttempt)
  | finish (attemptID : String)
  | stage (attemptID stage : String)
  | durableSignedTransaction (attemptID stage : String)
  | recordStage (row : NativeStageRow)
  | recordDurableSignedStage (row : DurableSignedRow) (detail : StageDetail)
  | recordEvent (attemptID stage event source : String)
  /-- `self.nonces[role]`, taken and advanced under the lock of the role. -/
  | reserveNonce (role : Nat)
  /-- `_reserve_root_nonces`. -/
  | reserveRootNonces
  | gasPrice (role : Nat)
  | writePrivateRawDurably (path : String) (raw : GoBytes)
  | sendRawTransaction (role : Nat) (raw : GoBytes)
  | waitForTransactionReceipt (role : Nat) (transactionHash : String)
  /-- Writes the receipt, whose path is returned. -/
  | writeReceipt (transactionHash : String) (receipt : NativeReceipt)
  /-- The input of a transaction. -/
  | getTransaction (role : Nat) (transactionHash : String)
  /-- The logs of a receipt that was written. -/
  | readReceipt (path : String)
  /-- `quoteForward` and `quoteBundle`. -/
  | quote (role : Nat) (adapter : String) (request : AdapterRequest)
  | waitBundle (attemptID : String) (hopIndex : Nat) (protocol : Char) (receipts : List XIRReceipt)
  | signRoot (transactionHash : String) (record : XIRRecord) (context : XIRContext) (registryVersion : Nat)
  | consumedAttempts (role : Nat) (attemptKey : Bytes)

abbrev MultihopOp.Answer : MultihopOp → Type
  | begin _ | consumedAttempts .. => Bool
  | stage .. => Option NativeStageRow
  | durableSignedTransaction .. => Option DurableSignedRow
  | finish _ | recordStage _ | recordDurableSignedStage .. | recordEvent .. | writePrivateRawDurably ..
  | waitBundle .. =>
    Unit
  | reserveNonce _ | gasPrice _ | quote .. => Nat
  | reserveRootNonces => Int × Nat
  | sendRawTransaction .. => SendReply
  | waitForTransactionReceipt .. => NativeReceipt
  | writeReceipt .. => String
  | getTransaction .. => GoBytes
  | readReceipt _ => List NativeLog
  | signRoot .. => Bytes

abbrev MultihopProg := Prog MultihopOp (fun op => Except NativeError op.Answer) NativeError

abbrev MultihopOp.call (op : MultihopOp) : MultihopProg op.Answer := Prog.call op

abbrev MultihopProg.raiseIf (c : Prop) [Decidable c] (text : String) : MultihopProg Unit :=
  Prog.ofExcept (revertIf c (.localTopologyError text))

/-- What the runner uses of `eth_abi`, `eth_account`, `hashlib` and `web3`. -/
class MultihopLibraries [Digests] where
  /-- The address and the data of a call. -/
  encodeFunction (contract : String) (function : MultihopFunction) : GoBytes
  /-- `account.sign_transaction`: the raw transaction and the hash. -/
  signTransaction (transaction : BuiltTransaction) : GoBytes × String
  /-- `TypedTransaction.from_bytes(raw).as_dict()`. -/
  fromBytes (raw : GoBytes) : Except String TypedTransaction
  /-- `Account.recover_transaction`. -/
  recoverTransaction (raw : GoBytes) : Except String String
  /-- The evidence of a Hyperlane hop, of the sender and the request. -/
  bundleEvidence (domain : Nat) (sender : String) (request : AdapterRequest) : Bytes
  dispatchedTopic : String
  forwardedTopic : String
  effectTopic : String
  /-- `bytes.fromhex` of a topic. -/
  topicBytes (topic : String) : Except NativeError Bytes
  /-- `int(topic, 16)`. -/
  topicNumber (topic : String) : Except NativeError Nat

structure MultihopRunner where
  account : String
  chainID : Nat → Nat
  hyperlaneDomain : Nat → Nat
  /-- `self.contracts[role][manifest_role]`. -/
  contract : Nat → String → Except NativeError String
  signedRoot : String
  /-- `_application_payload`. -/
  applicationPayload : MultihopAttempt → Except NativeError Bytes
  /-- `bytes.fromhex` of an address without its first two characters. -/
  addressBytes : String → Bytes

def REGISTRY_VERSION : Nat := 1

/-- `_canonical_transaction_hash`. -/
def canonicalTransactionHash [Unicode] (value : String) : String := "0x" ++ trimPrefix (toLower value) "0x"

/-- `CHAIN_ROLES[index]`, as its index. -/
def chainRole (index : Nat) : Except NativeError Nat := if index < 5 then .ok index else .error .indexError

/-- `adapter_key`. -/
def adapterKey [Unicode] (route : PyRoute) (hopIndex : Nat) (direction : String) : Except NativeError String := do
  revertIf (route ∉ ROUTE_ORDER ∨ ¬ (1 ≤ hopIndex ∧ hopIndex ≤ route.length))
    (.localTopologyError "multihop adapter coordinates are invalid")
  return "route_" ++ toLower (String.ofList route) ++ "_hop_" ++ toString hopIndex ++ "_" ++ direction

/-- `multihop_profile_hash`. -/
def multihopProfileHash [Keccak] (route : PyRoute) (hopIndex : Nat) : Except NativeError Bytes := do
  revertIf (route ∉ ROUTE_ORDER ∨ hopIndex < 1 ∨ hopIndex > route.length)
    (.localTopologyError "multihop profile coordinates are invalid")
  return keccak (ascii ("XIR_NATIVE_MULTIHOP_PROFILE_V1:" ++ String.ofList route ++ ":" ++ toString hopIndex ++ ":" ++
    String.ofList [route.getD (hopIndex - 1) 'H']))

/-- `multihop_gateway_typed_id`. -/
def multihopGatewayTypedId [Keccak] (chainID : Nat) : XirTrace.TypedId :=
  (1, (keccak (ascii ("XIR_NATIVE_MULTIHOP_GATEWAY_ID_V1:" ++ toString chainID))).drop 12)

def NativeError.ofPy : PyError → NativeError
  | .valueError text | .overflowError text => other text

namespace MultihopRunner

open MultihopScalability

variable [Unicode] [Digests] [Keccak] [MultihopLibraries] (m : MultihopRunner)

/-- `_validate_durable_raw`. -/
def validateDurableRaw (raw : GoBytes) (transactionHash : String) (detail : StageDetail) (role : Nat) :
    Except NativeError Unit := do
  let decoded ← (MultihopLibraries.fromBytes raw).mapError .other
  let sender ← (MultihopLibraries.recoverTransaction raw).mapError .other
  revertIf (some (sha256Hex raw) ≠ detail.rawSHA256 ∨
      canonicalTransactionHash (encodeToString (Digests.keccak256 raw).toList) ≠
        canonicalTransactionHash transactionHash ∨
      toLower sender ≠ toLower m.account ∨ decoded.chainID ≠ m.chainID role ∨ decoded.nonce ≠ detail.nonce ∨
      toLower (hex0x decoded.target) ≠ toLower detail.target ∨ sha256Hex decoded.data ≠ detail.calldataSHA256)
    (.localTopologyError "multihop durable raw transaction identity drift")

/-- The texts after which a transaction counts as sent. -/
def KnownTransaction (text : String) : Prop :=
  ["already known", "known transaction", "nonce too low"].any (contains (toLower text)) = true

instance (text : String) : Decidable (KnownTransaction text) := inferInstanceAs (Decidable (_ = true))

/-- `_persist_receipt`. -/
def persistReceipt (transactionHash : String) (receipt : NativeReceipt) (detail : StageDetail) :
    MultihopProg StageDetail := do
  let path ← MultihopOp.call (.writeReceipt transactionHash receipt)
  let calldata ← MultihopOp.call (.getTransaction detail.role transactionHash)
  return { detail with
    receipt := some ⟨path, receipt.gasUsed, receipt.blockNumber, calldata.length⟩
    calldataSHA256 := sha256Hex calldata }

/-- `_transact`, for a stage with a signed transaction. -/
def resumeTransaction (row : NativeStageRow) (prior : String) (role : Nat) : MultihopProg StageDetail := do
  let priorHash := canonicalTransactionHash prior
  match ← MultihopOp.call (.durableSignedTransaction row.attemptID row.stage) with
  | none => Prog.ofExcept (.error (.localTopologyError "durable signed multihop transaction DB row is missing"))
  | some durable =>
    let raw := durable.rawTransaction
    .raiseIf (sha256Hex raw ≠ durable.rawSHA256) "durable signed multihop DB raw digest differs"
    MultihopOp.call (.writePrivateRawDurably (m.signedRoot ++ "/" ++ priorHash ++ ".raw") raw)
    Prog.ofExcept (m.validateDurableRaw raw priorHash row.detail role)
    match ← MultihopOp.call (.sendRawTransaction role raw) with
    | .refused text transient => Prog.ofExcept (revertIf (¬ KnownTransaction text) (.rpcError text transient))
    | .accepted => pure ()
    let receipt ← MultihopOp.call (.waitForTransactionReceipt role priorHash)
    .raiseIf (receipt.status ≠ 1) ("durable multihop transaction reverted: " ++ row.stage)
    let result ← persistReceipt priorHash receipt row.detail
    MultihopOp.call (.recordStage ⟨row.attemptID, row.stage, .succeeded, some priorHash, result⟩)
    return result

/-- The nonce of a new transaction. -/
def transactionNonce (role : Nat) : Option Nat → MultihopProg Nat
  | none => MultihopOp.call (.reserveNonce role)
  | some nonce => pure nonce

/-- `_transact`, for a stage without a transaction. -/
def newTransaction (attemptID stage : String) (role : Nat) (contract : String) (function : MultihopFunction)
    (value : Nat) (recordNonce : Option Int) (evidence : Option Bytes) (preallocatedNonce : Option Nat) :
    MultihopProg StageDetail := do
  let nonce ← transactionNonce role preallocatedNonce
  let gasPrice ← MultihopOp.call (.gasPrice role)
  let built : BuiltTransaction :=
    ⟨value, m.chainID role, nonce, max (gasPrice * 2) 1, contract, MultihopLibraries.encodeFunction contract function⟩
  let intended : StageDetail :=
    ⟨role, nonce, toLower contract, sha256Hex built.data, none, recordNonce, evidence, none, none⟩
  let (raw, hash) := MultihopLibraries.signTransaction built
  let transactionHash := canonicalTransactionHash hash
  let signed := { intended with rawSHA256 := some (sha256Hex raw) }
  Prog.ofExcept (m.validateDurableRaw raw transactionHash signed role)
  MultihopOp.call (.recordDurableSignedStage ⟨attemptID, stage, transactionHash, raw, sha256Hex raw⟩ signed)
  MultihopOp.call (.writePrivateRawDurably (m.signedRoot ++ "/" ++ transactionHash ++ ".raw") raw)
  match ← MultihopOp.call (.sendRawTransaction role raw) with
  | .refused text transient => Prog.ofExcept (.error (.rpcError text transient))
  | .accepted => pure ()
  let receipt ← MultihopOp.call (.waitForTransactionReceipt role transactionHash)
  let result ← persistReceipt transactionHash receipt signed
  if receipt.status ≠ 1 then
    MultihopOp.call (.recordStage ⟨attemptID, stage, .failed, some transactionHash, result⟩)
    Prog.ofExcept (.error (.localTopologyError ("multihop transaction reverted: " ++ stage)))
  else
    MultihopOp.call (.recordStage ⟨attemptID, stage, .succeeded, some transactionHash, result⟩)
    return result

def transact (attemptID stage : String) (role : Nat) (contract : String) (function : MultihopFunction) (value : Nat)
    (recordNonce : Option Int) (evidence : Option Bytes) (preallocatedNonce : Option Nat) :
    MultihopProg StageDetail := do
  let new := m.newTransaction attemptID stage role contract function value recordNonce evidence preallocatedNonce
  match ← MultihopOp.call (.stage attemptID stage) with
  | none => new
  | some row =>
    if row.state = .succeeded then return row.detail
    else match row.transactionHash with
      | some prior => m.resumeTransaction row prior role
      | none =>
        if row.state = .intended then
          Prog.ofExcept (.error (.localTopologyError
            "durable intended multihop stage lacks immutable signed transaction"))
        else new

/-- What `_root` returns. -/
structure PyRoot where
  record : XIRRecord
  context : XIRContext
  rid : Bytes
  signature : Bytes

/-- The nonce of the record, and the one of the transaction if it is taken with it. -/
def rootNonces (attemptID : String) : MultihopProg (Int × Option Nat) := do
  match ← MultihopOp.call (.stage attemptID "root_create") with
  | none => do
    let (gatewayNonce, transactionNonce) ← MultihopOp.call .reserveRootNonces
    return (gatewayNonce, some transactionNonce)
  | some row => do
    let gatewayNonce ← Prog.ofExcept (orRevert .keyError row.detail.recordNonce)
    return (gatewayNonce, none)

def root (attempt : MultihopAttempt) (payload : Bytes) (receiverAddress : String) : MultihopProg PyRoot := do
  let (gatewayNonce, transactionNonce) ← rootNonces attempt.attemptID
  let record : XIRRecord := ⟨multihopGatewayTypedId (m.chainID 0), (1, m.addressBytes m.account),
    (1, m.addressBytes receiverAddress), gatewayNonce, keccak payload⟩
  let context : XIRContext := ⟨1, keccak (ascii "XIR_NATIVE_MULTIHOP_POLICY_V1")⟩
  let rid ← Prog.ofExcept ((rootId record context REGISTRY_VERSION).mapError .ofPy)
  let gateway ← Prog.ofExcept (m.contract 0 "gateway")
  let _ ← m.transact attempt.attemptID "root_create" 0 gateway
    (.createRecord record.destinationApp payload context REGISTRY_VERSION) 0 (some record.nonce) none transactionNonce
  match ← MultihopOp.call (.stage attempt.attemptID "root_create") with
  | some ⟨_, _, _, some transactionHash, _⟩ => do
    let signature ← MultihopOp.call (.signRoot transactionHash record context REGISTRY_VERSION)
    MultihopOp.call (.recordEvent attempt.attemptID "root_certificate_ready" "ready" "root_signer")
    return ⟨record, context, rid, signature⟩
  | _ => Prog.ofExcept (.error (.localTopologyError "multihop root transaction evidence is missing"))

/-- The second topic of the first log with a topic. -/
def topicOf (logs : List NativeLog) (topic : String) : Option String :=
  (logs.find? fun log => toLower (log.topics.headD "") = toLower topic ∧ 2 ≤ log.topics.length ∧ log.topics ≠ []).bind
    fun log => log.topics[1]?

/-- `_hyperlane_message_id`. -/
def hyperlaneMessageID (result : StageDetail) : MultihopProg String := do
  let receipt ← Prog.ofExcept (orRevert .keyError result.receipt)
  let logs ← MultihopOp.call (.readReceipt receipt.path)
  let topic ← Prog.ofExcept (orRevert (.localTopologyError "Hyperlane multihop receipt lacks dispatched message ID")
    (topicOf logs MultihopLibraries.dispatchedTopic))
  return toLower topic

/-- `_layerzero_guid`. -/
def layerzeroGuid (result : StageDetail) : MultihopProg Bytes := do
  let receipt ← Prog.ofExcept (orRevert .keyError result.receipt)
  let logs ← MultihopOp.call (.readReceipt receipt.path)
  let topic ← Prog.ofExcept (orRevert (.localTopologyError "LayerZero multihop receipt lacks forwarded GUID")
    (topicOf logs MultihopLibraries.forwardedTopic))
  Prog.ofExcept (MultihopLibraries.topicBytes topic)

/-- The text of bytes, with `0x`. -/
def hexOf (data : Bytes) : String := hex0x (data.map UInt8.ofNat)

/-- `_dispatch_hop`, for a stage that has succeeded. -/
def completedDispatch (row : NativeStageRow) (protocol : Char) : MultihopProg Bytes := do
  if row.detail.nativeMessageID.isNone then
    let evidence ← Prog.ofExcept (orRevert .keyError row.detail.evidence)
    let messageID ← if protocol = 'L' then pure (hexOf evidence) else hyperlaneMessageID row.detail
    MultihopOp.call (.recordStage { row with
      state := .succeeded, detail := { row.detail with nativeMessageID := some messageID } })
  Prog.ofExcept (orRevert .keyError row.detail.evidence)

/-- The verifiers of a request, one for each receipt. -/
def verifiers (attempt : MultihopAttempt) (hopIndex sourceRole receipts : Nat) : Except NativeError (List String) := do
  if hopIndex = 1 then return []
  let verifier ← m.contract sourceRole (← adapterKey attempt.route (hopIndex - 1) "in")
  return List.replicate receipts verifier

/-- What is sent for a hop: the result, the evidence and the id of the message. -/
def sendDispatch (attempt : MultihopAttempt) (hopIndex : Nat) (protocol : Char) (sourceRole : Nat) (stage : String)
    (currentProfile currentTransition : Bytes) (priorReceipts : List XIRReceipt) :
    MultihopProg (StageDetail × Bytes × String) := do
  let adapterRole ← Prog.ofExcept (adapterKey attempt.route hopIndex "out")
  let verifiers ← Prog.ofExcept (m.verifiers attempt hopIndex sourceRole priorReceipts.length)
  let request : AdapterRequest := ⟨verifiers, priorReceipts.map XIRReceipt.profileHash,
    priorReceipts.map XIRReceipt.evidenceHash, priorReceipts.map XIRReceipt.transitionHash, currentProfile,
    currentTransition⟩
  let adapter ← Prog.ofExcept (m.contract sourceRole adapterRole)
  if protocol = 'L' then
    let fee ← MultihopOp.call (.quote sourceRole adapter request)
    let result ← m.transact attempt.attemptID stage sourceRole adapter
      (if hopIndex = 1 then .sendSource request else .forwardInFlight request) fee none none none
    let evidence ← layerzeroGuid result
    return (result, evidence, hexOf evidence)
  else if protocol = 'H' then
    let fee ← MultihopOp.call (.quote sourceRole adapter request)
    let evidence := MultihopLibraries.bundleEvidence (m.hyperlaneDomain sourceRole) adapter request
    let result ← m.transact attempt.attemptID stage sourceRole adapter
      (if hopIndex = 1 then .sendSourceBundle request else .forwardInFlightBundle request) fee none (some evidence) none
    let messageID ← hyperlaneMessageID result
    return (result, evidence, messageID)
  else Prog.ofExcept (.error (.localTopologyError ("unsupported multihop protocol: " ++ String.ofList [protocol])))

/-- `_dispatch_hop`, for a stage that has not succeeded. -/
def sendHop (attempt : MultihopAttempt) (hopIndex : Nat) (protocol : Char) (sourceRole : Nat) (stage : String)
    (currentProfile currentTransition : Bytes) (priorReceipts : List XIRReceipt) : MultihopProg Bytes := do
  let (result, evidence, messageID) ←
    m.sendDispatch attempt hopIndex protocol sourceRole stage currentProfile currentTransition priorReceipts
  let current ← MultihopOp.call (.stage attempt.attemptID stage)
  MultihopOp.call (.recordStage ⟨attempt.attemptID, stage, .succeeded, current.bind NativeStageRow.transactionHash,
    { result with evidence := some evidence, nativeMessageID := some messageID }⟩)
  return evidence

def dispatchHop (attempt : MultihopAttempt) (hopIndex : Nat) (protocol : Char) (sourceRole : Nat)
    (currentProfile currentTransition : Bytes) (priorReceipts : List XIRReceipt) : MultihopProg Bytes := do
  let stage := dispatchStage hopIndex protocol
  let send := m.sendHop attempt hopIndex protocol sourceRole stage currentProfile currentTransition priorReceipts
  match ← MultihopOp.call (.stage attempt.attemptID stage) with
  | some row => if row.state = .succeeded then completedDispatch row protocol else send
  | none => send

/-- The receipt of a hop. -/
def hopReceipt (hopIndex : Nat) (profile evidence transition tracePrefix : Bytes) : XIRReceipt :=
  ⟨multihopGatewayTypedId (m.chainID (hopIndex - 1)), multihopGatewayTypedId (m.chainID hopIndex), profile, evidence,
    transition, tracePrefix⟩

/-- A turn of the loop of `run_attempt`. -/
def hop (attempt : MultihopAttempt) (payload : Bytes) (root : PyRoot) (hopIndex : Nat) (protocol : Char)
    (receipts : List XIRReceipt) : MultihopProg (List XIRReceipt) := do
  let sourceRole ← Prog.ofExcept (chainRole (hopIndex - 1))
  let destinationRole ← Prog.ofExcept (chainRole hopIndex)
  let profile ← Prog.ofExcept (multihopProfileHash attempt.route hopIndex)
  let transition ← Prog.ofExcept ((XirTrace.transitionHash root.record root.context
    (multihopGatewayTypedId (m.chainID sourceRole))
      (multihopGatewayTypedId (m.chainID destinationRole))).mapError .ofPy)
  let evidence ← m.dispatchHop attempt hopIndex protocol sourceRole profile transition receipts
  MultihopOp.call (.waitBundle attempt.attemptID hopIndex protocol
    (receipts ++ [m.hopReceipt hopIndex profile evidence transition (List.replicate 32 0)]))
  let priorPrefix ← Prog.ofExcept (match receipts.getLast? with
    | none => .ok (rootPrefix root.rid)
    | some receipt => (nextPrefix receipt).mapError .ofPy)
  let receipts := receipts ++ [m.hopReceipt hopIndex profile evidence transition priorPrefix]
  if hopIndex < attempt.route.length ∧ attempt.route[hopIndex]? ≠ some protocol then
    let recorder ← Prog.ofExcept (m.contract destinationRole "transition_recorder")
    let nextProfile ← Prog.ofExcept (multihopProfileHash attempt.route (hopIndex + 1))
    let _ ← m.transact attempt.attemptID (transitionStage (hopIndex + 1)) destinationRole recorder
      (.record payload ⟨root.record, root.context, root.signature, receipts⟩ hopIndex nextProfile) 0 none none none
  return receipts

/-- The loop of `run_attempt`, over what is left of the route. -/
def hops (attempt : MultihopAttempt) (payload : Bytes) (root : PyRoot) (hopIndex : Nat) :
    PyRoute → List XIRReceipt → MultihopProg (List XIRReceipt)
  | [], receipts => pure receipts
  | protocol :: route, receipts => do
    let receipts ← m.hop attempt payload root hopIndex protocol receipts
    hops attempt payload root (hopIndex + 1) route receipts

/-- The delivery of an attempt, and the effect that its receipt has. -/
def deliver (attempt : MultihopAttempt) (payload : Bytes) (root : PyRoot) (receiverAddress : String)
    (receipts : List XIRReceipt) : MultihopProg Unit := do
  let role := attempt.route.length
  let gateway ← Prog.ofExcept (m.contract role "gateway")
  let delivery ← m.transact attempt.attemptID "destination_verify_deliver" role gateway
    (.deliver ⟨root.record, root.context, root.signature, receipts⟩ payload receiverAddress) 0 none none none
  let receiver ← Prog.ofExcept (m.contract role "receiver")
  let attemptKey := keccak (ascii attempt.attemptID)
  let consumed ← MultihopOp.call (.consumedAttempts role attemptKey)
  .raiseIf (consumed = false) "multihop destination effect is not visible"
  let expectedMid ← Prog.ofExcept ((messageId root.rid root.record.destinationApp).mapError .ofPy)
  let receipt ← Prog.ofExcept (orRevert .keyError delivery.receipt)
  let logs ← MultihopOp.call (.readReceipt receipt.path)
  let effects := logs.filter fun log =>
    toLower log.address = toLower receiver ∧ log.topics ≠ [] ∧
      toLower (log.topics.headD "") = toLower MultihopLibraries.effectTopic
  .raiseIf (effects.length ≠ 1) "multihop destination transaction lacks exactly one effect event"
  let topics := (effects.headD ⟨"", []⟩).topics
  .raiseIf (topics.length ≠ 4 ∨ toLower (topics.getD 1 "") ≠ hexOf attemptKey ∨
    toLower (topics.getD 2 "") ≠ hexOf expectedMid) "multihop destination effect event differs from attempt"
  let sequence ← Prog.ofExcept (MultihopLibraries.topicNumber (topics.getD 3 ""))
  .raiseIf (sequence ≠ attempt.routeSequence) "multihop destination effect event differs from attempt"
  match ← MultihopOp.call (.stage attempt.attemptID "destination_verify_deliver") with
  | some ⟨_, _, _, some _, _⟩ =>
    MultihopOp.call (.recordEvent attempt.attemptID "destination_effect_observation" "observed" "coordinator_read")
  | _ => Prog.ofExcept (.error (.localTopologyError "multihop destination stage evidence is missing"))

def runAttempt (attempt : MultihopAttempt) : MultihopProg Unit := do
  let payload ← Prog.ofExcept (m.applicationPayload attempt)
  let destinationRole ← Prog.ofExcept (chainRole attempt.route.length)
  let receiverAddress ← Prog.ofExcept (m.contract destinationRole "receiver")
  let root ← m.root attempt payload receiverAddress
  let receipts ← m.hops attempt payload root 1 attempt.route []
  m.deliver attempt payload root receiverAddress receipts

/-- A try of `_run_if_needed`, which the next try is another of. -/
def runIfNeeded (attempt : MultihopAttempt) : MultihopProg Unit := do
  let needed : Bool ← MultihopOp.call (.begin attempt)
  if needed then
    m.runAttempt attempt
    MultihopOp.call (.finish attempt.attemptID)

end MultihopRunner

/-! ## Steps -/

/-- The operations on the tables. -/
def MultihopOp.OnTables : MultihopOp → Prop
  | begin _ | finish _ | stage .. | durableSignedTransaction .. | recordStage _ | recordDurableSignedStage .. => True
  | _ => False

/-- What an operation that returns does to the tables. -/
inductive MultihopEffect (s : MultihopTables) : (op : MultihopOp) → op.Answer → MultihopTables → Prop
  | begin {attempt : MultihopAttempt} {t : MultihopTables} {needed : Bool} : s.begin attempt = .ok (t, needed) →
    MultihopEffect s (.begin attempt) needed t
  | finish {attemptID : String} : MultihopEffect s (.finish attemptID) () (s.finish attemptID)
  | stage {attemptID stage : String} : MultihopEffect s (.stage attemptID stage) (s.stage attemptID stage) s
  | durableSignedTransaction {attemptID stage : String} : MultihopEffect s (.durableSignedTransaction attemptID stage)
    (s.durableSignedTransaction attemptID stage) s
  | recordStage {row : NativeStageRow} : MultihopEffect s (.recordStage row) () (s.recordStage row)
  | recordDurableSignedStage {row : DurableSignedRow} {detail : StageDetail} {t : MultihopTables} :
    s.recordDurableSignedStage row detail = .ok t → MultihopEffect s (.recordDurableSignedStage row detail) () t
  | other {op : MultihopOp} (answer : op.Answer) : ¬ op.OnTables → MultihopEffect s op answer s

/-- An operation returns, or raises before or after it has done what it does. -/
inductive MultihopStep : (op : MultihopOp) → MultihopTables → Except NativeError op.Answer → MultihopTables → Prop
  | answer {op : MultihopOp} {s t : MultihopTables} {v : op.Answer} : MultihopEffect s op v t →
    MultihopStep op s (.ok v) t
  | raise {op : MultihopOp} {s : MultihopTables} (e : NativeError) : MultihopStep op s (.error e) s
  | raiseAfter {op : MultihopOp} {s t : MultihopTables} {v : op.Answer} (e : NativeError) : MultihopEffect s op v t →
    MultihopStep op s (.error e) t

end Xir.Impl.XirLab
