import Mathlib.Data.List.Sort
import Xir.Framework.Json
import Xir.Framework.Prog
import Xir.Framework.Table
import Xir.Impl.XirLab.LayerZero
import Xir.Impl.XirLab.Signer

/-!
# `src/xir_lab/native/layerzero_worker.py`

The tables of the worker, and its cycles `collect` and `process`, which are
programs over calls of the tables, of the nodes of the chains and of the
directory of receipts. Any of them may raise. A call of a node names the chain
by its `eid`, and a broadcast the action that it is made for. Block numbers,
nonces and identifiers of chains are natural numbers; the times and the process
of a row are left out, and a commit is one with the statements before it.
-/

namespace Xir.Impl.XirLab

open Strings

inductive WorkerStage
  | dvnExecute
  | commitVerification
  | executorExecute
  deriving DecidableEq

def WorkerStage.name : WorkerStage → String
  | dvnExecute => "dvn_execute"
  | commitVerification => "commit_verification"
  | executorExecute => "executor_execute"

def STAGES : List WorkerStage := [.dvnExecute, .commitVerification, .executorExecute]

structure WorkerChain where
  chainID : Nat
  eid : Nat
  endpoint : String
  receiveULN : String
  dvn : String
  executor : String
  startBlock : Nat

/-- The exceptions, of which `_submit_stage` catches two. -/
inductive WorkerError
  | valueError (text : String)
  | web3RPCError (text : String)
  | topology (error : LocalTopologyError)
  | other (text : String)

def WorkerError.ofCall : CallError → WorkerError
  | .topology error => topology error
  | .raised text => other text

/-! ## Tables -/

inductive PacketStatus
  | observed
  | delivered
  deriving DecidableEq

structure PacketRow where
  guid : String
  sourceEID : Nat
  destinationEID : Nat
  sourceBlock : Nat
  sourceTransactionHash : String
  sourceLogIndex : Nat
  encodedPacketHex : String
  packetSHA256 : String
  status : PacketStatus

inductive WorkerStatus
  | intended
  | signed
  | submitted
  | succeeded
  | failed
  deriving DecidableEq

/-- A row of `actions`. -/
structure WorkerAction where
  actionID : String
  guid : String
  stage : WorkerStage
  destinationChainID : Nat
  nonce : Nat
  target : String
  calldataBytes : Nat
  calldataHex : String
  calldataSHA256 : String
  rawTransactionHex : Option String
  transactionHash : Option String
  status : WorkerStatus

/-- A row of `observations`. -/
structure WorkerObservation where
  actionID : String
  state : WorkerStatus
  rawSHA256 : Option String
  details : List (String × Json)

/-- The cursors by their `source_eid`, and the rows of the other tables. -/
structure WorkerTables where
  cursors : Nat → Option Nat
  packets : List PacketRow
  actions : List WorkerAction
  observations : List WorkerObservation

/-- `"0x" + data.hex()`. -/
def hex0x (data : GoBytes) : String := "0x" ++ encodeToString data

/-- `bytes.fromhex(text[2:])`, of a text without spaces. -/
def fromHex0x (text : String) : Except WorkerError GoBytes :=
  orRevert (.valueError "non-hexadecimal number found in fromhex() arg") (Hex.decode (text.toList.drop 2))

namespace WorkerTables

/-- The tables of a new database. -/
def empty : WorkerTables := ⟨fun _ => none, [], [], []⟩

variable (s : WorkerTables)

def cursor (sourceEID default : Nat) : Nat := (s.cursors sourceEID).getD default

def advanceCursor (sourceEID nextBlock : Nat) : WorkerTables :=
  { s with cursors := Function.update s.cursors sourceEID (some nextBlock) }

@[simp] theorem cursor_advanceCursor (eid next default : Nat) :
    (s.advanceCursor eid next).cursor eid default = next := by
  simp [cursor, advanceCursor]

theorem cursor_advanceCursor_of_ne {eid eid' : Nat} (h : eid' ≠ eid) (next default : Nat) :
    (s.advanceCursor eid next).cursor eid' default = s.cursor eid' default := by
  simp [cursor, advanceCursor, h]

section

variable [Unicode] [Digests]

/-- The row that `observe_packet` inserts. -/
def packetRow (packet : LayerZeroPacket) (sourceBlock : Nat) (sourceTransactionHash : String) (sourceLogIndex : Nat) :
    PacketRow where
  guid := hex0x packet.guid
  sourceEID := packet.sourceEID
  destinationEID := packet.destinationEID
  sourceBlock := sourceBlock
  sourceTransactionHash := toLower sourceTransactionHash
  sourceLogIndex := sourceLogIndex
  encodedPacketHex := hex0x packet.encoded
  packetSHA256 := sha256Hex packet.encoded
  status := .observed

/-- `INSERT OR IGNORE`, with the primary key and the `UNIQUE` of the table. -/
def observePacket (packet : LayerZeroPacket) (sourceBlock : Nat) (sourceTransactionHash : String)
    (sourceLogIndex : Nat) :
    WorkerTables :=
  let row := packetRow packet sourceBlock sourceTransactionHash sourceLogIndex
  if ∃ r ∈ s.packets, r.guid = row.guid ∨ (r.sourceEID = row.sourceEID ∧
      r.sourceTransactionHash = row.sourceTransactionHash ∧ r.sourceLogIndex = row.sourceLogIndex) then s
  else { s with packets := s.packets ++ [row] }

end

/-- `ORDER BY source_block, source_log_index`. -/
def packetLE (a b : PacketRow) : Prop :=
  a.sourceBlock < b.sourceBlock ∨ (a.sourceBlock = b.sourceBlock ∧ a.sourceLogIndex ≤ b.sourceLogIndex)

instance : DecidableRel packetLE := fun _ _ => inferInstanceAs (Decidable (_ ∨ _))

/-- `ready_packets`. The heads are a dictionary, by `eid`. -/
def readyPackets (sourceHeads : List (Nat × Nat)) (confirmations : Int) : Except WorkerError (List PacketRow) := do
  let rows := (s.packets.filter fun r => r.status ≠ .delivered).insertionSort packetLE
  revertIf (∃ r ∈ rows, ∀ head ∈ sourceHeads, head.1 ≠ r.sourceEID) (.other "KeyError")
  return rows.filter fun r =>
    (sourceHeads.find? (·.1 = r.sourceEID)).any fun head => (r.sourceBlock : Int) + confirmations ≤ head.2

def action (guid : String) (stage : WorkerStage) : Option WorkerAction :=
  s.actions.find? fun r => r.guid = guid ∧ r.stage = stage

/-- `_record_observation`. -/
def recordObservation (observation : WorkerObservation) : WorkerTables :=
  { s with observations := s.observations ++ [observation] }

section

variable [Unicode] [Digests]

def actionID (guid : String) (stage : WorkerStage) : String :=
  "lz_" ++ String.ofList ((sha256Hex (encode (guid ++ ":" ++ stage.name))).toList.take 24)

/-- The nonce that `intend_action` freezes. -/
def nextNonce (destinationChainID nonce : Nat) : Nat :=
  match ((s.actions.filter fun r => r.destinationChainID = destinationChainID).map WorkerAction.nonce).max? with
  | some durable => max nonce (durable + 1)
  | none => nonce

/-- The row that `intend_action` inserts. -/
def intendedRow (guid : String) (stage : WorkerStage) (destinationChainID nonce : Nat) (target : String)
    (callData : GoBytes) : WorkerAction where
  actionID := actionID guid stage
  guid := guid
  stage := stage
  destinationChainID := destinationChainID
  nonce := s.nextNonce destinationChainID nonce
  target := toLower target
  calldataBytes := callData.length
  calldataHex := hex0x callData
  calldataSHA256 := sha256Hex callData
  rawTransactionHex := none
  transactionHash := none
  status := .intended

/-- Two rows that a `UNIQUE` of the table, or its primary key, refuses. -/
def Conflict (r row : WorkerAction) : Prop :=
  r.actionID = row.actionID ∨ (r.guid = row.guid ∧ r.stage = row.stage) ∨
    (r.destinationChainID = row.destinationChainID ∧ r.nonce = row.nonce)

instance (r row : WorkerAction) : Decidable (Conflict r row) := inferInstanceAs (Decidable (_ ∨ _))

def intendAction (guid : String) (stage : WorkerStage) (destinationChainID nonce : Nat) (target : String)
    (callData : GoBytes) : Except WorkerError (WorkerTables × WorkerAction) := do
  let row := s.intendedRow guid stage destinationChainID nonce target callData
  revertIf (∃ r ∈ s.actions, Conflict r row) (.other "sqlite3.IntegrityError")
  return (({ s with actions := s.actions ++ [row] }).recordObservation ⟨row.actionID, WorkerStatus.intended, none, []⟩,
    row)

def recordSigned (actionID : String) (raw : GoBytes) (transactionHash : String) : WorkerTables :=
  ({ s with
    actions := Table.update (fun r => r.actionID = actionID ∧ r.status = WorkerStatus.intended)
      (fun r => { r with
        rawTransactionHex := some (hex0x raw)
        transactionHash := some (toLower transactionHash)
        status := .signed }) s.actions }).recordObservation
    ⟨actionID, .signed, some (sha256Hex raw), [("transaction_hash", .string (toLower transactionHash))]⟩

end

def observeAction (actionID : String) (state : WorkerStatus) (details : List (String × Json)) : WorkerTables :=
  ({ s with
    actions := Table.update (fun r => r.actionID = actionID) (fun r => { r with status := state })
      s.actions }).recordObservation ⟨actionID, state, none, details⟩

def markDelivered (guid : String) : WorkerTables :=
  { s with packets := Table.update (fun r => r.guid = guid) (fun r => { r with status := .delivered }) s.packets }

end WorkerTables

/-! ## What the worker asks -/

/-- A log of `get_logs`. -/
structure PacketSentLog where
  data : GoBytes
  blockNumber : Nat
  transactionHash : GoBytes
  logIndex : Nat
  deriving DecidableEq

/-- What `_finalize_stage` reads of a receipt. -/
structure WorkerReceipt where
  status : Int
  blockNumber : Nat
  gasUsed : Nat
  /-- The topics of each log. -/
  logs : List (List GoBytes)
  /-- `Web3.to_json`. -/
  json : String

inductive WorkerOp
  | cursor (sourceEID default : Nat)
  | advanceCursor (sourceEID nextBlock : Nat)
  | observePacket (packet : LayerZeroPacket) (sourceBlock : Nat) (sourceTransactionHash : String) (sourceLogIndex : Nat)
  | readyPackets (sourceHeads : List (Nat × Nat)) (confirmations : Int)
  | action (guid : String) (stage : WorkerStage)
  | intendAction (guid : String) (stage : WorkerStage) (destinationChainID nonce : Nat) (target : String)
      (callData : GoBytes)
  | recordSigned (actionID : String) (raw : GoBytes) (transactionHash : String)
  | observeAction (actionID : String) (state : WorkerStatus) (details : List (String × Json))
  | markDelivered (guid : String)
  | time
  | blockNumber (eid : Nat)
  | getLogs (eid fromBlock toBlock : Nat) (address topic : String)
  | transactionCount (eid : Nat) (address : String)
  | gasPrice (eid : Nat)
  | sendRawTransaction (eid : Nat) (actionID : String) (raw : GoBytes)
  | transactionReceipt (eid : Nat) (transactionHash : String)
  | writeText (path text : String)
  | readBytes (path : String)

@[reducible] def WorkerOp.Value : WorkerOp → Type
  | cursor _ _ => Nat
  | advanceCursor _ _ => Unit
  | observePacket _ _ _ _ => Unit
  | readyPackets _ _ => List PacketRow
  | action _ _ => Option WorkerAction
  | intendAction _ _ _ _ _ _ => WorkerAction
  | recordSigned _ _ _ => Unit
  | observeAction _ _ _ => Unit
  | markDelivered _ => Unit
  | time => Int
  | blockNumber _ => Nat
  | getLogs _ _ _ _ _ => List PacketSentLog
  | transactionCount _ _ => Nat
  | gasPrice _ => Nat
  | sendRawTransaction _ _ _ => Unit
  | transactionReceipt _ _ => WorkerReceipt
  | writeText _ _ => Unit
  | readBytes _ => GoBytes

abbrev WorkerProg := Prog WorkerOp (fun op => Except WorkerError op.Value) WorkerError

/-- Asks an operation, and fails as it does. -/
def WorkerOp.call (op : WorkerOp) : WorkerProg op.Value := Prog.call op

/-- A transaction that is signed: its type is 2, its value 0 and its priority fee 0. -/
structure WorkerTransaction where
  chainID : Nat
  nonce : Nat
  target : String
  data : GoBytes
  gas : Nat
  maxFeePerGas : Nat

/-- What is read of a typed transaction that was decoded. -/
structure TypedTransaction where
  chainID : Nat
  nonce : Nat
  target : GoBytes
  data : GoBytes

/-- What the worker uses of `eth_abi`, `eth_account` and `web3`. -/
class WorkerLibraries extends AbiLibraries where
  /-- The first component of `decode(["bytes", "bytes", "address"], data)`. -/
  decodePacketSent (data : GoBytes) : Except String GoBytes
  /-- `account.sign_transaction`: the raw transaction and the hash. -/
  signTransaction (privateKey : String) (transaction : WorkerTransaction) : Except String (GoBytes × GoBytes)
  /-- `TypedTransaction.from_bytes(raw).as_dict()`. -/
  fromBytes (raw : GoBytes) : Except String TypedTransaction
  /-- `Account.recover_transaction`. -/
  recoverTransaction (raw : GoBytes) : Except String String
  /-- `account.address`, of the account of a key. -/
  address (privateKey : String) : String

/-! ## The worker -/

/-- The keys of the dictionary `chains` are the `eid`s of its values. -/
structure LayerZeroWorker where
  chains : List WorkerChain
  distinct : (chains.map WorkerChain.eid).Nodup
  privateKey : String
  rawRoot : String
  confirmations : Int
  executorGasLimit : Int
  batchPackets : Nat

/-- `self.chains[eid]`. -/
def LayerZeroWorker.chain (w : LayerZeroWorker) (eid : Nat) : Except WorkerError WorkerChain :=
  orRevert (.other "KeyError") (w.chains.find? fun c => c.eid = eid)

section

variable [Unicode] [Digests] [WorkerLibraries]

open WorkerLibraries

/-- `EVENT_TOPICS`, by the signature. -/
def eventTopic (signature : String) : String := hex0x (Digests.keccak256 (encode signature)).toList

def packetSentTopic : String := eventTopic "PacketSent(bytes,bytes,address)"

/-- The topic that `_finalize_stage` expects. -/
def expectedTopic : WorkerStage → String
  | .dvnExecute => toLower (eventTopic "PayloadVerified(address,bytes,uint256,bytes32)")
  | .commitVerification => toLower (eventTopic "PacketVerified((uint32,bytes32,uint64),address,bytes32)")
  | .executorExecute => toLower (eventTopic "PacketDelivered((uint32,bytes32,uint64),address)")

/-- What the worker raises for a log that it does not accept, and the packet of one that it does. -/
def packetOfLog (w : LayerZeroWorker) (eid : Nat) (log : PacketSentLog) : Except WorkerError LayerZeroPacket := do
  let encodedPacket ← (decodePacketSent log.data).mapError .other
  let packet ← (decodePacket encodedPacket).mapError .topology
  revertIf (packet.sourceEID ≠ eid) (.topology ⟨"LayerZero PacketSent source EID mismatch"⟩)
  revertIf (packet.destinationEID ∉ w.chains.map WorkerChain.eid) (.topology ⟨"LayerZero packet targets unknown EID"⟩)
  return packet

namespace LayerZeroWorker

variable (w : LayerZeroWorker)

/-! ## `collect` -/

/-- The loop over the logs of a chunk. -/
def observeLogs (eid : Nat) : List PacketSentLog → WorkerProg Unit
  | [] => pure ()
  | log :: logs => do
    let packet ← Prog.ofExcept (packetOfLog w eid log)
    WorkerOp.call (.observePacket packet log.blockNumber (encodeToString log.transactionHash) log.logIndex)
    observeLogs eid logs

/-- The loop over the chunks up to the head. -/
def collectChunks (chain : WorkerChain) (span : Nat) (hspan : 1 ≤ span) (start head : Nat) : WorkerProg Unit :=
  if start ≤ head then do
    let chunkEnd := min (start + span - 1) head
    let logs ← WorkerOp.call (.getLogs chain.eid start chunkEnd chain.endpoint packetSentTopic)
    w.observeLogs chain.eid logs
    WorkerOp.call (.advanceCursor chain.eid (chunkEnd + 1))
    collectChunks chain span hspan (chunkEnd + 1) head
  else pure ()
termination_by head + 1 - start
decreasing_by omega

/-- The loop over the chains. -/
def collectChains (span : Nat) (hspan : 1 ≤ span) : List WorkerChain → WorkerProg Unit
  | [] => pure ()
  | chain :: chains => do
    let head ← WorkerOp.call (.blockNumber chain.eid)
    let start ← WorkerOp.call (.cursor chain.eid chain.startBlock)
    w.collectChunks chain span hspan start head
    collectChains span hspan chains

/-- `collect`. -/
def collect (maximumBlockSpan : Nat) (hspan : 1 ≤ maximumBlockSpan) : WorkerProg Unit :=
  w.collectChains maximumBlockSpan hspan w.chains

/-! ## `_submit_stage` -/

/-- What a stage that was submitted is finalized by. -/
structure Pending where
  eid : Nat
  actionID : String
  transactionHash : String
  stage : WorkerStage

/-- The checks of the columns of an action, and its calldata. -/
def frozenCallData (action : WorkerAction) (chain : WorkerChain) (target : String) : Except WorkerError GoBytes := do
  revertIf (action.destinationChainID ≠ chain.chainID ∨ toLower action.target ≠ toLower target ∨
    action.calldataHex = "")
    (.topology ⟨"LayerZero durable intended action identity drift"⟩)
  let frozenCallData ← fromHex0x action.calldataHex
  revertIf (frozenCallData.length ≠ action.calldataBytes ∨ sha256Hex frozenCallData ≠ action.calldataSHA256)
    (.topology ⟨"LayerZero durable intended calldata drift"⟩)
  return frozenCallData

/-- The raw transaction of an action and its hash: those of the row, or new ones, which are recorded. -/
def signedTransaction (action : WorkerAction) (chain : WorkerChain) (target : String) (frozenCallData : GoBytes) :
    WorkerProg (GoBytes × String) :=
  match action.rawTransactionHex with
  | some rawHex => do
    let raw ← Prog.ofExcept (fromHex0x rawHex)
    return (raw, action.transactionHash.getD "None")
  | none => do
    let gasPrice ← WorkerOp.call (.gasPrice chain.eid)
    let transaction : WorkerTransaction :=
      { chainID := chain.chainID
        nonce := action.nonce
        target := target
        data := frozenCallData
        gas := 5000000
        maxFeePerGas := max (gasPrice * 2) 1 }
    let (raw, hash) ← Prog.ofExcept ((signTransaction w.privateKey transaction).mapError .other)
    WorkerOp.call (.recordSigned action.actionID raw (encodeToString hash))
    return (raw, encodeToString hash)

/-- The comparison of the raw transaction with the action. -/
def checkRaw (action : WorkerAction) (chain : WorkerChain) (frozenCallData raw : GoBytes) (transactionHash : String) :
    Except WorkerError Unit := do
  let decoded ← (fromBytes raw).mapError .other
  let sender ← (recoverTransaction raw).mapError .other
  let expectedHash := toLower (encodeToString (Digests.keccak256 raw).toList)
  revertIf (toLower sender ≠ toLower (address w.privateKey) ∨ decoded.chainID ≠ chain.chainID ∨
      decoded.nonce ≠ action.nonce ∨ toLower (hex0x decoded.target) ≠ toLower action.target ∨
      decoded.data ≠ frozenCallData ∨ toLower transactionHash ≠ expectedHash)
    (.topology ⟨"LayerZero durable raw transaction identity drift"⟩)

/-- The errors after which a broadcast counts as made. -/
def acceptedPriorBroadcast : WorkerError → Bool
  | .valueError text | .web3RPCError text =>
    ["already known", "known transaction", "nonce too low"].any (contains (toLower text))
  | _ => false

/-- `_submit_stage`, from the row of the action on. -/
def driveStage (action : WorkerAction) (stage : WorkerStage) (chain : WorkerChain) (target : String) :
    WorkerProg (Option Pending) := do
  let callData ← Prog.ofExcept (frozenCallData action chain target)
  let (raw, transactionHash) ← w.signedTransaction action chain target callData
  Prog.ofExcept (w.checkRaw action chain callData raw transactionHash)
  Prog.op (.sendRawTransaction chain.eid action.actionID raw) fun r =>
    match r with
    | .ok () => pure ()
    | .error e => if acceptedPriorBroadcast e then pure () else Prog.fail e
  WorkerOp.call (.observeAction action.actionID .submitted [("transaction_hash", .string transactionHash)])
  return some ⟨chain.eid, action.actionID, transactionHash, stage⟩

def submitStage (guid : String) (stage : WorkerStage) (chain : WorkerChain) (target : String) (callData : GoBytes) :
    WorkerProg (Option Pending) := do
  match ← WorkerOp.call (.action guid stage) with
  | some action =>
    if action.status = .succeeded then return none else w.driveStage action stage chain target
  | none => do
    let nonce ← WorkerOp.call (.transactionCount chain.eid (address w.privateKey))
    let action ← WorkerOp.call (.intendAction guid stage chain.chainID nonce target callData)
    w.driveStage action stage chain target

/-! ## `_finalize_stage` -/

def finalizeStage (pending : Pending) : WorkerProg Unit := do
  let receipt ← WorkerOp.call (.transactionReceipt pending.eid pending.transactionHash)
  let receiptPath := w.rawRoot ++ "/" ++ pending.transactionHash ++ ".receipt.json"
  WorkerOp.call (.writeText receiptPath (receipt.json ++ "\n"))
  let details := [("transaction_hash", Json.string pending.transactionHash), ("receipt", Json.string receiptPath)]
  if receipt.status ≠ 1 then
    WorkerOp.call (.observeAction pending.actionID .failed details)
    Prog.fail (.topology ⟨"LayerZero worker stage reverted: " ++ pending.stage.name⟩)
  else
    let observedTopics := receipt.logs.filterMap fun topics => topics.head?.map hex0x
    if expectedTopic pending.stage ∉ observedTopics then
      WorkerOp.call (.observeAction pending.actionID .failed (details ++
        [("error", .string "expected official event missing"),
          ("expected_topic", .string (expectedTopic pending.stage))]))
      Prog.fail (.topology ⟨"LayerZero worker stage lacks official success event: " ++ pending.stage.name⟩)
    else
      let contents ← WorkerOp.call (.readBytes receiptPath)
      WorkerOp.call (.observeAction pending.actionID .succeeded
        [("transaction_hash", .string pending.transactionHash), ("block_number", .ofNat receipt.blockNumber),
          ("gas_used", .ofNat receipt.gasUsed), ("receipt", .string receiptPath),
          ("receipt_sha256", .string (sha256Hex contents))])

/-! ## `process` -/

/-- The heads of the chains. -/
def heads : List WorkerChain → WorkerProg (List (Nat × Nat))
  | [] => pure []
  | chain :: chains => do
    let head ← WorkerOp.call (.blockNumber chain.eid)
    return (chain.eid, head) :: (← heads chains)

/-- The calls of a packet: for each stage its target and its calldata. -/
def stageCalls (packet : LayerZeroPacket) (destination : WorkerChain) (expiration : Int) :
    Except WorkerError (List (WorkerStage × String × GoBytes)) := do
  let instruction ← (buildDVNInstruction destination.eid destination.receiveULN packet w.confirmations expiration
    w.privateKey).mapError .ofCall
  let execute ← (encodeDVNExecute instruction).mapError .ofCall
  let commit ← (encodeCommitVerification packet).mapError .ofCall
  let submission ← (encodeExecutorSubmission packet w.executorGasLimit).mapError .ofCall
  return [(.dvnExecute, destination.dvn, execute), (.commitVerification, destination.receiveULN, commit),
    (.executorExecute, destination.executor, submission)]

/-- The loop over the stages of a packet. -/
def submitStages (guid : String) (chain : WorkerChain) :
    List (WorkerStage × String × GoBytes) → WorkerProg (List Pending)
  | [] => pure []
  | (stage, target, callData) :: calls => do
    let submitted ← w.submitStage guid stage chain target callData
    return submitted.toList ++ (← submitStages guid chain calls)

/-- The loop over the packets: what was submitted, and the `guid`s. -/
def submitPackets : List PacketRow → WorkerProg (List Pending × List String)
  | [] => pure ([], [])
  | row :: rows => do
    let encoded ← Prog.ofExcept (fromHex0x row.encodedPacketHex)
    let packet ← Prog.ofExcept ((decodePacket encoded).mapError .topology)
    let packetGUID := hex0x packet.guid
    let destination ← Prog.ofExcept (w.chain packet.destinationEID)
    let now ← WorkerOp.call .time
    let calls ← Prog.ofExcept (w.stageCalls packet destination (now + 3600))
    let submitted ← w.submitStages packetGUID destination calls
    let (pending, packetGUIDs) ← submitPackets rows
    return (submitted ++ pending, packetGUID :: packetGUIDs)

def finalizeStages : List Pending → WorkerProg Unit
  | [] => pure ()
  | pending :: rest => do
    w.finalizeStage pending
    finalizeStages rest

/-- The actions of the stages of a packet. -/
def stageActions (guid : String) : List WorkerStage → WorkerProg (List (Option WorkerAction))
  | [] => pure []
  | stage :: stages => do
    let action ← WorkerOp.call (.action guid stage)
    return action :: (← stageActions guid stages)

/-- The loop that marks packets as delivered. -/
def markPackets : List String → WorkerProg Unit
  | [] => pure ()
  | guid :: guids => do
    let stages ← stageActions guid STAGES
    if stages.all fun action => action.any fun a => a.status = .succeeded then
      WorkerOp.call (.markDelivered guid)
    markPackets guids

/-- `process`. -/
def process : WorkerProg Unit := do
  let heads ← heads w.chains
  let ready ← WorkerOp.call (.readyPackets heads w.confirmations)
  let (pending, packetGUIDs) ← w.submitPackets (ready.take w.batchPackets)
  w.finalizeStages pending
  markPackets packetGUIDs

end LayerZeroWorker

end

end Xir.Impl.XirLab
