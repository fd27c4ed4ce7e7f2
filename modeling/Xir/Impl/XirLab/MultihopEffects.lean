import Mathlib.Algebra.Order.Ring.Int
import Mathlib.Data.List.Sort
import Xir.Framework.Dict
import Xir.Impl.XirLab.LayerZeroWorker
import Xir.Impl.XirLab.MultihopScalability
import Xir.Impl.XirLab.Signer

/-!
# `src/xir_lab/native/multihop_effects.py`

`reconcile_effects`, over the documents that it reads, the rows of the two
databases, and the nodes of the chains. A hash of a log is its bytes, and an
address is its text. What a node raises is raised, and the documents have their
keys.
-/

namespace Xir.Impl.XirLab

namespace MultihopEffects

open Strings (toLower trimPrefix)

def EFFECT_LOG_BLOCK_WINDOW : Int := 2000

/-- `CHAIN_ROLES`, as texts. -/
def CHAIN_ROLES : List String := ["a", "b", "c", "d", "e"]

def EFFECT_DESTINATION_ROLES : List String := CHAIN_ROLES.tail

/-! ## Nodes -/

/-- An event `NativeMultihopEffectApplied`, with the place of its log. -/
structure EffectEvent where
  attemptID : GoBytes
  messageID : GoBytes
  route : GoBytes
  routeSequence : Int
  deliveryCount : Int
  blockNumber : Int
  blockHash : GoBytes
  transactionHash : GoBytes
  transactionIndex : Int
  logIndex : Int
  deriving DecidableEq

/-- The key of the sorting of the logs. -/
def EffectEvent.place (event : EffectEvent) : Int × Int × Int :=
  (event.blockNumber, event.transactionIndex, event.logIndex)

/-- The events of the blocks from `first` to `last`. -/
def inRange (first last : Int) (event : EffectEvent) : Bool := first ≤ event.blockNumber && event.blockNumber ≤ last

/-- A node of a chain, which returns the logs of a range of blocks completely. -/
structure EffectNode where
  blockNumber : Except NativeError Int
  blockHash : Int → Except NativeError GoBytes
  receiptStatus : GoBytes → Except NativeError Int
  /-- What the contract of an address has emitted. -/
  effects : String → List EffectEvent
  /-- `get_logs`. -/
  getLogs : String → Int → Int → Except NativeError (List EffectEvent)
  getLogs_perm (address : String) (first last : Int) (logs : List EffectEvent) :
    getLogs address first last = .ok logs → logs.Perm ((effects address).filter (inRange first last))
  deliveryCount : String → Except NativeError Int

/-! ## Documents -/

/-- A chain of a profile. -/
structure EffectChain where
  label : String
  chainID : Int
  rpcURL : String

structure BaselineRow where
  chainRole : String
  receiver : String
  startBlockInclusive : Int
  startBlockHash : String
  deliveryCountBefore : Int

structure EffectBaseline where
  schemaVersion : String
  phase : String
  configSHA256 : String
  profileSHA256 : String
  deploymentSHA256 : String
  receivers : List BaselineRow

structure BlockWindow where
  fromBlock : Int
  toBlock : Int
  deriving DecidableEq

/-- A row of the effects of a document. -/
structure Effect where
  attemptID : String
  route : String
  routeSequence : Int
  chainRole : String
  chainID : Int
  receiver : String
  transactionHash : String
  blockNumber : Int
  blockHash : String
  logIndex : Int
  status : Int
  messageID : String
  deliveryCount : Int

structure ReceiverCheck where
  chainRole : String
  startBlockInclusive : Int
  endBlockInclusive : Int
  startBlockHash : String
  endBlockHash : String
  deliveryCountBefore : Int
  deliveryCountAfter : Int
  counterDelta : Int
  eventCount : Int
  expectedDelta : Int
  scanWindows : List BlockWindow

/-- What a document is bound to: the digests of the files. -/
structure EffectBindings where
  baselineSHA256 : String
  configSHA256 : String
  profileSHA256 : String
  deploymentSHA256 : String
  deriving DecidableEq

structure EffectAudit where
  schemaVersion : String
  evidenceNamespace : String
  phase : String
  bindings : EffectBindings
  valid : Bool
  expectedEffectCount : Int
  observedEffectCount : Int
  receiverChecks : List ReceiverCheck
  effects : List Effect
  completeBlockRangeScanned : Bool
  receiverCountersReconciled : Bool

/-- A document with its digest. -/
structure Semantic (α : Type) where
  payload : α
  semanticSHA256 : String

/-- What the module uses of its libraries. -/
class EffectLibraries extends Unicode, Digests where
  /-- `Web3.to_checksum_address`. -/
  toChecksumAddress : String → Except NativeError String
  /-- The SHA-256 of the canonical form of a baseline. -/
  baselineSHA256 : EffectBaseline → String
  /-- That of an audit. -/
  auditSHA256 : EffectAudit → String

/-! ## Databases -/

structure EffectAttemptRow where
  attemptID : String
  phase : String
  route : String
  routeSequence : Int
  status : String

structure EffectStageRow where
  attemptID : String
  stage : String
  state : String
  transactionHash : Option String

/-- A row of `events`, with what is read of its detail. -/
structure EffectEventRow where
  attemptID : String
  stage : String
  event : String
  chainRole : Option String
  deliveryTransactionHash : Option String
  mid : Option String

/-- The tables of the runner's database. -/
structure EffectRunner where
  attempts : List EffectAttemptRow
  stages : List EffectStageRow
  events : List EffectEventRow

/-- A row of `traces`, with what is read of its trace. -/
structure EffectTraceRow where
  chainRole : String
  transactionHash : String
  status : Option Int
  blockNumber : Option Int
  blockHash : Option String

/-- A row of the query. -/
structure LineageRow where
  attempt : EffectAttemptRow
  stage : EffectStageRow
  event : EffectEventRow

structure EffectLineage where
  attemptID : String
  route : String
  routeSequence : Int
  chainRole : String
  transactionHash : String
  messageID : String
  blockNumber : Int
  blockHash : String

variable [EffectLibraries]

/-! ## Lineage -/

/-- `"0x" + text.lower().removeprefix("0x")`. -/
def canonicalHash (text : String) : String := "0x" ++ trimPrefix (toLower text) "0x"

/-- The query of `_expected_effect_lineage`, in some order. -/
def EffectRunner.lineageRows (runner : EffectRunner) (phase : String) : List LineageRow :=
  (runner.attempts.filter fun a => a.phase = phase ∧ a.status = "succeeded").flatMap fun a =>
    (runner.stages.filter fun s =>
      s.attemptID = a.attemptID ∧ s.stage = "destination_verify_deliver" ∧ s.state = "succeeded").flatMap fun s =>
        (runner.events.filter fun e =>
          e.attemptID = a.attemptID ∧ e.stage = "destination_effect_observation" ∧
            e.event = "observed").map fun e => ⟨a, s, e⟩

def LineageRow.chainRole (row : LineageRow) : String := row.event.chainRole.getD "None"

def LineageRow.transactionHash (row : LineageRow) : String := canonicalHash (row.stage.transactionHash.getD "None")

/-- What the loop of `_expected_effect_lineage` makes of a row. -/
def lineageOf (traces : List EffectTraceRow) (row : LineageRow) : Except NativeError EffectLineage :=
  match traces.filter fun t => t.chainRole = row.chainRole ∧ t.transactionHash = row.transactionHash with
  | [trace] => do
    revertIf (canonicalHash (row.event.deliveryTransactionHash.getD "") ≠ row.transactionHash ∨ trace.status.getD 0 ≠ 1)
      (.localTopologyError "effect lineage runner/trace binding differs")
    return {
      attemptID := row.attempt.attemptID
      route := row.attempt.route
      routeSequence := row.attempt.routeSequence
      chainRole := row.chainRole
      transactionHash := row.transactionHash
      messageID := toLower (← orRevert .keyError row.event.mid)
      blockNumber := ← orRevert .keyError trace.blockNumber
      blockHash := toLower (← orRevert .keyError trace.blockHash) }
  | _ => .error (.localTopologyError "effect lineage lacks one frozen delivery trace")

def addLineage (traces : List EffectTraceRow) (expected : List EffectLineage) (row : LineageRow) :
    Except NativeError (List EffectLineage) := do
  return Dict.put EffectLineage.attemptID (← lineageOf traces row) expected

/-- `_expected_effect_lineage`. -/
def expectedEffectLineage (runner : EffectRunner) (traces : List EffectTraceRow) (phase : String) :
    Except NativeError (List EffectLineage) :=
  (runner.lineageRows phase).foldlM (addLineage traces) []

/-! ## Windows -/

/-- The loop of `_block_windows`, of at most so many turns. -/
def windowsFrom (windowSize stop : Int) : Nat → Int → List BlockWindow
  | 0, _ => []
  | turns + 1, cursor =>
    if cursor ≤ stop then
      let last := min (cursor + windowSize - 1) stop
      ⟨cursor, last⟩ :: windowsFrom windowSize stop turns (last + 1)
    else []

/-- `_block_windows`. Each window has a block, so that there are at most as many turns as blocks. -/
def blockWindows (startBlock endBlock : Int) (windowSize : Int) : Except NativeError (List BlockWindow) := do
  revertIf (startBlock < 0 ∨ endBlock < startBlock) (.localTopologyError "effect block range is invalid")
  revertIf (windowSize ≤ 0) (.localTopologyError "effect block window must be positive")
  return windowsFrom windowSize endBlock (endBlock - startBlock).toNat (startBlock + 1)

/-- `_valid_block_windows`. -/
def validBlockWindows (windows : List BlockWindow) (startBlock endBlock : Int) : Except NativeError Bool := do
  let expected ← blockWindows startBlock endBlock EFFECT_LOG_BLOCK_WINDOW
  return windows = expected ∧ ∀ row ∈ windows, row.toBlock - row.fromBlock + 1 ≤ EFFECT_LOG_BLOCK_WINDOW

/-- The order of Python's tuples of three. -/
def placeLE (a b : Int × Int × Int) : Bool :=
  a.1 < b.1 || (a.1 = b.1 && (a.2.1 < b.2.1 || (a.2.1 = b.2.1 && a.2.2 ≤ b.2.2)))

/-- `_fetch_effect_logs`. -/
def fetchEffectLogs (node : EffectNode) (address : String) (windows : List BlockWindow) :
    Except NativeError (List EffectEvent) := do
  let logs ← windows.mapM fun window => node.getLogs address window.fromBlock window.toBlock
  return logs.flatten.insertionSort fun a b => placeLE a.place b.place

/-! ## The audit -/

/-- `len(text.removeprefix("0x")) == 64`. -/
def isHash (text : String) : Bool := (trimPrefix text "0x").length = 64

/-- `_validate_semantic`. -/
def validateSemantic {α : Type} (sha256 : α → String) (schemaVersion : α → String) (document : Semantic α)
    (schema : String) :
    Except NativeError Unit :=
  revertIf (schemaVersion document.payload ≠ schema ∨ sha256 document.payload ≠ document.semanticSHA256)
    (.localTopologyError "effect evidence semantic digest is invalid")

def baselineSchema : String := "xir-lab-native-multihop-effect-baseline-v1"

def auditSchema : String := "xir-lab-native-multihop-effect-reconciliation-v1"

/-- Whether an effect is well formed. -/
def Effect.wellFormed (row : Effect) : Bool :=
  row.status = 1 ∧ 0 ≤ row.blockNumber ∧ 0 ≤ row.logIndex ∧ isHash row.transactionHash = true ∧
    isHash row.messageID = true ∧ isHash row.blockHash = true

/-- Whether an effect has the values of its lineage. -/
def Effect.agrees (row : Effect) (expected : EffectLineage) : Bool :=
  row.attemptID = expected.attemptID ∧ row.route = expected.route ∧ row.routeSequence = expected.routeSequence ∧
    row.chainRole = expected.chainRole ∧ row.transactionHash = expected.transactionHash ∧
    row.messageID = expected.messageID ∧ row.blockNumber = expected.blockNumber ∧ row.blockHash = expected.blockHash

/-- `observed_by_id[attempt_id]`: the last of the effects. -/
def observedByID (effects : List Effect) (attemptID : String) : Option Effect :=
  effects.reverse.find? fun row => row.attemptID = attemptID

/-- What is asked of a receiver before its windows. -/
def ReceiverCheck.counted (row : ReceiverCheck) (effects : List Effect) : Bool :=
  row.startBlockInclusive ≤ row.endBlockInclusive ∧ isHash row.startBlockHash = true ∧ isHash row.endBlockHash = true ∧
    row.counterDelta = row.deliveryCountAfter - row.deliveryCountBefore ∧
    row.deliveryCountAfter - row.deliveryCountBefore = row.expectedDelta ∧ row.expectedDelta = row.eventCount ∧
    row.eventCount = (effects.filter fun effect => effect.chainRole = row.chainRole).length

/-- What is asked of a receiver. -/
def ReceiverCheck.holds (row : ReceiverCheck) (effects : List Effect) : Except NativeError Bool :=
  if row.counted effects then do
    if ← validBlockWindows row.scanWindows row.startBlockInclusive row.endBlockInclusive then
      return (effects.filter fun effect => effect.chainRole = row.chainRole).all fun effect =>
        row.startBlockInclusive < effect.blockNumber && effect.blockNumber ≤ row.endBlockInclusive
    else return false
  else return false

/-- What is asked of a document before its receivers. -/
def EffectAudit.matched (document : EffectAudit) (phase evidenceNamespace : String) (bindings : EffectBindings)
    (expected : List EffectLineage) : Bool :=
  document.evidenceNamespace = evidenceNamespace ∧ document.phase = phase ∧ document.bindings = bindings ∧
    document.valid = true ∧
    document.expectedEffectCount = expected.length ∧ document.observedEffectCount = expected.length ∧
    (document.effects.map Effect.attemptID).Nodup ∧
    (∀ attemptID ∈ document.effects.map Effect.attemptID, attemptID ∈ expected.map EffectLineage.attemptID) ∧
    (∀ attemptID ∈ expected.map EffectLineage.attemptID, attemptID ∈ document.effects.map Effect.attemptID) ∧
    document.completeBlockRangeScanned = true ∧ document.receiverCountersReconciled = true ∧
    document.receiverChecks.length = EFFECT_DESTINATION_ROLES.length ∧
    (∀ role ∈ document.receiverChecks.map ReceiverCheck.chainRole, role ∈ EFFECT_DESTINATION_ROLES) ∧
    (∀ role ∈ EFFECT_DESTINATION_ROLES, role ∈ document.receiverChecks.map ReceiverCheck.chainRole) ∧
    (∀ row ∈ document.effects, row.wellFormed = true) ∧
    ∀ lineage ∈ expected, (observedByID document.effects lineage.attemptID).any (Effect.agrees · lineage) = true

/-- `validate_effect_audit`. -/
def validateEffectAudit (document : Semantic EffectAudit) (phase evidenceNamespace : String) (bindings : EffectBindings)
    (expected : List EffectLineage) : Except NativeError Unit := do
  validateSemantic EffectLibraries.auditSHA256 EffectAudit.schemaVersion document auditSchema
  let valid ← (if document.payload.matched phase evidenceNamespace bindings expected then
      document.payload.receiverChecks.allM fun row => row.holds document.payload.effects
    else pure false : Except NativeError Bool)
  revertIf (¬ (valid = true ∧ (document.payload.receiverChecks.map ReceiverCheck.expectedDelta).sum = expected.length))
    (.localTopologyError "frozen complete-range exact-one effect audit is invalid")

/-! ## The reconciliation -/

/-- `_profile_chains_by_role`. -/
def profileChainsByRole (chains : List EffectChain) : Except NativeError (String → Option EffectChain) := do
  revertIf (¬ ((∀ chain ∈ chains, toLower chain.label ∈ CHAIN_ROLES) ∧
    (∀ role ∈ CHAIN_ROLES, role ∈ chains.map (toLower ·.label)) ∧
      chains.length = CHAIN_ROLES.length)) (.localTopologyError "effect profile must map exactly chains A through E")
  return fun role => chains.reverse.find? fun chain => toLower chain.label = role

/-- `CHAIN_ROLES[attempt.hop_count]`. -/
def destinationRole (attempt : MultihopAttempt) : Except NativeError String :=
  orRevert .indexError CHAIN_ROLES[attempt.route.length]?

def expectAttempt (expected : String → List MultihopAttempt) (attempt : MultihopAttempt) :
    Except NativeError (String → List MultihopAttempt) := do
  let role ← destinationRole attempt
  return Function.update expected role (Dict.put MultihopAttempt.attemptID attempt (expected role))

/-- `expected_by_role`. -/
def expectedByRole (attempts : List MultihopAttempt) : Except NativeError (String → List MultihopAttempt) :=
  attempts.foldlM expectAttempt fun _ => []

/-- `Web3.keccak(text=attempt_id).hex().removeprefix("0x").lower()`. -/
def attemptDigest (attemptID : String) : String := encodeToString (Digests.keccak256 (encode attemptID)).toList

def indexAttempt (index : List (String × MultihopAttempt)) (attempt : MultihopAttempt) :
    Except NativeError (List (String × MultihopAttempt)) := do
  revertIf (attemptDigest attempt.attemptID ∈ index.map Prod.fst) (.localTopologyError "effect attempt hash collision")
  return index ++ [(attemptDigest attempt.attemptID, attempt)]

/-- `_build_effect_hash_index`. -/
def buildEffectHashIndex (expected : List MultihopAttempt) : Except NativeError (List (String × MultihopAttempt)) :=
  expected.foldlM indexAttempt []

/-- `value.decode("ascii")`. -/
def decodeAscii (value : GoBytes) : Except NativeError String := do
  revertIf (∃ b ∈ value, 128 ≤ b.toNat) (.other "'ascii' codec can't decode byte")
  return String.ofList (value.map fun b => Char.ofNat b.toNat)

/-- The effects found so far, and an event of the logs. -/
def reconcileEvent (node : EffectNode) (role : String) (chain : EffectChain) (row : BaselineRow)
    (index : List (String × MultihopAttempt)) (effects : List Effect) (event : EffectEvent) :
    Except NativeError (List Effect) :=
  match index.find? fun entry => entry.1 = encodeToString event.attemptID with
  | none => .error (.localTopologyError "receiver block range contains an unexpected/duplicate effect")
  | some (_, attempt) => do
    revertIf (attempt.attemptID ∈ effects.map Effect.attemptID)
      (.localTopologyError "receiver block range contains an unexpected/duplicate effect")
    let status ← node.receiptStatus event.transactionHash
    let route ← decodeAscii event.route
    revertIf (status ≠ 1 ∨ route ≠ String.ofList attempt.route ∨ event.routeSequence ≠ attempt.routeSequence)
      (.localTopologyError "receiver effect payload/receipt differs from plan")
    return effects ++ [{
      attemptID := attempt.attemptID
      route := String.ofList attempt.route
      routeSequence := attempt.routeSequence
      chainRole := role
      chainID := chain.chainID
      receiver := toLower row.receiver
      transactionHash := hex0x event.transactionHash
      blockNumber := event.blockNumber
      blockHash := hex0x event.blockHash
      logIndex := event.logIndex
      status := status
      messageID := hex0x event.messageID
      deliveryCount := event.deliveryCount }]

/-- What `reconcile_effects` reads. -/
structure EffectInput where
  profile : List EffectChain
  baseline : Semantic EffectBaseline
  /-- The digests of the files, as they are. -/
  bindings : EffectBindings
  evidenceNamespace : String
  phase : String
  runner : EffectRunner
  traces : List EffectTraceRow
  attempts : List MultihopAttempt
  /-- The node that answers at a URL. -/
  node : String → EffectNode

/-- `baseline_by_role[role]`: the last of the rows. -/
def EffectInput.baselineRow (input : EffectInput) (role : String) : Option BaselineRow :=
  input.baseline.payload.receivers.reverse.find? fun row => row.chainRole = role

/-- A turn of the loop of `reconcile_effects`: the effects of a receiver, and its check. The index
is the one that was built before the loop. -/
def reconcileRole (input : EffectInput) (chainOf : String → Option EffectChain)
    (expected : String → List MultihopAttempt) (role : String) : Except NativeError (List Effect × ReceiverCheck) := do
  let index ← buildEffectHashIndex (expected role)
  let chain ← orRevert .keyError (chainOf role)
  let row ← orRevert .keyError (input.baselineRow role)
  let node := input.node chain.rpcURL
  let address ← EffectLibraries.toChecksumAddress row.receiver
  let observedStartHash ← node.blockHash row.startBlockInclusive
  revertIf (hex0x observedStartHash ≠ toLower row.startBlockHash)
    (.localTopologyError "effect baseline start block hash is no longer canonical")
  let endBlock ← node.blockNumber
  let endBlockHash ← node.blockHash endBlock
  let scanWindows ← blockWindows row.startBlockInclusive endBlock EFFECT_LOG_BLOCK_WINDOW
  let logs ← fetchEffectLogs node address scanWindows
  let effects ← logs.foldlM (reconcileEvent node role chain row index) []
  let after ← node.deliveryCount address
  return (effects, {
    chainRole := role
    startBlockInclusive := row.startBlockInclusive
    endBlockInclusive := endBlock
    startBlockHash := toLower row.startBlockHash
    endBlockHash := hex0x endBlockHash
    deliveryCountBefore := row.deliveryCountBefore
    deliveryCountAfter := after
    counterDelta := after - row.deliveryCountBefore
    eventCount := logs.length
    expectedDelta := (expected role).length
    scanWindows := scanWindows })

/-- `reconcile_effects`. The effects are those of all receivers, by their attempts. -/
def reconcileEffects (input : EffectInput) : Except NativeError (Semantic EffectAudit) := do
  validateSemantic EffectLibraries.baselineSHA256 EffectBaseline.schemaVersion input.baseline baselineSchema
  revertIf (input.baseline.payload.phase ≠ input.phase ∨
    input.baseline.payload.configSHA256 ≠ input.bindings.configSHA256 ∨
      input.baseline.payload.profileSHA256 ≠ input.bindings.profileSHA256 ∨
      input.baseline.payload.deploymentSHA256 ≠ input.bindings.deploymentSHA256)
    (.localTopologyError "effect baseline phase/config/profile/deployment binding drift")
  let lineage ← expectedEffectLineage input.runner input.traces input.phase
  let expected ← expectedByRole input.attempts
  let _ ← EFFECT_DESTINATION_ROLES.mapM fun role => buildEffectHashIndex (expected role)
  let chainOf ← profileChainsByRole input.profile
  let results ← EFFECT_DESTINATION_ROLES.mapM (reconcileRole input chainOf expected)
  let effects := results.flatMap Prod.fst
  let audit : EffectAudit := {
    schemaVersion := auditSchema
    evidenceNamespace := input.evidenceNamespace
    phase := input.phase
    bindings := input.bindings
    valid := true
    expectedEffectCount := input.attempts.length
    observedEffectCount := effects.length
    receiverChecks := results.map Prod.snd
    effects := effects.insertionSort fun a b => a.attemptID ≤ b.attemptID
    completeBlockRangeScanned := true
    receiverCountersReconciled := true }
  let document : Semantic EffectAudit := ⟨audit, EffectLibraries.auditSHA256 audit⟩
  validateEffectAudit document input.phase input.evidenceNamespace input.bindings lineage
  return document

end MultihopEffects

end Xir.Impl.XirLab
