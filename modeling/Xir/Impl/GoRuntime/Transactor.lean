import Xir.Impl.GoRuntime.State

/-!
# `go-runtime/internal/evm/transactor.go`

`Execute` is a program over `TxOp`: calls of the ledger, the memory of the nonces
that the transactor has reserved, calls of the node, and private files. What
go-ethereum does with transactions and addresses is in `GoEthereum`. An address
in the text of an error has no checksum, a nonce is a `Nat`, and a `big.Int` is
an `Int`, or a `Nat` if it is a chain id.
-/

namespace Xir.Impl

open Strings

/-! ## What the transactor uses of go-ethereum -/

/-- `common.Address`. -/
abbrev GoAddress := Vector UInt8 20

/-- `common.Address{}`. -/
def zeroAddress : GoAddress := Vector.replicate 20 0

/-- `SetString` of a `big.Int`, in base 10. -/
def setString (s : String) : Option Int :=
  let magnitude (cs : List Char) : Option Nat :=
    if cs ≠ [] ∧ cs.all Char.isDigit then some (cs.foldl (fun n c => 10 * n + (c.toNat - 48)) 0) else none
  match s.toList with
  | '+' :: cs => (magnitude cs).map Int.ofNat
  | '-' :: cs => (magnitude cs).map fun n => -(n : Int)
  | cs => (magnitude cs).map Int.ofNat

/-- A `types.DynamicFeeTx`. -/
structure DynamicFeeTx where
  chainID : Nat
  nonce : Nat
  gasTipCap : Int
  gasFeeCap : Int
  gas : UInt64
  target : Option GoAddress
  value : Int
  data : GoBytes

/-- A `types.Transaction`: what the transactor reads of it, and the rest, its signature included. -/
structure Transaction where
  chainID : Nat
  nonce : Nat
  gas : UInt64
  target : Option GoAddress
  value : Int
  data : GoBytes
  rest : GoBytes

class GoEthereum where
  marshalBinary : Transaction → Except String GoBytes
  unmarshalBinary : GoBytes → Except String Transaction
  hash : Transaction → GoBytes32
  /-- `types.Sender` with `LatestSignerForChainID`. -/
  sender : (chainID : Nat) → Transaction → Except String GoAddress
  /-- `address.Hex()`. -/
  checksum : GoAddress → String
  /-- `common.HexToHash`. -/
  hexToHash : String → GoBytes32
  /-- `common.HexToAddress`. -/
  hexToAddress : String → GoAddress

/-- `strings.ToLower(address.Hex())`. -/
def lowerHex [Unicode] [GoEthereum] (address : GoAddress) : String := toLower (GoEthereum.checksum address)

/-- A `Signer`, whose key is known by what it signs. -/
structure Signer where
  address : GoAddress
  chainID : Nat
  signTx : DynamicFeeTx → Except String Transaction

def Signer.signDynamicFee (signer : Signer) (transaction : DynamicFeeTx) : Except RuntimeError Transaction := do
  revertIf (transaction.chainID ≠ signer.chainID) (.errorf
    s!"xir evm: transaction chain id {transaction.chainID} differs from the signer chain id {signer.chainID}")
  (signer.signTx { transaction with chainID := signer.chainID }).mapError fun err =>
    .errorf ("xir evm: cannot sign the transaction: " ++ err)

/-! ## Requests -/

/-- A `map[string]any` that `json.Marshal` writes: its keys are distinct and its numbers are numbers. -/
structure JsonMap where
  members : Members
  wellFormed : (Json.object members).WellFormed

/-- A destination that is zero, a value that is nil, and what else is empty is not given. -/
structure TxRequest where
  actionID : String
  intentDetail : Option JsonMap
  attemptID : String
  stage : String
  chainRole : String
  target : GoAddress
  data : GoBytes
  value : Option Int
  gas : UInt64
  deployCode : GoBytes

/-- What a node answers for a mined transaction: the document, and what is decoded of it. -/
structure TxReceipt where
  document : String
  txHash : GoBytes32
  successful : Bool
  blockNumber : UInt64
  gasUsed : UInt64
  contractAddress : GoAddress

structure Transactor where
  signer : Signer
  spoolRoot : String

inductive TxOp
  | store (op : StoreOp)
  /-- `t.nonceNext[chainRole]`, if it is seen. -/
  | nonceNext (chainRole : String)
  | setNonceNext (chainRole : String) (nonce : Nat)
  | pendingNonce (address : GoAddress)
  | estimateGas (target : Option GoAddress) (data : GoBytes) (value : Int)
  | gasPrice
  | receiptDocument (hash : GoBytes32)
  | sendRawTransaction (raw : GoBytes)
  | waitMined (hash : GoBytes32)
  | readFile (path : String)
  | writePrivateRaw (path : String) (raw : GoBytes)

@[reducible] def TxOp.Answer : TxOp → Type
  | store op => op.Answer
  | nonceNext _ => Option Nat
  | setNonceNext _ _ => Unit
  | pendingNonce _ => Except RpcError Nat
  | estimateGas _ _ _ => Except RpcError UInt64
  | gasPrice => Except RpcError Int
  | receiptDocument _ => Except RuntimeError (Option TxReceipt)
  | sendRawTransaction _ => Except RpcError Unit
  | waitMined _ => Except RuntimeError Unit
  | readFile _ => Except String GoBytes
  | writePrivateRaw _ _ => Except RuntimeError Unit

abbrev TxProg := Prog TxOp TxOp.Answer RuntimeError

/-- A call of the ledger. -/
def ledger {α : Type} (p : StoreProg α) : TxProg α := p.interp fun op => Prog.ask (.store op)

/-- An operation of the node, whose error is given a text. -/
def rpcError {α : Type} (text : String) (answer : Except RpcError α) : Except RuntimeError α :=
  answer.mapError (.rpc text)

/-- `errors.As` and `errors.Is` of `IsTransientRPCError`, of which an answer with a busy text is left out. -/
def isTransientRPCError (err : RpcError) : Bool := err.kind = .deadlineExceeded || err.kind = .transport

def isAcceptedPriorSubmission [Unicode] (err : RpcError) : Bool :=
  let message := toLower ("xir evm: eth_sendRawTransaction failed: " ++ err.message)
  ["already known", "known transaction", "nonce too low"].any (contains message)

namespace Transactor

/-! ## Checks of a request -/

/-- The calldata, and whether the request creates a contract. -/
def requestCalldata (request : TxRequest) : Except RuntimeError (GoBytes × Bool) := do
  if request.deployCode.length = 0 then
    revertIf (request.target = zeroAddress)
      (.errorf s!"xir evm: action {request.actionID} names neither a destination nor deployment code")
    return (request.data, false)
  else
    revertIf (request.target ≠ zeroAddress)
      (.errorf s!"xir evm: action {request.actionID} sets both a destination and deployment code")
    revertIf (request.data.length > 0)
      (.errorf s!"xir evm: action {request.actionID} sets both calldata and deployment code")
    return (request.deployCode, true)

variable [Unicode] [Digests] [GoEthereum] (t : Transactor)

def senderHex : String := lowerHex t.signer.address

/-- Compares the caller's metadata with those of the row. -/
def sameIntentDetail (request : TxRequest) (action : Action) : Except RuntimeError Unit :=
  match request.intentDetail with
  | none => .ok ()
  | some supplied => do
    let detail ← action.detail
    let stored ← canonicalJSON ((detail "intent_detail").getD .null)
    let supplied ← canonicalJSON (.object supplied.members)
    revertIf (stored ≠ supplied) (.drift s!"action {action.actionID} caller intent metadata changed")

/-- A text that is given has to be that of the row, where both have one. -/
def sameText (name given frozen actionID : String) : Except RuntimeError Unit :=
  revertIf (given ≠ "" ∧ frozen ≠ "" ∧ given ≠ frozen)
    (.drift s!"action {actionID} belongs to {name} {frozen} but the request says {given}")

/-- Bytes that are given have to be those of the row. -/
def sameDigest (given : GoBytes) (action : Action) : Except RuntimeError Unit :=
  revertIf (given.length > 0 ∧ sha256Hex given ≠ action.calldataSHA256)
    (.drift (s!"action {action.actionID} froze calldata digest {action.calldataSHA256} but the request carries " ++
      sha256Hex given))

/-- The calldata, whether the action creates a contract, and its value, as the row has them. -/
def frozenRequest (request : TxRequest) (action : Action) : Except RuntimeError (GoBytes × Bool × Int) := do
  let data ← (decodeHex action.calldataHex).mapError fun _ =>
    .drift s!"action {action.actionID} carries undecodable calldata: "
  let value ← orRevert (.drift s!"action {action.actionID} froze value {quoted action.value}") (setString action.value)
  sameIntentDetail request action
  let creation := action.target = ""
  revertIf (action.sender ≠ "" ∧ action.sender ≠ t.senderHex)
    (.drift (s!"action {action.actionID} belongs to account {action.sender} but this transactor signs as " ++
      t.senderHex))
  revertIf (request.chainRole ≠ "" ∧ request.chainRole ≠ action.chainRole)
    (.drift (s!"action {action.actionID} belongs to chain role {action.chainRole} but the request says " ++
      request.chainRole))
  sameText "attempt" request.attemptID action.attemptID action.actionID
  sameText "stage" request.stage action.stage action.actionID
  sameDigest request.data action
  revertIf (request.deployCode.length > 0 ∧ ¬ creation)
    (.drift s!"action {action.actionID} froze a destination but the request carries deployment code")
  sameDigest request.deployCode action
  revertIf (request.target ≠ zeroAddress ∧ creation)
    (.drift s!"action {action.actionID} created a contract but the request names a destination")
  revertIf (request.target ≠ zeroAddress ∧ lowerHex request.target ≠ action.target)
    (.drift (s!"action {action.actionID} froze target {quoted action.target} but the request names " ++
      quoted (lowerHex request.target)))
  revertIf (∃ value ∈ request.value, toString value ≠ action.value)
    (.drift s!"action {action.actionID} froze value {action.value} but the request carries another")
  revertIf (request.gas ≠ 0 ∧ request.gas ≠ action.gas)
    (.drift s!"action {action.actionID} froze gas {action.gas} but the request carries {request.gas}")
  return (data, creation, value)

/-! ## Intents -/

/-- `decodeDetail` of the text that a `detail_json` column is given. -/
def detailDocument (text : String) : Document :=
  match decodeJSON text with
  | .ok (.object members) => .ok fun key => (members.find? fun m => m.1 = key).map Prod.snd
  | .ok _ => .error "xir state: detail document is no object, want an object"
  | .error _ => .error "xir state: detail document is not valid JSON: "

/-- What `freezeIntent` freezes besides the columns. -/
def intentMembers (request : TxRequest) (data : GoBytes) (target : String) (nonce : Nat) (maxFee maxPriority : Int) :
    Members :=
  [("role", .string request.chainRole), ("nonce", .ofNat nonce), ("target", .string target),
    ("calldata_sha256", .string (sha256Hex data)), ("calldata_bytes", .ofNat data.length),
    ("chain_id", .ofNat (UInt64.ofNat t.signer.chainID).toNat), ("max_fee_per_gas", .string (toString maxFee)),
    ("max_priority_fee_per_gas", .string (toString maxPriority))] ++
  (match request.intentDetail with
    | some intentDetail => [("intent_detail", .object intentDetail.members)]
    | none => []) ++
  (if request.stage ≠ "" then [("stage", .string request.stage)] else [])

/-- The action that `freezeIntent` hands to `Intend`. -/
def frozenAction (request : TxRequest) (data : GoBytes) (value : Int) (creation : Bool) (nonce : Nat) (gas : UInt64)
    (maxFee maxPriority : Int) : Except RuntimeError Action := do
  let target := if creation then "" else lowerHex request.target
  let detailJSON ← canonicalJSON (.object (t.intentMembers request data target nonce maxFee maxPriority))
  return {
    actionID := request.actionID
    attemptID := request.attemptID
    stage := request.stage
    chainRole := request.chainRole
    chainID := UInt64.ofNat t.signer.chainID
    sender := t.senderHex
    target := target
    calldataHex := "0x" ++ encodeToString data
    calldataBytes := data.length
    calldataSHA256 := sha256Hex data
    value := toString value
    gas := gas
    nonce := nonce
    state := .intended
    rawTransactionHex := "", transactionHash := "", receiptPath := "", receiptSHA256 := "",
    blockNumber := 0, gasUsed := 0
    detailJSON := detailDocument detailJSON }

def reserveNonce (chainRole : String) : TxProg Nat := do
  let nonce ←
    match ← (Prog.ask (TxOp.nonceNext chainRole) : TxProg (Option Nat)) with
    | some next => pure next
    | none =>
      let pending ← Prog.op (.pendingNonce t.signer.address)
        fun r => Prog.ofExcept (rpcError "xir evm: eth_getTransactionCount failed: " r)
      let durable ← ledger (Store.maxActionNonce (UInt64.ofNat t.signer.chainID) t.senderHex)
      pure (match durable with
        | some durable => if durable + 1 > pending then durable + 1 else pending
        | none => pending)
  let _ ← (Prog.ask (TxOp.setNonceNext chainRole (nonce + 1)) : TxProg Unit)
  return nonce

def gasCeiling : UInt64 := 29000000
def estimatedGasFloor : UInt64 := 100000

def resolveGas (request : TxRequest) (data : GoBytes) (value : Int) (creation : Bool) : TxProg UInt64 :=
  if request.gas ≠ 0 then pure request.gas
  else
    Prog.op (.estimateGas (if creation then none else some request.target) data value) fun r =>
      match r with
      | .error err =>
        if isTransientRPCError err then Prog.fail (.rpc "xir evm: eth_estimateGas failed: " err) else pure gasCeiling
      | .ok estimated =>
        let scaled := estimated * 13 / 10
        let scaled := if scaled < estimatedGasFloor then estimatedGasFloor else scaled
        pure (if scaled > gasCeiling then gasCeiling else scaled)

def resolveFees : TxProg (Int × Int) := do
  let price ← Prog.op .gasPrice fun r => Prog.ofExcept (rpcError "xir evm: eth_gasPrice failed: " r)
  let maxFee := price * 2
  return (if maxFee ≤ 0 then 1 else maxFee, 0)

/-- Commits the intent before anything is signed. -/
def freezeIntent (request : TxRequest) (data : GoBytes) (value : Int) (creation : Bool) : TxProg (Option Action) := do
  let nonce ← t.reserveNonce request.chainRole
  let gas ← resolveGas request data value creation
  let (maxFee, maxPriority) ← resolveFees
  let action ← Prog.ofExcept (t.frozenAction request data value creation nonce gas maxFee maxPriority)
  ledger (Store.intend action)

/-! ## Signed bytes -/

def detailBigInt (detail : Fields) (key actionID : String) : Except RuntimeError Int :=
  match detail key with
  | none => .error (.errorf s!"xir evm: action {actionID} has no frozen {key}, so its intent cannot be replayed")
  | some (.string text) =>
    orRevert (.errorf s!"xir evm: action {actionID} froze {key} as {quoted text}") (setString text)
  | some _ => .error (.errorf s!"xir evm: action {actionID} froze {key} as another type")

/-- The transaction of a row that has no signed bytes, signed: its bytes and its hash. -/
def signIntent (action : Action) (data : GoBytes) (value : Int) (creation : Bool) :
    Except RuntimeError (GoBytes × GoBytes32) := do
  let detail ← action.detail
  let maxFee ← detailBigInt detail "max_fee_per_gas" action.actionID
  let maxPriority ← detailBigInt detail "max_priority_fee_per_gas" action.actionID
  let signed ← t.signer.signDynamicFee {
    chainID := t.signer.chainID
    nonce := action.nonce
    gasTipCap := maxPriority
    gasFeeCap := maxFee
    gas := action.gas
    target := if creation then none else some (GoEthereum.hexToAddress action.target)
    value := value
    data := data }
  let raw ← (GoEthereum.marshalBinary signed).mapError fun err =>
    .errorf ("xir evm: cannot encode the signed transaction: " ++ err)
  return (raw, GoEthereum.hash signed)

/-- `canonicalHashHex`. -/
def canonicalHashHex (hash : GoBytes32) : String := encodeToString hash.toList

def transactionHashPath (hash : GoBytes32) : String := t.spoolRoot ++ "/" ++ canonicalHashHex hash ++ ".raw"

def transactionReceiptPath (hash : GoBytes32) : String := t.spoolRoot ++ "/" ++ canonicalHashHex hash ++ ".json"

/-- The signed bytes and their hash: those of the row, or new ones, which are made durable. -/
def ensureSigned (action : Action) (data : GoBytes) (value : Int) (creation : Bool) : TxProg (GoBytes × GoBytes32) := do
  if action.rawTransactionHex ≠ "" then
    let raw ← Prog.ofExcept ((decodeString (trimPrefix action.rawTransactionHex "0x")).mapError fun _ =>
      .drift s!"action {action.actionID} has undecodable raw bytes: ")
    return (raw, GoEthereum.hexToHash action.transactionHash)
  else
    let (raw, hash) ← Prog.ofExcept (t.signIntent action data value creation)
    Prog.op (.writePrivateRaw (t.transactionHashPath hash) raw) Prog.ofExcept
    ledger (Store.recordSigned action.actionID raw (encodeHex hash.toList))
    return (raw, hash)

/-- Derives what the bytes are signed for, and compares it with the row. -/
def validateSignedBytes (action : Action) (raw : GoBytes) (transactionHash : GoBytes32) (value : Int)
    (creation : Bool) :
    Except RuntimeError Unit := do
  revertIf (Digests.keccak256 raw ≠ transactionHash)
    (.drift (s!"action {action.actionID} raw bytes hash to {keccakHex raw} but were recorded as " ++
      encodeHex transactionHash.toList))
  let decoded ← (GoEthereum.unmarshalBinary raw).mapError fun err =>
    .drift s!"action {action.actionID} raw bytes are not a transaction: {err}"
  let recovered ← (GoEthereum.sender t.signer.chainID decoded).mapError fun err =>
    .drift s!"action {action.actionID} signature cannot be recovered: {err}"
  revertIf (recovered ≠ t.signer.address)
    (.drift s!"action {action.actionID} was signed by {lowerHex recovered}, not {t.senderHex}")
  revertIf (action.sender ≠ "" ∧ action.sender ≠ lowerHex recovered)
    (.drift (s!"action {action.actionID} records account {action.sender} but its signature recovers " ++
      lowerHex recovered))
  revertIf (decoded.chainID ≠ t.signer.chainID ∨ decoded.chainID ≠ action.chainID.toNat)
    (.drift (s!"action {action.actionID} is signed for chain id {decoded.chainID}, not {t.signer.chainID} " ++
      s!"(frozen {action.chainID})"))
  revertIf (decoded.nonce ≠ action.nonce)
    (.drift s!"action {action.actionID} is signed with nonce {decoded.nonce} but froze {action.nonce}")
  revertIf (decoded.gas ≠ action.gas)
    (.drift s!"action {action.actionID} is signed with gas {decoded.gas} but froze {action.gas}")
  revertIf (decoded.value ≠ value)
    (.drift s!"action {action.actionID} is signed for value {decoded.value} but froze {value}")
  revertIf (sha256Hex decoded.data ≠ action.calldataSHA256 ∨ decoded.data.length ≠ action.calldataBytes)
    (.drift (s!"action {action.actionID} is signed with calldata digest {sha256Hex decoded.data} but froze " ++
      action.calldataSHA256))
  revertIf (decoded.target.isSome ∧ creation)
    (.drift s!"action {action.actionID} is a deployment but its signed transaction names a destination")
  revertIf (decoded.target.isNone ∧ ¬ creation)
    (.drift s!"action {action.actionID} is signed as a deployment but the ledger froze a destination")
  let frozenTarget := (decoded.target.map lowerHex).getD ""
  revertIf (frozenTarget ≠ action.target)
    (.drift s!"action {action.actionID} is signed for target {quoted frozenTarget} but froze {quoted action.target}")

/-! ## Submission -/

/-- What `Execute` returns. -/
structure TxResult where
  transactionHash : String
  blockNumber : UInt64
  gasUsed : UInt64
  receiptPath : String
  receiptSHA256 : String
  contractAddress : String
  detail : Fields

/-- The result of an action that succeeded before. -/
def finishedResult (action : Action) : TxProg TxResult := do
  let detail ← Prog.ofExcept action.detail
  if action.receiptPath ≠ "" then
    let contents ← Prog.op (.readFile action.receiptPath) fun r => Prog.ofExcept (r.mapError fun err =>
      RuntimeError.drift s!"action {action.actionID} spooled its receipt at {action.receiptPath}: {err}")
    Prog.ofExcept (revertIf (sha256Hex contents ≠ action.receiptSHA256)
      (.drift (s!"action {action.actionID} receipt {action.receiptPath} digests to {sha256Hex contents}, not " ++
        action.receiptSHA256)))
  return ⟨action.transactionHash, action.blockNumber, action.gasUsed, action.receiptPath, action.receiptSHA256,
    actionDetailString detail "contract_address", detail⟩

def broadcast (raw : GoBytes) : TxProg Unit :=
  if raw.length = 0 then Prog.fail (.errorf "xir evm: empty raw transaction")
  else
    Prog.op (.sendRawTransaction raw) fun r =>
      match r with
      | .ok () => pure ()
      | .error err =>
        if isAcceptedPriorSubmission err then pure ()
          else Prog.fail (.rpc "xir evm: eth_sendRawTransaction failed: " err)

/-- Writes the node's document beside the raw bytes: its path and its digest. -/
def spoolReceipt (hash : GoBytes32) (document : String) : TxProg (String × String) := do
  let decoded ← Prog.ofExcept ((decodeJSON document).mapError
    (.wrap s!"xir evm: receipt {encodeHex hash.toList} is not decodable: "))
  let rendered ← Prog.ofExcept (canonicalJSONIndent decoded 2)
  let contents : GoBytes := ((rendered ++ "\n").toList.flatMap utf8).map UInt8.ofNat
  Prog.op (.writePrivateRaw (t.transactionReceiptPath hash) contents) Prog.ofExcept
  return (t.transactionReceiptPath hash, sha256Hex contents)

def actionRawSHA256 (action : Action) : String :=
  match decodeString (trimPrefix action.rawTransactionHex "0x") with
  | .ok raw => sha256Hex raw
  | .error _ => ""

def resultDetail (action : Action) (spooled : String × String) (receipt : TxReceipt) (data : GoBytes)
    (creation : Bool) :
    Members :=
  [("role", .string action.chainRole), ("nonce", .ofNat action.nonce), ("target", .string action.target),
    ("calldata_sha256", .string (sha256Hex data)), ("calldata_bytes", .ofNat data.length),
    ("raw_sha256", .string (actionRawSHA256 action)), ("transaction_hash", .string (encodeHex receipt.txHash.toList)),
    ("receipt", .string spooled.1), ("receipt_sha256", .string spooled.2), ("gas_used", .ofNat receipt.gasUsed.toNat),
    ("block_number", .ofNat receipt.blockNumber.toNat), ("chain_id", .ofNat action.chainID.toNat),
    ("creation", .bool creation),
    ("contract_address", if creation then .string (GoEthereum.checksum receipt.contractAddress) else .null)]

/-- The members that `Execute` records when the transaction is with the node. -/
def submittedDetail (raw : GoBytes) (transactionHash : GoBytes32) : Members :=
  [("transaction_hash", .string (encodeHex transactionHash.toList)), ("raw_sha256", .string (sha256Hex raw))]

/-- `ReceiptDocument`. -/
def receiptDocument (hash : GoBytes32) : TxProg (Option TxReceipt) := Prog.op (.receiptDocument hash) Prog.ofExcept

/-- `Execute`, from the receipt on. -/
def complete (actionID : String) (action : Action) (data : GoBytes) (creation : Bool) (transactionHash : GoBytes32)
    (receipt : TxReceipt) : TxProg TxResult := do
  let spooled ← t.spoolReceipt transactionHash receipt.document
  let detail := resultDetail action spooled receipt data creation
  let result : ActionResult :=
    { transactionHash := encodeHex transactionHash.toList
      blockNumber := receipt.blockNumber
      gasUsed := receipt.gasUsed
      receiptPath := spooled.1
      receiptSHA256 := spooled.2
      contractAddress := if creation then GoEthereum.checksum receipt.contractAddress else ""
      detail := detail }
  if receipt.successful = false then
    ledger (Store.observe actionID .failed detail)
    Prog.fail (.errorf
      s!"xir evm: transaction {result.transactionHash} reverted in block {receipt.blockNumber}")
  ledger (Store.succeed actionID result)
  return ⟨result.transactionHash, result.blockNumber, result.gasUsed, result.receiptPath, result.receiptSHA256,
    result.contractAddress, fun key => (detail.find? fun m => m.1 = key).map Prod.snd⟩

/-- `Execute`, from the signed bytes on. -/
def submit (actionID : String) (action : Action) (data : GoBytes) (creation : Bool) (raw : GoBytes)
    (transactionHash : GoBytes32) : TxProg TxResult := do
  match ← receiptDocument transactionHash with
  | none =>
    broadcast raw
    ledger (Store.observe actionID .submitted (submittedDetail raw transactionHash))
    Prog.op (.waitMined transactionHash) Prog.ofExcept
    match ← receiptDocument transactionHash with
    | some receipt => t.complete actionID action data creation transactionHash receipt
    -- the receipt that `WaitMined` has seen is gone: `spoolReceipt` is given no document
    | none => Prog.fail (.errorf s!"xir evm: transaction {encodeHex transactionHash.toList} has no receipt document")
  | some receipt =>
    ledger (Store.observe actionID .submitted (submittedDetail raw transactionHash))
    t.complete actionID action data creation transactionHash receipt

/-- `Execute`, from the frozen intent on. -/
def drive (actionID : String) (action : Action) (data : GoBytes) (creation : Bool) (value : Int) : TxProg TxResult := do
  let (raw, transactionHash) ← t.ensureSigned action data value creation
  Prog.ofExcept (t.validateSignedBytes action raw transactionHash value creation)
  t.submit actionID action data creation raw transactionHash

/-- `Execute` of an action that the ledger has a row of. -/
def resume (request : TxRequest) (action : Action) : TxProg TxResult := do
  Prog.ofExcept (verifyActionIdentity action)
  let (data, creation, value) ← Prog.ofExcept (t.frozenRequest request action)
  if action.state = .failed then
    Prog.fail (.errorf s!"xir evm: action {action.actionID} already failed on chain and cannot be resubmitted")
  else if action.state = .succeeded then
    finishedResult action
  else
    t.drive request.actionID action data creation value

/-- `Execute` of an action that the ledger has no row of. -/
def start (request : TxRequest) : TxProg TxResult := do
  let (data, creation) ← Prog.ofExcept (requestCalldata request)
  let value := request.value.getD 0
  match ← t.freezeIntent request data value creation with
  | some action => t.drive request.actionID action data creation value
  | none => Prog.fail (.errorf "xir evm: the intent is gone")

def execute (request : TxRequest) : TxProg TxResult := do
  Prog.ofExcept
    (revertIf (trimSpace request.actionID = "") (.errorf "xir evm: a transaction request needs an action id"))
  match ← ledger (Store.action request.actionID) with
  | none => t.start request
  | some action => t.resume request action

end Transactor

end Xir.Impl
