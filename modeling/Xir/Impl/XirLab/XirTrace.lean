import Xir.Impl.Contracts.XIREncoding

/-!
# `src/xir_lab/native/xir_trace.py`

An `int` is an `Int` and a `bytes` of any length, so the classes admit values
that no contract can hold; `to_bytes` refuses those that do not fit.
-/

namespace Xir.Impl.XirTrace

open XIREncoding (ascii)

/-- What a function raises. -/
inductive PyError
  | valueError (text : String)
  | overflowError (text : String)
  deriving DecidableEq

abbrev TypedId := Int × Bytes

structure XIRRecord where
  sourceGateway : TypedId
  sourceApp : TypedId
  destinationApp : TypedId
  nonce : Int
  payloadHash : Bytes

structure XIRContext where
  requiredSecurity : Int
  policyHash : Bytes

structure XIRReceipt where
  sourceGateway : TypedId
  destinationGateway : TypedId
  profileHash : Bytes
  evidenceHash : Bytes
  transitionHash : Bytes
  priorPrefix : Bytes

/-- `value.to_bytes(length, "big")`. -/
def toBytes (value : Int) (length : Nat) : Except PyError Bytes :=
  if value < 0 then .error (.overflowError "can't convert negative int to unsigned")
  else if 256 ^ length ≤ value.toNat then .error (.overflowError "int too big to convert")
  else .ok (be length value.toNat)

/-- `bytes(values)`. -/
def bytesOf (values : List Int) : Except PyError Bytes :=
  if values.all fun v => 0 ≤ v ∧ v < 256 then .ok (values.map Int.toNat)
  else .error (.valueError "bytes must be in range(0, 256)")

def encodeTypedId (identifier : TypedId) : Except PyError Bytes := do
  let (kind, value) := identifier
  let expected := if kind = 1 then 20 else if kind = 2 then 32 else 0
  revertIf (value.length ≠ expected) (.valueError "invalid XIR typed identifier")
  return (← bytesOf [kind, value.length]) ++ value

variable [Keccak]

def keccak (b : Bytes) : Bytes := (keccak256 b).val

def recordHash (record : XIRRecord) : Except PyError Bytes := do
  return keccak
    (ascii "XIR_RECORD_V1" ++ (← encodeTypedId record.sourceGateway) ++ (← encodeTypedId record.sourceApp) ++
    (← encodeTypedId record.destinationApp) ++ (← toBytes record.nonce 8) ++ record.payloadHash)

def contextHash (context : XIRContext) : Except PyError Bytes := do
  return keccak (ascii "XIR_CONTEXT_V1" ++ (← toBytes context.requiredSecurity 1) ++ context.policyHash)

def rootId (record : XIRRecord) (context : XIRContext) (registryVersion : Int) : Except PyError Bytes := do
  return keccak (ascii "XIR_RID_V1" ++ (← encodeTypedId record.sourceGateway) ++ (← recordHash record) ++
    (← contextHash context) ++ (← toBytes registryVersion 4))

def messageId (rid : Bytes) (destinationApp : TypedId) : Except PyError Bytes := do
  return keccak (ascii "XIR_MID_V1" ++ rid ++ (← encodeTypedId destinationApp))

def rootPrefix (rid : Bytes) : Bytes := keccak (ascii "XIR_ROOT_V1" ++ rid)

def transitionHash (record : XIRRecord) (context : XIRContext) (source destination : TypedId) :
    Except PyError Bytes := do
  return keccak (ascii "XIR_TRANSITION_V1" ++ (← recordHash record) ++ (← contextHash context) ++
    (← encodeTypedId source) ++ (← encodeTypedId destination))

def receiptHash (receipt : XIRReceipt) : Except PyError Bytes := do
  return keccak (ascii "XIR_HOP_V1" ++ receipt.priorPrefix ++ (← encodeTypedId receipt.sourceGateway) ++
    (← encodeTypedId receipt.destinationGateway) ++ receipt.profileHash ++ receipt.evidenceHash ++
    receipt.transitionHash)

def nextPrefix (receipt : XIRReceipt) : Except PyError Bytes := do
  return keccak (ascii "XIR_PREFIX_V1" ++ receipt.priorPrefix ++ (← receiptHash receipt))

/-- `tag_padding` of both functions below. -/
def tagPadding (tag : Bytes) : Bytes := tag ++ List.replicate ((32 - tag.length % 32) % 32) 0

def bundleStart (receiptCount : Int) : Except PyError Bytes := do
  revertIf (receiptCount < 0) (.valueError "receipt count cannot be negative")
  let tag := ascii "XIR_BUNDLE_V1"
  return keccak ((← toBytes 64 32) ++ (← toBytes receiptCount 32) ++ (← toBytes tag.length 32) ++ tagPadding tag)

def bundleStep (commitment : Bytes) (index : Int) (receipt : XIRReceipt) : Except PyError Bytes := do
  revertIf (commitment.length ≠ 32 ∨ index < 0) (.valueError "invalid bundle prefix or index")
  let tag := ascii "XIR_BUNDLE_STEP_V1"
  return keccak ((← toBytes 192 32) ++ commitment ++ (← toBytes index 32) ++ receipt.profileHash ++
    receipt.evidenceHash ++ receipt.transitionHash ++ (← toBytes tag.length 32) ++ tagPadding tag)

/-- The loop of `bundle_commitment`. -/
def bundleLoop (commitment : Bytes) (index : Int) : List XIRReceipt → Except PyError Bytes
  | [] => .ok commitment
  | receipt :: receipts => do
    bundleLoop (← bundleStep commitment index receipt) (index + 1) receipts

def bundleCommitment (receipts : List XIRReceipt) : Except PyError Bytes := do
  bundleLoop (← bundleStart receipts.length) 0 receipts

end Xir.Impl.XirTrace
