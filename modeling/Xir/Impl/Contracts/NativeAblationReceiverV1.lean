import Xir.Impl.Contracts.NativeRoutePayload
import Xir.Impl.Contracts.XIRGateway

/-!
# `NativeAblationReceiverV1` of `native/NativeAblationV1.sol`

Its entries for the layers B2 (`deliverB2`) and B3 (`xirReceive`), with the
constants that its constructor sets. The carrier adapters are those of `Env`.
-/

namespace Xir.Impl

/-- `thisAddress` is the address of the contract. -/
structure NativeAblationReceiverV1 where
  thisAddress : Address
  runner : Address
  xirGateway : Address
  hyperlaneXirAdapter : Address
  layerZeroXirAdapter : Address
  sourceGatewayHash : Bytes32
  intermediateGatewayHash : Bytes32
  destinationGatewayHash : Bytes32
  hyperlaneABProfile : Bytes32
  layerZeroABProfile : Bytes32
  hyperlaneBCProfile : Bytes32
  layerZeroBCProfile : Bytes32
  effectStateHash : Bytes32
  deliveryCount : Nat
  consumedAttempts : Bytes32 → Bool
  consumedMessages : Bytes32 → Bool

/-- The event `AblationEffectApplied`. -/
structure AblationEffect where
  attemptId : Bytes32
  route : BytesN 2
  layer : UInt8
  routeSequence : UInt64
  messageId : Bytes32
  payloadHash : Bytes32
  beforeStateHash : Bytes32
  afterStateHash : Bytes32
  deliveryCount : Nat
  deriving DecidableEq

namespace NativeAblationReceiverV1

open NativeRoutePayload XIREncoding

def B2 : UInt8 := 2
def B3 : UInt8 := 3

variable [Keccak]

/-- The constructor, at the address `thisAddress`; the arrays are in the order of the source. -/
def new (thisAddress runner hyperlaneBaselineCarrier layerZeroBaselineCarrier xirGateway hyperlaneXirAdapter
    layerZeroXirAdapter : Address) (gatewayHashes : Bytes32 × Bytes32 × Bytes32)
    (profileHashes : Bytes32 × Bytes32 × Bytes32 × Bytes32) : Except Revert NativeAblationReceiverV1 := do
  revertIf (runner = 0 ∨ hyperlaneBaselineCarrier = 0 ∨ layerZeroBaselineCarrier = 0 ∨ xirGateway = 0 ∨
    hyperlaneXirAdapter = 0 ∨ layerZeroXirAdapter = 0) .invalidAuthority
  return {
    thisAddress := thisAddress
    runner := runner
    xirGateway := xirGateway
    hyperlaneXirAdapter := hyperlaneXirAdapter
    layerZeroXirAdapter := layerZeroXirAdapter
    sourceGatewayHash := gatewayHashes.1
    intermediateGatewayHash := gatewayHashes.2.1
    destinationGatewayHash := gatewayHashes.2.2
    hyperlaneABProfile := profileHashes.1
    layerZeroABProfile := profileHashes.2.1
    hyperlaneBCProfile := profileHashes.2.2.1
    layerZeroBCProfile := profileHashes.2.2.2
    effectStateHash := keccak256 (ascii "XIR_NATIVE_ABLATION_EFFECT_V1")
    deliveryCount := 0
    consumedAttempts := fun _ => false
    consumedMessages := fun _ => false }

def _evmAddress (id : TypedId) : Except Revert Address :=
  if h : id.kind = EVM ∧ id.value.length = 20 then .ok ⟨id.value, h.2⟩ else .error .invalidRecord

/-- Returns the event as well. -/
def _commitEffect (x : NativeAblationReceiverV1) (data : Data) (layer : UInt8) (messageId : Bytes32) :
    Except Revert (NativeAblationReceiverV1 × AblationEffect) := do
  let beforeState := x.effectStateHash
  revertIf (2 ^ 256 ≤ x.deliveryCount + 1) (.panic 0x11)
  let deliveryCount := x.deliveryCount + 1
  let payloadHash := keccak256 data.applicationPayload
  let effectStateHash := keccak256 (Abi.encode [.static beforeState, .static data.attemptId,
    .static (word layer.toNat), .static messageId, .static payloadHash, .static (word deliveryCount)])
  return ({ x with
    consumedAttempts := Function.update x.consumedAttempts data.attemptId true
    consumedMessages := Function.update x.consumedMessages messageId true
    deliveryCount := deliveryCount
    effectStateHash := effectStateHash },
    ⟨data.attemptId, data.route, layer, data.routeSequence, messageId, payloadHash, beforeState, effectStateHash,
      deliveryCount⟩)

def _apply (x : NativeAblationReceiverV1) (data : Data) (layer : UInt8) (messageId : Bytes32) :
    Except Revert (NativeAblationReceiverV1 × AblationEffect) := do
  revertIf (x.consumedAttempts data.attemptId) (.duplicateAttempt data.attemptId)
  revertIf (x.consumedMessages messageId) (.duplicateMessageId messageId)
  x._commitEffect data layer messageId

/-- The payload of a heterogeneous route, as both entries read it. -/
def heterogeneousPayload (payload : Bytes) : Except Revert Data := do
  let data ← orRevert .decoding (decodeData payload)
  validate data
  let heterogeneous ← isHeterogeneous data.route
  revertIf (heterogeneous = false) .invalidRecord
  return data

/-- What B2 expects of one receipt: an entry of `expectedSrc`, `expectedDst` and `expectedProfiles`. -/
structure ExpectedHop where
  src : Bytes32
  dst : Bytes32
  profile : Bytes32
  deriving DecidableEq

def expectedProfiles (x : NativeAblationReceiverV1) (route : BytesN 2) : Bytes32 × Bytes32 :=
  if route = HL then (x.hyperlaneABProfile, x.layerZeroBCProfile) else (x.layerZeroABProfile, x.hyperlaneBCProfile)

/-- The entries of the three arrays at the two indices. -/
def expectedHops (x : NativeAblationReceiverV1) (route : BytesN 2) : List ExpectedHop :=
  [⟨x.sourceGatewayHash, x.intermediateGatewayHash, (x.expectedProfiles route).1⟩,
    ⟨x.intermediateGatewayHash, x.destinationGatewayHash, (x.expectedProfiles route).2⟩]

/-- The body of the loop of `deliverB2`, over its `prefix` and `bundle`. -/
def b2Step (adapter : Carrier) (recordDigest contextDigest : Bytes32) (s : Bytes32 × Bytes32) (i : Nat)
    (receipt : Receipt) (expected : ExpectedHop) : Except Revert (Bytes32 × Bytes32) := do
  let transition ← transitionHash recordDigest contextDigest receipt.srcGateway receipt.dstGateway
  revertIf (receipt.priorPrefix ≠ s.1) (.invalidReceipt i)
  let srcHash ← typedIdHash receipt.srcGateway
  revertIf (srcHash ≠ expected.src) (.invalidReceipt i)
  let dstHash ← typedIdHash receipt.dstGateway
  revertIf (dstHash ≠ expected.dst ∨ receipt.profileHash ≠ expected.profile ∨ receipt.transitionHash ≠ transition)
    (.invalidReceipt i)
  let verified ← orRevert .callFailed (adapter.verify receipt.profileHash receipt.evidenceHash transition)
  revertIf (verified = false) (.evidenceRejected i)
  let receiptDigest ← receiptHash receipt
  return (nextPrefix s.1 receiptDigest, bundleStep s.2 i receipt.profileHash receipt.evidenceHash transition)

def b2Loop (adapter : Carrier) (recordDigest contextDigest : Bytes32) :
    Bytes32 × Bytes32 → Nat → List (Receipt × ExpectedHop) → Except Revert (Bytes32 × Bytes32)
  | s, _, [] => .ok s
  | s, i, (receipt, expected) :: hops => do
    let s ← b2Step adapter recordDigest contextDigest s i receipt expected
    b2Loop adapter recordDigest contextDigest s (i + 1) hops

/-- Returns the message id and the event as well. -/
def deliverB2 (x : NativeAblationReceiverV1) (env : Env) (sender : Address) (payload : Bytes) (record : Record)
    (context : VerifiedContext) (registryVersion : UInt32) (receipts : List Receipt) :
    Except Revert (NativeAblationReceiverV1 × Bytes32 × AblationEffect) := do
  revertIf (sender ≠ x.runner) .invalidAuthority
  revertIf (receipts.length ≠ 2 ∨ record.payloadHash ≠ keccak256 payload) .invalidRecord
  let sourceDigest ← typedIdHash record.sourceGateway
  revertIf (sourceDigest ≠ x.sourceGatewayHash) .invalidRecord
  let destination ← _evmAddress record.destinationApp
  revertIf (destination ≠ x.thisAddress) .invalidRecord
  let data ← heterogeneousPayload payload
  let recordDigest ← recordHash record
  let contextDigest := contextHash context
  let rid ← rootId record.sourceGateway recordDigest contextDigest registryVersion
  let mid ← messageId rid record.destinationApp
  let second ← secondIsHyperlane data.route
  let adapter := env.carriers (if second then x.hyperlaneXirAdapter else x.layerZeroXirAdapter)
  let (_, bundle) ← b2Loop adapter recordDigest contextDigest (rootPrefix rid, bundleStart 2) 0
    (receipts.zip (x.expectedHops data.route))
  let verified ← orRevert .callFailed (adapter.verifyBundle bundle)
  revertIf (verified = false) .bundleRejected
  let (x, effect) ← x._apply data B2 mid
  return (x, mid, effect)

/-- Returns the event as well. -/
def xirReceive (x : NativeAblationReceiverV1) (sender : Address) (mid : Bytes32) (payload : Bytes) :
    Except Revert (NativeAblationReceiverV1 × AblationEffect) := do
  revertIf (sender ≠ x.xirGateway) .invalidAuthority
  let data ← heterogeneousPayload payload
  x._apply data B3 mid

end NativeAblationReceiverV1

end Xir.Impl
