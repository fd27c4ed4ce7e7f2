import Xir.Impl.Contracts.NativeMultihopPayload
import Xir.Impl.Contracts.XIRGateway

/-!
# `native/NativeMultihopTransitionRecorder.sol`

The recorder reads its gateway, whose `verifyTrace` is a view: `record` is given
the gateway as it is at the call, and what the gateway reads.
-/

namespace Xir.Impl

variable [Keccak]

/-- The gateway is immutable, so its state is given to each call. -/
structure NativeMultihopTransitionRecorder where
  intermediateGateway : Address
  runner : Address
  transitionForAttemptHop : Bytes32 → Bytes32

/-- The event `NativeMultihopTransitionRecorded`. -/
structure TransitionRecorded where
  attemptId : Bytes32
  hopIndex : UInt8
  routeSequence : UInt64
  route : Bytes
  inboundProfileHash : Bytes32
  outboundProfileHash : Bytes32
  protocolTransitionHash : Bytes32
  rid : Bytes32
  mid : Bytes32
  verifiedPrefix : Bytes32
  verifiedReceiptCount : Nat
  deriving DecidableEq

namespace NativeMultihopTransitionRecorder

open NativeMultihopPayload XIREncoding

/-- The constructor. -/
def new (intermediateGateway runner : Address) : Except Revert NativeMultihopTransitionRecorder := do
  revertIf (intermediateGateway = 0 ∨ runner = 0) .unauthorized
  return ⟨intermediateGateway, runner, fun _ => 0⟩

/-- `keccak256(abi.encode(data.attemptId, hopIndex))`. -/
def key (attemptId : Bytes32) (hopIndex : UInt8) : Bytes32 :=
  keccak256 (Abi.encode [.static attemptId, .static (word hopIndex.toNat)])

/-- What is hashed for a transition. -/
def transitionPreimage (data : Data) (hopIndex : UInt8) (payloadHash : Bytes32) (inbound : Receipt)
    (outboundProfileHash rid mid tracePrefix : Bytes32) : Bytes :=
  Abi.encode [.static (keccak256 (ascii "XIR_NATIVE_MULTIHOP_PROTOCOL_TRANSITION_V1")), .static data.attemptId,
    .dynamic (Abi.encodeBytes data.route), .static (word data.routeSequence.toNat), .static (word hopIndex.toNat),
    .static payloadHash, .static inbound.profileHash, .static inbound.evidenceHash, .static inbound.transitionHash,
    .static outboundProfileHash, .static rid, .static mid, .static tracePrefix]

/-- Returns the event as well, which has the hash that the function returns. -/
def record (x : NativeMultihopTransitionRecorder) (gateway : XIRGateway) (env : Env) (sender : Address)
    (encodedPayload : Bytes) (inboundEnvelope : Envelope) (hopIndex : UInt8) (outboundProfileHash : Bytes32) :
    Except Revert (NativeMultihopTransitionRecorder × TransitionRecorded) := do
  revertIf (sender ≠ x.runner) .unauthorized
  revertIf (outboundProfileHash = 0) .invalidOutboundProfile
  let data ← decode encodedPayload
  let switches ← switchAt data.route hopIndex
  revertIf (switches = false) .notCarrierSwitch
  revertIf (keccak256 encodedPayload ≠ inboundEnvelope.record.payloadHash) .payloadMismatch
  revertIf (inboundEnvelope.receipts.length ≠ hopIndex.toNat) .wrongInboundReceiptCount
  let key := key data.attemptId hopIndex
  revertIf (x.transitionForAttemptHop key ≠ 0) (.transitionAlreadyRecorded key)
  let (rid, mid, tracePrefix) ← gateway.verifyTrace env inboundEnvelope
  let inbound ← orRevert (.panic 0x32) inboundEnvelope.receipts[hopIndex.toNat - 1]?
  let protocolTransitionHash := keccak256 (transitionPreimage data hopIndex inboundEnvelope.record.payloadHash inbound
    outboundProfileHash rid mid tracePrefix)
  return ({ x with
    transitionForAttemptHop := Function.update x.transitionForAttemptHop key protocolTransitionHash },
    ⟨data.attemptId, hopIndex, data.routeSequence, data.route, inbound.profileHash, outboundProfileHash,
      protocolTransitionHash, rid, mid, tracePrefix, inboundEnvelope.receipts.length⟩)

end NativeMultihopTransitionRecorder

end Xir.Impl
