import Xir.Impl.Contracts.XIREncoding
import Xir.Impl.Contracts.XIRRegistry

/-!
# `XIRGateway.sol`

The gateway reads the time, its registry, the carrier adapters and the
precompiled `ecrecover`: these are in `Env`. `deliver` is in two parts, since
the receiver it calls may do anything before the call returns, a call back into
the gateway included: `deliverStart` is what it does up to the call.
-/

namespace Xir.Impl

open XIREncoding

/-- The views of an `IXIRCarrierAdapter`; `none` if the call reverts, as it does
where no adapter stands. -/
structure Carrier where
  verify : Bytes32 → Bytes32 → Bytes32 → Option Bool
  verifyBundle : Bytes32 → Option Bool

/-- What a gateway reads of its chain. -/
structure Env where
  timestamp : Nat
  registry : XIRRegistry
  carriers : Address → Carrier
  ecrecover : Bytes32 → UInt8 → Bytes32 → Bytes32 → Address

/-- The event `Delivered`. -/
structure Delivered where
  mid : Bytes32
  receiver : Address
  receiptCount : Nat
  deriving DecidableEq

variable [Keccak]

/-- The state of a gateway. The constructor computes `gatewayHash`, which with
`gatewayId` never changes. -/
structure XIRGateway where
  gatewayHash : Bytes32
  gatewayId : TypedId
  nextNonce : Address → UInt64
  consumed : Bytes32 → Bool
  gatewayHash_eq : typedIdHash gatewayId = .ok gatewayHash

namespace XIRGateway

/-- The constructor. -/
def new (gatewayId : TypedId) : Except Revert XIRGateway :=
  match h : typedIdHash gatewayId with
  | .ok gatewayHash => .ok ⟨gatewayHash, gatewayId, fun _ => 0, fun _ => false, h⟩
  | .error e => .error e

def createRecord (gateway : XIRGateway) (sender : Address) (destinationApp : TypedId) (payload : Bytes)
    (context : VerifiedContext) (registryVersion : UInt32) :
    Except Revert (XIRGateway × Record × Bytes32 × Bytes32) := do
  let nonce := gateway.nextNonce sender
  revertIf (2 ^ 64 ≤ nonce.toNat + 1) (.panic 0x11)
  let nextNonce := Function.update gateway.nextNonce sender (nonce + 1)
  let record : Record :=
    { sourceGateway := gateway.gatewayId
      sourceApp := ⟨EVM, sender.val⟩
      destinationApp := destinationApp
      nonce := nonce
      payloadHash := keccak256 payload }
  let recordDigest ← recordHash record
  let rid ← rootId gateway.gatewayId recordDigest (contextHash context) registryVersion
  let mid ← messageId rid destinationApp
  return ({ gateway with nextNonce := nextNonce }, record, rid, mid)

def _active (timestamp : Nat) (enabled : Bool) (validAfter validUntil : UInt64) : Bool :=
  enabled && decide (validAfter.toNat ≤ timestamp) && (validUntil == 0 || decide (timestamp < validUntil.toNat))

def _ethSigned (digest : Bytes32) : Bytes32 :=
  keccak256 ([0x19] ++ ascii "Ethereum Signed Message:\n32" ++ digest.val)

def _evmAddress (id : TypedId) : Except Revert Address :=
  if h : id.kind = EVM ∧ id.value.length = 20 then .ok ⟨id.value, h.2⟩ else .error .receiverMismatch

def _recover (env : Env) (digest : Bytes32) (signature : Bytes) : Address :=
  if h : signature.length = 65 then
    let r : Bytes32 := ⟨signature.take 32, by rw [List.length_take, h]; rfl⟩
    let s : Bytes32 := ⟨(signature.drop 32).take 32, by rw [List.length_take, List.length_drop, h]; rfl⟩
    let v₀ := UInt8.ofNat (signature.getD 64 0)
    let v := if v₀ < 27 then v₀ + 27 else v₀
    if v ≠ 27 ∧ v ≠ 28 then 0 else env.ecrecover digest v r s
  else 0

/-- Returns the root id, the message id and the first prefix. -/
def verifyRoot (env : Env) (envelope : Envelope) : Except Revert (Bytes32 × Bytes32 × Bytes32) := do
  let recordDigest ← recordHash envelope.record
  let contextDigest := contextHash envelope.context
  let rid ← rootId envelope.record.sourceGateway recordDigest contextDigest envelope.certificate.registryVersion
  let root := env.registry.rootAt envelope.certificate.registryVersion
  let gatewayDigest ← typedIdHash envelope.record.sourceGateway
  revertIf (root.gatewayHash ≠ gatewayDigest) .rootMismatch
  revertIf (¬ _active env.timestamp root.enabled root.validAfter root.validUntil) .rootInactive
  revertIf (_recover env (_ethSigned rid) envelope.certificate.signature ≠ root.signer) .invalidRootSignature
  let mid ← messageId rid envelope.record.destinationApp
  return (rid, mid, rootPrefix rid)

/-- The variables of the loop of `verifyTrace`. -/
structure TraceState where
  tracePrefix : Bytes32
  expectedSrc : Bytes32
  bundleCommitment : Bytes32
  bundleAdapter : Address

/-- The body of the loop. -/
def traceStep (env : Env) (requiredSecurity : UInt8) (recordDigest contextDigest : Bytes32) (s : TraceState)
    (i : Nat) (receipt : Receipt) : Except Revert TraceState := do
  let srcHash ← typedIdHash receipt.srcGateway
  let dstHash ← typedIdHash receipt.dstGateway
  revertIf (receipt.priorPrefix ≠ s.tracePrefix ∨ srcHash ≠ s.expectedSrc) (.invalidTrace i)
  let profile := env.registry.profileAt receipt.profileHash
  revertIf (profile.srcHash ≠ srcHash ∨ profile.dstHash ≠ dstHash ∨
    ¬ _active env.timestamp profile.enabled profile.validAfter profile.validUntil) (.profileInactive i)
  revertIf (profile.securityLevel < requiredSecurity) (.policyRefused i)
  let transition ← transitionHash recordDigest contextDigest receipt.srcGateway receipt.dstGateway
  revertIf (receipt.transitionHash ≠ transition) (.invalidTrace i)
  revertIf (receipt.evidenceHash = 0 ∨ profile.adapter = 0) (.evidenceRejected i)
  let verified ← orRevert .callFailed
    ((env.carriers profile.adapter).verify receipt.profileHash receipt.evidenceHash transition)
  revertIf (verified = false) (.evidenceRejected i)
  let receiptDigest ← receiptHash receipt
  return {
    tracePrefix := nextPrefix s.tracePrefix receiptDigest
    expectedSrc := dstHash
    bundleCommitment :=
      bundleStep s.bundleCommitment i receipt.profileHash receipt.evidenceHash receipt.transitionHash
    bundleAdapter := profile.adapter }

def traceLoop (env : Env) (requiredSecurity : UInt8) (recordDigest contextDigest : Bytes32) :
    TraceState → Nat → List Receipt → Except Revert TraceState
  | s, _, [] => .ok s
  | s, i, receipt :: receipts => do
    let s ← traceStep env requiredSecurity recordDigest contextDigest s i receipt
    traceLoop env requiredSecurity recordDigest contextDigest s (i + 1) receipts

/-- Returns the root id, the message id and the last prefix. -/
def verifyTrace (gateway : XIRGateway) (env : Env) (envelope : Envelope) :
    Except Revert (Bytes32 × Bytes32 × Bytes32) := do
  let (rid, mid, tracePrefix) ← verifyRoot env envelope
  let recordDigest ← recordHash envelope.record
  let contextDigest := contextHash envelope.context
  let expectedSrc ← typedIdHash envelope.record.sourceGateway
  let s ← traceLoop env envelope.context.requiredSecurity recordDigest contextDigest
    ⟨tracePrefix, expectedSrc, bundleStart envelope.receipts.length, 0⟩ 0 envelope.receipts
  revertIf (s.expectedSrc ≠ gateway.gatewayHash) .wrongDestination
  if envelope.receipts.length ≠ 0 then
    revertIf (s.bundleAdapter = 0) .bundleRejected
    let verified ← orRevert .callFailed ((env.carriers s.bundleAdapter).verifyBundle s.bundleCommitment)
    revertIf (verified = false) .bundleRejected
  return (rid, mid, s.tracePrefix)

/-- `deliver` up to the call of the receiver. -/
def deliverStart (gateway : XIRGateway) (env : Env) (envelope : Envelope) (payload : Bytes) (receiver : Address) :
    Except Revert (XIRGateway × Bytes32) := do
  revertIf (keccak256 payload ≠ envelope.record.payloadHash) .payloadMismatch
  revertIf (receiver = 0) .receiverMismatch
  let address ← _evmAddress envelope.record.destinationApp
  revertIf (address ≠ receiver) .receiverMismatch
  let (_, mid, _) ← gateway.verifyTrace env envelope
  revertIf (gateway.consumed mid) (.alreadyConsumed mid)
  return ({ gateway with consumed := Function.update gateway.consumed mid true }, mid)

/-- `deliver`, where `xirReceive` says what the call of the receiver makes of the gateway,
or that it reverts. -/
def deliver (gateway : XIRGateway) (env : Env) (envelope : Envelope) (payload : Bytes) (receiver : Address)
    (xirReceive : XIRGateway → Bytes32 → Bytes → Option XIRGateway) :
    Except Revert (XIRGateway × Bytes32 × Delivered) := do
  let (gateway, mid) ← gateway.deliverStart env envelope payload receiver
  let gateway ← orRevert .receiverCallFailed (xirReceive gateway mid payload)
  return (gateway, mid, ⟨mid, receiver, envelope.receipts.length⟩)

end XIRGateway

end Xir.Impl
