import Xir.Impl.Contracts.NativeMultihopPayload

/-!
# `native/NativeMultihopReceiver.sol`
-/

namespace Xir.Impl

structure NativeMultihopReceiver where
  xirGateway : Address
  effectStateHash : Bytes32
  deliveryCount : Nat
  consumedAttempts : Bytes32 → Bool
  consumedMessages : Bytes32 → Bool
  effectClassForAttempt : Bytes32 → Bytes32

/-- The event `NativeMultihopEffectApplied`: what the effect is of. -/
structure Effect where
  attemptId : Bytes32
  effectClass : Bytes32
  messageId : Bytes32
  deriving DecidableEq

namespace NativeMultihopReceiver

open NativeMultihopPayload

/-- The constructor. -/
def new (xirGateway : Address) (initialStateHash : Bytes32) : Except Revert NativeMultihopReceiver := do
  revertIf (xirGateway = 0) .invalidAuthority
  return ⟨xirGateway, initialStateHash, 0, fun _ => false, fun _ => false, fun _ => 0⟩

variable [Keccak]

/-- Returns the event as well. -/
def xirReceive (x : NativeMultihopReceiver) (sender : Address) (messageId : Bytes32) (payload : Bytes) :
    Except Revert (NativeMultihopReceiver × Effect) := do
  revertIf (sender ≠ x.xirGateway) .invalidAuthority
  let data ← decode payload
  revertIf (x.consumedAttempts data.attemptId) (.duplicateAttempt data.attemptId)
  revertIf (x.consumedMessages messageId) (.duplicateMessageId messageId)
  let beforeStateHash := x.effectStateHash
  let effectClass := effectClassHash data
  revertIf (2 ^ 256 ≤ x.deliveryCount + 1) (.panic 0x11)
  let deliveryCount := x.deliveryCount + 1
  return ({ x with
    consumedAttempts := Function.update x.consumedAttempts data.attemptId true
    consumedMessages := Function.update x.consumedMessages messageId true
    effectClassForAttempt := Function.update x.effectClassForAttempt data.attemptId effectClass
    deliveryCount := deliveryCount
    effectStateHash := keccak256 (Abi.encode [.static beforeStateHash, .static data.attemptId, .static effectClass,
      .static messageId, .static (word deliveryCount)]) }, ⟨data.attemptId, effectClass, messageId⟩)

end NativeMultihopReceiver

end Xir.Impl
