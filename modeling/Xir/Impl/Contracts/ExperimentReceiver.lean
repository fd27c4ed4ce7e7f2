import Xir.Impl.Contracts.XIRTypes

/-!
# `ExperimentReceiver.sol`
-/

namespace Xir.Impl

inductive ReceiverMode
  | baseline
  | xir
  deriving DecidableEq

structure ExperimentReceiver where
  authority : Address
  expectedPayloadHash : Bytes32
  initialStateHash : Bytes32
  mode : ReceiverMode
  deliveryCount : Nat
  lastPayloadHash : Bytes32
  lastMessageId : Bytes32
  consumed : Bytes32 → Bool

namespace ExperimentReceiver

/-- The constructor. -/
def new (authority : Address) (expectedPayloadHash initialStateHash : Bytes32) (mode : ReceiverMode) :
    Except Revert ExperimentReceiver := do
  revertIf (authority = 0) .unauthorizedCaller
  return ⟨authority, expectedPayloadHash, initialStateHash, mode, 0, 0, 0, fun _ => false⟩

variable [Keccak]

def _receiveEffect (x : ExperimentReceiver) (sender : Address) (messageId : Bytes32) (payload : Bytes) :
    Except Revert ExperimentReceiver := do
  revertIf (sender ≠ x.authority) .unauthorizedCaller
  let payloadHash := keccak256 payload
  revertIf (payloadHash ≠ x.expectedPayloadHash) .payloadMismatch
  revertIf (x.consumed messageId) .duplicateMessage
  revertIf (2 ^ 256 ≤ x.deliveryCount + 1) (.panic 0x11)
  return { x with
    consumed := Function.update x.consumed messageId true
    deliveryCount := x.deliveryCount + 1
    lastPayloadHash := payloadHash
    lastMessageId := messageId }

def baselineReceive (x : ExperimentReceiver) (sender : Address) (messageId : Bytes32) (payload : Bytes) :
    Except Revert ExperimentReceiver := do
  revertIf (x.mode ≠ .baseline) .wrongReceiverMode
  x._receiveEffect sender messageId payload

def xirReceive (x : ExperimentReceiver) (sender : Address) (messageId : Bytes32) (payload : Bytes) :
    Except Revert ExperimentReceiver := do
  revertIf (x.mode ≠ .xir) .wrongReceiverMode
  x._receiveEffect sender messageId payload

end ExperimentReceiver

end Xir.Impl
