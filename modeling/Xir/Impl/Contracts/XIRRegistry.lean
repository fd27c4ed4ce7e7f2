import Mathlib.Logic.Function.Basic
import Xir.Impl.Contracts.XIRTypes

/-!
# `XIRRegistry.sol`
-/

namespace Xir.Impl

structure RootSnapshot where
  gatewayHash : Bytes32
  signer : Address
  validAfter : UInt64
  validUntil : UInt64
  enabled : Bool
  deriving DecidableEq

structure ProfileSnapshot where
  srcHash : Bytes32
  dstHash : Bytes32
  adapter : Address
  securityLevel : UInt8
  validAfter : UInt64
  validUntil : UInt64
  enabled : Bool
  deriving DecidableEq

instance : Zero RootSnapshot := ⟨⟨0, 0, 0, 0, false⟩⟩

instance : Zero ProfileSnapshot := ⟨⟨0, 0, 0, 0, 0, 0, false⟩⟩

structure XIRRegistry where
  owner : Address
  roots : UInt32 → RootSnapshot
  profiles : Bytes32 → ProfileSnapshot

namespace XIRRegistry

/-- The constructor. -/
def new (owner : Address) : XIRRegistry := ⟨owner, 0, 0⟩

def onlyOwner (registry : XIRRegistry) (sender : Address) : Except Revert Unit :=
  revertIf (sender ≠ registry.owner) .unauthorized

def _checkWindow (validAfter validUntil : UInt64) : Except Revert Unit :=
  revertIf (validUntil ≠ 0 ∧ validUntil ≤ validAfter) .invalidWindow

def setRoot (registry : XIRRegistry) (sender : Address) (version : UInt32) (snapshot : RootSnapshot) :
    Except Revert XIRRegistry := do
  registry.onlyOwner sender
  _checkWindow snapshot.validAfter snapshot.validUntil
  return { registry with roots := Function.update registry.roots version snapshot }

def setProfile (registry : XIRRegistry) (sender : Address) (profileHash : Bytes32) (snapshot : ProfileSnapshot) :
    Except Revert XIRRegistry := do
  registry.onlyOwner sender
  _checkWindow snapshot.validAfter snapshot.validUntil
  return { registry with profiles := Function.update registry.profiles profileHash snapshot }

def rootAt (registry : XIRRegistry) (version : UInt32) : RootSnapshot := registry.roots version

def profileAt (registry : XIRRegistry) (profileHash : Bytes32) : ProfileSnapshot := registry.profiles profileHash

end XIRRegistry

end Xir.Impl
