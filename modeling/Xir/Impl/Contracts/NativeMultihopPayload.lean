import Xir.Impl.Contracts.XIRTypes

/-!
# `native/NativeMultihopPayload.sol`
-/

namespace Xir.Impl.NativeMultihopPayload

structure Data where
  attemptId : Bytes32
  route : Bytes
  routeSequence : UInt64
  applicationPayload : Bytes
  deriving DecidableEq

/-- `abi.decode(encoded, (Data))`. -/
def decodeData (encoded : Bytes) : Option Data := do
  let tuple := encoded.drop (← Abi.sizeAt encoded 0)
  let attemptId ← Abi.wordAt tuple 0
  let route ← Abi.bytesAt tuple (← Abi.sizeAt tuple 32)
  let routeSequence ← Abi.wordAt tuple 64
  let applicationPayload ← Abi.bytesAt tuple (← Abi.sizeAt tuple 96)
  if wordVal routeSequence < 2 ^ 64 then
    some ⟨attemptId, route, UInt64.ofNat (wordVal routeSequence), applicationPayload⟩
  else none

/-- The loop of `validateRoute`. -/
def validateHops : Bytes → Except Revert Unit
  | [] => .ok ()
  | hop :: hops => do
    revertIf (hop ≠ 'H'.toNat ∧ hop ≠ 'L'.toNat) .invalidRoute
    validateHops hops

def validateRoute (route : Bytes) : Except Revert Unit := do
  revertIf (route.length = 0 ∨ route.length > 4) .invalidRoute
  validateHops route

def decode (encoded : Bytes) : Except Revert Data := do
  let data ← orRevert .decoding (decodeData encoded)
  validateRoute data.route
  return data

/-- Whether the carriers of the hops before and after the gateway differ. -/
def switchAt (route : Bytes) (hopIndex : UInt8) : Except Revert Bool := do
  validateRoute route
  revertIf (hopIndex = 0 ∨ route.length ≤ hopIndex.toNat) .invalidRoute
  return route.getD (hopIndex.toNat - 1) 0 ≠ route.getD hopIndex.toNat 0

variable [Keccak]

def effectClassHash (data : Data) : Bytes32 :=
  keccak256 (Abi.encode [.static (word data.routeSequence.toNat), .static (keccak256 data.applicationPayload)])

end Xir.Impl.NativeMultihopPayload
