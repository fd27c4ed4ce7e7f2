import Xir.Impl.Contracts.XIRTypes

/-!
# `native/NativeRoutePayload.sol`
-/

namespace Xir.Impl.NativeRoutePayload

def HH : BytesN 2 := ⟨[0x48, 0x48], rfl⟩
def HL : BytesN 2 := ⟨[0x48, 0x4c], rfl⟩
def LH : BytesN 2 := ⟨[0x4c, 0x48], rfl⟩
def LL : BytesN 2 := ⟨[0x4c, 0x4c], rfl⟩

structure Data where
  attemptId : Bytes32
  route : BytesN 2
  routeSequence : UInt64
  applicationPayload : Bytes
  deriving DecidableEq

/-- The `bytes2` in a word, whose other bytes must be zero. -/
def bytes2Of (w : Bytes32) : Option (BytesN 2) :=
  if w.val.drop 2 = List.replicate 30 0 then
    some ⟨w.val.take 2, by rw [List.length_take, BytesN.length_val]; rfl⟩
  else none

/-- `abi.decode(encoded, (Data))`. -/
def decodeData (encoded : Bytes) : Option Data := do
  let tuple := encoded.drop (← Abi.sizeAt encoded 0)
  let attemptId ← Abi.wordAt tuple 0
  let route ← bytes2Of (← Abi.wordAt tuple 32)
  let routeSequence ← Abi.wordAt tuple 64
  let applicationPayload ← Abi.bytesAt tuple (← Abi.sizeAt tuple 96)
  if wordVal routeSequence < 2 ^ 64 then
    some ⟨attemptId, route, UInt64.ofNat (wordVal routeSequence), applicationPayload⟩
  else none

def validate (data : Data) : Except Revert Unit := do
  revertIf (data.attemptId = 0) .invalidAttempt
  revertIf (data.applicationPayload.length = 0) .emptyApplicationPayload
  revertIf (data.route ≠ HH ∧ data.route ≠ HL ∧ data.route ≠ LH ∧ data.route ≠ LL) (.invalidRouteLabel data.route)

def isHeterogeneous (route : BytesN 2) : Except Revert Bool :=
  if route = HL ∨ route = LH then .ok true
  else if route = HH ∨ route = LL then .ok false
  else .error (.invalidRouteLabel route)

def secondIsHyperlane (route : BytesN 2) : Except Revert Bool :=
  if route = HH ∨ route = LH then .ok true
  else if route = HL ∨ route = LL then .ok false
  else .error (.invalidRouteLabel route)

end Xir.Impl.NativeRoutePayload
