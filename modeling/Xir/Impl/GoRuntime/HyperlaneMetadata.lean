import Xir.Impl.GoRuntime.Hyperlane
import Xir.Impl.GoRuntime.Transactor

/-!
# `go-runtime/internal/hyperlane/metadata.go`

An `int` of an offset is an `Int64`, since the sum that `metadataSignatureAt`
computes wraps around, and a slice expression whose bounds are out of range
panics.
-/

namespace Xir.Impl

/-- What a call of a Go function comes to. -/
inductive GoCall (α : Type)
  | value (a : α)
  | err (e : RuntimeError)
  | panic
  deriving DecidableEq

/-- `b[low:high]`, where no more than `b` itself was allocated. -/
def goSlice (b : GoBytes) (low high : Int64) : GoCall GoBytes :=
  if 0 ≤ low ∧ low ≤ high ∧ high.toInt ≤ b.length then .value (slice b low.toInt.toNat high.toInt.toNat) else .panic

/-- `bytes.Compare`. -/
def bytesCompare : GoBytes → GoBytes → Ordering
  | [], [] => .eq
  | [], _ :: _ => .lt
  | _ :: _, [] => .gt
  | a :: as, b :: bs => if a < b then .lt else if b < a then .gt else bytesCompare as bs

namespace Hyperlane

def MetadataOriginMerkleTreeHookOffset : Nat := 0
def MetadataRootOffset : Nat := 32
def MetadataIndexOffset : Nat := 64
def MetadataSignaturesOffset : Nat := 68

def SignatureLength : Nat := 65

/-- The largest `s` that the recovery on chain accepts. -/
def secp256k1HalfOrder : GoBytes32 := #v[
  0x7f, 0xff, 0xff, 0xff, 0xff, 0xff, 0xff, 0xff,
  0xff, 0xff, 0xff, 0xff, 0xff, 0xff, 0xff, 0xff,
  0x5d, 0x57, 0x6e, 0x73, 0x57, 0xa4, 0x50, 0x1d,
  0xdf, 0xe9, 0x2f, 0x46, 0x68, 0x1b, 0x20, 0xa0]

/-- `AddressToBytes32`. -/
def addressToBytes32 (address : GoAddress) : GoBytes32 := copy32 (List.replicate 12 0 ++ address.toList)

/-- `SignatureCount`. -/
def signatureCount (signatures : GoBytes) : Except RuntimeError Nat := do
  let remainder := signatures.length % SignatureLength
  revertIf (remainder ≠ 0) (.errorf ("hyperlane: signatures length " ++ toString signatures.length ++ " is " ++
    toString remainder ++ " bytes past a signature boundary"))
  return signatures.length / SignatureLength

/-- What `validateSignatures` checks of the signature at an index. -/
def validateSignature (index : Nat) (signature : GoBytes) : Except RuntimeError Unit := do
  let r := copy32 (signature.take 32)
  let s := copy32 (slice signature 32 64)
  revertIf (r = zero32 ∨ s = zero32) (.errorf ("hyperlane: signature " ++ toString index ++ " has a zero r or s value"))
  revertIf (bytesCompare s.toList secp256k1HalfOrder.toList = .gt)
    (.errorf ("hyperlane: signature " ++ toString index ++ " has a high s value (not low-s canonical)"))
  let v := signature.getD 64 0
  revertIf (v ≠ 27 ∧ v ≠ 28)
    (.errorf ("hyperlane: signature " ++ toString index ++ " has v " ++ toString v ++ ", want 27 or 28"))

def validateSignatures (signatures : GoBytes) (count : Nat) : Except RuntimeError Unit :=
  (List.range count).forM fun index =>
    validateSignature index (slice signatures (index * SignatureLength) ((index + 1) * SignatureLength))

/-- `Metadata`. -/
def metadata (originMerkleTreeHook : GoAddress) (root : GoBytes32) (index : UInt32) (signatures : GoBytes) :
    Except RuntimeError GoBytes := do
  let count ← signatureCount signatures
  revertIf (count = 0)
    (.errorf "hyperlane: metadata needs at least one validator signature (the ISM requires threshold > 0)")
  validateSignatures signatures count
  let metadata := (addressToBytes32 originMerkleTreeHook).toList
  let metadata := metadata ++ root.toList
  let metadata := BigEndian.appendUint32 metadata index
  return metadata ++ signatures

def requireLength (metadata : GoBytes) (length : Int64) (field : String) : Except RuntimeError Unit :=
  revertIf ((metadata.length : Int) < length.toInt)
    (.errorf ("hyperlane: metadata length " ++ toString metadata.length ++
    " cannot hold the " ++ field ++ " field (" ++ toString length ++ " bytes)"))

def metadataOriginMerkleTreeHook (metadata : GoBytes) : Except RuntimeError GoBytes32 := do
  requireLength metadata 32 "origin merkle tree hook"
  return copy32 (slice metadata MetadataOriginMerkleTreeHookOffset MetadataRootOffset)

def metadataRoot (metadata : GoBytes) : Except RuntimeError GoBytes32 := do
  requireLength metadata 64 "merkle root"
  return copy32 (slice metadata MetadataRootOffset MetadataIndexOffset)

def metadataIndex (metadata : GoBytes) : Except RuntimeError UInt32 := do
  requireLength metadata 68 "merkle index"
  return BigEndian.uint32 (slice metadata MetadataIndexOffset MetadataSignaturesOffset)

/-- `MetadataSignatureAt`. -/
def metadataSignatureAt (metadata : GoBytes) (index : Int64) : GoCall GoBytes :=
  if index < 0 then .err (.errorf ("hyperlane: signature index " ++ toString index ++ " is negative"))
  else
    let start := 68 + index * 65
    match requireLength metadata (start + 65) "signature" with
    | .ok _ => goSlice metadata start (start + 65)
    | .error e => .err e

end Hyperlane

end Xir.Impl
