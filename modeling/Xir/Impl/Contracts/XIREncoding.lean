import Xir.Impl.Contracts.XIRTypes

/-!
# `XIREncoding.sol`

The hashes of the protocol. `abi.encodePacked` is concatenation; `bundleStart`
and `bundleStep` use the standard encoding.
-/

namespace Xir.Impl.XIREncoding

/-- The bytes of a string constant. -/
def ascii (s : String) : Bytes := s.toList.map Char.toNat

def RECORD_TAG : Bytes := ascii "XIR_RECORD_V1"
def CONTEXT_TAG : Bytes := ascii "XIR_CONTEXT_V1"
def RID_TAG : Bytes := ascii "XIR_RID_V1"
def MID_TAG : Bytes := ascii "XIR_MID_V1"
def ROOT_TAG : Bytes := ascii "XIR_ROOT_V1"
def TRANSITION_TAG : Bytes := ascii "XIR_TRANSITION_V1"
def HOP_TAG : Bytes := ascii "XIR_HOP_V1"
def PREFIX_TAG : Bytes := ascii "XIR_PREFIX_V1"
def BUNDLE_TAG : Bytes := ascii "XIR_BUNDLE_V1"
def BUNDLE_STEP_TAG : Bytes := ascii "XIR_BUNDLE_STEP_V1"

def encodeTypedId (id : TypedId) : Except Revert Bytes := do
  let expected := if id.kind = EVM then 20 else if id.kind = SOLANA then 32 else 0
  revertIf (expected = 0 ∨ id.value.length ≠ expected) (.invalidIdentifier id.kind id.value.length)
  return be 1 id.kind.toNat ++ be 1 id.value.length ++ id.value

variable [Keccak]

def typedIdHash (id : TypedId) : Except Revert Bytes32 := do
  return keccak256 (← encodeTypedId id)

def recordHash (record : Record) : Except Revert Bytes32 := do
  let sourceGateway ← encodeTypedId record.sourceGateway
  let sourceApp ← encodeTypedId record.sourceApp
  let destinationApp ← encodeTypedId record.destinationApp
  return keccak256 (RECORD_TAG ++ sourceGateway ++ sourceApp ++ destinationApp ++
    be 8 record.nonce.toNat ++ record.payloadHash.val)

def contextHash (context : VerifiedContext) : Bytes32 :=
  keccak256 (CONTEXT_TAG ++ be 1 context.requiredSecurity.toNat ++ context.policyHash.val)

def rootId (rootGateway : TypedId) (recordDigest contextDigest : Bytes32) (registryVersion : UInt32) :
    Except Revert Bytes32 := do
  let gateway ← encodeTypedId rootGateway
  return keccak256 (RID_TAG ++ gateway ++ recordDigest.val ++ contextDigest.val ++
    be 4 registryVersion.toNat)

def messageId (rid : Bytes32) (destinationApp : TypedId) : Except Revert Bytes32 := do
  let app ← encodeTypedId destinationApp
  return keccak256 (MID_TAG ++ rid.val ++ app)

def rootPrefix (rid : Bytes32) : Bytes32 := keccak256 (ROOT_TAG ++ rid.val)

def transitionHash (recordDigest contextDigest : Bytes32) (src dst : TypedId) :
    Except Revert Bytes32 := do
  let s ← encodeTypedId src
  let d ← encodeTypedId dst
  return keccak256 (TRANSITION_TAG ++ recordDigest.val ++ contextDigest.val ++ s ++ d)

def receiptHash (receipt : Receipt) : Except Revert Bytes32 := do
  let src ← encodeTypedId receipt.srcGateway
  let dst ← encodeTypedId receipt.dstGateway
  return keccak256 (HOP_TAG ++ receipt.priorPrefix.val ++ src ++ dst ++ receipt.profileHash.val ++
    receipt.evidenceHash.val ++ receipt.transitionHash.val)

def nextPrefix (priorPrefix receiptDigest : Bytes32) : Bytes32 :=
  keccak256 (PREFIX_TAG ++ priorPrefix.val ++ receiptDigest.val)

/-- Starts a length-bound commitment to an ordered receipt-tuple list. -/
def bundleStart (receiptCount : Nat) : Bytes32 :=
  keccak256 (Abi.encode [.dynamic (Abi.encodeBytes BUNDLE_TAG), .static (word receiptCount)])

/-- Extends a bundle commitment with one index-bound receipt tuple. -/
def bundleStep (commitment : Bytes32) (index : Nat) (profileHash evidenceHash transitionDigest : Bytes32) :
    Bytes32 :=
  keccak256 (Abi.encode [.dynamic (Abi.encodeBytes BUNDLE_STEP_TAG), .static commitment, .static (word index),
    .static profileHash, .static evidenceHash, .static transitionDigest])

end Xir.Impl.XIREncoding
