import Xir.Impl.Contracts.XIREncoding

/-!
# `go-runtime/internal/xir/xir.go`

The structs of the package have the fields of those of `XIRTypes.sol`, and are
modelled by these. An `int` is an `Int`, and a slice a list whose length is an
`int` of 64 bits.
-/

namespace Xir.Impl

/-- What a Go function ends with when it does not return a value. -/
inductive GoError
  | errorf (text : String)
  | panic (text : String)
  deriving DecidableEq

/-- A Go slice. -/
structure Slice (α : Type) where
  val : List α
  length_lt : val.length < 2 ^ 63

/-- The letter of a hop's protocol in a route. -/
inductive Protocol
  | H
  | L
  deriving DecidableEq

def Protocol.letter : Protocol → Char
  | H => 'H'
  | L => 'L'

/-- A route, a string of such letters in the source. -/
abbrev Route := List Protocol

namespace GoXir

def KindEVM : UInt8 := 1
def KindSolana : UInt8 := 2
def RegistryVersion : UInt32 := 1

open XIREncoding (ascii)

def tagRecord : Bytes := ascii "XIR_RECORD_V1"
def tagContext : Bytes := ascii "XIR_CONTEXT_V1"
def tagRID : Bytes := ascii "XIR_RID_V1"
def tagMID : Bytes := ascii "XIR_MID_V1"
def tagRoot : Bytes := ascii "XIR_ROOT_V1"
def tagTransition : Bytes := ascii "XIR_TRANSITION_V1"
def tagHop : Bytes := ascii "XIR_HOP_V1"
def tagPrefix : Bytes := ascii "XIR_PREFIX_V1"
def tagBundle : Bytes := ascii "XIR_BUNDLE_V1"
def tagBundleStep : Bytes := ascii "XIR_BUNDLE_STEP_V1"
def tagGatewayID : Bytes := ascii "XIR_NATIVE_MULTIHOP_GATEWAY_ID_V1"
def tagMultihopProf : Bytes := ascii "XIR_NATIVE_MULTIHOP_PROFILE_V1"

/-! ## Integers -/

/-- The loop of `uint64Bytes`, `uint32Bytes` and `word`: `count` bytes of `value`, the last
of them at `index`. -/
def putBytes (out : Bytes) (value : Nat) : Nat → Nat → Bytes
  | _, 0 => out
  | index, count + 1 => putBytes (out.set index (value % 256)) (value >>> 8) (index - 1) count

def uint64Bytes (value : UInt64) : Bytes := putBytes (List.replicate 8 0) value.toNat 7 8

def uint32Bytes (value : UInt32) : Bytes := putBytes (List.replicate 4 0) value.toNat 3 4

def word (value : UInt64) : Bytes := putBytes (List.replicate 32 0) value.toNat 31 8

def rightPad (value : Bytes) : Bytes :=
  if value.length % 32 = 0 then value else value ++ List.replicate (32 - value.length % 32) 0

/-! ## Hashes -/

/-- `TypedID.Bytes`. -/
def typedIDBytes (t : TypedId) : Except GoError Bytes :=
  let expected := if t.kind = KindEVM then 20 else if t.kind = KindSolana then 32 else 0
  if expected = 0 ∨ t.value.length ≠ expected then
    .error (.errorf ("invalid XIR typed identifier: kind=" ++ toString t.kind ++ " length=" ++ toString t.value.length))
  else .ok ([t.kind.toNat, t.value.length % 256] ++ t.value)

variable [Keccak]

/-- `TypedID.Hash`. -/
def typedIDHash (t : TypedId) : Except GoError Bytes32 := do
  return keccak256 (← typedIDBytes t)

/-- `Record.Hash`. -/
def recordHash (r : Record) : Except GoError Bytes32 := do
  let sourceGateway ← typedIDBytes r.sourceGateway
  let sourceApp ← typedIDBytes r.sourceApp
  let destinationApp ← typedIDBytes r.destinationApp
  return keccak256 (tagRecord ++ sourceGateway ++ sourceApp ++ destinationApp ++ uint64Bytes r.nonce ++
    r.payloadHash.val)

/-- `Context.Hash`. -/
def contextHash (c : VerifiedContext) : Bytes32 :=
  keccak256 (tagContext ++ [c.requiredSecurity.toNat] ++ c.policyHash.val)

/-- `Receipt.Hash`. -/
def receiptHash (r : Receipt) : Except GoError Bytes32 := do
  let src ← typedIDBytes r.srcGateway
  let dst ← typedIDBytes r.dstGateway
  return keccak256 (tagHop ++ r.priorPrefix.val ++ src ++ dst ++ r.profileHash.val ++ r.evidenceHash.val ++
    r.transitionHash.val)

def rootID (record : Record) (context : VerifiedContext) (registryVersion : UInt32) : Except GoError Bytes32 := do
  let recordDigest ← recordHash record
  let contextDigest := contextHash context
  let id ← typedIDBytes record.sourceGateway
  return keccak256 (tagRID ++ id ++ recordDigest.val ++ contextDigest.val ++ uint32Bytes registryVersion)

def messageID (rid : Bytes32) (destinationApp : TypedId) : Except GoError Bytes32 := do
  let id ← typedIDBytes destinationApp
  return keccak256 (tagMID ++ rid.val ++ id)

def rootPrefix (rid : Bytes32) : Bytes32 := keccak256 (tagRoot ++ rid.val)

def transitionHash (record : Record) (context : VerifiedContext) (source destination : TypedId) :
    Except GoError Bytes32 := do
  let recordDigest ← recordHash record
  let src ← typedIDBytes source
  let dst ← typedIDBytes destination
  let contextDigest := contextHash context
  return keccak256 (tagTransition ++ recordDigest.val ++ contextDigest.val ++ src ++ dst)

def nextPrefix (priorPrefix : Bytes32) (receipt : Receipt) : Except GoError Bytes32 := do
  let receiptDigest ← receiptHash receipt
  return keccak256 (tagPrefix ++ priorPrefix.val ++ receiptDigest.val)

/-! ## Bundles -/

def bundleStart (receiptCount : Int) : Except GoError Bytes32 :=
  if receiptCount < 0 then .error (.panic "xir: negative receipt count")
  else .ok (keccak256 (word 64 ++ word (UInt64.ofNat receiptCount.toNat) ++ word (UInt64.ofNat tagBundle.length) ++
    rightPad tagBundle))

def bundleStep (commitment : Bytes32) (index : Int) (receipt : Receipt) : Except GoError Bytes32 :=
  if index < 0 then .error (.panic "xir: negative bundle index")
  else .ok (keccak256 (word 192 ++ commitment.val ++ word (UInt64.ofNat index.toNat) ++ receipt.profileHash.val ++
    receipt.evidenceHash.val ++ receipt.transitionHash.val ++ word (UInt64.ofNat tagBundleStep.length) ++
    rightPad tagBundleStep))

/-- The loop of `BundleCommitment`. -/
def bundleLoop (commitment : Bytes32) (index : Int) : List Receipt → Except GoError Bytes32
  | [] => .ok commitment
  | receipt :: receipts => do
    bundleLoop (← bundleStep commitment index receipt) (index + 1) receipts

def bundleCommitment (receipts : Slice Receipt) : Except GoError Bytes32 := do
  bundleLoop (← bundleStart receipts.val.length) 0 receipts.val

/-! ## Routes -/

/-- What `%d` prints. -/
def decimal (n : Nat) : Bytes := (Nat.toDigits 10 n).map Char.toNat

/-- What `%s` prints of a route. -/
def routeBytes (route : Route) : Bytes := route.map fun p => p.letter.toNat

def profileHash (route : Route) (hopIndex : Nat) : Except GoError Bytes32 :=
  if hopIndex < 1 ∨ route.length < hopIndex then
    .error (.errorf
      ("multihop profile coordinates are invalid: route=\"" ++ String.ofList (route.map Protocol.letter) ++
      "\" hop=" ++ toString hopIndex))
  else
    let protocol := (route.drop (hopIndex - 1)).take 1
    .ok (keccak256 (tagMultihopProf ++ ascii ":" ++ routeBytes route ++ ascii ":" ++ decimal hopIndex ++ ascii ":" ++
      routeBytes protocol))

def newEVMID (value : Bytes) : Except GoError TypedId := do
  let _ ← typedIDBytes ⟨KindEVM, value⟩
  return ⟨KindEVM, value⟩

def gatewayTypedID (chainID : UInt64) : Except GoError TypedId :=
  newEVMID ((keccak256 (tagGatewayID ++ ascii ":" ++ decimal chainID.toNat)).val.drop 12)

end GoXir

end Xir.Impl
