import Xir.Impl.GoRuntime.Stdlib

/-!
# `src/xir_lab/native/layerzero.py`

The packets, and the calls that a worker makes for one. `bytes` are as in Go, and
an `int` that is read from them is a `Nat`.
-/

namespace Xir.Impl.XirLab

def PACKET_HEADER_BYTES : Nat := 81
def PACKET_GUID_OFFSET : Nat := 81
def PACKET_MESSAGE_OFFSET : Nat := 113
def PACKET_VERSION : Nat := 1

structure LayerZeroPacket where
  encoded : GoBytes
  header : GoBytes
  version : Nat
  nonce : Nat
  sourceEID : Nat
  sender : GoBytes
  destinationEID : Nat
  receiver : GoBytes
  guid : GoBytes
  message : GoBytes
  payloadHash : GoBytes

/-- A `LocalTopologyError`. -/
structure LocalTopologyError where
  text : String
  deriving DecidableEq

/-- `receiver_address`. -/
def LayerZeroPacket.receiverAddress (p : LayerZeroPacket) : Except LocalTopologyError String := do
  revertIf ((p.receiver.take 12).any (· ≠ 0)) ⟨"LayerZero receiver is not an EVM bytes32 address"⟩
  return "0x" ++ String.ofList (Hex.encode (p.receiver.drop 12))

/-- `decode_packet`. -/
def decodePacket [Digests] (encoded : GoBytes) : Except LocalTopologyError LayerZeroPacket := do
  revertIf (encoded.length < PACKET_MESSAGE_OFFSET) ⟨"LayerZero packet is shorter than PacketV1Codec"⟩
  revertIf ((encoded.getD 0 0).toNat ≠ PACKET_VERSION) ⟨"LayerZero packet version is not V1"⟩
  let receiver := slice encoded 49 81
  let packet : LayerZeroPacket := {
    encoded
    header := encoded.take PACKET_HEADER_BYTES
    version := (encoded.getD 0 0).toNat
    nonce := Uint.value (slice encoded 1 9)
    sourceEID := Uint.value (slice encoded 9 13)
    sender := slice encoded 13 45
    destinationEID := Uint.value (slice encoded 45 49)
    receiver
    guid := slice encoded PACKET_GUID_OFFSET PACKET_MESSAGE_OFFSET
    message := encoded.drop PACKET_MESSAGE_OFFSET
    payloadHash := (Digests.keccak256 (encoded.drop PACKET_GUID_OFFSET)).toList }
  let _ ← packet.receiverAddress
  return packet

/-! ## Calls -/

/-- An argument of `eth_abi.encode`. -/
inductive AbiValue
  | uint (n : Int)
  | text (value : String)
  | bytes (value : GoBytes)
  | tuple (components : List AbiValue)
  | array (items : List AbiValue)

/-- What is used of `eth_abi` and `eth_account` to build a call. -/
class AbiLibraries where
  /-- `keccak(text=signature)[:4]`. -/
  selector (signature : String) : GoBytes
  /-- `eth_abi.encode`, or the text of what it raises. -/
  encode (types : List String) (values : List AbiValue) : Except String GoBytes
  /-- `Account.sign_message(encode_defunct(primitive=digest), private_key)`. -/
  signMessage (privateKey : String) (digest : GoBytes) : Except String GoBytes

structure DVNInstruction where
  vid : Nat
  target : String
  callData : GoBytes
  expiration : Int
  instructionHash : GoBytes
  signature : GoBytes

/-- What a `LocalTopologyError` or another exception is raised with. -/
inductive CallError
  | topology (error : LocalTopologyError)
  | raised (text : String)

section

variable [Digests] [AbiLibraries]

open AbiLibraries (selector encode signMessage)

/-- `build_dvn_instruction`. -/
def buildDVNInstruction (vid : Nat) (receiveULNAddress : String) (packet : LayerZeroPacket)
    (confirmations expiration : Int) (signerPrivateKey : String) : Except CallError DVNInstruction := do
  revertIf (¬ (0 < vid ∧ vid < 2 ^ 32)) (.topology ⟨"LayerZero DVN vid is out of range"⟩)
  revertIf (¬ (0 ≤ confirmations ∧ confirmations < 2 ^ 64)) (.topology ⟨"LayerZero confirmations are out of range"⟩)
  revertIf (expiration ≤ 0) (.topology ⟨"LayerZero DVN expiration is invalid"⟩)
  let invalid := CallError.topology ⟨"LayerZero receive ULN address is invalid"⟩
  let target ← orRevert invalid (Hex.decode (Strings.trimPrefix receiveULNAddress "0x").toList)
  revertIf (target.length ≠ 20 ∨ target.all (· = 0)) invalid
  let arguments ← (encode ["bytes", "bytes32", "uint64"]
    [.bytes packet.header, .bytes packet.payloadHash, .uint confirmations]).mapError .raised
  let callData := selector "verify(bytes,bytes32,uint64)" ++ arguments
  let packed := Uint.bytes 4 vid ++ target ++ Uint.bytes 32 expiration.toNat ++ callData
  let instructionHash := (Digests.keccak256 packed).toList
  let signature ← (signMessage signerPrivateKey instructionHash).mapError .raised
  return ⟨vid, "0x" ++ String.ofList (Hex.encode target), callData, expiration, instructionHash, signature⟩

/-- `encode_dvn_execute`. -/
def encodeDVNExecute (instruction : DVNInstruction) : Except CallError GoBytes := do
  let arguments ← (encode ["(uint32,address,bytes,uint256,bytes)[]"]
    [.array [.tuple [.uint instruction.vid, .text instruction.target, .bytes instruction.callData,
      .uint instruction.expiration, .bytes instruction.signature]]]).mapError .raised
  return selector "execute((uint32,address,bytes,uint256,bytes)[])" ++ arguments

/-- `encode_commit_verification`. -/
def encodeCommitVerification (packet : LayerZeroPacket) : Except CallError GoBytes := do
  let arguments ← (encode ["bytes", "bytes32"] [.bytes packet.header, .bytes packet.payloadHash]).mapError .raised
  return selector "commitVerification(bytes,bytes32)" ++ arguments

/-- `encode_executor_submission`. -/
def encodeExecutorSubmission (packet : LayerZeroPacket) (gasLimit : Int) : Except CallError GoBytes := do
  let receiverAddress ← packet.receiverAddress.mapError .topology
  let arguments ← (encode ["(address,(uint32,bytes32,uint64),bytes32,bytes,bytes,uint256)"]
    [.tuple [.text receiverAddress, .tuple [.uint packet.sourceEID, .bytes packet.sender, .uint packet.nonce],
      .bytes packet.guid, .bytes packet.message, .bytes [], .uint gasLimit]]).mapError .raised
  return selector "execute302((address,(uint32,bytes32,uint64),bytes32,bytes,bytes,uint256))" ++ arguments

end

end Xir.Impl.XirLab
