import Xir.Impl.GoRuntime.Stdlib

/-!
# The packets of `go-runtime/internal/layerzero/layerzero.go`
-/

namespace Xir.Impl.LayerZero

def PacketHeaderBytes : Nat := 81
def PacketGUIDOffset : Nat := 81
def PacketMessageOffset : Nat := 113
def PacketVersion : UInt8 := 1

structure Packet where
  encoded : GoBytes
  header : GoBytes
  version : UInt8
  nonce : UInt64
  sourceEID : UInt32
  sender : GoBytes32
  destinationEID : UInt32
  receiver : GoBytes32
  guid : GoBytes32
  message : GoBytes
  payloadHash : GoBytes32

/-- `ReceiverAddress`, the 20 bytes of an address. -/
def Packet.receiverAddress (p : Packet) : Except RuntimeError GoBytes := do
  revertIf (p.receiver.toList.take 12 ≠ List.replicate 12 0)
    (.errorf "layerzero: packet receiver is not an EVM bytes32 address")
  return p.receiver.toList.drop 12

/-- `DecodePacket`. -/
def decodePacket [Digests] (encoded : GoBytes) : Except RuntimeError Packet := do
  revertIf (encoded.length < PacketMessageOffset) (.errorf ("layerzero: packet is " ++ toString encoded.length ++
    " bytes, shorter than the PacketV1Codec header of " ++ toString PacketMessageOffset))
  revertIf (encoded.getD 0 0 ≠ PacketVersion) (.errorf ("layerzero: packet version " ++
    toString (encoded.getD 0 0).toNat ++ " is not V1"))
  let packet : Packet := {
    encoded
    header := encoded.take PacketHeaderBytes
    version := encoded.getD 0 0
    nonce := BigEndian.uint64 (slice encoded 1 9)
    sourceEID := BigEndian.uint32 (slice encoded 9 13)
    sender := copy32 (slice encoded 13 45)
    destinationEID := BigEndian.uint32 (slice encoded 45 49)
    receiver := copy32 (slice encoded 49 81)
    guid := copy32 (slice encoded PacketGUIDOffset PacketMessageOffset)
    message := encoded.drop PacketMessageOffset
    payloadHash := Digests.keccak256 (encoded.drop PacketGUIDOffset) }
  let _ ← packet.receiverAddress
  return packet

end Xir.Impl.LayerZero
