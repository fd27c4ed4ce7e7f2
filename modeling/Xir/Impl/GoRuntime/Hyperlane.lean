import Xir.Impl.GoRuntime.Stdlib

/-!
# `go-runtime/internal/hyperlane/message.go`
-/

namespace Xir.Impl.Hyperlane

def VersionOffset : Nat := 0
def NonceOffset : Nat := 1
def OriginOffset : Nat := 5
def SenderOffset : Nat := 9
def DestinationOffset : Nat := 41
def RecipientOffset : Nat := 45
def BodyOffset : Nat := 77

/-- A packed message, its fields one after the other. -/
abbrev Message := GoBytes

/-- `FormatMessage`. -/
def formatMessage (version : UInt8) (nonce origin : UInt32) (sender : GoBytes32) (destination : UInt32)
    (recipient : GoBytes32) (body : GoBytes) : GoBytes :=
  let message := [version]
  let message := BigEndian.appendUint32 message nonce
  let message := BigEndian.appendUint32 message origin
  let message := message ++ sender.toList
  let message := BigEndian.appendUint32 message destination
  let message := message ++ recipient.toList
  message ++ body

/-- `MessageID`. -/
def messageID [Digests] (message : GoBytes) : GoBytes32 := Digests.keccak256 message

namespace Message

variable (m : Message)

/-- `Validate`. -/
def validate : Except RuntimeError Unit :=
  revertIf (m.length < BodyOffset)
    (.errorf ("hyperlane: message length " ++ toString m.length ++ " shorter than the " ++
    toString BodyOffset ++ "-byte header"))

def version : UInt8 := if m.length < NonceOffset then 0 else m.getD VersionOffset 0

def nonce : UInt32 := if m.length < OriginOffset then 0 else BigEndian.uint32 (slice m NonceOffset OriginOffset)

def origin : UInt32 := if m.length < SenderOffset then 0 else BigEndian.uint32 (slice m OriginOffset SenderOffset)

def sender : GoBytes32 :=
  if m.length < DestinationOffset then zero32 else copy32 (slice m SenderOffset DestinationOffset)

def destination : UInt32 :=
  if m.length < RecipientOffset then 0 else BigEndian.uint32 (slice m DestinationOffset RecipientOffset)

def recipient : GoBytes32 := if m.length < BodyOffset then zero32 else copy32 (slice m RecipientOffset BodyOffset)

def body : GoBytes := if m.length < BodyOffset then [] else m.drop BodyOffset

end Message

end Xir.Impl.Hyperlane
