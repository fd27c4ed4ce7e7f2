import Xir.Impl.Contracts.CarrierAdapter

/-!
# `HyperlaneAdapter.sol`

A function that dispatches returns what it hands to the mailbox.
-/

namespace Xir.Impl

structure HyperlaneAdapter extends CarrierAdapter where
  mailbox : Address
  remoteDomain : UInt32
  remoteAdapter : Bytes32

/-- The arguments of `IHyperlaneMailbox.dispatch`. -/
structure MailboxDispatch where
  destination : UInt32
  recipient : Bytes32
  body : Bytes
  deriving DecidableEq

namespace HyperlaneAdapter

def KIND_XIR : UInt8 := 1
def KIND_BASELINE : UInt8 := 2
def KIND_XIR_BUNDLE : UInt8 := 3

/-- The constructor. -/
def new (mailbox : Address) (remoteDomain : UInt32) (remoteAdapter : Bytes32) (administrator runner : Address) :
    Except Revert HyperlaneAdapter := do
  let a ← CarrierAdapter.new administrator runner
  revertIf (mailbox = 0 ∨ remoteAdapter = 0) .invalidPeer
  return { a with mailbox := mailbox, remoteDomain := remoteDomain, remoteAdapter := remoteAdapter }

def setRemoteAdapter (a : HyperlaneAdapter) (sender : Address) (remoteAdapter : Bytes32) :
    Except Revert HyperlaneAdapter := do
  a.onlyAdministrator sender
  revertIf (remoteAdapter = 0) .invalidPeer
  return { a with remoteAdapter := remoteAdapter }

def setBaselineReceiver (a : HyperlaneAdapter) (sender : Address) (routeId : Bytes32) (receiver : Address) :
    Except Revert HyperlaneAdapter := do
  return { a with toCarrierAdapter := ← a.toCarrierAdapter.setBaselineReceiver sender routeId receiver }

def setPriorVerifier (a : HyperlaneAdapter) (sender : Address) (profileHash : Bytes32) (verifier : Address) :
    Except Revert HyperlaneAdapter := do
  return { a with toCarrierAdapter := ← a.toCarrierAdapter.setPriorVerifier sender profileHash verifier }

def _dispatch (a : HyperlaneAdapter) (body : Bytes) : MailboxDispatch := ⟨a.remoteDomain, a.remoteAdapter, body⟩

def sendSource (a : HyperlaneAdapter) (sender : Address) (body : Bytes) : Except Revert MailboxDispatch := do
  a.onlyRunner sender
  a.whenSourceStartAllowed
  return a._dispatch (← encodeMessage KIND_XIR body)

def forwardInFlight (a : HyperlaneAdapter) (sender : Address) (body : Bytes) : Except Revert MailboxDispatch := do
  a.onlyRunner sender
  a.whenOutboundActive
  return a._dispatch (← encodeMessage KIND_XIR body)

def _bundleBody (request : ForwardRequest) : Except Revert Bytes := do
  encodeMessage KIND_XIR_BUNDLE (← encodeBundle request.bundle)

def _forwardVerified (a : HyperlaneAdapter) (carriers : Address → Carrier) (request : ForwardRequest) :
    Except Revert MailboxDispatch := do
  CarrierAdapter._checkBundle request
  a._checkPriorVerifierBindings request
  a.checkEvidence carriers 0 request.profileHashes request.evidenceHashes request.transitionHashes
  return a._dispatch (← _bundleBody request)

def sendSourceBundle (a : HyperlaneAdapter) (carriers : Address → Carrier) (sender : Address)
    (request : ForwardRequest) : Except Revert MailboxDispatch := do
  a.onlyRunner sender
  a.whenSourceStartAllowed
  a._forwardVerified carriers request

def forwardInFlightBundle (a : HyperlaneAdapter) (carriers : Address → Carrier) (sender : Address)
    (request : ForwardRequest) : Except Revert MailboxDispatch := do
  a.onlyRunner sender
  a.whenOutboundActive
  a._forwardVerified carriers request

def sendBaselineSource (a : HyperlaneAdapter) (sender : Address) (routeId : Bytes32) (message options : Bytes) :
    Except Revert MailboxDispatch := do
  a.onlyRunner sender
  a.whenSourceStartAllowed
  revertIf (options.length ≠ 0) .unsupportedOptions
  return a._dispatch (← encodeMessage KIND_BASELINE (← encodeRoute routeId message))

def forwardBaseline (a : HyperlaneAdapter) (sender : Address) (routeId : Bytes32) (message options : Bytes) :
    Except Revert MailboxDispatch := do
  a.onlyRunner sender
  a.whenOutboundActive
  revertIf (options.length ≠ 0) .unsupportedOptions
  return a._dispatch (← encodeMessage KIND_BASELINE (← encodeRoute routeId message))

/-- `abi.decode(message, (bytes32, bytes32, bytes32))`. -/
def decodeTuple (message : Bytes) : Option (Bytes32 × Bytes32 × Bytes32) := do
  some (← Abi.wordAt message 0, ← Abi.wordAt message 32, ← Abi.wordAt message 64)

variable [Keccak]

/-- The id of a delivered message. -/
def messageId (origin : UInt32) (sender : Bytes32) (body : Bytes) : Bytes32 :=
  keccak256 (Abi.encode [.static (word origin.toNat), .static sender, .dynamic (Abi.encodeBytes body)])

def handle (a : HyperlaneAdapter) (baselineCarrierReceive : Address → Bytes32 → Bytes → Bool) (caller : Address)
    (origin : UInt32) (sender : Bytes32) (body : Bytes) : Except Revert HyperlaneAdapter := do
  revertIf (caller ≠ a.mailbox) .onlyMailbox
  revertIf (a.remoteAdapter = 0 ∨ origin ≠ a.remoteDomain ∨ sender ≠ a.remoteAdapter) .onlyRemote
  let (kind, message) ← orRevert .decoding (decodeMessage body)
  if kind = KIND_BASELINE then
    a.receiveBaseline baselineCarrierReceive (messageId origin sender body) message
    return a
  else if kind = KIND_XIR_BUNDLE then
    let bundle ← orRevert .decoding (decodeBundle message)
    return { a with toCarrierAdapter := ← a.acceptBundle bundle (messageId origin sender body) }
  else
    revertIf (kind ≠ KIND_XIR) .unknownMessageKind
    let (profileHash, transitionHash, evidenceHash) ← orRevert .decoding (decodeTuple message)
    revertIf (evidenceHash = 0) .invalidEvidence
    let c := a.toCarrierAdapter.acceptEvidence profileHash evidenceHash transitionHash
    let bundleCommitment :=
      XIREncoding.bundleStep (XIREncoding.bundleStart 1) 0 profileHash evidenceHash transitionHash
    return { a with toCarrierAdapter := c.acceptCommitment bundleCommitment }

end HyperlaneAdapter

end Xir.Impl
