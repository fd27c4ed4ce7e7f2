import Xir.Impl.Contracts.CarrierAdapter

/-!
# `LayerZeroAdapter.sol`

A function that sends returns the parameters it hands to the endpoint.
-/

namespace Xir.Impl

structure MessagingParams where
  dstEid : UInt32
  receiver : Bytes32
  message : Bytes
  options : Bytes
  payInLzToken : Bool
  deriving DecidableEq

structure Origin where
  srcEid : UInt32
  sender : Bytes32
  nonce : UInt64
  deriving DecidableEq

structure LayerZeroAdapter extends CarrierAdapter where
  endpoint : Address
  remoteEid : UInt32
  remotePeer : Bytes32
  enforcedOptionsHash : Bytes32

namespace LayerZeroAdapter

structure ForwardRequest extends Impl.ForwardRequest where
  options : Bytes
  deriving DecidableEq

def KIND_XIR : UInt8 := 1
def KIND_BASELINE : UInt8 := 2

/-- The constructor. -/
def new (endpoint : Address) (remoteEid : UInt32) (remotePeer : Bytes32) (administrator runner : Address) :
    Except Revert LayerZeroAdapter := do
  let a ← CarrierAdapter.new administrator runner
  revertIf (endpoint = 0 ∨ remotePeer = 0) .invalidPeer
  return { a with endpoint := endpoint, remoteEid := remoteEid, remotePeer := remotePeer, enforcedOptionsHash := 0 }

def setRemotePeer (a : LayerZeroAdapter) (sender : Address) (remotePeer : Bytes32) :
    Except Revert LayerZeroAdapter := do
  a.onlyAdministrator sender
  revertIf (remotePeer = 0) .invalidPeer
  return { a with remotePeer := remotePeer }

def setBaselineReceiver (a : LayerZeroAdapter) (sender : Address) (routeId : Bytes32) (receiver : Address) :
    Except Revert LayerZeroAdapter := do
  return { a with toCarrierAdapter := ← a.toCarrierAdapter.setBaselineReceiver sender routeId receiver }

def setPriorVerifier (a : LayerZeroAdapter) (sender : Address) (profileHash : Bytes32) (verifier : Address) :
    Except Revert LayerZeroAdapter := do
  return { a with toCarrierAdapter := ← a.toCarrierAdapter.setPriorVerifier sender profileHash verifier }

def _params (a : LayerZeroAdapter) (request : ForwardRequest) : Except Revert MessagingParams := do
  revertIf (a.remotePeer = 0) .invalidPeer
  return ⟨a.remoteEid, a.remotePeer, ← encodeMessage KIND_XIR (← encodeBundle request.bundle), request.options, false⟩

def _rawParams (a : LayerZeroAdapter) (routeId : Bytes32) (message options : Bytes) :
    Except Revert MessagingParams := do
  revertIf (a.remotePeer = 0) .invalidPeer
  return ⟨a.remoteEid, a.remotePeer, ← encodeMessage KIND_BASELINE (← encodeRoute routeId message), options, false⟩

variable [Keccak]

def setEnforcedOptions (a : LayerZeroAdapter) (sender : Address) (options : Bytes) :
    Except Revert LayerZeroAdapter := do
  a.onlyAdministrator sender
  return { a with enforcedOptionsHash := keccak256 options }

def _checkOptions (a : LayerZeroAdapter) (options : Bytes) : Except Revert Unit := do
  revertIf (a.enforcedOptionsHash = 0) .optionsNotConfigured
  revertIf (keccak256 options ≠ a.enforcedOptionsHash) .optionsMismatch

def _forwardVerified (a : LayerZeroAdapter) (carriers : Address → Carrier) (request : ForwardRequest) :
    Except Revert MessagingParams := do
  CarrierAdapter._checkBundle request.toForwardRequest
  a._checkPriorVerifierBindings request.toForwardRequest
  a._checkOptions request.options
  a.checkEvidence carriers 0 request.profileHashes request.evidenceHashes request.transitionHashes
  a._params request

def sendSource (a : LayerZeroAdapter) (carriers : Address → Carrier) (sender : Address)
    (request : ForwardRequest) : Except Revert MessagingParams := do
  a.onlyRunner sender
  a.whenSourceStartAllowed
  a._forwardVerified carriers request

def forwardInFlight (a : LayerZeroAdapter) (carriers : Address → Carrier) (sender : Address)
    (request : ForwardRequest) : Except Revert MessagingParams := do
  a.onlyRunner sender
  a.whenOutboundActive
  a._forwardVerified carriers request

def _sendBaseline (a : LayerZeroAdapter) (routeId : Bytes32) (message options : Bytes) :
    Except Revert MessagingParams := do
  a._checkOptions options
  a._rawParams routeId message options

def sendBaselineSource (a : LayerZeroAdapter) (sender : Address) (routeId : Bytes32) (message options : Bytes) :
    Except Revert MessagingParams := do
  a.onlyRunner sender
  a.whenSourceStartAllowed
  a._sendBaseline routeId message options

def forwardBaseline (a : LayerZeroAdapter) (sender : Address) (routeId : Bytes32) (message options : Bytes) :
    Except Revert MessagingParams := do
  a.onlyRunner sender
  a.whenOutboundActive
  a._sendBaseline routeId message options

def lzReceive (a : LayerZeroAdapter) (baselineCarrierReceive : Address → Bytes32 → Bytes → Bool) (caller : Address)
    (origin : Origin) (guid : Bytes32) (message : Bytes) : Except Revert LayerZeroAdapter := do
  revertIf (caller ≠ a.endpoint) .onlyEndpoint
  revertIf (a.remotePeer = 0 ∨ origin.srcEid ≠ a.remoteEid ∨ origin.sender ≠ a.remotePeer) .onlyPeer
  let (kind, body) ← orRevert .decoding (decodeMessage message)
  if kind = KIND_BASELINE then
    a.receiveBaseline baselineCarrierReceive guid body
    return a
  else
    revertIf (kind ≠ KIND_XIR) .unknownMessageKind
    let bundle ← orRevert .decoding (decodeBundle body)
    return { a with toCarrierAdapter := ← a.acceptBundle bundle guid }

end LayerZeroAdapter

end Xir.Impl
