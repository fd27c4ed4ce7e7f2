import Xir.Impl.Contracts.HyperlaneAdapter
import Xir.Impl.Contracts.LayerZeroAdapter

/-!
# The calls of an adapter

An adapter is one of the two contracts. Its external functions are of three
kinds: those that hand a message to the native transport (`send`), the one by
which the transport delivers (`receive`), and those of the administrator
(`administer`). A function that a contract does not have reverts.
-/

namespace Xir.Impl

inductive Adapter
  | hyperlane (a : HyperlaneAdapter)
  | layerZero (a : LayerZeroAdapter)

/-- The calls that dispatch; `sendRaw` and `forwardRaw` are the functions of the
Hyperlane adapter that take a body, `sendBundle` and `forwardBundle` those of either
that take a request (and the options of the LayerZero adapter). -/
inductive SendCall
  | sendRaw (body : Bytes)
  | forwardRaw (body : Bytes)
  | sendBundle (request : ForwardRequest) (options : Bytes)
  | forwardBundle (request : ForwardRequest) (options : Bytes)
  | sendBaselineSource (routeId : Bytes32) (message options : Bytes)
  | forwardBaseline (routeId : Bytes32) (message options : Bytes)

/-- A message handed to the native transport. -/
structure Message where
  destination : UInt32
  recipient : Bytes32
  body : Bytes
  deriving DecidableEq

/-- The arguments of a delivery by the native transport. -/
inductive Delivery
  | handle (origin : UInt32) (sender : Bytes32) (body : Bytes)
  | lzReceive (origin : Origin) (guid : Bytes32) (message : Bytes)

def Delivery.body : Delivery → Bytes
  | handle _ _ body => body
  | lzReceive _ _ message => message

/-- The calls of the administrator, and of the pending one. -/
inductive AdminCall
  | proposeAdministrator (pendingAdministrator : Address)
  | acceptAdministrator
  | setRunner (runner : Address)
  | setOutboundPaused (paused : Bool)
  | setDrain (draining : Bool)
  | setRemote (remote : Bytes32)
  | setBaselineReceiver (routeId : Bytes32) (receiver : Address)
  | setPriorVerifier (profileHash : Bytes32) (verifier : Address)
  | setEnforcedOptions (options : Bytes)

def MailboxDispatch.toMessage (d : MailboxDispatch) : Message := ⟨d.destination, d.recipient, d.body⟩

def MessagingParams.toMessage (p : MessagingParams) : Message := ⟨p.dstEid, p.receiver, p.message⟩

namespace Adapter

/-- The state both contracts have. -/
def carrier : Adapter → CarrierAdapter
  | hyperlane a => a.toCarrierAdapter
  | layerZero a => a.toCarrierAdapter

/-- The contract that delivers: the mailbox or the endpoint. -/
def native : Adapter → Address
  | hyperlane a => a.mailbox
  | layerZero a => a.endpoint

variable [Keccak]

def send (carriers : Address → Carrier) (sender : Address) : Adapter → SendCall → Except Revert Message
  | hyperlane a, .sendRaw body => return (← a.sendSource sender body).toMessage
  | hyperlane a, .forwardRaw body => return (← a.forwardInFlight sender body).toMessage
  | hyperlane a, .sendBundle request _ => return (← a.sendSourceBundle carriers sender request).toMessage
  | hyperlane a, .forwardBundle request _ => return (← a.forwardInFlightBundle carriers sender request).toMessage
  | hyperlane a, .sendBaselineSource routeId message options =>
    return (← a.sendBaselineSource sender routeId message options).toMessage
  | hyperlane a, .forwardBaseline routeId message options =>
    return (← a.forwardBaseline sender routeId message options).toMessage
  | layerZero _, .sendRaw _ => .error .callFailed
  | layerZero _, .forwardRaw _ => .error .callFailed
  | layerZero a, .sendBundle request options => return (← a.sendSource carriers sender ⟨request, options⟩).toMessage
  | layerZero a, .forwardBundle request options =>
    return (← a.forwardInFlight carriers sender ⟨request, options⟩).toMessage
  | layerZero a, .sendBaselineSource routeId message options =>
    return (← a.sendBaselineSource sender routeId message options).toMessage
  | layerZero a, .forwardBaseline routeId message options =>
    return (← a.forwardBaseline sender routeId message options).toMessage

def receive (baselineCarrierReceive : Address → Bytes32 → Bytes → Bool) (caller : Address) :
    Adapter → Delivery → Except Revert Adapter
  | hyperlane a, .handle origin sender body =>
    return .hyperlane (← a.handle baselineCarrierReceive caller origin sender body)
  | layerZero a, .lzReceive origin guid message =>
    return .layerZero (← a.lzReceive baselineCarrierReceive caller origin guid message)
  | _, _ => .error .callFailed

/-- A call that changes only what `OutboundControl` declares. -/
def mapControl (f : OutboundControl → Except Revert OutboundControl) : Adapter → Except Revert Adapter
  | hyperlane a => return .hyperlane { a with toOutboundControl := ← f a.toOutboundControl }
  | layerZero a => return .layerZero { a with toOutboundControl := ← f a.toOutboundControl }

def administer (sender : Address) : Adapter → AdminCall → Except Revert Adapter
  | a, .proposeAdministrator p => a.mapControl (·.proposeAdministrator sender p)
  | a, .acceptAdministrator => a.mapControl (·.acceptAdministrator sender)
  | a, .setRunner r => a.mapControl (·.setRunner sender r)
  | a, .setOutboundPaused p => a.mapControl (·.setOutboundPaused sender p)
  | a, .setDrain d => a.mapControl (·.setDrain sender d)
  | hyperlane a, .setBaselineReceiver routeId receiver =>
    return .hyperlane (← a.setBaselineReceiver sender routeId receiver)
  | layerZero a, .setBaselineReceiver routeId receiver =>
    return .layerZero (← a.setBaselineReceiver sender routeId receiver)
  | hyperlane a, .setPriorVerifier profile verifier => return .hyperlane (← a.setPriorVerifier sender profile verifier)
  | layerZero a, .setPriorVerifier profile verifier => return .layerZero (← a.setPriorVerifier sender profile verifier)
  | hyperlane a, .setRemote remote => return .hyperlane (← a.setRemoteAdapter sender remote)
  | layerZero a, .setRemote remote => return .layerZero (← a.setRemotePeer sender remote)
  | hyperlane _, .setEnforcedOptions _ => .error .callFailed
  | layerZero a, .setEnforcedOptions options => return .layerZero (← a.setEnforcedOptions sender options)

end Adapter

end Xir.Impl
