import Xir.Impl.Contracts.OutboundControl

/-!
# `BaselineRouteControl.sol`

A function that calls a carrier or the receiver returns that call.
-/

namespace Xir.Impl

structure BaselineRouteControl extends OutboundControl where
  routeId : Bytes32
  firstOutbound : Address
  secondOutbound : Address
  firstInbound : Address
  secondInbound : Address
  receiver : Address

namespace BaselineRouteControl

/-- What a route calls: a carrier of its own, or its receiver. -/
inductive Request
  | sendBaselineSource (carrier : Address) (routeId : Bytes32) (message options : Bytes)
  | forwardBaseline (carrier : Address) (routeId : Bytes32) (message options : Bytes)
  | baselineReceive (receiver : Address) (messageId : Bytes32) (payload : Bytes)
  deriving DecidableEq

/-- The constructor. -/
def new (routeId : Bytes32)
    (firstOutbound secondOutbound firstInbound secondInbound receiver administrator runner : Address) :
    Except Revert BaselineRouteControl := do
  let control ← OutboundControl.new administrator runner
  revertIf (routeId = 0 ∨ firstOutbound = 0 ∨ secondOutbound = 0 ∨ firstInbound = 0 ∨ secondInbound = 0 ∨
    receiver = 0) .carrierSequenceMismatch
  return { control with
    routeId := routeId
    firstOutbound := firstOutbound
    secondOutbound := secondOutbound
    firstInbound := firstInbound
    secondInbound := secondInbound
    receiver := receiver }

def dispatchSource (r : BaselineRouteControl) (sender : Address) (payload options : Bytes) : Except Revert Request := do
  r.onlyRunner sender
  r.whenSourceStartAllowed
  return .sendBaselineSource r.firstOutbound r.routeId payload options

def receiveFirstLegAndForward (r : BaselineRouteControl) (sender : Address) (_inboundMessageId : Bytes32)
    (payload options : Bytes) : Except Revert Request := do
  r.whenOutboundActive
  revertIf (sender ≠ r.firstInbound) .onlyFirstInboundCarrier
  return .forwardBaseline r.secondOutbound r.routeId payload options

def receiveSecondLegAndApply (r : BaselineRouteControl) (sender : Address) (messageId : Bytes32) (payload : Bytes) :
    Except Revert Request := do
  revertIf (sender ≠ r.secondInbound) .onlySecondInboundCarrier
  return .baselineReceive r.receiver messageId payload

def baselineCarrierReceive (r : BaselineRouteControl) (sender : Address) (messageId : Bytes32) (payload : Bytes) :
    Except Revert Request :=
  if sender = r.firstInbound then return .forwardBaseline r.secondOutbound r.routeId payload []
  else if sender = r.secondInbound then return .baselineReceive r.receiver messageId payload
  else .error .carrierSequenceMismatch

end BaselineRouteControl

end Xir.Impl
