import Xir.Impl.Contracts.Adapter
import Xir.Impl.Contracts.BaselineRouteControl

/-!
# The contracts that inherit `OutboundControl`

An adapter or a baseline route, under the calls that anyone may make of it. A
function that is called (`Controlled.Call`) changes the state of its contract,
and hands a message to the native transport or calls another contract (`Ask`);
it changes nothing after that call returns. A function that a contract does not
have reverts.
-/

namespace Xir.Impl

inductive Controlled
  | adapter (a : Adapter)
  | route (r : BaselineRouteControl)

/-- The external functions, with their arguments. The `quote` functions and the views
change nothing and send nothing. -/
inductive Entry
  | send (call : SendCall)
  | receive (delivery : Delivery)
  | administer (call : AdminCall)
  | dispatchSource (payload options : Bytes)
  | receiveFirstLegAndForward (inboundMessageId : Bytes32) (payload options : Bytes)
  | receiveSecondLegAndApply (messageId : Bytes32) (payload : Bytes)
  | baselineCarrierReceive (messageId : Bytes32) (payload : Bytes)

/-- What a function asks of another contract: the native transport, the carrier, the
route or the receiver at an address. -/
inductive Ask
  | native (message : Message)
  | send (carrier : Address) (call : SendCall)
  | baselineCarrierReceive (receiver : Address) (messageId : Bytes32) (payload : Bytes)
  | baselineReceive (receiver : Address) (messageId : Bytes32) (payload : Bytes)

/-- The calls that start a source send; the others that send forward one in flight. -/
def SendCall.source : SendCall → Bool
  | sendRaw _ | sendBundle _ _ | sendBaselineSource _ _ _ => true
  | forwardRaw _ | forwardBundle _ _ | forwardBaseline _ _ _ => false

def Entry.source : Entry → Bool
  | send call => call.source
  | dispatchSource _ _ => true
  | _ => false

/-- An outbound send: by the native transport, or by an outbound carrier. -/
def Ask.outbound : Ask → Bool
  | native _ | send _ _ => true
  | _ => false

namespace BaselineRouteControl

def Request.ask : Request → Ask
  | sendBaselineSource carrier routeId message options => .send carrier (.sendBaselineSource routeId message options)
  | forwardBaseline carrier routeId message options => .send carrier (.forwardBaseline routeId message options)
  | baselineReceive receiver messageId payload => .baselineReceive receiver messageId payload

/-- The functions of a route that call another contract. -/
def request (r : BaselineRouteControl) (sender : Address) : Entry → Except Revert Request
  | .dispatchSource payload options => r.dispatchSource sender payload options
  | .receiveFirstLegAndForward inboundMessageId payload options =>
    r.receiveFirstLegAndForward sender inboundMessageId payload options
  | .receiveSecondLegAndApply messageId payload => r.receiveSecondLegAndApply sender messageId payload
  | .baselineCarrierReceive messageId payload => r.baselineCarrierReceive sender messageId payload
  | .send _ | .receive _ | .administer _ => .error .callFailed

def administer (sender : Address) (r : BaselineRouteControl) : AdminCall → Except Revert BaselineRouteControl
  | .proposeAdministrator p => return { r with toOutboundControl := ← r.proposeAdministrator sender p }
  | .acceptAdministrator => return { r with toOutboundControl := ← r.acceptAdministrator sender }
  | .setRunner runner => return { r with toOutboundControl := ← r.setRunner sender runner }
  | .setOutboundPaused paused => return { r with toOutboundControl := ← r.setOutboundPaused sender paused }
  | .setDrain draining => return { r with toOutboundControl := ← r.setDrain sender draining }
  | .setRemote _ | .setBaselineReceiver _ _ | .setPriorVerifier _ _ | .setEnforcedOptions _ => .error .callFailed

end BaselineRouteControl

namespace Controlled

def control : Controlled → OutboundControl
  | adapter a => a.carrier.toOutboundControl
  | route r => r.toOutboundControl

variable [Keccak]

/-- The call of a function: what it asks of another contract, and the state of its own.
An adapter that is delivered a baseline message calls the route that takes it: the
delivery succeeds if that call does, and reverts otherwise. -/
inductive Call (carriers : Address → Carrier) (sender : Address) : Controlled → Entry → Option Ask → Controlled → Prop
  | send {a call m} : a.send carriers sender call = .ok m →
    Call carriers sender (adapter a) (.send call) (some (.native m)) (adapter a)
  | receive {a d a'} : a.receive (fun _ _ _ => false) sender d = .ok a' →
    Call carriers sender (adapter a) (.receive d) none (adapter a')
  | callback {a d a' r i p} : (∀ a', a.receive (fun _ _ _ => false) sender d ≠ .ok a') →
    a.receive (fun r' i' p' => (r', i', p') = (r, i, p)) sender d = .ok a' →
    Call carriers sender (adapter a) (.receive d) (some (.baselineCarrierReceive r i p)) (adapter a')
  | request {r e q} : r.request sender e = .ok q → Call carriers sender (route r) e (some q.ask) (route r)
  | administer {a c a'} : Adapter.administer sender a c = .ok a' →
    Call carriers sender (adapter a) (.administer c) none (adapter a')
  | administerRoute {r c r'} : BaselineRouteControl.administer sender r c = .ok r' →
    Call carriers sender (route r) (.administer c) none (route r')

end Controlled

end Xir.Impl
