import Xir.Impl.Contracts.Adapter
import Xir.Impl.GoRuntime.Xir

/-!
# `go-runtime/internal/deploy/xir_app.go`

The part of a deployment that concerns one application: its registries, gateways
and adapters, and the calls that configure them. A role is its index in
`chainRoles`. A contract is set up by its constructor and the calls addressed to
it, in the order in which they are made.
-/

namespace Xir.Impl

open GoXir

/-- `AdapterKey` names an adapter by its route, its hop and a direction, "out" or "in". -/
inductive Direction
  | outbound
  | inbound
  deriving DecidableEq

namespace Direction

def other : Direction → Direction
  | outbound => inbound
  | inbound => outbound

/-- The role of the chain that an adapter of a hop stands on. -/
def role : Direction → Nat → Nat
  | outbound, hopIndex => hopIndex - 1
  | inbound, hopIndex => hopIndex

end Direction

structure ChainSpec where
  chainID : UInt64
  hyperlaneDomain : UInt32
  layerZeroEID : UInt32
  deriving DecidableEq

/-- The contracts of a chain that an adapter is bound to. -/
structure ProtocolStack where
  mailbox : Address
  endpointV2 : Address
  deriving DecidableEq

/-- What a deployment starts from, and the addresses of the adapters it creates. Signers and
created contracts have addresses other than zero. -/
structure Deployment where
  specs : Nat → ChainSpec
  stack : Nat → ProtocolStack
  deployer : Address
  runner : Address
  rootSigner : Address
  manifest : Route → Nat → Direction → Address
  mailbox_ne (role : Nat) : (stack role).mailbox ≠ 0
  endpointV2_ne (role : Nat) : (stack role).endpointV2 ≠ 0
  deployer_ne : deployer ≠ 0
  runner_ne : runner ≠ 0
  manifest_ne (route : Route) (hopIndex : Nat) (direction : Direction) : manifest route hopIndex direction ≠ 0

/-- Right-aligns an address in a `bytes32` word. -/
def bytes32Address (address : Address) : Bytes32 :=
  ⟨List.replicate 12 0 ++ address.val, by rw [List.length_append, List.length_replicate, address.length_val]⟩

/-- The Executor `LZ_RECEIVE` options. -/
def receiveOptions (gasLimit : UInt64) : Except GoError Bytes :=
  if gasLimit = 0 then .error (.errorf "deploy: layerzero executor gas limit is out of uint128 range")
  else .ok ([0x00, 0x03, 0x01, 0x00, 0x11, 0x01] ++ putBytes (List.replicate 16 0) gasLimit.toNat 15 16)

def receiveOptionsGasLimit : UInt64 := 1500000

namespace Deployment

variable [Keccak] (D : Deployment)

/-- The map `gatewayIDs`. -/
def gatewayIDs (role : Nat) : TypedId := (gatewayTypedID (D.specs role).chainID).toOption.getD ⟨0, []⟩

/-- The map `gatewayHashes`. -/
def gatewayHashes (role : Nat) : Bytes32 := (typedIDHash (D.gatewayIDs role)).toOption.getD 0

/-- The map `profileHashes`. -/
def profileHashes (route : Route) (hopIndex : Nat) : Bytes32 := (profileHash route hopIndex).toOption.getD 0

/-- Creates an adapter, with a placeholder for its peer. -/
def deployRouteAdapter (route : Route) (hopIndex : Nat) (direction : Direction) : Except Revert Adapter := do
  let role := direction.role hopIndex
  let peer := direction.other.role hopIndex
  let placeholder := bytes32Address D.deployer
  if route.getD (hopIndex - 1) .H = .H then
    return .hyperlane (← HyperlaneAdapter.new (D.stack role).mailbox (D.specs peer).hyperlaneDomain placeholder
      D.deployer D.runner)
  else
    return .layerZero (← LayerZeroAdapter.new (D.stack role).endpointV2 (D.specs peer).layerZeroEID placeholder
      D.deployer D.runner)

/-- Approves the inbound adapter `verifier` for the profiles of the hops before. -/
def setPriorVerifiers (route : Route) (hopIndex : Nat) (verifier : Address) (a : Adapter) : Except Revert Adapter :=
  (List.range' 1 (hopIndex - 1)).foldlM
    (fun a priorHop => a.administer D.deployer (.setPriorVerifier (profileHashes route priorHop) verifier)) a

def configureRouteAdapter (route : Route) (hopIndex : Nat) (direction : Direction) (a : Adapter) :
    Except Revert Adapter := do
  let a ← a.administer D.deployer (.setRemote (bytes32Address (D.manifest route hopIndex direction.other)))
  let options := (receiveOptions receiveOptionsGasLimit).toOption.getD []
  let a ←
    if route.getD (hopIndex - 1) .H = .H then pure a else a.administer D.deployer (.setEnforcedOptions options)
  if direction = .outbound ∧ hopIndex > 1 then
    D.setPriorVerifiers route hopIndex (D.manifest route (hopIndex - 1) .inbound) a
  else return a

/-- An adapter, created and configured. -/
def routeAdapter (route : Route) (hopIndex : Nat) (direction : Direction) : Except Revert Adapter := do
  D.configureRouteAdapter route hopIndex direction (← D.deployRouteAdapter route hopIndex direction)

def setRoot (gatewayHash : Bytes32) (registry : XIRRegistry) : Except Revert XIRRegistry :=
  registry.setRoot D.deployer RegistryVersion ⟨gatewayHash, D.rootSigner, 0, 0, true⟩

def setProfile (profileHash sourceHash destinationHash : Bytes32) (adapter : Address) (registry : XIRRegistry) :
    Except Revert XIRRegistry :=
  registry.setProfile D.deployer profileHash ⟨sourceHash, destinationHash, adapter, 1, 0, 0, true⟩

/-- The profiles of the hops of a route up to the hop that ends at `completed`. -/
def setRouteProfiles (route : Route) (completed : Nat) (registry : XIRRegistry) : Except Revert XIRRegistry :=
  (List.range' 1 completed).foldlM (fun registry receiptIndex =>
    D.setProfile (profileHashes route receiptIndex) (D.gatewayHashes (receiptIndex - 1)) (D.gatewayHashes receiptIndex)
      (D.manifest route completed .inbound) registry) registry

/-- The registry of a chain, created and configured for the routes. -/
def routeRegistry (routes : List Route) (role : Nat) : Except Revert XIRRegistry := do
  let registry := XIRRegistry.new D.deployer
  let registry ← if role = 0 then pure registry else D.setRoot (D.gatewayHashes 0) registry
  routes.foldlM (fun registry route =>
    if 1 ≤ role ∧ role ≤ route.length then D.setRouteProfiles route role registry else pure registry) registry

/-- The gateway of a chain. -/
def gateway (role : Nat) : Except Revert XIRGateway := XIRGateway.new (D.gatewayIDs role)

end Deployment

end Xir.Impl
