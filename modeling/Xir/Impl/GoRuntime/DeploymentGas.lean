import Mathlib.Data.BitVec
import Mathlib.Data.List.Dedup
import Xir.Impl.GoRuntime.Deploy
import Xir.Impl.GoRuntime.Stdlib

/-!
# The gas of a deployment

`go-runtime/internal/deploy`: the actions that the bootstrap of the carriers and
the application send, each with the chain and the label that it has in the
source, and the documents that `deploy.go` writes of their gas. A sequence of
sends stops at the first that fails, and then there is no document, so a run is
that of all of them. The gas of an action is that of its receipt, and may be
any; it is a `uint64`, whose sums wrap around.
-/

namespace Xir.Impl

def chainRoles : List String := ["a", "b", "c", "d", "e"]

/-- The route universe. -/
def routeOrder : List Route :=
  [[.H], [.L], [.H, .H], [.H, .H, .H], [.H, .H, .H, .H], [.H, .L], [.H, .L, .H], [.H, .L, .H, .L], [.L, .H, .L, .H],
    [.H, .H, .L], [.H, .H, .H, .L]]

def Route.text (route : Route) : String := String.ofList (route.map Protocol.letter)

namespace DeploymentGas

/-! ## Requests -/

/-- A route of a request. -/
def knownRoute (chainCount : Nat) (requested : String) : Except GoError Route :=
  match routeOrder.find? fun route => route.text = requested with
  | none => .error (.errorf ("deploy: route " ++ Strings.quoted requested ++ " is not preregistered"))
  | some route =>
    if route.length + 1 > chainCount then
      .error (.errorf ("deploy: route " ++ Strings.quoted requested ++ " needs " ++ toString (route.length + 1) ++
        " chains but only " ++ toString chainCount ++ " were given"))
    else .ok route

/-- `validateRoutes`. -/
def validateRoutes (routes : List String) (chainCount : Nat) : Except GoError (List Route) := do
  revertIf (routes = []) (.errorf "deploy: no routes were requested")
  let requested ← routes.mapM (knownRoute chainCount)
  return routeOrder.filter (· ∈ requested)

/-- `validate`: the roles of the chains and the routes. -/
def validate (chainCount : Nat) (routes : List String) : Except GoError (List String × List Route) := do
  revertIf (chainCount < 2 ∨ chainRoles.length < chainCount) (.errorf ("deploy: a deployment needs between 2 and " ++
    toString chainRoles.length ++ " chains, got " ++ toString chainCount))
  return (chainRoles.take chainCount, ← validateRoutes routes chainCount)

/-! ## Actions -/

inductive ActionPhase
  | protocol
  | application
  deriving DecidableEq

structure ActionRecord where
  role : String
  ordinal : Nat
  action : String
  gasUsed : BitVec 64
  classification : String
  deriving DecidableEq

/-- A running deployment. `succeeded` says which actions the ledger already has as succeeded, and
`receiptGas` is the gas of the receipt of each. -/
structure Run where
  order : List String
  phase : ActionPhase
  ordinal : String → Nat
  succeeded : String → Nat → Bool
  receiptGas : String → Nat → BitVec 64
  journal : List ActionRecord
  protocolRecords : List ActionRecord
  appRecords : List ActionRecord

/-- An action to send: the role of its chain, and its label. -/
abbrev Send : Type := String × String

/-- The label of `chainRuntime.deploy`. -/
def deployLabel (key name : String) : String := "deploy:" ++ key ++ ":" ++ name

/-- The label of `chainRuntime.call`. -/
def callLabel (key method : String) : String := "call:" ++ key ++ ":" ++ method

namespace Run

variable (r : Run)

/-- The record of the next action. -/
def record (send : Send) : ActionRecord :=
  ⟨send.1, r.ordinal send.1 + 1, send.2, r.receiptGas send.1 (r.ordinal send.1 + 1), ""⟩

/-- `addAction`. -/
def addAction (record : ActionRecord) : Run :=
  if r.phase = .protocol then { r with protocolRecords := r.protocolRecords ++ [record] }
  else { r with appRecords := r.appRecords ++ [record] }

/-- `chainRuntime.execute`. -/
def execute (send : Send) : Run :=
  let record := r.record send
  let t := { r with ordinal := Function.update r.ordinal send.1 (r.ordinal send.1 + 1) }.addAction record
  { t with journal := t.journal ++ if r.succeeded record.role record.ordinal then [] else [record] }

def executeAll (sends : List Send) : Run := sends.foldl execute r

/-! ## The bootstrap of the carriers -/

end Run

/-- What `bootstrapHyperlane` sends. -/
def hyperlaneLabels : List String :=
  [deployLabel "mailbox" "Mailbox", deployLabel "staticMessageIdMultisigIsmFactory" "StaticMessageIdMultisigIsmFactory",
    callLabel "defaultIsm" "deploy", deployLabel "merkleTreeHook" "MerkleTreeHook",
    deployLabel "protocolFee" "ProtocolFee",
    deployLabel "validatorAnnounce" "ValidatorAnnounce", callLabel "mailbox" "initialize"]

/-- What `bootstrapLayerZero` sends. -/
def layerZeroLabels (remotes : List String) : List String :=
  [deployLabel "endpoint_v2" "EndpointV2", deployLabel "send_uln_302" "SendUln302",
    deployLabel "receive_uln_302" "ReceiveUln302",
    deployLabel "treasury" "Treasury", callLabel "send_uln_302" "setTreasury",
      deployLabel "price_feed_implementation" "PriceFeed",
    deployLabel "price_feed" "ERC1967Proxy", callLabel "price_feed" "setNativeTokenPriceUSD",
    callLabel "price_feed" "setPrice",
    deployLabel "dvn" "DVN", deployLabel "dvn_fee_lib" "DVNFeeLib", callLabel "dvn" "setWorkerFeeLib",
    deployLabel "executor_implementation" "Executor", deployLabel "executor" "ERC1967Proxy",
    deployLabel "executor_fee_lib" "ExecutorFeeLib", callLabel "executor" "setWorkerFeeLib",
    callLabel "dvn" "setDstConfig",
    callLabel "executor" "setDstConfig", callLabel "send_uln_302" "setDefaultUlnConfigs",
    callLabel "send_uln_302" "setDefaultExecutorConfigs", callLabel "receive_uln_302" "setDefaultUlnConfigs",
    callLabel "endpoint_v2" "registerLibrary", callLabel "endpoint_v2" "registerLibrary"] ++
  remotes.flatMap fun _ =>
    [callLabel "endpoint_v2" "setDefaultSendLibrary", callLabel "endpoint_v2" "setDefaultReceiveLibrary"]

namespace Run

variable (r : Run)

def bootstrapHyperlane (role : String) : Run := r.executeAll (hyperlaneLabels.map fun label => (role, label))

/-- `bootstrapLayerZero`, where the endpoints of the other chains are the remote ones. -/
def bootstrapLayerZero (role : String) : Run :=
  r.executeAll ((layerZeroLabels (r.order.filter (· ≠ role))).map fun label => (role, label))

/-- `bootstrapProtocols`. -/
def bootstrapProtocols : Run := r.order.foldl (fun r role => (r.bootstrapHyperlane role).bootstrapLayerZero role) r

end Run

/-! ## The application -/

def transitionRecorderRoles : List String := ["b", "c", "d"]

/-- `AdapterKey`. -/
def adapterKey (route : Route) (hopIndex : Nat) (direction : Direction) : String :=
  "route_" ++ route.text.toLower ++ "_hop_" ++ toString hopIndex ++ "_" ++
    match direction with
    | .outbound => "out"
    | .inbound => "in"

/-- The hops of a route, with their indices from one. -/
def hops (route : Route) : List (Protocol × Nat) := route.zipIdx 1

def adapterName : Protocol → String
  | .H => "HyperlaneAdapter"
  | .L => "LayerZeroAdapter"

/-- The method that binds the peer of an adapter. -/
def peerSetter : Protocol → String
  | .H => "setRemoteAdapter"
  | .L => "setRemotePeer"

section

variable (order : List String) (routes : List Route)

/-- `r.order[index]`. -/
def roleAt (index : Nat) : String := order.getD index ""

/-- What `deployGatewaysAndReceivers` sends. -/
def gatewaysAndReceivers : List Send :=
  order.flatMap fun role =>
    [(role, deployLabel "registry" "XIRRegistry"), (role, deployLabel "gateway" "XIRGateway")] ++
    (if role ≠ roleAt order 0 then [(role, deployLabel "receiver" "NativeMultihopReceiver")] else []) ++
    if role ∈ transitionRecorderRoles
      then [(role, deployLabel "transition_recorder" "NativeMultihopTransitionRecorder")] else []

/-- What `deployRouteAdapters` sends. -/
def routeAdapters : List Send :=
  routes.flatMap fun route => (hops route).flatMap fun hop =>
    [(roleAt order (hop.2 - 1), deployLabel (adapterKey route hop.2 .outbound) (adapterName hop.1)),
      (roleAt order hop.2, deployLabel (adapterKey route hop.2 .inbound) (adapterName hop.1))]

/-- What `configureRouteAdapters` sends. -/
def routeConfiguration : List Send :=
  routes.flatMap fun route => (hops route).flatMap fun hop =>
    let source := roleAt order (hop.2 - 1)
    let destination := roleAt order hop.2
    let sourceKey := adapterKey route hop.2 .outbound
    let destinationKey := adapterKey route hop.2 .inbound
    [(source, callLabel sourceKey (peerSetter hop.1)), (destination, callLabel destinationKey (peerSetter hop.1))] ++
    (if hop.1 = .L then
      [(source, callLabel sourceKey "setEnforcedOptions"), (destination, callLabel destinationKey "setEnforcedOptions")]
    else []) ++
    (List.range (hop.2 - 1)).map fun _ => (source, callLabel sourceKey "setPriorVerifier")

/-- What `configureRouteRegistries` sends. -/
def registryConfiguration : List Send :=
  (order.tail.map fun role => (role, callLabel "registry" "setRoot")) ++
  routes.flatMap fun route => (hops route).flatMap fun hop =>
    (List.range hop.2).map fun _ => (roleAt order hop.2, callLabel "registry" "setProfile")

/-- What `deployApplication` sends. -/
def applicationSends : List Send :=
  gatewaysAndReceivers order ++ routeAdapters order routes ++ routeConfiguration order routes ++
    registryConfiguration order routes

end

namespace Run

variable (r : Run)

/-- `deployApplication`. -/
def deployApplication (routes : List Route) : Run :=
  { r with phase := .application }.executeAll (applicationSends r.order routes)

/-- The run that `newDeployment` starts, with the ledger and the journal of earlier ones. -/
def start (order : List String) (succeeded : String → Nat → Bool) (receiptGas : String → Nat → BitVec 64)
    (journal : List ActionRecord) : Run :=
  ⟨order, .protocol, fun _ => 0, succeeded, receiptGas, journal, [], []⟩

/-- `Deploy`. -/
def deploy (routes : List Route) : Run := r.bootstrapProtocols.deployApplication routes

end Run

/-! ## The documents -/

structure ChainGasDocument where
  transactionCount : Nat
  gasUsed : BitVec 64
  deriving DecidableEq

def ChainGasDocument.zero : ChainGasDocument := ⟨0, 0⟩

def ChainGasDocument.add (gas : ChainGasDocument) (gasUsed : BitVec 64) : ChainGasDocument :=
  ⟨gas.transactionCount + 1, gas.gasUsed + gasUsed⟩

structure ProtocolGasDocument where
  transactionCount : Nat
  gasUsed : BitVec 64
  byChain : List (String × ChainGasDocument)
  hyperlane : ChainGasDocument
  layerZero : ChainGasDocument

/-- Counts a record of a chain. -/
def countRecord (s : ProtocolGasDocument × ChainGasDocument) (record : ActionRecord) :
    ProtocolGasDocument × ChainGasDocument :=
  let gas := s.2.add record.gasUsed
  if Strings.contains record.action ":hyperlane:" then ({ s.1 with hyperlane := s.1.hyperlane.add record.gasUsed }, gas)
  else ({ s.1 with layerZero := s.1.layerZero.add record.gasUsed }, gas)

/-- Counts the records of a chain. -/
def countChain (records : List ActionRecord) (document : ProtocolGasDocument) (role : String) : ProtocolGasDocument :=
  let s := (records.filter fun record => record.role = role).foldl countRecord (document, .zero)
  { s.1 with
    byChain := s.1.byChain ++ [(role, s.2)]
    transactionCount := s.1.transactionCount + s.2.transactionCount
    gasUsed := s.1.gasUsed + s.2.gasUsed }

/-- `protocolGasDocument`. -/
def Run.protocolGasDocument (r : Run) : ProtocolGasDocument :=
  r.order.foldl (countChain r.protocolRecords) ⟨0, 0, [], .zero, .zero⟩

structure ClassifiedGasDocument where
  classification : String
  transactionCount : Nat
  gasUsed : BitVec 64

structure ComponentGasDocument where
  component : String
  observationCount : Nat
  minimumGas : BitVec 64
  maximumGas : BitVec 64
  meanGas : Float

structure DeploymentGasDocument where
  transactionCount : Nat
  gasUsed : BitVec 64
  classifiedTotals : List ClassifiedGasDocument
  componentUnitObservations : List ComponentGasDocument
  receipts : List ActionRecord

/-- `strings.HasPrefix(record.Action, "deploy:")`. -/
def isDeploy (record : ActionRecord) : Bool := "deploy:".toList.isPrefixOf record.action.toList

def classificationOf (record : ActionRecord) : String :=
  if isDeploy record then "xir_only_contract_deployment" else "xir_profile_root_peer_binding_initialization"

/-- The name after the last colon of the label of a deployment. -/
def componentOf (record : ActionRecord) : String :=
  if isDeploy record then String.ofList (record.action.toList.reverse.takeWhile (· ≠ ':')).reverse
    else "configuration_call"

/-- `sortedKeys` of the map that `append` builds. -/
def sortedKeys (key : ActionRecord → String) (records : List ActionRecord) : List String :=
  (records.map key).dedup.mergeSort fun a b => a ≤ b

/-- The values of a key of that map. -/
def valuesOf (key : ActionRecord → String) (records : List ActionRecord) (k : String) : List (BitVec 64) :=
  (records.filter fun record => key record = k).map ActionRecord.gasUsed

def sum (values : List (BitVec 64)) : BitVec 64 := values.foldl (· + ·) 0

def minimum : List (BitVec 64) → BitVec 64
  | [] => 0
  | value :: values => values.foldl (fun least value => if value < least then value else least) value

def maximum : List (BitVec 64) → BitVec 64
  | [] => 0
  | value :: values => values.foldl (fun greatest value => if greatest < value then value else greatest) value

/-- `float64(sum(values)) / float64(len(values))`. -/
def mean (values : List (BitVec 64)) : Float := (UInt64.ofBitVec (sum values)).toFloat / values.length.toFloat

/-- `deploymentGasDocument`. -/
def Run.deploymentGasDocument (r : Run) : DeploymentGasDocument :=
  let records := r.appRecords.map fun record => { record with classification := classificationOf record }
  { transactionCount := records.length
    gasUsed := sum (records.map ActionRecord.gasUsed)
    classifiedTotals := (sortedKeys classificationOf r.appRecords).map fun classification =>
      let values := valuesOf classificationOf r.appRecords classification
      ⟨classification, values.length, sum values⟩
    componentUnitObservations := (sortedKeys componentOf r.appRecords).map fun component =>
      let values := valuesOf componentOf r.appRecords component
      ⟨component, values.length, minimum values, maximum values, mean values⟩
    receipts := records }

end DeploymentGas

end Xir.Impl
