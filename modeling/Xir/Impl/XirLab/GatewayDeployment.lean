import Mathlib.Data.Finset.Sort
import Mathlib.Data.String.Basic
import Xir.Framework.Bits
import Xir.Framework.Except
import Xir.Framework.Search
import Xir.Impl.XirLab.MultihopScalability

/-!
# Gateways on a frozen graph

`GatewayReachability` of `src/xir_lab/native/gateway_deployment.py`, and the
reference functions that it is compared with. A bitset is a natural number. A
set of strings is a `Finset`, which the code always sorts before it goes through
it. A loop has a bound, and fails where it does not end within it.
-/

namespace Xir.Impl.XirLab

/-- One of `PROTOCOLS`. -/
inductive BridgeProtocol
  | axelar
  | ccip
  | hyperlane
  | layerzero
  | relay
  | wormhole
  deriving DecidableEq

def BridgeProtocol.name : BridgeProtocol → String
  | axelar => "axelar"
  | ccip => "ccip"
  | hyperlane => "hyperlane"
  | layerzero => "layerzero"
  | relay => "relay"
  | wormhole => "wormhole"

/-- `PROTOCOLS`. -/
def PROTOCOLS : List BridgeProtocol := [.axelar, .ccip, .hyperlane, .layerzero, .relay, .wormhole]

/-- An edge of the frozen graph. -/
structure ConnectivityEdge where
  src : String
  dst : String
  carrier : BridgeProtocol
  eventCount : Int

/-- The nodes and edges that `load_frozen_connectivity` admits. -/
structure FrozenConnectivity where
  nodes : List String
  edges : List ConnectivityEdge
  nodup : nodes.Nodup
  src_mem (e : ConnectivityEdge) : e ∈ edges → e.src ∈ nodes
  dst_mem (e : ConnectivityEdge) : e ∈ edges → e.dst ∈ nodes

/-- The error of a loop that does not end within its bound. -/
def NativeError.diverges : NativeError := .other "the loop does not end"

/-- Marks the nodes that are bits of a number. -/
def bitMarker : Marker Nat Nat Nat where
  dst destination := destination
  seen visited destination := decide (visited &&& (1 <<< destination) ≠ 0)
  mark visited _ destination := visited ||| (1 <<< destination)
  seen_mark visited _ destination state := by
    simp only [decide_eq_true_eq, and_one_shiftLeft_ne_zero, testBit_or_true, testBit_one_shiftLeft]
    exact or_comm

inductive EdgeKind
  | nativeHop
  | gatewaySwitch
  deriving DecidableEq

def EdgeKind.name : EdgeKind → String
  | nativeHop => "native_hop"
  | gatewaySwitch => "gateway_switch"

structure GatewayReachability where
  nodes : List String
  nativeAdjacency : List (List Nat)
  baseClosure : List Nat

/-- `sorted(names)`. -/
abbrev sortedNames (names : Finset String) : List String := names.sort (· ≤ ·)

namespace GatewayReachability

/-- The states that each edge connects. -/
def links (g : FrozenConnectivity) : List (Nat × Nat) :=
  g.edges.map fun edge =>
    let protocol := PROTOCOLS.idxOf edge.carrier
    (protocol * g.nodes.length + g.nodes.idxOf edge.src, protocol * g.nodes.length + g.nodes.idxOf edge.dst)

/-- `native_adjacency`, a row for each state. -/
def nativeRows (g : FrozenConnectivity) : List (List Nat) :=
  (List.range (g.nodes.length * PROTOCOLS.length)).map fun source =>
    (((links g).filter fun link => link.1 = source).map Prod.snd).toFinset.sort (· ≤ ·)

/-- `__init__`. -/
def init (g : FrozenConnectivity) : Except NativeError GatewayReachability := do
  let stateCount := g.nodes.length * PROTOCOLS.length
  let baseClosure ← (List.range stateCount).mapM fun source =>
    orRevert NativeError.diverges (Search.run bitMarker (fun current => (nativeRows g).getD current [])
      (fun queue destination => queue ++ [destination]) stateCount (1 <<< source) [source])
  return ⟨g.nodes, nativeRows g, baseClosure⟩

variable (m : GatewayReachability)

def nodeCount : Nat := m.nodes.length

def stateCount : Nat := m.nodeCount * PROTOCOLS.length

def networkMask : Nat := (1 <<< m.nodeCount) - 1

/-- `node_index[node]`. -/
def nodeIndex (node : String) : Except NativeError Nat := orRevert .keyError (m.nodes.idxOf? node)

/-- The states of a node, one for each protocol. -/
def statesOf (nodeIndex : Nat) : List Nat :=
  (List.range PROTOCOLS.length).map fun protocol => protocol * m.nodeCount + nodeIndex

/-- The row of a state that is in the mask takes in the successors. -/
def relaxRow (stateMask successorUnion reachable : Nat) : Nat :=
  if reachable &&& stateMask ≠ 0 then reachable ||| successorUnion else reachable

/-- `add_gateway`, and whether the closure grew. -/
def addGateway (closure : List Nat) (nodeIndex : Nat) : Bool × List Nat :=
  let stateMask := (m.statesOf nodeIndex).foldl (fun mask state => mask ||| (1 <<< state)) 0
  let successorUnion := (m.statesOf nodeIndex).foldl (fun union state => union ||| closure.getD state 0) 0
  (closure.any fun reachable => relaxRow stateMask successorUnion reachable ≠ reachable,
    closure.map (relaxRow stateMask successorUnion))

/-- A round over the gateways. -/
def closeRound (gatewayIndices : List Nat) (closure : List Nat) : Bool × List Nat :=
  gatewayIndices.foldl (fun s nodeIndex =>
    let grown := m.addGateway s.2 nodeIndex
    (grown.1 || s.1, grown.2)) (false, closure)

/-- `_close_gateways`. -/
def closeGateways (closure : List Nat) (gatewayIndices : List Nat) : Except NativeError (List Nat) := do
  let s ← orRevert NativeError.diverges (whileLoop Prod.fst (fun s => m.closeRound gatewayIndices s.2)
    (m.stateCount * m.stateCount + 1) (true, closure))
  return s.2

/-- The indices of a set of gateways, in the order of their names. -/
def gatewayIndices (gateways : Finset String) : Except NativeError (List Nat) :=
  (gateways.sort (· ≤ ·)).mapM m.nodeIndex

def closure (gateways : Finset String) : Except NativeError (List Nat) := do
  m.closeGateways m.baseClosure (← m.gatewayIndices gateways)

/-- The networks that a node reaches from any of its states. -/
def networks (closure : List Nat) (node : Nat) : Nat :=
  let states := (m.statesOf node).foldl (fun states state => states ||| closure.getD state 0) 0
  (List.range PROTOCOLS.length).foldl
    (fun networks protocol => networks ||| ((states >>> (protocol * m.nodeCount)) &&& m.networkMask)) 0

def reachablePairs (closure : List Nat) : Int :=
  (List.range m.nodeCount).foldl (fun total node => total + ((bitCount (m.networks closure node) : Int) - 1)) 0

/-- The order of the edges of a row. -/
def edgeLE (a b : Nat × EdgeKind) : Bool := a.1 < b.1 ∨ a.1 = b.1 ∧ a.2.name ≤ b.2.name

/-- `_expanded_adjacency`. -/
def expandedAdjacency (gateways : Finset String) : Except NativeError (List (List (Nat × EdgeKind))) := do
  let gatewayIndices ← m.gatewayIndices gateways
  return (List.range m.stateCount).map fun source =>
    let native := (m.nativeAdjacency.getD source []).map fun destination => (destination, EdgeKind.nativeHop)
    let switches := (gatewayIndices.toFinset.sort (· ≤ ·)).flatMap fun nodeIndex =>
      if source ∈ m.statesOf nodeIndex then
        ((m.statesOf nodeIndex).filter (· ≠ source)).map fun destination => (destination, EdgeKind.gatewaySwitch)
      else []
    (native ++ switches).dedup.mergeSort edgeLE

/-! ## Witnesses -/

/-- `parent`: the states that were found, in that order, each with the edge that it was found by. -/
abbrev Parents : Type := List (Nat × Option (Nat × EdgeKind))

/-- Marks the states that have an entry. -/
def parentMarker : Marker Nat (Nat × EdgeKind) Parents where
  dst edge := edge.1
  seen parent state := parent.any fun entry => entry.1 = state
  mark parent current edge := parent ++ [(edge.1, some (current, edge.2))]
  seen_mark parent current edge state := by
    rw [List.any_append, List.any_cons, List.any_nil, Bool.or_false, Bool.or_eq_true, or_comm,
      decide_eq_true_iff, eq_comm]

/-- The states and the kinds of the edges from a root to a state. -/
def backtrack (parent : Parents) : Nat → Nat → Except NativeError (List Nat × List EdgeKind)
  | 0, _ => .error .diverges
  | steps + 1, cursor => do
    match ← orRevert .keyError (parent.lookup cursor) with
    | none => return ([cursor], [])
    | some (previous, kind) =>
      let (states, kinds) ← backtrack parent steps previous
      return (states ++ [cursor], kinds ++ [kind])

/-- What `_source_witnesses` says of a destination. -/
structure RouteWitness where
  routeStatePath : String
  carrierSequence : String
  gatewaySwitchNodes : String
  nativeHopCount : Nat
  switchCount : Nat
  deriving DecidableEq

/-- `PROTOCOLS[state // node_count]`. -/
def carrierOf (state : Nat) : String := ((PROTOCOLS.map BridgeProtocol.name)[state / m.nodeCount]?).getD ""

/-- `nodes[state % node_count]`. -/
def nodeOf (state : Nat) : String := (m.nodes[state % m.nodeCount]?).getD ""

/-- Adds a carrier, unless it is the last. -/
def appendCarrier (carriers : List String) (carrier : String) : List String :=
  if carriers.getLast? = some carrier then carriers else carriers ++ [carrier]

def witnessOf (states : List Nat) (edgeKinds : List EdgeKind) : RouteWitness where
  routeStatePath := ">".intercalate (states.map fun state => m.carrierOf state ++ ":" ++ m.nodeOf state)
  carrierSequence := ">".intercalate ((states.map m.carrierOf).foldl appendCarrier [])
  gatewaySwitchNodes := ">".intercalate
    (((states.zip edgeKinds).filter fun p => p.2 = .gatewaySwitch).map fun p => m.nodeOf p.1)
  nativeHopCount := edgeKinds.count .nativeHop
  switchCount := edgeKinds.count .gatewaySwitch

/-- `_source_witnesses`: what is found for each destination first. -/
def sourceWitnesses (sourceIndex : Nat) (adjacency : List (List (Nat × EdgeKind))) :
    Except NativeError (List (Nat × RouteWitness)) := do
  let roots := m.statesOf sourceIndex
  let parent ← orRevert NativeError.diverges (Search.run parentMarker (fun current => adjacency.getD current [])
    (fun queue destination => queue ++ [destination]) m.stateCount (roots.map fun state => (state, none)) roots)
  parent.foldlM (fun witnesses entry => do
    if witnesses.any fun witness => witness.1 = entry.1 % m.nodeCount then return witnesses
    else do
      let (states, kinds) ← backtrack parent parent.length entry.1
      return witnesses ++ [(entry.1 % m.nodeCount, m.witnessOf states kinds)]) []

/-- A row of `pair_evidence`. The fields of its witness are null where it has none. -/
structure PairRow where
  source : String
  destination : String
  baselineReachable : Bool
  terminalReachable : Bool
  newlyEnabledByGateway : Bool
  witness : Option RouteWitness
  deriving DecidableEq

/-- A row of `pair_evidence`, from the networks that its source reaches. -/
def pairRow (networks baselineNetworks : Nat) (witnesses : List (Nat × RouteWitness)) (source : String)
    (destination : String × Nat) : Except NativeError PairRow := do
  let baselineReachable := decide (baselineNetworks &&& (1 <<< destination.2) ≠ 0)
  let reachable := decide (networks &&& (1 <<< destination.2) ≠ 0)
  let found := witnesses.lookup destination.2
  revertIf (reachable ≠ found.isSome) (.localTopologyError "bitset closure and route witness disagree")
  return ⟨source, destination.1, baselineReachable, reachable, reachable && !baselineReachable,
    if reachable = true then found else none⟩

/-- `pair_evidence`. -/
def pairEvidence (closure : List Nat) (gateways : Finset String) : Except NativeError (List PairRow) := do
  let adjacency ← m.expandedAdjacency gateways
  let rows ← m.nodes.zipIdx.mapM fun source => do
    let networks := m.networks closure source.2
    let baselineNetworks := m.networks m.baseClosure source.2
    let witnesses ← m.sourceWitnesses source.2 adjacency
    (m.nodes.zipIdx.filter fun destination => source.2 ≠ destination.2).mapM
      (pairRow networks baselineNetworks witnesses source.1)
  return rows.flatten

end GatewayReachability

/-! ## The reference functions -/

/-- A protocol and a node. -/
abbrev CarrierNode : Type := BridgeProtocol × String

/-- The order of pairs of strings. -/
def carrierNodeLE (a b : CarrierNode) : Bool := a.1.name < b.1.name ∨ a.1.name = b.1.name ∧ a.2 ≤ b.2

/-- `adjacency[current]` of `_reference_gateway_pairs`, sorted. -/
def referenceAdjacency (g : FrozenConnectivity) (gateways : Finset String) (current : CarrierNode) : List CarrierNode :=
  let native := (g.edges.filter fun edge => (edge.carrier, edge.src) = current).map fun edge => (edge.carrier, edge.dst)
  let switches :=
    if current.2 ∈ gateways then (PROTOCOLS.filter (· ≠ current.1)).map fun protocol => (protocol, current.2) else []
  (native ++ switches).dedup.mergeSort carrierNodeLE

/-- `_reference_gateway_pairs`. -/
def referenceGatewayPairs (g : FrozenConnectivity) (gateways : Finset String) : Except NativeError Int := do
  revertIf (∃ node ∈ gateways, node ∉ g.nodes) .keyError
  g.nodes.foldlM (fun total source => do
    let roots := PROTOCOLS.map fun protocol => (protocol, source)
    let visited ← orRevert NativeError.diverges (Search.run (setMarker CarrierNode) (referenceAdjacency g gateways)
      (fun queue destination => queue ++ [destination]) (PROTOCOLS.length * g.nodes.length) roots.toFinset
      (roots.mergeSort carrierNodeLE))
    return total + (((visited.image Prod.snd).card : Int) - 1)) 0

/-- The nodes that a plain search reaches from a source. -/
def referenceVisit (adjacency : String → Finset String) (nodes : List String) (source : String) :
    Except NativeError (Finset String) :=
  orRevert NativeError.diverges (Search.run (setMarker String) (fun current => (adjacency current).sort (· ≤ ·))
    (fun queue destination => queue ++ [destination]) nodes.length {source} [source])

/-- The neighbours of a node over a set of edges. -/
def neighbours (edges : Finset (String × String)) (node : String) : Finset String :=
  (edges.filter fun edge => edge.1 = node).image Prod.snd

/-- The edges of a protocol. -/
def protocolEdges (g : FrozenConnectivity) (protocol : BridgeProtocol) : Finset (String × String) :=
  ((g.edges.filter fun edge => edge.carrier = protocol).map fun edge => (edge.src, edge.dst)).toFinset

/-- `_reference_carrier_reachability`: a row for each protocol and node. -/
def referenceCarrierReachability (g : FrozenConnectivity) : Except NativeError (List (CarrierNode × Finset String)) :=
  (PROTOCOLS ×ˢ g.nodes).mapM fun entry => do
    return (entry, ← referenceVisit (neighbours (protocolEdges g entry.1)) g.nodes entry.2)

/-- `carrier_reachability[protocol][node]`. There is a row for each node, and what is reached is a node. -/
def carrierReached (rows : List (CarrierNode × Finset String)) (protocol : BridgeProtocol) (node : String) :
    Finset String :=
  (rows.lookup (protocol, node)).getD ∅

/-- Goes on from a gateway over a protocol, and whether that reached more. -/
def propagateProtocol (rows : List (CarrierNode × Finset String)) (gateway : String)
    (s : Bool × (BridgeProtocol → Finset String)) (protocol : BridgeProtocol) :
    Bool × (BridgeProtocol → Finset String) :=
  let updated := s.2 protocol ∪ carrierReached rows protocol gateway
  if updated ≠ s.2 protocol then (true, Function.update s.2 protocol updated) else s

/-- Goes on from a gateway, if it is reached. -/
def propagateGateway (rows : List (CarrierNode × Finset String)) (s : Bool × (BridgeProtocol → Finset String))
    (gateway : String) : Bool × (BridgeProtocol → Finset String) :=
  if ∃ protocol ∈ PROTOCOLS, gateway ∈ s.2 protocol then PROTOCOLS.foldl (propagateProtocol rows gateway) s else s

/-- What a source reaches, by the protocol that it is reached over. -/
def propagate (rows : List (CarrierNode × Finset String)) (g : FrozenConnectivity) (gateways : Finset String)
    (source : String) : Except NativeError (BridgeProtocol → Finset String) := do
  let s ← orRevert NativeError.diverges (whileLoop Prod.fst
    (fun s => (gateways.sort (· ≤ ·)).foldl (propagateGateway rows) (false, s.2))
    (PROTOCOLS.length * g.nodes.length + 1) (true, fun protocol => carrierReached rows protocol source))
  return s.2

/-- `_reference_gateway_pair_set`. -/
def referenceGatewayPairSet (g : FrozenConnectivity) (rows : List (CarrierNode × Finset String))
    (gateways : Finset String) :
    Except NativeError (Finset (String × String)) :=
  g.nodes.foldlM (fun pairs source => do
    let reached ← propagate rows g gateways source
    let destinations := (PROTOCOLS.map reached).foldl (· ∪ ·) ∅
    return pairs ∪ (destinations.filter (· ≠ source)).image fun destination => (source, destination)) ∅

end Xir.Impl.XirLab
