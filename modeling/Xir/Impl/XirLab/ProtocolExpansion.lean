import Mathlib.Algebra.Order.Ring.Int
import Mathlib.Data.Rat.Defs
import Xir.Framework.Components
import Xir.Impl.XirLab.GatewayDeployment

/-!
# Protocol expansion curves

`_largest_scc`, `_protocol_closure`, `_add_protocol_edge` and
`protocol_expansion_curves` of `src/xir_lab/native/gateway_deployment.py`, and
the reference functions that the curves are compared with. A `SetOrder` is the
order in which Python goes through a set, which may be any. A row has the values
whose JSON texts and digests the code writes.
-/

namespace Xir.Impl.XirLab

/-- An order in which a set is gone through. -/
structure SetOrder (α : Type) where
  toList : Finset α → List α
  mem_toList (s : Finset α) (a : α) : a ∈ toList s ↔ a ∈ s
  nodup (s : Finset α) : (toList s).Nodup

def NativeError.valueError : NativeError := .other "min() arg is an empty sequence"

def NativeError.zeroDivision : NativeError := .other "division by zero"

/-- The neighbours of a node, in the order of the edges. -/
def forwardOf (edges : List (String × String)) (node : String) : List String :=
  (edges.filter fun edge => edge.1 = node).map Prod.snd

def reverseOf (edges : List (String × String)) (node : String) : List String :=
  (edges.filter fun edge => edge.2 = node).map Prod.fst

/-- `sorted(component)[0]`. -/
def firstMember (component : Finset String) : String := ((sortedNames component).head?).getD ""

/-- The order of the key of `_largest_scc`: by size, from the largest, and then by the first member. -/
def componentBefore (a b : Finset String) : Bool := b.card < a.card ∨ a.card = b.card ∧ firstMember a < firstMember b

/-- `_largest_scc`. -/
def largestScc (order : SetOrder (String × String)) (nodes : Finset String) (edges : Finset (String × String)) :
    Except NativeError (Finset String) := do
  let forward := forwardOf (order.toList edges)
  let reverse := reverseOf (order.toList edges)
  let steps := 1 + ∑ node ∈ nodes, (1 + (forward node).length)
  let finished ← orRevert NativeError.diverges (Components.finishOrder forward steps (sortedNames nodes))
  let components ← orRevert NativeError.diverges (Components.components reverse steps finished)
  orRevert .valueError (leastBy componentBefore (components.filter fun component => component.Nonempty))

/-! ## The closure of one protocol -/

/-- `indices[node]`: the last place of a node. -/
def indexOfNode (nodes : List String) (node : String) : Except NativeError Nat :=
  orRevert .keyError (nodes.zipIdx.reverse.lookup node)

/-- `adjacency` of `_protocol_closure`. -/
def protocolAdjacency (order : SetOrder (String × String)) (nodes : List String) (edges : Finset (String × String)) :
    Except NativeError (List (List Nat)) := do
  let links ← (order.toList edges).mapM fun edge => do
    return (← indexOfNode nodes edge.1, ← indexOfNode nodes edge.2)
  return (List.range nodes.length).map fun source => (links.filter fun link => link.1 = source).map Prod.snd

/-- `_protocol_closure`. -/
def protocolClosure (order : SetOrder (String × String)) (nodes : List String) (edges : Finset (String × String)) :
    Except NativeError (List Nat) := do
  let adjacency ← protocolAdjacency order nodes edges
  (List.range nodes.length).mapM fun source =>
    orRevert NativeError.diverges (Search.run bitMarker (fun current => adjacency.getD current [])
      (fun queue destination => queue ++ [destination]) nodes.length (1 <<< source) [source])

/-- `_add_protocol_edge`. -/
def addProtocolEdge (closure : List Nat) (source destination : Nat) : List Nat :=
  if closure.getD source 0 &&& (1 <<< destination) ≠ 0 then closure
  else closure.map fun reachable =>
    if reachable &&& (1 <<< source) ≠ 0 then reachable ||| closure.getD destination 0 else reachable

/-- `_closure_pairs`. -/
def closurePairs (closure : List Nat) : Int := (closure.map fun reachable => (bitCount reachable : Int) - 1).sum

/-! ## The curves -/

/-- The events of the edges of a node. -/
def activity (edges : List ConnectivityEdge) (node : String) : Int :=
  edges.foldl (fun total edge =>
    total + (if edge.src = node then edge.eventCount else 0) + if edge.dst = node then edge.eventCount else 0) 0

/-- `original_edges` of a protocol. -/
def originalEdges (edges : List ConnectivityEdge) (protocol : BridgeProtocol) : Finset (String × String) :=
  ((edges.filter fun edge => edge.carrier = protocol).map fun edge => (edge.src, edge.dst)).toFinset

/-- `covered`: the ends of the edges. -/
def covered (edges : Finset (String × String)) : Finset String := edges.image Prod.fst ∪ edges.image Prod.snd

/-- The order by activity, from the highest, and then by name. -/
def activityBefore (edges : List ConnectivityEdge) (a b : String) : Bool :=
  activity edges b < activity edges a ∨ activity edges a = activity edges b ∧ a < b

/-- `order`: the nodes to add. -/
def attachmentOrder (nodeOrder : SetOrder String) (nodes : List String) (edges : List ConnectivityEdge)
    (protocol : BridgeProtocol) :
    List String :=
  (nodeOrder.toList (nodes.toFinset \ covered (originalEdges edges protocol))).mergeSort fun a b =>
    !activityBefore edges b a

/-- `anchor`. -/
def anchorOf (nodeOrder : SetOrder String) (edges : List ConnectivityEdge) (component : Finset String) :
    Except NativeError String :=
  orRevert .valueError (leastBy (activityBefore edges) (nodeOrder.toList component))

inductive ExpansionScenario
  | optimistic
  | central
  | conservative
  deriving DecidableEq

def SCENARIOS : List ExpansionScenario := [.optimistic, .central, .conservative]

def ExpansionScenario.attachmentRule : ExpansionScenario → String
  | optimistic => "bidirectional_to_every_original_largest_scc_member"
  | central => "bidirectional_to_highest_activity_original_scc_anchor"
  | conservative => "new_endpoint_outbound_only_to_anchor"

/-- The edges by which a node is attached. -/
def ExpansionScenario.attachment (members : List String) (anchor node : String) :
    ExpansionScenario → List (String × String)
  | optimistic => members.flatMap fun member => [(node, member), (member, node)]
  | central => [(node, anchor), (anchor, node)]
  | conservative => [(node, anchor)]

structure CurveRow where
  protocol : BridgeProtocol
  scenario : ExpansionScenario
  counterfactual : Bool
  originalCoverageNodes : List String
  addedNodeOrder : List String
  addedNodePrefix : List String
  addedNodes : Nat
  lastAddedNode : Option String
  attachmentAnchor : String
  attachmentRule : String
  reachablePairs : Int
  reachabilityRate : ℚ

def CurveRow.originalCoverage (row : CurveRow) : Nat := row.originalCoverageNodes.length

/-- The values of the rows that the scenarios of a protocol share. -/
structure Expansion where
  protocol : BridgeProtocol
  original : Finset (String × String)
  order : List String
  component : Finset String
  members : List String
  anchor : String

def expansionOf (edgeOrder : SetOrder (String × String)) (nodeOrder : SetOrder String) (nodes : List String)
    (edges : List ConnectivityEdge) (protocol : BridgeProtocol) : Except NativeError Expansion := do
  let original := originalEdges edges protocol
  let component ← largestScc edgeOrder (covered original) original
  let anchor ← anchorOf nodeOrder edges component
  return ⟨protocol, original, attachmentOrder nodeOrder nodes edges protocol, component,
    nodeOrder.toList component, anchor⟩

namespace Expansion

variable (nodes : List String) (e : Expansion) (scenario : ExpansionScenario)

/-- The edges by which the node that a step adds is attached. -/
def attachment (node : String) : List (String × String) := scenario.attachment e.members e.anchor node

def addEdge (closure : List Nat) (edge : String × String) : Except NativeError (List Nat) := do
  return addProtocolEdge closure (← indexOfNode nodes edge.1) (← indexOfNode nodes edge.2)

def row (step : Nat) (closure : List Nat) : Except NativeError CurveRow := do
  let denominator : Int := nodes.length * ((nodes.length : Int) - 1)
  let pairs := closurePairs closure
  revertIf (denominator = 0) NativeError.zeroDivision
  return {
    protocol := e.protocol
    scenario := scenario
    counterfactual := true
    originalCoverageNodes := sortedNames (covered e.original)
    addedNodeOrder := e.order
    addedNodePrefix := e.order.take step
    addedNodes := step
    lastAddedNode := if step = 0 then none else e.order[step - 1]?
    attachmentAnchor := e.anchor
    attachmentRule := scenario.attachmentRule
    reachablePairs := pairs
    reachabilityRate := (pairs : ℚ) / denominator }

/-- Adds a row, and attaches the next node if there is one. -/
def advance (s : List Nat × List CurveRow) (step : Nat) : Except NativeError (List Nat × List CurveRow) := do
  let row ← e.row nodes scenario step s.1
  match e.order[step]? with
  | none => return (s.1, s.2 ++ [row])
  | some node => return (← (e.attachment scenario node).foldlM (addEdge nodes) s.1, s.2 ++ [row])

/-- The rows of a scenario. -/
def scenarioRows (edgeOrder : SetOrder (String × String)) : Except NativeError (List CurveRow) := do
  let closure ← protocolClosure edgeOrder nodes e.original
  let s ← (List.range (e.order.length + 1)).foldlM (e.advance nodes scenario) (closure, [])
  return s.2

end Expansion

/-- `protocol_expansion_curves`. -/
def protocolExpansionCurves (edgeOrder : SetOrder (String × String)) (nodeOrder : SetOrder String) (nodes : List String)
    (edges : List ConnectivityEdge) : Except NativeError (List CurveRow) := do
  let rows ← PROTOCOLS.mapM fun protocol => do
    let e ← expansionOf edgeOrder nodeOrder nodes edges protocol
    let rows ← SCENARIOS.mapM fun scenario => e.scenarioRows nodes scenario edgeOrder
    return rows.flatten
  return rows.flatten

/-! ## The reference functions -/

/-- `_reference_protocol_pairs`. -/
def referenceProtocolPairs (nodes : List String) (edges : Finset (String × String)) : Except NativeError Int := do
  revertIf (∃ edge ∈ edges, edge.1 ∉ nodes ∨ edge.2 ∉ nodes) .keyError
  nodes.foldlM (fun total source => do
    let visited ← referenceVisit (neighbours edges) nodes source
    return total + ((visited.card : Int) - 1)) 0

/-- What the curves have at a protocol, a scenario and a number of added nodes. -/
abbrev CurveKey : Type := BridgeProtocol × ExpansionScenario × Nat

/-- `_reference_protocol_curve_counts` for one protocol. -/
def referenceCounts (edgeOrder : SetOrder (String × String)) (nodeOrder : SetOrder String) (nodes : List String)
    (edges : List ConnectivityEdge) (protocol : BridgeProtocol) : Except NativeError (List (CurveKey × Int)) := do
  let e ← expansionOf edgeOrder nodeOrder nodes edges protocol
  revertIf (∃ edge ∈ e.original, edge.1 ∉ nodes ∨ edge.2 ∉ nodes) .keyError
  let basePairs ← referenceProtocolPairs nodes e.original
  let reachesAnchor := (← referenceVisit (neighbours (e.original.image Prod.swap)) nodes e.anchor).card
  let reachableFromAnchor := (← referenceVisit (neighbours e.original) nodes e.anchor).card
  return (List.range (e.order.length + 1)).flatMap fun (step : Nat) =>
    let joinedPairs : Int := basePairs + step * reachesAnchor + step * reachableFromAnchor + step * ((step : Int) - 1)
    let conservativePairs : Int := basePairs + step * reachableFromAnchor
    [((e.protocol, .optimistic, step), joinedPairs), ((e.protocol, .central, step), joinedPairs),
      ((e.protocol, .conservative, step), conservativePairs)]

/-- `_reference_protocol_curve_counts`. -/
def referenceProtocolCurveCounts (edgeOrder : SetOrder (String × String)) (nodeOrder : SetOrder String)
    (nodes : List String) (edges : List ConnectivityEdge) : Except NativeError (List (CurveKey × Int)) := do
  let counts ← PROTOCOLS.mapM (referenceCounts edgeOrder nodeOrder nodes edges)
  return counts.flatten

end Xir.Impl.XirLab
