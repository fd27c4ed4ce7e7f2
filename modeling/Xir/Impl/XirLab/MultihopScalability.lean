import Xir.Framework.Except

/-!
# `src/xir_lab/native/multihop_scalability.py`: the stages of a route

A route is its characters. The stages are their names, and the error of a route
that is not one of `H` and `L` is text.
-/

namespace Xir.Impl.XirLab

/-- What an operation of `xir_lab.native` raises. -/
inductive NativeError
  | localTopologyError (text : String)
  | assertionError (text : String)
  | keyError
  | indexError
  | sqliteError
  /-- A refused request, and whether `is_transient_rpc_error` holds of it. -/
  | rpcError (text : String) (transient : Bool)
  | other (text : String)
  deriving DecidableEq, Repr

abbrev PyRoute := List Char

/-- `ROUTE_ORDER`. -/
def ROUTE_ORDER : List PyRoute :=
  ["H", "L", "HH", "HHH", "HHHH", "HL", "HLH", "HLHL", "LHLH", "HHL", "HHHL"].map String.toList

/-- `MultihopAttempt`, with the fields that do not follow from its route. -/
structure MultihopAttempt where
  attemptID : String
  phase : String
  route : PyRoute
  routeSequence : Nat
  payloadSHA256 : String
  deriving DecidableEq

namespace MultihopScalability

/-- The pairs of neighbours that differ. -/
def changes (route : PyRoute) : Nat := (route.zip route.tail).countP fun p => p.1 ≠ p.2

def switchCount (route : PyRoute) : Except NativeError Nat :=
  if route = [] ∨ (route.any fun protocol => protocol ≠ 'H' ∧ protocol ≠ 'L') = true then
    .error (.localTopologyError ("invalid multihop route: " ++ String.ofList route))
  else .ok (changes route)

def expectedCoordinatorTransactions (route : PyRoute) : Except NativeError Nat := do
  return route.length + (← switchCount route) + 2

def expectedPhysicalTransactions (route : PyRoute) : Except NativeError Nat := do
  return (← expectedCoordinatorTransactions route) + route.count 'H' + 3 * route.count 'L'

def transitionStage (index : Nat) : String := "hop_" ++ toString index ++ "_xir_transition"

def dispatchStage (index : Nat) (protocol : Char) : String :=
  "hop_" ++ toString index ++ "_" ++ String.singleton protocol.toLower ++ "_dispatch"

def carrierStages (index : Nat) (protocol : Char) : List String :=
  if protocol = 'H' then ["hop_" ++ toString index ++ "_hyperlane_process"]
  else ["hop_" ++ toString index ++ "_layerzero_dvn_execute",
    "hop_" ++ toString index ++ "_layerzero_commit_verification",
    "hop_" ++ toString index ++ "_layerzero_executor_execute"]

/-- The stages that a turn of the loop appends. -/
def hopStages (route : PyRoute) (index : Nat) (protocol : Char) : List String :=
  (if index > 1 ∧ route[index - 2]? ≠ some protocol then [transitionStage index] else []) ++
    dispatchStage index protocol :: carrierStages index protocol

/-- The stages before the check of their number. -/
def stages (route : PyRoute) : List String :=
  "root_create" :: (route.zipIdx 1).flatMap (fun (protocol, index) => hopStages route index protocol) ++
    ["destination_verify_deliver"]

def expectedStageSequence (route : PyRoute) : Except NativeError (List String) := do
  let _ ← switchCount route
  if (stages route).length ≠ (← expectedPhysicalTransactions route) then
    throw (.assertionError "stage sequence and physical transaction theory diverged")
  return stages route

end MultihopScalability

end Xir.Impl.XirLab
