import Xir.Impl.XirLab.DeploymentPlans

/-!
# Configuration plans

`build_configuration_plan` and `configuration_signer_requests` of
`src/xir_lab/execute/configuration_plans.py`. What `int` reads of an address is a
parameter, as it takes more than digits.
-/

namespace Xir.Impl.XirLab

inductive ConfigurationCategory
  | endpoint
  | peer
  | selector
  | security
  | runner
  | pauseDrain
  | xirRouteProfile
  | receiverIsolation
  deriving DecidableEq

/-- `REQUIRED_CONFIGURATION_CATEGORIES`. -/
def requiredConfigurationCategories : List ConfigurationCategory :=
  [.endpoint, .peer, .selector, .security, .runner, .pauseDrain, .xirRouteProfile, .receiverIsolation]

/-- `FIXED_NETWORKS`. -/
def fixedNetworks : List String := ["op-sepolia", "arbitrum-sepolia", "base-sepolia"]

structure ConfigurationTransition where
  transitionID : String
  category : ConfigurationCategory
  networkID : String
  chainID : Int
  contractID : String
  destination : String
  sender : String
  nonce : Int
  valueWei : Int
  calldata : PyBytes
  gasLimit : Int
  maxFeePerGasWei : Int
  maxPriorityFeePerGasWei : Int
  expectedPreStateSHA256 : String
  expectedPostStateSHA256 : String

/-- The integers of a transition. -/
def ConfigurationTransition.integers (t : ConfigurationTransition) : List Int :=
  [t.chainID, t.nonce, t.valueWei, t.gasLimit, t.maxFeePerGasWei, t.maxPriorityFeePerGasWei]

/-- What the hash of a configuration plan binds. -/
structure ConfigurationPlanBody where
  planID : String
  deploymentSHA256 : String
  transitions : List ConfigurationTransition

structure ConfigurationPlan extends ConfigurationPlanBody where
  planSHA256 : String

class ConfigurationLibraries extends PlanLibraries where
  /-- `int(value, 16)`. -/
  int16 : String → Option Int
  /-- `rfc8785.dumps`, of the body of a plan. -/
  dumpsConfiguration : ConfigurationPlanBody → Except LabError PyBytes

/-- `_digest`, of the configuration plans. -/
def checkDigest (value label : String) : Except LabError Unit :=
  revertIf (¬ LowerSHA256 value) (.planError (label ++ " is not a lowercase SHA-256 digest"))

variable [ConfigurationLibraries]

open SignerLibraries (sha256)

/-- `_address`. -/
def checkAddress (value label : String) : Except LabError Unit :=
  revertIf (¬ (value.length = 42 ∧ value.toList.take 2 = "0x".toList ∧
      (ConfigurationLibraries.int16 value).any fun n => n ≠ 0))
    (.planError (label ++ " is not a nonzero EVM address"))

/-- The checks of a transition. -/
def checkTransition (t : ConfigurationTransition) : Except LabError Unit := do
  checkAddress t.destination "configuration destination"
  checkAddress t.sender "configuration sender"
  checkDigest t.expectedPreStateSHA256 "expected pre-state"
  checkDigest t.expectedPostStateSHA256 "expected post-state"
  revertIf (t.nonce < 0 ∨ t.valueWei < 0 ∨ t.gasLimit ≤ 0 ∨ t.maxFeePerGasWei < t.maxPriorityFeePerGasWei ∨
    t.calldata = [])
    (.planError "configuration transaction bounds are invalid")

/-- The order of the transitions. -/
def transitionLE (t u : ConfigurationTransition) : Bool :=
  decide (t.chainID < u.chainID ∨ t.chainID = u.chainID ∧ (t.nonce < u.nonce ∨ t.nonce = u.nonce ∧
    t.transitionID ≤ u.transitionID))

/-- `build_configuration_plan`. -/
def buildConfigurationPlan (planID deploymentSHA256 : String) (transitions : List ConfigurationTransition) :
    Except LabError ConfigurationPlan := do
  checkDigest deploymentSHA256 "deployment identity"
  revertIf (transitions = [] ∨ ¬ (transitions.map ConfigurationTransition.transitionID).Nodup)
    (.planError "configuration transitions are empty or duplicated")
  revertIf (¬ ((transitions.map ConfigurationTransition.networkID).dedup.Perm fixedNetworks))
    (.planError "configuration plan must cover all fixed networks")
  revertIf (¬ ((transitions.map ConfigurationTransition.category).dedup.Perm requiredConfigurationCategories))
    (.planError "configuration plan lacks a required transition category")
  let _ ← transitions.mapM checkTransition
  let body : ConfigurationPlanBody := ⟨planID, deploymentSHA256, transitions.mergeSort transitionLE⟩
  return { body with planSHA256 := sha256 (← ConfigurationLibraries.dumpsConfiguration body) }

/-- The request of a transition. -/
def transitionRequest (plan : ConfigurationPlan) (signerID configSHA256 codeSHA256 : String)
    (t : ConfigurationTransition) : Except LabError SignerRequest := do
  let request : SignerRequest := {
    networkID := t.networkID
    chainID := t.chainID
    signerID := signerID
    intentID := plan.planID ++ ":" ++ t.transitionID
    nonce := t.nonce
    destination := some t.destination
    valueWei := t.valueWei
    calldataSHA256 := sha256 t.calldata
    calldataLength := t.calldata.length
    feeLimitWei := t.gasLimit * t.maxFeePerGasWei
    role := "deployer"
    configSHA256 := configSHA256
    codeSHA256 := codeSHA256
    gasLimit := t.gasLimit
    maxFeePerGasWei := t.maxFeePerGasWei
    maxPriorityFeePerGasWei := t.maxPriorityFeePerGasWei
    calldataHex := toHex t.calldata
    unsignedTransactionSHA256 := String.ofList (List.replicate 64 '0') }
  return { request with unsignedTransactionSHA256 := ← unsignedTransactionDigest request }

/-- `configuration_signer_requests`. -/
def configurationSignerRequests (plan : ConfigurationPlan) (signerID configSHA256 codeSHA256 : String) :
    Except LabError (List SignerRequest) :=
  plan.transitions.mapM (transitionRequest plan signerID configSHA256 codeSHA256)

end Xir.Impl.XirLab
