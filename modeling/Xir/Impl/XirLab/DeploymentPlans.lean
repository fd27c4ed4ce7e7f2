import Xir.Impl.XirLab.SignerSocket

/-!
# `src/xir_lab/execute/deployment_plans.py`

The artifacts and what other packages compute are parameters: the encoding of
constructor arguments, and the encoding, the hash and the checksum of a created
address. Of the body of a plan, which is hashed, the integers are what its
encoding may refuse.
-/

namespace Xir.Impl.XirLab

/-- A value of a constructor, as Python holds it. -/
inductive PyValue
  /-- An `AddressReference`. -/
  | reference (contractID : String)
  | tuple (items : List PyValue)
  | list (items : List PyValue)
  | text (s : String)
  | int (n : Int)
  | bytes (data : PyBytes)
  | bool (b : Bool)

structure ContractCreationSpec where
  contractID : String
  artifactPath : String
  constructorTypes : List String
  constructorValues : List PyValue
  gasLimit : Int
  valueWei : Int
  factoryAddress : Option String

structure PlannedCreation where
  contractID : String
  chainID : Int
  nonce : Int
  predictedAddress : String
  creationBytecodeSHA256 : String
  constructorArgsSHA256 : String
  runtimeCodeSHA256 : String
  gasLimit : Int
  maxFeePerGasWei : Int
  maxPriorityFeePerGasWei : Int
  valueWei : Int
  unsignedTransactionSHA256 : String
  dataHex : String

/-- What the hash of a deployment plan binds, but for the addresses of factories, which are none. -/
structure DeploymentPlanBody where
  planID : String
  chainID : Int
  deployerAddress : String
  startingNonce : Int
  compilerVersion : String
  toolchainSHA256 : String
  creations : List PlannedCreation

structure DeploymentPlan extends DeploymentPlanBody where
  planSHA256 : String

/-- What the planner takes from other packages. -/
class PlanLibraries extends SocketLibraries where
  /-- The creation and the runtime code of an artifact of Foundry. -/
  artifact : String → Except LabError (PyBytes × PyBytes)
  /-- `eth_abi.encode`. -/
  abiEncode : List String → List PyValue → Except LabError PyBytes
  /-- `eth_utils.keccak`. -/
  keccak : PyBytes → PyBytes
  /-- `rlp.encode`, of a list of bytes and a number. -/
  rlpEncode : PyBytes → Nat → PyBytes
  /-- `eth_utils.to_checksum_address`, of twenty bytes. -/
  toChecksumAddress : PyBytes → String
  /-- `rfc8785.dumps`, of the body of a plan, with its deployer in lower case. -/
  dumpsDeployment : DeploymentPlanBody → Except LabError PyBytes

open SignerLibraries (sha256)

/-- `data.hex()`. -/
def toHex (data : PyBytes) : String := String.ofList (Hex.encode data)

/-- `bytes.fromhex(text.removeprefix("0x"))`, which skips blanks between the bytes. -/
def deployerBytes (text : String) : Option PyBytes :=
  let digits := if text.toList.take 2 = "0x".toList then text.toList.drop 2 else text.toList
  go digits
where
  blank (c : Char) : Bool := decide (c ∈ [' ', '\t', '\n', '\r', '\x0b', '\x0c'])
  go : List Char → Option PyBytes
    | [] => some []
    | [c] => if blank c then some [] else none
    | c :: d :: cs =>
      if blank c then go (d :: cs)
      else match Hex.value c, Hex.value d, go cs with
        | some x, some y, some bs => some (UInt8.ofNat (16 * x + y) :: bs)
        | _, _, _ => none

variable [PlanLibraries]

/-- `data[-count:]`. -/
def takeLast (count : Nat) (data : PyBytes) : PyBytes := data.drop (data.length - count)

/-- `_create_address`. -/
def createAddress (deployer : String) (nonce : Int) : Except LabError String := do
  let sender ← orRevert (.planError "deployer address is invalid") (deployerBytes deployer)
  revertIf (sender.length ≠ 20 ∨ nonce < 0) (.planError "deployer address or nonce is invalid")
  return PlanLibraries.toChecksumAddress
    (takeLast 20 (PlanLibraries.keccak (PlanLibraries.rlpEncode sender nonce.toNat)))

/-- `_artifact`, and the digest of the runtime code. -/
def loadArtifact (path : String) : Except LabError (PyBytes × String) := do
  let (creation, runtime) ← PlanLibraries.artifact path
  revertIf (creation = [] ∨ runtime = []) (.planError "artifact bytecode cannot be empty")
  return (creation, sha256 runtime)

mutual

/-- `_resolve`. -/
def resolve (addresses : List (String × String)) : PyValue → Except LabError PyValue
  | .reference contractID => do
    return .text (← orRevert (.planError ("unknown constructor address reference: " ++ contractID))
      (addresses.lookup contractID))
  | .tuple items => do
    return .tuple (← resolveItems addresses items)
  | .list items => do
    return .list (← resolveItems addresses items)
  | value => return value

def resolveItems (addresses : List (String × String)) : List PyValue → Except LabError (List PyValue)
  | [] => return []
  | item :: items => do
    let item ← resolve addresses item
    let items ← resolveItems addresses items
    return item :: items

end

/-- What a deployment plan is for, but for its contracts. -/
structure DeploymentOrder where
  planID : String
  chainID : Int
  deployerAddress : String
  startingNonce : Int
  compilerVersion : String
  toolchainSHA256 : String
  maxFeePerGasWei : Int
  maxPriorityFeePerGasWei : Int

/-- The addresses of the contracts, which are created one after another. -/
def plannedAddresses (deployer : String) : Int → List ContractCreationSpec → Except LabError (List (String × String))
  | _, [] => return []
  | nonce, spec :: specs => do
    let address ← createAddress deployer nonce
    let addresses ← plannedAddresses deployer (nonce + 1) specs
    return (spec.contractID, address) :: addresses

/-- The creation of a contract, with a nonce. -/
def plannedCreation (order : DeploymentOrder) (addresses : List (String × String)) (nonce : Int)
    (spec : ContractCreationSpec) : Except LabError PlannedCreation := do
  revertIf (spec.factoryAddress ≠ none) (.planError "factory deployment is not implemented for this pilot")
  revertIf (spec.gasLimit ≤ 0 ∨ spec.valueWei < 0) (.planError "creation gas/value bounds are invalid")
  let (bytecode, runtimeSHA256) ← loadArtifact spec.artifactPath
  let values ← resolveItems addresses spec.constructorValues
  let arguments ← (PlanLibraries.abiEncode spec.constructorTypes values).mapError fun _ =>
    .planError ("constructor encoding failed: " ++ spec.contractID)
  let data := bytecode ++ arguments
  let unsigned ← unsignedDigest ⟨order.chainID, nonce, none, spec.valueWei, "0x" ++ toHex data, spec.gasLimit,
    order.maxFeePerGasWei, order.maxPriorityFeePerGasWei⟩
  let address ← orRevert .keyError (addresses.lookup spec.contractID)
  return {
    contractID := spec.contractID
    chainID := order.chainID
    nonce := nonce
    predictedAddress := address
    creationBytecodeSHA256 := sha256 bytecode
    constructorArgsSHA256 := sha256 arguments
    runtimeCodeSHA256 := runtimeSHA256
    gasLimit := spec.gasLimit
    maxFeePerGasWei := order.maxFeePerGasWei
    maxPriorityFeePerGasWei := order.maxPriorityFeePerGasWei
    valueWei := spec.valueWei
    unsignedTransactionSHA256 := unsigned
    dataHex := toHex data }

def plannedCreations (order : DeploymentOrder) (addresses : List (String × String)) :
    Int → List ContractCreationSpec → Except LabError (List PlannedCreation)
  | _, [] => return []
  | nonce, spec :: specs => do
    let creation ← plannedCreation order addresses nonce spec
    let creations ← plannedCreations order addresses (nonce + 1) specs
    return creation :: creations

/-- `build_deployment_plan`. -/
def buildDeploymentPlan (order : DeploymentOrder) (specs : List ContractCreationSpec) :
    Except LabError DeploymentPlan := do
  revertIf (specs = [] ∨ ¬ (specs.map ContractCreationSpec.contractID).Nodup)
    (.planError "deployment specs must be nonempty and uniquely identified")
  revertIf (order.chainID < 0 ∨ order.startingNonce < 0 ∨ order.maxFeePerGasWei < 0 ∨ order.maxPriorityFeePerGasWei < 0)
    (.planError "deployment numeric inputs cannot be negative")
  revertIf (order.toolchainSHA256.length ≠ 64) (.planError "toolchain digest is invalid")
  let addresses ← plannedAddresses order.deployerAddress order.startingNonce specs
  let creations ← plannedCreations order addresses order.startingNonce specs
  let body : DeploymentPlanBody := ⟨order.planID, order.chainID, order.deployerAddress, order.startingNonce,
    order.compilerVersion, order.toolchainSHA256, creations⟩
  return { body with planSHA256 := sha256 (← PlanLibraries.dumpsDeployment body) }

/-- The request of a creation. -/
def creationRequest (plan : DeploymentPlan) (networkID signerID configSHA256 codeSHA256 : String)
    (creation : PlannedCreation) : Except LabError SignerRequest := do
  let calldata ←
    orRevert (.valueError "non-hexadecimal number found in fromhex() arg") (Hex.decode creation.dataHex.toList)
  let request : SignerRequest := {
    networkID := networkID
    chainID := plan.chainID
    signerID := signerID
    intentID := plan.planID ++ ":" ++ creation.contractID
    nonce := creation.nonce
    destination := none
    valueWei := creation.valueWei
    calldataSHA256 := sha256 calldata
    calldataLength := calldata.length
    feeLimitWei := creation.gasLimit * creation.maxFeePerGasWei
    role := "deployer"
    configSHA256 := configSHA256
    codeSHA256 := codeSHA256
    gasLimit := creation.gasLimit
    maxFeePerGasWei := creation.maxFeePerGasWei
    maxPriorityFeePerGasWei := creation.maxPriorityFeePerGasWei
    calldataHex := creation.dataHex
    unsignedTransactionSHA256 := creation.unsignedTransactionSHA256 }
  revertIf ((← unsignedTransactionDigest request) ≠ creation.unsignedTransactionSHA256)
    (.planError "deployment signer transaction digest changed")
  return request

/-- `deployment_signer_requests`. -/
def deploymentSignerRequests (plan : DeploymentPlan) (networkID signerID configSHA256 codeSHA256 : String) :
    Except LabError (List SignerRequest) := do
  revertIf (chainNetwork plan.chainID ≠ some networkID)
    (.planError "deployment signer request changed network identity")
  revertIf (configSHA256.length ≠ 64) (.planError "configuration digest is invalid")
  revertIf (codeSHA256.length ≠ 64) (.planError "code digest is invalid")
  plan.creations.mapM (creationRequest plan networkID signerID configSHA256 codeSHA256)

end Xir.Impl.XirLab
