import Xir.Framework.Evm
import Xir.Proof.SignerSocket

/-!
# Deployment plans that the signer and the chain accept

The requests of an accepted plan exist (`requests_of_planned`), their calldata
encodes each reference as the address that the contract gets, and the signer and
the chain take them if the contracts satisfy what the planner does not check
(`deployment_executable_iff`).
-/

namespace Xir.Impl.XirLab

open SignerLibraries (sha256)
open PlanLibraries (artifact toChecksumAddress)
open Evm.Rules (intrinsicGas initCodeLimit)

/-! ## References -/

mutual

/-- The value, with the addresses of the contracts that it refers to. -/
def PyValue.substitute (address : String → String) : PyValue → PyValue
  | .reference contractID => .text (address contractID)
  | .tuple items => .tuple (PyValue.substituteItems address items)
  | .list items => .list (PyValue.substituteItems address items)
  | value => value

def PyValue.substituteItems (address : String → String) : List PyValue → List PyValue
  | [] => []
  | item :: items => item.substitute address :: PyValue.substituteItems address items

end

mutual

/-- The contracts that the value refers to. -/
def PyValue.references : PyValue → List String
  | .reference contractID => [contractID]
  | .tuple items => PyValue.referencesOf items
  | .list items => PyValue.referencesOf items
  | _ => []

def PyValue.referencesOf : List PyValue → List String
  | [] => []
  | item :: items => item.references ++ PyValue.referencesOf items

end

/-- The address of a contract, of those that have one. -/
def addressIn (addresses : List (String × String)) (contractID : String) : String :=
  (addresses.lookup contractID).getD ""

/-- A value is resolved if the contracts that it refers to have addresses. -/
def Known (addresses : List (String × String)) (contractIDs : List String) : Prop :=
  ∀ contractID ∈ contractIDs, ∃ address, addresses.lookup contractID = some address

section

variable {addresses : List (String × String)}

mutual

theorem resolve_eq {value value' : PyValue} (h : resolve addresses value = .ok value') :
    Known addresses value.references ∧ value' = value.substitute (addressIn addresses) := by
  cases value with
  | reference contractID =>
    rw [resolve, orRevert_bind] at h
    obtain ⟨address, hlookup, h⟩ := h
    refine ⟨List.forall_mem_singleton.mpr ⟨address, hlookup⟩, ?_⟩
    rw [PyValue.substitute, addressIn, hlookup, ← pure_eq_ok.mp h]
    rfl
  | tuple items =>
    rw [resolve, bind_eq_ok] at h
    obtain ⟨items', hitems, h⟩ := h
    obtain ⟨hknown, rfl⟩ := resolveItems_eq hitems
    exact ⟨hknown, (pure_eq_ok.mp h).symm⟩
  | list items =>
    rw [resolve, bind_eq_ok] at h
    obtain ⟨items', hitems, h⟩ := h
    obtain ⟨hknown, rfl⟩ := resolveItems_eq hitems
    exact ⟨hknown, (pure_eq_ok.mp h).symm⟩
  | text s => exact ⟨List.forall_mem_nil _, (pure_eq_ok.mp h).symm⟩
  | int n => exact ⟨List.forall_mem_nil _, (pure_eq_ok.mp h).symm⟩
  | bytes data => exact ⟨List.forall_mem_nil _, (pure_eq_ok.mp h).symm⟩
  | bool b => exact ⟨List.forall_mem_nil _, (pure_eq_ok.mp h).symm⟩

theorem resolveItems_eq {items items' : List PyValue} (h : resolveItems addresses items = .ok items') :
    Known addresses (PyValue.referencesOf items) ∧ items' = PyValue.substituteItems (addressIn addresses) items := by
  cases items with
  | nil => exact ⟨List.forall_mem_nil _, (pure_eq_ok.mp h).symm⟩
  | cons item items =>
    rw [resolveItems, bind_eq_ok] at h
    obtain ⟨item', hitem, h⟩ := h
    obtain ⟨items', hitems, h⟩ := bind_eq_ok.mp h
    obtain ⟨hknown, rfl⟩ := resolve_eq hitem
    obtain ⟨hknowns, rfl⟩ := resolveItems_eq hitems
    exact ⟨List.forall_mem_append.mpr ⟨hknown, hknowns⟩, (pure_eq_ok.mp h).symm⟩

end

end

/-! ## Intents -/

/-- The ID of an intent is not empty. -/
theorem one_le_length (before after : String) : 1 ≤ (before ++ ":" ++ after).length := by
  rw [String.length_append, String.length_append, show ":".length = 1 from rfl]
  omega

theorem intentIDs_nodup (planID : String) {ids : List String} (h : ids.Nodup) :
    (ids.map fun id => planID ++ ":" ++ id).Nodup := by
  refine h.map fun a b hab => ?_
  have htext : (planID ++ ":").toList ++ a.toList = (planID ++ ":").toList ++ b.toList := by
    rw [← String.toList_append, ← String.toList_append, hab]
  exact String.toList_inj.mp (List.append_cancel_left htext)

/-! ## The requests of a plan -/

section

variable [PlanLibraries]

/-- The creation code of a contract and the encoded values, with texts for the contracts that they refer to. -/
def CreationData (text : String → String) (spec : ContractCreationSpec) (data : PyBytes) : Prop :=
  ∃ creation runtime arguments, artifact spec.artifactPath = .ok (creation, runtime) ∧
    PlanLibraries.abiEncode spec.constructorTypes (PyValue.substituteItems text spec.constructorValues) =
      .ok arguments ∧ data = creation ++ arguments

variable {order : DeploymentOrder} {addresses : List (String × String)} {nonce : Int} {spec : ContractCreationSpec}
  {specs : List ContractCreationSpec} {networkID signerID configSHA256 codeSHA256 : String}

/-- The request of a contract, and what is known of it. -/
structure PlannedRequest (order : DeploymentOrder) (addresses : List (String × String))
    (networkID signerID : String) (nonce : Int) (spec : ContractCreationSpec) (r : SignerRequest) : Prop where
  known : Known addresses (PyValue.referencesOf spec.constructorValues)
  built : ∃ data, CreationData (addressIn addresses) spec data ∧ Built r data
  destination : r.destination = none
  nonce : r.nonce = nonce
  chainID : r.chainID = order.chainID
  networkID : r.networkID = networkID
  signerID : r.signerID = signerID
  intentID : r.intentID = order.planID ++ ":" ++ spec.contractID
  gasLimit : r.gasLimit = spec.gasLimit ∧ 0 < r.gasLimit
  maxFeePerGasWei : r.maxFeePerGasWei = order.maxFeePerGasWei
  maxPriorityFeePerGasWei : r.maxPriorityFeePerGasWei = order.maxPriorityFeePerGasWei
  integers : ∀ n ∈ (unsignedTransactionDocument r).integers, InDomain n

theorem loadArtifact_eq {path : String} {bytecode : PyBytes} {digest : String}
    (h : loadArtifact path = .ok (bytecode, digest)) : ∃ runtime, artifact path = .ok (bytecode, runtime) := by
  obtain ⟨⟨creation, runtime⟩, hartifact, h⟩ := bind_eq_ok.mp h
  obtain ⟨-, h⟩ := revertIf_bind.mp h
  cases pure_eq_ok.mp h
  exact ⟨runtime, hartifact⟩

/-- The request of a planned creation exists, and its digest is the planned one. -/
theorem creationRequest_of_planned (hl : SocketLibraries.Lawful) {plan : DeploymentPlan} {creation : PlannedCreation}
    (hplanID : plan.planID = order.planID) (hchainID : plan.chainID = order.chainID) (hnonce : 0 ≤ nonce)
    (hconfig : LowerSHA256 configSHA256) (hcode : LowerSHA256 codeSHA256)
    (h : plannedCreation order addresses nonce spec = .ok creation) :
    ∃ r, creationRequest plan networkID signerID configSHA256 codeSHA256 creation = .ok r ∧
      PlannedRequest order addresses networkID signerID nonce spec r := by
  rw [plannedCreation, revertIf_bind, revertIf_bind, bind_eq_ok] at h
  obtain ⟨-, hbounds, ⟨bytecode, runtimeSHA256⟩, hartifact, h⟩ := h
  rw [not_or, not_le, not_lt] at hbounds
  obtain ⟨runtime, hartifact⟩ := loadArtifact_eq hartifact
  obtain ⟨values, hvalues, h⟩ := bind_eq_ok.mp h
  obtain ⟨hknown, rfl⟩ := resolveItems_eq hvalues
  obtain ⟨arguments, harguments, h⟩ := mapError_bind.mp h
  obtain ⟨unsigned, hunsigned, h⟩ := bind_eq_ok.mp h
  obtain ⟨address, -, h⟩ := orRevert_bind.mp h
  cases pure_eq_ok.mp h
  have hdecode : Hex.decode (toHex (bytecode ++ arguments)).toList = some (bytecode ++ arguments) := by
    rw [toHex, String.toList_ofList, Hex.decode_encode]
  rw [creationRequest, hdecode, hplanID, hchainID]
  let r : SignerRequest := {
    networkID := networkID
    chainID := order.chainID
    signerID := signerID
    intentID := order.planID ++ ":" ++ spec.contractID
    nonce := nonce
    destination := none
    valueWei := spec.valueWei
    calldataSHA256 := sha256 (bytecode ++ arguments)
    calldataLength := (bytecode ++ arguments).length
    feeLimitWei := spec.gasLimit * order.maxFeePerGasWei
    role := "deployer"
    configSHA256 := configSHA256
    codeSHA256 := codeSHA256
    gasLimit := spec.gasLimit
    maxFeePerGasWei := order.maxFeePerGasWei
    maxPriorityFeePerGasWei := order.maxPriorityFeePerGasWei
    calldataHex := toHex (bytecode ++ arguments)
    unsignedTransactionSHA256 := unsigned }
  have hdigest : unsignedTransactionDigest r = .ok unsigned := hunsigned
  refine ⟨r, ?_, ?_⟩
  · show (unsignedTransactionDigest r >>= fun digest => _) = _
    rw [bind_of_ok hdigest, revertIf_bind]
    exact ⟨fun h => h rfl, rfl⟩
  · obtain ⟨document, hdocument, -⟩ := bind_eq_ok.mp hunsigned
    exact {
      known := hknown
      built := ⟨bytecode ++ arguments, ⟨bytecode, runtime, arguments, hartifact, harguments, rfl⟩,
        ⟨rfl, rfl, rfl, rfl, hconfig, hcode, hnonce, hbounds.2, rfl, hdigest⟩⟩
      destination := rfl
      nonce := rfl
      chainID := rfl
      networkID := rfl
      signerID := rfl
      intentID := rfl
      gasLimit := ⟨rfl, hbounds.1⟩
      maxFeePerGasWei := rfl
      maxPriorityFeePerGasWei := rfl
      integers := (hl.dumpsUnsigned_ok _).mp ⟨document, hdocument⟩ }

/-- The requests of the contracts, with one nonce after another. -/
inductive PlannedRequests (order : DeploymentOrder) (addresses : List (String × String)) (networkID signerID : String) :
    Int → List ContractCreationSpec → List SignerRequest → Prop
  | nil (nonce : Int) : PlannedRequests order addresses networkID signerID nonce [] []
  | cons {nonce : Int} {spec : ContractCreationSpec} {specs : List ContractCreationSpec} {r : SignerRequest}
      {rs : List SignerRequest} (first : PlannedRequest order addresses networkID signerID nonce spec r)
      (others : PlannedRequests order addresses networkID signerID (nonce + 1) specs rs) :
      PlannedRequests order addresses networkID signerID nonce (spec :: specs) (r :: rs)

theorem requests_of_planned (hl : SocketLibraries.Lawful) (plan : DeploymentPlan) {creations : List PlannedCreation}
    (hplanID : plan.planID = order.planID) (hchainID : plan.chainID = order.chainID) (hnonce : 0 ≤ nonce)
    (hconfig : LowerSHA256 configSHA256) (hcode : LowerSHA256 codeSHA256)
    (h : plannedCreations order addresses nonce specs = .ok creations) :
    ∃ requests, creations.mapM (creationRequest plan networkID signerID configSHA256 codeSHA256) = .ok requests ∧
      PlannedRequests order addresses networkID signerID nonce specs requests := by
  induction specs generalizing nonce creations with
  | nil =>
    cases pure_eq_ok.mp h
    exact ⟨[], rfl, .nil nonce⟩
  | cons spec specs ih =>
    obtain ⟨creation, hcreation, h⟩ := bind_eq_ok.mp h
    obtain ⟨others, hothers, h⟩ := bind_eq_ok.mp h
    cases pure_eq_ok.mp h
    obtain ⟨r, hr, hfirst⟩ := creationRequest_of_planned hl hplanID hchainID
      hnonce hconfig hcode hcreation
    obtain ⟨rs, hrs, hplanned⟩ := ih (by omega) hothers
    exact ⟨r :: rs, mapM_cons_eq_ok.mpr ⟨r, hr, rs, hrs, rfl⟩, .cons hfirst hplanned⟩

namespace PlannedRequests

variable {requests : List SignerRequest}

theorem intentIDs (h : PlannedRequests order addresses networkID signerID nonce specs requests) :
    requests.map SignerRequest.intentID =
      (specs.map ContractCreationSpec.contractID).map fun contractID => order.planID ++ ":" ++ contractID := by
  induction h with
  | nil => rfl
  | cons first _ ih => rw [List.map_cons, first.intentID, ih, List.map_cons, List.map_cons]

/-- Each request is of a contract. -/
theorem request (h : PlannedRequests order addresses networkID signerID nonce specs requests) :
    ∀ r ∈ requests, ∃ spec ∈ specs, ∃ n, nonce ≤ n ∧ PlannedRequest order addresses networkID signerID n spec r := by
  induction h with
  | nil => exact List.forall_mem_nil _
  | @cons nonce spec specs r rs first _ ih =>
    rw [List.forall_mem_cons]
    refine ⟨⟨spec, List.mem_cons_self, nonce, le_rfl, first⟩, fun r' hr' => ?_⟩
    obtain ⟨spec', hspec', n, hn, hplanned⟩ := ih r' hr'
    exact ⟨spec', List.mem_cons_of_mem _ hspec', n, by omega, hplanned⟩

/-- Each contract has a request. -/
theorem covered (h : PlannedRequests order addresses networkID signerID nonce specs requests) :
    ∀ spec ∈ specs, ∃ r ∈ requests, ∃ n, PlannedRequest order addresses networkID signerID n spec r := by
  induction h with
  | nil => exact List.forall_mem_nil _
  | @cons nonce spec specs r rs first _ ih =>
    rw [List.forall_mem_cons]
    refine ⟨⟨r, List.mem_cons_self, nonce, first⟩, fun spec' hspec' => ?_⟩
    obtain ⟨r', hr', n, hplanned⟩ := ih spec' hspec'
    exact ⟨r', List.mem_cons_of_mem _ hr', n, hplanned⟩

theorem nonces (h : PlannedRequests order addresses networkID signerID nonce specs requests) :
    (requests.map fun r => (r.chainID, r.nonce)).Nodup := by
  induction h with
  | nil => exact List.nodup_nil
  | @cons nonce spec specs r rs first others ih =>
    rw [List.map_cons, List.nodup_cons]
    refine ⟨fun hmem => ?_, ih⟩
    obtain ⟨r', hr', heq⟩ := List.mem_map.mp hmem
    obtain ⟨_, -, n, hn, hplanned⟩ := others.request r' hr'
    have hsame : r'.nonce = r.nonce := (Prod.ext_iff.mp heq).2
    rw [hplanned.nonce, first.nonce] at hsame
    omega

end PlannedRequests

theorem sender_of_planned {planned : List (String × String)} (hne : specs ≠ [])
    (hp : plannedAddresses order.deployerAddress nonce specs = .ok planned) :
    ∃ sender, deployerBytes order.deployerAddress = some sender := by
  cases specs with
  | nil => exact absurd rfl hne
  | cons spec specs =>
    obtain ⟨address, haddress, -⟩ := bind_eq_ok.mp hp
    obtain ⟨sender, hsender, -⟩ := orRevert_bind.mp haddress
    exact ⟨sender, hsender⟩

/-- The integers of a request, of which those of its transaction are in the domain of the encoding. -/
theorem integers_iff {r : SignerRequest} {data : PyBytes} (hb : Built r data) (hgas : 0 < r.gasLimit)
    (hmax : 0 ≤ r.maxFeePerGasWei) (hlength : r.calldataLength < 2 ^ 53)
    (hu : ∀ n ∈ (unsignedTransactionDocument r).integers, InDomain n) :
    (∀ n ∈ r.integers, InDomain n) ↔ r.gasLimit * r.maxFeePerGasWei < 2 ^ 53 := by
  have hfee : 0 ≤ r.gasLimit * r.maxFeePerGasWei := Int.mul_nonneg (by omega) hmax
  have hcalldata : InDomain r.calldataLength := by
    have h := hb.calldataLength
    constructor <;> omega
  simp only [unsignedTransactionDocument, UnsignedTransaction.integers, List.forall_mem_cons] at hu
  obtain ⟨hchain, hnonce, hvalue, hgas, hmax, hpriority, -⟩ := hu
  simp only [SignerRequest.integers, List.forall_mem_cons, hb.feeLimitWei]
  constructor
  · exact fun h => h.2.2.2.2.1.2
  · exact fun h => ⟨hchain, hnonce, hvalue, hcalldata, ⟨by omega, h⟩, hgas, hmax, hpriority, List.forall_mem_nil _⟩

/-! ## Created addresses -/

/-- `0x` and the digits of the address, in any case. -/
def Denotes (text : String) (address : PyBytes) : Prop :=
  ∃ digits, text = "0x" ++ digits ∧ Hex.decode digits.toList = some address

variable [Evm.Rules]

/-- What is documented of the libraries of the planner of deployments. -/
structure PlanLibraries.Lawful : Prop extends toSocket : SocketLibraries.Lawful where
  keccak_eq (data : PyBytes) : PlanLibraries.keccak data = Evm.Rules.keccak256 data
  rlpEncode_eq (sender : PyBytes) (nonce : Nat) :
    PlanLibraries.rlpEncode sender nonce = Evm.rlpList [Evm.rlpString sender, Evm.rlpString (Evm.scalar nonce)]
  denotes_checksum {address : PyBytes} (h : address.length = 20) : Denotes (toChecksumAddress address) address

omit [PlanLibraries] in
/-- The addresses that `CREATE` gives to contracts when transactions of one sender are mined in order, the first with
the nonce that the account of the sender has. -/
def minedAddresses (sender : PyBytes) : Int → List SignerRequest → Option (List PyBytes)
  | _, [] => some []
  | nonce, r :: rs =>
    if r.nonce = nonce ∧ r.destination = none then
      (minedAddresses sender (nonce + 1) rs).map (Evm.createdAddress sender nonce.toNat :: ·)
    else none

/-- The contracts, with the addresses that `CREATE` gives them from a nonce on. -/
def createdAddresses (sender : PyBytes) : Int → List ContractCreationSpec → List (String × PyBytes)
  | _, [] => []
  | nonce, spec :: specs =>
    (spec.contractID, Evm.createdAddress sender nonce.toNat) :: createdAddresses sender (nonce + 1) specs

/-- The contracts, with the texts of these addresses. -/
def createdTexts (sender : PyBytes) (nonce : Int) (specs : List ContractCreationSpec) : List (String × String) :=
  (createdAddresses sender nonce specs).map fun p => (p.1, toChecksumAddress p.2)

/-- The text of the address that a contract of a deployment gets. -/
def createdText (order : DeploymentOrder) (specs : List ContractCreationSpec) : String → String :=
  addressIn (createdTexts ((deployerBytes order.deployerAddress).getD []) order.startingNonce specs)

/-- The data of the request have each reference as a text of the address that the contract gets. -/
def Encodes (created : List (String × PyBytes)) (spec : ContractCreationSpec) (r : SignerRequest) : Prop :=
  ∃ text data, (∀ contractID ∈ PyValue.referencesOf spec.constructorValues, ∃ address,
    created.lookup contractID = some address ∧ Denotes (text contractID) address) ∧
      CreationData text spec data ∧ r.calldataHex = toHex data

/-- What the planner computes for a contract is a text of the address that it gets. -/
theorem createAddress_eq (hl : PlanLibraries.Lawful) (he : Evm.Rules.Lawful) {deployer address : String}
    {sender : PyBytes} (hsender : deployerBytes deployer = some sender)
    (h : createAddress deployer nonce = .ok address) :
    address = toChecksumAddress (Evm.createdAddress sender nonce.toNat) := by
  rw [createAddress, hsender] at h
  obtain ⟨-, h⟩ := revertIf_bind.mp h
  rw [← pure_eq_ok.mp h, takeLast, hl.keccak_eq, hl.rlpEncode_eq, he.length_keccak256, Evm.createdAddress]

theorem plannedAddresses_eq (hl : PlanLibraries.Lawful) (he : Evm.Rules.Lawful) {deployer : String} {sender : PyBytes}
    {planned : List (String × String)} (hsender : deployerBytes deployer = some sender)
    (h : plannedAddresses deployer nonce specs = .ok planned) : planned = createdTexts sender nonce specs := by
  induction specs generalizing nonce planned with
  | nil => exact (pure_eq_ok.mp h).symm
  | cons spec specs ih =>
    obtain ⟨address, haddress, h⟩ := bind_eq_ok.mp h
    obtain ⟨rest, hrest, h⟩ := bind_eq_ok.mp h
    rw [← pure_eq_ok.mp h, ih hrest, createAddress_eq hl he hsender haddress]
    rfl

omit [PlanLibraries] in
theorem length_of_created (he : Evm.Rules.Lawful) {sender : PyBytes} :
    ∀ p ∈ createdAddresses sender nonce specs, p.2.length = 20 := by
  induction specs generalizing nonce with
  | nil => exact List.forall_mem_nil _
  | cons spec specs ih => exact List.forall_mem_cons.mpr ⟨Evm.length_createdAddress he .., ih⟩

/-- A text of the address of a contract that has one. -/
theorem denotes_of_known (hl : PlanLibraries.Lawful) {created : List (String × PyBytes)} {contractID address : String}
    (hlength : ∀ p ∈ created, p.2.length = 20)
    (h : (created.map fun p => (p.1, toChecksumAddress p.2)).lookup contractID = some address) :
    ∃ a, created.lookup contractID = some a ∧ Denotes address a := by
  induction created with
  | nil => cases h
  | cons p created ih =>
    rw [List.forall_mem_cons] at hlength
    rw [List.map_cons, List.lookup_cons] at h
    rw [List.lookup_cons]
    split at h
    · cases h
      exact ⟨p.2, rfl, hl.denotes_checksum hlength.1⟩
    · exact ih hlength.2 h

/-- The data of a planned request refer to the addresses that the contracts get. -/
theorem PlannedRequest.encodes (hl : PlanLibraries.Lawful) (he : Evm.Rules.Lawful) {sender : PyBytes} {start : Int}
    {all : List ContractCreationSpec} {r : SignerRequest}
    (h : PlannedRequest order (createdTexts sender start all) networkID signerID nonce spec r) :
    Encodes (createdAddresses sender start all) spec r := by
  obtain ⟨data, hdata, hb⟩ := h.built
  refine ⟨_, data, fun contractID hid => ?_, hdata, hb.calldataHex⟩
  obtain ⟨address, hlookup⟩ := h.known contractID hid
  rw [addressIn, hlookup]
  exact denotes_of_known hl (length_of_created he) hlookup

/-- The addresses that the contracts of the requests get. -/
theorem minedAddresses_of_planned (sender : PyBytes) {requests : List SignerRequest} {known : List (String × String)}
    (h : PlannedRequests order known networkID signerID nonce specs requests) :
    ∃ mined, minedAddresses sender nonce requests = some mined ∧
      (specs.map ContractCreationSpec.contractID).zip mined = createdAddresses sender nonce specs := by
  induction h with
  | nil => exact ⟨[], rfl, rfl⟩
  | @cons nonce spec specs r rs first others ih =>
    obtain ⟨mined, hmined, hcreated⟩ := ih
    refine ⟨Evm.createdAddress sender nonce.toNat :: mined, ?_, ?_⟩
    · rw [minedAddresses, if_pos ⟨first.nonce, first.destination⟩, hmined]
      rfl
    · rw [List.map_cons, List.zip_cons_cons, hcreated, createdAddresses]

theorem encodes_of_planned (hl : PlanLibraries.Lawful) (he : Evm.Rules.Lawful) {sender : PyBytes} {start : Int}
    {all : List ContractCreationSpec} {requests : List SignerRequest}
    (h : PlannedRequests order (createdTexts sender start all) networkID signerID nonce specs requests) :
    List.Forall₂ (Encodes (createdAddresses sender start all)) specs requests := by
  induction h with
  | nil => exact .nil
  | cons first _ ih => exact .cons (first.encodes hl he) ih

/-! ## Executable plans -/

/-- The transaction of a request, with its data. -/
def SignerRequest.transaction (r : SignerRequest) (data : PyBytes) : Evm.Transaction where
  chainID := r.chainID
  nonce := r.nonce
  gasLimit := r.gasLimit
  maxFeePerGas := r.maxFeePerGasWei
  maxPriorityFeePerGas := r.maxPriorityFeePerGasWei
  creates := r.destination.isNone
  data := data

omit [PlanLibraries] in
/-- The chain of the request takes its transaction, as far as that does not depend on the state of the chain. -/
def SignerRequest.Admitted (r : SignerRequest) : Prop :=
  ∃ data, Hex.decode r.calldataHex.toList = some data ∧ Evm.Admissible (r.transaction data)

omit [PlanLibraries] in
theorem SignerRequest.admitted_iff {r : SignerRequest} {data : PyBytes} (h : r.calldataHex = toHex data) :
    r.Admitted ↔ Evm.Admissible (r.transaction data) := by
  have hdecode : Hex.decode r.calldataHex.toList = some data := by
    rw [h, toHex, String.toList_ofList, Hex.decode_encode]
  constructor
  · rintro ⟨data', hdata, hx⟩
    cases hdecode.symm.trans hdata
    exact hx
  · exact fun hx => ⟨data, hdecode, hx⟩

/-- What is asked of the requests of a deployment plan. -/
structure DeploymentExecutable (order : DeploymentOrder) (specs : List ContractCreationSpec)
    (requests : List SignerRequest) : Prop where
  passes : ∀ r ∈ requests, Passes r
  admitted : ∀ r ∈ requests, r.Admitted
  operationIDs : (requests.map signerOperationID).Nodup
  nonces : (requests.map fun r => (r.chainID, r.nonce)).Nodup
  references : ∃ sender addresses, deployerBytes order.deployerAddress = some sender ∧
    minedAddresses sender order.startingNonce requests = some addresses ∧
    List.Forall₂ (Encodes ((specs.map ContractCreationSpec.contractID).zip addresses)) specs requests

/-- What the planner does not check of a contract and its deployment. -/
structure DeploymentSignable (order : DeploymentOrder) (specs : List ContractCreationSpec) (signerID : String)
    (spec : ContractCreationSpec) : Prop where
  signerID : signerIDPattern signerID = true
  priority : order.maxPriorityFeePerGasWei ≤ order.maxFeePerGasWei
  gasLimit {data : PyBytes} (h : CreationData (createdText order specs) spec data) :
    intrinsicGas order.chainID true data ≤ spec.gasLimit
  initCode {data : PyBytes} (h : CreationData (createdText order specs) spec data) :
    data.length ≤ initCodeLimit order.chainID
  feeLimit : spec.gasLimit * order.maxFeePerGasWei < 2 ^ 53
  intentID : (order.planID ++ ":" ++ spec.contractID).length ≤ 128

omit [Evm.Rules] in
theorem CreationData.unique {text : String → String} {data data' : PyBytes} (h : CreationData text spec data)
    (h' : CreationData text spec data') : data' = data := by
  obtain ⟨creation, runtime, arguments, hartifact, harguments, rfl⟩ := h
  obtain ⟨creation', runtime', arguments', hartifact', harguments', rfl⟩ := h'
  cases hartifact.symm.trans hartifact'
  cases harguments.symm.trans harguments'
  rfl

/-- What the chain asks of a request that was built. -/
theorem Built.admitted_iff {r : SignerRequest} {data : PyBytes} (hb : Built r data)
    (hu : ∀ n ∈ (unsignedTransactionDocument r).integers, InDomain n) :
    r.Admitted ↔ r.maxPriorityFeePerGasWei ≤ r.maxFeePerGasWei ∧
      intrinsicGas r.chainID r.destination.isNone data ≤ r.gasLimit ∧
        (r.destination.isNone = true → data.length ≤ initCodeLimit r.chainID) := by
  have hnonce : InDomain r.nonce := hu _ (by simp [unsignedTransactionDocument, UnsignedTransaction.integers])
  have hlt : r.nonce < 2 ^ 53 := hnonce.2
  have hle := hb.nonce
  rw [SignerRequest.admitted_iff hb.calldataHex]
  constructor
  · exact fun ha => ⟨ha.priority, ha.gasLimit, ha.initCode⟩
  · intro h
    have hrange : 0 ≤ r.nonce ∧ r.nonce < 2 ^ 64 - 1 := by omega
    exact ⟨hrange, h.2.1, h.1, h.2.2⟩

/-- What the signer and the chain check of the request of a contract that the planner does not. -/
theorem PlannedRequest.signable_iff (he : Evm.Rules.Lawful) {r : SignerRequest} (h : PlannedRequest order
      (createdTexts ((deployerBytes order.deployerAddress).getD []) order.startingNonce specs) networkID signerID
        nonce spec r)
    (hnetwork : chainNetwork order.chainID = some networkID) (hmax : 0 ≤ order.maxFeePerGasWei)
    (hpriority : 0 ≤ order.maxPriorityFeePerGasWei) (hlength : r.calldataLength < 2 ^ 53) :
    Signable r ∧ r.Admitted ↔ DeploymentSignable order specs signerID spec := by
  obtain ⟨data, hdata, hb⟩ := h.built
  have hintegers := integers_iff hb h.gasLimit.2 (h.maxFeePerGasWei ▸ hmax) hlength h.integers
  rw [h.gasLimit.1, h.maxFeePerGasWei] at hintegers
  have hcreates : r.destination.isNone = true := h.destination ▸ rfl
  rw [hb.admitted_iff h.integers, h.maxPriorityFeePerGasWei, h.maxFeePerGasWei, h.chainID, h.gasLimit.1, hcreates]
  constructor
  · intro ⟨hs, hle, hgas, hinit⟩
    exact {
      signerID := h.signerID ▸ hs.signerID
      priority := hle
      gasLimit := fun hx => hdata.unique hx ▸ hgas
      initCode := fun hx => hdata.unique hx ▸ hinit rfl
      feeLimit := hintegers.mp hs.integers
      intentID := h.intentID ▸ hs.intentID.2 }
  · intro hs
    have hgas : intrinsicGas order.chainID true data ≤ spec.gasLimit := hs.gasLimit hdata
    refine ⟨?_, hs.priority, hgas, fun _ => hs.initCode hdata⟩
    exact {
      signerID := h.signerID ▸ hs.signerID
      networkID := by rw [h.chainID, h.networkID, hnetwork]
      destination := by
        rw [h.destination]
        rfl
      gasLimit := by
        have hleast := he.creation_le order.chainID data
        rw [h.gasLimit.1]
        omega
      intentID := by
        rw [h.intentID]
        exact ⟨one_le_length _ _, hs.intentID⟩
      maxPriorityFeePerGasWei := by
        rw [h.maxPriorityFeePerGasWei, h.maxFeePerGasWei]
        exact ⟨hpriority, hs.priority⟩
      integers := hintegers.mpr hs.feeLimit }

/-- The requests of an accepted plan exist, and are executable if the plan satisfies what the signer and the chain ask
besides. -/
theorem deployment_executable_iff (hl : PlanLibraries.Lawful) (he : Evm.Rules.Lawful) {plan : DeploymentPlan}
    (h : buildDeploymentPlan order specs = .ok plan) (hnetwork : chainNetwork plan.chainID = some networkID)
    (hconfig : LowerSHA256 configSHA256) (hcode : LowerSHA256 codeSHA256) :
    ∃ requests, deploymentSignerRequests plan networkID signerID configSHA256 codeSHA256 = .ok requests ∧
      ((∀ r ∈ requests, r.calldataLength < 2 ^ 53) → NoCollision requests →
        (DeploymentExecutable order specs requests ↔ ∀ spec ∈ specs, DeploymentSignable order specs signerID spec)) :=
  by
  rw [buildDeploymentPlan, revertIf_bind, revertIf_bind, revertIf_bind, bind_eq_ok] at h
  obtain ⟨hspecs, hnumbers, -, addresses, haddresses, h⟩ := h
  obtain ⟨creations, hcreations, h⟩ := bind_eq_ok.mp h
  obtain ⟨digest, -, h⟩ := bind_eq_ok.mp h
  cases pure_eq_ok.mp h
  rw [not_or, not_not] at hspecs
  simp only [not_or, Int.not_lt] at hnumbers
  obtain ⟨-, hnonce, hmax, hpriority⟩ := hnumbers
  let plan : DeploymentPlan := ⟨⟨order.planID, order.chainID, order.deployerAddress, order.startingNonce,
    order.compilerVersion, order.toolchainSHA256, creations⟩, sha256 digest⟩
  obtain ⟨requests, hrequests, hplanned⟩ :=
    requests_of_planned hl.toSocket plan rfl rfl hnonce hconfig hcode hcreations
  refine ⟨requests, ?_, fun hlength hc => ?_⟩
  · rw [deploymentSignerRequests, revertIf_bind, revertIf_bind, revertIf_bind]
    exact ⟨fun h => h hnetwork, fun h => h hconfig.1, fun h => h hcode.1, hrequests⟩
  obtain ⟨sender, hsender⟩ := sender_of_planned hspecs.1 haddresses
  obtain rfl := plannedAddresses_eq hl he hsender haddresses
  have htexts : (deployerBytes order.deployerAddress).getD [] = sender := by rw [hsender, Option.getD_some]
  have hsignable {r : SignerRequest} {n : Int} {spec : ContractCreationSpec} (hr : r ∈ requests)
      (hpr : PlannedRequest order (createdTexts sender order.startingNonce specs) networkID signerID n spec r) :
      Signable r ∧ r.Admitted ↔ DeploymentSignable order specs signerID spec :=
    PlannedRequest.signable_iff he (htexts ▸ hpr) hnetwork hmax hpriority (hlength r hr)
  have hall :
      (∀ r ∈ requests, Passes r ∧ r.Admitted) ↔ ∀ spec ∈ specs, DeploymentSignable order specs signerID spec := by
    constructor
    · intro hp spec hspec
      obtain ⟨r, hr, n, hpr⟩ := hplanned.covered spec hspec
      exact (hsignable hr hpr).mp ⟨signable_of_passes hl.toSocket (hp r hr).1, (hp r hr).2⟩
    · intro hs r hr
      obtain ⟨spec, hspec, n, -, hpr⟩ := hplanned.request r hr
      obtain ⟨data, -, hb⟩ := hpr.built
      obtain ⟨hx, ha⟩ := (hsignable hr hpr).mpr (hs spec hspec)
      exact ⟨passes_of_signable hl.toSocket hb hx, ha⟩
  refine ⟨fun hx => hall.mp fun r hr => ⟨hx.passes r hr, hx.admitted r hr⟩, fun hs => ?_⟩
  obtain ⟨mined, hmined, hcreated⟩ := minedAddresses_of_planned sender hplanned
  have hintents : (requests.map SignerRequest.intentID).Nodup := by
    rw [hplanned.intentIDs]
    exact intentIDs_nodup _ hspecs.2
  have hpasses : ∀ r ∈ requests, Passes r := fun r hr => (hall.mpr hs r hr).1
  exact {
    passes := hpasses
    admitted := fun r hr => (hall.mpr hs r hr).2
    operationIDs := operationIDs_nodup hl.toSocket hc hintents hpasses
    nonces := hplanned.nonces
    references := ⟨sender, mined, hsender, hmined, by
      rw [hcreated]
      exact encodes_of_planned hl he hplanned⟩ }

end

end Xir.Impl.XirLab
