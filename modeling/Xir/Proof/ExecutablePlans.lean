import Xir.Proof.ConfigurationPlans

/-!
# Plans that the signer and the chains accept

`plans_executable_iff`: which plans have requests that the signer and the chains
accept, with distinct operation IDs and nonces.
-/

namespace Xir.Impl.XirLab

open SignerLibraries (sha256)

/-- Of the plans that are accepted, those are executable whose fees, gas limits, networks, IDs and nonces are what the
signer and the chains ask. -/
theorem plans_executable_iff [ConfigurationLibraries] [Evm.Rules] (hl : ConfigurationLibraries.Lawful)
    (he : Evm.Rules.Lawful) {signerID configSHA256 codeSHA256 : String} (hconfig : LowerSHA256 configSHA256)
    (hcode : LowerSHA256 codeSHA256) :
    (∀ (order : DeploymentOrder) (specs : List ContractCreationSpec) (plan : DeploymentPlan) (networkID : String),
      buildDeploymentPlan order specs = .ok plan → chainNetwork plan.chainID = some networkID →
      ∃ requests, deploymentSignerRequests plan networkID signerID configSHA256 codeSHA256 = .ok requests ∧
        ((∀ r ∈ requests, r.calldataLength < 2 ^ 53) → NoCollision requests →
          (DeploymentExecutable order specs requests ↔ ∀ spec ∈ specs, DeploymentSignable order specs signerID spec))) ∧
    (∀ (planID deploymentSHA256 : String) (transitions : List ConfigurationTransition) (plan : ConfigurationPlan),
      buildConfigurationPlan planID deploymentSHA256 transitions = .ok plan →
      ∃ requests, configurationSignerRequests plan signerID configSHA256 codeSHA256 = .ok requests ∧
        ((∀ r ∈ requests, r.calldataLength < 2 ^ 53) → NoCollision requests →
          (ConfigurationExecutable plan.transitions requests ↔
            (transitions.map ConfigurationTransition.coordinates).Nodup ∧
              ∀ t ∈ transitions, ConfigurationSignable planID signerID t))) :=
  ⟨fun _ _ _ _ h hnetwork => deployment_executable_iff hl.toPlan he h hnetwork hconfig hcode,
    fun _ _ _ _ h => configuration_executable_iff hl he h hconfig hcode⟩

/-! ## Examples -/

/-- The hashes of an account and its nonces 7 and 8, as lists. -/
def createdHashes : List (PyBytes × PyBytes) :=
  [([0xd6, 0x94] ++ List.replicate 20 0x11 ++ [7],
      [0x5d, 0x4e, 0x8a, 0xfe, 0x35, 0x0b, 0xf9, 0x85, 0x1c, 0x2f, 0x02, 0x09, 0x34, 0xe0, 0x76, 0x55,
       0x25, 0xc4, 0xd4, 0xd8, 0x37, 0xdc, 0x20, 0xbc, 0xb4, 0x58, 0xed, 0xd2, 0x06, 0x12, 0x0e, 0x59]),
    ([0xd6, 0x94] ++ List.replicate 20 0x11 ++ [8],
      [0x7a, 0xfc, 0x39, 0x89, 0x55, 0xa7, 0x5a, 0x41, 0xe6, 0x30, 0x14, 0x19, 0x43, 0xce, 0xe6, 0x58,
       0x6b, 0x58, 0x9f, 0xe6, 0xf8, 0x16, 0x37, 0xbf, 0x32, 0x31, 0x21, 0x08, 0x7f, 0x54, 0xfe, 0xf0])]

/-- The addresses that they end with, and their checksums. -/
def checksums : List (PyBytes × String) :=
  [([0x34, 0xe0, 0x76, 0x55, 0x25, 0xc4, 0xd4, 0xd8, 0x37, 0xdc, 0x20, 0xbc, 0xb4, 0x58, 0xed, 0xd2,
    0x06, 0x12, 0x0e, 0x59],
      "0x34E0765525c4d4D837Dc20bcb458EdD206120e59"),
    ([0x43, 0xce, 0xe6, 0x58, 0x6b, 0x58, 0x9f, 0xe6, 0xf8, 0x16, 0x37, 0xbf, 0x32, 0x31, 0x21, 0x08,
     0x7f, 0x54, 0xfe, 0xf0],
      "0x43CeE6586B589FE6F81637bf323121087f54FEF0")]

/-- The costs since the upgrade of April 2023, which limits init code. -/
@[reducible] def shanghaiRules : Evm.Rules where
  keccak256 data := (createdHashes.lookup data).getD (List.replicate 32 0)
  intrinsicGas _ creates data := 21000 + (data.map fun b => if b = 0 then 4 else 16).sum +
    if creates then 32000 + 2 * ((data.length + 31) / 32) else 0
  initCodeLimit _ := 49152

theorem lookup_getD {α β : Type} [BEq α] [LawfulBEq α] {P : α → β → Prop} {l : List (α × β)}
    (h : ∀ p ∈ l, P p.1 p.2) {a : α} {b : β} (hb : P a b) : P a ((l.lookup a).getD b) := by
  induction l with
  | nil => exact hb
  | cons p l ih =>
    rw [List.forall_mem_cons] at h
    rw [List.lookup_cons]
    split
    · next heq => exact eq_of_beq heq ▸ h.1
    · exact ih h.2

theorem shanghaiRules_lawful : @Evm.Rules.Lawful shanghaiRules := by
  let := shanghaiRules
  exact {
    length_keccak256 data :=
      lookup_getD (P := fun (_ hash : PyBytes) => hash.length = 32) (by decide) (List.length_replicate ..)
    creation_le _ data := by
      show 53000 ≤ 21000 + _ + (32000 + _)
      omega
    call_le _ data := by
      show 21000 ≤ 21000 + _ + 0
      omega }

/-- A word of the encoding of arguments. -/
def abiWord (data : PyBytes) : PyBytes := List.replicate (32 - data.length) 0 ++ data

/-- Libraries that encode of a document what tells those of one plan apart. -/
@[reducible] def planLibraries : ConfigurationLibraries where
  sha256 data := String.ofList (Hex.encode ((List.replicate (32 - data.length) 0 ++ data).take 32))
  dumps r := if ∀ n ∈ r.integers, InDomain n then .ok (encode r.intentID) else .error (.valueError "integer domain")
  dumpsUnsigned t :=
    if ∀ n ∈ t.integers, InDomain n then .ok (t.integers.map fun n => UInt8.ofNat n.toNat)
    else .error (.valueError "integer domain")
  dumpsDocument operationID r :=
    if ∀ n ∈ r.integers, InDomain n then .ok (encode operationID) else .error (.valueError "integer domain")
  artifact path := .ok (encode path, encode path)
  abiEncode
    | [], [] => .ok []
    | ["address[1]"], [.list [.text address]] => .ok (abiWord ((Hex.decode (address.toList.drop 2)).getD []))
    | _, _ => .error (.valueError "ABI")
  keccak data := (createdHashes.lookup data).getD (List.replicate 32 0)
  rlpEncode sender nonce := Evm.rlpList [Evm.rlpString sender, Evm.rlpString (Evm.scalar nonce)]
  toChecksumAddress address := (checksums.lookup address).getD ("0x" ++ toHex address)
  dumpsDeployment body := .ok (encode body.planID)
  int16 text := some ((text.toList.drop 2).foldl (fun n c => 16 * n + ((Hex.value c).getD 0 : Int)) 0)
  dumpsConfiguration body :=
    if ∀ t ∈ body.transitions, ∀ n ∈ t.integers, InDomain n then .ok (encode body.planID)
    else .error (.valueError "integer domain")

theorem encode_injective : Function.Injective encode := fun _ _ h =>
  String.toByteArray_inj.mp (ByteArray.ext (Array.toList_inj.mp h))

theorem exists_ite_ok {α : Type} {c : Prop} [Decidable c] {a : α} {e : LabError} :
    (∃ b, (if c then .ok a else .error e : Except LabError α) = .ok b) ↔ c := by
  by_cases h : c <;> simp [h]

theorem length_window (data : PyBytes) : ((List.replicate (32 - data.length) 0 ++ data).take 32).length = 32 := by
  rw [List.length_take, List.length_append, List.length_replicate]
  omega

theorem checksums_decode : ∀ p ∈ checksums, p.2 = "0x" ++ String.ofList (p.2.toList.drop 2) ∧
    Hex.decode (String.ofList (p.2.toList.drop 2)).toList = some p.1 := by decide +kernel

theorem planLibraries_lawful : @ConfigurationLibraries.Lawful planLibraries shanghaiRules := by
  let := planLibraries
  let := shanghaiRules
  exact {
    digest data := by
      constructor
      · show (String.ofList _).length = 64
        rw [String.length_ofList, Hex.length_encode, length_window]
      · show ∀ c ∈ (String.ofList _).toList, _
        rw [String.toList_ofList]
        exact Hex.forall_encode (by decide) _
    dumps_ok r := exists_ite_ok
    dumps_intentID {r r' data} h h' := by
      have hr : encode r.intentID = data := by
        by_cases hi : ∀ n ∈ r.integers, InDomain n
        · exact Except.ok.inj ((if_pos hi).symm.trans h)
        · exact absurd ((if_neg hi).symm.trans h) (by simp)
      have hr' : encode r'.intentID = data := by
        by_cases hi : ∀ n ∈ r'.integers, InDomain n
        · exact Except.ok.inj ((if_pos hi).symm.trans h')
        · exact absurd ((if_neg hi).symm.trans h') (by simp)
      exact encode_injective (hr.trans hr'.symm)
    dumpsUnsigned_ok t := exists_ite_ok
    dumpsDocument_ok operationID r := exists_ite_ok
    dumpsConfiguration_ok body := exists_ite_ok
    keccak_eq data := rfl
    rlpEncode_eq sender nonce := rfl
    denotes_checksum {address} _ := by
      refine lookup_getD (P := fun address text => Denotes text address) (fun p hp => ?_) ⟨toHex address, rfl, ?_⟩
      · exact ⟨String.ofList (p.2.toList.drop 2), checksums_decode p hp⟩
      · rw [toHex, String.toList_ofList, Hex.decode_encode] }

attribute [local instance] planLibraries shanghaiRules

/-- Short texts of one length have distinct hashes. -/
theorem noCollision_of_short {requests : List SignerRequest} {n : Nat} (hn : n ≤ 32)
    (h : ∀ r ∈ requests, (encode r.intentID).length = n) : NoCollision requests := by
  have hdumps (r : SignerRequest) {data : PyBytes} (hdata : SignerLibraries.dumps r = .ok data) :
      encode r.intentID = data := by
    by_cases hi : ∀ n ∈ r.integers, InDomain n
    · exact Except.ok.inj ((if_pos hi).symm.trans hdata)
    · exact absurd ((if_neg hi).symm.trans hdata) (by simp)
  intro r hr r' hr' data data' hdata hdata' heq
  have hlength : data.length = n := hdumps r hdata ▸ h r hr
  have hlength' : data'.length = n := hdumps r' hdata' ▸ h r' hr'
  have hwindow := Hex.encode_inj.mp (String.ofList_injective heq)
  rw [hlength, hlength', List.take_of_length_le, List.take_of_length_le] at hwindow
  · exact List.append_cancel_left hwindow
  · rw [List.length_append, List.length_replicate, hlength']
    omega
  · rw [List.length_append, List.length_replicate, hlength]
    omega

/-- The digest of no bytes. -/
def zeroDigest : String := sha256 []

theorem zeroDigest_lower : LowerSHA256 zeroDigest := planLibraries_lawful.digest []

/-- What the examples need of a request: its ID, whether its integers are in the domain of the encoding, and whether its
fees are in order. -/
def SignerRequest.facts (r : SignerRequest) : String × Bool × Bool :=
  (r.intentID, decide (∀ n ∈ r.integers, InDomain n), decide (r.maxPriorityFeePerGasWei ≤ r.maxFeePerGasWei))

theorem facts_of_map {requests : List SignerRequest} {facts : List (String × Bool × Bool)}
    (h : requests.map SignerRequest.facts = facts) (hshort : ∀ f ∈ facts, f.2.1 = true ∧ (encode f.1).length = 6) :
    (∀ r ∈ requests, ∀ n ∈ r.integers, InDomain n) ∧ NoCollision requests := by
  rw [← h] at hshort
  constructor
  · exact fun r hr => of_decide_eq_true (hshort _ (List.mem_map_of_mem hr)).1
  · exact noCollision_of_short (by decide) fun r hr => (hshort _ (List.mem_map_of_mem hr)).2

/-- A deployment whose first contract refers to the second, with a priority fee. -/
def pairOrder (priority : Int) : DeploymentOrder where
  planID := "plan"
  chainID := 84532
  deployerAddress := "0x1111111111111111111111111111111111111111"
  startingNonce := 7
  compilerVersion := "0.8.28"
  toolchainSHA256 := zeroDigest
  maxFeePerGasWei := 2
  maxPriorityFeePerGasWei := priority

def pairSpecs : List ContractCreationSpec :=
  [⟨"a", "A.json", ["address[1]"], [.list [.reference "b"]], 100000, 0, none⟩, ⟨"b", "B.json", [], [], 100000, 0, none⟩]

/-- The requests of the deployment. -/
def pairFacts (priority : Int) : Option (List (String × Bool × Bool)) := do
  let plan ← (buildDeploymentPlan (pairOrder priority) pairSpecs).toOption
  let requests ← (deploymentSignerRequests plan "base-sepolia" "signer" zeroDigest zeroDigest).toOption
  return requests.map SignerRequest.facts

/-- What the evaluation of the two deployments gives, and what the chain asks of their data. -/
theorem pair_checked :
    pairFacts 1 = some [("plan:a", true, true), ("plan:b", true, true)] ∧
    pairFacts 3 = some [("plan:a", true, false), ("plan:b", true, false)] ∧
    ∀ spec ∈ pairSpecs, (PlanLibraries.abiEncode spec.constructorTypes (PyValue.substituteItems
      (createdText (pairOrder 1) pairSpecs) spec.constructorValues)).toOption.all (fun arguments =>
        decide (Evm.Rules.intrinsicGas 84532 true (encode spec.artifactPath ++ arguments) ≤ spec.gasLimit ∧
          (encode spec.artifactPath ++ arguments).length ≤ 49152)) = true := by decide +kernel

theorem pair_accepted {priority : Int} {facts : List (String × Bool × Bool)} (h : pairFacts priority = some facts) :
    ∃ plan requests, buildDeploymentPlan (pairOrder priority) pairSpecs = .ok plan ∧
      deploymentSignerRequests plan "base-sepolia" "signer" zeroDigest zeroDigest = .ok requests ∧
      requests.map SignerRequest.facts = facts := by
  obtain ⟨plan, hplan, h⟩ := Option.bind_eq_some_iff.mp h
  obtain ⟨requests, hrequests, h⟩ := Option.bind_eq_some_iff.mp h
  exact ⟨plan, requests, toOption_eq_some hplan, toOption_eq_some hrequests, Option.some.inj h⟩

theorem network_of_requests {plan : DeploymentPlan} {networkID signerID configSHA256 codeSHA256 : String}
    {requests : List SignerRequest}
    (h : deploymentSignerRequests plan networkID signerID configSHA256 codeSHA256 = .ok requests) :
    chainNetwork plan.chainID = some networkID := by
  obtain ⟨hnetwork, -⟩ := revertIf_bind.mp h
  exact not_not.mp hnetwork

/-- The planner of deployments accepts a priority fee over the maximum fee, and the signer does not. -/
theorem plan_refused : ¬ ∀ [ConfigurationLibraries] [Evm.Rules] (_ : ConfigurationLibraries.Lawful)
    (_ : Evm.Rules.Lawful) (order : DeploymentOrder)
    (specs : List ContractCreationSpec) (plan : DeploymentPlan)
    (networkID signerID configSHA256 codeSHA256 : String) (requests : List SignerRequest),
    buildDeploymentPlan order specs = .ok plan → chainNetwork plan.chainID = some networkID →
    LowerSHA256 configSHA256 → LowerSHA256 codeSHA256 → signerIDPattern signerID = true →
    deploymentSignerRequests plan networkID signerID configSHA256 codeSHA256 = .ok requests →
    (∀ r ∈ requests, ∀ n ∈ r.integers, InDomain n) → NoCollision requests →
    ∀ r ∈ requests, Passes r := by
  intro h
  obtain ⟨plan, requests, hplan, hrequests, hfacts⟩ :=
    pair_accepted pair_checked.2.1
  obtain ⟨hdomain, hcollision⟩ := facts_of_map hfacts (by decide)
  have hpass := h planLibraries_lawful shanghaiRules_lawful _ _ plan _ _ _ _ requests hplan
    (network_of_requests hrequests) zeroDigest_lower
    zeroDigest_lower (by decide) hrequests hdomain hcollision
  cases requests with
  | nil => exact absurd hfacts (by decide)
  | cons r rs =>
    have hle :=
      (signable_of_passes planLibraries_lawful.toSocket (hpass r List.mem_cons_self)).maxPriorityFeePerGasWei.2
    rw [List.map_cons, List.cons.injEq, SignerRequest.facts, decide_eq_true hle] at hfacts
    exact absurd hfacts.1 (by simp)

def settingOf (id networkID : String) (chainID nonce : Int) (category : ConfigurationCategory) :
    ConfigurationTransition where
  transitionID := id
  category := category
  networkID := networkID
  chainID := chainID
  contractID := "contract"
  destination := "0x2222222222222222222222222222222222222222"
  sender := "0x1111111111111111111111111111111111111111"
  nonce := nonce
  valueWei := 0
  calldata := [1]
  gasLimit := 30000
  maxFeePerGasWei := 1
  maxPriorityFeePerGasWei := 1
  expectedPreStateSHA256 := zeroDigest
  expectedPostStateSHA256 := zeroDigest

theorem checkTransition_settingOf (id networkID : String) (chainID : Int) {nonce : Int} (h : 0 ≤ nonce)
    (category : ConfigurationCategory) : checkTransition (settingOf id networkID chainID nonce category) = .ok () := by
  have hdestination : checkAddress "0x2222222222222222222222222222222222222222" "configuration destination" = .ok () :=
    revertIf_eq_ok.mpr (by decide +kernel)
  have hsender : checkAddress "0x1111111111111111111111111111111111111111" "configuration sender" = .ok () :=
    revertIf_eq_ok.mpr (by decide +kernel)
  have hdigest (label : String) : checkDigest zeroDigest label = .ok () :=
    revertIf_eq_ok.mpr (not_not.mpr zeroDigest_lower)
  rw [checkTransition, unit_bind, unit_bind, unit_bind, unit_bind, revertIf_eq_ok]
  refine ⟨hdestination, hsender, hdigest _, hdigest _, ?_⟩
  simp [settingOf, h]

def settings : List ConfigurationTransition :=
  [settingOf "a" "base-sepolia" 84532 0 .endpoint, settingOf "b" "base-sepolia" 84532 1 .peer,
    settingOf "c" "base-sepolia" 84532 2 .selector, settingOf "d" "arbitrum-sepolia" 421614 0 .security,
    settingOf "e" "arbitrum-sepolia" 421614 1 .runner, settingOf "f" "op-sepolia" 11155420 0 .pauseDrain,
    settingOf "g" "op-sepolia" 11155420 1 .xirRouteProfile, settingOf "h" "op-sepolia" 11155420 2 .receiverIsolation]

/-- What the evaluation of the transitions gives, and what the signer and the chains ask of them. -/
theorem settings_checked :
    (settings.Pairwise fun t u => transitionLE t u) ∧
    (settings.map ConfigurationTransition.transitionID).Nodup ∧
    (settings.map ConfigurationTransition.networkID).dedup.Perm fixedNetworks ∧
    (settings.map ConfigurationTransition.category).dedup.Perm requiredConfigurationCategories ∧
    (∀ t ∈ settings, ∀ n ∈ t.integers, InDomain n) ∧
    (settings.map ConfigurationTransition.coordinates).Nodup ∧
    (∀ f ∈ settings.map (fun t => ("plan:" ++ t.transitionID, true, true)), f.2.1 = true ∧ (encode f.1).length = 6) ∧
    (settings.mapM (transitionRequest ⟨⟨"plan", zeroDigest, settings⟩, ""⟩ "signer" zeroDigest zeroDigest)).toOption.map
      (fun requests => requests.map SignerRequest.facts) =
        some (settings.map fun t => ("plan:" ++ t.transitionID, true, true)) ∧
    ∀ t ∈ settings, chainNetwork t.chainID = some t.networkID ∧ addressPattern t.destination = true ∧
      Evm.Rules.intrinsicGas t.chainID false t.calldata ≤ t.gasLimit ∧ 0 ≤ t.maxPriorityFeePerGasWei ∧
        t.gasLimit * t.maxFeePerGasWei < 2 ^ 53 ∧ ("plan" ++ ":" ++ t.transitionID).length ≤ 128 := by
  decide +kernel

theorem settings_accepted :
    ∃ digest, buildConfigurationPlan "plan" zeroDigest settings = .ok ⟨⟨"plan", zeroDigest, settings⟩, digest⟩ := by
  obtain ⟨hsorted, hids, hnetworks, hcategories, hdomain, -⟩ := settings_checked
  have hnonces : ∀ t ∈ settings, ∃ id networkID chainID nonce category,
      0 ≤ nonce ∧ t = settingOf id networkID chainID nonce category := by
    simp only [settings, List.forall_mem_cons]
    refine ⟨?_, ?_, ?_, ?_, ?_, ?_, ?_, ?_, List.forall_mem_nil _⟩ <;> exact ⟨_, _, _, _, _, by decide, rfl⟩
  have hchecks : settings.mapM checkTransition = .ok (settings.map fun _ => ()) := by
    refine mapM_eq_ok_of_forall fun t ht => ?_
    obtain ⟨id, networkID, chainID, nonce, category, hnonce, rfl⟩ := hnonces t ht
    exact checkTransition_settingOf id networkID chainID hnonce category
  refine ⟨SignerLibraries.sha256 (encode "plan"), ?_⟩
  rw [buildConfigurationPlan, unit_bind, revertIf_bind, revertIf_bind, revertIf_bind, bind_eq_ok,
    List.mergeSort_of_pairwise hsorted]
  refine ⟨?_, ?_, not_not.mpr hnetworks, not_not.mpr hcategories, _, hchecks, bind_of_ok (if_pos hdomain) _⟩
  · exact revertIf_eq_ok.mpr (not_not.mpr zeroDigest_lower)
  · rw [not_or]
    exact ⟨List.cons_ne_nil _ _, not_not.mpr hids⟩

theorem pairSpecs_bounds : ∀ spec ∈ pairSpecs, spec.gasLimit * 2 < 2 ^ 53 ∧
    ("plan" ++ ":" ++ spec.contractID).length ≤ 128 := by decide

/-- The chain takes the creations of the contracts. -/
theorem pairSpecs_data {spec : ContractCreationSpec} (hspec : spec ∈ pairSpecs) {data : PyBytes}
    (h : CreationData (createdText (pairOrder 1) pairSpecs) spec data) :
    Evm.Rules.intrinsicGas 84532 true data ≤ spec.gasLimit ∧ data.length ≤ 49152 := by
  obtain ⟨creation, runtime, arguments, hartifact, harguments, rfl⟩ := h
  cases hartifact
  have hfit := pair_checked.2.2 spec hspec
  rw [harguments] at hfit
  exact of_decide_eq_true hfit

theorem plans_executable_samples :
    (∃ plan requests, buildDeploymentPlan (pairOrder 1) pairSpecs = .ok plan ∧
      deploymentSignerRequests plan "base-sepolia" "signer" zeroDigest zeroDigest = .ok requests ∧
      DeploymentExecutable (pairOrder 1) pairSpecs requests) ∧
    ∃ plan requests, buildConfigurationPlan "plan" zeroDigest settings = .ok plan ∧
      configurationSignerRequests plan "signer" zeroDigest zeroDigest = .ok requests ∧
      ConfigurationExecutable plan.transitions requests := by
  obtain ⟨hdeployment, hconfiguration⟩ :=
    plans_executable_iff planLibraries_lawful shanghaiRules_lawful zeroDigest_lower zeroDigest_lower
  constructor
  · obtain ⟨plan, requests, hplan, hrequests, hfacts⟩ :=
      pair_accepted pair_checked.1
    obtain ⟨hdomain, hcollision⟩ := facts_of_map hfacts (by decide)
    obtain ⟨requests', hrequests', h⟩ := hdeployment _ _ plan _ hplan (network_of_requests hrequests)
    cases hrequests.symm.trans hrequests'
    refine ⟨plan, requests, hplan, hrequests, (h (fun r hr => ?_) hcollision).mpr fun spec hspec => ?_⟩
    · exact (hdomain r hr _ (by simp [SignerRequest.integers])).2
    · obtain ⟨hfee, hintent⟩ := pairSpecs_bounds spec hspec
      exact ⟨by decide, by decide, fun hx => (pairSpecs_data hspec hx).1, fun hx => (pairSpecs_data hspec hx).2, hfee,
        hintent⟩
  · obtain ⟨digest, hplan⟩ := settings_accepted
    obtain ⟨-, -, -, -, -, hcoordinates, hshort, hevaluated, hbounds⟩ := settings_checked
    obtain ⟨requests, hrequests, h⟩ := hconfiguration _ _ _ _ hplan
    have hfacts : requests.map SignerRequest.facts = settings.map fun t => ("plan:" ++ t.transitionID, true, true) := by
      -- The digest of a plan is in none of its requests.
      have hall : (configurationSignerRequests ⟨⟨"plan", zeroDigest, settings⟩, digest⟩ "signer" zeroDigest
          zeroDigest).toOption.map _ = _ := hevaluated
      rw [hrequests] at hall
      exact Option.some.inj hall
    obtain ⟨hdomain, hcollision⟩ := facts_of_map hfacts hshort
    refine ⟨_, requests, hplan, hrequests, (h (fun r hr => ?_) hcollision).mpr ⟨hcoordinates, fun t ht => ?_⟩⟩
    · exact (hdomain r hr _ (by simp [SignerRequest.integers])).2
    · obtain ⟨hnetwork, hdestination, hgas, hpriority, hfee, hintent⟩ := hbounds t ht
      exact ⟨by decide, hnetwork, hdestination, hgas, hpriority, hfee, hintent⟩

end Xir.Impl.XirLab
