import Xir.Impl.XirLab.ConfigurationPlans
import Xir.Proof.DeploymentPlans

/-!
# Configuration plans that the signer and the chain accept

As for deployment plans (`configuration_executable_iff`). The planner compares no
nonces, so that they are part of what it does not check.
-/

namespace Xir.Impl.XirLab

open SignerLibraries (sha256)
open Evm.Rules (intrinsicGas)

variable [ConfigurationLibraries] [Evm.Rules]

/-- What is documented of the libraries of the planners. -/
structure ConfigurationLibraries.Lawful : Prop extends toPlan : PlanLibraries.Lawful where
  dumpsConfiguration_ok (body : ConfigurationPlanBody) :
    (∃ data, ConfigurationLibraries.dumpsConfiguration body = .ok data) ↔
      ∀ t ∈ body.transitions, ∀ n ∈ t.integers, InDomain n

/-- The chain, the account and the nonce of a transaction. -/
def ConfigurationTransition.coordinates (t : ConfigurationTransition) : Int × Option Int × Int :=
  (t.chainID, ConfigurationLibraries.int16 t.sender, t.nonce)

/-- What is asked of the requests of the transitions of a configuration plan. -/
structure ConfigurationExecutable (transitions : List ConfigurationTransition) (requests : List SignerRequest) :
    Prop where
  passes : ∀ r ∈ requests, Passes r
  admitted : ∀ r ∈ requests, r.Admitted
  operationIDs : (requests.map signerOperationID).Nodup
  nonces : ((transitions.zip requests).map fun p =>
    (p.2.chainID, ConfigurationLibraries.int16 p.1.sender, p.2.nonce)).Nodup

/-- What the planner does not check of a transition. -/
structure ConfigurationSignable (planID signerID : String) (t : ConfigurationTransition) : Prop where
  signerID : signerIDPattern signerID = true
  networkID : chainNetwork t.chainID = some t.networkID
  destination : addressPattern t.destination = true
  gasLimit : intrinsicGas t.chainID false t.calldata ≤ t.gasLimit
  priority : 0 ≤ t.maxPriorityFeePerGasWei
  feeLimit : t.gasLimit * t.maxFeePerGasWei < 2 ^ 53
  intentID : (planID ++ ":" ++ t.transitionID).length ≤ 128

variable {plan : ConfigurationPlan} {signerID configSHA256 codeSHA256 : String} {t : ConfigurationTransition}
  {transitions : List ConfigurationTransition}

/-- The request of a transition, and what is known of it. -/
structure PlannedTransition (planID signerID : String) (t : ConfigurationTransition) (r : SignerRequest) : Prop where
  built : Built r t.calldata
  networkID : r.networkID = t.networkID
  chainID : r.chainID = t.chainID
  signerID : r.signerID = signerID
  intentID : r.intentID = planID ++ ":" ++ t.transitionID
  nonce : r.nonce = t.nonce
  destination : r.destination = some t.destination
  gasLimit : r.gasLimit = t.gasLimit ∧ 0 < r.gasLimit
  maxFeePerGasWei : r.maxFeePerGasWei = t.maxFeePerGasWei
  maxPriorityFeePerGasWei : r.maxPriorityFeePerGasWei = t.maxPriorityFeePerGasWei
  priority : r.maxPriorityFeePerGasWei ≤ r.maxFeePerGasWei
  integers : ∀ n ∈ (unsignedTransactionDocument r).integers, InDomain n

omit [Evm.Rules] in
theorem transitionRequest_of_checked (hl : SocketLibraries.Lawful) (hconfig : LowerSHA256 configSHA256)
    (hcode : LowerSHA256 codeSHA256) (h : checkTransition t = .ok ()) (hdomain : ∀ n ∈ t.integers, InDomain n) :
    ∃ r, transitionRequest plan signerID configSHA256 codeSHA256 t = .ok r ∧
      PlannedTransition plan.planID signerID t r := by
  rw [checkTransition, unit_bind, unit_bind, unit_bind, unit_bind, revertIf_eq_ok] at h
  obtain ⟨-, -, -, -, hbounds⟩ := h
  simp only [not_or, Int.not_lt, Int.not_le] at hbounds
  obtain ⟨hnonce, hvalue, hgas, hpriority, -⟩ := hbounds
  let r (unsigned : String) : SignerRequest := {
    networkID := t.networkID
    chainID := t.chainID
    signerID := signerID
    intentID := plan.planID ++ ":" ++ t.transitionID
    nonce := t.nonce
    destination := some t.destination
    valueWei := t.valueWei
    calldataSHA256 := sha256 t.calldata
    calldataLength := t.calldata.length
    feeLimitWei := t.gasLimit * t.maxFeePerGasWei
    role := "deployer"
    configSHA256 := configSHA256
    codeSHA256 := codeSHA256
    gasLimit := t.gasLimit
    maxFeePerGasWei := t.maxFeePerGasWei
    maxPriorityFeePerGasWei := t.maxPriorityFeePerGasWei
    calldataHex := toHex t.calldata
    unsignedTransactionSHA256 := unsigned }
  obtain ⟨document, hdocument⟩ := (hl.dumpsUnsigned_ok (unsignedTransactionDocument (r ""))).mpr hdomain
  have hdigest (unsigned : String) : unsignedTransactionDigest (r unsigned) = .ok (sha256 document) := by
    show (SocketLibraries.dumpsUnsigned (unsignedTransactionDocument (r "")) >>= fun data => _) = _
    rw [bind_of_ok hdocument]
    rfl
  refine ⟨r (sha256 document), ?_, ?_⟩
  · show (unsignedTransactionDigest (r (String.ofList (List.replicate 64 '0'))) >>= fun unsigned => _) = _
    rw [bind_of_ok (hdigest _)]
    rfl
  · exact {
      built := ⟨rfl, rfl, rfl, rfl, hconfig, hcode, hnonce, hvalue, rfl, hdigest _⟩
      networkID := rfl
      chainID := rfl
      signerID := rfl
      intentID := rfl
      nonce := rfl
      destination := rfl
      gasLimit := ⟨rfl, hgas⟩
      maxFeePerGasWei := rfl
      maxPriorityFeePerGasWei := rfl
      priority := hpriority
      integers := hdomain }

/-- What the signer and the chain check of the request of a transition that the planner does not. -/
theorem PlannedTransition.signable_iff (he : Evm.Rules.Lawful) {planID : String} {r : SignerRequest}
    (h : PlannedTransition planID signerID t r) (hlength : r.calldataLength < 2 ^ 53) :
    Signable r ∧ r.Admitted ↔ ConfigurationSignable planID signerID t := by
  have hintegers (hmax : 0 ≤ r.maxFeePerGasWei) := integers_iff h.built h.gasLimit.2 hmax hlength h.integers
  rw [h.gasLimit.1, h.maxFeePerGasWei] at hintegers
  have hpriority := h.priority
  rw [h.maxPriorityFeePerGasWei, h.maxFeePerGasWei] at hpriority
  have hcreates : r.destination.isNone = false := h.destination ▸ rfl
  rw [h.built.admitted_iff h.integers, h.maxPriorityFeePerGasWei, h.maxFeePerGasWei, h.chainID, h.gasLimit.1, hcreates]
  constructor
  · intro ⟨hs, _, hgas, _⟩
    have hzero : 0 ≤ t.maxPriorityFeePerGasWei := h.maxPriorityFeePerGasWei ▸ hs.maxPriorityFeePerGasWei.1
    exact {
      signerID := h.signerID ▸ hs.signerID
      networkID := h.chainID ▸ h.networkID ▸ hs.networkID
      destination := by
        have hdestination := hs.destination
        rw [h.destination] at hdestination
        exact hdestination
      gasLimit := hgas
      priority := hzero
      feeLimit := (hintegers (hzero.trans hpriority)).mp hs.integers
      intentID := h.intentID ▸ hs.intentID.2 }
  · intro hs
    have hgas : intrinsicGas t.chainID false t.calldata ≤ t.gasLimit := hs.gasLimit
    refine ⟨?_, hpriority, hgas, Bool.noConfusion⟩
    exact {
      signerID := h.signerID ▸ hs.signerID
      networkID := by rw [h.chainID, h.networkID, hs.networkID]
      destination := by
        rw [h.destination]
        exact hs.destination
      gasLimit := by
        have hleast := he.call_le t.chainID t.calldata
        rw [h.gasLimit.1]
        omega
      intentID := by
        rw [h.intentID]
        exact ⟨one_le_length _ _, hs.intentID⟩
      maxPriorityFeePerGasWei := ⟨h.maxPriorityFeePerGasWei ▸ hs.priority, h.priority⟩
      integers := (hintegers (hs.priority.trans hpriority)).mpr hs.feeLimit }

omit [Evm.Rules] in
/-- The requests of checked transitions. -/
theorem requests_of_transitions (hl : SocketLibraries.Lawful) (hconfig : LowerSHA256 configSHA256)
    (hcode : LowerSHA256 codeSHA256) (h : ∀ t ∈ transitions, checkTransition t = .ok ())
    (hdomain : ∀ t ∈ transitions, ∀ n ∈ t.integers, InDomain n) :
    ∃ requests, transitions.mapM (transitionRequest plan signerID configSHA256 codeSHA256) = .ok requests ∧
      List.Forall₂ (PlannedTransition plan.planID signerID) transitions requests := by
  induction transitions with
  | nil => exact ⟨[], rfl, .nil⟩
  | cons t transitions ih =>
    rw [List.forall_mem_cons] at h hdomain
    obtain ⟨r, hr, hfirst⟩ := transitionRequest_of_checked hl hconfig hcode h.1 hdomain.1
    obtain ⟨rs, hrs, hothers⟩ := ih h.2 hdomain.2
    exact ⟨r :: rs, mapM_cons_eq_ok.mpr ⟨r, hr, rs, hrs, rfl⟩, .cons hfirst hothers⟩

/-- The signer and the chain take the requests that are planned for transitions if they take those
of all transitions. -/
theorem taken_iff_of_planned (hl : SocketLibraries.Lawful) (he : Evm.Rules.Lawful) {planID : String}
    {requests : List SignerRequest} (h : List.Forall₂ (PlannedTransition planID signerID) transitions requests)
    (hlength : ∀ r ∈ requests, r.calldataLength < 2 ^ 53) :
    (∀ r ∈ requests, Passes r ∧ r.Admitted) ↔ ∀ t ∈ transitions, ConfigurationSignable planID signerID t := by
  induction h with
  | nil => exact ⟨fun _ => List.forall_mem_nil _, fun _ => List.forall_mem_nil _⟩
  | cons hfirst _ ih =>
    rw [List.forall_mem_cons] at hlength
    rw [List.forall_mem_cons, List.forall_mem_cons, ih hlength.2, passes_iff hl hfirst.built,
      hfirst.signable_iff he hlength.1]

omit [Evm.Rules] in
theorem intentIDs_of_planned {planID : String} {requests : List SignerRequest}
    (h : List.Forall₂ (PlannedTransition planID signerID) transitions requests) :
    requests.map SignerRequest.intentID =
      (transitions.map ConfigurationTransition.transitionID).map fun id => planID ++ ":" ++ id := by
  induction h with
  | nil => rfl
  | cons hfirst _ ih => rw [List.map_cons, hfirst.intentID, ih, List.map_cons, List.map_cons]

omit [Evm.Rules] in
theorem coordinates_of_planned {planID : String} {requests : List SignerRequest}
    (h : List.Forall₂ (PlannedTransition planID signerID) transitions requests) :
    ((transitions.zip requests).map fun p => (p.2.chainID, ConfigurationLibraries.int16 p.1.sender, p.2.nonce)) =
      transitions.map ConfigurationTransition.coordinates := by
  induction h with
  | nil => rfl
  | cons hfirst _ ih =>
    rw [List.zip_cons_cons, List.map_cons, ih, List.map_cons, hfirst.chainID, hfirst.nonce]
    rfl

/-- The requests of an accepted plan exist, and are executable if no two transitions have one nonce of an account
and each satisfies what the signer and the chain ask besides. -/
theorem configuration_executable_iff (hl : ConfigurationLibraries.Lawful) (he : Evm.Rules.Lawful)
    {planID deploymentSHA256 : String} (h : buildConfigurationPlan planID deploymentSHA256 transitions = .ok plan)
    (hconfig : LowerSHA256 configSHA256) (hcode : LowerSHA256 codeSHA256) :
    ∃ requests, configurationSignerRequests plan signerID configSHA256 codeSHA256 = .ok requests ∧
      ((∀ r ∈ requests, r.calldataLength < 2 ^ 53) → NoCollision requests →
        (ConfigurationExecutable plan.transitions requests ↔
          (transitions.map ConfigurationTransition.coordinates).Nodup ∧
            ∀ t ∈ transitions, ConfigurationSignable planID signerID t)) := by
  rw [buildConfigurationPlan, unit_bind, revertIf_bind, revertIf_bind, revertIf_bind, bind_eq_ok] at h
  obtain ⟨-, htransitions, -, -, units, hchecked, h⟩ := h
  obtain ⟨document, hdocument, h⟩ := bind_eq_ok.mp h
  cases pure_eq_ok.mp h
  rw [not_or, not_not] at htransitions
  have hperm : (transitions.mergeSort transitionLE).Perm transitions := List.mergeSort_perm _ _
  have hchecks : ∀ t ∈ transitions.mergeSort transitionLE, checkTransition t = .ok () := fun t ht => by
    obtain ⟨u, hu⟩ := ok_of_mapM hchecked t (hperm.mem_iff.mp ht)
    exact hu
  have hdomain := (hl.dumpsConfiguration_ok _).mp ⟨document, hdocument⟩
  obtain ⟨requests, hrequests, hplanned⟩ := requests_of_transitions hl.toSocket hconfig hcode hchecks hdomain
  refine ⟨requests, hrequests, fun hlength hc => ?_⟩
  have htaken := taken_iff_of_planned hl.toSocket he hplanned hlength
  have hcoordinates := coordinates_of_planned hplanned
  have hsignable : (∀ t ∈ transitions.mergeSort transitionLE, ConfigurationSignable planID signerID t) ↔
      ∀ t ∈ transitions, ConfigurationSignable planID signerID t :=
    forall_congr' fun t => by rw [hperm.mem_iff]
  rw [hsignable] at htaken
  constructor
  · intro hx
    refine ⟨(hperm.map _).nodup_iff.mp ?_, htaken.mp fun r hr => ⟨hx.passes r hr, hx.admitted r hr⟩⟩
    rw [← hcoordinates]
    exact hx.nonces
  · intro ⟨hnodup, hs⟩
    have hintents : (requests.map SignerRequest.intentID).Nodup := by
      rw [intentIDs_of_planned hplanned]
      exact intentIDs_nodup _ ((hperm.map _).nodup_iff.mpr htransitions.2)
    have hpasses : ∀ r ∈ requests, Passes r := fun r hr => (htaken.mpr hs r hr).1
    exact {
      passes := hpasses
      admitted := fun r hr => (htaken.mpr hs r hr).2
      operationIDs := operationIDs_nodup hl.toSocket hc hintents hpasses
      nonces := by
        rw [hcoordinates]
        exact (hperm.map _).nodup_iff.mpr hnodup }

end Xir.Impl.XirLab
