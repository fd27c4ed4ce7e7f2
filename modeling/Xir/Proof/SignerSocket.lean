import Xir.Impl.XirLab.DeploymentPlans

/-!
# What the signer accepts

`passes_iff`: of a request whose digests and calldata were computed from its
own fields, `validate_signer_request` asks no more than `Signable` says.
-/

namespace Xir.Impl.XirLab

open SignerLibraries (sha256 dumps)
open SocketLibraries (dumpsUnsigned dumpsDocument)

/-- What is documented of the hash and of `rfc8785`. -/
structure SocketLibraries.Lawful [SocketLibraries] : Prop where
  digest (data : PyBytes) : LowerSHA256 (sha256 data)
  dumps_ok (r : SignerRequest) : (∃ data, dumps r = .ok data) ↔ ∀ n ∈ r.integers, InDomain n
  dumps_intentID {r r' : SignerRequest} {data : PyBytes} (h : dumps r = .ok data) (h' : dumps r' = .ok data) :
    r.intentID = r'.intentID
  dumpsUnsigned_ok (t : UnsignedTransaction) : (∃ data, dumpsUnsigned t = .ok data) ↔ ∀ n ∈ t.integers, InDomain n
  dumpsDocument_ok (operationID : String) (r : SignerRequest) :
    (∃ data, dumpsDocument operationID r = .ok data) ↔ ∀ n ∈ r.integers, InDomain n

/-- The request is accepted with the operation ID that it has. -/
def Passes [SocketLibraries] (r : SignerRequest) : Prop :=
  ∃ operationID digest, signerOperationID r = .ok operationID ∧ validateSignerRequest operationID r = .ok digest

/-! ## Patterns -/

theorem chomp_of_forall {text : List Char} (h : ∀ c ∈ text, c ≠ '\n') : chomp text = text := by
  rw [chomp, if_neg]
  exact fun hlast => h _ (List.mem_of_getLast? hlast) rfl

theorem lowerHexDigit_ne : ∀ c ∈ "0123456789abcdef".toList, c ≠ '\n' := by simp

theorem digestPattern_of_lower {digest : String} (h : LowerSHA256 digest) : digestPattern digest = true := by
  have hchomp : chomp digest.toList = digest.toList := chomp_of_forall fun c hc => lowerHexDigit_ne c (h.2 c hc)
  have hlength : digest.toList.length = 64 := h.1
  simpa [digestPattern, hchomp, hlength, lowerHexDigit] using h.2

theorem operationIDPattern_of_lower {digest : String} (h : LowerSHA256 digest) :
    operationIDPattern ("signop_" ++ digest) = true := by
  have hlist : ("signop_" ++ digest).toList = "signop_".toList ++ digest.toList := String.toList_append
  have hname : ∀ c ∈ "signop_".toList, c ≠ '\n' := by simp
  have hchomp : chomp ("signop_" ++ digest).toList = "signop_".toList ++ digest.toList := by
    rw [hlist]
    refine chomp_of_forall fun c hc => ?_
    rcases List.mem_append.mp hc with hc | hc
    · exact hname c hc
    · exact lowerHexDigit_ne c (h.2 c hc)
  have htake : ("signop_".toList ++ digest.toList).take 7 = "signop_".toList := List.take_left' (by simp)
  have hdrop : ("signop_".toList ++ digest.toList).drop 7 = digest.toList := List.drop_left' (by simp)
  have hlength : digest.toList.length = 64 := h.1
  rw [operationIDPattern, hchomp, htake, hdrop, hlength]
  simpa [lowerHexDigit] using h.2

theorem toHex_digits (data : PyBytes) : ∀ c ∈ (toHex data).toList, c ≠ '\n' ∧ hexDigit c = true := by
  rw [toHex, String.toList_ofList]
  exact Hex.forall_encode (by decide) data

theorem chomp_toHex (data : PyBytes) : chomp (toHex data).toList = Hex.encode data := by
  rw [chomp_of_forall fun c hc => (toHex_digits data c hc).1, toHex, String.toList_ofList]

theorem calldataPattern_toHex (data : PyBytes) : calldataPattern (toHex data) = true := by
  have hdigits : ∀ c ∈ Hex.encode data, hexDigit c = true := by
    have h := toHex_digits data
    rw [toHex, String.toList_ofList] at h
    exact fun c hc => (h c hc).2
  rw [calldataPattern, chomp_toHex, Hex.length_encode, Nat.mul_mod_right]
  simpa using hdigits

/-! ## Requests -/

theorem validateSchema_eq_ok {properties : List (String × Bool)} :
    validateSchema properties = .ok () ↔ ∀ property ∈ properties, property.2 = true := by
  unfold validateSchema
  cases h : properties.find? fun property => property.2 = false with
  | none => simpa using h
  | some property =>
    have hfound := List.find?_some h
    simp only [reduceCtorEq, false_iff]
    intro hall
    have htrue := hall property (List.mem_of_find?_eq_some h)
    simp [htrue] at hfound

/-- What a planner does of itself: the digests, the length and the fee limit of a request are
those of its fields. -/
structure Built [SocketLibraries] (r : SignerRequest) (data : PyBytes) : Prop where
  role : r.role = "deployer"
  calldataHex : r.calldataHex = toHex data
  calldataLength : r.calldataLength = data.length
  calldataSHA256 : r.calldataSHA256 = sha256 data
  configSHA256 : LowerSHA256 r.configSHA256
  codeSHA256 : LowerSHA256 r.codeSHA256
  nonce : 0 ≤ r.nonce
  valueWei : 0 ≤ r.valueWei
  feeLimitWei : r.feeLimitWei = r.gasLimit * r.maxFeePerGasWei
  unsigned : unsignedTransactionDigest r = .ok r.unsignedTransactionSHA256

/-- What remains for the signer to check. -/
structure Signable (r : SignerRequest) : Prop where
  signerID : signerIDPattern r.signerID = true
  networkID : chainNetwork r.chainID = some r.networkID
  destination : r.destination.all addressPattern = true
  gasLimit : 21000 ≤ r.gasLimit
  intentID : 1 ≤ r.intentID.length ∧ r.intentID.length ≤ 128
  maxPriorityFeePerGasWei : 0 ≤ r.maxPriorityFeePerGasWei ∧ r.maxPriorityFeePerGasWei ≤ r.maxFeePerGasWei
  integers : ∀ n ∈ r.integers, InDomain n

theorem chainNetwork_mem {chainID : Int} {networkID : String} (h : chainNetwork chainID = some networkID) :
    chainID ∈ [11155420, 421614, 84532] ∧ networkID ∈ ["op-sepolia", "arbitrum-sepolia", "base-sepolia"] := by
  unfold chainNetwork at h
  split at h
  · cases h
    simp [*]
  split at h
  · cases h
    simp [*]
  split at h
  · cases h
    simp [*]
  · simp at h

/-- The integers of its transaction are among those of a request. -/
theorem unsigned_integers {r : SignerRequest} (h : ∀ n ∈ r.integers, InDomain n) :
    ∀ n ∈ (unsignedTransactionDocument r).integers, InDomain n := by
  simp only [SignerRequest.integers, List.forall_mem_cons] at h
  obtain ⟨hchain, hnonce, hvalue, -, -, hgas, hmax, hpriority, -⟩ := h
  simp only [unsignedTransactionDocument, UnsignedTransaction.integers, List.forall_mem_cons]
  exact ⟨hchain, hnonce, hvalue, hgas, hmax, hpriority, List.forall_mem_nil _⟩

variable [SocketLibraries] {r : SignerRequest} {data : PyBytes}

/-- What the schema and the signer ask of a request, its encodings apart. -/
structure Consistent (r : SignerRequest) : Prop where
  schema {operationID : String} (h : operationIDPattern operationID = true) :
    validateSchema (requestProperties operationID r) = .ok ()
  networkID : chainNetwork r.chainID = some r.networkID
  calldata : ∃ calldata, Hex.decode (chomp r.calldataHex.toList) = some calldata ∧
    r.calldataLength = calldata.length ∧ r.calldataSHA256 = sha256 calldata
  unsigned {digest : String} (h : unsignedTransactionDigest r = .ok digest) : digest = r.unsignedTransactionSHA256
  priority : r.maxPriorityFeePerGasWei ≤ r.maxFeePerGasWei
  feeLimit : r.gasLimit * r.maxFeePerGasWei ≤ r.feeLimitWei

theorem passes_of_consistent (hl : SocketLibraries.Lawful) (hr : Consistent r) (hd : ∀ n ∈ r.integers, InDomain n) :
    Passes r := by
  obtain ⟨canonical, hcanonical⟩ := (hl.dumps_ok r).mpr hd
  have hop : signerOperationID r = .ok ("signop_" ++ sha256 canonical) := by
    rw [signerOperationID, bind_of_ok hcanonical]
    rfl
  obtain ⟨document, hdocument⟩ := (hl.dumpsDocument_ok ("signop_" ++ sha256 canonical) r).mpr hd
  obtain ⟨unsigned, hunsigned⟩ := (hl.dumpsUnsigned_ok (unsignedTransactionDocument r)).mpr (unsigned_integers hd)
  have hdigest : unsignedTransactionDigest r = .ok (sha256 unsigned) := by
    rw [unsignedTransactionDigest, unsignedDigest, bind_of_ok hunsigned]
    rfl
  obtain ⟨calldata, hcalldata, hlength, hsha256⟩ := hr.calldata
  refine ⟨_, sha256 document, hop, ?_⟩
  rw [validateSignerRequest, unit_bind]
  refine ⟨hr.schema (operationIDPattern_of_lower (hl.digest _)), ?_⟩
  rw [bind_of_ok hop, revertIf_bind, revertIf_bind, orRevert_bind]
  refine ⟨fun h => h rfl, fun h => h hr.networkID, calldata, hcalldata, ?_⟩
  rw [revertIf_bind, bind_of_ok hdigest, revertIf_bind, revertIf_bind, revertIf_bind, bind_of_ok hdocument]
  refine ⟨?_, fun h => h (hr.unsigned hdigest), Int.not_lt.mpr hr.priority, Int.not_lt.mpr hr.feeLimit, rfl⟩
  exact not_or.mpr ⟨fun h => h hlength.symm, fun h => h hsha256.symm⟩

theorem Built.consistent (hl : SocketLibraries.Lawful) (hb : Built r data) (hs : Signable r) : Consistent r := by
  obtain ⟨hchain, hnetwork⟩ := chainNetwork_mem hs.networkID
  have hunsigned : LowerSHA256 r.unsignedTransactionSHA256 := by
    obtain ⟨unsigned, -, h⟩ := bind_eq_ok.mp hb.unsigned
    rw [← pure_eq_ok.mp h]
    exact hl.digest unsigned
  have hmax : 0 ≤ r.maxFeePerGasWei := hs.maxPriorityFeePerGasWei.1.trans hs.maxPriorityFeePerGasWei.2
  have hfee : 0 ≤ r.feeLimitWei := by
    rw [hb.feeLimitWei]
    exact Int.mul_nonneg (by have := hs.gasLimit; omega) hmax
  have hhex : calldataPattern r.calldataHex = true := by
    rw [hb.calldataHex]
    exact calldataPattern_toHex data
  have hlength : 0 ≤ r.calldataLength := by
    rw [hb.calldataLength]
    omega
  have hsha256 : digestPattern r.calldataSHA256 = true := by
    rw [hb.calldataSHA256]
    exact digestPattern_of_lower (hl.digest data)
  have hrole : r.role ∈ ["deployer", "runner"] := by
    rw [hb.role]
    decide
  exact {
    schema := fun hop => by
      rw [validateSchema_eq_ok, requestProperties]
      simp only [List.forall_mem_cons, List.not_mem_nil, false_imp_iff, implies_true, and_true, decide_eq_true_eq]
      exact ⟨hhex, hlength, hsha256, hchain, digestPattern_of_lower hb.codeSHA256,
        digestPattern_of_lower hb.configSHA256, hs.destination, hfee, hs.gasLimit, hs.intentID, hmax,
        hs.maxPriorityFeePerGasWei.1, hnetwork, hb.nonce, hop, hrole, hs.signerID, digestPattern_of_lower hunsigned,
        hb.valueWei⟩
    networkID := hs.networkID
    calldata := ⟨data, by rw [hb.calldataHex, chomp_toHex, Hex.decode_encode], hb.calldataLength, hb.calldataSHA256⟩
    unsigned := fun h => Except.ok.inj (h.symm.trans hb.unsigned)
    priority := hs.maxPriorityFeePerGasWei.2
    feeLimit := hb.feeLimitWei.ge }

theorem passes_of_signable (hl : SocketLibraries.Lawful) (hb : Built r data) (hs : Signable r) : Passes r :=
  passes_of_consistent hl (hb.consistent hl hs) hs.integers

theorem signable_of_passes (hl : SocketLibraries.Lawful) (h : Passes r) : Signable r := by
  obtain ⟨operationID, digest, hop, hpass⟩ := h
  obtain ⟨canonical, hcanonical, -⟩ := bind_eq_ok.mp hop
  rw [validateSignerRequest, unit_bind, validateSchema_eq_ok, requestProperties, bind_of_ok hop, revertIf_bind,
    revertIf_bind, orRevert_bind] at hpass
  obtain ⟨hschema, -, hnetwork, calldata, -, hpass⟩ := hpass
  rw [revertIf_bind, bind_eq_ok] at hpass
  obtain ⟨-, unsigned, -, hpass⟩ := hpass
  rw [revertIf_bind, revertIf_bind] at hpass
  obtain ⟨-, hpriority, -⟩ := hpass
  simp only [List.forall_mem_cons, List.not_mem_nil, false_imp_iff, implies_true, and_true, decide_eq_true_eq]
    at hschema
  obtain ⟨-, -, -, -, -, -, hdestination, -, hgas, hintent, -, hzero, -, -, -, -, hsigner, -⟩ := hschema
  exact {
    signerID := hsigner
    networkID := not_not.mp hnetwork
    destination := hdestination
    gasLimit := hgas
    intentID := hintent
    maxPriorityFeePerGasWei := ⟨hzero, Int.not_lt.mp hpriority⟩
    integers := (hl.dumps_ok r).mp ⟨canonical, hcanonical⟩ }

/-- The signer accepts a request that is what it says of itself if it is `Signable`, and no other. -/
theorem passes_iff (hl : SocketLibraries.Lawful) (hb : Built r data) : Passes r ↔ Signable r :=
  ⟨signable_of_passes hl, passes_of_signable hl hb⟩

/-! ## Operation IDs -/

/-- No two canonical forms of the requests have the same hash. -/
def NoCollision (requests : List SignerRequest) : Prop :=
  ∀ r ∈ requests, ∀ r' ∈ requests, ∀ data data', dumps r = .ok data → dumps r' = .ok data' →
    sha256 data = sha256 data' → data = data'

/-- Requests of distinct intents have distinct operation IDs, where they have any. -/
theorem operationIDs_nodup (hl : SocketLibraries.Lawful) {requests : List SignerRequest} (hc : NoCollision requests)
    (hids : (requests.map SignerRequest.intentID).Nodup) (hp : ∀ r ∈ requests, Passes r) :
    (requests.map signerOperationID).Nodup := by
  have hnodup : requests.Nodup := List.Nodup.of_map _ hids
  refine hnodup.map_on fun r hr r' hr' heq => ?_
  obtain ⟨data, hdata⟩ := (hl.dumps_ok r).mpr (signable_of_passes hl (hp r hr)).integers
  obtain ⟨data', hdata'⟩ := (hl.dumps_ok r').mpr (signable_of_passes hl (hp r' hr')).integers
  rw [signerOperationID, signerOperationID, bind_of_ok hdata, bind_of_ok hdata'] at heq
  have hsame : sha256 data = sha256 data' := by
    have h := congrArg String.toList (Except.ok.inj heq)
    rw [String.toList_append, String.toList_append, List.append_right_inj, String.toList_inj] at h
    exact h
  have hintent := hl.dumps_intentID hdata (hc r hr r' hr' data data' hdata hdata' hsame ▸ hdata')
  exact List.inj_on_of_nodup_map hids hr hr' hintent

end Xir.Impl.XirLab
