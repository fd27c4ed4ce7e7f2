import Xir.Framework.Run
import Xir.Proof.Trace

/-!
# Root certificates

A certificate that `verifyRoot` accepts carries a signature of its root id by
the registered signer (`Signed`), in every registry that calls of `setRoot` and
`setProfile` lead to, unless one of them registers the zero address as the
signer of a gateway: this is also what `_recover` returns for a signature that
is none. What the registry checks of a window (`Opens`) makes the condition
exact, since each of its enabled snapshots is active at some time.
-/

namespace Xir.Impl.RootSnapshot

/-- The window of the snapshot is not empty. -/
def Opens (snapshot : RootSnapshot) : Prop :=
  snapshot.validUntil ≠ 0 → snapshot.validAfter.toNat < snapshot.validUntil.toNat

variable [Keccak]

/-- If the snapshot is enabled and of a gateway, then it has a signer. -/
def HasSigner (snapshot : RootSnapshot) : Prop :=
  snapshot.enabled = true → (∃ id : TypedId, id.Valid ∧ id.hash = snapshot.gatewayHash) → snapshot.signer ≠ 0

end Xir.Impl.RootSnapshot

namespace Xir.Proof

open Impl Impl.XIRGateway Impl.XIRRegistry

/-! ## Calls of the registry -/

/-- A call of the registry, by an account. -/
inductive RegistryCall
  | setRoot (sender : Address) (version : UInt32) (snapshot : RootSnapshot)
  | setProfile (sender : Address) (profileHash : Bytes32) (snapshot : ProfileSnapshot)

namespace RegistryCall

def run (registry : XIRRegistry) : RegistryCall → Except Revert XIRRegistry
  | setRoot sender version snapshot => registry.setRoot sender version snapshot
  | setProfile sender profileHash snapshot => registry.setProfile sender profileHash snapshot

/-- A call that returns, or one that reverts and changes nothing. -/
def Step (registry : XIRRegistry) (call : RegistryCall) (registry' : XIRRegistry) : Prop :=
  call.run registry = .ok registry' ∨ (∃ e, call.run registry = .error e) ∧ registry' = registry

/-- What a call changes of the roots. -/
theorem step_cases {registry registry' : XIRRegistry} {call : RegistryCall} (h : Step registry call registry') :
    registry'.roots = registry.roots ∨ ∃ sender version snapshot, call = setRoot sender version snapshot ∧
      snapshot.Opens ∧ registry'.roots = Function.update registry.roots version snapshot := by
  obtain h | ⟨-, rfl⟩ := h
  · cases call with
    | setRoot sender version snapshot =>
      simp only [run, XIRRegistry.setRoot, onlyOwner, _checkWindow, revertIf_bind, pure_eq_ok] at h
      obtain ⟨-, hw, rfl⟩ := h
      exact .inr ⟨sender, version, snapshot, rfl,
        fun hu => lt_of_not_ge fun hle => hw ⟨hu, UInt64.le_iff_toNat_le.mpr hle⟩, rfl⟩
    | setProfile sender profileHash snapshot =>
      simp only [run, XIRRegistry.setProfile, onlyOwner, _checkWindow, revertIf_bind, pure_eq_ok] at h
      obtain ⟨-, -, rfl⟩ := h
      exact .inl rfl
  · exact .inl rfl

/-- What holds of no snapshot at all and of each that a call sets holds of all of them. -/
theorem roots_of_run {P : RootSnapshot → Prop} {owner : Address} {calls : List RegistryCall} {registry : XIRRegistry}
    (hP : ∀ sender version snapshot, setRoot sender version snapshot ∈ calls → snapshot.Opens → P snapshot)
    (h0 : P 0) (h : Run Step (.new owner) calls registry) (version : UInt32) : P (registry.rootAt version) := by
  let C (call : RegistryCall) : Prop :=
    ∀ sender version snapshot, call = setRoot sender version snapshot → snapshot.Opens → P snapshot
  refine Run.inv (I := fun s => ∀ version, P (s.rootAt version)) (C := C) ?_ h ?_ (fun _ => h0) version
  · intro s call s' hC hs hstep v
    obtain he | ⟨sender, version, snapshot, hcall, ho, he⟩ := step_cases hstep
    · rw [rootAt, he]
      exact hs v
    · rw [rootAt, he]
      by_cases hv : v = version
      · rw [hv, Function.update_self]
        exact hC sender version snapshot hcall ho
      · rw [Function.update_of_ne hv]
        exact hs v
  · intro call hmem sender version snapshot hcall
    exact hP sender version snapshot (hcall ▸ hmem)

variable [Keccak]

/-- The call registers no gateway without a signer. -/
def HasSigner : RegistryCall → Prop
  | setRoot _ _ snapshot => snapshot.HasSigner
  | setProfile .. => True

end RegistryCall

/-! ## Signatures -/

/-- The recovery value that `_recover` gives to `ecrecover`, as a wallet writes it or as a library does. -/
def recoveryValue (v : UInt8) : UInt8 := if v < 27 then v + 27 else v

/-- `signature` has 65 bytes, and `ecrecover`, which returns the zero address for every
signature that is not valid, recovers `signer` from it. -/
def Signed (env : Env) (digest : Bytes32) (signature : Bytes) (signer : Address) : Prop :=
  ∃ (r s : Bytes32) (b : Byte), signature = r.val ++ s.val ++ [b] ∧
    (recoveryValue (UInt8.ofNat b) = 27 ∨ recoveryValue (UInt8.ofNat b) = 28) ∧
    env.ecrecover digest (recoveryValue (UInt8.ofNat b)) r s = signer ∧ signer ≠ 0

/-- The parts of a string of 65 bytes. -/
theorem exists_parts {signature : Bytes} (h : signature.length = 65) :
    ∃ (r s : Bytes32) (b : Byte), signature = r.val ++ s.val ++ [b] := by
  have hd : signature.drop 64 = [signature[64]] := by
    rw [List.drop_eq_getElem_cons (by omega), List.drop_eq_nil_of_le (by omega)]
  refine ⟨⟨signature.take 32, by simp; omega⟩, ⟨(signature.drop 32).take 32, by simp; omega⟩, signature[64], ?_⟩
  show signature = signature.take 32 ++ (signature.drop 32).take 32 ++ [signature[64]]
  rw [← hd, List.append_assoc, ← List.drop_drop (i := 32) (j := 32), List.take_append_drop, List.take_append_drop]

/-- What `_recover` returns for a string of 65 bytes. -/
theorem recover_append (env : Env) (digest r s : Bytes32) (b : Byte) :
    _recover env digest (r.val ++ s.val ++ [b]) =
      if recoveryValue (UInt8.ofNat b) ≠ 27 ∧ recoveryValue (UInt8.ofNat b) ≠ 28 then 0
      else env.ecrecover digest (recoveryValue (UInt8.ofNat b)) r s := by
  have hl : (r.val ++ s.val ++ [b]).length = 65 := by simp
  have hr : (r.val ++ s.val ++ [b]).take 32 = r.val := by
    rw [List.append_assoc, List.take_left' r.length_val]
  have hs : ((r.val ++ s.val ++ [b]).drop 32).take 32 = s.val := by
    rw [List.append_assoc, List.drop_left' r.length_val, List.take_left' s.length_val]
  have hb : (r.val ++ s.val ++ [b]).getD 64 0 = b := by
    rw [List.getD_eq_getElem?_getD, List.getElem?_append_right (by simp)]
    simp
  simp only [_recover, dif_pos hl, hr, hs, hb, recoveryValue]
  rfl

/-- `_recover` returns an address other than zero for the signatures by it only. -/
theorem recover_eq_iff {env : Env} {digest : Bytes32} {signature : Bytes} {signer : Address} (h0 : signer ≠ 0) :
    _recover env digest signature = signer ↔ Signed env digest signature signer := by
  constructor
  · intro h
    by_cases hl : signature.length = 65
    · obtain ⟨r, s, b, rfl⟩ := exists_parts hl
      rw [recover_append] at h
      split at h
      · exact absurd h.symm h0
      · rename_i hv
        exact ⟨r, s, b, rfl, or_iff_not_imp_left.mpr fun h' => not_not.mp fun h'' => hv ⟨h', h''⟩, h, h0⟩
    · rw [_recover, dif_neg hl] at h
      exact absurd h.symm h0
  · rintro ⟨r, s, b, rfl, hv, h, -⟩
    rw [recover_append, if_neg (fun hn => hv.elim hn.1 hn.2), h]

/-! ## What a registry accepts -/

/-- An enabled snapshot whose window opens is active when it does. -/
theorem active_of_opens {snapshot : RootSnapshot} (he : snapshot.enabled = true) (ho : snapshot.Opens) :
    _active snapshot.validAfter.toNat snapshot.enabled snapshot.validAfter snapshot.validUntil := by
  by_cases hu : snapshot.validUntil = 0
  · simp [_active, he, hu]
  · simp [_active, he, ho hu]

/-- A certificate without a signature, of a gateway that has no signer. -/
def unsigned (id : TypedId) (version : UInt32) : Envelope :=
  ⟨⟨id, id, id, 0, 0⟩, ⟨0, 0⟩, ⟨version, []⟩, []⟩

variable [Keccak]

/-- The certificates that `verifyRoot` accepts, of whatever envelope and at whatever time, are
signed by the signer that the registry has for their version. -/
def CertificatesSigned (registry : XIRRegistry) : Prop :=
  ∀ (env : Env) (envelope : Envelope) (rid mid tracePrefix : Bytes32), env.registry = registry →
    verifyRoot env envelope = .ok (rid, mid, tracePrefix) →
    Signed env (_ethSigned rid) envelope.certificate.signature
      (registry.rootAt envelope.certificate.registryVersion).signer

theorem certificatesSigned_of_signers {registry : XIRRegistry} (h : ∀ version, (registry.rootAt version).HasSigner) :
    CertificatesSigned registry := by
  intro env e rid mid tracePrefix hr hv
  subst hr
  obtain ⟨ha, heq⟩ := verifyRoot_eq_ok.mp hv
  obtain ⟨rfl, -⟩ := Prod.mk.inj heq
  have he : (env.registry.rootAt e.certificate.registryVersion).enabled = true := by
    have := ha.active
    rw [_active, Bool.and_eq_true, Bool.and_eq_true] at this
    exact this.1.1
  exact (recover_eq_iff (h _ he ⟨_, ha.record_valid.1, ha.gatewayHash.symm⟩)).mp ha.signer

theorem signers_of_certificatesSigned {registry : XIRRegistry} (ho : ∀ version, (registry.rootAt version).Opens)
    (h : CertificatesSigned registry) (version : UInt32) : (registry.rootAt version).HasSigner := by
  rintro he ⟨id, hid, hg⟩ h0
  let env : Env := ⟨(registry.rootAt version).validAfter.toNat, registry, fun _ => ⟨fun _ _ _ => none, fun _ => none⟩,
    fun _ _ _ _ => 0⟩
  have ha : RootAccepts env (unsigned id version) :=
    ⟨⟨hid, hid, hid⟩, hg.symm, active_of_opens he (ho version), h0.symm⟩
  obtain ⟨r, s, b, -, -, -, hne⟩ := h env (unsigned id version) _ _ _ rfl (verifyRoot_eq_ok.mpr ⟨ha, rfl⟩)
  exact hne h0

/-- No certificate without a signature. If every call of `setRoot` that led to a registry gave
each enabled gateway a signer other than the zero address, then every certificate that `verifyRoot`
accepts by it is signed by the registered signer; and a registry that calls led to accepts
none but signed ones exactly if each of its enabled gateways has a signer. -/
theorem certificates_signed {owner : Address} {calls : List RegistryCall} {registry : XIRRegistry}
    (h : Run RegistryCall.Step (.new owner) calls registry) :
    ((∀ call ∈ calls, call.HasSigner) → CertificatesSigned registry) ∧
    (CertificatesSigned registry ↔ ∀ version, (registry.rootAt version).HasSigner) := by
  have ho : ∀ version, (registry.rootAt version).Opens :=
    RegistryCall.roots_of_run (fun _ _ _ _ h => h) (fun hu => absurd rfl hu) h
  refine ⟨fun hc => certificatesSigned_of_signers ?_, signers_of_certificatesSigned ho, certificatesSigned_of_signers⟩
  exact RegistryCall.roots_of_run (fun _ _ _ hm _ => hc _ hm) (fun he => absurd he Bool.false_ne_true) h

omit [Keccak] in
/-- A registry with one gateway, whose signer is another address than zero. -/
theorem certificates_signed_one :
    let _ := idealKeccak
    ∃ calls registry, Run RegistryCall.Step (.new 0) calls registry ∧ CertificatesSigned registry := by
  let _ := idealKeccak
  have h : Run RegistryCall.Step (.new 0) [.setRoot 0 1 ⟨(evmId 1).hash, .single 5, 0, 0, true⟩] _ :=
    .single (.inl rfl)
  refine ⟨_, _, h, (certificates_signed h).1 ?_⟩
  rintro _ (_ | ⟨_, ⟨⟩⟩) - - h0
  exact absurd (BytesN.single_inj.mp h0) (by decide)

omit [Keccak] in
/-- A gateway registered with the zero address as its signer: an envelope of it whose
certificate has no signature at all is accepted. -/
theorem unsigned_certificate_accepted :
    let _ := idealKeccak
    ∃ calls registry, Run RegistryCall.Step (.new 0) calls registry ∧
      ∃ (env : Env) (envelope : Envelope), env.registry = registry ∧ (∃ r, verifyRoot env envelope = .ok r) ∧
        envelope.certificate.signature = [] ∧ ¬ CertificatesSigned registry := by
  let _ := idealKeccak
  have h : Run RegistryCall.Step (.new 0) [.setRoot 0 1 ⟨(evmId 1).hash, 0, 0, 0, true⟩] _ := .single (.inl rfl)
  let env (registry : XIRRegistry) : Env :=
    ⟨0, registry, fun _ => ⟨fun _ _ _ => none, fun _ => none⟩, fun _ _ _ _ => 0⟩
  refine ⟨_, _, h, env _, unsigned (evmId 1) 1, rfl, ?_, rfl, fun hs => ?_⟩
  · exact ⟨_, verifyRoot_eq_ok.mpr ⟨⟨⟨evmId_valid 1, evmId_valid 1, evmId_valid 1⟩, rfl, rfl, rfl⟩, rfl⟩⟩
  · obtain ⟨r, s, b, hb, -⟩ := hs (env _) (unsigned (evmId 1) 1) _ _ _ rfl
      (verifyRoot_eq_ok.mpr ⟨⟨⟨evmId_valid 1, evmId_valid 1, evmId_valid 1⟩, rfl, rfl, rfl⟩, rfl⟩)
    exact absurd (congrArg List.length hb) (by simp [unsigned])

end Xir.Proof
