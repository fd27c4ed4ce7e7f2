import Xir.Proof.Deploy

/-!
# The receipts of a deployed route

The receipts of a route's hops, in order, are `Built`: each has the gateways and
the profile of its hop, the transition of the envelope between these gateways,
and the prefix of the receipts before it, and only its evidence is free. The
gateway of a chain accepts the receipts of the hops up to it if the adapter there
reports them, one by one and as one bundle (`traceAccepts_of_built`).
-/

namespace Xir.Impl

open Proof

/-- The tuple of a receipt. -/
def Receipt.tuple (r : Receipt) : Tuple := ⟨r.profileHash, r.evidenceHash, r.transitionHash⟩

namespace Deployment

open GoXir XIRGateway

variable [Keccak] (D : Deployment)

/-- The receipt of hop `i + 1` of a route. -/
def receiptOf (route : Route) (transition : TypedId → TypedId → Bytes32) (i : Nat) (evidence priorPrefix : Bytes32) :
    Receipt where
  srcGateway := D.gatewayIDs i
  dstGateway := D.gatewayIDs (i + 1)
  profileHash := profileHashes route (i + 1)
  evidenceHash := evidence
  transitionHash := transition (D.gatewayIDs i) (D.gatewayIDs (i + 1))
  priorPrefix := priorPrefix

/-- The receipts of the first hops of a route, in order. -/
inductive Built (route : Route) (rid : Bytes32) (transition : TypedId → TypedId → Bytes32) : List Receipt → Prop
  | nil : Built route rid transition []
  | snoc {rs evidence} : Built route rid transition rs → evidence ≠ 0 → Built route rid transition
    (rs ++ [D.receiptOf route transition rs.length evidence (chain prefixStep (XIREncoding.rootPrefix rid) 0 rs)])

/-- The envelope's root is one that a deployment's gateways accept. -/
structure Certified (e : Envelope) : Prop where
  valid : e.record.Valid
  source : e.record.sourceGateway = D.gatewayIDs 0
  version : e.certificate.registryVersion = RegistryVersion
  security : e.context.requiredSecurity ≤ 1

variable {D} {route : Route} {rid : Bytes32} {transition : TypedId → TypedId → Bytes32} {rs : List Receipt}

theorem receiptOf_valid (i : Nat) (evidence priorPrefix : Bytes32) :
    (D.receiptOf route transition i evidence priorPrefix).Valid := ⟨gatewayIDs_valid i, gatewayIDs_valid (i + 1)⟩

theorem Built.take (h : D.Built route rid transition rs) (n : Nat) : D.Built route rid transition (rs.take n) := by
  induction h with
  | nil =>
    rw [List.take_nil]
    exact .nil
  | @snoc rs evidence h he ih =>
    rcases le_or_gt n rs.length with hn | hn
    · rwa [List.take_append_of_le_length hn]
    · rw [List.take_of_length_le (by rw [List.length_append, List.length_singleton]; omega)]
      exact .snoc h he

/-- A receipt names the profile of its hop. -/
theorem Built.profileHash (h : D.Built route rid transition rs) :
    ∀ r ∈ rs, ∃ i < rs.length, r.profileHash = profileHashes route (i + 1) := by
  induction h with
  | nil => exact fun _ hr => nomatch hr
  | @snoc rs evidence h he ih =>
    intro r hr
    rw [List.length_append, List.length_singleton]
    rcases List.mem_append.mp hr with hr | hr
    · obtain ⟨i, hi, hp⟩ := ih r hr
      exact ⟨i, by omega, hp⟩
    · rw [List.mem_singleton.mp hr]
      exact ⟨rs.length, by omega, rfl⟩

/-- The tuple of a receipt of hop `i + 1`. -/
def tupleOf (D : Deployment) (route : Route) (transition : TypedId → TypedId → Bytes32) (i : Nat) (evidence : Bytes32) :
    Tuple := ⟨profileHashes route (i + 1), evidence, transition (D.gatewayIDs i) (D.gatewayIDs (i + 1))⟩

/-- Receipts of the first hops can be built on any evidence. -/
theorem exists_built (D : Deployment) (route : Route) (rid : Bytes32) (transition : TypedId → TypedId → Bytes32)
    (evidence : List Bytes32) (h : ∀ x ∈ evidence, x ≠ 0) : ∃ rs, D.Built route rid transition rs ∧
      rs.map Receipt.tuple = evidence.mapIdx fun i x => D.tupleOf route transition i x := by
  induction evidence using List.reverseRecOn with
  | nil => exact ⟨[], .nil, rfl⟩
  | append_singleton evidence x ih =>
    obtain ⟨rs, hb, ht⟩ := ih fun y hy => h y (List.mem_append_left _ hy)
    have hl : rs.length = evidence.length := by
      rw [← List.length_map Receipt.tuple, ht, List.length_mapIdx]
    refine ⟨_, .snoc hb (h x (List.mem_append_right _ (List.mem_singleton_self x))), ?_⟩
    rw [List.map_append, ht, List.mapIdx_append, ← hl]
    simp [tupleOf, Receipt.tuple, receiptOf]

/-- Each receipt passes its turn at a gateway that the route reaches by the last hop or a later one. -/
theorem hops_of_built (hk : IdealHash) {e : Envelope} {env : Env} {routes : List Route} {role : Nat}
    (hroute : route ∈ routes) (hrole : role ≤ route.length) (hreg : env.registry = D.registryOf routes role)
    (hc : D.Certified e) {t : TraceState} (htp : t.tracePrefix = XIREncoding.rootPrefix e.rid)
    (hts : t.expectedSrc = (D.gatewayIDs 0).hash) (hb : D.Built route e.rid e.transition rs) :
    rs.length ≤ role → (∀ r ∈ rs, (env.carriers (D.manifest route role .inbound)).verify r.profileHash r.evidenceHash
      r.transitionHash = some true) →
    Hops env e t 0 rs ∧
      (chain (TraceState.next env.registry) t 0 rs).expectedSrc = (D.gatewayIDs rs.length).hash := by
  induction hb with
  | nil => exact fun _ _ => ⟨trivial, hts⟩
  | @snoc rs evidence hb he ih =>
    intro hl hv
    rw [List.length_append, List.length_singleton] at hl
    obtain ⟨hh, hx⟩ := ih (by omega) fun r hr => hv r (List.mem_append_left _ hr)
    have hp :
        env.registry.profileAt (profileHashes route (rs.length + 1)) = D.profileOf route role (rs.length + 1) := by
      rw [hreg]
      exact profileAt_registryOf hk.injective hroute (by omega) hl hrole
    have hstep : ∀ (t : TraceState) (i : Nat) (r : Receipt),
        (t.next env.registry i r).tracePrefix = prefixStep t.tracePrefix i r := fun _ _ _ => rfl
    refine ⟨hops_append.mpr ⟨hh, ⟨?_, trivial⟩⟩, ?_⟩
    · refine ⟨receiptOf_valid _ _ _, ?_, hx.symm, ?_, ?_, ?_, ?_, rfl, he, ?_, ?_⟩
      · rw [map_chain TraceState.tracePrefix hstep, htp]
        rfl
      all_goals simp only [receiptOf, hp]
      · exact gatewayHashes_eq rs.length
      · exact gatewayHashes_eq (rs.length + 1)
      · simp [profileOf, _active]
      · exact UInt8.not_lt.mpr hc.security
      · exact D.manifest_ne _ _ _
      · exact hv _ (List.mem_append_right _ (List.mem_singleton_self _))
    · rw [chain_next_expectedSrc, List.length_append]
      rfl

/-- The commitment that the loop makes of receipts is that of their tuples. -/
theorem chain_next_bundleCommitment (registry : XIRRegistry) (rs : List Receipt) (t : TraceState) (i : Nat) :
    (chain (TraceState.next registry) t i rs).bundleCommitment =
      chain tupleStep t.bundleCommitment i (rs.map Receipt.tuple) := by
  let step : Bytes32 → Nat → Receipt → Bytes32 := fun c i r => tupleStep c i r.tuple
  have hs : ∀ (t : TraceState) (i : Nat) (r : Receipt),
      (TraceState.next registry t i r).bundleCommitment = step t.bundleCommitment i r := fun _ _ _ => rfl
  rw [chain_map]
  exact map_chain TraceState.bundleCommitment hs rs t i

/-- The gateway of a chain accepts the receipts of the hops up to it that the adapter there reports. -/
theorem traceAccepts_of_built (hk : IdealHash) {e : Envelope} {env : Env} {routes : List Route}
    (hroute : route ∈ routes) (hc : D.Certified e) (hb : D.Built route e.rid e.transition e.receipts)
    (hpos : 0 < e.receipts.length) (hl : e.receipts.length ≤ route.length) {gateway : XIRGateway}
    (hgw : gateway.gatewayId = D.gatewayIDs e.receipts.length)
    (hreg : env.registry = D.registryOf routes e.receipts.length)
    (hsig : _recover env (_ethSigned e.rid) e.certificate.signature = D.rootSigner)
    (hv : ∀ r ∈ e.receipts, (env.carriers (D.manifest route e.receipts.length .inbound)).verify r.profileHash
      r.evidenceHash r.transitionHash = some true)
    (hbundle : (env.carriers (D.manifest route e.receipts.length .inbound)).verifyBundle
      (commitment (e.receipts.map Receipt.tuple)) = some true) :
    TraceAccepts gateway env e := by
  have hroot : env.registry.rootAt e.certificate.registryVersion = ⟨D.gatewayHashes 0, D.rootSigner, 0, 0, true⟩ := by
    rw [hreg, hc.version, rootAt_registryOf routes (by omega)]
  obtain ⟨hh, hx⟩ := hops_of_built hk hroute hl hreg hc (t := traceStart e) rfl
    (congrArg TypedId.hash hc.source) hb le_rfl hv
  refine ⟨⟨hc.valid, ?_, ?_, ?_⟩, hh, ?_, fun hne => ?_⟩
  · rw [hroot, hc.source]
    exact gatewayHashes_eq 0
  · rw [hroot]
    simp [_active]
  · rw [hroot]
    exact hsig
  · rw [gateway.gatewayHash_eq_hash, hgw]
    exact hx
  · -- the last receipt names the adapter
    have ha : (traceEnd env.registry e).bundleAdapter = D.manifest route e.receipts.length .inbound := by
      obtain ⟨rs, r, hrs⟩ := List.eq_nil_or_concat e.receipts |>.resolve_left hne
      rw [List.concat_eq_append] at hrs
      obtain ⟨i, hi, hp⟩ := hb.profileHash r (by rw [hrs]; simp)
      rw [traceEnd, hrs, chain_next_bundleAdapter, ← hrs, hp, hreg,
        profileAt_registryOf hk.injective hroute (by omega) hi hl]
      rfl
    have hcm : (traceEnd env.registry e).bundleCommitment = commitment (e.receipts.map Receipt.tuple) := by
      rw [traceEnd, chain_next_bundleCommitment, commitment, List.length_map]
      rfl
    rw [ha, hcm]
    exact ⟨D.manifest_ne _ _ _, hbundle⟩

/-! ## Envelopes of the lab -/

/-- An envelope of which the lab's root signer is said to have signed the root. -/
def labEnvelope : Envelope :=
  ⟨⟨lab.gatewayIDs 0, evmId 1, evmId 2, 0, keccak256 []⟩, ⟨1, 0⟩, ⟨RegistryVersion, List.replicate 65 27⟩, []⟩

theorem labEnvelope_certified : lab.Certified labEnvelope :=
  ⟨⟨gatewayIDs_valid 0, evmId_valid 1, evmId_valid 2⟩, rfl, rfl, UInt8.le_refl _⟩

/-- The gateway of a chain of the lab. -/
def labGateway (j : Nat) : XIRGateway :=
  ⟨_, lab.gatewayIDs j, fun _ => 0, fun _ => false, typedIdHash_eq_ok.mpr ⟨gatewayIDs_valid j, rfl⟩⟩

/-- What it reads. -/
def labEnv (route : Route) (s : LineState) (j : Nat) : Env :=
  ⟨0, lab.registryOf [route] j, s.view (lab.address route) j, fun _ _ _ _ => lab.rootSigner⟩

/-- It accepts receipts whose tuples the target of its chain reports. -/
theorem labGateway_accepts (hk : IdealHash) {s : LineState} {j : Nat}
    (hb : lab.Built route labEnvelope.rid labEnvelope.transition rs) (hlen : rs.length = j + 1) (hl : j < route.length)
    (hv : ∀ t ∈ rs.map Receipt.tuple,
      (s.adapter (.target j)).carrier.verify t.profileHash t.evidenceHash t.transitionHash = true)
    (hbundle : (s.adapter (.target j)).carrier.verifyBundle (commitment (rs.map Receipt.tuple)) = true) :
    ∃ r, (labGateway (j + 1)).verifyTrace (labEnv route s (j + 1)) { labEnvelope with receipts := rs } = .ok r := by
  have hcar : (labEnv route s (j + 1)).carriers (lab.manifest route (j + 1) .inbound) =
      (s.adapter (.target j)).carrier.carrier :=
    show s.view (lab.address route) (j + 1) _ = _ from sees_view s (j + 1) j rfl
  refine ⟨_, verifyTrace_eq_ok.mpr ⟨traceAccepts_of_built (e := { labEnvelope with receipts := rs }) hk
    (List.mem_singleton_self route) ⟨labEnvelope_certified.valid, rfl, rfl, labEnvelope_certified.security⟩
      hb ?_ ?_ ?_ ?_
    rfl ?_ ?_, rfl⟩⟩
  all_goals simp only [hlen]
  · exact Nat.succ_pos j
  · exact hl
  · rfl
  · rfl
  · rw [hcar]
    exact fun r hr => congrArg some (hv r.tuple (List.mem_map_of_mem hr))
  · rw [hcar]
    exact congrArg some hbundle

end Deployment

end Xir.Impl
