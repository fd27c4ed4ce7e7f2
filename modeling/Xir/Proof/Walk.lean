import Xir.Impl.GoRuntime.Runner
import Xir.Proof.Delivery
import Xir.Proof.Receipts

/-!
# The runner's walk over a route

`Honest` are the walks of `walkHops`: each hop is dispatched with the request that
the runner builds from the receipts so far, its message is delivered later, and
others do anything meanwhile. Along a walk the adapter of each chain reports the
receipts up to it (`WalkInv`), so the gateways accept them and the next hop can be
made (`runner_complete`).
-/

namespace Xir.Impl.GoRunner

open Proof

/-! ## Evidence -/

/-- Copies into a slice whose end is still zero. -/
theorem copyAt_zeros (a v : Bytes) {start k : Nat} (h : a.length ≤ start) (h' : start + v.length ≤ a.length + k) :
    copyAt (a ++ List.replicate k 0) start v = a ++ List.replicate (start - a.length) 0 ++ v ++
      List.replicate (a.length + k - (start + v.length)) 0 := by
  have ht : (a ++ List.replicate k 0).take start = a ++ List.replicate (start - a.length) 0 := by
    rw [List.take_append, List.take_of_length_le h, List.take_replicate, min_eq_left (by omega)]
  have hd : (a ++ List.replicate k 0).drop (start + v.length) =
      List.replicate (a.length + k - (start + v.length)) 0 := by
    rw [List.drop_append, List.drop_eq_nil_of_le (by omega), List.nil_append, List.drop_replicate]
    congr 1
    omega
  rw [copyAt, ht, hd, List.take_of_length_le (by rw [List.length_append, List.length_replicate]; omega)]

/-- The same, at the start of a slice of zeros. -/
theorem copyAt_replicate (v : Bytes) {start k : Nat} (h : start + v.length ≤ k) :
    copyAt (List.replicate k 0) start v =
      List.replicate start 0 ++ v ++ List.replicate (k - (start + v.length)) 0 := by
  have h' : start + v.length ≤ ([] : Bytes).length + k := by rwa [List.length_nil, Nat.zero_add]
  have := copyAt_zeros [] v (Nat.zero_le start) h'
  rwa [List.nil_append, List.nil_append, List.length_nil, Nat.sub_zero, Nat.zero_add] at this

theorem bytes32FromAddress_eq (address : Address) : bytes32FromAddress address = bytes32Address address := by
  have hl := address.length_val
  refine BytesN.ext ((copyAt_replicate address.val (by omega)).trans ?_)
  simp [hl, bytes32Address]

/-- The runner and the deployment write the same options. -/
theorem receiveOptions_eq (gasLimit : UInt64) :
    (receiveOptions gasLimit).toOption = (Impl.receiveOptions gasLimit).toOption := by
  have hc := copyAt_replicate (be 8 gasLimit.toNat) (show 8 + (be 8 gasLimit.toNat).length ≤ 16 by simp)
  have hp := GoXir.putBytes_eq 16 (List.replicate 16 0) gasLimit.toNat 0 (by decide)
  have hb : be 16 gasLimit.toNat = List.replicate 8 0 ++ be 8 gasLimit.toNat := by
    rw [show (16 : Nat) = 8 + 8 from rfl, be_add, Nat.div_eq_of_lt (gasLimit.toNat_lt.trans_eq (by norm_num)), be_zero]
  unfold receiveOptions Impl.receiveOptions
  split
  · rfl
  · rw [show 15 = 0 + 16 - 1 from rfl, hp, hb, hc]
    simp

theorem carrierOptions_eq : carrierOptions [] = .ok Deployment.enforcedOptions := by
  have h := receiveOptions_eq 1500000
  rw [Deployment.enforcedOptions, Impl.receiveOptionsGasLimit, ← h]
  rfl

theorem checkAttempt_eq_ok {attempt : Attempt} : checkAttempt attempt = .ok () ↔
    attempt.route ≠ [] ∧ attempt.routeSequence.toNat < 2 ^ 63 ∧ attempt.route.length < 5 := by
  have hr : roles.length = 5 := rfl
  unfold checkAttempt
  split
  · next h =>
    refine ⟨fun h' => (nomatch h'), fun ⟨h₁, h₂, _⟩ => ?_⟩
    rcases h with h | h
    · exact absurd h h₁
    · omega
  · next h =>
    rw [not_or] at h
    split
    · exact ⟨fun h' => (nomatch h'), fun ⟨_, _, h₃⟩ => by omega⟩
    · exact ⟨fun _ => ⟨h.1, by omega, by omega⟩, fun _ => rfl⟩

/-- A word of a number of `8` bytes or less. -/
theorem word_val_of_lt {m n v : Nat} (hmn : m + n = 32) (h : v < 256 ^ n) :
    (word v).val = List.replicate m 0 ++ be n v := by
  rw [word, ← be_zero m, ← Nat.div_eq_of_lt h, ← be_add, hmn]

variable [Keccak]

/-- The encoder writes the standard encoding that the adapter hashes. -/
theorem evidenceHash_eq (domain : UInt32) (sender : Bytes32) {body : Bytes} (h : body.length < 2 ^ 64) :
    evidenceHash domain sender body = HyperlaneAdapter.messageId domain sender body := by
  have hlen : (4 + (body.length + 31) / 32) * 32 = 128 + body.length + (32 - body.length % 32) % 32 := by omega
  have hs := sender.length_val
  have hd : (word domain.toNat).val = List.replicate 28 0 ++ be 4 domain.toNat :=
    word_val_of_lt rfl (domain.toNat_lt.trans_eq (by norm_num))
  have hl : (word body.length).val = List.replicate 24 0 ++ be 8 body.length :=
    word_val_of_lt rfl (h.trans_eq (by norm_num))
  have h96 : (word 96).val = List.replicate 24 0 ++ be 8 96 := word_val_of_lt rfl (by decide)
  have hpre : Abi.encode [.static (word domain.toNat), .static sender, .dynamic (Abi.encodeBytes body)] =
      List.replicate 28 0 ++ be 4 domain.toNat ++ sender.val ++ List.replicate 24 0 ++ be 8 96 ++
        List.replicate 24 0 ++ be 8 body.length ++ body ++ List.replicate ((32 - body.length % 32) % 32) 0 := by
    simp [Abi.encode, Abi.heads, Abi.tails, Abi.encodeBytes, hd, hl, h96]
  simp only [evidenceHash, HyperlaneAdapter.messageId, hpre, hlen]
  rw [copyAt_replicate _ (by simp; omega), copyAt_zeros _ _ (by simp) (by simp; omega),
    copyAt_zeros _ _ (by simp [hs]) (by simp [hs]; omega), copyAt_zeros _ _ (by simp [hs]) (by simp [hs]; omega),
    copyAt_zeros _ _ (by simp [hs]) (by simp [hs]; omega)]
  simp only [List.length_append, List.length_replicate, length_be, hs, Nat.reduceAdd, Nat.reduceSub,
    List.replicate_zero, List.append_nil]
  refine congrArg (fun k => keccak256 (_ ++ List.replicate k 0)) ?_
  omega

omit [Keccak] in
/-- The body that the runner packs again is the one that was sent. -/
theorem hyperlaneBody_eq {request : HopRequest} {body : Bytes}
    (h : Adapter.BundleBody HyperlaneAdapter.KIND_XIR_BUNDLE (forwardRequest request).bundle body) :
    body.length < 2 ^ 64 ∧ hyperlaneBody request = body := by
  obtain ⟨message, hm, hb⟩ := h
  obtain ⟨-, rfl⟩ := abiEncode_eq_ok.mp hm
  obtain ⟨hl, rfl⟩ := abiEncode_eq_ok.mp hb
  exact ⟨hl, rfl⟩

end Xir.Impl.GoRunner

namespace Xir.Impl.Deployment

open Proof GoXir GoRunner XIRGateway

variable [Keccak]

/-! ## The turns of the loop -/

section

variable (D : Deployment) (route : Route) (e : Envelope)

/-- The variables of the turn that follows the receipts. -/
def hopOf (rs : List Receipt) : HopState where
  request := {
    hopIndex := rs.length + 1
    protocol := route.getD rs.length .H
    sourceRole := rs.length
    destinationRole := rs.length + 1
    verifiers := D.verifiers route (rs.length + 1) rs.length
    priorReceipts := rs
    currentProfile := profileHashes route (rs.length + 1)
    currentTransition := e.transition (D.gatewayIDs rs.length) (D.gatewayIDs (rs.length + 1)) }
  sourceGatewayID := D.gatewayIDs rs.length
  destinationGatewayID := D.gatewayIDs (rs.length + 1)

/-- The request that the adapter of the turn gets. -/
def requestOf (rs : List Receipt) : ForwardRequest :=
  .of (D.manifest route rs.length .inbound) (rs.map Receipt.tuple) (profileHashes route (rs.length + 1))
    (e.transition (D.gatewayIDs rs.length) (D.gatewayIDs (rs.length + 1)))

end

variable {D : Deployment} {route : Route} {e : Envelope} {rs : List Receipt}

theorem startHop_lt {record : Record} {context : VerifiedContext} {i : Nat} {hop : HopState}
    (h : D.startHop route record context rs i = .ok hop) : i < route.length := by
  obtain ⟨p, hp, -⟩ := bind_eq_ok.mp h
  exact (profileHash_eq_ok hp).2.1

theorem startHop_eq (hv : e.record.Valid) (h : rs.length < route.length) :
    D.startHop route e.record e.context rs rs.length = .ok (D.hopOf route e rs) := by
  obtain ⟨p, hp⟩ := profileHash_of_le (Nat.le_add_left 1 rs.length) h
  have hpp : profileHashes route (rs.length + 1) = p := by
    rw [profileHashes, hp]
    rfl
  have hg : ∀ i, gatewayTypedID (D.specs i).chainID = .ok (D.gatewayIDs i) := fun i => by
    rw [gatewayIDs_eq, gatewayTypedID_eq]
  rw [startHop, hp, ok_bind, hg, ok_bind, hg, ok_bind,
    transitionHash_of_valid hv (gatewayIDs_valid _) (gatewayIDs_valid _), ok_bind, hopOf, hpp]
  rfl

theorem finishHop_eq (evidence p : Bytes32) : finishHop (D.hopOf route e rs) evidence ⟨rs, p⟩ =
    .ok ⟨rs ++ [D.receiptOf route e.transition rs.length evidence p],
      prefixStep p rs.length (D.receiptOf route e.transition rs.length evidence p)⟩ := by
  have hv : (D.receiptOf route e.transition rs.length evidence p).Valid := receiptOf_valid _ _ _
  have h := nextPrefix_of_valid hv p
  exact congrArg (· >>= _) h

theorem forwardRequest_hopOf : forwardRequest (D.hopOf route e rs).request = D.requestOf route e rs := by
  have hv : D.verifiers route (rs.length + 1) rs.length =
      List.replicate (rs.map Receipt.tuple).length (D.manifest route rs.length .inbound) := by
    rw [List.length_map, verifiers]
    split
    · next h =>
      rw [show rs.length = 0 by omega]
      rfl
    · rfl
  simp only [forwardRequest, hopOf, hv, requestOf, ForwardRequest.of, List.map_map]
  rfl

/-- The call of the turn. -/
theorem dispatchCall_hopOf (options : Bytes) : dispatchCall options (D.hopOf route e rs).request =
    Adapter.bundleCall (decide (rs.length = 0)) (D.requestOf route e rs)
      (if route.getD rs.length .H = .H then [] else options) := by
  have hi : (D.hopOf route e rs).request.hopIndex > 1 ↔ ¬ rs.length = 0 := by
    show rs.length + 1 > 1 ↔ _
    omega
  have hp : (D.hopOf route e rs).request.protocol = route.getD rs.length .H := rfl
  unfold dispatchCall
  simp only [hp, forwardRequest_hopOf, hi, Adapter.bundleCall, decide_eq_true_eq]
  cases route.getD rs.length .H <;> by_cases h : rs.length = 0 <;> simp [h]

/-! ## Honest walks -/

section

variable (D : Deployment) (route : Route) (e : Envelope)

/-- The delivery of a message that the source of hop `i + 1` sent, as that adapter's; the nonce
and the guid are the endpoint's. -/
def delivery (i : Nat) (nonce : UInt64) (guid : Bytes32) (body : Bytes) : Delivery :=
  let sender := bytes32FromAddress (D.manifest route (i + 1) .outbound)
  if route.getD i .H = .H then .handle (D.specs i).hyperlaneDomain sender body
  else .lzReceive ⟨(D.specs i).layerZeroEID, sender, nonce⟩ guid body

/-- The walks of `walkHops` over a route. Each hop is dispatched with the request that the runner
builds, its message is delivered at some later time, and others do anything meanwhile. -/
inductive Honest : LineState → WalkState → Prop
  | start {es s rid} : Run (LineState.Step (D.address route)) (D.start route) es s →
    rootID e.record e.context RegistryVersion = .ok rid → Honest s ⟨[], GoXir.rootPrefix rid⟩
  | other {s ev s' w} : Honest s w → s.Step (D.address route) ev s' → Honest s' w
  | hop {s es s₁ s' w w' hop options carriers m nonce guid} : Honest s w →
    D.startHop route e.record e.context w.receipts w.receipts.length = .ok hop → carrierOptions [] = .ok options →
    s.Sees (D.address route) w.receipts.length carriers →
    (s.adapter (.source w.receipts.length)).send carriers D.runner (dispatchCall options hop.request) = .ok m →
    Run (LineState.Step (D.address route))
      (s.dispatch (.source w.receipts.length) ⟨dispatchCall options hop.request, m⟩)
      es s₁ →
    guid ≠ 0 →
    s₁.Step (D.address route)
      (.receive (.target w.receipts.length) (D.delivery route w.receipts.length nonce guid m.body))
      s' →
    finishHop hop (D.evidenceFor route hop.request guid) w = .ok w' → Honest s' w'

/-- What holds along a walk: the receipts are those of the hops, and the target of each hop
reports the receipts up to it, one by one and as one bundle. -/
structure WalkInv (s : LineState) (w : WalkState) : Prop where
  grows : Grows (D.start route) s
  built : D.Built route e.rid e.transition w.receipts
  le : w.receipts.length ≤ route.length
  tracePrefix : w.tracePrefix = chain prefixStep (XIREncoding.rootPrefix e.rid) 0 w.receipts
  verified {j : Nat} : j < w.receipts.length → ∀ r ∈ w.receipts.take (j + 1),
    (s.adapter (.target j)).carrier.verify r.profileHash r.evidenceHash r.transitionHash = true
  bundle {j : Nat} : j < w.receipts.length →
    (s.adapter (.target j)).carrier.verifyBundle (commitment ((w.receipts.take (j + 1)).map Receipt.tuple)) = true

end

variable {s s' : LineState} {w : WalkState}

theorem WalkInv.grow (h : D.WalkInv route e s w) (hg : Grows s s') : D.WalkInv route e s' w where
  grows := h.grows.trans hg
  built := h.built
  le := h.le
  tracePrefix := h.tracePrefix
  verified hj r hr := hg.verify (h.verified hj r hr)
  bundle hj := hg.bundles _ (h.bundle hj)

/-- The receipts so far are verified on the chain that sends them on. -/
theorem WalkInv.priors (h : D.WalkInv route e s w) :
    Verified s route w.receipts.length (w.receipts.map Receipt.tuple) := by
  intro x hx
  obtain ⟨r, hr, rfl⟩ := List.mem_map.mp hx
  obtain ⟨i, hi, hp⟩ := h.built.profileHash r hr
  obtain ⟨j, hj⟩ := Nat.exists_eq_succ_of_ne_zero (show w.receipts.length ≠ 0 by omega)
  refine ⟨j, i, hj, by omega, hp, h.verified (by omega) r ?_⟩
  rwa [List.take_of_length_le (by omega)]

/-- The adapter of the next hop dispatches what the runner asks. -/
theorem WalkInv.send (hk : IdealHash) (h : D.WalkInv route e s w) (hl : w.receipts.length < 2 ^ 32)
    {carriers : Address → Carrier} (hs : s.Sees (D.address route) w.receipts.length carriers) :
    ∃ m, (s.adapter (.source w.receipts.length)).send carriers D.runner
      (dispatchCall enforcedOptions (D.hopOf route e w.receipts).request) = .ok m := by
  obtain ⟨message, body, hm, hb⟩ := encodeBundle_of_length
    (k := (s.adapter (.source w.receipts.length)).bundleKind) (b := (D.requestOf route e w.receipts).bundle)
    (by simp only [requestOf, ForwardRequest.of, ForwardRequest.bundle, List.length_map]; omega)
  rw [dispatchCall_hopOf]
  exact ⟨_, Adapter.send_bundle_eq_ok.mpr ⟨sendChecks hk h.grows hs (fun hH => if_neg hH) h.priors _ _, body,
    ⟨message, hm, hb⟩, rfl⟩⟩

/-- What is dispatched is a bundle, which the target takes as the runner expects. -/
theorem WalkInv.deliver (h : D.WalkInv route e s w) {carriers : Address → Carrier} {options : Bytes} {m : Message}
    (hsend : (s.adapter (.source w.receipts.length)).send carriers D.runner
      (dispatchCall options (D.hopOf route e w.receipts).request) = .ok m) {s₁ : LineState} (hg : Grows s s₁)
    (nonce : UInt64) (guid : Bytes32) :
    let d := D.delivery route w.receipts.length nonce guid m.body
    d.body = m.body ∧ (s₁.adapter (.target w.receipts.length)).FromRemote d ∧
      d.evidence = D.evidenceFor route (D.hopOf route e w.receipts).request guid ∧
      d.tuples = some ((D.requestOf route e w.receipts).bundle.tuples d.evidence) := by
  intro d
  rw [dispatchCall_hopOf] at hsend
  obtain ⟨hc, body, hb, rfl⟩ := Adapter.send_bundle_eq_ok.mp hsend
  have hkind : (s.adapter (.source w.receipts.length)).bundleKind =
      if route.getD w.receipts.length .H = .H then HyperlaneAdapter.KIND_XIR_BUNDLE else LayerZeroAdapter.KIND_XIR :=
    (h.grows.config (.source w.receipts.length)).bundleKind.trans (bundleKind_adapterOf _ _ _)
  have ht : SameConfig (D.adapterOf route (w.receipts.length + 1) .inbound) (s₁.adapter (.target w.receipts.length)) :=
    (h.grows.trans hg).config (.target w.receipts.length)
  have hbody : d.body = body := by
    simp only [d, delivery]
    split <;> rfl
  have hf : (s₁.adapter (.target w.receipts.length)).FromRemote d := by
    rw [ht.fromRemote]
    simp only [d, delivery, adapterOf, bytes32FromAddress_eq, Nat.add_sub_cancel]
    split <;> exact ⟨bytes32Address_ne (D.manifest_ne _ _ _), rfl, rfl⟩
  refine ⟨hbody, hf, ?_, ?_⟩
  · simp only [d, delivery, evidenceFor]
    by_cases hH : route.getD w.receipts.length .H = .H
    · rw [if_pos hH, show (D.hopOf route e w.receipts).request.protocol = .H from hH]
      rw [hkind, if_pos hH, ← forwardRequest_hopOf] at hb
      obtain ⟨hl, rfl⟩ := hyperlaneBody_eq hb
      exact (evidenceHash_eq _ _ hl).symm
    · have hL : (D.hopOf route e w.receipts).request.protocol = .L := by
        cases hp : route.getD w.receipts.length .H
        · exact absurd hp hH
        · exact hp
      rw [if_neg hH, hL]
      rfl
  · refine Adapter.tuples_of_bundleBody hf hc.forward.aligned ?_
    rw [ht.bundleKind, bundleKind_adapterOf, hbody]
    rw [hkind] at hb
    exact hb

theorem evidence_delivery_ne (hk : IdealHash) {guid : Bytes32} (hguid : guid ≠ 0) (i : Nat) (nonce : UInt64)
    (body : Bytes) : (D.delivery route i nonce guid body).evidence ≠ 0 := by
  unfold delivery
  split
  · exact hk.ne_zero _
  · exact hguid

/-- The tuples of the next message are those of the receipts with the one that it adds. -/
theorem tuples_requestOf (evidence p : Bytes32) : (D.requestOf route e rs).bundle.tuples evidence =
    (rs ++ [D.receiptOf route e.transition rs.length evidence p]).map Receipt.tuple := by
  rw [List.map_append, DeliveryBundle.tuples]
  exact congrArg (· ++ _) (zipTuples_map (rs.map Receipt.tuple))

/-- A hop keeps the invariant. -/
theorem WalkInv.hop (hk : IdealHash) (h : D.WalkInv route e s w) (hlt : w.receipts.length < route.length)
    {carriers : Address → Carrier} {options : Bytes} {m : Message}
    (hsend : (s.adapter (.source w.receipts.length)).send carriers D.runner
      (dispatchCall options (D.hopOf route e w.receipts).request) = .ok m) {s₁ : LineState} (hg : Grows s s₁)
    {nonce : UInt64} {guid : Bytes32} (hguid : guid ≠ 0) {w' : WalkState}
    (hstep : s₁.Step (D.address route)
      (.receive (.target w.receipts.length) (D.delivery route w.receipts.length nonce guid m.body)) s')
    (hw : finishHop (D.hopOf route e w.receipts) (D.evidenceFor route (D.hopOf route e w.receipts).request guid) w =
      .ok w') : D.WalkInv route e s' w' := by
  obtain ⟨-, -, hev, hts⟩ := h.deliver hsend hg nonce guid
  obtain ⟨rs, p⟩ := w
  simp only at *
  rw [← hev, finishHop_eq] at hw
  obtain rfl := Except.ok.inj hw
  have hne : (D.delivery route rs.length nonce guid m.body).evidence ≠ 0 := evidence_delivery_ne hk hguid _ _ _
  generalize D.delivery route rs.length nonce guid m.body = d at *
  rw [tuples_requestOf d.evidence p] at hts
  generalize hr : D.receiptOf route e.transition rs.length d.evidence p = receipt at *
  have hcar : (s'.adapter (.target rs.length)).carrier =
      (s₁.adapter (.target rs.length)).carrier.accept ((rs ++ [receipt]).map Receipt.tuple) := by
    cases hstep with
    | receive _ hrec =>
      obtain ⟨-, -, ⟨ts, ht, rfl⟩ | ⟨hn, -⟩⟩ := receive_cases hrec
      · obtain rfl := Option.some.inj (hts.symm.trans ht)
        rw [adapter_take, Function.update_self, Adapter.carrier_withCarrier]
      · exact nomatch hts.symm.trans hn
  have hi := h.grow (hg.trans (step_grows hstep))
  have hlen : (rs ++ [receipt]).length = rs.length + 1 := by rw [List.length_append, List.length_singleton]
  have htake : ∀ {j}, j < rs.length → (rs ++ [receipt]).take (j + 1) = rs.take (j + 1) := fun hj =>
    List.take_append_of_le_length hj
  refine ⟨hi.grows, ?_, ?_, ?_, fun {j} hj => ?_, fun {j} hj => ?_⟩
  · rw [← hr, show p = _ from h.tracePrefix]
    exact .snoc h.built hne
  · simp only [hlen]
    exact hlt
  · rw [show p = _ from h.tracePrefix, chain_snoc, Nat.zero_add]
  · rw [hlen] at hj
    rcases Nat.lt_succ_iff_lt_or_eq.mp hj with hj | rfl
    · rw [htake hj]
      exact hi.verified hj
    · rw [List.take_of_length_le hlen.le, hcar]
      exact fun r hr => CarrierAdapter.accept_acceptedEvidence.mpr (.inr ⟨r.tuple, List.mem_map_of_mem hr, rfl⟩)
  · rw [hlen] at hj
    rcases Nat.lt_succ_iff_lt_or_eq.mp hj with hj | rfl
    · rw [htake hj]
      exact hi.bundle hj
    · rw [List.take_of_length_le hlen.le, hcar]
      exact CarrierAdapter.accept_acceptedBundles.mpr (.inr rfl)

/-- Every walk keeps the invariant. -/
theorem honest_inv (hk : IdealHash) (hc : D.Certified e) (h : D.Honest route e s w) : D.WalkInv route e s w := by
  induction h with
  | @start es s rid hr hrid =>
    rw [rootID_of_valid hc.valid, ← hc.version] at hrid
    obtain rfl := Except.ok.inj hrid
    exact ⟨run_grows hr, .nil, Nat.zero_le _, rfl, fun hj => absurd hj (Nat.not_lt_zero _),
      fun hj => absurd hj (Nat.not_lt_zero _)⟩
  | other _ hs ih => exact ih.grow (step_grows hs)
  | @hop s es s₁ s' w w' hop options carriers m nonce guid _ hstart _ hsees hsend hrun hguid hstep hw ih =>
    have hlt := startHop_lt hstart
    rw [startHop_eq hc.valid hlt] at hstart
    obtain rfl := Except.ok.inj hstart
    have hg := step_grows (.send (x := .source w.receipts.length) hsees hsend)
    exact ih.hop hk hlt hsend (hg.trans (run_grows hrun)) hguid hstep hw

end Xir.Impl.Deployment

namespace Xir.Proof

open Impl Impl.GoXir Impl.GoRunner Impl.XIRGateway Impl.Deployment

variable [Keccak] {D : Deployment}

/-- The next hop of a walk can be made: the runner builds its request, the adapter dispatches it,
addressed to the adapter at the other end, and the delivery of that message is taken whenever it
comes and whatever others do before. -/
def NextHop (D : Deployment) (route : Route) (e : Envelope) (s : LineState) (w : WalkState) : Prop :=
  ∃ hop options, D.startHop route e.record e.context w.receipts w.receipts.length = .ok hop ∧
    carrierOptions [] = .ok options ∧ ∀ carriers, s.Sees (D.address route) w.receipts.length carriers →
      ∃ m, (s.adapter (.source w.receipts.length)).send carriers D.runner (dispatchCall options hop.request) = .ok m ∧
        m.recipient = bytes32Address (D.address route (.target w.receipts.length)) ∧
        ∀ es s₁, Run (LineState.Step (D.address route))
            (s.dispatch (.source w.receipts.length) ⟨dispatchCall options hop.request, m⟩) es s₁ →
          ∀ nonce guid, guid ≠ 0 → ∃ s' w', s₁.Step (D.address route) (.receive (.target w.receipts.length)
              (D.delivery route w.receipts.length nonce guid m.body)) s' ∧
            finishHop hop (D.evidenceFor route hop.request guid) w = .ok w' ∧
            w'.receipts.length = w.receipts.length + 1 ∧ D.Honest route e s' w'

/-- A gateway of a chain that a route reaches, as deployed for the routes, and what it reads. -/
structure AtGateway (D : Deployment) (routes : List Route) (route : Route) (e : Envelope) (s : LineState) (j : Nat)
    (gateway : XIRGateway) (env : Env) : Prop where
  mem : route ∈ routes
  gatewayId : gateway.gatewayId = D.gatewayIDs j
  registry : D.routeRegistry routes j = .ok env.registry
  carriers : s.Sees (D.address route) j env.carriers
  signature : _recover env (_ethSigned e.rid) e.certificate.signature = D.rootSigner

variable {route : Route} {e : Envelope} {s : LineState} {w : WalkState}

theorem nextHop_of_inv (hk : IdealHash) (hc : D.Certified e) (hl : w.receipts.length < 2 ^ 32)
    (hlt : w.receipts.length < route.length) (h : D.Honest route e s w) : NextHop D route e s w := by
  have hi := honest_inv hk hc h
  have hstart := startHop_eq (D := D) hc.valid hlt
  refine ⟨_, _, hstart, carrierOptions_eq, fun carriers hsees => ?_⟩
  obtain ⟨m, hm⟩ := hi.send hk hl hsees
  refine ⟨m, hm, ?_, fun es s₁ hrun nonce guid hguid => ?_⟩
  · rw [dispatchCall_hopOf] at hm
    obtain ⟨-, body, -, rfl⟩ := Adapter.send_bundle_eq_ok.mp hm
    exact (hi.grows.config _).remote.trans (remote_adapterOf _ _ _)
  · have hd := step_grows (.send (x := .source w.receipts.length) hsees hm)
    have hg := hd.trans (run_grows hrun)
    obtain ⟨hbody, hf, hev, hts⟩ := hi.deliver hm hg nonce guid
    have hstep : s₁.Step (D.address route) (.receive (.target w.receipts.length)
        (D.delivery route w.receipts.length nonce guid m.body)) (s₁.take _ _ _) :=
      .receive (r := fun _ _ _ => false)
        ⟨_, (run_grows hrun).sent _ (mem_sent_dispatch.mpr (.inr ⟨rfl, rfl⟩)), hbody.symm⟩
        (Adapter.receive_eq_ok.mpr ⟨rfl, hf, .inl ⟨_, hts, rfl⟩⟩)
    have hw := @finishHop_eq _ D route e w.receipts
      (D.evidenceFor route (D.hopOf route e w.receipts).request guid) w.tracePrefix
    exact ⟨_, _, hstep, hw, by rw [List.length_append, List.length_singleton],
      .hop h hstart carrierOptions_eq hsees hm hrun hguid hstep hw⟩

theorem traceAccepts_of_inv (hk : IdealHash) (hc : D.Certified e) (hi : D.WalkInv route e s w) {routes : List Route}
    {j : Nat} (hpos : 0 < j) (hj : j ≤ w.receipts.length) {gateway : XIRGateway} {env : Env}
    (ha : AtGateway D routes route e s j gateway env) :
    TraceAccepts gateway env { e with receipts := w.receipts.take j } := by
  have hlen : (w.receipts.take j).length = j := by rw [List.length_take, min_eq_left hj]
  obtain ⟨j, rfl⟩ := Nat.exists_eq_add_of_le' hpos
  have hreg : env.registry = D.registryOf routes (j + 1) :=
    Except.ok.inj (ha.registry.symm.trans (routeRegistry_eq routes (j + 1)))
  have hcar : env.carriers (D.manifest route (j + 1) .inbound) = (s.adapter (.target j)).carrier.carrier :=
    ha.carriers j rfl
  refine traceAccepts_of_built (e := { e with receipts := w.receipts.take (j + 1) }) hk ha.mem
    ⟨hc.valid, hc.source, hc.version, hc.security⟩ (hi.built.take (j + 1)) ?_ ?_ ?_
    ?_ ha.signature ?_ ?_
  all_goals simp only [hlen]
  · exact hpos
  · exact hj.trans hi.le
  · exact ha.gatewayId
  · exact hreg
  · rw [hcar]
    exact fun r hr => congrArg some (hi.verified hj r hr)
  · rw [hcar]
    exact congrArg some (hi.bundle hj)

/-- A walk can reach the end of its route. -/
theorem exists_walk (hk : IdealHash) (hc : D.Certified e) (hl : route.length < 2 ^ 32) {guid : Bytes32}
    (hg : guid ≠ 0) :
    ∀ {n : Nat}, n ≤ route.length → ∃ s w, D.Honest route e s w ∧ w.receipts.length = n
  | 0, _ => ⟨_, _, .start (.nil _) (rootID_of_valid hc.valid _ _), rfl⟩
  | n + 1, hn => by
    obtain ⟨s, w, h, rfl⟩ := exists_walk hk hc hl hg (Nat.le_of_succ_le hn)
    obtain ⟨hop, options, -, -, hsend⟩ := nextHop_of_inv hk hc (by omega) hn h
    obtain ⟨m, -, -, hm⟩ := hsend (s.view (D.address route) w.receipts.length) (sees_view s _)
    obtain ⟨s', w', -, -, hlen, h'⟩ := hm [] _ (.nil _) 0 guid hg
    exact ⟨s', w', h', hlen⟩

/-- Honest runs are accepted. At any point of a walk over a route that the topology has roles
for, the next hop can be made; and the gateway of every chain that the walk reached accepts the
receipts up to it, as does its `deliver` if the message was not delivered there yet. -/
theorem runner_complete (hk : IdealHash) {attempt : Attempt} (ha : checkAttempt attempt = .ok ()) {e : Envelope}
    (hc : D.Certified e) {s : LineState} {w : WalkState} (h : D.Honest attempt.route e s w) :
    (w.receipts.length < attempt.route.length → NextHop D attempt.route e s w) ∧
    (∀ {routes j gateway env}, 0 < j → j ≤ w.receipts.length → AtGateway D routes attempt.route e s j gateway env →
      (∃ r, gateway.verifyTrace env { e with receipts := w.receipts.take j } = .ok r) ∧
      ∀ {payload : Bytes} {receiver : Address}, keccak256 payload = e.record.payloadHash → receiver ≠ 0 →
        e.record.destinationApp = ⟨EVM, receiver.val⟩ → gateway.consumed e.mid = false →
        ∃ r, gateway.deliverStart env { e with receipts := w.receipts.take j } payload receiver = .ok r) := by
  have hi := honest_inv hk hc h
  refine ⟨fun hlt => nextHop_of_inv hk hc ?_ hlt h, fun {routes j gateway env} hpos hj hat => ?_⟩
  · have hle := checkAttempt_eq_ok.mp ha
    omega
  · have ht := traceAccepts_of_inv hk hc hi hpos hj hat
    refine ⟨⟨_, verifyTrace_eq_ok.mpr ⟨ht, rfl⟩⟩, fun {payload receiver} hp hr hd hcons => ?_⟩
    refine ⟨_, deliverStart_eq_ok.mpr ⟨⟨hp, hr, ?_, ht, hcons⟩, rfl⟩⟩
    rw [show ({ e with receipts := w.receipts.take j } : Envelope).record.destinationApp = _ from hd]
    exact dif_pos ⟨rfl, receiver.length_val⟩

/-! ## A walk of the lab -/

theorem labEnv_atGateway (route : Route) (s : LineState) (j : Nat) :
    AtGateway lab [route] route labEnvelope s j (labGateway j) (labEnv route s j) :=
  ⟨List.mem_singleton_self _, rfl, routeRegistry_eq _ _, sees_view s j, rfl⟩

omit [Keccak] in
/-- A walk over two hops of different protocols. -/
theorem runner_complete_two :
    let _ := idealKeccak
    ∃ s w, lab.Honest [.H, .L] labEnvelope s w ∧ w.receipts.length = 2 ∧
      (∃ r, (labGateway 1).verifyTrace (labEnv [.H, .L] s 1)
        { labEnvelope with receipts := w.receipts.take 1 } = .ok r) ∧
      ∃ r, (labGateway 2).deliverStart (labEnv [.H, .L] s 2) { labEnvelope with receipts := w.receipts.take 2 } []
        (.single 2) = .ok r := by
  let _ := idealKeccak
  let attempt : Attempt := ⟨"1", [.H, .L], 0⟩
  have ha : checkAttempt attempt = .ok () := checkAttempt_eq_ok.mpr ⟨by decide, by decide, by decide⟩
  obtain ⟨s, w, h, hl⟩ := exists_walk idealHash labEnvelope_certified (show attempt.route.length < 2 ^ 32 by decide)
    labGuid_ne (show 2 ≤ attempt.route.length from le_rfl)
  obtain ⟨-, hacc⟩ := runner_complete idealHash ha labEnvelope_certified h
  refine ⟨s, w, h, hl, (hacc one_pos (by omega) (labEnv_atGateway _ s 1)).1, ?_⟩
  exact (hacc two_pos (by omega) (labEnv_atGateway _ s 2)).2 rfl (by decide) rfl rfl

end Xir.Proof
