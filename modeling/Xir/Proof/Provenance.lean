import Xir.Proof.Receipts

/-!
# Where the receipts of an accepted trace come from

A tuple that a target reports was delivered to it, or to the target of an earlier
hop, by a message that names the tuple's profile as its own (`origin_of_verified`).
An accepted trace follows the line from its start, each receipt with the profile
of its hop (`receipts_on_line`). Where no source names the profile of an earlier
hop as its own (`OwnHop`), the tuple of each receipt was thus delivered over its
hop (`hop_provenance`); a source that does can make a trace accepted of hops that
no message was sent over (`invented_hop`).
-/

namespace Xir.Proof

open Impl Impl.XIRGateway Impl.Deployment

variable [Keccak] {L : Line}

/-- A tuple was delivered to the target of a hop, by a message that names the tuple's profile as its own. -/
def Originates (s : LineState) (t : Tuple) (i : Nat) : Prop :=
  ∃ d ∈ s.received (.target i), ∃ m ∈ s.sent (.source i), m.message.body = d.body ∧
    m.call.ownProfile = some t.profileHash ∧
    ∃ ts, d.tuples = some ts ∧ m.call.tuples d.evidence = some ts ∧ t ∈ ts

/-- A tuple that a target reports comes from the hop, or from the target on the forwarding chain. -/
theorem verified_cases (hk : Function.Injective keccak256) {s : LineState} (h : LineInv L s) {t : Tuple} {j : Nat}
    (hv : (s.adapter (.target j)).carrier.verify t.profileHash t.evidenceHash t.transitionHash = true) :
    Originates s t j ∨ ∃ j' i, j = j' + 1 ∧ i ≤ j' ∧ t.profileHash = L.profile i ∧
      (s.adapter (.target j')).carrier.verify t.profileHash t.evidenceHash t.transitionHash = true := by
  obtain ⟨ts, hts, hmem⟩ := ((h.accepted (.target j)).verify hk).mp hv
  obtain ⟨d, hd, hdt⟩ := List.mem_filterMap.mp hts
  obtain ⟨m, hm, hb, hmt⟩ := h.authentic (.target j) hd
  have hmt := hmt.symm.trans hdt
  rcases SendCall.mem_tuples hmt hmem with hp | ho
  · obtain ⟨j', i, hj, hi, hpi, -, hv'⟩ := h.priors hm t hp
    exact .inr ⟨j', i, hj, hi, hpi, hv'⟩
  · exact .inl ⟨d, hd, m, hm, hb, ho, ts, hdt, hmt, hmem⟩

/-- A tuple that a target reports, of the profile of its hop or of an earlier one, comes from a
hop between these. -/
theorem origin_of_verified (hk : Function.Injective keccak256) {s : LineState} (h : LineInv L s) {t : Tuple} {i : Nat}
    (ht : t.profileHash = L.profile i) {j : Nat} (hj : j < L.length) (hij : i ≤ j)
    (hv : (s.adapter (.target j)).carrier.verify t.profileHash t.evidenceHash t.transitionHash = true) :
    ∃ k, i ≤ k ∧ k ≤ j ∧ Originates s t k := by
  induction j with
  | zero =>
    rcases verified_cases hk h hv with ho | ⟨j', _, hj', -⟩
    · exact ⟨0, hij, le_rfl, ho⟩
    · exact absurd hj' (Nat.succ_ne_zero j').symm
  | succ j ih =>
    rcases verified_cases hk h hv with ho | ⟨j', i', hj', hi', hp, hv'⟩
    · exact ⟨j + 1, hij, le_rfl, ho⟩
    · obtain rfl := Nat.add_right_cancel hj'
      have hii : i' = i := L.profile_inj (by omega) (by omega) (hp.symm.trans ht)
      obtain ⟨k, hik, hkj, ho⟩ := ih (by omega) (hii ▸ hi') hv'
      exact ⟨k, hik, Nat.le_succ_of_le hkj, ho⟩

/-! ## Traces -/

/-- The receipts that pass the loop at the gateway of chain `j + 1` are of the hops of the line, in
order, and reported by the target there. -/
theorem receipts_on_line (hk : Function.Injective keccak256) {env : Env} {e : Envelope} {k : Nat}
    (hreg : env.registry = L.registry k) : ∀ {rs : List Receipt} {t : TraceState} {i n : Nat}, i ≤ L.length →
      t.expectedSrc = (L.gatewayId i).hash → Hops env e t n rs → ∀ {x : Nat} {r : Receipt}, rs[x]? = some r →
        ∃ j, k = j + 1 ∧ j < L.length ∧ i + x ≤ j ∧ r.profileHash = L.profile (i + x) ∧
          (env.carriers (L.address (.target j))).verify r.profileHash r.evidenceHash r.transitionHash = some true
  | [], _, _, _, _, _, _, _, _, hx => nomatch hx
  | r :: rs, t, i, n, hi, hsrc, ⟨hr, hrs⟩, x, r', hx => by
    have hen : ((L.registry k).profileAt r.profileHash).enabled = true := by
      have := hr.active
      rw [hreg] at this
      simp only [_active, Bool.and_eq_true] at this
      exact this.1.1
    obtain ⟨j, h, hkj, hjl, hhj, hp, hs, hd, ha⟩ := L.registered hen
    have hh : h = i := by
      refine L.gatewayId_inj (by omega) hi (TypedId.hash_inj hk (L.gatewayId_valid h) (L.gatewayId_valid i) ?_)
      rw [← hs, ← hreg, hr.srcHash, hr.expectedSrc, hsrc]
    subst hh
    cases x with
    | zero =>
      obtain rfl := Option.some.inj hx
      have hv := hr.verified
      rw [hreg, ha] at hv
      exact ⟨j, hkj, hjl, hhj, hp, hv⟩
    | succ x =>
      have hnext : (t.next env.registry n r).expectedSrc = (L.gatewayId (h + 1)).hash := by
        rw [← hd, ← hreg, hr.dstHash]
        rfl
      have := receipts_on_line hk hreg (by omega) hnext hrs hx
      rwa [show h + 1 + x = h + (x + 1) by omega] at this

/-! ## Runs -/

/-- No source names the profile of an earlier hop as that of its own message. -/
def OwnHop (L : Line) : LineState.Event → Prop
  | .send (.source j) _ call => ∀ i < j, call.ownProfile ≠ some (L.profile i)
  | _ => True

/-- So it is of the messages sent. -/
def SentOwn (L : Line) (s : LineState) : Prop :=
  ∀ {j : Nat} {m : Sent}, m ∈ s.sent (.source j) → ∀ i < j, m.call.ownProfile ≠ some (L.profile i)

theorem step_sentOwn {s s' : LineState} {e : LineState.Event} (hw : OwnHop L e) (h : SentOwn L s)
    (hs : s.Step L.address e s') : SentOwn L s' := by
  intro j m hm
  cases hs with
  | receive | other => exact h hm
  | send _ _ =>
    rcases mem_sent_dispatch.mp hm with hm | ⟨rfl, rfl⟩
    · exact h hm
    · exact hw

theorem run_sentOwn {s s' : LineState} {es : List LineState.Event} (hd : L.Deployed s)
    (hr : Run (LineState.Step L.address) s es s') (hw : ∀ e ∈ es, OwnHop L e) : SentOwn L s' := by
  refine hr.inv (I := SentOwn L) (fun hc h hs => step_sentOwn hc h hs) hw fun {j m} hm => ?_
  rw [hd.sent] at hm
  exact absurd hm List.not_mem_nil

/-- In a run in which no source names the profile of an earlier hop as its own, a trace that a
gateway of the line accepts has, as its receipt `i`, a tuple that the target of hop `i` accepted from a
delivery of a message that the source of hop `i` sent. -/
theorem hop_provenance (hk : Function.Injective keccak256) {s s' : LineState} {es : List LineState.Event}
    (hd : L.Deployed s) (hr : Run (LineState.Step L.address) s es s') (hw : ∀ e ∈ es, OwnHop L e) {k : Nat}
    {gateway : XIRGateway} {env : Env} (hreg : env.registry = L.registry k) (hsees : s'.Sees L.address k env.carriers)
    {e : Envelope} {r : Bytes32 × Bytes32 × Bytes32} (h : gateway.verifyTrace env e = .ok r) {i : Nat}
    {receipt : Receipt} (hi : e.receipts[i]? = some receipt) :
    receipt.profileHash = L.profile i ∧
      (s'.adapter (.target i)).carrier.verify receipt.profileHash receipt.evidenceHash receipt.transitionHash = true ∧
      ∃ d ∈ s'.received (.target i), ∃ m ∈ s'.sent (.source i), m.message.body = d.body ∧
        ∃ ts, d.tuples = some ts ∧ m.call.tuples d.evidence = some ts ∧ receipt.tuple ∈ ts := by
  obtain ⟨ht, -⟩ := verifyTrace_eq_ok.mp h
  have hinv := run_inv hd hr
  have hsrc : (traceStart e).expectedSrc = (L.gatewayId 0).hash := by
    have hen : ((L.registry k).rootAt e.certificate.registryVersion).enabled = true := by
      have := ht.root.active
      rw [hreg] at this
      simp only [_active, Bool.and_eq_true] at this
      exact this.1.1
    rw [← L.root hen, ← hreg, ht.root.gatewayHash]
    rfl
  obtain ⟨j, rfl, hjl, hij, hp, hv⟩ := receipts_on_line hk hreg (Nat.zero_le _) hsrc ht.hops hi
  rw [Nat.zero_add] at hij hp
  rw [hsees j rfl] at hv
  obtain ⟨n, hin, -, d, hdel, m, hm, hb, ho, ts, hdt, hmt, hmem⟩ :=
    origin_of_verified hk hinv (t := receipt.tuple) hp hjl hij (Option.some.inj hv)
  -- a later hop would have named the profile of this one
  obtain rfl : n = i := by
    by_contra hne
    exact run_sentOwn hd hr hw hm i (by omega) (ho.trans (congrArg some hp))
  refine ⟨hp, ?_, d, hdel, m, hm, hb, ts, hdt, hmt, hmem⟩
  exact ((hinv.accepted (.target n)).verify hk (t := receipt.tuple)).mpr
    ⟨ts, List.mem_filterMap.mpr ⟨d, hdel, hdt⟩, hmem⟩

omit [Keccak] in
/-- The first of two receipts, in a run that is made of the two hops. -/
theorem hop_provenance_two :
    let _ := idealKeccak
    ∃ (s : LineState) (e : Envelope) (r : Receipt), e.receipts.length = 2 ∧ e.receipts[0]? = some r ∧
      (∃ x, (labGateway 2).verifyTrace (labEnv [.H, .H] s 2) e = .ok x) ∧
      ∃ d ∈ s.received (.target 0), ∃ ts, d.tuples = some ts ∧ r.tuple ∈ ts := by
  let _ := idealKeccak
  let route : Route := [.H, .H]
  let L := lab.line idealHash.injective (lab_distinct route (by decide))
  let tuple := lab.tupleOf route labEnvelope.transition
  have hd := line_deployed idealHash.injective (lab_distinct route (by decide))
  obtain ⟨c₁, d₁, -, -, he₁, -, hr₁⟩ := exists_hop (D := lab) idealHash 0 [] (.refl (lab.start route))
    verified_nil (by decide) (profileHashes route 1) (tuple 0 0).transitionHash labGuid_ne
  let a : Tuple := tuple 0 d₁.evidence
  obtain ⟨c₂, d₂, -, ho₂, he₂, -, hr₂⟩ := exists_hop (D := lab) idealHash 1 [a] (run_grows hr₁)
    (fun x hx => ⟨0, 0, rfl, le_rfl, by rw [List.mem_singleton.mp hx]; rfl, LineState.verify_hop hx⟩)
    (show 1 < 2 ^ 32 by decide) (profileHashes route 2) (tuple 1 0).transitionHash labGuid_ne
  let b : Tuple := tuple 1 d₂.evidence
  obtain ⟨rs, hb, ht⟩ := exists_built lab route labEnvelope.rid labEnvelope.transition [d₁.evidence, d₂.evidence]
    fun x hx => by rcases List.mem_pair.mp hx with rfl | rfl <;> assumption
  have hts : rs.map Receipt.tuple = [a, b] := ht
  have hlen : rs.length = 2 := by rw [← List.length_map Receipt.tuple, hts]; rfl
  have h0 : 0 < rs.length := hlen ▸ two_pos
  obtain ⟨x, hx⟩ := labGateway_accepts idealHash (s := (((lab.start route).hop 0 c₁ d₁ [a]).hop 1 c₂ d₂ [a, b])) hb hlen
    (by decide) (fun t h => LineState.verify_hop (hts ▸ h)) (hts ▸ LineState.verifyBundle_hop)
  obtain ⟨-, -, d, hdel, -, -, -, ts, hdt, -, hmem⟩ := hop_provenance idealHash.injective hd (hr₁.append hr₂) (by
    simp only [List.cons_append, List.nil_append, List.forall_mem_cons]
    refine ⟨fun i hi => absurd hi (Nat.not_lt_zero i), trivial, fun i hi heq => ?_, trivial, List.forall_mem_nil _⟩
    have hp : L.profile 1 = L.profile i := Option.some.inj (ho₂.symm.trans heq)
    exact absurd (L.profile_inj (by decide) (hi.trans (by decide)) hp) hi.ne') (k := 2) rfl (sees_view _ 2) hx (i := 0)
      (List.getElem?_eq_getElem h0)
  exact ⟨_, _, _, hlen, List.getElem?_eq_getElem h0, ⟨x, hx⟩, d, hdel, ts, hdt, hmem⟩

omit [Keccak] in
/-- A source names the profile of the hop before in a message of its own, and a trace is accepted whose
first receipt is of a hop that nothing was sent over. -/
theorem invented_hop :
    let _ := idealKeccak
    let L := lab.line idealHash.injective (lab_distinct [.H, .H, .H] (by decide))
    ∃ (es : List LineState.Event) (s : LineState) (gateway : XIRGateway) (env : Env) (e : Envelope),
      L.Deployed (lab.start [.H, .H, .H]) ∧ Run (LineState.Step L.address) (lab.start [.H, .H, .H]) es s ∧
      gateway.gatewayId = L.gatewayId 3 ∧ env.registry = L.registry 3 ∧ s.Sees L.address 3 env.carriers ∧
      (∃ x, gateway.verifyTrace env e = .ok x) ∧ e.receipts.length = 3 ∧
      s.sent (.source 0) = [] ∧ s.received (.target 0) = [] := by
  let _ := idealKeccak
  let route : Route := [.H, .H, .H]
  let tuple := lab.tupleOf route labEnvelope.transition
  let s₀ := lab.start route
  have hd := line_deployed idealHash.injective (lab_distinct route (by decide))
  obtain ⟨c₁, d₁, -, -, he₁, -, hr₁⟩ := exists_hop (D := lab) idealHash 1 [] (.refl s₀)
    verified_nil (by decide) (profileHashes route 1) (tuple 0 0).transitionHash labGuid_ne
  obtain ⟨c₂, d₂, -, -, he₂, -, hr₂⟩ := exists_hop (D := lab) idealHash 1 [] (run_grows hr₁)
    verified_nil (by decide) (profileHashes route 2) (tuple 1 0).transitionHash labGuid_ne
  let a : Tuple := tuple 0 d₁.evidence
  let b : Tuple := tuple 1 d₂.evidence
  let s₂ := (s₀.hop 1 c₁ d₁ [a]).hop 1 c₂ d₂ [b]
  have hv : Verified s₂ route 2 [a, b] := by
    intro x hx
    rcases List.mem_cons.mp hx with rfl | hx
    · exact ⟨1, 0, rfl, Nat.zero_le 1, rfl, (run_grows hr₂).verify (LineState.verify_hop (List.mem_singleton_self _))⟩
    · exact ⟨1, 1, rfl, le_rfl, by rw [List.mem_singleton.mp hx]; rfl, LineState.verify_hop hx⟩
  obtain ⟨c₃, d₃, -, -, he₃, -, hr₃⟩ := exists_hop (D := lab) idealHash _ _ (run_grows (hr₁.append hr₂)) hv
    (show 2 < 2 ^ 32 by decide) (profileHashes route 3) (tuple 2 0).transitionHash labGuid_ne
  let c : Tuple := tuple 2 d₃.evidence
  let s₃ := s₂.hop 2 c₃ d₃ [a, b, c]
  obtain ⟨rs, hb, ht⟩ := exists_built lab route labEnvelope.rid labEnvelope.transition
    [d₁.evidence, d₂.evidence, d₃.evidence] (by simpa using ⟨he₁, he₂, he₃⟩)
  have hts : rs.map Receipt.tuple = [a, b, c] := ht
  have hlen : rs.length = 3 := by rw [← List.length_map Receipt.tuple, hts]; rfl
  have hx := labGateway_accepts idealHash (s := s₃) hb hlen (by decide) (fun t h => LineState.verify_hop (hts ▸ h))
    (hts ▸ LineState.verifyBundle_hop)
  exact ⟨_, s₃, labGateway 3, labEnv route s₃ 3, _, hd, (hr₁.append hr₂).append hr₃, rfl, rfl, sees_view s₃ 3, hx, hlen,
    rfl, rfl⟩

end Xir.Proof
