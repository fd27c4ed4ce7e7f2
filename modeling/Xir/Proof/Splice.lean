import Xir.Proof.Deploy

/-!
# The prefixes of forwarded bundles

A source forwards priors that were verified one by one, so a bundle accepted
behind it may combine tuples of several executions (`spliced_bundle`). Where
every message sent forwards a bundle that the target on its chain accepted as
one (`WholeBundle`), the tuples of a bundle accepted at a target, without the
last, are a bundle accepted at the target before (`ordered_prefix`).
-/

namespace Xir.Impl.SendCall

open Proof

variable [Keccak]

omit [Keccak] in
/-- The priors of a message are the tuples it carries, without the last. -/
theorem priors_eq_dropLast {c : SendCall} {e : Bytes32} {ts : List Tuple} (h : c.tuples e = some ts)
    (hl : 2 ≤ ts.length) : c.priors = ts.dropLast := by
  cases c with
  | sendBundle request options | forwardBundle request options =>
    obtain rfl := Option.some.inj h
    exact List.dropLast_concat.symm
  | sendRaw body | forwardRaw body =>
    obtain ⟨p, t, e', -, -, rfl⟩ := Delivery.rawTuples_eq_some.mp h
    exact absurd (show 2 ≤ 1 from hl) (by decide)
  | sendBaselineSource | forwardBaseline => exact nomatch h

end Xir.Impl.SendCall

namespace Xir.Proof

open Impl Impl.Deployment

variable [Keccak] {L : Line}

/-- The priors that a source forwards are the list of one bundle, by the target on its chain. -/
def WholeBundle (L : Line) : LineState.Event → Prop
  | .send (.source i) carriers call => ∀ j, i = j + 1 → call.priors ≠ [] →
    (carriers (L.address (.target j))).verifyBundle (commitment call.priors) = some true
  | _ => True

theorem wholeBundle_view {s : LineState} {i : Nat} {call : SendCall} (h : ∀ j, i = j + 1 → call.priors ≠ [] →
    (s.adapter (.target j)).carrier.verifyBundle (commitment call.priors) = true) :
    WholeBundle L (.send (.source i) (s.view L.address i) call) := by
  intro j hj hne
  rw [sees_view s i j hj]
  exact congrArg some (h j hj hne)

/-- The lists of priors that a source sent were accepted as bundles on its chain. -/
def ForwardsWhole (s : LineState) : Prop :=
  ∀ {j : Nat} {m : Sent}, m ∈ s.sent (.source (j + 1)) → m.call.priors ≠ [] →
    (s.adapter (.target j)).carrier.verifyBundle (commitment m.call.priors) = true

theorem step_forwardsWhole {s s' : LineState} {e : LineState.Event} (hw : WholeBundle L e) (h : ForwardsWhole s)
    (hs : s.Step L.address e s') : ForwardsWhole s' := by
  intro j m hm hne
  have hg : Grows s s' := step_grows hs
  cases hs with
  | other => exact h hm hne
  | receive => exact hg.bundles _ (h hm hne)
  | @send x carriers sender call m' hsees hsend =>
    rcases mem_sent_dispatch.mp hm with hm | ⟨rfl, rfl⟩
    · exact h hm hne
    · have hv := hw j rfl hne
      rw [hsees j rfl] at hv
      exact Option.some.inj hv

theorem run_forwardsWhole {s s' : LineState} {es : List LineState.Event} (hd : L.Deployed s)
    (hr : Run (LineState.Step L.address) s es s') (hw : ∀ e ∈ es, WholeBundle L e) : ForwardsWhole s' := by
  refine hr.inv (I := ForwardsWhole) (fun hc h hs => step_forwardsWhole hc h hs) hw fun {j m} hm => ?_
  rw [hd.sent] at hm
  exact absurd hm List.not_mem_nil

/-- In a run that forwards whole bundles only, the tuples of a bundle that a target reports, without
the last, are the bundle of one delivery to the target on the forwarding chain, which reports it. -/
theorem ordered_prefix (hk : Function.Injective keccak256) {s s' : LineState} {es : List LineState.Event}
    (hd : L.Deployed s) (hr : Run (LineState.Step L.address) s es s') (hw : ∀ e ∈ es, WholeBundle L e) {j : Nat}
    {ts : List Tuple} (hl : 2 ≤ ts.length)
    (h : (s'.adapter (.target j)).carrier.verifyBundle (commitment ts) = true) :
    ∃ i, j = i + 1 ∧ (∀ t ∈ ts.dropLast,
        (s'.adapter (.source j)).carrier.approvedPriorVerifiers t.profileHash = L.address (.target i)) ∧
      (s'.adapter (.target i)).carrier.verifyBundle (commitment ts.dropLast) = true ∧
      ∃ d ∈ s'.received (.target i), d.tuples = some ts.dropLast ∧
        ∃ m ∈ s'.sent (.source i), m.message.body = d.body := by
  have hi : LineInv L s' := run_inv hd hr
  obtain ⟨d, hdel, hts⟩ := List.mem_filterMap.mp (((hi.accepted (.target j)).verifyBundle hk).mp h)
  obtain ⟨m, hm, -, ht⟩ := hi.authentic (.target j) hdel
  have hp : m.call.priors = ts.dropLast := SendCall.priors_eq_dropLast (ht.symm.trans hts) hl
  have hne : m.call.priors ≠ [] := by
    rw [hp]
    exact List.ne_nil_of_length_pos (by rw [List.length_dropLast]; omega)
  -- some prior says which chain forwards
  obtain ⟨t, htm⟩ := List.exists_mem_of_ne_nil _ hne
  obtain ⟨i, -, rfl, -⟩ := hi.priors hm t htm
  have hv := run_forwardsWhole hd hr hw hm hne
  rw [hp] at hv
  refine ⟨i, rfl, fun t ht => ?_, hv, ?_⟩
  · obtain ⟨i', -, hii, -, -, ha, -⟩ := hi.priors hm t (hp ▸ ht)
    obtain rfl := Nat.add_right_cancel hii
    exact ha
  · obtain ⟨d', hd', hts'⟩ := List.mem_filterMap.mp (((hi.accepted (.target i)).verifyBundle hk).mp hv)
    obtain ⟨m', hm', hb, -⟩ := hi.authentic (.target i) hd'
    exact ⟨d', hd', hts', m', hm', hb⟩

omit [Keccak] in
/-- The second hop of a route forwards the bundle of the first. -/
theorem ordered_prefix_two :
    let _ := idealKeccak
    ∃ (s : LineState) (d : Delivery) (a b : Tuple), d ∈ s.received (.target 0) ∧ d.tuples = some [a] ∧
      (s.adapter (.target 1)).carrier.verifyBundle (commitment [a, b]) = true := by
  let _ := idealKeccak
  let route : Route := [.H, .H]
  let s₀ := lab.start route
  have hd := line_deployed idealHash.injective (lab_distinct route (by decide))
  obtain ⟨c₁, d₁, hp₁, -, -, -, hr₁⟩ := exists_hop (D := lab) idealHash 0 [] (.refl s₀)
    verified_nil (by decide) (profileHashes route 1) (.single 1) labGuid_ne
  let a : Tuple := ⟨profileHashes route 1, d₁.evidence, .single 1⟩
  obtain ⟨c₂, d₂, hp₂, -, -, -, hr₂⟩ := exists_hop (D := lab) idealHash 1 [a] (run_grows hr₁)
    (fun x hx => ⟨0, 0, rfl, le_rfl, by rw [List.mem_singleton.mp hx], LineState.verify_hop hx⟩)
    (show 1 < 2 ^ 32 by decide) (profileHashes route 2) (.single 1) labGuid_ne
  let b : Tuple := ⟨profileHashes route 2, d₂.evidence, .single 1⟩
  let s₂ := (s₀.hop 0 c₁ d₁ [a]).hop 1 c₂ d₂ [a, b]
  have hb : (s₂.adapter (.target 1)).carrier.verifyBundle (commitment [a, b]) = true := LineState.verifyBundle_hop
  obtain ⟨i, hi, -, -, d, hdel, hts, -⟩ := ordered_prefix idealHash.injective hd (hr₁.append hr₂) (by
    simp only [List.cons_append, List.nil_append, List.forall_mem_cons]
    refine ⟨wholeBundle_view fun _ _ h => absurd hp₁ h, trivial, wholeBundle_view fun j hj _ => ?_, trivial,
      List.forall_mem_nil _⟩
    obtain rfl : j = 0 := by omega
    rw [hp₂]
    exact LineState.verifyBundle_hop) (show 2 ≤ [a, b].length from le_rfl) hb
  obtain rfl : i = 0 := by omega
  exact ⟨s₂, d, a, b, hdel, hts, hb⟩

omit [Keccak] in
/-- Two bundles of one tuple each, which a source then forwards as one. -/
theorem spliced_bundle :
    let _ := idealKeccak
    let L := lab.line idealHash.injective (lab_distinct [.H, .H] (by decide))
    ∃ (es : List LineState.Event) (s : LineState) (a b c : Tuple), L.Deployed (lab.start [.H, .H]) ∧
      Run (LineState.Step L.address) (lab.start [.H, .H]) es s ∧
      (s.adapter (.target 1)).carrier.verifyBundle (commitment [a, b, c]) = true ∧
      (s.adapter (.target 0)).carrier.verifyBundle (commitment [a, b]) = false ∧
      ∀ d ∈ s.received (.target 0), d.tuples ≠ some [a, b] := by
  let _ := idealKeccak
  let route : Route := [.H, .H]
  let s₀ := lab.start route
  have hd := line_deployed idealHash.injective (lab_distinct route (by decide))
  let P := profileHashes route 1
  obtain ⟨c₁, d₁, -, -, -, ht₁, hr₁⟩ := exists_hop (D := lab) idealHash 0 [] (.refl s₀)
    verified_nil (by decide) P (.single 1) labGuid_ne
  obtain ⟨c₂, d₂, -, -, -, ht₂, hr₂⟩ := exists_hop (D := lab) idealHash 0 [] (run_grows hr₁)
    verified_nil (by decide) P (.single 2) labGuid_ne
  let a : Tuple := ⟨P, d₁.evidence, .single 1⟩
  let b : Tuple := ⟨P, d₂.evidence, .single 2⟩
  let s₂ := (s₀.hop 0 c₁ d₁ [a]).hop 0 c₂ d₂ [b]
  have hv : Verified s₂ route 1 [a, b] := by
    intro x hx
    rcases List.mem_cons.mp hx with rfl | hx
    · exact ⟨0, 0, rfl, le_rfl, rfl, (run_grows hr₂).verify (LineState.verify_hop (List.mem_singleton_self _))⟩
    · exact ⟨0, 0, rfl, le_rfl, by rw [List.mem_singleton.mp hx], LineState.verify_hop hx⟩
  obtain ⟨c₃, d₃, -, -, -, -, hr₃⟩ := exists_hop (D := lab) idealHash _ _ (run_grows (hr₁.append hr₂)) hv
    (show 2 < 2 ^ 32 by decide) (profileHashes route 2) (.single 1) labGuid_ne
  have hr := (hr₁.append hr₂).append hr₃
  let c : Tuple := ⟨profileHashes route 2, d₃.evidence, .single 1⟩
  have hrec : (s₂.hop 1 c₃ d₃ [a, b, c]).received (.target 0) = [d₁, d₂] := by
    rw [LineState.received_hop_of_ne (by decide), LineState.received_hop_target, LineState.received_hop_target]
    rfl
  have hne : ∀ d ∈ (s₂.hop 1 c₃ d₃ [a, b, c]).received (.target 0), d.tuples ≠ some [a, b] := by
    intro d hdel heq
    rw [hrec] at hdel
    rcases List.mem_pair.mp hdel with rfl | rfl
    · exact absurd (congrArg (Option.map List.length) (ht₁.symm.trans heq)) (by simp)
    · exact absurd (congrArg (Option.map List.length) (ht₂.symm.trans heq)) (by simp)
  refine ⟨_, _, a, b, c, hd, hr, LineState.verifyBundle_hop, Bool.eq_false_iff.mpr fun hb => ?_, hne⟩
  obtain ⟨d, hdel, hts⟩ := List.mem_filterMap.mp
    ((((run_inv hd hr).accepted (.target 0)).verifyBundle idealHash.injective).mp hb)
  exact hne d hdel hts

end Xir.Proof
