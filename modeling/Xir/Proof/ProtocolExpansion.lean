import Mathlib.Tactic.Linarith
import Mathlib.Tactic.Ring
import Xir.Proof.ProtocolClosure

/-!
# Protocol expansion curves

The nodes that a scenario attaches to a component reach what the anchor reaches
and, unless the scenario is the conservative one, are reached by what reaches it
(`leads_attached`): the component leads from each of its members to the anchor, so
that it does not matter to which of them a node is attached. Hence the closed form
of the count of the pairs (`pairsOver_attached`), which the rows of the curves have
at each step.
-/

namespace Xir.Impl.XirLab

variable {nodes : List String} {edges : Finset (String × String)} {x y : String}

/-! ## Nodes that are attached -/

/-- Nodes that no edge has an end at, and a component with an anchor. -/
structure Attaches (nodes : List String) (edges : Finset (String × String)) (members : List String) (anchor : String)
    (added : List String) : Prop where
  within : WithinNodes nodes edges
  anchor_mem : anchor ∈ members
  connected (m : String) : m ∈ members → Leads edges m anchor ∧ Leads edges anchor m
  member (m : String) : m ∈ members → m ∈ covered edges
  nodup : added.Nodup
  added_mem (p : String) : p ∈ added → p ∈ nodes ∧ p ∉ covered edges

theorem WithinNodes.covered (h : WithinNodes nodes edges) (hx : x ∈ covered edges) : x ∈ nodes := by
  obtain ⟨edge, hedge, rfl | rfl⟩ := mem_covered.mp hx
  · exact (h edge hedge).1
  · exact (h edge hedge).2

/-- A node that no edge has an end at leads to itself only. -/
theorem eq_of_leads (hx : x ∉ covered edges) (h : Leads edges x y) : y = x := by
  induction h with
  | refl => rfl
  | tail _ hstep ih => exact absurd (mem_covered.mpr ⟨_, hstep, .inl ih⟩) hx

theorem eq_of_leads_to (hy : y ∉ covered edges) (h : Leads edges x y) : x = y := by
  cases h with
  | refl => rfl
  | tail _ hstep => exact absurd (mem_covered.mpr ⟨_, hstep, .inr rfl⟩) hy

namespace Attaches

variable {members added : List String} {anchor : String} (scenario : ExpansionScenario)

/-- Where an attached edge may start, and where it may end. -/
def From (edges : Finset (String × String)) (anchor : String) (added : List String) (x : String) : Prop :=
  x ∈ added ∨ scenario ≠ .conservative ∧ Leads edges x anchor

def To (edges : Finset (String × String)) (anchor : String) (added : List String) (y : String) : Prop :=
  scenario ≠ .conservative ∧ y ∈ added ∨ Leads edges anchor y

/-- The edges of the attached nodes. -/
def attached (members : List String) (anchor : String) (added : List String) : List (String × String) :=
  added.flatMap fun node => scenario.attachment members anchor node

variable {scenario}

theorem mem_nodes (scenario : ExpansionScenario) (h : Attaches nodes edges members anchor added)
    (edge : String × String) (he : edge ∈ attached scenario members anchor added) :
    edge.1 ∈ nodes ∧ edge.2 ∈ nodes := by
  obtain ⟨p, hp, he⟩ := List.mem_flatMap.mp he
  have hp := (h.added_mem p hp).1
  have hm {m : String} (hm : m ∈ members) : m ∈ nodes := h.within.covered (h.member m hm)
  cases scenario with
  | optimistic =>
    obtain ⟨m, hmem, he⟩ := List.mem_flatMap.mp he
    obtain rfl | he := List.mem_cons.mp he
    · exact ⟨hp, hm hmem⟩
    · obtain rfl := List.mem_singleton.mp he
      exact ⟨hm hmem, hp⟩
  | central =>
    obtain rfl | he := List.mem_cons.mp he
    · exact ⟨hp, hm h.anchor_mem⟩
    · obtain rfl := List.mem_singleton.mp he
      exact ⟨hm h.anchor_mem, hp⟩
  | conservative =>
    obtain rfl := List.mem_singleton.mp he
    exact ⟨hp, hm h.anchor_mem⟩

theorem ends (h : Attaches nodes edges members anchor added) (he : (x, y) ∈ attached scenario members anchor added) :
    From scenario edges anchor added x ∧ To scenario edges anchor added y := by
  obtain ⟨p, hp, he⟩ := List.mem_flatMap.mp he
  cases scenario with
  | optimistic =>
    obtain ⟨m, hm, he⟩ := List.mem_flatMap.mp he
    obtain he | he := List.mem_cons.mp he
    · obtain ⟨rfl, rfl⟩ := Prod.mk.inj he
      exact ⟨.inl hp, .inr (h.connected y hm).2⟩
    · obtain ⟨rfl, rfl⟩ := Prod.mk.inj (List.mem_singleton.mp he)
      exact ⟨.inr ⟨by decide, (h.connected x hm).1⟩, .inl ⟨by decide, hp⟩⟩
  | central =>
    obtain he | he := List.mem_cons.mp he
    · obtain ⟨rfl, rfl⟩ := Prod.mk.inj he
      exact ⟨.inl hp, .inr .refl⟩
    · obtain ⟨rfl, rfl⟩ := Prod.mk.inj (List.mem_singleton.mp he)
      exact ⟨.inr ⟨by decide, .refl⟩, .inl ⟨by decide, hp⟩⟩
  | conservative =>
    obtain ⟨rfl, rfl⟩ := Prod.mk.inj (List.mem_singleton.mp he)
    exact ⟨.inl hp, .inr .refl⟩

theorem to_anchor (h : Attaches nodes edges members anchor added) {p : String} (hp : p ∈ added) :
    (p, anchor) ∈ attached scenario members anchor added := by
  refine List.mem_flatMap.mpr ⟨p, hp, ?_⟩
  cases scenario with
  | optimistic => exact List.mem_flatMap.mpr ⟨anchor, h.anchor_mem, List.mem_cons_self⟩
  | central => exact List.mem_cons_self
  | conservative => exact List.mem_cons_self

theorem from_anchor (h : Attaches nodes edges members anchor added) {p : String} (hp : p ∈ added)
    (hs : scenario ≠ .conservative) :
    (anchor, p) ∈ attached scenario members anchor added := by
  refine List.mem_flatMap.mpr ⟨p, hp, ?_⟩
  cases scenario with
  | optimistic => exact List.mem_flatMap.mpr ⟨anchor, h.anchor_mem, List.mem_cons_of_mem _ List.mem_cons_self⟩
  | central => exact List.mem_cons_of_mem _ List.mem_cons_self
  | conservative => exact absurd rfl hs

/-- What leads where once the nodes are attached. -/
theorem leads_attached (h : Attaches nodes edges members anchor added) :
    Leads (edges ∪ (attached scenario members anchor added).toFinset) x y ↔
      Leads edges x y ∨ From scenario edges anchor added x ∧ To scenario edges anchor added y := by
  have hunion : (fun a b => (a, b) ∈ edges ∪ (attached scenario members anchor added).toFinset) =
      fun a b => (a, b) ∈ edges ∨ (a, b) ∈ attached scenario members anchor added := by
    funext a b
    rw [Finset.mem_union, List.mem_toFinset]
  have hmono {a b : String} (hab : Leads edges a b) :
      Relation.ReflTransGen (fun a b => (a, b) ∈ edges ∨ (a, b) ∈ attached scenario members anchor added) a b :=
    Relation.ReflTransGen.mono (fun _ _ => Or.inl) _ _ hab
  rw [Leads, hunion]
  refine reflTransGen_or (E := fun a b => (a, b) ∈ edges)
    (J := fun a b => (a, b) ∈ attached scenario members anchor added)
    (A := From scenario edges anchor added) (B := To scenario edges anchor added) (fun a b hab hb => ?_)
      (fun a b hab ha => ?_) (fun _ _ => h.ends) (fun a b ha hb => ?_) x y
  · obtain hb | hb := hb
    · exact absurd (mem_covered.mpr ⟨_, hab, .inr rfl⟩) (h.added_mem _ hb).2
    · exact .inr ⟨hb.1, hb.2.head hab⟩
  · obtain ha | ha := ha
    · exact absurd (mem_covered.mpr ⟨_, hab, .inl rfl⟩) (h.added_mem _ ha.2).2
    · exact .inr (ha.tail hab)
  · refine Relation.ReflTransGen.trans (b := anchor) ?_ ?_
    · exact ha.elim (fun ha => .single (.inr (h.to_anchor ha))) fun ha => hmono ha.2
    · exact hb.elim (fun hb => .single (.inr (h.from_anchor hb.2 hb.1))) hmono

/-! ## The count of the pairs -/

theorem anchor_covered (h : Attaches nodes edges members anchor added) : anchor ∈ covered edges :=
  h.member anchor h.anchor_mem

theorem not_leads_added (h : Attaches nodes edges members anchor added) {p : String} (hp : p ∈ added) :
    ¬ Leads edges p anchor ∧ ¬ Leads edges anchor p := by
  have hne : anchor ≠ p := fun he => (h.added_mem p hp).2 (he ▸ h.anchor_covered)
  exact ⟨fun hl => hne (eq_of_leads (h.added_mem p hp).2 hl), fun hl => hne (eq_of_leads_to (h.added_mem p hp).2 hl)⟩

theorem ledTo_added (h : Attaches nodes edges members anchor added) {p : String} (hp : p ∈ added) :
    ledTo nodes edges p = {p} := by
  ext y
  rw [mem_ledTo, Finset.mem_singleton]
  constructor
  · exact fun hy => eq_of_leads (h.added_mem p hp).2 hy.2
  · rintro rfl
    exact ⟨(h.added_mem y hp).1, .refl⟩

open Classical in
/-- What an attached node, and a node that leads to the anchor, reach more, where both directions are attached. -/
theorem card_joined (h : Attaches nodes edges members anchor added) (hs : scenario ≠ .conservative) (x : String) :
    ((ledTo nodes (edges ∪ (attached scenario members anchor added).toFinset) x).card : Int) =
      (ledTo nodes edges x).card +
        (if x ∈ added then (added.length : Int) + (ledTo nodes edges anchor).card - 1 else 0) +
        if Leads edges x anchor then (added.length : Int) else 0 := by
  have hcard : added.toFinset.card = added.length := List.toFinset_card_of_nodup h.nodup
  have hmem (y : String) : y ∈ ledTo nodes (edges ∪ (attached scenario members anchor added).toFinset) x ↔
      y ∈ nodes ∧ (Leads edges x y ∨ (x ∈ added ∨ Leads edges x anchor) ∧ (y ∈ added ∨ Leads edges anchor y)) := by
    rw [mem_ledTo, h.leads_attached, From, To]
    simp only [ne_eq, hs, not_false_eq_true, true_and]
  by_cases hx : x ∈ added
  · have hset : ledTo nodes (edges ∪ (attached scenario members anchor added).toFinset) x =
        added.toFinset ∪ ledTo nodes edges anchor := by
      ext y
      rw [hmem, Finset.mem_union, List.mem_toFinset, mem_ledTo]
      constructor
      · rintro ⟨hy, hxy | ⟨-, hp | hay⟩⟩
        · exact .inl (eq_of_leads (h.added_mem x hx).2 hxy ▸ hx)
        · exact .inl hp
        · exact .inr ⟨hy, hay⟩
      · rintro (hp | hay)
        · exact ⟨(h.added_mem y hp).1, .inr ⟨.inl hx, .inl hp⟩⟩
        · exact ⟨hay.1, .inr ⟨.inl hx, .inr hay.2⟩⟩
    have hdisjoint : Disjoint added.toFinset (ledTo nodes edges anchor) :=
      Finset.disjoint_left.mpr fun y hy hay => (h.not_leads_added (List.mem_toFinset.mp hy)).2 (mem_ledTo.mp hay).2
    rw [hset, Finset.card_union_of_disjoint hdisjoint, hcard, h.ledTo_added hx, if_pos hx,
      if_neg (h.not_leads_added hx).1, Finset.card_singleton]
    push_cast
    ring
  · rw [if_neg hx]
    by_cases hxa : Leads edges x anchor
    · have hset : ledTo nodes (edges ∪ (attached scenario members anchor added).toFinset) x =
          ledTo nodes edges x ∪ added.toFinset := by
        ext y
        rw [hmem, Finset.mem_union, List.mem_toFinset, mem_ledTo]
        constructor
        · rintro ⟨hy, hxy | ⟨-, hp | hay⟩⟩
          · exact .inl ⟨hy, hxy⟩
          · exact .inr hp
          · exact .inl ⟨hy, hxa.trans hay⟩
        · rintro (hxy | hp)
          · exact ⟨hxy.1, .inl hxy.2⟩
          · exact ⟨(h.added_mem y hp).1, .inr ⟨.inr hxa, .inl hp⟩⟩
      have hdisjoint : Disjoint (ledTo nodes edges x) added.toFinset := by
        refine Finset.disjoint_left.mpr fun y hxy hy => ?_
        have hy := List.mem_toFinset.mp hy
        exact hx (eq_of_leads_to (h.added_mem y hy).2 (mem_ledTo.mp hxy).2 ▸ hy)
      rw [hset, Finset.card_union_of_disjoint hdisjoint, hcard, if_pos hxa]
      push_cast
      ring
    · have hset : ledTo nodes (edges ∪ (attached scenario members anchor added).toFinset) x = ledTo nodes edges x := by
        ext y
        rw [hmem, mem_ledTo]
        simp only [hx, hxa, or_self, false_and, or_false]
      rw [hset, if_neg hxa]
      ring

open Classical in
/-- What an attached node reaches more in the conservative scenario. -/
theorem card_outbound (h : Attaches nodes edges members anchor added) (x : String) :
    ((ledTo nodes (edges ∪ (attached .conservative members anchor added).toFinset) x).card : Int) =
      (ledTo nodes edges x).card + if x ∈ added then ((ledTo nodes edges anchor).card : Int) else 0 := by
  have hmem (y : String) : y ∈ ledTo nodes (edges ∪ (attached .conservative members anchor added).toFinset) x ↔
      y ∈ nodes ∧ (Leads edges x y ∨ x ∈ added ∧ Leads edges anchor y) := by
    rw [mem_ledTo, h.leads_attached, From, To]
    simp
  by_cases hx : x ∈ added
  · have hset : ledTo nodes (edges ∪ (attached .conservative members anchor added).toFinset) x =
        ledTo nodes edges x ∪ ledTo nodes edges anchor := by
      ext y
      rw [hmem, Finset.mem_union, mem_ledTo, mem_ledTo]
      simp only [hx, true_and, and_or_left]
    have hdisjoint : Disjoint (ledTo nodes edges x) (ledTo nodes edges anchor) := by
      rw [h.ledTo_added hx, Finset.disjoint_singleton_left, mem_ledTo]
      exact fun hay => (h.not_leads_added hx).2 hay.2
    rw [hset, Finset.card_union_of_disjoint hdisjoint, if_pos hx]
    push_cast
    ring
  · have hset :
        ledTo nodes (edges ∪ (attached .conservative members anchor added).toFinset) x = ledTo nodes edges x := by
      ext y
      rw [hmem, mem_ledTo]
      simp only [hx, false_and, or_false]
    rw [hset, if_neg hx]
    ring

end Attaches

/-- The closed form, from the pairs before, and how many nodes reach the anchor and it reaches. -/
def ExpansionScenario.closedForm (scenario : ExpansionScenario) (basePairs reachesAnchor reachableFromAnchor : Int)
    (step : Nat) : Int :=
  if scenario = .conservative then basePairs + step * reachableFromAnchor
  else basePairs + step * reachesAnchor + step * reachableFromAnchor + step * ((step : Int) - 1)

theorem mem_swap (a b : String) : (a, b) ∈ edges.image Prod.swap ↔ (b, a) ∈ edges := by
  rw [Finset.mem_image]
  constructor
  · rintro ⟨⟨c, d⟩, h, heq⟩
    obtain ⟨rfl, rfl⟩ := Prod.mk.inj heq
    exact h
  · exact fun h => ⟨(b, a), h, rfl⟩

theorem leads_swap : Leads (edges.image Prod.swap) x y ↔ Leads edges y x := by
  have hswap : (fun a b => (a, b) ∈ edges.image Prod.swap) = Function.swap fun a b => (a, b) ∈ edges := by
    funext a b
    exact propext (mem_swap a b)
  rw [Leads, hswap, Relation.reflTransGen_swap]

open Classical in
/-- The closed form is the count of the pairs once the nodes are attached. -/
theorem Attaches.pairsOver_attached {members added : List String} {anchor : String} (scenario : ExpansionScenario)
    (h : Attaches nodes edges members anchor added) :
    pairsOver nodes (edges ∪ (attached scenario members anchor added).toFinset) =
      scenario.closedForm (pairsOver nodes edges) (ledTo nodes (edges.image Prod.swap) anchor).card
        (ledTo nodes edges anchor).card
        added.length := by
  have hadded : nodes.toFinset.filter (· ∈ added) = added.toFinset := by
    ext p
    rw [Finset.mem_filter, List.mem_toFinset, List.mem_toFinset]
    exact ⟨And.right, fun hp => ⟨(h.added_mem p hp).1, hp⟩⟩
  have hreaches :
      nodes.toFinset.filter (fun x => Leads edges x anchor) = ledTo nodes (edges.image Prod.swap) anchor := by
    ext x
    rw [Finset.mem_filter, List.mem_toFinset, mem_ledTo, leads_swap]
  have hlength : (added.toFinset.card : Int) = added.length := by rw [List.toFinset_card_of_nodup h.nodup]
  have hsum (p : String → Prop) [DecidablePred p] (a : Int) :
      ∑ x ∈ nodes.toFinset, (if p x then a else 0) = (nodes.toFinset.filter p).card * a := by
    rw [← Finset.sum_filter, Finset.sum_const, nsmul_eq_mul]
  by_cases hs : scenario = .conservative
  · subst hs
    have hterm (x : String) :
        (((ledTo nodes (edges ∪ (attached .conservative members anchor added).toFinset) x).card : Int) - 1) =
        (((ledTo nodes edges x).card : Int) - 1) + if x ∈ added
          then ((ledTo nodes edges anchor).card : Int) else 0 := by
      rw [h.card_outbound]
      ring
    rw [pairsOver, Finset.sum_congr rfl fun x _ => hterm x, Finset.sum_add_distrib, hsum, hadded, hlength]
    rfl
  · have hterm (x : String) :
        (((ledTo nodes (edges ∪ (attached scenario members anchor added).toFinset) x).card : Int) - 1) =
        (((ledTo nodes edges x).card : Int) - 1) +
          (if x ∈ added then (added.length : Int) + (ledTo nodes edges anchor).card - 1 else 0) +
          if Leads edges x anchor then (added.length : Int) else 0 := by
      rw [h.card_joined hs]
      ring
    rw [pairsOver, Finset.sum_congr rfl fun x _ => hterm x, Finset.sum_add_distrib, Finset.sum_add_distrib, hsum, hsum,
      hadded, hreaches, hlength, ExpansionScenario.closedForm, if_neg hs, pairsOver]
    ring

/-- The joined scenarios reach no less than the conservative one. -/
theorem closedForm_conservative_le (scenario : ExpansionScenario) {basePairs reachesAnchor reachableFromAnchor : Int}
    (h : 0 ≤ reachesAnchor) (step : Nat) :
    ExpansionScenario.conservative.closedForm basePairs reachesAnchor reachableFromAnchor step ≤
      scenario.closedForm basePairs reachesAnchor reachableFromAnchor step := by
  have hstep : (0 : Int) ≤ step * ((step : Int) - 1) := by
    cases step with
    | zero => simp
    | succ n => exact mul_nonneg (Int.natCast_nonneg _) (by push_cast; omega)
  have hjoin : (0 : Int) ≤ step * reachesAnchor := mul_nonneg (Int.natCast_nonneg _) h
  rw [ExpansionScenario.closedForm, ExpansionScenario.closedForm, if_pos rfl]
  split
  · exact le_rfl
  · linarith

end Xir.Impl.XirLab
