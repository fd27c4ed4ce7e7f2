import Xir.Framework.Table
import Xir.Proof.ProtocolExpansion

/-!
# The rows of the curves

A row is made from the closure of the original edges and those of the nodes that
were attached before it (`Expansion.IsRow`), since a step attaches the next node
(`advance_ok`). So it has the count of a search from each node of the extended
graph, and the closed form of the reference function, whose component is the same
in whatever order the sets are gone through (`IsLargestComponent.unique`).
-/

namespace Xir.Impl.XirLab

variable {nodes : List String} {edges : List ConnectivityEdge} {protocol : BridgeProtocol} {e e' : Expansion}
  {scenario : ExpansionScenario}

/-- What the rows of a protocol are made from. -/
structure IsExpansion (nodes : List String) (edges : List ConnectivityEdge) (protocol : BridgeProtocol)
    (e : Expansion) : Prop where
  protocol_eq : e.protocol = protocol
  original_eq : e.original = originalEdges edges protocol
  largest : IsLargestComponent (originalEdges edges protocol) e.component
  mem_members (m : String) : m ∈ e.members ↔ m ∈ e.component
  anchor_mem : e.anchor ∈ e.component
  nodup : e.order.Nodup
  mem_order (y : String) : y ∈ e.order ↔ y ∈ nodes ∧ y ∉ covered (originalEdges edges protocol)

theorem activityBefore_asymm (edges : List ConnectivityEdge) (a b : String) (h : activityBefore edges a b = true) :
    activityBefore edges b a = false := by
  rw [activityBefore, decide_eq_true_iff] at h
  rw [activityBefore, decide_eq_false_iff_not]
  rintro (hlt | ⟨heq, hlt⟩)
  · omega
  · obtain h | ⟨-, h⟩ := h
    · omega
    · exact lt_asymm h hlt

theorem activityBefore_comp (edges : List ConnectivityEdge) (a b c : String) (h : activityBefore edges a c = true) :
    activityBefore edges a b = true ∨ activityBefore edges b c = true := by
  simp only [activityBefore, decide_eq_true_eq] at h ⊢
  by_cases hab : activity edges b < activity edges a
  · exact .inl (.inl hab)
  by_cases hbc : activity edges c < activity edges b
  · exact .inr (.inl hbc)
  obtain h | ⟨heq, h⟩ := h
  · omega
  · obtain hlt | hle := lt_or_ge a b
    · exact .inl (.inr ⟨by omega, hlt⟩)
    · exact .inr (.inr ⟨by omega, hle.trans_lt h⟩)

theorem expansionOf_ok (edgeOrder : SetOrder (String × String)) (nodeOrder : SetOrder String) (nodes : List String)
    (h : (originalEdges edges protocol).Nonempty) :
    ∃ e, expansionOf edgeOrder nodeOrder nodes edges protocol = .ok e ∧ IsExpansion nodes edges protocol e := by
  obtain ⟨component, hc, hl⟩ := largestScc_ok edgeOrder h
  obtain ⟨anchor, ha, hmem⟩ : ∃ anchor, anchorOf nodeOrder edges component = .ok anchor ∧ anchor ∈ component := by
    obtain ⟨x, -, hx⟩ := hl.isComponent
    have hxc : x ∈ nodeOrder.toList component := (nodeOrder.mem_toList _ _).mpr ((hx x).mpr ⟨.refl, .refl⟩)
    obtain ⟨anchor, hleast, hmem, -⟩ :=
      leastBy_spec (activityBefore_asymm edges) (activityBefore_comp edges) (List.ne_nil_of_mem hxc)
    exact ⟨anchor, by rw [anchorOf, hleast]; rfl, (nodeOrder.mem_toList _ _).mp hmem⟩
  refine ⟨_, bind_eq_ok.mpr ⟨component, hc, bind_eq_ok.mpr ⟨anchor, ha, rfl⟩⟩, rfl, rfl, hl,
    nodeOrder.mem_toList component, hmem, ?_, ?_⟩
  · exact (List.mergeSort_perm _ _).nodup_iff.mpr (nodeOrder.nodup _)
  · intro y
    show y ∈ attachmentOrder nodeOrder nodes edges protocol ↔ _
    rw [attachmentOrder, List.mem_mergeSort, nodeOrder.mem_toList, Finset.mem_sdiff, List.mem_toFinset]

/-- The largest component is one. -/
theorem IsLargestComponent.unique {edges : Finset (String × String)} {c c' : Finset String}
    (h : IsLargestComponent edges c) (h' : IsLargestComponent edges c') : c = c' := by
  obtain hlt | ⟨-, m, hm, hle⟩ := h.largest c' h'.isComponent
  · obtain hlt' | ⟨heq, -⟩ := h'.largest c h.isComponent
    · omega
    · omega
  · obtain hlt' | ⟨-, m', hm', hle'⟩ := h'.largest c h.isComponent
    · have := h.largest c' h'.isComponent
      omega
    · -- both have the same smallest member
      obtain rfl := le_antisymm (hle m' hm') (hle' m hm)
      obtain ⟨x, -, hx⟩ := h.isComponent
      obtain ⟨x', -, hx'⟩ := h'.isComponent
      have hxm := (hx m).mp hm
      have hxm' := (hx' m).mp hm'
      ext y
      rw [hx, hx']
      constructor
      · exact fun hy => ⟨(hxm'.1.trans hxm.2).trans hy.1, hy.2.trans (hxm.1.trans hxm'.2)⟩
      · exact fun hy => ⟨(hxm.1.trans hxm'.2).trans hy.1, hy.2.trans (hxm'.1.trans hxm.2)⟩

theorem within_originalEdges (h : ∀ edge ∈ edges, edge.src ∈ nodes ∧ edge.dst ∈ nodes) (protocol : BridgeProtocol) :
    WithinNodes nodes (originalEdges edges protocol) := by
  intro edge hedge
  obtain ⟨c, hc, rfl⟩ := List.mem_map.mp (List.mem_toFinset.mp hedge)
  exact h c (List.mem_filter.mp hc).1

theorem originalEdges_nonempty (h : ∃ edge ∈ edges, edge.carrier = protocol) :
    (originalEdges edges protocol).Nonempty := by
  obtain ⟨edge, hedge, rfl⟩ := h
  exact ⟨_, List.mem_toFinset.mpr (List.mem_map_of_mem (List.mem_filter.mpr ⟨hedge, decide_eq_true rfl⟩))⟩

theorem IsExpansion.attaches (h : IsExpansion nodes edges protocol e)
    (hw : WithinNodes nodes (originalEdges edges protocol)) (k : Nat) :
    Attaches nodes (originalEdges edges protocol) e.members e.anchor (e.order.take k) := by
  obtain ⟨x, -, hx⟩ := h.largest.isComponent
  have hanchor := (hx e.anchor).mp h.anchor_mem
  refine ⟨hw, (h.mem_members _).mpr h.anchor_mem, fun m hm => ?_, fun m hm => ?_,
    h.nodup.sublist (List.take_sublist _ _), fun p hp => (h.mem_order p).mp (List.mem_of_mem_take hp)⟩
  · have hm := (hx m).mp ((h.mem_members m).mp hm)
    exact ⟨hm.2.trans hanchor.1, hanchor.2.trans hm.1⟩
  · obtain ⟨x, hxc, hx⟩ := h.largest.isComponent
    have hm := ((hx m).mp ((h.mem_members m).mp hm)).1
    cases hm with
    | refl => exact hxc
    | tail _ hstep => exact mem_covered.mpr ⟨_, hstep, .inr rfl⟩

/-! ## One scenario -/

namespace Expansion

/-- The original edges, and those of the nodes that are attached before a step. -/
def extended (e : Expansion) (scenario : ExpansionScenario) (step : Nat) : Finset (String × String) :=
  e.original ∪ (Attaches.attached scenario e.members e.anchor (e.order.take step)).toFinset

/-- The row of a step. -/
def IsRow (nodes : List String) (e : Expansion) (scenario : ExpansionScenario) (step : Nat) (row : CurveRow) : Prop :=
  ∃ closure, IsProtocolClosure nodes (e.extended scenario step) closure ∧ e.row nodes scenario step closure = .ok row

theorem row_eq_ok {step : Nat} {closure : List Nat} {row : CurveRow} (h : e.row nodes scenario step closure = .ok row) :
    row.protocol = e.protocol ∧ row.scenario = scenario ∧ row.addedNodes = step ∧
      row.addedNodePrefix = e.order.take step ∧ row.reachablePairs = closurePairs closure := by
  obtain ⟨-, hrow⟩ := revertIf_bind.mp h
  obtain rfl := Except.ok.inj hrow
  exact ⟨rfl, rfl, rfl, rfl, rfl⟩

/-- A step adds the row of its closure, and attaches the next node. -/
theorem advance_ok (hn : nodes.Nodup) (h2 : 2 ≤ nodes.length) (h : IsExpansion nodes edges protocol e)
    (hw : WithinNodes nodes (originalEdges edges protocol)) {step : Nat} {closure : List Nat}
    (hc : IsProtocolClosure nodes (e.extended scenario step) closure) (rows : List CurveRow) :
    ∃ closure' row, e.advance nodes scenario (closure, rows) step = .ok (closure', rows ++ [row]) ∧
      IsProtocolClosure nodes (e.extended scenario (step + 1)) closure' ∧ IsRow nodes e scenario step row := by
  have hdenominator : ¬ (nodes.length : Int) * ((nodes.length : Int) - 1) = 0 := by
    rw [mul_eq_zero]
    omega
  obtain ⟨row, hrow⟩ : ∃ row, e.row nodes scenario step closure = .ok row := ⟨_, revertIf_bind.mpr ⟨hdenominator, rfl⟩⟩
  have hIsRow : IsRow nodes e scenario step row := ⟨closure, hc, hrow⟩
  cases hnode : e.order[step]? with
  | none =>
    have htake : e.extended scenario (step + 1) = e.extended scenario step := by
      have hlen := List.getElem?_eq_none_iff.mp hnode
      rw [extended, extended, List.take_of_length_le hlen, List.take_of_length_le (Nat.le_succ_of_le hlen)]
    refine ⟨closure, row, bind_eq_ok.mpr ⟨row, hrow, ?_⟩, htake ▸ hc, hIsRow⟩
    rw [hnode]
    rfl
  | some node =>
    have htake : Attaches.attached scenario e.members e.anchor (e.order.take (step + 1)) =
        Attaches.attached scenario e.members e.anchor (e.order.take step) ++ e.attachment scenario node := by
      rw [List.take_add_one, hnode, Attaches.attached, List.flatMap_append]
      exact congrArg _ (List.append_nil _)
    have hends : ∀ edge ∈ e.attachment scenario node, edge.1 ∈ nodes ∧ edge.2 ∈ nodes := by
      intro edge hedge
      refine (h.attaches hw (step + 1)).mem_nodes scenario edge ?_
      rw [htake]
      exact List.mem_append_right _ hedge
    obtain ⟨closure', hfold, hc'⟩ := hc.addAll hn hends
    refine ⟨closure', row, bind_eq_ok.mpr ⟨row, hrow, ?_⟩, ?_, hIsRow⟩
    · rw [hnode]
      exact bind_eq_ok.mpr ⟨closure', hfold, rfl⟩
    · rw [extended, htake, List.toFinset_append, ← Finset.union_assoc]
      exact hc'

/-- The rows of a scenario are those of its steps. -/
theorem scenarioRows_ok (edgeOrder : SetOrder (String × String)) (scenario : ExpansionScenario) (hn : nodes.Nodup)
    (h2 : 2 ≤ nodes.length) (h : IsExpansion nodes edges protocol e)
    (hw : WithinNodes nodes (originalEdges edges protocol)) :
    ∃ rows, e.scenarioRows nodes scenario edgeOrder = .ok rows ∧
      ∀ row, row ∈ rows ↔ ∃ step ≤ e.order.length, IsRow nodes e scenario step row := by
  obtain ⟨closure, hclosure, hc⟩ := protocolClosure_ok edgeOrder hn hw
  rw [← h.original_eq] at hclosure
  have hrun (k : Nat) :
      ∃ closure' rows, (List.range k).foldlM (e.advance nodes scenario) (closure, []) = .ok (closure', rows) ∧
      IsProtocolClosure nodes (e.extended scenario k) closure' ∧
        ∀ row, row ∈ rows ↔ ∃ step < k, IsRow nodes e scenario step row := by
    induction k with
    | zero =>
      refine ⟨closure, [], rfl, ?_, fun row => by simp⟩
      have hzero : e.extended scenario 0 = originalEdges edges protocol := by
        rw [extended, List.take_zero, h.original_eq]
        exact Finset.union_empty (originalEdges edges protocol)
      rw [hzero]
      exact hc
    | succ k ih =>
      obtain ⟨closure', rows, hfold, hc', hrows⟩ := ih
      obtain ⟨closure'', row, hadvance, hc'', hrow⟩ := advance_ok hn h2 h hw hc' rows
      refine ⟨closure'', rows ++ [row], ?_, hc'', fun row' => ?_⟩
      · rw [List.range_succ, List.foldlM_append, hfold]
        exact foldlM_cons_eq_ok.mpr ⟨_, hadvance, rfl⟩
      · rw [List.mem_append, List.mem_singleton, hrows]
        constructor
        · rintro (⟨step, hlt, hstep⟩ | rfl)
          · exact ⟨step, Nat.lt_succ_of_lt hlt, hstep⟩
          · exact ⟨k, Nat.lt_succ_self k, hrow⟩
        · rintro ⟨step, hlt, hstep⟩
          obtain hlt | rfl := Nat.lt_succ_iff_lt_or_eq.mp hlt
          · exact .inl ⟨step, hlt, hstep⟩
          · obtain ⟨_, hd, hd'⟩ := hstep
            obtain ⟨_, hd₁, hd₂⟩ := hrow
            -- the row depends on the pairs of its closure only
            have hpairs := (hd.pairs hn).trans (hd₁.pairs hn).symm
            have heq := hd'.symm.trans (Eq.trans ?_ hd₂)
            · exact .inr (Except.ok.inj heq)
            · rw [Expansion.row, Expansion.row, hpairs]
  obtain ⟨closure', rows, hfold, -, hrows⟩ := hrun (e.order.length + 1)
  refine ⟨rows, bind_eq_ok.mpr ⟨closure, hclosure, bind_eq_ok.mpr ⟨_, hfold, rfl⟩⟩, fun row => ?_⟩
  simp only [hrows, Nat.lt_succ_iff]

end Expansion

/-! ## All rows -/

theorem mem_SCENARIOS (scenario : ExpansionScenario) : scenario ∈ SCENARIOS := by cases scenario <;> decide

/-- The rows of the curves are those of the steps of each protocol and scenario. -/
theorem protocolExpansionCurves_ok (edgeOrder : SetOrder (String × String)) (nodeOrder : SetOrder String)
    (hn : nodes.Nodup) (h2 : 2 ≤ nodes.length) (hw : ∀ edge ∈ edges, edge.src ∈ nodes ∧ edge.dst ∈ nodes)
    (hall : ∀ protocol, ∃ edge ∈ edges, edge.carrier = protocol) :
    ∃ rows, protocolExpansionCurves edgeOrder nodeOrder nodes edges = .ok rows ∧
      ∀ row, row ∈ rows ↔ ∃ protocol e scenario, expansionOf edgeOrder nodeOrder nodes edges protocol = .ok e ∧
        ∃ step ≤ e.order.length, Expansion.IsRow nodes e scenario step row := by
  have hprotocol : ∀ protocol ∈ PROTOCOLS, ∃ rows, (do
      let e ← expansionOf edgeOrder nodeOrder nodes edges protocol
      let rows ← SCENARIOS.mapM fun scenario => e.scenarioRows nodes scenario edgeOrder
      return rows.flatten) = .ok rows ∧ ∀ row, row ∈ rows ↔
        ∃ e scenario, expansionOf edgeOrder nodeOrder nodes edges protocol = .ok e ∧
          ∃ step ≤ e.order.length, Expansion.IsRow nodes e scenario step row := by
    intro protocol _
    obtain ⟨e, he, hexp⟩ := expansionOf_ok edgeOrder nodeOrder nodes (originalEdges_nonempty (hall protocol))
    obtain ⟨rowss, hrowss, hrel⟩ := exists_mapM_eq_ok fun scenario (_ : scenario ∈ SCENARIOS) =>
      Expansion.scenarioRows_ok edgeOrder scenario hn h2 hexp (within_originalEdges hw protocol)
    refine ⟨rowss.flatten, bind_eq_ok.mpr ⟨e, he, bind_eq_ok.mpr ⟨rowss, hrowss, rfl⟩⟩, fun row => ?_⟩
    rw [List.mem_flatten]
    constructor
    · rintro ⟨rows, hrows, hrow⟩
      obtain ⟨scenario, -, hiff⟩ := Table.forall₂_left hrel hrows
      exact ⟨e, scenario, he, (hiff row).mp hrow⟩
    · rintro ⟨e', scenario, he', hrow⟩
      obtain rfl := Except.ok.inj (he.symm.trans he')
      obtain ⟨rows, hrows, hiff⟩ := Table.forall₂_right hrel (mem_SCENARIOS scenario)
      exact ⟨rows, hrows, (hiff row).mpr hrow⟩
  obtain ⟨rowss, hrowss, hrel⟩ := exists_mapM_eq_ok hprotocol
  refine ⟨rowss.flatten, bind_eq_ok.mpr ⟨rowss, hrowss, rfl⟩, fun row => ?_⟩
  rw [List.mem_flatten]
  constructor
  · rintro ⟨rows, hrows, hrow⟩
    obtain ⟨protocol, -, hiff⟩ := Table.forall₂_left hrel hrows
    exact ⟨protocol, (hiff row).mp hrow⟩
  · rintro ⟨protocol, hrow⟩
    obtain ⟨rows, hrows, hiff⟩ := Table.forall₂_right hrel (mem_PROTOCOLS protocol)
    exact ⟨rows, hrows, (hiff row).mpr hrow⟩

/-! ## The reference counts -/

section

variable {members members' added added' : List String} {anchor anchor' : String}

theorem ledTo_congr {original : Finset (String × String)} {a b : String} (hab : Leads original a b)
    (hba : Leads original b a) :
    ledTo nodes original a = ledTo nodes original b := by
  ext y
  rw [mem_ledTo, mem_ledTo]
  exact and_congr_right fun _ => ⟨hba.trans, hab.trans⟩

end

/-- The closed form of a protocol. -/
noncomputable def Expansion.pairsAt (nodes : List String) (e : Expansion) (scenario : ExpansionScenario)
    (step : Nat) : Int :=
  scenario.closedForm (pairsOver nodes e.original) (ledTo nodes (e.original.image Prod.swap) e.anchor).card
    (ledTo nodes e.original e.anchor).card step

/-- Two expansions, for whatever orders of the sets, have the same counts. -/
theorem IsExpansion.pairsAt_eq (h : IsExpansion nodes edges protocol e) (h' : IsExpansion nodes edges protocol e')
    (scenario : ExpansionScenario) (step : Nat) : e'.pairsAt nodes scenario step = e.pairsAt nodes scenario step := by
  have hcomponent : e.component = e'.component := h.largest.unique h'.largest
  obtain ⟨x, -, hx⟩ := h.largest.isComponent
  have ha := (hx e.anchor).mp h.anchor_mem
  have ha' := (hx e'.anchor).mp (hcomponent ▸ h'.anchor_mem)
  have hto := ha.2.trans ha'.1
  have hback := ha'.2.trans ha.1
  rw [Expansion.pairsAt, Expansion.pairsAt, h.original_eq, h'.original_eq, ledTo_congr hback hto,
    ledTo_congr (leads_swap.mpr hto) (leads_swap.mpr hback)]

theorem IsExpansion.order_length (h : IsExpansion nodes edges protocol e) (h' : IsExpansion nodes edges protocol e') :
    e'.order.length = e.order.length := by
  refine List.Perm.length_eq ((List.perm_ext_iff_of_nodup h'.nodup h.nodup).mpr fun y => ?_)
  rw [h.mem_order, h'.mem_order]

/-- The pairs of the extended graph are the closed form. -/
theorem IsExpansion.pairsOver_extended (h : IsExpansion nodes edges protocol e)
    (hw : WithinNodes nodes (originalEdges edges protocol)) {step : Nat} (hstep : step ≤ e.order.length) :
    pairsOver nodes (e.extended scenario step) = e.pairsAt nodes scenario step := by
  have hpairs := (h.attaches hw step).pairsOver_attached scenario
  rw [← h.original_eq, List.length_take, Nat.min_eq_left hstep] at hpairs
  exact hpairs

theorem within_swap {original : Finset (String × String)} (h : WithinNodes nodes original) :
    WithinNodes nodes (original.image Prod.swap) := by
  intro edge hedge
  obtain ⟨a, b⟩ := edge
  exact (h _ ((mem_swap a b).mp hedge)).symm

/-- The counts of the reference function are the closed form. -/
theorem referenceCounts_ok (edgeOrder : SetOrder (String × String)) (nodeOrder : SetOrder String) (hn : nodes.Nodup)
    (hw : WithinNodes nodes (originalEdges edges protocol)) (he : (originalEdges edges protocol).Nonempty) :
    ∃ counts, referenceCounts edgeOrder nodeOrder nodes edges protocol = .ok counts ∧
      ∃ e, IsExpansion nodes edges protocol e ∧
      ∀ key v, (key, v) ∈ counts ↔ key.1 = protocol ∧ key.2.2 ≤ e.order.length ∧ v = e.pairsAt nodes key.2.1 key.2.2 :=
  by
  obtain ⟨e, hexp, h⟩ := expansionOf_ok edgeOrder nodeOrder nodes he
  have hanchor : e.anchor ∈ nodes := by
    have ha := h.attaches hw 0
    exact hw.covered (ha.member _ ha.anchor_mem)
  have hout : ¬ ∃ edge ∈ e.original, edge.1 ∉ nodes ∨ edge.2 ∉ nodes := by
    rintro ⟨edge, hedge, hout⟩
    rw [h.original_eq] at hedge
    exact hout.elim (fun hs => hs (hw edge hedge).1) fun hd => hd (hw edge hedge).2
  rw [← h.original_eq] at hw
  have hrun :
      referenceCounts edgeOrder nodeOrder nodes edges protocol =
      .ok ((List.range (e.order.length + 1)).flatMap fun (step : Nat) =>
      [((e.protocol, .optimistic, step), e.pairsAt nodes .optimistic step),
        ((e.protocol, .central, step), e.pairsAt nodes .central step),
        ((e.protocol, .conservative, step), e.pairsAt nodes .conservative step)]) :=
    bind_eq_ok.mpr ⟨e, hexp, revertIf_bind.mpr ⟨hout, bind_eq_ok.mpr ⟨_, referenceProtocolPairs_eq hn hw,
      bind_eq_ok.mpr ⟨_, referenceVisit_eq hn (within_swap hw) hanchor,
        bind_eq_ok.mpr ⟨_, referenceVisit_eq hn hw hanchor, rfl⟩⟩⟩⟩⟩
  refine ⟨_, hrun, e, h, ?_⟩
  intro key v
  obtain ⟨p, scenario, step⟩ := key
  rw [List.mem_flatMap]
  simp only [List.mem_range, Nat.lt_succ_iff, List.mem_cons, List.not_mem_nil, or_false, Prod.mk.injEq, ← h.protocol_eq]
  constructor
  · rintro ⟨k, hk, ⟨⟨rfl, rfl, rfl⟩, rfl⟩ | ⟨⟨rfl, rfl, rfl⟩, rfl⟩ | ⟨⟨rfl, rfl, rfl⟩, rfl⟩⟩
    all_goals exact ⟨rfl, hk, rfl⟩
  · rintro ⟨rfl, hk, rfl⟩
    refine ⟨step, hk, ?_⟩
    cases scenario with
    | optimistic => exact .inl ⟨⟨rfl, rfl, rfl⟩, rfl⟩
    | central => exact .inr (.inl ⟨⟨rfl, rfl, rfl⟩, rfl⟩)
    | conservative => exact .inr (.inr ⟨⟨rfl, rfl, rfl⟩, rfl⟩)

/-! ## The curves -/

/-- The rows of the curves against the searches of the extended graphs and the reference counts. -/
structure CurvesAgree (edgeOrder : SetOrder (String × String)) (nodeOrder : SetOrder String) (nodes : List String)
    (edges : List ConnectivityEdge) (rows : List CurveRow) (counts : List (CurveKey × Int)) : Prop where
  complete (protocol : BridgeProtocol) (scenario : ExpansionScenario) :
    ∃ e, expansionOf edgeOrder nodeOrder nodes edges protocol = .ok e ∧
    ∀ step ≤ e.order.length, ∃ row ∈ rows, row.protocol = protocol ∧ row.scenario = scenario ∧ row.addedNodes = step
  pairs (row : CurveRow) : row ∈ rows → ∃ e, expansionOf edgeOrder nodeOrder nodes edges row.protocol = .ok e ∧
    row.addedNodes ≤ e.order.length ∧ row.addedNodePrefix = e.order.take row.addedNodes ∧
    referenceProtocolPairs nodes (e.extended row.scenario row.addedNodes) = .ok row.reachablePairs ∧
    ∀ v, ((row.protocol, row.scenario, row.addedNodes), v) ∈ counts ↔ v = row.reachablePairs
  ordered (row row' : CurveRow) :
    row ∈ rows → row' ∈ rows → row.protocol = row'.protocol → row.addedNodes = row'.addedNodes →
    (row.scenario = .optimistic → row'.scenario = .central → row.reachablePairs = row'.reachablePairs) ∧
      (row.scenario = .central → row'.scenario = .conservative → row'.reachablePairs ≤ row.reachablePairs)

/-- What is expected of the expansion of a graph, for any order in which the sets are gone through. -/
structure Expands (edgeOrder edgeOrder' : SetOrder (String × String)) (nodeOrder nodeOrder' : SetOrder String)
    (nodes : List String) (edges : List ConnectivityEdge) : Prop where
  component (protocol : BridgeProtocol) : ∃ component,
    largestScc edgeOrder (covered (originalEdges edges protocol)) (originalEdges edges protocol) = .ok component ∧
      IsLargestComponent (originalEdges edges protocol) component
  closure (protocol : BridgeProtocol) :
    ∃ closure, protocolClosure edgeOrder nodes (originalEdges edges protocol) = .ok closure ∧
    ∀ added : List (String × String), (∀ edge ∈ added, edge.1 ∈ nodes ∧ edge.2 ∈ nodes) →
      ∃ closure', added.foldlM (Expansion.addEdge nodes) closure = .ok closure' ∧
        IsProtocolClosure nodes (originalEdges edges protocol ∪ added.toFinset) closure'
  curves : ∃ rows counts, protocolExpansionCurves edgeOrder nodeOrder nodes edges = .ok rows ∧
    referenceProtocolCurveCounts edgeOrder' nodeOrder' nodes edges = .ok counts ∧
      CurvesAgree edgeOrder nodeOrder nodes edges rows counts

/-- The curves of a graph of at least two nodes, in which each protocol has an edge. -/
theorem expands (edgeOrder edgeOrder' : SetOrder (String × String)) (nodeOrder nodeOrder' : SetOrder String)
    (nodes : List String) (edges : List ConnectivityEdge) (hn : nodes.Nodup) (h2 : 2 ≤ nodes.length)
    (hw : ∀ edge ∈ edges, edge.src ∈ nodes ∧ edge.dst ∈ nodes)
    (hall : ∀ protocol, ∃ edge ∈ edges, edge.carrier = protocol) :
    Expands edgeOrder edgeOrder' nodeOrder nodeOrder' nodes edges := by
  have hnonempty (protocol : BridgeProtocol) : (originalEdges edges protocol).Nonempty :=
    originalEdges_nonempty (hall protocol)
  have hwithin (protocol : BridgeProtocol) : WithinNodes nodes (originalEdges edges protocol) :=
    within_originalEdges hw protocol
  refine ⟨fun protocol => largestScc_ok edgeOrder (hnonempty protocol), fun protocol => ?_, ?_⟩
  · obtain ⟨closure, hclosure, hc⟩ := protocolClosure_ok edgeOrder hn (hwithin protocol)
    exact ⟨closure, hclosure, fun added hadded => hc.addAll hn hadded⟩
  · obtain ⟨rows, hrows, hmem⟩ := protocolExpansionCurves_ok edgeOrder nodeOrder hn h2 hw hall
    obtain ⟨countss, hcountss, hrel⟩ := exists_mapM_eq_ok fun protocol (_ : protocol ∈ PROTOCOLS) =>
      referenceCounts_ok edgeOrder' nodeOrder' hn (hwithin protocol) (hnonempty protocol)
    have hcounts (key : CurveKey) (v : Int) {e : Expansion} (he : IsExpansion nodes edges key.1 e) :
        (key, v) ∈ countss.flatten ↔ key.2.2 ≤ e.order.length ∧ v = e.pairsAt nodes key.2.1 key.2.2 := by
      rw [List.mem_flatten]
      constructor
      · rintro ⟨counts, hc, hv⟩
        obtain ⟨protocol, -, e', he', hiff⟩ := Table.forall₂_left hrel hc
        obtain ⟨rfl, hle, rfl⟩ := (hiff key v).mp hv
        exact ⟨he'.order_length he ▸ hle, (he.pairsAt_eq he' _ _)⟩
      · rintro ⟨hle, rfl⟩
        obtain ⟨counts, hc, e', he', hiff⟩ := Table.forall₂_right hrel (mem_PROTOCOLS key.1)
        exact ⟨counts, hc, (hiff key _).mpr ⟨rfl, he.order_length he' ▸ hle, (he.pairsAt_eq he' _ _).symm⟩⟩
    -- each row is that of a step, with the closed form as its pairs
    have hrow {row : CurveRow} (hr : row ∈ rows) :
        ∃ e, expansionOf edgeOrder nodeOrder nodes edges row.protocol = .ok e ∧
        IsExpansion nodes edges row.protocol e ∧ row.addedNodes ≤ e.order.length ∧
        row.addedNodePrefix = e.order.take row.addedNodes ∧
        pairsOver nodes (e.extended row.scenario row.addedNodes) = row.reachablePairs ∧
        row.reachablePairs = e.pairsAt nodes row.scenario row.addedNodes := by
      obtain ⟨protocol, e, scenario, he, step, hstep, closure, hc, hrow⟩ := (hmem row).mp hr
      obtain ⟨e₀, he₀, hexp⟩ := expansionOf_ok edgeOrder nodeOrder nodes (hnonempty protocol)
      obtain rfl := Except.ok.inj (he.symm.trans he₀)
      obtain ⟨hp, rfl, rfl, hprefix, hpairs⟩ := Expansion.row_eq_ok hrow
      rw [hexp.protocol_eq] at hp
      subst hp
      rw [hc.pairs hn] at hpairs
      exact ⟨e, he, hexp, hstep, hprefix, hpairs.symm, hpairs.trans (hexp.pairsOver_extended (hwithin _) hstep)⟩
    refine ⟨rows, countss.flatten, hrows, bind_eq_ok.mpr ⟨countss, hcountss, rfl⟩, fun protocol scenario => ?_,
      fun row hr => ?_, fun row row' hr hr' hp hs => ?_⟩
    · obtain ⟨e, he, hexp⟩ := expansionOf_ok edgeOrder nodeOrder nodes (hnonempty protocol)
      refine ⟨e, he, fun step hstep => ?_⟩
      obtain ⟨closure, hc⟩ : ∃ closure, IsProtocolClosure nodes (e.extended scenario step) closure := by
        obtain ⟨closure₀, -, hc₀⟩ := protocolClosure_ok edgeOrder hn (hwithin protocol)
        obtain ⟨closure, -, hc⟩ := hc₀.addAll hn ((hexp.attaches (hwithin protocol) step).mem_nodes scenario)
        rw [← hexp.original_eq] at hc
        exact ⟨closure, hc⟩
      obtain ⟨_, row, -, -, hrow⟩ := Expansion.advance_ok hn h2 hexp (hwithin protocol) hc []
      obtain ⟨_, -, hrow'⟩ := id hrow
      obtain ⟨hp, hs, hk, -⟩ := Expansion.row_eq_ok hrow'
      exact ⟨row, (hmem row).mpr ⟨protocol, e, scenario, he, step, hstep, hrow⟩, hp.trans hexp.protocol_eq, hs, hk⟩
    · obtain ⟨e, he, hexp, hstep, hprefix, hpairs, hform⟩ := hrow hr
      refine ⟨e, he, hstep, hprefix, ?_, fun v => ?_⟩
      · rw [← hpairs]
        refine referenceProtocolPairs_eq hn fun edge hedge => ?_
        obtain hedge | hedge := Finset.mem_union.mp hedge
        · exact hwithin _ edge (hexp.original_eq ▸ hedge)
        · exact (hexp.attaches (hwithin _) row.addedNodes).mem_nodes row.scenario edge (List.mem_toFinset.mp hedge)
      · rw [hcounts _ v hexp, hform]
        exact ⟨And.right, fun hv => ⟨hstep, hv⟩⟩
    · obtain ⟨e, he, hexp, -, -, -, hform⟩ := hrow hr
      obtain ⟨e', he', -, -, -, -, hform'⟩ := hrow hr'
      rw [← hp] at he'
      obtain rfl := Except.ok.inj (he.symm.trans he')
      rw [hform, hform', ← hs]
      constructor
      · intro ho hc
        rw [ho, hc]
        rfl
      · intro hc hcons
        rw [hcons]
        exact closedForm_conservative_le _ (Int.natCast_nonneg _) _

/-- Some order of each set. -/
noncomputable def SetOrder.some (α : Type) : SetOrder α :=
  ⟨Finset.toList, fun _ _ => Finset.mem_toList, Finset.nodup_toList⟩

/-- The same edges for each protocol. -/
def sameEdges (ends : List (String × String)) : List ConnectivityEdge :=
  PROTOCOLS.flatMap fun protocol => ends.map fun edge => ⟨edge.1, edge.2, protocol, 10⟩

theorem expands_threeNodes :
    Expands (.some _) (.some _) (.some _) (.some _) ["a", "b", "c"] (sameEdges [("a", "b"), ("b", "a")]) := by
  refine expands _ _ _ _ _ _ (by decide) (by decide) (by decide) fun protocol => ?_
  cases protocol <;> decide

/-- Where there are curves there is not exactly one node. -/
theorem length_ne_one_of_curves {edgeOrder : SetOrder (String × String)} {nodeOrder : SetOrder String}
    {rows : List CurveRow} (h : protocolExpansionCurves edgeOrder nodeOrder nodes edges = .ok rows) :
    nodes.length ≠ 1 := by
  obtain ⟨rowss, hrowss, -⟩ := bind_eq_ok.mp h
  obtain ⟨rows, hprotocol, -⟩ := mapM_cons_eq_ok.mp hrowss
  obtain ⟨e, -, hrows⟩ := bind_eq_ok.mp hprotocol
  obtain ⟨rowss', hscenarios, -⟩ := bind_eq_ok.mp hrows
  obtain ⟨rows', hscenario, -⟩ := mapM_cons_eq_ok.mp hscenarios
  obtain ⟨closure, -, hfold⟩ := bind_eq_ok.mp hscenario
  obtain ⟨s, hfold, -⟩ := bind_eq_ok.mp hfold
  rw [List.range_succ_eq_map] at hfold
  obtain ⟨s', hadvance, -⟩ := foldlM_cons_eq_ok.mp hfold
  obtain ⟨row, hrow, -⟩ := bind_eq_ok.mp hadvance
  obtain ⟨hdenominator, -⟩ := revertIf_bind.mp hrow
  intro hlength
  rw [hlength] at hdenominator
  exact hdenominator rfl

theorem toList_singleton {α : Type} (a : α) : (SetOrder.some α).toList {a} = [a] := Finset.toList_singleton a

/-- One node makes the denominator of the rates zero, a node that is listed twice has two rows in the closure,
and the end of an edge that is not listed has none. -/
theorem not_expands : ¬ Expands (.some _) (.some _) (.some _) (.some _) ["d"] (sameEdges [("d", "d")]) ∧
    ¬ Expands (.some _) (.some _) (.some _) (.some _) ["a", "a", "b"] (sameEdges [("a", "b")]) ∧
    ¬ Expands (.some _) (.some _) (.some _) (.some _) ["a"] (sameEdges [("a", "b")]) := by
  have hedges : originalEdges (sameEdges [("a", "b")]) .axelar = {("a", "b")} := by decide
  refine ⟨fun h => ?_, fun h => ?_, fun h => ?_⟩
  · obtain ⟨rows, -, hrows, -⟩ := h.curves
    exact length_ne_one_of_curves hrows rfl
  · obtain ⟨closure, hclosure, hadd⟩ := h.closure .axelar
    obtain ⟨closure', hfold, hc⟩ := hadd [] (by simp)
    obtain rfl := Except.ok.inj hfold
    rw [hedges, protocolClosure, protocolAdjacency, toList_singleton] at hclosure
    obtain rfl : [1, 6, 4] = closure := Except.ok.inj hclosure
    have hbit := (hc.bit "a" (by decide) 2).mpr ⟨"b", .single (by rw [hedges]; decide), by decide, by decide⟩
    exact absurd (show Nat.testBit 1 2 = true from hbit) (by decide)
  · obtain ⟨closure, hclosure, -⟩ := h.closure .axelar
    rw [hedges, protocolClosure, protocolAdjacency, toList_singleton] at hclosure
    cases hclosure

end Xir.Impl.XirLab
