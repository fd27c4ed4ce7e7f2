import Mathlib.Algebra.Order.Ring.Int
import Mathlib.Data.List.Nodup
import Xir.Proof.GatewayClosure

/-!
# The pairs that gateways connect

A state of the closure is the number of a protocol and a node. `Hop` is the
expanded graph on protocols and nodes. The closure, and the two functions that
it is compared with, count the pairs of nodes that it connects.
-/

namespace Xir.Impl.XirLab

variable {g : FrozenConnectivity} {gateways : Finset String}

/-- The edges of the frozen graph, and the switches between protocols at gateways. -/
inductive Hop (g : FrozenConnectivity) (gateways : Finset String) : CarrierNode → CarrierNode → Prop
  | native {e : ConnectivityEdge} : e ∈ g.edges → Hop g gateways (e.carrier, e.src) (e.carrier, e.dst)
  | switch {p q : BridgeProtocol} {x : String} : x ∈ gateways → p ≠ q → Hop g gateways (p, x) (q, x)

abbrev Reaches (g : FrozenConnectivity) (gateways : Finset String) : CarrierNode → CarrierNode → Prop :=
  Relation.ReflTransGen (Hop g gateways)

theorem Hop.mem {a b : CarrierNode} (h : Hop g gateways a b) (ha : a.2 ∈ g.nodes) : b.2 ∈ g.nodes := by
  cases h with
  | native he => exact g.dst_mem _ he
  | switch => exact ha

theorem Reaches.mem {a b : CarrierNode} (h : Reaches g gateways a b) (ha : a.2 ∈ g.nodes) : b.2 ∈ g.nodes := by
  induction h with
  | refl => exact ha
  | tail _ hstep ih => exact hstep.mem ih

/-! ## The numbers of the states -/

theorem mem_PROTOCOLS (p : BridgeProtocol) : p ∈ PROTOCOLS := by cases p <;> decide

theorem idxOf_lt_PROTOCOLS (p : BridgeProtocol) : PROTOCOLS.idxOf p < PROTOCOLS.length :=
  List.idxOf_lt_length_iff.mpr (mem_PROTOCOLS p)

/-- The number of a state. -/
def stateOf (g : FrozenConnectivity) (a : CarrierNode) : Nat := PROTOCOLS.idxOf a.1 * g.nodes.length + g.nodes.idxOf a.2

theorem stateOf_lt {a : CarrierNode} (ha : a.2 ∈ g.nodes) : stateOf g a < g.nodes.length * PROTOCOLS.length := by
  have hx := List.idxOf_lt_length_iff.mpr ha
  calc stateOf g a < PROTOCOLS.idxOf a.1 * g.nodes.length + g.nodes.length := Nat.add_lt_add_left hx _
    _ = (PROTOCOLS.idxOf a.1 + 1) * g.nodes.length := (Nat.succ_mul _ _).symm
    _ ≤ PROTOCOLS.length * g.nodes.length := Nat.mul_le_mul_right _ (idxOf_lt_PROTOCOLS a.1)
    _ = g.nodes.length * PROTOCOLS.length := Nat.mul_comm _ _

theorem stateOf_div {a : CarrierNode} (ha : a.2 ∈ g.nodes) : stateOf g a / g.nodes.length = PROTOCOLS.idxOf a.1 := by
  have hx := List.idxOf_lt_length_iff.mpr ha
  rw [stateOf, Nat.mul_comm, Nat.mul_add_div (Nat.zero_lt_of_lt hx), Nat.div_eq_of_lt hx, Nat.add_zero]

theorem stateOf_mod {a : CarrierNode} (ha : a.2 ∈ g.nodes) : stateOf g a % g.nodes.length = g.nodes.idxOf a.2 := by
  have hx := List.idxOf_lt_length_iff.mpr ha
  rw [stateOf, Nat.mul_comm, Nat.mul_add_mod, Nat.mod_eq_of_lt hx]

theorem stateOf_inj {a b : CarrierNode} (ha : a.2 ∈ g.nodes) (hb : b.2 ∈ g.nodes)
    (h : stateOf g a = stateOf g b) : a = b := by
  refine Prod.ext ?_ ?_
  · rw [← List.idxOf_inj (mem_PROTOCOLS a.1), ← stateOf_div ha, h, stateOf_div hb]
  · rw [← List.idxOf_inj ha, ← stateOf_mod ha, h, stateOf_mod hb]

/-- Every number of a state is that of a protocol and a node. -/
theorem exists_stateOf {s : Nat} (hs : s < g.nodes.length * PROTOCOLS.length) :
    ∃ a : CarrierNode, a.2 ∈ g.nodes ∧ stateOf g a = s := by
  have hn : 0 < g.nodes.length := Nat.pos_of_lt_mul_right hs
  have hp : s / g.nodes.length < PROTOCOLS.length := Nat.div_lt_of_lt_mul hs
  have hi := Nat.mod_lt s hn
  refine ⟨(PROTOCOLS[s / g.nodes.length], g.nodes[s % g.nodes.length]), List.getElem_mem _, ?_⟩
  rw [stateOf, List.Nodup.idxOf_getElem (by decide) _ hp, g.nodup.idxOf_getElem _ hi]
  exact Nat.div_add_mod' s g.nodes.length

namespace GatewayReachability

variable {m : GatewayReachability}

/-- What `__init__` makes of a graph. -/
structure Built (g : FrozenConnectivity) (m : GatewayReachability) : Prop where
  nodes : m.nodes = g.nodes
  native (s t : Nat) : m.Native s t ↔ ∃ e ∈ g.edges, s = stateOf g (e.carrier, e.src) ∧ t = stateOf g (e.carrier, e.dst)
  rows : m.Rows [] m.baseClosure

theorem mem_nativeRows (g : FrozenConnectivity) (s t : Nat) : t ∈ (nativeRows g).getD s [] ↔
    ∃ e ∈ g.edges, s = stateOf g (e.carrier, e.src) ∧ t = stateOf g (e.carrier, e.dst) := by
  by_cases hs : s < g.nodes.length * PROTOCOLS.length
  · rw [nativeRows, List.getD_eq_getElem _ _ (by simpa using hs), List.getElem_map, List.getElem_range, Finset.mem_sort,
      List.mem_toFinset, List.mem_map]
    simp only [List.mem_filter, decide_eq_true_eq, links, List.mem_map]
    constructor
    · rintro ⟨_, ⟨⟨e, he, rfl⟩, hs⟩, rfl⟩
      exact ⟨e, he, hs.symm, rfl⟩
    · rintro ⟨e, he, rfl, rfl⟩
      exact ⟨_, ⟨⟨e, he, rfl⟩, rfl⟩, rfl⟩
  · rw [List.getD_eq_default _ _ (by simpa [nativeRows] using hs)]
    constructor
    · exact fun h => absurd h List.not_mem_nil
    · rintro ⟨e, he, rfl, -⟩
      exact absurd (stateOf_lt (g.src_mem e he)) hs

theorem init_ok (g : FrozenConnectivity) : ∃ m, init g = .ok m ∧ Built g m := by
  let N (s t : Nat) : Prop := t ∈ (nativeRows g).getD s []
  have hN (s t : Nat) (h : N s t) : t < g.nodes.length * PROTOCOLS.length := by
    obtain ⟨e, he, -, rfl⟩ := (mem_nativeRows g s t).mp h
    exact stateOf_lt (g.dst_mem e he)
  obtain ⟨base, hbase, hlen, hbit⟩ := searchRows_ok (fun current => (nativeRows g).getD current []) hN
  refine ⟨⟨g.nodes, nativeRows g, base⟩, bind_eq_ok.mpr ⟨base, hbase, rfl⟩, rfl, mem_nativeRows g, hlen, ?_, ?_, ?_⟩
  · exact fun hs => (hbit _ _ hs).mpr .refl
  · exact fun hs hb hn => (hbit _ _ hs).mpr (((hbit _ _ hs).mp hb).tail hn)
  · exact fun hs hb => Relation.ReflTransGen.mono (fun _ _ h => .inl h) _ _ ((hbit _ _ hs).mp hb)

/-! ## The closure of a set of gateways -/

/-- The indices of the gateways, in the order of their names. -/
def indicesOf (g : FrozenConnectivity) (gateways : Finset String) : List Nat := (sortedNames gateways).map g.nodes.idxOf

theorem mem_indicesOf {i : Nat} : i ∈ indicesOf g gateways ↔ ∃ x ∈ gateways, g.nodes.idxOf x = i := by
  simp only [indicesOf, List.mem_map, Finset.mem_sort]

theorem Built.nodeIndex (hb : Built g m) {x : String} (hx : x ∈ g.nodes) : m.nodeIndex x = .ok (g.nodes.idxOf x) := by
  rw [GatewayReachability.nodeIndex, hb.nodes, orRevert_eq_ok]
  have hlt := List.idxOf_lt_length_iff.mpr hx
  cases h : g.nodes.idxOf? x with
  | none => exact absurd hx (List.idxOf?_eq_none_iff.mp h)
  | some i => rw [List.idxOf_eq_getD_idxOf?, h]; rfl

theorem Built.gatewayIndices (hb : Built g m) (hg : ∀ x ∈ gateways, x ∈ g.nodes) :
    m.gatewayIndices gateways = .ok (indicesOf g gateways) :=
  mapM_eq_ok_of_forall fun _ hx => hb.nodeIndex (hg _ ((Finset.mem_sort _).mp hx))

theorem Built.stateCount (hb : Built g m) : m.stateCount = g.nodes.length * PROTOCOLS.length := by
  rw [GatewayReachability.stateCount, nodeCount, hb.nodes]

theorem Built.mem_statesOf (hb : Built g m) {x : String} {s : Nat} :
    s ∈ m.statesOf (g.nodes.idxOf x) ↔ ∃ p, s = stateOf g (p, x) := by
  rw [statesOf, List.mem_map, nodeCount, hb.nodes]
  constructor
  · rintro ⟨k, hk, rfl⟩
    have hk := List.mem_range.mp hk
    refine ⟨PROTOCOLS[k], ?_⟩
    rw [stateOf, List.Nodup.idxOf_getElem (by decide) _ hk]
  · rintro ⟨p, rfl⟩
    exact ⟨_, List.mem_range.mpr (idxOf_lt_PROTOCOLS p), rfl⟩

theorem Built.bounded (hb : Built g m) (hg : ∀ x ∈ gateways, x ∈ g.nodes) : m.Bounded (indicesOf g gateways) := by
  refine ⟨fun s t h => ?_, fun i hi => ?_⟩
  · obtain ⟨e, he, -, rfl⟩ := (hb.native s t).mp h
    rw [hb.stateCount]
    exact stateOf_lt (g.dst_mem e he)
  · obtain ⟨x, hx, rfl⟩ := mem_indicesOf.mp hi
    rw [nodeCount, hb.nodes]
    exact List.idxOf_lt_length_iff.mpr (hg x hx)

/-- The edges of the expanded graph are the hops. -/
theorem Built.expanded_iff (hb : Built g m) (hg : ∀ x ∈ gateways, x ∈ g.nodes) {a : CarrierNode}
    (ha : a.2 ∈ g.nodes) {t : Nat} :
    m.Expanded (indicesOf g gateways) (stateOf g a) t ↔ ∃ b, Hop g gateways a b ∧ t = stateOf g b := by
  constructor
  · rintro (h | ⟨i, hi, hs, ht, hne⟩)
    · obtain ⟨e, he, hs, rfl⟩ := (hb.native _ _).mp h
      obtain rfl := stateOf_inj ha (g.src_mem e he) hs
      exact ⟨_, .native he, rfl⟩
    · obtain ⟨x, hx, rfl⟩ := mem_indicesOf.mp hi
      obtain ⟨p, hs⟩ := hb.mem_statesOf.mp hs
      obtain ⟨q, rfl⟩ := hb.mem_statesOf.mp ht
      obtain rfl := stateOf_inj ha (hg x hx) hs
      exact ⟨_, .switch hx fun hpq => hne (hpq ▸ rfl), rfl⟩
  · rintro ⟨b, hop, rfl⟩
    cases hop with
    | native he => exact .inl ((hb.native _ _).mpr ⟨_, he, rfl, rfl⟩)
    | @switch p q x hx hpq =>
      refine .inr ⟨_, mem_indicesOf.mpr ⟨x, hx, rfl⟩, hb.mem_statesOf.mpr ⟨p, rfl⟩, hb.mem_statesOf.mpr ⟨q, rfl⟩, ?_⟩
      intro h
      exact hpq (congrArg Prod.fst (stateOf_inj (a := (q, x)) (b := (p, x)) (hg x hx) (hg x hx) h)).symm

theorem Built.reach_iff (hb : Built g m) (hg : ∀ x ∈ gateways, x ∈ g.nodes) {a : CarrierNode}
    (ha : a.2 ∈ g.nodes) {t : Nat} :
    m.Reach (indicesOf g gateways) (stateOf g a) t ↔ ∃ b, Reaches g gateways a b ∧ t = stateOf g b := by
  have hmap := reflTransGen_map (fun a ha t => hb.expanded_iff hg ha) (fun a b (ha : a.2 ∈ g.nodes) h => h.mem ha) ha t
  exact hmap.trans ⟨fun ⟨b, h, _, ht⟩ => ⟨b, h, ht⟩, fun ⟨b, h, ht⟩ => ⟨b, h, Reaches.mem h ha, ht⟩⟩

/-- The closure of a set of gateways. -/
structure IsClosure (g : FrozenConnectivity) (m : GatewayReachability) (gateways : Finset String)
    (closure : List Nat) : Prop where
  rows : m.Rows (indicesOf g gateways) closure
  closed : m.Closed (indicesOf g gateways) closure

variable {closure : List Nat}

/-- The bits of the closure are what the states reach. -/
theorem IsClosure.bit_iff (h : IsClosure g m gateways closure) (hb : Built g m) (hg : ∀ x ∈ gateways, x ∈ g.nodes)
    {a : CarrierNode} (ha : a.2 ∈ g.nodes) {t : Nat} :
    Bit closure (stateOf g a) t ↔ ∃ b, Reaches g gateways a b ∧ t = stateOf g b := by
  rw [h.rows.closed (hb.bounded hg) h.closed (by rw [hb.stateCount]; exact stateOf_lt ha), hb.reach_iff hg ha]

theorem IsClosure.eq (h : IsClosure g m gateways closure) {closure' : List Nat} (h' : IsClosure g m gateways closure')
    (hb : Built g m) (hg : ∀ x ∈ gateways, x ∈ g.nodes) : closure = closure' := by
  refine h.rows.ext h'.rows fun s hs t => ?_
  rw [h.rows.closed (hb.bounded hg) h.closed hs, h'.rows.closed (hb.bounded hg) h'.closed hs]

/-- Closing over more gateways, from the closure of some of them. -/
theorem IsClosure.closeGateways {selected : Finset String} (h : IsClosure g m selected closure) (hb : Built g m)
    (hg : ∀ x ∈ gateways, x ∈ g.nodes) (hsub : selected ⊆ gateways) :
    ∃ closure', m.closeGateways closure (indicesOf g gateways) = .ok closure' ∧ IsClosure g m gateways closure' := by
  have hrows : m.Rows (indicesOf g gateways) closure := by
    refine h.rows.mono fun i hi => ?_
    obtain ⟨x, hx, rfl⟩ := mem_indicesOf.mp hi
    exact mem_indicesOf.mpr ⟨x, hsub hx, rfl⟩
  obtain ⟨closure', hc, hrows', hclosed⟩ := hrows.closeGateways (hb.bounded hg)
  exact ⟨closure', hc, hrows', hclosed⟩

theorem Built.isClosure_base (hb : Built g m) : IsClosure g m ∅ m.baseClosure := by
  have hn : indicesOf g ∅ = [] := by simp [indicesOf]
  exact ⟨hn ▸ hb.rows, fun i hi => by rw [hn] at hi; exact absurd hi List.not_mem_nil⟩

theorem Built.closure_ok (hb : Built g m) (hg : ∀ x ∈ gateways, x ∈ g.nodes) :
    ∃ closure, m.closure gateways = .ok closure ∧ IsClosure g m gateways closure := by
  obtain ⟨closure, hc, h⟩ := hb.isClosure_base.closeGateways hb hg (Finset.empty_subset _)
  exact ⟨closure, bind_eq_ok.mpr ⟨_, hb.gatewayIndices hg, hc⟩, h⟩

/-! ## Pairs -/

/-- The second node is reached from some state of the first. -/
def Connected (g : FrozenConnectivity) (gateways : Finset String) (x y : String) : Prop :=
  ∃ p q, Reaches g gateways (p, x) (q, y)

open Classical in
/-- The nodes that are reached from some state of a node. -/
noncomputable def connectedTo (g : FrozenConnectivity) (gateways : Finset String) (x : String) : Finset String :=
  g.nodes.toFinset.filter (Connected g gateways x)

theorem mem_connectedTo {x y : String} (hx : x ∈ g.nodes) :
    y ∈ connectedTo g gateways x ↔ Connected g gateways x y := by
  classical
  rw [connectedTo, Finset.mem_filter, List.mem_toFinset]
  exact ⟨And.right, fun h => ⟨h.elim fun p h => h.elim fun q h => h.mem hx, h⟩⟩

/-- The number of ordered pairs of different nodes that are connected. -/
noncomputable def pairCount (g : FrozenConnectivity) (gateways : Finset String) : Int :=
  (g.nodes.map fun x => ((connectedTo g gateways x).card : Int) - 1).sum

theorem IsClosure.networks (h : IsClosure g m gateways closure) (hb : Built g m) (hg : ∀ x ∈ gateways, x ∈ g.nodes)
    {x : String} (hx : x ∈ g.nodes) {j : Nat} :
    (m.networks closure (g.nodes.idxOf x)).testBit j = true ↔ ∃ y, Connected g gateways x y ∧ j = g.nodes.idxOf y := by
  have hn : m.nodeCount = g.nodes.length := by rw [nodeCount, hb.nodes]
  -- the states that are reached from any state of the node
  have hstates (t : Nat) :
      ((m.statesOf (g.nodes.idxOf x)).foldl (fun states state => states ||| closure.getD state 0) 0).testBit t = true ↔
      ∃ p b, Reaches g gateways (p, x) b ∧ t = stateOf g b := by
    rw [testBit_foldl_or, Nat.zero_testBit]
    simp only [Bool.false_eq_true, false_or, hb.mem_statesOf]
    constructor
    · rintro ⟨_, ⟨p, rfl⟩, ht⟩
      exact ⟨p, (h.bit_iff hb hg (a := (p, x)) hx).mp ht⟩
    · rintro ⟨p, ht⟩
      exact ⟨_, ⟨p, rfl⟩, (h.bit_iff hb hg (a := (p, x)) hx).mpr ht⟩
  rw [GatewayReachability.networks, testBit_foldl_or, Nat.zero_testBit]
  simp only [Bool.false_eq_true, false_or, networkMask, testBit_shiftRight_and_mask, hstates, List.mem_range, hn]
  constructor
  · rintro ⟨k, hk, hj, p, ⟨q, y⟩, hr, heq⟩
    have hy : y ∈ g.nodes := hr.mem hx
    have hmod := stateOf_mod (a := (q, y)) hy
    rw [← heq, Nat.mul_comm, Nat.mul_add_mod, Nat.mod_eq_of_lt hj] at hmod
    exact ⟨y, ⟨p, q, hr⟩, hmod⟩
  · rintro ⟨y, ⟨p, q, hr⟩, rfl⟩
    have hy : y ∈ g.nodes := hr.mem hx
    exact ⟨PROTOCOLS.idxOf q, idxOf_lt_PROTOCOLS q, List.idxOf_lt_length_iff.mpr hy, p, (q, y), hr, rfl⟩

theorem connectedTo_subset {x y : String} (hy : y ∈ connectedTo g gateways x) : y ∈ g.nodes := by
  classical
  rw [connectedTo, Finset.mem_filter, List.mem_toFinset] at hy
  exact hy.1

theorem IsClosure.bitCount_networks (h : IsClosure g m gateways closure) (hb : Built g m)
    (hg : ∀ x ∈ gateways, x ∈ g.nodes) {x : String} (hx : x ∈ g.nodes) :
    bitCount (m.networks closure (g.nodes.idxOf x)) = (connectedTo g gateways x).card := by
  rw [← Finset.card_image_of_injOn
    (f := g.nodes.idxOf) fun y hy z _ hyz => (List.idxOf_inj (connectedTo_subset hy)).mp hyz]
  refine bitCount_eq_card fun j => ?_
  rw [h.networks hb hg hx, Finset.mem_image]
  simp only [mem_connectedTo hx, eq_comm]

theorem foldl_add {α : Type} (f : α → Int) (xs : List α) (a : Int) :
    xs.foldl (fun total x => total + f x) a = a + (xs.map f).sum := by
  induction xs generalizing a with
  | nil => simp
  | cons x xs ih => rw [List.foldl_cons, ih, List.map_cons, List.sum_cons, Int.add_assoc]

/-- What is done for each index of a node, and what for each node. -/
theorem map_range_idxOf {α : Type} (g : FrozenConnectivity) {f : Nat → α} {f' : String → α}
    (h : ∀ x ∈ g.nodes, f (g.nodes.idxOf x) = f' x) : (List.range g.nodes.length).map f = g.nodes.map f' := by
  refine List.ext_getElem (by simp) fun i hi _ => ?_
  have hi : i < g.nodes.length := by simpa using hi
  rw [List.getElem_map, List.getElem_range, List.getElem_map, ← h _ (List.getElem_mem hi), g.nodup.idxOf_getElem i hi]

theorem IsClosure.reachablePairs (h : IsClosure g m gateways closure) (hb : Built g m)
    (hg : ∀ x ∈ gateways, x ∈ g.nodes) :
    m.reachablePairs closure = pairCount g gateways := by
  rw [GatewayReachability.reachablePairs, foldl_add, Int.zero_add, nodeCount, hb.nodes]
  refine congrArg List.sum (map_range_idxOf g fun x hx => ?_)
  rw [h.bitCount_networks hb hg hx]

end GatewayReachability

end Xir.Impl.XirLab
