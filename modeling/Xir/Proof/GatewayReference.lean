import Mathlib.Algebra.BigOperators.Group.Finset.Basic
import Mathlib.Algebra.BigOperators.Ring.Finset
import Mathlib.Algebra.Order.BigOperators.Group.List
import Xir.Proof.GatewayPairs

/-!
# The reference counts

The plain searches, which `GatewayReachability` is compared with, count the
same pairs: `_reference_gateway_pairs` by a search of the expanded graph, and
`_reference_gateway_pair_set` by going on from reached gateways over each protocol.
-/

namespace Xir.Impl.XirLab

variable {g : FrozenConnectivity} {gateways : Finset String}

open GatewayReachability

/-! ## The search of the expanded graph -/

theorem mem_referenceAdjacency {a b : CarrierNode} : b ∈ referenceAdjacency g gateways a ↔ Hop g gateways a b := by
  rw [referenceAdjacency, List.mem_mergeSort, List.mem_dedup, List.mem_append]
  constructor
  · rintro (h | h)
    · obtain ⟨e, he, rfl⟩ := List.mem_map.mp h
      rw [List.mem_filter, decide_eq_true_iff] at he
      obtain ⟨he, rfl⟩ := he
      exact .native he
    · split at h
      · obtain ⟨q, hq, rfl⟩ := List.mem_map.mp h
        rw [List.mem_filter, decide_eq_true_iff] at hq
        exact .switch ‹_› (Ne.symm hq.2)
      · exact absurd h List.not_mem_nil
  · intro h
    cases h with
    | @native e he => exact .inl (List.mem_map.mpr ⟨e, List.mem_filter.mpr ⟨he, decide_eq_true rfl⟩, rfl⟩)
    | @switch p q x hx hpq =>
      refine .inr ?_
      rw [if_pos hx]
      exact List.mem_map.mpr ⟨q, List.mem_filter.mpr ⟨mem_PROTOCOLS q, decide_eq_true (Ne.symm hpq)⟩, rfl⟩

theorem edge_referenceAdjacency :
    Search.Edge (setMarker CarrierNode) (referenceAdjacency g gateways) = Hop g gateways := by
  funext a b
  refine propext ⟨?_, fun h => ⟨b, mem_referenceAdjacency.mpr h, rfl⟩⟩
  rintro ⟨e, he, rfl⟩
  exact mem_referenceAdjacency.mp he

theorem nodup_PROTOCOLS : PROTOCOLS.Nodup := by decide

/-- The search from the states of a node. -/
theorem run_referenceAdjacency (gateways : Finset String) {source : String} (hsource : source ∈ g.nodes)
    {roots : List CarrierNode} (hroots : roots = PROTOCOLS.map fun protocol => (protocol, source)) :
    ∃ visited,
      Search.run (setMarker CarrierNode) (referenceAdjacency g gateways)
      (fun queue destination => queue ++ [destination])
        (PROTOCOLS.length * g.nodes.length) roots.toFinset (roots.mergeSort carrierNodeLE) = some visited ∧
      ∀ a, a ∈ visited ↔ ∃ p, Reaches g gateways (p, source) a := by
  obtain ⟨nodes, hnodes, hcard⟩ : ∃ nodes : Finset CarrierNode, (∀ a, a ∈ nodes ↔ a.2 ∈ g.nodes) ∧
      nodes.card = PROTOCOLS.length * g.nodes.length := by
    refine ⟨PROTOCOLS.toFinset ×ˢ g.nodes.toFinset, fun a => ?_, ?_⟩
    · rw [Finset.mem_product, List.mem_toFinset, List.mem_toFinset]
      exact and_iff_right (mem_PROTOCOLS a.1)
    · rw [Finset.card_product, List.toFinset_card_of_nodup nodup_PROTOCOLS, List.toFinset_card_of_nodup g.nodup]
  have hmem (a : CarrierNode) : a ∈ roots.mergeSort carrierNodeLE ↔ ∃ p, a = (p, source) := by
    rw [List.mem_mergeSort, hroots, List.mem_map]
    exact ⟨fun ⟨p, _, h⟩ => ⟨p, h.symm⟩, fun ⟨p, h⟩ => ⟨p, mem_PROTOCOLS p, h.symm⟩⟩
  have hseen (a : CarrierNode) :
      (setMarker CarrierNode).seen roots.toFinset a = true ↔ a ∈ roots.mergeSort carrierNodeLE := by
    rw [setMarker_seen, List.mem_toFinset, List.mem_mergeSort]
  have hstart :
      ∀ a ∈ roots.mergeSort carrierNodeLE, a ∈ nodes ∧ (setMarker CarrierNode).seen roots.toFinset a = true := by
    intro a ha
    obtain ⟨p, rfl⟩ := (hmem a).mp ha
    exact ⟨(hnodes _).mpr hsource, (hseen _).mpr ha⟩
  have hdup : (roots.mergeSort carrierNodeLE).Nodup := by
    rw [(List.mergeSort_perm _ _).nodup_iff, hroots]
    exact nodup_PROTOCOLS.map fun p q h => congrArg Prod.fst h
  have hclosed : ∀ a ∈ nodes, ∀ b ∈ referenceAdjacency g gateways a, b ∈ nodes := fun a ha b hb =>
    (hnodes b).mpr ((mem_referenceAdjacency.mp hb).mem ((hnodes a).mp ha))
  have hwork : Search.work (setMarker CarrierNode) nodes (roots.toFinset, roots.mergeSort carrierNodeLE) ≤
      PROTOCOLS.length * g.nodes.length := (Search.work_le hdup hstart).trans_eq hcard
  have hkeeps : Search.Keeps (setMarker CarrierNode) (referenceAdjacency g gateways) fun _ => True :=
    ⟨fun _ _ _ _ => trivial⟩
  obtain ⟨visited, hrun, -, hmarked⟩ := Search.run_spec nodes Search.Pushes.queue hclosed hstart hwork hkeeps trivial
  refine ⟨visited, hrun, fun a => ?_⟩
  rw [← setMarker_seen, hmarked, Search.exists_fresh_iff hseen, edge_referenceAdjacency]
  constructor
  · rintro ⟨r, hr, h⟩
    obtain ⟨p, rfl⟩ := (hmem r).mp hr
    exact ⟨p, h⟩
  · exact fun ⟨p, h⟩ => ⟨_, (hmem _).mpr ⟨p, rfl⟩, h⟩

theorem referenceGatewayPairs_ok (hg : ∀ x ∈ gateways, x ∈ g.nodes) :
    referenceGatewayPairs g gateways = .ok (pairCount g gateways) := by
  refine revertIf_bind.mpr ⟨fun ⟨x, hx, hn⟩ => hn (hg x hx), ?_⟩
  refine (foldlM_eq_ok_of_forall (g := fun total source => total + (((connectedTo g gateways source).card : Int) - 1))
    ?_ 0).trans ?_
  · intro total source hsource
    obtain ⟨visited, hrun, hvisited⟩ := run_referenceAdjacency gateways hsource rfl
    refine bind_eq_ok.mpr ⟨visited, orRevert_eq_ok.mpr hrun, ?_⟩
    have himage : visited.image Prod.snd = connectedTo g gateways source := by
      ext y
      rw [mem_connectedTo hsource, Finset.mem_image]
      constructor
      · rintro ⟨⟨q, y⟩, ha, rfl⟩
        obtain ⟨p, h⟩ := (hvisited _).mp ha
        exact ⟨p, q, h⟩
      · exact fun ⟨p, q, h⟩ => ⟨(q, y), (hvisited _).mpr ⟨p, h⟩, rfl⟩
    rw [himage]
    rfl
  · rw [foldl_add, Int.zero_add]
    rfl

/-! ## The searches over one protocol -/

/-- The search from one node over a relation that stays among the nodes. -/
theorem referenceVisit_ok (adjacency : String → Finset String) {nodes : List String} (hn : nodes.Nodup)
    (ha : ∀ x ∈ nodes, ∀ y ∈ adjacency x, y ∈ nodes) {source : String} (hsource : source ∈ nodes) :
    ∃ visited, referenceVisit adjacency nodes source = .ok visited ∧
      ∀ y, y ∈ visited ↔ Relation.ReflTransGen (fun a b => b ∈ adjacency a) source y := by
  have hseen (y : String) : (setMarker String).seen {source} y = true ↔ y ∈ [source] := by
    rw [setMarker_seen, Finset.mem_singleton, List.mem_singleton]
  have hstart : ∀ x ∈ [source], x ∈ nodes.toFinset ∧ (setMarker String).seen {source} x = true := by
    intro x hx
    refine ⟨?_, (hseen x).mpr hx⟩
    obtain rfl := List.mem_singleton.mp hx
    exact List.mem_toFinset.mpr hsource
  have hsort (a b : String) : b ∈ (adjacency a).sort (· ≤ ·) ↔ b ∈ adjacency a := Finset.mem_sort _
  have hedge : Search.Edge (setMarker String) (fun current => (adjacency current).sort (· ≤ ·)) =
      fun a b => b ∈ adjacency a := by
    funext a b
    refine propext ⟨?_, fun h => ⟨b, (hsort a b).mpr h, rfl⟩⟩
    rintro ⟨e, he, rfl⟩
    exact (hsort a e).mp he
  obtain ⟨visited, hrun, -, hmarked⟩ := Search.run_spec (J := fun _ => True) nodes.toFinset Search.Pushes.queue
    (fun x hx y hy => List.mem_toFinset.mpr (ha x (List.mem_toFinset.mp hx) y ((hsort x y).mp hy))) hstart
    ((Search.work_le (List.nodup_singleton _) hstart).trans_eq (List.toFinset_card_of_nodup hn))
      ⟨fun _ _ _ _ => trivial⟩ trivial
  refine ⟨visited, orRevert_eq_ok.mpr hrun, fun y => ?_⟩
  rw [← setMarker_seen, hmarked, Search.exists_fresh_iff hseen, hedge]
  exact ⟨fun ⟨x, hx, h⟩ => List.mem_singleton.mp hx ▸ h, fun h => ⟨source, List.mem_singleton_self _, h⟩⟩

theorem mem_protocolEdges {protocol : BridgeProtocol} {a b : String} :
    (a, b) ∈ protocolEdges g protocol ↔ ∃ e ∈ g.edges, e.carrier = protocol ∧ e.src = a ∧ e.dst = b := by
  rw [protocolEdges, List.mem_toFinset, List.mem_map]
  constructor
  · rintro ⟨e, he, h⟩
    rw [List.mem_filter, decide_eq_true_iff] at he
    obtain ⟨rfl, rfl⟩ := Prod.mk.inj h
    exact ⟨e, he.1, he.2, rfl, rfl⟩
  · rintro ⟨e, he, rfl, rfl, rfl⟩
    exact ⟨e, List.mem_filter.mpr ⟨he, decide_eq_true rfl⟩, rfl⟩

theorem mem_neighbours {edges : Finset (String × String)} {a b : String} : b ∈ neighbours edges a ↔ (a, b) ∈ edges := by
  rw [neighbours, Finset.mem_image]
  constructor
  · rintro ⟨⟨x, y⟩, h, rfl⟩
    rw [Finset.mem_filter] at h
    obtain ⟨h, rfl⟩ := h
    exact h
  · exact fun h => ⟨(a, b), Finset.mem_filter.mpr ⟨h, rfl⟩, rfl⟩

/-- An edge of a protocol is a hop without gateways. -/
theorem hop_iff {protocol : BridgeProtocol} {a : String} {b : CarrierNode} :
    Hop g ∅ (protocol, a) b ↔ ∃ y, b = (protocol, y) ∧ (a, y) ∈ protocolEdges g protocol := by
  constructor
  · generalize heq : (protocol, a) = x
    intro h
    cases h with
    | @native e he =>
      obtain ⟨rfl, rfl⟩ := Prod.mk.inj heq
      exact ⟨e.dst, rfl, mem_protocolEdges.mpr ⟨e, he, rfl, rfl, rfl⟩⟩
    | switch hx => exact absurd hx (Finset.notMem_empty _)
  · rintro ⟨y, rfl, h⟩
    obtain ⟨e, he, rfl, rfl, rfl⟩ := mem_protocolEdges.mp h
    exact .native he

/-- Without gateways a path stays on its protocol. -/
theorem reaches_empty {protocol : BridgeProtocol} {x : String} {b : CarrierNode} : Reaches g ∅ (protocol, x) b ↔
    ∃ y, b = (protocol, y) ∧ Relation.ReflTransGen (fun a b => b ∈ neighbours (protocolEdges g protocol) a) x y := by
  constructor
  · intro h
    induction h with
    | refl => exact ⟨x, rfl, .refl⟩
    | tail _ hstep ih =>
      obtain ⟨y, rfl, h⟩ := ih
      obtain ⟨z, rfl, hz⟩ := hop_iff.mp hstep
      exact ⟨z, rfl, h.tail (mem_neighbours.mpr hz)⟩
  · rintro ⟨y, rfl, h⟩
    induction h with
    | refl => exact .refl
    | tail _ hstep ih => exact ih.tail (hop_iff.mpr ⟨_, rfl, mem_neighbours.mp hstep⟩)

/-- The rows say what each node reaches over each protocol. -/
def CarrierRows (g : FrozenConnectivity) (rows : List (CarrierNode × Finset String)) : Prop :=
  ∀ p, ∀ x ∈ g.nodes, ∀ y, y ∈ carrierReached rows p x ↔ Reaches g ∅ (p, x) (p, y)

theorem exists_lookup {κ α : Type} [BEq κ] [LawfulBEq κ] {P : κ → α → Prop} {keys : List κ} {rows : List (κ × α)}
    (h : List.Forall₂ (fun k row => row.1 = k ∧ P k row.2) keys rows) {k : κ} (hk : k ∈ keys) :
    ∃ a, rows.lookup k = some a ∧ P k a := by
  induction h with
  | nil => exact absurd hk List.not_mem_nil
  | @cons k' row keys rows hrow _ ih =>
    obtain ⟨k'', a⟩ := row
    obtain ⟨rfl, hP⟩ := hrow
    rw [List.lookup_cons]
    by_cases he : k = k''
    · subst he
      exact ⟨a, by simp, hP⟩
    · obtain ⟨a, ha, hP⟩ := ih ((List.mem_cons.mp hk).resolve_left he)
      exact ⟨a, by rw [beq_false_of_ne he]; exact ha, hP⟩

theorem referenceCarrierReachability_ok (g : FrozenConnectivity) :
    ∃ rows, referenceCarrierReachability g = .ok rows ∧ CarrierRows g rows := by
  have hrow : ∀ entry ∈ PROTOCOLS ×ˢ g.nodes, ∃ row,
      (do return (entry, ← referenceVisit (neighbours (protocolEdges g entry.1)) g.nodes entry.2) :
        Except NativeError (CarrierNode × Finset String)) = .ok row ∧
      row.1 = entry ∧ ∀ y, y ∈ row.2 ↔ Reaches g ∅ entry (entry.1, y) := by
    intro ⟨p, x⟩ hentry
    have hx : x ∈ g.nodes := (List.mem_product.mp hentry).2
    obtain ⟨visited, hv, hmem⟩ := referenceVisit_ok (neighbours (protocolEdges g p)) g.nodup (fun a _ b hb => by
      obtain ⟨e, he, -, -, rfl⟩ := mem_protocolEdges.mp (mem_neighbours.mp hb)
      exact g.dst_mem e he) hx
    refine ⟨((p, x), visited), bind_eq_ok.mpr ⟨visited, hv, rfl⟩, rfl, fun y => (hmem y).trans ?_⟩
    rw [reaches_empty]
    exact ⟨fun h => ⟨y, rfl, h⟩, fun ⟨z, hz, h⟩ => (Prod.mk.inj hz).2 ▸ h⟩
  obtain ⟨rows, hrows, hall⟩ := exists_mapM_eq_ok hrow
  refine ⟨rows, hrows, fun p x hx y => ?_⟩
  obtain ⟨reached, hlookup, hreached⟩ :=
    exists_lookup (P := fun entry s => ∀ y, y ∈ s ↔ Reaches g ∅ entry (entry.1, y)) hall
    (List.mem_product.mpr ⟨mem_PROTOCOLS p, hx⟩)
  rw [carrierReached, hlookup]
  exact hreached y

/-! ## Going on from reached gateways -/

section

variable {rows : List (CarrierNode × Finset String)} {source : String} {reached : BridgeProtocol → Finset String}

/-- A path without gateways is one with some. -/
theorem Reaches.of_empty {a b : CarrierNode} (h : Reaches g ∅ a b) : Reaches g gateways a b := by
  refine Relation.ReflTransGen.mono ?_ _ _ h
  intro a b hab
  cases hab with
  | native he => exact .native he
  | switch hx => exact absurd hx (Finset.notMem_empty _)

/-- Goes on from a gateway over one protocol. -/
def stepProtocol (rows : List (CarrierNode × Finset String)) (gateway : String) (protocol : BridgeProtocol)
    (reached : BridgeProtocol → Finset String) : Bool × (BridgeProtocol → Finset String) :=
  if reached protocol ∪ carrierReached rows protocol gateway ≠ reached protocol then
    (true, Function.update reached protocol (reached protocol ∪ carrierReached rows protocol gateway))
  else (false, reached)

theorem propagateProtocol_eq (rows : List (CarrierNode × Finset String)) (gateway : String) :
    propagateProtocol rows gateway = grow fun protocol => stepProtocol rows gateway protocol := by
  funext ⟨b, reached⟩ protocol
  rw [propagateProtocol, grow, stepProtocol]
  split
  · rfl
  · exact Prod.ext (Bool.false_or b).symm rfl

/-- Goes on from a gateway over every protocol. -/
def stepGateway (rows : List (CarrierNode × Finset String)) (gateway : String)
    (reached : BridgeProtocol → Finset String) : Bool × (BridgeProtocol → Finset String) :=
  if ∃ protocol ∈ PROTOCOLS, gateway ∈ reached protocol then
    PROTOCOLS.foldl (grow fun protocol => stepProtocol rows gateway protocol) (false, reached)
  else (false, reached)

theorem propagateGateway_eq (rows : List (CarrierNode × Finset String)) :
    propagateGateway rows = grow fun gateway => stepGateway rows gateway := by
  funext ⟨b, reached⟩ gateway
  rw [propagateGateway, grow, stepGateway, propagateProtocol_eq]
  split
  · rw [foldl_grow]
  · exact Prod.ext (Bool.false_or b).symm rfl

/-- What is reached so far contains what the source reaches over each protocol, goes on
over native edges, and is reached over hops. -/
structure Propagated (g : FrozenConnectivity) (gateways : Finset String) (source : String)
    (reached : BridgeProtocol → Finset String) : Prop where
  starts {p : BridgeProtocol} : source ∈ reached p
  native {p : BridgeProtocol} {y z : String} : y ∈ reached p → (y, z) ∈ protocolEdges g p → z ∈ reached p
  sound {p : BridgeProtocol} {y : String} : y ∈ reached p → ∃ p₀, Reaches g gateways (p₀, source) (p, y)

/-- The nodes that are not reached, over each protocol. -/
def unreached (g : FrozenConnectivity) (reached : BridgeProtocol → Finset String) : Nat :=
  (PROTOCOLS.map fun p => g.nodes.length - (reached p).card).sum

theorem unreached_update {p : BridgeProtocol} {s : Finset String}
    (h : g.nodes.length - s.card < g.nodes.length - (reached p).card) :
    unreached g (Function.update reached p s) < unreached g reached := by
  have hself : g.nodes.length - (Function.update reached p s p).card < g.nodes.length - (reached p).card := by
    rwa [Function.update_self]
  refine List.sum_lt_sum _ _ (fun q _ => ?_) ⟨p, mem_PROTOCOLS p, hself⟩
  by_cases hq : q = p
  · exact hq ▸ hself.le
  · rw [Function.update_of_ne hq]

theorem Propagated.subset (h : Propagated g gateways source reached) (hs : source ∈ g.nodes) (p : BridgeProtocol) :
    reached p ⊆ g.nodes.toFinset := by
  intro y hy
  obtain ⟨p₀, hr⟩ := h.sound hy
  exact List.mem_toFinset.mpr (hr.mem hs)

theorem stepProtocol_grows (hrows : CarrierRows g rows) (hs : source ∈ g.nodes) {gateway : String}
    (hg : gateway ∈ gateways) (p : BridgeProtocol) :
    GrowthStep (fun reached => Propagated g gateways source reached ∧ ∃ q ∈ PROTOCOLS, gateway ∈ reached q)
    (unreached g)
      (stepProtocol rows gateway p) := by
  have hcases (reached : BridgeProtocol → Finset String) :
      reached p ∪ carrierReached rows p gateway = reached p ∧ stepProtocol rows gateway p reached = (false, reached) ∨
      reached p ∪ carrierReached rows p gateway ≠ reached p ∧ stepProtocol rows gateway p reached =
        (true, Function.update reached p (reached p ∪ carrierReached rows p gateway)) := by
    rw [stepProtocol]
    split
    · exact .inr ⟨‹_›, rfl⟩
    · exact .inl ⟨not_not.mp ‹_›, rfl⟩
  have keeps (reached : BridgeProtocol → Finset String)
      (h : Propagated g gateways source reached ∧ ∃ q ∈ PROTOCOLS, gateway ∈ reached q) :
      Propagated g gateways source (Function.update reached p (reached p ∪ carrierReached rows p gateway)) ∧
        ∃ q ∈ PROTOCOLS, gateway ∈ Function.update reached p (reached p ∪ carrierReached rows p gateway) q := by
    obtain ⟨h, q, hq, hgateway⟩ := h
    obtain ⟨p₀, hreach⟩ := h.sound hgateway
    have hnode : gateway ∈ g.nodes := hreach.mem hs
    have hmem (r : BridgeProtocol) (y : String) :
        y ∈ Function.update reached p (reached p ∪ carrierReached rows p gateway) r ↔
          y ∈ reached r ∨ r = p ∧ Reaches g ∅ (p, gateway) (p, y) := by
      rw [Function.update_apply]
      split
      · subst_vars
        rw [Finset.mem_union, hrows r gateway hnode, eq_self, true_and]
      · rename_i hr
        simp only [hr, false_and, or_false]
    refine ⟨⟨?_, ?_, ?_⟩, q, hq, (hmem q gateway).mpr (.inl hgateway)⟩
    · exact fun {r} => (hmem r source).mpr (.inl h.starts)
    · intro r y z hy he
      rw [hmem] at hy ⊢
      refine hy.imp (fun hy => h.native hy he) fun hy => ⟨hy.1, ?_⟩
      obtain ⟨rfl, hy⟩ := hy
      exact hy.tail (hop_iff.mpr ⟨z, rfl, he⟩)
    · intro r y hy
      rw [hmem] at hy
      obtain hy | ⟨rfl, hy⟩ := hy
      · exact h.sound hy
      · -- the path to the gateway, a switch to the protocol, and the path over it
        refine ⟨p₀, hreach.trans (.trans ?_ hy.of_empty)⟩
        by_cases hqr : q = r
        · rw [hqr]
        · exact .single (.switch hg hqr)
  refine ⟨fun {reached} h => ?_, fun {reached} _ hf => ?_, fun {reached} h hf => ?_⟩
  · obtain ⟨-, hstep⟩ | ⟨-, hstep⟩ := hcases reached
    · rw [hstep]
      exact h
    · rw [hstep]
      exact keeps reached h
  · obtain ⟨-, hstep⟩ | ⟨-, hstep⟩ := hcases reached
    · rw [hstep]
    · rw [hstep] at hf
      cases hf
  · obtain ⟨-, hstep⟩ | ⟨hne, hstep⟩ := hcases reached
    · rw [hstep] at hf
      cases hf
    · rw [hstep]
      refine unreached_update ?_
      have hlt : (reached p).card < (reached p ∪ carrierReached rows p gateway).card :=
        Finset.card_lt_card (Finset.ssubset_iff_subset_ne.mpr ⟨Finset.subset_union_left, hne.symm⟩)
      have hle := Finset.card_le_card ((keeps reached h).1.subset hs p)
      rw [Function.update_self, List.toFinset_card_of_nodup g.nodup] at hle
      omega

theorem stepGateway_grows (hrows : CarrierRows g rows) (hs : source ∈ g.nodes) {gateway : String}
    (hg : gateway ∈ gateways) :
    GrowthStep (Propagated g gateways source) (unreached g) (stepGateway rows gateway) := by
  obtain ⟨hround, -⟩ := GrowthStep.round fun p (_ : p ∈ PROTOCOLS) => stepProtocol_grows hrows hs hg p
  refine ⟨fun {reached} h => ?_, fun {reached} h hf => ?_, fun {reached} h hf => ?_⟩
  · rw [stepGateway]
    split
    · exact (hround.keeps ⟨h, ‹_›⟩).1
    · exact h
  · rw [stepGateway] at hf ⊢
    split
    · rw [if_pos ‹_›] at hf
      exact hround.same ⟨h, ‹_›⟩ hf
    · rfl
  · rw [stepGateway] at hf ⊢
    split
    · rw [if_pos ‹_›] at hf
      exact hround.less ⟨h, ‹_›⟩ hf
    · rw [if_neg ‹_›] at hf
      cases hf

/-- A gateway that is reached, and from which nothing more is, has gone on over every protocol. -/
theorem of_stepGateway (hrows : CarrierRows g rows) (hs : source ∈ g.nodes) {gateway : String} (hg : gateway ∈ gateways)
    (h : Propagated g gateways source reached) (hf : (stepGateway rows gateway reached).1 = false) {p : BridgeProtocol}
    (hp : gateway ∈ reached p) (q : BridgeProtocol) : gateway ∈ reached q := by
  have hex : ∃ protocol ∈ PROTOCOLS, gateway ∈ reached protocol := ⟨p, mem_PROTOCOLS p, hp⟩
  rw [stepGateway, if_pos hex] at hf
  have hq := (GrowthStep.round fun p _ => stepProtocol_grows hrows hs hg p).2 ⟨h, hex⟩ hf q (mem_PROTOCOLS q)
  rw [stepProtocol] at hq
  split at hq
  · cases hq
  · rename_i hsame
    obtain ⟨p₀, hr⟩ := h.sound hp
    rw [← not_not.mp hsame]
    exact Finset.mem_union_right _ ((hrows q gateway (hr.mem hs) gateway).mpr .refl)

theorem propagate_ok (gateways : Finset String) (hrows : CarrierRows g rows) (hs : source ∈ g.nodes) :
    ∃ reached, propagate rows g gateways source = .ok reached ∧
      ∀ p y, y ∈ reached p ↔ ∃ p₀, Reaches g gateways (p₀, source) (p, y) := by
  have hstart : Propagated g gateways source fun protocol => carrierReached rows protocol source := by
    refine ⟨fun {p} => (hrows p source hs source).mpr .refl, fun {p y z} hy he => ?_, fun {p y} hy => ?_⟩
    · exact (hrows p source hs z).mpr (((hrows p source hs y).mp hy).tail (hop_iff.mpr ⟨z, rfl, he⟩))
    · exact ⟨p, ((hrows p source hs y).mp hy).of_empty⟩
  have hrounds : unreached g (fun protocol => carrierReached rows protocol source) + 1 ≤
      PROTOCOLS.length * g.nodes.length + 1 := by
    refine Nat.add_le_add_right ?_ 1
    refine (List.sum_le_card_nsmul _ g.nodes.length ?_).trans_eq (by rw [List.length_map]; rfl)
    intro n hn
    obtain ⟨p, -, rfl⟩ := List.mem_map.mp hn
    exact Nat.sub_le _ _
  obtain ⟨reached, hloop, h, hall⟩ := GrowthStep.loop
    (fun x (hx : x ∈ gateways.sort (· ≤ ·)) => stepGateway_grows hrows hs ((Finset.mem_sort _).mp hx)) hstart hrounds
  refine ⟨reached, ?_, fun p y => ⟨h.sound, ?_⟩⟩
  · rw [propagate, propagateGateway_eq]
    exact bind_eq_ok.mpr ⟨_, orRevert_eq_ok.mpr hloop, rfl⟩
  · rintro ⟨p₀, hr⟩
    generalize hb : (p, y) = b at hr
    induction hr generalizing p y with
    | refl =>
      obtain ⟨rfl, rfl⟩ := Prod.mk.inj hb
      exact h.starts
    | tail _ hstep ih =>
      cases hstep with
      | native he =>
        obtain ⟨rfl, rfl⟩ := Prod.mk.inj hb
        exact h.native (ih _ _ rfl) (mem_protocolEdges.mpr ⟨_, he, rfl, rfl, rfl⟩)
      | switch hx =>
        obtain ⟨rfl, rfl⟩ := Prod.mk.inj hb
        exact of_stepGateway hrows hs hx h (hall _ ((Finset.mem_sort _).mpr hx)) (ih _ _ rfl) _

/-! ## The set of pairs -/

theorem mem_foldl_union {α : Type} [DecidableEq α] {sets : List (Finset α)} {s : Finset α} {a : α} :
    a ∈ sets.foldl (· ∪ ·) s ↔ a ∈ s ∨ ∃ t ∈ sets, a ∈ t := by
  induction sets generalizing s with
  | nil => simp
  | cons t sets ih => rw [List.foldl_cons, ih, Finset.mem_union, List.exists_mem_cons_iff, or_assoc]

/-- The pairs are those of different nodes that are connected. -/
theorem referenceGatewayPairSet_ok (gateways : Finset String) (hrows : CarrierRows g rows) :
    ∃ pairs, referenceGatewayPairSet g rows gateways = .ok pairs ∧
      ∀ x y, (x, y) ∈ pairs ↔ x ∈ g.nodes ∧ Connected g gateways x y ∧ y ≠ x := by
  refine ⟨g.nodes.foldl (fun pairs x => pairs ∪ ((connectedTo g gateways x).filter (· ≠ x)).image fun y => (x, y)) ∅,
    ?_, ?_⟩
  · refine foldlM_eq_ok_of_forall (fun pairs x hx => ?_) ∅
    obtain ⟨reached, hreached, hmem⟩ := propagate_ok gateways hrows hx
    refine bind_eq_ok.mpr ⟨reached, hreached, ?_⟩
    have hdestinations : (PROTOCOLS.map reached).foldl (· ∪ ·) ∅ = connectedTo g gateways x := by
      ext y
      rw [mem_foldl_union, mem_connectedTo hx]
      constructor
      · rintro (hy | ⟨t, ht, hy⟩)
        · exact absurd hy (Finset.notMem_empty _)
        · obtain ⟨q, -, rfl⟩ := List.mem_map.mp ht
          obtain ⟨p, h⟩ := (hmem q y).mp hy
          exact ⟨p, q, h⟩
      · exact fun ⟨p, q, h⟩ => .inr ⟨_, List.mem_map.mpr ⟨q, mem_PROTOCOLS q, rfl⟩, (hmem q y).mpr ⟨p, h⟩⟩
    rw [hdestinations]
    rfl
  · have hfold (nodes : List String) (hn : ∀ x ∈ nodes, x ∈ g.nodes) (pairs : Finset (String × String)) (x y : String) :
        (x, y) ∈ nodes.foldl
          (fun pairs x => pairs ∪ ((connectedTo g gateways x).filter (· ≠ x)).image fun y => (x, y)) pairs ↔
          (x, y) ∈ pairs ∨ x ∈ nodes ∧ Connected g gateways x y ∧ y ≠ x := by
      induction nodes generalizing pairs with
      | nil => simp
      | cons z nodes ih =>
        rw [List.forall_mem_cons] at hn
        rw [List.foldl_cons, ih hn.2, Finset.mem_union, Finset.mem_image, List.mem_cons, or_assoc]
        simp only [Finset.mem_filter, mem_connectedTo hn.1, Prod.mk.injEq]
        refine or_congr_right ?_
        constructor
        · rintro (⟨w, hw, rfl, rfl⟩ | h)
          · exact ⟨.inl rfl, hw⟩
          · exact ⟨.inr h.1, h.2⟩
        · rintro ⟨rfl | hx, h⟩
          · exact .inl ⟨y, h, rfl, rfl⟩
          · exact .inr ⟨hx, h⟩
    intro x y
    rw [hfold g.nodes (fun _ h => h)]
    exact or_iff_right (Finset.notMem_empty _)

/-- There are as many pairs as `pairCount` says. -/
theorem card_pairs {pairs : Finset (String × String)}
    (h : ∀ x y, (x, y) ∈ pairs ↔ x ∈ g.nodes ∧ Connected g gateways x y ∧ y ≠ x) :
    (pairs.card : Int) = pairCount g gateways := by
  have hself (x : String) (hx : x ∈ g.nodes) : x ∈ connectedTo g gateways x :=
    (mem_connectedTo hx).mpr ⟨.axelar, .axelar, .refl⟩
  have hset : pairs = g.nodes.toFinset.biUnion fun x => ((connectedTo g gateways x).erase x).image fun y => (x, y) := by
    ext ⟨x, y⟩
    rw [h, Finset.mem_biUnion]
    constructor
    · rintro ⟨hx, hc, hne⟩
      exact ⟨x, List.mem_toFinset.mpr hx,
        Finset.mem_image.mpr ⟨y, Finset.mem_erase.mpr ⟨hne, (mem_connectedTo hx).mpr hc⟩, rfl⟩⟩
    · rintro ⟨z, hz, hxy⟩
      have hz := List.mem_toFinset.mp hz
      obtain ⟨w, hw, heq⟩ := Finset.mem_image.mp hxy
      obtain ⟨rfl, rfl⟩ := Prod.mk.inj heq
      rw [Finset.mem_erase, mem_connectedTo hz] at hw
      exact ⟨hz, hw.2, hw.1⟩
  rw [hset, Finset.card_biUnion]
  · rw [pairCount, ← List.sum_toFinset _ g.nodup]
    push_cast
    refine Finset.sum_congr rfl fun x hx => ?_
    have hx := hself x (List.mem_toFinset.mp hx)
    rw [Finset.card_image_of_injective _ (fun y z heq => (Prod.mk.inj heq).2), Finset.card_erase_of_mem hx,
      Nat.cast_sub (Finset.card_pos.mpr ⟨x, hx⟩)]
    rfl
  · intro x _ y _ hne
    refine Finset.disjoint_left.mpr fun a ha hb => ?_
    obtain ⟨_, -, rfl⟩ := Finset.mem_image.mp ha
    obtain ⟨_, -, heq⟩ := Finset.mem_image.mp hb
    exact hne (Prod.mk.inj heq).1.symm

end

end Xir.Impl.XirLab
