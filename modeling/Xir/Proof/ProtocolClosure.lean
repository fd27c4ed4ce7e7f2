import Xir.Impl.XirLab.ProtocolExpansion
import Xir.Proof.GatewayReference

/-!
# The closure of one protocol

The closure has a row for each node, whose bits are the nodes that it leads to
(`IsProtocolClosure`). An edge that is added leaves such a closure of one more
edge (`IsProtocolClosure.add`), so that any edges that are added one after
another leave the closure of all of them. The count of its bits is that of the
pairs (`IsProtocolClosure.pairs`), as a search from each node finds them, and
what `_largest_scc` finds is a largest component.
-/

namespace Xir.Impl.XirLab

open GatewayReachability (Bit searchRows_ok foldl_add)

variable {nodes : List String} {edges : Finset (String × String)} {closure : List Nat} {x y : String}

/-- There is a path of the edges. -/
abbrev Leads (edges : Finset (String × String)) : String → String → Prop :=
  Relation.ReflTransGen fun a b => (a, b) ∈ edges

/-- The edges are between the nodes. -/
def WithinNodes (nodes : List String) (edges : Finset (String × String)) : Prop :=
  ∀ edge ∈ edges, edge.1 ∈ nodes ∧ edge.2 ∈ nodes

theorem WithinNodes.leads (h : WithinNodes nodes edges) (hx : x ∈ nodes) (hxy : Leads edges x y) : y ∈ nodes := by
  induction hxy with
  | refl => exact hx
  | tail _ hstep _ => exact (h _ hstep).2

/-! ## A largest component -/

/-- A component: the nodes that a node leads to, and that lead to it. -/
def IsComponent (edges : Finset (String × String)) (component : Finset String) : Prop :=
  ∃ x ∈ covered edges, ∀ y, y ∈ component ↔ Leads edges x y ∧ Leads edges y x

/-- A component that no other is larger than, and with the smallest member of those as large. -/
structure IsLargestComponent (edges : Finset (String × String)) (component : Finset String) : Prop where
  isComponent : IsComponent edges component
  largest (other : Finset String) : IsComponent edges other →
    other.card < component.card ∨ other.card = component.card ∧ ∃ m ∈ component, ∀ z ∈ other, m ≤ z

theorem firstMember_mem {component : Finset String} (h : component.Nonempty) : firstMember component ∈ component ∧
    ∀ z ∈ component, firstMember component ≤ z := by
  have hsort : ∀ z, z ∈ sortedNames component ↔ z ∈ component := fun z => Finset.mem_sort _
  have hsorted : (sortedNames component).Pairwise (· ≤ ·) := Finset.pairwise_sort component _
  rw [firstMember]
  cases hs : sortedNames component with
  | nil =>
    obtain ⟨z, hz⟩ := h
    rw [← hsort, hs] at hz
    exact absurd hz List.not_mem_nil
  | cons a rest =>
    rw [hs] at hsort hsorted
    refine ⟨(hsort a).mp List.mem_cons_self, fun z hz => ?_⟩
    obtain rfl | hz := List.mem_cons.mp ((hsort z).mpr hz)
    · exact le_rfl
    · exact (List.pairwise_cons.mp hsorted).1 z hz

theorem componentBefore_asymm (a b : Finset String) (h : componentBefore a b = true) : componentBefore b a = false := by
  rw [componentBefore, decide_eq_true_iff] at h
  rw [componentBefore, decide_eq_false_iff_not]
  rintro (hlt | ⟨heq, hlt⟩)
  · omega
  · obtain h | ⟨-, h⟩ := h
    · omega
    · exact lt_asymm h hlt

theorem componentBefore_comp (a b c : Finset String) (h : componentBefore a c = true) :
    componentBefore a b = true ∨ componentBefore b c = true := by
  simp only [componentBefore, decide_eq_true_eq] at h ⊢
  by_cases hab : b.card < a.card
  · exact .inl (.inl hab)
  by_cases hbc : c.card < b.card
  · exact .inr (.inl hbc)
  obtain h | ⟨heq, h⟩ := h
  · omega
  · obtain hlt | hle := lt_or_ge (firstMember a) (firstMember b)
    · exact .inl (.inr ⟨by omega, hlt⟩)
    · exact .inr (.inr ⟨by omega, hle.trans_lt h⟩)

theorem mem_covered : x ∈ covered edges ↔ ∃ edge ∈ edges, edge.1 = x ∨ edge.2 = x := by
  simp only [covered, Finset.mem_union, Finset.mem_image, and_or_left, exists_or]

theorem mem_forwardOf {list : List (String × String)} : y ∈ forwardOf list x ↔ (x, y) ∈ list := by
  simp [forwardOf]

theorem mem_reverseOf {list : List (String × String)} : y ∈ reverseOf list x ↔ (y, x) ∈ list := by
  simp [reverseOf]

/-- `_largest_scc` finds a largest component. -/
theorem largestScc_ok (order : SetOrder (String × String)) (h : edges.Nonempty) :
    ∃ component, largestScc order (covered edges) edges = .ok component ∧ IsLargestComponent edges component := by
  have hforward (a b : String) : Components.Edge (forwardOf (order.toList edges)) a b ↔ (a, b) ∈ edges :=
    mem_forwardOf.trans (order.mem_toList edges _)
  have hreverse (a b : String) : b ∈ reverseOf (order.toList edges) a ↔ (b, a) ∈ edges :=
    mem_reverseOf.trans (order.mem_toList edges _)
  have hreach : Components.Reach (forwardOf (order.toList edges)) = Leads edges := by
    have hedge : Components.Edge (forwardOf (order.toList edges)) = fun a b => (a, b) ∈ edges := by
      funext a b
      exact propext (hforward a b)
    rw [Components.Reach, hedge]
  have hnext : ∀ a ∈ covered edges, ∀ b, Components.Edge (forwardOf (order.toList edges)) a b → b ∈ covered edges :=
    fun a _ b hb => mem_covered.mpr ⟨_, (hforward a b).mp hb, .inr rfl⟩
  have hback : ∀ a ∈ covered edges, ∀ b ∈ reverseOf (order.toList edges) a, b ∈ covered edges :=
    fun a _ b hb => mem_covered.mpr ⟨_, (hreverse a b).mp hb, .inl rfl⟩
  have hsort (a : String) : a ∈ sortedNames (covered edges) ↔ a ∈ covered edges := Finset.mem_sort _
  obtain ⟨finished, classes, hfinished, hclasses, hclass, hcover⟩ :=
    Components.components_spec (fun a b => (hreverse a b).trans (hforward b a).symm) hnext hback le_rfl hsort
  simp only [Components.Connected, hreach] at hclass
  have hfilter : (classes.filter fun component => component.Nonempty) ≠ [] := by
    obtain ⟨edge, hedge⟩ := h
    obtain ⟨c, hc, hx⟩ := hcover edge.1 (mem_covered.mpr ⟨edge, hedge, .inl rfl⟩)
    exact List.ne_nil_of_mem (List.mem_filter.mpr ⟨hc, decide_eq_true ⟨_, hx⟩⟩)
  obtain ⟨component, hleast, hmem, hall⟩ := leastBy_spec componentBefore_asymm componentBefore_comp hfilter
  obtain ⟨hmem, hne⟩ := List.mem_filter.mp hmem
  refine ⟨component, ?_, hclass component hmem, fun other hother => ?_⟩
  · rw [largestScc, hfinished]
    refine bind_eq_ok.mpr ⟨finished, rfl, bind_eq_ok.mpr ⟨classes, by rw [hclasses]; rfl, ?_⟩⟩
    rw [hleast]
    rfl
  · obtain ⟨x, hx, hxy⟩ := hother
    -- the class that covers a node of it is the component
    obtain ⟨c, hc, hxc⟩ := hcover x hx
    have hother : other = c := by
      obtain ⟨w, -, hw⟩ := hclass c hc
      have hxw := (hw x).mp hxc
      ext y
      rw [hxy, hw]
      exact ⟨fun h => ⟨hxw.1.trans h.1, h.2.trans hxw.2⟩, fun h => ⟨hxw.2.trans h.1, h.2.trans hxw.1⟩⟩
    subst hother
    have hbefore := hall other (List.mem_filter.mpr ⟨hc, decide_eq_true ⟨_, hxc⟩⟩)
    rw [componentBefore, decide_eq_false_iff_not, not_or, not_and, not_lt, not_lt] at hbefore
    obtain hlt | heq := lt_or_eq_of_le hbefore.1
    · exact .inl hlt
    · refine .inr ⟨heq, _, (firstMember_mem (of_decide_eq_true hne)).1, fun z hz => ?_⟩
      exact le_trans (hbefore.2 heq) ((firstMember_mem ⟨_, hxc⟩).2 z hz)

/-! ## The closure of the original edges -/

theorem indexOfNode_ok (hn : nodes.Nodup) (hx : x ∈ nodes) : indexOfNode nodes x = .ok (nodes.idxOf x) := by
  have hlt := List.idxOf_lt_length_iff.mpr hx
  have hmem : (x, nodes.idxOf x) ∈ nodes.zipIdx.reverse := by
    rw [List.mem_reverse, List.mem_zipIdx_iff_getElem?, List.getElem?_eq_getElem hlt, List.getElem_idxOf]
  rw [indexOfNode, orRevert_eq_ok]
  cases hl : nodes.zipIdx.reverse.lookup x with
  | none => exact absurd (List.lookup_eq_none_iff.mp hl _ hmem) (by simp)
  | some i =>
    have hi : (x, i) ∈ nodes.zipIdx.reverse := by
      obtain ⟨l₁, l₂, heq, -⟩ := List.lookup_eq_some_iff.mp hl
      simp [heq]
    rw [List.mem_reverse, List.mem_zipIdx_iff_getElem?] at hi
    obtain ⟨hi, hx⟩ := List.getElem?_eq_some_iff.mp hi
    have hidx := hn.idxOf_getElem i hi
    rw [show nodes[i] = x from hx] at hidx
    rw [hidx]

/-- A row for each node, with the nodes that it leads to. -/
structure IsProtocolClosure (nodes : List String) (edges : Finset (String × String)) (closure : List Nat) : Prop where
  length : closure.length = nodes.length
  bit (x : String) :
    x ∈ nodes → ∀ t, Bit closure (nodes.idxOf x) t ↔ ∃ y, Leads edges x y ∧ y ∈ nodes ∧ t = nodes.idxOf y

theorem protocolAdjacency_ok (order : SetOrder (String × String)) (hn : nodes.Nodup) (h : WithinNodes nodes edges) :
    ∃ adjacency, protocolAdjacency order nodes edges = .ok adjacency ∧
      ∀ s t, t ∈ adjacency.getD s [] ↔ ∃ x y, (x, y) ∈ edges ∧ s = nodes.idxOf x ∧ t = nodes.idxOf y := by
  have hlinks : (order.toList edges).mapM (fun edge => do
      return (← indexOfNode nodes edge.1, ← indexOfNode nodes edge.2) :
        String × String → Except NativeError (Nat × Nat)) =
        .ok ((order.toList edges).map fun edge => (nodes.idxOf edge.1, nodes.idxOf edge.2)) := by
    refine mapM_eq_ok_of_forall fun edge hedge => ?_
    have hends := h edge ((order.mem_toList edges edge).mp hedge)
    rw [indexOfNode_ok hn hends.1, indexOfNode_ok hn hends.2]
    rfl
  refine ⟨_, bind_eq_ok.mpr ⟨_, hlinks, rfl⟩, fun s t => ?_⟩
  by_cases hs : s < nodes.length
  · rw [List.getD_eq_getElem _ _ (by simpa using hs), List.getElem_map, List.getElem_range]
    simp only [List.mem_map, List.mem_filter, decide_eq_true_eq, order.mem_toList]
    constructor
    · rintro ⟨link, ⟨⟨⟨a, b⟩, hedge, rfl⟩, hs⟩, rfl⟩
      exact ⟨a, b, hedge, hs.symm, rfl⟩
    · rintro ⟨a, b, hedge, rfl, rfl⟩
      exact ⟨_, ⟨⟨(a, b), hedge, rfl⟩, rfl⟩, rfl⟩
  · rw [List.getD_eq_default _ _ (by simpa using hs)]
    refine ⟨fun ht => absurd ht List.not_mem_nil, ?_⟩
    rintro ⟨a, b, hedge, rfl, -⟩
    exact absurd (List.idxOf_lt_length_iff.mpr (h _ hedge).1) hs

theorem protocolClosure_ok (order : SetOrder (String × String)) (hn : nodes.Nodup) (h : WithinNodes nodes edges) :
    ∃ closure, protocolClosure order nodes edges = .ok closure ∧ IsProtocolClosure nodes edges closure := by
  obtain ⟨adjacency, hadjacency, hmem⟩ := protocolAdjacency_ok order hn h
  have hlt (s t : Nat) (ht : t ∈ adjacency.getD s []) : t < nodes.length := by
    obtain ⟨a, b, hedge, -, rfl⟩ := (hmem s t).mp ht
    exact List.idxOf_lt_length_iff.mpr (h _ hedge).2
  obtain ⟨rows, hrows, hlength, hbit⟩ := searchRows_ok (fun current => adjacency.getD current []) hlt
  refine ⟨rows, bind_eq_ok.mpr ⟨adjacency, hadjacency, hrows⟩, hlength, fun x hx t => ?_⟩
  rw [hbit _ _ (List.idxOf_lt_length_iff.mpr hx)]
  refine reflTransGen_map (E := fun a b => (a, b) ∈ edges) (P := (· ∈ nodes)) (f := nodes.idxOf) (fun a ha t => ?_)
    (fun a b _ (hab : (a, b) ∈ edges) => (h _ hab).2) hx t
  rw [hmem]
  constructor
  · rintro ⟨a', b, hedge, hs, rfl⟩
    obtain rfl := (List.idxOf_inj ha).mp hs
    exact ⟨b, hedge, rfl⟩
  · rintro ⟨b, hedge, rfl⟩
    exact ⟨a, b, hedge, rfl, rfl⟩

/-! ## An edge is added -/

theorem leads_insert (a b : String) :
    Leads (insert (x, y) edges) a b ↔ Leads edges a b ∨ Leads edges a x ∧ Leads edges y b := by
  have hinsert : (fun a b => (a, b) ∈ insert (x, y) edges) = fun a b => (a, b) ∈ edges ∨ a = x ∧ b = y := by
    funext a b
    rw [Finset.mem_insert, Prod.mk.injEq, or_comm]
  rw [Leads, hinsert]
  refine reflTransGen_or (E := fun a b => (a, b) ∈ edges) (A := fun a => Leads edges a x)
    (B := fun b => Leads edges y b)
    (fun _ _ hs ha => ha.head hs) (fun _ _ hs hb => hb.tail hs) ?_ (fun a b ha hb => ?_) a b
  · rintro _ _ ⟨rfl, rfl⟩
    exact ⟨.refl, .refl⟩
  · have hmono {a b : String} (h : Leads edges a b) :
        Relation.ReflTransGen (fun a b => (a, b) ∈ edges ∨ a = x ∧ b = y) a b :=
      Relation.ReflTransGen.mono (fun _ _ => Or.inl) _ _ h
    exact ((hmono ha).tail (.inr ⟨rfl, rfl⟩)).trans (hmono hb)

/-- What a row takes in that has the source of the edge. -/
theorem testBit_extend (row successors source t : Nat) :
    (if row &&& (1 <<< source) ≠ 0 then row ||| successors else row).testBit t = true ↔
      row.testBit t = true ∨ row.testBit source = true ∧ successors.testBit t = true := by
  split
  · rename_i h
    rw [testBit_or_true, (and_one_shiftLeft_ne_zero row source).mp h]
    simp only [true_and]
  · rename_i h
    have hs : ¬ row.testBit source = true := fun hs => h ((and_one_shiftLeft_ne_zero row source).mpr hs)
    exact ⟨.inl, fun ht => ht.resolve_right fun ht => hs ht.1⟩

/-- An edge that is added leaves the closure of the edges with it. -/
theorem IsProtocolClosure.add (h : IsProtocolClosure nodes edges closure) (hx : x ∈ nodes) (hy : y ∈ nodes) :
    IsProtocolClosure nodes (insert (x, y) edges) (addProtocolEdge closure (nodes.idxOf x) (nodes.idxOf y)) := by
  have hidx {a b : String} (ha : a ∈ nodes) (hb : b ∈ nodes) :
      Bit closure (nodes.idxOf a) (nodes.idxOf b) ↔ Leads edges a b := by
    rw [h.bit a ha]
    constructor
    · rintro ⟨c, hac, -, heq⟩
      exact (List.idxOf_inj hb).mp heq ▸ hac
    · exact fun hab => ⟨b, hab, hb, rfl⟩
  rw [addProtocolEdge]
  split
  · rename_i hbit
    have hxy : Leads edges x y := (hidx hx hy).mp ((and_one_shiftLeft_ne_zero _ _).mp hbit)
    refine ⟨h.length, fun a ha t => (h.bit a ha t).trans (exists_congr fun b => and_congr_left' ?_)⟩
    rw [leads_insert]
    exact ⟨.inl, fun hab => hab.elim id fun hab => (hab.1.trans hxy).trans hab.2⟩
  · refine ⟨(List.length_map _).trans h.length, fun a ha t => ?_⟩
    have hlt : nodes.idxOf a < closure.length := h.length ▸ List.idxOf_lt_length_iff.mpr ha
    rw [Bit, List.getD_eq_getElem _ _ (by simpa using hlt), List.getElem_map, testBit_extend,
      ← List.getD_eq_getElem _ 0 hlt]
    have hax : (closure.getD (nodes.idxOf a) 0).testBit (nodes.idxOf x) = true ↔ Leads edges a x := hidx ha hx
    rw [hax, show (closure.getD (nodes.idxOf a) 0).testBit t = true ↔ _ from h.bit a ha t,
      show (closure.getD (nodes.idxOf y) 0).testBit t = true ↔ _ from h.bit y hy t]
    simp only [leads_insert, or_and_right, exists_or, and_assoc, exists_and_left]

/-- The edges that were added one after another, whichever they are, are among those of the closure. -/
theorem IsProtocolClosure.addAll (hn : nodes.Nodup) {added : List (String × String)}
    (ha : ∀ edge ∈ added, edge.1 ∈ nodes ∧ edge.2 ∈ nodes) (h : IsProtocolClosure nodes edges closure) :
    ∃ closure', added.foldlM (Expansion.addEdge nodes) closure = .ok closure' ∧
      IsProtocolClosure nodes (edges ∪ added.toFinset) closure' := by
  induction added generalizing edges closure with
  | nil => exact ⟨closure, rfl, by simpa using h⟩
  | cons edge added ih =>
    rw [List.forall_mem_cons] at ha
    obtain ⟨closure', hfold, hc⟩ := ih ha.2 (h.add ha.1.1 ha.1.2)
    refine ⟨closure', foldlM_cons_eq_ok.mpr ⟨_, ?_, hfold⟩, ?_⟩
    · rw [Expansion.addEdge, indexOfNode_ok hn ha.1.1, indexOfNode_ok hn ha.1.2]
      rfl
    · rwa [List.toFinset_cons, Finset.union_insert, ← Finset.insert_union]

/-! ## The pairs -/

open Classical in
/-- The nodes that a node leads to. -/
noncomputable def ledTo (nodes : List String) (edges : Finset (String × String)) (x : String) : Finset String :=
  nodes.toFinset.filter fun y => Leads edges x y

theorem mem_ledTo : y ∈ ledTo nodes edges x ↔ y ∈ nodes ∧ Leads edges x y := by
  classical
  rw [ledTo, Finset.mem_filter, List.mem_toFinset]

/-- The pairs of a node and another one that it leads to. -/
noncomputable def pairsOver (nodes : List String) (edges : Finset (String × String)) : Int :=
  ∑ x ∈ nodes.toFinset, (((ledTo nodes edges x).card : Int) - 1)

theorem IsProtocolClosure.pairs (hn : nodes.Nodup) (h : IsProtocolClosure nodes edges closure) :
    closurePairs closure = pairsOver nodes edges := by
  have hrows : closure = nodes.map fun x => closure.getD (nodes.idxOf x) 0 := by
    refine List.ext_getElem (by simp [h.length]) fun i hi hi' => ?_
    rw [List.getElem_map, hn.idxOf_getElem, List.getD_eq_getElem _ _ hi]
  rw [closurePairs, hrows, List.map_map, pairsOver, List.sum_toFinset _ hn]
  refine congrArg List.sum (List.map_congr_left fun x hx => ?_)
  have hset : ∀ t, (closure.getD (nodes.idxOf x) 0).testBit t = true ↔ t ∈ (ledTo nodes edges x).image nodes.idxOf := by
    intro t
    rw [Finset.mem_image]
    refine (h.bit x hx t).trans (exists_congr fun y => ?_)
    rw [mem_ledTo]
    exact ⟨fun ⟨hxy, hy, ht⟩ => ⟨⟨hy, hxy⟩, ht.symm⟩, fun ⟨⟨hy, hxy⟩, ht⟩ => ⟨hxy, hy, ht.symm⟩⟩
  rw [Function.comp_apply, bitCount_eq_card hset, Finset.card_image_of_injOn]
  intro a ha b _ hab
  exact (List.idxOf_inj (mem_ledTo.mp ha).1).mp hab

theorem referenceVisit_eq (hn : nodes.Nodup) (h : WithinNodes nodes edges) (hx : x ∈ nodes) :
    referenceVisit (neighbours edges) nodes x = .ok (ledTo nodes edges x) := by
  obtain ⟨visited, hvisit, hmem⟩ := referenceVisit_ok (neighbours edges) hn
    (fun a _ b hb => (h _ (mem_neighbours.mp hb)).2) hx
  have hedge : (fun a b => b ∈ neighbours edges a) = fun a b => (a, b) ∈ edges := by
    funext a b
    exact propext mem_neighbours
  rw [hvisit]
  refine congrArg Except.ok (Finset.ext fun y => ?_)
  rw [hmem, hedge, mem_ledTo]
  exact ⟨fun hxy => ⟨h.leads hx hxy, hxy⟩, And.right⟩

/-- The count of the reference function. -/
theorem referenceProtocolPairs_eq (hn : nodes.Nodup) (h : WithinNodes nodes edges) :
    referenceProtocolPairs nodes edges = .ok (pairsOver nodes edges) := by
  refine revertIf_bind.mpr ⟨fun ⟨edge, hedge, hout⟩ => ?_, ?_⟩
  · exact hout.elim (fun hs => hs (h edge hedge).1) fun hd => hd (h edge hedge).2
  · refine (foldlM_eq_ok_of_forall (g := fun total x => total + (((ledTo nodes edges x).card : Int) - 1)) ?_ 0).trans ?_
    · intro total x hx
      exact bind_eq_ok.mpr ⟨_, referenceVisit_eq hn h hx, rfl⟩
    · rw [foldl_add, Int.zero_add, pairsOver, List.sum_toFinset _ hn]

end Xir.Impl.XirLab
