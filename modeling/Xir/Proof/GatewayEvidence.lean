import Mathlib.Data.List.Forall2
import Xir.Proof.GatewayReference

/-!
# The evidence for pairs

`Traced` is what the search for witnesses keeps of the table of parents: each
state but the roots was found over an edge from a state before it. So the way
back from a state ends at a root, and is a path of the expanded graph
(`backtrack_of_traced`). `exists_analysed` is the whole analysis of a graph.
-/

namespace Xir.Impl.XirLab

variable {g : FrozenConnectivity} {gateways : Finset String}

/-- A hop, with its kind. -/
inductive KindHop (g : FrozenConnectivity) (gateways : Finset String) : EdgeKind → CarrierNode → CarrierNode → Prop
  | native {e : ConnectivityEdge} : e ∈ g.edges → KindHop g gateways .nativeHop (e.carrier, e.src) (e.carrier, e.dst)
  | switch {p q : BridgeProtocol} {x : String} : x ∈ gateways → p ≠ q → KindHop g gateways .gatewaySwitch (p, x) (q, x)

theorem hop_iff_kindHop {a b : CarrierNode} : Hop g gateways a b ↔ ∃ kind, KindHop g gateways kind a b := by
  constructor
  · intro h
    cases h with
    | native he => exact ⟨_, .native he⟩
    | switch hx hpq => exact ⟨_, .switch hx hpq⟩
  · rintro ⟨kind, h⟩
    cases h with
    | native he => exact .native he
    | switch hx hpq => exact .switch hx hpq

/-- A path from a state of a node, with the kinds of its hops. -/
inductive GatewayRoute (g : FrozenConnectivity) (gateways : Finset String) (x : String) :
    List CarrierNode → List EdgeKind → CarrierNode → Prop
  | start (p : BridgeProtocol) : GatewayRoute g gateways x [(p, x)] [] (p, x)
  | hop {path : List CarrierNode} {kinds : List EdgeKind} {a b : CarrierNode} {kind : EdgeKind} :
    GatewayRoute g gateways x path kinds a → KindHop g gateways kind a b →
      GatewayRoute g gateways x (path ++ [b]) (kinds ++ [kind]) b

theorem GatewayRoute.mem {x : String} {path : List CarrierNode} {kinds : List EdgeKind} {a : CarrierNode}
    (h : GatewayRoute g gateways x path kinds a) (hx : x ∈ g.nodes) : a.2 ∈ g.nodes ∧ ∀ b ∈ path, b.2 ∈ g.nodes := by
  induction h with
  | start p => exact ⟨hx, fun b hb => List.mem_singleton.mp hb ▸ hx⟩
  | hop _ hkind ih =>
    have hb := Hop.mem (hop_iff_kindHop.mpr ⟨_, hkind⟩) ih.1
    refine ⟨hb, fun c hc => ?_⟩
    obtain hc | hc := List.mem_append.mp hc
    · exact ih.2 c hc
    · exact List.mem_singleton.mp hc ▸ hb

/-- What the witness of a path says. -/
def renderRoute (path : List CarrierNode) (kinds : List EdgeKind) : GatewayReachability.RouteWitness where
  routeStatePath := ">".intercalate (path.map fun a => a.1.name ++ ":" ++ a.2)
  carrierSequence := ">".intercalate ((path.map fun a => a.1.name).foldl GatewayReachability.appendCarrier [])
  gatewaySwitchNodes := ">".intercalate (((path.zip kinds).filter fun p => p.2 = .gatewaySwitch).map fun p => p.1.2)
  nativeHopCount := kinds.count .nativeHop
  switchCount := kinds.count .gatewaySwitch

namespace GatewayReachability

variable {m : GatewayReachability} {closure : List Nat}

/-! ## The expanded graph -/

theorem Built.expandedAdjacency (hb : Built g m) (hg : ∀ x ∈ gateways, x ∈ g.nodes) :
    ∃ adjacency, m.expandedAdjacency gateways = .ok adjacency ∧ adjacency.length = m.stateCount ∧
      ∀ a : CarrierNode, a.2 ∈ g.nodes → ∀ t kind,
        (t, kind) ∈ adjacency.getD (stateOf g a) [] ↔ ∃ b, KindHop g gateways kind a b ∧ t = stateOf g b := by
  refine ⟨_, bind_eq_ok.mpr ⟨_, hb.gatewayIndices hg, rfl⟩, by simp, fun a ha t kind => ?_⟩
  have hs : stateOf g a < m.stateCount := hb.stateCount ▸ stateOf_lt ha
  rw [List.getD_eq_getElem _ _ (by simpa using hs), List.getElem_map, List.getElem_range, List.mem_mergeSort,
    List.mem_dedup, List.mem_append]
  constructor
  · rintro (h | h)
    · obtain ⟨t, ht, heq⟩ := List.mem_map.mp h
      obtain ⟨rfl, rfl⟩ := Prod.mk.inj heq
      obtain ⟨e, he, hae, rfl⟩ := (hb.native _ _).mp ht
      obtain rfl := stateOf_inj ha (g.src_mem e he) hae
      exact ⟨_, .native he, rfl⟩
    · obtain ⟨i, hi, h⟩ := List.mem_flatMap.mp h
      rw [Finset.mem_sort, List.mem_toFinset] at hi
      obtain ⟨x, hx, rfl⟩ := mem_indicesOf.mp hi
      split at h
      · rename_i hsource
        obtain ⟨t, ht, heq⟩ := List.mem_map.mp h
        obtain ⟨rfl, rfl⟩ := Prod.mk.inj heq
        rw [List.mem_filter, decide_eq_true_iff] at ht
        obtain ⟨q, rfl⟩ := hb.mem_statesOf.mp ht.1
        obtain ⟨p, hp⟩ := hb.mem_statesOf.mp hsource
        obtain rfl := stateOf_inj ha (hg x hx) hp
        exact ⟨_, .switch hx fun hpq => ht.2 (hpq ▸ rfl), rfl⟩
      · exact absurd h List.not_mem_nil
  · rintro ⟨b, hkind, rfl⟩
    cases hkind with
    | @native e he => exact .inl (List.mem_map.mpr ⟨_, (hb.native _ _).mpr ⟨e, he, rfl, rfl⟩, rfl⟩)
    | @switch p q x hx hpq =>
      have hne : stateOf g (q, x) ≠ stateOf g (p, x) := fun h =>
        hpq (congrArg Prod.fst (stateOf_inj (a := (q, x)) (b := (p, x)) (hg x hx) (hg x hx) h)).symm
      refine .inr
        (List.mem_flatMap.mpr ⟨_, (Finset.mem_sort _).mpr (List.mem_toFinset.mpr (mem_indicesOf.mpr ⟨x, hx, rfl⟩)), ?_⟩)
      rw [if_pos (hb.mem_statesOf.mpr ⟨p, rfl⟩)]
      exact List.mem_map.mpr ⟨_, List.mem_filter.mpr ⟨hb.mem_statesOf.mpr ⟨q, rfl⟩, decide_eq_true hne⟩, rfl⟩

/-! ## The way back -/

section

variable {next : Nat → List (Nat × EdgeKind)} {roots : List Nat} {parent : Parents}

/-- The states that have an entry. -/
def keys (parent : Parents) : List Nat := parent.map Prod.fst

/-- The table of parents so far: the roots, and states found over an edge from a state before them. -/
inductive Traced (next : Nat → List (Nat × EdgeKind)) (roots : List Nat) : Parents → Prop
  | roots : Traced next roots (roots.map fun state => (state, none))
  | found {parent : Parents} {current : Nat} {edge : Nat × EdgeKind} :
      Traced next roots parent → current ∈ keys parent →
    edge ∈ next current → edge.1 ∉ keys parent → Traced next roots (parent ++ [(edge.1, some (current, edge.2))])

theorem parentMarker_seen (parent : Parents) (s : Nat) : parentMarker.seen parent s = true ↔ s ∈ keys parent := by
  rw [parentMarker, List.any_eq_true, keys, List.mem_map]
  simp only [decide_eq_true_eq]

theorem traced_keeps : Search.Keeps parentMarker next (Traced next roots) := by
  refine ⟨fun {parent current edge} h hcurrent hedge hnew => h.found ((parentMarker_seen _ _).mp hcurrent) hedge ?_⟩
  rw [← parentMarker_seen]
  exact fun hs => absurd (hs.symm.trans hnew) (by decide)

/-- A walk from a root over the edges. -/
inductive Walk (next : Nat → List (Nat × EdgeKind)) (roots : List Nat) : List Nat → List EdgeKind → Nat → Prop
  | root {s : Nat} : s ∈ roots → Walk next roots [s] [] s
  | step {states : List Nat} {kinds : List EdgeKind} {s : Nat} {edge : Nat × EdgeKind} :
      Walk next roots states kinds s →
    edge ∈ next s → Walk next roots (states ++ [edge.1]) (kinds ++ [edge.2]) edge.1

theorem lookup_isSome {α : Type} {rows : List (Nat × α)} {j : Nat} :
    (rows.lookup j).isSome = true ↔ ∃ row ∈ rows, row.1 = j := by
  rw [List.lookup_isSome_iff]
  simp only [beq_iff_eq, eq_comm (a := j)]

theorem mem_of_lookup {α : Type} {rows : List (Nat × α)} {j : Nat} {a : α} (h : rows.lookup j = some a) :
    (j, a) ∈ rows := by
  obtain ⟨l₁, l₂, rfl, -⟩ := List.lookup_eq_some_iff.mp h
  exact List.mem_append_right _ List.mem_cons_self

theorem mem_keys {s : Nat} : s ∈ keys parent ↔ (parent.lookup s).isSome = true := by
  rw [lookup_isSome, keys, List.mem_map]

theorem lookup_append_of_mem {s : Nat} (h : s ∈ keys parent) (rest : Parents) :
    (parent ++ rest).lookup s = parent.lookup s := by
  obtain ⟨found, hfound⟩ := Option.isSome_iff_exists.mp (mem_keys.mp h)
  rw [List.lookup_append, hfound, Option.some_or]

theorem lookup_append_of_not_mem {s : Nat} (h : s ∉ keys parent) (rest : Parents) :
    (parent ++ rest).lookup s = rest.lookup s := by
  rw [mem_keys, Bool.not_eq_true, Option.isSome_eq_false_iff, Option.isNone_iff_eq_none] at h
  rw [List.lookup_append, h, Option.none_or]

/-- A root has no parent. -/
theorem lookup_roots {s : Nat} (h : s ∈ roots) :
    (roots.map fun state => ((state, none) : Nat × Option (Nat × EdgeKind))).lookup s = some none := by
  have hmem : ((s, none) : Nat × Option (Nat × EdgeKind)) ∈ roots.map fun state => (state, none) :=
    List.mem_map.mpr ⟨s, h, rfl⟩
  obtain ⟨found, hfound⟩ := Option.isSome_iff_exists.mp (lookup_isSome.mpr ⟨(s, none), hmem, rfl⟩)
  obtain ⟨r, -, heq⟩ := List.mem_map.mp (mem_of_lookup hfound)
  rw [hfound, ← (Prod.mk.inj heq).2]

/-- The way back from a state that was found ends at a root. -/
theorem backtrack_of_traced (h : Traced next roots parent) (rest : Parents) {s : Nat} (hs : s ∈ keys parent)
    {steps : Nat} (hsteps : parent.length ≤ steps) :
    ∃ states kinds, backtrack (parent ++ rest) steps s = .ok (states, kinds) ∧ Walk next roots states kinds s := by
  induction h generalizing rest s steps with
  | roots =>
    obtain ⟨entry, hmem, rfl⟩ := List.mem_map.mp hs
    obtain ⟨r, hr, rfl⟩ := List.mem_map.mp hmem
    cases steps with
    | zero => exact absurd (List.length_pos_of_mem hmem) (by omega)
    | succ steps =>
      refine ⟨[r], [], ?_, .root hr⟩
      rw [backtrack, lookup_append_of_mem hs, lookup_roots hr]
      rfl
  | @found parent current edge h hcurrent hedge hnew ih =>
    rw [List.length_append, List.length_singleton] at hsteps
    rw [List.append_assoc]
    by_cases hold : s ∈ keys parent
    · exact ih _ hold (by omega)
    · have hse : s = edge.1 := by
        rw [keys, List.map_append, List.mem_append] at hs
        simpa [show s ∉ parent.map Prod.fst from hold] using hs
      subst hse
      cases steps with
      | zero => omega
      | succ steps =>
        obtain ⟨states, kinds, hback, hwalk⟩ :=
          ih ([(edge.1, some (current, edge.2))] ++ rest) hcurrent (show _ ≤ steps by omega)
        refine ⟨states ++ [edge.1], kinds ++ [edge.2], ?_, hwalk.step hedge⟩
        rw [backtrack, lookup_append_of_not_mem hold, List.singleton_append, List.lookup_cons, beq_self_eq_true]
        refine bind_eq_ok.mpr ⟨_, rfl, ?_⟩
        exact bind_eq_ok.mpr ⟨_, hback, rfl⟩

end

/-- A walk over the rows of the expanded graph is a path of it. -/
theorem route_of_walk {adjacency : List (List (Nat × EdgeKind))} {x : String} (hx : x ∈ g.nodes)
    (hadjacency : ∀ a : CarrierNode, a.2 ∈ g.nodes → ∀ t kind,
      (t, kind) ∈ adjacency.getD (stateOf g a) [] ↔ ∃ b, KindHop g gateways kind a b ∧ t = stateOf g b)
    {roots : List Nat} (hroots : ∀ s ∈ roots, ∃ p, s = stateOf g (p, x)) {states : List Nat}
    {kinds : List EdgeKind} {s : Nat} (h : Walk (fun current => adjacency.getD current []) roots states kinds s) :
    ∃ path a, GatewayRoute g gateways x path kinds a ∧ states = path.map (stateOf g) ∧ s = stateOf g a := by
  induction h with
  | root hr =>
    obtain ⟨p, rfl⟩ := hroots _ hr
    exact ⟨_, _, .start p, rfl, rfl⟩
  | @step states kinds s edge _ hedge ih =>
    obtain ⟨path, a, hroute, rfl, rfl⟩ := ih
    obtain ⟨b, hkind, hb⟩ := (hadjacency a (hroute.mem hx).1 edge.1 edge.2).mp hedge
    exact ⟨path ++ [b], b, hroute.hop hkind, by rw [List.map_append, hb]; rfl, hb⟩

/-- The witness that is made of the states of a path. -/
theorem Built.witnessOf (hb : Built g m) {path : List CarrierNode} (hpath : ∀ a ∈ path, a.2 ∈ g.nodes)
    (kinds : List EdgeKind) :
    m.witnessOf (path.map (stateOf g)) kinds = renderRoute path kinds := by
  have hn : m.nodeCount = g.nodes.length := by rw [nodeCount, hb.nodes]
  have hcarrier : ∀ a ∈ path, m.carrierOf (stateOf g a) = a.1.name := by
    intro a ha
    rw [carrierOf, hn, stateOf_div (hpath a ha), List.getElem?_map, List.getElem?_idxOf (mem_PROTOCOLS a.1)]
    rfl
  have hnode : ∀ a ∈ path, m.nodeOf (stateOf g a) = a.2 := by
    intro a ha
    rw [nodeOf, hn, stateOf_mod (hpath a ha), hb.nodes, List.getElem?_idxOf (hpath a ha)]
    rfl
  have hswitch :
      ((path.map (stateOf g)).zip kinds |>.filter fun p => p.2 = .gatewaySwitch).map (fun p => m.nodeOf p.1) =
      ((path.zip kinds).filter fun p => p.2 = .gatewaySwitch).map fun p => p.1.2 := by
    rw [List.zip_map_left, List.filter_map, List.map_map]
    refine List.map_congr_left fun p hp => hnode p.1 (List.of_mem_zip (List.mem_filter.mp hp).1).1
  have hstates : (path.map (stateOf g)).map (fun state => m.carrierOf state ++ ":" ++ m.nodeOf state) =
      path.map fun a => a.1.name ++ ":" ++ a.2 := by
    rw [List.map_map]
    refine List.map_congr_left fun a ha => ?_
    rw [Function.comp_apply, hcarrier a ha, hnode a ha]
  have hcarriers : (path.map (stateOf g)).map m.carrierOf = path.map fun a => a.1.name := by
    rw [List.map_map]
    exact List.map_congr_left hcarrier
  rw [GatewayReachability.witnessOf, renderRoute, hstates, hcarriers, hswitch]

/-! ## The witnesses of a source -/

/-- What the rows of `_expanded_adjacency` say. -/
structure IsExpanded (g : FrozenConnectivity) (gateways : Finset String)
    (adjacency : List (List (Nat × EdgeKind))) : Prop where
  length : adjacency.length = g.nodes.length * PROTOCOLS.length
  row (a : CarrierNode) : a.2 ∈ g.nodes → ∀ t kind,
    (t, kind) ∈ adjacency.getD (stateOf g a) [] ↔ ∃ b, KindHop g gateways kind a b ∧ t = stateOf g b

/-- An edge between two rows. -/
def RowEdge (adjacency : List (List (Nat × EdgeKind))) (s t : Nat) : Prop := ∃ kind, (t, kind) ∈ adjacency.getD s []

variable {adjacency : List (List (Nat × EdgeKind))} {x : String}

theorem IsExpanded.lt (h : IsExpanded g gateways adjacency) {s t : Nat} (hst : RowEdge adjacency s t) :
    s < g.nodes.length * PROTOCOLS.length ∧ t < g.nodes.length * PROTOCOLS.length := by
  obtain ⟨kind, hst⟩ := hst
  by_cases hs : s < g.nodes.length * PROTOCOLS.length
  · obtain ⟨a, ha, rfl⟩ := exists_stateOf hs
    obtain ⟨b, hkind, rfl⟩ := (h.row a ha t kind).mp hst
    exact ⟨hs, stateOf_lt ((hop_iff_kindHop.mpr ⟨kind, hkind⟩).mem ha)⟩
  · rw [List.getD_eq_default _ _ (by rw [h.length]; omega)] at hst
    exact absurd hst List.not_mem_nil

/-- Paths over the rows are paths over hops. -/
theorem IsExpanded.reach_iff (h : IsExpanded g gateways adjacency) {a : CarrierNode} (ha : a.2 ∈ g.nodes) {t : Nat} :
    Relation.ReflTransGen (RowEdge adjacency) (stateOf g a) t ↔ ∃ b, Reaches g gateways a b ∧ t = stateOf g b := by
  constructor
  · intro hr
    induction hr with
    | refl => exact ⟨a, .refl, rfl⟩
    | tail _ hstep ih =>
      obtain ⟨b, hab, rfl⟩ := ih
      obtain ⟨kind, hkind⟩ := hstep
      obtain ⟨c, hbc, rfl⟩ := (h.row b (hab.mem ha) _ kind).mp hkind
      exact ⟨c, hab.tail (hop_iff_kindHop.mpr ⟨kind, hbc⟩), rfl⟩
  · rintro ⟨b, hab, rfl⟩
    induction hab with
    | refl => exact .refl
    | tail hab hbc ih =>
      obtain ⟨kind, hkind⟩ := hop_iff_kindHop.mp hbc
      exact ih.tail ⟨kind, (h.row _ (Reaches.mem hab ha) _ kind).mpr ⟨_, hkind, rfl⟩⟩

theorem Built.nodup_statesOf (hb : Built g m) (hx : x ∈ g.nodes) : (m.statesOf (g.nodes.idxOf x)).Nodup := by
  have hn : 0 < m.nodeCount := by
    rw [nodeCount, hb.nodes]
    exact List.length_pos_of_mem hx
  refine List.nodup_range.map fun p q h => ?_
  exact Nat.eq_of_mul_eq_mul_right hn (Nat.add_right_cancel h)

/-- The table of parents that the search from a node makes. -/
theorem Built.run_parents (hb : Built g m) (h : IsExpanded g gateways adjacency) (hx : x ∈ g.nodes) :
    ∃ parent,
      Search.run parentMarker (fun current => adjacency.getD current [])
      (fun queue destination => queue ++ [destination])
        m.stateCount ((m.statesOf (g.nodes.idxOf x)).map fun state => (state, none))
          (m.statesOf (g.nodes.idxOf x)) = some parent ∧
      Traced (fun current => adjacency.getD current []) (m.statesOf (g.nodes.idxOf x)) parent ∧
      ∀ t, t ∈ keys parent ↔ ∃ p b, Reaches g gateways (p, x) b ∧ t = stateOf g b := by
  have hkeys : keys ((m.statesOf (g.nodes.idxOf x)).map fun state => (state, none)) = m.statesOf (g.nodes.idxOf x) := by
    rw [keys, List.map_map]
    exact List.map_id' _
  have hseen (t : Nat) : parentMarker.seen ((m.statesOf (g.nodes.idxOf x)).map fun state => (state, none)) t = true ↔
      t ∈ m.statesOf (g.nodes.idxOf x) := by
    rw [parentMarker_seen, hkeys]
  have hstart : ∀ s ∈ m.statesOf (g.nodes.idxOf x), s ∈ Finset.range m.stateCount ∧
      parentMarker.seen ((m.statesOf (g.nodes.idxOf x)).map fun state => (state, none)) s = true := by
    intro s hs
    refine ⟨?_, (hseen s).mpr hs⟩
    obtain ⟨p, rfl⟩ := hb.mem_statesOf.mp hs
    rw [Finset.mem_range, hb.stateCount]
    exact stateOf_lt hx
  have hedge : Search.Edge parentMarker (fun current => adjacency.getD current []) = RowEdge adjacency := by
    funext s t
    refine propext ⟨?_, fun ⟨kind, h⟩ => ⟨(t, kind), h, rfl⟩⟩
    rintro ⟨⟨t, kind⟩, h, rfl⟩
    exact ⟨kind, h⟩
  have hclosed :
      ∀ s ∈ Finset.range m.stateCount, ∀ e ∈ adjacency.getD s [], parentMarker.dst e ∈ Finset.range m.stateCount := by
    intro s _ e he
    rw [Finset.mem_range, hb.stateCount]
    exact (h.lt ⟨e.2, he⟩).2
  obtain ⟨parent, hrun, htraced, hmarked⟩ := Search.run_spec _ Search.Pushes.queue hclosed hstart
    ((Search.work_le (hb.nodup_statesOf hx) hstart).trans_eq (Finset.card_range _)) traced_keeps .roots
  refine ⟨parent, hrun, htraced, fun t => ?_⟩
  rw [← parentMarker_seen, hmarked, Search.exists_fresh_iff hseen, hedge]
  constructor
  · rintro ⟨s, hs, hr⟩
    obtain ⟨p, rfl⟩ := hb.mem_statesOf.mp hs
    exact ⟨p, (h.reach_iff (a := (p, x)) hx).mp hr⟩
  · rintro ⟨p, hr⟩
    exact ⟨_, hb.mem_statesOf.mpr ⟨p, rfl⟩, (h.reach_iff (a := (p, x)) hx).mpr hr⟩

/-- Each node of a state that was found gets the witness of the first of its states. -/
theorem foldlM_witnesses {P : Nat → RouteWitness → Prop} {parent : Parents} {steps : Nat} (entries : Parents)
    (h : ∀ entry ∈ entries, ∃ states kinds, backtrack parent steps entry.1 = .ok (states, kinds) ∧
      P (entry.1 % m.nodeCount) (m.witnessOf states kinds)) (witnesses : List (Nat × RouteWitness))
    (hP : ∀ w ∈ witnesses, P w.1 w.2) :
    ∃ witnesses', entries.foldlM (fun witnesses entry => do
        if witnesses.any fun witness => witness.1 = entry.1 % m.nodeCount then return witnesses
        else do
          let (states, kinds) ← backtrack parent steps entry.1
          return witnesses ++ [(entry.1 % m.nodeCount, m.witnessOf states kinds)]) witnesses = .ok witnesses' ∧
      (∀ w ∈ witnesses', P w.1 w.2) ∧
      ∀ j, (∃ w ∈ witnesses', w.1 = j) ↔ (∃ w ∈ witnesses, w.1 = j) ∨ ∃ entry ∈ entries, entry.1 % m.nodeCount = j := by
  induction entries generalizing witnesses with
  | nil => exact ⟨witnesses, rfl, hP, fun j => by simp⟩
  | cons entry entries ih =>
    rw [List.forall_mem_cons] at h
    obtain ⟨⟨states, kinds, hback, hw⟩, h⟩ := h
    by_cases hany : ∃ w ∈ witnesses, w.1 = entry.1 % m.nodeCount
    · obtain ⟨witnesses', hfold, hP', hkeys⟩ := ih h witnesses hP
      refine ⟨witnesses', foldlM_cons_eq_ok.mpr ⟨witnesses, ?_, hfold⟩, hP', fun j => ?_⟩
      · rw [if_pos (by simpa using hany)]
        rfl
      · rw [hkeys, List.exists_mem_cons_iff]
        constructor
        · exact Or.imp_right .inr
        · rintro (h | rfl | h)
          · exact .inl h
          · exact .inl hany
          · exact .inr h
    · obtain ⟨witnesses', hfold, hP', hkeys⟩ :=
        ih h (witnesses ++ [(entry.1 % m.nodeCount, m.witnessOf states kinds)]) (by
        intro w hmem
        obtain hmem | hmem := List.mem_append.mp hmem
        · exact hP w hmem
        · exact List.mem_singleton.mp hmem ▸ hw)
      refine ⟨witnesses', foldlM_cons_eq_ok.mpr ⟨_, ?_, hfold⟩, hP', fun j => ?_⟩
      · rw [if_neg (by simpa using hany)]
        exact bind_eq_ok.mpr ⟨_, hback, rfl⟩
      · rw [hkeys, List.exists_mem_cons_iff]
        simp only [List.mem_append, List.mem_singleton, or_and_right, exists_or, exists_eq_left, or_assoc]

/-- The witnesses of a source are those of the nodes it is connected with. -/
theorem Built.sourceWitnesses (hb : Built g m) (h : IsExpanded g gateways adjacency) (hx : x ∈ g.nodes) :
    ∃ witnesses, m.sourceWitnesses (g.nodes.idxOf x) adjacency = .ok witnesses ∧
      ∀ y ∈ g.nodes, ((witnesses.lookup (g.nodes.idxOf y)).isSome = true ↔ Connected g gateways x y) ∧
        ∀ w ∈ witnesses.lookup (g.nodes.idxOf y),
          ∃ path kinds q, GatewayRoute g gateways x path kinds (q, y) ∧ w = renderRoute path kinds := by
  obtain ⟨parent, hrun, htraced, hkeys⟩ := hb.run_parents h hx
  have hn : m.nodeCount = g.nodes.length := by rw [nodeCount, hb.nodes]
  let P (j : Nat) (w : RouteWitness) : Prop :=
    ∃ path kinds a, GatewayRoute g gateways x path kinds a ∧ w = renderRoute path kinds ∧ j = g.nodes.idxOf a.2
  have hentries : ∀ entry ∈ parent, ∃ states kinds, backtrack parent parent.length entry.1 = .ok (states, kinds) ∧
      P (entry.1 % m.nodeCount) (m.witnessOf states kinds) := by
    intro entry hentry
    obtain ⟨states, kinds, hback, hwalk⟩ := backtrack_of_traced htraced [] (List.mem_map_of_mem hentry) le_rfl
    rw [List.append_nil] at hback
    obtain ⟨path, a, hroute, rfl, hs⟩ := route_of_walk hx h.row (fun s hs => hb.mem_statesOf.mp hs) hwalk
    have hmem := hroute.mem hx
    refine ⟨_, kinds, hback, path, kinds, a, hroute, hb.witnessOf hmem.2 kinds, ?_⟩
    rw [hs, hn, stateOf_mod hmem.1]
  obtain ⟨witnesses, hfold, hP, hfound⟩ := foldlM_witnesses parent hentries [] (by simp)
  refine ⟨witnesses, bind_eq_ok.mpr ⟨parent, orRevert_eq_ok.mpr hrun, hfold⟩, fun y hy => ⟨?_, fun w hw => ?_⟩⟩
  · rw [lookup_isSome, hfound]
    constructor
    · rintro (⟨w, hw, -⟩ | ⟨entry, hentry, hj⟩)
      · exact absurd hw List.not_mem_nil
      · obtain ⟨p, b, hr, hs⟩ := (hkeys entry.1).mp (List.mem_map_of_mem hentry)
        have hbm : b.2 ∈ g.nodes := hr.mem hx
        rw [hs, hn, stateOf_mod hbm] at hj
        obtain rfl := (List.idxOf_inj hbm).mp hj
        exact ⟨p, b.1, hr⟩
    · rintro ⟨p, q, hr⟩
      obtain ⟨entry, hentry, hs⟩ := List.mem_map.mp ((hkeys _).mpr ⟨p, (q, y), hr, rfl⟩)
      refine .inr ⟨entry, hentry, ?_⟩
      rw [hs, hn, stateOf_mod (a := (q, y)) hy]
  · obtain ⟨path, kinds, a, hroute, rfl, hj⟩ := hP _ (mem_of_lookup hw)
    obtain rfl := (List.idxOf_inj hy).mp hj
    exact ⟨path, kinds, a.1, hroute, rfl⟩

/-! ## The rows of evidence -/

/-- A row says of a pair whether it is connected without and with the gateways, and over which path. -/
structure RowOf (g : FrozenConnectivity) (gateways : Finset String) (x y : String) (row : PairRow) : Prop where
  source : row.source = x
  destination : row.destination = y
  baseline : row.baselineReachable = true ↔ Connected g ∅ x y
  terminal : row.terminalReachable = true ↔ Connected g gateways x y
  newly : row.newlyEnabledByGateway = true ↔ Connected g gateways x y ∧ ¬ Connected g ∅ x y
  witness : row.witness.isSome = true ↔ Connected g gateways x y
  route (w : RouteWitness) : w ∈ row.witness →
    ∃ path kinds q, GatewayRoute g gateways x path kinds (q, y) ∧ w = renderRoute path kinds

/-- The ordered pairs of different nodes. -/
def orderedPairs (g : FrozenConnectivity) : List (String × String) :=
  g.nodes.flatMap fun x => (g.nodes.filter fun y => x ≠ y).map fun y => (x, y)

theorem zipIdx_nodes (g : FrozenConnectivity) : g.nodes.zipIdx = g.nodes.map fun x => (x, g.nodes.idxOf x) := by
  refine List.ext_getElem (by simp) fun i hi _ => ?_
  rw [List.getElem_zipIdx, List.getElem_map, Nat.zero_add, g.nodup.idxOf_getElem]

theorem pairRow_ok (hb : Built g m) (hg : ∀ x ∈ gateways, x ∈ g.nodes) (hc : IsClosure g m gateways closure)
    (hx : x ∈ g.nodes) {y : String} (hy : y ∈ g.nodes) {witnesses : List (Nat × RouteWitness)}
    (hw : ((witnesses.lookup (g.nodes.idxOf y)).isSome = true ↔ Connected g gateways x y) ∧
      ∀ w ∈ witnesses.lookup (g.nodes.idxOf y),
        ∃ path kinds q, GatewayRoute g gateways x path kinds (q, y) ∧ w = renderRoute path kinds) :
    ∃ row, pairRow (m.networks closure (g.nodes.idxOf x)) (m.networks m.baseClosure (g.nodes.idxOf x)) witnesses x
        (y, g.nodes.idxOf y) = .ok row ∧ RowOf g gateways x y row := by
  have hbit (gateways : Finset String) {closure : List Nat} (hg : ∀ x ∈ gateways, x ∈ g.nodes)
      (hc : IsClosure g m gateways closure) :
      decide (m.networks closure (g.nodes.idxOf x) &&& (1 <<< g.nodes.idxOf y) ≠ 0) = true ↔
        Connected g gateways x y := by
    rw [decide_eq_true_iff, and_one_shiftLeft_ne_zero, hc.networks hb hg hx]
    constructor
    · rintro ⟨z, hz, hj⟩
      obtain rfl := (List.idxOf_inj hy).mp hj
      exact hz
    · exact fun h => ⟨y, h, rfl⟩
  have hterminal := hbit gateways hg hc
  have hbaseline := hbit ∅ (fun z hz => absurd hz (Finset.notMem_empty z)) hb.isClosure_base
  have hagree : ¬ decide (m.networks closure (g.nodes.idxOf x) &&& (1 <<< g.nodes.idxOf y) ≠ 0) ≠
      (witnesses.lookup (g.nodes.idxOf y)).isSome := by
    rw [not_not, Bool.eq_iff_iff, hterminal, hw.1]
  refine ⟨_, revertIf_bind.mpr ⟨hagree, rfl⟩, rfl, rfl, hbaseline, hterminal, ?_, ?_, ?_⟩
  · rw [Bool.and_eq_true, hterminal, Bool.not_eq_true', ← Bool.not_eq_true, hbaseline]
  · split
    · exact hw.1
    · rename_i hr
      rw [hterminal] at hr
      exact iff_of_false (by simp) hr
  · intro w hmem
    split at hmem
    · exact hw.2 w hmem
    · cases hmem

theorem pairEvidence_ok (hb : Built g m) (hg : ∀ x ∈ gateways, x ∈ g.nodes) (hc : IsClosure g m gateways closure) :
    ∃ rows, m.pairEvidence closure gateways = .ok rows ∧
      List.Forall₂ (fun pair row => RowOf g gateways pair.1 pair.2 row) (orderedPairs g) rows := by
  obtain ⟨adjacency, hadjacency, hlength, hrow⟩ := hb.expandedAdjacency hg
  have hexpanded : IsExpanded g gateways adjacency := ⟨hlength.trans hb.stateCount, hrow⟩
  have hsource : ∀ source ∈ g.nodes.map fun x => (x, g.nodes.idxOf x), ∃ rows,
      (do
        let witnesses ← m.sourceWitnesses source.2 adjacency
        (m.nodes.zipIdx.filter fun destination => source.2 ≠ destination.2).mapM
          (pairRow (m.networks closure source.2) (m.networks m.baseClosure source.2) witnesses source.1)) =
            Except.ok rows ∧
      List.Forall₂ (fun pair row => RowOf g gateways pair.1 pair.2 row)
        ((g.nodes.filter fun y => source.1 ≠ y).map fun y => (source.1, y)) rows := by
    intro source hsource
    obtain ⟨x, hx, rfl⟩ := List.mem_map.mp hsource
    obtain ⟨witnesses, hwitnesses, hw⟩ := hb.sourceWitnesses hexpanded hx
    have hfilter : m.nodes.zipIdx.filter (fun destination => g.nodes.idxOf x ≠ destination.2) =
        (g.nodes.filter fun y => x ≠ y).map fun y => (y, g.nodes.idxOf y) := by
      rw [hb.nodes, zipIdx_nodes, List.filter_map]
      refine congrArg (List.map _) (List.filter_congr fun y hy => ?_)
      simp only [Function.comp_apply, ne_eq, List.idxOf_inj hx]
    have hpair : ∀ destination ∈ (g.nodes.filter fun y => x ≠ y).map fun y => (y, g.nodes.idxOf y), ∃ row,
        pairRow (m.networks closure (g.nodes.idxOf x)) (m.networks m.baseClosure (g.nodes.idxOf x)) witnesses x
          destination = .ok row ∧
          RowOf g gateways x destination.1 row := by
      intro destination hd
      obtain ⟨y, hy, rfl⟩ := List.mem_map.mp hd
      have hy := (List.mem_filter.mp hy).1
      exact pairRow_ok hb hg hc hx hy (hw y hy)
    obtain ⟨rows, hrows, hall⟩ := exists_mapM_eq_ok hpair
    refine ⟨rows, bind_eq_ok.mpr ⟨witnesses, hwitnesses, ?_⟩, ?_⟩
    · rw [hfilter]
      exact hrows
    · rw [List.forall₂_map_left_iff] at hall ⊢
      exact hall
  obtain ⟨rows, hrows, hall⟩ := exists_mapM_eq_ok hsource
  refine ⟨rows.flatten, bind_eq_ok.mpr ⟨adjacency, hadjacency, bind_eq_ok.mpr ⟨rows, ?_, rfl⟩⟩, ?_⟩
  · have hzip : m.nodes.zipIdx = g.nodes.map fun x => (x, g.nodes.idxOf x) := by rw [hb.nodes, zipIdx_nodes]
    rw [hzip] at hrows ⊢
    exact hrows
  · rw [List.forall₂_map_left_iff] at hall
    rw [orderedPairs, List.flatMap]
    exact List.rel_flatten (List.forall₂_map_left_iff.mpr hall)

/-! ## The analysis of a graph -/

/-- What the analysis makes of a set of gateways. -/
structure Analysed (g : FrozenConnectivity) (m : GatewayReachability) (gateways : Finset String) (closure : List Nat)
    (adjacency : List (List (Nat × EdgeKind))) : Prop where
  /-- The rows of `_expanded_adjacency` are the native edges and the switches at gateways. -/
  expanded : m.expandedAdjacency gateways = .ok adjacency ∧ IsExpanded g gateways adjacency
  /-- The bits of the closure are the paths over these rows. -/
  closes : m.closure gateways = .ok closure ∧ closure.length = g.nodes.length * PROTOCOLS.length ∧
    ∀ s < closure.length, ∀ t, (closure.getD s 0).testBit t = true ↔ Relation.ReflTransGen (RowEdge adjacency) s t
  /-- Starting from the closure of some of the gateways makes no difference. -/
  restart (selected : Finset String) (before : List Nat) : selected ⊆ gateways → m.closure selected = .ok before →
    (do m.closeGateways before (← m.gatewayIndices gateways)) = .ok closure
  /-- Both reference functions count the pairs that are reachable. -/
  pairs : referenceGatewayPairs g gateways = .ok (m.reachablePairs closure) ∧
    ∃ rows pairs, referenceCarrierReachability g = .ok rows ∧ referenceGatewayPairSet g rows gateways = .ok pairs ∧
      (pairs.card : Int) = m.reachablePairs closure ∧
      ∀ x y, (x, y) ∈ pairs ↔ x ∈ g.nodes ∧ Connected g gateways x y ∧ y ≠ x
  /-- There is a row of evidence for each pair, with a path if there is one. -/
  evidence : ∃ rows, m.pairEvidence closure gateways = .ok rows ∧
    List.Forall₂ (fun pair row => RowOf g gateways pair.1 pair.2 row) (orderedPairs g) rows

/-- The closure, the counts and the evidence are those of the expanded graph. -/
theorem exists_analysed (g : FrozenConnectivity) (gateways : Finset String) (hg : ∀ x ∈ gateways, x ∈ g.nodes) :
    ∃ m closure adjacency, init g = .ok m ∧ Analysed g m gateways closure adjacency := by
  obtain ⟨m, hinit, hb⟩ := init_ok g
  obtain ⟨closure, hclosure, hc⟩ := hb.closure_ok hg
  obtain ⟨adjacency, hadjacency, hlength, hrow⟩ := hb.expandedAdjacency hg
  have hexpanded : IsExpanded g gateways adjacency := ⟨hlength.trans hb.stateCount, hrow⟩
  have hclen : closure.length = g.nodes.length * PROTOCOLS.length := hc.rows.length.trans hb.stateCount
  obtain ⟨rows, hrows, hcarrier⟩ := referenceCarrierReachability_ok g
  obtain ⟨pairs, hpairs, hmem⟩ := referenceGatewayPairSet_ok gateways hcarrier
  have hcount := hc.reachablePairs hb hg
  refine ⟨m, closure, adjacency, hinit, ⟨hadjacency, hexpanded⟩, ⟨hclosure, hclen, fun s hs t => ?_⟩,
    fun selected before hsub hbefore => ?_, ⟨?_, rows, pairs, hrows, hpairs, ?_, hmem⟩, pairEvidence_ok hb hg hc⟩
  · obtain ⟨a, ha, rfl⟩ := exists_stateOf (hclen ▸ hs)
    exact (hc.bit_iff hb hg ha).trans (hexpanded.reach_iff ha).symm
  · obtain ⟨before', hbefore', hcb⟩ := hb.closure_ok fun x hx => hg x (hsub hx)
    obtain rfl := Except.ok.inj (hbefore.symm.trans hbefore')
    obtain ⟨closure', hclose, hc'⟩ := hcb.closeGateways hb hg hsub
    rw [hc.eq hc' hb hg]
    exact bind_eq_ok.mpr ⟨_, hb.gatewayIndices hg, hclose⟩
  · rw [hcount, referenceGatewayPairs_ok hg]
  · rw [hcount, card_pairs hmem]

/-- Two nodes, each with an edge to the other, and a gateway. -/
def twoNodes : FrozenConnectivity where
  nodes := ["a", "b"]
  edges := [⟨"a", "b", .hyperlane, 0⟩, ⟨"b", "a", .layerzero, 0⟩]
  nodup := by decide
  src_mem := by simp
  dst_mem := by simp

theorem exists_analysed_twoNodes :
    ∃ m closure adjacency, init twoNodes = .ok m ∧ Analysed twoNodes m {"a"} closure adjacency :=
  exists_analysed twoNodes {"a"} fun x hx => by
    rw [Finset.mem_singleton.mp hx]
    exact List.mem_cons_self

end GatewayReachability

end Xir.Impl.XirLab
