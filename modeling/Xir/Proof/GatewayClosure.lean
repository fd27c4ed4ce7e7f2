import Mathlib.Data.List.GetD
import Xir.Impl.XirLab.GatewayDeployment

/-!
# The closure over gateways

A closure is a list of bitsets, the row of each state. `Rows` is what every
closure satisfies between two relaxations: it contains the native paths, and
each of its bits is a path of the expanded graph. Where no gateway grows it any
more, it has all of them (`Rows.closed`), so that the order of the gateways
and the closure that one starts from make no difference.
-/

namespace Xir.Impl.XirLab.GatewayReachability

variable {m : GatewayReachability} {closure closure' : List Nat} {indices : List Nat} {s t u : Nat}

/-- The bit of a state in the row of another. -/
def Bit (closure : List Nat) (s t : Nat) : Prop := (closure.getD s 0).testBit t = true

/-- A native edge. -/
def Native (m : GatewayReachability) (s t : Nat) : Prop := t ∈ m.nativeAdjacency.getD s []

/-- Two states of one gateway. -/
def Switch (m : GatewayReachability) (indices : List Nat) (s t : Nat) : Prop :=
  ∃ i ∈ indices, s ∈ m.statesOf i ∧ t ∈ m.statesOf i ∧ t ≠ s

/-- An edge of the expanded graph. -/
def Expanded (m : GatewayReachability) (indices : List Nat) (s t : Nat) : Prop := m.Native s t ∨ m.Switch indices s t

abbrev Reach (m : GatewayReachability) (indices : List Nat) : Nat → Nat → Prop :=
  Relation.ReflTransGen (m.Expanded indices)

/-- Edges lead to states. -/
structure Bounded (m : GatewayReachability) (indices : List Nat) : Prop where
  native (s t : Nat) : m.Native s t → t < m.stateCount
  gateway (i : Nat) : i ∈ indices → i < m.nodeCount

theorem lt_of_mem_statesOf {i : Nat} (hi : i < m.nodeCount) (hs : s ∈ m.statesOf i) : s < m.stateCount := by
  obtain ⟨p, hp, rfl⟩ := List.mem_map.mp hs
  have hp := List.mem_range.mp hp
  calc p * m.nodeCount + i < p * m.nodeCount + m.nodeCount := Nat.add_lt_add_left hi _
    _ = (p + 1) * m.nodeCount := (Nat.succ_mul p _).symm
    _ ≤ PROTOCOLS.length * m.nodeCount := Nat.mul_le_mul_right _ hp
    _ = m.stateCount := Nat.mul_comm _ _

theorem Bounded.reach (hb : m.Bounded indices) (h : m.Reach indices s t) (hs : s < m.stateCount) :
    t < m.stateCount := by
  induction h with
  | refl => exact hs
  | tail _ hstep _ =>
    obtain hn | ⟨i, hi, -, ht, -⟩ := hstep
    · exact hb.native _ _ hn
    · exact lt_of_mem_statesOf (hb.gateway i hi) ht

/-- The rows contain the native paths, and paths of the expanded graph. -/
structure Rows (m : GatewayReachability) (indices : List Nat) (closure : List Nat) : Prop where
  length : closure.length = m.stateCount
  refl {s : Nat} : s < m.stateCount → Bit closure s s
  native {s t u : Nat} : s < m.stateCount → Bit closure s t → m.Native t u → Bit closure s u
  sound {s t : Nat} : s < m.stateCount → Bit closure s t → m.Reach indices s t

theorem Rows.mono {indices' : List Nat} (h : m.Rows indices closure) (hi : indices ⊆ indices') :
    m.Rows indices' closure := by
  refine ⟨h.length, h.refl, h.native, fun hs hb => Relation.ReflTransGen.mono ?_ _ _ (h.sound hs hb)⟩
  intro a b hab
  exact hab.imp_right fun ⟨i, hm, hrest⟩ => ⟨i, hi hm, hrest⟩

/-- The row of each node that a search makes from it has what it reaches. -/
theorem searchRows_ok {count : Nat} (next : Nat → List Nat) (hN : ∀ s t, t ∈ next s → t < count) :
    ∃ rows, (List.range count).mapM (fun source => orRevert NativeError.diverges
        (Search.run bitMarker next (fun queue destination => queue ++ [destination]) count (1 <<< source) [source])) =
          .ok rows ∧
      rows.length = count ∧ ∀ s t, s < count → (Bit rows s t ↔ Relation.ReflTransGen (fun a b => b ∈ next a) s t) := by
  have seen (bits t : Nat) : bitMarker.seen bits t = true ↔ bits.testBit t = true := by
    rw [bitMarker, decide_eq_true_iff, and_one_shiftLeft_ne_zero]
  have hedge : Search.Edge bitMarker next = fun a b => b ∈ next a := by
    funext a b
    exact propext ⟨fun ⟨e, he, hb⟩ => hb ▸ he, fun h => ⟨b, h, rfl⟩⟩
  have hrow : ∀ s ∈ List.range count, ∃ row, orRevert NativeError.diverges
      (Search.run bitMarker next (fun queue destination => queue ++ [destination]) count (1 <<< s) [s]) = .ok row ∧
      ∀ t, row.testBit t = true ↔ Relation.ReflTransGen (fun a b => b ∈ next a) s t := by
    intro s hs
    have hstart : ∀ x ∈ [s], x ∈ Finset.range count ∧ bitMarker.seen (1 <<< s) x = true := by
      intro x hx
      obtain rfl := List.mem_singleton.mp hx
      exact ⟨Finset.mem_range.mpr (List.mem_range.mp hs), by rw [seen, testBit_one_shiftLeft]⟩
    obtain ⟨row, hrun, -, hmarked⟩ := Search.run_spec (J := fun _ => True) (Finset.range count) Search.Pushes.queue
      (fun x _ e he => Finset.mem_range.mpr (hN x e he)) hstart
      ((Search.work_le (List.nodup_singleton s) hstart).trans_eq (Finset.card_range _)) ⟨fun _ _ _ _ => trivial⟩ trivial
    refine ⟨row, orRevert_eq_ok.mpr hrun, fun t => ?_⟩
    rw [← seen, hmarked,
      Search.exists_fresh_iff (fun y => by rw [seen, testBit_one_shiftLeft, List.mem_singleton]), hedge]
    exact ⟨fun ⟨x, hx, h⟩ => List.mem_singleton.mp hx ▸ h, fun h => ⟨s, List.mem_singleton_self s, h⟩⟩
  obtain ⟨rows, hrows, hall⟩ := exists_mapM_eq_ok hrow
  have hlen : count = rows.length := (List.length_range).symm.trans hall.length_eq
  refine ⟨rows, hrows, hlen.symm, fun s t hs => ?_⟩
  rw [Bit, List.getD_eq_getElem _ _ (hlen ▸ hs)]
  have := hall.get (i := s) (by simpa using hs) (hlen ▸ hs)
  simpa using this t

/-! ## One relaxation -/

/-- A row meets the states of a gateway. -/
def Meets (m : GatewayReachability) (closure : List Nat) (i s : Nat) : Prop := ∃ a ∈ m.statesOf i, Bit closure s a

/-- The mask of a gateway is its states, the successors are what they reach. -/
theorem relaxRow_testBit (closure : List Nat) (i reachable t : Nat) :
    (relaxRow ((m.statesOf i).foldl (fun mask state => mask ||| (1 <<< state)) 0)
        ((m.statesOf i).foldl (fun union state => union ||| closure.getD state 0) 0) reachable).testBit t = true ↔
      reachable.testBit t = true ∨
        (∃ a ∈ m.statesOf i, reachable.testBit a = true) ∧ ∃ b ∈ m.statesOf i, Bit closure b t := by
  have hmask (j : Nat) : ((m.statesOf i).foldl (fun mask state => mask ||| (1 <<< state)) 0).testBit j = true ↔
      j ∈ m.statesOf i := by
    rw [testBit_foldl_or, Nat.zero_testBit]
    simp only [testBit_one_shiftLeft, Bool.false_eq_true, false_or, exists_eq_right']
  rw [relaxRow]
  split
  · rename_i h
    obtain ⟨a, ha, hj⟩ := (and_ne_zero_iff _ _).mp h
    have hmeets : ∃ a ∈ m.statesOf i, reachable.testBit a = true := ⟨a, (hmask a).mp hj, ha⟩
    rw [testBit_or_true, testBit_foldl_or, Nat.zero_testBit]
    simp only [Bool.false_eq_true, false_or, hmeets, true_and]
    rfl
  · rename_i h
    have hmeets : ¬ ∃ a ∈ m.statesOf i, reachable.testBit a = true := by
      intro hmeets
      obtain ⟨a, ha, hr⟩ := hmeets
      exact h ((and_ne_zero_iff _ _).mpr ⟨a, hr, (hmask a).mpr ha⟩)
    simp only [hmeets, false_and, or_false]

theorem addGateway_length (closure : List Nat) (i : Nat) : (m.addGateway closure i).2.length = closure.length :=
  List.length_map _

/-- What a relaxation adds to a row. -/
theorem addGateway_bit (i : Nat) (hs : s < closure.length) :
    Bit (m.addGateway closure i).2 s t ↔
      Bit closure s t ∨ m.Meets closure i s ∧ ∃ b ∈ m.statesOf i, Bit closure b t := by
  rw [Bit, addGateway, List.getD_eq_getElem _ _ (by simpa using hs), List.getElem_map, relaxRow_testBit, ←
    List.getD_eq_getElem _ 0 hs]
  rfl

theorem Rows.addGateway {i : Nat} (h : m.Rows indices closure) (hb : m.Bounded indices) (hi : i ∈ indices) :
    m.Rows indices (m.addGateway closure i).2 := by
  have hlt {s : Nat} (hs : s < m.stateCount) : s < closure.length := h.length ▸ hs
  have hstate {s : Nat} : s ∈ m.statesOf i → s < m.stateCount := lt_of_mem_statesOf (hb.gateway i hi)
  refine ⟨(addGateway_length closure i).trans h.length, fun hs => ?_, fun hs ht hn => ?_, fun hs ht => ?_⟩
  · exact (addGateway_bit i (hlt hs)).mpr (.inl (h.refl hs))
  · rw [addGateway_bit i (hlt hs)] at ht ⊢
    exact ht.imp
      (fun ht => h.native hs ht hn) fun ht => ⟨ht.1, ht.2.imp fun b hb => ⟨hb.1, h.native (hstate hb.1) hb.2 hn⟩⟩
  · rw [addGateway_bit i (hlt hs)] at ht
    obtain ht | ⟨⟨a, ha, hsa⟩, b, hb, hbt⟩ := ht
    · exact h.sound hs ht
    · -- the path goes to a state of the gateway, switches there, and goes on
      refine (h.sound hs hsa).trans (.trans ?_ (h.sound (hstate hb) hbt))
      by_cases hab : b = a
      · rw [hab]
      · exact .single (.inr ⟨i, hi, ha, hb, hab⟩)

/-! ## Growth -/

/-- The bits that are missing in the rows. -/
def missing (m : GatewayReachability) (closure : List Nat) : Nat :=
  (closure.map fun row => m.stateCount - (bitsBelow m.stateCount row).card).sum

theorem missing_le (closure : List Nat) : m.missing closure ≤ closure.length * m.stateCount := by
  induction closure with
  | nil => exact Nat.zero_le _
  | cons row closure ih =>
    rw [missing, List.map_cons, List.sum_cons, List.length_cons, Nat.succ_mul]
    have : m.missing closure = (closure.map fun row => m.stateCount - (bitsBelow m.stateCount row).card).sum := rfl
    omega

/-- The bits of the rows are those of states. -/
def Narrow (m : GatewayReachability) (closure : List Nat) : Prop :=
  ∀ row ∈ closure, ∀ t, row.testBit t = true → t < m.stateCount

theorem Rows.narrow (h : m.Rows indices closure) (hb : m.Bounded indices) : m.Narrow closure := by
  intro row hrow t ht
  obtain ⟨s, hs, rfl⟩ := List.mem_iff_getElem.mp hrow
  refine hb.reach (h.sound (h.length ▸ hs) ?_) (h.length ▸ hs)
  rwa [Bit, List.getD_eq_getElem _ _ hs]

/-- The missing bits of a row. -/
def missingRow (m : GatewayReachability) (row : Nat) : Nat := m.stateCount - (bitsBelow m.stateCount row).card

theorem missingRow_le {row row' : Nat} (hsub : ∀ t, row.testBit t = true → row'.testBit t = true) :
    m.missingRow row' ≤ m.missingRow row := by
  have hcard : (bitsBelow m.stateCount row).card ≤ (bitsBelow m.stateCount row').card := by
    refine Finset.card_le_card fun t ht => ?_
    rw [mem_bitsBelow] at ht ⊢
    exact ⟨ht.1, hsub t ht.2⟩
  exact Nat.sub_le_sub_left hcard _

theorem missingRow_lt {row row' : Nat} (hsub : ∀ t, row.testBit t = true → row'.testBit t = true) (hne : row' ≠ row)
    (hn : ∀ t, row'.testBit t = true → t < m.stateCount) : m.missingRow row' < m.missingRow row := by
  obtain ⟨t, ht⟩ := Nat.exists_testBit_ne_of_ne hne
  have ht' : row'.testBit t = true := by
    cases hr : row.testBit t with
    | true => exact hsub t hr
    | false =>
      rw [hr] at ht
      exact eq_true_of_ne_false ht
  have hnot : row.testBit t ≠ true := fun h => ht (ht'.trans h.symm)
  have hcard : (bitsBelow m.stateCount row).card < (bitsBelow m.stateCount row').card := by
    refine Finset.card_lt_card ((Finset.ssubset_iff_of_subset fun u hu => ?_).mpr ⟨t, ?_, ?_⟩)
    · rw [mem_bitsBelow] at hu ⊢
      exact ⟨hu.1, hsub u hu.2⟩
    · exact mem_bitsBelow.mpr ⟨hn t ht', ht'⟩
    · exact fun h => hnot (mem_bitsBelow.mp h).2
  have hle : (bitsBelow m.stateCount row').card ≤ m.stateCount :=
    (Finset.card_filter_le _ _).trans_eq (Finset.card_range _)
  rw [missingRow, missingRow]
  omega

/-- Where rows grow, fewer bits are missing, and fewer still where one of them is another. -/
theorem missing_map {f : Nat → Nat} (hf : ∀ row ∈ closure, ∀ t, row.testBit t = true → (f row).testBit t = true)
    (hn : m.Narrow (closure.map f)) :
    m.missing (closure.map f) ≤ m.missing closure ∧
      ((∃ row ∈ closure, f row ≠ row) → m.missing (closure.map f) < m.missing closure) := by
  induction closure with
  | nil => simp
  | cons row closure ih =>
    rw [List.forall_mem_cons] at hf
    rw [List.map_cons, Narrow, List.forall_mem_cons] at hn
    have hle : m.missingRow (f row) ≤ m.missingRow row := missingRow_le hf.1
    obtain ⟨hih, hlt⟩ := ih hf.2 hn.2
    have hsum (xs : List Nat) (x : Nat) : m.missing (x :: xs) = m.missingRow x + m.missing xs := by
      simp [missing, missingRow]
    rw [List.map_cons, hsum, hsum]
    refine ⟨Nat.add_le_add hle hih, ?_⟩
    rw [List.exists_mem_cons_iff]
    rintro (hne | hex)
    · exact Nat.add_lt_add_of_lt_of_le (missingRow_lt hf.1 hne hn.1) hih
    · exact Nat.add_lt_add_of_le_of_lt hle (hlt hex)

/-- A relaxation that adds nothing. -/
theorem addGateway_same {i : Nat} (h : (m.addGateway closure i).1 = false) : (m.addGateway closure i).2 = closure := by
  have hrow : ∀ row ∈ closure, relaxRow ((m.statesOf i).foldl (fun mask state => mask ||| (1 <<< state)) 0)
      ((m.statesOf i).foldl (fun union state => union ||| closure.getD state 0) 0) row = row := by
    simpa [addGateway] using h
  exact (List.map_congr_left hrow).trans (List.map_id' closure)

theorem addGateway_grows (hb : m.Bounded indices) {i : Nat} (hi : i ∈ indices) :
    GrowthStep (m.Rows indices) m.missing (m.addGateway · i) := by
  refine ⟨fun h => h.addGateway hb hi, fun _ => addGateway_same, fun {closure} h hg => ?_⟩
  have hmap := missing_map (fun row _ t ht => (relaxRow_testBit (m := m) closure i row t).mpr (.inl ht))
    ((h.addGateway hb hi).narrow hb)
  exact hmap.2 (by simpa [addGateway] using hg)

/-- No gateway grows the closure. -/
def Closed (m : GatewayReachability) (indices : List Nat) (closure : List Nat) : Prop :=
  ∀ i ∈ indices, (m.addGateway closure i).1 = false

/-- The loop over the gateways ends, with a closure that none of them grows. -/
theorem Rows.closeGateways (h : m.Rows indices closure) (hb : m.Bounded indices) :
    ∃ closure', m.closeGateways closure indices = .ok closure' ∧ m.Rows indices closure' ∧ m.Closed indices closure' :=
  by
  have hrounds : m.missing closure + 1 ≤ m.stateCount * m.stateCount + 1 := by
    have := missing_le (m := m) closure
    rw [h.length] at this
    exact Nat.add_le_add_right this 1
  have hgrows : ∀ i ∈ indices, GrowthStep (m.Rows indices) m.missing (m.addGateway · i) :=
    fun i hi => addGateway_grows hb hi
  obtain ⟨closure', hloop, hrows, hclosed⟩ := GrowthStep.loop hgrows h hrounds
  refine ⟨closure', ?_, hrows, hclosed⟩
  rw [GatewayReachability.closeGateways]
  exact bind_eq_ok.mpr ⟨(false, closure'), orRevert_eq_ok.mpr hloop, rfl⟩

/-- Where no gateway grows the closure, its bits are the paths of the expanded graph. -/
theorem Rows.closed (h : m.Rows indices closure) (hb : m.Bounded indices) (hc : m.Closed indices closure)
    (hs : s < m.stateCount) : Bit closure s t ↔ m.Reach indices s t := by
  refine ⟨h.sound hs, fun hr => ?_⟩
  induction hr with
  | refl => exact h.refl hs
  | tail _ hstep ih =>
    obtain hn | ⟨i, hi, ha, hb', -⟩ := hstep
    · exact h.native hs ih hn
    · have hbit := (addGateway_bit (m := m) i (h.length ▸ hs)).mpr
        (.inr ⟨⟨_, ha, ih⟩, _, hb', h.refl (lt_of_mem_statesOf (hb.gateway i hi) hb')⟩)
      rwa [addGateway_same (hc i hi)] at hbit

/-- Closures with the same bits are the same. -/
theorem Rows.ext (h : m.Rows indices closure) {indices' : List Nat} (h' : m.Rows indices' closure')
    (hbits : ∀ s, s < m.stateCount → ∀ t, Bit closure s t ↔ Bit closure' s t) : closure = closure' := by
  refine List.ext_getElem (h.length.trans h'.length.symm) fun s hs hs' => Nat.eq_of_testBit_eq fun t => ?_
  have hb := hbits s (h.length ▸ hs) t
  rw [Bit, Bit, List.getD_eq_getElem _ _ hs, List.getD_eq_getElem _ _ hs'] at hb
  exact Bool.eq_iff_iff.mpr hb

end Xir.Impl.XirLab.GatewayReachability
