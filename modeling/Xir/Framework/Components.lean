import Mathlib.Algebra.BigOperators.Group.Finset.Basic
import Mathlib.Algebra.Order.BigOperators.Group.Finset
import Mathlib.Tactic.Tauto
import Xir.Framework.Search

/-!
# Strongly connected components by two searches

The first search visits the graph depth first, with a stack, and lists the nodes
in the order in which it leaves them. The second one goes through that list from
its end, and collects what reaches a node over nodes that are not yet collected.
`Left` is what the first search makes sure of: an edge leads to a node that was
left before, or to one that reaches every node left in between. Hence the last
node that is left of a component is left after all that the component reaches
(`Left.exists_last`), and what the second search collects are the components
(`components_spec`).
-/

namespace Xir.Components

variable {α : Type} [DecidableEq α] (forward reverse : α → List α)

/-! ## The two searches -/

/-- The first search: the nodes that it left, in that order, those that it came to, and what it
has still to do, which is to come to a node or, with `true`, to leave it. -/
structure Descent (α : Type) where
  order : List α
  visited : Finset α
  stack : List (α × Bool)

/-- Does what is on top of the stack. -/
def descend (s : Descent α) : Descent α :=
  match s.stack with
  | [] => s
  | (current, exiting) :: stack =>
    if exiting = true then { s with order := s.order ++ [current], stack := stack }
    else if current ∈ s.visited then { s with stack := stack }
    else
      let visited := insert current s.visited
      let neighbors := (forward current).filter fun neighbor => neighbor ∉ visited
      ⟨s.order, visited, (neighbors.reverse.map fun neighbor => (neighbor, false)) ++ (current, true) :: stack⟩

/-- The search from a node, unless it was come to before. -/
def descendFrom (steps : Nat) (s : Descent α) (origin : α) : Option (Descent α) :=
  if origin ∈ s.visited then some s
  else whileLoop (fun s => !s.stack.isEmpty) (descend forward) steps { s with stack := [(origin, false)] }

/-- The nodes in the order in which the first search leaves them. -/
def finishOrder (steps : Nat) (origins : List α) : Option (List α) :=
  (origins.foldlM (descendFrom forward steps) ⟨[], ∅, []⟩).map Descent.order

/-- The second search: the nodes that it came to, those of the component, and those to visit. -/
structure Collection (α : Type) where
  visited : Finset α
  component : Finset α
  queue : List α

/-- Adds the node on top of the stack to the component, and comes to its neighbours. -/
def collect (s : Collection α) : Collection α :=
  match s.queue with
  | [] => s
  | current :: _ =>
    let next := Search.visit (setMarker α) reverse (fun queue neighbor => neighbor :: queue) (s.visited, s.queue)
    ⟨next.1, insert current s.component, next.2⟩

/-- Collects the component of a node, unless it was collected. -/
def collectFrom (steps : Nat) (s : Finset α × List (Finset α)) (origin : α) : Option (Finset α × List (Finset α)) :=
  if origin ∈ s.1 then some s
  else
    (whileLoop (fun s => !s.queue.isEmpty) (collect reverse) steps ⟨insert origin s.1, ∅, [origin]⟩).map fun t =>
      (t.visited, s.2 ++ [t.component])

/-- The components, for a list of nodes in the order in which they are left. -/
def components (steps : Nat) (order : List α) : Option (List (Finset α)) :=
  (order.reverse.foldlM (collectFrom reverse steps) (∅, [])).map Prod.snd

variable {forward reverse}

omit [DecidableEq α] in
/-- An edge. -/
def Edge (forward : α → List α) (a b : α) : Prop := b ∈ forward a

omit [DecidableEq α] in
abbrev Reach (forward : α → List α) : α → α → Prop := Relation.ReflTransGen (Edge forward)

/-! ## The order in which nodes are left -/

/-- An edge from a node that is left leads to a node that was left before, or to one that
reaches every node left since; `gray` are the nodes that are not yet left. -/
def LeftEdge (forward : α → List α) (gray : α → Prop) (pre : List α) (a b : α) (post : List α) : Prop :=
  b ∈ pre ∨ b = a ∨ (gray b ∧ ∀ c ∈ a :: post, Reach forward b c) ∨
    ∃ post₁ post₂, post = post₁ ++ b :: post₂ ∧ ∀ c ∈ a :: post₁, Reach forward b c

def Left (forward : α → List α) (gray : α → Prop) (order : List α) : Prop :=
  ∀ pre a post, order = pre ++ a :: post → ∀ b, Edge forward a b → LeftEdge forward gray pre a b post

omit [DecidableEq α] in
theorem Left.mono {gray gray' : α → Prop} {order : List α} (h : Left forward gray order) (hg : ∀ b, gray b → gray' b) :
    Left forward gray' order := by
  intro pre a post heq b hab
  exact (h pre a post heq b hab).imp_right (Or.imp_right (Or.imp_left fun h => ⟨hg b h.1, h.2⟩))

omit [DecidableEq α] in
/-- The node `g` is left, whose neighbours were come to, and which the other gray nodes reach. -/
theorem Left.concat {gray gray' : α → Prop} {order : List α} {g : α} (h : Left forward gray order)
    (hgray : ∀ b, gray b → b = g ∨ gray' b) (hreach : ∀ b, gray' b → Reach forward b g)
    (hnext : ∀ b, Edge forward g b → b ∈ order ∨ b = g ∨ gray' b) : Left forward gray' (order ++ [g]) := by
  intro pre a post heq b hab
  obtain rfl | ⟨post, c, rfl⟩ := List.eq_nil_or_concat post
  · obtain ⟨rfl, hlast⟩ := List.append_inj' heq rfl
    obtain rfl := List.head_eq_of_cons_eq hlast
    obtain hb | hb | hb := hnext b hab
    · exact .inl hb
    · exact .inr (.inl hb)
    · refine .inr (.inr (.inl ⟨hb, fun c hc => ?_⟩))
      rw [List.mem_singleton.mp hc]
      exact hreach b hb
  · rw [List.concat_eq_append, ← List.cons_append, ← List.append_assoc] at heq
    obtain ⟨rfl, hlast⟩ := List.append_inj' heq rfl
    obtain rfl := List.head_eq_of_cons_eq hlast
    rw [List.concat_eq_append]
    obtain hb | hb | ⟨hb, hc⟩ | ⟨post₁, post₂, rfl, hc⟩ := h pre a post rfl b hab
    · exact .inl hb
    · exact .inr (.inl hb)
    · obtain rfl | hb := hgray b hb
      · exact .inr (.inr (.inr ⟨post, [], rfl, hc⟩))
      · refine .inr (.inr (.inl ⟨hb, ?_⟩))
        rw [← List.cons_append, List.forall_mem_append]
        exact ⟨hc, fun c hc => List.mem_singleton.mp hc ▸ hreach b hb⟩
    · exact .inr (.inr (.inr ⟨post₁, post₂ ++ [g], by rw [List.append_assoc, List.cons_append], hc⟩))

/-! ## The first search -/

/-- How far the first search has come. -/
structure Descending (forward : α → List α) (nodes : Finset α) (s : Descent α) : Prop where
  visited (v : α) : v ∈ s.visited ↔ v ∈ s.order ∨ (v, true) ∈ s.stack
  nodup : s.order.Nodup
  fresh (v : α) : (v, true) ∈ s.stack → v ∉ s.order
  /-- A node is left once, and reaches what is above it. -/
  above : s.stack.Pairwise fun e e' => e'.2 = true → Reach forward e'.1 e.1 ∧ e ≠ e'
  /-- The neighbours of a node that is not yet left were come to, or are above it. -/
  listed (upper : List (α × Bool)) (g : α) (lower : List (α × Bool)) : s.stack = upper ++ (g, true) :: lower →
    ∀ b, Edge forward g b → b ∈ s.visited ∨ (b, false) ∈ upper
  left : Left forward (fun b => (b, true) ∈ s.stack) s.order
  stacked (e : α × Bool) : e ∈ s.stack → e.1 ∈ nodes
  ordered (v : α) : v ∈ s.order → v ∈ nodes

omit [DecidableEq α] in
/-- A node to leave that is in a stack with new neighbours. -/
theorem split_push {neighbors : List α} {n g : α} {rest upper lower : List (α × Bool)}
    (h : (neighbors.map fun b => (b, false)) ++ (n, true) :: rest = upper ++ (g, true) :: lower) :
    (upper = neighbors.map (fun b => (b, false)) ∧ g = n) ∨
      ∃ upper', upper = (neighbors.map fun b => (b, false)) ++ (n, true) :: upper' ∧
        rest = upper' ++ (g, true) :: lower := by
  induction neighbors generalizing upper with
  | nil =>
    cases upper with
    | nil => exact .inl ⟨rfl, (Prod.mk.inj (List.cons.inj h).1).1.symm⟩
    | cons e upper =>
      obtain ⟨rfl, hrest⟩ := List.cons.inj h
      exact .inr ⟨upper, rfl, hrest⟩
  | cons b neighbors ih =>
    cases upper with
    | nil => exact absurd (Prod.mk.inj (List.cons.inj h).1).2 (by simp)
    | cons e upper =>
      obtain ⟨rfl, hrest⟩ := List.cons.inj h
      obtain ⟨rfl, hg⟩ | ⟨upper', rfl, hlower⟩ := ih hrest
      · exact .inl ⟨rfl, hg⟩
      · exact .inr ⟨upper', rfl, hlower⟩

namespace Descending

variable {nodes visited : Finset α} {order : List α} {rest : List (α × Bool)} {n : α} {s : Descent α}

omit [DecidableEq α] in
/-- A node is left. -/
theorem leave (h : Descending forward nodes ⟨order, visited, (n, true) :: rest⟩) :
    Descending forward nodes ⟨order ++ [n], visited, rest⟩ := by
  have hover := (List.pairwise_cons.mp h.above).1
  refine ⟨fun v => ?_, ?_, fun v hv hm => ?_, (List.pairwise_cons.mp h.above).2, fun upper g lower heq b hb => ?_, ?_,
    fun e he => h.stacked e (List.mem_cons_of_mem _ he), fun v hv => ?_⟩
  · show v ∈ visited ↔ v ∈ order ++ [n] ∨ (v, true) ∈ rest
    rw [show v ∈ visited ↔ _ from h.visited v, List.mem_append, List.mem_singleton, List.mem_cons, Prod.mk.injEq]
    tauto
  · exact h.nodup.append (List.nodup_singleton n) (by simpa using h.fresh n List.mem_cons_self)
  · obtain hm | hm := List.mem_append.mp hm
    · exact h.fresh v (List.mem_cons_of_mem _ hv) hm
    · obtain rfl := List.mem_singleton.mp hm
      exact (hover _ hv rfl).2 rfl
  · obtain hb | hb := h.listed ((n, true) :: upper) g lower (congrArg _ heq) b hb
    · exact .inl hb
    · exact .inr (by simpa using hb)
  · refine h.left.concat (g := n) (fun b hb => ?_) (fun b hb => (hover _ hb rfl).1) fun b hb => ?_
    · exact (List.mem_cons.mp hb).imp_left fun h => (Prod.mk.inj h).1
    · obtain hb | hb := h.listed [] n rest rfl b hb
      · obtain hb | hb := (h.visited b).mp hb
        · exact .inl hb
        · exact .inr ((List.mem_cons.mp hb).imp_left fun h => (Prod.mk.inj h).1)
      · exact absurd hb List.not_mem_nil
  · obtain hv | hv := List.mem_append.mp hv
    · exact h.ordered v hv
    · exact List.mem_singleton.mp hv ▸ h.stacked _ List.mem_cons_self

omit [DecidableEq α] in
/-- A node is on top that was come to before. -/
theorem skip (h : Descending forward nodes ⟨order, visited, (n, false) :: rest⟩) (hv : n ∈ visited) :
    Descending forward nodes ⟨order, visited, rest⟩ := by
  have hgray (v : α) : (v, true) ∈ (n, false) :: rest ↔ (v, true) ∈ rest := by simp
  refine ⟨fun v => ?_, h.nodup, fun v hm => h.fresh v ((hgray v).mpr hm), (List.pairwise_cons.mp h.above).2,
    fun upper g lower heq b hb => ?_, h.left.mono fun b hb => (hgray b).mp hb,
    fun e he => h.stacked e (List.mem_cons_of_mem _ he), h.ordered⟩
  · exact (h.visited v).trans (or_congr_right (hgray v))
  · obtain hb | hb := h.listed ((n, false) :: upper) g lower (congrArg _ heq) b hb
    · exact .inl hb
    · obtain hb | hb := List.mem_cons.mp hb
      · exact .inl ((Prod.mk.inj hb).1 ▸ hv)
      · exact .inr hb

/-- A node is come to, and its neighbours are put above it. -/
theorem come (hn : ∀ a ∈ nodes, ∀ b, Edge forward a b → b ∈ nodes)
    (h : Descending forward nodes ⟨order, visited, (n, false) :: rest⟩) (hv : n ∉ visited) {neighbors : List α}
    (hneighbors : ∀ b, b ∈ neighbors ↔ Edge forward n b ∧ b ∉ insert n visited) :
    Descending forward nodes ⟨order, insert n visited, (neighbors.map fun b => (b, false)) ++ (n, true) :: rest⟩ := by
  have hover := (List.pairwise_cons.mp h.above).1
  have hgray (v : α) : (v, true) ∈ (n, false) :: rest ↔ (v, true) ∈ rest := by simp
  have hgray' (v : α) : (v, true) ∈ (neighbors.map fun b => (b, false)) ++ (n, true) :: rest ↔
      v = n ∨ (v, true) ∈ rest := by
    simp
  refine ⟨fun v => ?_, h.nodup, fun v hm => ?_, ?_, fun upper g lower heq b hb => ?_, ?_, fun e he => ?_, h.ordered⟩
  · show v ∈ insert n visited ↔ v ∈ order ∨ (v, true) ∈ (neighbors.map fun b => (b, false)) ++ (n, true) :: rest
    rw [Finset.mem_insert, show v ∈ visited ↔ v ∈ order ∨ (v, true) ∈ (n, false) :: rest from h.visited v,
      hgray, hgray']
    tauto
  · obtain rfl | hm := (hgray' v).mp hm
    · exact fun hm => hv ((h.visited v).mpr (.inl hm))
    · exact h.fresh v ((hgray v).mpr hm)
  · refine List.pairwise_append.mpr ⟨?_, List.pairwise_cons.mpr ⟨fun e he ht => ⟨(hover e he ht).1, ?_⟩,
      (List.pairwise_cons.mp h.above).2⟩, ?_⟩
    · rw [List.pairwise_map]
      exact List.pairwise_of_forall fun _ _ h => absurd h (by simp)
    · rintro rfl
      exact hv ((h.visited n).mpr (.inr ((hgray n).mpr he)))
    · intro e he e' he' ht
      obtain ⟨b, hb, rfl⟩ := List.mem_map.mp he
      have hedge := ((hneighbors b).mp hb).1
      obtain rfl | he' := List.mem_cons.mp he'
      · exact ⟨.single hedge, by simp⟩
      · refine ⟨((hover e' he' ht).1).tail hedge, ?_⟩
        rintro rfl
        cases ht
  · obtain ⟨rfl, rfl⟩ | ⟨upper', rfl, hrest⟩ := split_push heq
    · by_cases hbv : b ∈ insert g visited
      · exact .inl hbv
      · exact .inr (List.mem_map.mpr ⟨b, (hneighbors b).mpr ⟨hb, hbv⟩, rfl⟩)
    · obtain hb | hb := h.listed ((n, false) :: upper') g lower (congrArg _ hrest) b hb
      · exact .inl (Finset.mem_insert_of_mem hb)
      · obtain hb | hb := List.mem_cons.mp hb
        · exact .inl ((Prod.mk.inj hb).1 ▸ Finset.mem_insert_self _ _)
        · exact .inr (by simp [hb])
  · exact h.left.mono fun b hb => (hgray' b).mpr (.inr ((hgray b).mp hb))
  · have hnode : n ∈ nodes := h.stacked _ List.mem_cons_self
    obtain he | he := List.mem_append.mp he
    · obtain ⟨b, hb, rfl⟩ := List.mem_map.mp he
      exact hn n hnode b ((hneighbors b).mp hb).1
    · obtain rfl | he := List.mem_cons.mp he
      · exact hnode
      · exact h.stacked e (List.mem_cons_of_mem _ he)

theorem descend (hn : ∀ a ∈ nodes, ∀ b, Edge forward a b → b ∈ nodes) (h : Descending forward nodes s) :
    Descending forward nodes (descend forward s) := by
  obtain ⟨order, visited, _ | ⟨⟨n, exiting⟩, rest⟩⟩ := s
  · exact h
  cases exiting with
  | true => exact h.leave
  | false =>
    show Descending forward nodes (if n ∈ visited then ⟨order, visited, rest⟩ else _)
    split
    · exact h.skip ‹_›
    · refine h.come hn ‹_› fun b => ?_
      rw [List.mem_reverse, List.mem_filter, decide_eq_true_iff, Edge]

end Descending

section

variable {nodes : Finset α} {s : Descent α}

/-- What is on the stack, and the nodes to come to with their edges. -/
def toDo (forward : α → List α) (nodes : Finset α) (s : Descent α) : Nat :=
  s.stack.length + ∑ v ∈ nodes \ s.visited, (1 + (forward v).length)

theorem toDo_descend (h : Descending forward nodes s) (hs : s.stack ≠ []) :
    toDo forward nodes (descend forward s) < toDo forward nodes s := by
  obtain ⟨order, visited, _ | ⟨⟨n, exiting⟩, rest⟩⟩ := s
  · exact absurd rfl hs
  have shorter (order : List α) :
      toDo forward nodes ⟨order, visited, rest⟩ < toDo forward nodes ⟨order, visited, (n, exiting) :: rest⟩ :=
    Nat.add_lt_add_right (Nat.lt_succ_self _) _
  cases exiting with
  | true => exact shorter _
  | false =>
    show toDo forward nodes (if n ∈ visited then ⟨order, visited, rest⟩ else _) < _
    split
    · exact shorter _
    · rename_i hv
      have hn : n ∈ nodes \ visited := Finset.mem_sdiff.mpr ⟨h.stacked _ List.mem_cons_self, hv⟩
      have hsum := Finset.add_sum_erase _ (fun v => 1 + (forward v).length) hn
      have hle := (List.length_filter_le (fun b => decide (b ∉ insert n visited)) (forward n))
      rw [toDo, toDo, Finset.sdiff_insert, ← hsum]
      simp only [List.length_append, List.length_map, List.length_reverse, List.length_cons]
      omega

theorem subset_descend (forward : α → List α) (s : Descent α) : s.visited ⊆ (descend forward s).visited := by
  obtain ⟨order, visited, _ | ⟨⟨n, _ | _⟩, rest⟩⟩ := s
  · exact subset_rfl
  · show visited ⊆ (if n ∈ visited then (⟨order, visited, rest⟩ : Descent α) else _).visited
    split
    · exact subset_rfl
    · exact Finset.subset_insert _ _
  · exact subset_rfl

/-- A node that is on the stack to be come to is come to. -/
theorem come_or_stacked {v : α} (h : v ∈ s.visited ∨ (v, false) ∈ s.stack) :
    v ∈ (descend forward s).visited ∨ (v, false) ∈ (descend forward s).stack := by
  obtain hv | hv := h
  · exact .inl (subset_descend forward s hv)
  obtain ⟨order, visited, _ | ⟨⟨n, _ | _⟩, rest⟩⟩ := s
  · exact .inr hv
  · show v ∈ (if n ∈ visited then (⟨order, visited, rest⟩ : Descent α) else _).visited ∨
      (v, false) ∈ (if n ∈ visited then (⟨order, visited, rest⟩ : Descent α) else _).stack
    obtain hv | hv := List.mem_cons.mp hv
    · obtain rfl := (Prod.mk.inj hv).1
      refine .inl ?_
      split
      · exact ‹_›
      · exact Finset.mem_insert_self _ _
    · refine .inr ?_
      split
      · exact hv
      · exact List.mem_append_right _ (List.mem_cons_of_mem _ hv)
  · exact .inr ((List.mem_cons.mp hv).resolve_left (by simp))

variable {steps : Nat}

theorem descendFrom_ok (hn : ∀ a ∈ nodes, ∀ b, Edge forward a b → b ∈ nodes)
    (hsteps : 1 + ∑ v ∈ nodes, (1 + (forward v).length) ≤ steps) (h : Descending forward nodes s)
    (hs : s.stack = []) {origin : α} (ho : origin ∈ nodes) :
      ∃ t, descendFrom forward steps s origin = some t ∧ Descending forward nodes t ∧ t.stack = [] ∧
      s.visited ⊆ t.visited ∧ origin ∈ t.visited := by
  rw [descendFrom]
  split
  · exact ⟨s, rfl, h, hs, subset_rfl, ‹_›⟩
  let I (t : Descent α) : Prop :=
    Descending forward nodes t ∧ s.visited ⊆ t.visited ∧ (origin ∈ t.visited ∨ (origin, false) ∈ t.stack)
  have start : I { s with stack := [(origin, false)] } := by
    refine ⟨?_, subset_rfl, .inr (List.mem_singleton_self _)⟩
    refine ⟨fun v => (h.visited v).trans ?_, h.nodup, fun v hv => absurd hv (by simp), List.pairwise_singleton _ _,
      fun upper g lower heq => ?_, h.left.mono fun b hb => absurd hb (by simp [hs]), fun e he => ?_, h.ordered⟩
    · rw [hs]
      simp
    · have hmem : (g, true) ∈ [(origin, false)] := by
        rw [show [(origin, false)] = upper ++ (g, true) :: lower from heq]
        simp
      simp at hmem
    · rw [List.mem_singleton.mp he]
      exact ho
  have stacked {t : Descent α} (ht : (!t.stack.isEmpty) = true) : t.stack ≠ [] := by
    rintro hnil
    rw [hnil] at ht
    cases ht
  obtain ⟨t, hloop, ⟨ht, hsub, hcome⟩, hend⟩ := whileLoop_ends (I := I) (m := toDo forward nodes)
    (fun t ht _ => ⟨ht.1.descend hn, ht.2.1.trans (subset_descend forward t), come_or_stacked ht.2.2⟩)
    (fun t ht hc => toDo_descend ht.1 (stacked hc)) start ((Nat.add_le_add_left
      (Finset.sum_le_sum_of_subset Finset.sdiff_subset) _).trans hsteps)
  have hempty : t.stack = [] := by simpa using hend
  refine ⟨t, hloop, ht, hempty, hsub, hcome.resolve_right ?_⟩
  rw [hempty]
  exact List.not_mem_nil

/-- The first search lists every node once. -/
theorem finishOrder_ok (hn : ∀ a ∈ nodes, ∀ b, Edge forward a b → b ∈ nodes)
    (hsteps : 1 + ∑ v ∈ nodes, (1 + (forward v).length) ≤ steps) {origins : List α}
    (ho : ∀ v, v ∈ origins ↔ v ∈ nodes) :
    ∃ order, finishOrder forward steps origins = some order ∧ order.Nodup ∧ (∀ v, v ∈ order ↔ v ∈ nodes) ∧
      Left forward (fun _ => False) order := by
  have hfold (origins : List α) (ho : ∀ v ∈ origins, v ∈ nodes) (s : Descent α) (h : Descending forward nodes s)
      (hs : s.stack = []) :
      ∃ t, origins.foldlM (descendFrom forward steps) s = some t ∧ Descending forward nodes t ∧ t.stack = [] ∧
        s.visited ⊆ t.visited ∧ ∀ v ∈ origins, v ∈ t.visited := by
    induction origins generalizing s with
    | nil => exact ⟨s, rfl, h, hs, subset_rfl, by simp⟩
    | cons origin origins ih =>
      rw [List.forall_mem_cons] at ho
      obtain ⟨t, ht, hd, hempty, hsub, hv⟩ := descendFrom_ok hn hsteps h hs ho.1
      obtain ⟨u, hu, hd, hempty, hsub', hall⟩ := ih ho.2 t hd hempty
      refine ⟨u, ?_, hd, hempty, hsub.trans hsub', List.forall_mem_cons.mpr ⟨hsub' hv, hall⟩⟩
      rw [List.foldlM_cons, ht]
      exact hu
  have start : Descending forward nodes ⟨[], ∅, []⟩ :=
    ⟨by simp, List.nodup_nil, by simp, .nil, fun upper g lower heq => absurd heq (by simp),
      fun pre a post heq => absurd heq (by simp), by simp, by simp⟩
  obtain ⟨t, ht, hd, hempty, -, hall⟩ := hfold origins (fun v => (ho v).mp) _ start rfl
  refine ⟨t.order, by rw [finishOrder, ht]; rfl, hd.nodup, fun v => ⟨hd.ordered v, fun hv => ?_⟩,
    hd.left.mono fun b hb => ?_⟩
  · obtain hv | hv := (hd.visited v).mp (hall v ((ho v).mpr hv))
    · exact hv
    · rw [hempty] at hv
      exact absurd hv List.not_mem_nil
  · rw [hempty] at hb
    exact absurd hb List.not_mem_nil

end

/-! ## The node of a component that is left last -/

omit [DecidableEq α] in
/-- The last element of a list that satisfies `p`. -/
theorem exists_last_of_mem {p : α → Prop} {xs : List α} {x : α} (hx : x ∈ xs) (hp : p x) :
    ∃ pre w post, xs = pre ++ w :: post ∧ p w ∧ ∀ c ∈ post, ¬ p c := by
  induction xs generalizing x with
  | nil => exact absurd hx List.not_mem_nil
  | cons y xs ih =>
    by_cases h : ∃ c ∈ xs, p c
    · obtain ⟨c, hc, hpc⟩ := h
      obtain ⟨pre, w, post, rfl, hw, hpost⟩ := ih hc hpc
      exact ⟨y :: pre, w, post, rfl, hw, hpost⟩
    · have hy : x = y := (List.mem_cons.mp hx).resolve_right fun hm => h ⟨x, hm, hp⟩
      exact ⟨[], y, xs, rfl, hy ▸ hp, fun c hc hpc => h ⟨c, hc, hpc⟩⟩

omit [DecidableEq α] in
/-- What is before an element that comes after `w`. -/
theorem mem_of_append_eq {xs post p₁ p₂ : List α} {w z : α} (h : xs ++ w :: post = p₁ ++ z :: p₂) (hz : z ∉ xs)
    (hne : z ≠ w) :
    w ∈ p₁ := by
  obtain ⟨as, rfl, has⟩ | ⟨bs, rfl, hbs⟩ := List.append_eq_append_iff.mp h
  · cases as with
    | nil => exact absurd (List.cons.inj has).1.symm hne
    | cons a as => exact List.mem_append_right _ ((List.cons.inj has).1 ▸ List.mem_cons_self)
  · cases bs with
    | nil => exact absurd (List.cons.inj hbs).1 hne
    | cons b bs => exact absurd (List.mem_append_right _ ((List.cons.inj hbs).1 ▸ List.mem_cons_self)) hz

omit [DecidableEq α] in
/-- Of the nodes that reach a node and are reached by it, one is left after all that it reaches. -/
theorem Left.exists_last {order : List α} (h : Left forward (fun _ => False) order) (hd : order.Nodup)
    (hclosed : ∀ a ∈ order, ∀ b, Edge forward a b → b ∈ order) {u : α} (hu : u ∈ order) :
    ∃ pre w post, order = pre ++ w :: post ∧ Reach forward u w ∧ Reach forward w u ∧
      ∀ x, Reach forward u x → x ∉ post := by
  obtain ⟨pre, w, post, rfl, ⟨huw, hwu⟩, hpost⟩ :=
    exists_last_of_mem (p := fun w => Reach forward u w ∧ Reach forward w u)
    hu ⟨.refl, .refl⟩
  refine ⟨pre, w, post, rfl, huw, hwu, fun x hx => ?_⟩
  have hdisjoint : ∀ a ∈ pre, a ∉ post ∧ a ≠ w := fun a ha =>
    ⟨fun hp => (List.nodup_append.mp hd).2.2 a ha a (List.mem_cons_of_mem _ hp) rfl,
      fun he => (List.nodup_append.mp hd).2.2 a ha w List.mem_cons_self he⟩
  have hw : w ∉ post := (List.nodup_cons.mp (List.nodup_append.mp hd).2.1).1
  -- along a path from the last node, none is left after it
  have hpath : ∀ x, Reach forward w x → x ∉ post ∧ x ∈ pre ++ w :: post := by
    intro x hx
    induction hx with
    | refl => exact ⟨hw, by simp⟩
    | @tail y z hwy hyz ih =>
      refine ⟨fun hz => ?_, hclosed y ih.2 z hyz⟩
      have huz : Reach forward u z := (huw.trans hwy).tail hyz
      have hback : Reach forward z w := by
        obtain hy | hy := List.mem_append.mp ih.2
        · obtain ⟨a₁, a₂, rfl⟩ := List.append_of_mem hy
          obtain hb | hb | hb | ⟨p₁, p₂, heq, hc⟩ := h a₁ y (a₂ ++ w :: post) (by simp) z hyz
          · exact absurd hz (hdisjoint z (by simp [hb])).1
          · exact absurd hz (hb ▸ ih.1)
          · exact hb.1.elim
          · refine hc w (List.mem_cons_of_mem _ ?_)
            exact mem_of_append_eq heq (fun hm => (hdisjoint z (by simp [hm])).1 hz) fun he => hw (he ▸ hz)
        · obtain rfl | hy := List.mem_cons.mp hy
          · obtain hb | hb | hb | ⟨p₁, p₂, heq, hc⟩ := h pre y post rfl z hyz
            · exact absurd hz (hdisjoint z hb).1
            · exact absurd hz (hb ▸ ih.1)
            · exact hb.1.elim
            · exact hc y List.mem_cons_self
          · exact absurd hy ih.1
      exact hpost z hz ⟨huz, hback.trans hwu⟩
  exact (hpath x (hwu.trans hx)).1

/-! ## The second search -/

section

variable {nodes : Finset α} {steps : Nat}

/-- Both reach each other. -/
def Connected (forward : α → List α) (a b : α) : Prop := Reach forward a b ∧ Reach forward b a

/-- What is collected from a node: it, and what reaches it over nodes that were not visited. -/
theorem collect_loop {visited : Finset α} {x : α} (hn : ∀ a ∈ nodes, ∀ b ∈ reverse a, b ∈ nodes) (hx : x ∈ nodes)
    (hv : x ∉ visited) (hsteps : nodes.card ≤ steps) :
    ∃ t, whileLoop (fun s => !s.queue.isEmpty) (collect reverse) steps ⟨insert x visited, ∅, [x]⟩ = some t ∧
      (∀ y, y ∈ t.visited ↔ y ∈ visited ∨ y ∈ t.component) ∧
      ∀ y, y ∈ t.component ↔ y ∉ visited ∧ (y = x ∨ Search.Fresh (setMarker α) reverse (insert x visited) x y) := by
  let I (s : Collection α) : Prop :=
    Search.Searching (setMarker α) reverse (insert x visited) [x] (s.visited, s.queue) ∧
    (∀ y, y ∈ s.visited ↔ y ∈ visited ∨ y ∈ s.component ∨ y ∈ s.queue) ∧
    (∀ y, y ∈ s.component ∨ y ∈ s.queue → y ∉ visited) ∧ ∀ y ∈ s.queue, y ∈ nodes
  have start : I ⟨insert x visited, ∅, [x]⟩ := by
    refine ⟨.start fun y hy => ?_, fun y => ?_, fun y hy => ?_, fun y hy => List.mem_singleton.mp hy ▸ hx⟩
    · rw [setMarker_seen, List.mem_singleton.mp hy]
      exact Finset.mem_insert_self _ _
    · simp [or_comm]
    · obtain rfl : y = x := by simpa using hy
      exact hv
  have keeps (s : Collection α) (h : I s) (_ : (!s.queue.isEmpty) = true) : I (collect reverse s) := by
    obtain ⟨seen, component, _ | ⟨current, queue⟩⟩ := s
    · exact h
    obtain ⟨hs, hall, hnew, hq⟩ := h
    have hr : Search.Relaxed (setMarker α) (reverse current) (seen, queue)
        (Search.visit (setMarker α) reverse (fun queue neighbor => neighbor :: queue) (seen, current :: queue)) :=
      Search.foldl_relaxed Search.Pushes.stack current (reverse current) (seen, queue)
    have hmarked (y : α) := hr.marked y
    have hlisted (y : α) := hr.listed y
    simp only [setMarker_seen, ← Bool.not_eq_true] at hmarked hlisted
    refine ⟨hs.visit Search.Pushes.stack, fun y => ?_, fun y hy => ?_, fun y hy => ?_⟩
    · show y ∈ (Search.visit _ _ _ _).1 ↔ y ∈ visited ∨ y ∈ insert current component ∨ y ∈ (Search.visit _ _ _ _).2
      rw [hmarked, hlisted, Finset.mem_insert, show y ∈ seen ↔ _ from hall y, List.mem_cons]
      tauto
    · have hcases : y ∈ insert current component ∨ y ∈ (Search.visit _ _ _ _).2 := hy
      rw [hlisted, Finset.mem_insert, show y ∈ seen ↔ _ from hall y] at hcases
      obtain (rfl | hy) | hy | hy := hcases
      · exact hnew y (.inr List.mem_cons_self)
      · exact hnew y (.inl hy)
      · exact hnew y (.inr (List.mem_cons_of_mem _ hy))
      · exact fun hm => hy.1 (.inl hm)
    · obtain hy | ⟨-, b, hb, rfl⟩ := (hlisted y).mp hy
      · exact hq y (List.mem_cons_of_mem _ hy)
      · exact hn current (hq current List.mem_cons_self) b hb
  have decreases (s : Collection α) (h : I s) (hs : (!s.queue.isEmpty) = true) :
      Search.work (setMarker α) nodes ((collect reverse s).visited, (collect reverse s).queue) <
        Search.work (setMarker α) nodes (s.visited, s.queue) := by
    obtain ⟨seen, component, _ | ⟨current, queue⟩⟩ := s
    · cases hs
    · exact Search.visit_work Search.Pushes.stack (List.cons_ne_nil _ _) fun y hy => hn y (h.2.2.2 y hy)
  have hwork : Search.work (setMarker α) nodes (insert x visited, [x]) ≤ steps := by
    refine (Search.work_le (List.nodup_singleton x) fun y hy => ?_).trans hsteps
    rw [setMarker_seen, List.mem_singleton.mp hy]
    exact ⟨hx, Finset.mem_insert_self _ _⟩
  obtain ⟨t, hloop, ⟨hs, hall, hnew, -⟩, hend⟩ := whileLoop_ends (I := I)
    (m := fun s => Search.work (setMarker α) nodes (s.visited, s.queue)) keeps decreases start hwork
  have hempty : t.queue = [] := by simpa using hend
  rw [hempty] at hs hall hnew
  simp only [List.not_mem_nil, or_false] at hall hnew
  refine ⟨t, hloop, hall, fun y => ⟨fun hy => ⟨hnew y hy, ?_⟩, ?_⟩⟩
  · obtain hm | ⟨z, hz, hf⟩ := hs.sound y ((setMarker_seen _ _).mpr ((hall y).mpr (.inr hy)))
    · exact .inl ((Finset.mem_insert.mp ((setMarker_seen _ _).mp hm)).resolve_right (hnew y hy))
    · exact .inr (List.mem_singleton.mp hz ▸ hf)
  · rintro ⟨hy, hf⟩
    have start : x ∈ t.visited :=
      (setMarker_seen _ _).mp (hs.kept x ((setMarker_seen _ _).mpr (Finset.mem_insert_self _ _)))
    have hseen : ∀ y, Search.Fresh (setMarker α) reverse (insert x visited) x y → y ∈ t.visited := by
      intro y hf
      induction hf with
      | refl => exact start
      | tail hxa hab ih =>
        exact (setMarker_seen _ _).mp (hs.visited _ _ ⟨x, List.mem_singleton_self x, hxa⟩ ((setMarker_seen _ _).mpr ih)
          List.not_mem_nil hab.1)
    refine ((hall y).mp ?_).resolve_left hy
    obtain rfl | hf := hf
    · exact start
    · exact hseen y hf

omit [DecidableEq α] in
/-- The predecessors of these nodes are among them. -/
def Closed (forward : α → List α) (visited : Finset α) : Prop := ∀ a ∈ visited, ∀ b, Edge forward b a → b ∈ visited

omit [DecidableEq α] in
theorem Closed.reach {visited : Finset α} (h : Closed forward visited) {a b : α} (hb : b ∈ visited)
    (hab : Reach forward a b) :
    a ∈ visited := by
  induction hab with
  | refl => exact hb
  | tail _ hbc ih => exact ih (h _ hb _ hbc)

/-- A path to a node avoids the nodes that were visited, whose predecessors are visited. -/
theorem fresh_iff_reach {visited : Finset α} (hr : ∀ a b, b ∈ reverse a ↔ Edge forward b a)
    (h : Closed forward visited) (x y : α) :
    (y ∉ visited ∧ (y = x ∨ Search.Fresh (setMarker α) reverse (insert x visited) x y)) ↔
      y ∉ visited ∧ Reach forward y x := by
  refine and_congr_right fun hy => ⟨fun hf => ?_, fun hf => ?_⟩
  · obtain rfl | hf := hf
    · exact .refl
    clear hy
    induction hf with
    | refl => exact .refl
    | @tail a b _ hab ih =>
      obtain ⟨c, hc, rfl⟩ := hab.1
      exact ih.head ((hr a _).mp hc)
  · induction hf using Relation.ReflTransGen.head_induction_on with
    | refl => exact .inl rfl
    | @head a c hac _ ih =>
      by_cases hax : a = x
      · exact .inl hax
      have hedge : Search.Edge (setMarker α) reverse c a := ⟨a, (hr c a).mpr hac, rfl⟩
      have hnew : (setMarker α).seen (insert x visited) a = false := by
        refine eq_false_of_ne_true fun hs => ?_
        exact (Finset.mem_insert.mp ((setMarker_seen _ _).mp hs)).elim hax hy
      refine .inr ?_
      obtain rfl | hf := ih fun hc => hy (h c hc a hac)
      · exact .single ⟨hedge, hnew⟩
      · exact hf.tail ⟨hedge, hnew⟩

omit [DecidableEq α] in
/-- What reaches a node, and is not visited when the nodes left after that one are, is reached by it. -/
theorem Left.reach_back {order pre post : List α} {x y : α} {visited : Finset α}
    (h : Left forward (fun _ => False) order) (hd : order.Nodup)
    (hclosed : ∀ a ∈ order, ∀ b, Edge forward a b → b ∈ order) (heq : order = pre ++ x :: post)
    (hv : Closed forward visited) (hpost : ∀ c ∈ post, c ∈ visited) (hy : y ∈ order) (hyv : y ∉ visited)
    (hyx : Reach forward y x) :
    Reach forward x y := by
  obtain ⟨pre', w, post', heq', hyw, hwy, hlast⟩ := h.exists_last hd hclosed hy
  have hx : x ∈ pre' ++ w :: post' := by simp [← heq', heq]
  obtain hx | hx := List.mem_append.mp hx
  · -- then the last one was left after `x`, and visited
    obtain ⟨p₁, p₂, rfl⟩ := List.append_of_mem hx
    rw [heq] at hd
    rw [heq', List.append_assoc, List.cons_append] at heq
    have hnot := List.nodup_append.mp hd
    obtain ⟨-, -, rfl⟩ := (List.append_cons_inj_of_notMem (fun hm => hnot.2.2 x hm x List.mem_cons_self rfl)
      (List.nodup_cons.mp hnot.2.1).1).mp heq.symm
    exact absurd (hv.reach (hpost w (by simp)) hyw) hyv
  · obtain rfl | hx := List.mem_cons.mp hx
    · exact hwy
    · exact absurd hx (hlast x hyx)

/-- How far the second search has come, when it has gone through the nodes `later`. -/
structure Collecting (forward : α → List α) (nodes : Finset α) (later : List α)
    (s : Finset α × List (Finset α)) : Prop where
  closed : Closed forward s.1
  subset (v : α) : v ∈ s.1 → v ∈ nodes
  through (v : α) : v ∈ later → v ∈ s.1
  connected (c : Finset α) : c ∈ s.2 → ∃ x ∈ nodes, ∀ y, y ∈ c ↔ Connected forward x y
  covered (v : α) : v ∈ s.1 → ∃ c ∈ s.2, v ∈ c

theorem Collecting.collectFrom {order pre post : List α} {x : α} {s : Finset α × List (Finset α)}
    (hr : ∀ a b, b ∈ reverse a ↔ Edge forward b a) (hn : ∀ a ∈ nodes, ∀ b, Edge forward a b → b ∈ nodes)
    (hn' : ∀ a ∈ nodes, ∀ b ∈ reverse a, b ∈ nodes) (hsteps : nodes.card ≤ steps)
    (hl : Left forward (fun _ => False) order) (hd : order.Nodup) (ho : ∀ v, v ∈ order ↔ v ∈ nodes)
    (heq : order = pre ++ x :: post) (h : Collecting forward nodes post s) :
    ∃ t, collectFrom reverse steps s x = some t ∧ Collecting forward nodes (x :: post) t := by
  rw [Components.collectFrom]
  split
  · exact ⟨s, rfl, h.closed, h.subset, List.forall_mem_cons.mpr ⟨‹_›, h.through⟩, h.connected, h.covered⟩
  rename_i hx
  have hxn : x ∈ nodes := (ho x).mp (by simp [heq])
  obtain ⟨t, hloop, hvisited, hcomponent⟩ := collect_loop hn' hxn hx hsteps
  have hreach (y : α) : y ∈ t.component ↔ y ∉ s.1 ∧ Reach forward y x :=
    (hcomponent y).trans (fresh_iff_reach hr h.closed x y)
  have hback (y : α) (hy : Reach forward y x) : y ∈ nodes := by
    induction hy using Relation.ReflTransGen.head_induction_on with
    | refl => exact hxn
    | head hac _ ih => exact hn' _ ih _ ((hr _ _).mpr hac)
  have hconnected (y : α) : y ∈ t.component ↔ Connected forward x y := by
    rw [hreach]
    constructor
    · rintro ⟨hy, hyx⟩
      refine ⟨hl.reach_back hd (fun a ha b hb => (ho b).mpr (hn a ((ho a).mp ha) b hb)) heq h.closed h.through
        ?_ hy hyx, hyx⟩
      exact (ho y).mpr (hback y hyx)
    · exact fun hy => ⟨fun hm => hx (h.closed.reach hm hy.1), hy.2⟩
  refine ⟨_, by rw [hloop]; rfl, fun a ha b hb => ?_, fun v hv => ?_, ?_, fun c hc => ?_, fun v hv => ?_⟩
  · refine (hvisited b).mpr ?_
    by_cases hbs : b ∈ s.1
    · exact .inl hbs
    refine .inr ((hreach b).mpr ⟨hbs, ?_⟩)
    obtain ha | ha := (hvisited a).mp ha
    · exact absurd (h.closed a ha b hb) hbs
    · exact ((hreach a).mp ha).2.head hb
  · obtain hv | hv := (hvisited v).mp hv
    · exact h.subset v hv
    · exact hback v ((hreach v).mp hv).2
  · refine List.forall_mem_cons.mpr ⟨(hvisited x).mpr (.inr ((hreach x).mpr ⟨hx, .refl⟩)), fun v hv => ?_⟩
    exact (hvisited v).mpr (.inl (h.through v hv))
  · obtain hc | hc := List.mem_append.mp hc
    · exact h.connected c hc
    · obtain rfl := List.mem_singleton.mp hc
      exact ⟨x, hxn, hconnected⟩
  · obtain hv | hv := (hvisited v).mp hv
    · obtain ⟨c, hc, hvc⟩ := h.covered v hv
      exact ⟨c, List.mem_append_left _ hc, hvc⟩
    · exact ⟨t.component, List.mem_append_right _ (List.mem_singleton_self _), hv⟩

/-- The two searches find the components: classes of nodes that reach each other, which cover the nodes. -/
theorem components_spec {origins : List α} (hr : ∀ a b, b ∈ reverse a ↔ Edge forward b a)
    (hn : ∀ a ∈ nodes, ∀ b, Edge forward a b → b ∈ nodes) (hn' : ∀ a ∈ nodes, ∀ b ∈ reverse a, b ∈ nodes)
    (hsteps : 1 + ∑ v ∈ nodes, (1 + (forward v).length) ≤ steps) (ho : ∀ v, v ∈ origins ↔ v ∈ nodes) :
    ∃ order classes, finishOrder forward steps origins = some order ∧ components reverse steps order = some classes ∧
      (∀ c ∈ classes, ∃ x ∈ nodes, ∀ y, y ∈ c ↔ Connected forward x y) ∧ ∀ v ∈ nodes, ∃ c ∈ classes, v ∈ c := by
  obtain ⟨order, horder, hd, hmem, hl⟩ := finishOrder_ok hn hsteps ho
  have hcard : nodes.card ≤ steps := by
    have hle : ∑ v ∈ nodes, 1 ≤ ∑ v ∈ nodes, (1 + (forward v).length) :=
      Finset.sum_le_sum fun v _ => Nat.le_add_right _ _
    rw [← Finset.card_eq_sum_ones] at hle
    omega
  -- the nodes are gone through from the last one
  have hfold (pre post : List α) (heq : order = pre ++ post) (s : Finset α × List (Finset α))
      (h : Collecting forward nodes post s) :
      ∃ t, pre.reverse.foldlM (collectFrom reverse steps) s = some t ∧ Collecting forward nodes order t := by
    induction pre using List.reverseRecOn generalizing post s with
    | nil => exact ⟨s, rfl, heq ▸ h⟩
    | append_singleton pre x ih =>
      rw [List.append_assoc] at heq
      obtain ⟨t, ht, hc⟩ := h.collectFrom hr hn hn' hcard hl hd hmem heq
      obtain ⟨u, hu, hc⟩ := ih (x :: post) heq t hc
      refine ⟨u, ?_, hc⟩
      rw [List.reverse_append, List.reverse_singleton, List.singleton_append, List.foldlM_cons, ht]
      exact hu
  have start : Collecting forward nodes [] (∅, []) := ⟨by simp [Closed], by simp, by simp, by simp, by simp⟩
  obtain ⟨t, ht, hc⟩ := hfold order [] (by simp) _ start
  refine ⟨order, t.2, horder, by rw [components, ht]; rfl, hc.connected, fun v hv => ?_⟩
  exact hc.covered v (hc.through v ((hmem v).mpr hv))

end

end Xir.Components
