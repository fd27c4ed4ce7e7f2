import Mathlib.Data.Finset.Card
import Mathlib.Logic.Relation

/-!
# Loops and searches of graphs

`whileLoop` is a loop of at most so many rounds, and `GrowthStep.loop` says that one
ends which repeats its steps until none of them changes anything. `Search.run` is the search of a
graph with a list of nodes to visit: it takes the first, marks its neighbours
that are not marked and adds them to the list. A `Marker` says how nodes are
marked, and `Search.run_spec` says that the nodes which are marked in the end
are those that were marked before, and those reached from the list over nodes
that were not.
-/

namespace Xir

/-! ## Loops -/

section

variable {σ : Type} {cond : σ → Bool} {body : σ → σ}

/-- `while cond: body`; none if it does not end in the given number of rounds. -/
def whileLoop (cond : σ → Bool) (body : σ → σ) : Nat → σ → Option σ
  | 0, s => if cond s then none else some s
  | rounds + 1, s => if cond s then whileLoop cond body rounds (body s) else some s

/-- A loop ends whose rounds keep an invariant and decrease a measure. -/
theorem whileLoop_ends {I : σ → Prop} {m : σ → Nat} (keeps : ∀ s, I s → cond s = true → I (body s))
    (decreases : ∀ s, I s → cond s = true → m (body s) < m s) {rounds : Nat} {s : σ} (h : I s)
    (hr : m s ≤ rounds) : ∃ t, whileLoop cond body rounds s = some t ∧ I t ∧ cond t = false := by
  induction rounds generalizing s with
  | zero =>
    rw [whileLoop]
    split
    · have := decreases s h ‹_›
      omega
    · exact ⟨s, rfl, h, eq_false_of_ne_true ‹_›⟩
  | succ rounds ih =>
    rw [whileLoop]
    split
    · have := decreases s h ‹_›
      exact ih (keeps s h ‹_›) (by omega)
    · exact ⟨s, rfl, h, eq_false_of_ne_true ‹_›⟩

end

/-! ## The least of a list -/

/-- The first element that no other is before. -/
def leastBy {α : Type} (before : α → α → Bool) : List α → Option α
  | [] => none
  | x :: xs => some (xs.foldl (fun best y => if before y best then y else best) x)

/-- No element is before the least, where `before` is a strict weak order. -/
theorem leastBy_spec {α : Type} {before : α → α → Bool} (asymm : ∀ a b, before a b = true → before b a = false)
    (comp : ∀ a b c, before a c = true → before a b = true ∨ before b c = true) {xs : List α} (hxs : xs ≠ []) :
    ∃ a, leastBy before xs = some a ∧ a ∈ xs ∧ ∀ b ∈ xs, before b a = false := by
  have irrefl (a : α) : before a a = false :=
    eq_false_of_ne_true fun h => Bool.false_ne_true ((asymm a a h).symm.trans h)
  -- what is not before one that is not before the least is not before the least
  have htrans {a b c : α} (hab : before a b = false) (hbc : before b c = false) : before a c = false := by
    refine eq_false_of_ne_true fun hac => ?_
    obtain h | h := comp a b c hac
    · exact Bool.false_ne_true (hab.symm.trans h)
    · exact Bool.false_ne_true (hbc.symm.trans h)
  have hfold (xs : List α) (x : α) :
      xs.foldl (fun best y => if before y best then y else best) x ∈ x :: xs ∧
        ∀ b ∈ x :: xs, before b (xs.foldl (fun best y => if before y best then y else best) x) = false := by
    induction xs generalizing x with
    | nil => exact ⟨List.mem_cons_self, fun b hb => List.mem_singleton.mp hb ▸ irrefl x⟩
    | cons y xs ih =>
      rw [List.foldl_cons]
      obtain ⟨hmem, hall⟩ := ih (if before y x then y else x)
      by_cases h : before y x = true
      · rw [if_pos h] at hmem hall ⊢
        refine ⟨List.mem_cons_of_mem _ hmem, List.forall_mem_cons.mpr ⟨?_, hall⟩⟩
        exact htrans (asymm y x h) (hall y List.mem_cons_self)
      · rw [if_neg h] at hmem hall ⊢
        have hx := hall x List.mem_cons_self
        refine ⟨?_, List.forall_mem_cons.mpr ⟨hx, List.forall_mem_cons.mpr ⟨htrans (eq_false_of_ne_true h) hx, ?_⟩⟩⟩
        · exact List.mem_cons.mpr ((List.mem_cons.mp hmem).imp_right (List.mem_cons_of_mem y))
        · exact fun b hb => hall b (List.mem_cons_of_mem _ hb)
  cases xs with
  | nil => exact absurd rfl hxs
  | cons x xs => exact ⟨_, rfl, hfold xs x⟩

/-! ## Rounds of steps -/

section

variable {σ ι : Type} {step : ι → σ → Bool × σ} {is : List ι} {I : σ → Prop} {μ : σ → Nat} {f : σ → Bool × σ} {s : σ}

/-- Does a step that says whether it changed something, and remembers whether one did. -/
def grow (step : ι → σ → Bool × σ) (s : Bool × σ) (i : ι) : Bool × σ := ((step i s.2).1 || s.1, (step i s.2).2)

/-- A step that keeps an invariant, and decreases a measure where it changes something. -/
structure GrowthStep (I : σ → Prop) (μ : σ → Nat) (f : σ → Bool × σ) : Prop where
  keeps {s : σ} : I s → I (f s).2
  same {s : σ} : I s → (f s).1 = false → (f s).2 = s
  less {s : σ} : I s → (f s).1 = true → μ (f s).2 < μ s

theorem foldl_grow (b : Bool) (s : σ) : is.foldl (grow step) (b, s) =
    ((is.foldl (grow step) (false, s)).1 || b, (is.foldl (grow step) (false, s)).2) := by
  induction is generalizing b s with
  | nil => exact Prod.ext (Bool.false_or b).symm rfl
  | cons i is ih =>
    rw [List.foldl_cons, List.foldl_cons, grow, grow, ih, ih ((step i s).1 || false), Bool.or_false, Bool.or_assoc]

/-- A round of such steps is one, and where it changes nothing none of them does. -/
theorem GrowthStep.round (h : ∀ i ∈ is, GrowthStep I μ (step i)) :
    GrowthStep I μ (fun s => is.foldl (grow step) (false, s)) ∧
    ∀ {s}, I s → (is.foldl (grow step) (false, s)).1 = false → ∀ i ∈ is, (step i s).1 = false := by
  induction is with
  | nil =>
    refine ⟨⟨fun h => h, fun _ _ => rfl, fun _ h => ?_⟩, fun _ _ i hi => absurd hi List.not_mem_nil⟩
    cases h
  | cons i is ih =>
    rw [List.forall_mem_cons] at h
    obtain ⟨hr, hall⟩ := ih h.2
    have hcons (s : σ) : (i :: is).foldl (grow step) (false, s) =
        ((is.foldl (grow step) (false, (step i s).2)).1 || (step i s).1,
          (is.foldl (grow step) (false, (step i s).2)).2) := by
      rw [List.foldl_cons, grow, foldl_grow, Bool.or_false]
    refine ⟨⟨fun {s} hI => ?_, fun {s} hI hf => ?_, fun {s} hI hf => ?_⟩, fun {s} hI hf => ?_⟩
    · rw [hcons]
      exact hr.keeps (h.1.keeps hI)
    · rw [hcons] at hf ⊢
      obtain ⟨hfr, hfi⟩ := Bool.or_eq_false_iff.mp hf
      exact (hr.same (h.1.keeps hI) hfr).trans (h.1.same hI hfi)
    · rw [hcons] at hf ⊢
      -- whichever changed something, the other one did not undo it
      cases hi : (step i s).1 with
      | true =>
        have hlt := h.1.less hI hi
        cases hb : (is.foldl (grow step) (false, (step i s).2)).1 with
        | true => exact (hr.less (h.1.keeps hI) hb).trans hlt
        | false => exact (congrArg μ (hr.same (h.1.keeps hI) hb)).trans_lt hlt
      | false =>
        rw [hi, Bool.or_false] at hf
        have hlt := hr.less (h.1.keeps hI) hf
        rwa [h.1.same hI hi] at hlt ⊢
    · rw [hcons] at hf
      obtain ⟨hfr, hfi⟩ := Bool.or_eq_false_iff.mp hf
      have hs := h.1.same hI hfi
      have hrest := hall (h.1.keeps hI) hfr
      rw [hs] at hrest
      exact List.forall_mem_cons.mpr ⟨hfi, hrest⟩

/-- Rounds that go on until none of the steps changes anything end. -/
theorem GrowthStep.loop (h : ∀ i ∈ is, GrowthStep I μ (step i)) (hI : I s) {rounds : Nat} (hr : μ s + 1 ≤ rounds) :
    ∃ t, whileLoop Prod.fst (fun s => is.foldl (grow step) (false, s.2)) rounds (true, s) = some (false, t) ∧ I t ∧
      ∀ i ∈ is, (step i t).1 = false := by
  obtain ⟨hround, hall⟩ := GrowthStep.round h
  let J (s : Bool × σ) : Prop := I s.2 ∧ (s.1 = false → ∀ i ∈ is, (step i s.2).1 = false)
  let left (s : Bool × σ) : Nat := if s.1 = true then μ s.2 + 1 else 0
  have keeps (s : Bool × σ) (hs : J s) (_ : s.1 = true) : J (is.foldl (grow step) (false, s.2)) := by
    refine ⟨hround.keeps hs.1, fun hf => ?_⟩
    rw [hround.same hs.1 hf]
    exact hall hs.1 hf
  have decreases (s : Bool × σ) (hs : J s) (hc : s.1 = true) : left (is.foldl (grow step) (false, s.2)) < left s := by
    show (if _ then _ else 0) < if s.1 = true then _ else 0
    rw [if_pos hc]
    split
    · exact Nat.add_lt_add_right (hround.less hs.1 ‹_›) 1
    · omega
  have start : J (true, s) := ⟨hI, fun h => absurd (show true = false from h) (by decide)⟩
  obtain ⟨⟨b, t⟩, hloop, hJ, hend⟩ := whileLoop_ends keeps decreases start (show left (true, s) ≤ rounds from hr)
  obtain rfl : b = false := hend
  exact ⟨t, hloop, hJ.1, hJ.2 rfl⟩

end

/-! ## Paths -/

section

variable {α β : Type} {E J : α → α → Prop}

/-- Further edges that lead from where `A` holds to where `B` does, and connect all such nodes. -/
theorem reflTransGen_or {A B : α → Prop} (hA : ∀ x y, E x y → A y → A x) (hB : ∀ x y, E x y → B x → B y)
    (hJ : ∀ x y, J x y → A x ∧ B y)
    (hE : ∀ x y, A x → B y → Relation.ReflTransGen (fun x y => E x y ∨ J x y) x y) (x y : α) :
    Relation.ReflTransGen (fun x y => E x y ∨ J x y) x y ↔ Relation.ReflTransGen E x y ∨ A x ∧ B y := by
  have hback {y : α} (h : Relation.ReflTransGen E x y) (hy : A y) : A x := by
    induction h with
    | refl => exact hy
    | tail _ hs ih => exact ih (hA _ _ hs hy)
  constructor
  · intro h
    induction h with
    | refl => exact .inl .refl
    | tail _ hstep ih =>
      obtain ih | ⟨hx, hb⟩ := ih
      · obtain hstep | hstep := hstep
        · exact .inl (ih.tail hstep)
        · exact .inr ⟨hback ih (hJ _ _ hstep).1, (hJ _ _ hstep).2⟩
      · exact .inr ⟨hx, hstep.elim (fun hs => hB _ _ hs hb) fun hs => (hJ _ _ hs).2⟩
  · rintro (h | ⟨ha, hb⟩)
    · exact Relation.ReflTransGen.mono (fun _ _ => Or.inl) _ _ h
    · exact hE x y ha hb

/-- Paths of numbered nodes are those of the nodes. -/
theorem reflTransGen_map {N : β → β → Prop} {f : α → β} {P : α → Prop}
    (hN : ∀ a, P a → ∀ t, N (f a) t ↔ ∃ b, E a b ∧ t = f b) (hP : ∀ a b, P a → E a b → P b) {a : α} (ha : P a) (t : β) :
    Relation.ReflTransGen N (f a) t ↔ ∃ b, Relation.ReflTransGen E a b ∧ P b ∧ t = f b := by
  constructor
  · intro h
    induction h with
    | refl => exact ⟨a, .refl, ha, rfl⟩
    | tail _ hstep ih =>
      obtain ⟨b, hab, hb, rfl⟩ := ih
      obtain ⟨c, hbc, rfl⟩ := (hN b hb _).mp hstep
      exact ⟨c, hab.tail hbc, hP b c hb hbc, rfl⟩
  · rintro ⟨b, h, hb, rfl⟩
    induction h with
    | refl => exact .refl
    | @tail b c hab hbc ih =>
      have hpb : P b := by
        clear hb hbc ih
        induction hab with
        | refl => exact ha
        | tail _ hs ih => exact hP _ _ ih hs
      exact (ih hpb).tail ((hN b hpb _).mpr ⟨c, hbc, rfl⟩)

end

/-! ## Searches -/

/-- How a search marks the end of an edge `e` that starts at `x`. -/
structure Marker (α ε β : Type) where
  dst : ε → α
  seen : β → α → Bool
  mark : β → α → ε → β
  seen_mark (m : β) (x : α) (e : ε) (y : α) : seen (mark m x e) y = true ↔ y = dst e ∨ seen m y = true

/-- Marks the nodes that are in a set. -/
def setMarker (α : Type) [DecidableEq α] : Marker α α (Finset α) where
  dst neighbor := neighbor
  seen visited neighbor := decide (neighbor ∈ visited)
  mark visited _ neighbor := insert neighbor visited
  seen_mark visited _ neighbor node := by
    rw [decide_eq_true_iff, decide_eq_true_iff, Finset.mem_insert]

theorem setMarker_seen {α : Type} [DecidableEq α] (s : Finset α) (x : α) : (setMarker α).seen s x = true ↔ x ∈ s :=
  decide_eq_true_iff

namespace Search

variable {α ε β : Type} (M : Marker α ε β) (next : α → List ε) (push : List α → α → List α)

/-- Marks and lists the end of an edge, if it is not marked. -/
def relax (x : α) (s : β × List α) (e : ε) : β × List α :=
  if M.seen s.1 (M.dst e) = true then s else (M.mark s.1 x e, push s.2 (M.dst e))

/-- Visits the first node of the list. -/
def visit (s : β × List α) : β × List α :=
  match s.2 with
  | [] => s
  | x :: queue => (next x).foldl (relax M push x) (s.1, queue)

/-- The search; none if it does not end in the given number of visits. -/
def run (visits : Nat) (marks : β) (queue : List α) : Option β :=
  (whileLoop (fun s => !s.2.isEmpty) (visit M next push) visits (marks, queue)).map Prod.fst

/-- An edge between two nodes. -/
def Edge (x y : α) : Prop := ∃ e ∈ next x, M.dst e = y

/-- A path whose nodes after the first are not marked. -/
def Fresh (m : β) : α → α → Prop := Relation.ReflTransGen fun x y => Edge M next x y ∧ M.seen m y = false

/-- Pushing adds one node. -/
structure Pushes (push : List α → α → List α) : Prop where
  mem (queue : List α) (y z : α) : z ∈ push queue y ↔ z = y ∨ z ∈ queue
  length (queue : List α) (y : α) : (push queue y).length = queue.length + 1

theorem Pushes.queue : Pushes fun (queue : List α) y => queue ++ [y] :=
  ⟨fun _ _ _ => by rw [List.mem_append, List.mem_singleton, or_comm], fun _ _ => by simp⟩

theorem Pushes.stack : Pushes fun (queue : List α) y => y :: queue :=
  ⟨fun _ _ _ => List.mem_cons, fun _ _ => List.length_cons⟩

variable {M next push} {m m₀ : β} {queue q₀ : List α} {x y : α}

/-! ### One visit -/

/-- What the edges of a node do: they mark their ends, which are listed if they were not marked. -/
structure Relaxed (M : Marker α ε β) (edges : List ε) (s t : β × List α) : Prop where
  marked (y : α) : M.seen t.1 y = true ↔ M.seen s.1 y = true ∨ ∃ e ∈ edges, M.dst e = y
  listed (y : α) : y ∈ t.2 ↔ y ∈ s.2 ∨ M.seen s.1 y = false ∧ ∃ e ∈ edges, M.dst e = y

theorem relax_relaxed (hp : Pushes push) (x : α) (e : ε) (s : β × List α) : Relaxed M [e] s (relax M push x s e) := by
  rw [relax]
  split
  · rename_i h
    refine ⟨fun y => ?_, fun y => ?_⟩
    · simp only [List.mem_singleton, exists_eq_left]
      exact ⟨.inl, fun hy => hy.elim id fun hy => hy ▸ h⟩
    · simp only [List.mem_singleton, exists_eq_left]
      refine ⟨.inl, fun hy => hy.elim id fun hy => ?_⟩
      rw [← hy.2, h] at hy
      exact absurd hy.1 (by simp)
  · rename_i h
    refine ⟨fun y => ?_, fun y => ?_⟩
    · simp only [List.mem_singleton, exists_eq_left]
      rw [M.seen_mark, or_comm, eq_comm (a := y)]
    · simp only [List.mem_singleton, exists_eq_left]
      rw [hp.mem, or_comm, eq_comm (a := y)]
      refine or_congr_right ⟨fun hy => ⟨?_, hy⟩, And.right⟩
      rw [← hy]
      exact eq_false_of_ne_true h

theorem Relaxed.append {es es' : List ε} {s t u : β × List α} (h : Relaxed M es s t) (h' : Relaxed M es' t u) :
    Relaxed M (es ++ es') s u := by
  refine ⟨fun y => ?_, fun y => ?_⟩
  · rw [h'.marked, h.marked, or_assoc, ← exists_or]
    simp only [List.mem_append, or_and_right]
  · rw [h'.listed, h.listed]
    have hm := h.marked y
    cases hs : M.seen s.1 y with
    | true =>
      have ht : M.seen t.1 y = true := hm.mpr (.inl hs)
      simp [ht]
    | false =>
      simp only [hs, Bool.false_eq_true, false_or] at hm
      cases ht : M.seen t.1 y with
      | true => simp [hm.mp ht, List.mem_append, or_and_right, exists_or]
      | false =>
        have hn : ¬ ∃ e ∈ es, M.dst e = y := by rw [← hm, ht]; simp
        simp only [true_and, List.mem_append, or_and_right, exists_or, hn, false_or, or_false]

theorem foldl_relaxed (hp : Pushes push) (x : α) (edges : List ε) (s : β × List α) :
    Relaxed M edges s (edges.foldl (relax M push x) s) := by
  induction edges generalizing s with
  | nil => exact ⟨fun y => by simp, fun y => by simp⟩
  | cons e edges ih => exact (relax_relaxed hp x e s).append (ih _)

/-- The nodes to visit, and those that are not marked. -/
def work (M : Marker α ε β) (nodes : Finset α) (s : β × List α) : Nat :=
  s.2.length + (nodes.filter fun y => M.seen s.1 y = false).card

/-- Where the list has each of its nodes once, and they are marked, there is no more work than nodes. -/
theorem work_le {nodes : Finset α} (hn : queue.Nodup) (hq : ∀ x ∈ queue, x ∈ nodes ∧ M.seen m x = true) :
    work M nodes (m, queue) ≤ nodes.card := by
  classical
  rw [work, ← List.toFinset_card_of_nodup hn, ← Finset.card_union_of_disjoint]
  · refine Finset.card_le_card (Finset.union_subset (fun x hx => (hq x (List.mem_toFinset.mp hx)).1) ?_)
    exact Finset.filter_subset _ _
  · refine Finset.disjoint_left.mpr fun x hx hf => ?_
    rw [Finset.mem_filter, (hq x (List.mem_toFinset.mp hx)).2] at hf
    exact absurd hf.2 (by simp)

theorem foldl_work (hp : Pushes push) {nodes : Finset α} (x : α) {edges : List ε} (he : ∀ e ∈ edges, M.dst e ∈ nodes)
    (s : β × List α) : work M nodes (edges.foldl (relax M push x) s) ≤ work M nodes s := by
  induction edges generalizing s with
  | nil => exact le_rfl
  | cons e edges ih =>
    rw [List.forall_mem_cons] at he
    refine (ih he.2 _).trans ?_
    rw [relax]
    split
    · exact le_rfl
    · rename_i h
      rw [work, work, hp.length]
      have hsub :
          nodes.filter (fun y => M.seen (M.mark s.1 x e) y = false) ⊂ nodes.filter fun y => M.seen s.1 y = false := by
        refine Finset.ssubset_iff_of_subset (fun y hy => ?_) |>.mpr ⟨M.dst e, ?_, ?_⟩
        · rw [Finset.mem_filter] at hy ⊢
          refine ⟨hy.1, eq_false_of_ne_true fun hs => ?_⟩
          rw [(M.seen_mark _ _ _ _).mpr (.inr hs)] at hy
          exact absurd hy.2 (by simp)
        · exact Finset.mem_filter.mpr ⟨he.1, eq_false_of_ne_true h⟩
        · rw [Finset.mem_filter, (M.seen_mark _ _ _ _).mpr (.inl rfl)]
          simp
      have := Finset.card_lt_card hsub
      show s.2.length + 1 + (nodes.filter fun y => M.seen (M.mark s.1 x e) y = false).card ≤ _
      omega

/-- A visit leaves less work. -/
theorem visit_work (hp : Pushes push) {nodes : Finset α} {s : β × List α} (hs : s.2 ≠ [])
    (hn : ∀ x ∈ s.2, ∀ e ∈ next x, M.dst e ∈ nodes) : work M nodes (visit M next push s) < work M nodes s := by
  obtain ⟨m, _ | ⟨x, queue⟩⟩ := s
  · exact absurd rfl hs
  · refine lt_of_le_of_lt (foldl_work hp x (hn x List.mem_cons_self) (m, queue)) ?_
    exact Nat.add_lt_add_right (Nat.lt_succ_self queue.length) _

/-! ### The whole search -/

/-- The search has come so far: what it marked is reached, and what is reached
and marked is in the list, or its neighbours are marked. -/
structure Searching (M : Marker α ε β) (next : α → List ε) (m₀ : β) (q₀ : List α) (s : β × List α) : Prop where
  kept (y : α) : M.seen m₀ y = true → M.seen s.1 y = true
  sound (y : α) : M.seen s.1 y = true → M.seen m₀ y = true ∨ ∃ x ∈ q₀, Fresh M next m₀ x y
  marked (y : α) : y ∈ s.2 → M.seen s.1 y = true
  listed (y : α) : y ∈ s.2 → ∃ x ∈ q₀, Fresh M next m₀ x y
  visited (y z : α) : (∃ x ∈ q₀, Fresh M next m₀ x y) → M.seen s.1 y = true → y ∉ s.2 → Edge M next y z →
    M.seen s.1 z = true

theorem Searching.start (hq : ∀ x ∈ q₀, M.seen m₀ x = true) : Searching M next m₀ q₀ (m₀, q₀) where
  kept _ h := h
  sound _ h := .inl h
  marked := hq
  listed y h := ⟨y, h, .refl⟩
  visited y z := by
    rintro ⟨x, hx, hf⟩ hm hn -
    -- the end of a path is not marked, unless it is where the path starts
    cases hf with
    | refl => exact absurd hx hn
    | tail _ hs =>
      rw [hs.2] at hm
      cases hm

theorem Searching.visit (hp : Pushes push) {s : β × List α} (h : Searching M next m₀ q₀ s) :
    Searching M next m₀ q₀ (visit M next push s) := by
  obtain ⟨m, _ | ⟨x, queue⟩⟩ := s
  · exact h
  have hr : Relaxed M (next x) (m, queue) (Search.visit M next push (m, x :: queue)) :=
    foldl_relaxed hp x (next x) (m, queue)
  obtain ⟨x₀, hx₀, hx⟩ := h.listed x List.mem_cons_self
  -- a neighbour that was not marked is reached from the node that is visited
  have fresh (y : α) (hy : M.seen m y = false) (he : Edge M next x y) : ∃ x ∈ q₀, Fresh M next m₀ x y := by
    refine ⟨x₀, hx₀, hx.tail ⟨he, eq_false_of_ne_true fun hs => ?_⟩⟩
    rw [h.kept y hs] at hy
    cases hy
  refine ⟨fun y hy => (hr.marked y).mpr (.inl (h.kept y hy)), fun y hy => ?_, fun y hy => ?_, fun y hy => ?_,
    fun y z hy hm hn he => ?_⟩
  · cases hs : M.seen m y with
    | true => exact h.sound y hs
    | false =>
      obtain hm | he := (hr.marked y).mp hy
      · rw [show M.seen m y = true from hm] at hs
        cases hs
      · exact .inr (fresh y hs he)
  · obtain hy | ⟨-, he⟩ := (hr.listed y).mp hy
    · exact (hr.marked y).mpr (.inl (h.marked y (List.mem_cons_of_mem _ hy)))
    · exact (hr.marked y).mpr (.inr he)
  · obtain hy | ⟨hs, he⟩ := (hr.listed y).mp hy
    · exact h.listed y (List.mem_cons_of_mem _ hy)
    · exact fresh y hs he
  · rw [hr.listed, not_or] at hn
    by_cases hyx : y = x
    · subst hyx
      exact (hr.marked z).mpr (.inr he)
    · have hs : M.seen m y = true := by
        obtain hs | he := (hr.marked y).mp hm
        · exact hs
        · exact of_not_not fun hs => hn.2 ⟨eq_false_of_ne_true hs, he⟩
      exact (hr.marked z).mpr (.inl (h.visited y z hy hs (by simp [hyx, hn.1]) he))

/-- What every new mark keeps, of an edge from a marked node, holds in the end. -/
structure Keeps (M : Marker α ε β) (next : α → List ε) (J : β → Prop) : Prop where
  mark {m : β} {x : α} {e : ε} : J m → M.seen m x = true → e ∈ next x → M.seen m (M.dst e) = false → J (M.mark m x e)

theorem Keeps.foldl {J : β → Prop} (hJ : Keeps M next J) (push : List α → α → List α) {edges : List ε}
    (he : ∀ e ∈ edges, e ∈ next x) {s : β × List α} (h : J s.1) (hx : M.seen s.1 x = true) :
    J (edges.foldl (relax M push x) s).1 := by
  induction edges generalizing s with
  | nil => exact h
  | cons e edges ih =>
    rw [List.forall_mem_cons] at he
    rw [List.foldl_cons]
    refine ih he.2 ?_ ?_
    · rw [relax]
      split
      · exact h
      · exact hJ.mark h hx he.1 (eq_false_of_ne_true ‹_›)
    · rw [relax]
      split
      · exact hx
      · exact (M.seen_mark _ _ _ _).mpr (.inr hx)

/-- A search ends. The marked nodes are those that were marked before, and those
reached from the list over others. -/
theorem run_spec (nodes : Finset α) (hp : Pushes push) (hn : ∀ x ∈ nodes, ∀ e ∈ next x, M.dst e ∈ nodes)
    (hq : ∀ x ∈ q₀, x ∈ nodes ∧ M.seen m₀ x = true) {visits : Nat} (hv : work M nodes (m₀, q₀) ≤ visits) {J : β → Prop}
    (hJ : Keeps M next J) (h₀ : J m₀) :
    ∃ m, run M next push visits m₀ q₀ = some m ∧ J m ∧
      ∀ y, M.seen m y = true ↔ M.seen m₀ y = true ∨ ∃ x ∈ q₀, Fresh M next m₀ x y := by
  let I (s : β × List α) : Prop := Searching M next m₀ q₀ s ∧ J s.1 ∧ ∀ y ∈ s.2, y ∈ nodes
  have keeps (s : β × List α) (h : I s) (_ : (!s.2.isEmpty) = true) : I (visit M next push s) := by
    obtain ⟨m, _ | ⟨x, queue⟩⟩ := s
    · exact h
    have hr : Relaxed M (next x) (m, queue) (visit M next push (m, x :: queue)) :=
      foldl_relaxed hp x (next x) (m, queue)
    refine ⟨h.1.visit hp, hJ.foldl push (fun _ he => he) (s := (m, queue)) h.2.1 (h.1.marked x List.mem_cons_self), ?_⟩
    intro y hy
    obtain hy | ⟨-, e, he, rfl⟩ := (hr.listed y).mp hy
    · exact h.2.2 y (List.mem_cons_of_mem _ hy)
    · exact hn x (h.2.2 x List.mem_cons_self) e he
  have decreases (s : β × List α) (h : I s) (hs : (!s.2.isEmpty) = true) :
      work M nodes (visit M next push s) < work M nodes s :=
    visit_work hp (fun he => by rw [he] at hs; cases hs) fun x hx => hn x (h.2.2 x hx)
  have start : I (m₀, q₀) := ⟨.start fun x hx => (hq x hx).2, h₀, fun x hx => (hq x hx).1⟩
  obtain ⟨⟨m, queue⟩, hrun, hI, hend⟩ := whileLoop_ends keeps decreases start hv
  have hqueue : queue = [] := by simpa using hend
  subst hqueue
  refine ⟨m, by rw [run, hrun]; rfl, hI.2.1, fun y => ⟨hI.1.sound y, ?_⟩⟩
  rintro (hy | ⟨x, hx, hy⟩)
  · exact hI.1.kept y hy
  · induction hy with
    | refl => exact hI.1.kept x (hq x hx).2
    | tail hxy hyz ih => exact hI.1.visited _ _ ⟨x, hx, hxy⟩ ih List.not_mem_nil hyz.1

/-- Where a search starts from the marked nodes, it marks what is reached from them. -/
theorem exists_fresh_iff (hq : ∀ y, M.seen m₀ y = true ↔ y ∈ q₀) :
    (M.seen m₀ y = true ∨ ∃ x ∈ q₀, Fresh M next m₀ x y) ↔ ∃ x ∈ q₀, Relation.ReflTransGen (Edge M next) x y := by
  constructor
  · rintro (h | ⟨x, hx, h⟩)
    · exact ⟨y, (hq y).mp h, .refl⟩
    · exact ⟨x, hx, Relation.ReflTransGen.mono (fun _ _ => And.left) _ _ h⟩
  · rintro ⟨x, hx, h⟩
    induction h with
    | refl => exact .inl ((hq x).mpr hx)
    | @tail y z _ hyz ih =>
      cases hz : M.seen m₀ z with
      | true => exact .inl rfl
      | false =>
        obtain h | ⟨x, hx, h⟩ := ih
        · exact .inr ⟨y, (hq y).mp h, .single ⟨hyz, hz⟩⟩
        · exact .inr ⟨x, hx, h.tail ⟨hyz, hz⟩⟩

end Search

end Xir
