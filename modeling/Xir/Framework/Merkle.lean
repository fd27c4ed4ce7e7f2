import Mathlib.Data.Nat.Bitwise
import Mathlib.Logic.Function.Basic
import Mathlib.Tactic.Ring

/-!
# Incremental Merkle trees

A binary hash tree over leaves, whose nodes are hashes of two nodes of the level
below (`node`), and the way to keep only one node of each level, as leaves are
inserted (`insertLoop`) and a root is read (`rootLoop`). The branch holds a node
for each bit of the number of leaves (`Branch`): the last complete one of its
level. What the leaves of a node are (`node_congr`) is all that the proofs use of
the tree.
-/

namespace Xir.Merkle

variable {α : Type} (hash : α → α → α)

/-- Node `i` at a height over the leaves `f`. -/
def node (f : Nat → α) : Nat → Nat → α
  | 0, i => f i
  | height + 1, i => hash (node f height (2 * i)) (node f height (2 * i + 1))

/-- The root of the tree of a depth over `leaves`, and over `zero` where there are no more. -/
def root (zero : α) (depth : Nat) (leaves : List α) : α := node hash (fun i => leaves.getD i zero) depth 0

/-- Carries the node of a new leaf up to the first height that has none, where `size` is the number of
nodes at this height. -/
def insertLoop : Nat → Nat → (Nat → α) → α → Nat → Nat → α
  | 0, _, branch, _, _ => branch
  | fuel + 1, height, branch, node, size =>
    if size % 2 = 1 then Function.update branch height node
    else insertLoop fuel (height + 1) branch (hash (branch height) node) (size / 2)

/-- Joins the nodes of a branch for `count` leaves, and roots of trees of zeros. -/
def rootLoop (branch : Nat → α) (count : Nat) : Nat → Nat → α → α → α
  | 0, _, root, _ => root
  | fuel + 1, height, root, zero =>
    rootLoop branch count fuel (height + 1)
      (if count.testBit height then hash (branch height) root else hash root zero) (hash zero zero)

variable {hash} {f g : Nat → α} {branch : Nat → α} {zero : α}

/-- A node depends on the leaves below it. -/
theorem node_congr {height i : Nat} (h : ∀ j, i * 2 ^ height ≤ j → j < (i + 1) * 2 ^ height → f j = g j) :
    node hash f height i = node hash g height i := by
  induction height generalizing i with
  | zero => exact h i (by simp) (by simp)
  | succ height ih =>
    rw [node, node]
    have hl : i * 2 ^ (height + 1) = 2 * i * 2 ^ height := by rw [Nat.pow_succ']; ring
    have hr : (i + 1) * 2 ^ (height + 1) = (2 * i + 1 + 1) * 2 ^ height := by rw [Nat.pow_succ']; ring
    have hm : (2 * i + 1) * 2 ^ height = 2 * i * 2 ^ height + 2 ^ height := by ring
    have hn : (2 * i + 1 + 1) * 2 ^ height = (2 * i + 1) * 2 ^ height + 2 ^ height := by ring
    rw [ih fun j h₁ h₂ => h j (by omega) (by omega), ih fun j h₁ h₂ => h j (by omega) (by omega)]

/-- The branch of a tree of `count` leaves: a node for each bit, the last complete one. -/
def Branch (hash : α → α → α) (f : Nat → α) (count : Nat) (branch : Nat → α) : Prop :=
  ∀ height, count.testBit height = true → branch height = node hash f height (count / 2 ^ height - 1)

theorem testBit_iff {count height : Nat} : count.testBit height = true ↔ count / 2 ^ height % 2 = 1 := by
  rw [Nat.testBit_eq_decide_div_mod_eq, decide_eq_true_eq]

/-- The branch of a tree without leaves. -/
theorem branch_zero : Branch hash f 0 branch := fun height h => absurd h (by simp)

/-- The leaves before the new one complete all nodes of a level but the last of `size`. -/
theorem div_eq_pred {count size height : Nat} (hs : count + 1 = size * 2 ^ height) : count / 2 ^ height = size - 1 := by
  have hp := Nat.two_pow_pos height
  obtain ⟨size, rfl⟩ : ∃ n, size = n + 1 := Nat.exists_eq_add_one.mpr (Nat.pos_of_ne_zero fun h => by simp [h] at hs)
  have hm : (size + 1) * 2 ^ height = size * 2 ^ height + 2 ^ height := by ring
  exact Nat.div_eq_of_lt_le (by rw [Nat.add_sub_cancel]; omega) (by rw [Nat.add_sub_cancel]; omega)

/-- The levels above the one that an insertion completes. -/
theorem div_succ_of_odd {count size height above : Nat} (hs : count + 1 = size * 2 ^ height) (hodd : size % 2 = 1)
    (h : height < above) : (count + 1) / 2 ^ above = count / 2 ^ above := by
  refine Nat.succ_div_of_not_dvd fun hd => ?_
  have h2 : 2 ^ (height + 1) ∣ size * 2 ^ height := hs ▸ (Nat.pow_dvd_pow 2 h).trans hd
  rw [Nat.pow_succ', Nat.mul_dvd_mul_iff_right (Nat.two_pow_pos height)] at h2
  omega

/-- Inserting a leaf: the loop at a height whose last node is the one that the leaf completes. -/
theorem insertLoop_branch {count : Nat} (hb : Branch hash f count branch) (fuel : Nat) {height size : Nat}
    (hs : count + 1 = size * 2 ^ height) (hf : size < 2 ^ fuel) :
    Branch hash f (count + 1) (insertLoop hash fuel height branch (node hash f height (size - 1)) size) := by
  induction fuel generalizing height size with
  | zero =>
    have h0 : size = 0 := by simpa using hf
    rw [h0, Nat.zero_mul] at hs
    exact absurd hs (Nat.succ_ne_zero _)
  | succ fuel ih =>
    rw [insertLoop]
    have hdiv := div_eq_pred hs
    split
    · rename_i hodd
      intro h hbit
      obtain hlt | rfl | hgt := Nat.lt_trichotomy h height
      · -- The bits below are zero.
        obtain ⟨k, rfl⟩ := Nat.exists_eq_add_of_lt hlt
        have he : count + 1 = size * 2 ^ k * 2 * 2 ^ h := by
          rw [hs]
          ring
        rw [testBit_iff, he, Nat.mul_div_cancel _ (Nat.two_pow_pos h)] at hbit
        omega
      · rw [Function.update_self, hs, Nat.mul_div_cancel _ (Nat.two_pow_pos h)]
      · rw [testBit_iff, div_succ_of_odd hs hodd hgt, ← testBit_iff] at hbit
        rw [Function.update_of_ne (Nat.ne_of_gt hgt), div_succ_of_odd hs hodd hgt]
        exact hb h hbit
    · rename_i heven
      obtain ⟨k, rfl⟩ : ∃ k, size = 2 * (k + 1) := by
        refine ⟨size / 2 - 1, ?_⟩
        have : size ≠ 0 := fun h => by simp [h] at hs
        omega
      have hbit : count.testBit height = true := testBit_iff.mpr (by omega)
      have hleft : branch height = node hash f height (2 * k) := by
        rw [hb height hbit, hdiv]
        congr 1
      have hnode : hash (branch height) (node hash f height (2 * (k + 1) - 1)) = node hash f (height + 1) k := by
        rw [hleft, node]
        rfl
      have hhalf : 2 * (k + 1) / 2 = k + 1 := by omega
      have hup : count + 1 = (k + 1) * 2 ^ (height + 1) := by
        rw [hs, Nat.pow_succ']
        ring
      rw [Nat.pow_succ'] at hf
      rw [hnode, hhalf]
      exact ih hup (by omega)

/-- Inserting leaf number `count`. -/
theorem insert_branch {count depth : Nat} (hb : Branch hash f count branch) (h : count + 1 < 2 ^ depth) :
    Branch hash f (count + 1) (insertLoop hash depth 0 branch (f count) (count + 1)) := by
  have h0 : count + 1 = (count + 1) * 2 ^ 0 := by simp
  exact insertLoop_branch hb depth h0 h

theorem Branch.congr {count : Nat} (hb : Branch hash f count branch) (h : ∀ i < count, f i = g i) :
    Branch hash g count branch := by
  intro height hbit
  rw [hb height hbit]
  refine node_congr fun j _ hj => h j ?_
  have hdm := Nat.div_add_mod' count (2 ^ height)
  have hpos : 1 ≤ count / 2 ^ height := Nat.pos_of_ne_zero fun h0 => by simp [testBit_iff, h0] at hbit
  rw [Nat.sub_add_cancel hpos] at hj
  omega

/-- Inserting a leaf after others. -/
theorem insert_list {leaves : List α} {depth : Nat}
    (hb : Branch hash (fun i => leaves.getD i zero) leaves.length branch)
    (h : leaves.length + 1 < 2 ^ depth) (leaf : α) :
    Branch hash (fun i => (leaves ++ [leaf]).getD i zero) (leaves.length + 1)
      (insertLoop hash depth 0 branch leaf (leaves.length + 1)) := by
  have hold : ∀ i < leaves.length, leaves.getD i zero = (leaves ++ [leaf]).getD i zero := fun i hi => by
    simp [List.getD_eq_getElem?_getD, List.getElem?_append_left hi]
  have hnew : (leaves ++ [leaf]).getD leaves.length zero = leaf := by simp [List.getD_eq_getElem?_getD]
  have := insert_branch (hb.congr hold) h
  rwa [hnew] at this

/-! ## Reading a root -/

/-- The nodes of a level over zeros are all the same. -/
theorem node_zero (zero : α) (height i j : Nat) :
    node hash (fun _ => zero) height i = node hash (fun _ => zero) height j := by
  induction height generalizing i j with
  | zero => rfl
  | succ height ih => rw [node, node, ih (2 * i) (2 * j), ih (2 * i + 1) (2 * j + 1)]

/-- Joining the node of a branch, or a tree of zeros, to the node that is not complete. -/
theorem join_eq {count height : Nat} (hb : Branch hash f count branch) (hz : ∀ i, count ≤ i → g i = zero)
    (hg : ∀ i < count, g i = f i) :
    (if count.testBit height then hash (branch height) (node hash g height (count / 2 ^ height))
      else hash (node hash g height (count / 2 ^ height)) (node hash (fun _ => zero) height 0)) =
    node hash g (height + 1) (count / 2 ^ (height + 1)) := by
  have hmod := Nat.mod_lt count (Nat.two_pow_pos height)
  have hdm := Nat.div_add_mod' count (2 ^ height)
  have hhalf : count / 2 ^ (height + 1) = count / 2 ^ height / 2 := by rw [Nat.pow_succ, Nat.div_div_eq_div_mul]
  rw [node, hhalf]
  by_cases hbit : count.testBit height = true
  · have hodd := testBit_iff.mp hbit
    have hl : 2 * (count / 2 ^ height / 2) = count / 2 ^ height - 1 := by omega
    have hr : 2 * (count / 2 ^ height / 2) + 1 = count / 2 ^ height := by omega
    have hleft : node hash g height (count / 2 ^ height - 1) = branch height := by
      rw [hb height hbit]
      refine node_congr fun j _ hj => hg j ?_
      rw [Nat.sub_add_cancel (by omega)] at hj
      omega
    rw [if_pos hbit, hr, hl, hleft]
  · have heven : ¬ count / 2 ^ height % 2 = 1 := fun h => hbit (testBit_iff.mpr h)
    have hl : 2 * (count / 2 ^ height / 2) = count / 2 ^ height := by omega
    have hright : node hash g height (count / 2 ^ height + 1) = node hash (fun _ => zero) height 0 := by
      rw [node_zero zero height 0 (count / 2 ^ height + 1)]
      refine node_congr fun j hj _ => hz j ?_
      rw [Nat.add_mul, Nat.one_mul] at hj
      omega
    rw [if_neg hbit, hl, hright]

theorem rootLoop_eq {count : Nat} (hb : Branch hash f count branch) (hz : ∀ i, count ≤ i → g i = zero)
    (hg : ∀ i < count, g i = f i) (fuel height : Nat) :
    rootLoop hash branch count fuel height (node hash g height (count / 2 ^ height))
    (node hash (fun _ => zero) height 0) =
      node hash g (height + fuel) (count / 2 ^ (height + fuel)) := by
  induction fuel generalizing height with
  | zero => rfl
  | succ fuel ih =>
    have hzero : hash (node hash (fun _ => zero) height 0) (node hash (fun _ => zero) height 0) =
        node hash (fun _ => zero) (height + 1) 0 := by
      rw [node, node_zero zero height (2 * 0 + 1) (2 * 0)]
    rw [rootLoop, join_eq hb hz hg, hzero, ih (height + 1), Nat.add_assoc, Nat.add_comm 1]

/-- The root of the first leaves, and of zeros, is read from their branch. -/
theorem root_of_branch {leaves : List α} {depth : Nat}
    (hb : Branch hash (fun i => leaves.getD i zero) leaves.length branch) (h : leaves.length < 2 ^ depth) :
    rootLoop hash branch leaves.length depth 0 zero zero = root hash zero depth leaves := by
  have hz : ∀ i, leaves.length ≤ i → leaves.getD i zero = zero := fun i hi => by
    rw [List.getD_eq_default _ _ hi]
  have hr := rootLoop_eq hb hz (fun _ _ => rfl) depth 0
  rw [Nat.zero_add, Nat.div_eq_of_lt h] at hr
  rw [root, ← hr, node, node, Nat.pow_zero, Nat.div_one, hz _ le_rfl]

end Xir.Merkle
