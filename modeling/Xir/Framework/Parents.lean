import Mathlib.Data.Set.Card
import Mathlib.Logic.Relation
import Mathlib.Order.Interval.Finset.Nat

/-!
# Entries that have a parent

An entry has at most one parent. It is at a `Depth` if so many entries are above
it, and `Below` another if it is reached from there by going from parents to
children. Where each entry is the parent of at most one, those below an entry lie
on a line, at different depths: there are at most as many as the depth of the
lowest (`Parents.encard_below_le`).
-/

namespace Xir.Parents

variable {ι : Type} {parent parent' : ι → Option ι} {a b c : ι} {m n : ℕ}

/-- So many entries are above one. -/
inductive Depth (parent : ι → Option ι) : ι → ℕ → Prop
  | top {i : ι} : parent i = none → Depth parent i 0
  | under {i p : ι} {n : ℕ} : parent i = some p → Depth parent p n → Depth parent i (n + 1)

/-- An entry is reached from another by going to children. -/
abbrev Below (parent : ι → Option ι) : ι → ι → Prop := Relation.TransGen fun a b => parent b = some a

theorem Depth.unique (h : Depth parent a m) (h' : Depth parent a n) : m = n := by
  induction h generalizing n with
  | top hp =>
    cases h' with
    | top => rfl
    | under hp' => exact absurd (hp.symm.trans hp') nofun
  | under hp _ ih =>
    cases h' with
    | top hp' => exact absurd (hp.symm.trans hp') nofun
    | under hp' h' =>
      obtain rfl := Option.some.inj (hp.symm.trans hp')
      rw [ih h']

/-- The depth of an entry whose parent has one. -/
theorem Depth.of_parent (h : Depth parent b n) (hp : parent b = some a) : ∃ m, n = m + 1 ∧ Depth parent a m := by
  cases h with
  | top hp' => exact absurd (hp'.symm.trans hp) nofun
  | @under _ p m hp' h =>
    obtain rfl := Option.some.inj (hp'.symm.trans hp)
    exact ⟨m, rfl, h⟩

/-- What holds between each entry and its parent holds between an entry and all below it. -/
theorem Below.rel {R : ι → ι → Prop} (ht : ∀ {a b c}, R a b → R b c → R a c) (hr : ∀ {a b}, parent b = some a → R a b)
    (h : Below parent a b) : R a b := by
  induction h with
  | single hp => exact hr hp
  | tail _ hp ih => exact ht ih (hr hp)

/-- An entry below another is deeper. -/
theorem Below.depth (h : Below parent a b) (hb : Depth parent b n) : ∃ m, m < n ∧ Depth parent a m := by
  induction h generalizing n with
  | single hp =>
    obtain ⟨m, rfl, ha⟩ := hb.of_parent hp
    exact ⟨m, Nat.lt_succ_self m, ha⟩
  | tail _ hp ih =>
    obtain ⟨k, rfl, hk⟩ := hb.of_parent hp
    obtain ⟨m, hm, ha⟩ := ih hk
    exact ⟨m, by omega, ha⟩

/-- An entry is not below one at the same depth. -/
theorem Below.depth_ne (h : Below parent a b) (ha : Depth parent a n) (hb : Depth parent b n) : False := by
  obtain ⟨m, hm, ha'⟩ := h.depth hb
  have : m = n := ha'.unique ha
  omega

/-- Below an entry there is one at each depth, if none is the parent of two. -/
theorem Below.unique (single : ∀ a b c, parent b = some a → parent c = some a → b = c) (hb : Below parent a b)
    (hc : Below parent a c) (hdb : Depth parent b n) (hdc : Depth parent c n) : b = c := by
  induction hb generalizing c n with
  | single hpb =>
    obtain ⟨m, rfl, ha⟩ := hdb.of_parent hpb
    cases hc with
    | single hpc => exact single _ _ _ hpb hpc
    | tail hd hpc =>
      obtain ⟨m', hm, hdd⟩ := hdc.of_parent hpc
      obtain rfl : m = m' := by omega
      exact (Below.depth_ne hd ha hdd).elim
  | tail hd hpb ih =>
    obtain ⟨m, rfl, hdd⟩ := hdb.of_parent hpb
    cases hc with
    | single hpc =>
      obtain ⟨m', hm, ha⟩ := hdc.of_parent hpc
      obtain rfl : m = m' := by omega
      exact (Below.depth_ne hd ha hdd).elim
    | tail hd' hpc =>
      obtain ⟨m', hm, hdd'⟩ := hdc.of_parent hpc
      obtain rfl : m = m' := by omega
      obtain rfl := ih hd' hdd hdd'
      exact single _ _ _ hpb hpc

/-- Where none is the parent of two and none is deeper than `n`, at most `n` are below one. -/
theorem encard_below_le (single : ∀ a b c, parent b = some a → parent c = some a → b = c)
    (deep : ∀ b, Below parent a b → ∃ m ≤ n, Depth parent b m) : {b | Below parent a b}.encard ≤ n := by
  choose! depth hle hdepth using deep
  have hmaps : Set.MapsTo depth {b | Below parent a b} (Finset.Icc 1 n : Set ℕ) := fun b hb => by
    obtain ⟨m, hm, -⟩ := Below.depth hb (hdepth b hb)
    have hn : depth b ≤ n := hle b hb
    simp only [Finset.coe_Icc, Set.mem_Icc]
    omega
  have hinj : Set.InjOn depth {b | Below parent a b} := fun b hb c hc he =>
    Below.unique single hb hc (hdepth b hb) (he ▸ hdepth c hc)
  have hcard := Set.encard_le_encard_of_injOn hmaps hinj
  rw [Set.encard_coe_eq_coe_finsetCard, Nat.card_Icc] at hcard
  simpa using hcard

end Xir.Parents
