import Mathlib.Data.List.Perm.Basic
import Mathlib.Logic.Function.Basic

/-!
# Elements numbered by their occurrences

`numbered f` gives each element of a list the number that `f` has for it, and
one more for each earlier occurrence. These pairs are all different
(`nodup_numbered`), and they do not depend on the order of the list
(`numbered_perm`).
-/

namespace Xir

variable {α : Type} [DecidableEq α] {f : α → Nat} {as bs : List α} {a : α} {n : Nat}

/-- The elements, each with its number. -/
def numbered (f : α → Nat) : List α → List (α × Nat)
  | [] => []
  | a :: as => (a, f a) :: numbered (Function.update f a (f a + 1)) as

theorem map_fst_numbered (f : α → Nat) (as : List α) : (numbered f as).map Prod.fst = as := by
  induction as generalizing f with
  | nil => rfl
  | cons a as ih => rw [numbered, List.map_cons, ih]

/-- The numbers of an element are consecutive. -/
theorem mem_numbered : (a, n) ∈ numbered f as ↔ f a ≤ n ∧ n < f a + as.count a := by
  induction as generalizing f with
  | nil =>
    rw [numbered, List.count_nil]
    simp only [List.not_mem_nil, false_iff]
    omega
  | cons b as ih =>
    rw [numbered, List.mem_cons, ih, Prod.mk.injEq]
    by_cases hab : a = b
    · subst hab
      rw [Function.update_self, List.count_cons_self, eq_self, true_and]
      omega
    · rw [Function.update_of_ne hab, List.count_cons_of_ne (Ne.symm hab)]
      exact ⟨fun h => h.resolve_left fun hb => hab hb.1, .inr⟩

theorem nodup_numbered (f : α → Nat) (as : List α) : (numbered f as).Nodup := by
  induction as generalizing f with
  | nil => exact .nil
  | cons a as ih =>
    refine List.nodup_cons.mpr ⟨fun h => ?_, ih _⟩
    have := (mem_numbered.mp h).1
    rw [Function.update_self] at this
    omega

/-- The numbered elements are the same in whatever order the elements come. -/
theorem numbered_perm (h : as.Perm bs) (f : α → Nat) : (numbered f as).Perm (numbered f bs) := by
  rw [List.perm_ext_iff_of_nodup (nodup_numbered f as) (nodup_numbered f bs)]
  intro ⟨a, n⟩
  rw [mem_numbered, mem_numbered, h.count_eq]

end Xir
