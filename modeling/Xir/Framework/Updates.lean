import Mathlib.Logic.Function.Basic

/-!
# Maps written entry by entry

`updates f kvs` is the map `f` after the entries `kvs` were written to it, one
after the other. Where all entries of a key have one value, the key has it
(`updates_apply`).
-/

namespace Xir

variable {κ ν : Type} [DecidableEq κ]

/-- The map after the entries are written. -/
def updates (f : κ → ν) (kvs : List (κ × ν)) : κ → ν := kvs.foldl (fun f kv => Function.update f kv.1 kv.2) f

theorem updates_nil (f : κ → ν) : updates f [] = f := rfl

theorem updates_cons (f : κ → ν) (kv : κ × ν) (kvs : List (κ × ν)) :
    updates f (kv :: kvs) = updates (Function.update f kv.1 kv.2) kvs := rfl

theorem updates_append (f : κ → ν) (kvs kvs' : List (κ × ν)) :
    updates f (kvs ++ kvs') = updates (updates f kvs) kvs' := List.foldl_append

theorem updates_apply : ∀ {kvs : List (κ × ν)} {f : κ → ν} {k : κ} {v : ν}, (∀ kv ∈ kvs, kv.1 = k → kv.2 = v) →
    updates f kvs k = if k ∈ kvs.map Prod.fst then v else f k
  | [], f, k, v, _ => by rw [updates_nil, List.map_nil, if_neg List.not_mem_nil]
  | kv :: kvs, f, k, v, h => by
    obtain ⟨hv, hs⟩ := List.forall_mem_cons.mp h
    rw [updates_cons, updates_apply hs, List.map_cons]
    by_cases hk : kv.1 = k
    · subst hk
      rw [Function.update_self, hv rfl, if_pos List.mem_cons_self, ite_self]
    · rw [Function.update_of_ne (Ne.symm hk)]
      exact if_congr (by rw [List.mem_cons, or_iff_right (Ne.symm hk)]) rfl rfl

end Xir
