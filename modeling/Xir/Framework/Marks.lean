import Mathlib.Data.Set.Card

/-!
# Keys that are marked once each

`Marks f keys`: the map `f` marks the keys of the list, which are distinct. A
key that is not marked can be added at the end (`Marks.mark`), and there are as
many marked keys as the list has (`Marks.ncard`).
-/

namespace Xir

variable {κ : Type} [DecidableEq κ] {f : κ → Bool} {keys : List κ}

/-- The keys that `f` marks, each once. -/
structure Marks (f : κ → Bool) (keys : List κ) : Prop where
  mem (k : κ) : f k = true ↔ k ∈ keys
  nodup : keys.Nodup

omit [DecidableEq κ] in
theorem Marks.empty : Marks (fun _ : κ => false) [] := ⟨fun k => by simp, List.nodup_nil⟩

theorem Marks.mark (h : Marks f keys) {k : κ} (hk : f k = false) : Marks (Function.update f k true) (keys ++ [k]) := by
  have hn : k ∉ keys := fun hc => by
    rw [← h.mem, hk] at hc
    cases hc
  refine ⟨fun a => ?_, ?_⟩
  · by_cases ha : a = k
    · simp [ha]
    · rw [Function.update_of_ne ha, h.mem, List.mem_append, List.mem_singleton, or_iff_left ha]
  · rw [← List.concat_eq_append]
    exact h.nodup.concat hn

theorem Marks.ncard (h : Marks f keys) : {k | f k = true}.ncard = keys.length := by
  have hs : {k | f k = true} = (keys.toFinset : Set κ) := by
    ext k
    simp [h.mem k]
  rw [hs, Set.ncard_coe_finset, List.toFinset_card_of_nodup h.nodup]

end Xir
