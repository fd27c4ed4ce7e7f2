import Mathlib.Data.List.Induction

/-!
# Indexed folds whose result determines the list

`chain step c i as` folds `as` from `c`, giving each step its element and its
index. If steps determine what they were given and no step yields a start
value, then the result of a fold determines its start and the whole list
(`chain_inj`): no two lists, of whatever lengths, have a common result.
-/

namespace Xir

variable {δ α : Type}

/-- The fold of a list by a step that also receives the element's index. -/
def chain (step : δ → Nat → α → δ) : δ → Nat → List α → δ
  | c, _, [] => c
  | c, i, a :: as => chain step (step c i a) (i + 1) as

variable (step : δ → Nat → α → δ)

theorem chain_append : ∀ (as bs : List α) (c : δ) (i : Nat),
    chain step c i (as ++ bs) = chain step (chain step c i as) (i + as.length) bs
  | [], _, _, _ => rfl
  | a :: as, bs, c, i => by
    rw [List.cons_append, chain, chain_append as, chain, List.length_cons, Nat.add_right_comm, Nat.add_assoc]

theorem chain_snoc (as : List α) (a : α) (c : δ) (i : Nat) :
    chain step c i (as ++ [a]) = step (chain step c i as) (i + as.length) a := by
  rw [chain_append]
  rfl

/-- A projection of the accumulator that a fold's steps respect. -/
theorem map_chain {γ : Type} {step : δ → Nat → α → δ} {step' : γ → Nat → α → γ} (f : δ → γ)
    (h : ∀ c i a, f (step c i a) = step' (f c) i a) : ∀ (as : List α) (c : δ) (i : Nat),
    f (chain step c i as) = chain step' (f c) i as
  | [], _, _ => rfl
  | a :: as, c, i => by rw [chain, map_chain f h as, h, chain]

theorem chain_map {β : Type} (f : β → α) : ∀ (bs : List β) (c : δ) (i : Nat),
    chain step c i (bs.map f) = chain (fun c i b => step c i (f b)) c i bs
  | [], _, _ => rfl
  | b :: bs, c, i => by rw [List.map_cons, chain, chain_map f bs, chain]

/-- A fold whose steps, on elements satisfying `P`, are injective and never yield
one of the start values `S`. -/
structure ChainInj (P : α → Prop) (S : δ → Prop) : Prop where
  step_inj {c c' i i' a a'} : P a → P a' → step c i a = step c' i' a' → c = c' ∧ a = a'
  not_start {c i a} : P a → ¬ S (step c i a)

variable {step} {P : α → Prop} {S : δ → Prop}

/-- The result determines the start and the list. -/
theorem chain_inj (hc : ChainInj step P S) {s s' : δ} (hs : S s) (hs' : S s') {as as' : List α}
    (ha : ∀ a ∈ as, P a) (ha' : ∀ a ∈ as', P a) {i i' : Nat}
    (h : chain step s i as = chain step s' i' as') : s = s' ∧ as = as' := by
  induction as using List.reverseRecOn generalizing as' with
  | nil =>
    rcases List.eq_nil_or_concat as' with rfl | ⟨bs', b', rfl⟩
    · exact ⟨h, rfl⟩
    · rw [List.concat_eq_append, chain_snoc] at h
      have hb : P b' := ha' _ (by simp)
      exact absurd ((show s = _ from h) ▸ hs) (hc.not_start hb)
  | append_singleton as a ih =>
    have hp : P a := ha _ (by simp)
    rcases List.eq_nil_or_concat as' with rfl | ⟨bs', b', rfl⟩
    · rw [chain_snoc] at h
      exact absurd ((show _ = s' from h).symm ▸ hs') (hc.not_start hp)
    · rw [List.concat_eq_append] at h ha'
      rw [chain_snoc, chain_snoc] at h
      obtain ⟨h₁, rfl⟩ := hc.step_inj hp (ha' _ (by simp)) h
      obtain ⟨rfl, rfl⟩ := ih (fun x hx => ha x (List.mem_append_left _ hx))
        (fun x hx => ha' x (List.mem_append_left _ hx)) h₁
      exact ⟨rfl, List.concat_eq_append.symm⟩

end Xir
