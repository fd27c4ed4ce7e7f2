import Mathlib.Data.List.Basic
import Mathlib.Logic.Function.Basic

/-!
# Runs of a labelled transition system

`Run step s es s'`: from `s`, the events `es` lead to `s'`, one step each.
`Run.inv` takes an invariant from steps to runs, for runs whose events all
satisfy a condition; `Run.mono` does so for a relation between two states. A
step of a `Family` is one of a single component, and a run of it is one of each
(`Run.component`).
-/

namespace Xir

variable {σ ε : Type} {step : σ → ε → σ → Prop}

/-- The events `es`, in order, lead from a state to another. -/
inductive Run (step : σ → ε → σ → Prop) : σ → List ε → σ → Prop
  | nil (s : σ) : Run step s [] s
  | cons {s s' s'' : σ} {e : ε} {es : List ε} : step s e s' → Run step s' es s'' → Run step s (e :: es) s''

namespace Run

theorem single {s s' : σ} {e : ε} (h : step s e s') : Run step s [e] s' := .cons h (.nil _)

theorem append {s s' s'' : σ} {es es' : List ε} (h : Run step s es s') (h' : Run step s' es' s'') :
    Run step s (es ++ es') s'' := by
  induction h with
  | nil => exact h'
  | cons hs _ ih => exact .cons hs (ih h')

theorem snoc {s s' s'' : σ} {es : List ε} {e : ε} (h : Run step s es s') (h' : step s' e s'') :
    Run step s (es ++ [e]) s'' := h.append (single h')

/-- A run whose steps are steps of another system. -/
theorem imp {step' : σ → ε → σ → Prop} (hi : ∀ {s e s'}, step s e s' → step' s e s') {s s' : σ} {es : List ε}
    (h : Run step s es s') : Run step' s es s' := by
  induction h with
  | nil s => exact .nil s
  | cons hs _ ih => exact .cons (hi hs) ih

/-- A run whose steps are steps of another system, for events of another kind. -/
theorem map {ε' : Type} {step' : σ → ε' → σ → Prop} (f : ε → ε') (hi : ∀ {s e s'}, step s e s' → step' s (f e) s')
    {s s' : σ} {es : List ε} (h : Run step s es s') : Run step' s (es.map f) s' := by
  induction h with
  | nil s => exact .nil s
  | cons hs _ ih => exact .cons (hi hs) ih

/-- What every step whose event satisfies `C` preserves, a run of such events preserves. -/
theorem inv {I : σ → Prop} {C : ε → Prop} (hI : ∀ {s e s'}, C e → I s → step s e s' → I s')
    {s s' : σ} {es : List ε} (h : Run step s es s') (hC : ∀ e ∈ es, C e) (h0 : I s) : I s' := by
  induction h with
  | nil => exact h0
  | cons hs _ ih =>
    exact ih (fun e he => hC e (List.mem_cons_of_mem _ he)) (hI (hC _ List.mem_cons_self) h0 hs)

/-- A reflexive and transitive relation that holds over every step holds over a run. -/
theorem mono {R : σ → σ → Prop} (hr : ∀ s, R s s) (ht : ∀ {s s' s''}, R s s' → R s' s'' → R s s'')
    (hR : ∀ {s e s'}, step s e s' → R s s') {s s' : σ} {es : List ε} (h : Run step s es s') : R s s' := by
  induction h with
  | nil s => exact hr s
  | cons hs _ ih => exact ht (hR hs) ih

/-- Induction on the last event of a run. -/
theorem snoc_induction {s : σ} {P : List ε → σ → Prop} (nil : P [] s)
    (snoc : ∀ {es s' e s''}, Run step s es s' → P es s' → step s' e s'' → P (es ++ [e]) s'')
    {es : List ε} {s' : σ} (h : Run step s es s') : P es s' := by
  induction h generalizing P with
  | nil => exact nil
  | @cons s s₁ _ e es hs _ ih =>
    exact ih (P := fun es t => P (e :: es) t) (snoc (.nil s) nil hs) fun hr hp h' => snoc (.cons hs hr) hp h'

end Run

section

variable {ι : Type} [DecidableEq ι]

/-- The steps of a family: one component makes a step of its own. -/
def Family (step : ι → σ → ε → σ → Prop) (s : ι → σ) (e : ι × ε) (s' : ι → σ) : Prop :=
  ∃ t, step e.1 (s e.1) e.2 t ∧ s' = Function.update s e.1 t

variable {step : ι → σ → ε → σ → Prop}

/-- A run of a family is one of each component, by the events of this one. -/
theorem Run.component {s s' : ι → σ} {es : List (ι × ε)} (h : Run (Family step) s es s') (i : ι) :
    Run (step i) (s i) ((es.filter (·.1 = i)).map Prod.snd) (s' i) := by
  induction h with
  | nil => exact .nil _
  | @cons s _ s' e es hs _ ih =>
    obtain ⟨t, ht, rfl⟩ := hs
    by_cases hi : e.1 = i
    · subst hi
      rw [List.filter_cons_of_pos (by simp)]
      rw [Function.update_self] at ih
      exact .cons ht ih
    · rw [List.filter_cons_of_neg (by simpa using hi)]
      rwa [Function.update_of_ne (Ne.symm hi)] at ih

/-- A run of a component is one of the family. -/
theorem Run.family (step : ι → σ → ε → σ → Prop) (s : ι → σ) (i : ι) {es : List ε} {u : σ}
    (h : Run (step i) (s i) es u) : Run (Family step) s (es.map fun e => (i, e)) (Function.update s i u) := by
  generalize ht : s i = t at h
  induction h generalizing s with
  | nil =>
    rw [← ht, Function.update_eq_self]
    exact .nil s
  | @cons _ t' _ e es hs _ ih =>
    subst ht
    have hr := ih (Function.update s i t') (Function.update_self ..)
    rw [Function.update_idem] at hr
    exact .cons ⟨t', hs, rfl⟩ hr

end

end Xir
