import Xir.Framework.Run

/-!
# Nested calls that undo what they did when they revert

A configuration is a state and the stack of open calls, each with a label and
the state it was entered in. A step acts within the innermost call, enters a
call, leaves the innermost one and keeps what it did, or reverts it, which
restores the state it was entered in, and so undoes every call made within
it. What the first three kinds of step preserve holds in every configuration
and in every state a revert could restore (`Frames.inv_run`). `EveryCall` says
something of each call of a run.
-/

namespace Xir

variable {σ φ : Type}

/-- What steps may do: `act` within the open calls (their labels, the innermost
first), `enter` a call, and `leave` the innermost. -/
structure Frames (σ φ : Type) where
  act : List φ → σ → σ → Prop
  enter : List φ → σ → φ → σ → Prop
  leave : List φ → φ → σ → σ → Prop

namespace Frames

structure Config (σ φ : Type) where
  state : σ
  calls : List (φ × σ)

/-- The labels of the open calls. -/
def Config.labels (c : Config σ φ) : List φ := c.calls.map Prod.fst

/-- How a step changed the stack of calls. -/
inductive Event (φ : Type)
  | act
  | enter (f : φ)
  | leave (f : φ)
  | revert (f : φ)

variable (M : Frames σ φ)

inductive Step : Config σ φ → Event φ → Config σ φ → Prop
  | act {s s' fs} : M.act (fs.map Prod.fst) s s' → Step ⟨s, fs⟩ .act ⟨s', fs⟩
  | enter {s s' f fs} : M.enter (fs.map Prod.fst) s f s' → Step ⟨s, fs⟩ (.enter f) ⟨s', (f, s) :: fs⟩
  | leave {s s' f s₀ fs} : M.leave (fs.map Prod.fst) f s s' → Step ⟨s, (f, s₀) :: fs⟩ (.leave f) ⟨s', fs⟩
  | revert {s f s₀ fs} : Step ⟨s, (f, s₀) :: fs⟩ (.revert f) ⟨s₀, fs⟩

/-- `J` holds of every state that a revert could restore. -/
def Saved (J : List φ → σ → Prop) : List (φ × σ) → Prop
  | [] => True
  | (_, s) :: fs => J (fs.map Prod.fst) s ∧ Saved J fs

/-- `J` holds of the current state and of every saved one. -/
def Holds (J : List φ → σ → Prop) (c : Config σ φ) : Prop := J c.labels c.state ∧ Saved J c.calls

/-- `J` is preserved by acting, entering and leaving. -/
structure Invariant (J : List φ → σ → Prop) : Prop where
  act {fs s s'} : J fs s → M.act fs s s' → J fs s'
  enter {fs s f s'} : J fs s → M.enter fs s f s' → J (f :: fs) s'
  leave {fs f s s'} : J (f :: fs) s → M.leave fs f s s' → J fs s'

variable {M} {J : List φ → σ → Prop}

theorem inv_step (hJ : Invariant M J) {c c' : Config σ φ} {e : Event φ} (h : Holds J c) (hs : Step M c e c') :
    Holds J c' := by
  cases hs with
  | act ha => exact ⟨hJ.act h.1 ha, h.2⟩
  | enter he => exact ⟨hJ.enter h.1 he, h.1, h.2⟩
  | leave hl => exact ⟨hJ.leave h.1 hl, h.2.2⟩
  | revert => exact h.2

theorem inv_run (hJ : Invariant M J) {c c' : Config σ φ} {es : List (Event φ)} (h : Holds J c)
    (hr : Run (Step M) c es c') : Holds J c' :=
  hr.inv (C := fun _ => True) (fun _ h hs => inv_step hJ h hs) (fun _ _ => trivial) h

/-- Every open call was entered in the state that a revert of it restores, and has
been open since. -/
theorem entered {c₀ c : Config σ φ} {es : List (Event φ)} (h₀ : c₀.calls = []) (h : Run (Step M) c₀ es c)
    {f : φ} {s : σ} {fs : List (φ × σ)} (hf : (f, s) :: fs <:+ c.calls) :
    ∃ es₁ es₂ s₁, es = es₁ ++ .enter f :: es₂ ∧ Run (Step M) c₀ es₁ ⟨s, fs⟩ ∧
      Step M ⟨s, fs⟩ (.enter f) ⟨s₁, (f, s) :: fs⟩ ∧ Run (Step M) ⟨s₁, (f, s) :: fs⟩ es₂ c := by
  refine h.snoc_induction (P := fun es c => (f, s) :: fs <:+ c.calls → ∃ es₁ es₂ s₁, es = es₁ ++ .enter f :: es₂ ∧
      Run (Step M) c₀ es₁ ⟨s, fs⟩ ∧ Step M ⟨s, fs⟩ (.enter f) ⟨s₁, (f, s) :: fs⟩ ∧
      Run (Step M) ⟨s₁, (f, s) :: fs⟩ es₂ c) (fun hn => ?_) (fun {es c e c'} hr ih hs hc => ?_) hf
  · rw [h₀, List.suffix_nil] at hn
    cases hn
  · have keep : (f, s) :: fs <:+ c.calls → ∃ es₁ es₂ s₁, es ++ [e] = es₁ ++ .enter f :: es₂ ∧
        Run (Step M) c₀ es₁ ⟨s, fs⟩ ∧ Step M ⟨s, fs⟩ (.enter f) ⟨s₁, (f, s) :: fs⟩ ∧
        Run (Step M) ⟨s₁, (f, s) :: fs⟩ es₂ c' := fun hc => by
      obtain ⟨es₁, es₂, s₁, rfl, h₁, h₂, h₃⟩ := ih hc
      exact ⟨es₁, es₂ ++ [e], s₁, by simp, h₁, h₂, h₃.snoc hs⟩
    cases hs with
    | act ha => exact keep hc
    | enter he =>
      rcases List.suffix_cons_iff.mp hc with heq | hc'
      · obtain ⟨⟨rfl, rfl⟩, rfl⟩ : (f = _ ∧ s = _) ∧ fs = _ := by simpa using heq
        exact ⟨es, [], _, rfl, hr, .enter he, .nil _⟩
      · exact keep hc'
    | leave hl => exact keep (hc.trans (List.suffix_cons _ _))
    | revert => exact keep (hc.trans (List.suffix_cons _ _))

/-- `P` holds of every call of a run, in the state in which it was made. -/
def EveryCall (M : Frames σ φ) (P : σ → φ → Prop) (c₀ : Config σ φ) (es : List (Event φ)) (c : Config σ φ) : Prop :=
  ∀ es₁ f es₂ c₁ c₂, es = es₁ ++ .enter f :: es₂ → Run (Step M) c₀ es₁ c₁ → Step M c₁ (.enter f) c₂ →
    Run (Step M) c₂ es₂ c → P c₁.state f

/-- What says the same of each call says the same of a run. -/
theorem everyCall_congr {P Q : σ → φ → Prop} (h : ∀ {fs s f s'}, M.enter fs s f s' → (P s f ↔ Q s f))
    {c₀ c : Config σ φ} {es : List (Event φ)} : M.EveryCall P c₀ es c ↔ M.EveryCall Q c₀ es c := by
  refine forall_congr' fun es₁ => forall_congr' fun f => forall_congr' fun es₂ => forall_congr' fun c₁ =>
    forall_congr' fun c₂ => forall_congr' fun _ => forall_congr' fun _ => forall_congr' fun hs =>
      forall_congr' fun _ => ?_
  cases hs with
  | enter he => exact h he

end Frames

end Xir
