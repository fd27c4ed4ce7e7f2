import Xir.Framework.Prog
import Xir.Framework.Run

/-!
# A process that is restarted

A `Process` runs one program at a time over a state, one operation after
another, and takes up any of the calls `γ` at any time, giving up the program
that it had, as after a crash. `Prog.Safe` says that in each run of a program
from a state every operation is asked in a state where it may be, and that what
is returned satisfies a condition. If the calls are safe wherever an invariant
holds, the operations keep it in every run of the process
(`Process.safe_of_run`).
-/

namespace Xir

variable {ι σ γ ε α β : Type} {ρ : ι → Type} {step : ∀ i, σ → ρ i → σ → Prop} {pre : ι → σ → Prop}

namespace Prog

/-- Every operation is asked where `pre` holds, and `Q` holds of what is returned. -/
inductive Safe (step : ∀ i, σ → ρ i → σ → Prop) (pre : ι → σ → Prop) (Q : α → σ → Prop) : σ → Prog ι ρ ε α → Prop
  | done {s : σ} {a : α} : Q a s → Safe step pre Q s (.done a)
  | fail (s : σ) (e : ε) : Safe step pre Q s (.fail e)
  | op {s : σ} {i : ι} {k : ρ i → Prog ι ρ ε α} : pre i s → (∀ r t, step i s r t → Safe step pre Q t (k r)) →
    Safe step pre Q s (.op i k)

namespace Safe

variable {Q Q' : α → σ → Prop} {R : β → σ → Prop} {s : σ}

theorem bind {p : Prog ι ρ ε α} {f : α → Prog ι ρ ε β} (hp : Safe step pre Q s p)
    (hf : ∀ a t, Q a t → Safe step pre R t (f a)) : Safe step pre R s (p >>= f) := by
  induction hp with
  | done h => exact hf _ _ h
  | fail s e => exact .fail s e
  | op hi _ ih => exact .op hi ih

theorem weaken {p : Prog ι ρ ε α} (hp : Safe step pre Q s p) (hQ : ∀ a t, Q a t → Q' a t) : Safe step pre Q' s p := by
  induction hp with
  | done h => exact .done (hQ _ _ h)
  | fail s e => exact .fail s e
  | op hi _ ih => exact .op hi ih

/-- A program that is safe in a system is safe in one with fewer steps. -/
theorem imp {step' : ∀ i, σ → ρ i → σ → Prop} (hs : ∀ {i s r t}, step' i s r t → step i s r t) {p : Prog ι ρ ε α}
    (hp : Safe step pre Q s p) : Safe step' pre Q s p := by
  induction hp with
  | done h => exact .done h
  | fail s e => exact .fail s e
  | op hi _ ih => exact .op hi fun r t ht => ih r t (hs ht)

theorem ofExcept {x : Except ε α} (h : ∀ a, x = .ok a → Q a s) : Safe step pre Q s (Prog.ofExcept x) := by
  cases x with
  | ok a => exact .done (h a rfl)
  | error e => exact .fail s e

/-- After a computation that asks nothing, its value is known. -/
theorem ofExcept_bind {x : Except ε α} {f : α → Prog ι ρ ε β} (hf : ∀ a, x = .ok a → Safe step pre R s (f a)) :
    Safe step pre R s (Prog.ofExcept x >>= f) := by
  cases x with
  | ok a => exact hf a rfl
  | error e => exact .fail s e

/-- An operation that may fail, and what follows it. -/
theorem call_bind {τ : ι → Type} {step : ∀ i, σ → Except ε (τ i) → σ → Prop} {i : ι}
    {f : τ i → Prog ι (fun i => Except ε (τ i)) ε β} (needs : pre i s)
    (hf : ∀ a t, step i s (.ok a) t → Safe step pre R t (f a)) : Safe step pre R s (Prog.call i >>= f) :=
  .op needs fun _ t ht => .ofExcept_bind fun a ha => hf a t (ha ▸ ht)

/-- A program whose operations may be asked anywhere. -/
theorem of_asks {p : Prog ι ρ ε α} (h : p.Asks fun i => ∀ t, pre i t) (s : σ) :
    Safe step pre (fun _ _ => True) s p := by
  induction h generalizing s with
  | done a => exact .done trivial
  | fail e => exact .fail s e
  | op hi _ ih => exact .op (hi s) fun r t _ => ih r t

end Safe

/-! ## Programs of several askers -/

section

variable {χ : Type}

/-- The program whose operations say who asks them. -/
def tagged (x : χ) (p : Prog ι ρ ε α) : Prog (χ × ι) (fun i => ρ i.2) ε α := p.interp fun i => ask (x, i)

/-- A program that says who asks is safe if the program is, as its operations are answered. -/
theorem Safe.tagged {step : ∀ i : χ × ι, σ → ρ i.2 → σ → Prop} {pre : χ × ι → σ → Prop} {Q : α → σ → Prop}
    {x : χ} {s : σ} {p : Prog ι ρ ε α} (h : Safe (fun i => step (x, i)) (fun i => pre (x, i)) Q s p) :
    Safe step pre Q s (p.tagged x) := by
  induction h with
  | done h => exact .done h
  | fail s e => exact .fail s e
  | op hi _ ih => exact .op hi ih

/-- A sequence whose first part returns only what satisfies `φ`. -/
theorem Asks.bind_returns {P : ι → Prop} {φ : α → Prop} {p : Prog ι ρ ε α} {f : α → Prog ι ρ ε β} (hp : Asks P p)
    (hr : Returns φ p) (hf : ∀ a, φ a → Asks P (f a)) : Asks P (p >>= f) := by
  induction hp with
  | done a =>
    cases hr with
    | done ha => exact hf a ha
  | fail e => exact .fail e
  | op hi _ ih =>
    cases hr with
    | op hk => exact .op hi fun r => ih r (hk r)

theorem run_tagged {h : ∀ i : χ × ι, σ → ρ i.2 × σ} {x : χ} (p : Prog ι ρ ε α) (s : σ) :
    (p.tagged x).run h s = p.run (fun i => h (x, i)) s := by
  induction p generalizing s with
  | done | fail => rfl
  | op i k ih => exact ih _ _

end

end Prog

/-- A state, and what the process has still to do. -/
structure Process (σ ι : Type) (ρ : ι → Type) (ε α : Type) where
  shared : σ
  prog : Prog ι ρ ε α

namespace Process

/-- The process takes up a call, or is answered an operation. -/
inductive Event (γ ι : Type)
  | start (c : γ)
  | answer (op : ι)

inductive Step (step : ∀ i, σ → ρ i → σ → Prop) (prog : γ → Prog ι ρ ε α) :
    Process σ ι ρ ε α → Event γ ι → Process σ ι ρ ε α → Prop
  | start {p : Process σ ι ρ ε α} {c : γ} : Step step prog p (.start c) ⟨p.shared, prog c⟩
  | answer {s t : σ} {op : ι} {k : ρ op → Prog ι ρ ε α} {r : ρ op} : step op s r t →
    Step step prog ⟨s, .op op k⟩ (.answer op) ⟨t, k r⟩

variable {prog : γ → Prog ι ρ ε α} {p p' : Process σ ι ρ ε α} {es : List (Event γ ι)}

/-- An invariant holds, and what is left of a program is safe as long as it does. -/
def Sound (step : ∀ i, σ → ρ i → σ → Prop) (pre : ι → σ → Prop) (I : σ → Prop) (p : Process σ ι ρ ε α) : Prop :=
  I p.shared ∧ p.prog.Safe (fun i s r t => step i s r t ∧ I t) pre (fun _ _ => True) p.shared

/-- If the calls that are taken up are safe wherever an invariant holds, and an operation keeps it where it may be
asked, then every operation of a run keeps it, and so does a relation that such operations satisfy. -/
theorem safe_of_calls {I : σ → Prop} {R : σ → σ → Prop} {C : γ → Prop}
    (calls : ∀ s c, C c → I s → (prog c).Safe (fun i s r t => step i s r t ∧ I t) pre (fun _ _ => True) s)
    (answers : ∀ {i s r t}, I s → pre i s → step i s r t → I t ∧ R s t) (hr : ∀ s, R s s)
    (ht : ∀ {s t u}, R s t → R t u → R s u) (run : Run (Step step prog) p es p') (hC : ∀ c, .start c ∈ es → C c)
    (h₀ : p.Sound step pre I) : p'.Sound step pre I ∧ R p.shared p'.shared := by
  induction run with
  | nil p => exact ⟨h₀, hr _⟩
  | cons hs _ ih =>
    have hrest := fun c hc => hC c (List.mem_cons_of_mem _ hc)
    cases hs with
    | start => exact ih hrest ⟨h₀.1, calls _ _ (hC _ List.mem_cons_self) h₀.1⟩
    | answer hst =>
      obtain ⟨hI, hp⟩ := h₀
      cases hp with
      | op hi hk =>
        obtain ⟨hI', hR⟩ := answers hI hi hst
        obtain ⟨h, hR'⟩ := ih hrest ⟨hI', hk _ _ ⟨hst, hI'⟩⟩
        exact ⟨h, ht hR hR'⟩

/-- The same, if all calls are safe. -/
theorem safe_of_run {I : σ → Prop} {R : σ → σ → Prop}
    (calls : ∀ s c, I s → (prog c).Safe (fun i s r t => step i s r t ∧ I t) pre (fun _ _ => True) s)
    (answers : ∀ {i s r t}, I s → pre i s → step i s r t → I t ∧ R s t) (hr : ∀ s, R s s)
    (ht : ∀ {s t u}, R s t → R t u → R s u) (run : Run (Step step prog) p es p') (h₀ : p.Sound step pre I) :
    p'.Sound step pre I ∧ R p.shared p'.shared :=
  safe_of_calls (fun s c _ => calls s c) answers hr ht run (fun _ _ => trivial) h₀

variable (prog)

/-- The run of one program, where `h` answers what it asks. -/
theorem run_prog {h : ∀ i, σ → ρ i × σ} {P : ι → Prop} (hs : ∀ i t, P i → step i t (h i t).1 (h i t).2)
    {p : Prog ι ρ ε α} (hp : p.Asks P) (s : σ) : ∃ es p', Run (Step step prog) ⟨s, p⟩ es ⟨(p.run h s).2, p'⟩ := by
  induction hp generalizing s with
  | done a => exact ⟨[], _, .nil _⟩
  | fail e => exact ⟨[], _, .nil _⟩
  | @op i k hi _ ih =>
    obtain ⟨es, p', run⟩ := ih (h i s).1 (h i s).2
    exact ⟨_, p', .cons (.answer (hs i s hi)) run⟩

/-- A call that is run to its end. -/
theorem run_call {h : ∀ i, σ → ρ i × σ} {P : ι → Prop} (hs : ∀ i t, P i → step i t (h i t).1 (h i t).2) {c : γ}
    (hc : (prog c).Asks P) {s t : σ} (ht : ((prog c).run h s).2 = t) (p : Prog ι ρ ε α) :
    ∃ es p', Run (Step step prog) ⟨s, p⟩ es ⟨t, p'⟩ := by
  obtain ⟨es, p', run⟩ := run_prog prog hs hc s
  rw [ht] at run
  exact ⟨_, p', .cons .start run⟩

/-- The calls of a list, one after the other, each run to its end. -/
theorem run_calls {h : ∀ i, σ → ρ i × σ} (hs : ∀ i t, step i t (h i t).1 (h i t).2) (cs : List γ) :
    ∃ es p', Run (Step step prog) p es ⟨cs.foldl (fun s c => ((prog c).run h s).2) p.shared, p'⟩ := by
  induction cs generalizing p with
  | nil => exact ⟨[], _, .nil p⟩
  | cons c cs ih =>
    obtain ⟨es, p₁, run⟩ := run_call prog (fun i t _ => hs i t) (.trivial (prog c)) rfl p.prog
    obtain ⟨es', p₂, run'⟩ := ih (p := ⟨_, p₁⟩)
    exact ⟨_, p₂, run.append run'⟩

end Process

end Xir
