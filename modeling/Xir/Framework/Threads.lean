import Xir.Framework.Prog
import Xir.Framework.Run

/-!
# Programs that run at the same time

`Threads` run programs over one shared state, one operation of one of them at
a time, in any order. A thread takes up any of the calls `γ` at any time, giving
up the program it had, as after a crash. What each operation of a call satisfies
holds of every operation that a thread is about to ask (`Threads.Asking.of_step`),
and a program that nothing interrupts is a run of one thread (`Threads.run_prog`,
`Threads.run_call`).

In a `WorldStep` the surroundings may change the state as well. A program is
`Ready` in a state if, whatever happens from there on, what each of its
operations needs holds when it is asked; `Threads.ready_of_run` takes this to
runs, from what an operation and the surroundings may do to the state.
-/

namespace Xir

variable {τ σ γ ι ε α : Type} {ρ : ι → Type}

/-- A shared state, and what each thread has still to do. -/
structure Threads (τ σ ι : Type) (ρ : ι → Type) (ε α : Type) where
  shared : σ
  progs : τ → Prog ι ρ ε α

namespace Threads

/-- A thread takes up a call, or is answered an operation. -/
inductive Event (τ γ ι : Type)
  | start (i : τ) (c : γ)
  | answer (i : τ) (op : ι)

variable [DecidableEq τ]

inductive Step (step : ∀ i, σ → ρ i → σ → Prop) (prog : γ → Prog ι ρ ε α) :
    Threads τ σ ι ρ ε α → Event τ γ ι → Threads τ σ ι ρ ε α → Prop
  | start {s : Threads τ σ ι ρ ε α} {i : τ} {c : γ} :
    Step step prog s (.start i c) ⟨s.shared, Function.update s.progs i (prog c)⟩
  | answer {s : Threads τ σ ι ρ ε α} {i : τ} {op : ι} {k : ρ op → Prog ι ρ ε α} {r : ρ op} {t : σ}
    (asked : s.progs i = .op op k) (answered : step op s.shared r t) :
    Step step prog s (.answer i op) ⟨t, Function.update s.progs i (k r)⟩

variable {step : ∀ i, σ → ρ i → σ → Prop} {prog : γ → Prog ι ρ ε α} {P : γ → ι → Prop}

/-- A step whose answer is one of another system. -/
theorem Step.imp {step' : ∀ i, σ → ρ i → σ → Prop} (hi : ∀ {op s r t}, step op s r t → step' op s r t)
    {s s' : Threads τ σ ι ρ ε α} {e : Event τ γ ι} (h : Step step prog s e s') : Step step' prog s e s' := by
  cases h with
  | start => exact .start
  | answer asked answered => exact .answer asked (hi answered)

/-- Every thread goes on with what a call asks. -/
def Asking (P : γ → ι → Prop) (s : Threads τ σ ι ρ ε α) : Prop := ∀ i, ∃ c, (s.progs i).Asks (P c)

theorem Asking.of_step (hp : ∀ c, (prog c).Asks (P c)) {s s' : Threads τ σ ι ρ ε α} {e : Event τ γ ι}
    (h : s.Asking P) (hs : Step step prog s e s') : s'.Asking P := by
  cases hs with
  | @start i c =>
    exact (Function.forall_update_iff s.progs fun _ p => ∃ c, p.Asks (P c)).mpr ⟨⟨c, hp c⟩, fun j _ => h j⟩
  | @answer i op k r t asked answered =>
    obtain ⟨c, hc⟩ := h i
    rw [asked] at hc
    cases hc with
    | op _ hk =>
      exact (Function.forall_update_iff s.progs fun _ p => ∃ c, p.Asks (P c)).mpr ⟨⟨c, hk r⟩, fun j _ => h j⟩

omit [DecidableEq τ] in
/-- The operation that a thread is answered is one of a call. -/
theorem Asking.asked {s : Threads τ σ ι ρ ε α} {i : τ} {op : ι} {k : ρ op → Prog ι ρ ε α} (h : s.Asking P)
    (ha : s.progs i = .op op k) : ∃ c, P c op := by
  obtain ⟨c, hc⟩ := h i
  rw [ha] at hc
  cases hc with
  | op hop _ => exact ⟨c, hop⟩

/-- The run of one program, where `h` answers, by a thread that has it to do. -/
theorem run_prog {h : ∀ i, σ → ρ i × σ} (hs : ∀ i t, step i t (h i t).1 (h i t).2) (i : τ) (p : Prog ι ρ ε α) (t : σ)
    (progs : τ → Prog ι ρ ε α) (hp : progs i = p) :
    ∃ es progs', Run (Step step prog) ⟨t, progs⟩ es ⟨(p.run h t).2, progs'⟩ ∧ ∀ j, j ≠ i → progs' j = progs j := by
  induction p generalizing t progs with
  | done | fail => exact ⟨[], progs, .nil _, fun _ _ => rfl⟩
  | op op k ih =>
    have hupd : Function.update progs i (k (h op t).1) i = k (h op t).1 := Function.update_self ..
    obtain ⟨es, progs', hr, hj⟩ := ih (h op t).1 (h op t).2 (Function.update progs i (k (h op t).1)) hupd
    refine ⟨.answer i op :: es, progs', .cons (.answer hp (hs op t)) hr, fun j hne => ?_⟩
    rw [hj j hne, Function.update_of_ne hne]

/-- A call that the only thread takes up and that nothing interrupts. -/
theorem run_call {h : ∀ i, σ → ρ i × σ} (hs : ∀ i t, step i t (h i t).1 (h i t).2) (prog : γ → Prog ι ρ ε α)
    (c : γ) (s : σ) (p : Prog ι ρ ε α) :
    ∃ es p', Run (Step step prog) ⟨s, fun _ : Unit => p⟩ es ⟨((prog c).run h s).2, fun _ => p'⟩ := by
  obtain ⟨es, progs, run, -⟩ := run_prog hs () (prog c) s (fun _ => prog c) rfl
  have started :
      Step step prog ⟨s, fun _ : Unit => p⟩ (.start () c) ⟨s, Function.update (fun _ => p) () (prog c)⟩ := .start
  rw [Function.update_eq_const_of_subsingleton] at started
  exact ⟨_, progs (), .cons started run⟩

/-! ## Surroundings -/

/-- A thread goes on, or the surroundings change the shared state. -/
inductive WorldStep {δ : Type} (step : ∀ i, σ → ρ i → σ → Prop) (prog : γ → Prog ι ρ ε α) (env : σ → δ → σ → Prop) :
    Threads τ σ ι ρ ε α → Event τ γ ι ⊕ δ → Threads τ σ ι ρ ε α → Prop
  | thread {s s' : Threads τ σ ι ρ ε α} {e : Event τ γ ι} :
      Step step prog s e s' → WorldStep step prog env s (.inl e) s'
  | around {s : Threads τ σ ι ρ ε α} {d : δ} {t : σ} : env s.shared d t →
    WorldStep step prog env s (.inr d) ⟨t, s.progs⟩

/-- In every later state, what the next operation needs holds, and the program is ready when it is answered. -/
inductive Ready (step : ∀ i, σ → ρ i → σ → Prop) (inv : σ → Prop) (later : σ → σ → Prop) (pre : ι → σ → Prop) :
    σ → Prog ι ρ ε α → Prop
  | done (s : σ) (a : α) : Ready step inv later pre s (.done a)
  | fail (s : σ) (e : ε) : Ready step inv later pre s (.fail e)
  | op {s : σ} {i : ι} {k : ρ i → Prog ι ρ ε α} (needs : ∀ t, later s t → inv t → pre i t)
    (goesOn : ∀ t r t', later s t → inv t → step i t r t' → inv t' → Ready step inv later pre t' (k r)) :
    Ready step inv later pre s (.op i k)

section

variable {inv : σ → Prop} {later : σ → σ → Prop} {pre : ι → σ → Prop}

theorem Ready.weaken (ht : ∀ s t u, later s t → later t u → later s u) {s t : σ} {p : Prog ι ρ ε α}
    (h : Ready step inv later pre s p) (hl : later s t) : Ready step inv later pre t p := by
  cases h with
  | done => exact .done t _
  | fail => exact .fail t _
  | op needs goesOn =>
    exact .op (fun u hu => needs u (ht s t u hl hu)) fun u r u' hu => goesOn u r u' (ht s t u hl hu)

/-- A computation that asks nothing, and what follows it. -/
theorem Ready.ofExcept_bind {β : Type} {s : σ} {x : Except ε β} {f : β → Prog ι ρ ε α}
    (hf : ∀ a, x = .ok a → Ready step inv later pre s (f a)) : Ready step inv later pre s (Prog.ofExcept x >>= f) := by
  cases x with
  | ok a => exact hf a rfl
  | error e => exact .fail s e

theorem Ready.ofExcept {s : σ} (x : Except ε α) : Ready step inv later pre s (Prog.ofExcept x) := by
  cases x with
  | ok a => exact .done s a
  | error e => exact .fail s e

/-- A program, and what follows it whatever the state is. -/
theorem Ready.bind {β : Type} {s : σ} {p : Prog ι ρ ε β} {f : β → Prog ι ρ ε α} (h : Ready step inv later pre s p)
    (hf : ∀ t a, Ready step inv later pre t (f a)) : Ready step inv later pre s (p >>= f) := by
  induction h with
  | done s a => exact hf s a
  | fail s e => exact .fail s e
  | op needs _ ih => exact .op needs ih

/-- A program, and what follows it for what it can return. -/
theorem Ready.bind_of {β : Type} {s : σ} {p : Prog ι ρ ε β} {f : β → Prog ι ρ ε α} {φ : β → Prop}
    (h : Ready step inv later pre s p) (hp : p.Returns φ) (hf : ∀ t b, φ b → Ready step inv later pre t (f b)) :
    Ready step inv later pre s (p >>= f) := by
  induction h with
  | done s a =>
    cases hp with
    | done ha => exact hf s a ha
  | fail s e => exact .fail s e
  | op needs _ ih =>
    cases hp with
    | op hk => exact .op needs fun t r t' hl hi hs hi' => ih t r t' hl hi hs hi' (hk r)

/-- An operation that may fail, and what follows it. -/
theorem Ready.call_bind {β : ι → Type} {step : ∀ i, σ → Except ε (β i) → σ → Prop} {s : σ} {i : ι}
    {f : β i → Prog ι (fun i => Except ε (β i)) ε α} (needs : ∀ t, later s t → inv t → pre i t)
    (goesOn : ∀ t a t', later s t → inv t → step i t (.ok a) t' → inv t' → Ready step inv later pre t' (f a)) :
    Ready step inv later pre s (Prog.call i >>= f) :=
  .op needs fun t _ t' hl hi hs hi' => .ofExcept_bind fun a ha => goesOn t a t' hl hi (ha ▸ hs) hi'

/-- A program, and what handles its errors. -/
theorem Ready.handle {h : ε → Prog ι ρ ε α} {s : σ} {p : Prog ι ρ ε α} (hp : Ready step inv later pre s p)
    (hh : ∀ t e, Ready step inv later pre t (h e)) : Ready step inv later pre s (p.handle h) := by
  induction hp with
  | done s a => exact .done s a
  | fail s e => exact hh s e
  | op needs _ ih => exact .op needs ih

/-- A program whose operations need nothing. -/
theorem Ready.of_asks {p : Prog ι ρ ε α} (h : p.Asks fun i => ∀ t, pre i t) (s : σ) : Ready step inv later pre s p := by
  induction h generalizing s with
  | done a => exact .done s a
  | fail e => exact .fail s e
  | op hi _ ih => exact .op (fun t _ _ => hi t) fun _ r t' _ _ _ _ => ih r t'

/-- Every thread is ready, if the calls are ready in every state and what an
operation needs is enough for it to keep the invariant. -/
theorem ready_of_run {δ : Type} {env : σ → δ → σ → Prop} (hr : ∀ s, later s s)
    (ht : ∀ s t u, later s t → later t u → later s u)
    (calls : ∀ s c, inv s → Ready step inv later pre s (prog c))
    (answers : ∀ {i s r s'}, inv s → pre i s → step i s r s' → inv s' ∧ later s s')
    (around : ∀ {s d s'}, inv s → env s d s' → inv s' ∧ later s s') {s s' : Threads τ σ ι ρ ε α}
    {es : List (Event τ γ ι ⊕ δ)} (run : Run (WorldStep step prog env) s es s')
    (h0 : inv s.shared ∧ ∀ i, Ready step inv later pre s.shared (s.progs i)) :
    inv s'.shared ∧ ∀ i, Ready step inv later pre s'.shared (s'.progs i) := by
  refine run.inv (I := fun s => inv s.shared ∧ ∀ i, Ready step inv later pre s.shared (s.progs i))
    (C := fun _ => True) ?_ (fun _ _ => trivial) h0
  rintro s e s' - ⟨hi, hp⟩ (hs | he)
  · cases hs with
    | @start i c =>
      exact ⟨hi, (Function.forall_update_iff s.progs fun _ p => Ready step inv later pre s.shared p).mpr
        ⟨calls s.shared c hi, fun j _ => hp j⟩⟩
    | @answer i op k r t asked answered =>
      have hop := hp i
      rw [asked] at hop
      cases hop with
      | op needs goesOn =>
        obtain ⟨hi', hl⟩ := answers hi (needs _ (hr _) hi) answered
        exact ⟨hi', (Function.forall_update_iff s.progs fun _ p => Ready step inv later pre t p).mpr
          ⟨goesOn _ _ _ (hr _) hi answered hi', fun j _ => (hp j).weaken ht hl⟩⟩
  · obtain ⟨hi', hl⟩ := around hi he
    exact ⟨hi', fun j => (hp j).weaken ht hl⟩

/-- As `ready_of_run`, of threads without surroundings. -/
theorem ready_of_steps (hr : ∀ s, later s s) (ht : ∀ s t u, later s t → later t u → later s u)
    (calls : ∀ s c, inv s → Ready step inv later pre s (prog c))
    (answers : ∀ {i s r s'}, inv s → pre i s → step i s r s' → inv s' ∧ later s s') {s s' : Threads τ σ ι ρ ε α}
    {es : List (Event τ γ ι)} (run : Run (Step step prog) s es s')
    (h0 : inv s.shared ∧ ∀ i, Ready step inv later pre s.shared (s.progs i)) :
    inv s'.shared ∧ ∀ i, Ready step inv later pre s'.shared (s'.progs i) := by
  have run' : Run (WorldStep step prog fun _ (_ : Empty) _ => False) s (es.map Sum.inl) s' :=
    run.map Sum.inl .thread
  exact ready_of_run hr ht calls answers (fun _ he => he.elim) run' h0

/-- What the operation that a thread asks needs. -/
theorem Ready.asked {s : σ} {i : ι} {k : ρ i → Prog ι ρ ε α} (h : Ready step inv later pre s (.op i k))
    (hr : ∀ s, later s s) (hi : inv s) : pre i s := by
  cases h with
  | op needs _ => exact needs s (hr s) hi

/-- As `Ready`, of a program that leaves `Q` when it returns. -/
inductive ReadyTo (step : ∀ i, σ → ρ i → σ → Prop) (inv : σ → Prop) (later : σ → σ → Prop) (pre : ι → σ → Prop)
    (Q : α → σ → Prop) : σ → Prog ι ρ ε α → Prop
  | done {s : σ} {a : α} : Q a s → ReadyTo step inv later pre Q s (.done a)
  | fail (s : σ) (e : ε) : ReadyTo step inv later pre Q s (.fail e)
  | op {s : σ} {i : ι} {k : ρ i → Prog ι ρ ε α} (needs : ∀ t, later s t → inv t → pre i t)
    (goesOn : ∀ t r t', later s t → inv t → step i t r t' → inv t' → ReadyTo step inv later pre Q t' (k r)) :
    ReadyTo step inv later pre Q s (.op i k)

namespace ReadyTo

variable {β : Type} {Q Q' : α → σ → Prop} {R : β → σ → Prop} {s : σ}

theorem ready {p : Prog ι ρ ε α} (h : ReadyTo step inv later pre Q s p) : Ready step inv later pre s p := by
  induction h with
  | done _ => exact .done _ _
  | fail s e => exact .fail s e
  | op needs _ ih => exact .op needs ih

theorem bind {p : Prog ι ρ ε α} {f : α → Prog ι ρ ε β} (h : ReadyTo step inv later pre Q s p)
    (hf : ∀ a t, Q a t → ReadyTo step inv later pre R t (f a)) : ReadyTo step inv later pre R s (p >>= f) := by
  induction h with
  | done h => exact hf _ _ h
  | fail s e => exact .fail s e
  | op needs _ ih => exact .op needs ih

theorem weaken {p : Prog ι ρ ε α} (h : ReadyTo step inv later pre Q s p) (hQ : ∀ a t, Q a t → Q' a t) :
    ReadyTo step inv later pre Q' s p := by
  induction h with
  | done h => exact .done (hQ _ _ h)
  | fail s e => exact .fail s e
  | op needs _ ih => exact .op needs ih

/-- A computation that asks nothing, and what follows it. -/
theorem ofExcept_bind {x : Except ε β} {f : β → Prog ι ρ ε α}
    (hf : ∀ a, x = .ok a → ReadyTo step inv later pre Q s (f a)) :
    ReadyTo step inv later pre Q s (Prog.ofExcept x >>= f) := by
  cases x with
  | ok a => exact hf a rfl
  | error e => exact .fail s e

theorem ofExcept {x : Except ε α} (h : ∀ a, x = .ok a → Q a s) : ReadyTo step inv later pre Q s (Prog.ofExcept x) := by
  cases x with
  | ok a => exact .done (h a rfl)
  | error e => exact .fail s e

/-- An operation that may fail, and what follows it. -/
theorem call_bind {β : ι → Type} {step : ∀ i, σ → Except ε (β i) → σ → Prop} {i : ι}
    {f : β i → Prog ι (fun i => Except ε (β i)) ε α} (needs : ∀ t, later s t → inv t → pre i t)
    (goesOn : ∀ t a t', later s t → inv t → step i t (.ok a) t' → inv t' → ReadyTo step inv later pre Q t' (f a)) :
    ReadyTo step inv later pre Q s (Prog.call i >>= f) :=
  .op needs fun t _ t' hl hi hs hi' => .ofExcept_bind fun a ha => goesOn t a t' hl hi (ha ▸ hs) hi'

/-- An operation that may fail, as the last one. -/
theorem call {β : ι → Type} {step : ∀ i, σ → Except ε (β i) → σ → Prop} {i : ι} {Q : β i → σ → Prop}
    (needs : ∀ t, later s t → inv t → pre i t)
    (goesOn : ∀ t a t', later s t → inv t → step i t (.ok a) t' → inv t' → Q a t') :
    ReadyTo step inv later pre Q s (Prog.call i : Prog ι (fun i => Except ε (β i)) ε (β i)) :=
  .op needs fun t _ t' hl hi hs hi' => .ofExcept fun a ha => goesOn t a t' hl hi (ha ▸ hs) hi'

end ReadyTo

end

end Threads

end Xir
