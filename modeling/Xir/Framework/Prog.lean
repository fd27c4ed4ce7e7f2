import Mathlib.Logic.Basic

/-!
# Programs that ask their surroundings

A program of type `Prog ι ρ ε α` asks an operation `i : ι` and goes on with its
answer, of type `ρ i`, until it returns a value or fails. `Exec` runs it in a
system whose steps answer operations, up to any point: the run may be cut
before any operation, as by a crash. `Triple` says what holds at each way that
a run from a given state can end, the cut included, and has a rule for each
form of a program. `Prog.run` is the run in a system that has one answer to
each operation.
-/

namespace Xir

/-- A program over the operations `ι`, whose answers are of the types `ρ`. -/
inductive Prog (ι : Type) (ρ : ι → Type) (ε α : Type) : Type
  | done (a : α)
  | fail (e : ε)
  | op (i : ι) (k : ρ i → Prog ι ρ ε α)

namespace Prog

variable {ι κ : Type} {ρ : ι → Type} {τ : κ → Type} {ε α β σ : Type}

def bind : Prog ι ρ ε α → (α → Prog ι ρ ε β) → Prog ι ρ ε β
  | done a, f => f a
  | fail e, _ => fail e
  | op i k, f => op i fun r => (k r).bind f

instance : Monad (Prog ι ρ ε) where
  pure := done
  bind := bind

/-- The program that asks one operation. -/
def ask (i : ι) : Prog ι ρ ε (ρ i) := op i done

/-- A computation that asks nothing. -/
def ofExcept : Except ε α → Prog ι ρ ε α
  | .ok a => done a
  | .error e => fail e

/-- Goes on with `h` if the program fails. -/
def handle (h : ε → Prog ι ρ ε α) : Prog ι ρ ε α → Prog ι ρ ε α
  | done a => done a
  | fail e => h e
  | op i k => op i fun r => (k r).handle h

/-- The program whose operations are programs over others. -/
def interp (h : ∀ i, Prog κ τ ε (ρ i)) : Prog ι ρ ε α → Prog κ τ ε α
  | done a => done a
  | fail e => fail e
  | op i k => (h i).bind fun r => (k r).interp h

@[simp] theorem done_bind (a : α) (f : α → Prog ι ρ ε β) : (done a >>= f) = f a := rfl

@[simp] theorem pure_bind' (a : α) (f : α → Prog ι ρ ε β) : ((pure a : Prog ι ρ ε α) >>= f) = f a := rfl

@[simp] theorem fail_bind (e : ε) (f : α → Prog ι ρ ε β) : ((fail e : Prog ι ρ ε α) >>= f) = fail e := rfl

@[simp] theorem ask_bind (i : ι) (f : ρ i → Prog ι ρ ε β) : (ask i >>= f) = op i f := rfl

/-- Whatever the answers are, the program asks only operations that satisfy `P`. -/
inductive Asks (P : ι → Prop) : Prog ι ρ ε α → Prop
  | done (a : α) : Asks P (done a)
  | fail (e : ε) : Asks P (fail e)
  | op {i : ι} {k : ρ i → Prog ι ρ ε α} : P i → (∀ r, Asks P (k r)) → Asks P (op i k)

namespace Asks

variable {P : ι → Prop}

theorem bind {p : Prog ι ρ ε α} {f : α → Prog ι ρ ε β} (hp : Asks P p) (hf : ∀ a, Asks P (f a)) :
    Asks P (p >>= f) := by
  induction hp with
  | done a => exact hf a
  | fail e => exact .fail e
  | op hi _ ih => exact .op hi ih

theorem trivial (p : Prog ι ρ ε α) : Asks (fun _ => True) p := by
  induction p with
  | done a => exact .done a
  | fail e => exact .fail e
  | op i k ih => exact .op True.intro ih

theorem mono {P' : ι → Prop} {p : Prog ι ρ ε α} (h : Asks P p) (hp : ∀ i, P i → P' i) : Asks P' p := by
  induction h with
  | done a => exact .done a
  | fail e => exact .fail e
  | op hi _ ih => exact .op (hp _ hi) ih

theorem ofExcept (x : Except ε α) : Asks P (Prog.ofExcept x : Prog ι ρ ε α) := by
  cases x with
  | ok a => exact .done a
  | error e => exact .fail e

/-- After a computation that asks nothing, its value is known. -/
theorem ofExcept_bind {x : Except ε α} {f : α → Prog ι ρ ε β} (hf : ∀ a, x = .ok a → Asks P (f a)) :
    Asks P (Prog.ofExcept x >>= f) := by
  cases x with
  | ok a => exact hf a rfl
  | error e => exact .fail e

/-- What the programs of the operations ask. -/
theorem interp {Q : κ → Prop} {h : ∀ i, Prog κ τ ε (ρ i)} {p : Prog ι ρ ε α} (hp : Asks P p)
    (hh : ∀ i, P i → Asks Q (h i)) : Asks Q (p.interp h) := by
  induction hp with
  | done a => exact .done a
  | fail e => exact .fail e
  | op hi _ ih => exact (hh _ hi).bind ih

end Asks

/-! ## Operations that may fail -/

section

variable {β : ι → Type}

/-- Asks an operation that may fail, and fails as it does. -/
def call (i : ι) : Prog ι (fun i => Except ε (β i)) ε (β i) := op i ofExcept

theorem Asks.call_bind {P : ι → Prop} {i : ι} {f : β i → Prog ι (fun i => Except ε (β i)) ε α} (hi : P i)
    (hf : ∀ a, Asks P (f a)) : Asks P (call i >>= f) := .op hi fun _ => .ofExcept_bind fun a _ => hf a

theorem Asks.call {P : ι → Prop} {i : ι} (hi : P i) :
    Asks P (call i : Prog ι (fun i => Except ε (β i)) ε (β i)) := .op hi .ofExcept

/-- An operation that fails ends the program. -/
inductive Heeds : Prog ι (fun i => Except ε (β i)) ε α → Prop
  | done (a : α) : Heeds (done a)
  | fail (e : ε) : Heeds (fail e)
  | op {i : ι} {k : Except ε (β i) → Prog ι (fun i => Except ε (β i)) ε α} :
    (∀ e, k (.error e) = Prog.fail e) → (∀ r, Heeds (k r)) → Heeds (op i k)

namespace Heeds

theorem ofExcept (x : Except ε α) : Heeds (Prog.ofExcept x : Prog ι (fun i => Except ε (β i)) ε α) := by
  cases x with
  | ok a => exact .done a
  | error e => exact .fail e

theorem bind {α' : Type} {p : Prog ι (fun i => Except ε (β i)) ε α'} {f : α' → Prog ι (fun i => Except ε (β i)) ε α}
    (hp : Heeds p) (hf : ∀ a, Heeds (f a)) : Heeds (p >>= f) := by
  induction hp with
  | done a => exact hf a
  | fail e => exact .fail e
  | @op i k he _ ih =>
    refine .op (fun e => ?_) ih
    show (k (.error e)).bind f = Prog.fail e
    rw [he e]
    rfl

theorem call (i : ι) : Heeds (call i : Prog ι (fun i => Except ε (β i)) ε (β i)) := .op (fun _ => rfl) ofExcept

end Heeds

end

/-- Whatever the answers are, what the program returns satisfies `φ`. -/
inductive Returns (φ : α → Prop) : Prog ι ρ ε α → Prop
  | done {a : α} : φ a → Returns φ (done a)
  | fail (e : ε) : Returns φ (fail e)
  | op {i : ι} {k : ρ i → Prog ι ρ ε α} : (∀ r, Returns φ (k r)) → Returns φ (op i k)

namespace Returns

variable {φ : α → Prop}

/-- After a computation that asks nothing, its value is known. -/
theorem ofExcept_bind {x : Except ε β} {f : β → Prog ι ρ ε α} (hf : ∀ b, x = .ok b → Returns φ (f b)) :
    Returns φ (Prog.ofExcept x >>= f) := by
  cases x with
  | ok b => exact hf b rfl
  | error e => exact .fail e

/-- A program, and what follows it whatever it returns. -/
theorem bind {p : Prog ι ρ ε β} {f : β → Prog ι ρ ε α} (hf : ∀ b, Returns φ (f b)) : Returns φ (p >>= f) := by
  induction p with
  | done b => exact hf b
  | fail e => exact .fail e
  | op i k ih => exact .op ih

end Returns

/-- Some answers lead to an operation that satisfies `P`, and to none before it that satisfies `Q`. -/
inductive Reaches (P Q : ι → Prop) : Prog ι ρ ε α → Prop
  | here {i : ι} {k : ρ i → Prog ι ρ ε α} : P i → Reaches P Q (op i k)
  | later {i : ι} {k : ρ i → Prog ι ρ ε α} (r : ρ i) : ¬ Q i → Reaches P Q (k r) → Reaches P Q (op i k)

section

variable {P Q : ι → Prop}

theorem not_reaches_fail (e : ε) : ¬ Reaches P Q (fail e : Prog ι ρ ε α) := nofun

theorem not_reaches_op {i : ι} {k : ρ i → Prog ι ρ ε α} (hp : ¬ P i) (hk : ¬ Q i → ∀ r, ¬ Reaches P Q (k r)) :
    ¬ Reaches P Q (op i k) := by
  intro h
  cases h with
  | here h => exact hp h
  | later r hq h => exact hk hq r h

theorem not_reaches_ofExcept (x : Except ε α) : ¬ Reaches P Q (ofExcept x : Prog ι ρ ε α) := by
  cases x <;> exact nofun

theorem not_reaches_ofExcept_bind {x : Except ε α} {f : α → Prog ι ρ ε β} (hf : ∀ a, x = .ok a → ¬ Reaches P Q (f a)) :
    ¬ Reaches P Q (ofExcept x >>= f) := by
  cases x with
  | ok a => exact hf a rfl
  | error e => exact not_reaches_fail e

theorem not_reaches_bind {p : Prog ι ρ ε α} {f : α → Prog ι ρ ε β} (hp : ¬ Reaches P Q p)
    (hf : ∀ a, ¬ Reaches P Q (f a)) :
    ¬ Reaches P Q (p >>= f) := by
  induction p with
  | done a => exact hf a
  | fail e => exact not_reaches_fail e
  | op i k ih =>
    exact not_reaches_op (fun hi => hp (.here hi)) fun hq r => ih r fun hr => hp (.later r hq hr)

theorem not_reaches_call {β : ι → Type} {i : ι} {f : β i → Prog ι (fun i => Except ε (β i)) ε α} (hp : ¬ P i)
    (hf : ¬ Q i → ∀ a, ¬ Reaches P Q (f a)) : ¬ Reaches P Q (call i >>= f) :=
  not_reaches_op hp fun hq _ => not_reaches_ofExcept_bind fun a _ => hf hq a

end

/-! ## Runs that may be cut -/

/-- How a run ends. -/
inductive Outcome (ε α : Type)
  | returned (a : α)
  | failed (e : ε)
  | cut

/-- The runs of a program from a state of a system. -/
inductive Exec (step : ∀ i, σ → ρ i → σ → Prop) : Prog ι ρ ε α → σ → Outcome ε α → σ → Prop
  | done {a s} : Exec step (done a) s (.returned a) s
  | fail {e s} : Exec step (fail e) s (.failed e) s
  | cut {p s} : Exec step p s .cut s
  | op {i k s r s' o s''} : step i s r s' → Exec step (k r) s' o s'' → Exec step (op i k) s o s''

namespace Exec

variable {step : ∀ i, σ → ρ i → σ → Prop} {s s' : σ} {b : β}

theorem returned_pure {a : β} (h : Exec step (pure a : Prog ι ρ ε β) s (.returned b) s') : b = a ∧ s' = s := by
  cases h
  exact ⟨rfl, rfl⟩

/-- A run that returns gets the value of a computation that asks nothing. -/
theorem returned_ofExcept {x : Except ε α} {f : α → Prog ι ρ ε β}
    (h : Exec step (ofExcept x >>= f) s (.returned b) s') :
    ∃ a, x = .ok a ∧ Exec step (f a) s (.returned b) s' := by
  cases x with
  | ok a => exact ⟨a, rfl, h⟩
  | error e => cases h

/-- A run that returns gets an answer that is no error. -/
theorem returned_call {τ : ι → Type} {step : ∀ i, σ → Except ε (τ i) → σ → Prop} {i : ι}
    {f : τ i → Prog ι (fun i => Except ε (τ i)) ε β} (h : Exec step (Prog.call i >>= f) s (.returned b) s') :
    ∃ a t, step i s (.ok a) t ∧ Exec step (f a) t (.returned b) s' := by
  cases h with
  | @op _ _ _ r t _ _ hs he =>
    obtain ⟨a, rfl, he⟩ := he.returned_ofExcept
    exact ⟨a, t, hs, he⟩

end Exec

/-- A run that returns ends in `Q`, one that fails in `E`, and one that is cut in `C`. -/
def Outcome.Ends (C : σ → Prop) (E : ε → σ → Prop) (Q : α → σ → Prop) : Outcome ε α → σ → Prop
  | returned a, s => Q a s
  | failed e, s => E e s
  | cut, s => C s

/-- How the runs from states that satisfy `P` end. -/
structure Triple (step : ∀ i, σ → ρ i → σ → Prop) (C : σ → Prop) (E : ε → σ → Prop) (P : σ → Prop) (p : Prog ι ρ ε α)
    (Q : α → σ → Prop) : Prop where
  ends {s s' : σ} {o : Outcome ε α} : P s → Exec step p s o s' → o.Ends C E Q s'

variable {step : ∀ i, σ → ρ i → σ → Prop} {C : σ → Prop} {E : ε → σ → Prop} {P P' : σ → Prop} {Q Q' : α → σ → Prop}
  {R : β → σ → Prop}

namespace Triple

theorem done {a : α} (hC : ∀ s, P s → C s) (h : ∀ s, P s → Q a s) : Triple step C E P (.done a) Q := by
  refine ⟨fun {s _ _} hP he => ?_⟩
  cases he with
  | done => exact h s hP
  | cut => exact hC s hP

theorem fail {e : ε} (hC : ∀ s, P s → C s) (h : ∀ s, P s → E e s) :
    Triple step C E P (.fail e : Prog ι ρ ε α) Q := by
  refine ⟨fun {s _ _} hP he => ?_⟩
  cases he with
  | fail => exact h s hP
  | cut => exact hC s hP

/-- An operation: the rest of the program, after each answer. -/
theorem op {i : ι} {k : ρ i → Prog ι ρ ε α} (hC : ∀ s, P s → C s) (M : ρ i → σ → Prop)
    (hs : ∀ s r s', P s → step i s r s' → M r s') (h : ∀ r, Triple step C E (M r) (k r) Q) :
    Triple step C E P (.op i k) Q := by
  refine ⟨fun {s _ _} hP he => ?_⟩
  cases he with
  | op hst he => exact (h _).ends (hs _ _ _ hP hst) he
  | cut => exact hC s hP

theorem weaken (h : Triple step C E P p Q) (hP : ∀ s, P' s → P s) (hQ : ∀ a s, Q a s → Q' a s) :
    Triple step C E P' p Q' := by
  refine ⟨fun {s _ o} hP' he => ?_⟩
  have hr := h.ends (hP s hP') he
  cases o with
  | returned a => exact hQ a _ hr
  | failed | cut => exact hr

/-- From a set of states, it is enough to start from each of them. -/
theorem of_states (h : ∀ s, P s → Triple step C E (· = s) p Q) : Triple step C E P p Q :=
  ⟨fun hP he => (h _ hP).ends rfl he⟩

theorem exec_bind {p : Prog ι ρ ε α} {f : α → Prog ι ρ ε β} {s s'' : σ} {o : Outcome ε β}
    (h : Exec step (p.bind f) s o s'') :
    (∃ a s', Exec step p s (.returned a) s' ∧ Exec step (f a) s' o s'') ∨
      (∃ e, Exec step p s (.failed e) s'' ∧ o = .failed e) ∨ (Exec step p s .cut s'' ∧ o = .cut) := by
  induction p generalizing s with
  | done a => exact .inl ⟨a, s, .done, h⟩
  | fail e =>
    cases h with
    | fail => exact .inr (.inl ⟨e, .fail, rfl⟩)
    | cut => exact .inr (.inr ⟨.cut, rfl⟩)
  | op i k ih =>
    cases h with
    | cut => exact .inr (.inr ⟨.cut, rfl⟩)
    | op hst he =>
      rcases ih _ he with ⟨a, s', h₁, h₂⟩ | ⟨e, h₁, ho⟩ | ⟨h₁, ho⟩
      · exact .inl ⟨a, s', .op hst h₁, h₂⟩
      · exact .inr (.inl ⟨e, .op hst h₁, ho⟩)
      · exact .inr (.inr ⟨.op hst h₁, ho⟩)

/-- A sequence. -/
theorem bind {p : Prog ι ρ ε α} {f : α → Prog ι ρ ε β} (hp : Triple step C E P p Q)
    (hf : ∀ a, Triple step C E (Q a) (f a) R) : Triple step C E P (p >>= f) R := by
  refine ⟨fun hP he => ?_⟩
  rcases exec_bind he with ⟨a, s', h₁, h₂⟩ | ⟨e, h₁, rfl⟩ | ⟨h₁, rfl⟩
  · exact (hf a).ends (hp.ends hP h₁) h₂
  · exact hp.ends hP h₁
  · exact hp.ends hP h₁

/-- A computation that asks nothing. -/
theorem ofExcept {x : Except ε α} (hC : ∀ s, P s → C s) (hok : ∀ a, x = .ok a → ∀ s, P s → Q a s)
    (herr : ∀ e, x = .error e → ∀ s, P s → E e s) : Triple step C E P (Prog.ofExcept x) Q := by
  cases x with
  | ok a => exact done hC (hok a rfl)
  | error e => exact fail hC (herr e rfl)

/-- After such a computation its value is known. -/
theorem ofExcept_bind {x : Except ε α} {f : α → Prog ι ρ ε β} (hC : ∀ s, P s → C s) (hE : ∀ e s, P s → E e s)
    (hf : ∀ a, x = .ok a → Triple step C E P (f a) R) : Triple step C E P (Prog.ofExcept x >>= f) R := by
  cases x with
  | ok a => exact hf a rfl
  | error e => exact fail hC (hE e)

/-- An operation that may fail. -/
theorem call {β : ι → Type} {step : ∀ i, σ → Except ε (β i) → σ → Prop} {i : ι} (M : β i → σ → Prop)
    (hC : ∀ s, P s → C s) (hs : ∀ s a s', P s → step i s (.ok a) s' → C s' ∧ M a s')
    (he : ∀ s e s', P s → step i s (.error e) s' → C s' ∧ E e s') : Triple step C E P (Prog.call i) M := by
  refine op hC (fun r s' => ∃ s, P s ∧ step i s r s') (fun s r s' hP hst => ⟨s, hP, hst⟩) fun r => ?_
  cases r with
  | ok a => exact done (fun s' ⟨s, hP, hst⟩ => (hs s a s' hP hst).1) fun s' ⟨s, hP, hst⟩ => (hs s a s' hP hst).2
  | error e =>
    exact fail (fun s' ⟨s, hP, hst⟩ => (he s e s' hP hst).1) fun s' ⟨s, hP, hst⟩ => (he s e s' hP hst).2

theorem exec_handle {h : ε → Prog ι ρ ε α} {p : Prog ι ρ ε α} {s s'' : σ} {o : Outcome ε α}
    (he : Exec step (p.handle h) s o s'') :
    (∃ e s', Exec step p s (.failed e) s' ∧ Exec step (h e) s' o s'') ∨
      (Exec step p s o s'' ∧ ∀ e, o ≠ .failed e) := by
  induction p generalizing s with
  | done a =>
    cases he with
    | done => exact .inr ⟨.done, by simp⟩
    | cut => exact .inr ⟨.cut, by simp⟩
  | fail e => exact .inl ⟨e, s, .fail, he⟩
  | op i k ih =>
    cases he with
    | cut => exact .inr ⟨.cut, by simp⟩
    | op hst he =>
      rcases ih _ he with ⟨e, s', h₁, h₂⟩ | ⟨h₁, ho⟩
      · exact .inl ⟨e, s', .op hst h₁, h₂⟩
      · exact .inr ⟨.op hst h₁, ho⟩

/-- A program, and what handles its failures. -/
theorem handle {F : ε → σ → Prop} {h : ε → Prog ι ρ ε α} {p : Prog ι ρ ε α} (hp : Triple step C F P p Q)
    (hh : ∀ e, Triple step C E (F e) (h e) Q) : Triple step C E P (p.handle h) Q := by
  refine ⟨fun {s s' o} hP he => ?_⟩
  rcases exec_handle he with ⟨e, s₁, h₁, h₂⟩ | ⟨h₁, ho⟩
  · exact (hh e).ends (hp.ends hP h₁) h₂
  · have hr := hp.ends hP h₁
    cases o with
    | failed e => exact absurd rfl (ho e)
    | returned | cut => exact hr

/-- A sequence whose first part changes nothing, and returns what satisfies `φ`. -/
theorem bind_of {p : Prog ι ρ ε α} {f : α → Prog ι ρ ε β} {φ : α → Prop}
    (hp : Triple step C E P p fun a s => P s ∧ φ a) (hf : ∀ a, φ a → Triple step C E P (f a) R) :
    Triple step C E P (p >>= f) R :=
  hp.bind fun a => ⟨fun h he => (hf a h.2).ends h.1 he⟩

end Triple

/-- The parts of a sequence that returns. -/
theorem Exec.returned_bind {p : Prog ι ρ ε α} {f : α → Prog ι ρ ε β} {s s'' : σ} {b : β}
    (h : Exec step (p >>= f) s (.returned b) s'') :
    ∃ a s', Exec step p s (.returned a) s' ∧ Exec step (f a) s' (.returned b) s'' := by
  rcases Triple.exec_bind h with h | ⟨e, -, he⟩ | ⟨-, he⟩
  · exact h
  · cases he
  · cases he

/-- A cut in the first part of a sequence. -/
theorem Exec.cut_bind {p : Prog ι ρ ε α} {s s' : σ} (h : Exec step p s .cut s') (f : α → Prog ι ρ ε β) :
    Exec step (p >>= f) s .cut s' := by
  generalize ho : (Outcome.cut : Outcome ε α) = o at h
  induction h with
  | done | fail => cases ho
  | cut => exact .cut
  | op hst _ ih => exact .op hst (ih ho)

/-- One in a program whose failures are handled. -/
theorem Exec.cut_handle {p : Prog ι ρ ε α} {s s' : σ} (h : Exec step p s .cut s') (f : ε → Prog ι ρ ε α) :
    Exec step (p.handle f) s .cut s' := by
  generalize ho : (Outcome.cut : Outcome ε α) = o at h
  induction h with
  | done | fail => cases ho
  | cut => exact .cut
  | op hst _ ih => exact .op hst (ih ho)

/-! ## Recorded runs -/

/-- An operation that was asked, with its answer, in a state, and the state after it. -/
structure Asked (ι : Type) (ρ : ι → Type) (σ : Type) where
  op : ι
  before : σ
  answer : ρ op
  after : σ

/-- The steps of a system whose surroundings act before each of them, with a record of what was asked. -/
inductive Recorded (step : ∀ i, σ → ρ i → σ → Prop) (env : σ → σ → Prop) (i : ι) :
    σ × List (Asked ι ρ σ) → ρ i → σ × List (Asked ι ρ σ) → Prop
  | step {s t u : σ} {es : List (Asked ι ρ σ)} {r : ρ i} : env s t → step i t r u →
    Recorded step env i (s, es) r (u, es ++ [⟨i, t, r, u⟩])

/-- A recorded run that returns gets an answer that is no error, in a state that its surroundings lead to. -/
theorem Exec.returned_recorded {τ : ι → Type} {step : ∀ i, σ → Except ε (τ i) → σ → Prop} {env : σ → σ → Prop} {i : ι}
    {f : τ i → Prog ι (fun i => Except ε (τ i)) ε β} {s : σ} {es : List (Asked ι (fun i => Except ε (τ i)) σ)} {b : β}
    {x : σ × List (Asked ι (fun i => Except ε (τ i)) σ)}
    (h : Exec (Recorded step env) (Prog.call i >>= f) (s, es) (.returned b) x) :
    ∃ t a u, env s t ∧ step i t (.ok a) u ∧
      Exec (Recorded step env) (f a) (u, es ++ [⟨i, t, .ok a, u⟩]) (.returned b) x := by
  obtain ⟨a, _, hs, run⟩ := h.returned_call
  cases hs with
  | @step _ t u _ _ he hs => exact ⟨t, a, u, he, hs, run⟩

/-- The entries of a record, from a state to another. -/
inductive Trail (step : ∀ i, σ → ρ i → σ → Prop) (env : σ → σ → Prop) : σ → List (Asked ι ρ σ) → σ → Prop
  | nil (s : σ) : Trail step env s [] s
  | cons {s t u v : σ} {i : ι} {r : ρ i} {es : List (Asked ι ρ σ)} : env s t → step i t r u → Trail step env u es v →
    Trail step env s (⟨i, t, r, u⟩ :: es) v

/-- What a run adds to its record, in which are only operations that its program asks. -/
theorem Exec.trail {env : σ → σ → Prop} {P : ι → Prop} {p : Prog ι ρ ε α} (hp : Asks P p) {s s' : σ}
    {es es' : List (Asked ι ρ σ)} {o : Outcome ε α} (h : Exec (Recorded step env) p (s, es) o (s', es')) :
    ∃ new, es' = es ++ new ∧ Trail step env s new s' ∧ ∀ e ∈ new, P e.op := by
  induction hp generalizing s es with
  | done a => cases h <;> exact ⟨[], (List.append_nil _).symm, .nil _, by simp⟩
  | fail e => cases h <;> exact ⟨[], (List.append_nil _).symm, .nil _, by simp⟩
  | op hi _ ih =>
    cases h with
    | cut => exact ⟨[], (List.append_nil _).symm, .nil _, by simp⟩
    | op hs he =>
      cases hs with
      | step henv hst =>
        obtain ⟨new, rfl, trail, hnew⟩ := ih _ he
        exact ⟨_ :: new, by simp, .cons henv hst trail, List.forall_mem_cons.mpr ⟨hi, hnew⟩⟩

/-- A sequence whose first part asks only operations that satisfy `P` either comes to its second
part or stops before. -/
theorem Exec.bind_trail {env : σ → σ → Prop} {P : ι → Prop} {p : Prog ι ρ ε α} (hp : Asks P p)
    {f : α → Prog ι ρ ε β} {s s' : σ} {es es' : List (Asked ι ρ σ)} {o : Outcome ε β}
    (h : Exec (Recorded step env) (p >>= f) (s, es) o (s', es')) :
    ∃ new, (∀ e ∈ new, P e.op) ∧ ((∃ a u, Exec (Recorded step env) (f a) (u, es ++ new) o (s', es')) ∨
      (es' = es ++ new ∧ ∀ b, o ≠ .returned b)) := by
  rcases Triple.exec_bind h with ⟨a, ⟨u, es₁⟩, h₁, h₂⟩ | ⟨e, h₁, rfl⟩ | ⟨h₁, rfl⟩
  · obtain ⟨new, rfl, -, hnew⟩ := h₁.trail hp
    exact ⟨new, hnew, .inl ⟨a, u, h₂⟩⟩
  · obtain ⟨new, rfl, -, hnew⟩ := h₁.trail hp
    exact ⟨new, hnew, .inr ⟨rfl, nofun⟩⟩
  · obtain ⟨new, rfl, -, hnew⟩ := h₁.trail hp
    exact ⟨new, hnew, .inr ⟨rfl, nofun⟩⟩

namespace Trail

variable {env : σ → σ → Prop} {s s' : σ} {es : List (Asked ι ρ σ)}

/-- What every step whose entry satisfies `C` preserves, and what the surroundings preserve. -/
theorem inv {I : σ → Prop} {C : Asked ι ρ σ → Prop} (he : ∀ {s t}, env s t → I s → I t)
    (hs : ∀ {i s r s'}, step i s r s' → C ⟨i, s, r, s'⟩ → I s → I s') (h : Trail step env s es s') (hC : ∀ e ∈ es, C e)
    (h₀ : I s) : I s' := by
  induction h with
  | nil => exact h₀
  | cons henv hst _ ih =>
    rw [List.forall_mem_cons] at hC
    exact ih hC.2 (hs hst hC.1 (he henv h₀))

/-- A reflexive and transitive relation that holds over every step, and over what the surroundings do. -/
theorem mono {R : σ → σ → Prop} (hr : ∀ s, R s s) (ht : ∀ {s t u}, R s t → R t u → R s u)
    (he : ∀ {s t}, env s t → R s t) (hs : ∀ {i s r s'}, step i s r s' → R s s') (h : Trail step env s es s') : R s s' :=
  h.inv (C := fun _ => True) (I := R s) (fun henv h => ht h (he henv)) (fun hst _ h => ht h (hs hst))
    (fun _ _ => trivial) (hr s)

/-- An entry of a record, what is before it and what is after it. -/
theorem split {e : Asked ι ρ σ} {es₁ es₂ : List (Asked ι ρ σ)} (h : Trail step env s (es₁ ++ e :: es₂) s') :
    ∃ t, Trail step env s es₁ t ∧ env t e.before ∧ step e.op e.before e.answer e.after ∧
      Trail step env e.after es₂ s' := by
  induction es₁ generalizing s with
  | nil =>
    cases h with
    | cons henv hst h => exact ⟨s, .nil s, henv, hst, h⟩
  | cons e' es₁ ih =>
    cases h with
    | cons henv hst h =>
      obtain ⟨t, h₁, h₂⟩ := ih h
      exact ⟨t, .cons henv hst h₁, h₂⟩

end Trail

/-- The states in which an operation was asked. -/
def askedIn [DecidableEq ι] (es : List (Asked ι ρ σ)) (i : ι) : List σ := (es.filter fun e => e.op = i).map Asked.before

/-- The operation was asked, and answered so. -/
def WasAsked (es : List (Asked ι ρ σ)) (i : ι) (r : ρ i) : Prop := ∃ s s', (⟨i, s, r, s'⟩ : Asked ι ρ σ) ∈ es

theorem WasAsked.append {es : List (Asked ι ρ σ)} {i : ι} {r : ρ i} (h : WasAsked es i r) (es' : List (Asked ι ρ σ)) :
    WasAsked (es ++ es') i r := by
  obtain ⟨s, s', h⟩ := h
  exact ⟨s, s', List.mem_append_left _ h⟩

theorem WasAsked.last (es : List (Asked ι ρ σ)) {i : ι} {r : ρ i} (s s' : σ) : WasAsked (es ++ [⟨i, s, r, s'⟩]) i r :=
  ⟨s, s', List.mem_append_right _ (List.mem_singleton_self _)⟩

/-! ## Runs in a system with one answer -/

/-- The run where `h` answers. -/
def run (h : ∀ i, σ → ρ i × σ) : Prog ι ρ ε α → σ → Except ε α × σ
  | done a, s => (.ok a, s)
  | fail e, s => (.error e, s)
  | op i k, s => (k (h i s).1).run h (h i s).2

variable {h : ∀ i, σ → ρ i × σ}

@[simp] theorem run_done (a : α) (s : σ) : (done a : Prog ι ρ ε α).run h s = (.ok a, s) := rfl

@[simp] theorem run_pure (a : α) (s : σ) : (pure a : Prog ι ρ ε α).run h s = (.ok a, s) := rfl

@[simp] theorem run_fail (e : ε) (s : σ) : (fail e : Prog ι ρ ε α).run h s = (.error e, s) := rfl

@[simp] theorem run_ask (i : ι) (s : σ) : (ask i : Prog ι ρ ε (ρ i)).run h s = (.ok (h i s).1, (h i s).2) := rfl

theorem run_bind (p : Prog ι ρ ε α) (f : α → Prog ι ρ ε β) (s : σ) :
    (p >>= f).run h s =
      match p.run h s with
      | (.ok a, s') => (f a).run h s'
      | (.error e, s') => (.error e, s') := by
  show (p.bind f).run h s = _
  induction p generalizing s with
  | done | fail => rfl
  | op i k ih => exact ih _ _

/-- The rest of a sequence whose first part returns. -/
theorem run_bind_ok {p : Prog ι ρ ε α} {s t : σ} {a : α} (hp : p.run h s = (.ok a, t)) (f : α → Prog ι ρ ε β) :
    (p >>= f).run h s = (f a).run h t := by
  rw [run_bind, hp]

/-- A sequence whose first part fails. -/
theorem run_bind_error {p : Prog ι ρ ε α} {s t : σ} {e : ε} (hp : p.run h s = (.error e, t)) (f : α → Prog ι ρ ε β) :
    (p >>= f).run h s = (.error e, t) := by
  rw [run_bind, hp]

theorem run_ofExcept_bind (x : Except ε α) (f : α → Prog ι ρ ε β) (s : σ) :
    (ofExcept x >>= f).run h s =
      match x with
      | .ok a => (f a).run h s
      | .error e => (.error e, s) := by
  cases x <;> rfl

theorem run_op (i : ι) (k : ρ i → Prog ι ρ ε α) (s : σ) : (op i k).run h s = (k (h i s).1).run h (h i s).2 := rfl

/-- The run in which every operation is answered is one of the runs that may be cut. -/
theorem exec_run (hs : ∀ i s, step i s (h i s).1 (h i s).2) (p : Prog ι ρ ε α) (s : σ) :
    Exec step p s (match (p.run h s).1 with | .ok a => .returned a | .error e => .failed e) (p.run h s).2 := by
  induction p generalizing s with
  | done => exact .done
  | fail => exact .fail
  | op i k ih => exact .op (hs i s) (ih _ _)

/-- A system with one answer to each operation. -/
def Answers (h : ∀ i, σ → ρ i × σ) (i : ι) (s : σ) (r : ρ i) (s' : σ) : Prop := h i s = (r, s')

theorem Exec.answer {i : ι} {k : ρ i → Prog ι ρ ε α} {s s' : σ} {o : Outcome ε α}
    (he : Exec (Answers h) (k (h i s).1) (h i s).2 o s') : Exec (Answers h) (.op i k) s o s' :=
  .op (rfl : Answers h i s _ _) he

/-- After a first part that returns. -/
theorem Exec.bind_of_run {p : Prog ι ρ ε α} {f : α → Prog ι ρ ε β} {s t s' : σ} {a : α} {o : Outcome ε β}
    (hp : p.run h s = (.ok a, t)) (he : Exec (Answers h) (f a) t o s') : Exec (Answers h) (p >>= f) s o s' := by
  induction p generalizing s with
  | done b =>
    cases hp
    exact he
  | fail e => cases hp
  | op i k ih => exact .answer (ih _ hp)

namespace Triple

variable {s t : σ}

/-- If no run fails, the one that is not cut returns. -/
theorem run_ok {p : Prog ι ρ ε α} (hp : Triple (Answers h) C (fun _ _ => False) P p Q) (hs : P s) :
    ∃ a t, p.run h s = (.ok a, t) ∧ Q a t := by
  have he := hp.ends hs (exec_run (fun i s => (rfl : Answers h i s _ _)) p s)
  generalize p.run h s = x at he
  obtain ⟨_ | a, t⟩ := x
  · exact he.elim
  · exact ⟨a, t, rfl, he⟩

/-- If no run returns, the one that is not cut fails. -/
theorem run_error {p : Prog ι ρ ε α} (hp : Triple (Answers h) C E P p fun _ _ => False) (hs : P s) :
    ∃ e t, p.run h s = (.error e, t) ∧ E e t := by
  have he := hp.ends hs (exec_run (fun i s => (rfl : Answers h i s _ _)) p s)
  generalize p.run h s = x at he
  obtain ⟨e | _, t⟩ := x
  · exact ⟨e, t, rfl, he⟩
  · exact he.elim

section

variable {β : ι → Type} {h : ∀ i, σ → Except ε (β i) × σ} {i : ι}

/-- An operation with its answer. -/
theorem asked {a : β i} (hC : C s) (ha : h i s = (.ok a, t)) (hC' : C t) :
    Triple (Answers h) C E (· = s) (Prog.call i) fun b s' => b = a ∧ s' = t := by
  refine .call _ (fun _ hs => hs ▸ hC) (fun _ b s' hs hst => ?_) fun _ e s' hs hst => ?_
  · rw [hs, Answers, ha] at hst
    cases hst
    exact ⟨hC', rfl, rfl⟩
  · rw [hs, Answers, ha] at hst
    cases hst

/-- An operation, and the rest after its answer. -/
theorem answered {a : β i} {f : β i → Prog ι (fun i => Except ε (β i)) ε α} (hC : C s) (ha : h i s = (.ok a, t))
    (hf : Triple (Answers h) C E (· = t) (f a) Q) : Triple (Answers h) C E (· = s) (Prog.call i >>= f) Q := by
  refine (asked hC ha (hf.ends rfl .cut)).bind fun b => ⟨fun hb he => ?_⟩
  rw [hb.1] at he
  exact hf.ends hb.2 he

/-- An operation that fails ends the program. -/
theorem refused {e : ε} {f : β i → Prog ι (fun i => Except ε (β i)) ε α} (hC : C s) (ha : h i s = (.error e, t))
    (hC' : C t) (hE : E e t) : Triple (Answers h) C E (· = s) (Prog.call i >>= f) Q := by
  refine op (fun _ hs => hs ▸ hC) (fun r s' => r = .error e ∧ s' = t) (fun _ r s' hs hst => ?_) fun r => ?_
  · rw [hs, Answers, ha] at hst
    cases hst
    exact ⟨rfl, rfl⟩
  · refine ⟨fun hr he => ?_⟩
    rw [hr.1, hr.2] at he
    exact (fail (P := (· = t)) (fun _ hs => hs ▸ hC') fun _ hs => hs ▸ hE).ends rfl he

end

end Triple

@[simp] theorem run_ofExcept (x : Except ε α) (s : σ) : (ofExcept x : Prog ι ρ ε α).run h s = (x, s) := by
  cases x <;> rfl

end Prog

end Xir
