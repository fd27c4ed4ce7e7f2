import Mathlib.Data.List.Basic

/-!
# Computations that may fail

`Except` as the models use it: a check (`revertIf`) and what it means that a
sequence of computations succeeds (`bind_eq_ok`), so that a proof takes one
apart without unfolding it.
-/

namespace Xir

variable {ε α β : Type}

/-- Fails with `e` if `c` holds. -/
def revertIf (c : Prop) [Decidable c] (e : ε) : Except ε Unit := if c then .error e else .ok ()

/-- The value of an optional one, or the error `e`. -/
def orRevert (e : ε) : Option α → Except ε α
  | some a => .ok a
  | none => .error e

theorem bind_eq_ok {x : Except ε α} {f : α → Except ε β} {b : β} :
    (x >>= f) = .ok b ↔ ∃ a, x = .ok a ∧ f a = .ok b := by
  cases x <;> simp [bind, Except.bind]

@[simp] theorem revertIf_eq_ok {c : Prop} [Decidable c] {e : ε} {u : Unit} :
    revertIf c e = .ok u ↔ ¬ c := by
  simp [revertIf]

@[simp] theorem orRevert_eq_ok {e : ε} {o : Option α} {a : α} : orRevert e o = .ok a ↔ o = some a := by
  cases o <;> simp [orRevert]

@[simp] theorem pure_eq_ok {a b : α} : (pure a : Except ε α) = .ok b ↔ a = b := by
  simp [pure, Except.pure]

/-- A check, and what follows it. -/
theorem revertIf_bind {c : Prop} [Decidable c] {e : ε} {f : Unit → Except ε β} {b : β} :
    (revertIf c e >>= f) = .ok b ↔ ¬ c ∧ f () = .ok b := by
  rw [bind_eq_ok]
  exact ⟨fun ⟨_, h, h'⟩ => ⟨revertIf_eq_ok.mp h, h'⟩, fun ⟨h, h'⟩ => ⟨(), revertIf_eq_ok.mpr h, h'⟩⟩

/-- The error of a check, or of what follows it. -/
theorem revertIf_bind_error {c : Prop} [Decidable c] {e e' : ε} {f : Unit → Except ε β} :
    (revertIf c e >>= f) = .error e' ↔ (c ∧ e = e') ∨ (¬ c ∧ f () = .error e') := by
  by_cases hc : c <;> simp [revertIf, hc, bind, Except.bind]

/-- A computation for its failure only, and what follows it. -/
theorem unit_bind {x : Except ε Unit} {f : Unit → Except ε β} {b : β} :
    (x >>= f) = .ok b ↔ x = .ok () ∧ f () = .ok b := by
  rw [bind_eq_ok]
  exact ⟨fun ⟨_, h⟩ => h, fun h => ⟨(), h⟩⟩

/-- An optional value, and what is computed from it. -/
theorem orRevert_bind {e : ε} {o : Option α} {f : α → Except ε β} {b : β} :
    (orRevert e o >>= f) = .ok b ↔ ∃ a, o = some a ∧ f a = .ok b := by
  simp only [bind_eq_ok, orRevert_eq_ok]

theorem mapError_eq_ok {ε' : Type} {x : Except ε α} {f : ε → ε'} {a : α} : x.mapError f = .ok a ↔ x = .ok a := by
  cases x <;> simp [Except.mapError]

/-- A computation whose error is given another text, and what follows it. -/
theorem mapError_bind {ε' : Type} {x : Except ε α} {f : ε → ε'} {g : α → Except ε' β} {b : β} :
    (x.mapError f >>= g) = .ok b ↔ ∃ a, x = .ok a ∧ g a = .ok b := by
  simp only [bind_eq_ok, mapError_eq_ok]

/-- A computation done for each element of a list succeeds if it does for each. -/
theorem forM_eq_ok {f : α → Except ε Unit} {xs : List α} : xs.forM f = .ok () ↔ ∀ x ∈ xs, f x = .ok () := by
  induction xs with
  | nil => simp
  | cons x xs ih =>
    show (f x >>= fun _ => xs.forM f) = .ok () ↔ _
    rw [unit_bind, ih, List.forall_mem_cons]

theorem foldlM_cons_eq_ok {f : β → α → Except ε β} {x : α} {xs : List α} {b b' : β} :
    (x :: xs).foldlM f b = .ok b' ↔ ∃ c, f b x = .ok c ∧ xs.foldlM f c = .ok b' := by
  rw [List.foldlM_cons, bind_eq_ok]

/-- What every step keeps, a fold keeps. -/
theorem foldlM_keeps {I : β → Prop} {f : β → α → Except ε β} (hI : ∀ {b x b'}, I b → f b x = .ok b' → I b')
    {xs : List α} {b b' : β} (h : xs.foldlM f b = .ok b') (hb : I b) : I b' := by
  induction xs generalizing b with
  | nil =>
    cases h
    exact hb
  | cons x xs ih =>
    obtain ⟨c, hc, h⟩ := foldlM_cons_eq_ok.mp h
    exact ih h (hI hb hc)

theorem mapM_cons_eq_ok {f : α → Except ε β} {x : α} {xs : List α} {ys : List β} :
    (x :: xs).mapM f = .ok ys ↔ ∃ y, f x = .ok y ∧ ∃ ys', xs.mapM f = .ok ys' ∧ y :: ys' = ys := by
  simp only [List.mapM_cons, bind_eq_ok, pure_eq_ok]

/-- What is computed for each element of a list is computed for all. -/
theorem ok_of_mapM {f : α → Except ε β} {xs : List α} {ys : List β} (h : xs.mapM f = .ok ys) :
    ∀ x ∈ xs, ∃ y, f x = .ok y := by
  induction xs generalizing ys with
  | nil => exact List.forall_mem_nil _
  | cons x xs ih =>
    obtain ⟨y, hy, ys', hys, -⟩ := mapM_cons_eq_ok.mp h
    exact List.forall_mem_cons.mpr ⟨⟨y, hy⟩, ih hys⟩

/-- The results are those of the elements, one by one. -/
theorem forall₂_of_mapM {f : α → Except ε β} {xs : List α} {ys : List β} (h : xs.mapM f = .ok ys) :
    List.Forall₂ (fun x y => f x = .ok y) xs ys := by
  induction xs generalizing ys with
  | nil =>
    obtain rfl := Except.ok.inj h
    exact .nil
  | cons x xs ih =>
    obtain ⟨y, hy, ys', hys, rfl⟩ := mapM_cons_eq_ok.mp h
    exact .cons hy (ih hys)

theorem mapM_eq_ok_of_forall {f : α → Except ε β} {g : α → β} {xs : List α} (h : ∀ x ∈ xs, f x = .ok (g x)) :
    xs.mapM f = .ok (xs.map g) := by
  induction xs with
  | nil => rfl
  | cons x xs ih =>
    rw [List.forall_mem_cons] at h
    exact mapM_cons_eq_ok.mpr ⟨g x, h.1, xs.map g, ih h.2, rfl⟩

/-- Where the computation of each element succeeds with a value that satisfies `P`, so does that of the list. -/
theorem exists_mapM_eq_ok {f : α → Except ε β} {P : α → β → Prop} {xs : List α}
    (h : ∀ x ∈ xs, ∃ y, f x = .ok y ∧ P x y) :
    ∃ ys, xs.mapM f = .ok ys ∧ List.Forall₂ P xs ys := by
  induction xs with
  | nil => exact ⟨[], rfl, .nil⟩
  | cons x xs ih =>
    rw [List.forall_mem_cons] at h
    obtain ⟨⟨y, hy, hP⟩, h⟩ := h
    obtain ⟨ys, hys, hPs⟩ := ih h
    exact ⟨y :: ys, mapM_cons_eq_ok.mpr ⟨y, hy, ys, hys, rfl⟩, .cons hP hPs⟩

/-- Where no step of a fold fails, it is the fold of what the steps give. -/
theorem foldlM_eq_ok_of_forall {f : β → α → Except ε β} {g : β → α → β} {xs : List α}
    (h : ∀ b, ∀ x ∈ xs, f b x = .ok (g b x)) (b : β) : xs.foldlM f b = .ok (xs.foldl g b) := by
  induction xs generalizing b with
  | nil => rfl
  | cons x xs ih =>
    rw [List.foldl_cons]
    exact foldlM_cons_eq_ok.mpr
      ⟨g b x, h b x List.mem_cons_self, ih (fun b y hy => h b y (List.mem_cons_of_mem _ hy)) _⟩

theorem toOption_eq_some {x : Except ε α} {a : α} (h : x.toOption = some a) : x = .ok a := by
  cases x with
  | ok b => exact congrArg Except.ok (Option.some.inj h)
  | error e => exact absurd h (Option.some_ne_none _).symm

theorem ok_bind (a : α) (f : α → Except ε β) : ((.ok a : Except ε α) >>= f) = f a := rfl

/-- The first computation of a sequence, known to succeed. -/
theorem bind_of_ok {x : Except ε α} {a : α} (h : x = .ok a) (f : α → Except ε β) : (x >>= f) = f a := h ▸ rfl

end Xir
