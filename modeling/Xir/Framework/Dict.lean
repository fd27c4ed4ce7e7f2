import Mathlib.Data.List.Nodup

/-!
# Dictionaries of rows

A dictionary whose values carry their own keys, as the list of its values in
the order in which the keys were inserted. `put` replaces the value of a key
that is there, or adds one, and `del` takes a key out. `Unique` says that each
key has one value, which both preserve.
-/

namespace Xir.Dict

variable {α κ : Type} [DecidableEq κ] {key : α → κ} {r x : α} {d : List α} {a : κ}

def put (key : α → κ) (r : α) : List α → List α
  | [] => [r]
  | x :: d => if key x = key r then r :: d else x :: put key r d

def get (key : α → κ) (d : List α) (a : κ) : Option α := d.find? (key · = a)

def del (key : α → κ) (a : κ) (d : List α) : List α := d.filter (key · ≠ a)

/-- Each key has one value. -/
def Unique (key : α → κ) (d : List α) : Prop := (d.map key).Nodup

/-- A key that is not there comes last. -/
theorem put_of_new (h : ∀ x ∈ d, key x ≠ key r) : put key r d = d ++ [r] := by
  induction d with
  | nil => rfl
  | cons x d ih =>
    obtain ⟨hx, hd⟩ := List.forall_mem_cons.mp h
    rw [put, if_neg hx, ih hd, List.cons_append]

/-- Putting a value adds its key, unless it is there. -/
theorem map_key_put : (put key r d).map key = if key r ∈ d.map key then d.map key else d.map key ++ [key r] := by
  induction d with
  | nil => rfl
  | cons x d ih =>
    rw [put]
    by_cases h : key x = key r
    · simp [h]
    · simp only [if_neg h, List.map_cons, ih, List.mem_cons, Ne.symm h, false_or]
      split <;> simp

theorem length_put_le : (put key r d).length ≤ d.length + 1 := by
  induction d with
  | nil => exact Nat.le_refl 1
  | cons x d ih =>
    rw [put]
    split
    · simp
    · simp only [List.length_cons]
      omega

theorem length_foldl_put_le (key : α → κ) (rows d : List α) :
    (rows.foldl (fun d r => put key r d) d).length ≤ d.length + rows.length := by
  induction rows generalizing d with
  | nil => exact Nat.le_refl _
  | cons r rows ih =>
    have hput : (put key r d).length ≤ d.length + 1 := length_put_le
    have := ih (put key r d)
    rw [List.foldl_cons, List.length_cons]
    omega

/-- Rows that all are added have different keys, and come in their order. -/
theorem foldl_put_of_length {rows : List α} {d : List α}
    (h : (rows.foldl (fun d r => put key r d) d).length = d.length + rows.length) :
    rows.foldl (fun d r => put key r d) d = d ++ rows := by
  induction rows generalizing d with
  | nil => exact (List.append_nil d).symm
  | cons r rows ih =>
    rw [List.foldl_cons, List.length_cons] at h
    have hle := length_foldl_put_le key rows (put key r d)
    have hput : put key r d = d ++ [r] := by
      refine put_of_new fun x hx hkey => ?_
      have hmap : (put key r d).map key = if key r ∈ d.map key then d.map key else d.map key ++ [key r] := map_key_put
      have hlength := congrArg List.length hmap
      rw [if_pos (hkey ▸ List.mem_map_of_mem hx), List.length_map, List.length_map] at hlength
      omega
    have hlength : (d ++ [r]).length = d.length + 1 := List.length_append
    rw [hput] at h
    rw [List.foldl_cons, hput, ih (by omega), List.append_assoc]
    rfl

theorem mem_of_mem_put (h : x ∈ put key r d) : x = r ∨ x ∈ d := by
  induction d with
  | nil => exact .inl (List.mem_singleton.mp h)
  | cons y d ih =>
    rw [put] at h
    split at h
    · exact (List.mem_cons.mp h).imp_right (List.mem_cons_of_mem _)
    · rcases List.mem_cons.mp h with rfl | h
      · exact .inr List.mem_cons_self
      · exact (ih h).imp_right (List.mem_cons_of_mem _)

/-- What holds of every two values, and of the new one and each of the others, holds after it is put. -/
theorem pairwise_put {R : α → α → Prop} (hs : ∀ {x y}, R x y → R y x) (hd : d.Pairwise R) (h : ∀ x ∈ d, R x r) :
    (put key r d).Pairwise R := by
  induction d with
  | nil => exact List.pairwise_singleton R r
  | cons y d ih =>
    obtain ⟨hy, hd⟩ := List.pairwise_cons.mp hd
    obtain ⟨hr, hrs⟩ := List.forall_mem_cons.mp h
    rw [put]
    split
    · exact List.pairwise_cons.mpr ⟨fun x hx => hs (hrs x hx), hd⟩
    · refine List.pairwise_cons.mpr ⟨fun x hx => ?_, ih hd hrs⟩
      rcases mem_of_mem_put hx with rfl | hx
      · exact hr
      · exact hy x hx

theorem get_mem (h : get key d a = some x) : x ∈ d := List.mem_of_find?_eq_some h

theorem key_of_get (h : get key d a = some x) : key x = a := by simpa using List.find?_some h

theorem get_eq_none : get key d a = none ↔ ∀ x ∈ d, key x ≠ a := by simp [get, List.find?_eq_none]

theorem Unique.get_of_mem (hu : Unique key d) (hx : x ∈ d) : get key d (key x) = some x := by
  induction d with
  | nil => exact absurd hx List.not_mem_nil
  | cons y d ih =>
    obtain ⟨hy, hd⟩ := List.nodup_cons.mp hu
    rcases List.mem_cons.mp hx with rfl | hx
    · exact List.find?_cons_of_pos (by simp)
    · have hne : key y ≠ key x := fun he => hy (he ▸ List.mem_map_of_mem hx)
      exact (List.find?_cons_of_neg (by simpa using hne)).trans (ih hd hx)

theorem Unique.eq (hu : Unique key d) {y : α} (hx : x ∈ d) (hy : y ∈ d) (he : key x = key y) : x = y :=
  Option.some.inj ((hu.get_of_mem hx).symm.trans (he ▸ hu.get_of_mem hy))

/-- A value that was added does not hide another. -/
theorem get_append_of_ne (h : key r ≠ a) : get key (d ++ [r]) a = get key d a := by
  rw [get, List.find?_append, List.find?_singleton, if_neg (by simpa using h), Option.or_none]
  rfl

theorem mem_del : x ∈ del key a d ↔ x ∈ d ∧ key x ≠ a := by simp [del]

theorem Unique.del (hu : Unique key d) : Unique key (del key a d) := hu.sublist (List.filter_sublist.map key)

omit [DecidableEq κ] in
theorem Unique.append (hu : Unique key d) (h : ∀ x ∈ d, key x ≠ key r) : Unique key (d ++ [r]) := by
  rw [Unique, List.map_append]
  refine List.Nodup.append hu (List.nodup_singleton _) fun k hk hr => ?_
  obtain ⟨x, hx, rfl⟩ := List.mem_map.mp hk
  exact h x hx (List.mem_singleton.mp hr)

end Xir.Dict
