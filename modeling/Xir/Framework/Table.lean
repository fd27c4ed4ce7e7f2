import Mathlib.Data.List.Forall2
import Mathlib.Data.List.Nodup
import Mathlib.Algebra.BigOperators.Group.List.Basic
import Mathlib.Algebra.Order.Ring.Int

/-!
# Tables

A table is the list of its rows, in the order of their insertion. `update`
rewrites the rows that a condition selects (`UPDATE … WHERE`), `Unique k` says
that no two rows have the same key (`UNIQUE`, where a row may have none), and
`total` adds up an amount over the rows. What an update does to a total is what
it does to the rows that it selects (`total_update`), which is one row if the
condition gives a key (`Unique.total`). `bump` adds to the amount of a key,
in a table of amounts by key.
-/

namespace Xir.Table

variable {α κ : Type}

/-- Rewrites the rows that satisfy `p`. -/
def update (p : α → Prop) [DecidablePred p] (f : α → α) (rows : List α) : List α :=
  rows.map fun r => if p r then f r else r

/-- The sum of an amount over the rows. -/
def total (g : α → Int) (rows : List α) : Int := (rows.map g).sum

/-- No two rows have the same key. -/
def Unique (k : α → Option κ) (rows : List α) : Prop := (rows.filterMap k).Nodup

instance (k : α → Option κ) [DecidableEq κ] (rows : List α) : Decidable (Unique k rows) :=
  inferInstanceAs (Decidable (List.Nodup _))

variable {p : α → Prop} [DecidablePred p] {f : α → α} {g h : α → Int} {rows rows' : List α} {k : α → Option κ}

/-! ## Rows -/

theorem mem_update {r : α} : r ∈ update p f rows ↔ ∃ r₀ ∈ rows, (if p r₀ then f r₀ else r₀) = r := List.mem_map

/-- What the rewriting keeps of each row that it selects, it keeps of the table. -/
theorem map_update {β : Type} {e : α → β} (he : ∀ r ∈ rows, p r → e (f r) = e r) :
    (update p f rows).map e = rows.map e := by
  rw [update, List.map_map]
  refine List.map_congr_left fun r hr => ?_
  show e (if p r then f r else r) = e r
  split
  · exact he r hr ‹_›
  · rfl

theorem update_eq_self (hf : ∀ r ∈ rows, ¬ p r) : update p f rows = rows :=
  (List.map_congr_left fun r hr => if_neg (hf r hr)).trans (List.map_id' rows)

/-- Rewriting of the last row alone. -/
theorem update_last {r : α} (hf : ∀ r ∈ rows, ¬ p r) (hr : p r) : update p f (rows ++ [r]) = rows ++ [f r] := by
  have h := update_eq_self (f := f) hf
  rw [update] at h
  rw [update, List.map_append, h, List.map_singleton, if_pos hr]

/-- Rewriting of the first row alone. -/
theorem update_first {r : α} (hr : p r) (hf : ∀ r ∈ rows, ¬ p r) : update p f (r :: rows) = f r :: rows := by
  have h := update_eq_self (f := f) hf
  rw [update] at h
  rw [update, List.map_cons, h, if_pos hr]

/-- The row found for a condition that the rewriting does not change. -/
theorem find_update {q : α → Bool} (hq : ∀ r ∈ rows, p r → q (f r) = q r) :
    (update p f rows).find? q = (rows.find? q).map fun r => if p r then f r else r := by
  rw [update, List.find?_map]
  congr 1
  induction rows with
  | nil => rfl
  | cons r rows ih =>
    obtain ⟨hr, hrs⟩ := List.forall_mem_cons.mp hq
    have hc : (q ∘ fun r => if p r then f r else r) r = q r := by
      show q (if p r then f r else r) = q r
      split
      · exact hr ‹_›
      · rfl
    rw [List.find?_cons, List.find?_cons, hc, ih hrs]

/-- A row found in a table is found in a longer one. -/
theorem find_append {q : α → Bool} {r : α} (hr : rows.find? q = some r) : (rows ++ rows').find? q = some r := by
  rw [List.find?_append, hr]
  rfl

/-- A row of a table that was rewritten row by row. -/
theorem forall₂_left {β : Type} {R : α → β → Prop} {xs : List α} {ys : List β} (h : List.Forall₂ R xs ys) {y : β}
    (hy : y ∈ ys) : ∃ x ∈ xs, R x y := by
  induction h with
  | nil => exact absurd hy List.not_mem_nil
  | @cons a b xs ys hr _ ih =>
    rcases List.mem_cons.mp hy with rfl | hy
    · exact ⟨a, List.mem_cons_self, hr⟩
    · obtain ⟨x, hx, hr⟩ := ih hy
      exact ⟨x, List.mem_cons_of_mem _ hx, hr⟩

/-- What a row of such a table became. -/
theorem forall₂_right {β : Type} {R : α → β → Prop} {xs : List α} {ys : List β} (h : List.Forall₂ R xs ys) {x : α}
    (hx : x ∈ xs) : ∃ y ∈ ys, R x y := forall₂_left h.flip hx

/-- Related rows are related in another way, where those of the second list are so. -/
theorem forall₂_imp_right {β : Type} {R S : α → β → Prop} {xs : List α} {ys : List β} (h : List.Forall₂ R xs ys)
    (hs : ∀ y ∈ ys, ∀ x, R x y → S x y) : List.Forall₂ S xs ys := by
  induction h with
  | nil => exact .nil
  | cons hxy _ ih =>
    obtain ⟨hy, hs⟩ := List.forall_mem_cons.mp hs
    exact .cons (hy _ hxy) (ih hs)

theorem forall₂_update {R : α → α → Prop} (hf : ∀ r ∈ rows, if p r then R r (f r) else R r r) :
    List.Forall₂ R rows (update p f rows) := by
  refine List.forall₂_map_right_iff.mpr (List.forall₂_same.mpr fun r hr => ?_)
  have hr := hf r hr
  show R r (if p r then f r else r)
  split at hr
  · rw [if_pos ‹_›]
    exact hr
  · rw [if_neg ‹_›]
    exact hr

/-- Rewriting that keeps the rows of a selection keeps the selection. -/
theorem filter_of_forall₂ {q : α → Bool}
    (h : List.Forall₂ (fun r r' => q r' = q r ∧ (q r = true → r' = r)) rows rows') :
    rows'.filter q = rows.filter q := by
  induction h with
  | nil => rfl
  | @cons r r' rows rows' hr _ ih =>
    rw [List.filter_cons, List.filter_cons, hr.1, ih]
    split
    · rw [hr.2 ‹_›]
    · rfl

/-! ## Totals -/

@[simp] theorem total_nil : total g [] = 0 := rfl

@[simp] theorem total_cons (r : α) : total g (r :: rows) = g r + total g rows := List.sum_cons

@[simp] theorem total_append : total g (rows ++ rows') = total g rows + total g rows' := by
  rw [total, List.map_append, List.sum_append]
  rfl

theorem total_congr (he : ∀ r ∈ rows, g r = h r) : total g rows = total h rows := by
  rw [total, List.map_congr_left he]
  rfl

theorem total_map {β : Type} {e : β → α} {xs : List β} : total g (xs.map e) = total (fun x => g (e x)) xs := by
  rw [total, List.map_map]
  rfl

theorem total_filter {q : α → Bool} :
    total g (rows.filter q) = total (fun r => if q r = true then g r else 0) rows := by
  induction rows with
  | nil => rfl
  | cons r rows ih =>
    rw [List.filter_cons, total_cons, ← ih]
    split
    · exact total_cons r
    · exact (zero_add _).symm

theorem total_eq_zero (hg : ∀ r ∈ rows, g r = 0) : total g rows = 0 := by
  induction rows with
  | nil => rfl
  | cons r rows ih =>
    obtain ⟨hr, hrs⟩ := List.forall_mem_cons.mp hg
    rw [total_cons, hr, ih hrs, add_zero]

theorem total_le (hg : ∀ r ∈ rows, g r ≤ h r) : total g rows ≤ total h rows := by
  induction rows with
  | nil => exact le_rfl
  | cons r rows ih =>
    obtain ⟨hr, hrs⟩ := List.forall_mem_cons.mp hg
    rw [total_cons, total_cons]
    exact add_le_add hr (ih hrs)

/-- A sum of amounts that are not positive is at most each of them. -/
theorem total_le_of_mem {r : α} (hg : ∀ r ∈ rows, g r ≤ 0) (hr : r ∈ rows) : total g rows ≤ g r := by
  induction rows with
  | nil => exact absurd hr List.not_mem_nil
  | cons x rows ih =>
    obtain ⟨hx, hxs⟩ := List.forall_mem_cons.mp hg
    rw [total_cons]
    rcases List.mem_cons.mp hr with rfl | hr
    · have h0 : total g rows ≤ total (fun _ => 0) rows := total_le hxs
      rw [total_eq_zero fun _ _ => rfl] at h0
      omega
    · have := ih hxs hr
      omega

theorem total_add : total (fun r => g r + h r) rows = total g rows + total h rows := by
  induction rows with
  | nil => rfl
  | cons r rows ih =>
    rw [total_cons, total_cons, total_cons, ih]
    omega

theorem total_neg : total (fun r => - g r) rows = - total g rows := by
  induction rows with
  | nil => rfl
  | cons r rows ih =>
    rw [total_cons, total_cons, ih]
    omega

/-- A sum of amounts that are not negative is at least each of them. -/
theorem le_total_of_mem {r : α} (hg : ∀ r ∈ rows, 0 ≤ g r) (hr : r ∈ rows) : g r ≤ total g rows := by
  have hle := total_le_of_mem (g := fun r => - g r) (fun r hr => neg_nonpos.mpr (hg r hr)) hr
  rw [total_neg] at hle
  omega

/-- An update changes a total by what it changes of the rows that it selects. -/
theorem total_update : total g (update p f rows) =
    total g rows + total (fun r => if p r then g (f r) - g r else 0) rows := by
  rw [update, total_map, ← total_add]
  refine total_congr fun r _ => ?_
  split <;> omega

/-! ## Keys -/

theorem Unique.of_cons {r : α} (hu : Unique k (r :: rows)) : Unique k rows := by
  rw [Unique, List.filterMap_cons] at hu
  split at hu
  · exact hu
  · exact hu.of_cons

/-- A row with the key of the first is not among the others. -/
theorem Unique.ne {r r' : α} {a : κ} (hu : Unique k (r :: rows)) (hr : k r = some a) (hr' : r' ∈ rows) :
    k r' ≠ some a := by
  intro ha
  rw [Unique, List.filterMap_cons_some hr] at hu
  exact (List.nodup_cons.mp hu).1 (List.mem_filterMap.mpr ⟨r', hr', ha⟩)

/-- A row that was added has no key of a row before. -/
theorem Unique.ne_of_append {r r' : α} {a : κ} (hu : Unique k (rows ++ rows')) (hr : r ∈ rows) (hr' : r' ∈ rows')
    (ha : k r = some a) : k r' ≠ some a := by
  rw [Unique, List.filterMap_append] at hu
  intro ha'
  exact (List.nodup_append.mp hu).2.2 a (List.mem_filterMap.mpr ⟨r, hr, ha⟩) a
    (List.mem_filterMap.mpr ⟨r', hr', ha'⟩) rfl

theorem Unique.eq {r r' : α} {a : κ} (hu : Unique k rows) (hr : r ∈ rows) (hr' : r' ∈ rows) (ha : k r = some a)
    (ha' : k r' = some a) : r = r' := by
  induction rows with
  | nil => exact absurd hr List.not_mem_nil
  | cons x rows ih =>
    rcases List.mem_cons.mp hr with rfl | h
    · rcases List.mem_cons.mp hr' with rfl | h'
      · rfl
      · exact absurd ha' (hu.ne ha h')
    · rcases List.mem_cons.mp hr' with rfl | h'
      · exact absurd ha (hu.ne ha' h)
      · exact ih hu.of_cons h h'

/-- A total over the rows of a key is the amount of the row that has it. -/
theorem Unique.total {r : α} {a : κ} (hu : Unique k rows) (hr : r ∈ rows) (ha : k r = some a)
    (hp : ∀ r ∈ rows, p r ↔ k r = some a) : total (fun r => if p r then g r else 0) rows = g r := by
  induction rows with
  | nil => exact absurd hr List.not_mem_nil
  | cons x rows ih =>
    obtain ⟨hx, hps⟩ := List.forall_mem_cons.mp hp
    rw [total_cons]
    rcases List.mem_cons.mp hr with rfl | hr
    · rw [if_pos (hx.mpr ha), total_eq_zero, add_zero]
      intro r' hr'
      exact if_neg fun h => hu.ne ha hr' ((hps r' hr').mp h)
    · rw [if_neg fun h => hu.ne (hx.mp h) hr ha, ih hu.of_cons hr hps, zero_add]

variable {κ : Type} [DecidableEq κ] {key a : κ} {v : Int} {d : List (κ × Int)}

/-- Adds `v` to the amount of a key. A new key comes last. -/
def bump (key : κ) (v : Int) : List (κ × Int) → List (κ × Int)
  | [] => [(key, v)]
  | (a, w) :: d => if a = key then (a, w + v) :: d else (a, w) :: bump key v d

theorem mem_bump : a ∈ (bump key v d).map Prod.fst ↔ a = key ∨ a ∈ d.map Prod.fst := by
  induction d with
  | nil => simp [bump]
  | cons e d ih =>
    obtain ⟨b, w⟩ := e
    rw [bump]
    split
    · subst_vars
      simp
    · rw [List.map_cons, List.mem_cons, ih, List.map_cons, List.mem_cons]
      tauto

theorem nodup_bump (hd : (d.map Prod.fst).Nodup) : ((bump key v d).map Prod.fst).Nodup := by
  induction d with
  | nil => exact List.nodup_singleton key
  | cons e d ih =>
    obtain ⟨b, w⟩ := e
    obtain ⟨hb, hd⟩ := List.nodup_cons.mp hd
    rw [bump]
    split
    · exact List.nodup_cons.mpr ⟨hb, hd⟩
    · rename_i hne
      exact List.nodup_cons.mpr ⟨fun h => (mem_bump.mp h).elim hne hb, ih hd⟩

/-- The amounts of the keys that a condition selects. -/
theorem total_bump {P : κ → Prop} [DecidablePred P] : total (fun e => if P e.1 then e.2 else 0) (bump key v d) =
    total (fun e => if P e.1 then e.2 else 0) d + if P key then v else 0 := by
  induction d with
  | nil => simp [bump]
  | cons e d ih =>
    obtain ⟨b, w⟩ := e
    rw [bump]
    split
    · subst_vars
      rw [total_cons, total_cons]
      split <;> omega
    · rw [total_cons, total_cons, ih]
      omega

end Xir.Table
