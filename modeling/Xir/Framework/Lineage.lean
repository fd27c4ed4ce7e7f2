import Mathlib.Data.List.Nodup
import Mathlib.Data.List.Lemmas
import Mathlib.Data.List.Infix

/-!
# Logs whose entries supersede one another

The entries of a log belong to keys. Each has an identifier, and may name an
earlier entry that it supersedes. A log is `Chained` if no identifier occurs
twice and the entries of each key, in their order, supersede one another, the
first of them none. Then the one entry of a key that nothing supersedes is its
last (`Chained.superseded_iff`), which is what a search finds
(`Chained.find_latest`), and an entry that supersedes it keeps the log chained
(`Chained.append`).
-/

namespace Xir.Lineage

variable {α κ ι : Type} (key : α → κ) (ident : α → ι) (pred : α → Option ι)

/-- Each entry supersedes the one before it, and the first the one given. -/
def Linked : Option ι → List α → Prop
  | _, [] => True
  | prev, x :: xs => pred x = prev ∧ Linked (some (ident x)) xs

/-- An entry of the log supersedes this one. -/
def Superseded (log : List α) (x : α) : Prop := ∃ later ∈ log, pred later = some (ident x)

instance [DecidableEq ι] (log : List α) (x : α) : Decidable (Superseded ident pred log x) :=
  inferInstanceAs (Decidable (∃ _ ∈ _, _))

variable {ident pred}

theorem Linked.append {prev : Option ι} {xs : List α} {r : α} (h : Linked ident pred prev xs)
    (hr : pred r = (xs.getLast?.map ident).or prev) : Linked ident pred prev (xs ++ [r]) := by
  induction xs generalizing prev with
  | nil => exact ⟨hr, trivial⟩
  | cons x xs ih =>
    refine ⟨h.1, ih h.2 ?_⟩
    rw [hr]
    cases xs <;> simp [List.getLast?_cons]

/-- An entry supersedes the one directly before it. -/
theorem Linked.pred_eq {prev : Option ι} {xs ys : List α} {x y : α} (h : Linked ident pred prev (xs ++ x :: y :: ys)) :
    pred y = some (ident x) := by
  induction xs generalizing prev with
  | nil => exact h.2.1
  | cons _ _ ih => exact ih h.2

/-- An entry that supersedes another comes directly after it. -/
theorem Linked.exists_before {xs : List α} {y : α} {i : ι} (h : Linked ident pred none xs) (hy : y ∈ xs)
    (hp : pred y = some i) : ∃ as x bs, xs = as ++ x :: y :: bs ∧ ident x = i := by
  obtain ⟨as, bs, rfl⟩ := List.append_of_mem hy
  rcases List.eq_nil_or_concat as with rfl | ⟨as, x, rfl⟩
  · exact absurd (h.1.symm.trans hp) nofun
  · rw [List.concat_eq_append, List.append_assoc, List.singleton_append] at h ⊢
    exact ⟨as, x, bs, rfl, Option.some.inj (h.pred_eq.symm.trans hp)⟩

/-! ## Logs -/

variable [DecidableEq κ]

/-- The entries of a key. -/
def entries (log : List α) (k : κ) : List α := log.filter (key · = k)

/-- The last entry of a key. -/
def latest (log : List α) (k : κ) : Option α := (entries key log k).getLast?

variable (ident pred) in
structure Chained (log : List α) : Prop where
  idents : (log.map ident).Nodup
  linked (k : κ) : Linked ident pred none (entries key log k)

variable {key} {log : List α} {x r : α} {k : κ}

theorem mem_entries : x ∈ entries key log k ↔ x ∈ log ∧ key x = k := by simp [entries]

theorem mem_of_latest (h : latest key log k = some x) : x ∈ log ∧ key x = k := mem_entries.mp (List.mem_of_getLast? h)

theorem latest_eq_none : latest key log k = none ↔ ∀ x ∈ log, key x ≠ k := by
  simp [latest, entries]

theorem entries_append : entries key (log ++ [r]) k = entries key log k ++ if key r = k then [r] else [] := by
  rw [entries, List.filter_append]
  by_cases h : key r = k <;> simp [entries, h]

/-- The entry that is appended is the last of its key. -/
theorem latest_append : latest key (log ++ [r]) k = if key r = k then some r else latest key log k := by
  rw [latest, entries_append]
  split
  · exact List.getLast?_concat
  · rw [List.append_nil]
    rfl

namespace Chained

theorem nil : Chained key ident pred ([] : List α) := ⟨List.nodup_nil, fun _ => trivial⟩

/-- An entry with a new identifier, which supersedes the last one of its key. -/
theorem append (h : Chained key ident pred log) (hi : ((log ++ [r]).map ident).Nodup)
    (hr : pred r = (latest key log (key r)).map ident) : Chained key ident pred (log ++ [r]) := by
  refine ⟨hi, fun k => ?_⟩
  rw [entries_append]
  split
  · rename_i hk
    subst hk
    exact (h.linked _).append (by rw [hr, Option.or_none]; rfl)
  · rw [List.append_nil]
    exact h.linked k

theorem eq_of_ident (h : Chained key ident pred log) {y : α} (hx : x ∈ log) (hy : y ∈ log)
    (he : ident x = ident y) : x = y :=
  List.inj_on_of_nodup_map h.idents hx hy he

/-- The entries that nothing supersedes are the last ones of their keys. -/
theorem superseded_iff (h : Chained key ident pred log) (hx : x ∈ log) :
    Superseded ident pred log x ↔ latest key log (key x) ≠ some x := by
  have hk : x ∈ entries key log (key x) := mem_entries.mpr ⟨hx, rfl⟩
  constructor
  · intro ⟨later, hl, hp⟩ hlast
    obtain ⟨as, y, bs, he, hi⟩ := (h.linked (key later)).exists_before (mem_entries.mpr ⟨hl, rfl⟩) hp
    have hy : y ∈ entries key log (key later) := he ▸ List.mem_append_right _ List.mem_cons_self
    obtain ⟨hy, hyk⟩ := mem_entries.mp hy
    obtain rfl := h.eq_of_ident hy hx hi
    -- the entry is in the middle of the list that it is the last of
    have nodup : (entries key log (key y)).Nodup := (List.Nodup.of_map _ h.idents).filter _
    rw [hyk, he] at nodup
    rw [latest, hyk, he, List.getLast?_append_cons, List.getLast?_cons_cons] at hlast
    have := (List.nodup_append.mp nodup).2.1
    exact (List.nodup_cons.mp this).1 (List.mem_of_getLast? hlast)
  · intro hlast
    obtain ⟨as, bs, he⟩ := List.append_of_mem hk
    cases bs with
    | nil => exact absurd (by rw [latest, he]; exact List.getLast?_concat) hlast
    | cons y bs =>
      have linked := h.linked (key x)
      rw [he] at linked
      have hy : y ∈ entries key log (key x) := he ▸ List.mem_append_right _ (List.mem_cons_of_mem _ List.mem_cons_self)
      exact ⟨y, (mem_entries.mp hy).1, linked.pred_eq⟩

/-- A search for the entry of a key that nothing supersedes finds the last one. -/
theorem find_latest [DecidableEq ι] (h : Chained key ident pred log) :
    log.find? (fun x => key x = k ∧ ¬ Superseded ident pred log x) = latest key log k := by
  cases hl : latest key log k with
  | none =>
    refine List.find?_eq_none.mpr fun x hx => ?_
    simp [latest_eq_none.mp hl x hx]
  | some x =>
    obtain ⟨hx, rfl⟩ := mem_of_latest hl
    have found : ∀ y ∈ log, (key y = key x ∧ ¬ Superseded ident pred log y) ↔ y = x := by
      intro y hy
      rw [h.superseded_iff hy, not_not]
      constructor
      · rintro ⟨hk, hly⟩
        exact Option.some.inj ((hk ▸ hly).symm.trans hl)
      · rintro rfl
        exact ⟨rfl, hl⟩
    cases hf : log.find? fun x' => key x' = key x ∧ ¬ Superseded ident pred log x' with
    | none => exact absurd ((found x hx).mpr rfl) (by simpa using List.find?_eq_none.mp hf x hx)
    | some y => exact congrArg some ((found y (List.mem_of_find?_eq_some hf)).mp (by simpa using List.find?_some hf))

/-- A key that has entries has exactly one that nothing supersedes. -/
theorem existsUnique_latest (h : Chained key ident pred log) (hx : x ∈ log) :
    ∃! y, y ∈ log ∧ key y = key x ∧ ¬ Superseded ident pred log y := by
  cases hl : latest key log (key x) with
  | none => exact absurd rfl (latest_eq_none.mp hl x hx)
  | some y =>
    obtain ⟨hy, hk⟩ := mem_of_latest hl
    refine ⟨y, ⟨hy, hk, fun hs => (h.superseded_iff hy).mp hs (hk ▸ hl)⟩, ?_⟩
    rintro z ⟨hz, hzk, hs⟩
    have := not_not.mp (mt (h.superseded_iff hz).mpr hs)
    exact Option.some.inj ((hzk ▸ this).symm.trans hl)

end Chained

end Xir.Lineage
