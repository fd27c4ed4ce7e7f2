import Mathlib.Data.List.Basic
import Mathlib.Tactic.SplitIfs

/-!
# The order of strings

Strings compare character by character, or byte by byte of their UTF-8. Both
orders are the same (`lexLE_utf8`), since a smaller character has the smaller
bytes, at a position that both encodings have.
-/

namespace Xir

/-- The lexicographic order. -/
def lexLE : List Nat → List Nat → Bool
  | [], _ => true
  | _ :: _, [] => false
  | a :: x, b :: y => a < b || (a = b && lexLE x y)

@[simp] theorem lexLE_nil (y : List Nat) : lexLE [] y = true := by unfold lexLE; rfl

theorem lexLE_cons_self (a : Nat) (x y : List Nat) : lexLE (a :: x) (a :: y) = lexLE x y := by simp [lexLE]

theorem lexLE_cons_of_lt {a b : Nat} (h : a < b) (x y : List Nat) : lexLE (a :: x) (b :: y) = true := by simp [lexLE, h]

theorem lexLE_cons_of_gt {a b : Nat} (h : b < a) (x y : List Nat) : lexLE (a :: x) (b :: y) = false := by
  have hn : ¬ a < b := by omega
  have hne : a ≠ b := by omega
  simp [lexLE, hn, hne]

theorem lexLE_append_left (w x y : List Nat) : lexLE (w ++ x) (w ++ y) = lexLE x y := by
  induction w with
  | nil => rfl
  | cons a w ih => rw [List.cons_append, List.cons_append, lexLE_cons_self, ih]

theorem lexLE_total (x y : List Nat) : lexLE x y || lexLE y x := by
  induction x generalizing y with
  | nil => simp
  | cons a x ih =>
    cases y with
    | nil => simp
    | cons b y =>
      rcases Nat.lt_trichotomy a b with h | rfl | h
      · simp [lexLE_cons_of_lt h]
      · simpa only [lexLE_cons_self] using ih y
      · simp [lexLE_cons_of_lt h]

theorem lexLE_trans {x y z : List Nat} (hxy : lexLE x y) (hyz : lexLE y z) : lexLE x z := by
  induction x generalizing y z with
  | nil => simp
  | cons a x ih =>
    match y, z, hxy, hyz with
    | b :: y, c :: z, hxy, hyz =>
      simp only [lexLE, Bool.or_eq_true, decide_eq_true_eq, Bool.and_eq_true] at hxy hyz ⊢
      rcases hxy with hab | ⟨rfl, hxy⟩
      · exact .inl (by omega)
      · rcases hyz with hbc | ⟨rfl, hyz⟩
        · exact .inl hbc
        · exact .inr ⟨rfl, ih hxy hyz⟩

/-- The bytes of a character. -/
def utf8 (c : Char) : List Nat :=
  let v := c.toNat
  if v < 0x80 then [v]
  else if v < 0x800 then [0xc0 + v / 64, 0x80 + v % 64]
  else if v < 0x10000 then [0xe0 + v / 4096, 0x80 + v / 64 % 64, 0x80 + v % 64]
  else [0xf0 + v / 262144, 0x80 + v / 4096 % 64, 0x80 + v / 64 % 64, 0x80 + v % 64]

/-- The first list is smaller at a position that both have, after equal ones. -/
def Before : List Nat → List Nat → Prop
  | a :: x, b :: y => a < b ∨ (a = b ∧ Before x y)
  | _, _ => False

theorem lexLE_of_before {u v : List Nat} (h : Before u v) (x y : List Nat) :
    lexLE (u ++ x) (v ++ y) = true ∧ lexLE (v ++ y) (u ++ x) = false := by
  induction u generalizing v with
  | nil => exact h.elim
  | cons a u ih =>
    cases v with
    | nil => exact h.elim
    | cons b v =>
      rcases h with h | ⟨rfl, h⟩
      · exact ⟨lexLE_cons_of_lt h .., lexLE_cons_of_gt h ..⟩
      · simpa only [List.cons_append, lexLE_cons_self] using ih h

/-- A smaller character has smaller bytes. -/
theorem before_utf8 {c d : Char} (h : c.toNat < d.toNat) : Before (utf8 c) (utf8 d) := by
  unfold utf8
  dsimp only
  split_ifs <;> simp only [Before] <;> omega

theorem utf8_ne_nil (c : Char) : utf8 c ≠ [] := by
  unfold utf8
  dsimp only
  split_ifs <;> simp

/-- The bytes of the characters of strings compare as the characters do. -/
theorem lexLE_utf8 (x y : List Char) :
    lexLE (x.flatMap utf8) (y.flatMap utf8) = lexLE (x.map Char.toNat) (y.map Char.toNat) := by
  induction x generalizing y with
  | nil => simp
  | cons c x ih =>
    cases y with
    | nil =>
      obtain ⟨b, w, hb⟩ := List.exists_cons_of_ne_nil (utf8_ne_nil c)
      rw [List.flatMap_cons, hb]
      rfl
    | cons d y =>
      rw [List.flatMap_cons, List.flatMap_cons, List.map_cons, List.map_cons]
      rcases Nat.lt_trichotomy c.toNat d.toNat with h | h | h
      · rw [(lexLE_of_before (before_utf8 h) _ _).1, lexLE_cons_of_lt h]
      · rw [Char.toNat_inj.mp h, lexLE_append_left, lexLE_cons_self, ih]
      · rw [(lexLE_of_before (before_utf8 h) _ _).2, lexLE_cons_of_gt h]

end Xir
