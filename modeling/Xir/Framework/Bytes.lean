import Mathlib.Data.List.Basic
import Mathlib.Tactic.Ring
import Mathlib.Logic.Equiv.List

/-!
# Byte strings

Bytes, strings of a fixed length (`BytesN`), big-endian integers (`be`,
`beVal`) and the hash `keccak256`, which is a parameter. An encoder writes
bytes `0` to `255`; a digest may hold larger ones, since no injective hash of
all byte strings into `256³²` digests exists (`idealKeccak` is one into these).
-/

namespace Xir

/-- A byte, or one of the further values a digest may hold. -/
abbrev Byte := Nat

abbrev Bytes := List Byte

/-- A byte string of length `n`, as `bytes32` is one of length 32. -/
@[ext] structure BytesN (n : Nat) where
  val : Bytes
  length_val : val.length = n
  deriving DecidableEq

abbrev Bytes32 := BytesN 32

/-- An account of a chain: `address`, 20 bytes. -/
abbrev Address := BytesN 20

namespace BytesN

attribute [simp] length_val

variable {n : Nat}

instance : Zero (BytesN n) := ⟨⟨List.replicate n 0, List.length_replicate⟩⟩

theorem val_inj {a b : BytesN n} : a.val = b.val ↔ a = b := ⟨BytesN.ext, congrArg val⟩

/-- A string of a known length, and what follows it. -/
theorem append_inj {a b : BytesN n} {x y : Bytes} (h : a.val ++ x = b.val ++ y) : a = b ∧ x = y := by
  obtain ⟨h₁, h₂⟩ := List.append_inj h (a.length_val.trans b.length_val.symm)
  exact ⟨BytesN.ext h₁, h₂⟩

/-- The string that starts with `b`, and is zero otherwise. -/
def single (b : Byte) : BytesN (n + 1) := ⟨b :: List.replicate n 0, by simp⟩

theorem single_inj {a b : Byte} : (single a : BytesN (n + 1)) = single b ↔ a = b :=
  ⟨fun h => (List.cons.inj (congrArg val h)).1, congrArg single⟩

end BytesN

/-! ## Big-endian integers -/

/-- The low `n` bytes of `v`, the most significant first. -/
def be : Nat → Nat → Bytes
  | 0, _ => []
  | n + 1, v => be n (v / 256) ++ [v % 256]

/-- The number a string stands for, the most significant byte first. -/
def beVal (l : Bytes) : Nat := l.foldl (fun a b => 256 * a + b) 0

@[simp] theorem length_be : ∀ n v, (be n v).length = n
  | 0, _ => rfl
  | n + 1, v => by rw [be, List.length_append, length_be, List.length_singleton]

theorem beVal_append_singleton (l : Bytes) (b : Byte) : beVal (l ++ [b]) = 256 * beVal l + b := by
  simp [beVal, List.foldl_append]

theorem beVal_be : ∀ n v, beVal (be n v) = v % 256 ^ n
  | 0, v => by simp [be, beVal, Nat.mod_one]
  | n + 1, v => by
    rw [be, beVal_append_singleton, beVal_be n, Nat.pow_succ', Nat.mod_mul]
    omega

theorem be_inj {n v w : Nat} (hv : v < 256 ^ n) (hw : w < 256 ^ n) (h : be n v = be n w) : v = w := by
  have := congrArg beVal h
  rwa [beVal_be, beVal_be, Nat.mod_eq_of_lt hv, Nat.mod_eq_of_lt hw] at this

theorem be_add : ∀ m n v, be (m + n) v = be m (v / 256 ^ n) ++ be n v
  | m, 0, v => by simp [be]
  | m, n + 1, v => by
    rw [← Nat.add_assoc, be, be_add m n, be, Nat.div_div_eq_div_mul, ← Nat.pow_succ',
      List.append_assoc]

theorem be_zero : ∀ n, be n 0 = List.replicate n 0
  | 0 => rfl
  | n + 1 => by rw [be, Nat.zero_div, be_zero n, List.replicate_succ']

theorem be_of_lt {n v : Nat} (h : v < 256) : be (n + 1) v = List.replicate n 0 ++ [v] := by
  rw [be, Nat.div_eq_of_lt h, be_zero, Nat.mod_eq_of_lt h]

/-- A word of 32 bytes, `v` modulo `2²⁵⁶`. -/
def word (v : Nat) : Bytes32 := ⟨be 32 v, length_be 32 v⟩

theorem word_of_lt {v : Nat} (h : v < 256) : (word v).val = List.replicate 31 0 ++ [v] := be_of_lt h

/-- The number in a word. -/
def wordVal (w : Bytes32) : Nat := beVal w.val

theorem wordVal_word {v : Nat} (h : v < 2 ^ 256) : wordVal (word v) = v := by
  rw [wordVal, word, beVal_be, Nat.mod_eq_of_lt (h.trans_eq (by norm_num))]

/-! ## The hash -/

/-- The hash `keccak256`, of which the model fixes nothing. -/
class Keccak where
  keccak256 : Bytes → Bytes32

export Keccak (keccak256)

/-- What the results that rest on the hash may assume of it: distinct strings have
distinct digests, none of them zero. -/
structure IdealHash [Keccak] : Prop where
  injective : Function.Injective keccak256
  ne_zero : ∀ x, keccak256 x ≠ 0

/-- A hash with these properties. -/
@[reducible] def idealKeccak : Keccak where
  keccak256 x := ⟨List.replicate 31 0 ++ [Encodable.encode x + 1], by simp⟩

theorem idealHash : @IdealHash idealKeccak := by
  refine @IdealHash.mk idealKeccak (fun x y h => ?_) fun x h => ?_
  · have hl := List.append_cancel_left (congrArg BytesN.val h)
    exact Encodable.encode_injective (Nat.add_right_cancel (List.cons.inj hl).1)
  · have hl : List.replicate 31 0 ++ [Encodable.encode x + 1] = List.replicate 31 0 ++ [0] := congrArg BytesN.val h
    exact Nat.succ_ne_zero _ (List.cons.inj (List.append_cancel_left hl)).1

/-- The last bytes of its digests differ already. -/
theorem idealKeccak_drop {x y : Bytes}
    (h : (@keccak256 idealKeccak x).val.drop 12 = (@keccak256 idealKeccak y).val.drop 12) : x = y := by
  have hl : List.replicate 19 0 ++ [Encodable.encode x + 1] = List.replicate 19 0 ++ [Encodable.encode y + 1] := h
  exact Encodable.encode_injective (Nat.add_right_cancel (List.cons.inj (List.append_cancel_left hl)).1)

end Xir
