import Xir.Framework.Bytes

/-!
# Strings with fields at fixed offsets

A field of such a string is a `slice` of it. A string that is written field
after field has each at its offset (`slice_first`, `slice_skip`), and a string
is what its last field and its tail are together (`slice_append_drop`), or its
parts of one length (`exists_flatten`). `Uint` is an unsigned integer in such a
field, the most significant byte first.
-/

namespace Xir

variable {α : Type}

/-- `l[a:b]`. -/
def slice (l : List α) (a b : Nat) : List α := (l.take b).drop a

variable {l x y : List α} {a b c : Nat}

theorem length_slice (h : b ≤ l.length) : (slice l a b).length = b - a := by
  rw [slice, List.length_drop, List.length_take, Nat.min_eq_left h]

theorem slice_zero (l : List α) (b : Nat) : slice l 0 b = l.take b := rfl

/-- The field that a string starts with. -/
theorem slice_first (h : x.length = b) : slice (x ++ y) 0 b = x := by rw [slice_zero, ← h, List.take_left]

/-- A field after the one that a string starts with. -/
theorem slice_skip (ha : x.length ≤ a) (hb : x.length ≤ b) :
    slice (x ++ y) a b = slice y (a - x.length) (b - x.length) := by
  rw [slice, List.take_append, List.take_of_length_le hb, List.drop_append, List.drop_of_length_le ha, List.nil_append,
    slice]

/-- What follows the field that a string starts with. -/
theorem drop_skip (ha : x.length ≤ a) : (x ++ y).drop a = y.drop (a - x.length) := by
  rw [List.drop_append, List.drop_of_length_le ha, List.nil_append]

/-- A field and the tail. -/
theorem slice_append_drop (hab : a ≤ b) : slice l a b ++ l.drop b = l.drop a := by
  have hd : l.drop b = (l.drop a).drop (b - a) := by rw [List.drop_drop, Nat.add_sub_cancel' hab]
  rw [slice, List.drop_take, hd, List.take_append_drop]

/-- The start of a field. -/
theorem take_slice {n : Nat} (h : a + n ≤ b) : (slice l a b).take n = slice l a (a + n) := by
  rw [slice, slice, List.take_drop, List.take_take, Nat.min_eq_left h]

/-! ## Fields of one length -/

section

variable {parts : List (List α)} {k : Nat}

theorem length_flatten_of_forall (h : ∀ p ∈ parts, p.length = k) : parts.flatten.length = parts.length * k := by
  induction parts with
  | nil => simp
  | cons p ps ih =>
    rw [List.forall_mem_cons] at h
    rw [List.flatten_cons, List.length_append, h.1, ih h.2, List.length_cons, Nat.add_mul, Nat.one_mul, Nat.add_comm]

/-- Part `i` of a string of parts of one length. -/
theorem slice_flatten (h : ∀ p ∈ parts, p.length = k) {i : Nat} (hi : i < parts.length) :
    slice parts.flatten (i * k) ((i + 1) * k) = parts[i] := by
  induction parts generalizing i with
  | nil => exact absurd hi (Nat.not_lt_zero _)
  | cons p ps ih =>
    rw [List.forall_mem_cons] at h
    rw [List.flatten_cons]
    cases i with
    | zero => exact (congrArg₂ (slice _) (Nat.zero_mul k) (Nat.one_mul k)).trans (slice_first h.1)
    | succ i =>
      have hk : ∀ n, (n + 1) * k - p.length = n * k :=
        fun n => by rw [h.1, Nat.add_mul, Nat.one_mul, Nat.add_sub_cancel]
      have hle : ∀ n, p.length ≤ (n + 1) * k := fun n => by rw [h.1]; exact Nat.le_mul_of_pos_left k (Nat.succ_pos n)
      rw [slice_skip (hle i) (hle (i + 1)), hk, hk]
      exact ih h.2 (Nat.lt_of_succ_lt_succ hi)

/-- A string whose length is a multiple of `k` consists of parts of this length. -/
theorem exists_flatten {l : List α} {n : Nat} (h : l.length = n * k) :
    ∃ parts : List (List α), parts.length = n ∧ (∀ p ∈ parts, p.length = k) ∧ parts.flatten = l := by
  induction n generalizing l with
  | zero =>
    rw [Nat.zero_mul, List.length_eq_zero_iff] at h
    exact ⟨[], rfl, List.forall_mem_nil _, h.symm⟩
  | succ n ih =>
    rw [Nat.add_mul, Nat.one_mul] at h
    obtain ⟨parts, hn, hp, hl⟩ := ih (l := l.drop k) (by rw [List.length_drop]; omega)
    refine ⟨l.take k :: parts, by rw [List.length_cons, hn], List.forall_mem_cons.mpr ⟨?_, hp⟩, ?_⟩
    · rw [List.length_take]
      omega
    · rw [List.flatten_cons, hl, List.take_append_drop]

end

/-! ## Integers -/

namespace Uint

/-- The low `n` bytes of `v`. -/
def bytes (n v : Nat) : List UInt8 := (be n v).map UInt8.ofNat

/-- The number that bytes stand for. -/
def value (l : List UInt8) : Nat := beVal (l.map UInt8.toNat)

@[simp] theorem length_bytes (n v : Nat) : (bytes n v).length = n := by rw [bytes, List.length_map, length_be]

theorem be_lt (n v : Nat) : ∀ b ∈ be n v, b < 256 := by
  induction n generalizing v with
  | zero => exact fun b hb => absurd hb List.not_mem_nil
  | succ n ih =>
    intro b hb
    rw [be, List.mem_append, List.mem_singleton] at hb
    rcases hb with hb | rfl
    · exact ih _ _ hb
    · exact Nat.mod_lt _ (by decide)

theorem value_bytes (n v : Nat) : value (bytes n v) = v % 256 ^ n := by
  have h : (be n v).map (UInt8.toNat ∘ UInt8.ofNat) = (be n v).map id :=
    List.map_congr_left fun b hb => UInt8.toNat_ofNat_of_lt' (be_lt n v b hb)
  rw [value, bytes, List.map_map, h, List.map_id, beVal_be]

theorem value_append_singleton (l : List UInt8) (b : UInt8) : value (l ++ [b]) = 256 * value l + b.toNat := by
  rw [value, List.map_append, List.map_singleton, beVal_append_singleton, value]

theorem value_singleton (b : UInt8) : value [b] = b.toNat := by
  rw [← List.nil_append [b], value_append_singleton]
  exact Nat.zero_add _

theorem value_lt (l : List UInt8) : value l < 256 ^ l.length := by
  induction l using List.reverseRecOn with
  | nil => decide
  | append_singleton l b ih =>
    have hb := b.toNat_lt
    rw [value_append_singleton, List.length_append, List.length_singleton, Nat.pow_succ]
    omega

/-- Bytes are those of the number that they stand for. -/
theorem bytes_value (l : List UInt8) : bytes l.length (value l) = l := by
  induction l using List.reverseRecOn with
  | nil => rfl
  | append_singleton l b ih =>
    have hb := b.toNat_lt
    have hd : (256 * value l + b.toNat) / 256 = value l := by omega
    have hm : (256 * value l + b.toNat) % 256 = b.toNat := by omega
    rw [value_append_singleton, List.length_append, List.length_singleton, bytes, be, List.map_append, hd, hm,
      List.map_singleton, UInt8.ofNat_toNat]
    exact congrArg (· ++ [b]) ih

end Uint

end Xir
