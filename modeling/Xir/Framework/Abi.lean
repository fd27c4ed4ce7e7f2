import Xir.Framework.Bytes

/-!
# The contract ABI: encoding and decoding tuples

A tuple is encoded (`encode`) as a head of one word for each component and
then the encodings of the dynamic ones, in order, a dynamic component's word
being the offset of its encoding. Decoding reads words (`wordAt`), `bytes`
(`bytesAt`) and arrays of words (`wordsAt`) at an offset, and refuses, as the
compiler's decoder does, a length or offset of `2⁶⁴` or more and a value that
does not fit in the data. What an encoding holds is read back (`bytesAt_encodeBytes`,
`wordsAt_encodeWords`) after whatever comes before it is skipped.
-/

namespace Xir.Abi

/-- A component of a tuple: a static word, or the encoding of a dynamic value. -/
inductive Part
  | static (w : Bytes32)
  | dynamic (t : Bytes)

/-- The heads, the first dynamic component standing at offset `o`. -/
def heads : Nat → List Part → Bytes
  | _, [] => []
  | o, .static w :: ps => w.val ++ heads o ps
  | o, .dynamic t :: ps => (word o).val ++ heads (o + t.length) ps

def tails : List Part → Bytes
  | [] => []
  | .static _ :: ps => tails ps
  | .dynamic t :: ps => t ++ tails ps

/-- `abi.encode`. -/
def encode (ps : List Part) : Bytes := heads (32 * ps.length) ps ++ tails ps

/-- The encoding of a `bytes` value: its length, and its bytes padded to whole words. -/
def encodeBytes (b : Bytes) : Bytes :=
  (word b.length).val ++ (b ++ List.replicate ((32 - b.length % 32) % 32) 0)

/-- The encoding of a `bytes32[]` value. -/
def encodeWords (ws : List Bytes32) : Bytes := (word ws.length).val ++ ws.flatMap BytesN.val

/-- The word at offset `o`. -/
def wordAt (d : Bytes) (o : Nat) : Option Bytes32 :=
  if h : o + 32 ≤ d.length then
    some ⟨(d.drop o).take 32, by rw [List.length_take, List.length_drop]; omega⟩
  else none

/-- A length or an offset, the number at `o`. -/
def sizeAt (d : Bytes) (o : Nat) : Option Nat := do
  let w ← wordAt d o
  if wordVal w < 2 ^ 64 then some (wordVal w) else none

/-- The `bytes` value encoded at offset `o`. -/
def bytesAt (d : Bytes) (o : Nat) : Option Bytes := do
  let n ← sizeAt d o
  if o + 32 + n ≤ d.length then some ((d.drop (o + 32)).take n) else none

/-- The `n` words from offset `o` on. -/
def readWords (d : Bytes) : Nat → Nat → Option (List Bytes32)
  | _, 0 => some []
  | o, n + 1 => do
    let w ← wordAt d o
    let ws ← readWords d (o + 32) n
    some (w :: ws)

/-- The `bytes32[]` value encoded at offset `o`. -/
def wordsAt (d : Bytes) (o : Nat) : Option (List Bytes32) := do
  let n ← sizeAt d o
  readWords d (o + 32) n

/-! ## Lengths -/

theorem length_heads : ∀ o (ps : List Part), (heads o ps).length = 32 * ps.length
  | _, [] => rfl
  | o, .static w :: ps => by
    rw [heads, List.length_append, length_heads, BytesN.length_val, List.length_cons]; omega
  | o, .dynamic t :: ps => by
    rw [heads, List.length_append, length_heads, BytesN.length_val, List.length_cons]; omega

theorem length_encode (ps : List Part) : (encode ps).length = 32 * ps.length + (tails ps).length := by
  rw [encode, List.length_append, length_heads]

theorem length_encodeBytes (b : Bytes) :
    (encodeBytes b).length = 32 + (b.length + (32 - b.length % 32) % 32) := by
  simp [encodeBytes]

theorem length_encodeWords (ws : List Bytes32) : (encodeWords ws).length = 32 + 32 * ws.length := by
  have : ∀ l : List Bytes32, (l.flatMap BytesN.val).length = 32 * l.length := fun l => by
    induction l with
    | nil => rfl
    | cons w l ih => rw [List.flatMap_cons, List.length_append, ih, BytesN.length_val, List.length_cons]; omega
  rw [encodeWords, List.length_append, this, BytesN.length_val]

/-- An encoding whose first component is dynamic starts with the length of its head. -/
theorem encode_dynamic {t : Bytes} {ps : List Part} (h : ps.length < 7) :
    encode (.dynamic t :: ps) = List.replicate 31 0 ++ ([32 * (ps.length + 1)] ++
      (heads (32 * (ps.length + 1) + t.length) ps ++ (t ++ tails ps))) := by
  rw [encode, heads, tails, List.length_cons, word_of_lt (by omega), List.append_assoc, List.append_assoc]

/-- A `bytes` value is determined by its encoding, whatever its length. -/
theorem encodeBytes_inj {b b' : Bytes} (h : encodeBytes b = encodeBytes b') : b = b' := by
  have hl := congrArg List.length h
  obtain ⟨hw, hb⟩ := BytesN.append_inj h
  have hn : b.length % 2 ^ 256 = b'.length % 2 ^ 256 := by
    have hv := congrArg wordVal hw
    rw [wordVal, wordVal, word, word, beVal_be, beVal_be] at hv
    exact hv
  rw [length_encodeBytes, length_encodeBytes] at hl
  have hlen : b.length = b'.length := by omega
  exact (List.append_inj hb hlen).1

/-- So are a tuple of static words and a `bytes` value after it. -/
theorem encode_static_static_bytes_inj {v w v' w' : Bytes32} {b b' : Bytes}
    (h : encode [.static v, .static w, .dynamic (encodeBytes b)] =
      encode [.static v', .static w', .dynamic (encodeBytes b')]) : v = v' ∧ w = w' ∧ b = b' := by
  have he (v w : Bytes32) (b : Bytes) : encode [.static v, .static w, .dynamic (encodeBytes b)] =
      v.val ++ (w.val ++ ((word 96).val ++ encodeBytes b)) := by
    simp [encode, heads, tails]
  rw [he, he] at h
  obtain ⟨hv, h⟩ := BytesN.append_inj h
  obtain ⟨hw, h⟩ := BytesN.append_inj h
  exact ⟨hv, hw, encodeBytes_inj (BytesN.append_inj h).2⟩

/-! ## Reading back -/

section Skip

variable {a : Bytes} (x : Bytes) {o : Nat}

theorem wordAt_skip (h : a.length ≤ o) : wordAt (a ++ x) o = wordAt x (o - a.length) := by
  simp only [wordAt, List.length_append, List.drop_append, List.drop_eq_nil_of_le h, List.nil_append]
  by_cases hx : o + 32 ≤ a.length + x.length
  · rw [dif_pos hx, dif_pos (by omega)]
  · rw [dif_neg hx, dif_neg (by omega)]

theorem sizeAt_skip (h : a.length ≤ o) : sizeAt (a ++ x) o = sizeAt x (o - a.length) := by
  rw [sizeAt, wordAt_skip x h, sizeAt]

theorem bytesAt_skip (h : a.length ≤ o) : bytesAt (a ++ x) o = bytesAt x (o - a.length) := by
  simp only [bytesAt, sizeAt_skip x h, List.length_append, List.drop_append,
    List.drop_eq_nil_of_le (show a.length ≤ o + 32 by omega), List.nil_append,
    show o + 32 - a.length = o - a.length + 32 by omega]
  refine congrArg _ (funext fun n => ?_)
  by_cases hx : o + 32 + n ≤ a.length + x.length
  · rw [if_pos hx, if_pos (by omega)]
  · rw [if_neg hx, if_neg (by omega)]

theorem readWords_skip : ∀ (n : Nat) {o : Nat}, a.length ≤ o →
    readWords (a ++ x) o n = readWords x (o - a.length) n
  | 0, _, _ => rfl
  | n + 1, o, h => by
    rw [readWords, readWords, wordAt_skip x h, readWords_skip n (by omega),
      show o + 32 - a.length = o - a.length + 32 by omega]

theorem wordsAt_skip (h : a.length ≤ o) : wordsAt (a ++ x) o = wordsAt x (o - a.length) := by
  simp only [wordsAt, sizeAt_skip x h]
  refine congrArg _ (funext fun n => ?_)
  rw [readWords_skip x n (by omega), show o + 32 - a.length = o - a.length + 32 by omega]

end Skip

@[simp] theorem wordAt_append (w : Bytes32) (x : Bytes) : wordAt (w.val ++ x) 0 = some w := by
  simp only [wordAt, List.length_append, BytesN.length_val, Nat.zero_add, Nat.le_add_right,
    dite_true, List.drop_zero, Option.some.injEq]
  exact BytesN.ext (List.take_left' w.length_val)

theorem sizeAt_append {n : Nat} (h : n < 2 ^ 64) (x : Bytes) : sizeAt ((word n).val ++ x) 0 = some n := by
  have hn : wordVal (word n) = n := wordVal_word (by omega)
  rw [sizeAt, wordAt_append, Option.bind_eq_bind, Option.bind_some, hn, if_pos h]

/-- A `bytes` value is read back. -/
theorem bytesAt_encodeBytes {b : Bytes} (h : b.length < 2 ^ 64) (x : Bytes) :
    bytesAt (encodeBytes b ++ x) 0 = some b := by
  simp only [bytesAt, encodeBytes, List.append_assoc, sizeAt_append h, Option.bind_eq_bind,
    Option.bind_some, Nat.zero_add, List.length_append, BytesN.length_val]
  rw [if_pos (by omega), List.drop_left' (word b.length).length_val, List.take_left' rfl]

theorem readWords_flatMap : ∀ (ws : List Bytes32) (x : Bytes),
    readWords (ws.flatMap BytesN.val ++ x) 0 ws.length = some ws
  | [], _ => rfl
  | w :: ws, x => by
    rw [List.flatMap_cons, List.append_assoc, List.length_cons, readWords, wordAt_append,
      readWords_skip _ _ (by simp), BytesN.length_val, readWords_flatMap ws x]
    rfl

/-- An array of words is read back. -/
theorem wordsAt_encodeWords {ws : List Bytes32} (h : ws.length < 2 ^ 64) (x : Bytes) :
    wordsAt (encodeWords ws ++ x) 0 = some ws := by
  simp only [wordsAt, encodeWords, List.append_assoc, sizeAt_append h, Option.bind_eq_bind,
    Option.bind_some, Nat.zero_add]
  rw [readWords_skip _ _ (by simp), BytesN.length_val, Nat.sub_self, readWords_flatMap]

end Xir.Abi
