import Xir.Impl.Contracts.HyperlaneAdapter

/-!
# The bodies of messages are read back

What the sending functions encode, the receiving ones decode to the same values
(`decodeMessage_of_encode`, `decodeBundle_of_encode`, `decodeTuple_encode`).
Encoding fails where the result does not fit in memory, so that every length and
offset in an encoded body is one the decoder takes.
-/

namespace Xir.Abi

/-- A static component and a dynamic one. -/
theorem encode_static_dynamic (w : Bytes32) (t : Bytes) :
    encode [.static w, .dynamic t] = w.val ++ ((word 64).val ++ t) := by
  simp [encode, heads, tails]

end Xir.Abi

namespace Xir.Proof

open Impl

theorem abiEncode_eq_ok {ps : List Abi.Part} {b : Bytes} :
    abiEncode ps = .ok b ↔ (Abi.encode ps).length < 2 ^ 64 ∧ Abi.encode ps = b := by
  rw [abiEncode, revertIf_bind, pure_eq_ok, not_le]

/-- Reads a word and a `bytes` value. -/
theorem wordAt_encode_static_dynamic (w : Bytes32) (t : Bytes) :
    Abi.wordAt (Abi.encode [.static w, .dynamic t]) 0 = some w ∧
      Abi.sizeAt (Abi.encode [.static w, .dynamic t]) 32 = some 64 := by
  rw [Abi.encode_static_dynamic]
  refine ⟨Abi.wordAt_append w _, ?_⟩
  rw [Abi.sizeAt_skip _ w.length_val.le, w.length_val]
  exact Abi.sizeAt_append (by omega) t

theorem bytesAt_encode_static_dynamic {w : Bytes32} {m : Bytes} (h : m.length < 2 ^ 64) :
    Abi.bytesAt (Abi.encode [.static w, .dynamic (Abi.encodeBytes m)]) 64 = some m := by
  rw [Abi.encode_static_dynamic, Abi.bytesAt_skip _ (by simp), w.length_val, Abi.bytesAt_skip _ (by simp),
    BytesN.length_val]
  simpa using Abi.bytesAt_encodeBytes h []

theorem length_lt_of_encode {w : Bytes32} {m : Bytes}
    (h : (Abi.encode [.static w, .dynamic (Abi.encodeBytes m)]).length < 2 ^ 64) : m.length < 2 ^ 64 := by
  rw [Abi.encode_static_dynamic, List.length_append, List.length_append, Abi.length_encodeBytes] at h
  omega

/-- A message that is not too long is encoded. -/
theorem encodeMessage_of_length {k : UInt8} {m : Bytes} (h : m.length + 128 < 2 ^ 64) :
    ∃ b, encodeMessage k m = .ok b := by
  refine ⟨_, abiEncode_eq_ok.mpr ⟨?_, rfl⟩⟩
  rw [Abi.encode_static_dynamic, List.length_append, List.length_append, Abi.length_encodeBytes, BytesN.length_val,
    BytesN.length_val]
  omega

/-- A message is read back. -/
theorem decodeMessage_of_encode {k : UInt8} {m b : Bytes} (h : encodeMessage k m = .ok b) :
    decodeMessage b = some (k, m) := by
  obtain ⟨hl, rfl⟩ := abiEncode_eq_ok.mp h
  obtain ⟨h₁, h₂⟩ := wordAt_encode_static_dynamic (word k.toNat) (Abi.encodeBytes m)
  have hk : wordVal (word k.toNat) = k.toNat := wordVal_word (k.toNat_lt.trans (by decide))
  simp only [decodeMessage, h₁, h₂, Option.bind_eq_bind, Option.bind_some,
    bytesAt_encode_static_dynamic (length_lt_of_encode hl), hk]
  rw [if_pos k.toNat_lt, UInt8.ofNat_toNat]

theorem decodeRoute_of_encode {r : Bytes32} {m b : Bytes} (h : encodeRoute r m = .ok b) :
    decodeRoute b = some (r, m) := by
  obtain ⟨hl, rfl⟩ := abiEncode_eq_ok.mp h
  obtain ⟨h₁, h₂⟩ := wordAt_encode_static_dynamic r (Abi.encodeBytes m)
  simp only [decodeRoute, h₁, h₂, Option.bind_eq_bind, Option.bind_some,
    bytesAt_encode_static_dynamic (length_lt_of_encode hl)]

/-- A raw tuple is read back. -/
theorem decodeTuple_encode (p t e : Bytes32) :
    HyperlaneAdapter.decodeTuple (Abi.encode [.static p, .static t, .static e]) = some (p, t, e) := by
  have h : Abi.encode [.static p, .static t, .static e] = p.val ++ (t.val ++ (e.val ++ [])) := by
    simp [Abi.encode, Abi.heads, Abi.tails]
  have h₁ : Abi.wordAt (p.val ++ (t.val ++ (e.val ++ []))) 32 = some t := by
    rw [Abi.wordAt_skip _ (by simp), BytesN.length_val, Abi.wordAt_append]
  have h₂ : Abi.wordAt (p.val ++ (t.val ++ (e.val ++ []))) 64 = some e := by
    rw [Abi.wordAt_skip _ (by simp), BytesN.length_val, Abi.wordAt_skip _ (by simp), BytesN.length_val,
      Abi.wordAt_append]
  simp only [HyperlaneAdapter.decodeTuple, h, h₁, h₂, Abi.wordAt_append, Option.bind_eq_bind, Option.bind_some]

/-- The head of an encoded bundle, whose dynamic parts have the lengths `m` and `n` and more. -/
def bundleHead (p t : Bytes32) (m n : Nat) : Bytes :=
  p.val ++ (t.val ++ ((word 160).val ++ ((word (160 + m)).val ++ (word (160 + m + n)).val)))

theorem length_bundleHead (p t : Bytes32) (m n : Nat) : (bundleHead p t m n).length = 160 := by
  simp [bundleHead]

/-- The layout of an encoded bundle. -/
theorem encode_bundle (p t : Bytes32) (ps es ts : Bytes) :
    Abi.encode [.dynamic (Abi.encode [.static p, .static t, .dynamic ps, .dynamic es, .dynamic ts])] =
      (word 32).val ++ (bundleHead p t ps.length es.length ++ (ps ++ (es ++ ts))) := by
  simp [Abi.encode, Abi.heads, Abi.tails, bundleHead]

/-- A bundle that is not too long is encoded, and fits in a message. -/
theorem encodeBundle_of_length {k : UInt8} {b : DeliveryBundle}
    (h : 32 * (b.priorProfiles.length + b.priorEvidence.length + b.priorTransitions.length) + 416 < 2 ^ 64) :
    ∃ message body, encodeBundle b = .ok message ∧ encodeMessage k message = .ok body := by
  have hl : (Abi.encode [.dynamic (Abi.encode [.static b.profileHash, .static b.transitionHash,
      .dynamic (Abi.encodeWords b.priorProfiles), .dynamic (Abi.encodeWords b.priorEvidence),
      .dynamic (Abi.encodeWords b.priorTransitions)])]).length + 128 < 2 ^ 64 := by
    simp only [encode_bundle, List.length_append, BytesN.length_val, length_bundleHead, Abi.length_encodeWords]
    omega
  obtain ⟨body, hb⟩ := encodeMessage_of_length (k := k) hl
  exact ⟨_, body, abiEncode_eq_ok.mpr ⟨by omega, rfl⟩, hb⟩

/-- What is read from the head of a bundle. -/
theorem read_bundleHead (p t : Bytes32) {m n : Nat} (h : 160 + m + n < 2 ^ 64) (x : Bytes) :
    Abi.wordAt (bundleHead p t m n ++ x) 0 = some p ∧ Abi.wordAt (bundleHead p t m n ++ x) 32 = some t ∧
      Abi.sizeAt (bundleHead p t m n ++ x) 64 = some 160 ∧
      Abi.sizeAt (bundleHead p t m n ++ x) 96 = some (160 + m) ∧
      Abi.sizeAt (bundleHead p t m n ++ x) 128 = some (160 + m + n) := by
  simp only [bundleHead, List.append_assoc]
  refine ⟨Abi.wordAt_append _ _, ?_, ?_, ?_, ?_⟩
  · rw [Abi.wordAt_skip _ (by simp), BytesN.length_val, Abi.wordAt_append]
  · rw [Abi.sizeAt_skip _ (by simp), BytesN.length_val, Abi.sizeAt_skip _ (by simp), BytesN.length_val,
      Abi.sizeAt_append (by omega)]
  · rw [Abi.sizeAt_skip _ (by simp), BytesN.length_val, Abi.sizeAt_skip _ (by simp), BytesN.length_val,
      Abi.sizeAt_skip _ (by simp), BytesN.length_val, Abi.sizeAt_append (by omega)]
  · rw [Abi.sizeAt_skip _ (by simp), BytesN.length_val, Abi.sizeAt_skip _ (by simp), BytesN.length_val,
      Abi.sizeAt_skip _ (by simp), BytesN.length_val, Abi.sizeAt_skip _ (by simp), BytesN.length_val,
      Abi.sizeAt_append (by omega)]

/-- An array is read back after what stands before it. -/
theorem wordsAt_append (ws : List Bytes32) (x : Bytes) {a : Bytes} {o : Nat} (h : ws.length < 2 ^ 64)
    (ha : a.length = o) :
    Abi.wordsAt (a ++ (Abi.encodeWords ws ++ x)) o = some ws := by
  rw [Abi.wordsAt_skip _ ha.le, ha, Nat.sub_self, Abi.wordsAt_encodeWords h]

/-- A bundle is read back. -/
theorem decodeBundle_of_encode {b : DeliveryBundle} {m : Bytes} (h : encodeBundle b = .ok m) :
    decodeBundle m = some b := by
  obtain ⟨hl, rfl⟩ := abiEncode_eq_ok.mp h
  obtain ⟨p, t, ps, es, ts⟩ := b
  rw [encode_bundle] at hl ⊢
  simp only [List.length_append, BytesN.length_val, length_bundleHead, Abi.length_encodeWords] at hl
  obtain ⟨h₁, h₂, h₃, h₄, h₅⟩ := read_bundleHead p t (m := (Abi.encodeWords ps).length)
    (n := (Abi.encodeWords es).length) (by simp only [Abi.length_encodeWords]; omega)
    (Abi.encodeWords ps ++ (Abi.encodeWords es ++ Abi.encodeWords ts))
  have h₀ : Abi.sizeAt ((word 32).val ++ (bundleHead p t (Abi.encodeWords ps).length (Abi.encodeWords es).length ++
      (Abi.encodeWords ps ++ (Abi.encodeWords es ++ Abi.encodeWords ts)))) 0 = some 32 :=
    Abi.sizeAt_append (by omega) _
  have w₁ := wordsAt_append ps (Abi.encodeWords es ++ Abi.encodeWords ts) (by omega)
    (length_bundleHead p t (Abi.encodeWords ps).length (Abi.encodeWords es).length)
  have w₂ := wordsAt_append es (Abi.encodeWords ts) (by omega) (show
    (bundleHead p t (Abi.encodeWords ps).length (Abi.encodeWords es).length ++ Abi.encodeWords ps).length =
      160 + (Abi.encodeWords ps).length by rw [List.length_append, length_bundleHead])
  have w₃ := wordsAt_append ts [] (by omega) (show
    (bundleHead p t (Abi.encodeWords ps).length (Abi.encodeWords es).length ++ Abi.encodeWords ps ++
      Abi.encodeWords es).length = 160 + (Abi.encodeWords ps).length + (Abi.encodeWords es).length by
      rw [List.length_append, List.length_append, length_bundleHead])
  simp only [List.append_assoc, List.append_nil] at w₁ w₂ w₃
  simp only [decodeBundle, h₀, Option.bind_eq_bind, Option.bind_some, List.drop_left' (word 32).length_val, h₁, h₂,
    h₃, h₄, h₅, w₁, w₂, w₃]

end Xir.Proof
