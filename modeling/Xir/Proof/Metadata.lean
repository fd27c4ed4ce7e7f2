import Xir.Impl.GoRuntime.HyperlaneMetadata
import Xir.Proof.Packets

/-!
# The metadata of a multisig module

`metadata` succeeds for the strings of canonical signatures (`Blob`), and its
fields are read back (`Reads`). `metadataSignatureAt` computes the end of a
signature modulo `2⁶⁴`: for most indexes beyond the signatures this is out of
range too, but for some it is within the metadata (`Wraps`), and then the call
returns other bytes or panics. `metadata_codec` says that nothing else goes wrong.
-/

namespace Xir

theorem Uint.value_cons (b : UInt8) (l : List UInt8) :
    Uint.value (b :: l) = b.toNat * 256 ^ l.length + Uint.value l := by
  induction l using List.reverseRecOn with
  | nil =>
    rw [Uint.value_singleton]
    simp [Uint.value, beVal]
  | append_singleton l c ih =>
    rw [← List.cons_append, Uint.value_append_singleton, Uint.value_append_singleton, ih, List.length_append,
      List.length_singleton, Nat.pow_succ, Nat.mul_add, ← Nat.mul_assoc (b.toNat)]
    omega

namespace Impl

/-- The larger of two strings of one length is the larger number. -/
theorem bytesCompare_eq_gt {a b : GoBytes} (h : a.length = b.length) :
    bytesCompare a b = .gt ↔ Uint.value b < Uint.value a := by
  induction a generalizing b with
  | nil =>
    obtain rfl := List.length_eq_zero_iff.mp h.symm
    simp [bytesCompare]
  | cons x a ih =>
    obtain ⟨y, b, rfl⟩ := List.exists_cons_of_length_eq_add_one h.symm
    rw [List.length_cons, List.length_cons, Nat.add_right_cancel_iff] at h
    have ha := Uint.value_lt a
    have hb := Uint.value_lt b
    rw [← h] at hb
    simp only [bytesCompare, Uint.value_cons, ← h, UInt8.lt_iff_toNat_lt]
    have larger : ∀ {u v : UInt8}, u.toNat < v.toNat → (u.toNat + 1) * 256 ^ a.length ≤ v.toNat * 256 ^ a.length :=
      fun huv => Nat.mul_le_mul_right _ huv
    by_cases hxy : x.toNat < y.toNat
    · have := larger hxy
      rw [Nat.add_mul, Nat.one_mul] at this
      rw [if_pos hxy]
      exact ⟨fun hc => absurd hc (by decide), fun hlt => absurd hlt (by omega)⟩
    · rw [if_neg hxy]
      by_cases hyx : y.toNat < x.toNat
      · have := larger hyx
        rw [Nat.add_mul, Nat.one_mul] at this
        rw [if_pos hyx]
        exact ⟨fun _ => by omega, fun _ => rfl⟩
      · have hex : y.toNat = x.toNat := by omega
        rw [if_neg hyx, ih h, hex, Nat.add_lt_add_iff_left]

theorem copy32_eq_zero32 {b : GoBytes} (h : b.length = 32) : copy32 b = zero32 ↔ Uint.value b = 0 := by
  have hz : zero32.toList = Uint.bytes 32 0 := by decide
  rw [← Vector.toList_inj, toList_copy32 h, hz]
  refine ⟨fun hb => ?_, fun hv => ?_⟩
  · rw [hb, Uint.value_bytes]
    rfl
  · have := Uint.bytes_value b
    rw [hv, h] at this
    exact this.symm

namespace Hyperlane

/-! ## Signatures -/

/-- The order of the curve secp256k1. -/
def curveOrder : Nat := 0xfffffffffffffffffffffffffffffffebaaedce6af48a03bbfd25e8cd0364141

/-- A signature `r || s || v` that the recovery on chain takes. -/
structure Canonical (signature : GoBytes) : Prop where
  length : signature.length = 65
  r_ne : Uint.value (signature.take 32) ≠ 0
  s_ne : Uint.value (slice signature 32 64) ≠ 0
  s_le : Uint.value (slice signature 32 64) ≤ curveOrder / 2
  v : signature.getD 64 0 = 27 ∨ signature.getD 64 0 = 28

theorem value_halfOrder : Uint.value secp256k1HalfOrder.toList = curveOrder / 2 := by decide +kernel

theorem validateSignature_eq_ok {i : Nat} {p : GoBytes} (h : p.length = 65) :
    validateSignature i p = .ok () ↔ Canonical p := by
  have hr : (p.take 32).length = 32 := by rw [List.length_take, h]; rfl
  have hs : (slice p 32 64).length = 32 := length_slice (by omega)
  have hle : bytesCompare (copy32 (slice p 32 64)).toList secp256k1HalfOrder.toList = .gt ↔
      curveOrder / 2 < Uint.value (slice p 32 64) := by
    rw [bytesCompare_eq_gt (by simp), value_halfOrder, toList_copy32 hs]
  simp only [validateSignature, revertIf_bind, revertIf_eq_ok, copy32_eq_zero32 hr, copy32_eq_zero32 hs, hle, not_or,
    not_lt, not_and_or, not_not]
  exact ⟨fun ⟨⟨hr0, hs0⟩, hsl, hv⟩ => ⟨h, hr0, hs0, hsl, hv⟩, fun hc => ⟨⟨hc.r_ne, hc.s_ne⟩, hc.s_le, hc.v⟩⟩

/-- The string consists of canonical signatures, of one at least. -/
def Blob (signatures : GoBytes) : Prop :=
  ∃ parts : List GoBytes, parts ≠ [] ∧ (∀ p ∈ parts, Canonical p) ∧ parts.flatten = signatures

theorem signatureCount_eq_ok {signatures : GoBytes} {n : Nat} :
    signatureCount signatures = .ok n ↔ signatures.length = n * 65 := by
  rw [signatureCount, revertIf_bind, pure_eq_ok, not_not, SignatureLength]
  omega

theorem validateSignatures_eq_ok {parts : List GoBytes} (h : ∀ p ∈ parts, p.length = 65) :
    validateSignatures parts.flatten parts.length = .ok () ↔ ∀ p ∈ parts, Canonical p := by
  simp only [validateSignatures, forM_eq_ok, List.mem_range, List.forall_mem_iff_getElem]
  refine forall_congr' fun i => forall_congr' fun hi => ?_
  rw [SignatureLength, slice_flatten h hi, validateSignature_eq_ok (h _ (List.getElem_mem hi))]

/-! ## Fields -/

/-- The fields of the metadata, one after the other. -/
def formatMetadata (hook : GoAddress) (root : GoBytes32) (index : UInt32) (signatures : GoBytes) : GoBytes :=
  (addressToBytes32 hook).toList ++ (root.toList ++ (Uint.bytes 4 index.toNat ++ signatures))

theorem length_formatMetadata (hook : GoAddress) (root : GoBytes32) (index : UInt32) (signatures : GoBytes) :
    (formatMetadata hook root index signatures).length = 68 + signatures.length := by
  simp only [formatMetadata, List.length_append, Vector.length_toList, Uint.length_bytes]
  omega

theorem metadata_eq_ok {hook : GoAddress} {root : GoBytes32} {index : UInt32} {signatures m : GoBytes} :
    metadata hook root index signatures = .ok m ↔ Blob signatures ∧ formatMetadata hook root index signatures = m := by
  simp only [metadata, bind_eq_ok, signatureCount_eq_ok, revertIf_eq_ok, pure_eq_ok, BigEndian.appendUint32,
    List.append_assoc]
  constructor
  · intro ⟨n, hn, _, hne, _, hv, hm⟩
    obtain ⟨parts, rfl, hp, rfl⟩ := exists_flatten hn
    exact ⟨⟨parts, List.length_pos_iff.mp (Nat.pos_of_ne_zero hne), (validateSignatures_eq_ok hp).mp hv, rfl⟩, hm⟩
  · intro ⟨⟨parts, hne, hc, hf⟩, hm⟩
    subst hf
    have hp : ∀ p ∈ parts, p.length = 65 := fun p h => (hc p h).length
    exact ⟨parts.length, length_flatten_of_forall hp, (), (List.length_pos_iff.mpr hne).ne', (),
      (validateSignatures_eq_ok hp).mpr hc, hm⟩

/-- What the accessors of the fixed fields return. -/
structure Reads (m : GoBytes) (hook : GoAddress) (root : GoBytes32) (index : UInt32) : Prop where
  hook : metadataOriginMerkleTreeHook m = .ok (addressToBytes32 hook)
  root : metadataRoot m = .ok root
  index : metadataIndex m = .ok index

theorem requireLength_eq_ok {m : GoBytes} {length : Int64} {field : String} :
    requireLength m length field = .ok () ↔ length.toInt ≤ m.length := by
  rw [requireLength, revertIf_eq_ok, not_lt]

theorem reads_formatMetadata (hook : GoAddress) (root : GoBytes32) (index : UInt32) (signatures : GoBytes) :
    Reads (formatMetadata hook root index signatures) hook root index := by
  have hl := length_formatMetadata hook root index signatures
  have fits : ∀ {n : Int64} {field : String}, n.toInt ≤ 68 →
      requireLength (formatMetadata hook root index signatures) n field = .ok () :=
        fun hn => requireLength_eq_ok.mpr (by omega)
  have h₁ : slice (formatMetadata hook root index signatures) 0 32 = (addressToBytes32 hook).toList :=
    slice_first Vector.length_toList
  have h₂ : slice (formatMetadata hook root index signatures) 32 64 = root.toList := by
    simp (disch := simp) only [formatMetadata, slice_skip, slice_first, Vector.length_toList, Nat.reduceSub]
  have h₃ : slice (formatMetadata hook root index signatures) 64 68 = Uint.bytes 4 index.toNat := by
    simp (disch := simp) only [formatMetadata, slice_skip, slice_first, Vector.length_toList, Nat.reduceSub]
  refine ⟨?_, ?_, ?_⟩
  · rw [metadataOriginMerkleTreeHook, fits (by decide), ok_bind]
    simp only [MetadataOriginMerkleTreeHookOffset, MetadataRootOffset, h₁, copy32_toList, pure_eq_ok]
  · rw [metadataRoot, fits (by decide), ok_bind]
    simp only [MetadataRootOffset, MetadataIndexOffset, h₂, copy32_toList, pure_eq_ok]
  · rw [metadataIndex, fits (by decide), ok_bind]
    simp only [MetadataIndexOffset, MetadataSignaturesOffset, h₃, BigEndian.uint32_bytes, pure_eq_ok]

/-! ## Signatures at an index -/

/-- The end of signature `i` beyond the `length` bytes of the metadata overflows to an end
within them. -/
def Wraps (length : Nat) (i : Int) : Prop :=
  0 ≤ i ∧ 2 ^ 63 ≤ 133 + 65 * i ∧ (133 + 65 * i).bmod (2 ^ 64) ≤ length

/-- What `metadataSignatureAt` returns for an index of a signature, and for another one. -/
structure SignatureAt (m : GoBytes) (parts : List GoBytes) (i : Int64) : Prop where
  inside (h : i.toInt.toNat < parts.length) : 0 ≤ i.toInt → metadataSignatureAt m i = .value parts[i.toInt.toNat]
  outside : i.toInt < 0 ∨ (parts.length : Int) ≤ i.toInt → ∃ e, metadataSignatureAt m i = .err e

/-- The bounds that are computed of a signature, with the reduction made once. -/
theorem toInt_bounds (i : Int64) : (68 + i * 65 : Int64).toInt = (68 + 65 * i.toInt).bmod (2 ^ 64) ∧
    (68 + i * 65 + 65 : Int64).toInt = (133 + 65 * i.toInt).bmod (2 ^ 64) := by
  have h68 : (68 : Int64).toInt = 68 := by decide
  have h65 : (65 : Int64).toInt = 65 := by decide
  have hs : (68 + i * 65 : Int64).toInt = (68 + 65 * i.toInt).bmod (2 ^ 64) := by
    rw [Int64.toInt_add, Int64.toInt_mul, h68, h65, Int.add_bmod_bmod, Int.mul_comm]
  refine ⟨hs, ?_⟩
  rw [Int64.toInt_add, hs, h65, Int.bmod_add_bmod]
  congr 1
  omega

theorem zero_toInt : (0 : Int64).toInt = 0 := by decide

theorem metadataSignatureAt_of_neg {m : GoBytes} {i : Int64} (h : i.toInt < 0) :
    ∃ e, metadataSignatureAt m i = .err e := by
  rw [metadataSignatureAt, if_pos (Int64.lt_iff_toInt_lt.mpr h)]
  exact ⟨_, rfl⟩

/-- A call whose end, as it is computed, is out of range. -/
theorem metadataSignatureAt_of_short {m : GoBytes} {i : Int64} (h0 : 0 ≤ i.toInt)
    (h : (m.length : Int) < (133 + 65 * i.toInt).bmod (2 ^ 64)) : ∃ e, metadataSignatureAt m i = .err e := by
  have hi : ¬ i < 0 := fun hi => absurd (zero_toInt ▸ Int64.lt_iff_toInt_lt.mp hi) (not_lt.mpr h0)
  rw [← (toInt_bounds i).2] at h
  rw [metadataSignatureAt, if_neg hi]
  simp only [requireLength, revertIf, if_pos h]
  exact ⟨_, rfl⟩

/-- A call whose end, as it is computed, is within the metadata. -/
theorem metadataSignatureAt_of_fits {m : GoBytes} {i : Int64} (h0 : 0 ≤ i.toInt)
    (h : (133 + 65 * i.toInt).bmod (2 ^ 64) ≤ m.length) :
    metadataSignatureAt m i = goSlice m (68 + i * 65) (68 + i * 65 + 65) := by
  have hi : ¬ i < 0 := fun hi => absurd (zero_toInt ▸ Int64.lt_iff_toInt_lt.mp hi) (not_lt.mpr h0)
  rw [← (toInt_bounds i).2, ← not_lt] at h
  rw [metadataSignatureAt, if_neg hi]
  simp only [requireLength, revertIf, if_neg h]

theorem goSlice_ne_err (b : GoBytes) (low high : Int64) (e : RuntimeError) : goSlice b low high ≠ .err e := by
  rw [goSlice]
  split <;> exact fun h => nomatch h

/-- The bytes between the computed bounds, where nothing wraps around. -/
theorem goSlice_bounds {m : GoBytes} {i : Int64} (h0 : 0 ≤ i.toInt) (h : 133 + 65 * i.toInt ≤ m.length)
    (hm : m.length < 2 ^ 63) :
    goSlice m (68 + i * 65) (68 + i * 65 + 65) =
      .value (slice m (68 + i.toInt.toNat * 65) (68 + (i.toInt.toNat + 1) * 65)) := by
  obtain ⟨hs, he⟩ := toInt_bounds i
  rw [Int.bmod_eq_of_le (by omega) (by omega)] at hs he
  have hb : 0 ≤ (68 + i * 65 : Int64) ∧ (68 + i * 65 : Int64) ≤ 68 + i * 65 + 65 ∧
      (68 + i * 65 + 65 : Int64).toInt ≤ m.length := by
    rw [Int64.le_iff_toInt_le, Int64.le_iff_toInt_le, hs, he, zero_toInt]
    omega
  rw [goSlice, if_pos hb, hs, he]
  congr 2 <;> omega

theorem slice_formatMetadata (hook : GoAddress) (root : GoBytes32) (index : UInt32) (signatures : GoBytes) (a b : Nat) :
    slice (formatMetadata hook root index signatures) (68 + a) (68 + b) = slice signatures a b := by
  have hl : ((addressToBytes32 hook).toList ++ (root.toList ++ Uint.bytes 4 index.toNat)).length = 68 := by simp
  have hf : formatMetadata hook root index signatures =
      ((addressToBytes32 hook).toList ++ (root.toList ++ Uint.bytes 4 index.toNat)) ++ signatures := by
    simp only [formatMetadata, List.append_assoc]
  rw [hf, slice_skip (by omega) (by omega), hl, Nat.add_sub_cancel_left, Nat.add_sub_cancel_left]

/-- Signatures are read back at each index, but for one that wraps around. -/
theorem signatureAt_iff {hook : GoAddress} {root : GoBytes32} {index : UInt32} {parts : List GoBytes}
    (hp : ∀ p ∈ parts, p.length = 65) (hfit : 68 + parts.flatten.length < 2 ^ 63) (i : Int64) :
    SignatureAt (formatMetadata hook root index parts.flatten) parts i ↔
      ¬ Wraps (68 + parts.flatten.length) i.toInt := by
  have hl := length_formatMetadata hook root index parts.flatten
  have hn := length_flatten_of_forall hp
  have hi := i.toInt_lt
  constructor
  · intro h ⟨h0, hbig, hw⟩
    obtain ⟨e, he⟩ := h.outside (by omega)
    rw [metadataSignatureAt_of_fits h0 (by omega)] at he
    exact goSlice_ne_err _ _ _ e he
  · intro h
    refine ⟨fun hlt h0 => ?_, fun hout => ?_⟩
    · have hend : 133 + 65 * i.toInt ≤ (formatMetadata hook root index parts.flatten).length := by omega
      have hsame : (133 + 65 * i.toInt).bmod (2 ^ 64) = 133 + 65 * i.toInt :=
        Int.bmod_eq_of_le (by omega) (by omega)
      rw [metadataSignatureAt_of_fits h0 (by omega), goSlice_bounds h0 hend (by omega), slice_formatMetadata,
        slice_flatten hp hlt]
    · by_cases h0 : i.toInt < 0
      · exact metadataSignatureAt_of_neg h0
      · refine metadataSignatureAt_of_short (by omega) ?_
        by_cases hbig : 2 ^ 63 ≤ 133 + 65 * i.toInt
        · rw [hl]
          exact not_le.mp fun hle => h ⟨by omega, hbig, hle⟩
        · rw [Int.bmod_eq_of_le (by omega) (by omega)]
          omega

/-- What is promised of the metadata for a string of signatures and of an index. -/
structure MetadataLaw (hook : GoAddress) (root : GoBytes32) (index : UInt32) (signatures : GoBytes)
    (i : Int64) : Prop where
  succeeds : (∃ m, metadata hook root index signatures = .ok m) ↔ Blob signatures
  reads (m : GoBytes) : metadata hook root index signatures = .ok m → Reads m hook root index
  signatureAt (m : GoBytes) (parts : List GoBytes) : metadata hook root index signatures = .ok m →
    (∀ p ∈ parts, p.length = 65) → parts.flatten = signatures →
    m.length = 68 + 65 * parts.length ∧ SignatureAt m parts i

/-- The metadata of a string of signatures, whose length is an `int`. It is made of the strings of
canonical signatures only, its fields are read back, and so is each signature at its index;
another index is refused, if and only if it does not wrap around. -/
theorem metadata_codec (hook : GoAddress) (root : GoBytes32) (index : UInt32) (signatures : GoBytes) (i : Int64)
    (hfit : 68 + signatures.length < 2 ^ 63) :
    MetadataLaw hook root index signatures i ↔ (Blob signatures → ¬ Wraps (68 + signatures.length) i.toInt) := by
  constructor
  · rintro h hb
    obtain ⟨parts, -, hc, rfl⟩ := id hb
    have hp : ∀ p ∈ parts, p.length = 65 := fun p hp => (hc p hp).length
    exact (signatureAt_iff hp hfit i).mp (h.signatureAt _ parts (metadata_eq_ok.mpr ⟨hb, rfl⟩) hp rfl).2
  · intro h
    refine ⟨⟨fun ⟨m, hm⟩ => (metadata_eq_ok.mp hm).1, fun hb => ⟨_, metadata_eq_ok.mpr ⟨hb, rfl⟩⟩⟩, fun m hm => ?_,
      fun m parts hm hp hf => ?_⟩
    · obtain ⟨-, rfl⟩ := metadata_eq_ok.mp hm
      exact reads_formatMetadata hook root index signatures
    · obtain ⟨hb, rfl⟩ := metadata_eq_ok.mp hm
      subst hf
      refine ⟨?_, (signatureAt_iff hp hfit i).mpr (h hb)⟩
      rw [length_formatMetadata, length_flatten_of_forall hp, Nat.mul_comm]

/-- A canonical signature: `r` and `s` are one. -/
def oneSignature : GoBytes := Uint.bytes 32 1 ++ Uint.bytes 32 1 ++ [27]

theorem canonical_oneSignature : Canonical oneSignature := by
  refine ⟨?_, ?_, ?_, ?_, ?_⟩ <;> decide +kernel

theorem metadata_codec_one : Blob oneSignature ∧ MetadataLaw zeroAddress zero32 5 oneSignature 0 := by
  refine ⟨⟨[oneSignature], List.cons_ne_nil _ _, ?_, List.flatten_singleton⟩,
    (metadata_codec _ _ _ _ _ ?_).mpr fun _ hw => ?_⟩
  · exact List.forall_mem_singleton.mpr canonical_oneSignature
  · decide +kernel
  · exact absurd hw.2.1 (by decide)

/-- The one signature again, and the bytes at an index at which there is none: they start within
the address of the hook. At another such index the call panics. -/
theorem signatureAt_wraps :
    metadata zeroAddress zero32 5 oneSignature = .ok (formatMetadata zeroAddress zero32 5 oneSignature) ∧
    metadataSignatureAt (formatMetadata zeroAddress zero32 5 oneSignature) 1135184250689818560 =
      .value (slice (formatMetadata zeroAddress zero32 5 oneSignature) 4 69) ∧
    metadataSignatureAt (formatMetadata zeroAddress zero32 5 oneSignature) 141898031336227319 = .panic ∧
    ¬ MetadataLaw zeroAddress zero32 5 oneSignature 1135184250689818560 := by
  have hb : Blob oneSignature :=
    ⟨[oneSignature], List.cons_ne_nil _ _, List.forall_mem_singleton.mpr canonical_oneSignature, List.flatten_singleton⟩
  refine ⟨metadata_eq_ok.mpr ⟨hb, rfl⟩, by decide +kernel, by decide +kernel, fun h => ?_⟩
  obtain ⟨e, he⟩ := (h.signatureAt _ [oneSignature] (metadata_eq_ok.mpr ⟨hb, rfl⟩)
    (List.forall_mem_singleton.mpr canonical_oneSignature.length) List.flatten_singleton).2.outside (.inr (by decide))
  have hv : metadataSignatureAt (formatMetadata zeroAddress zero32 5 oneSignature) 1135184250689818560 =
    .value (slice (formatMetadata zeroAddress zero32 5 oneSignature) 4 69) := by decide +kernel
  rw [hv] at he
  cases he

end Hyperlane

end Impl

end Xir
