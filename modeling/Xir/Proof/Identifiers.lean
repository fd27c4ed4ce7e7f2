import Xir.Proof.Agreement

/-!
# Which typed ids the encoders accept

The contract and Go accept the ids of a known kind and of its length
(`GoXir.typedIDBytes_eq_ok`). Python compares the length of the value with that
of its kind, which is zero for an unknown kind, and so also accepts the empty
value of an unknown kind (`XirTrace.encodeTypedId_eq_ok`). Ids of any other form
are accepted by all three or by none, and one that is accepted by none occurs in
no hash that Go or Python computes (`encoders_agree`).
-/

namespace Xir.Impl

open Proof

/-- An id of a kind that the contract does not know, with no value. -/
def TypedId.Blank (id : TypedId) : Prop := id.value = [] ∧ id.kind ≠ EVM ∧ id.kind ≠ SOLANA

/-- The length of the value of a known kind, zero for any other. -/
def expectedLength (k : UInt8) : Nat := if k = EVM then 20 else if k = SOLANA then 32 else 0

theorem expectedLength_of_unknown {k : UInt8} (h₁ : k ≠ EVM) (h₂ : k ≠ SOLANA) : expectedLength k = 0 := by
  rw [expectedLength, if_neg h₁, if_neg h₂]

theorem valid_of_length {id : TypedId} (h₀ : expectedLength id.kind ≠ 0)
    (hl : id.value.length = expectedLength id.kind) : id.Valid := by
  by_cases h₁ : id.kind = EVM
  · rw [h₁] at hl
    exact .inl ⟨h₁, hl⟩
  · by_cases h₂ : id.kind = SOLANA
    · rw [h₂] at hl
      exact .inr ⟨h₂, hl⟩
    · exact absurd (expectedLength_of_unknown h₁ h₂) h₀

theorem GoXir.typedIDBytes_eq_ok {id : TypedId} {b : Bytes} :
    typedIDBytes id = .ok b ↔ id.Valid ∧ id.packed = b := by
  constructor
  · intro h
    have hv : id.Valid := by
      by_contra hv
      have hc : expectedLength id.kind = 0 ∨ id.value.length ≠ expectedLength id.kind := by
        by_contra hc
        obtain ⟨h₀, hl⟩ := not_or.mp hc
        exact hv (valid_of_length h₀ (not_not.mp hl))
      have herr : typedIDBytes id = .error _ := if_pos hc
      cases herr.symm.trans h
    rw [typedIDBytes_of_valid hv] at h
    exact ⟨hv, Except.ok.inj h⟩
  · rintro ⟨hv, rfl⟩
    exact typedIDBytes_of_valid hv

namespace XirTrace

theorem encodeTypedId_eq {k : UInt8} {v b : Bytes} :
    encodeTypedId (ofTypedId ⟨k, v⟩) = .ok b ↔
      v.length = expectedLength k ∧ ∃ c, bytesOf [(k.toNat : Int), v.length] = .ok c ∧ c ++ v = b := by
  have hk (j : UInt8) : (k.toNat : Int) = j.toNat ↔ k = j := by
    rw [Int.natCast_inj, UInt8.toNat_inj]
  have hl : (if (k.toNat : Int) = 1 then 20 else if (k.toNat : Int) = 2 then 32 else 0) = expectedLength k := by
    unfold expectedLength
    exact if_congr (hk 1) rfl (if_congr (hk 2) rfl rfl)
  show (revertIf (v.length ≠ _) _ >>= _) = _ ↔ _
  rw [hl, revertIf_bind, not_not, bind_eq_ok]
  simp only [pure_eq_ok]

theorem encodeTypedId_of_blank {id : Impl.TypedId} (h : id.Blank) : encodeTypedId (ofTypedId id) = .ok id.packed := by
  obtain ⟨k, v⟩ := id
  obtain ⟨rfl, h₁, h₂⟩ : v = [] ∧ k ≠ 1 ∧ k ≠ 2 := h
  have hk : k.toNat < 256 := k.toNat_lt
  have hb : bytesOf [(k.toNat : Int), 0] = .ok [k.toNat, 0] := by
    rw [bytesOf, if_pos (by simp; omega)]
    rfl
  have hp : Impl.TypedId.packed ⟨k, []⟩ = [k.toNat, 0] := by
    simp [Impl.TypedId.packed, be, Nat.mod_eq_of_lt hk]
  have hl : 0 = expectedLength k := (expectedLength_of_unknown h₁ h₂).symm
  rw [hp]
  exact encodeTypedId_eq.mpr ⟨hl, _, hb, rfl⟩

theorem encodeTypedId_eq_ok {id : Impl.TypedId} {b : Bytes} :
    encodeTypedId (ofTypedId id) = .ok b ↔ (id.Valid ∨ id.Blank) ∧ id.packed = b := by
  constructor
  · intro h
    have hv : id.Valid ∨ id.Blank := by
      obtain ⟨k, v⟩ := id
      obtain ⟨hl, -⟩ := encodeTypedId_eq.mp h
      by_cases h₀ : expectedLength k = 0
      · have h₁ : k ≠ EVM := fun h => by simp [h, expectedLength] at h₀
        have h₂ : k ≠ SOLANA := fun h => by simp [h, expectedLength, EVM, SOLANA] at h₀
        exact .inr ⟨List.eq_nil_of_length_eq_zero (hl.trans h₀), h₁, h₂⟩
      · exact .inl (valid_of_length h₀ hl)
    have hp : encodeTypedId (ofTypedId id) = .ok id.packed := hv.elim encodeTypedId_of_valid encodeTypedId_of_blank
    exact ⟨hv, Except.ok.inj (hp.symm.trans h)⟩
  · rintro ⟨hv, rfl⟩
    exact hv.elim encodeTypedId_of_valid encodeTypedId_of_blank

end XirTrace

end Xir.Impl

namespace Xir.Proof

open Impl Impl.XIREncoding

/-- All three encoders accept an id, as the same bytes, or all reject it. -/
def EncodersAgree (id : TypedId) : Prop :=
  (∃ b, encodeTypedId id = .ok b ∧ GoXir.typedIDBytes id = .ok b ∧
      XirTrace.encodeTypedId (XirTrace.ofTypedId id) = .ok b) ∨
    ∀ b, encodeTypedId id ≠ .ok b ∧ GoXir.typedIDBytes id ≠ .ok b ∧
      XirTrace.encodeTypedId (XirTrace.ofTypedId id) ≠ .ok b

variable [Keccak]

/-- No record hash, root id, transition or receipt hash is computed from an id by Go or by Python. -/
structure Unusable (id : TypedId) : Prop where
  goRecord {r d} : id ∈ [r.sourceGateway, r.sourceApp, r.destinationApp] → GoXir.recordHash r ≠ .ok d
  goRoot {r c v d} : id ∈ [r.sourceGateway, r.sourceApp, r.destinationApp] → GoXir.rootID r c v ≠ .ok d
  goTransition {r c s t d} : id ∈ [r.sourceGateway, r.sourceApp, r.destinationApp, s, t] →
    GoXir.transitionHash r c s t ≠ .ok d
  goReceipt {r d} : id ∈ [r.srcGateway, r.dstGateway] → GoXir.receiptHash r ≠ .ok d
  pyRecord {r d} : XirTrace.ofTypedId id ∈ [r.sourceGateway, r.sourceApp, r.destinationApp] →
    XirTrace.recordHash r ≠ .ok d
  pyRoot {r c v d} : XirTrace.ofTypedId id ∈ [r.sourceGateway, r.sourceApp, r.destinationApp] →
    XirTrace.rootId r c v ≠ .ok d
  pyTransition {r c s t d} : XirTrace.ofTypedId id ∈ [r.sourceGateway, r.sourceApp, r.destinationApp, s, t] →
    XirTrace.transitionHash r c s t ≠ .ok d
  pyReceipt {r d} : XirTrace.ofTypedId id ∈ [r.sourceGateway, r.destinationGateway] → XirTrace.receiptHash r ≠ .ok d

theorem go_recordHash_ids {r : Record} {d : Bytes32} (h : GoXir.recordHash r = .ok d) :
    ∀ id ∈ [r.sourceGateway, r.sourceApp, r.destinationApp], ∃ b, GoXir.typedIDBytes id = .ok b := by
  simp only [GoXir.recordHash, bind_eq_ok] at h
  obtain ⟨_, h₁, _, h₂, _, h₃, -⟩ := h
  simp only [List.forall_mem_cons]
  exact ⟨⟨_, h₁⟩, ⟨_, h₂⟩, ⟨_, h₃⟩, List.forall_mem_nil _⟩

theorem py_recordHash_ids {r : XirTrace.XIRRecord} {d : Bytes} (h : XirTrace.recordHash r = .ok d) :
    ∀ id ∈ [r.sourceGateway, r.sourceApp, r.destinationApp], ∃ b, XirTrace.encodeTypedId id = .ok b := by
  simp only [XirTrace.recordHash, bind_eq_ok] at h
  obtain ⟨_, h₁, _, h₂, _, h₃, -⟩ := h
  simp only [List.forall_mem_cons]
  exact ⟨⟨_, h₁⟩, ⟨_, h₂⟩, ⟨_, h₃⟩, List.forall_mem_nil _⟩

/-- Encoders that reject an id compute nothing from it. -/
theorem unusable_of_rejected {id : TypedId} (hg : ∀ b, GoXir.typedIDBytes id ≠ .ok b)
    (hp : ∀ b, XirTrace.encodeTypedId (XirTrace.ofTypedId id) ≠ .ok b) : Unusable id where
  goRecord hm h := by
    obtain ⟨b, hb⟩ := go_recordHash_ids h id hm
    exact hg b hb
  goRoot hm h := by
    obtain ⟨_, hr, -⟩ := bind_eq_ok.mp h
    obtain ⟨b, hb⟩ := go_recordHash_ids hr id hm
    exact hg b hb
  goTransition {r _ s t _} hm h := by
    simp only [GoXir.transitionHash, bind_eq_ok] at h
    obtain ⟨_, hr, _, hs, _, ht, -⟩ := h
    rcases List.mem_append.mp (show id ∈ [r.sourceGateway, r.sourceApp, r.destinationApp] ++ [s, t] from hm)
      with hm | hm
    · obtain ⟨b, hb⟩ := go_recordHash_ids hr id hm
      exact hg b hb
    · rcases List.mem_pair.mp hm with rfl | rfl
      · exact hg _ hs
      · exact hg _ ht
  goReceipt hm h := by
    simp only [GoXir.receiptHash, bind_eq_ok] at h
    obtain ⟨_, hs, _, ht, -⟩ := h
    rcases List.mem_pair.mp hm with rfl | rfl
    · exact hg _ hs
    · exact hg _ ht
  pyRecord hm h := by
    obtain ⟨b, hb⟩ := py_recordHash_ids h _ hm
    exact hp b hb
  pyRoot hm h := by
    simp only [XirTrace.rootId, bind_eq_ok] at h
    obtain ⟨_, -, _, hr, -⟩ := h
    obtain ⟨b, hb⟩ := py_recordHash_ids hr _ hm
    exact hp b hb
  pyTransition {r _ s t _} hm h := by
    simp only [XirTrace.transitionHash, bind_eq_ok] at h
    obtain ⟨_, hr, _, -, _, hs, _, ht, -⟩ := h
    rcases List.mem_append.mp
      (show XirTrace.ofTypedId id ∈ [r.sourceGateway, r.sourceApp, r.destinationApp] ++ [s, t] from hm) with hm | hm
    · obtain ⟨b, hb⟩ := py_recordHash_ids hr _ hm
      exact hp b hb
    · rcases List.mem_pair.mp hm with rfl | rfl
      · exact hp _ hs
      · exact hp _ ht
  pyReceipt hm h := by
    simp only [XirTrace.receiptHash, bind_eq_ok] at h
    obtain ⟨_, hs, _, ht, -⟩ := h
    rcases List.mem_pair.mp hm with heq | heq
    · exact hp _ (heq ▸ hs)
    · exact hp _ (heq ▸ ht)

/-- The encoders agree on an id, and compute nothing from one that the contract rejects, exactly if
it has a value or a kind that the contract knows. -/
theorem encoders_agree (id : TypedId) :
    (EncodersAgree id ∧ ((∀ b, encodeTypedId id ≠ .ok b) → Unusable id)) ↔
      id.value ≠ [] ∨ id.kind = EVM ∨ id.kind = SOLANA := by
  constructor
  · rintro ⟨ha, -⟩
    by_contra hc
    rw [not_or, not_or, not_not] at hc
    -- Python accepts it, the contract does not
    have hp : XirTrace.encodeTypedId (XirTrace.ofTypedId id) = .ok id.packed := XirTrace.encodeTypedId_of_blank hc
    rcases ha with ⟨b, hs, -⟩ | hr
    · rcases (encodeTypedId_eq_ok.mp hs).1 with h | h
      · exact hc.2.1 h.1
      · exact hc.2.2 h.1
    · exact (hr _).2.2 hp
  · intro hc
    have hb : ¬ id.Blank := fun h => by
      rcases hc with hc | hc | hc
      · exact hc h.1
      · exact h.2.1 hc
      · exact h.2.2 hc
    have hp {b : Bytes} (h : XirTrace.encodeTypedId (XirTrace.ofTypedId id) = .ok b) : id.Valid :=
      (XirTrace.encodeTypedId_eq_ok.mp h).1.resolve_right hb
    by_cases hv : id.Valid
    · have hs : encodeTypedId id = .ok id.packed := encodeTypedId_eq_ok.mpr ⟨hv, rfl⟩
      exact ⟨.inl ⟨_, hs, GoXir.typedIDBytes_of_valid hv, XirTrace.encodeTypedId_of_valid hv⟩, fun h => absurd hs (h _)⟩
    · have hg (b : Bytes) : GoXir.typedIDBytes id ≠ .ok b := fun h => hv (GoXir.typedIDBytes_eq_ok.mp h).1
      exact ⟨.inr fun b => ⟨fun h => hv (encodeTypedId_eq_ok.mp h).1, hg b, fun h => hv (hp h)⟩,
        fun _ => unusable_of_rejected hg fun b h => hv (hp h)⟩

omit [Keccak] in
/-- The empty id of kind 0, of which Python makes a record hash. -/
theorem blank_id_encoded :
    let _ := idealKeccak
    let id : TypedId := ⟨0, []⟩
    (∀ b, encodeTypedId id ≠ .ok b) ∧ (∀ b, GoXir.typedIDBytes id ≠ .ok b) ∧
      XirTrace.encodeTypedId (XirTrace.ofTypedId id) = .ok [0, 0] ∧
      ∃ d, XirTrace.recordHash ⟨XirTrace.ofTypedId (evmId 1), XirTrace.ofTypedId (evmId 2), XirTrace.ofTypedId id, 0,
        List.replicate 32 0⟩ = .ok d := by
  let _ := idealKeccak
  have hblank : XirTrace.encodeTypedId (XirTrace.ofTypedId ⟨0, []⟩) = .ok [0, 0] :=
    XirTrace.encodeTypedId_of_blank ⟨rfl, by decide, by decide⟩
  have hid (n : Nat) : XirTrace.encodeTypedId (XirTrace.ofTypedId (evmId n)) = .ok (evmId n).packed :=
    XirTrace.encodeTypedId_of_valid (evmId_valid n)
  have hn : XirTrace.toBytes 0 8 = .ok (be 8 0) := by simp [XirTrace.toBytes]
  refine ⟨fun _ h => absurd (encodeTypedId_eq_ok.mp h).1 (by decide),
    fun _ h => absurd (GoXir.typedIDBytes_eq_ok.mp h).1 (by decide), hblank, ?_⟩
  simp only [XirTrace.recordHash, bind_eq_ok, pure_eq_ok]
  exact ⟨_, _, hid 1, _, hid 2, _, hblank, _, hn, rfl⟩

end Xir.Proof
