import Xir.Impl.Contracts.XIREncoding

/-!
# The strings the protocol hashes

`Preimage` has one constructor for each purpose a hash of `XIREncoding` serves,
with the data hashed for it, and `Preimage.bytes` is the string. Its first bytes
tell the purpose (`purposeOf_bytes`), and the string determines the whole of the
data (`Preimage.bytes_inj`): typed ids carry their length, and every other field
has a fixed one. Each function of `XIREncoding` succeeds exactly on valid typed
ids, with the hash of its preimage (`recordHash_eq_ok`, …).
-/

namespace Xir

theorem be_append_inj {n v w : Nat} {x y : Bytes} (hv : v < 256 ^ n) (hw : w < 256 ^ n)
    (h : be n v ++ x = be n w ++ y) : v = w ∧ x = y := by
  obtain ⟨h₁, h₂⟩ := List.append_inj h (by simp)
  exact ⟨be_inj hv hw h₁, h₂⟩

theorem be8_append_inj {v w : UInt8} {x y : Bytes} (h : be 1 v.toNat ++ x = be 1 w.toNat ++ y) :
    v = w ∧ x = y :=
  (be_append_inj v.toNat_lt w.toNat_lt h).imp_left UInt8.toNat_inj.mp

theorem be32_append_inj {v w : UInt32} {x y : Bytes} (h : be 4 v.toNat ++ x = be 4 w.toNat ++ y) :
    v = w ∧ x = y :=
  (be_append_inj v.toNat_lt w.toNat_lt h).imp_left UInt32.toNat_inj.mp

theorem be64_append_inj {v w : UInt64} {x y : Bytes} (h : be 8 v.toNat ++ x = be 8 w.toNat ++ y) :
    v = w ∧ x = y :=
  (be_append_inj v.toNat_lt w.toNat_lt h).imp_left UInt64.toNat_inj.mp

end Xir

namespace Xir.Impl

/-! ## Typed ids -/

namespace TypedId

/-- An id that `encodeTypedId` accepts. -/
def Valid (id : TypedId) : Prop :=
  id.kind = EVM ∧ id.value.length = 20 ∨ id.kind = SOLANA ∧ id.value.length = 32

instance (id : TypedId) : Decidable id.Valid := inferInstanceAs (Decidable (_ ∨ _))

/-- The encoding of a valid id. -/
def packed (id : TypedId) : Bytes := be 1 id.kind.toNat ++ be 1 id.value.length ++ id.value

/-- A valid id, and what follows it. -/
theorem packed_append_inj {a b : TypedId} (ha : a.Valid) (hb : b.Valid) {x y : Bytes}
    (h : a.packed ++ x = b.packed ++ y) : a = b ∧ x = y := by
  obtain ⟨ka, va⟩ := a
  obtain ⟨kb, vb⟩ := b
  simp only [packed, List.append_assoc] at h
  obtain ⟨rfl, h₁⟩ := be8_append_inj h
  have hl : va.length = vb.length := by
    rcases ha with ⟨k₁, l₁⟩ | ⟨k₁, l₁⟩ <;> rcases hb with ⟨k₂, l₂⟩ | ⟨k₂, l₂⟩
    · exact l₁.trans l₂.symm
    · exact absurd (k₁.symm.trans k₂) (by decide)
    · exact absurd (k₁.symm.trans k₂) (by decide)
    · exact l₁.trans l₂.symm
  rw [hl] at h₁
  obtain ⟨rfl, rfl⟩ := List.append_inj (List.append_cancel_left h₁) hl
  exact ⟨rfl, rfl⟩

theorem packed_inj {a b : TypedId} (ha : a.Valid) (hb : b.Valid) (h : a.packed = b.packed) : a = b :=
  (packed_append_inj ha hb (congrArg (· ++ []) h)).1

end TypedId

/-- The EVM account, or gateway, with the address that starts with `b`. -/
def evmId (b : Byte) : TypedId := ⟨EVM, (BytesN.single b : Address).val⟩

theorem evmId_valid (b : Byte) : (evmId b).Valid := .inl ⟨rfl, BytesN.length_val _⟩

theorem evmId_inj {a b : Byte} : evmId a = evmId b ↔ a = b :=
  ⟨fun h => BytesN.single_inj.mp (BytesN.ext (congrArg TypedId.value h)), congrArg evmId⟩

def Record.Valid (r : Record) : Prop :=
  r.sourceGateway.Valid ∧ r.sourceApp.Valid ∧ r.destinationApp.Valid

def Receipt.Valid (r : Receipt) : Prop := r.srcGateway.Valid ∧ r.dstGateway.Valid

end Xir.Impl

namespace Xir.Proof

open Impl Impl.XIREncoding

/-! ## Preimages -/

/-- What a hash is for. -/
inductive Purpose
  | typedId
  | record
  | context
  | rootId
  | messageId
  | rootPrefix
  | transition
  | receipt
  | nextPrefix
  | bundleStart
  | bundleStep
  deriving DecidableEq

/-- What a hash is of. -/
inductive Preimage
  | typedId (id : TypedId)
  | record (record : Record)
  | context (context : VerifiedContext)
  | rootId (gateway : TypedId) (recordDigest contextDigest : Bytes32) (version : UInt32)
  | messageId (rid : Bytes32) (app : TypedId)
  | rootPrefix (rid : Bytes32)
  | transition (recordDigest contextDigest : Bytes32) (src dst : TypedId)
  | receipt (receipt : Receipt)
  | nextPrefix (prior receiptDigest : Bytes32)
  | bundleStart (count : Bytes32)
  | bundleStep (commitment index profileHash evidenceHash transitionDigest : Bytes32)

namespace Preimage

def bytes : Preimage → Bytes
  | typedId id => id.packed
  | record r => RECORD_TAG ++ r.sourceGateway.packed ++ r.sourceApp.packed ++ r.destinationApp.packed ++
      be 8 r.nonce.toNat ++ r.payloadHash.val
  | context c => CONTEXT_TAG ++ be 1 c.requiredSecurity.toNat ++ c.policyHash.val
  | rootId g r c v => RID_TAG ++ g.packed ++ r.val ++ c.val ++ be 4 v.toNat
  | messageId rid app => MID_TAG ++ rid.val ++ app.packed
  | rootPrefix rid => ROOT_TAG ++ rid.val
  | transition r c s d => TRANSITION_TAG ++ r.val ++ c.val ++ s.packed ++ d.packed
  | receipt r => HOP_TAG ++ r.priorPrefix.val ++ r.srcGateway.packed ++ r.dstGateway.packed ++
      r.profileHash.val ++ r.evidenceHash.val ++ r.transitionHash.val
  | nextPrefix p r => PREFIX_TAG ++ p.val ++ r.val
  | bundleStart n => Abi.encode [.dynamic (Abi.encodeBytes BUNDLE_TAG), .static n]
  | bundleStep c i p e t => Abi.encode [.dynamic (Abi.encodeBytes BUNDLE_STEP_TAG), .static c, .static i,
      .static p, .static e, .static t]

/-- The typed ids in it are valid. -/
def Valid : Preimage → Prop
  | typedId id => id.Valid
  | record r => r.Valid
  | rootId g _ _ _ => g.Valid
  | messageId _ app => app.Valid
  | transition _ _ s d => s.Valid ∧ d.Valid
  | receipt r => r.Valid
  | _ => True

def purpose : Preimage → Purpose
  | typedId _ => .typedId
  | record _ => .record
  | context _ => .context
  | rootId .. => .rootId
  | messageId .. => .messageId
  | rootPrefix _ => .rootPrefix
  | transition .. => .transition
  | receipt _ => .receipt
  | nextPrefix .. => .nextPrefix
  | bundleStart _ => .bundleStart
  | bundleStep .. => .bundleStep

end Preimage

/-- The purpose of a string, from its first bytes: a typed id starts with its kind,
1 or 2, the standard encodings with an offset, the others with a tag, which
differ in the letters after `XIR_`. -/
def purposeOf : Bytes → Purpose
  | 88 :: _ :: _ :: _ :: 82 :: 69 :: _ => .record
  | 88 :: _ :: _ :: _ :: 82 :: 73 :: _ => .rootId
  | 88 :: _ :: _ :: _ :: 82 :: _ => .rootPrefix
  | 88 :: _ :: _ :: _ :: 67 :: _ => .context
  | 88 :: _ :: _ :: _ :: 77 :: _ => .messageId
  | 88 :: _ :: _ :: _ :: 84 :: _ => .transition
  | 88 :: _ :: _ :: _ :: 72 :: _ => .receipt
  | 88 :: _ => .nextPrefix
  | 0 :: b => if b.getD 30 0 = 64 then .bundleStart else .bundleStep
  | _ => .typedId

theorem purposeOf_bytes {p : Preimage} (h : p.Valid) : purposeOf p.bytes = p.purpose := by
  cases p with
  | typedId id =>
    obtain ⟨k, v⟩ := id
    rcases h with ⟨rfl, -⟩ | ⟨rfl, -⟩ <;> rfl
  | record r =>
    rw [Preimage.bytes, show RECORD_TAG = [88, 73, 82, 95, 82, 69, 67, 79, 82, 68, 95, 86, 49] by decide]
    rfl
  | context c =>
    rw [Preimage.bytes, show CONTEXT_TAG = [88, 73, 82, 95, 67, 79, 78, 84, 69, 88, 84, 95, 86, 49] by decide]
    rfl
  | rootId g r c v =>
    rw [Preimage.bytes, show RID_TAG = [88, 73, 82, 95, 82, 73, 68, 95, 86, 49] by decide]
    rfl
  | messageId rid app =>
    rw [Preimage.bytes, show MID_TAG = [88, 73, 82, 95, 77, 73, 68, 95, 86, 49] by decide]
    rfl
  | rootPrefix rid =>
    rw [Preimage.bytes, show ROOT_TAG = [88, 73, 82, 95, 82, 79, 79, 84, 95, 86, 49] by decide]
    rfl
  | transition r c s d =>
    rw [Preimage.bytes, show TRANSITION_TAG = [88, 73, 82, 95, 84, 82, 65, 78, 83, 73, 84, 73, 79, 78, 95, 86, 49]
      by decide]
    rfl
  | receipt r =>
    rw [Preimage.bytes, show HOP_TAG = [88, 73, 82, 95, 72, 79, 80, 95, 86, 49] by decide]
    rfl
  | nextPrefix p r =>
    rw [Preimage.bytes, show PREFIX_TAG = [88, 73, 82, 95, 80, 82, 69, 70, 73, 88, 95, 86, 49] by decide]
    rfl
  | bundleStart n =>
    rw [Preimage.bytes, Abi.encode_dynamic (by simp)]
    rfl
  | bundleStep c i p e t =>
    rw [Preimage.bytes, Abi.encode_dynamic (by simp)]
    rfl

namespace Preimage

/-- A preimage's string determines it. -/
theorem bytes_inj {p q : Preimage} (hp : p.Valid) (hq : q.Valid) (h : p.bytes = q.bytes) : p = q := by
  have hpq : p.purpose = q.purpose := by rw [← purposeOf_bytes hp, ← purposeOf_bytes hq, h]
  cases p <;> cases q <;> cases hpq <;> simp only [bytes, List.append_assoc, List.append_cancel_left_eq] at h
  case typedId a b => rw [TypedId.packed_inj hp hq h]
  case record a b =>
    obtain ⟨h₁, h⟩ := TypedId.packed_append_inj hp.1 hq.1 h
    obtain ⟨h₂, h⟩ := TypedId.packed_append_inj hp.2.1 hq.2.1 h
    obtain ⟨h₃, h⟩ := TypedId.packed_append_inj hp.2.2 hq.2.2 h
    obtain ⟨h₄, h⟩ := be64_append_inj h
    obtain ⟨_, _, _, _, _⟩ := a
    obtain ⟨_, _, _, _, _⟩ := b
    simp only [BytesN.val_inj] at h₁ h₂ h₃ h₄ h
    rw [h₁, h₂, h₃, h₄, h]
  case context a b =>
    obtain ⟨h₁, h⟩ := be8_append_inj h
    obtain ⟨_, _⟩ := a
    obtain ⟨_, _⟩ := b
    simp only [BytesN.val_inj] at h₁ h
    rw [h₁, h]
  case rootId =>
    obtain ⟨h₁, h⟩ := TypedId.packed_append_inj hp hq h
    obtain ⟨h₂, h⟩ := BytesN.append_inj h
    obtain ⟨h₃, h⟩ := BytesN.append_inj h
    obtain ⟨h₄, -⟩ := be32_append_inj (congrArg (· ++ []) h)
    rw [h₁, h₂, h₃, h₄]
  case messageId =>
    obtain ⟨h₁, h⟩ := BytesN.append_inj h
    rw [h₁, TypedId.packed_inj hp hq h]
  case rootPrefix => rw [BytesN.ext h]
  case transition =>
    obtain ⟨h₁, h⟩ := BytesN.append_inj h
    obtain ⟨h₂, h⟩ := BytesN.append_inj h
    obtain ⟨h₃, h⟩ := TypedId.packed_append_inj hp.1 hq.1 h
    rw [h₁, h₂, h₃, TypedId.packed_inj hp.2 hq.2 h]
  case receipt a b =>
    obtain ⟨h₁, h⟩ := BytesN.append_inj h
    obtain ⟨h₂, h⟩ := TypedId.packed_append_inj hp.1 hq.1 h
    obtain ⟨h₃, h⟩ := TypedId.packed_append_inj hp.2 hq.2 h
    obtain ⟨h₄, h⟩ := BytesN.append_inj h
    obtain ⟨h₅, h⟩ := BytesN.append_inj h
    obtain ⟨_, _, _, _, _, _⟩ := a
    obtain ⟨_, _, _, _, _, _⟩ := b
    simp only [BytesN.val_inj] at h₁ h₂ h₃ h₄ h₅ h
    rw [h₁, h₂, h₃, h₄, h₅, h]
  case nextPrefix =>
    obtain ⟨h₁, h⟩ := BytesN.append_inj h
    rw [h₁, BytesN.ext h]
  case bundleStart =>
    simp only [Abi.encode, Abi.heads, List.append_assoc, List.append_cancel_left_eq, List.length_cons] at h
    rw [(BytesN.append_inj h).1]
  case bundleStep =>
    simp only [Abi.encode, Abi.heads, List.append_assoc, List.append_cancel_left_eq, List.length_cons] at h
    obtain ⟨h₁, h⟩ := BytesN.append_inj h
    obtain ⟨h₂, h⟩ := BytesN.append_inj h
    obtain ⟨h₃, h⟩ := BytesN.append_inj h
    obtain ⟨h₄, h⟩ := BytesN.append_inj h
    rw [h₁, h₂, h₃, h₄, (BytesN.append_inj h).1]

variable [Keccak]

/-- The digest of a preimage. -/
def hash (p : Preimage) : Bytes32 := keccak256 p.bytes

theorem hash_inj (hk : Function.Injective keccak256) {p q : Preimage} (hp : p.Valid) (hq : q.Valid)
    (h : p.hash = q.hash) : p = q :=
  bytes_inj hp hq (hk h)

end Preimage

/-! ## The functions of the library -/

theorem encodeTypedId_eq_ok {id : TypedId} {b : Bytes} :
    encodeTypedId id = .ok b ↔ id.Valid ∧ id.packed = b := by
  obtain ⟨k, v⟩ := id
  simp only [encodeTypedId, revertIf_bind, pure_eq_ok, TypedId.Valid, TypedId.packed]
  refine and_congr ?_ Iff.rfl
  by_cases h₁ : k = EVM
  · subst h₁
    simp [show EVM ≠ SOLANA by decide]
  · by_cases h₂ : k = SOLANA
    · subst h₂
      simp [show SOLANA ≠ EVM by decide]
    · simp [h₁, h₂]

/-- An encoding, and what is computed from it. -/
theorem encodeTypedId_bind {α : Type} {id : TypedId} {f : Bytes → Except Revert α} {a : α} :
    (encodeTypedId id >>= f) = .ok a ↔ id.Valid ∧ f id.packed = .ok a := by
  simp only [bind_eq_ok, encodeTypedId_eq_ok]
  exact ⟨fun ⟨_, ⟨hv, hb⟩, hf⟩ => ⟨hv, hb ▸ hf⟩, fun ⟨hv, hf⟩ => ⟨_, ⟨hv, rfl⟩, hf⟩⟩

section Functions

variable [Keccak] {d : Bytes32}

theorem typedIdHash_eq_ok {id : TypedId} :
    typedIdHash id = .ok d ↔ id.Valid ∧ (Preimage.typedId id).hash = d := by
  simp only [typedIdHash, encodeTypedId_bind, pure_eq_ok, Preimage.hash, Preimage.bytes]

theorem recordHash_eq_ok {r : Record} :
    recordHash r = .ok d ↔ r.Valid ∧ (Preimage.record r).hash = d := by
  simp only [recordHash, encodeTypedId_bind, pure_eq_ok, Record.Valid, Preimage.hash, Preimage.bytes, and_assoc]

theorem rootId_eq_ok {g : TypedId} {r c : Bytes32} {v : UInt32} :
    rootId g r c v = .ok d ↔ g.Valid ∧ (Preimage.rootId g r c v).hash = d := by
  simp only [rootId, encodeTypedId_bind, pure_eq_ok, Preimage.hash, Preimage.bytes]

theorem messageId_eq_ok {rid : Bytes32} {app : TypedId} :
    messageId rid app = .ok d ↔ app.Valid ∧ (Preimage.messageId rid app).hash = d := by
  simp only [messageId, encodeTypedId_bind, pure_eq_ok, Preimage.hash, Preimage.bytes]

theorem transitionHash_eq_ok {r c : Bytes32} {src dst : TypedId} :
    transitionHash r c src dst = .ok d ↔
      (src.Valid ∧ dst.Valid) ∧ (Preimage.transition r c src dst).hash = d := by
  simp only [transitionHash, encodeTypedId_bind, pure_eq_ok, Preimage.hash, Preimage.bytes, and_assoc]

theorem receiptHash_eq_ok {r : Receipt} :
    receiptHash r = .ok d ↔ r.Valid ∧ (Preimage.receipt r).hash = d := by
  simp only [receiptHash, encodeTypedId_bind, pure_eq_ok, Receipt.Valid, Preimage.hash, Preimage.bytes, and_assoc]

end Functions

end Xir.Proof
