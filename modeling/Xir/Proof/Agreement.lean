import Xir.Impl.GoRuntime.Xir
import Xir.Impl.XirLab.XirTrace
import Xir.Proof.Binding

/-!
# The three implementations of the encodings

`XIREncoding.sol`, `xir.go` and `xir_trace.py` hash the same strings: a function
of Go or Python, of valid typed ids, returns the hash of the preimage that
`Proof/Encoding.lean` gives of its contract's function. Go writes integers byte
by byte (`putBytes_eq`), and both write the standard encodings of a bundle's
strings out as words. `encodings_agree` says that all digests are the same.
-/

namespace Xir.Impl.GoXir

open Proof

/-! ## Go -/

theorem putBytes_eq : ∀ (count : Nat) (out : Bytes) (value start : Nat), start + count ≤ out.length →
    putBytes out value (start + count - 1) count =
      out.take start ++ (be count value ++ out.drop (start + count))
  | 0, out, value, start, _ => by simp [putBytes, be]
  | count + 1, out, value, start, h => by
    have hlt : start + count < out.length := h
    have htake : (out.set (start + count) (value % 256)).take start = out.take start := by
      rw [List.take_set, List.set_eq_of_length_le (by rw [List.length_take]; omega)]
    have hdrop : (out.set (start + count) (value % 256)).drop (start + count) =
        value % 256 :: out.drop (start + (count + 1)) := by
      rw [List.drop_eq_getElem_cons (by rwa [List.length_set]), List.getElem_set_self,
        List.drop_set_of_lt (Nat.lt_succ_self _)]
      rfl
    rw [putBytes, show start + (count + 1) - 1 = start + count from rfl, Nat.shiftRight_eq_div_pow,
      putBytes_eq count _ _ start (by rw [List.length_set]; omega), be, htake, hdrop, List.append_assoc]
    rfl

theorem uint64Bytes_eq (v : UInt64) : uint64Bytes v = be 8 v.toNat := by
  have h := putBytes_eq 8 (List.replicate 8 0) v.toNat 0 (by decide)
  simpa [uint64Bytes] using h

theorem uint32Bytes_eq (v : UInt32) : uint32Bytes v = be 4 v.toNat := by
  have h := putBytes_eq 4 (List.replicate 4 0) v.toNat 0 (by decide)
  simpa [uint32Bytes] using h

/-- A word is eight bytes after 24 zeros. -/
theorem word_eq {n : Nat} (h : n < 2 ^ 64) : word (UInt64.ofNat n) = (Xir.word n).val := by
  have hw : putBytes (List.replicate 32 0) n 31 8 =
      (List.replicate 32 0).take 24 ++ (be 8 n ++ (List.replicate 32 0).drop 32) :=
    putBytes_eq 8 (List.replicate 32 0) n 24 (by decide)
  have hb : be 32 n = List.replicate 24 0 ++ be 8 n := by
    have hq : n / 256 ^ 8 = 0 := Nat.div_eq_of_lt (h.trans_eq (by norm_num))
    rw [show (32 : Nat) = 24 + 8 from rfl, be_add, hq, be_zero]
  rw [word, UInt64.toNat_ofNat_of_lt' h, hw]
  refine Eq.trans ?_ hb.symm
  rw [List.take_replicate, List.drop_replicate, List.replicate_zero, List.append_nil]
  rfl

theorem rightPad_eq (b : Bytes) : rightPad b = b ++ List.replicate ((32 - b.length % 32) % 32) 0 := by
  unfold rightPad
  split
  · next h => simp [h]
  · have : (32 - b.length % 32) % 32 = 32 - b.length % 32 := Nat.mod_eq_of_lt (by omega)
    rw [this]

theorem typedIDBytes_of_valid {t : TypedId} (h : t.Valid) : typedIDBytes t = .ok t.packed := by
  obtain ⟨k, v⟩ := t
  rcases h with ⟨rfl, hv⟩ | ⟨rfl, hv⟩ <;>
  · simp only at hv
    simp [typedIDBytes, TypedId.packed, KindEVM, KindSolana, EVM, SOLANA, hv, be]

section

variable [Keccak]

theorem typedIDHash_of_valid {t : TypedId} (h : t.Valid) : typedIDHash t = .ok (Preimage.typedId t).hash := by
  rw [typedIDHash, typedIDBytes_of_valid h]
  rfl

theorem recordHash_of_valid {r : Record} (h : r.Valid) : recordHash r = .ok (Preimage.record r).hash := by
  rw [recordHash, typedIDBytes_of_valid h.1, typedIDBytes_of_valid h.2.1, typedIDBytes_of_valid h.2.2, uint64Bytes_eq]
  rfl

theorem contextHash_eq (c : VerifiedContext) : contextHash c = (Preimage.context c).hash := by
  have : be 1 c.requiredSecurity.toNat = [c.requiredSecurity.toNat] := be_of_lt c.requiredSecurity.toNat_lt
  rw [contextHash, Preimage.hash, Preimage.bytes, this]
  rfl

theorem receiptHash_of_valid {r : Receipt} (h : r.Valid) : receiptHash r = .ok (Preimage.receipt r).hash := by
  rw [receiptHash, typedIDBytes_of_valid h.1, typedIDBytes_of_valid h.2]
  rfl

theorem rootID_of_valid {r : Record} (h : r.Valid) (c : VerifiedContext) (v : UInt32) :
    rootID r c v = .ok (Preimage.rootId r.sourceGateway (Preimage.record r).hash (Preimage.context c).hash v).hash := by
  rw [rootID, recordHash_of_valid h, typedIDBytes_of_valid h.1, contextHash_eq, uint32Bytes_eq]
  rfl

theorem messageID_of_valid {t : TypedId} (h : t.Valid) (rid : Bytes32) :
    messageID rid t = .ok (Preimage.messageId rid t).hash := by
  rw [messageID, typedIDBytes_of_valid h]
  rfl

theorem transitionHash_of_valid {r : Record} {s d : TypedId} (h : r.Valid) (hs : s.Valid) (hd : d.Valid)
    (c : VerifiedContext) : transitionHash r c s d =
      .ok (Preimage.transition (Preimage.record r).hash (Preimage.context c).hash s d).hash := by
  rw [transitionHash, recordHash_of_valid h, typedIDBytes_of_valid hs, typedIDBytes_of_valid hd, contextHash_eq]
  rfl

theorem nextPrefix_of_valid {r : Receipt} (h : r.Valid) (p : Bytes32) :
    nextPrefix p r = .ok (Preimage.nextPrefix p (Preimage.receipt r).hash).hash := by
  rw [nextPrefix, receiptHash_of_valid h]
  rfl

theorem bundleStart_eq {n : Nat} (h : n < 2 ^ 63) : bundleStart n = .ok (Preimage.bundleStart (Xir.word n)).hash := by
  rw [bundleStart, if_neg (by omega), Int.toNat_natCast, word_eq (by omega),
    show (64 : UInt64) = UInt64.ofNat 64 from rfl, word_eq (by decide), word_eq (by decide), rightPad_eq]
  simp only [Preimage.hash, Preimage.bytes, Abi.encode, Abi.heads, Abi.tails, Abi.encodeBytes, List.append_assoc,
    List.append_nil]
  rfl

theorem bundleStep_eq {n : Nat} (h : n < 2 ^ 63) (c : Bytes32) (r : Receipt) : bundleStep c n r =
    .ok (Preimage.bundleStep c (Xir.word n) r.profileHash r.evidenceHash r.transitionHash).hash := by
  rw [bundleStep, if_neg (by omega), Int.toNat_natCast, word_eq (by omega),
    show (192 : UInt64) = UInt64.ofNat 192 from rfl, word_eq (by decide), word_eq (by decide), rightPad_eq]
  simp only [Preimage.hash, Preimage.bytes, Abi.encode, Abi.heads, Abi.tails, Abi.encodeBytes, List.append_assoc,
    List.append_nil]
  rfl

end

end Xir.Impl.GoXir

namespace Xir.Impl.XirTrace

open Proof
open XIREncoding (ascii)

/-! ## Python -/

/-- A typed id, a record, … of the contracts as `xir_trace.py` holds it. -/
def ofTypedId (t : Impl.TypedId) : TypedId := (t.kind.toNat, t.value)

def XIRRecord.of (r : Record) : XIRRecord where
  sourceGateway := ofTypedId r.sourceGateway
  sourceApp := ofTypedId r.sourceApp
  destinationApp := ofTypedId r.destinationApp
  nonce := r.nonce.toNat
  payloadHash := r.payloadHash.val

def XIRContext.of (c : VerifiedContext) : XIRContext where
  requiredSecurity := c.requiredSecurity.toNat
  policyHash := c.policyHash.val

def XIRReceipt.of (r : Receipt) : XIRReceipt where
  sourceGateway := ofTypedId r.srcGateway
  destinationGateway := ofTypedId r.dstGateway
  profileHash := r.profileHash.val
  evidenceHash := r.evidenceHash.val
  transitionHash := r.transitionHash.val
  priorPrefix := r.priorPrefix.val

theorem toBytes_of_lt {n length : Nat} (h : n < 256 ^ length) : toBytes n length = .ok (be length n) := by
  rw [toBytes, if_neg (by omega), Int.toNat_natCast, if_neg (by omega)]

theorem toBytes_uint8 (v : UInt8) : toBytes v.toNat 1 = .ok (be 1 v.toNat) := toBytes_of_lt v.toNat_lt

theorem toBytes_uint32 (v : UInt32) : toBytes v.toNat 4 = .ok (be 4 v.toNat) := toBytes_of_lt v.toNat_lt

theorem toBytes_uint64 (v : UInt64) : toBytes v.toNat 8 = .ok (be 8 v.toNat) := toBytes_of_lt v.toNat_lt

theorem toBytes_word {n : Nat} (h : n < 2 ^ 63) : toBytes n 32 = .ok (Xir.word n).val :=
  toBytes_of_lt (h.trans (by decide))

theorem encodeTypedId_of_valid {t : Impl.TypedId} (h : t.Valid) : encodeTypedId (ofTypedId t) = .ok t.packed := by
  obtain ⟨k, v⟩ := t
  rcases h with ⟨rfl, hv⟩ | ⟨rfl, hv⟩ <;>
  · simp only at hv
    simp [encodeTypedId, ofTypedId, bytesOf, Impl.TypedId.packed, EVM, SOLANA, hv, be, revertIf, ok_bind, pure,
      Except.pure]

section

variable [Keccak]

theorem recordHash_of_valid {r : Record} (h : r.Valid) : recordHash (.of r) = .ok (Preimage.record r).hash.val := by
  simp only [recordHash, XIRRecord.of, encodeTypedId_of_valid h.1, encodeTypedId_of_valid h.2.1,
    encodeTypedId_of_valid h.2.2, toBytes_uint64, ok_bind]
  rfl

theorem contextHash_eq (c : VerifiedContext) : contextHash (.of c) = .ok (Preimage.context c).hash.val := by
  simp only [contextHash, XIRContext.of, toBytes_uint8, ok_bind]
  rfl

theorem receiptHash_of_valid {r : Receipt} (h : r.Valid) :
    receiptHash (.of r) = .ok (Preimage.receipt r).hash.val := by
  simp only [receiptHash, XIRReceipt.of, encodeTypedId_of_valid h.1, encodeTypedId_of_valid h.2, ok_bind]
  rfl

theorem rootId_of_valid {r : Record} (h : r.Valid) (c : VerifiedContext) (v : UInt32) :
    rootId (.of r) (.of c) v.toNat =
      .ok (Preimage.rootId r.sourceGateway (Preimage.record r).hash (Preimage.context c).hash v).hash.val := by
  rw [rootId, recordHash_of_valid h, contextHash_eq]
  simp only [XIRRecord.of, encodeTypedId_of_valid h.1, toBytes_uint32, ok_bind]
  rfl

theorem messageId_of_valid {t : Impl.TypedId} (h : t.Valid) (rid : Bytes32) :
    messageId rid.val (ofTypedId t) = .ok (Preimage.messageId rid t).hash.val := by
  simp only [messageId, encodeTypedId_of_valid h, ok_bind]
  rfl

theorem transitionHash_of_valid {r : Record} {s d : Impl.TypedId} (h : r.Valid) (hs : s.Valid) (hd : d.Valid)
    (c : VerifiedContext) : transitionHash (.of r) (.of c) (ofTypedId s) (ofTypedId d) =
      .ok (Preimage.transition (Preimage.record r).hash (Preimage.context c).hash s d).hash.val := by
  simp only [transitionHash, recordHash_of_valid h, contextHash_eq, encodeTypedId_of_valid hs,
    encodeTypedId_of_valid hd, ok_bind]
  rfl

theorem nextPrefix_of_valid {r : Receipt} (h : r.Valid) : nextPrefix (.of r) =
    .ok (Preimage.nextPrefix r.priorPrefix (Preimage.receipt r).hash).hash.val := by
  simp only [nextPrefix, receiptHash_of_valid h, ok_bind]
  rfl

theorem bundleStart_eq {n : Nat} (h : n < 2 ^ 63) :
    bundleStart n = .ok (Preimage.bundleStart (Xir.word n)).hash.val := by
  have h₀ : revertIf ((n : Int) < 0) (PyError.valueError "receipt count cannot be negative") = .ok () :=
    revertIf_eq_ok.mpr (by omega)
  have h₁ : toBytes 64 32 = .ok (Xir.word 64).val := toBytes_word (by decide)
  have h₂ : toBytes (ascii "XIR_BUNDLE_V1").length 32 = .ok (Xir.word (ascii "XIR_BUNDLE_V1").length).val :=
    toBytes_word (by decide)
  simp only [bundleStart, h₀, h₁, h₂, toBytes_word h, ok_bind]
  simp only [Preimage.hash, Preimage.bytes, Abi.encode, Abi.heads, Abi.tails, Abi.encodeBytes, List.append_assoc,
    List.append_nil]
  rfl

theorem bundleStep_eq {n : Nat} (h : n < 2 ^ 63) (c : Bytes32) (r : Receipt) : bundleStep c.val n (.of r) =
    .ok (Preimage.bundleStep c (Xir.word n) r.profileHash r.evidenceHash r.transitionHash).hash.val := by
  have h₀ : revertIf (c.val.length ≠ 32 ∨ (n : Int) < 0) (PyError.valueError "invalid bundle prefix or index") =
      .ok () := revertIf_eq_ok.mpr (by rw [c.length_val]; omega)
  have h₁ : toBytes 192 32 = .ok (Xir.word 192).val := toBytes_word (by decide)
  have h₂ : toBytes (ascii "XIR_BUNDLE_STEP_V1").length 32 =
      .ok (Xir.word (ascii "XIR_BUNDLE_STEP_V1").length).val := toBytes_word (by decide)
  simp only [bundleStep, h₀, h₁, h₂, toBytes_word h, ok_bind]
  simp only [Preimage.hash, Preimage.bytes, Abi.encode, Abi.heads, Abi.tails, Abi.encodeBytes, List.append_assoc,
    List.append_nil]
  rfl

end

end Xir.Impl.XirTrace

namespace Xir.Proof

open Impl Impl.XIREncoding

variable [Keccak]

/-! ## Agreement -/

/-- The contract, Go and Python return the same 32 bytes. -/
def Agree (sol : Except Revert Bytes32) (go : Except GoError Bytes32) (py : Except XirTrace.PyError Bytes) : Prop :=
  ∃ d, sol = .ok d ∧ go = .ok d ∧ py = .ok d.val

/-- A commitment, extended with the tuple of a receipt. -/
def receiptStep (c : Bytes32) (i : Nat) (r : Receipt) : Bytes32 :=
  bundleStep c i r.profileHash r.evidenceHash r.transitionHash

theorem go_bundleLoop_eq : ∀ (rs : List Receipt) (c : Bytes32) (n : Nat), n + rs.length < 2 ^ 63 →
    GoXir.bundleLoop c n rs = .ok (chain receiptStep c n rs)
  | [], _, _, _ => rfl
  | r :: rs, c, n, h => by
    rw [List.length_cons] at h
    rw [GoXir.bundleLoop, GoXir.bundleStep_eq (by omega), ok_bind, chain]
    exact go_bundleLoop_eq rs _ (n + 1) (by omega)

theorem py_bundleLoop_eq : ∀ (rs : List Receipt) (c : Bytes32) (n : Nat), n + rs.length < 2 ^ 63 →
    XirTrace.bundleLoop c.val n (rs.map .of) = .ok (chain receiptStep c n rs).val
  | [], _, _, _ => rfl
  | r :: rs, c, n, h => by
    rw [List.length_cons] at h
    rw [List.map_cons, XirTrace.bundleLoop, XirTrace.bundleStep_eq (by omega), ok_bind, chain]
    exact py_bundleLoop_eq rs _ (n + 1) (by omega)

theorem bundle_agrees (receipts : Slice Receipt) :
    Agree (.ok (chain receiptStep (bundleStart receipts.val.length) 0 receipts.val))
      (GoXir.bundleCommitment receipts) (XirTrace.bundleCommitment (receipts.val.map .of)) := by
  have h := receipts.length_lt
  refine ⟨_, rfl, ?_, ?_⟩
  · rw [GoXir.bundleCommitment, GoXir.bundleStart_eq h, ok_bind]
    exact go_bundleLoop_eq receipts.val _ 0 (by omega)
  · rw [XirTrace.bundleCommitment, List.length_map, XirTrace.bundleStart_eq h, ok_bind]
    exact py_bundleLoop_eq receipts.val _ 0 (by omega)

/-- The prefixes of `walkHops`, each from the one before. -/
theorem go_prefixes_eq : ∀ (rs : List Receipt) (p : Bytes32) (i : Nat), (∀ r ∈ rs, r.Valid) →
    rs.foldlM GoXir.nextPrefix p = .ok (chain prefixStep p i rs)
  | [], _, _, _ => rfl
  | r :: rs, p, i, h => by
    rw [List.foldlM_cons, GoXir.nextPrefix_of_valid (h r List.mem_cons_self), ok_bind, chain]
    exact go_prefixes_eq rs _ (i + 1) fun r' hr => h r' (List.mem_cons_of_mem _ hr)

/-- The encodings of the contracts, of Go and of Python agree: on the commitment of any list of
receipts, on every digest of valid typed ids, and on the prefixes of any list of receipts. -/
theorem encodings_agree :
    (∀ receipts : Slice Receipt,
      Agree (.ok (chain receiptStep (bundleStart receipts.val.length) 0 receipts.val))
        (GoXir.bundleCommitment receipts) (XirTrace.bundleCommitment (receipts.val.map .of))) ∧
    (∀ record : Record, record.Valid →
      Agree (recordHash record) (GoXir.recordHash record) (XirTrace.recordHash (.of record))) ∧
    (∀ context : VerifiedContext,
      Agree (.ok (contextHash context)) (.ok (GoXir.contextHash context)) (XirTrace.contextHash (.of context))) ∧
    (∀ (record : Record) (context : VerifiedContext) (version : UInt32), record.Valid →
      Agree (do rootId record.sourceGateway (← recordHash record) (contextHash context) version)
        (GoXir.rootID record context version) (XirTrace.rootId (.of record) (.of context) version.toNat)) ∧
    (∀ (rid : Bytes32) (app : TypedId), app.Valid →
      Agree (messageId rid app) (GoXir.messageID rid app) (XirTrace.messageId rid.val (XirTrace.ofTypedId app))) ∧
    (∀ rid : Bytes32,
      Agree (.ok (rootPrefix rid)) (.ok (GoXir.rootPrefix rid)) (.ok (XirTrace.rootPrefix rid.val))) ∧
    (∀ receipt : Receipt, receipt.Valid →
      Agree (receiptHash receipt) (GoXir.receiptHash receipt) (XirTrace.receiptHash (.of receipt))) ∧
    (∀ receipt : Receipt, receipt.Valid →
      Agree (do return nextPrefix receipt.priorPrefix (← receiptHash receipt))
        (GoXir.nextPrefix receipt.priorPrefix receipt) (XirTrace.nextPrefix (.of receipt))) ∧
    (∀ (record : Record) (context : VerifiedContext) (src dst : TypedId), record.Valid → src.Valid → dst.Valid →
      Agree (do transitionHash (← recordHash record) (contextHash context) src dst)
        (GoXir.transitionHash record context src dst)
        (XirTrace.transitionHash (.of record) (.of context) (XirTrace.ofTypedId src) (XirTrace.ofTypedId dst))) ∧
    (∀ (rid : Bytes32) (receipts : List Receipt) (receipt : Receipt), (∀ r ∈ receipts ++ [receipt], r.Valid) →
      lastPrefix rid receipts = .ok receipt.priorPrefix →
      Agree (lastPrefix rid (receipts ++ [receipt]))
        ((receipts ++ [receipt]).foldlM GoXir.nextPrefix (GoXir.rootPrefix rid))
        (XirTrace.nextPrefix (.of receipt))) := by
  refine ⟨bundle_agrees, fun r h => ?_, fun c => ?_, fun r c v h => ?_, fun rid app h => ?_,
    fun rid => ⟨_, rfl, rfl, rfl⟩, fun r h => ?_, fun r h => ?_, fun r c s d h hs hd => ?_, fun rid rs r h hp => ?_⟩
  · exact ⟨_, recordHash_eq_ok.mpr ⟨h, rfl⟩, GoXir.recordHash_of_valid h, XirTrace.recordHash_of_valid h⟩
  · exact ⟨_, rfl, congrArg _ (GoXir.contextHash_eq c), XirTrace.contextHash_eq c⟩
  · refine ⟨_, ?_, GoXir.rootID_of_valid h c v, XirTrace.rootId_of_valid h c v⟩
    exact bind_eq_ok.mpr ⟨_, recordHash_eq_ok.mpr ⟨h, rfl⟩, rootId_eq_ok.mpr ⟨h.1, rfl⟩⟩
  · exact ⟨_, messageId_eq_ok.mpr ⟨h, rfl⟩, GoXir.messageID_of_valid h rid, XirTrace.messageId_of_valid h rid⟩
  · exact ⟨_, receiptHash_eq_ok.mpr ⟨h, rfl⟩, GoXir.receiptHash_of_valid h, XirTrace.receiptHash_of_valid h⟩
  · refine ⟨_, ?_, GoXir.nextPrefix_of_valid h _, XirTrace.nextPrefix_of_valid h⟩
    exact bind_eq_ok.mpr ⟨_, receiptHash_eq_ok.mpr ⟨h, rfl⟩, rfl⟩
  · refine ⟨_, ?_, GoXir.transitionHash_of_valid h hs hd c, XirTrace.transitionHash_of_valid h hs hd c⟩
    exact bind_eq_ok.mpr ⟨_, recordHash_eq_ok.mpr ⟨h, rfl⟩, transitionHash_eq_ok.mpr ⟨⟨hs, hd⟩, rfl⟩⟩
  · refine ⟨_, lastPrefix_eq_ok.mpr ⟨h, rfl⟩, go_prefixes_eq _ _ 0 h, ?_⟩
    -- the last receipt continues the prefix of those before it
    rw [chain_snoc, (lastPrefix_eq_ok.mp hp).2, XirTrace.nextPrefix_of_valid (h r (by simp))]
    rfl

omit [Keccak] in
/-- Of a record between an EVM gateway and a Solana one, and of two receipts. -/
theorem encodings_agree_solana :
    let _ := idealKeccak
    let solana : TypedId := ⟨SOLANA, List.replicate 32 7⟩
    let record : Record := ⟨evmId 1, evmId 2, solana, 3, 0⟩
    let receipt : Receipt := ⟨evmId 1, solana, .single 4, .single 5, .single 6, 0⟩
    Agree (recordHash record) (GoXir.recordHash record) (XirTrace.recordHash (.of record)) ∧
      Agree (.ok (chain receiptStep (bundleStart 2) 0 [receipt, receipt]))
        (GoXir.bundleCommitment ⟨[receipt, receipt], by decide⟩)
        (XirTrace.bundleCommitment ([receipt, receipt].map .of)) := by
  let _ := idealKeccak
  obtain ⟨hb, hr, -⟩ := encodings_agree
  exact ⟨hr _ ⟨evmId_valid 1, evmId_valid 2, .inr ⟨rfl, rfl⟩⟩, hb ⟨[_, _], by decide⟩⟩

end Xir.Proof
