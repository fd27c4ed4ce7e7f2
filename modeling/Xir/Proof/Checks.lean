import Xir.Proof.Text

/-!
# The checks of the ledger

When the checks that the calls make of their arguments and of the row they have
read succeed, check by check.
-/

namespace Xir.Impl

variable [Unicode] [Digests]

open Strings

/-- A digest in lower-case hexadecimal text. -/
structure IsDigest (value : String) : Prop where
  len_eq : len value.toList = 64
  decodes : ∃ b, decodeString value = .ok b
  lower : toLower value = value

omit [Digests] in
theorem requireDigest_eq_ok {value field actionID : String} :
    requireDigest value field actionID = .ok () ↔ IsDigest value := by
  rw [requireDigest, revertIf_bind, bind_eq_ok]
  simp only [mapError_eq_ok, revertIf_eq_ok, ne_eq, not_not]
  constructor
  · rintro ⟨hl, b, hb, ht⟩
    exact ⟨hl, ⟨b, hb⟩, ht⟩
  · rintro ⟨hl, ⟨b, hb⟩, ht⟩
    exact ⟨hl, b, hb, ht⟩

/-- The fields that an intent freezes agree with one another. -/
structure Frozen (a : Action) : Prop where
  actionID_ne : a.actionID ≠ ""
  chainRole_ne : a.chainRole ≠ ""
  gas_ne : a.gas ≠ 0
  digest : IsDigest a.calldataSHA256
  calldata : ∃ b, decodeHex a.calldataHex = .ok b ∧ b.length = a.calldataBytes ∧ sha256Hex b = a.calldataSHA256

omit [Digests] in
theorem requireDigest_bind {β : Type} {value field actionID : String} {f : Unit → Except RuntimeError β} {b : β} :
    (requireDigest value field actionID >>= f) = .ok b ↔ IsDigest value ∧ f () = .ok b := by
  rw [unit_bind, requireDigest_eq_ok]

theorem validateIntend_eq_ok {a : Action} :
    Store.validateIntend a = .ok () ↔
      Frozen a ∧ a.sender ≠ "" ∧ (a.state = .unset ∨ a.state = .intended) ∧ a.value ≠ "" := by
  rw [Store.validateIntend]
  simp only [revertIf_bind, mapError_bind, requireDigest_bind, revertIf_eq_ok, ne_eq, not_and_or, not_not]
  constructor
  · rintro ⟨hi, hc, hs, ht, hg, b, hb, hl, hd, hh, hv⟩
    exact ⟨⟨hi, hc, hg, hd, b, hb, hl, hh⟩, hs, ht, hv⟩
  · rintro ⟨⟨hi, hc, hg, hd, b, hb, hl, hh⟩, hs, ht, hv⟩
    exact ⟨hi, hc, hs, ht, hg, b, hb, hl, hd, hh, hv⟩

/-! ## Of a row that was read -/

section

omit [Unicode] [Digests]

theorem checkTransition_eq_ok {s s' : ActionState} :
    checkTransition s s' = .ok () ↔
      s = .unset ∨ s = s' ∨
        s ≠ .failed ∧ s ≠ .succeeded ∧
          ∃ m n, actionRank s = .ok m ∧ actionRank s' = .ok n ∧ (s' = .failed ∨ m ≤ n) := by
  rw [checkTransition]
  by_cases h : s = .unset ∨ s = s'
  · rw [if_pos h]
    exact ⟨fun _ => h.imp_right .inl, fun _ => rfl⟩
  · rw [if_neg h]
    constructor
    · intro hc
      obtain ⟨m, hm, hc⟩ := bind_eq_ok.mp hc
      obtain ⟨n, hn, hc⟩ := bind_eq_ok.mp hc
      obtain ⟨hf, hc⟩ := revertIf_bind.mp hc
      obtain ⟨hs, hc⟩ := revertIf_bind.mp hc
      refine .inr (.inr ⟨hf, hs, m, n, hm, hn, ?_⟩)
      exact (not_and_or.mp (revertIf_eq_ok.mp hc)).imp not_not.mp not_lt.mp
    · rintro (hs | hs | ⟨hf, hs, m, n, hm, hn, hr⟩)
      · exact absurd (.inl hs) h
      · exact absurd (.inr hs) h
      · refine bind_eq_ok.mpr ⟨m, hm, bind_eq_ok.mpr ⟨n, hn, revertIf_bind.mpr ⟨hf, revertIf_bind.mpr ⟨hs, ?_⟩⟩⟩⟩
        exact revertIf_eq_ok.mpr (not_and_or.mpr (hr.imp not_not.mpr not_lt.mpr))

/-- The rank does not decrease over a transition. -/
theorem checkTransition_le {s s' : ActionState} {m n : Nat} (h : checkTransition s s' = .ok ())
    (hm : actionRank s = .ok m) (hn : actionRank s' = .ok n) : m ≤ n := by
  rcases checkTransition_eq_ok.mp h with rfl | rfl | ⟨-, -, m', n', hm', hn', hr⟩
  · cases hm
  · exact (Except.ok.inj (hm.symm.trans hn)).le
  · cases hm.symm.trans hm'
    cases hn.symm.trans hn'
    rcases hr with rfl | hr
    · cases hn
      cases s <;> cases hm <;> decide
    · exact hr

theorem checkTransition_terminal {s s' : ActionState} (h : checkTransition s s' = .ok ())
    (ht : s = .succeeded ∨ s = .failed) : s' = s := by
  rcases checkTransition_eq_ok.mp h with rfl | rfl | ⟨hf, hs, -⟩
  · rcases ht with ht | ht <;> cases ht
  · rfl
  · exact absurd ht (not_or.mpr ⟨hs, hf⟩)

theorem actionRank_eq_ok {s : ActionState} {n : Nat} (h : actionRank s = .ok n) :
    s = .intended ∧ n = 0 ∨ s = .signed ∧ n = 1 ∨ s = .submitted ∧ n = 2 ∨ s = .succeeded ∧ n = 3 ∨
      s = .failed ∧ n = 4 := by
  cases s with
  | unset | other => cases h
  | intended | signed | submitted | succeeded | failed =>
    cases h
    decide

theorem checkObserved_eq_false {a : Action} {s : ActionState} {detail : Members} :
    Store.checkObserved a s detail = .ok false ↔
      (s = .signed ∨ s = .submitted ∨ s = .succeeded → a.rawTransactionHex ≠ "") ∧
        if a.state = s then detail ≠ [] else checkTransition a.state s = .ok () := by
  rw [Store.checkObserved, revertIf_bind, not_and]
  refine and_congr_right fun _ => ?_
  by_cases h : a.state = s
  · rw [if_pos h, if_pos h, pure_eq_ok, decide_eq_false_iff_not]
  · rw [if_neg h, if_neg h, unit_bind, pure_eq_ok, and_iff_left rfl]

end

theorem checkRaw_eq_ok {id : String} {raw : GoBytes} {hash canonical : String} :
    Store.checkRaw id raw hash = .ok canonical ↔
      id ≠ "" ∧ raw ≠ [] ∧ canonicalHash hash = .ok canonical ∧ keccakHex raw = canonical := by
  rw [Store.checkRaw]
  simp only [revertIf_bind, mapError_bind, pure_eq_ok, ne_eq, not_not]
  constructor
  · rintro ⟨hi, hr, c, hc, hk, rfl⟩
    exact ⟨hi, hr, hc, hk⟩
  · rintro ⟨hi, hr, hc, hk⟩
    exact ⟨hi, hr, canonical, hc, hk, rfl⟩

omit [Digests] in
theorem checkResult_eq_ok {id canonical : String} {r : ActionResult} :
    Store.checkResult id r = .ok canonical ↔
      canonicalHash r.transactionHash = .ok canonical ∧ (r.receiptPath ≠ "" → IsDigest r.receiptSHA256) := by
  rw [Store.checkResult, mapError_bind]
  by_cases h : r.receiptPath ≠ ""
  · simp only [if_pos h, requireDigest_bind, pure_eq_ok]
    constructor
    · rintro ⟨_, hc, hd, e⟩
      exact ⟨e ▸ hc, fun _ => hd⟩
    · rintro ⟨hc, hd⟩
      exact ⟨_, hc, hd h, rfl⟩
  · simp only [if_neg h, pure_eq_ok, exists_eq_right]
    exact ⟨fun hc => ⟨hc, fun hn => absurd hn h⟩, And.left⟩

omit [Digests] in
theorem canonicalHash_ne_empty {value canonical : String} (h : canonicalHash value = .ok canonical) :
    canonical ≠ "" := by
  rw [canonicalHash] at h
  simp only [revertIf_bind, mapError_bind, pure_eq_ok] at h
  obtain ⟨-, -, b, -, rfl⟩ := h
  exact encodeHex_ne_empty b

omit [Digests] in
theorem checkSigned_eq_false {a : Action} {raw : GoBytes} {canonical : String} :
    Store.checkSigned a raw canonical = .ok false ↔
      (a.rawTransactionHex ≠ "" →
        decodeHex a.rawTransactionHex = .ok raw ∧ a.transactionHash = canonical ∧ a.state ≠ .succeeded ∧
          a.state ≠ .failed) ∧
        checkTransition a.state .signed = .ok () := by
  rw [Store.checkSigned]
  by_cases h : a.rawTransactionHex ≠ ""
  · rw [if_pos h, mapError_bind]
    simp only [revertIf_bind, not_or, not_not]
    constructor
    · rintro ⟨b, hb, ⟨rfl, hh⟩, hc⟩
      by_cases ht : a.state = .succeeded ∨ a.state = .failed
      · rw [if_pos ht, pure_eq_ok] at hc
        cases hc
      · rw [if_neg ht, unit_bind] at hc
        obtain ⟨hs, hf⟩ := not_or.mp ht
        exact ⟨fun _ => ⟨hb, hh, hs, hf⟩, hc.1⟩
    · rintro ⟨hr, hc⟩
      obtain ⟨hb, hh, hs, hf⟩ := hr h
      refine ⟨raw, hb, ⟨rfl, hh⟩, ?_⟩
      rw [if_neg (not_or.mpr ⟨hs, hf⟩), unit_bind]
      exact ⟨hc, rfl⟩
  · rw [if_neg h, unit_bind, pure_eq_ok, and_iff_left rfl]
    exact ⟨fun hc => ⟨fun hr => absurd hr h, hc⟩, And.right⟩

omit [Unicode] [Digests] in
theorem checkSucceeded_eq_false {a : Action} {canonical : String} {r : ActionResult} :
    Store.checkSucceeded a canonical r = .ok false ↔
      (a.transactionHash ≠ "" → a.transactionHash = canonical) ∧ a.state ≠ .succeeded ∧
        checkTransition a.state .succeeded = .ok () := by
  rw [Store.checkSucceeded, revertIf_bind, not_and, not_ne_iff]
  refine and_congr_right fun _ => ?_
  by_cases h : a.state = .succeeded
  · rw [if_pos h, revertIf_bind, pure_eq_ok]
    exact ⟨fun hc => (Bool.noConfusion hc.2), fun hc => absurd h hc.1⟩
  · rw [if_neg h, unit_bind, pure_eq_ok, and_iff_left rfl]
    exact ⟨fun hc => ⟨h, hc⟩, And.right⟩

/-! ## When a call returns at once -/

omit [Digests] in
theorem checkSigned_eq_true {a : Action} {raw : GoBytes} {canonical : String} :
    Store.checkSigned a raw canonical = .ok true ↔
      a.rawTransactionHex ≠ "" ∧ decodeHex a.rawTransactionHex = .ok raw ∧ a.transactionHash = canonical ∧
        (a.state = .succeeded ∨ a.state = .failed) := by
  rw [Store.checkSigned]
  by_cases h : a.rawTransactionHex ≠ ""
  · rw [if_pos h, mapError_bind]
    simp only [revertIf_bind, not_or, not_not]
    constructor
    · rintro ⟨b, hb, ⟨rfl, hh⟩, hc⟩
      refine ⟨h, hb, hh, ?_⟩
      by_cases ht : a.state = .succeeded ∨ a.state = .failed
      · exact ht
      · rw [if_neg ht, unit_bind, pure_eq_ok] at hc
        exact Bool.noConfusion hc.2
    · rintro ⟨-, hb, hh, ht⟩
      refine ⟨raw, hb, ⟨rfl, hh⟩, ?_⟩
      rw [if_pos ht]
      rfl
  · rw [if_neg h, unit_bind, pure_eq_ok]
    exact ⟨fun hc => Bool.noConfusion hc.2, fun hc => absurd hc.1 h⟩

omit [Digests] in
/-- Other bytes than those that the row holds are identity drift. -/
theorem checkSigned_drift {a : Action} {raw b : GoBytes} {canonical : String} (hr : a.rawTransactionHex ≠ "")
    (hd : decodeHex a.rawTransactionHex = .ok b) (hne : b ≠ raw) :
    ∃ e, e.IsDrift ∧ Store.checkSigned a raw canonical = .error e := by
  refine ⟨.drift s!"action {a.actionID} already holds signed transaction {a.transactionHash}", trivial, ?_⟩
  rw [Store.checkSigned, if_pos hr, hd]
  show (revertIf _ _ >>= _) = _
  exact revertIf_bind_error.mpr (.inl ⟨.inl hne, rfl⟩)

omit [Unicode] [Digests] in
theorem checkSucceeded_eq_true {a : Action} {canonical : String} {r : ActionResult} :
    Store.checkSucceeded a canonical r = .ok true ↔
      (a.transactionHash ≠ "" → a.transactionHash = canonical) ∧ a.state = .succeeded ∧
        a.blockNumber = r.blockNumber ∧ a.gasUsed = r.gasUsed := by
  rw [Store.checkSucceeded, revertIf_bind, not_and, not_ne_iff]
  refine and_congr_right fun _ => ?_
  by_cases h : a.state = .succeeded
  · rw [if_pos h, revertIf_bind, pure_eq_ok, not_or, not_not, not_not]
    exact ⟨fun hc => ⟨h, hc.1⟩, fun hc => ⟨hc.2, rfl⟩⟩
  · rw [if_neg h, unit_bind, pure_eq_ok]
    exact ⟨fun hc => Bool.noConfusion hc.2, fun hc => absurd hc.1 h⟩

omit [Unicode] [Digests] in
/-- Of a row that has succeeded, the check reports another block, gas or hash as identity drift. -/
theorem checkSucceeded_onlyDrift {a : Action} {canonical : String} {r : ActionResult} {e : RuntimeError}
    (hs : a.state = .succeeded) (h : Store.checkSucceeded a canonical r = .error e) : e.IsDrift := by
  rw [Store.checkSucceeded] at h
  rcases revertIf_bind_error.mp h with ⟨-, rfl⟩ | ⟨-, h⟩
  · trivial
  · rw [if_pos hs] at h
    rcases revertIf_bind_error.mp h with ⟨-, rfl⟩ | ⟨-, h⟩
    · trivial
    · cases h

/-! ## Of a replayed intent -/

/-- The fields of an intent that a replay has to repeat, the account in the form that the ledger
holds. -/
structure SameIntent (stored requested : Action) : Prop where
  attemptID : stored.attemptID = requested.attemptID
  stage : stored.stage = requested.stage
  chainRole : stored.chainRole = requested.chainRole
  sender : stored.sender = toLower (trimSpace requested.sender)
  target : stored.target = requested.target
  calldataHex : stored.calldataHex = requested.calldataHex
  calldataSHA256 : stored.calldataSHA256 = requested.calldataSHA256
  value : stored.value = requested.value
  chainID : stored.chainID = requested.chainID
  gas : stored.gas = requested.gas
  nonce : stored.nonce = requested.nonce
  calldataBytes : stored.calldataBytes = requested.calldataBytes

namespace SameIntent

omit [Digests]

theorem trans {a b c : Action} (h : SameIntent a b) (h' : SameIntent b c) : SameIntent a c where
  attemptID := h.attemptID.trans h'.attemptID
  stage := h.stage.trans h'.stage
  chainRole := h.chainRole.trans h'.chainRole
  sender := by rw [h.sender, h'.sender, toLower_trimSpace_idem]
  target := h.target.trans h'.target
  calldataHex := h.calldataHex.trans h'.calldataHex
  calldataSHA256 := h.calldataSHA256.trans h'.calldataSHA256
  value := h.value.trans h'.value
  chainID := h.chainID.trans h'.chainID
  gas := h.gas.trans h'.gas
  nonce := h.nonce.trans h'.nonce
  calldataBytes := h.calldataBytes.trans h'.calldataBytes

/-- Of two intents that agree, the one whose account is in the ledger's form is the first. -/
theorem symm {a b : Action} (h : SameIntent a b) (hb : toLower (trimSpace b.sender) = b.sender) : SameIntent b a where
  attemptID := h.attemptID.symm
  stage := h.stage.symm
  chainRole := h.chainRole.symm
  sender := by rw [h.sender, toLower_trimSpace_idem, hb]
  target := h.target.symm
  calldataHex := h.calldataHex.symm
  calldataSHA256 := h.calldataSHA256.symm
  value := h.value.symm
  chainID := h.chainID.symm
  gas := h.gas.symm
  nonce := h.nonce.symm
  calldataBytes := h.calldataBytes.symm

theorem refl {a : Action} (ha : toLower (trimSpace a.sender) = a.sender) : SameIntent a a :=
  ⟨rfl, rfl, rfl, ha.symm, rfl, rfl, rfl, rfl, rfl, rfl, rfl, rfl⟩

end SameIntent

omit [Digests] in
theorem sameFrozenIdentity_eq_ok {stored requested : Action} :
    Store.sameFrozenIdentity stored requested = .ok () ↔ SameIntent stored requested := by
  rw [Store.sameFrozenIdentity]
  simp only [Store.sameField, Store.sameNumber, revertIf_bind, revertIf_eq_ok, ne_eq, not_not]
  constructor
  · rintro ⟨h₁, h₂, h₃, h₄, h₅, h₆, h₇, h₈, h₉, h₁₀, h₁₁, h₁₂⟩
    exact ⟨h₁, h₂, h₃, h₄, h₅, h₆, h₇, h₈, h₉, h₁₀, h₁₁, h₁₂⟩
  · rintro ⟨h₁, h₂, h₃, h₄, h₅, h₆, h₇, h₈, h₉, h₁₀, h₁₁, h₁₂⟩
    exact ⟨h₁, h₂, h₃, h₄, h₅, h₆, h₇, h₈, h₉, h₁₀, h₁₁, h₁₂⟩

/-- A check that reports nothing but identity drift. -/
def OnlyDrift (x : Except RuntimeError Unit) : Prop := ∀ e, x = .error e → e.IsDrift

omit [Unicode] [Digests] in
theorem OnlyDrift.check {p : Prop} [Decidable p] {text : String} {f : Unit → Except RuntimeError Unit}
    (h : OnlyDrift (f ())) : OnlyDrift (revertIf p (.drift text) >>= f) := by
  intro e he
  rcases revertIf_bind_error.mp he with ⟨-, rfl⟩ | ⟨-, he⟩
  · trivial
  · exact h e he

omit [Digests] in
/-- Another intent of the same action is identity drift. -/
theorem sameFrozenIdentity_onlyDrift (stored requested : Action) :
    OnlyDrift (Store.sameFrozenIdentity stored requested) := by
  rw [Store.sameFrozenIdentity]
  simp only [Store.sameField, Store.sameNumber]
  iterate 11 refine .check ?_
  intro e he
  rw [revertIf] at he
  split at he <;> cases he
  trivial

end Xir.Impl
