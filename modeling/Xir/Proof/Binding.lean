import Xir.Proof.Trace

/-!
# What the identifiers bind

With an injective hash, a message id determines the record, the context and the
registry version it was made from (`Envelope.mid_inj`), and the last prefix of a
trace the root id and every receipt (`chain_prefixStep_inj`). No string hashed
for one purpose is one hashed for another. `identifiers_bind` is all of it, of
the functions of `XIREncoding` and of `verifyTrace`.
-/

namespace Xir.Proof

open Impl Impl.XIREncoding Impl.XIRGateway

variable [Keccak]

/-- A digest that a function of `XIREncoding` returns, with its purpose. -/
inductive Digest : Purpose → Bytes32 → Prop
  | typedId {id d} : typedIdHash id = .ok d → Digest .typedId d
  | record {r d} : recordHash r = .ok d → Digest .record d
  | context (c) : Digest .context (contextHash c)
  | rootId {g r c v d} : rootId g r c v = .ok d → Digest .rootId d
  | messageId {rid app d} : messageId rid app = .ok d → Digest .messageId d
  | rootPrefix (rid) : Digest .rootPrefix (rootPrefix rid)
  | transition {r c src dst d} : transitionHash r c src dst = .ok d → Digest .transition d
  | receipt {r d} : receiptHash r = .ok d → Digest .receipt d
  | nextPrefix (p r) : Digest .nextPrefix (nextPrefix p r)
  | bundleStart (n) : Digest .bundleStart (bundleStart n)
  | bundleStep (c i p e t) : Digest .bundleStep (bundleStep c i p e t)

/-- A digest is the hash of a preimage of its purpose. -/
theorem Digest.preimage {u : Purpose} {d : Bytes32} (h : Digest u d) :
    ∃ p : Preimage, p.Valid ∧ p.purpose = u ∧ keccak256 p.bytes = d := by
  cases h with
  | typedId h => exact ⟨.typedId _, (typedIdHash_eq_ok.mp h).1, rfl, (typedIdHash_eq_ok.mp h).2⟩
  | record h => exact ⟨.record _, (recordHash_eq_ok.mp h).1, rfl, (recordHash_eq_ok.mp h).2⟩
  | context c => exact ⟨.context c, trivial, rfl, rfl⟩
  | rootId h => exact ⟨.rootId .., (rootId_eq_ok.mp h).1, rfl, (rootId_eq_ok.mp h).2⟩
  | messageId h => exact ⟨.messageId .., (messageId_eq_ok.mp h).1, rfl, (messageId_eq_ok.mp h).2⟩
  | rootPrefix rid => exact ⟨.rootPrefix rid, trivial, rfl, rfl⟩
  | transition h => exact ⟨.transition .., (transitionHash_eq_ok.mp h).1, rfl, (transitionHash_eq_ok.mp h).2⟩
  | receipt h => exact ⟨.receipt _, (receiptHash_eq_ok.mp h).1, rfl, (receiptHash_eq_ok.mp h).2⟩
  | nextPrefix p r => exact ⟨.nextPrefix p r, trivial, rfl, rfl⟩
  | bundleStart n => exact ⟨.bundleStart (word n), trivial, rfl, rfl⟩
  | bundleStep c i p e t => exact ⟨.bundleStep c (word i) p e t, trivial, rfl, rfl⟩

/-! ## Message ids -/

/-- The message id made of a record, a context and a registry version, as
`verifyRoot` and `createRecord` make it. -/
def midOf (record : Record) (context : VerifiedContext) (version : UInt32) : Except Revert Bytes32 := do
  let rid ← rootId record.sourceGateway (← recordHash record) (contextHash context) version
  messageId rid record.destinationApp

theorem midOf_eq_ok {e : Envelope} {d : Bytes32} :
    midOf e.record e.context e.certificate.registryVersion = .ok d ↔ e.record.Valid ∧ e.mid = d := by
  simp only [midOf, bind_eq_ok, recordHash_eq_ok, rootId_eq_ok, messageId_eq_ok]
  constructor
  · rintro ⟨_, ⟨hv, rfl⟩, _, ⟨_, rfl⟩, _, hd⟩
    exact ⟨hv, hd⟩
  · rintro ⟨hv, hd⟩
    exact ⟨_, ⟨hv, rfl⟩, _, ⟨hv.1, rfl⟩, hv.2.2, hd⟩

/-- A message id determines what the envelope says of the root. -/
theorem mid_inj (hk : Function.Injective keccak256) {e e' : Envelope} (hv : e.record.Valid) (hv' : e'.record.Valid)
    (h : e.mid = e'.mid) :
    e.record = e'.record ∧ e.context = e'.context ∧
      e.certificate.registryVersion = e'.certificate.registryVersion := by
  obtain ⟨h₁, -⟩ := Preimage.messageId.inj (Preimage.hash_inj hk hv.2.2 hv'.2.2 h)
  obtain ⟨-, h₂, h₃, h₄⟩ := Preimage.rootId.inj (Preimage.hash_inj hk hv.1 hv'.1 h₁)
  exact ⟨Preimage.record.inj (Preimage.hash_inj hk hv hv' h₂),
    Preimage.context.inj (Preimage.hash_inj hk trivial trivial h₃), h₄⟩

/-! ## Prefixes -/

/-- The last prefix of a trace from the root id, as the loop of `verifyTrace` makes it. -/
def lastPrefix (rid : Bytes32) (receipts : List Receipt) : Except Revert Bytes32 :=
  receipts.foldlM (fun p r => do return nextPrefix p (← receiptHash r)) (rootPrefix rid)

theorem foldlM_prefix_eq_ok : ∀ {rs : List Receipt} {p d : Bytes32} (i : Nat),
    rs.foldlM (fun p r => do return nextPrefix p (← receiptHash r)) p = (.ok d : Except Revert Bytes32) ↔
      (∀ r ∈ rs, r.Valid) ∧ chain prefixStep p i rs = d
  | [], p, d, i => by simp [chain]
  | r :: rs, p, d, i => by
    simp only [List.foldlM_cons, bind_eq_ok, receiptHash_eq_ok, pure_eq_ok, chain]
    constructor
    · rintro ⟨_, ⟨_, ⟨hv, rfl⟩, rfl⟩, h⟩
      obtain ⟨hvs, hd⟩ := (foldlM_prefix_eq_ok (i + 1)).mp h
      exact ⟨List.forall_mem_cons.mpr ⟨hv, hvs⟩, hd⟩
    · rintro ⟨hvs, hd⟩
      obtain ⟨hv, hvs⟩ := List.forall_mem_cons.mp hvs
      exact ⟨_, ⟨_, ⟨hv, rfl⟩, rfl⟩, (foldlM_prefix_eq_ok (i + 1)).mpr ⟨hvs, hd⟩⟩

theorem lastPrefix_eq_ok {rid d : Bytes32} {rs : List Receipt} :
    lastPrefix rid rs = .ok d ↔ (∀ r ∈ rs, r.Valid) ∧ chain prefixStep (rootPrefix rid) 0 rs = d :=
  foldlM_prefix_eq_ok 0

/-- Prefixes of receipts determine the receipts, and none is a root's. -/
theorem prefix_chainInj (hk : Function.Injective keccak256) :
    ChainInj prefixStep Receipt.Valid (fun d => ∃ rid, d = rootPrefix rid) where
  step_inj ha ha' h := by
    obtain ⟨h₁, h₂⟩ := Preimage.nextPrefix.inj (Preimage.hash_inj hk trivial trivial h)
    exact ⟨h₁, Preimage.receipt.inj (Preimage.hash_inj hk ha ha' h₂)⟩
  not_start _ := by
    rintro ⟨rid, h⟩
    cases Preimage.hash_inj (p := .nextPrefix ..) (q := .rootPrefix rid) hk trivial trivial h

theorem chain_prefixStep_inj (hk : Function.Injective keccak256) {rid rid' : Bytes32} {rs rs' : List Receipt}
    (hv : ∀ r ∈ rs, r.Valid) (hv' : ∀ r ∈ rs', r.Valid)
    (h : chain prefixStep (rootPrefix rid) 0 rs = chain prefixStep (rootPrefix rid') 0 rs') :
    rid = rid' ∧ rs = rs' := by
  obtain ⟨h₁, h₂⟩ := chain_inj (prefix_chainInj hk) ⟨rid, rfl⟩ ⟨rid', rfl⟩ hv hv' h
  exact ⟨Preimage.rootPrefix.inj (Preimage.hash_inj hk trivial trivial h₁), h₂⟩

/-- Accepted traces with the same last prefix have the same root id and receipts. -/
theorem verifyTrace_inj (hk : Function.Injective keccak256) {gateway gateway' : XIRGateway} {env env' : Env}
    {e e' : Envelope} {rid rid' mid mid' p : Bytes32} (h : gateway.verifyTrace env e = .ok (rid, mid, p))
    (h' : gateway'.verifyTrace env' e' = .ok (rid', mid', p)) : rid = rid' ∧ e.receipts = e'.receipts := by
  obtain ⟨ha, hr⟩ := verifyTrace_eq_ok.mp h
  obtain ⟨ha', hr'⟩ := verifyTrace_eq_ok.mp h'
  simp only [Prod.mk.injEq, traceEnd_tracePrefix] at hr hr'
  rw [← hr.1, ← hr'.1]
  refine chain_prefixStep_inj hk (fun r hm => ?_) (fun r hm => ?_) (hr.2.2.trans hr'.2.2.symm)
  · obtain ⟨_, hs⟩ := ha.hops.mem r hm
    exact hs.valid
  · obtain ⟨_, hs⟩ := ha'.hops.mem r hm
    exact hs.valid

/-- Identifiers bind what they are made of: message ids the record, the context and
the registry version, prefixes the root id and the receipts, of any two traces
and in particular of accepted ones; and every digest is the hash of a string
that serves its purpose and no other. -/
theorem identifiers_bind (hk : Function.Injective keccak256) :
    (∀ {r r' : Record} {c c' : VerifiedContext} {v v' : UInt32} {mid : Bytes32},
      midOf r c v = .ok mid → midOf r' c' v' = .ok mid → r = r' ∧ c = c' ∧ v = v') ∧
    (∀ {rid rid' p : Bytes32} {rs rs' : List Receipt},
      lastPrefix rid rs = .ok p → lastPrefix rid' rs' = .ok p → rid = rid' ∧ rs = rs') ∧
    (∀ {gateway gateway' : XIRGateway} {env env' : Env} {e e' : Envelope} {rid rid' mid mid' p : Bytes32},
      gateway.verifyTrace env e = .ok (rid, mid, p) → gateway'.verifyTrace env' e' = .ok (rid', mid', p) →
      lastPrefix rid e.receipts = .ok p ∧ rid = rid' ∧ e.receipts = e'.receipts) ∧
    (∀ {u : Purpose} {d : Bytes32}, Digest u d → ∃ p : Preimage, p.Valid ∧ p.purpose = u ∧ keccak256 p.bytes = d) ∧
    (∀ {p q : Preimage}, p.Valid → q.Valid → p.bytes = q.bytes → p.purpose = q.purpose) := by
  refine ⟨fun {r r' c c' v v' mid} h h' => ?_, fun h h' => ?_, fun h h' => ⟨?_, verifyTrace_inj hk h h'⟩,
    Digest.preimage, fun hp hq h => ?_⟩
  · obtain ⟨hv, h₁⟩ := (midOf_eq_ok (e := ⟨r, c, ⟨v, []⟩, []⟩)).mp h
    obtain ⟨hv', h₂⟩ := (midOf_eq_ok (e := ⟨r', c', ⟨v', []⟩, []⟩)).mp h'
    exact mid_inj hk hv hv' (h₁.trans h₂.symm)
  · obtain ⟨hv, h₁⟩ := lastPrefix_eq_ok.mp h
    obtain ⟨hv', h₂⟩ := lastPrefix_eq_ok.mp h'
    exact chain_prefixStep_inj hk hv hv' (h₁.trans h₂.symm)
  · obtain ⟨ha, hr⟩ := verifyTrace_eq_ok.mp h
    simp only [Prod.mk.injEq, traceEnd_tracePrefix] at hr
    refine lastPrefix_eq_ok.mpr ⟨fun r hm => ?_, hr.1 ▸ hr.2.2⟩
    obtain ⟨_, hs⟩ := ha.hops.mem r hm
    exact hs.valid
  · rw [Preimage.bytes_inj hp hq h]

/-- A record with nonce `n` between two gateways' apps. -/
def recordAt (n : UInt64) : Record := ⟨evmId 1, evmId 2, evmId 3, n, 0⟩

omit [Keccak] in
/-- Records that differ in the nonce have different message ids. -/
theorem identifiers_bind_nonce :
    letI := idealKeccak
    ∃ mid mid', midOf (recordAt 0) ⟨1, 0⟩ 1 = .ok mid ∧ midOf (recordAt 1) ⟨1, 0⟩ 1 = .ok mid' ∧ mid ≠ mid' := by
  let _ := idealKeccak
  have h : ∀ n, midOf (recordAt n) ⟨1, 0⟩ 1 = .ok (Envelope.mid ⟨recordAt n, ⟨1, 0⟩, ⟨1, []⟩, []⟩) := fun n =>
    (midOf_eq_ok (e := ⟨recordAt n, ⟨1, 0⟩, ⟨1, []⟩, []⟩)).mpr ⟨⟨evmId_valid 1, evmId_valid 2, evmId_valid 3⟩, rfl⟩
  refine ⟨_, _, h 0, h 1, fun heq => ?_⟩
  have hr : recordAt 0 = recordAt 1 :=
    ((identifiers_bind idealHash.injective).1 (h 0) ((h 1).trans (congrArg Except.ok heq.symm))).1
  exact absurd (congrArg Record.nonce hr) (by decide)

end Xir.Proof
