import Xir.Framework.Chain
import Xir.Impl.Contracts.XIRGateway
import Xir.Proof.Encoding

/-!
# What a gateway accepts

`verifyTrace_eq_ok` says when `verifyTrace` accepts an envelope and what it
returns: the certificate's root accepts it (`RootAccepts`), every receipt passes
the checks of its turn of the loop (`Hops`, over the loop's variables, which
`TraceState.next` updates), and the last adapter accepts the bundle of all of
them (`BundleAccepts`). What the loop computes is then a fold of the receipts
(`chain`) in each of its variables.
-/

namespace Xir.Impl

open Proof

variable [Keccak]

/-! ## What is computed from an envelope -/

/-- The digest of a typed id. -/
def TypedId.hash (id : TypedId) : Bytes32 := (Preimage.typedId id).hash

theorem TypedId.hash_inj (hk : Function.Injective keccak256) {a b : TypedId} (ha : a.Valid) (hb : b.Valid)
    (h : a.hash = b.hash) :
    a = b :=
  Preimage.typedId.inj (Preimage.hash_inj hk ha hb h)

namespace Envelope

def recordDigest (e : Envelope) : Bytes32 := (Preimage.record e.record).hash

def contextDigest (e : Envelope) : Bytes32 := (Preimage.context e.context).hash

def rid (e : Envelope) : Bytes32 :=
  (Preimage.rootId e.record.sourceGateway e.recordDigest e.contextDigest e.certificate.registryVersion).hash

def mid (e : Envelope) : Bytes32 := (Preimage.messageId e.rid e.record.destinationApp).hash

/-- The transition hash of a hop between two gateways. -/
def transition (e : Envelope) (src dst : TypedId) : Bytes32 :=
  (Preimage.transition e.recordDigest e.contextDigest src dst).hash

end Envelope

namespace XIRGateway

theorem gatewayId_valid (gateway : XIRGateway) : gateway.gatewayId.Valid :=
  (typedIdHash_eq_ok.mp gateway.gatewayHash_eq).1

theorem gatewayHash_eq_hash (gateway : XIRGateway) : gateway.gatewayHash = gateway.gatewayId.hash :=
  (typedIdHash_eq_ok.mp gateway.gatewayHash_eq).2.symm

end XIRGateway

end Xir.Impl

namespace Xir.Proof

open Impl Impl.XIREncoding Impl.XIRGateway

variable [Keccak]

/-! ## The root -/

/-- What `verifyRoot` checks. -/
structure RootAccepts (env : Env) (e : Envelope) : Prop where
  record_valid : e.record.Valid
  gatewayHash : (env.registry.rootAt e.certificate.registryVersion).gatewayHash = e.record.sourceGateway.hash
  active : _active env.timestamp (env.registry.rootAt e.certificate.registryVersion).enabled
    (env.registry.rootAt e.certificate.registryVersion).validAfter
    (env.registry.rootAt e.certificate.registryVersion).validUntil
  signer : _recover env (_ethSigned e.rid) e.certificate.signature =
    (env.registry.rootAt e.certificate.registryVersion).signer

theorem verifyRoot_eq_ok {env : Env} {e : Envelope} {r : Bytes32 × Bytes32 × Bytes32} :
    verifyRoot env e = .ok r ↔ RootAccepts env e ∧ (e.rid, e.mid, rootPrefix e.rid) = r := by
  simp only [verifyRoot, bind_eq_ok, recordHash_eq_ok, rootId_eq_ok, typedIdHash_eq_ok, messageId_eq_ok,
    revertIf_eq_ok, pure_eq_ok, not_not]
  constructor
  · rintro ⟨_, ⟨hv, rfl⟩, _, ⟨_, rfl⟩, _, ⟨_, rfl⟩, -, hg, -, ha, -, hs, _, ⟨_, rfl⟩, hr⟩
    exact ⟨⟨hv, hg, ha, hs⟩, hr⟩
  · rintro ⟨⟨hv, hg, ha, hs⟩, hr⟩
    exact ⟨_, ⟨hv, rfl⟩, _, ⟨hv.1, rfl⟩, _, ⟨hv.1, rfl⟩, (), hg, (), ha, (), hs, _, ⟨hv.2.2, rfl⟩, hr⟩

/-! ## The receipts -/

/-- What a turn of the loop checks of a receipt. -/
structure HopAccepts (env : Env) (e : Envelope) (s : TraceState) (r : Receipt) : Prop where
  valid : r.Valid
  priorPrefix : r.priorPrefix = s.tracePrefix
  expectedSrc : r.srcGateway.hash = s.expectedSrc
  srcHash : (env.registry.profileAt r.profileHash).srcHash = r.srcGateway.hash
  dstHash : (env.registry.profileAt r.profileHash).dstHash = r.dstGateway.hash
  active : _active env.timestamp (env.registry.profileAt r.profileHash).enabled
    (env.registry.profileAt r.profileHash).validAfter (env.registry.profileAt r.profileHash).validUntil
  security : ¬ (env.registry.profileAt r.profileHash).securityLevel < e.context.requiredSecurity
  transition : r.transitionHash = e.transition r.srcGateway r.dstGateway
  evidence_ne : r.evidenceHash ≠ 0
  adapter_ne : (env.registry.profileAt r.profileHash).adapter ≠ 0
  verified : (env.carriers (env.registry.profileAt r.profileHash).adapter).verify r.profileHash r.evidenceHash
    r.transitionHash = some true

end Xir.Proof

namespace Xir.Impl.XIRGateway.TraceState

open Proof XIREncoding

variable [Keccak]

/-- The variables after the turn of a receipt. -/
def next (registry : XIRRegistry) (s : TraceState) (i : Nat) (r : Receipt) : TraceState where
  tracePrefix := nextPrefix s.tracePrefix (Preimage.receipt r).hash
  expectedSrc := r.dstGateway.hash
  bundleCommitment := bundleStep s.bundleCommitment i r.profileHash r.evidenceHash r.transitionHash
  bundleAdapter := (registry.profileAt r.profileHash).adapter

end Xir.Impl.XIRGateway.TraceState

namespace Xir.Proof

open Impl Impl.XIREncoding Impl.XIRGateway

variable [Keccak]

theorem traceStep_eq_ok {env : Env} {e : Envelope} {s s' : TraceState} {i : Nat} {r : Receipt} :
    traceStep env e.context.requiredSecurity e.recordDigest e.contextDigest s i r = .ok s' ↔
      HopAccepts env e s r ∧ s.next env.registry i r = s' := by
  simp only [traceStep, bind_eq_ok, typedIdHash_eq_ok, transitionHash_eq_ok, receiptHash_eq_ok, revertIf_eq_ok,
    orRevert_eq_ok, pure_eq_ok, not_or, not_not, ne_eq, Bool.not_eq_false]
  constructor
  · rintro ⟨_, ⟨hv₁, rfl⟩, _, ⟨hv₂, rfl⟩, -, ⟨hp, hx⟩, -, ⟨h₁, h₂, ha⟩, -, hl, _, ⟨_, rfl⟩, -, ht, -, ⟨he, had⟩,
      _, hver, -, rfl, _, ⟨_, rfl⟩, hs⟩
    exact ⟨⟨⟨hv₁, hv₂⟩, hp, hx, h₁, h₂, ha, hl, ht, he, had, ht ▸ hver⟩, hs⟩
  · rintro ⟨⟨⟨hv₁, hv₂⟩, hp, hx, h₁, h₂, ha, hl, ht, he, had, hver⟩, hs⟩
    exact ⟨_, ⟨hv₁, rfl⟩, _, ⟨hv₂, rfl⟩, (), ⟨hp, hx⟩, (), ⟨h₁, h₂, ha⟩, (), hl, _, ⟨⟨hv₁, hv₂⟩, rfl⟩, (), ht, (),
      ⟨he, had⟩, _, by rw [← hver, ht]; rfl, (), rfl, _, ⟨⟨hv₁, hv₂⟩, rfl⟩, hs⟩

/-- What the loop checks of the receipts, from its variables `s` before turn `i`. -/
def Hops (env : Env) (e : Envelope) : TraceState → Nat → List Receipt → Prop
  | _, _, [] => True
  | s, i, r :: rs => HopAccepts env e s r ∧ Hops env e (s.next env.registry i r) (i + 1) rs

theorem traceLoop_eq_ok {env : Env} {e : Envelope} : ∀ {s s' : TraceState} {i : Nat} {rs : List Receipt},
    traceLoop env e.context.requiredSecurity e.recordDigest e.contextDigest s i rs = .ok s' ↔
      Hops env e s i rs ∧ chain (TraceState.next env.registry) s i rs = s'
  | s, s', i, [] => by simp [traceLoop, Hops, chain]
  | s, s', i, r :: rs => by
    simp only [traceLoop, bind_eq_ok, traceStep_eq_ok, Hops, chain]
    constructor
    · rintro ⟨_, ⟨h, rfl⟩, hl⟩
      exact ⟨⟨h, (traceLoop_eq_ok.mp hl).1⟩, (traceLoop_eq_ok.mp hl).2⟩
    · rintro ⟨⟨h, hh⟩, hl⟩
      exact ⟨_, ⟨h, rfl⟩, traceLoop_eq_ok.mpr ⟨hh, hl⟩⟩

/-! ## The whole trace -/

/-- The variables of the loop at its start. -/
def traceStart (e : Envelope) : TraceState :=
  ⟨rootPrefix e.rid, e.record.sourceGateway.hash, bundleStart e.receipts.length, 0⟩

/-- The variables of the loop at its end. -/
def traceEnd (registry : XIRRegistry) (e : Envelope) : TraceState :=
  chain (TraceState.next registry) (traceStart e) 0 e.receipts

/-- What is checked of the bundle of all receipts. -/
def BundleAccepts (env : Env) (e : Envelope) : Prop :=
  e.receipts ≠ [] → (traceEnd env.registry e).bundleAdapter ≠ 0 ∧
    (env.carriers (traceEnd env.registry e).bundleAdapter).verifyBundle
      (traceEnd env.registry e).bundleCommitment = some true

/-- What `verifyTrace` checks. -/
structure TraceAccepts (gateway : XIRGateway) (env : Env) (e : Envelope) : Prop where
  root : RootAccepts env e
  hops : Hops env e (traceStart e) 0 e.receipts
  destination : (traceEnd env.registry e).expectedSrc = gateway.gatewayHash
  bundle : BundleAccepts env e

theorem verifyTrace_eq_ok {gateway : XIRGateway} {env : Env} {e : Envelope} {r : Bytes32 × Bytes32 × Bytes32} :
    gateway.verifyTrace env e = .ok r ↔
      TraceAccepts gateway env e ∧ (e.rid, e.mid, (traceEnd env.registry e).tracePrefix) = r := by
  simp only [verifyTrace, bind_eq_ok, verifyRoot_eq_ok, recordHash_eq_ok, typedIdHash_eq_ok, revertIf_eq_ok, not_not]
  constructor
  · rintro ⟨_, ⟨hr, rfl⟩, _, ⟨hv, rfl⟩, _, ⟨hg, rfl⟩, s, hl, -, hd, hb⟩
    obtain ⟨hh, rfl⟩ := traceLoop_eq_ok.mp hl
    by_cases hn : e.receipts = []
    · rw [if_neg (by simp [hn]), pure_eq_ok] at hb
      exact ⟨⟨hr, hh, hd, fun h => absurd hn h⟩, hb⟩
    · rw [if_pos (by simpa using hn)] at hb
      simp only [bind_eq_ok, revertIf_eq_ok, orRevert_eq_ok, pure_eq_ok, Bool.not_eq_false] at hb
      obtain ⟨-, ha, _, hver, -, rfl, hb⟩ := hb
      exact ⟨⟨hr, hh, hd, fun _ => ⟨ha, hver⟩⟩, hb⟩
  · rintro ⟨⟨hr, hh, hd, hb⟩, rfl⟩
    refine ⟨_, ⟨hr, rfl⟩, _, ⟨hr.record_valid, rfl⟩, _, ⟨hr.record_valid.1, rfl⟩, _,
      traceLoop_eq_ok.mpr ⟨hh, rfl⟩, (), hd, ?_⟩
    by_cases hn : e.receipts = []
    · rw [if_neg (by simp [hn])]
      rfl
    · rw [if_pos (by simpa using hn)]
      simp only [bind_eq_ok, revertIf_eq_ok, orRevert_eq_ok, pure_eq_ok, Bool.not_eq_false]
      exact ⟨(), (hb hn).1, _, (hb hn).2, (), rfl, rfl⟩

/-! ## The folds of the receipts -/

/-- The prefix after a receipt. -/
def prefixStep (p : Bytes32) (_ : Nat) (r : Receipt) : Bytes32 := nextPrefix p (Preimage.receipt r).hash

theorem traceEnd_tracePrefix (registry : XIRRegistry) (e : Envelope) :
    (traceEnd registry e).tracePrefix = chain prefixStep (rootPrefix e.rid) 0 e.receipts :=
  map_chain TraceState.tracePrefix (fun _ _ _ => rfl) e.receipts (traceStart e) 0

/-- The source expected after a receipt is its destination. -/
theorem chain_next_expectedSrc (registry : XIRRegistry) (rs : List Receipt) (r : Receipt) (s : TraceState) (i : Nat) :
    (chain (TraceState.next registry) s i (rs ++ [r])).expectedSrc = r.dstGateway.hash := by
  rw [chain_snoc]
  rfl

theorem chain_next_bundleAdapter (registry : XIRRegistry) (rs : List Receipt) (r : Receipt) (s : TraceState)
    (i : Nat) : (chain (TraceState.next registry) s i (rs ++ [r])).bundleAdapter =
      (registry.profileAt r.profileHash).adapter := by
  rw [chain_snoc]
  rfl

theorem hops_append {env : Env} {e : Envelope} : ∀ {rs rs' : List Receipt} {s : TraceState} {i : Nat},
    Hops env e s i (rs ++ rs') ↔
      Hops env e s i rs ∧ Hops env e (chain (TraceState.next env.registry) s i rs) (i + rs.length) rs'
  | [], _, _, _ => by simp [Hops, chain]
  | r :: rs, rs', s, i => by
    rw [List.cons_append, Hops, hops_append, Hops, chain, List.length_cons, Nat.add_right_comm, Nat.add_assoc,
      and_assoc]

/-- Every receipt of an accepted trace passes the checks of its turn. -/
theorem Hops.mem {env : Env} {e : Envelope} : ∀ {rs : List Receipt} {s : TraceState} {i : Nat},
    Hops env e s i rs → ∀ r ∈ rs, ∃ s', HopAccepts env e s' r
  | [], _, _, _, _, hr => nomatch hr
  | _ :: _, s, _, h, _, hr => by
    rcases List.mem_cons.mp hr with rfl | hr
    · exact ⟨s, h.1⟩
    · exact h.2.mem _ hr

end Xir.Proof
