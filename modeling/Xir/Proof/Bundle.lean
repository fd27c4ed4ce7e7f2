import Xir.Framework.Chain
import Xir.Impl.Contracts.Adapter
import Xir.Proof.Encoding
import Xir.Proof.Message

/-!
# Receipt tuples and the bundles of them

A delivery makes an adapter accept the receipt tuples it carries, one by one,
and the commitment to their list. `acceptBundle_eq_ok` says so of the loop that
both adapters run, and `receive_eq_ok` of a whole delivery: it leaves the
adapter as it is or accepts `Delivery.tuples`. The commitment is injective over
lists of any length (`commitment_inj`), so an adapter that accepted the lists
`ds` (`Accepted`) reports the commitments of these lists and no others.
-/

namespace Xir.Proof

open Impl Impl.XIREncoding Impl.CarrierAdapter

/-- A receipt tuple. -/
structure Tuple where
  profileHash : Bytes32
  evidenceHash : Bytes32
  transitionHash : Bytes32
  deriving DecidableEq

/-- The tuples of three arrays of one length. -/
def zipTuples : List Bytes32 → List Bytes32 → List Bytes32 → List Tuple
  | p :: ps, e :: es, t :: ts => ⟨p, e, t⟩ :: zipTuples ps es ts
  | _, _, _ => []

theorem length_zipTuples : ∀ {ps es ts : List Bytes32}, ps.length = es.length → ps.length = ts.length →
    (zipTuples ps es ts).length = ps.length
  | [], _, _, _, _ => rfl
  | p :: ps, e :: es, t :: ts, h₁, h₂ => by
    rw [zipTuples, List.length_cons, length_zipTuples (Nat.succ.inj h₁) (Nat.succ.inj h₂), List.length_cons]

theorem profileHash_mem : ∀ {ps es ts : List Bytes32} {t : Tuple}, t ∈ zipTuples ps es ts → t.profileHash ∈ ps
  | p :: ps, e :: es, t :: ts, x, h => by
    rcases List.mem_cons.mp h with rfl | h
    · exact List.mem_cons_self
    · exact List.mem_cons_of_mem _ (profileHash_mem h)
  | [], _, _, _, h => by simp [zipTuples] at h
  | _ :: _, [], _, _, h => by simp [zipTuples] at h
  | _ :: _, _ :: _, [], _, h => by simp [zipTuples] at h

theorem zipTuples_map : ∀ ts : List Tuple,
    zipTuples (ts.map Tuple.profileHash) (ts.map Tuple.evidenceHash) (ts.map Tuple.transitionHash) = ts
  | [] => rfl
  | t :: ts => by rw [List.map_cons, List.map_cons, List.map_cons, zipTuples, zipTuples_map]

end Xir.Proof

namespace Xir.Impl

open Proof

def DeliveryBundle.priors (b : DeliveryBundle) : List Tuple :=
  zipTuples b.priorProfiles b.priorEvidence b.priorTransitions

/-- The arrays of the bundle have one length. -/
def DeliveryBundle.Aligned (b : DeliveryBundle) : Prop :=
  b.priorProfiles.length = b.priorEvidence.length ∧ b.priorProfiles.length = b.priorTransitions.length

instance (b : DeliveryBundle) : Decidable b.Aligned := inferInstanceAs (Decidable (_ ∧ _))

/-- The tuples that a bundle carries, when the message that delivers it is `evidence`. -/
def DeliveryBundle.tuples (b : DeliveryBundle) (evidence : Bytes32) : List Tuple :=
  b.priors ++ [⟨b.profileHash, evidence, b.transitionHash⟩]

end Xir.Impl

namespace Xir.Proof

open Impl Impl.XIREncoding Impl.CarrierAdapter

variable [Keccak]

/-! ## Keys and commitments -/

namespace Tuple

/-- The key of the tuple in `acceptedEvidence`. -/
def key (t : Tuple) : Bytes32 := evidenceKey t.profileHash t.evidenceHash t.transitionHash

theorem key_inj (hk : Function.Injective keccak256) {t t' : Tuple} (h : t.key = t'.key) : t = t' := by
  have h := hk h
  simp only [Abi.encode, Abi.heads, List.append_assoc] at h
  obtain ⟨h₁, h⟩ := BytesN.append_inj h
  obtain ⟨h₂, h⟩ := BytesN.append_inj h
  obtain ⟨h₃, -⟩ := BytesN.append_inj h
  obtain ⟨_, _, _⟩ := t
  obtain ⟨_, _, _⟩ := t'
  simp only at h₁ h₂ h₃
  rw [h₁, h₂, h₃]

end Tuple

/-- A commitment, extended with a tuple. -/
def tupleStep (c : Bytes32) (i : Nat) (t : Tuple) : Bytes32 :=
  bundleStep c i t.profileHash t.evidenceHash t.transitionHash

/-- The commitment to a list of tuples. -/
def commitment (ts : List Tuple) : Bytes32 := chain tupleStep (bundleStart ts.length) 0 ts

theorem tupleStep_chainInj (hk : Function.Injective keccak256) :
    ChainInj tupleStep (fun _ => True) (fun d => ∃ n, d = bundleStart n) where
  step_inj {c c' i i' t t'} _ _ h := by
    obtain ⟨h₁, -, h₂, h₃, h₄⟩ := Preimage.bundleStep.inj (Preimage.hash_inj hk trivial trivial h)
    obtain ⟨_, _, _⟩ := t
    obtain ⟨_, _, _⟩ := t'
    simp only at h₂ h₃ h₄
    rw [h₁, h₂, h₃, h₄]
    exact ⟨rfl, rfl⟩
  not_start {c i t} _ := by
    rintro ⟨n, h⟩
    cases Preimage.hash_inj (p := .bundleStep ..) (q := .bundleStart (word n)) hk trivial trivial h

/-- A commitment determines the list. -/
theorem commitment_inj (hk : Function.Injective keccak256) {ts ts' : List Tuple}
    (h : commitment ts = commitment ts') : ts = ts' :=
  (chain_inj (tupleStep_chainInj hk) ⟨_, rfl⟩ ⟨_, rfl⟩ (fun _ _ => trivial) (fun _ _ => trivial) h).2

/-! ## Accepting a delivery -/

end Xir.Proof

namespace Xir.Impl.CarrierAdapter

open Proof

variable [Keccak]

/-- Accepts each of `ts`. -/
def acceptAll (a : CarrierAdapter) (ts : List Tuple) : CarrierAdapter :=
  { a with acceptedEvidence := fun h => a.acceptedEvidence h || ts.any (fun t => h = t.key) }

/-- Accepts each of `ts`, and the list of them. -/
def accept (a : CarrierAdapter) (ts : List Tuple) : CarrierAdapter :=
  (a.acceptAll ts).acceptCommitment (commitment ts)

theorem acceptEvidence_eq (a : CarrierAdapter) (t : Tuple) :
    a.acceptEvidence t.profileHash t.evidenceHash t.transitionHash = a.acceptAll [t] := by
  have : Function.update a.acceptedEvidence t.key true = fun h => a.acceptedEvidence h || decide (h = t.key) := by
    funext h
    by_cases hh : h = t.key <;> simp [hh]
  simp only [acceptEvidence, acceptAll, List.any_cons, List.any_nil, Bool.or_false]
  exact congrArg (fun m => { a with acceptedEvidence := m }) this

theorem acceptAll_acceptAll (a : CarrierAdapter) (ts ts' : List Tuple) :
    (a.acceptAll ts).acceptAll ts' = a.acceptAll (ts ++ ts') := by
  simp only [acceptAll, List.any_append, Bool.or_assoc]

theorem acceptAll_comm (a : CarrierAdapter) (ts ts' : List Tuple) :
    a.acceptAll (ts ++ ts') = a.acceptAll (ts' ++ ts) := by
  simp only [acceptAll, List.any_append, Bool.or_comm (ts.any _)]

theorem acceptAll_nil (a : CarrierAdapter) : a.acceptAll [] = a := by
  simp only [acceptAll, List.any_nil, Bool.or_false]

theorem carryPriors_eq : ∀ {ps es ts : List Bytes32} (a : CarrierAdapter) (c : Bytes32) (i : Nat),
    ps.length = es.length → ps.length = ts.length →
    a.carryPriors c i ps es ts = (a.acceptAll (zipTuples ps es ts), chain tupleStep c i (zipTuples ps es ts))
  | [], [], [], a, c, i, _, _ => by
    simp only [carryPriors, zipTuples, acceptAll_nil, chain]
  | p :: ps, e :: es, t :: ts, a, c, i, h₁, h₂ => by
    rw [carryPriors, carryPriors_eq _ _ _ (Nat.succ.inj h₁) (Nat.succ.inj h₂), zipTuples, chain,
      acceptEvidence_eq a ⟨p, e, t⟩, acceptAll_acceptAll]
    rfl

/-- The delivery of a bundle accepts the tuples it carries. -/
theorem acceptBundle_eq_ok {a a' : CarrierAdapter} {b : DeliveryBundle} {evidence : Bytes32} :
    a.acceptBundle b evidence = .ok a' ↔ b.Aligned ∧ a.accept (b.tuples evidence) = a' := by
  rw [acceptBundle, revertIf_bind, not_or, not_not, not_not]
  refine and_congr_right fun h => ?_
  have hl : b.priors.length = b.priorProfiles.length := length_zipTuples h.1 h.2
  simp only [acceptEvidence_eq a ⟨b.profileHash, evidence, b.transitionHash⟩, carryPriors_eq _ _ _ h.1 h.2,
    acceptAll_acceptAll, pure_eq_ok]
  rw [accept, acceptAll_comm]
  refine Eq.congr_left (congrArg₂ acceptCommitment rfl ?_)
  rw [commitment, DeliveryBundle.tuples, chain_snoc, Nat.zero_add, List.length_append, hl]
  rfl

theorem accept_acceptedEvidence {c : CarrierAdapter} {ts : List Tuple} {h : Bytes32} :
    (c.accept ts).acceptedEvidence h = true ↔ c.acceptedEvidence h = true ∨ ∃ t ∈ ts, h = t.key := by
  simp [accept, acceptAll, acceptCommitment]

theorem accept_acceptedBundles {c : CarrierAdapter} {ts : List Tuple} {h : Bytes32} :
    (c.accept ts).acceptedBundles h = true ↔ c.acceptedBundles h = true ∨ h = commitment ts := by
  simp only [accept, acceptAll, acceptCommitment, Function.update_apply]
  by_cases hc : h = commitment ts <;> simp [hc]

end Xir.Impl.CarrierAdapter

/-! ## Deliveries -/

namespace Xir.Impl.Delivery

open Proof HyperlaneAdapter

variable [Keccak]

/-- The digest or the id by which the receiving adapter knows the message. -/
def evidence : Delivery → Bytes32
  | handle origin sender body => messageId origin sender body
  | lzReceive _ guid _ => guid

/-- The tuples of a body of kind `KIND_XIR` of the Hyperlane adapter. -/
def rawTuples (message : Bytes) : Option (List Tuple) := do
  let (profileHash, transitionHash, evidenceHash) ← decodeTuple message
  if evidenceHash = 0 then none else some [⟨profileHash, evidenceHash, transitionHash⟩]

/-- The tuples of a bundle. -/
def bundleTuples (message : Bytes) (evidence : Bytes32) : Option (List Tuple) := do
  let bundle ← decodeBundle message
  if bundle.Aligned then some (bundle.tuples evidence) else none

/-- The tuples that a delivery carries, for a body that is a bundle or a raw tuple. -/
def tuples (d : Delivery) : Option (List Tuple) := do
  let (kind, message) ← decodeMessage d.body
  match d with
  | handle .. =>
    if kind = KIND_XIR_BUNDLE then bundleTuples message d.evidence
    else if kind = HyperlaneAdapter.KIND_XIR then rawTuples message
    else none
  | lzReceive .. => if kind = LayerZeroAdapter.KIND_XIR then bundleTuples message d.evidence else none

omit [Keccak] in
theorem rawTuples_eq_some {m : Bytes} {ts : List Tuple} :
    rawTuples m = some ts ↔ ∃ p t e, decodeTuple m = some (p, t, e) ∧ e ≠ 0 ∧ [⟨p, e, t⟩] = ts := by
  simp [rawTuples, Option.bind_eq_some_iff]

omit [Keccak] in
theorem bundleTuples_eq_some {m : Bytes} {e : Bytes32} {ts : List Tuple} :
    bundleTuples m e = some ts ↔ ∃ b, decodeBundle m = some b ∧ b.Aligned ∧ b.tuples e = ts := by
  simp [bundleTuples, Option.bind_eq_some_iff]

/-- A raw body delivers its tuple. -/
theorem tuples_of_raw {origin : UInt32} {sender : Bytes32} {body : Bytes} {t : Tuple} (ht : t.evidenceHash ≠ 0)
    (h : encodeMessage HyperlaneAdapter.KIND_XIR
      (Abi.encode [.static t.profileHash, .static t.transitionHash, .static t.evidenceHash]) = .ok body) :
    (handle origin sender body).tuples = some [t] := by
  simp only [tuples, Delivery.body, decodeMessage_of_encode h, Option.bind_eq_bind, Option.bind_some]
  rw [if_neg (by decide), if_pos trivial, rawTuples_eq_some]
  exact ⟨_, _, _, decodeTuple_encode _ _ _, ht, rfl⟩

/-- The body of a request, delivered by the mailbox. -/
theorem tuples_of_bundle {origin : UInt32} {sender : Bytes32} {message body : Bytes} {b : DeliveryBundle}
    (hb : b.Aligned) (h : encodeBundle b = .ok message) (h' : encodeMessage KIND_XIR_BUNDLE message = .ok body) :
    (handle origin sender body).tuples = some (b.tuples (messageId origin sender body)) := by
  simp only [tuples, Delivery.body, decodeMessage_of_encode h', Option.bind_eq_bind, Option.bind_some]
  rw [if_pos trivial, bundleTuples_eq_some]
  exact ⟨b, decodeBundle_of_encode h, hb, rfl⟩

/-- The message of a request, delivered by the endpoint. -/
theorem tuples_of_params {origin : Origin} {guid : Bytes32} {message body : Bytes} {b : DeliveryBundle}
    (hb : b.Aligned) (h : encodeBundle b = .ok message)
    (h' : encodeMessage LayerZeroAdapter.KIND_XIR message = .ok body) :
    (lzReceive origin guid body).tuples = some (b.tuples guid) := by
  simp only [tuples, Delivery.body, decodeMessage_of_encode h', Option.bind_eq_bind, Option.bind_some]
  rw [if_pos trivial, bundleTuples_eq_some]
  exact ⟨b, decodeBundle_of_encode h, hb, rfl⟩

end Xir.Impl.Delivery

namespace Xir.Impl.Adapter

open Proof

variable [Keccak]

/-- The adapter with another evidence, of the contract's own kind. -/
def withCarrier : Adapter → CarrierAdapter → Adapter
  | hyperlane a, c => hyperlane { a with toCarrierAdapter := c }
  | layerZero a, c => layerZero { a with toCarrierAdapter := c }

omit [Keccak] in
@[simp] theorem carrier_withCarrier (a : Adapter) (c : CarrierAdapter) : (a.withCarrier c).carrier = c := by
  cases a <;> rfl

/-- The delivery names the remote adapter as its sender. -/
def FromRemote : Adapter → Delivery → Prop
  | hyperlane a, .handle origin sender _ =>
    a.remoteAdapter ≠ 0 ∧ origin = a.remoteDomain ∧ sender = a.remoteAdapter
  | layerZero a, .lzReceive origin _ _ =>
    a.remotePeer ≠ 0 ∧ origin.srcEid = a.remoteEid ∧ origin.sender = a.remotePeer
  | _, _ => False

/-- The delivery is of a baseline message, which the receiver of its route takes. -/
def TakesBaseline (baselineCarrierReceive : Address → Bytes32 → Bytes → Bool) (a : Adapter) (d : Delivery) : Prop :=
  ∃ message, decodeMessage d.body = some (HyperlaneAdapter.KIND_BASELINE, message) ∧
    a.carrier.receiveBaseline baselineCarrierReceive d.evidence message = .ok ()

/-- The branch of both contracts that accepts a bundle. -/
theorem acceptBundle_bind {β : Type} {c : CarrierAdapter} {f : CarrierAdapter → β} {b : β} {m : Bytes} {e : Bytes32} :
    (do let bundle ← orRevert .decoding (decodeBundle m)
        let c ← c.acceptBundle bundle e
        pure (f c)) = (.ok b : Except Revert β) ↔
      ∃ ts, Delivery.bundleTuples m e = some ts ∧ f (c.accept ts) = b := by
  rw [orRevert_bind]
  simp only [bind_eq_ok, CarrierAdapter.acceptBundle_eq_ok, pure_eq_ok, Delivery.bundleTuples_eq_some]
  constructor
  · rintro ⟨bundle, hd, _, ⟨hb, rfl⟩, rfl⟩
    exact ⟨_, ⟨bundle, hd, hb, rfl⟩, rfl⟩
  · rintro ⟨_, ⟨bundle, hd, hb, rfl⟩, rfl⟩
    exact ⟨bundle, hd, _, ⟨hb, rfl⟩, rfl⟩

/-- A list of one tuple is accepted as a bundle of it. -/
theorem accept_singleton (c : CarrierAdapter) (t : Tuple) :
    (c.acceptEvidence t.profileHash t.evidenceHash t.transitionHash).acceptCommitment
      (tupleStep (XIREncoding.bundleStart 1) 0 t) = c.accept [t] := by
  rw [CarrierAdapter.acceptEvidence_eq]
  rfl

omit [Keccak] in
/-- The branch that accepts a baseline message. -/
theorem receiveBaseline_bind {β : Type} {c : CarrierAdapter} {r : Address → Bytes32 → Bytes → Bool} {m : Bytes}
    {e : Bytes32} {a b : β} :
    (do c.receiveBaseline r e m
        pure a) = (.ok b : Except Revert β) ↔ c.receiveBaseline r e m = .ok () ∧ a = b := by
  rw [unit_bind, pure_eq_ok]

theorem handle_eq_ok {r : Address → Bytes32 → Bytes → Bool} {caller : Address} {a a' : HyperlaneAdapter}
    {origin : UInt32} {sender : Bytes32} {body : Bytes} :
    a.handle r caller origin sender body = .ok a' ↔
      caller = a.mailbox ∧ (hyperlane a).FromRemote (.handle origin sender body) ∧
        ((∃ ts, (Delivery.handle origin sender body).tuples = some ts ∧
          { a with toCarrierAdapter := a.accept ts } = a') ∨
          TakesBaseline r (hyperlane a) (.handle origin sender body) ∧ a = a') := by
  rw [HyperlaneAdapter.handle, revertIf_bind, revertIf_bind, orRevert_bind, not_not, not_or, not_or, not_not, not_not]
  refine and_congr_right fun _ => and_congr_right fun _ => ?_
  simp only [TakesBaseline, Delivery.tuples, Delivery.body]
  cases decodeMessage body with
  | none => simp
  | some km =>
    obtain ⟨k, m⟩ := km
    simp only [Option.some.injEq, exists_eq_left', Option.bind_eq_bind, Option.bind_some, Prod.mk.injEq]
    by_cases h₁ : k = HyperlaneAdapter.KIND_BASELINE
    · have h₂ : k ≠ HyperlaneAdapter.KIND_XIR_BUNDLE := h₁ ▸ by decide
      have h₃ : k ≠ HyperlaneAdapter.KIND_XIR := h₁ ▸ by decide
      rw [if_pos h₁, receiveBaseline_bind, if_neg h₂, if_neg h₃]
      simp [h₁, carrier, Delivery.evidence]
    rw [if_neg h₁]
    have hb : ¬ ∃ message, (k = HyperlaneAdapter.KIND_BASELINE ∧ m = message) ∧ (hyperlane a).carrier.receiveBaseline r
        (Delivery.handle origin sender body).evidence message = .ok () := fun ⟨_, h, _⟩ => h₁ h.1
    simp only [hb, false_and, or_false]
    by_cases h₂ : k = HyperlaneAdapter.KIND_XIR_BUNDLE
    · rw [if_pos h₂, if_pos h₂]
      exact acceptBundle_bind
    rw [if_neg h₂, if_neg h₂, revertIf_bind, not_not]
    by_cases h₃ : k = HyperlaneAdapter.KIND_XIR
    · simp only [h₃, if_true, true_and, orRevert_bind, revertIf_bind, pure_eq_ok, Delivery.rawTuples_eq_some]
      constructor
      · rintro ⟨⟨p, t, e⟩, hd, he, ha⟩
        exact ⟨_, ⟨p, t, e, hd, he, rfl⟩, by rw [← ha, ← accept_singleton]; rfl⟩
      · rintro ⟨_, ⟨p, t, e, hd, he, rfl⟩, ha⟩
        exact ⟨(p, t, e), hd, he, by rw [← ha, ← accept_singleton]; rfl⟩
    · simp [h₃]

theorem lzReceive_eq_ok {r : Address → Bytes32 → Bytes → Bool} {caller : Address} {a a' : LayerZeroAdapter}
    {origin : Origin} {guid : Bytes32} {message : Bytes} :
    a.lzReceive r caller origin guid message = .ok a' ↔
      caller = a.endpoint ∧ (layerZero a).FromRemote (.lzReceive origin guid message) ∧
        ((∃ ts, (Delivery.lzReceive origin guid message).tuples = some ts ∧
          { a with toCarrierAdapter := a.accept ts } = a') ∨
          TakesBaseline r (layerZero a) (.lzReceive origin guid message) ∧ a = a') := by
  rw [LayerZeroAdapter.lzReceive, revertIf_bind, revertIf_bind, orRevert_bind, not_not, not_or, not_or, not_not,
    not_not]
  refine and_congr_right fun _ => and_congr_right fun _ => ?_
  simp only [TakesBaseline, Delivery.tuples, Delivery.body]
  cases decodeMessage message with
  | none => simp
  | some km =>
    obtain ⟨k, m⟩ := km
    simp only [Option.some.injEq, exists_eq_left', Option.bind_eq_bind, Option.bind_some, Prod.mk.injEq]
    by_cases h₁ : k = LayerZeroAdapter.KIND_BASELINE
    · have h₂ : k ≠ LayerZeroAdapter.KIND_XIR := h₁ ▸ by decide
      rw [if_pos h₁, receiveBaseline_bind, if_neg h₂]
      simp [h₁, carrier, Delivery.evidence,
        show LayerZeroAdapter.KIND_BASELINE = HyperlaneAdapter.KIND_BASELINE from rfl]
    rw [if_neg h₁]
    have hb : ¬ ∃ message', (k = HyperlaneAdapter.KIND_BASELINE ∧ m = message') ∧
        (layerZero a).carrier.receiveBaseline r (Delivery.lzReceive origin guid message).evidence message' =
          .ok () := fun ⟨_, h, _⟩ => h₁ h.1
    simp only [hb, false_and, or_false]
    rw [revertIf_bind, not_not]
    by_cases h₂ : k = LayerZeroAdapter.KIND_XIR
    · rw [if_pos h₂, and_iff_right h₂]
      exact acceptBundle_bind
    · simp [h₂]

/-- A delivery that is taken leaves the adapter as it is, or makes it accept the
tuples it carries. -/
theorem receive_eq_ok {r : Address → Bytes32 → Bytes → Bool} {caller : Address} {a a' : Adapter} {d : Delivery} :
    a.receive r caller d = .ok a' ↔
      caller = a.native ∧ a.FromRemote d ∧
        ((∃ ts, d.tuples = some ts ∧ a.withCarrier (a.carrier.accept ts) = a') ∨ TakesBaseline r a d ∧ a = a') := by
  cases a with
  | hyperlane a =>
    cases d with
    | handle origin sender body =>
      simp only [receive, bind_eq_ok, handle_eq_ok, pure_eq_ok]
      constructor
      · rintro ⟨_, ⟨hc, hf, ⟨ts, ht, rfl⟩ | ⟨hb, rfl⟩⟩, rfl⟩
        · exact ⟨hc, hf, .inl ⟨ts, ht, rfl⟩⟩
        · exact ⟨hc, hf, .inr ⟨hb, rfl⟩⟩
      · rintro ⟨hc, hf, ⟨ts, ht, rfl⟩ | ⟨hb, rfl⟩⟩
        · exact ⟨_, ⟨hc, hf, .inl ⟨ts, ht, rfl⟩⟩, rfl⟩
        · exact ⟨_, ⟨hc, hf, .inr ⟨hb, rfl⟩⟩, rfl⟩
    | lzReceive => simp [receive, FromRemote]
  | layerZero a =>
    cases d with
    | handle => simp [receive, FromRemote]
    | lzReceive origin guid message =>
      simp only [receive, bind_eq_ok, lzReceive_eq_ok, pure_eq_ok]
      constructor
      · rintro ⟨_, ⟨hc, hf, ⟨ts, ht, rfl⟩ | ⟨hb, rfl⟩⟩, rfl⟩
        · exact ⟨hc, hf, .inl ⟨ts, ht, rfl⟩⟩
        · exact ⟨hc, hf, .inr ⟨hb, rfl⟩⟩
      · rintro ⟨hc, hf, ⟨ts, ht, rfl⟩ | ⟨hb, rfl⟩⟩
        · exact ⟨_, ⟨hc, hf, .inl ⟨ts, ht, rfl⟩⟩, rfl⟩
        · exact ⟨_, ⟨hc, hf, .inr ⟨hb, rfl⟩⟩, rfl⟩

end Xir.Impl.Adapter
