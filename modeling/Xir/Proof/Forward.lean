import Xir.Proof.Bundle

/-!
# Forwarding a bundle

The four functions that send a bundle dispatch it if the checks of
`ForwardChecks` and those of the sender pass (`send_bundle_eq_ok`). The body is
read back by the adapter it is delivered to, which then accepts the priors of
the request and one last tuple, of the message itself (`forward_integrity`).
-/

namespace Xir.Impl

open Proof

def ForwardRequest.priors (request : ForwardRequest) : List Tuple :=
  zipTuples request.profileHashes request.evidenceHashes request.transitionHashes

/-- A request whose verifiers are all `verifier`. -/
def ForwardRequest.of (verifier : Address) (priors : List Tuple) (profileHash transitionHash : Bytes32) :
    ForwardRequest where
  verifiers := List.replicate priors.length verifier
  profileHashes := priors.map Tuple.profileHash
  evidenceHashes := priors.map Tuple.evidenceHash
  transitionHashes := priors.map Tuple.transitionHash
  currentProfileHash := profileHash
  currentTransitionHash := transitionHash

theorem ForwardRequest.priors_of (verifier : Address) (priors : List Tuple) (profileHash transitionHash : Bytes32) :
    (of verifier priors profileHash transitionHash).priors = priors := zipTuples_map priors

namespace CarrierAdapter

/-! ## The checks of a request -/

/-- The four arrays have one length, the verifiers are the approved ones, and each
approved verifier reports its prior tuple verified. -/
structure ForwardChecks (a : CarrierAdapter) (carriers : Address → Carrier) (request : ForwardRequest) : Prop where
  profiles : request.verifiers.length = request.profileHashes.length
  evidence : request.verifiers.length = request.evidenceHashes.length
  transitions : request.verifiers.length = request.transitionHashes.length
  verifiers : request.verifiers = request.profileHashes.map a.approvedPriorVerifiers
  approved : ∀ p ∈ request.profileHashes, a.approvedPriorVerifiers p ≠ 0
  verified : ∀ t ∈ request.priors, (carriers (a.approvedPriorVerifiers t.profileHash)).verify t.profileHash
    t.evidenceHash t.transitionHash = some true

theorem checkBundle_eq_ok {request : ForwardRequest} :
    _checkBundle request = .ok () ↔ request.verifiers.length = request.profileHashes.length ∧
      request.verifiers.length = request.evidenceHashes.length ∧
      request.verifiers.length = request.transitionHashes.length := by
  rw [_checkBundle, revertIf_eq_ok, not_or, not_or, not_not, not_not, not_not]

theorem checkBindings_eq_ok {a : CarrierAdapter} : ∀ {vs : List Address} {ps : List Bytes32} {i : Nat},
    vs.length = ps.length →
    (a.checkBindings i vs ps = .ok () ↔
      vs = ps.map a.approvedPriorVerifiers ∧ ∀ p ∈ ps, a.approvedPriorVerifiers p ≠ 0)
  | [], [], _, _ => by simp [checkBindings]
  | v :: vs, p :: ps, i, h => by
    rw [checkBindings, revertIf_bind, checkBindings_eq_ok (Nat.succ.inj h), List.map_cons, List.cons_eq_cons,
      List.forall_mem_cons, not_or, not_not]
    tauto

theorem checkEvidence_eq_ok {a : CarrierAdapter} {carriers : Address → Carrier} :
    ∀ {ps es ts : List Bytes32} {i : Nat}, a.checkEvidence carriers i ps es ts = .ok () ↔
      ∀ t ∈ zipTuples ps es ts, (carriers (a.approvedPriorVerifiers t.profileHash)).verify t.profileHash
        t.evidenceHash t.transitionHash = some true
  | p :: ps, e :: es, t :: ts, i => by
    rw [checkEvidence, orRevert_bind, zipTuples, List.forall_mem_cons]
    simp only [revertIf_bind, checkEvidence_eq_ok, Bool.not_eq_false]
    constructor
    · rintro ⟨_, h, rfl, hs⟩
      exact ⟨h, hs⟩
    · rintro ⟨h, hs⟩
      exact ⟨_, h, rfl, hs⟩
  | [], _, _, _ => by simp [checkEvidence, zipTuples]
  | _ :: _, [], _, _ => by simp [checkEvidence, zipTuples]
  | _ :: _, _ :: _, [], _ => by simp [checkEvidence, zipTuples]

/-- The checks that both contracts make first, and what follows them. -/
theorem forwardChecks_iff {a : CarrierAdapter} {carriers : Address → Carrier} {request : ForwardRequest} :
    _checkBundle request = .ok () ∧ a._checkPriorVerifierBindings request = .ok () ∧
      a.checkEvidence carriers 0 request.profileHashes request.evidenceHashes request.transitionHashes = .ok () ↔
    a.ForwardChecks carriers request := by
  rw [checkBundle_eq_ok, checkEvidence_eq_ok, _checkPriorVerifierBindings]
  constructor
  · rintro ⟨⟨h₁, h₂, h₃⟩, hb, hv⟩
    obtain ⟨h₄, h₅⟩ := (checkBindings_eq_ok h₁).mp hb
    exact ⟨h₁, h₂, h₃, h₄, h₅, hv⟩
  · rintro ⟨h₁, h₂, h₃, h₄, h₅, hv⟩
    exact ⟨⟨h₁, h₂, h₃⟩, (checkBindings_eq_ok h₁).mpr ⟨h₄, h₅⟩, hv⟩

theorem ForwardChecks.aligned {a : CarrierAdapter} {carriers : Address → Carrier} {request : ForwardRequest}
    (h : a.ForwardChecks carriers request) : request.bundle.Aligned :=
  ⟨h.profiles.symm.trans h.evidence, h.profiles.symm.trans h.transitions⟩

end CarrierAdapter

namespace OutboundControl

/-- The sender and the state allow a send, of a source or of a message in flight. -/
def MaySend (c : OutboundControl) (sender : Address) (source : Bool) : Prop :=
  sender = c.runner ∧ c.outboundPaused = false ∧ (source = true → c.draining = false)

theorem sourceAllowed_iff {c : OutboundControl} {sender : Address} :
    c.onlyRunner sender = .ok () ∧ c.whenSourceStartAllowed = .ok () ↔ c.MaySend sender true := by
  simp [onlyRunner, whenSourceStartAllowed, revertIf_bind, MaySend]

theorem outboundActive_iff {c : OutboundControl} {sender : Address} :
    c.onlyRunner sender = .ok () ∧ c.whenOutboundActive = .ok () ↔ c.MaySend sender false := by
  simp [onlyRunner, whenOutboundActive, MaySend]

end OutboundControl

namespace Adapter

open CarrierAdapter

variable [Keccak]

/-! ## Sending a bundle -/

/-- The call that sends a bundle, of a source or in flight. -/
def bundleCall (source : Bool) (request : ForwardRequest) (options : Bytes) : SendCall :=
  if source then .sendBundle request options else .forwardBundle request options

/-- The kind of a message that holds a bundle. -/
def bundleKind : Adapter → UInt8
  | hyperlane _ => HyperlaneAdapter.KIND_XIR_BUNDLE
  | layerZero _ => LayerZeroAdapter.KIND_XIR

def remoteChain : Adapter → UInt32
  | hyperlane a => a.remoteDomain
  | layerZero a => a.remoteEid

def remote : Adapter → Bytes32
  | hyperlane a => a.remoteAdapter
  | layerZero a => a.remotePeer

/-- What the LayerZero adapter checks besides the request. -/
def TakesOptions : Adapter → Bytes → Prop
  | hyperlane _, _ => True
  | layerZero a, options =>
    a.enforcedOptionsHash ≠ 0 ∧ keccak256 options = a.enforcedOptionsHash ∧ a.remotePeer ≠ 0

/-- The body of a bundle of kind `k`. -/
def BundleBody (k : UInt8) (b : DeliveryBundle) (body : Bytes) : Prop :=
  ∃ message, encodeBundle b = .ok message ∧ encodeMessage k message = .ok body

omit [Keccak] in
theorem hyperlane_forwardVerified_eq_ok {a : HyperlaneAdapter} {carriers : Address → Carrier}
    {request : ForwardRequest} {m : MailboxDispatch} :
    a._forwardVerified carriers request = .ok m ↔ a.ForwardChecks carriers request ∧
      ∃ body, BundleBody HyperlaneAdapter.KIND_XIR_BUNDLE request.bundle body ∧
        m = ⟨a.remoteDomain, a.remoteAdapter, body⟩ := by
  simp only [HyperlaneAdapter._forwardVerified, unit_bind, ← forwardChecks_iff, and_assoc]
  refine and_congr_right fun _ => and_congr_right fun _ => and_congr_right fun _ => ?_
  simp only [HyperlaneAdapter._bundleBody, HyperlaneAdapter._dispatch, bind_eq_ok, pure_eq_ok, BundleBody]
  constructor
  · rintro ⟨body, ⟨message, hm, hb⟩, rfl⟩
    exact ⟨body, ⟨message, hm, hb⟩, rfl⟩
  · rintro ⟨body, ⟨message, hm, hb⟩, rfl⟩
    exact ⟨body, ⟨message, hm, hb⟩, rfl⟩

theorem layerZero_forwardVerified_eq_ok {a : LayerZeroAdapter} {carriers : Address → Carrier}
    {request : LayerZeroAdapter.ForwardRequest} {m : MessagingParams} :
    a._forwardVerified carriers request = .ok m ↔ a.ForwardChecks carriers request.toForwardRequest ∧
      (layerZero a).TakesOptions request.options ∧
        ∃ body, BundleBody LayerZeroAdapter.KIND_XIR request.bundle body ∧
          m = ⟨a.remoteEid, a.remotePeer, body, request.options, false⟩ := by
  simp only [LayerZeroAdapter._forwardVerified, LayerZeroAdapter._params, LayerZeroAdapter._checkOptions, unit_bind,
    revertIf_eq_ok, ← forwardChecks_iff, TakesOptions, not_not]
  simp only [bind_eq_ok, pure_eq_ok, BundleBody]
  constructor
  · rintro ⟨hc, hp, ⟨ho, hk⟩, he, hr, message, hm, body, hb, rfl⟩
    exact ⟨⟨hc, hp, he⟩, ⟨ho, hk, hr⟩, body, ⟨message, hm, hb⟩, rfl⟩
  · rintro ⟨⟨hc, hp, he⟩, ⟨ho, hk, hr⟩, body, ⟨message, hm, hb⟩, rfl⟩
    exact ⟨hc, hp, ⟨ho, hk⟩, he, hr, message, hm, body, hb, rfl⟩

section Entry

open OutboundControl

variable {carriers : Address → Carrier} {sender : Address}

omit [Keccak]

theorem sendSourceBundle_eq_ok {a : HyperlaneAdapter} {request : ForwardRequest} {m : MailboxDispatch} :
    a.sendSourceBundle carriers sender request = .ok m ↔
      a.MaySend sender true ∧ a._forwardVerified carriers request = .ok m := by
  rw [HyperlaneAdapter.sendSourceBundle, unit_bind, unit_bind, ← and_assoc, sourceAllowed_iff]

theorem forwardInFlightBundle_eq_ok {a : HyperlaneAdapter} {request : ForwardRequest} {m : MailboxDispatch} :
    a.forwardInFlightBundle carriers sender request = .ok m ↔
      a.MaySend sender false ∧ a._forwardVerified carriers request = .ok m := by
  rw [HyperlaneAdapter.forwardInFlightBundle, unit_bind, unit_bind, ← and_assoc, outboundActive_iff]

variable [Keccak]

theorem sendSource_eq_ok {a : LayerZeroAdapter} {request : LayerZeroAdapter.ForwardRequest} {m : MessagingParams} :
    a.sendSource carriers sender request = .ok m ↔
      a.MaySend sender true ∧ a._forwardVerified carriers request = .ok m := by
  rw [LayerZeroAdapter.sendSource, unit_bind, unit_bind, ← and_assoc, sourceAllowed_iff]

theorem forwardInFlight_eq_ok {a : LayerZeroAdapter} {request : LayerZeroAdapter.ForwardRequest}
    {m : MessagingParams} :
    a.forwardInFlight carriers sender request = .ok m ↔
      a.MaySend sender false ∧ a._forwardVerified carriers request = .ok m := by
  rw [LayerZeroAdapter.forwardInFlight, unit_bind, unit_bind, ← and_assoc, outboundActive_iff]

end Entry

/-- What a call that sends a bundle checks. -/
structure SendChecks (a : Adapter) (carriers : Address → Carrier) (sender : Address) (source : Bool)
    (request : ForwardRequest) (options : Bytes) : Prop where
  control : a.carrier.MaySend sender source
  forward : a.carrier.ForwardChecks carriers request
  options : a.TakesOptions options

/-- A bundle is dispatched if all checks pass and it fits in a message. -/
theorem send_bundle_eq_ok {a : Adapter} {carriers : Address → Carrier} {sender : Address} {source : Bool}
    {request : ForwardRequest} {options : Bytes} {m : Message} :
    a.send carriers sender (bundleCall source request options) = .ok m ↔
      a.SendChecks carriers sender source request options ∧
        ∃ body, BundleBody a.bundleKind request.bundle body ∧ ⟨a.remoteChain, a.remote, body⟩ = m := by
  cases a with
  | hyperlane a =>
    have key : a.MaySend sender source ∧ (∃ d, a._forwardVerified carriers request = .ok d ∧ d.toMessage = m) ↔
        (hyperlane a).SendChecks carriers sender source request options ∧ ∃ body,
          BundleBody (hyperlane a).bundleKind request.bundle body ∧ ⟨a.remoteDomain, a.remoteAdapter, body⟩ = m := by
      simp only [hyperlane_forwardVerified_eq_ok]
      constructor
      · rintro ⟨hs, d, ⟨hf, body, hb, rfl⟩, rfl⟩
        exact ⟨⟨hs, hf, trivial⟩, body, hb, rfl⟩
      · rintro ⟨⟨hs, hf, -⟩, body, hb, rfl⟩
        exact ⟨hs, _, ⟨hf, body, hb, rfl⟩, rfl⟩
    refine Iff.trans ?_ key
    cases source <;>
      simp only [bundleCall, send, bind_eq_ok, pure_eq_ok, sendSourceBundle_eq_ok,
        forwardInFlightBundle_eq_ok, and_assoc, exists_and_left, if_true, Bool.false_eq_true, if_false]
  | layerZero a =>
    have key : a.MaySend sender source ∧
        (∃ d, a._forwardVerified carriers ⟨request, options⟩ = .ok d ∧ d.toMessage = m) ↔
        (layerZero a).SendChecks carriers sender source request options ∧ ∃ body,
          BundleBody (layerZero a).bundleKind request.bundle body ∧ ⟨a.remoteEid, a.remotePeer, body⟩ = m := by
      simp only [layerZero_forwardVerified_eq_ok]
      constructor
      · rintro ⟨hs, d, ⟨hf, ho, body, hb, rfl⟩, rfl⟩
        exact ⟨⟨hs, hf, ho⟩, body, hb, rfl⟩
      · rintro ⟨⟨hs, hf, ho⟩, body, hb, rfl⟩
        exact ⟨hs, _, ⟨hf, ho, body, hb, rfl⟩, rfl⟩
    refine Iff.trans ?_ key
    cases source <;>
      simp only [bundleCall, send, bind_eq_ok, pure_eq_ok, sendSource_eq_ok, forwardInFlight_eq_ok, and_assoc,
        exists_and_left, if_true, Bool.false_eq_true, if_false]

/-- A delivery by the remote adapter of a bundle that an adapter of its kind sent. -/
theorem tuples_of_bundleBody {b : Adapter} {d : Delivery} {bundle : DeliveryBundle} (hf : b.FromRemote d)
    (ha : bundle.Aligned) (hb : BundleBody b.bundleKind bundle d.body) :
    d.tuples = some (bundle.tuples d.evidence) := by
  obtain ⟨message, hm, hb⟩ := hb
  cases b <;> cases d
  case hyperlane.handle => exact Delivery.tuples_of_bundle ha hm hb
  case layerZero.lzReceive => exact Delivery.tuples_of_params ha hm hb
  all_goals exact hf.elim

end Adapter

/-! ## What a call sends -/

namespace SendCall

/-- The prior tuples of a call that sends a bundle. -/
def priors : SendCall → List Tuple
  | sendBundle request _ | forwardBundle request _ => request.priors
  | _ => []

/-- The profile that a call names as that of the message itself. -/
def ownProfile : SendCall → Option Bytes32
  | sendBundle request _ | forwardBundle request _ => some request.currentProfileHash
  | sendRaw body | forwardRaw body => (HyperlaneAdapter.decodeTuple body).map Prod.fst
  | _ => none

/-- The tuples that a delivery of the message of a call carries. -/
def tuples (evidence : Bytes32) : SendCall → Option (List Tuple)
  | sendBundle request _ | forwardBundle request _ => some (request.bundle.tuples evidence)
  | sendRaw body | forwardRaw body => Delivery.rawTuples body
  | _ => none

/-- A tuple that a message carries is one of its priors, or names the message's own profile. -/
theorem mem_tuples {c : SendCall} {e : Bytes32} {ts : List Tuple} {t : Tuple} (h : c.tuples e = some ts) (ht : t ∈ ts) :
    t ∈ c.priors ∨ c.ownProfile = some t.profileHash := by
  cases c with
  | sendBundle request options | forwardBundle request options =>
    obtain rfl := Option.some.inj h
    rcases List.mem_append.mp ht with ht | ht
    · exact .inl ht
    · rw [List.mem_singleton.mp ht]
      exact .inr rfl
  | sendRaw body | forwardRaw body =>
    obtain ⟨p, t', e', hd, -, rfl⟩ := Delivery.rawTuples_eq_some.mp h
    rw [List.mem_singleton.mp ht, ownProfile, hd]
    exact .inr rfl
  | sendBaselineSource | forwardBaseline => exact nomatch h

end SendCall

namespace Adapter

open CarrierAdapter

variable [Keccak]

/-- A message whose kind is the baseline's carries no tuples. -/
theorem tuples_of_baseline {d : Delivery} {message : Bytes}
    (h : encodeMessage HyperlaneAdapter.KIND_BASELINE message = .ok d.body) : d.tuples = none := by
  cases d <;>
  · simp only [Delivery.tuples, decodeMessage_of_encode h, Option.bind_eq_bind, Option.bind_some]
    rfl

/-- The call that sends a body as it is, of a source or in flight. -/
def rawCall (source : Bool) (body : Bytes) : SendCall := if source then .sendRaw body else .forwardRaw body

omit [Keccak] in
theorem hyperlane_sendSource_eq_ok {a : HyperlaneAdapter} {sender : Address} {body : Bytes} {d : MailboxDispatch} :
    a.sendSource sender body = .ok d ↔
      a.MaySend sender true ∧ ∃ b, encodeMessage HyperlaneAdapter.KIND_XIR body = .ok b ∧ a._dispatch b = d := by
  rw [HyperlaneAdapter.sendSource, unit_bind, unit_bind, ← and_assoc, OutboundControl.sourceAllowed_iff, bind_eq_ok]
  simp only [pure_eq_ok]

omit [Keccak] in
theorem hyperlane_forwardInFlight_eq_ok {a : HyperlaneAdapter} {sender : Address} {body : Bytes}
    {d : MailboxDispatch} :
    a.forwardInFlight sender body = .ok d ↔
      a.MaySend sender false ∧ ∃ b, encodeMessage HyperlaneAdapter.KIND_XIR body = .ok b ∧ a._dispatch b = d := by
  rw [HyperlaneAdapter.forwardInFlight, unit_bind, unit_bind, ← and_assoc, OutboundControl.outboundActive_iff,
    bind_eq_ok]
  simp only [pure_eq_ok]

theorem send_raw_eq_ok {a : HyperlaneAdapter} {carriers : Address → Carrier} {sender : Address} {source : Bool}
    {body : Bytes} {m : Message} :
    (hyperlane a).send carriers sender (rawCall source body) = .ok m ↔ a.MaySend sender source ∧
      ∃ b, encodeMessage HyperlaneAdapter.KIND_XIR body = .ok b ∧ (a._dispatch b).toMessage = m := by
  cases source <;>
  · simp only [rawCall, send, bind_eq_ok, pure_eq_ok, hyperlane_sendSource_eq_ok, hyperlane_forwardInFlight_eq_ok,
      Bool.false_eq_true, if_true, if_false]
    constructor
    · rintro ⟨_, ⟨hs, b, hb, rfl⟩, hm⟩
      exact ⟨hs, b, hb, hm⟩
    · rintro ⟨hs, b, hb, hm⟩
      exact ⟨_, ⟨hs, b, hb, rfl⟩, hm⟩

/-- What a baseline call dispatches is of the baseline kind. -/
theorem body_of_baseline {a : Adapter} {carriers : Address → Carrier} {sender : Address} {c : SendCall}
    {routeId : Bytes32} {message options : Bytes} {m : Message}
    (hc : c = .sendBaselineSource routeId message options ∨ c = .forwardBaseline routeId message options)
    (h : a.send carriers sender c = .ok m) :
    ∃ b, encodeMessage HyperlaneAdapter.KIND_BASELINE b = .ok m.body := by
  cases a with
  | hyperlane a =>
    rcases hc with rfl | rfl <;>
    · simp only [send, HyperlaneAdapter.sendBaselineSource, HyperlaneAdapter.forwardBaseline, bind_eq_ok,
        pure_eq_ok] at h
      obtain ⟨_, ⟨_, -, _, -, _, -, b, -, body, hb, rfl⟩, rfl⟩ := h
      exact ⟨b, hb⟩
  | layerZero a =>
    rcases hc with rfl | rfl <;>
    · simp only [send, LayerZeroAdapter.sendBaselineSource, LayerZeroAdapter.forwardBaseline,
        LayerZeroAdapter._sendBaseline, LayerZeroAdapter._rawParams, bind_eq_ok, pure_eq_ok] at h
      obtain ⟨_, ⟨_, -, _, -, _, -, _, -, b, -, body, hb, rfl⟩, rfl⟩ := h
      exact ⟨b, hb⟩

/-- A delivery of a message that an adapter of the same kind sent carries the tuples of the call. -/
theorem tuples_of_send {a b : Adapter} {carriers : Address → Carrier} {sender : Address} {c : SendCall}
    {m : Message} {d : Delivery} (h : a.send carriers sender c = .ok m) (hk : b.bundleKind = a.bundleKind)
    (hf : b.FromRemote d) (hd : d.body = m.body) : d.tuples = c.tuples d.evidence := by
  have bundle : ∀ (source : Bool) {request : ForwardRequest} {options : Bytes},
      a.send carriers sender (bundleCall source request options) = .ok m →
        d.tuples = some (request.bundle.tuples d.evidence) := by
    intro source request options h
    obtain ⟨hc, body, hb, rfl⟩ := send_bundle_eq_ok.mp h
    exact tuples_of_bundleBody hf hc.forward.aligned (by rw [hk, hd]; exact hb)
  have raw : ∀ (source : Bool) {body : Bytes}, a.send carriers sender (rawCall source body) = .ok m →
      d.tuples = Delivery.rawTuples body := by
    intro source body h
    cases a with
    | layerZero a => cases source <;> exact nomatch h
    | hyperlane a =>
      obtain ⟨-, b', hb, rfl⟩ := send_raw_eq_ok.mp h
      cases b with
      | layerZero b =>
        exact absurd (show LayerZeroAdapter.KIND_XIR = HyperlaneAdapter.KIND_XIR_BUNDLE from hk) (by decide)
      | hyperlane b =>
        cases d with
        | lzReceive => exact hf.elim
        | handle origin sender body' =>
          obtain rfl : body' = b' := hd
          simp only [Delivery.tuples, Delivery.body, decodeMessage_of_encode hb, Option.bind_eq_bind, Option.bind_some]
          rw [if_neg (by decide), if_pos trivial]
  have baseline : ∀ {routeId : Bytes32} {message options : Bytes},
      c = .sendBaselineSource routeId message options ∨ c = .forwardBaseline routeId message options →
        d.tuples = none := by
    intro routeId message options hc
    obtain ⟨b', hb⟩ := body_of_baseline hc h
    exact tuples_of_baseline (hd ▸ hb)
  cases c with
  | sendBundle request options => exact bundle true h
  | forwardBundle request options => exact bundle false h
  | sendRaw body => exact raw true h
  | forwardRaw body => exact raw false h
  | sendBaselineSource routeId message options => exact baseline (.inl rfl)
  | forwardBaseline routeId message options => exact baseline (.inr rfl)

/-- What is checked of the priors of a call that dispatches. -/
theorem priors_of_send {a : Adapter} {carriers : Address → Carrier} {sender : Address} {c : SendCall} {m : Message}
    (h : a.send carriers sender c = .ok m) {t : Tuple} (ht : t ∈ c.priors) :
    a.carrier.approvedPriorVerifiers t.profileHash ≠ 0 ∧
      (carriers (a.carrier.approvedPriorVerifiers t.profileHash)).verify t.profileHash t.evidenceHash
        t.transitionHash = some true := by
  have bundle : ∀ (source : Bool) {request : ForwardRequest} {options : Bytes}, t ∈ request.priors →
      a.send carriers sender (bundleCall source request options) = .ok m →
        a.carrier.approvedPriorVerifiers t.profileHash ≠ 0 ∧
          (carriers (a.carrier.approvedPriorVerifiers t.profileHash)).verify t.profileHash t.evidenceHash
            t.transitionHash = some true := by
    intro source request options ht h
    obtain ⟨hc, -⟩ := send_bundle_eq_ok.mp h
    exact ⟨hc.forward.approved _ (profileHash_mem ht), hc.forward.verified t ht⟩
  cases c with
  | sendBundle request options => exact bundle true ht h
  | forwardBundle request options => exact bundle false ht h
  | _ => exact nomatch ht

/-- An adapter and the messages it handed to the transport, after a call: one that
reverts changes neither. -/
def transact (carriers : Address → Carrier) (sender : Address) (s : Adapter × List Message) (call : SendCall) :
    Adapter × List Message :=
  match s.1.send carriers sender call with
  | .ok m => (s.1, s.2 ++ [m])
  | .error _ => s

end Adapter

end Xir.Impl

namespace Xir.Proof

open Impl Impl.Adapter

variable [Keccak]

/-- Integrity of a forward. If a call that sends a bundle dispatches a message, then the
arrays of the request have one length and each approved verifier reports its
prior tuple verified; and the delivery of that body, as a message of the remote
adapter, makes the receiving adapter accept exactly the priors and one tuple of
the message, and exactly the commitment to the list of these. If a check fails,
nothing is dispatched and nothing changes. -/
theorem forward_integrity {a : Adapter} {carriers : Address → Carrier} {sender : Address} {source : Bool}
    {request : ForwardRequest} {options : Bytes} :
    (∀ m, a.send carriers sender (bundleCall source request options) = .ok m →
      (request.verifiers.length = request.profileHashes.length ∧
        request.verifiers.length = request.evidenceHashes.length ∧
        request.verifiers.length = request.transitionHashes.length ∧
        request.priors.length = request.verifiers.length) ∧
      (∀ t ∈ request.priors, a.carrier.approvedPriorVerifiers t.profileHash ≠ 0 ∧
        (carriers (a.carrier.approvedPriorVerifiers t.profileHash)).verify t.profileHash t.evidenceHash
          t.transitionHash = some true) ∧
      ∀ (b : Adapter) (r : Address → Bytes32 → Bytes → Bool) (d : Delivery), b.bundleKind = a.bundleKind →
        b.FromRemote d → d.body = m.body →
        ∃ b' ts, ts = request.priors ++ [⟨request.currentProfileHash, d.evidence, request.currentTransitionHash⟩] ∧
          b.receive r b.native d = .ok b' ∧
          (∀ t ∈ ts, b'.carrier.verify t.profileHash t.evidenceHash t.transitionHash = true) ∧
          (∀ h, b'.carrier.acceptedEvidence h = true ↔ b.carrier.acceptedEvidence h = true ∨ ∃ t ∈ ts, h = t.key) ∧
          (∀ h, b'.carrier.acceptedBundles h = true ↔ b.carrier.acceptedBundles h = true ∨
            h = chain tupleStep (XIREncoding.bundleStart (request.priors.length + 1)) 0 ts)) ∧
    (∀ outbox, ¬ (a.SendChecks carriers sender source request options ∧
        ∃ body, BundleBody a.bundleKind request.bundle body) →
      transact carriers sender (a, outbox) (bundleCall source request options) = (a, outbox)) ∧
    (∀ outbox, a.SendChecks carriers sender source request options →
      ∀ body, BundleBody a.bundleKind request.bundle body →
        transact carriers sender (a, outbox) (bundleCall source request options) =
          (a, outbox ++ [⟨a.remoteChain, a.remote, body⟩])) := by
  refine ⟨fun m hm => ?_, fun outbox hn => ?_, fun outbox hc body hb => ?_⟩
  · obtain ⟨hc, body, hb, rfl⟩ := send_bundle_eq_ok.mp hm
    have hl := hc.forward.aligned
    have hp : request.priors.length = request.profileHashes.length := length_zipTuples hl.1 hl.2
    refine ⟨⟨hc.forward.profiles, hc.forward.evidence, hc.forward.transitions, hp.trans hc.forward.profiles.symm⟩,
      fun t ht => ⟨hc.forward.approved _ (profileHash_mem ht), hc.forward.verified t ht⟩, fun b r d hk hf hd => ?_⟩
    have ht : d.tuples = some (request.bundle.tuples d.evidence) :=
      tuples_of_bundleBody hf hl (by rw [hk, hd]; exact hb)
    refine ⟨_, _, rfl, receive_eq_ok.mpr ⟨rfl, hf, .inl ⟨_, ht, rfl⟩⟩, fun t h => ?_, fun h => ?_, fun h => ?_⟩
    · rw [carrier_withCarrier]
      exact CarrierAdapter.accept_acceptedEvidence.mpr (.inr ⟨t, h, rfl⟩)
    · rw [carrier_withCarrier]
      exact CarrierAdapter.accept_acceptedEvidence
    · rw [carrier_withCarrier, CarrierAdapter.accept_acceptedBundles, commitment, DeliveryBundle.tuples,
        List.length_append]
      rfl
  · rw [transact]
    cases hs : a.send carriers sender (bundleCall source request options) with
    | error e => rfl
    | ok m =>
      obtain ⟨hc, body, hb, -⟩ := send_bundle_eq_ok.mp hs
      exact absurd ⟨hc, body, hb⟩ hn
  · rw [transact, send_bundle_eq_ok.mpr ⟨hc, body, hb, rfl⟩]

omit [Keccak] in
/-- A message in flight with two priors, delivered, is accepted as a list of three tuples. -/
theorem forward_integrity_two :
    let _ := idealKeccak
    ∃ (a b b' : Adapter) (request : ForwardRequest) (m : Message) (d : Delivery),
      a.send (fun _ => ⟨fun _ _ _ => some true, fun _ => none⟩) (.single 2) (bundleCall false request []) = .ok m ∧
        d.body = m.body ∧ b.receive (fun _ _ _ => true) b.native d = .ok b' ∧
        b'.carrier.verifyBundle (commitment [⟨.single 5, .single 6, .single 7⟩, ⟨.single 5, .single 8, .single 9⟩,
          ⟨.single 10, d.evidence, .single 11⟩]) = true := by
  let _ := idealKeccak
  let c : CarrierAdapter := ⟨⟨.single 1, 0, .single 2, false, true⟩, fun _ => false, fun _ => false,
    fun _ => .single 3, fun _ => 0⟩
  let a : Adapter := .hyperlane ⟨c, .single 4, 7, .single 12⟩
  let b : Adapter := .hyperlane ⟨c, .single 4, 6, .single 13⟩
  let request : ForwardRequest := ⟨[.single 3, .single 3], [.single 5, .single 5], [.single 6, .single 8],
    [.single 7, .single 9], .single 10, .single 11⟩
  have hl : request.verifiers.length = request.profileHashes.length := rfl
  have hne : (.single 3 : Address) ≠ 0 := by decide
  obtain ⟨message, body, hmessage, hbody⟩ := encodeBundle_of_length (k := HyperlaneAdapter.KIND_XIR_BUNDLE)
    (b := request.bundle) (by decide)
  have hm : a.send (fun _ => ⟨fun _ _ _ => some true, fun _ => none⟩) (.single 2) (bundleCall false request []) =
      .ok ⟨7, .single 12, body⟩ :=
    send_bundle_eq_ok.mpr ⟨⟨⟨rfl, rfl, fun h => nomatch h⟩, ⟨hl, rfl, rfl, rfl, fun _ _ => hne, fun _ _ => rfl⟩,
      trivial⟩, body, ⟨message, hmessage, hbody⟩, rfl⟩
  obtain ⟨-, -, h⟩ := forward_integrity.1 _ hm
  obtain ⟨b', ts, rfl, hb', -, -, hc⟩ := h b (fun _ _ _ => true) (.handle 6 (.single 13) body) rfl
    ⟨by decide, rfl, rfl⟩ rfl
  exact ⟨a, b, b', request, _, _, hm, rfl, hb', (hc _).mpr (.inr rfl)⟩

end Xir.Proof
