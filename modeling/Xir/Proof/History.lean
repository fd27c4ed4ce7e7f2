import Xir.Proof.Bundle

/-!
# What an adapter accepted over its history

`Accepted c ds` is the abstract view of an adapter's two maps: the lists of
receipt tuples delivered to it so far, each by one message. A history is any
sequence of calls by anyone, those that revert included; `run_accepted` says
what the maps hold after it, and `commitments_exact` that the adapter then
reports the commitments of the lists delivered, and no others.
-/

namespace Xir.Proof

open Impl Impl.XIREncoding

variable [Keccak]

/-- The lists `ds` are those the adapter accepted. -/
structure Accepted (c : CarrierAdapter) (ds : List (List Tuple)) : Prop where
  evidence (h : Bytes32) : c.acceptedEvidence h = true ↔ ∃ ts ∈ ds, ∃ t ∈ ts, h = t.key
  bundles (h : Bytes32) : c.acceptedBundles h = true ↔ ∃ ts ∈ ds, h = commitment ts

namespace Accepted

variable {c c' : CarrierAdapter} {ds : List (List Tuple)}

theorem accept (h : Accepted c ds) (ts : List Tuple) : Accepted (c.accept ts) (ds ++ [ts]) where
  evidence k := by
    simp only [CarrierAdapter.accept_acceptedEvidence, h.evidence, List.mem_append, List.mem_singleton, or_and_right,
      exists_or, exists_eq_left]
  bundles k := by
    simp only [CarrierAdapter.accept_acceptedBundles, h.bundles, List.mem_append, List.mem_singleton, or_and_right,
      exists_or, exists_eq_left]

/-- Only the two maps matter. -/
theorem congr (h : Accepted c ds) (he : c'.acceptedEvidence = c.acceptedEvidence)
    (hb : c'.acceptedBundles = c.acceptedBundles) : Accepted c' ds :=
  ⟨fun k => he ▸ h.evidence k, fun k => hb ▸ h.bundles k⟩

/-- A tuple is reported verified if it is in a list that was accepted. -/
theorem verify (hk : Function.Injective keccak256) (h : Accepted c ds) {t : Tuple} :
    c.verify t.profileHash t.evidenceHash t.transitionHash = true ↔ ∃ ts ∈ ds, t ∈ ts := by
  refine (h.evidence t.key).trans ⟨?_, ?_⟩
  · rintro ⟨ts, hts, t', ht', hkey⟩
    exact ⟨ts, hts, t.key_inj hk hkey ▸ ht'⟩
  · rintro ⟨ts, hts, ht⟩
    exact ⟨ts, hts, t, ht, rfl⟩

/-- A list is reported verified if it is one that was accepted. -/
theorem verifyBundle (hk : Function.Injective keccak256) (h : Accepted c ds) {ts : List Tuple} :
    c.verifyBundle (commitment ts) = true ↔ ts ∈ ds := by
  refine (h.bundles _).trans ⟨?_, fun hts => ⟨ts, hts, rfl⟩⟩
  rintro ⟨ts', hts', heq⟩
  exact commitment_inj hk heq ▸ hts'

end Accepted

end Xir.Proof

namespace Xir.Impl

open Proof

variable [Keccak]

/-- A call of an adapter by anyone, with what it reads of its chain. -/
inductive AdapterCall
  | send (carriers : Address → Carrier) (sender : Address) (call : SendCall)
  | receive (baselineCarrierReceive : Address → Bytes32 → Bytes → Bool) (caller : Address) (d : Delivery)
  | administer (sender : Address) (call : AdminCall)

/-- An adapter as its constructor makes it. -/
inductive Adapter.Deployed : Adapter → Prop
  | hyperlane {mailbox remoteDomain remoteAdapter administrator runner a} :
    HyperlaneAdapter.new mailbox remoteDomain remoteAdapter administrator runner = .ok a → Deployed (.hyperlane a)
  | layerZero {endpoint remoteEid remotePeer administrator runner a} :
    LayerZeroAdapter.new endpoint remoteEid remotePeer administrator runner = .ok a → Deployed (.layerZero a)

namespace Adapter

/-- What a call makes of the adapter; one that reverts makes nothing of it. -/
def call (a : Adapter) : AdapterCall → Adapter
  | .send .. => a
  | .receive r caller d => (a.receive r caller d).toOption.getD a
  | .administer sender c => (a.administer sender c).toOption.getD a

/-- The tuples that a call delivers to the adapter, if it is a delivery that the adapter takes. -/
def delivers (a : Adapter) : AdapterCall → Option (List Tuple)
  | .receive r caller d => if (a.receive r caller d).isOk then d.tuples else none
  | _ => none

/-- The adapter after a history. -/
def run (a : Adapter) (calls : List AdapterCall) : Adapter := calls.foldl call a

/-- The tuples delivered to the adapter over a history, one list for each message. -/
def delivered : Adapter → List AdapterCall → List (List Tuple)
  | _, [] => []
  | a, c :: cs => (a.delivers c).toList ++ (a.call c).delivered cs

end Adapter

namespace CarrierAdapter

omit [Keccak] in
theorem setBaselineReceiver_maps {sender receiver : Address} {a a' : CarrierAdapter} {routeId : Bytes32}
    (h : a.setBaselineReceiver sender routeId receiver = .ok a') :
    a'.acceptedEvidence = a.acceptedEvidence ∧ a'.acceptedBundles = a.acceptedBundles := by
  simp only [setBaselineReceiver, bind_eq_ok, pure_eq_ok] at h
  obtain ⟨_, _, _, _, rfl⟩ := h
  exact ⟨rfl, rfl⟩

omit [Keccak] in
theorem setPriorVerifier_maps {sender verifier : Address} {a a' : CarrierAdapter} {profileHash : Bytes32}
    (h : a.setPriorVerifier sender profileHash verifier = .ok a') :
    a'.acceptedEvidence = a.acceptedEvidence ∧ a'.acceptedBundles = a.acceptedBundles := by
  simp only [setPriorVerifier, bind_eq_ok, pure_eq_ok] at h
  obtain ⟨_, _, _, _, rfl⟩ := h
  exact ⟨rfl, rfl⟩

end CarrierAdapter

namespace Adapter

omit [Keccak] in
theorem mapControl_maps {f : OutboundControl → Except Revert OutboundControl} {a a' : Adapter}
    (h : a.mapControl f = .ok a') :
    a'.carrier.acceptedEvidence = a.carrier.acceptedEvidence ∧
      a'.carrier.acceptedBundles = a.carrier.acceptedBundles := by
  cases a <;>
  · simp only [mapControl, bind_eq_ok, pure_eq_ok] at h
    obtain ⟨_, _, rfl⟩ := h
    exact ⟨rfl, rfl⟩

/-- Calls of the administrator change neither map. -/
theorem administer_maps {sender : Address} {a a' : Adapter} {c : AdminCall} (h : a.administer sender c = .ok a') :
    a'.carrier.acceptedEvidence = a.carrier.acceptedEvidence ∧
      a'.carrier.acceptedBundles = a.carrier.acceptedBundles := by
  cases c with
  | setBaselineReceiver routeId receiver =>
    cases a <;>
    · simp only [administer, HyperlaneAdapter.setBaselineReceiver, LayerZeroAdapter.setBaselineReceiver, bind_eq_ok,
        pure_eq_ok] at h
      obtain ⟨_, ⟨_, hc, rfl⟩, rfl⟩ := h
      exact CarrierAdapter.setBaselineReceiver_maps hc
  | setPriorVerifier profileHash verifier =>
    cases a <;>
    · simp only [administer, HyperlaneAdapter.setPriorVerifier, LayerZeroAdapter.setPriorVerifier, bind_eq_ok,
        pure_eq_ok] at h
      obtain ⟨_, ⟨_, hc, rfl⟩, rfl⟩ := h
      exact CarrierAdapter.setPriorVerifier_maps hc
  | setRemote remote =>
    cases a <;>
    · simp only [administer, HyperlaneAdapter.setRemoteAdapter, LayerZeroAdapter.setRemotePeer, bind_eq_ok,
        pure_eq_ok] at h
      obtain ⟨_, ⟨_, _, _, _, rfl⟩, rfl⟩ := h
      exact ⟨rfl, rfl⟩
  | setEnforcedOptions options =>
    cases a with
    | hyperlane => exact nomatch h
    | layerZero a =>
      simp only [administer, LayerZeroAdapter.setEnforcedOptions, bind_eq_ok, pure_eq_ok] at h
      obtain ⟨_, ⟨_, _, rfl⟩, rfl⟩ := h
      exact ⟨rfl, rfl⟩
  | _ =>
    simp only [administer] at h
    exact mapControl_maps h

/-- A call makes the adapter accept the tuples it delivers. -/
theorem call_accepted {a : Adapter} {ds : List (List Tuple)} (h : Accepted a.carrier ds) (c : AdapterCall) :
    Accepted (a.call c).carrier (ds ++ (a.delivers c).toList) := by
  cases c with
  | send => simpa [call, delivers] using h
  | receive r caller d =>
    simp only [call, delivers]
    cases hr : a.receive r caller d with
    | error e => simpa [Except.toOption, Except.isOk, Except.toBool] using h
    | ok a' =>
      obtain ⟨-, -, ⟨ts, ht, rfl⟩ | ⟨⟨m, hm, -⟩, rfl⟩⟩ := receive_eq_ok.mp hr
      · simpa [Except.toOption, Except.isOk, Except.toBool, ht] using h.accept ts
      · have ht : d.tuples = none := by
          cases d <;> simp only [Delivery.tuples, hm] <;> rfl
        simpa [Except.toOption, Except.isOk, Except.toBool, ht] using h
  | administer sender c =>
    simp only [call, delivers]
    cases hr : a.administer sender c with
    | error e => simpa [Except.toOption] using h
    | ok a' =>
      obtain ⟨he, hb⟩ := administer_maps hr
      simpa [Except.toOption] using h.congr he hb

/-- After a history, the adapter accepted the lists that were delivered. -/
theorem run_accepted : ∀ (calls : List AdapterCall) {a : Adapter} {ds : List (List Tuple)},
    Accepted a.carrier ds → Accepted (a.run calls).carrier (ds ++ a.delivered calls)
  | [], a, ds, h => by simpa [run, delivered] using h
  | c :: cs, a, ds, h => by
    have := run_accepted cs (call_accepted h c)
    rwa [List.append_assoc] at this

/-- A new adapter accepted nothing. -/
theorem Deployed.accepted {a : Adapter} (h : a.Deployed) : Accepted a.carrier [] := by
  cases h with
  | hyperlane h =>
    simp only [HyperlaneAdapter.new, CarrierAdapter.new, bind_eq_ok, pure_eq_ok] at h
    obtain ⟨_, ⟨_, _, rfl⟩, _, _, rfl⟩ := h
    exact ⟨by simp [carrier], by simp [carrier]⟩
  | layerZero h =>
    simp only [LayerZeroAdapter.new, CarrierAdapter.new, bind_eq_ok, pure_eq_ok] at h
    obtain ⟨_, ⟨_, _, rfl⟩, _, _, rfl⟩ := h
    exact ⟨by simp [carrier], by simp [carrier]⟩

end Adapter

end Xir.Impl

namespace Xir.Proof

open Impl Impl.XIREncoding

variable [Keccak]

/-- Commitments are injective over lists of any lengths, so an adapter reports,
after any history, the commitments of the lists delivered to it as one message
each, and no others. -/
theorem commitments_exact (hk : Function.Injective keccak256) :
    (∀ {ts ts' : List Tuple}, chain tupleStep (bundleStart ts.length) 0 ts =
      chain tupleStep (bundleStart ts'.length) 0 ts' → ts = ts') ∧
    (∀ {a : Adapter}, a.Deployed → ∀ (calls : List AdapterCall) (c : Bytes32),
      (a.run calls).carrier.verifyBundle c = true ↔ ∃ ts ∈ a.delivered calls, c = commitment ts) ∧
    (∀ {a : Adapter}, a.Deployed → ∀ (calls : List AdapterCall) (ts : List Tuple),
      (a.run calls).carrier.verifyBundle (commitment ts) = true ↔ ts ∈ a.delivered calls) := by
  have hd : ∀ {a : Adapter}, a.Deployed → ∀ calls, Accepted (a.run calls).carrier (a.delivered calls) :=
    fun h calls => by simpa using Adapter.run_accepted calls h.accepted
  exact ⟨fun h => commitment_inj hk h, fun h calls c => (hd h calls).bundles c,
    fun h calls ts => (hd h calls).verifyBundle hk⟩

omit [Keccak] in
/-- An adapter to which one tuple was delivered reports the list of it, and not the
list that has it twice. -/
theorem commitments_exact_single :
    let _ := idealKeccak
    ∃ (a : Adapter) (c : AdapterCall) (t : Tuple), (a.run [c]).carrier.verifyBundle (commitment [t]) = true ∧
      (a.run [c]).carrier.verifyBundle (commitment [t, t]) = false := by
  let _ := idealKeccak
  let a : HyperlaneAdapter := ⟨⟨⟨.single 1, 0, .single 2, false, false⟩, fun _ => false, fun _ => false, fun _ => 0,
    fun _ => 0⟩, .single 3, 7, .single 4⟩
  let t : Tuple := ⟨.single 5, .single 6, .single 7⟩
  obtain ⟨body, hbody⟩ := encodeMessage_of_length (k := HyperlaneAdapter.KIND_XIR)
    (m := Abi.encode [.static t.profileHash, .static t.transitionHash, .static t.evidenceHash]) (by
      rw [Abi.length_encode]; decide)
  let d := Delivery.handle 7 (.single 4) body
  have hn : HyperlaneAdapter.new (.single 3) 7 (.single 4) (.single 1) (.single 2) = .ok a := rfl
  have ha : (Adapter.hyperlane a).Deployed := .hyperlane hn
  have ht : d.tuples = some [t] := Delivery.tuples_of_raw (by decide) hbody
  have hr : (Adapter.hyperlane a).receive (fun _ _ _ => true) (.single 3) d =
      .ok ((Adapter.hyperlane a).withCarrier (a.accept [t])) :=
    Adapter.receive_eq_ok.mpr ⟨rfl, ⟨by decide, rfl, rfl⟩, .inl ⟨[t], ht, rfl⟩⟩
  have hd : (Adapter.hyperlane a).delivered [.receive (fun _ _ _ => true) (.single 3) d] = [[t]] := by
    simp [Adapter.delivered, Adapter.delivers, hr, ht, Except.isOk, Except.toBool]
  obtain ⟨-, -, h⟩ := commitments_exact idealHash.injective
  refine ⟨.hyperlane a, .receive (fun _ _ _ => true) (.single 3) d, t, (h ha _ _).mpr (hd ▸ .head _), ?_⟩
  rw [Bool.eq_false_iff, ne_eq, h ha, hd]
  decide

end Xir.Proof
