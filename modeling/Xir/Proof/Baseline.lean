import Xir.Proof.Forward

/-!
# Baseline messages

A payload sent on a baseline route is read back by the adapter that it is
delivered to, which hands it to the receiver of that route under the id of the
delivery (`receive_baseline`).
-/

namespace Xir.Impl.Adapter

open Proof

/-- The body of a baseline message. -/
def BaselineBody (routeId : Bytes32) (payload body : Bytes) : Prop :=
  ∃ message, encodeRoute routeId payload = .ok message ∧ encodeMessage HyperlaneAdapter.KIND_BASELINE message = .ok body

/-- A payload that is not too long fits in a message. -/
theorem baselineBody_of_length (routeId : Bytes32) {payload : Bytes} (h : payload.length + 256 < 2 ^ 64) :
    ∃ body, BaselineBody routeId payload body := by
  have hl : (Abi.encode [.static routeId, .dynamic (Abi.encodeBytes payload)]).length + 128 < 2 ^ 64 := by
    rw [Abi.encode_static_dynamic, List.length_append, List.length_append, Abi.length_encodeBytes, BytesN.length_val,
      BytesN.length_val]
    omega
  obtain ⟨body, hb⟩ := encodeMessage_of_length (k := HyperlaneAdapter.KIND_BASELINE) hl
  exact ⟨body, _, abiEncode_eq_ok.mpr ⟨by omega, rfl⟩, hb⟩

variable [Keccak] {a a' : Adapter} {caller : Address} {d : Delivery} {routeId : Bytes32} {payload : Bytes}
  {r : Address → Bytes32 → Bytes → Bool}

theorem takesBaseline_iff (hb : BaselineBody routeId payload d.body) :
    TakesBaseline r a d ↔ a.carrier.baselineReceivers routeId ≠ 0 ∧
      r (a.carrier.baselineReceivers routeId) d.evidence payload = true := by
  obtain ⟨message, hm, hb⟩ := hb
  simp only [TakesBaseline, CarrierAdapter.receiveBaseline, decodeMessage_of_encode hb, Option.some.injEq,
    Prod.mk.injEq,
    true_and, exists_eq_left', decodeRoute_of_encode hm, orRevert, ok_bind, revertIf_bind, revertIf_eq_ok,
    Bool.not_eq_false, ne_eq]

/-- The delivery of a baseline message succeeds if the receiver of its route takes it. -/
theorem receive_baseline (hb : BaselineBody routeId payload d.body) :
    a.receive r caller d = .ok a' ↔ (caller = a.native ∧ a.FromRemote d) ∧
      (a.carrier.baselineReceivers routeId ≠ 0 ∧ r (a.carrier.baselineReceivers routeId) d.evidence payload = true) ∧
        a = a' := by
  have ht : d.tuples = none := by
    obtain ⟨message, -, hb⟩ := hb
    exact tuples_of_baseline hb
  rw [receive_eq_ok, takesBaseline_iff hb, ht]
  simp [and_assoc]

/-- The call that sends a payload on a baseline route, of a source or in flight. -/
def baselineCall (source : Bool) (routeId : Bytes32) (payload options : Bytes) : SendCall :=
  if source then .sendBaselineSource routeId payload options else .forwardBaseline routeId payload options

theorem hyperlane_sendBaseline_eq_ok {a : HyperlaneAdapter} {carriers : Address → Carrier} {sender : Address}
    {source : Bool} {options : Bytes} {m : Message} :
    (hyperlane a).send carriers sender (baselineCall source routeId payload options) = .ok m ↔
      a.MaySend sender source ∧ options = [] ∧
        ∃ body, BaselineBody routeId payload body ∧ ⟨a.remoteDomain, a.remoteAdapter, body⟩ = m := by
  have key {g : Except Revert Unit} {c : OutboundControl} (hg : c.onlyRunner sender = .ok () ∧ g = .ok () ↔
      c.MaySend sender source) :
      (do let d ← (do c.onlyRunner sender
                      g
                      revertIf (options.length ≠ 0) Revert.unsupportedOptions
                      return a._dispatch
                        (← encodeMessage HyperlaneAdapter.KIND_BASELINE (← encodeRoute routeId payload)))
          return d.toMessage) = .ok m ↔ c.MaySend sender source ∧ options = [] ∧
        ∃ body, BaselineBody routeId payload body ∧ ⟨a.remoteDomain, a.remoteAdapter, body⟩ = m := by
    simp only [bind_eq_ok, revertIf_eq_ok, pure_eq_ok, not_not, List.length_eq_zero_iff, ← hg]
    constructor
    · rintro ⟨_, ⟨_, hr, _, hp, _, ho, message, hm, body, hb, rfl⟩, rfl⟩
      exact ⟨⟨hr, hp⟩, ho, body, ⟨message, hm, hb⟩, rfl⟩
    · rintro ⟨⟨hr, hp⟩, ho, body, ⟨message, hm, hb⟩, rfl⟩
      exact ⟨_, ⟨(), hr, (), hp, (), ho, message, hm, body, hb, rfl⟩, rfl⟩
  cases source with
  | true => exact key OutboundControl.sourceAllowed_iff
  | false => exact key OutboundControl.outboundActive_iff

end Xir.Impl.Adapter
