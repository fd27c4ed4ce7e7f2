import Xir.Proof.Binding
import Xir.Proof.Walk

/-!
# Deliveries of one message at several gateways

A gateway remembers what it delivered, and a record names the application it is
for, not a gateway. So the gateways that the receipts of a message end at may each
deliver it once (`delivered_twice`). They hand the same payload to the same receiver, and
those that deliver it on the same receipts are one (`deliveries_across`).
-/

namespace Xir.Impl.Envelope

/-- The gateway that the receipts of an envelope end at. -/
def lastGateway (e : Envelope) : TypedId := (e.receipts.getLast?.map Receipt.dstGateway).getD e.record.sourceGateway

end Xir.Impl.Envelope

namespace Xir.Proof

open Impl Impl.XIRGateway

variable [Keccak]

/-! ## One gateway -/

theorem Hops.valid {env : Env} {e : Envelope} : ∀ {t : TraceState} {i : Nat} {rs : List Receipt}, Hops env e t i rs →
    ∀ r ∈ rs, r.Valid
  | _, _, [], _, _, hr => absurd hr List.not_mem_nil
  | _, _, _ :: _, ⟨h, hs⟩, r, hr => by
    rcases List.mem_cons.mp hr with rfl | hr
    · exact h.valid
    · exact hs.valid r hr

/-- The trace of an envelope ends at its last gateway, which is a valid one. -/
theorem TraceAccepts.lastGateway {g : XIRGateway} {env : Env} {e : Envelope} (h : TraceAccepts g env e) :
    e.lastGateway.Valid ∧ e.lastGateway.hash = g.gatewayHash := by
  rw [← h.destination, traceEnd, Envelope.lastGateway]
  rcases List.eq_nil_or_concat e.receipts with hn | ⟨rs, r, hr⟩
  · rw [hn]
    exact ⟨h.root.record_valid.1, rfl⟩
  · rw [List.concat_eq_append] at hr
    have hv : r.Valid := h.hops.valid r (by rw [hr]; simp)
    rw [hr, chain_next_expectedSrc, List.getLast?_concat]
    exact ⟨hv.2, rfl⟩

/-- What is true of a call of a receiver by the gateway of an id. -/
structure Delivers (id : TypedId) (call : ReceiverCall) : Prop where
  mid : call.envelope.mid = call.mid
  valid : call.envelope.record.Valid
  payload : keccak256 call.payload = call.envelope.record.payloadHash
  receiver : _evmAddress call.envelope.record.destinationApp = .ok call.receiver
  lastGateway : call.envelope.lastGateway.hash = id.hash
  lastGateway_valid : call.envelope.lastGateway.Valid

variable {ω : Type} {env : ω → Env}

/-- The calls that the gateway of an id made, and the events that it emitted for them. -/
structure Called (id : TypedId) (fs : List Frame) (s : ChainState ω) : Prop where
  gatewayId : s.gateway.gatewayId = id
  delivers : ∀ call ∈ s.calls, Delivers id call
  opened : ∀ call, .deliver call ∈ fs → call ∈ s.calls
  events : ∀ d ∈ s.events, ∃ call ∈ s.calls, d = ⟨call.mid, call.receiver, call.envelope.receipts.length⟩

theorem delivers_of_deliverStart {g g' : XIRGateway} {env : Env} {call : ReceiverCall}
    (h : g.deliverStart env call.envelope call.payload call.receiver = .ok (g', call.mid)) :
    Delivers g.gatewayId call ∧ g'.gatewayId = g.gatewayId := by
  obtain ⟨ha, heq⟩ := deliverStart_eq_ok.mp h
  obtain ⟨rfl, hm⟩ := Prod.mk.inj heq
  obtain ⟨hv, hg⟩ := ha.trace.lastGateway
  exact ⟨⟨hm, ha.trace.root.record_valid, ha.payload, ha.receiver, hg.trans g.gatewayHash_eq_hash, hv⟩, rfl⟩

theorem called_invariant (id : TypedId) : Frames.Invariant (deliveries env) (Called id) where
  act {fs s s'} h ha := by
    rcases ha with ⟨w, rfl⟩ | ⟨_, _, _, _, _, r, hr, rfl⟩
    · exact ⟨h.gatewayId, h.delivers, h.opened, h.events⟩
    · obtain ⟨-, rfl⟩ := createRecord_eq_ok.mp hr
      exact ⟨h.gatewayId, h.delivers, h.opened, h.events⟩
  enter {fs s f s'} h he := by
    cases f with
    | deliver call =>
      obtain ⟨g, hd, rfl⟩ := he
      obtain ⟨hc, hg⟩ := delivers_of_deliverStart hd
      rw [h.gatewayId] at hc
      refine ⟨hg.trans h.gatewayId, fun x hx => ?_, fun x hx => ?_, fun d hd => ?_⟩
      · rcases List.mem_append.mp hx with hx | hx
        · exact h.delivers x hx
        · exact List.mem_singleton.mp hx ▸ hc
      · rcases List.mem_cons.mp hx with hx | hx
        · exact List.mem_append_right _ (by rw [Frame.deliver.inj hx]; exact List.mem_singleton_self _)
        · exact List.mem_append_left _ (h.opened x hx)
      · obtain ⟨x, hx, heq⟩ := h.events d hd
        exact ⟨x, List.mem_append_left _ hx, heq⟩
    | rejected e payload receiver =>
      obtain ⟨-, rfl⟩ := he
      exact ⟨h.gatewayId, h.delivers, fun x hx => h.opened x (by simpa using hx), h.events⟩
    | other =>
      obtain rfl : s' = s := he
      exact ⟨h.gatewayId, h.delivers, fun x hx => h.opened x (by simpa using hx), h.events⟩
  leave {fs f s s'} h hl := by
    cases f with
    | deliver call =>
      obtain rfl := hl
      refine ⟨h.gatewayId, h.delivers, fun x hx => h.opened x (List.mem_cons_of_mem _ hx), fun d hd => ?_⟩
      rcases List.mem_append.mp hd with hd | hd
      · exact h.events d hd
      · exact ⟨call, h.opened call List.mem_cons_self, List.mem_singleton.mp hd⟩
    | rejected => exact hl.elim
    | other =>
      obtain rfl : s' = s := hl
      exact ⟨h.gatewayId, h.delivers, fun x hx => h.opened x (List.mem_cons_of_mem _ hx), h.events⟩

theorem Fresh.called {c : Frames.Config (ChainState ω) Frame} (h : Fresh c) :
    Frames.Holds (Called c.state.gateway.gatewayId) c := by
  refine ⟨⟨rfl, ?_, ?_, ?_⟩, ?_⟩
  · rw [h.calls]
    exact fun _ hx => absurd hx List.not_mem_nil
  · rw [Frames.Config.labels, h.idle]
    exact fun _ hx => absurd hx List.not_mem_nil
  · rw [h.events]
    exact fun _ hx => absurd hx List.not_mem_nil
  · rw [h.idle]
    trivial

/-! ## Several gateways -/

/-- The calls of two gateways of one message. -/
theorem Delivers.same (hk : Function.Injective keccak256) {a b : TypedId} {x y : ReceiverCall} (hx : Delivers a x)
    (hy : Delivers b y) (h : x.mid = y.mid) :
    x.envelope.record = y.envelope.record ∧ x.envelope.context = y.envelope.context ∧
      x.envelope.certificate.registryVersion = y.envelope.certificate.registryVersion ∧
      x.payload = y.payload ∧ x.receiver = y.receiver := by
  obtain ⟨hr, hc, hv⟩ := mid_inj hk hx.valid hy.valid (hx.mid.trans (h.trans hy.mid.symm))
  refine ⟨hr, hc, hv, hk ?_, ?_⟩
  · rw [hx.payload, hy.payload, hr]
  · have := hx.receiver
    rw [hr, hy.receiver] at this
    exact (Except.ok.inj this).symm

section

variable {ι : Type} [DecidableEq ι] {envs : ι → ω → Env}

/-- In every run of any chains, a gateway delivers a message at most once; and the calls that any
gateways make for one message are of one record, context and registry version, hand the same
payload to the same receiver, and if their receipts are the same, they are of gateways of one id. -/
theorem deliveries_across (hk : Function.Injective keccak256) {c₀ c : ι → Frames.Config (ChainState ω) Frame}
    {es : List (ι × Frames.Event Frame)} (h₀ : ∀ i, Fresh (c₀ i))
    (h : Run (Family fun i => Frames.Step (deliveries (envs i))) c₀ es c) :
    (∀ i mid, ((c i).state.events.map Delivered.mid).count mid ≤ 1 ∧
      ((c i).state.calls.map ReceiverCall.mid).count mid ≤ 1) ∧
    (∀ i, ∀ d ∈ (c i).state.events, ∃ call ∈ (c i).state.calls,
      d = ⟨call.mid, call.receiver, call.envelope.receipts.length⟩) ∧
    ∀ {i j x y}, x ∈ (c i).state.calls → y ∈ (c j).state.calls → x.mid = y.mid →
      (x.envelope.record = y.envelope.record ∧ x.envelope.context = y.envelope.context ∧
        x.envelope.certificate.registryVersion = y.envelope.certificate.registryVersion ∧
        x.payload = y.payload ∧ x.receiver = y.receiver) ∧
      x.envelope.lastGateway = (c i).state.gateway.gatewayId ∧
      (x.envelope.receipts = y.envelope.receipts →
        (c i).state.gateway.gatewayId = (c j).state.gateway.gatewayId) := by
  have hcons : ∀ i, Consistent (c i).labels (c i).state := fun i =>
    (Frames.inv_run consistent_invariant (h₀ i).consistent (h.component i)).1
  have hcall : ∀ i, Called (c₀ i).state.gateway.gatewayId (c i).labels (c i).state := fun i =>
    (Frames.inv_run (called_invariant _) (h₀ i).called (h.component i)).1
  have hlast : ∀ {i x}, x ∈ (c i).state.calls → x.envelope.lastGateway = (c i).state.gateway.gatewayId := by
    intro i x hx
    have hd := (hcall i).delivers x hx
    rw [← (hcall i).gatewayId] at hd
    exact TypedId.hash_inj hk hd.lastGateway_valid (gatewayId_valid _) hd.lastGateway
  refine ⟨fun i mid => ?_, fun i => (hcall i).events, fun {i j x y} hx hy hm => ?_⟩
  · have hc := (hcons i).count mid
    rw [midsOf, List.count_append] at hc
    rw [(hcons i).calls.count_eq, midsOf, List.count_append]
    constructor <;> split at hc <;> omega
  · have hs := ((hcall i).delivers x hx).same hk ((hcall j).delivers y hy) hm
    refine ⟨hs, hlast hx, fun hr => ?_⟩
    rw [← hlast hx, ← hlast hy, Envelope.lastGateway, Envelope.lastGateway, hs.1, hr]

end

/-! ## One message at two gateways -/

namespace Lab

open Deployment

/-- A chain of the lab at rest, with the calls its gateway made and the events it emitted. -/
def chain (g : XIRGateway) (events : List Delivered) (calls : List ReceiverCall) :
    Frames.Config (ChainState Unit) Frame := ⟨⟨g, events, calls, ()⟩, []⟩

/-- The delivery of an envelope of the lab, to its application. -/
def call (rs : List Receipt) : ReceiverCall :=
  ⟨{ labEnvelope with receipts := rs }, [], .single 2, labEnvelope.mid⟩

/-- A gateway of the lab delivers what its trace accepts. -/
theorem deliver_chain {route : Route} {s : LineState} {j : Nat} {rs : List Receipt}
    (ht : TraceAccepts (labGateway j) (labEnv route s j) { labEnvelope with receipts := rs }) :
    Run (Frames.Step (deliveries fun _ => labEnv route s j)) (chain (labGateway j) [] [])
      [.enter (.deliver (call rs)), .leave (.deliver (call rs))]
      (chain ((labGateway j).consume labEnvelope.mid) [⟨labEnvelope.mid, .single 2, rs.length⟩] [call rs]) := by
  have ha : DeliverAccepts (labGateway j) (labEnv route s j) { labEnvelope with receipts := rs } [] (.single 2) :=
    ⟨rfl, by decide, rfl, ht, rfl⟩
  exact .cons (.enter ⟨_, deliverStart_eq_ok.mpr ⟨ha, rfl⟩, rfl⟩) (.single (.leave rfl))

/-- The chains that the first hop and the second end at. -/
def step (route : Route) (s : LineState) (i : Fin 2) :
    Frames.Config (ChainState Unit) Frame → Frames.Event Frame → Frames.Config (ChainState Unit) Frame → Prop :=
  Frames.Step (deliveries fun _ => labEnv route s (i + 1))

def before (i : Fin 2) : Frames.Config (ChainState Unit) Frame := chain (labGateway (i + 1)) [] []

/-- Each gateway delivered the message, on the receipts up to it. -/
def after (rs : List Receipt) (i : Fin 2) : Frames.Config (ChainState Unit) Frame :=
  chain ((labGateway (i + 1)).consume labEnvelope.mid) [⟨labEnvelope.mid, .single 2, (rs.take (i + 1)).length⟩]
    [call (rs.take (i + 1))]

theorem deliver_both (hk : IdealHash) {route : Route} {s : LineState} {w : WalkState}
    (h : lab.Honest route labEnvelope s w) (hl : w.receipts.length = 2) :
    ∃ es, Run (Family (step route s)) before es (after w.receipts) := by
  have hi := honest_inv hk labEnvelope_certified h
  have hr : ∀ i : Fin 2, ∃ es, Run (step route s i) (before i) es (after w.receipts i) := fun i =>
    ⟨_, deliver_chain (traceAccepts_of_inv hk labEnvelope_certified hi (Nat.succ_pos i) (by omega)
      (labEnv_atGateway route s _))⟩
  obtain ⟨es₀, h₀⟩ := hr 0
  obtain ⟨es₁, h₁⟩ := hr 1
  let mid := Function.update before 0 (after w.receipts 0)
  have h₁ : Run (step route s 1) (mid 1) es₁ (after w.receipts 1) := h₁
  have heq : Function.update mid 1 (after w.receipts 1) = after w.receipts := by
    funext i
    match i with
    | 0 | 1 => rfl
  have hrun := (Run.family (step route s) before 0 h₀).append (Run.family (step route s) mid 1 h₁)
  rw [heq] at hrun
  exact ⟨_, hrun⟩

end Lab

omit [Keccak] in
/-- One message, delivered at the gateways of both chains that its trace reaches, whose registries hold the
same roots. -/
theorem delivered_twice :
    let _ := idealKeccak
    ∃ (s : LineState) (w : WalkState) (c : Fin 2 → Frames.Config (ChainState Unit) Frame)
      (es : List (Fin 2 × Frames.Event Frame)) (mid : Bytes32),
      Deployment.lab.Honest [.H, .L] Deployment.labEnvelope s w ∧ (∀ i, Fresh (Lab.before i)) ∧
      (∀ i j : Fin 2, (Deployment.labEnv [.H, .L] s (i + 1)).registry.rootAt =
        (Deployment.labEnv [.H, .L] s (j + 1)).registry.rootAt) ∧
      Run (Family (Lab.step [.H, .L] s)) Lab.before es c ∧
      (c 0).state.gateway.gatewayId ≠ (c 1).state.gateway.gatewayId ∧
      ∀ i, mid ∈ (c i).state.events.map Delivered.mid := by
  let _ := idealKeccak
  let route : Route := [.H, .L]
  obtain ⟨s, w, h, hl⟩ := exists_walk idealHash Deployment.labEnvelope_certified
    (show route.length < 2 ^ 32 by decide) Deployment.labGuid_ne (show 2 ≤ route.length from le_rfl)
  obtain ⟨es, hr⟩ := Lab.deliver_both idealHash h hl
  refine ⟨s, w, _, es, Deployment.labEnvelope.mid, h, fun i => ⟨rfl, rfl, rfl, fun _ => rfl⟩, fun i j => rfl, hr,
    fun heq => ?_, fun i => List.mem_singleton_self _⟩
  exact absurd
    (Deployment.lab_distinct route (by decide) (show 1 ≤ 2 by decide) (show 2 ≤ 2 from le_rfl) heq) (by decide)

omit [Keccak] in
/-- The calls of these two gateways. -/
theorem deliveries_across_two :
    let _ := idealKeccak
    ∃ (s : LineState) (c : Fin 2 → Frames.Config (ChainState Unit) Frame) (es : List (Fin 2 × Frames.Event Frame))
      (x y : ReceiverCall), Run (Family (Lab.step [.H, .L] s)) Lab.before es c ∧
      x ∈ (c 0).state.calls ∧ y ∈ (c 1).state.calls ∧ x.mid = y.mid ∧ x.receiver = y.receiver := by
  let _ := idealKeccak
  let route : Route := [.H, .L]
  obtain ⟨s, w, h, hl⟩ := exists_walk idealHash Deployment.labEnvelope_certified
    (show route.length < 2 ^ 32 by decide) Deployment.labGuid_ne (show 2 ≤ route.length from le_rfl)
  obtain ⟨es, hr⟩ := Lab.deliver_both idealHash h hl
  have hfresh : ∀ i, Fresh (Lab.before i) := fun i => ⟨rfl, rfl, rfl, fun _ => rfl⟩
  obtain ⟨-, -, hc⟩ := deliveries_across idealHash.injective hfresh hr
  have hx : ∀ i, Lab.call (w.receipts.take (i + 1)) ∈ (Lab.after w.receipts i).state.calls := fun i =>
    List.mem_singleton_self _
  obtain ⟨⟨-, -, -, -, hreceiver⟩, -, -⟩ := hc (hx 0) (hx 1) rfl
  exact ⟨s, _, es, _, _, hr, hx 0, hx 1, rfl, hreceiver⟩

end Xir.Proof
