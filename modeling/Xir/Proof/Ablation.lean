import Xir.Impl.Contracts.NativeAblationReceiverV1
import Xir.Proof.Delivery

/-!
# The ablation layers B2 and B3

Layer B3 delivers through the gateway, B2 without it, against constants of the
receiver: `Configured` says that the profiles of the gateway's registry are
these constants. `deliverB2_eq_ok` says what B2 checks. Each check of a receipt
is one that the gateway made of it (`HopAccepts.expected`), but for one: B2
expects the profiles that the route in the payload names, while the gateway
does not read the payload. So of what B3 accepts, B2 accepts what is labelled
with the route it took.
-/

namespace Xir.Impl.NativeAblationReceiverV1

open Proof NativeRoutePayload XIREncoding

/-! ## The payload -/

variable [Keccak]

/-- The adapter of the last hop of a heterogeneous route. -/
def lastAdapter (x : NativeAblationReceiverV1) (route : BytesN 2) : Address :=
  if route = HL then x.layerZeroXirAdapter else x.hyperlaneXirAdapter

omit [Keccak] in
theorem isHeterogeneous_eq_true {route : BytesN 2} : isHeterogeneous route = .ok true ↔ route = HL ∨ route = LH := by
  rw [isHeterogeneous]
  split
  · exact iff_of_true rfl ‹_›
  · refine iff_of_false (fun h => ?_) ‹_›
    split at h <;> cases h

omit [Keccak] in
theorem route_of_heterogeneousPayload {payload : Bytes} {data : Data} (h : heterogeneousPayload payload = .ok data) :
    data.route = HL ∨ data.route = LH := by
  simp only [heterogeneousPayload, bind_eq_ok, revertIf_eq_ok, pure_eq_ok, Bool.not_eq_false] at h
  obtain ⟨_, -, _, -, _, hh, -, rfl, rfl⟩ := h
  exact isHeterogeneous_eq_true.mp hh

omit [Keccak] in
/-- Which adapter `deliverB2` asks. -/
theorem secondIsHyperlane_eq_ok {route : BytesN 2} (h : route = HL ∨ route = LH) {second : Bool} :
    secondIsHyperlane route = .ok second ↔ decide (route = LH) = second := by
  obtain rfl | rfl := h
  · exact Except.ok.injEq false second ▸ Iff.rfl
  · exact Except.ok.injEq true second ▸ Iff.rfl

omit [Keccak] in
theorem adapter_eq (x : NativeAblationReceiverV1) {route : BytesN 2} (h : route = HL ∨ route = LH) :
    (if decide (route = LH) = true then x.hyperlaneXirAdapter else x.layerZeroXirAdapter) = x.lastAdapter route := by
  obtain rfl | rfl := h <;> rfl

/-! ## What B2 checks -/

/-- What a turn of the loop checks of a receipt, where `p` is the prefix before it. -/
structure Expected (adapter : Carrier) (e : Envelope) (p : Bytes32) (r : Receipt) (h : ExpectedHop) : Prop where
  valid : r.Valid
  priorPrefix : r.priorPrefix = p
  src : r.srcGateway.hash = h.src
  dst : r.dstGateway.hash = h.dst
  profile : r.profileHash = h.profile
  transition : r.transitionHash = e.transition r.srcGateway r.dstGateway
  verified : adapter.verify r.profileHash r.evidenceHash r.transitionHash = some true

theorem b2Step_eq_ok {adapter : Carrier} {e : Envelope} {s s' : Bytes32 × Bytes32} {i : Nat} {r : Receipt}
    {h : ExpectedHop} : b2Step adapter e.recordDigest e.contextDigest s i r h = .ok s' ↔
      Expected adapter e s.1 r h ∧
        (prefixStep s.1 i r, bundleStep s.2 i r.profileHash r.evidenceHash r.transitionHash) = s' := by
  simp only [b2Step, bind_eq_ok, typedIdHash_eq_ok, transitionHash_eq_ok, receiptHash_eq_ok, revertIf_eq_ok,
    orRevert_eq_ok, pure_eq_ok, not_or, not_not, ne_eq, Bool.not_eq_false]
  constructor
  · rintro ⟨_, ⟨hv, rfl⟩, -, hp, _, ⟨-, rfl⟩, -, hs, _, ⟨-, rfl⟩, -, ⟨hd, hq, ht⟩, _, hver, -, rfl, _, ⟨-, rfl⟩, rfl⟩
    exact ⟨⟨hv, hp, hs, hd, hq, ht, by rw [ht]; exact hver⟩, by rw [ht]; rfl⟩
  · rintro ⟨⟨hv, hp, hs, hd, hq, ht, hver⟩, rfl⟩
    refine ⟨_, ⟨hv, rfl⟩, (), hp, _, ⟨hv.1, rfl⟩, (), hs, _, ⟨hv.2, rfl⟩, (), ⟨hd, hq, ht⟩, _,
      by rw [ht] at hver; exact hver, (), rfl, _, ⟨hv, rfl⟩, by rw [ht]; rfl⟩

/-- The bundle commitment of two receipts. -/
def bundleOf (r₀ r₁ : Receipt) : Bytes32 :=
  bundleStep (bundleStep (bundleStart 2) 0 r₀.profileHash r₀.evidenceHash r₀.transitionHash) 1
    r₁.profileHash r₁.evidenceHash r₁.transitionHash

/-- What `deliverB2` checks of a call by the runner with two receipts, before it applies the data
that the payload reads as. -/
structure B2Accepts (x : NativeAblationReceiverV1) (env : Env) (e : Envelope) (payload : Bytes) (data : Data)
    (r₀ r₁ : Receipt) : Prop where
  payloadHash : e.record.payloadHash = keccak256 payload
  valid : e.record.Valid
  source : e.record.sourceGateway.hash = x.sourceGatewayHash
  destination : _evmAddress e.record.destinationApp = .ok x.thisAddress
  reads : heterogeneousPayload payload = .ok data
  first : Expected (env.carriers (x.lastAdapter data.route)) e (rootPrefix e.rid) r₀
    ⟨x.sourceGatewayHash, x.intermediateGatewayHash, (x.expectedProfiles data.route).1⟩
  second : Expected (env.carriers (x.lastAdapter data.route)) e (prefixStep (rootPrefix e.rid) 0 r₀) r₁
    ⟨x.intermediateGatewayHash, x.destinationGatewayHash, (x.expectedProfiles data.route).2⟩
  bundle : (env.carriers (x.lastAdapter data.route)).verifyBundle (bundleOf r₀ r₁) = some true

theorem b2Loop_eq_ok {x : NativeAblationReceiverV1} {adapter : Carrier} {e : Envelope} {route : BytesN 2}
    {r₀ r₁ : Receipt} {s : Bytes32 × Bytes32} :
    b2Loop adapter e.recordDigest e.contextDigest (rootPrefix e.rid, bundleStart 2) 0
        ([r₀, r₁].zip (x.expectedHops route)) = .ok s ↔
      Expected adapter e (rootPrefix e.rid) r₀
        ⟨x.sourceGatewayHash, x.intermediateGatewayHash, (x.expectedProfiles route).1⟩ ∧
      Expected adapter e (prefixStep (rootPrefix e.rid) 0 r₀) r₁
        ⟨x.intermediateGatewayHash, x.destinationGatewayHash, (x.expectedProfiles route).2⟩ ∧
      (prefixStep (prefixStep (rootPrefix e.rid) 0 r₀) 1 r₁, bundleOf r₀ r₁) = s := by
  simp only [expectedHops, List.zip_cons_cons, List.zip_nil_right, b2Loop, bind_eq_ok, b2Step_eq_ok]
  constructor
  · rintro ⟨_, ⟨h₀, rfl⟩, _, ⟨h₁, rfl⟩, hs⟩
    exact ⟨h₀, h₁, Except.ok.inj hs⟩
  · rintro ⟨h₀, h₁, rfl⟩
    exact ⟨_, ⟨h₀, rfl⟩, _, ⟨h₁, rfl⟩, rfl⟩

theorem deliverB2_eq_ok {x : NativeAblationReceiverV1} {env : Env} {e : Envelope} {payload : Bytes} {r₀ r₁ : Receipt}
    {r : NativeAblationReceiverV1 × Bytes32 × AblationEffect} :
    x.deliverB2 env x.runner payload e.record e.context e.certificate.registryVersion [r₀, r₁] = .ok r ↔
      ∃ data, x.B2Accepts env e payload data r₀ r₁ ∧ ∃ a, x._apply data B2 e.mid = .ok a ∧ (a.1, e.mid, a.2) = r := by
  rw [deliverB2, revertIf_bind, revertIf_bind]
  simp only [bind_eq_ok, typedIdHash_eq_ok, recordHash_eq_ok, rootId_eq_ok, messageId_eq_ok, revertIf_eq_ok,
    orRevert_eq_ok, pure_eq_ok, not_or, not_not, ne_eq, Bool.not_eq_false]
  constructor
  · rintro ⟨-, ⟨-, hp⟩, _, ⟨-, rfl⟩, -, hs, _, hd, -, rfl, data, hr, _, ⟨hv, rfl⟩, _, ⟨-, rfl⟩, _, ⟨-, rfl⟩,
      _, hh, _, hl, _, hver, -, rfl, a, ha, hres⟩
    have hroute := route_of_heterogeneousPayload hr
    obtain rfl := (secondIsHyperlane_eq_ok hroute).mp hh
    rw [adapter_eq x hroute] at hl hver
    obtain ⟨h₀, h₁, rfl⟩ := b2Loop_eq_ok.mp hl
    exact ⟨data, ⟨hp, hv, hs, hd, hr, h₀, h₁, hver⟩, a, ha, hres⟩
  · rintro ⟨data, h, a, ha, hres⟩
    have hroute := route_of_heterogeneousPayload h.reads
    have hl := b2Loop_eq_ok.mpr ⟨h.first, h.second, rfl⟩
    have hver := h.bundle
    rw [← adapter_eq x hroute] at hl hver
    exact ⟨trivial, ⟨rfl, h.payloadHash⟩, _, ⟨h.valid.1, rfl⟩, (), h.source, _, h.destination, (), rfl,
      data, h.reads, _,
      ⟨h.valid, rfl⟩, _, ⟨h.valid.1, rfl⟩, _, ⟨h.valid.2.2, rfl⟩, _, (secondIsHyperlane_eq_ok hroute).mpr rfl,
      _, hl, _, hver, (), rfl, a, ha, hres⟩

/-! ## What B3 checks of the same delivery -/

omit [Keccak] in
theorem evmAddress_eq_ok {id : TypedId} {a : Address} :
    _evmAddress id = .ok a ↔ XIRGateway._evmAddress id = .ok a := by
  rw [_evmAddress, XIRGateway._evmAddress]
  split
  · exact Iff.rfl
  · constructor <;> intro h <;> cases h

/-- Applying the data fails on what was consumed, and if the counter overflows. -/
theorem apply_eq_ok {x : NativeAblationReceiverV1} {data : Data} {layer : UInt8} {mid : Bytes32} :
    (∃ a, x._apply data layer mid = .ok a) ↔ x.consumedAttempts data.attemptId = false ∧
      x.consumedMessages mid = false ∧ x.deliveryCount + 1 < 2 ^ 256 := by
  simp only [_apply, _commitEffect, revertIf_bind, pure_eq_ok, Bool.not_eq_true, not_le]
  exact ⟨fun ⟨_, ha, hm, hc, _⟩ => ⟨ha, hm, hc⟩, fun ⟨ha, hm, hc⟩ => ⟨_, ha, hm, hc, rfl⟩⟩

theorem xirReceive_eq_ok {x : NativeAblationReceiverV1} {mid : Bytes32} {payload : Bytes}
    {r : NativeAblationReceiverV1 × AblationEffect} : x.xirReceive x.xirGateway mid payload = .ok r ↔
      ∃ data, heterogeneousPayload payload = .ok data ∧ x._apply data B3 mid = .ok r := by
  rw [xirReceive, revertIf_bind, bind_eq_ok]
  exact and_iff_right (not_not.mpr rfl)

/-- The registry has the profile of a hop, with an adapter. -/
structure Registered (registry : XIRRegistry) (h : ExpectedHop) (adapter : Address) : Prop where
  srcHash : (registry.profileAt h.profile).srcHash = h.src
  dstHash : (registry.profileAt h.profile).dstHash = h.dst
  adapter : (registry.profileAt h.profile).adapter = adapter

/-- The profiles of the registry are the constants of the receiver, where the adapter of the last
hop verifies both hops of a route. -/
structure Configured (x : NativeAblationReceiverV1) (registry : XIRRegistry) : Prop where
  hyperlaneAB : Registered registry ⟨x.sourceGatewayHash, x.intermediateGatewayHash, x.hyperlaneABProfile⟩
    x.layerZeroXirAdapter
  layerZeroAB : Registered registry ⟨x.sourceGatewayHash, x.intermediateGatewayHash, x.layerZeroABProfile⟩
    x.hyperlaneXirAdapter
  hyperlaneBC : Registered registry ⟨x.intermediateGatewayHash, x.destinationGatewayHash, x.hyperlaneBCProfile⟩
    x.hyperlaneXirAdapter
  layerZeroBC : Registered registry ⟨x.intermediateGatewayHash, x.destinationGatewayHash, x.layerZeroBCProfile⟩
    x.layerZeroXirAdapter

omit [Keccak] in
theorem Configured.registered {x : NativeAblationReceiverV1} {registry : XIRRegistry} (hc : Configured x registry)
    {route : BytesN 2} (hr : route = HL ∨ route = LH) :
    Registered registry ⟨x.sourceGatewayHash, x.intermediateGatewayHash, (x.expectedProfiles route).1⟩
        (x.lastAdapter route) ∧
      Registered registry ⟨x.intermediateGatewayHash, x.destinationGatewayHash, (x.expectedProfiles route).2⟩
        (x.lastAdapter route) := by
  obtain rfl | rfl := hr
  · exact ⟨hc.hyperlaneAB, hc.layerZeroBC⟩
  · exact ⟨hc.layerZeroAB, hc.hyperlaneBC⟩

/-- A receipt that the gateway accepted, with a profile that B2 expects. -/
theorem expected_of_hopAccepts {env : Env} {e : Envelope} {s : XIRGateway.TraceState} {r : Receipt} {h : ExpectedHop}
    {adapter : Address} (ha : HopAccepts env e s r) (hr : Registered env.registry h adapter)
    (hp : r.profileHash = h.profile) : Expected (env.carriers adapter) e s.tracePrefix r h where
  valid := ha.valid
  priorPrefix := ha.priorPrefix
  src := by rw [← ha.srcHash, hp, hr.srcHash]
  dst := by rw [← ha.dstHash, hp, hr.dstHash]
  profile := hp
  transition := ha.transition
  verified := by
    have hv := ha.verified
    rwa [hp, hr.adapter, ← hp] at hv

/-- The gateway accepts an envelope with two receipts whose profiles B2 expects for the route in the payload. -/
theorem b2Accepts_of_deliverAccepts {x : NativeAblationReceiverV1} {g : XIRGateway} {env : Env} {e : Envelope}
    {payload : Bytes} {data : Data} {r₀ r₁ : Receipt} (hc : Configured x env.registry) (he : e.receipts = [r₀, r₁])
    (hd : DeliverAccepts g env e payload x.thisAddress) (hr : heterogeneousPayload payload = .ok data)
    (hp : (r₀.profileHash, r₁.profileHash) = x.expectedProfiles data.route) : x.B2Accepts env e payload data r₀ r₁ := by
  obtain ⟨hreg₀, hreg₁⟩ := hc.registered (route_of_heterogeneousPayload hr)
  obtain ⟨hp₀, hp₁⟩ := Prod.ext_iff.mp hp
  have hops := hd.trace.hops
  rw [he] at hops
  obtain ⟨ha₀, ha₁, -⟩ := hops
  have h₀ := expected_of_hopAccepts ha₀ hreg₀ hp₀
  have h₁ := expected_of_hopAccepts ha₁ hreg₁ hp₁
  have hsrc : e.record.sourceGateway.hash = r₀.srcGateway.hash := ha₀.expectedSrc.symm
  have hb := (hd.trace.bundle (by rw [he]; exact nofun)).2
  have hend : traceEnd env.registry e = ⟨prefixStep (prefixStep (rootPrefix e.rid) 0 r₀) 1 r₁, r₁.dstGateway.hash,
      bundleOf r₀ r₁, (env.registry.profileAt r₁.profileHash).adapter⟩ := by
    rw [traceEnd, traceStart, he]
    rfl
  rw [hend] at hb
  exact {
    payloadHash := hd.payload.symm
    valid := hd.trace.root.record_valid
    source := hsrc.trans h₀.src
    destination := evmAddress_eq_ok.mpr hd.receiver
    reads := hr
    first := h₀
    second := h₁
    bundle := by
      have ha : (env.registry.profileAt r₁.profileHash).adapter = x.lastAdapter data.route := by
        rw [show r₁.profileHash = _ from hp₁, hreg₁.adapter]
      rw [← ha]
      exact hb }

/-- The ladder from B3 to B2. For profiles that are the constants of the receiver, and an envelope with two
receipts that the gateway delivers to some receiver, B2 accepts the envelope and the payload if and only if that
receiver is this contract, it accepts the payload at layer B3, and the profiles of the receipts are those of the
route that the payload names; and it derives the same message id. -/
theorem ablation_ladder {x : NativeAblationReceiverV1} {g : XIRGateway} {env : Env} {e : Envelope} {payload : Bytes}
    {receiver : Address} {r₀ r₁ : Receipt} {r : XIRGateway × Bytes32} (hc : Configured x env.registry)
    (he : e.receipts = [r₀, r₁]) (hd : g.deliverStart env e payload receiver = .ok r) :
    ((∃ b, x.deliverB2 env x.runner payload e.record e.context e.certificate.registryVersion e.receipts = .ok b) ↔
      receiver = x.thisAddress ∧ (∃ a, x.xirReceive x.xirGateway r.2 payload = .ok a) ∧
        ∃ data, decodeData payload = some data ∧ (r₀.profileHash, r₁.profileHash) = x.expectedProfiles data.route) ∧
    ∀ b, x.deliverB2 env x.runner payload e.record e.context e.certificate.registryVersion e.receipts = .ok b →
      b.2.1 = r.2 := by
  obtain ⟨ha, rfl⟩ := deliverStart_eq_ok.mp hd
  have hdec : ∀ {data}, heterogeneousPayload payload = .ok data → decodeData payload = some data := fun h => by
    simp only [heterogeneousPayload, bind_eq_ok, orRevert_eq_ok, revertIf_eq_ok, pure_eq_ok] at h
    obtain ⟨_, hr, _, -, _, -, -, -, rfl⟩ := h
    exact hr
  rw [he]
  refine ⟨⟨fun h => ?_, fun h => ?_⟩, fun b hb => ?_⟩
  · obtain ⟨b, hb⟩ := h
    obtain ⟨data, hacc, a, happ, -⟩ := deliverB2_eq_ok.mp hb
    have hto := evmAddress_eq_ok.mp hacc.destination
    rw [ha.receiver] at hto
    obtain ⟨a', ha'⟩ := apply_eq_ok.mpr (apply_eq_ok.mp ⟨a, happ⟩)
    exact ⟨Except.ok.inj hto, ⟨a', xirReceive_eq_ok.mpr ⟨data, hacc.reads, ha'⟩⟩, data, hdec hacc.reads,
      Prod.ext hacc.first.profile hacc.second.profile⟩
  · obtain ⟨hr, ⟨a, hx⟩, data, hdata, hp⟩ := h
    obtain ⟨data', hr', happ⟩ := xirReceive_eq_ok.mp hx
    obtain rfl := Option.some.inj (hdata.symm.trans (hdec hr'))
    obtain ⟨a', ha'⟩ := apply_eq_ok.mpr (apply_eq_ok.mp ⟨a, happ⟩)
    exact ⟨_, deliverB2_eq_ok.mpr ⟨_, b2Accepts_of_deliverAccepts hc he (hr ▸ ha) hr' hp, a', ha', rfl⟩⟩
  · obtain ⟨_, -, a, -, rfl⟩ := deliverB2_eq_ok.mp hb
    rfl

/-- What the call of the receiver by the gateway makes of the gateway. -/
def received (x : NativeAblationReceiverV1) (g : XIRGateway) (mid : Bytes32) (payload : Bytes) : Option XIRGateway :=
  match x.xirReceive x.xirGateway mid payload with
  | .ok _ => some g
  | .error _ => none

/-! ## A message that takes the route LH -/

namespace Lab

/-- A payload labelled with a route. -/
def payload (route : BytesN 2) : Bytes :=
  (word 32).val ++
    ((BytesN.single 1 : Bytes32).val ++ (route.val ++ List.replicate 30 0) ++ (word 0).val ++ (word 128).val ++
    Abi.encodeBytes [1])

def data (route : BytesN 2) : Data := ⟨.single 1, route, 0, [1]⟩

omit [Keccak] in
theorem reads {route : BytesN 2} (h : route = HL ∨ route = LH) :
    heterogeneousPayload (payload route) = .ok (data route) := by
  obtain rfl | rfl := h
  · exact of_decide_eq_true (by decide +kernel)
  · exact of_decide_eq_true (by decide +kernel)

/-- The receiver, whose four profiles are numbered in the order of its constructor. -/
def receiver : NativeAblationReceiverV1 where
  thisAddress := .single 9
  runner := .single 8
  xirGateway := .single 7
  hyperlaneXirAdapter := .single 5
  layerZeroXirAdapter := .single 6
  sourceGatewayHash := (evmId 1).hash
  intermediateGatewayHash := (evmId 2).hash
  destinationGatewayHash := (evmId 3).hash
  hyperlaneABProfile := .single 1
  layerZeroABProfile := .single 2
  hyperlaneBCProfile := .single 3
  layerZeroBCProfile := .single 4
  effectStateHash := 0
  deliveryCount := 0
  consumedAttempts := fun _ => false
  consumedMessages := fun _ => false

def profiles (p : Bytes32) : ProfileSnapshot :=
  if p = .single 1 then ⟨(evmId 1).hash, (evmId 2).hash, .single 6, 1, 0, 0, true⟩
  else if p = .single 2 then ⟨(evmId 1).hash, (evmId 2).hash, .single 5, 1, 0, 0, true⟩
  else if p = .single 3 then ⟨(evmId 2).hash, (evmId 3).hash, .single 5, 1, 0, 0, true⟩
  else if p = .single 4 then ⟨(evmId 2).hash, (evmId 3).hash, .single 6, 1, 0, 0, true⟩
  else 0

/-- The adapters verify everything. -/
def env : Env where
  timestamp := 0
  registry := ⟨0, fun _ => ⟨(evmId 1).hash, .single 5, 0, 0, true⟩, profiles⟩
  carriers := fun _ => ⟨fun _ _ _ => some true, fun _ => some true⟩
  ecrecover := fun _ _ _ _ => .single 5

def gateway : XIRGateway := ⟨_, evmId 3, fun _ => 0, fun _ => false, typedIdHash_eq_ok.mpr ⟨evmId_valid 3, rfl⟩⟩

/-- The envelope before its receipts. -/
def rooted (route : BytesN 2) : Envelope :=
  ⟨⟨evmId 1, evmId 4, evmId 9, 0, keccak256 (payload route)⟩, ⟨1, 0⟩, ⟨1, List.replicate 65 27⟩, []⟩

def first (route : BytesN 2) : Receipt :=
  ⟨evmId 1, evmId 2, .single 2, .single 1, (rooted route).transition (evmId 1) (evmId 2), rootPrefix (rooted route).rid⟩

def second (route : BytesN 2) : Receipt :=
  ⟨evmId 2, evmId 3, .single 3, .single 1, (rooted route).transition (evmId 2) (evmId 3),
    prefixStep (rootPrefix (rooted route).rid) 0 (first route)⟩

def envelope (route : BytesN 2) : Envelope := { rooted route with receipts := [first route, second route] }

theorem configured : Configured receiver env.registry :=
  ⟨⟨rfl, rfl, rfl⟩, ⟨rfl, rfl, rfl⟩, ⟨rfl, rfl, rfl⟩, ⟨rfl, rfl, rfl⟩⟩

theorem deliverAccepts (route : BytesN 2) :
    DeliverAccepts gateway env (envelope route) (payload route) receiver.thisAddress := by
  have hs : ¬ (1 : UInt8) < 1 := by decide
  have he : (BytesN.single 1 : Bytes32) ≠ 0 := by decide
  have ha : (BytesN.single 5 : Address) ≠ 0 := by decide
  have hr : (BytesN.single 9 : Address) ≠ 0 := by decide
  have h₀ : HopAccepts env (envelope route) (traceStart (envelope route)) (first route) :=
    ⟨⟨evmId_valid 1, evmId_valid 2⟩, rfl, rfl, rfl, rfl, rfl, hs, rfl, he, ha, rfl⟩
  have h₁ : HopAccepts env (envelope route) ((traceStart (envelope route)).next env.registry 0 (first route))
      (second route) :=
    ⟨⟨evmId_valid 2, evmId_valid 3⟩, rfl, rfl, rfl, rfl, rfl, hs, rfl, he, ha, rfl⟩
  exact ⟨rfl, hr, rfl, ⟨⟨⟨evmId_valid 1, evmId_valid 4, evmId_valid 9⟩, rfl, rfl, rfl⟩, ⟨h₀, h₁, trivial⟩, rfl,
    fun _ => ⟨ha, rfl⟩⟩, rfl⟩

theorem deliverStart (route : BytesN 2) :
    gateway.deliverStart env (envelope route) (payload route) receiver.thisAddress =
      .ok (gateway.consume (envelope route).mid, (envelope route).mid) :=
  deliverStart_eq_ok.mpr ⟨deliverAccepts route, rfl⟩

theorem xirReceive {route : BytesN 2} (h : route = HL ∨ route = LH) (mid : Bytes32) :
    ∃ a, receiver.xirReceive receiver.xirGateway mid (payload route) = .ok a := by
  have hc : 0 + 1 < 2 ^ 256 := by decide
  obtain ⟨a, ha⟩ : ∃ a, receiver._apply (data route) B3 mid = .ok a := apply_eq_ok.mpr ⟨rfl, rfl, hc⟩
  exact ⟨a, xirReceive_eq_ok.mpr ⟨_, reads h, ha⟩⟩

end Lab

omit [Keccak] in
/-- With the label of its route, B2 accepts it. -/
theorem ablation_ladder_labelled : let _ := idealKeccak
    ∃ b, Lab.receiver.deliverB2 Lab.env Lab.receiver.runner (Lab.payload LH) (Lab.envelope LH).record
      (Lab.envelope LH).context 1 (Lab.envelope LH).receipts = .ok b := by
  let _ := idealKeccak
  refine (ablation_ladder Lab.configured rfl (Lab.deliverStart LH)).1.mpr
    ⟨rfl, Lab.xirReceive (.inr rfl) _, Lab.data LH, ?_, rfl⟩
  exact of_decide_eq_true (by decide +kernel)

omit [Keccak] in
/-- Labelled with the other route, the gateway delivers it to this contract, and B2 reverts. -/
theorem mislabelled_refused : let _ := idealKeccak
    Configured Lab.receiver Lab.env.registry ∧ (Lab.envelope HL).receipts.length = 2 ∧
    (∃ d, Lab.gateway.deliver Lab.env (Lab.envelope HL) (Lab.payload HL) Lab.receiver.thisAddress
      Lab.receiver.received =
      .ok d) ∧
    ∀ b, Lab.receiver.deliverB2 Lab.env Lab.receiver.runner (Lab.payload HL) (Lab.envelope HL).record
      (Lab.envelope HL).context 1 (Lab.envelope HL).receipts ≠ .ok b := by
  let _ := idealKeccak
  refine ⟨Lab.configured, rfl, ?_, fun b hb => ?_⟩
  · obtain ⟨a, ha⟩ := Lab.xirReceive (.inl rfl) (Lab.envelope HL).mid
    rw [XIRGateway.deliver, bind_of_ok (Lab.deliverStart HL)]
    simp only [received, ha]
    exact ⟨_, rfl⟩
  · obtain ⟨data, h, -⟩ := deliverB2_eq_ok.mp hb
    obtain rfl := Except.ok.inj ((Lab.reads (.inl rfl)).symm.trans h.reads)
    exact absurd h.first.profile (by decide)

end Xir.Impl.NativeAblationReceiverV1
