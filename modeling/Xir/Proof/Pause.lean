import Xir.Framework.Frames
import Xir.Impl.Contracts.Controlled
import Xir.Proof.Baseline

/-!
# The emergency pause and the drain

The controlled contracts of a chain among contracts that do anything:
`network` are the calls that they receive, from anyone and within each other. A
call that starts an outbound send passes the gate of its contract (`Gated`),
except that of `baselineCarrierReceive` by the first inbound carrier, which
nothing gates (`Ungated`). A run respects the pause exactly if no such call is
made of a paused route (`sends_gated`).
-/

namespace Xir.Impl

open Proof

namespace OutboundControl

variable {β : Type} {c : OutboundControl} {sender : Address} {f : Unit → Except Revert β} {b : β}

theorem maySend_of_source (h : (c.onlyRunner sender >>= fun _ => c.whenSourceStartAllowed >>= f) = .ok b) :
    c.MaySend sender true := by
  obtain ⟨hr, h⟩ := unit_bind.mp h
  exact sourceAllowed_iff.mp ⟨hr, (unit_bind.mp h).1⟩

theorem maySend_of_inFlight (h : (c.onlyRunner sender >>= fun _ => c.whenOutboundActive >>= f) = .ok b) :
    c.MaySend sender false := by
  obtain ⟨hr, h⟩ := unit_bind.mp h
  exact outboundActive_iff.mp ⟨hr, (unit_bind.mp h).1⟩

end OutboundControl

namespace Adapter

open OutboundControl

variable [Keccak]

/-- A send passed the gate of its kind. -/
theorem maySend_of_send {a : Adapter} {carriers : Address → Carrier} {sender : Address} {call : SendCall} {m : Message}
    (h : a.send carriers sender call = .ok m) : a.carrier.MaySend sender call.source := by
  cases a with
  | hyperlane a =>
    cases call with
    | sendRaw | sendBundle | sendBaselineSource =>
      obtain ⟨d, hd, -⟩ := bind_eq_ok.mp h
      exact maySend_of_source hd
    | forwardRaw | forwardBundle | forwardBaseline =>
      obtain ⟨d, hd, -⟩ := bind_eq_ok.mp h
      exact maySend_of_inFlight hd
  | layerZero a =>
    cases call with
    | sendRaw | forwardRaw => cases h
    | sendBundle | sendBaselineSource =>
      obtain ⟨d, hd, -⟩ := bind_eq_ok.mp h
      exact maySend_of_source hd
    | forwardBundle | forwardBaseline =>
      obtain ⟨d, hd, -⟩ := bind_eq_ok.mp h
      exact maySend_of_inFlight hd

/-- The adapter with its drain set or not. -/
def drain (b : Bool) : Adapter → Adapter
  | hyperlane a => hyperlane { a with draining := b }
  | layerZero a => layerZero { a with draining := b }

theorem SendChecks.drain {a : Adapter} {carriers : Address → Carrier} {sender : Address} {request : ForwardRequest}
    {options : Bytes} (h : a.SendChecks carriers sender false request options) (b : Bool) :
    (a.drain b).SendChecks carriers sender false request options := by
  obtain ⟨⟨hr, hp, -⟩, hf, ho⟩ := h
  have hd : (false : Bool) = true → b = false := fun h => nomatch h
  cases a with
  | hyperlane a => exact ⟨⟨hr, hp, hd⟩, ⟨hf.1, hf.2, hf.3, hf.4, hf.5, hf.6⟩, ho⟩
  | layerZero a => exact ⟨⟨hr, hp, hd⟩, ⟨hf.1, hf.2, hf.3, hf.4, hf.5, hf.6⟩, ho⟩

/-- A drain does not matter to a message in flight. -/
theorem send_drain {a : Adapter} {carriers : Address → Carrier} {sender : Address} {call : SendCall} {m : Message}
    (h : call.source = false) (hs : a.send carriers sender call = .ok m) (b : Bool) :
    (a.drain b).send carriers sender call = .ok m := by
  cases call with
  | sendRaw | sendBundle | sendBaselineSource => cases h
  | forwardRaw | forwardBaseline => cases a <;> exact hs
  | forwardBundle request options =>
    have hs : a.send carriers sender (bundleCall false request options) = .ok m := hs
    show (a.drain b).send carriers sender (bundleCall false request options) = .ok m
    obtain ⟨hc, hb⟩ := send_bundle_eq_ok.mp hs
    refine send_bundle_eq_ok.mpr ⟨hc.drain b, ?_⟩
    cases a <;> exact hb

end Adapter

namespace BaselineRouteControl

/-- A call that nothing gates: the first inbound carrier delivers a message, which the route
forwards. -/
def Ungated (r : BaselineRouteControl) (sender : Address) (e : Entry) : Prop :=
  sender = r.firstInbound ∧ ∃ messageId payload, e = .baselineCarrierReceive messageId payload

theorem dispatchSource_eq_ok {r : BaselineRouteControl} {sender : Address} {payload options : Bytes} {q : Request} :
    r.dispatchSource sender payload options = .ok q ↔
      r.MaySend sender true ∧ .sendBaselineSource r.firstOutbound r.routeId payload options = q := by
  rw [dispatchSource, unit_bind, unit_bind, ← and_assoc, OutboundControl.sourceAllowed_iff, pure_eq_ok]

theorem receiveFirstLegAndForward_eq_ok {r : BaselineRouteControl} {sender : Address} (id : Bytes32)
    {payload options : Bytes} {q : Request} :
    r.receiveFirstLegAndForward sender id payload options = .ok q ↔
      r.outboundPaused = false ∧ sender = r.firstInbound ∧
        .forwardBaseline r.secondOutbound r.routeId payload options = q := by
  rw [receiveFirstLegAndForward, OutboundControl.whenOutboundActive, revertIf_bind, revertIf_bind, pure_eq_ok, not_not,
    Bool.not_eq_true]

theorem receiveSecondLegAndApply_eq_ok {r : BaselineRouteControl} {sender : Address} {id : Bytes32} {payload : Bytes}
    {q : Request} :
    r.receiveSecondLegAndApply sender id payload = .ok q ↔
      sender = r.secondInbound ∧ .baselineReceive r.receiver id payload = q := by
  rw [receiveSecondLegAndApply, revertIf_bind, pure_eq_ok, not_not]

theorem baselineCarrierReceive_eq_ok {r : BaselineRouteControl} {sender : Address} {id : Bytes32} {payload : Bytes}
    {q : Request} :
    r.baselineCarrierReceive sender id payload = .ok q ↔
      (sender = r.firstInbound ∧ .forwardBaseline r.secondOutbound r.routeId payload [] = q) ∨
        (sender ≠ r.firstInbound ∧ sender = r.secondInbound ∧ .baselineReceive r.receiver id payload = q) := by
  unfold baselineCarrierReceive
  by_cases h₁ : sender = r.firstInbound
  · simp [h₁]
  · rw [if_neg h₁]
    by_cases h₂ : sender = r.secondInbound
    · rw [if_pos h₂, pure_eq_ok]
      exact ⟨fun h => .inr ⟨h₁, h₂, h⟩, fun h => (h.resolve_left fun h => h₁ h.1).2.2⟩
    · rw [if_neg h₂]
      exact ⟨fun h => (nomatch h), fun h => (h.elim (fun h => h₁ h.1) fun h => h₂ h.2.1).elim⟩

/-- A route sends from a gate of its own, or from the call that nothing gates. -/
theorem gate_of_request {r : BaselineRouteControl} {sender : Address} {e : Entry} {q : Request}
    (h : r.request sender e = .ok q) (hq : q.ask.outbound = true) :
    (r.outboundPaused = false ∧ (e.source = true → r.draining = false)) ∨ r.Ungated sender e := by
  cases e with
  | send | receive | administer => cases h
  | dispatchSource =>
    obtain ⟨⟨-, hp, hd⟩, -⟩ := dispatchSource_eq_ok.mp h
    exact .inl ⟨hp, hd⟩
  | receiveFirstLegAndForward id payload options =>
    obtain ⟨hp, -⟩ := (receiveFirstLegAndForward_eq_ok id).mp h
    exact .inl ⟨hp, fun hs => nomatch hs⟩
  | receiveSecondLegAndApply =>
    obtain ⟨-, rfl⟩ := receiveSecondLegAndApply_eq_ok.mp h
    cases hq
  | baselineCarrierReceive id payload =>
    rcases baselineCarrierReceive_eq_ok.mp h with ⟨hs, -⟩ | ⟨-, -, rfl⟩
    · exact .inr ⟨hs, id, payload, rfl⟩
    · cases hq

/-- The call that nothing gates does send. -/
theorem Ungated.request {r : BaselineRouteControl} {sender : Address} {e : Entry} (h : r.Ungated sender e) {q : Request}
    (hq : r.request sender e = .ok q) : q.ask.outbound = true := by
  obtain ⟨hs, id, payload, rfl⟩ := h
  rcases baselineCarrierReceive_eq_ok.mp hq with ⟨-, rfl⟩ | ⟨hn, -⟩
  · rfl
  · exact absurd hs hn

/-- A drain does not matter to a message in flight. -/
theorem request_drain (r : BaselineRouteControl) (b : Bool) (sender : Address) {e : Entry} (h : e.source = false) :
    request { r with draining := b } sender e = r.request sender e := by
  cases e <;> first | rfl | cases h

end BaselineRouteControl

end Xir.Impl

namespace Xir.Impl.Controlled

open Proof

variable [Keccak] {carriers : Address → Carrier} {sender : Address} {c c' : Controlled} {e : Entry} {q : Ask}

/-- The contract with its drain set or not. -/
def drain (b : Bool) : Controlled → Controlled
  | adapter a => adapter (a.drain b)
  | route r => route { r with draining := b }

/-- A call that nothing gates, of a route. -/
def Ungated (c : Controlled) (sender : Address) (e : Entry) : Prop := ∃ r, c = route r ∧ r.Ungated sender e

theorem gate_of_call (h : Call carriers sender c e (some q) c') (hq : q.outbound = true) :
    (c.control.outboundPaused = false ∧ (e.source = true → c.control.draining = false)) ∨ c.Ungated sender e := by
  cases h with
  | send h => exact .inl (Adapter.maySend_of_send h).2
  | callback => cases hq
  | @request r _ _ h => exact (BaselineRouteControl.gate_of_request h hq).imp_right fun hu => ⟨r, rfl, hu⟩

/-- A call that nothing gates does send. -/
theorem Ungated.call (hu : c.Ungated sender e) {q : Option Ask} (h : Call carriers sender c e q c') :
    ∃ a, q = some a ∧ a.outbound = true := by
  obtain ⟨r, rfl, hu⟩ := hu
  cases h with
  | request h => exact ⟨_, rfl, hu.request h⟩
  | administerRoute =>
    obtain ⟨-, _, _, h⟩ := hu
    cases h

/-- A send in flight is one with the drain set as well. -/
theorem Call.drain (h : Call carriers sender c e (some q) c') (hq : q.outbound = true)
    (he : e.source = false) (b : Bool) :
    Call carriers sender (c.drain b) e (some q) (c'.drain b) := by
  cases h with
  | send h => exact .send (Adapter.send_drain he h b)
  | callback => cases hq
  | @request r _ _ h => exact .request ((r.request_drain b sender he).trans h)

/-- The options of a LayerZero adapter are configured. -/
def Configured : Controlled → Prop
  | adapter a => ∃ options, a.TakesOptions options
  | route _ => True

/-- A contract forwards some message in flight, and each one that it forwards if it is not
draining. -/
structure Forwards (c : Controlled) : Prop where
  possible : c.Configured → ∃ carriers sender e q c', Call carriers sender c e (some q) c' ∧ q.outbound = true ∧
    e.source = false
  undrained : ∀ carriers sender e q c', Call carriers sender (c.drain false) e (some q) c' → q.outbound = true →
    e.source = false → Call carriers sender c e (some q) (c'.drain c.control.draining)

theorem forwards_of_active (h : c.control.outboundPaused = false) : c.Forwards where
  possible hc := by
    cases c with
    | adapter a =>
      obtain ⟨options, ho⟩ := hc
      let request : ForwardRequest := .of 0 [] 0 0
      obtain ⟨message, body, hm, hb⟩ := encodeBundle_of_length (k := a.bundleKind) (b := request.bundle) (by decide)
      have hf : a.carrier.ForwardChecks (fun _ => ⟨fun _ _ _ => none, fun _ => none⟩) request :=
        ⟨rfl, rfl, rfl, rfl, List.forall_mem_nil _, List.forall_mem_nil _⟩
      have hs : a.send _ a.carrier.runner (Adapter.bundleCall false request options) = .ok _ :=
        Adapter.send_bundle_eq_ok.mpr ⟨⟨⟨rfl, h, fun h => nomatch h⟩, hf, ho⟩, body, ⟨message, hm, hb⟩, rfl⟩
      exact ⟨_, _, _, _, _, .send hs, rfl, rfl⟩
    | route r =>
      have hr : r.request r.firstInbound (.receiveFirstLegAndForward 0 [] []) = .ok _ :=
        (BaselineRouteControl.receiveFirstLegAndForward_eq_ok 0).mpr ⟨h, rfl, rfl⟩
      exact ⟨fun _ => ⟨fun _ _ _ => none, fun _ => none⟩, _, _, _, _, .request hr, rfl, rfl⟩
  undrained carriers sender e q c' hs hq he := by
    have hc : (c.drain false).drain c.control.draining = c := by
      cases c with
      | adapter a => cases a <;> rfl
      | route r => rfl
    have hd := hs.drain hq he c.control.draining
    rwa [hc] at hd

end Xir.Impl.Controlled

namespace Xir.Proof

open Impl

variable [Keccak]

/-- The controlled contracts of a chain, by their addresses. -/
abbrev Contracts := Address → Option Controlled

/-- A call of a controlled contract, and what it asks of another one. -/
structure OpenCall where
  target : Address
  sender : Address
  entry : Entry
  ask : Option Ask

/-- What a contract asks that makes this call. -/
def OpenCall.asked (f : OpenCall) : Option Ask :=
  match f.entry with
  | .send call => some (.send f.target call)
  | .baselineCarrierReceive messageId payload => some (.baselineCarrierReceive f.target messageId payload)
  | _ => none

/-- The calls of the controlled contracts. Anyone makes any call, at any moment and within any
call; a controlled contract makes the one that its innermost open function asks for. -/
def network : Frames Contracts OpenCall where
  act _ _ _ := False
  enter fs w f w' := ∃ carriers c c', w f.target = some c ∧ Controlled.Call carriers f.sender c f.entry f.ask c' ∧
    w' = Function.update w f.target (some c') ∧
    ((w f.sender).isSome → ∃ g ∈ fs.head?, g.target = f.sender ∧ ∃ q ∈ g.ask, f.asked = some q)
  leave _ _ w w' := w' = w

/-- A call that starts an outbound send finds its contract neither paused nor, if it starts a
source send, draining. -/
def Gated (w : Contracts) (f : OpenCall) : Prop :=
  ∀ c q, w f.target = some c → f.ask = some q → q.outbound = true →
    c.control.outboundPaused = false ∧ (f.entry.source = true → c.control.draining = false)

/-- The first inbound carrier of a paused route delivers a message to it. -/
def DeliveredPaused (w : Contracts) (f : OpenCall) : Prop :=
  ∃ r, w f.target = some (.route r) ∧ r.Ungated f.sender f.entry ∧ r.outboundPaused = true

/-- Pause and drain gate every outbound send of a run, and what is in flight is forwarded by
contracts that only drain. -/
structure SendsGated (c₀ : Frames.Config Contracts OpenCall) (es : List (Frames.Event OpenCall))
    (c : Frames.Config Contracts OpenCall) : Prop where
  gated : network.EveryCall Gated c₀ es c
  drained : ∀ es₁ es₂ c₁, es = es₁ ++ es₂ → Run (Frames.Step network) c₀ es₁ c₁ → Run (Frames.Step network) c₁ es₂ c →
    ∀ a x, c₁.state a = some x → x.control.outboundPaused = false → x.control.draining = true → x.Forwards

theorem gated_iff {fs : List OpenCall} {w w' : Contracts} {f : OpenCall} (h : network.enter fs w f w') :
    Gated w f ↔ ¬ DeliveredPaused w f := by
  obtain ⟨carriers, c, c', hc, hs, -⟩ := h
  constructor
  · rintro hg ⟨r, hr, hu, hp⟩
    obtain rfl : c = .route r := Option.some.inj (hc.symm.trans hr)
    obtain ⟨q, hq, ho⟩ := Controlled.Ungated.call ⟨r, rfl, hu⟩ hs
    have hn : r.outboundPaused = false := (hg _ q hr hq ho).1
    rw [hp] at hn
    cases hn
  · intro hn c₁ q hc₁ hq ho
    obtain rfl : c = c₁ := Option.some.inj (hc.symm.trans hc₁)
    rw [hq] at hs
    rcases Controlled.gate_of_call hs ho with hg | ⟨r, rfl, hu⟩
    · exact hg
    · have hp : r.outboundPaused = false := Bool.eq_false_iff.mpr fun hp => hn ⟨r, hc, hu, hp⟩
      refine ⟨hp, fun he => ?_⟩
      obtain ⟨-, _, _, heq⟩ := hu
      rw [heq] at he
      cases he

/-- A call that changes nothing. -/
theorem enter_of_call (carriers : Address → Carrier) {fs : List OpenCall} {w : Contracts} {f : OpenCall}
    {c : Controlled} (hc : w f.target = some c) (h : Controlled.Call carriers f.sender c f.entry f.ask c)
    (hs : (w f.sender).isSome → ∃ g ∈ fs.head?, g.target = f.sender ∧ ∃ q ∈ g.ask, f.asked = some q) :
    network.enter fs w f w := by
  refine ⟨carriers, c, c, hc, h, ?_, hs⟩
  rw [← hc, Function.update_eq_self]

/-- The pause and the drain of the controlled contracts of a chain hold in a run exactly if,
in this run, the first inbound carrier of a paused route never delivers to it through
`baselineCarrierReceive`. -/
theorem sends_gated (c₀ c : Frames.Config Contracts OpenCall) (es : List (Frames.Event OpenCall)) :
    SendsGated c₀ es c ↔ network.EveryCall (fun w f => ¬ DeliveredPaused w f) c₀ es c := by
  rw [← Frames.everyCall_congr (P := Gated) gated_iff]
  exact ⟨SendsGated.gated, fun h => ⟨h, fun _ _ _ _ _ _ _ x _ hp _ => Controlled.forwards_of_active hp⟩⟩

omit [Keccak] in
/-- The mailbox delivers a baseline message to the first inbound adapter of a paused route, and
within that delivery the second outbound adapter dispatches the message. -/
theorem paused_route_forwards :
    let _ := idealKeccak
    ∃ (c₀ c : Frames.Config Contracts OpenCall) (r : BaselineRouteControl) (f₁ f₂ f₃ : OpenCall) (m : Message),
      c₀.calls = [] ∧ Run (Frames.Step network) c₀
        [.enter f₁, .enter f₂, .enter f₃, .leave f₃, .leave f₂, .leave f₁] c ∧
      c₀.state f₂.target = some (.route r) ∧ r.outboundPaused = true ∧ f₃.ask = some (.native m) ∧
      ¬ SendsGated c₀ [.enter f₁, .enter f₂, .enter f₃, .leave f₃, .leave f₂, .leave f₁] c := by
  let _ := idealKeccak
  let control : OutboundControl := ⟨.single 1, 0, .single 3, false, false⟩
  let carrier : CarrierAdapter := ⟨control, fun _ => false, fun _ => false, fun _ => 0, fun _ => .single 3⟩
  let a : HyperlaneAdapter := ⟨carrier, .single 5, 7, .single 6⟩
  let r : BaselineRouteControl := ⟨⟨.single 1, 0, .single 1, true, false⟩, .single 8, .single 9, .single 4, .single 2,
    .single 9, .single 9⟩
  let w : Contracts := fun x => if x = .single 2 ∨ x = .single 4 then some (.adapter (.hyperlane a))
    else if x = .single 3 then some (.route r) else none
  have h₂ : w (.single 2) = some (.adapter (.hyperlane a)) := rfl
  have h₃ : w (.single 3) = some (.route r) := rfl
  have h₄ : w (.single 4) = some (.adapter (.hyperlane a)) := rfl
  obtain ⟨body, hb⟩ := Adapter.baselineBody_of_length (.single 8) (show ([] : Bytes).length + 256 < 2 ^ 64 by decide)
  let d : Delivery := .handle 7 (.single 6) body
  let f₁ : OpenCall := ⟨.single 2, .single 5, .receive d, some (.baselineCarrierReceive (.single 3) d.evidence [])⟩
  let f₂ : OpenCall := ⟨.single 3, .single 2, .baselineCarrierReceive d.evidence [],
    some (.send (.single 4) (.forwardBaseline (.single 8) [] []))⟩
  let f₃ : OpenCall := ⟨.single 4, .single 3, .send (.forwardBaseline (.single 8) [] []),
    some (.native ⟨7, .single 6, body⟩)⟩
  let views : Address → Carrier := fun _ => ⟨fun _ _ _ => none, fun _ => none⟩
  have hne : (.single 3 : Address) ≠ 0 := by decide
  have hf : (Adapter.hyperlane a).FromRemote d := ⟨by decide, rfl, rfl⟩
  have e₁ : network.enter [] w f₁ w := by
    refine enter_of_call views h₂ (.callback (fun a' h => ?_) ?_) fun h => nomatch h
    · exact nomatch ((Adapter.receive_baseline hb).mp h).2.1.2
    · exact (Adapter.receive_baseline hb).mpr ⟨⟨rfl, hf⟩, ⟨hne, decide_eq_true rfl⟩, rfl⟩
  have e₂ : network.enter [f₁] w f₂ w := by
    have hr : r.request (.single 2) f₂.entry = .ok (.forwardBaseline (.single 4) (.single 8) [] []) :=
      BaselineRouteControl.baselineCarrierReceive_eq_ok.mpr (.inl ⟨rfl, rfl⟩)
    exact enter_of_call views h₃ (.request hr) fun _ => ⟨f₁, rfl, rfl, _, rfl, rfl⟩
  have e₃ : network.enter [f₂, f₁] w f₃ w := by
    have hs : (Adapter.hyperlane a).send views (.single 3) (Adapter.baselineCall false (.single 8) [] []) = .ok _ :=
      Adapter.hyperlane_sendBaseline_eq_ok.mpr ⟨⟨rfl, rfl, fun h => nomatch h⟩, rfl, body, hb, rfl⟩
    exact enter_of_call views h₄ (.send hs) fun _ => ⟨f₂, rfl, rfl, _, rfl, rfl⟩
  have hr :
      Run (Frames.Step network) ⟨w, []⟩ [.enter f₁, .enter f₂, .enter f₃, .leave f₃, .leave f₂, .leave f₁] ⟨w, []⟩ :=
    .cons (.enter e₁) (.cons (.enter e₂) (.cons (.enter e₃) (.cons (.leave rfl) (.cons (.leave rfl)
      (.cons (.leave rfl) (.nil _))))))
  refine ⟨⟨w, []⟩, ⟨w, []⟩, r, f₁, f₂, f₃, _, rfl, hr, h₃, rfl, rfl, fun hg => ?_⟩
  have h : Gated w f₂ := hg.gated [.enter f₁] f₂ _ _ _ rfl (.single (.enter e₁)) (.enter e₂)
    (.cons (.enter e₃) (.cons (.leave rfl) (.cons (.leave rfl) (.cons (.leave rfl) (.nil _)))))
  exact (gated_iff e₂).mp h ⟨r, h₃, ⟨rfl, _, _, rfl⟩, rfl⟩

end Xir.Proof
