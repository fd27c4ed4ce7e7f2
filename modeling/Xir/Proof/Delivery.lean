import Xir.Framework.Frames
import Xir.Proof.Records

/-!
# Deliveries under reentrancy

A gateway within a chain whose other contracts do anything: `deliveries` are the
steps of one chain, where a call of `deliver` is open from the moment it calls
the receiver to its return, and the receiver may make calls of any kind within
it, each of which may revert. `Consistent` is the invariant, that a consumed
message is one that was delivered or is being delivered, and exactly once.
-/

namespace Xir.Proof

open Impl Impl.XIRGateway

variable [Keccak]

/-- A call of a receiver by `deliver`. -/
structure ReceiverCall where
  envelope : Envelope
  payload : Bytes
  receiver : Address
  mid : Bytes32

/-- A gateway, the events `Delivered` that it emitted, the receivers that it called, and the
rest of its chain. -/
structure ChainState (ω : Type) where
  gateway : XIRGateway
  events : List Delivered
  calls : List ReceiverCall
  world : ω

/-- An open call: one of `deliver` that called the receiver, one of `deliver` that reverts before
it does, or a call of another function or contract. -/
inductive Frame
  | deliver (call : ReceiverCall)
  | rejected (envelope : Envelope) (payload : Bytes) (receiver : Address)
  | other

/-- The message that an open call delivers. -/
def Frame.mid : Frame → Option Bytes32
  | deliver call => some call.mid
  | _ => none

section Machine

variable {ω : Type} (env : ω → Env)

/-- The steps of a chain. The rest of it changes at will, and anyone may create records and
call `deliver`. -/
def deliveries : Frames (ChainState ω) Frame where
  act _ s s' := (∃ w, s' = { s with world := w }) ∨
    ∃ sender dst payload c v r, s.gateway.createRecord sender dst payload c v = .ok r ∧ s' = { s with gateway := r.1 }
  enter _ s f s' :=
    match f with
    | .deliver call => ∃ g,
        s.gateway.deliverStart (env s.world) call.envelope call.payload call.receiver = .ok (g, call.mid) ∧
          s' = { s with gateway := g, calls := s.calls ++ [call] }
    | .rejected e payload receiver =>
      (∃ err, s.gateway.deliverStart (env s.world) e payload receiver = .error err) ∧ s' = s
    | .other => s' = s
  leave _ f s s' :=
    match f with
    | .deliver call =>
      s' = { s with events := s.events ++ [⟨call.mid, call.receiver, call.envelope.receipts.length⟩] }
    | .rejected .. => False
    | .other => s' = s

end Machine

end Xir.Proof

namespace Xir.Impl.XIRGateway

variable [Keccak]

/-- The gateway with a message consumed. -/
def consume (g : XIRGateway) (mid : Bytes32) : XIRGateway :=
  { g with consumed := Function.update g.consumed mid true }

theorem consumed_consume (g : XIRGateway) (mid : Bytes32) :
    (g.consume mid).consumed = Function.update g.consumed mid true := rfl

end Xir.Impl.XIRGateway

namespace Xir.Proof

open Impl Impl.XIRGateway

variable [Keccak]

/-! ## What `deliver` checks -/

/-- What `deliver` checks before it calls the receiver. -/
structure DeliverAccepts (g : XIRGateway) (env : Env) (e : Envelope) (payload : Bytes) (receiver : Address) : Prop where
  payload : keccak256 payload = e.record.payloadHash
  receiver_ne : receiver ≠ 0
  receiver : _evmAddress e.record.destinationApp = .ok receiver
  trace : TraceAccepts g env e
  consumed : g.consumed e.mid = false

theorem deliverStart_eq_ok {g : XIRGateway} {env : Env} {e : Envelope} {payload : Bytes} {receiver : Address}
    {r : XIRGateway × Bytes32} :
    g.deliverStart env e payload receiver = .ok r ↔ DeliverAccepts g env e payload receiver ∧
      (g.consume e.mid, e.mid) = r := by
  rw [deliverStart, revertIf_bind, revertIf_bind]
  simp only [bind_eq_ok, verifyTrace_eq_ok, revertIf_eq_ok, pure_eq_ok, not_not, Bool.not_eq_true]
  constructor
  · rintro ⟨hp, hr, a, ha, _, rfl, _, ⟨ht, rfl⟩, _, hc, rfl⟩
    exact ⟨⟨hp, hr, ha, ht, hc⟩, rfl⟩
  · rintro ⟨⟨hp, hr, ha, ht, hc⟩, rfl⟩
    exact ⟨hp, hr, _, ha, (), rfl, _, ⟨ht, rfl⟩, (), hc, rfl⟩

/-! ## The invariant -/

variable {ω : Type} {env : ω → Env}

/-- The messages that open calls deliver. -/
def openMids (fs : List Frame) : List Bytes32 := fs.filterMap Frame.mid

/-- The messages that were delivered, or are being. -/
def midsOf (fs : List Frame) (s : ChainState ω) : List Bytes32 := openMids fs ++ s.events.map Delivered.mid

/-- A consumed message was delivered once or is being delivered once, another one was
not and is not; and for each of them, the receiver was called. -/
structure Consistent (fs : List Frame) (s : ChainState ω) : Prop where
  count (mid : Bytes32) : (midsOf fs s).count mid = if s.gateway.consumed mid then 1 else 0
  calls : (s.calls.map ReceiverCall.mid).Perm (midsOf fs s)

theorem createRecord_consumed {g : XIRGateway} {sender : Address} {dst : TypedId} {payload : Bytes}
    {c : VerifiedContext} {v : UInt32} {r : XIRGateway × Record × Bytes32 × Bytes32}
    (h : g.createRecord sender dst payload c v = .ok r) : r.1.consumed = g.consumed := by
  obtain ⟨-, rfl⟩ := createRecord_eq_ok.mp h
  rfl

/-- What an entered `deliver` does to what the invariant is about. -/
theorem Consistent.start {fs : List Frame} {s : ChainState ω} {call : ReceiverCall} {g : XIRGateway}
    (h : Consistent fs s)
    (hd : s.gateway.deliverStart (env s.world) call.envelope call.payload call.receiver = .ok (g, call.mid)) :
    Consistent (.deliver call :: fs) { s with gateway := g, calls := s.calls ++ [call] } := by
  obtain ⟨ha, heq⟩ := deliverStart_eq_ok.mp hd
  obtain ⟨rfl, hm⟩ := Prod.mk.inj heq
  have hl : midsOf (.deliver call :: fs) { s with
      gateway := s.gateway.consume call.envelope.mid, calls := s.calls ++ [call] } = call.mid :: midsOf fs s := rfl
  refine ⟨fun mid => ?_, ?_⟩
  · rw [hl, hm, consumed_consume]
    by_cases hmid : mid = call.mid
    · have hc : s.gateway.consumed call.mid = false := hm ▸ ha.consumed
      rw [hmid, List.count_cons_self, h.count, hc, Function.update_self]
      rfl
    · rw [List.count_cons_of_ne (Ne.symm hmid), h.count, Function.update_of_ne hmid]
  · rw [hl, List.map_append]
    exact (h.calls.append_right _).trans (List.perm_append_singleton _ _)

theorem consistent_invariant : Frames.Invariant (deliveries env) Consistent where
  act {fs s s'} h ha := by
    rcases ha with ⟨w, rfl⟩ | ⟨_, _, _, _, _, r, hr, rfl⟩
    · exact ⟨h.count, h.calls⟩
    · exact ⟨fun mid => createRecord_consumed hr ▸ h.count mid, h.calls⟩
  enter {fs s f s'} h he := by
    cases f with
    | deliver call =>
      obtain ⟨g, hd, rfl⟩ := he
      exact h.start hd
    | rejected e payload receiver =>
      obtain ⟨-, rfl⟩ := he
      exact ⟨h.count, h.calls⟩
    | other =>
      obtain rfl : s' = s := he
      exact ⟨h.count, h.calls⟩
  leave {fs f s s'} h hl := by
    cases f with
    | deliver call =>
      obtain rfl := hl
      have hp : (midsOf fs { s with
          events := s.events ++ [⟨call.mid, call.receiver, call.envelope.receipts.length⟩] }).Perm
          (midsOf (.deliver call :: fs) s) := by
        simp only [midsOf, List.map_append, ← List.append_assoc]
        exact List.perm_append_singleton _ _
      exact ⟨fun mid => (hp.count_eq mid).trans (h.count mid), h.calls.trans hp.symm⟩
    | rejected => exact hl.elim
    | other =>
      obtain rfl : s' = s := hl
      exact ⟨h.count, h.calls⟩

/-- A chain at rest whose gateway delivered nothing yet. -/
structure Fresh (c : Frames.Config (ChainState ω) Frame) : Prop where
  idle : c.calls = []
  events : c.state.events = []
  calls : c.state.calls = []
  consumed (mid : Bytes32) : c.state.gateway.consumed mid = false

theorem Fresh.consistent {c : Frames.Config (ChainState ω) Frame} (h : Fresh c) : Frames.Holds Consistent c := by
  have hl : midsOf c.labels c.state = [] := by
    simp [midsOf, openMids, Frames.Config.labels, h.idle, h.events]
  refine ⟨⟨fun mid => ?_, ?_⟩, ?_⟩
  · rw [hl, h.consumed]
    rfl
  · rw [hl, h.calls]
    rfl
  · rw [h.idle]
    trivial

/-- Acting, entering and leaving never make a consumed message one that is not. -/
theorem consumed_invariant (mid : Bytes32) :
    Frames.Invariant (deliveries env) fun _ s => s.gateway.consumed mid = true where
  act {fs s s'} h ha := by
    rcases ha with ⟨w, rfl⟩ | ⟨_, _, _, _, _, r, hr, rfl⟩
    · exact h
    · exact createRecord_consumed hr ▸ h
  enter {fs s f s'} h he := by
    cases f with
    | deliver call =>
      obtain ⟨g, hd, rfl⟩ := he
      obtain ⟨-, heq⟩ := deliverStart_eq_ok.mp hd
      obtain ⟨rfl, -⟩ := Prod.mk.inj heq
      by_cases hmid : mid = call.envelope.mid
      · rw [hmid, consumed_consume, Function.update_self]
      · rw [consumed_consume, Function.update_of_ne hmid]
        exact h
    | rejected e payload receiver => exact he.2 ▸ h
    | other => exact (show s' = s from he) ▸ h
  leave {fs f s s'} h hl := by
    cases f with
    | deliver call => exact (show s' = _ from hl) ▸ h
    | rejected => exact hl.elim
    | other => exact (show s' = s from hl) ▸ h

/-- Exactly-once consumption under reentrancy. In every state that a run of a chain
reaches, a message is consumed if one event `Delivered` of it was emitted or a
call that delivers it is open, and not both; its receiver was called at most
once, and once for each event when no call is open. From a state with no open
call a consumed message stays consumed, and a call that reverts leaves
everything as it was when it was entered. -/
theorem consumption_exactly_once {c₀ c : Frames.Config (ChainState ω) Frame} {es : List (Frames.Event Frame)}
    (h₀ : Fresh c₀) (h : Run (Frames.Step (deliveries env)) c₀ es c) :
    (∀ mid, c.state.gateway.consumed mid = true ↔
      (c.state.events.map Delivered.mid).count mid = 1 ∨ mid ∈ openMids c.labels) ∧
    (∀ mid, (c.state.events.map Delivered.mid).count mid + (openMids c.labels).count mid ≤ 1) ∧
    (∀ mid, (c.state.calls.map ReceiverCall.mid).count mid ≤ 1) ∧
    (c.calls = [] → (c.state.calls.map ReceiverCall.mid).Perm (c.state.events.map Delivered.mid)) ∧
    (∀ {c' es'}, c.calls = [] → Run (Frames.Step (deliveries env)) c es' c' →
      ∀ mid, c.state.gateway.consumed mid = true → c'.state.gateway.consumed mid = true) ∧
    (∀ {f c'}, Frames.Step (deliveries env) c (.revert f) c' →
      ∃ es₁ es₂, es = es₁ ++ .enter f :: es₂ ∧ Run (Frames.Step (deliveries env)) c₀ es₁ c') := by
  obtain ⟨hc, -⟩ := Frames.inv_run consistent_invariant h₀.consistent h
  have hn : ∀ mid, (c.state.events.map Delivered.mid).count mid + (openMids c.labels).count mid =
      if c.state.gateway.consumed mid then 1 else 0 := fun mid => by
    rw [← hc.count, midsOf, List.count_append, Nat.add_comm]
  refine ⟨fun mid => ?_, fun mid => ?_, fun mid => ?_, fun hi => ?_, fun {c' es'} hi hr mid hm => ?_,
    fun {f c'} hs => ?_⟩
  · rw [← List.count_pos_iff]
    have := hn mid
    by_cases hm : c.state.gateway.consumed mid = true
    · rw [if_pos hm] at this
      exact ⟨fun _ => by omega, fun _ => hm⟩
    · rw [if_neg hm] at this
      exact ⟨fun h => absurd h hm, fun h => by omega⟩
  · rw [hn]
    split <;> omega
  · rw [hc.calls.count_eq, hc.count]
    split <;> omega
  · have := hc.calls
    rwa [midsOf, openMids, Frames.Config.labels, hi] at this
  · exact (Frames.inv_run (consumed_invariant mid) ⟨hm, hi ▸ trivial⟩ hr).1
  · generalize he : Frames.Event.revert f = e at hs
    cases hs with
    | revert =>
      obtain rfl := Frames.Event.revert.inj he
      obtain ⟨es₁, es₂, _, hes, hr, -⟩ := Frames.entered h₀.idle h List.suffix_rfl
      exact ⟨es₁, es₂, hes, hr⟩
    | _ => exact nomatch he

omit [Keccak] in
/-- A message delivered at its own source gateway, whose receiver tries to deliver it
again, is delivered once. -/
theorem consumption_exactly_once_reentrant :
    let _ := idealKeccak
    ∃ (env : Unit → Env) (c₀ c : Frames.Config (ChainState Unit) Frame) (call : ReceiverCall),
      Fresh c₀ ∧ Run (Frames.Step (deliveries env)) c₀
        [.enter (.deliver call), .enter (.rejected call.envelope call.payload call.receiver),
          .revert (.rejected call.envelope call.payload call.receiver), .leave (.deliver call)] c ∧
      c.state.gateway.consumed call.mid = true ∧ (c.state.events.map Delivered.mid).count call.mid ≤ 1 := by
  let _ := idealKeccak
  let env : Env :=
    ⟨0, ⟨0, fun _ => ⟨(evmId 1).hash, .single 5, 0, 0, true⟩, 0⟩, fun _ => ⟨fun _ _ _ => none, fun _ => none⟩,
    fun _ _ _ _ => .single 5⟩
  let g : XIRGateway := ⟨_, evmId 1, fun _ => 0, fun _ => false, typedIdHash_eq_ok.mpr ⟨evmId_valid 1, rfl⟩⟩
  let e : Envelope := ⟨⟨evmId 1, evmId 2, evmId 9, 0, keccak256 []⟩, ⟨1, 0⟩, ⟨1, List.replicate 65 27⟩, []⟩
  let call : ReceiverCall := ⟨e, [], .single 9, e.mid⟩
  have ha : DeliverAccepts g env e [] (.single 9) :=
    ⟨rfl, by decide, rfl, ⟨⟨⟨evmId_valid 1, evmId_valid 2, evmId_valid 9⟩, rfl, rfl, rfl⟩, trivial, rfl,
      fun h => absurd rfl h⟩, rfl⟩
  let s₀ : ChainState Unit := ⟨g, [], [], ()⟩
  let s₁ : ChainState Unit := ⟨g.consume e.mid, [], [call], ()⟩
  have hrej : ∃ err, s₁.gateway.deliverStart env e [] (.single 9) = .error err := by
    cases hd : s₁.gateway.deliverStart env e [] (.single 9) with
    | error err => exact ⟨err, rfl⟩
    | ok r =>
      have := (deliverStart_eq_ok.mp hd).1.consumed
      rw [show s₁.gateway.consumed = _ from consumed_consume g e.mid, Function.update_self] at this
      exact nomatch this
  have hf : Fresh (⟨s₀, []⟩ : Frames.Config (ChainState Unit) Frame) := ⟨rfl, rfl, rfl, fun _ => rfl⟩
  have hr : Run (Frames.Step (deliveries fun _ : Unit => env)) ⟨s₀, []⟩
      [.enter (.deliver call), .enter (.rejected e [] (.single 9)), .revert (.rejected e [] (.single 9)),
        .leave (.deliver call)] ⟨{ s₁ with events := [⟨e.mid, .single 9, 0⟩] }, []⟩ :=
    .cons (.enter ⟨_, deliverStart_eq_ok.mpr ⟨ha, rfl⟩, rfl⟩) (.cons (.enter ⟨hrej, rfl⟩) (.cons .revert
      (.cons (.leave rfl) (.nil _))))
  obtain ⟨h₁, h₂, -⟩ := consumption_exactly_once hf hr
  refine ⟨fun _ => env, _, _, call, hf, hr, (h₁ _).mpr (.inl ?_), (Nat.le_add_right _ _).trans (h₂ _)⟩
  exact List.count_singleton_self

end Xir.Proof
