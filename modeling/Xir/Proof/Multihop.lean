import Xir.Framework.Chain
import Xir.Framework.Marks
import Xir.Impl.Contracts.NativeMultihopReceiver
import Xir.Proof.Delivery

/-!
# The ledger of the native multihop receiver

The receiver and the gateway in front of it, called by anyone and within each
other: `multihop` are the steps of the two contracts. The events that the
receiver emits are the ledger: `Ledger` says how its counter, its two maps and
its state hash follow from them. A call that it rejects reverts, and a delivery
that it rejects reverts with it, so the message stays unconsumed.
-/

namespace Xir.Impl.NativeMultihopPayload

/-! ## Payloads -/

/-- The payload that holds the data. -/
def encode (d : Data) : Bytes :=
  Abi.encode [.dynamic (Abi.encode [.static d.attemptId, .dynamic (Abi.encodeBytes d.route),
    .static (word d.routeSequence.toNat), .dynamic (Abi.encodeBytes d.applicationPayload)])]

/-- Its head, whose first dynamic part has the length `n`. -/
def head (d : Data) (n : Nat) : Bytes :=
  d.attemptId.val ++ ((word 128).val ++ ((word d.routeSequence.toNat).val ++ (word (128 + n)).val))

theorem length_head (d : Data) (n : Nat) : (head d n).length = 128 := by simp [head]

theorem encode_eq (d : Data) : encode d = (word 32).val ++ (head d (Abi.encodeBytes d.route).length ++
    (Abi.encodeBytes d.route ++ Abi.encodeBytes d.applicationPayload)) := by
  simp [encode, head, Abi.encode, Abi.heads, Abi.tails]

/-- What is read from the head. -/
theorem read_head (d : Data) {n : Nat} (h : 128 + n < 2 ^ 64) (x : Bytes) :
    Abi.wordAt (head d n ++ x) 0 = some d.attemptId ∧ Abi.sizeAt (head d n ++ x) 32 = some 128 ∧
      Abi.wordAt (head d n ++ x) 64 = some (word d.routeSequence.toNat) ∧
      Abi.sizeAt (head d n ++ x) 96 = some (128 + n) := by
  simp only [head, List.append_assoc]
  refine ⟨Abi.wordAt_append _ _, ?_, ?_, ?_⟩
  · rw [Abi.sizeAt_skip _ (by simp), BytesN.length_val, Abi.sizeAt_append (by omega)]
  · rw [Abi.wordAt_skip _ (by simp), BytesN.length_val, Abi.wordAt_skip _ (by simp), BytesN.length_val,
      Abi.wordAt_append]
  · rw [Abi.sizeAt_skip _ (by simp), BytesN.length_val, Abi.sizeAt_skip _ (by simp), BytesN.length_val,
      Abi.sizeAt_skip _ (by simp), BytesN.length_val, Abi.sizeAt_append (by omega)]

/-- A `bytes` value is read back after what stands before it. -/
theorem bytesAt_append {b a : Bytes} (x : Bytes) {o : Nat} (h : b.length < 2 ^ 64) (ha : a.length = o) :
    Abi.bytesAt (a ++ (Abi.encodeBytes b ++ x)) o = some b := by
  rw [Abi.bytesAt_skip _ ha.le, ha, Nat.sub_self, Abi.bytesAt_encodeBytes h]

/-- The data are read back from their payload. -/
theorem decodeData_encode {d : Data} (h : d.route.length + d.applicationPayload.length + 192 < 2 ^ 64) :
    decodeData (encode d) = some d := by
  have hl : (Abi.encodeBytes d.route).length < d.route.length + 64 := by
    rw [Abi.length_encodeBytes]
    omega
  obtain ⟨h₁, h₂, h₃, h₄⟩ := read_head d (n := (Abi.encodeBytes d.route).length) (by omega)
    (Abi.encodeBytes d.route ++ Abi.encodeBytes d.applicationPayload)
  have h₀ : Abi.sizeAt ((word 32).val ++ (head d (Abi.encodeBytes d.route).length ++
      (Abi.encodeBytes d.route ++ Abi.encodeBytes d.applicationPayload))) 0 = some 32 := Abi.sizeAt_append (by omega) _
  have b₁ := bytesAt_append (b := d.route) (Abi.encodeBytes d.applicationPayload) (by omega)
    (length_head d (Abi.encodeBytes d.route).length)
  have b₂ := bytesAt_append (b := d.applicationPayload) [] (by omega) (show
    (head d (Abi.encodeBytes d.route).length ++ Abi.encodeBytes d.route).length =
      128 + (Abi.encodeBytes d.route).length by rw [List.length_append, length_head])
  simp only [List.append_assoc, List.append_nil] at b₂
  have hs : d.routeSequence.toNat < 2 ^ 64 := d.routeSequence.toNat_lt
  have hw : wordVal (word d.routeSequence.toNat) = d.routeSequence.toNat := wordVal_word (hs.trans (by decide))
  simp only [encode_eq, decodeData, h₀, Option.bind_eq_bind, Option.bind_some, List.drop_left' (word 32).length_val,
    h₁, h₂, h₃, h₄, b₁, b₂, hw, hs, if_true, UInt64.ofNat_toNat]

theorem decode_encode {d : Data} (h : d.route.length + d.applicationPayload.length + 192 < 2 ^ 64)
    (hr : validateRoute d.route = .ok ()) : decode (encode d) = .ok d := by
  rw [decode, decodeData_encode h]
  exact unit_bind.mpr ⟨hr, rfl⟩

end Xir.Impl.NativeMultihopPayload

namespace Xir.Impl.NativeMultihopReceiver

open NativeMultihopPayload

variable [Keccak]

/-- How an effect enters the state hash, as the one after `i` others. -/
def effectStep (h : Bytes32) (i : Nat) (e : Effect) : Bytes32 :=
  keccak256 (Abi.encode [.static h, .static e.attemptId, .static e.effectClass, .static e.messageId,
    .static (word (i + 1))])

/-- What the receiver checks of a call, whose payload reads as `data`. -/
structure Accepts (x : NativeMultihopReceiver) (sender : Address) (messageId : Bytes32) (data : Data) : Prop where
  sender : sender = x.xirGateway
  attempt : x.consumedAttempts data.attemptId = false
  message : x.consumedMessages messageId = false
  count : x.deliveryCount + 1 < 2 ^ 256

/-- The effect of a call. -/
def effectOf (messageId : Bytes32) (data : Data) : Effect := ⟨data.attemptId, effectClassHash data, messageId⟩

/-- The receiver after an effect. -/
def apply (x : NativeMultihopReceiver) (e : Effect) : NativeMultihopReceiver :=
  { x with
    consumedAttempts := Function.update x.consumedAttempts e.attemptId true
    consumedMessages := Function.update x.consumedMessages e.messageId true
    effectClassForAttempt := Function.update x.effectClassForAttempt e.attemptId e.effectClass
    deliveryCount := x.deliveryCount + 1
    effectStateHash := effectStep x.effectStateHash x.deliveryCount e }

theorem xirReceive_eq_ok {x : NativeMultihopReceiver} {sender : Address} {messageId : Bytes32} {payload : Bytes}
    {r : NativeMultihopReceiver × Effect} :
    x.xirReceive sender messageId payload = .ok r ↔
      ∃ data, decode payload = .ok data ∧ x.Accepts sender messageId data ∧
        (x.apply (effectOf messageId data), effectOf messageId data) = r := by
  rw [xirReceive, revertIf_bind, bind_eq_ok]
  simp only [revertIf_bind, pure_eq_ok, not_not, Bool.not_eq_true, not_le]
  constructor
  · rintro ⟨hs, data, hd, ha, hm, hc, rfl⟩
    exact ⟨data, hd, ⟨hs, ha, hm, hc⟩, rfl⟩
  · rintro ⟨data, hd, ⟨hs, ha, hm, hc⟩, rfl⟩
    exact ⟨hs, data, hd, ha, hm, hc, rfl⟩

theorem consumed_apply (x : NativeMultihopReceiver) (messageId : Bytes32) (data : Data) :
    (x.apply (effectOf messageId data)).consumedAttempts data.attemptId = true := by
  show Function.update x.consumedAttempts data.attemptId true data.attemptId = true
  rw [Function.update_self]

/-- A second payload of an attempt is rejected. -/
theorem xirReceive_of_consumed {x : NativeMultihopReceiver} {messageId : Bytes32} {payload : Bytes} {data : Data}
    (hd : decode payload = .ok data) (ha : x.consumedAttempts data.attemptId = true) :
    x.xirReceive x.xirGateway messageId payload = .error (.duplicateAttempt data.attemptId) := by
  refine revertIf_bind_error.mpr (.inr ⟨not_not.mpr rfl, ?_⟩)
  rw [hd, ok_bind]
  exact revertIf_bind_error.mpr (.inl ⟨ha, rfl⟩)

/-! ## The ledger -/

/-- The state that follows from the effects applied, in their order. -/
structure Ledger (initial : Bytes32) (x : NativeMultihopReceiver) (effects : List Effect) : Prop where
  count : x.deliveryCount = effects.length
  attempts : Marks x.consumedAttempts (effects.map Effect.attemptId)
  messages : Marks x.consumedMessages (effects.map Effect.messageId)
  classes : ∀ e ∈ effects, x.effectClassForAttempt e.attemptId = e.effectClass
  state : x.effectStateHash = chain effectStep initial 0 effects

/-- A receiver that was constructed has an empty ledger. -/
theorem ledger_new {gateway : Address} {initial : Bytes32} {x : NativeMultihopReceiver}
    (h : new gateway initial = .ok x) : Ledger initial x [] := by
  obtain ⟨-, hx⟩ := revertIf_bind.mp h
  obtain rfl := pure_eq_ok.mp hx
  exact ⟨rfl, .empty, .empty, List.forall_mem_nil _, rfl⟩

theorem Ledger.apply {initial : Bytes32} {x : NativeMultihopReceiver} {effects : List Effect}
    (h : Ledger initial x effects) {e : Effect} (ha : x.consumedAttempts e.attemptId = false)
    (hm : x.consumedMessages e.messageId = false) : Ledger initial (x.apply e) (effects ++ [e]) := by
  refine ⟨?_, ?_, ?_, fun e' he' => ?_, ?_⟩
  · rw [List.length_append, ← h.count]
    rfl
  · rw [List.map_append]
    exact h.attempts.mark ha
  · rw [List.map_append]
    exact h.messages.mark hm
  · rcases List.mem_append.mp he' with he | he
    · have hne : e'.attemptId ≠ e.attemptId := fun heq => by
        have hc : x.consumedAttempts e.attemptId = true := (h.attempts.mem _).mpr (heq ▸ List.mem_map_of_mem he)
        rw [ha] at hc
        cases hc
      exact (Function.update_of_ne hne _ _).trans (h.classes e' he)
    · rw [List.mem_singleton.mp he]
      exact Function.update_self ..
  · rw [chain_snoc, ← h.state, Nat.zero_add, ← h.count]
    rfl

end Xir.Impl.NativeMultihopReceiver

namespace Xir.Proof

open Impl Impl.XIRGateway Impl.NativeMultihopReceiver

variable [Keccak]

/-- The addresses of the two contracts. -/
structure MultihopSite where
  gateway : Address
  receiver : Address

/-- The gateway, the receiver, and the events that the receiver emitted. -/
structure MultihopState where
  gateway : XIRGateway
  receiver : NativeMultihopReceiver
  effects : List Effect

/-- An open call: of another receiver by the gateway; a delivery or a call that the receiver
rejected, and which reverts; or a call of any other contract. -/
inductive MultihopFrame
  | deliver (call : ReceiverCall)
  | refused (call : ReceiverCall) (e : Revert)
  | rejected (sender : Address) (messageId : Bytes32) (payload : Bytes) (e : Revert)
  | other

/-- The calls that return: a record created, a call of the receiver by anyone, and a delivery
to it. -/
inductive MultihopAct (site : MultihopSite) : MultihopState → MultihopState → Prop
  | createRecord {s sender dst payload c v r} : s.gateway.createRecord sender dst payload c v = .ok r →
    MultihopAct site s { s with gateway := r.1 }
  | receive {s sender id payload x e} : s.receiver.xirReceive sender id payload = .ok (x, e) →
    MultihopAct site s { s with receiver := x, effects := s.effects ++ [e] }
  | deliver {s env g x e} {call : ReceiverCall} : call.receiver = site.receiver →
    s.gateway.deliverStart env call.envelope call.payload call.receiver = .ok (g, call.mid) →
    s.receiver.xirReceive site.gateway call.mid call.payload = .ok (x, e) →
    MultihopAct site s ⟨g, x, s.effects ++ [e]⟩

/-- The steps of the two contracts. What a contract other than them does changes neither. -/
def multihop (site : MultihopSite) : Frames MultihopState MultihopFrame where
  act _ := MultihopAct site
  enter _ s f s' :=
    match f with
    | .deliver call => call.receiver ≠ site.receiver ∧ ∃ env g,
        s.gateway.deliverStart env call.envelope call.payload call.receiver = .ok (g, call.mid) ∧
          s' = { s with gateway := g }
    | .refused call e => call.receiver = site.receiver ∧ ∃ env g,
        s.gateway.deliverStart env call.envelope call.payload call.receiver = .ok (g, call.mid) ∧
          s.receiver.xirReceive site.gateway call.mid call.payload = .error e ∧ s' = { s with gateway := g }
    | .rejected sender id payload e => s.receiver.xirReceive sender id payload = .error e ∧ s' = s
    | .other => s' = s
  leave _ f s s' :=
    match f with
    | .deliver _ | .other => s' = s
    | .refused .. | .rejected .. => False

variable {site : MultihopSite} {initial : Bytes32}

theorem ledger_receive {s : MultihopState} (h : Ledger initial s.receiver s.effects) {sender : Address} {id : Bytes32}
    {payload : Bytes} {r : NativeMultihopReceiver × Effect} (hr : s.receiver.xirReceive sender id payload = .ok r) :
    Ledger initial r.1 (s.effects ++ [r.2]) := by
  obtain ⟨data, -, ha, rfl⟩ := xirReceive_eq_ok.mp hr
  exact h.apply ha.attempt ha.message

theorem ledger_invariant : Frames.Invariant (multihop site) fun _ s => Ledger initial s.receiver s.effects where
  act h ha := by
    cases ha with
    | createRecord => exact h
    | receive hr => exact ledger_receive h hr
    | deliver _ _ hr => exact ledger_receive h hr
  enter {fs s f s'} h he := by
    cases f with
    | deliver call =>
      obtain ⟨-, env, g, -, rfl⟩ := he
      exact h
    | refused call e =>
      obtain ⟨-, env, g, -, -, rfl⟩ := he
      exact h
    | rejected sender id payload e => exact he.2 ▸ h
    | other => exact (show s' = s from he) ▸ h
  leave {fs f s s'} h hl := by
    cases f with
    | deliver | other => exact (show s' = s from hl) ▸ h
    | refused | rejected => exact hl.elim

/-- How the gateway's call of the receiver ends. -/
def callback (gateway : Address) (x : NativeMultihopReceiver) (g : XIRGateway) (mid : Bytes32) (payload : Bytes) :
    Option XIRGateway :=
  match x.xirReceive gateway mid payload with
  | .ok _ => some g
  | .error _ => none

/-- `deliver` reverts if the receiver rejects. -/
theorem deliver_refused {s : MultihopState} {env : Env} {call : ReceiverCall} {g : XIRGateway} {e : Revert}
    (hs : s.gateway.deliverStart env call.envelope call.payload call.receiver = .ok (g, call.mid))
    (he : s.receiver.xirReceive site.gateway call.mid call.payload = .error e) :
    s.gateway.deliver env call.envelope call.payload call.receiver (callback site.gateway s.receiver) =
      .error .receiverCallFailed := by
  rw [deliver, hs, ok_bind]
  simp only [callback, he]
  rfl

/-- A call that the receiver rejected reverts to the state in which it was made, in which
the gateway has not consumed the message. -/
theorem refused_revert {c₀ c c' : Frames.Config MultihopState MultihopFrame} {es : List (Frames.Event MultihopFrame)}
    {f : MultihopFrame} (h₀ : c₀.calls = []) (h : Run (Frames.Step (multihop site)) c₀ es c)
    (hs : Frames.Step (multihop site) c (.revert f) c') :
    ∃ es₁ es₂, es = es₁ ++ .enter f :: es₂ ∧ Run (Frames.Step (multihop site)) c₀ es₁ c' ∧
      ∀ call e, f = .refused call e → c'.state.gateway.consumed call.mid = false := by
  generalize hev : Frames.Event.revert f = ev at hs
  cases hs with
  | revert =>
    obtain rfl := Frames.Event.revert.inj hev
    obtain ⟨es₁, es₂, _, hes, hr, he, -⟩ := Frames.entered h₀ h List.suffix_rfl
    refine ⟨es₁, es₂, hes, hr, fun call e hf => ?_⟩
    subst hf
    cases he with
    | enter he =>
      obtain ⟨-, env, g, hd, -⟩ := he
      obtain ⟨ha, heq⟩ := deliverStart_eq_ok.mp hd
      have hm : call.envelope.mid = call.mid := congrArg Prod.snd heq
      exact hm ▸ ha.consumed
  | _ => cases hev

/-- The receiver's ledger over every run of the two contracts. The counter is the number of
attempts consumed, and that of messages; the state hash is the fold of the effects applied, and
none of them is of an attempt or a message of another. A call that the receiver rejects reverts,
to the state in which it was made; a delivery that it rejects leaves the message unconsumed;
and whatever passes the checks of the gateway and of the receiver is delivered. -/
theorem multihop_ledger {gateway : Address} {x : NativeMultihopReceiver} (hx : new gateway initial = .ok x)
    {c₀ c : Frames.Config MultihopState MultihopFrame} {es : List (Frames.Event MultihopFrame)}
    (h₀ : c₀.calls = []) (h₁ : c₀.state.receiver = x) (h₂ : c₀.state.effects = [])
    (h : Run (Frames.Step (multihop site)) c₀ es c) :
    (c.state.receiver.deliveryCount = {a | c.state.receiver.consumedAttempts a = true}.ncard ∧
      c.state.receiver.deliveryCount = {m | c.state.receiver.consumedMessages m = true}.ncard ∧
      c.state.receiver.effectStateHash = chain effectStep initial 0 c.state.effects ∧
      Marks c.state.receiver.consumedAttempts (c.state.effects.map Effect.attemptId) ∧
      Marks c.state.receiver.consumedMessages (c.state.effects.map Effect.messageId)) ∧
    (∀ f c', Frames.Step (multihop site) c (.revert f) c' →
      ∃ es₁ es₂, es = es₁ ++ .enter f :: es₂ ∧ Run (Frames.Step (multihop site)) c₀ es₁ c' ∧
        ∀ call e, f = .refused call e → c'.state.gateway.consumed call.mid = false) ∧
    (∀ call e c', ¬ Frames.Step (multihop site) c (.leave (.refused call e)) c') ∧
    (∀ sender id payload e c', ¬ Frames.Step (multihop site) c (.leave (.rejected sender id payload e)) c') ∧
    (∀ env (call : ReceiverCall) g e,
      c.state.gateway.deliverStart env call.envelope call.payload call.receiver = .ok (g, call.mid) →
      c.state.receiver.xirReceive site.gateway call.mid call.payload = .error e →
      c.state.gateway.deliver env call.envelope call.payload call.receiver (callback site.gateway c.state.receiver) =
        .error .receiverCallFailed) ∧
    (∀ env (call : ReceiverCall) data, call.receiver = site.receiver → call.mid = call.envelope.mid →
      DeliverAccepts c.state.gateway env call.envelope call.payload call.receiver →
      NativeMultihopPayload.decode call.payload = .ok data → c.state.receiver.Accepts site.gateway call.mid data →
      ∃ c', Frames.Step (multihop site) c .act c' ∧ c'.state.gateway.consumed call.mid = true ∧
        c'.state.effects = c.state.effects ++ [effectOf call.mid data]) := by
  have hl : Ledger initial c.state.receiver c.state.effects := by
    refine (Frames.inv_run ledger_invariant ⟨?_, ?_⟩ h).1
    · show Ledger initial c₀.state.receiver c₀.state.effects
      rw [h₁, h₂]
      exact ledger_new hx
    · rw [h₀]
      trivial
  refine ⟨⟨?_, ?_, hl.state, hl.attempts, hl.messages⟩, fun f c' hs => refused_revert h₀ h hs, fun call e c' hs => ?_,
    fun sender id payload e c' hs => ?_, fun env call g e hs he => ?_, fun env call data hr hm ha hd hx => ?_⟩
  · rw [hl.attempts.ncard, List.length_map, hl.count]
  · rw [hl.messages.ncard, List.length_map, hl.count]
  · cases hs with
    | leave hf => exact hf
  · cases hs with
    | leave hf => exact hf
  · exact deliver_refused hs he
  · have hs : c.state.gateway.deliverStart env call.envelope call.payload call.receiver = .ok (_, call.mid) :=
      deliverStart_eq_ok.mpr ⟨ha, by rw [hm]⟩
    obtain ⟨s, fs⟩ := c
    refine ⟨⟨_, fs⟩, .act (.deliver hr hs (xirReceive_eq_ok.mpr ⟨data, hd, hx, rfl⟩)), ?_, rfl⟩
    rw [hm]
    exact Function.update_self ..

omit [Keccak] in
/-- A message whose attempt was applied under another message is rejected, and stays unconsumed. -/
theorem multihop_ledger_refused :
    let _ := idealKeccak
    ∃ (site : MultihopSite) (x : NativeMultihopReceiver) (c₀ c c' : Frames.Config MultihopState MultihopFrame)
      (call : ReceiverCall) (e : Revert), new site.gateway 0 = .ok x ∧
      Run (Frames.Step (multihop site)) c₀ [.act, .enter (.refused call e)] c ∧
      Frames.Step (multihop site) c (.revert (.refused call e)) c' ∧ c'.state.gateway.consumed call.mid = false ∧
      c.state.receiver.deliveryCount = {a | c.state.receiver.consumedAttempts a = true}.ncard := by
  let _ := idealKeccak
  let site : MultihopSite := ⟨.single 7, .single 9⟩
  let data : NativeMultihopPayload.Data := ⟨.single 3, [72], 1, []⟩
  let payload := NativeMultihopPayload.encode data
  have hd : NativeMultihopPayload.decode payload = .ok data := NativeMultihopPayload.decode_encode (by decide) rfl
  let env : Env :=
    ⟨0, ⟨0, fun _ => ⟨(evmId 1).hash, .single 5, 0, 0, true⟩, 0⟩, fun _ => ⟨fun _ _ _ => none, fun _ => none⟩,
    fun _ _ _ _ => .single 5⟩
  let g : XIRGateway := ⟨_, evmId 1, fun _ => 0, fun _ => false, typedIdHash_eq_ok.mpr ⟨evmId_valid 1, rfl⟩⟩
  let env₁ : Envelope := ⟨⟨evmId 1, evmId 2, evmId 9, 0, keccak256 payload⟩, ⟨1, 0⟩, ⟨1, List.replicate 65 27⟩, []⟩
  let call : ReceiverCall := ⟨env₁, payload, .single 9, env₁.mid⟩
  have ha : DeliverAccepts g env env₁ payload (.single 9) :=
    ⟨rfl, by decide, rfl, ⟨⟨⟨evmId_valid 1, evmId_valid 2, evmId_valid 9⟩, rfl, rfl, rfl⟩, trivial, rfl,
      fun h => absurd rfl h⟩, rfl⟩
  let x : NativeMultihopReceiver := ⟨.single 7, 0, 0, fun _ => false, fun _ => false, fun _ => 0⟩
  have hx : new site.gateway 0 = .ok x := revertIf_bind.mpr ⟨by decide, rfl⟩
  let eff := effectOf (.single 4) data
  have hr : x.xirReceive (.single 7) (.single 4) payload = .ok (x.apply eff, eff) :=
    xirReceive_eq_ok.mpr ⟨data, hd, ⟨rfl, rfl, rfl, Nat.lt_of_lt_of_le one_lt_two (by decide)⟩, rfl⟩
  have he : (x.apply eff).xirReceive (.single 7) call.mid payload = .error (.duplicateAttempt (.single 3)) :=
    xirReceive_of_consumed hd (consumed_apply x (.single 4) data)
  let s₁ : MultihopState := ⟨g, x.apply eff, [eff]⟩
  have hs : s₁.gateway.deliverStart env env₁ payload (.single 9) = .ok (g.consume env₁.mid, env₁.mid) :=
    deliverStart_eq_ok.mpr ⟨ha, rfl⟩
  have hrun : Run (Frames.Step (multihop site)) ⟨⟨g, x, []⟩, []⟩
      [.act, .enter (.refused call (.duplicateAttempt (.single 3)))]
      ⟨{ s₁ with gateway := g.consume env₁.mid }, [(.refused call (.duplicateAttempt (.single 3)), s₁)]⟩ :=
    .cons (.act (.receive hr)) (.single (.enter ⟨rfl, env, _, hs, he, rfl⟩))
  obtain ⟨⟨hc, -⟩, hrev, -⟩ := multihop_ledger hx rfl rfl rfl hrun
  obtain ⟨_, _, -, -, hm⟩ := hrev _ _ .revert
  exact ⟨site, x, _, _, _, call, _, hx, hrun, .revert, hm _ _ rfl, hc⟩

end Xir.Proof
