import Xir.Impl.Contracts.NativeMultihopTransitionRecorder
import Xir.Proof.Multihop

/-!
# The transitions that a recorder holds

Whatever calls are made, each transition recorded is of a payload bound to an
envelope that the gateway of the chain verifies up to the hop (`Genuine`), and
`Recorded` relates the map to the log of the calls that recorded. A value that
is not zero stays, since `record` refuses a key that has one and writes no
other.
-/

namespace Xir.Impl.NativeMultihopTransitionRecorder

open NativeMultihopPayload Proof

variable [Keccak]

/-- A call of `record`: the gateway at the time, what it reads, and the arguments. -/
structure RecordCall where
  gateway : XIRGateway
  env : Env
  sender : Address
  encodedPayload : Bytes
  inboundEnvelope : Envelope
  hopIndex : UInt8
  outboundProfileHash : Bytes32

/-- The call. -/
def RecordCall.record (c : RecordCall) (x : NativeMultihopTransitionRecorder) :
    Except Revert (NativeMultihopTransitionRecorder × TransitionRecorded) :=
  x.record c.gateway c.env c.sender c.encodedPayload c.inboundEnvelope c.hopIndex c.outboundProfileHash

/-! ## What a call checks -/

/-- The carriers of the hops before and after a gateway of the route differ. -/
structure Switches (route : Bytes) (hop : Nat) : Prop where
  first : 1 ≤ hop
  last : hop < route.length
  differ : route.getD (hop - 1) 0 ≠ route.getD hop 0

omit [Keccak] in
theorem switchAt_eq_ok {route : Bytes} {hopIndex : UInt8} (h : switchAt route hopIndex = .ok true) :
    Switches route hopIndex.toNat := by
  obtain ⟨-, h⟩ := unit_bind.mp h
  obtain ⟨hc, h⟩ := revertIf_bind.mp h
  obtain ⟨h0, hl⟩ := not_or.mp hc
  have differ := of_decide_eq_true (pure_eq_ok.mp h)
  have pos : hopIndex.toNat ≠ 0 := fun hz => h0 (UInt8.toNat_inj.mp hz)
  exact ⟨Nat.one_le_iff_ne_zero.mpr pos, Nat.lt_of_not_le hl, differ⟩

/-- The transition is one of an envelope that the gateway verifies, with the receipts of the hops before it, whose
record is bound to the payload, and at which the route of the payload changes its carrier. -/
structure Genuine (c : RecordCall) (e : TransitionRecorded) (data : Data) : Prop where
  decoded : decode c.encodedPayload = .ok data
  payload : keccak256 c.encodedPayload = c.inboundEnvelope.record.payloadHash
  attemptId : e.attemptId = data.attemptId
  hopIndex : e.hopIndex = c.hopIndex
  route : e.route = data.route
  switches : Switches data.route c.hopIndex.toNat
  receipts : c.inboundEnvelope.receipts.length = c.hopIndex.toNat
  verified : c.gateway.verifyTrace c.env c.inboundEnvelope = .ok (e.rid, e.mid, e.verifiedPrefix)

/-- The key of a transition. -/
def keyOf (e : TransitionRecorded) : Bytes32 := key e.attemptId e.hopIndex

/-- What a call that returns does. -/
theorem record_eq_ok {c : RecordCall} {x x' : NativeMultihopTransitionRecorder} {e : TransitionRecorded}
    (h : c.record x = .ok (x', e)) : (∃ data, Genuine c e data) ∧ c.sender = x.runner ∧
      x.transitionForAttemptHop (keyOf e) = 0 ∧ (∃ preimage, e.protocolTransitionHash = keccak256 preimage) ∧
      x' = { x with transitionForAttemptHop :=
        Function.update x.transitionForAttemptHop (keyOf e) e.protocolTransitionHash } := by
  obtain ⟨sender, h⟩ := revertIf_bind.mp h
  obtain ⟨-, h⟩ := revertIf_bind.mp h
  obtain ⟨data, decoded, h⟩ := bind_eq_ok.mp h
  obtain ⟨switches, hs, h⟩ := bind_eq_ok.mp h
  obtain ⟨switch, h⟩ := revertIf_bind.mp h
  obtain ⟨payload, h⟩ := revertIf_bind.mp h
  obtain ⟨receipts, h⟩ := revertIf_bind.mp h
  obtain ⟨fresh, h⟩ := revertIf_bind.mp h
  obtain ⟨⟨rid, mid, tracePrefix⟩, verified, h⟩ := bind_eq_ok.mp h
  obtain ⟨inbound, -, h⟩ := orRevert_bind.mp h
  obtain ⟨rfl, rfl⟩ := Prod.mk.inj (pure_eq_ok.mp h)
  obtain rfl := Bool.eq_true_of_not_eq_false switch
  exact ⟨⟨data, decoded, not_not.mp payload, rfl, rfl, rfl, switchAt_eq_ok hs, not_not.mp receipts, verified⟩,
    not_not.mp sender, not_not.mp fresh, ⟨_, rfl⟩, rfl⟩

/-- A call that passes the checks returns. -/
theorem record_returns {c : RecordCall} {x : NativeMultihopTransitionRecorder} {data : Data}
    {r : Bytes32 × Bytes32 × Bytes32} {inbound : Receipt} (sender : c.sender = x.runner)
    (profile : c.outboundProfileHash ≠ 0) (decoded : decode c.encodedPayload = .ok data)
    (switches : switchAt data.route c.hopIndex = .ok true)
    (payload : keccak256 c.encodedPayload = c.inboundEnvelope.record.payloadHash)
    (receipts : c.inboundEnvelope.receipts.length = c.hopIndex.toNat)
    (fresh : x.transitionForAttemptHop (key data.attemptId c.hopIndex) = 0)
    (verified : c.gateway.verifyTrace c.env c.inboundEnvelope = .ok r)
    (last : c.inboundEnvelope.receipts[c.hopIndex.toNat - 1]? = some inbound) : ∃ r, c.record x = .ok r := by
  unfold RecordCall.record record
  rw [sender, decoded, payload, receipts]
  simp only [ok_bind, switches, fresh, verified, last, profile, revertIf, ne_eq, not_true_eq_false, if_false, orRevert,
    Bool.true_eq_false]
  exact ⟨_, rfl⟩

/-! ## Runs -/

/-- The recorder, and the calls that recorded, with what they recorded. -/
structure RecorderState where
  recorder : NativeMultihopTransitionRecorder
  log : List (RecordCall × TransitionRecorded)

/-- Anyone calls, while the gateway of the chain is in any state. A call that reverts changes nothing. -/
inductive RecorderStep (gatewayId : TypedId) : RecorderState → RecordCall → RecorderState → Prop
  | record {s c x e} : c.gateway.gatewayId = gatewayId → c.record s.recorder = .ok (x, e) →
    RecorderStep gatewayId s c ⟨x, s.log ++ [(c, e)]⟩
  | reverted {s c e} : c.gateway.gatewayId = gatewayId → c.record s.recorder = .error e → RecorderStep gatewayId s c s

/-- The map holds what the log says, and each transition of the log is a genuine one of a call made. -/
structure Recorded (gatewayId : TypedId) (cs : List RecordCall) (s : RecorderState) : Prop where
  genuine : ∀ l ∈ s.log, l.1 ∈ cs ∧ l.1.gateway.gatewayId = gatewayId ∧ ∃ data, Genuine l.1 l.2 data
  ne_zero : ∀ l ∈ s.log, l.2.protocolTransitionHash ≠ 0
  stored : ∀ l ∈ s.log, s.recorder.transitionForAttemptHop (keyOf l.2) = l.2.protocolTransitionHash
  logged : ∀ k, s.recorder.transitionForAttemptHop k ≠ 0 → ∃ l ∈ s.log, keyOf l.2 = k
  once : (s.log.map fun l => keyOf l.2).Nodup

variable {gatewayId : TypedId}

theorem recorded_new {gateway runner : Address} {x : NativeMultihopTransitionRecorder}
    (h : new gateway runner = .ok x) :
    Recorded gatewayId [] ⟨x, []⟩ := by
  obtain ⟨-, h⟩ := revertIf_bind.mp h
  obtain rfl := pure_eq_ok.mp h
  exact ⟨nofun, nofun, nofun, fun k hk => absurd rfl hk, List.nodup_nil⟩

theorem Recorded.step (hk : IdealHash) {cs : List RecordCall} {s s' : RecorderState} {c : RecordCall}
    (h : Recorded gatewayId cs s) (hs : RecorderStep gatewayId s c s') : Recorded gatewayId (cs ++ [c]) s' := by
  have before : ∀ l ∈ s.log, l.1 ∈ cs ++ [c] ∧ l.1.gateway.gatewayId = gatewayId ∧ ∃ data, Genuine l.1 l.2 data :=
    fun l hl => ⟨List.mem_append_left _ (h.genuine l hl).1, (h.genuine l hl).2⟩
  cases hs with
  | reverted => exact ⟨before, h.ne_zero, h.stored, h.logged, h.once⟩
  | @record x e hg hr =>
    obtain ⟨genuine, -, fresh, ⟨preimage, hash⟩, rfl⟩ := record_eq_ok hr
    have ne : e.protocolTransitionHash ≠ 0 := by
      rw [hash]
      exact hk.ne_zero preimage
    have other {l : RecordCall × TransitionRecorded} (hl : l ∈ s.log) : keyOf l.2 ≠ keyOf e := fun heq => by
      have value := h.stored l hl
      rw [heq, fresh] at value
      exact h.ne_zero l hl value.symm
    have own : Function.update s.recorder.transitionForAttemptHop (keyOf e) e.protocolTransitionHash (keyOf e) =
      e.protocolTransitionHash := Function.update_self ..
    have others {k : Bytes32} (hk : k ≠ keyOf e) : Function.update s.recorder.transitionForAttemptHop (keyOf e)
      e.protocolTransitionHash k = s.recorder.transitionForAttemptHop k := Function.update_of_ne hk ..
    refine ⟨?_, ?_, ?_, fun k hk => ?_, ?_⟩
    · rw [List.forall_mem_append]
      exact ⟨before, List.forall_mem_singleton.mpr ⟨List.mem_append_right _ List.mem_cons_self, hg, genuine⟩⟩
    · rw [List.forall_mem_append]
      exact ⟨h.ne_zero, List.forall_mem_singleton.mpr ne⟩
    · rw [List.forall_mem_append]
      exact ⟨fun l hl => (others (other hl)).trans (h.stored l hl), List.forall_mem_singleton.mpr own⟩
    · by_cases hke : k = keyOf e
      · exact ⟨(c, e), List.mem_append_right _ List.mem_cons_self, hke.symm⟩
      · obtain ⟨l, hl, hlk⟩ := h.logged k fun hz => hk ((others hke).trans hz)
        exact ⟨l, List.mem_append_left _ hl, hlk⟩
    · rw [List.map_append, List.map_singleton]
      refine h.once.append (List.nodup_singleton _) ?_
      rw [List.disjoint_singleton, List.mem_map]
      rintro ⟨l, hl, heq⟩
      exact other hl heq

theorem recorded_run (hk : IdealHash) {cs : List RecordCall} {s₀ s : RecorderState} (h₀ : Recorded gatewayId [] s₀)
    (h : Run (RecorderStep gatewayId) s₀ cs s) : Recorded gatewayId cs s :=
  h.snoc_induction h₀ fun _ hr hs => hr.step hk hs

/-- A value that is not zero. -/
def Keeps (s s' : RecorderState) : Prop :=
  ∀ k, s.recorder.transitionForAttemptHop k ≠ 0 →
    s'.recorder.transitionForAttemptHop k = s.recorder.transitionForAttemptHop k

theorem keeps_step {s s' : RecorderState} {c : RecordCall} (h : RecorderStep gatewayId s c s') : Keeps s s' := by
  cases h with
  | reverted => exact fun _ _ => rfl
  | record _ hr =>
    obtain ⟨-, -, fresh, -, rfl⟩ := record_eq_ok hr
    refine fun k hk => Function.update_of_ne (fun heq => hk ?_) _ _
    rw [heq, fresh]

/-- Values stay over every run. -/
theorem keeps_run {s s' : RecorderState} {cs : List RecordCall} (h : Run (RecorderStep gatewayId) s cs s') :
    Keeps s s' := by
  have trans {s s' s'' : RecorderState} (h₁ : Keeps s s') (h₂ : Keeps s' s'') : Keeps s s'' := fun k hk => by
    rw [h₂ k (by rwa [h₁ k hk]), h₁ k hk]
  exact h.mono (R := Keeps) (fun _ _ _ => rfl) trans keeps_step

theorem key_inj (hk : IdealHash) {a a' : Bytes32} {i i' : UInt8} (h : key a i = key a' i') : a = a' ∧ i = i' := by
  have parts : a.val ++ (word i.toNat).val = a'.val ++ (word i'.toNat).val := by
    simpa [Abi.encode, Abi.heads, Abi.tails] using hk.injective h
  obtain ⟨ha, hw⟩ := List.append_inj parts (by rw [a.length_val, a'.length_val])
  have number (i : UInt8) : wordVal (word i.toNat) = i.toNat :=
    wordVal_word (Nat.lt_of_lt_of_le i.toNat_lt (Nat.pow_le_pow_right (by decide) (by decide)))
  refine ⟨BytesN.ext ha, UInt8.toNat_inj.mp ?_⟩
  rw [← number i, ← number i', BytesN.ext hw]

/-- A recorder, over every sequence of calls. A value that the map holds for an attempt and a hop is that of a call
which recorded a genuine transition of them; no two calls recorded an attempt and a hop; and a value that is not zero
stays whatever is called later. -/
theorem recorder_sound (hk : IdealHash) {gateway runner : Address} {x : NativeMultihopTransitionRecorder}
    (h₀ : new gateway runner = .ok x) {cs : List RecordCall} {s : RecorderState}
    (h : Run (RecorderStep gatewayId) ⟨x, []⟩ cs s) :
    (∀ attemptId hopIndex, s.recorder.transitionForAttemptHop (key attemptId hopIndex) ≠ 0 →
      ∃ c ∈ cs, ∃ e data, (c, e) ∈ s.log ∧ c.gateway.gatewayId = gatewayId ∧ Genuine c e data ∧
        e.attemptId = attemptId ∧ e.hopIndex = hopIndex ∧
        s.recorder.transitionForAttemptHop (key attemptId hopIndex) = e.protocolTransitionHash) ∧
    (∀ l ∈ s.log, s.recorder.transitionForAttemptHop (key l.2.attemptId l.2.hopIndex) = l.2.protocolTransitionHash) ∧
    (s.log.map fun l => (l.2.attemptId, l.2.hopIndex)).Nodup ∧
    (∀ cs' s', Run (RecorderStep gatewayId) s cs' s' → ∀ k, s.recorder.transitionForAttemptHop k ≠ 0 →
      s'.recorder.transitionForAttemptHop k = s.recorder.transitionForAttemptHop k) := by
  have recorded := recorded_run hk (recorded_new h₀) h
  refine ⟨fun attemptId hopIndex hne => ?_, recorded.stored, ?_, fun cs' s' h' => keeps_run h'⟩
  · obtain ⟨l, hl, hlk⟩ := recorded.logged _ hne
    obtain ⟨hc, hg, data, genuine⟩ := recorded.genuine l hl
    obtain ⟨attempt, hop⟩ := key_inj hk hlk
    have stored := recorded.stored l hl
    rw [hlk] at stored
    exact ⟨l.1, hc, l.2, data, hl, hg, genuine, attempt, hop, stored⟩
  · refine List.Nodup.of_map (fun p : Bytes32 × UInt8 => key p.1 p.2) ?_
    rw [List.map_map]
    exact recorded.once

omit [Keccak] in
/-- A message that a carrier took to the gateway is recorded, before the other carrier takes it on. -/
theorem recorder_sound_switch :
    let _ := idealKeccak
    ∃ (x : NativeMultihopTransitionRecorder) (c : RecordCall) (s : RecorderState),
      new (.single 7) (.single 9) = .ok x ∧ Run (RecorderStep (evmId 2)) ⟨x, []⟩ [c] s ∧ s.log.length = 1 ∧
      (∀ l ∈ s.log, s.recorder.transitionForAttemptHop (key l.2.attemptId l.2.hopIndex) = l.2.protocolTransitionHash) :=
  by
  let _ := idealKeccak
  let data : Data := ⟨.single 3, [72, 76], 1, []⟩
  let payload := encode data
  have decoded : decode payload = .ok data := decode_encode (by decide) rfl
  let root : Envelope := ⟨⟨evmId 1, evmId 2, evmId 9, 0, keccak256 payload⟩, ⟨1, 0⟩, ⟨1, List.replicate 65 27⟩, []⟩
  let receipt : Receipt :=
    ⟨evmId 1, evmId 2, .single 8, .single 4, root.transition (evmId 1) (evmId 2), XIREncoding.rootPrefix root.rid⟩
  let envelope : Envelope := { root with receipts := [receipt] }
  let registry : XIRRegistry :=
    ⟨0, fun _ => ⟨(evmId 1).hash, .single 5, 0, 0, true⟩,
      fun _ => ⟨(evmId 1).hash, (evmId 2).hash, .single 6, 1, 0, 0, true⟩⟩
  let env : Env := ⟨0, registry, fun _ => ⟨fun _ _ _ => some true, fun _ => some true⟩, fun _ _ _ _ => .single 5⟩
  let g : XIRGateway := ⟨_, evmId 2, fun _ => 0, fun _ => false, typedIdHash_eq_ok.mpr ⟨evmId_valid 2, rfl⟩⟩
  have hop : HopAccepts env envelope (traceStart envelope) receipt :=
    ⟨⟨evmId_valid 1, evmId_valid 2⟩, rfl, rfl, rfl, rfl, rfl, by decide, rfl, by decide, by decide, rfl⟩
  have accepts : TraceAccepts g env envelope :=
    ⟨⟨⟨evmId_valid 1, evmId_valid 2, evmId_valid 9⟩, rfl, rfl, rfl⟩, ⟨hop, trivial⟩, rfl, fun _ => ⟨by decide, rfl⟩⟩
  let x : NativeMultihopTransitionRecorder := ⟨.single 7, .single 9, fun _ => 0⟩
  have hx : new (.single 7) (.single 9) = .ok x := revertIf_bind.mpr ⟨by decide, rfl⟩
  let c : RecordCall := ⟨g, env, .single 9, payload, envelope, 1, .single 2⟩
  have hr : ∃ r, c.record x = .ok r :=
    record_returns rfl (by decide) decoded rfl rfl rfl rfl (verifyTrace_eq_ok.mpr ⟨accepts, rfl⟩) rfl
  obtain ⟨⟨x', e⟩, hr⟩ := hr
  have hrun : Run (RecorderStep (evmId 2)) ⟨x, []⟩ [c] ⟨x', [(c, e)]⟩ := .single (.record rfl hr)
  exact ⟨x, c, _, hx, hrun, rfl, (recorder_sound idealHash hx hrun).2.1⟩

end Xir.Impl.NativeMultihopTransitionRecorder
