import Xir.Impl.Contracts.ExperimentReceiver
import Xir.Proof.Pause

/-!
# Baseline deliveries taken for duplicates

The last leg of a baseline route: the mailbox delivers native messages to a
Hyperlane adapter, which hands the payload to the route, and this to its
receiver. The adapter derives the id from the origin, the sender and the body
(`id_of_hands`), not from the native message, whose nonce it is not told. So
messages that differ in their nonce only are handed over under one id, and the
receiver rejects the second (`none_lost`).
-/

namespace Xir.Proof

open Impl

/-- A message of the mailbox. Distinct dispatches differ in the nonce, if they are of one origin. -/
structure NativeMessage where
  nonce : UInt32
  origin : UInt32
  sender : Bytes32
  body : Bytes
  deriving DecidableEq

def NativeMessage.delivery (m : NativeMessage) : Delivery := .handle m.origin m.sender m.body

/-- What `handle` receives of a message. -/
def NativeMessage.fields (m : NativeMessage) : UInt32 × Bytes32 × Bytes := (m.origin, m.sender, m.body)

/-- The addresses of the contracts of the last leg. -/
structure Site where
  adapter : Address
  route : Address
  receiver : Address

/-- The contracts of the last leg, and the messages that the mailbox has delivered. -/
structure LastLeg where
  adapter : HyperlaneAdapter
  route : BaselineRouteControl
  receiver : ExperimentReceiver
  delivered : List NativeMessage

/-- A payload handed to the receiver under an id, which applied it or reverted; or another call. -/
inductive LegEvent
  | applied (m : NativeMessage) (messageId : Bytes32)
  | rejected (m : NativeMessage) (messageId : Bytes32) (e : Revert)
  | other

/-- The message and the id of an event. -/
def LegEvent.handed : LegEvent → Option (NativeMessage × Bytes32)
  | applied m id | rejected m id _ => some (m, id)
  | other => none

def LegEvent.appliedMessage : LegEvent → Option NativeMessage
  | applied m _ => some m
  | _ => none

variable [Keccak]

/-- The delivery of `m` hands the receiver a payload under an id, through the route. -/
def Hands (site : Site) (s : LastLeg) (m : NativeMessage) (messageId : Bytes32) (payload : Bytes) : Prop :=
  (∃ views c, Controlled.Call views s.adapter.mailbox (.adapter (.hyperlane s.adapter)) (.receive m.delivery)
    (some (.baselineCarrierReceive site.route messageId payload)) c) ∧
  s.route.baselineCarrierReceive site.adapter messageId payload = .ok (.baselineReceive site.receiver messageId payload)

/-- The steps of the last leg. The mailbox delivers a message once; a delivery whose receiver
reverts undoes everything. Others call the contracts at will. -/
inductive LegStep (site : Site) : LastLeg → LegEvent → LastLeg → Prop
  | applied {s m id p x} : m ∉ s.delivered → Hands site s m id p →
    s.receiver.baselineReceive site.route id p = .ok x →
    LegStep site s (.applied m id) { s with receiver := x, delivered := m :: s.delivered }
  | rejected {s m id p e} : m ∉ s.delivered → Hands site s m id p →
    s.receiver.baselineReceive site.route id p = .error e → LegStep site s (.rejected m id e) s
  | adapter {s views sender entry a} :
    Controlled.Call views sender (.adapter (.hyperlane s.adapter)) entry none (.adapter (.hyperlane a)) →
    LegStep site s .other { s with adapter := a }
  | route {s views sender entry r} : Controlled.Call views sender (.route s.route) entry none (.route r) →
    LegStep site s .other { s with route := r }
  | receiver {s sender id p x} : sender ≠ site.route →
    s.receiver.baselineReceive sender id p = .ok x ∨ s.receiver.xirReceive sender id p = .ok x →
    LegStep site s .other { s with receiver := x }

end Xir.Proof

namespace Xir.Impl

open Proof

variable [Keccak]

/-- An adapter hands a baseline message to its route under the id of the delivery. -/
theorem Controlled.Call.id {views : Address → Carrier} {sender : Address} {a : Adapter} {d : Delivery} {r : Address}
    {id : Bytes32} {p : Bytes} {c : Controlled}
    (h : Call views sender (.adapter a) (.receive d) (some (.baselineCarrierReceive r id p)) c) : id = d.evidence := by
  cases h with
  | callback hn ha =>
    obtain ⟨hc, hf, ⟨ts, ht, -⟩ | ⟨⟨message, -, hm⟩, -⟩⟩ := Adapter.receive_eq_ok.mp ha
    · exact absurd (Adapter.receive_eq_ok.mpr ⟨hc, hf, .inl ⟨ts, ht, rfl⟩⟩) (hn _)
    · obtain ⟨⟨routeId, payload⟩, -, hm⟩ := orRevert_bind.mp hm
      have hr := (revertIf_bind.mp hm).2
      rw [revertIf_eq_ok, Bool.not_eq_false, decide_eq_true_iff, Prod.mk.injEq, Prod.mk.injEq] at hr
      exact hr.2.1.symm

namespace ExperimentReceiver

/-- What the receiver checks. -/
structure Accepts (x : ExperimentReceiver) (sender : Address) (id : Bytes32) (payload : Bytes) : Prop where
  sender : sender = x.authority
  payload : keccak256 payload = x.expectedPayloadHash
  fresh : x.consumed id = false
  count : x.deliveryCount + 1 < 2 ^ 256

/-- The receiver after an effect. -/
def apply (x : ExperimentReceiver) (id payloadHash : Bytes32) : ExperimentReceiver :=
  { x with
    consumed := Function.update x.consumed id true
    deliveryCount := x.deliveryCount + 1
    lastPayloadHash := payloadHash
    lastMessageId := id }

variable {x x' : ExperimentReceiver} {sender : Address} {id : Bytes32} {payload : Bytes}

theorem receiveEffect_eq_ok :
    x._receiveEffect sender id payload = .ok x' ↔
      x.Accepts sender id payload ∧ x.apply id (keccak256 payload) = x' := by
  unfold _receiveEffect
  simp only [revertIf_bind, pure_eq_ok, not_not, Bool.not_eq_true, not_le]
  constructor
  · rintro ⟨hs, hp, hf, hc, rfl⟩
    exact ⟨⟨hs, hp, hf, hc⟩, rfl⟩
  · rintro ⟨⟨hs, hp, hf, hc⟩, rfl⟩
    exact ⟨hs, hp, hf, hc, rfl⟩

theorem baselineReceive_eq_ok : x.baselineReceive sender id payload = .ok x' ↔
    x.mode = .baseline ∧ x.Accepts sender id payload ∧ x.apply id (keccak256 payload) = x' := by
  rw [baselineReceive, revertIf_bind, receiveEffect_eq_ok, not_not]

theorem xirReceive_eq_ok : x.xirReceive sender id payload = .ok x' ↔
    x.mode = .xir ∧ x.Accepts sender id payload ∧ x.apply id (keccak256 payload) = x' := by
  rw [xirReceive, revertIf_bind, receiveEffect_eq_ok, not_not]

/-- The receiver takes a message for a duplicate if it applied one of this id. -/
theorem baselineReceive_eq_duplicate : x.baselineReceive sender id payload = .error .duplicateMessage ↔
    x.mode = .baseline ∧ sender = x.authority ∧ keccak256 payload = x.expectedPayloadHash ∧ x.consumed id = true := by
  unfold baselineReceive _receiveEffect
  simp only [revertIf_bind_error, reduceCtorEq, and_false, false_or, not_not, and_true]
  refine and_congr_right fun _ => and_congr_right fun _ => and_congr_right fun _ => or_iff_left fun h => ?_
  cases h.2.2

end ExperimentReceiver

end Xir.Impl

namespace Xir.Proof

open Impl

/-- Distinct native messages reach the receiver under distinct ids, none of them is rejected as
one that was processed, and none is applied twice. -/
structure NoneLost (es : List LegEvent) : Prop where
  ids : ∀ x ∈ es.filterMap LegEvent.handed, ∀ y ∈ es.filterMap LegEvent.handed, x.1 ≠ y.1 → x.2 ≠ y.2
  accepted : ∀ m id, .rejected m id .duplicateMessage ∉ es
  once : (es.filterMap LegEvent.appliedMessage).Nodup

/-- The distinct native messages that reach the receiver differ in what `handle` is told of them. -/
def ToldApart (es : List LegEvent) : Prop :=
  ∀ x ∈ es.filterMap LegEvent.handed, ∀ y ∈ es.filterMap LegEvent.handed, x.1 ≠ y.1 → x.1.fields ≠ y.1.fields

variable [Keccak] {site : Site} {s s' : LastLeg} {es : List LegEvent}

theorem id_of_hands {m : NativeMessage} {id : Bytes32} {p : Bytes} (h : Hands site s m id p) :
    id = HyperlaneAdapter.messageId m.origin m.sender m.body := by
  obtain ⟨⟨views, c, hc⟩, -⟩ := h
  exact hc.id

/-- Equal ids are those of equal fields. -/
theorem messageId_inj (hk : Function.Injective keccak256) {m m' : NativeMessage} :
    HyperlaneAdapter.messageId m.origin m.sender m.body = HyperlaneAdapter.messageId m'.origin m'.sender m'.body ↔
      m.fields = m'.fields := by
  constructor
  · intro h
    obtain ⟨ho, hs, hb⟩ := Abi.encode_static_static_bytes_inj (hk h)
    have ho : m.origin.toNat = m'.origin.toNat := by
      have hv := congrArg wordVal ho
      rwa [wordVal_word (m.origin.toNat_lt.trans (by decide)), wordVal_word (m'.origin.toNat_lt.trans (by decide))]
        at hv
    rw [NativeMessage.fields, NativeMessage.fields, UInt32.toNat_inj.mp ho, hs, hb]
  · intro h
    obtain ⟨ho, hs, hb⟩ : m.origin = m'.origin ∧ m.sender = m'.sender ∧ m.body = m'.body := by
      simpa [NativeMessage.fields] using h
    rw [ho, hs, hb]

/-- What was handed over went under the id of the message; what was applied is recorded by the
mailbox; the receiver, if the route is its authority, consumed the ids of those only; and what it
took for a duplicate has the id of another message. -/
structure Recorded (site : Site) (es : List LegEvent) (s : LastLeg) : Prop where
  ids : ∀ x ∈ es.filterMap LegEvent.handed, x.2 = HyperlaneAdapter.messageId x.1.origin x.1.sender x.1.body
  delivered : es.filterMap LegEvent.appliedMessage = s.delivered.reverse
  nodup : s.delivered.Nodup
  consumed : site.route = s.receiver.authority → ∀ id, s.receiver.consumed id = true →
    ∃ m ∈ s.delivered, (m, id) ∈ es.filterMap LegEvent.handed
  duplicate : ∀ m id, .rejected m id .duplicateMessage ∈ es → ∃ m', m' ≠ m ∧ (m', id) ∈ es.filterMap LegEvent.handed

omit [Keccak] in
theorem mem_handed_snoc {e : LegEvent} {x : NativeMessage × Bytes32} :
    x ∈ (es ++ [e]).filterMap LegEvent.handed ↔ x ∈ es.filterMap LegEvent.handed ∨ e.handed = some x := by
  rw [List.filterMap_append, List.mem_append]
  refine or_congr_right ?_
  rw [List.mem_filterMap]
  constructor
  · rintro ⟨e', he, hx⟩
    rwa [List.mem_singleton.mp he] at hx
  · intro hx
    exact ⟨e, List.mem_singleton_self e, hx⟩

/-- A call that hands nothing to the receiver, by which nobody but its authority changes it. -/
theorem Recorded.other (hr : Recorded site es s) (hd : s'.delivered = s.delivered)
    (hc : site.route = s'.receiver.authority →
      s'.receiver.consumed = s.receiver.consumed ∧ s'.receiver.authority = s.receiver.authority) :
    Recorded site (es ++ [.other]) s' := by
  have hh : (es ++ [LegEvent.other]).filterMap LegEvent.handed = es.filterMap LegEvent.handed := by
    rw [List.filterMap_append]
    exact List.append_nil _
  refine ⟨hh ▸ hr.ids, ?_, hd ▸ hr.nodup, fun hs id hi => ?_, fun m id hm => ?_⟩
  · rw [List.filterMap_append, hr.delivered, hd]
    exact List.append_nil _
  · obtain ⟨hc, ha⟩ := hc hs
    rw [hh, hd]
    exact hr.consumed (hs.trans ha) id (hc ▸ hi)
  · rcases List.mem_append.mp hm with hm | hm
    · exact hh ▸ hr.duplicate m id hm
    · exact nomatch List.mem_singleton.mp hm

/-- What a call of the receiver by another than its authority does. -/
theorem receiver_external {x x' : ExperimentReceiver} {sender : Address} {id : Bytes32} {p : Bytes}
    (h : x.baselineReceive sender id p = .ok x' ∨ x.xirReceive sender id p = .ok x') :
    sender = x'.authority := by
  rcases h with h | h
  · obtain ⟨-, ha, rfl⟩ := ExperimentReceiver.baselineReceive_eq_ok.mp h
    exact ha.sender
  · obtain ⟨-, ha, rfl⟩ := ExperimentReceiver.xirReceive_eq_ok.mp h
    exact ha.sender

theorem Recorded.applied (hr : Recorded site es s) {m : NativeMessage} {id : Bytes32} {p : Bytes}
    {x : ExperimentReceiver} (hm : m ∉ s.delivered) (hh : Hands site s m id p)
    (hx : s.receiver.baselineReceive site.route id p = .ok x) :
    Recorded site (es ++ [.applied m id]) { s with receiver := x, delivered := m :: s.delivered } := by
  obtain ⟨-, -, rfl⟩ := ExperimentReceiver.baselineReceive_eq_ok.mp hx
  refine ⟨fun y hy => ?_, ?_, List.nodup_cons.mpr ⟨hm, hr.nodup⟩, fun hs i hi => ?_, fun m' i hi => ?_⟩
  · rcases mem_handed_snoc.mp hy with hy | hy
    · exact hr.ids y hy
    · obtain rfl : (m, id) = y := Option.some.inj hy
      exact id_of_hands hh
  · rw [List.filterMap_append, hr.delivered, List.reverse_cons]
    rfl
  · by_cases hid : i = id
    · exact ⟨m, List.mem_cons_self, mem_handed_snoc.mpr (.inr (hid ▸ rfl))⟩
    · have hc : s.receiver.consumed i = true := (Function.update_of_ne hid _ _).symm.trans hi
      obtain ⟨m', hm', hh'⟩ := hr.consumed hs i hc
      exact ⟨m', List.mem_cons_of_mem _ hm', mem_handed_snoc.mpr (.inl hh')⟩
  · rcases List.mem_append.mp hi with hi | hi
    · obtain ⟨m'', hne, hh'⟩ := hr.duplicate m' i hi
      exact ⟨m'', hne, mem_handed_snoc.mpr (.inl hh')⟩
    · exact nomatch List.mem_singleton.mp hi

theorem Recorded.rejected (hr : Recorded site es s) {m : NativeMessage} {id : Bytes32} {p : Bytes} {e : Revert}
    (hm : m ∉ s.delivered) (hh : Hands site s m id p) (hx : s.receiver.baselineReceive site.route id p = .error e) :
    Recorded site (es ++ [.rejected m id e]) s := by
  refine ⟨fun y hy => ?_, ?_, hr.nodup, fun hs i hi => ?_, fun m' i hi => ?_⟩
  · rcases mem_handed_snoc.mp hy with hy | hy
    · exact hr.ids y hy
    · obtain rfl : (m, id) = y := Option.some.inj hy
      exact id_of_hands hh
  · rw [List.filterMap_append, hr.delivered]
    exact List.append_nil _
  · obtain ⟨m', hm', hh'⟩ := hr.consumed hs i hi
    exact ⟨m', hm', mem_handed_snoc.mpr (.inl hh')⟩
  · rcases List.mem_append.mp hi with hi | hi
    · obtain ⟨m'', hne, hh'⟩ := hr.duplicate m' i hi
      exact ⟨m'', hne, mem_handed_snoc.mpr (.inl hh')⟩
    · obtain ⟨rfl, rfl, rfl⟩ := LegEvent.rejected.inj (List.mem_singleton.mp hi)
      -- its id is that of a message delivered before, and it is not one of these
      obtain ⟨-, hs, -, hc⟩ := ExperimentReceiver.baselineReceive_eq_duplicate.mp hx
      obtain ⟨m', hm', hh'⟩ := hr.consumed hs _ hc
      exact ⟨m', fun h => hm (h ▸ hm'), mem_handed_snoc.mpr (.inl hh')⟩

theorem Recorded.step (hr : Recorded site es s) {e : LegEvent} (h : LegStep site s e s') :
    Recorded site (es ++ [e]) s' := by
  cases h with
  | applied hm hh hx => exact hr.applied hm hh hx
  | rejected hm hh hx => exact hr.rejected hm hh hx
  | adapter | route => exact hr.other rfl fun _ => ⟨rfl, rfl⟩
  | receiver hs hx => exact hr.other rfl fun ha => absurd (receiver_external hx) fun h => hs (h.trans ha.symm)

/-- Nothing was delivered yet. -/
structure LastLeg.Fresh (s : LastLeg) : Prop where
  delivered : s.delivered = []
  consumed : ∀ id, s.receiver.consumed id = false

theorem recorded_run {s₀ : LastLeg} (h₀ : s₀.Fresh) (h : Run (LegStep site) s₀ es s) : Recorded site es s := by
  refine h.snoc_induction (P := Recorded site) ⟨?_, ?_, ?_, ?_, ?_⟩ fun _ hr hs => hr.step hs
  · exact List.forall_mem_nil _
  · rw [h₀.delivered]
    rfl
  · rw [h₀.delivered]
    exact List.nodup_nil
  · intro _ id hi
    rw [h₀.consumed id] at hi
    cases hi
  · exact fun m id h => absurd h List.not_mem_nil

/-- No genuine baseline delivery is lost as a duplicate exactly if the native messages that
reach the receiver differ, pairwise, in their origin, sender or body. -/
theorem none_lost (hk : Function.Injective keccak256) {s₀ : LastLeg} (h₀ : s₀.Fresh) (h : Run (LegStep site) s₀ es s) :
    NoneLost es ↔ ToldApart es := by
  have hr : Recorded site es s := recorded_run h₀ h
  constructor
  · intro hn x hx y hy hne hf
    refine hn.ids x hx y hy hne ?_
    rw [hr.ids x hx, hr.ids y hy]
    exact (messageId_inj hk).mpr hf
  · intro ht
    have hids : ∀ x ∈ es.filterMap LegEvent.handed, ∀ y ∈ es.filterMap LegEvent.handed, x.1 ≠ y.1 → x.2 ≠ y.2 := by
      intro x hx y hy hne hid
      rw [hr.ids x hx, hr.ids y hy] at hid
      exact ht x hx y hy hne ((messageId_inj hk).mp hid)
    refine ⟨hids, fun m id hm => ?_, ?_⟩
    · obtain ⟨m', hne, hh⟩ := hr.duplicate m id hm
      have hm' : (m, id) ∈ es.filterMap LegEvent.handed := List.mem_filterMap.mpr ⟨_, hm, rfl⟩
      exact hids (m', id) hh (m, id) hm' hne rfl
    · rw [hr.delivered]
      exact List.nodup_reverse.mpr hr.nodup

/-! ## Two messages of one peer -/

namespace OneRoute

/-- The contracts of a last leg that takes the empty payload. -/
def leg : LastLeg where
  adapter := ⟨⟨⟨.single 1, 0, .single 1, false, false⟩, fun _ => false, fun _ => false, fun _ => 0, fun _ => .single 3⟩,
    .single 5, 7, .single 6⟩
  route := ⟨⟨.single 1, 0, .single 1, false, false⟩, .single 8, .single 9, .single 9, .single 9, .single 2, .single 4⟩
  receiver := ⟨.single 3, keccak256 [], 0, .baseline, 0, 0, 0, fun _ => false⟩
  delivered := []

def addresses : Site := ⟨.single 2, .single 3, .single 4⟩

theorem fresh : leg.Fresh := ⟨rfl, fun _ => rfl⟩

/-- A message of the remote adapter to a route of this leg. -/
def message (nonce : UInt32) (body : Bytes) : NativeMessage := ⟨nonce, 7, .single 6, body⟩

def idOf (body : Bytes) : Bytes32 := HyperlaneAdapter.messageId 7 (.single 6) body

theorem hands {s : LastLeg} (ha : s.adapter = leg.adapter) (hr : s.route = leg.route) {routeId : Bytes32} {body : Bytes}
    (hb : Adapter.BaselineBody routeId [] body) (nonce : UInt32) :
    Hands addresses s (message nonce body) (idOf body) [] := by
  have h₆ : (.single 6 : Bytes32) ≠ 0 := by decide
  have hf : (Adapter.hyperlane leg.adapter).FromRemote (message nonce body).delivery := ⟨h₆, rfl, rfl⟩
  have hne : (.single 3 : Address) ≠ 0 := by decide
  have hb : Adapter.BaselineBody routeId [] (message nonce body).delivery.body := hb
  refine ⟨⟨fun _ => ⟨fun _ _ _ => none, fun _ => none⟩, .adapter (.hyperlane leg.adapter), ?_⟩, ?_⟩
  · rw [ha]
    refine .callback (fun a' h => ?_) ?_
    · exact nomatch ((Adapter.receive_baseline hb).mp h).2.1.2
    · exact (Adapter.receive_baseline hb).mpr ⟨⟨rfl, hf⟩, ⟨hne, decide_eq_true rfl⟩, rfl⟩
  · have h₂ : (.single 2 : Address) ≠ .single 9 := by decide
    rw [hr]
    exact BaselineRouteControl.baselineCarrierReceive_eq_ok.mpr (.inr ⟨h₂, rfl, rfl⟩)

/-- The leg after the delivery of a first message. -/
def after (m : NativeMessage) : LastLeg :=
  { leg with receiver := leg.receiver.apply (idOf m.body) (keccak256 []), delivered := [m] }

theorem deliver {routeId : Bytes32} {body : Bytes} (hb : Adapter.BaselineBody routeId [] body) (nonce : UInt32) :
    LegStep addresses leg (.applied (message nonce body) (idOf body)) (after (message nonce body)) :=
  .applied List.not_mem_nil (hands rfl rfl hb nonce)
    (ExperimentReceiver.baselineReceive_eq_ok.mpr
      ⟨rfl, ⟨rfl, rfl, rfl, Nat.lt_of_lt_of_le one_lt_two (by decide)⟩, rfl⟩)

theorem rejects (m : NativeMessage) :
    (after m).receiver.baselineReceive (.single 3) (idOf m.body) [] = .error .duplicateMessage :=
  ExperimentReceiver.baselineReceive_eq_duplicate.mpr ⟨rfl, rfl, rfl, Function.update_self ..⟩

theorem accepts (m : NativeMessage) {id : Bytes32} (h : id ≠ idOf m.body) :
    (after m).receiver.Accepts (.single 3) id [] := by
  have hc : (after m).receiver.consumed id = false := Function.update_of_ne h _ _
  have hn : (after m).receiver.deliveryCount = 1 := rfl
  exact ⟨rfl, rfl, hc, by rw [hn]; decide⟩

end OneRoute

open OneRoute

omit [Keccak] in
/-- Two native messages of one payload on one route: the receiver rejects the second. -/
theorem equal_payload_lost :
    let _ := idealKeccak
    ∃ (es : List LegEvent) (s : LastLeg) (m m' : NativeMessage) (id : Bytes32), m ≠ m' ∧
      Run (LegStep addresses) leg es s ∧ es = [.applied m id, .rejected m' id .duplicateMessage] ∧ ¬ NoneLost es := by
  let _ := idealKeccak
  obtain ⟨body, hb⟩ := Adapter.baselineBody_of_length (.single 8) (show ([] : Bytes).length + 256 < 2 ^ 64 by decide)
  have hne : message 0 body ≠ message 1 body := fun h => by
    have := congrArg NativeMessage.nonce h
    simp [message] at this
  have hr : Run (LegStep addresses) leg [.applied (message 0 body) (idOf body),
      .rejected (message 1 body) (idOf body) .duplicateMessage] (after (message 0 body)) :=
    .cons (deliver hb 0) (.single (.rejected (fun h => hne (List.mem_singleton.mp h).symm) (hands rfl rfl hb 1)
      (rejects (message 0 body))))
  exact ⟨_, _, _, _, _, hne, hr, rfl, fun h => h.accepted _ _ (List.mem_cons_of_mem _ (List.mem_singleton_self _))⟩

omit [Keccak] in
/-- Two native messages of one payload on two routes of one peer are both applied. -/
theorem none_lost_two_routes :
    let _ := idealKeccak
    ∃ (es : List LegEvent) (s : LastLeg) (m m' : NativeMessage) (id id' : Bytes32), m ≠ m' ∧
      Run (LegStep addresses) leg es s ∧ es = [.applied m id, .applied m' id'] ∧ NoneLost es := by
  let _ := idealKeccak
  have hlen : ([] : Bytes).length + 256 < 2 ^ 64 := by decide
  obtain ⟨body, hb⟩ := Adapter.baselineBody_of_length (.single 8) hlen
  obtain ⟨body', hb'⟩ := Adapter.baselineBody_of_length (.single 9) hlen
  have hbody : body ≠ body' := by
    rintro rfl
    obtain ⟨message, hm, hb⟩ := hb
    obtain ⟨message', hm', hb'⟩ := hb'
    obtain rfl : message = message' := by
      simpa using (decodeMessage_of_encode hb).symm.trans (decodeMessage_of_encode hb')
    have := (decodeRoute_of_encode hm).symm.trans (decodeRoute_of_encode hm')
    exact absurd (congrArg Prod.fst (Option.some.inj this)) (by decide)
  have hk := idealHash.injective
  have hid : idOf body' ≠ idOf body := fun h => hbody (Abi.encode_static_static_bytes_inj (hk h)).2.2.symm
  have hne : message 0 body ≠ message 1 body' := fun h => hbody (congrArg NativeMessage.body h)
  have ha : (after (message 0 body)).receiver.Accepts (.single 3) (idOf body') [] := accepts _ hid
  have hr :
      Run (LegStep addresses) leg [.applied (message 0 body) (idOf body), .applied (message 1 body') (idOf body')] _ :=
    .cons (deliver hb 0) (.single (.applied (fun h => hne (List.mem_singleton.mp h).symm) (hands rfl rfl hb' 1)
      (ExperimentReceiver.baselineReceive_eq_ok.mpr ⟨rfl, ha, rfl⟩)))
  refine ⟨_, _, _, _, _, _, hne, hr, rfl, (none_lost hk fresh hr).mpr fun x hx y hy hxy hf => ?_⟩
  have hmem {x : NativeMessage × Bytes32} (hx : x ∈ [(message 0 body, idOf body), (message 1 body', idOf body')]) :
      x.1 = message 0 body ∨ x.1 = message 1 body' := by
    rcases List.mem_pair.mp hx with rfl | rfl
    · exact .inl rfl
    · exact .inr rfl
  have hfields : (message 0 body).fields ≠ (message 1 body').fields := fun h => hbody (congrArg (·.2.2) h)
  rcases hmem hx with hx | hx <;> rcases hmem hy with hy | hy <;> rw [hx, hy] at hxy hf
  · exact hxy rfl
  · exact hfields hf
  · exact hfields hf.symm
  · exact hxy rfl

end Xir.Proof
