import Xir.Framework.Run
import Xir.Proof.Forward
import Xir.Proof.History
import Xir.Proof.Trace

/-!
# A line of chains

Chains `0` to `n`, for any `n`, with a gateway on each and a hop from each to the
next: hop `i` has an adapter on chain `i`, its source, and one on chain `i + 1`, its
target. Steps are calls that dispatch, by anyone with any arguments, and
deliveries by the native transports, which deliver only what the adapter at the
other end of the hop dispatched. `LineInv` is what holds in every state a deployed
line reaches, whatever its runners do.
-/

namespace Xir.Impl

/-- The adapters of a hop. -/
inductive Port
  | source (hop : Nat)
  | target (hop : Nat)
  deriving DecidableEq

namespace Port

/-- The adapter at the other end of the hop. -/
def peer : Port → Port
  | source i => target i
  | target i => source i

/-- The chain an adapter stands on. -/
def chain : Port → Nat
  | source i => i
  | target i => i + 1

end Port

/-- A message that was dispatched, with the call that dispatched it. -/
structure Sent where
  call : SendCall
  message : Message

/-- The adapters, with what each dispatched and the deliveries each took. -/
structure LineState where
  adapter : Port → Adapter
  sent : Port → List Sent
  received : Port → List Delivery

namespace LineState

/-- Port `x` dispatches. -/
def dispatch (s : LineState) (x : Port) (m : Sent) : LineState :=
  { s with sent := Function.update s.sent x (s.sent x ++ [m]) }

/-- Port `x` takes a delivery. -/
def take (s : LineState) (x : Port) (d : Delivery) (a : Adapter) : LineState :=
  { s with adapter := Function.update s.adapter x a, received := Function.update s.received x (s.received x ++ [d]) }

variable [Keccak] (address : Port → Address)

/-- The contracts that calls on chain `k` see: the target of the hop that ends there, and any others. -/
def Sees (s : LineState) (k : Nat) (carriers : Address → Carrier) : Prop :=
  ∀ j, k = j + 1 → carriers (address (.target j)) = (s.adapter (.target j)).carrier.carrier

/-- Such contracts, and no others. -/
def view (s : LineState) : Nat → Address → Carrier
  | j + 1, a =>
    if a = address (.target j) then (s.adapter (.target j)).carrier.carrier else ⟨fun _ _ _ => none, fun _ => none⟩
  | 0, _ => ⟨fun _ _ _ => none, fun _ => none⟩

inductive Event
  | send (x : Port) (carriers : Address → Carrier) (call : SendCall)
  | receive (x : Port) (d : Delivery)
  | other

/-- The steps of a line. A call that reverts, and one of another contract, is `other`. -/
inductive Step : LineState → Event → LineState → Prop
  | send {s x carriers sender call m} : Sees address s x.chain carriers →
    (s.adapter x).send carriers sender call = .ok m →
    Step s (.send x carriers call) (s.dispatch x ⟨call, m⟩)
  | receive {s x r d a} : (∃ m ∈ s.sent x.peer, m.message.body = d.body) →
    (s.adapter x).receive r (s.adapter x).native d = .ok a →
    Step s (.receive x d) (s.take x d a)
  | other {s} : Step s .other s

end LineState

variable [Keccak]

/-- A line of `length` hops, as deployed. The registry of a chain has the root of chain `0`, and
the profiles of the hops up to the chain, verified by the target of the last of these. -/
structure Line where
  length : Nat
  profile : Nat → Bytes32
  gatewayId : Nat → TypedId
  address : Port → Address
  registry : Nat → XIRRegistry
  profile_inj {h h' : Nat} : h < length → h' < length → profile h = profile h' → h = h'
  gatewayId_valid (i : Nat) : (gatewayId i).Valid
  gatewayId_inj {i i' : Nat} : i ≤ length → i' ≤ length → gatewayId i = gatewayId i' → i = i'
  root {k : Nat} {v : UInt32} : ((registry k).rootAt v).enabled = true →
    ((registry k).rootAt v).gatewayHash = (gatewayId 0).hash
  registered {k : Nat} {p : Bytes32} : ((registry k).profileAt p).enabled = true →
    ∃ j h, k = j + 1 ∧ j < length ∧ h ≤ j ∧ p = profile h ∧ ((registry k).profileAt p).srcHash = (gatewayId h).hash ∧
      ((registry k).profileAt p).dstHash = (gatewayId (h + 1)).hash ∧
      ((registry k).profileAt p).adapter = address (.target j)

namespace Line

variable (L : Line)

/-- A line at its start: the two adapters of a hop are of one kind, and a source approves, for
the profiles of the hops before its own, the target that stands on its chain. -/
structure Deployed (s : LineState) : Prop where
  fresh (x : Port) : Proof.Accepted (s.adapter x).carrier []
  sent (x : Port) : s.sent x = []
  received (x : Port) : s.received x = []
  paired (x : Port) : (s.adapter x.peer).bundleKind = (s.adapter x).bundleKind
  approved {i : Nat} {p : Bytes32} : (s.adapter (.source i)).carrier.approvedPriorVerifiers p ≠ 0 →
    ∃ j h, i = j + 1 ∧ h ≤ j ∧ p = L.profile h ∧
      (s.adapter (.source i)).carrier.approvedPriorVerifiers p = L.address (.target j)

end Line

end Xir.Impl

namespace Xir.Proof

open Impl

variable [Keccak] {L : Line} {address : Port → Address}

/-! ## Steps -/

theorem sees_view (s : LineState) (k : Nat) : s.Sees address k (s.view address k) := by
  intro j hj
  subst hj
  exact if_pos rfl

omit [Keccak] in
theorem adapter_take (s : LineState) (x : Port) (d : Delivery) (a : Adapter) :
    (s.take x d a).adapter = Function.update s.adapter x a := rfl

omit [Keccak] in
theorem received_take (s : LineState) (x : Port) (d : Delivery) (a : Adapter) :
    (s.take x d a).received = Function.update s.received x (s.received x ++ [d]) := rfl

omit [Keccak] in
theorem mem_sent_dispatch {s : LineState} {x y : Port} {m m' : Sent} :
    m' ∈ (s.dispatch x m).sent y ↔ m' ∈ s.sent y ∨ y = x ∧ m' = m := by
  simp only [LineState.dispatch]
  by_cases hy : y = x
  · subst hy
    simp
  · simp [hy]

/-- What no step of a line changes of an adapter. -/
structure SameConfig (a a' : Adapter) : Prop where
  bundleKind : a'.bundleKind = a.bundleKind
  native : a'.native = a.native
  fromRemote : a'.FromRemote = a.FromRemote
  approved : a'.carrier.approvedPriorVerifiers = a.carrier.approvedPriorVerifiers
  control : a'.carrier.toOutboundControl = a.carrier.toOutboundControl
  options : a'.TakesOptions = a.TakesOptions
  remote : a'.remote = a.remote

theorem SameConfig.refl (a : Adapter) : SameConfig a a := ⟨rfl, rfl, rfl, rfl, rfl, rfl, rfl⟩

theorem sameConfig_accept (a : Adapter) (ts : List Tuple) : SameConfig a (a.withCarrier (a.carrier.accept ts)) := by
  cases a <;> exact ⟨rfl, rfl, by funext d; cases d <;> rfl, rfl, rfl, rfl, rfl⟩

/-- What a delivery does to the adapter that takes it. -/
theorem receive_cases {r : Address → Bytes32 → Bytes → Bool} {caller : Address} {a a' : Adapter} {d : Delivery}
    (h : a.receive r caller d = .ok a') : a.FromRemote d ∧ SameConfig a a' ∧
      ((∃ ts, d.tuples = some ts ∧ a' = a.withCarrier (a.carrier.accept ts)) ∨ d.tuples = none ∧ a' = a) := by
  obtain ⟨-, hf, ⟨ts, ht, rfl⟩ | ⟨⟨m, hm, -⟩, rfl⟩⟩ := Adapter.receive_eq_ok.mp h
  · exact ⟨hf, sameConfig_accept a ts, .inl ⟨ts, ht, rfl⟩⟩
  · refine ⟨hf, .refl a, .inr ⟨?_, rfl⟩⟩
    cases d <;> simp only [Delivery.tuples, hm] <;> rfl

/-- What is accepted stays accepted, what was sent was sent, and the configuration stays as it is. -/
structure Grows (s s' : LineState) : Prop where
  sent (x : Port) {m : Sent} : m ∈ s.sent x → m ∈ s'.sent x
  config (x : Port) : SameConfig (s.adapter x) (s'.adapter x)
  evidence (x : Port) {h : Bytes32} : (s.adapter x).carrier.acceptedEvidence h = true →
    (s'.adapter x).carrier.acceptedEvidence h = true
  bundles (x : Port) {c : Bytes32} : (s.adapter x).carrier.acceptedBundles c = true →
    (s'.adapter x).carrier.acceptedBundles c = true

namespace Grows

theorem refl (s : LineState) : Grows s s := ⟨fun _ _ h => h, fun _ => .refl _, fun _ _ h => h, fun _ _ h => h⟩

theorem trans {s s' s'' : LineState} (h : Grows s s') (h' : Grows s' s'') : Grows s s'' where
  sent x _ hm := h'.sent x (h.sent x hm)
  config x := ⟨(h'.config x).bundleKind.trans (h.config x).bundleKind, (h'.config x).native.trans (h.config x).native,
    (h'.config x).fromRemote.trans (h.config x).fromRemote, (h'.config x).approved.trans (h.config x).approved,
    (h'.config x).control.trans (h.config x).control, (h'.config x).options.trans (h.config x).options,
    (h'.config x).remote.trans (h.config x).remote⟩
  evidence x _ he := h'.evidence x (h.evidence x he)
  bundles x _ hb := h'.bundles x (h.bundles x hb)

theorem verify {s s' : LineState} (h : Grows s s') {x : Port} {p e t : Bytes32}
    (hv : (s.adapter x).carrier.verify p e t = true) : (s'.adapter x).carrier.verify p e t = true :=
  h.evidence x hv

end Grows

theorem step_grows {s s' : LineState} {e : LineState.Event} (h : s.Step address e s') : Grows s s' := by
  cases h with
  | send => exact ⟨fun _ _ h => mem_sent_dispatch.mpr (.inl h), fun _ => .refl _, fun _ _ h => h, fun _ _ h => h⟩
  | other => exact .refl s
  | @receive x r d a ha hr =>
    obtain ⟨-, hc, hcase⟩ := receive_cases hr
    have key : ∀ y, (s.take x d a).adapter y = s.adapter y ∨ y = x ∧ (s.take x d a).adapter y = a := by
      intro y
      rw [adapter_take]
      by_cases hy : y = x
      · rw [hy, Function.update_self]
        exact .inr ⟨rfl, rfl⟩
      · exact .inl (Function.update_of_ne hy _ _)
    refine ⟨fun _ _ h => h, fun y => ?_, fun y h he => ?_, fun y c hb => ?_⟩
    · rcases key y with hy | ⟨rfl, hy⟩
      · rw [hy]
        exact .refl _
      · rwa [hy]
    · rcases key y with hy | ⟨rfl, hy⟩
      · rwa [hy]
      · rw [hy]
        rcases hcase with ⟨ts, -, rfl⟩ | ⟨-, rfl⟩
        · rw [Adapter.carrier_withCarrier, CarrierAdapter.accept_acceptedEvidence]
          exact .inl he
        · exact he
    · rcases key y with hy | ⟨rfl, hy⟩
      · rwa [hy]
      · rw [hy]
        rcases hcase with ⟨ts, -, rfl⟩ | ⟨-, rfl⟩
        · rw [Adapter.carrier_withCarrier, CarrierAdapter.accept_acceptedBundles]
          exact .inl hb
        · exact hb

theorem run_grows {s s' : LineState} {es : List LineState.Event} (h : Run (LineState.Step address) s es s') :
    Grows s s' :=
  h.mono Grows.refl Grows.trans step_grows

/-! ## The invariant -/

/-- What holds in every state of a line. -/
structure LineInv (L : Line) (s : LineState) : Prop where
  paired (x : Port) : (s.adapter x.peer).bundleKind = (s.adapter x).bundleKind
  approved {i : Nat} {p : Bytes32} : (s.adapter (.source i)).carrier.approvedPriorVerifiers p ≠ 0 →
    ∃ j h, i = j + 1 ∧ h ≤ j ∧ p = L.profile h ∧
      (s.adapter (.source i)).carrier.approvedPriorVerifiers p = L.address (.target j)
  /-- An adapter accepted the tuples of the deliveries it took. -/
  accepted (x : Port) : Accepted (s.adapter x).carrier ((s.received x).filterMap Delivery.tuples)
  /-- A delivery carries the tuples of a call at the other end of the hop. -/
  authentic (x : Port) {d : Delivery} : d ∈ s.received x →
    ∃ m ∈ s.sent x.peer, m.message.body = d.body ∧ d.tuples = m.call.tuples d.evidence
  sentBy (x : Port) {m : Sent} : m ∈ s.sent x → ∃ (a : Adapter) (carriers : Address → Carrier) (sender : Address),
    a.bundleKind = (s.adapter x).bundleKind ∧ a.send carriers sender m.call = .ok m.message
  /-- The priors of a message name profiles of earlier hops, and were accepted on its chain. -/
  priors {i : Nat} {m : Sent} : m ∈ s.sent (.source i) → ∀ t ∈ m.call.priors, ∃ j h, i = j + 1 ∧ h ≤ j ∧
    t.profileHash = L.profile h ∧
      (s.adapter (.source i)).carrier.approvedPriorVerifiers t.profileHash = L.address (.target j) ∧
      (s.adapter (.target j)).carrier.verify t.profileHash t.evidenceHash t.transitionHash = true

theorem inv_of_deployed {s : LineState} (h : L.Deployed s) : LineInv L s where
  paired := h.paired
  approved := h.approved
  accepted x := by
    rw [h.received]
    exact h.fresh x
  authentic x d hd := by
    rw [h.received] at hd
    exact nomatch hd
  sentBy x m hm := by
    rw [h.sent] at hm
    exact nomatch hm
  priors hm := by
    rw [h.sent] at hm
    exact nomatch hm

omit [Keccak] in
theorem mem_received_take {s : LineState} {x y : Port} {d d' : Delivery} {a : Adapter} :
    d' ∈ (s.take x d a).received y ↔ d' ∈ s.received y ∨ y = x ∧ d' = d := by
  rw [received_take]
  by_cases hy : y = x
  · subst hy
    simp
  · simp [hy]

theorem send_inv {s : LineState} {x : Port} {carriers : Address → Carrier} {sender : Address} {c : SendCall}
    {m : Message} (h : LineInv L s) (hsees : s.Sees L.address x.chain carriers)
    (hsend : (s.adapter x).send carriers sender c = .ok m) : LineInv L (s.dispatch x ⟨c, m⟩) where
  paired := h.paired
  approved := h.approved
  accepted := h.accepted
  authentic y d hd := by
    obtain ⟨m', hm', hb, ht⟩ := h.authentic y hd
    exact ⟨m', mem_sent_dispatch.mpr (.inl hm'), hb, ht⟩
  sentBy y m' hm := by
    rcases mem_sent_dispatch.mp hm with hm | ⟨rfl, rfl⟩
    · exact h.sentBy y hm
    · exact ⟨_, carriers, sender, rfl, hsend⟩
  priors {i m'} hm t ht := by
    rcases mem_sent_dispatch.mp hm with hm | ⟨rfl, rfl⟩
    · exact h.priors hm t ht
    · obtain ⟨hne, hv⟩ := Adapter.priors_of_send hsend ht
      obtain ⟨j, k, rfl, hk, hp, ha⟩ := h.approved hne
      rw [ha, hsees j rfl] at hv
      exact ⟨j, k, rfl, hk, hp, ha, Option.some.inj hv⟩

theorem receive_inv {s : LineState} {x : Port} {r : Address → Bytes32 → Bytes → Bool} {d : Delivery} {a : Adapter}
    (h : LineInv L s) (ha : ∃ m ∈ s.sent x.peer, m.message.body = d.body)
    (hr : (s.adapter x).receive r (s.adapter x).native d = .ok a) : LineInv L (s.take x d a) := by
  have hs : s.Step L.address (.receive x d) (s.take x d a) := .receive ha hr
  have hg : Grows s (s.take x d a) := step_grows hs
  obtain ⟨hf, -, hcase⟩ := receive_cases hr
  refine ⟨fun y => ?_, fun {i p} => ?_, fun y => ?_, fun y d' hd => ?_, fun y m hm => ?_, fun hm t ht => ?_⟩
  · rw [(hg.config y.peer).bundleKind, (hg.config y).bundleKind, h.paired]
  · rw [(hg.config _).approved]
    exact h.approved
  · rw [adapter_take, received_take]
    by_cases hy : y = x
    · subst hy
      rw [Function.update_self, Function.update_self, List.filterMap_append]
      rcases hcase with ⟨ts, ht, rfl⟩ | ⟨ht, rfl⟩
      · rw [Adapter.carrier_withCarrier, List.filterMap_cons_some ht]
        exact (h.accepted y).accept ts
      · rw [List.filterMap_cons_none ht, List.filterMap_nil, List.append_nil]
        exact h.accepted y
    · rw [Function.update_of_ne hy, Function.update_of_ne hy]
      exact h.accepted y
  · rcases mem_received_take.mp hd with hd | ⟨rfl, rfl⟩
    · exact h.authentic y hd
    · -- the sender at the other end is of the same kind, so the delivery decodes to what it encoded
      obtain ⟨m, hm, hb⟩ := ha
      obtain ⟨a₀, carriers, sender, hk, hsend⟩ := h.sentBy _ hm
      exact ⟨m, hm, hb, Adapter.tuples_of_send hsend (hk.trans (h.paired y)).symm hf hb.symm⟩
  · obtain ⟨a₀, carriers, sender, hk, hsend⟩ := h.sentBy y hm
    exact ⟨a₀, carriers, sender, hk.trans (hg.config y).bundleKind.symm, hsend⟩
  · obtain ⟨j, k, hi, hk, hp, ha, hv⟩ := h.priors hm t ht
    exact ⟨j, k, hi, hk, hp, (congrFun (hg.config _).approved _).trans ha, hg.verify hv⟩

theorem step_inv {s s' : LineState} {e : LineState.Event} (h : LineInv L s) (hs : s.Step L.address e s') :
    LineInv L s' := by
  cases hs with
  | other => exact h
  | send hsees hsend => exact send_inv h hsees hsend
  | receive ha hr => exact receive_inv h ha hr

theorem run_inv {s s' : LineState} {es : List LineState.Event} (h : L.Deployed s)
    (hr : Run (LineState.Step L.address) s es s') :
    LineInv L s' :=
  hr.inv (C := fun _ => True) (fun _ h hs => step_inv h hs) (fun _ _ => trivial) (inv_of_deployed h)

end Xir.Proof

/-! ## A hop -/

namespace Xir.Impl

/-- The delivery of a body that the remote adapter sent. -/
def Adapter.deliveryOf (a : Adapter) (guid : Bytes32) (body : Bytes) : Delivery :=
  match a with
  | hyperlane a => .handle a.remoteDomain a.remoteAdapter body
  | layerZero a => .lzReceive ⟨a.remoteEid, a.remotePeer, 0⟩ guid body

@[simp] theorem Adapter.body_deliveryOf (a : Adapter) (guid : Bytes32) (body : Bytes) :
    (a.deliveryOf guid body).body = body := by
  cases a <;> rfl

theorem Adapter.fromRemote_deliveryOf {a : Adapter} (h : a.remote ≠ 0) (guid : Bytes32) (body : Bytes) :
    a.FromRemote (a.deliveryOf guid body) := by
  cases a <;> exact ⟨h, rfl, rfl⟩

theorem Adapter.evidence_deliveryOf_ne [Keccak] (hk : IdealHash) {guid : Bytes32} (hg : guid ≠ 0) (a : Adapter)
    (body : Bytes) : (a.deliveryOf guid body).evidence ≠ 0 := by
  cases a with
  | hyperlane a => exact hk.ne_zero _
  | layerZero a => exact hg

namespace LineState

variable [Keccak]

/-- The state after a hop: its source sent `d.body`, which the delivery `d` brought to its target,
with the tuples `ts`. -/
def hop (s : LineState) (i : Nat) (call : SendCall) (d : Delivery) (ts : List Proof.Tuple) : LineState :=
  (s.dispatch (.source i) ⟨call, ⟨(s.adapter (.source i)).remoteChain, (s.adapter (.source i)).remote, d.body⟩⟩).take
    (.target i) d ((s.adapter (.target i)).withCarrier ((s.adapter (.target i)).carrier.accept ts))

variable {s : LineState} {i : Nat} {call : SendCall} {d : Delivery} {ts : List Proof.Tuple}

theorem adapter_hop_target : (s.hop i call d ts).adapter (.target i) =
    (s.adapter (.target i)).withCarrier ((s.adapter (.target i)).carrier.accept ts) := Function.update_self _ _ _

theorem received_hop_target : (s.hop i call d ts).received (.target i) = s.received (.target i) ++ [d] :=
  Function.update_self _ _ _

theorem verify_hop {t : Proof.Tuple} (h : t ∈ ts) :
    ((s.hop i call d ts).adapter (.target i)).carrier.verify t.profileHash t.evidenceHash t.transitionHash = true := by
  rw [adapter_hop_target, Adapter.carrier_withCarrier]
  exact CarrierAdapter.accept_acceptedEvidence.mpr (.inr ⟨t, h, rfl⟩)

theorem verifyBundle_hop :
    ((s.hop i call d ts).adapter (.target i)).carrier.verifyBundle (Proof.commitment ts) = true := by
  rw [adapter_hop_target, Adapter.carrier_withCarrier]
  exact CarrierAdapter.accept_acceptedBundles.mpr (.inr rfl)

theorem received_hop_of_ne {x : Port} (h : x ≠ .target i) : (s.hop i call d ts).received x = s.received x :=
  Function.update_of_ne h _ _

end LineState

end Xir.Impl

namespace Xir.Proof

open Impl Impl.Adapter

variable [Keccak] {address : Port → Address}

/-- A source that passes the checks of a call sends its bundle, and the delivery of it is taken. -/
theorem run_hop {s : LineState} {i : Nat} {carriers : Address → Carrier} {sender : Address} {source : Bool}
    {request : ForwardRequest} {options : Bytes} {d : Delivery} (hsees : s.Sees address i carriers)
    (hc : (s.adapter (.source i)).SendChecks carriers sender source request options)
    (hb : BundleBody (s.adapter (.source i)).bundleKind request.bundle d.body)
    (hk : (s.adapter (.target i)).bundleKind = (s.adapter (.source i)).bundleKind)
    (hf : (s.adapter (.target i)).FromRemote d) :
    Run (LineState.Step address) s
      [.send (.source i) carriers (bundleCall source request options), .receive (.target i) d]
      (s.hop i (bundleCall source request options) d (request.bundle.tuples d.evidence)) := by
  have ht : d.tuples = some (request.bundle.tuples d.evidence) :=
    tuples_of_bundleBody hf hc.forward.aligned (hk ▸ hb)
  refine .cons (.send hsees (send_bundle_eq_ok.mpr ⟨hc, d.body, hb, rfl⟩))
    (.single (.receive (r := fun _ _ _ => false) ?_ ?_))
  · exact ⟨_, mem_sent_dispatch.mpr (.inr ⟨rfl, rfl⟩), rfl⟩
  · exact receive_eq_ok.mpr ⟨rfl, hf, .inl ⟨_, ht, rfl⟩⟩

end Xir.Proof
