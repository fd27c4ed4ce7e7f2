import Xir.Impl.Contracts.Accounts
import Xir.Proof.Delivery

/-!
# What was run of what was delivered

A delivered message was received by the code of its receiver (`Executed`) if the
receiver has code. If it has none, then every message to it that passes the
checks of `deliver` is consumed and reported as delivered.
-/

namespace Xir.Proof

open Impl Impl.XIRGateway

variable [Keccak]

/-- The code at an address ran with a message, on the gateway as `deliver` left it to call the
receiver, and returned normally, which left `gateway'`. -/
def Executed (account : Account) (start : XIRGateway) (mid : Bytes32) (payload : Bytes)
    (gateway' : XIRGateway) : Prop :=
  ∃ xirReceive, account = .contract xirReceive ∧ xirReceive start mid payload = some gateway'

theorem deliverTo_eq_ok {g : XIRGateway} {env : Env} {accounts : Address → Account} {e : Envelope} {payload : Bytes}
    {receiver : Address} {r : XIRGateway × Bytes32 × Delivered} :
    g.deliverTo env accounts e payload receiver = .ok r ↔
      ∃ start mid, g.deliverStart env e payload receiver = .ok (start, mid) ∧
      ∃ g', (accounts receiver).call start mid payload = some g' ∧ (g', mid, ⟨mid, receiver, e.receipts.length⟩) = r :=
  by
  rw [deliverTo, deliver, bind_eq_ok]
  simp only [orRevert_bind, pure_eq_ok, Prod.exists]

/-- A message that is delivered to a contract. -/
theorem executed_of_contract {g : XIRGateway} {env : Env} {accounts : Address → Account} {e : Envelope}
    {payload : Bytes} {receiver : Address} {r : XIRGateway × Bytes32 × Delivered} (hc : accounts receiver ≠ .codeless)
    (h : g.deliverTo env accounts e payload receiver = .ok r) :
    ∃ start, g.deliverStart env e payload receiver = .ok (start, r.2.1) ∧
      Executed (accounts receiver) start r.2.1 payload r.1 := by
  obtain ⟨start, mid, hs, g', hg, rfl⟩ := deliverTo_eq_ok.mp h
  cases ha : accounts receiver with
  | contract xirReceive => exact ⟨start, hs, xirReceive, rfl, by rwa [ha] at hg⟩
  | codeless => exact absurd ha hc

/-- A message that passes the checks, to an account without code. -/
theorem delivered_of_codeless {g start : XIRGateway} {env : Env} {accounts : Address → Account} {e : Envelope}
    {payload : Bytes} {receiver : Address} {mid : Bytes32} (hc : accounts receiver = .codeless)
    (h : g.deliverStart env e payload receiver = .ok (start, mid)) :
    g.deliverTo env accounts e payload receiver = .ok (start, mid, ⟨mid, receiver, e.receipts.length⟩) :=
  deliverTo_eq_ok.mpr ⟨start, mid, h, start, by rw [hc]; rfl, rfl⟩

/-- A message at its own source gateway, for whatever receiver. -/
theorem exists_accepted {receiver : Address} (h0 : receiver ≠ 0) :
    ∃ (g : XIRGateway) (env : Env) (e : Envelope), DeliverAccepts g env e [] receiver := by
  let env : Env :=
    ⟨0, ⟨0, fun _ => ⟨(evmId 1).hash, .single 5, 0, 0, true⟩, 0⟩, fun _ => ⟨fun _ _ _ => none, fun _ => none⟩,
    fun _ _ _ _ => .single 5⟩
  let g : XIRGateway := ⟨_, evmId 1, fun _ => 0, fun _ => false, typedIdHash_eq_ok.mpr ⟨evmId_valid 1, rfl⟩⟩
  let app : TypedId := ⟨EVM, receiver.val⟩
  let e : Envelope := ⟨⟨evmId 1, evmId 2, app, 0, keccak256 []⟩, ⟨1, 0⟩, ⟨1, List.replicate 65 27⟩, []⟩
  have hv : app.Valid := .inl ⟨rfl, receiver.length_val⟩
  have ha : _evmAddress app = .ok receiver := by rw [_evmAddress, dif_pos ⟨rfl, receiver.length_val⟩]
  exact ⟨g, env, e, rfl, h0, ha, ⟨⟨⟨evmId_valid 1, evmId_valid 2, hv⟩, rfl, rfl, rfl⟩, trivial, rfl,
    fun h => absurd rfl h⟩, rfl⟩

/-- Delivered implies executed, if and only if the receiver has code (no message is delivered
to the zero address). To an account without code, every message that passes the checks is
consumed and delivered, and nothing ran. -/
theorem delivered_executed (accounts : Address → Account) (receiver : Address) :
    ((∀ (g : XIRGateway) (env : Env) (e : Envelope) (payload : Bytes) (g' : XIRGateway) (mid : Bytes32) (d : Delivered),
      g.deliverTo env accounts e payload receiver = .ok (g', mid, d) →
      ∃ start, g.deliverStart env e payload receiver = .ok (start, mid) ∧
        Executed (accounts receiver) start mid payload g') ↔
      receiver = 0 ∨ accounts receiver ≠ .codeless) ∧
    (accounts receiver = .codeless → ∀ (g : XIRGateway) (env : Env) (e : Envelope) (payload : Bytes),
      DeliverAccepts g env e payload receiver →
      g.deliverTo env accounts e payload receiver = .ok
        (g.consume e.mid, e.mid, ⟨e.mid, receiver, e.receipts.length⟩)) := by
  refine ⟨⟨fun h => ?_, fun h g env e payload g' mid d hd => ?_⟩, fun hc g env e payload ha => ?_⟩
  · by_contra hn
    rw [not_or, not_not] at hn
    obtain ⟨g, env, e, ha⟩ := exists_accepted hn.1
    obtain ⟨_, -, xirReceive, hx, -⟩ :=
      h g env e [] _ _ _ (delivered_of_codeless hn.2 (deliverStart_eq_ok.mpr ⟨ha, rfl⟩))
    rw [hn.2] at hx
    cases hx
  · refine executed_of_contract (h.resolve_left ?_) hd
    obtain ⟨start, mid, hs, -⟩ := deliverTo_eq_ok.mp hd
    exact (deliverStart_eq_ok.mp hs).1.receiver_ne
  · exact delivered_of_codeless hc (deliverStart_eq_ok.mpr ⟨ha, rfl⟩)

omit [Keccak] in
/-- On a chain with no contracts at all, a message is delivered and consumed. -/
theorem delivered_to_codeless :
    let _ := idealKeccak
    ∃ (accounts : Address → Account) (receiver : Address) (g : XIRGateway) (env : Env) (e : Envelope)
      (g' : XIRGateway) (d : Delivered), accounts receiver = .codeless ∧
      g.deliverTo env accounts e [] receiver = .ok (g', d.mid, d) ∧ g'.consumed d.mid = true ∧
      ∀ start, ¬ Executed (accounts receiver) start d.mid [] g' := by
  let _ := idealKeccak
  have h9 : (BytesN.single 9 : Address) ≠ 0 := fun h => absurd (BytesN.single_inj.mp h) (by decide)
  obtain ⟨g, env, e, ha⟩ := exists_accepted h9
  refine ⟨fun _ => .codeless, .single 9, g, env, e, g.consume e.mid, ⟨e.mid, .single 9, e.receipts.length⟩, rfl,
    delivered_of_codeless rfl (deliverStart_eq_ok.mpr ⟨ha, rfl⟩), ?_, ?_⟩
  · rw [consumed_consume, Function.update_self]
  · rintro _ ⟨_, ⟨⟩, -⟩

end Xir.Proof
