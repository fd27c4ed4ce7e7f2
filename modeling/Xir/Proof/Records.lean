import Xir.Framework.Run
import Xir.Proof.Binding

/-!
# Every record is new

Over any run of calls of `createRecord`, on gateways with distinct ids, the
records, root ids and message ids that are returned are pairwise distinct
(`records_distinct`). A record carries its gateway, its sender and a nonce, and
a run's records carry nonces from the counter of their sender on
(`run_from`), which a call that succeeds moves past the nonce it used.
-/

namespace Xir.Impl

open Proof

variable [Keccak]

namespace XIRGateway

/-- The record that `createRecord` makes. -/
def newRecord (g : XIRGateway) (sender : Address) (destinationApp : TypedId) (payload : Bytes) : Record :=
  ⟨g.gatewayId, ⟨EVM, sender.val⟩, destinationApp, g.nextNonce sender, keccak256 payload⟩

/-- The gateway after `createRecord`. -/
def bumpNonce (g : XIRGateway) (sender : Address) : XIRGateway :=
  { g with nextNonce := Function.update g.nextNonce sender (g.nextNonce sender + 1) }

theorem nextNonce_bumpNonce (g : XIRGateway) (sender : Address) :
    (g.bumpNonce sender).nextNonce = Function.update g.nextNonce sender (g.nextNonce sender + 1) := rfl

theorem newRecord_valid (g : XIRGateway) (sender : Address) {dst : TypedId} (payload : Bytes) (h : dst.Valid) :
    (g.newRecord sender dst payload).Valid :=
  ⟨g.gatewayId_valid, .inl ⟨rfl, sender.length_val⟩, h⟩

/-- `createRecord` succeeds on a valid destination and a counter that does not
overflow, with the ids of an envelope that has the record. -/
theorem createRecord_eq_ok {g : XIRGateway} {sender : Address} {dst : TypedId} {payload : Bytes}
    {c : VerifiedContext} {v : UInt32} {r : XIRGateway × Record × Bytes32 × Bytes32} :
    g.createRecord sender dst payload c v = .ok r ↔
      (dst.Valid ∧ (g.nextNonce sender).toNat + 1 < 2 ^ 64) ∧
        (g.bumpNonce sender, g.newRecord sender dst payload,
          (⟨g.newRecord sender dst payload, c, ⟨v, []⟩, []⟩ : Envelope).rid,
          (⟨g.newRecord sender dst payload, c, ⟨v, []⟩, []⟩ : Envelope).mid) = r := by
  rw [createRecord, revertIf_bind, not_le]
  simp only [bind_eq_ok, recordHash_eq_ok, rootId_eq_ok, messageId_eq_ok, pure_eq_ok]
  constructor
  · rintro ⟨hn, _, ⟨hv, rfl⟩, _, ⟨-, rfl⟩, _, ⟨hd, rfl⟩, rfl⟩
    exact ⟨⟨hd, hn⟩, rfl⟩
  · rintro ⟨⟨hd, hn⟩, rfl⟩
    exact ⟨hn, _, ⟨g.newRecord_valid sender payload hd, rfl⟩, _, ⟨g.gatewayId_valid, rfl⟩, _, ⟨hd, rfl⟩, rfl⟩

end XIRGateway

end Xir.Impl

namespace Xir.Proof

open Impl Impl.XIRGateway

variable [Keccak] {ι : Type} [DecidableEq ι]

/-- A call of `createRecord` on one of the gateways `ι`. -/
structure CreateCall (ι : Type) where
  gateway : ι
  sender : Address
  destinationApp : TypedId
  payload : Bytes
  context : VerifiedContext
  registryVersion : UInt32

/-- What a call returns: a record, its root id and its message id. -/
abbrev Created := Record × Bytes32 × Bytes32

/-- A call that returns, or reverts. -/
inductive CreateStep : (ι → XIRGateway) → CreateCall ι × Option Created → (ι → XIRGateway) → Prop
  | created {s c g r} :
    (s c.gateway).createRecord c.sender c.destinationApp c.payload c.context c.registryVersion = .ok (g, r) →
    CreateStep s (c, some r) (Function.update s c.gateway g)
  | reverted {s c e} :
    (s c.gateway).createRecord c.sender c.destinationApp c.payload c.context c.registryVersion = .error e →
    CreateStep s (c, none) s

/-- What the calls of a run returned. -/
def created (es : List (CreateCall ι × Option Created)) : List Created := es.filterMap Prod.snd

/-- What a step can do. -/
theorem createStep_cases {s s' : ι → XIRGateway} {c : CreateCall ι} {o : Option Created}
    (h : CreateStep s (c, o) s') : o = none ∧ s' = s ∨
      ∃ e : Envelope, o = some (e.record, e.rid, e.mid) ∧ e.record.Valid ∧
        e.record = (s c.gateway).newRecord c.sender c.destinationApp c.payload ∧
        ((s c.gateway).nextNonce c.sender).toNat + 1 < 2 ^ 64 ∧
        s' = Function.update s c.gateway ((s c.gateway).bumpNonce c.sender) := by
  cases h with
  | reverted => exact .inl ⟨rfl, rfl⟩
  | created h =>
    obtain ⟨⟨hd, hn⟩, heq⟩ := createRecord_eq_ok.mp h
    obtain ⟨rfl, rfl⟩ := Prod.mk.inj heq
    exact .inr ⟨⟨_, c.context, ⟨c.registryVersion, []⟩, []⟩, rfl, newRecord_valid _ _ _ hd, rfl, hn, rfl⟩

theorem toNat_bumpNonce {g : XIRGateway} {sender : Address} (h : (g.nextNonce sender).toNat + 1 < 2 ^ 64) :
    ((g.bumpNonce sender).nextNonce sender).toNat = (g.nextNonce sender).toNat + 1 := by
  rw [nextNonce_bumpNonce, Function.update_self, UInt64.toNat_add, UInt64.toNat_one, Nat.mod_eq_of_lt h]

/-- A step keeps the gateways' ids, and no counter goes down. -/
theorem createStep_mono {s s' : ι → XIRGateway} {e : CreateCall ι × Option Created} (h : CreateStep s e s') (i : ι) :
    (s' i).gatewayId = (s i).gatewayId ∧ ∀ a, ((s i).nextNonce a).toNat ≤ ((s' i).nextNonce a).toNat := by
  obtain ⟨c, o⟩ := e
  obtain ⟨-, rfl⟩ | ⟨e, -, -, -, hn, rfl⟩ := createStep_cases h
  · exact ⟨rfl, fun _ => le_rfl⟩
  · by_cases hi : i = c.gateway
    · subst hi
      rw [Function.update_self]
      refine ⟨rfl, fun a => ?_⟩
      by_cases ha : a = c.sender
      · rw [ha, toNat_bumpNonce hn]
        exact Nat.le_succ _
      · rw [nextNonce_bumpNonce, Function.update_of_ne ha]
    · rw [Function.update_of_ne hi]
      exact ⟨rfl, fun _ => le_rfl⟩

/-- The record carries the id of a gateway, and a nonce from a counter of it on. -/
def From (s : ι → XIRGateway) (r : Record) : Prop :=
  ∃ i a, r.sourceGateway = (s i).gatewayId ∧ r.sourceApp = ⟨EVM, a.val⟩ ∧ ((s i).nextNonce a).toNat ≤ r.nonce.toNat

omit [DecidableEq ι] in
theorem From.mono {s s' : ι → XIRGateway} {r : Record} (h : From s' r)
    (hs : ∀ i, (s' i).gatewayId = (s i).gatewayId ∧ ∀ a, ((s i).nextNonce a).toNat ≤ ((s' i).nextNonce a).toNat) :
    From s r := by
  obtain ⟨i, a, hg, ha, hn⟩ := h
  exact ⟨i, a, hg.trans (hs i).1, ha, ((hs i).2 a).trans hn⟩

omit [Keccak] [DecidableEq ι] in
theorem created_cons_some (c : CreateCall ι) (r : Created) (es : List (CreateCall ι × Option Created)) :
    created ((c, some r) :: es) = r :: created es := rfl

/-- What a run returns is made of records with nonces from the first counters on. -/
theorem run_from {s s' : ι → XIRGateway} {es : List (CreateCall ι × Option Created)} (h : Run CreateStep s es s') :
    ∀ x ∈ created es, ∃ e : Envelope, x = (e.record, e.rid, e.mid) ∧ e.record.Valid ∧ From s e.record := by
  induction h with
  | nil => exact fun x hx => nomatch hx
  | @cons s s₁ _ e es hs _ ih =>
    have ih' : ∀ x ∈ created es, ∃ e : Envelope, x = (e.record, e.rid, e.mid) ∧ e.record.Valid ∧ From s e.record := by
      intro x hx
      obtain ⟨e', hx, hv, hf⟩ := ih x hx
      exact ⟨e', hx, hv, hf.mono (createStep_mono hs)⟩
    obtain ⟨c, o⟩ := e
    obtain ⟨rfl, rfl⟩ | ⟨e', rfl, hv, hr, hn, rfl⟩ := createStep_cases hs
    · exact ih'
    · rw [created_cons_some]
      refine List.forall_mem_cons.mpr ⟨⟨e', rfl, hv, c.gateway, c.sender, ?_⟩, ih'⟩
      rw [hr]
      exact ⟨rfl, rfl, le_rfl⟩

/-- The records of a run are pairwise distinct. -/
theorem run_records_nodup {s s' : ι → XIRGateway} {es : List (CreateCall ι × Option Created)}
    (hi : Function.Injective fun i => (s i).gatewayId) (h : Run CreateStep s es s') :
    ((created es).map Prod.fst).Nodup := by
  induction h with
  | nil => exact List.nodup_nil
  | @cons s s₁ _ e es hs hr ih =>
    have hi₁ : Function.Injective fun i => (s₁ i).gatewayId := fun i j hij =>
      hi (((createStep_mono hs i).1.symm.trans hij).trans (createStep_mono hs j).1)
    obtain ⟨c, o⟩ := e
    obtain ⟨rfl, -⟩ | ⟨e', rfl, hv, he, hn, rfl⟩ := createStep_cases hs
    · exact ih hi₁
    rw [created_cons_some, List.map_cons, List.nodup_cons]
    refine ⟨fun hm => ?_, ih hi₁⟩
    -- a later record of the same gateway and sender has a larger nonce
    obtain ⟨x, hx, hxe⟩ := List.mem_map.mp hm
    obtain ⟨e'', rfl, -, i, a, hg, ha, hle⟩ := run_from hr x hx
    replace hxe : e''.record = _ := hxe.trans he
    rw [hxe] at hg ha hle
    have hic : c.gateway = i := hi (hg.trans (createStep_mono hs i).1)
    subst hic
    obtain rfl : c.sender = a := BytesN.ext (congrArg TypedId.value ha)
    rw [Function.update_self, toNat_bumpNonce hn] at hle
    exact Nat.not_succ_le_self _ hle

theorem rid_inj (hk : Function.Injective keccak256) {e e' : Envelope} (hv : e.record.Valid) (hv' : e'.record.Valid)
    (h : e.rid = e'.rid) : e.record = e'.record := by
  obtain ⟨-, h₁, -⟩ := Preimage.rootId.inj (Preimage.hash_inj hk hv.1 hv'.1 h)
  exact Preimage.record.inj (Preimage.hash_inj hk hv hv' h₁)

/-- What the calls of a run return is pairwise distinct: the records, the root ids and
the message ids. A call reverts on an invalid destination or a counter at its
end, and then changes no gateway. -/
theorem records_distinct (hk : Function.Injective keccak256) {s s' : ι → XIRGateway}
    {es : List (CreateCall ι × Option Created)} (hi : Function.Injective fun i => (s i).gatewayId)
    (h : Run CreateStep s es s') :
    ((created es).map fun x => x.1).Nodup ∧ ((created es).map fun x => x.2.1).Nodup ∧
      ((created es).map fun x => x.2.2).Nodup ∧
      ∀ {t t' : ι → XIRGateway} {c : CreateCall ι}, CreateStep t (c, none) t' →
        t' = t ∧ (¬ c.destinationApp.Valid ∨ ((t c.gateway).nextNonce c.sender).toNat = 2 ^ 64 - 1) := by
  have hr := run_records_nodup hi h
  have hc : ∀ x ∈ created es, ∀ y ∈ created es, x.1 = y.1 → x = y := List.inj_on_of_nodup_map hr
  refine ⟨hr, ?_, ?_, fun {t t' c} hs => ?_⟩
  · refine hr.of_map.map_on fun x hx y hy hxy => hc x hx y hy ?_
    obtain ⟨e, rfl, hv, -⟩ := run_from h x hx
    obtain ⟨e', rfl, hv', -⟩ := run_from h y hy
    exact rid_inj hk hv hv' hxy
  · refine hr.of_map.map_on fun x hx y hy hxy => hc x hx y hy ?_
    obtain ⟨e, rfl, hv, -⟩ := run_from h x hx
    obtain ⟨e', rfl, hv', -⟩ := run_from h y hy
    exact (mid_inj hk hv hv' hxy).1
  · cases hs with
    | reverted he =>
      refine ⟨rfl, ?_⟩
      by_contra hn
      have hn' : ((t c.gateway).nextNonce c.sender).toNat + 1 < 2 ^ 64 := by
        have := ((t c.gateway).nextNonce c.sender).toNat_lt
        have := (not_or.mp hn).2
        omega
      have hok : (t c.gateway).createRecord c.sender c.destinationApp c.payload c.context c.registryVersion = .ok _ :=
        createRecord_eq_ok.mpr ⟨⟨not_not.mp (not_or.mp hn).1, hn'⟩, rfl⟩
      exact nomatch he.symm.trans hok

omit [Keccak] [DecidableEq ι] in
/-- The same call, made twice, returns two message ids. -/
theorem records_distinct_twice :
    let _ := idealKeccak
    ∃ (s s' : Unit → XIRGateway) (c : CreateCall Unit) (x y : Created),
      Run CreateStep s [(c, some x), (c, some y)] s' ∧ x.2.2 ≠ y.2.2 := by
  let _ := idealKeccak
  let g : XIRGateway := ⟨_, evmId 1, fun _ => 0, fun _ => false, typedIdHash_eq_ok.mpr ⟨evmId_valid 1, rfl⟩⟩
  let c : CreateCall Unit := ⟨(), .single 2, evmId 3, [], ⟨1, 0⟩, 1⟩
  have h₁ := CreateStep.created (s := fun _ => g) (c := c) (createRecord_eq_ok.mpr ⟨⟨evmId_valid 3, by decide⟩, rfl⟩)
  have h₂ := CreateStep.created (s := Function.update (fun _ => g) c.gateway (g.bumpNonce c.sender)) (c := c)
    (createRecord_eq_ok.mpr ⟨⟨evmId_valid 3, by decide⟩, rfl⟩)
  have hr : Run CreateStep (fun _ : Unit => g) _ _ := .cons h₁ (.single h₂)
  refine ⟨_, _, _, _, _, hr, ?_⟩
  have := (records_distinct idealHash.injective (fun _ _ _ => rfl) hr).2.2.1
  simpa [created] using this

end Xir.Proof
