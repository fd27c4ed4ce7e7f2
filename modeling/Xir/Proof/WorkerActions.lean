import Xir.Proof.Worker

/-!
# The actions of the LayerZero worker

An action keeps the columns of its intent, and its raw transaction from when it
has one (`WorkerAction.Grows`). A nonce is above those of the chain that there
are, so that those of the stages of a packet, which are intended in their order,
rise (`WorkerLedger`). `_submit_stage` takes up an action that has failed as well:
it is broadcast again and is submitted again. A cycle that takes up no packet
with such an action leaves every terminal state as it is.
-/

namespace Xir.Impl.XirLab

open Strings

/-! ## Rows -/

/-- The place of a stage in `STAGES`. -/
def WorkerStage.index : WorkerStage → Nat
  | dvnExecute => 0
  | commitVerification => 1
  | executorExecute => 2

namespace WorkerAction

/-- The row as it was when it was intended. -/
def intent (a : WorkerAction) : WorkerAction :=
  { a with rawTransactionHex := none, transactionHash := none, status := .intended }

def Terminal (a : WorkerAction) : Prop := a.status = .succeeded ∨ a.status = .failed

/-- An action has a raw transaction unless it is only intended. -/
def RawOk (a : WorkerAction) : Prop :=
  (a.status = .intended ∧ a.rawTransactionHex = none) ∨
    (a.status ≠ .intended ∧ ∃ raw, a.rawTransactionHex = some (hex0x raw))

/-- What becomes of a row. -/
structure Grows (a a' : WorkerAction) : Prop where
  intent : a'.intent = a.intent
  signed : a.rawTransactionHex ≠ none →
    a'.rawTransactionHex = a.rawTransactionHex ∧ a'.transactionHash = a.transactionHash
  terminal : a.Terminal → a'.status = a.status

variable {a b c : WorkerAction}

theorem Grows.refl (a : WorkerAction) : Grows a a := ⟨rfl, fun _ => ⟨rfl, rfl⟩, fun _ => rfl⟩

theorem Grows.trans (h : Grows a b) (h' : Grows b c) : Grows a c := by
  refine ⟨h'.intent.trans h.intent, fun hr => ?_, fun ht => ?_⟩
  · obtain ⟨hr₁, hh₁⟩ := h.signed hr
    obtain ⟨hr₂, hh₂⟩ := h'.signed (hr₁ ▸ hr)
    exact ⟨hr₂.trans hr₁, hh₂.trans hh₁⟩
  · have hs := h.terminal ht
    have hb : b.Terminal := by rwa [Terminal, hs]
    exact (h'.terminal hb).trans hs

theorem Grows.actionID (h : Grows a b) : b.actionID = a.actionID := by
  show b.intent.actionID = a.intent.actionID
  rw [h.intent]

theorem Grows.guid (h : Grows a b) : b.guid = a.guid := by
  show b.intent.guid = a.intent.guid
  rw [h.intent]

theorem Grows.stage (h : Grows a b) : b.stage = a.stage := by
  show b.intent.stage = a.intent.stage
  rw [h.intent]

theorem Grows.chainID (h : Grows a b) : b.destinationChainID = a.destinationChainID := by
  show b.intent.destinationChainID = a.intent.destinationChainID
  rw [h.intent]

theorem Grows.nonce (h : Grows a b) : b.nonce = a.nonce := by
  show b.intent.nonce = a.intent.nonce
  rw [h.intent]

end WorkerAction

/-- The rows of `actions`, at two times. -/
def ActionsGrow (s t : WorkerTables) : Prop := ∀ a ∈ s.actions, ∃ a' ∈ t.actions, a.Grows a'

theorem ActionsGrow.refl (s : WorkerTables) : ActionsGrow s s := fun a ha => ⟨a, ha, .refl a⟩

theorem ActionsGrow.of_subset {s t : WorkerTables} (h : s.actions ⊆ t.actions) : ActionsGrow s t :=
  fun a ha => ⟨a, h ha, .refl a⟩

theorem ActionsGrow.trans {s t u : WorkerTables} (h : ActionsGrow s t) (h' : ActionsGrow t u) : ActionsGrow s u := by
  intro a ha
  obtain ⟨b, hb, hab⟩ := h a ha
  obtain ⟨c, hc, hbc⟩ := h' b hb
  exact ⟨c, hc, hab.trans hbc⟩

/-! ## The ledger -/

section

variable [Digests]

/-- The row holds the packet. -/
def PacketRow.Encodes (r : PacketRow) (packet : LayerZeroPacket) : Prop :=
  decodePacket packet.encoded = .ok packet ∧ r.encodedPacketHex = hex0x packet.encoded ∧ r.guid = hex0x packet.guid

/-- The packet with the `guid` goes to the chain. -/
def Destined (w : LayerZeroWorker) (s : WorkerTables) (guid : String) (chainID : Nat) : Prop :=
  ∃ r ∈ s.packets, r.guid = guid ∧ ∃ packet, r.Encodes packet ∧
    ∃ chain, w.chain packet.destinationEID = .ok chain ∧ chain.chainID = chainID

/-- The stage of the packet has an action with a status. -/
def HasStage (s : WorkerTables) (guid : String) (stage : WorkerStage) (status : WorkerStatus → Prop) : Prop :=
  ∃ a ∈ s.actions, a.guid = guid ∧ a.stage = stage ∧ status a.status

structure WorkerLedger (w : LayerZeroWorker) (s : WorkerWorld) : Prop where
  packets : ∀ r ∈ s.tables.packets, ∃ packet, r.Encodes packet
  guids : (s.tables.packets.map PacketRow.guid).Nodup
  ids : (s.tables.actions.map WorkerAction.actionID).Nodup
  stages : (s.tables.actions.map fun a => (a.guid, a.stage)).Nodup
  nonces : (s.tables.actions.map fun a => (a.destinationChainID, a.nonce)).Nodup
  raws : ∀ a ∈ s.tables.actions, a.RawOk
  destined : ∀ a ∈ s.tables.actions, Destined w s.tables a.guid a.destinationChainID
  order : ∀ a ∈ s.tables.actions, ∀ stage : WorkerStage, stage.index < a.stage.index → ∃ b ∈ s.tables.actions,
    b.guid = a.guid ∧ b.stage = stage ∧ b.nonce < a.nonce
  broadcasts : ∀ b ∈ s.broadcasts, ∃ a ∈ s.tables.actions, a.actionID = b.actionID ∧
    a.rawTransactionHex = some (hex0x b.raw)
  delivered : ∀ r ∈ s.tables.packets, r.status = .delivered → ∀ stage, HasStage s.tables r.guid stage (· = .succeeded)

/-- What an operation needs. -/
def ActionNeeds (w : LayerZeroWorker) : WorkerOp → WorkerWorld → Prop
  | .observePacket packet _ _ _, _ => decodePacket packet.encoded = .ok packet
  | .intendAction guid stage chainID _ _ _, s => Destined w s.tables guid chainID ∧
      ∀ stage' : WorkerStage, stage'.index < stage.index → HasStage s.tables guid stage' fun _ => True
  | .observeAction actionID state _, s => state ≠ .intended ∧ ∀ a ∈ s.tables.actions, a.actionID = actionID →
      a.status = .signed ∨ a.status = .submitted
  | .sendRawTransaction _ actionID raw, s => ∃ a ∈ s.tables.actions, a.actionID = actionID ∧
      a.rawTransactionHex = some (hex0x raw)
  | .markDelivered guid, s => ∀ stage, HasStage s.tables guid stage (· = .succeeded)
  | _, _ => True

variable {w : LayerZeroWorker} {s t : WorkerWorld}

/-- The chain that a packet goes to. -/
theorem WorkerLedger.destined_unique (h : WorkerLedger w s) {guid : String} {m n : Nat}
    (hm : Destined w s.tables guid m) (hn : Destined w s.tables guid n) : m = n := by
  obtain ⟨r, hr, hg, packet, ⟨hd, he, -⟩, chain, hc, rfl⟩ := hm
  obtain ⟨r', hr', hg', packet', ⟨hd', he', -⟩, chain', hc', rfl⟩ := hn
  obtain rfl := List.inj_on_of_nodup_map h.guids hr hr' (hg.trans hg'.symm)
  have hp := hex0x_inj.mp (he.symm.trans he')
  rw [hp, hd'] at hd
  obtain rfl := Except.ok.inj hd
  obtain rfl := Except.ok.inj (hc.symm.trans hc')
  rfl

/-- An action is known by its identifier. -/
theorem WorkerLedger.eq_of_id (h : WorkerLedger w s) {a b : WorkerAction} (ha : a ∈ s.tables.actions)
    (hb : b ∈ s.tables.actions) (he : a.actionID = b.actionID) : a = b :=
  List.inj_on_of_nodup_map h.ids ha hb he

/-! ### Operations -/

/-- Rewriting of actions in which each of them grows. -/
theorem WorkerLedger.rewrite (h : WorkerLedger w s) {p : WorkerAction → Prop} [DecidablePred p]
    {f : WorkerAction → WorkerAction} (hf : ∀ a ∈ s.tables.actions, p a → a.Grows (f a) ∧ (f a).RawOk)
    {observations : List WorkerObservation} :
    WorkerLedger w ⟨{ s.tables with actions := Table.update p f s.tables.actions, observations := observations },
      s.broadcasts⟩ ∧
      ActionsGrow s.tables
        { s.tables with actions := Table.update p f s.tables.actions, observations := observations } := by
  have hgrow : ∀ a ∈ s.tables.actions, ∃ a' ∈ Table.update p f s.tables.actions, a.Grows a' ∧ a'.RawOk := by
    intro a ha
    refine ⟨_, Table.mem_update.mpr ⟨a, ha, rfl⟩, ?_⟩
    split
    · exact hf a ha ‹_›
    · exact ⟨.refl a, h.raws a ha⟩
  have hback : ∀ a' ∈ Table.update p f s.tables.actions, ∃ a ∈ s.tables.actions, a.Grows a' ∧ a'.RawOk := by
    intro a' ha'
    obtain ⟨a, ha, rfl⟩ := Table.mem_update.mp ha'
    refine ⟨a, ha, ?_⟩
    split
    · exact hf a ha ‹_›
    · exact ⟨.refl a, h.raws a ha⟩
  have hstage {guid : String} {stage : WorkerStage} (hh : HasStage s.tables guid stage (· = .succeeded)) :
      ∃ a ∈ Table.update p f s.tables.actions, a.guid = guid ∧ a.stage = stage ∧ a.status = .succeeded := by
    obtain ⟨a, ha, hg, hst, hs⟩ := hh
    obtain ⟨a', ha', hgr, -⟩ := hgrow a ha
    exact ⟨a', ha', hgr.guid.trans hg, hgr.stage.trans hst, (hgr.terminal (.inl hs)).trans hs⟩
  refine ⟨⟨h.packets, h.guids, ?_, ?_, ?_, ?_, ?_, ?_, ?_, fun r hr hd stage => hstage (h.delivered r hr hd stage)⟩, ?_⟩
  · rw [Table.map_update fun a ha hp => (hf a ha hp).1.actionID]
    exact h.ids
  · rw [Table.map_update fun a ha hp => Prod.ext (hf a ha hp).1.guid (hf a ha hp).1.stage]
    exact h.stages
  · rw [Table.map_update fun a ha hp => Prod.ext (hf a ha hp).1.chainID (hf a ha hp).1.nonce]
    exact h.nonces
  · intro a' ha'
    obtain ⟨a, -, -, hr⟩ := hback a' ha'
    exact hr
  · intro a' ha'
    obtain ⟨a, ha, hg, -⟩ := hback a' ha'
    rw [hg.guid, hg.chainID]
    exact h.destined a ha
  · intro a' ha' stage hlt
    obtain ⟨a, ha, hg, -⟩ := hback a' ha'
    rw [hg.stage] at hlt
    obtain ⟨b, hb, hbg, hbs, hbn⟩ := h.order a ha stage hlt
    obtain ⟨b', hb', hgb, -⟩ := hgrow b hb
    exact ⟨b', hb', (hgb.guid.trans hbg).trans hg.guid.symm, hgb.stage.trans hbs, hgb.nonce.trans_lt (hbn.trans_eq
      hg.nonce.symm)⟩
  · intro b hb
    obtain ⟨a, ha, hid, hr⟩ := h.broadcasts b hb
    obtain ⟨a', ha', hg, -⟩ := hgrow a ha
    have hne : a.rawTransactionHex ≠ none := fun hn => by rw [hr] at hn; cases hn
    exact ⟨a', ha', hg.actionID.trans hid, (hg.signed hne).1.trans hr⟩
  · intro a ha
    obtain ⟨a', ha', hg, -⟩ := hgrow a ha
    exact ⟨a', ha', hg⟩

omit [Digests] in
/-- The nonce of an intent is above those of the chain. -/
theorem WorkerTables.lt_nextNonce {s : WorkerTables} {a : WorkerAction} (ha : a ∈ s.actions) (nonce : Nat) :
    a.nonce < s.nextNonce a.destinationChainID nonce := by
  have hm : a.nonce ∈ (s.actions.filter fun r => r.destinationChainID = a.destinationChainID).map WorkerAction.nonce :=
    List.mem_map.mpr ⟨a, List.mem_filter.mpr ⟨ha, decide_eq_true rfl⟩, rfl⟩
  rw [WorkerTables.nextNonce]
  split
  · next durable hd =>
    have := (List.max?_eq_some_iff.mp hd).2 _ hm
    omega
  · next hn =>
    rw [List.max?_eq_none_iff.mp hn] at hm
    exact absurd hm List.not_mem_nil

theorem WorkerLedger.intendAction [Unicode] (h : WorkerLedger w s) {guid : String} {stage : WorkerStage}
    {chainID nonce : Nat} {target : String} {data : GoBytes} {t : WorkerTables} {row : WorkerAction}
    (hi : s.tables.intendAction guid stage chainID nonce target data = .ok (t, row))
    (hd : Destined w s.tables guid chainID)
    (ho : ∀ stage' : WorkerStage, stage'.index < stage.index → HasStage s.tables guid stage' fun _ => True) :
    WorkerLedger w ⟨t, s.broadcasts⟩ ∧ ActionsGrow s.tables t := by
  obtain ⟨hc, hi⟩ := revertIf_bind.mp hi
  obtain ⟨rfl, -⟩ := Prod.mk.inj (pure_eq_ok.mp hi)
  set new := s.tables.intendedRow guid stage chainID nonce target data with hnew
  have hkey {κ : Type} {k : WorkerAction → κ} (hu : (s.tables.actions.map k).Nodup)
      (hk : ∀ a, k a = k new → WorkerTables.Conflict a new) : ((s.tables.actions ++ [new]).map k).Nodup := by
    rw [List.map_append, List.map_singleton, ← List.concat_eq_append]
    refine hu.concat fun hm => ?_
    obtain ⟨a, ha, he⟩ := List.mem_map.mp hm
    exact hc ⟨a, ha, hk a he⟩
  have hold : ∀ a ∈ s.tables.actions, a ∈ s.tables.actions ++ [new] := fun a ha => List.mem_append_left _ ha
  have hstage {guid : String} {stage : WorkerStage} (hh : HasStage s.tables guid stage (· = .succeeded)) :
      ∃ a ∈ s.tables.actions ++ [new], a.guid = guid ∧ a.stage = stage ∧ a.status = .succeeded := by
    obtain ⟨a, ha, hs⟩ := hh
    exact ⟨a, hold a ha, hs⟩
  refine ⟨⟨h.packets, h.guids, hkey h.ids fun a he => .inl he,
    hkey h.stages fun a he => .inr (.inl (Prod.mk.inj he)), hkey h.nonces fun a he => .inr (.inr (Prod.mk.inj he)),
    ?_, ?_, ?_, ?_, fun r hr hd stage => hstage (h.delivered r hr hd stage)⟩,
    .of_subset (List.subset_append_left _ _)⟩
  · intro a ha
    rcases List.mem_append.mp ha with ha | ha
    · exact h.raws a ha
    · rw [List.mem_singleton.mp ha]
      exact .inl ⟨rfl, rfl⟩
  · intro a ha
    rcases List.mem_append.mp ha with ha | ha
    · exact h.destined a ha
    · rw [List.mem_singleton.mp ha]
      exact hd
  · intro a ha stage' hlt
    rcases List.mem_append.mp ha with ha | ha
    · obtain ⟨b, hb, hbs⟩ := h.order a ha stage' hlt
      exact ⟨b, hold b hb, hbs⟩
    · obtain rfl := List.mem_singleton.mp ha
      obtain ⟨b, hb, hbg, hbs, -⟩ := ho stage' hlt
      refine ⟨b, hold b hb, hbg, hbs, ?_⟩
      -- The packets of both go to one chain.
      have hch : b.destinationChainID = chainID := h.destined_unique (hbg ▸ h.destined b hb) hd
      show b.nonce < s.tables.nextNonce chainID nonce
      rw [← hch]
      exact WorkerTables.lt_nextNonce hb nonce
  · intro b hb
    obtain ⟨a, ha, hs⟩ := h.broadcasts b hb
    exact ⟨a, hold a ha, hs⟩

theorem WorkerLedger.observePacket [Unicode] (h : WorkerLedger w s) {packet : LayerZeroPacket} {block : Nat}
    {hash : String} {index : Nat} (hd : decodePacket packet.encoded = .ok packet) :
    WorkerLedger w ⟨s.tables.observePacket packet block hash index, s.broadcasts⟩ ∧
      ActionsGrow s.tables (s.tables.observePacket packet block hash index) := by
  rw [WorkerTables.observePacket]
  split
  · exact ⟨h, .refl _⟩
  · next hc =>
    set new := WorkerTables.packetRow packet block hash index with hnew
    refine ⟨⟨?_, ?_, h.ids, h.stages, h.nonces, h.raws, ?_, h.order, h.broadcasts, ?_⟩, .refl _⟩
    · intro r hr
      rcases List.mem_append.mp hr with hr | hr
      · exact h.packets r hr
      · rw [List.mem_singleton.mp hr]
        exact ⟨packet, hd, rfl, rfl⟩
    · rw [List.map_append, List.map_singleton, ← List.concat_eq_append]
      refine h.guids.concat fun hm => ?_
      obtain ⟨r, hr, he⟩ := List.mem_map.mp hm
      exact hc ⟨r, hr, .inl he⟩
    · intro a ha
      obtain ⟨r, hr, hs⟩ := h.destined a ha
      exact ⟨r, List.mem_append_left _ hr, hs⟩
    · intro r hr hs stage
      rcases List.mem_append.mp hr with hr | hr
      · exact h.delivered r hr hs stage
      · rw [List.mem_singleton.mp hr] at hs
        cases hs

theorem WorkerLedger.markDelivered (h : WorkerLedger w s) {guid : String}
    (hs : ∀ stage, HasStage s.tables guid stage (· = .succeeded)) :
    WorkerLedger w ⟨s.tables.markDelivered guid, s.broadcasts⟩ := by
  have hrow : ∀ r' ∈ (s.tables.markDelivered guid).packets, ∃ r ∈ s.tables.packets, r.guid = r'.guid ∧
      r.encodedPacketHex = r'.encodedPacketHex ∧ (r'.status = r.status ∨ r.guid = guid) := by
    intro r' hr'
    obtain ⟨r, hr, rfl⟩ := Table.mem_update.mp hr'
    refine ⟨r, hr, ?_⟩
    split
    · exact ⟨rfl, rfl, .inr ‹_›⟩
    · exact ⟨rfl, rfl, .inl rfl⟩
  refine ⟨?_, ?_, h.ids, h.stages, h.nonces, h.raws, ?_, h.order, h.broadcasts, ?_⟩
  · intro r' hr'
    obtain ⟨r, hr, hg, he, -⟩ := hrow r' hr'
    obtain ⟨packet, hd, he', hg'⟩ := h.packets r hr
    exact ⟨packet, hd, he.symm.trans he', hg.symm.trans hg'⟩
  · have hg : (s.tables.markDelivered guid).packets.map PacketRow.guid = s.tables.packets.map PacketRow.guid :=
      Table.map_update fun _ _ _ => rfl
    rw [hg]
    exact h.guids
  · intro a ha
    obtain ⟨r, hr, hg, packet, hp, hc⟩ := h.destined a ha
    refine ⟨_, Table.mem_update.mpr ⟨r, hr, rfl⟩, ?_⟩
    split <;> exact ⟨hg, packet, hp, hc⟩
  · intro r' hr' hd stage
    obtain ⟨r, hr, hg, -, hst⟩ := hrow r' hr'
    rcases hst with hst | hst
    · obtain ⟨a, ha, h⟩ := h.delivered r hr (hst.symm.trans hd) stage
      exact ⟨a, ha, hg ▸ h⟩
    · obtain ⟨a, ha, h⟩ := hs stage
      exact ⟨a, ha, (hg.symm.trans hst).symm ▸ h⟩

/-- What an operation does that may be asked. -/
theorem WorkerLedger.step [Unicode] {nodes : PacketLogs} {op : WorkerOp} {r : Except WorkerError op.Value}
    (h : WorkerLedger w s) (needs : ActionNeeds w op s) (hs : WorkerStep nodes op s r t) :
    WorkerLedger w t ∧ ActionsGrow s.tables t.tables := by
  have sent {t : WorkerTables} (h' : WorkerLedger w ⟨t, s.broadcasts⟩) (hsent : op.sent = []) :
      WorkerLedger w ⟨t, s.broadcasts ++ op.sent⟩ := by rwa [hsent, List.append_nil]
  have broadcast {eid : Nat} {actionID : String} {raw : GoBytes} (hb : ∃ a ∈ s.tables.actions, a.actionID = actionID ∧
      a.rawTransactionHex = some (hex0x raw)) : WorkerLedger w ⟨s.tables, s.broadcasts ++ [⟨eid, actionID, raw⟩]⟩ := by
    refine ⟨h.packets, h.guids, h.ids, h.stages, h.nonces, h.raws, h.destined, h.order, fun b hb' => ?_, h.delivered⟩
    rcases List.mem_append.mp hb' with hb' | hb'
    · exact h.broadcasts b hb'
    · rw [List.mem_singleton.mp hb']
      exact hb
  cases hs with
  | raise =>
    refine ⟨?_, .refl _⟩
    cases op with
    | sendRawTransaction => exact broadcast needs
    | _ => exact sent h rfl
  | answer effect honest =>
    cases effect with
    | sendRawTransaction => exact ⟨broadcast needs, .refl _⟩
    | observePacket =>
      obtain ⟨h, hg⟩ := h.observePacket needs
      exact ⟨sent h rfl, hg⟩
    | intendAction hi =>
      obtain ⟨h, hg⟩ := h.intendAction hi needs.1 needs.2
      exact ⟨sent h rfl, hg⟩
    | markDelivered => exact ⟨sent (h.markDelivered needs) rfl, .refl _⟩
    | recordSigned actionID raw hash =>
      obtain ⟨h, hg⟩ := h.rewrite (p := fun a => a.actionID = actionID ∧ a.status = WorkerStatus.intended)
        (f := fun a => { a with
          rawTransactionHex := some (hex0x raw), transactionHash := some (toLower hash), status := .signed })
        fun a ha ⟨_, hi⟩ => by
          rcases h.raws a ha with ⟨-, hr⟩ | ⟨hn, -⟩
          · refine ⟨⟨rfl, fun hne => absurd hr hne, fun ht => ?_⟩, .inr ⟨WorkerStatus.noConfusion, raw, rfl⟩⟩
            rcases ht with ht | ht <;> rw [hi] at ht <;> cases ht
          · exact absurd hi hn
      exact ⟨sent h rfl, hg⟩
    | observeAction actionID state details =>
      obtain ⟨hne, hst⟩ := needs
      obtain ⟨h, hg⟩ := h.rewrite (p := fun a => a.actionID = actionID) (f := fun a => { a with status := state })
        fun a ha hid => by
          have hst := hst a ha hid
          refine ⟨⟨rfl, fun _ => ⟨rfl, rfl⟩, fun ht => ?_⟩, .inr ⟨hne, ?_⟩⟩
          · rcases ht with ht | ht <;> rcases hst with hst | hst <;> rw [ht] at hst <;> cases hst
          · rcases h.raws a ha with ⟨hi, -⟩ | ⟨-, hr⟩
            · rcases hst with hst | hst <;> rw [hi] at hst <;> cases hst
            · exact hr
      exact ⟨sent h rfl, hg⟩
    | advanceCursor =>
      exact ⟨sent ⟨h.packets, h.guids, h.ids, h.stages, h.nonces, h.raws, h.destined, h.order,
        h.broadcasts, h.delivered⟩
        rfl, .refl _⟩
    | cursor | readyPackets | action | time | blockNumber | getLogs | transactionCount | gasPrice | transactionReceipt
    | writeText | readBytes => exact ⟨sent h rfl, .refl _⟩

end

/-! ## Cycles -/

section

variable [Unicode] [Digests]

/-- No packet that a cycle takes up has an action that has failed. -/
def LayerZeroWorker.NoneFailed (w : LayerZeroWorker) : ∀ op : WorkerOp, WorkerWorld → Except WorkerError op.Value → Prop
  | .readyPackets _ _, s, .ok rows => ∀ r ∈ rows.take w.batchPackets, ∀ a ∈ s.tables.actions, a.guid = r.guid →
      a.status ≠ .failed
  | _, _, _ => True

/-- A step in which `process` takes up no packet with an action that has failed. -/
def FitStep (w : LayerZeroWorker) (nodes : PacketLogs) (op : WorkerOp) (s : WorkerWorld)
    (r : Except WorkerError op.Value) (t : WorkerWorld) : Prop :=
  WorkerStep nodes op s r t ∧ w.NoneFailed op s r

/-- Such a step, after which the ledger is in order. -/
def LedgerStep (w : LayerZeroWorker) (nodes : PacketLogs) (op : WorkerOp) (s : WorkerWorld)
    (r : Except WorkerError op.Value) (t : WorkerWorld) : Prop :=
  FitStep w nodes op s r t ∧ WorkerLedger w t

/-- While the packets of a cycle are submitted: the packets, the `guid`s that are taken up, the stages that are done,
and what is to be finalized. -/
structure Submitting (w : LayerZeroWorker) (packets : List PacketRow) (guids : List String)
    (stages : List (String × WorkerStage)) (pending : List LayerZeroWorker.Pending) (s : WorkerWorld) : Prop where
  ledger : WorkerLedger w s
  packets : s.tables.packets = packets
  clean : ∀ a ∈ s.tables.actions, a.guid ∈ guids → a.status ≠ .failed
  started : ∀ k ∈ stages, HasStage s.tables k.1 k.2 fun _ => True
  nodup : (pending.map LayerZeroWorker.Pending.actionID).Nodup
  submitted : ∀ x ∈ pending, ∃ a ∈ s.tables.actions, a.actionID = x.actionID ∧ a.status = .submitted ∧
    (a.guid, a.stage) ∈ stages

variable {w : LayerZeroWorker} {nodes : PacketLogs} {packets : List PacketRow} {guids : List String}
  {stages : List (String × WorkerStage)} {pending : List LayerZeroWorker.Pending} {s t : WorkerWorld} {a : WorkerAction}

omit [Unicode] in
/-- What a change of rows has to keep. -/
theorem Submitting.of_rows (h : Submitting w packets guids stages pending s) (hl : WorkerLedger w t)
    (hp : t.tables.packets = s.tables.packets)
    (hkeep : ∀ a ∈ s.tables.actions, ∃ b ∈ t.tables.actions, b.actionID = a.actionID ∧ b.guid = a.guid ∧
      b.stage = a.stage ∧ (a.status = .submitted → b.status = .submitted))
    (hclean : ∀ b ∈ t.tables.actions, b.guid ∈ guids → b.status ≠ .failed) :
    Submitting w packets guids stages pending t := by
  refine ⟨hl, hp.trans h.packets, hclean, fun k hk => ?_, h.nodup, fun x hx => ?_⟩
  · obtain ⟨a, ha, hg, hst, -⟩ := h.started k hk
    obtain ⟨b, hb, -, hbg, hbs, -⟩ := hkeep a ha
    exact ⟨b, hb, hbg.trans hg, hbs.trans hst, trivial⟩
  · obtain ⟨a, ha, hid, hs, hk⟩ := h.submitted x hx
    obtain ⟨b, hb, hbi, hbg, hbs, hst⟩ := hkeep a ha
    exact ⟨b, hb, hbi.trans hid, hst hs, by rwa [hbg, hbs]⟩

omit [Unicode] in
theorem Submitting.same (h : Submitting w packets guids stages pending s) (hl : WorkerLedger w t)
    (ht : t.tables = s.tables) : Submitting w packets guids stages pending t :=
  h.of_rows hl (by rw [ht]) (fun a ha => ⟨a, ht ▸ ha, rfl, rfl, rfl, id⟩) (ht ▸ h.clean)

omit [Unicode] in
/-- A row that is rewritten to a state other than `failed`, unless it is submitted. -/
theorem Submitting.update (h : Submitting w packets guids stages pending s) {p : WorkerAction → Prop} [DecidablePred p]
    {f : WorkerAction → WorkerAction} (hl : WorkerLedger w t) (hp : t.tables.packets = s.tables.packets)
    (ht : t.tables.actions = Table.update p f s.tables.actions)
    (hf : ∀ a, p a → (f a).actionID = a.actionID ∧ (f a).guid = a.guid ∧ (f a).stage = a.stage ∧
      (a.status = .submitted → (f a).status = .submitted) ∧ (f a).status ≠ .failed) :
    Submitting w packets guids stages pending t := by
  refine h.of_rows hl hp (fun a ha => ?_) fun b hb hg => ?_
  · refine ⟨_, ht ▸ Table.mem_update.mpr ⟨a, ha, rfl⟩, ?_⟩
    split
    · obtain ⟨hi, hg, hst, hs, -⟩ := hf a ‹_›
      exact ⟨hi, hg, hst, hs⟩
    · exact ⟨rfl, rfl, rfl, id⟩
  · rw [ht] at hb
    obtain ⟨a, ha, rfl⟩ := Table.mem_update.mp hb
    split
    · exact (hf a ‹_›).2.2.2.2
    · next hn =>
      rw [if_neg hn] at hg
      exact h.clean a ha hg

namespace LayerZeroWorker

variable [WorkerLibraries]

/-- The row, as it is when it has the raw transaction. -/
def Signed (a : WorkerAction) (raw : GoBytes) (s : WorkerWorld) : Prop :=
  ∃ b ∈ s.tables.actions, b.actionID = a.actionID ∧ b.guid = a.guid ∧ b.stage = a.stage ∧
    b.rawTransactionHex = some (hex0x raw) ∧ (b.status = .signed ∨ b.status = .submitted)

theorem signedTransaction_safe (h : Submitting w packets guids stages pending s) (ha : a ∈ s.tables.actions)
    (hg : a.guid ∈ guids) (hs : a.status ≠ .succeeded) (chain : WorkerChain) (target : String) (data : GoBytes) :
    (w.signedTransaction a chain target data).Safe (LedgerStep w nodes) (ActionNeeds w)
      (fun r t => Submitting w packets guids stages pending t ∧ Signed a r.1 t) s := by
  rw [signedTransaction]
  split
  · next rawHex hr =>
    refine .ofExcept_bind fun raw hraw => .done ⟨h, a, ha, rfl, rfl, rfl, ?_, ?_⟩
    · rcases h.ledger.raws a ha with ⟨-, hn⟩ | ⟨-, raw', hr'⟩
      · rw [hr] at hn
        cases hn
      · obtain rfl := Option.some.inj (hr.symm.trans hr')
        rw [fromHex0x_hex0x] at hraw
        rw [hr, Except.ok.inj hraw]
    · rcases h.ledger.raws a ha with ⟨-, hn⟩ | ⟨hn, -⟩
      · rw [hr] at hn
        cases hn
      · have hf := h.clean a ha hg
        cases hst : a.status with
        | signed => exact .inl rfl
        | submitted => exact .inr rfl
        | intended => exact absurd hst hn
        | succeeded => exact absurd hst hs
        | failed => exact absurd hst hf
  · next hr =>
    have hi : a.status = .intended := by
      rcases h.ledger.raws a ha with ⟨hi, -⟩ | ⟨-, raw, hr'⟩
      · exact hi
      · rw [hr] at hr'
        cases hr'
    refine .call_bind trivial fun price u hst => ?_
    obtain ⟨⟨hst, -⟩, hu⟩ := hst
    cases hst with
    | answer effect honest =>
      cases effect with
      | gasPrice =>
        refine .ofExcept_bind fun r hsign => .call_bind trivial fun _ v hst => ?_
        obtain ⟨⟨hst, -⟩, hv⟩ := hst
        cases hst with
        | answer effect honest =>
          cases effect with
          | recordSigned =>
            refine .done ⟨(h.same hu rfl).update hv rfl rfl fun b hb => ?_, ?_⟩
            · refine ⟨rfl, rfl, rfl, fun hsub => ?_, WorkerStatus.noConfusion⟩
              rw [hb.2] at hsub
              cases hsub
            · refine ⟨_, Table.mem_update.mpr ⟨a, ha, rfl⟩, ?_⟩
              rw [if_pos ⟨rfl, hi⟩]
              exact ⟨rfl, rfl, rfl, rfl, .inl rfl⟩

theorem driveStage_safe (h : Submitting w packets guids stages pending s) (ha : a ∈ s.tables.actions)
    (hg : a.guid ∈ guids) (hs : a.status ≠ .succeeded) (hn : (a.guid, a.stage) ∉ stages) (stage : WorkerStage)
    (chain : WorkerChain) (target : String) :
    (w.driveStage a stage chain target).Safe (LedgerStep w nodes) (ActionNeeds w)
      (fun r t => Submitting w packets guids (stages ++ [(a.guid, a.stage)]) (pending ++ r.toList) t) s := by
  refine .ofExcept_bind fun data _ => .bind (signedTransaction_safe h ha hg hs chain target data) ?_
  intro ⟨raw, hash⟩ t ⟨ht, b, hb, hbi, hbg, hbs, hbr, hst⟩
  refine .ofExcept_bind fun _ _ => .bind (Q := fun _ u => Submitting w packets guids stages pending u ∧
    u.tables = t.tables) ?_ fun _ u ⟨hu, htab⟩ => ?_
  · refine .op ⟨b, hb, hbi, hbr⟩ fun r u ⟨⟨hst, _⟩, hu⟩ => ?_
    have htab : u.tables = t.tables := by
      cases hst with
      | raise => rfl
      | answer effect _ =>
        cases effect
        rfl
    have hdone := ht.same hu htab
    cases r with
    | ok => exact .done ⟨hdone, htab⟩
    | error e =>
      dsimp only
      split
      · exact .done ⟨hdone, htab⟩
      · exact .fail u e
  · have hb' : b ∈ u.tables.actions := htab ▸ hb
    have hneeds : ∀ c ∈ u.tables.actions, c.actionID = a.actionID → c.status = .signed ∨ c.status = .submitted := by
      intro c hc hid
      rw [hu.ledger.eq_of_id hc hb' (hid.trans hbi.symm)]
      exact hst
    refine .call_bind ⟨WorkerStatus.noConfusion, hneeds⟩ fun _ v hst => ?_
    obtain ⟨⟨hst, -⟩, hv⟩ := hst
    cases hst with
    | answer effect honest =>
      cases effect with
      | observeAction =>
        have hup : Submitting w packets guids stages pending _ := hu.update hv rfl rfl fun c _ =>
          ⟨rfl, rfl, rfl, fun _ => rfl, WorkerStatus.noConfusion⟩
        have hnew : ∃ c ∈ (u.tables.observeAction a.actionID .submitted [("transaction_hash", .string hash)]).actions,
            c.actionID = a.actionID ∧ c.guid = a.guid ∧ c.stage = a.stage ∧ c.status = .submitted := by
          refine ⟨_, Table.mem_update.mpr ⟨b, hb', rfl⟩, ?_⟩
          rw [if_pos hbi]
          exact ⟨hbi, hbg, hbs, rfl⟩
        obtain ⟨c, hc, hci, hcg, hcs, hcst⟩ := hnew
        refine .done ⟨hv, hup.packets, hup.clean, fun k hk => ?_, ?_, fun x hx => ?_⟩
        · rcases List.mem_append.mp hk with hk | hk
          · exact hup.started k hk
          · rw [List.mem_singleton.mp hk]
            exact ⟨c, hc, hcg, hcs, trivial⟩
        · rw [Option.toList_some, List.map_append, List.map_singleton, ← List.concat_eq_append]
          -- What is pending is of stages that were done before.
          refine hu.nodup.concat fun hm => ?_
          obtain ⟨x, hx, hxi⟩ := List.mem_map.mp hm
          obtain ⟨d, hd, hdi, -, hdk⟩ := hu.submitted x hx
          obtain rfl := hu.ledger.eq_of_id hd hb' (hdi.trans (hxi.trans hbi.symm))
          rw [hbg, hbs] at hdk
          exact hn hdk
        · rcases List.mem_append.mp hx with hx | hx
          · obtain ⟨d, hd, hdi, hds, hdk⟩ := hup.submitted x hx
            exact ⟨d, hd, hdi, hds, List.mem_append_left _ hdk⟩
          · rw [Option.toList_some, List.mem_singleton] at hx
            rw [hx]
            exact ⟨c, hc, hci, hcst, List.mem_append_right _ (by rw [hcg, hcs]; exact List.mem_singleton_self _)⟩

omit [Unicode] [Digests] [WorkerLibraries] in
/-- A row that is read is one of its packet and its stage. -/
theorem action_eq_some {s : WorkerTables} {guid : String} {stage : WorkerStage} (h : s.action guid stage = some a) :
    a ∈ s.actions ∧ a.guid = guid ∧ a.stage = stage := by
  have hf := List.find?_some h
  exact ⟨List.mem_of_find?_eq_some h, of_decide_eq_true hf⟩

theorem submitStage_safe (h : Submitting w packets guids stages pending s) {guid : String} {stage : WorkerStage}
    (hg : guid ∈ guids) (hn : (guid, stage) ∉ stages) {chain : WorkerChain}
    (hd : Destined w s.tables guid chain.chainID)
    (hlow : ∀ stage' : WorkerStage, stage'.index < stage.index → (guid, stage') ∈ stages) (target : String)
    (data : GoBytes) :
    (w.submitStage guid stage chain target data).Safe (LedgerStep w nodes) (ActionNeeds w)
      (fun r t => Submitting w packets guids (stages ++ [(guid, stage)]) (pending ++ r.toList) t) s := by
  refine .call_bind trivial fun found t hst => ?_
  obtain ⟨⟨hst, -⟩, ht⟩ := hst
  cases hst with
  | answer effect honest =>
    cases effect with
    | action =>
      have h := h.same ht rfl
      cases hfound : s.tables.action guid stage with
      | some a =>
        obtain ⟨ha, rfl, rfl⟩ := action_eq_some hfound
        dsimp only
        split
        · refine .done ⟨h.ledger, h.packets, h.clean, fun k hk => ?_, ?_, fun x hx => ?_⟩
          · rcases List.mem_append.mp hk with hk | hk
            · exact h.started k hk
            · rw [List.mem_singleton.mp hk]
              exact ⟨a, ha, rfl, rfl, trivial⟩
          · rw [Option.toList_none, List.append_nil]
            exact h.nodup
          · rw [Option.toList_none, List.append_nil] at hx
            obtain ⟨b, hb, hbi, hbs, hbk⟩ := h.submitted x hx
            exact ⟨b, hb, hbi, hbs, List.mem_append_left _ hbk⟩
        · exact driveStage_safe h ha hg ‹_› hn a.stage chain target
      | none =>
        refine .call_bind trivial fun nonce u hst => ?_
        obtain ⟨⟨hst, -⟩, hu⟩ := hst
        cases hst with
        | answer effect honest =>
          cases effect with
          | transactionCount =>
            have h := h.same hu rfl
            refine .call_bind ⟨hd, fun stage' hlt => h.started _ (hlow stage' hlt)⟩ fun row v hst => ?_
            obtain ⟨⟨hst, -⟩, hv⟩ := hst
            cases hst with
            | answer effect honest =>
              cases effect with
              | intendAction hi =>
                obtain ⟨hc, hi⟩ := revertIf_bind.mp hi
                obtain ⟨rfl, rfl⟩ := Prod.mk.inj (pure_eq_ok.mp hi)
                set new := s.tables.intendedRow guid stage chain.chainID nonce target data
                have hold : ∀ a ∈ s.tables.actions, a ∈ s.tables.actions ++ [new] :=
                  fun a ha => List.mem_append_left _ ha
                have h' : Submitting w packets guids stages pending _ :=
                  h.of_rows hv rfl (fun a ha => ⟨a, hold a ha, rfl, rfl, rfl, id⟩) fun b hb hg => by
                    rcases List.mem_append.mp hb with hb | hb
                    · exact h.clean b hb hg
                    · rw [List.mem_singleton.mp hb]
                      exact WorkerStatus.noConfusion
                have hmem : new ∈ s.tables.actions ++ [new] := List.mem_append_right _ (List.mem_singleton_self _)
                exact driveStage_safe h' hmem hg WorkerStatus.noConfusion hn stage chain target

/-- The stages of a packet, from some stage on. -/
theorem submitStages_safe {guid : String} (hg : guid ∈ guids) {chain : WorkerChain}
    (calls : List (WorkerStage × String × GoBytes)) (h : Submitting w packets guids stages pending s)
    (hd : Destined w s.tables guid chain.chainID) (hn : ∀ c ∈ calls, (guid, c.1) ∉ stages)
    (hord : (calls.map Prod.fst).Pairwise fun a b => a.index < b.index)
    (hlow : ∀ c ∈ calls, ∀ stage : WorkerStage, stage.index < c.1.index →
      (guid, stage) ∈ stages ∨ stage ∈ calls.map Prod.fst) :
    (w.submitStages guid chain calls).Safe (LedgerStep w nodes) (ActionNeeds w)
      (fun r t => ∃ stages', Submitting w packets guids (stages ++ stages') (pending ++ r) t ∧
        ∀ k ∈ stages', k.1 = guid) s := by
  induction calls generalizing stages pending s with
  | nil => exact .done ⟨[], by simpa using h, by simp⟩
  | cons call calls ih =>
    obtain ⟨stage, target, data⟩ := call
    obtain ⟨hn, hns⟩ := List.forall_mem_cons.mp hn
    obtain ⟨hlt, hord⟩ := List.pairwise_cons.mp hord
    have hlow' : ∀ stage' : WorkerStage, stage'.index < stage.index → (guid, stage') ∈ stages := by
      intro stage' hs
      rcases hlow _ List.mem_cons_self stage' hs with hm | hm
      · exact hm
      · rcases List.mem_cons.mp hm with rfl | hm
        · exact absurd hs (lt_irrefl _)
        · exact absurd hs (hlt stage' hm).asymm
    refine .bind (submitStage_safe h hg hn hd hlow' target data) fun r t ht => ?_
    have hd' : Destined w t.tables guid chain.chainID := by
      rw [Destined, ht.packets, ← h.packets]
      exact hd
    refine .bind (ih ht hd' (fun c hc hm => ?_) hord fun c hc stage' hs => ?_) fun rs u ⟨stages', hu, hk⟩ => ?_
    · rcases List.mem_append.mp hm with hm | hm
      · exact hns c hc hm
      · have he : c.1 = stage := (Prod.mk.inj (List.mem_singleton.mp hm)).2
        have hl : stage.index < c.1.index := hlt c.1 (List.mem_map_of_mem hc)
        rw [he] at hl
        exact lt_irrefl _ hl
    · rcases hlow c (List.mem_cons_of_mem _ hc) stage' hs with hm | hm
      · exact .inl (List.mem_append_left _ hm)
      · rcases List.mem_cons.mp hm with rfl | hm
        · exact .inl (List.mem_append_right _ (List.mem_singleton_self _))
        · exact .inr hm
    · refine .done ⟨(guid, stage) :: stages', ?_, List.forall_mem_cons.mpr ⟨rfl, hk⟩⟩
      simpa only [List.append_assoc, List.singleton_append] using hu

omit [Unicode] in
/-- The calls of a packet are those of the stages, in their order. -/
theorem stageCalls_stages {packet : LayerZeroPacket} {destination : WorkerChain} {expiration : Int}
    {calls : List (WorkerStage × String × GoBytes)} (h : w.stageCalls packet destination expiration = .ok calls) :
    calls.map Prod.fst = STAGES := by
  obtain ⟨instruction, -, h⟩ := mapError_bind.mp h
  obtain ⟨execute, -, h⟩ := mapError_bind.mp h
  obtain ⟨commit, -, h⟩ := mapError_bind.mp h
  obtain ⟨submission, -, h⟩ := mapError_bind.mp h
  rw [← pure_eq_ok.mp h]
  rfl

theorem submitPackets_safe (rows : List PacketRow) (h : Submitting w packets guids stages pending s)
    (hrows : ∀ r ∈ rows, r ∈ packets ∧ r.guid ∈ guids) (hdis : (rows.map PacketRow.guid).Nodup)
    (hnew : ∀ r ∈ rows, ∀ k ∈ stages, k.1 ≠ r.guid) :
    (w.submitPackets rows).Safe (LedgerStep w nodes) (ActionNeeds w)
      (fun r t => ∃ stages', Submitting w packets guids stages' (pending ++ r.1) t) s := by
  induction rows generalizing stages pending s with
  | nil => exact .done ⟨stages, by simpa using h⟩
  | cons row rows ih =>
    obtain ⟨⟨hrow, hguid⟩, hrows⟩ := List.forall_mem_cons.mp hrows
    obtain ⟨hnew, hnews⟩ := List.forall_mem_cons.mp hnew
    obtain ⟨hdi, hdis⟩ := List.nodup_cons.mp hdis
    refine .ofExcept_bind fun encoded he => .ofExcept_bind fun packet hp => .ofExcept_bind fun chain hc => ?_
    obtain ⟨packet', hd', he', hg'⟩ := h.ledger.packets row (h.packets ▸ hrow)
    rw [he', fromHex0x_hex0x] at he
    obtain rfl := Except.ok.inj he
    obtain rfl := Except.ok.inj (hd'.symm.trans (mapError_eq_ok.mp hp))
    have hdest : Destined w s.tables row.guid chain.chainID :=
      ⟨row, h.packets ▸ hrow, rfl, packet', ⟨hd', he', hg'⟩, chain, hc, rfl⟩
    refine .call_bind trivial fun now t hst => ?_
    obtain ⟨⟨hst, -⟩, ht⟩ := hst
    cases hst with
    | answer effect honest =>
      cases effect with
      | time =>
        have h := h.same ht rfl
        refine .ofExcept_bind fun calls hcalls => ?_
        have hstages := stageCalls_stages hcalls
        rw [← hg']
        refine .bind (submitStages_safe hguid calls h hdest (fun c _ hm => hnew _ hm rfl) ?_ fun c hc stage _ => ?_) ?_
        · rw [hstages]
          decide
        · rw [hstages]
          cases stage <;> exact .inr (by decide)
        · intro submitted u ⟨stages', hu, hk⟩
          refine .bind (ih hu hrows hdis fun r hr k hm => ?_) fun ⟨rest, guids'⟩ v ⟨stages₂, hv⟩ => ?_
          · rcases List.mem_append.mp hm with hm | hm
            · exact hnews r hr k hm
            · rw [hk k hm]
              exact fun he => hdi (he ▸ List.mem_map_of_mem hr)
          · exact .done ⟨stages₂, by simpa only [List.append_assoc] using hv⟩

/-! ### Finalization -/

/-- What is to be finalized is submitted, each once. -/
structure Finalizing (w : LayerZeroWorker) (pending : List Pending) (s : WorkerWorld) : Prop where
  ledger : WorkerLedger w s
  nodup : (pending.map Pending.actionID).Nodup
  submitted : ∀ x ∈ pending, ∃ a ∈ s.tables.actions, a.actionID = x.actionID ∧ a.status = .submitted

omit [Unicode] [WorkerLibraries] in
theorem Finalizing.same (h : Finalizing w pending s) (hl : WorkerLedger w t) (ht : t.tables = s.tables) :
    Finalizing w pending t := ⟨hl, h.nodup, ht ▸ h.submitted⟩

omit [WorkerLibraries] in
theorem finalizeStage_safe {x : Pending} (h : Finalizing w (x :: pending) s) :
    (w.finalizeStage x).Safe (LedgerStep w nodes) (ActionNeeds w) (fun _ t => Finalizing w pending t) s := by
  obtain ⟨⟨a, ha, hai, has⟩, hsub⟩ := List.forall_mem_cons.mp h.submitted
  obtain ⟨hx, hnodup⟩ := List.nodup_cons.mp h.nodup
  have needs {state : WorkerStatus} (hs : state ≠ .intended) {t : WorkerWorld} (ht : Finalizing w (x :: pending) t)
      (htab : t.tables = s.tables) : state ≠ .intended ∧ ∀ b ∈ t.tables.actions, b.actionID = x.actionID →
        b.status = .signed ∨ b.status = .submitted := by
    refine ⟨hs, fun b hb hid => .inr ?_⟩
    rw [ht.ledger.eq_of_id hb (htab ▸ ha) (hid.trans hai.symm)]
    exact has
  refine .call_bind trivial fun receipt t hst => ?_
  obtain ⟨⟨hst, -⟩, ht⟩ := hst
  cases hst with
  | answer effect honest =>
    cases effect with
    | transactionReceipt =>
      have h := h.same ht rfl
      refine .call_bind trivial fun _ u hst => ?_
      obtain ⟨⟨hst, -⟩, hu⟩ := hst
      cases hst with
      | answer effect honest =>
        cases effect with
        | writeText =>
          have h := h.same hu rfl
          dsimp only
          split
          · exact .call_bind (needs WorkerStatus.noConfusion h rfl) fun _ v _ => .fail v _
          · split
            · exact .call_bind (needs WorkerStatus.noConfusion h rfl) fun _ v _ => .fail v _
            · refine .call_bind trivial fun contents v hst => ?_
              obtain ⟨⟨hst, -⟩, hv⟩ := hst
              cases hst with
              | answer effect honest =>
                cases effect with
                | readBytes =>
                  have h := h.same hv rfl
                  have hs : WorkerStatus.succeeded ≠ .intended := WorkerStatus.noConfusion
                  refine .op (needs hs h rfl) fun r y ⟨⟨hst, _⟩, hy⟩ => .ofExcept fun _ hr => ?_
                  cases hst with
                  | raise => cases hr
                  | answer effect honest =>
                    cases effect with
                    | observeAction =>
                      refine ⟨hy, hnodup, fun z hz => ?_⟩
                      obtain ⟨b, hb, hbi, hbs⟩ := hsub z hz
                      have hne : b.actionID ≠ x.actionID := fun he =>
                        hx (List.mem_map.mpr ⟨z, hz, hbi.symm.trans he⟩)
                      exact ⟨b, Table.mem_update.mpr ⟨b, hb, if_neg hne⟩, hbi, hbs⟩

omit [WorkerLibraries] in
theorem finalizeStages_safe (h : Finalizing w pending s) :
    (w.finalizeStages pending).Safe (LedgerStep w nodes) (ActionNeeds w) (fun _ _ => True) s := by
  induction pending generalizing s with
  | nil => exact .done trivial
  | cons x pending ih => exact .bind (finalizeStage_safe h) fun _ t ht => ih ht

omit [WorkerLibraries] in
/-- The rows of the stages of a packet, which are read one after the other. -/
theorem stageActions_safe (guid : String) (stages : List WorkerStage) :
    (stageActions guid stages).Safe (LedgerStep w nodes) (ActionNeeds w)
      (fun r t => t.tables = s.tables ∧ r = stages.map fun stage => s.tables.action guid stage) s := by
  induction stages generalizing s with
  | nil => exact .done ⟨rfl, rfl⟩
  | cons stage stages ih =>
    refine .call_bind trivial fun found t hst => ?_
    obtain ⟨⟨hst, -⟩, -⟩ := hst
    cases hst with
    | answer effect honest =>
      cases effect with
      | action =>
        refine .bind ih fun rest u ⟨hu, hr⟩ => .done ⟨hu, ?_⟩
        rw [hr]
        rfl

omit [WorkerLibraries] in
theorem markPackets_safe (guids : List String) :
    (markPackets guids).Safe (LedgerStep w nodes) (ActionNeeds w) (fun _ _ => True) s := by
  induction guids generalizing s with
  | nil => exact .done trivial
  | cons guid guids ih =>
    refine .bind (stageActions_safe guid STAGES) fun found t ⟨ht, hf⟩ => ?_
    dsimp only
    split
    · next hall =>
      refine .call_bind (fun stage => ?_) fun _ u _ => ih
      have hm : s.tables.action guid stage ∈ found := by
        rw [hf]
        exact List.mem_map_of_mem (by cases stage <;> decide)
      have hs := List.all_eq_true.mp hall _ hm
      cases ha : s.tables.action guid stage with
      | none =>
        rw [ha] at hs
        cases hs
      | some a =>
        rw [ha] at hs
        obtain ⟨hmem, hg, hst⟩ := action_eq_some ha
        exact ⟨a, ht ▸ hmem, hg, hst, of_decide_eq_true hs⟩
    · exact ih

/-! ### The cycles -/

omit [WorkerLibraries] in
theorem heads_safe (chains : List WorkerChain) (h : WorkerLedger w s) :
    (heads chains).Safe (LedgerStep w nodes) (ActionNeeds w) (fun _ t => WorkerLedger w t) s := by
  induction chains generalizing s with
  | nil => exact .done h
  | cons chain chains ih =>
    exact .call_bind trivial fun head t ht => .bind (ih ht.2) fun _ u hu => .done hu

omit [Digests] [Unicode] [WorkerLibraries] in
/-- The packets that are ready are some of those that there are. -/
theorem readyPackets_sublist {s : WorkerTables} {heads : List (Nat × Nat)} {confirmations : Int} {rows : List PacketRow}
    (h : s.readyPackets heads confirmations = .ok rows) :
    (∀ r ∈ rows, r ∈ s.packets) ∧ ((s.packets.map PacketRow.guid).Nodup → (rows.map PacketRow.guid).Nodup) := by
  obtain ⟨-, h⟩ := revertIf_bind.mp h
  obtain rfl := pure_eq_ok.mp h
  have hperm := List.perm_insertionSort WorkerTables.packetLE (s.packets.filter fun r => r.status ≠ .delivered)
  refine ⟨fun r hr => ?_, fun hn => ?_⟩
  · exact List.mem_of_mem_filter (hperm.mem_iff.mp (List.mem_of_mem_filter hr))
  · have hsub : ((s.packets.filter fun r => r.status ≠ .delivered).map PacketRow.guid).Nodup :=
      hn.sublist (List.filter_sublist.map _)
    exact ((hperm.map _).nodup_iff.mpr hsub).sublist (List.filter_sublist.map _)

theorem process_safe (h : WorkerLedger w s) :
    w.process.Safe (LedgerStep w nodes) (ActionNeeds w) (fun _ _ => True) s := by
  refine .bind (heads_safe _ h) fun heads t ht => .call_bind trivial fun rows u hst => ?_
  obtain ⟨⟨hst, hfit⟩, hu⟩ := hst
  cases hst with
  | answer effect honest =>
    cases effect with
    | readyPackets hready =>
      obtain ⟨hmem, hnodup⟩ := readyPackets_sublist hready
      have hstart : Submitting w t.tables.packets ((rows.take w.batchPackets).map PacketRow.guid) [] [] _ :=
        ⟨hu, rfl, fun a ha hg => by
          obtain ⟨r, hr, he⟩ := List.mem_map.mp hg
          exact hfit r hr a ha he.symm, fun _ hk => absurd hk List.not_mem_nil, List.nodup_nil,
          fun _ hx => absurd hx List.not_mem_nil⟩
      refine .bind (submitPackets_safe (rows.take w.batchPackets) hstart
        (fun r hr => ⟨hmem r (List.mem_of_mem_take hr), List.mem_map_of_mem hr⟩)
        ((hnodup ht.guids).sublist ((List.take_sublist _ _).map _)) fun _ _ _ hk => absurd hk List.not_mem_nil) ?_
      intro ⟨pending, guids⟩ v ⟨stages, hv⟩
      have hfinal : Finalizing w pending v := ⟨hv.ledger, hv.nodup, fun x hx => by
        obtain ⟨a, ha, hi, hs, -⟩ := hv.submitted x hx
        exact ⟨a, ha, hi, hs⟩⟩
      exact .bind (finalizeStages_safe hfinal) fun _ y _ => markPackets_safe guids

omit [Unicode] in
/-- What a log is decoded to is its own encoding. -/
theorem decodePacket_of_log {eid : Nat} {l : PacketSentLog} {p : LayerZeroPacket} (h : packetOfLog w eid l = .ok p) :
    decodePacket p.encoded = .ok p := by
  obtain ⟨encoded, -, h⟩ := mapError_bind.mp h
  obtain ⟨packet, hd, h⟩ := mapError_bind.mp h
  obtain ⟨-, h⟩ := revertIf_bind.mp h
  obtain ⟨-, h⟩ := revertIf_bind.mp h
  obtain rfl := pure_eq_ok.mp h
  obtain ⟨-, hd'⟩ := revertIf_bind.mp hd
  obtain ⟨-, hd'⟩ := revertIf_bind.mp hd'
  obtain ⟨-, -, hd'⟩ := bind_eq_ok.mp hd'
  have he : packet.encoded = encoded := by rw [← pure_eq_ok.mp hd']
  rw [he]
  exact hd

/-- An operation of `collect`, which may be asked anywhere. -/
def CollectAsks (w : LayerZeroWorker) (op : WorkerOp) : Prop :=
  (∀ s, ActionNeeds w op s) ∧ ∀ {heads confirmations}, op ≠ .readyPackets heads confirmations

omit [Unicode] in
theorem observeLogs_asks (eid : Nat) (logs : List PacketSentLog) :
    (w.observeLogs eid logs).Asks (CollectAsks w) := by
  induction logs with
  | nil => exact .done _
  | cons l logs ih =>
    exact .ofExcept_bind fun p hp => .call_bind ⟨fun _ => decodePacket_of_log hp, WorkerOp.noConfusion⟩ fun _ => ih

omit [Unicode] in
theorem collectChunks_asks (chain : WorkerChain) (span : Nat) (hspan : 1 ≤ span) (start head : Nat) :
    (w.collectChunks chain span hspan start head).Asks (CollectAsks w) := by
  induction start using LayerZeroWorker.collectChunks.induct span hspan head with
  | case1 start hle chunkEnd =>
    rename_i ih
    rw [LayerZeroWorker.collectChunks, if_pos hle]
    exact .call_bind ⟨fun _ => trivial, WorkerOp.noConfusion⟩ fun logs => (observeLogs_asks _ _).bind fun _ =>
      .call_bind ⟨fun _ => trivial, WorkerOp.noConfusion⟩ fun _ => ih
  | case2 start hle =>
    rw [LayerZeroWorker.collectChunks, if_neg hle]
    exact .done _

omit [Unicode] in
theorem collectChains_asks (span : Nat) (hspan : 1 ≤ span) (chains : List WorkerChain) :
    (w.collectChains span hspan chains).Asks (CollectAsks w) := by
  induction chains with
  | nil => exact .done _
  | cons chain chains ih =>
    exact .call_bind
      ⟨fun _ => trivial, WorkerOp.noConfusion⟩ fun _ => .call_bind ⟨fun _ => trivial, WorkerOp.noConfusion⟩ fun _ =>
      (collectChunks_asks _ _ _ _ _).bind fun _ => ih

/-- An operation that takes up no packets. -/
def TakesNone (op : WorkerOp) : Prop := ∀ {heads confirmations}, op ≠ .readyPackets heads confirmations

theorem driveStage_takesNone (action : WorkerAction) (stage : WorkerStage) (chain : WorkerChain) (target : String) :
    (w.driveStage action stage chain target).Asks TakesNone := by
  refine .ofExcept_bind fun data _ =>
    .bind ?_ fun x => .ofExcept_bind fun _ _ => .bind (.op WorkerOp.noConfusion ?_) fun _ =>
    .call_bind WorkerOp.noConfusion fun _ => .done _
  · rw [signedTransaction]
    split
    · exact .ofExcept_bind fun _ _ => .done _
    · exact .call_bind
        WorkerOp.noConfusion fun _ => .ofExcept_bind fun _ _ => .call_bind WorkerOp.noConfusion fun _ => .done _
  · intro r
    cases r with
    | ok => exact .done _
    | error e =>
      dsimp only
      split
      · exact .done _
      · exact .fail _

theorem submitStage_takesNone (guid : String) (stage : WorkerStage) (chain : WorkerChain) (target : String)
    (callData : GoBytes) : (w.submitStage guid stage chain target callData).Asks TakesNone := by
  refine .call_bind WorkerOp.noConfusion fun found => ?_
  cases found with
  | none =>
    exact .call_bind WorkerOp.noConfusion fun _ => .call_bind WorkerOp.noConfusion fun _ => driveStage_takesNone ..
  | some action =>
    dsimp only
    split
    · exact .done _
    · exact driveStage_takesNone ..

theorem submitStages_takesNone (guid : String) (chain : WorkerChain) (calls : List (WorkerStage × String × GoBytes)) :
    (w.submitStages guid chain calls).Asks TakesNone := by
  induction calls with
  | nil => exact .done _
  | cons call calls ih => exact .bind (submitStage_takesNone ..) fun _ => .bind ih fun _ => .done _

theorem submitPackets_takesNone (rows : List PacketRow) : (w.submitPackets rows).Asks TakesNone := by
  induction rows with
  | nil => exact .done _
  | cons row rows ih =>
    exact .ofExcept_bind fun _ _ => .ofExcept_bind fun _ _ => .ofExcept_bind fun _ _ =>
      .call_bind WorkerOp.noConfusion fun _ => .ofExcept_bind fun _ _ => .bind (submitStages_takesNone ..) fun _ =>
        .bind ih fun _ => .done _

omit [WorkerLibraries] in
theorem finalizeStage_takesNone (pending : Pending) : (w.finalizeStage pending).Asks TakesNone := by
  refine .call_bind WorkerOp.noConfusion fun receipt => .call_bind WorkerOp.noConfusion fun _ => ?_
  dsimp only
  split
  · exact .call_bind WorkerOp.noConfusion fun _ => .fail _
  · split
    · exact .call_bind WorkerOp.noConfusion fun _ => .fail _
    · exact .call_bind WorkerOp.noConfusion fun _ => .call WorkerOp.noConfusion

omit [WorkerLibraries] in
theorem finalizeStages_takesNone (pending : List Pending) : (w.finalizeStages pending).Asks TakesNone := by
  induction pending with
  | nil => exact .done _
  | cons x rest ih => exact .bind (finalizeStage_takesNone x) fun _ => ih

omit [Unicode] [Digests] [WorkerLibraries] in
theorem stageActions_takesNone (guid : String) (stages : List WorkerStage) :
    (stageActions guid stages).Asks TakesNone := by
  induction stages with
  | nil => exact .done _
  | cons stage stages ih => exact .call_bind WorkerOp.noConfusion fun _ => .bind ih fun _ => .done _

omit [Unicode] [Digests] [WorkerLibraries] in
theorem markPackets_takesNone (guids : List String) : (markPackets guids).Asks TakesNone := by
  induction guids with
  | nil => exact .done _
  | cons guid guids ih =>
    refine .bind (stageActions_takesNone ..) fun stages => ?_
    dsimp only
    split
    · exact .call_bind WorkerOp.noConfusion fun _ => ih
    · exact ih

/-- A cycle, from the packets on that it takes up. -/
theorem processRows_takesNone (rows : List PacketRow) : (w.submitPackets rows >>= fun
    | (pending, packetGUIDs) => w.finalizeStages pending >>= fun _ => markPackets packetGUIDs).Asks TakesNone :=
  .bind (submitPackets_takesNone rows) fun _ => .bind (finalizeStages_takesNone _) fun _ => markPackets_takesNone _

theorem cycle_safe' (c : WorkerCycle) (h : WorkerLedger w s) :
    (w.cycle c).Safe (LedgerStep w nodes) (ActionNeeds w) (fun _ _ => True) s := by
  cases c with
  | collect span hspan => exact .of_asks ((collectChains_asks span hspan _).mono fun _ hi => hi.1) s
  | process => exact process_safe h

end LayerZeroWorker

omit [Unicode] in
theorem WorkerLedger.empty : WorkerLedger w .empty := by
  refine ⟨?_, List.nodup_nil, List.nodup_nil, List.nodup_nil, List.nodup_nil, ?_, ?_, ?_, ?_, ?_⟩ <;>
    exact fun _ h => absurd h List.not_mem_nil

variable [WorkerLibraries]

theorem WorkerLedger.run {p p' : Process WorkerWorld WorkerOp (fun op => Except WorkerError op.Value) WorkerError Unit}
    {es : List (Process.Event WorkerCycle WorkerOp)} (run : Run (Process.Step (FitStep w nodes) w.cycle) p es p')
    (h : p.Sound (FitStep w nodes) (ActionNeeds w) (WorkerLedger w)) :
    p'.Sound (FitStep w nodes) (ActionNeeds w) (WorkerLedger w) ∧ ActionsGrow p.shared.tables p'.shared.tables := by
  have trans {s t u : WorkerWorld} (h : ActionsGrow s.tables t.tables) (h' : ActionsGrow t.tables u.tables) :
      ActionsGrow s.tables u.tables := h.trans h'
  exact Process.safe_of_run (R := fun s t => ActionsGrow s.tables t.tables)
    (fun _ c h => LayerZeroWorker.cycle_safe' c h)
    (fun h needs hs => h.step needs hs.1) (fun s => .refl s.tables) trans run h

/-- If no cycle takes up a packet with an action that has failed: the nonces of a chain are distinct, those of the
stages of a packet rise, what is broadcast for an action is its raw transaction, a packet is delivered when its stages
have succeeded, and an action keeps its intent, its raw transaction and its terminal state. -/
theorem worker_actions_sound (w : LayerZeroWorker) (nodes : PacketLogs)
    {p p' : Process WorkerWorld WorkerOp (fun op => Except WorkerError op.Value) WorkerError Unit}
    {es es' : List (Process.Event WorkerCycle WorkerOp)}
    (run : Run (Process.Step (FitStep w nodes) w.cycle) LayerZeroWorker.fresh es p)
    (run' : Run (Process.Step (FitStep w nodes) w.cycle) p es' p') :
    (∀ a ∈ p.shared.tables.actions, ∀ b ∈ p.shared.tables.actions, a.destinationChainID = b.destinationChainID →
      a.nonce = b.nonce → a = b) ∧
    (∀ a ∈ p.shared.tables.actions, ∀ b ∈ p.shared.tables.actions, a.guid = b.guid → a.stage.index < b.stage.index →
      a.nonce < b.nonce) ∧
    (∀ x ∈ p.shared.broadcasts, ∀ a ∈ p.shared.tables.actions, a.actionID = x.actionID →
      a.rawTransactionHex = some (hex0x x.raw)) ∧
    (∀ x ∈ p.shared.broadcasts, ∀ y ∈ p.shared.broadcasts, x.actionID = y.actionID → x.raw = y.raw) ∧
    (∀ r ∈ p.shared.tables.packets, r.status = .delivered → ∀ stage,
      HasStage p.shared.tables r.guid stage (· = .succeeded)) ∧
    (∀ a ∈ p.shared.tables.actions, ∃ a' ∈ p'.shared.tables.actions, a.Grows a') := by
  obtain ⟨h, -⟩ := WorkerLedger.run run ⟨.empty, .done trivial⟩
  obtain ⟨-, hgrow⟩ := WorkerLedger.run run' h
  have h := h.1
  have hraw : ∀ x ∈ p.shared.broadcasts, ∀ a ∈ p.shared.tables.actions, a.actionID = x.actionID →
      a.rawTransactionHex = some (hex0x x.raw) := by
    intro x hx a ha hid
    obtain ⟨b, hb, hbi, hr⟩ := h.broadcasts x hx
    rw [h.eq_of_id ha hb (hid.trans hbi.symm)]
    exact hr
  refine ⟨fun a ha b hb hc hn => List.inj_on_of_nodup_map h.nonces ha hb (Prod.ext hc hn), ?_, hraw, ?_, h.delivered,
    hgrow⟩
  · intro a ha b hb hg hlt
    obtain ⟨c, hc, hcg, hcs, hcn⟩ := h.order b hb a.stage hlt
    rw [List.inj_on_of_nodup_map h.stages ha hc (Prod.ext (hg.trans hcg.symm) hcs.symm)]
    exact hcn
  · intro x hx y hy hid
    obtain ⟨a, ha, hai, hr⟩ := h.broadcasts x hx
    have hr' := hraw y hy a ha (hai.trans hid)
    exact hex0x_inj.mp (Option.some.inj (hr.symm.trans hr'))

end

/-! ## A packet whose first stage fails -/

namespace Sample

open LayerZeroWorker

attribute [local instance] asciiUnicode lengthDigests libraries

def guid : String := hex0x (List.replicate 32 0)

def hash : String := encodeToString (lengthDigests.keccak256 [0]).toList

/-- The action of a stage, as it is intended. -/
def intended (stage : WorkerStage) (nonce : Nat) : WorkerAction :=
  ⟨WorkerTables.actionID guid stage, guid, stage, 1, nonce, Strings.toLower (hex0x address), 0, hex0x [], sha256Hex [],
    none, none, .intended⟩

/-- The action, as it is signed. -/
def signed (stage : WorkerStage) (nonce : Nat) (status : WorkerStatus) : WorkerAction :=
  { intended stage nonce with
    rawTransactionHex := some (hex0x [UInt8.ofNat nonce])
    transactionHash := some (Strings.toLower hash)
    status := status }

theorem toLower_hash : Strings.toLower hash = hash := toLower_encodeToString _

theorem toLower_toLower (x : String) : Strings.toLower (Strings.toLower x) = Strings.toLower x := by
  simp [Strings.toLower, Function.comp_def, Unicode.toLower_toLower]

theorem frozen {a : WorkerAction} {stage : WorkerStage} {nonce : Nat} (ha : a.intent = intended stage nonce) :
    frozenCallData a chain (hex0x address) = .ok [] := by
  obtain ⟨_, _, _, _, _, _, _, _, _, _, _, _⟩ := a
  simp only [WorkerAction.intent, intended, WorkerAction.mk.injEq] at ha
  obtain ⟨rfl, rfl, rfl, rfl, rfl, rfl, rfl, rfl, rfl, -⟩ := ha
  have h0 : hex0x [] ≠ "" := fun he => by simpa [hex0x] using congrArg String.toList he
  simp [frozenCallData, revertIf, toLower_toLower, h0, chain, bind, Except.bind, pure, Except.pure]

theorem checked {a : WorkerAction} {stage : WorkerStage} {nonce : Nat} (hn : nonce < 256)
    (ha : a.intent = intended stage nonce) : worker.checkRaw a chain [] [UInt8.ofNat nonce] hash = .ok () := by
  obtain ⟨_, _, _, _, n, _, _, _, _, _, _, _⟩ := a
  simp only [WorkerAction.intent, intended, WorkerAction.mk.injEq] at ha
  obtain ⟨rfl, rfl, rfl, rfl, rfl, rfl, rfl, rfl, rfl, -⟩ := ha
  have hk : toLower (encodeToString (Digests.keccak256 [UInt8.ofNat n]).toList) = hash := toLower_encodeToString _
  simp [checkRaw, WorkerLibraries.fromBytes, WorkerLibraries.recoverTransaction, WorkerLibraries.address,
    Except.mapError, revertIf, toLower_toLower, toLower_hash, hk, chain, bind, Except.bind, hn]

/-- A stage whose action has its raw transaction, or is given one. -/
theorem driveStage_run {a : WorkerAction} {s t : WorkerWorld} (stage : WorkerStage) (nonce : Nat) (hn : nonce < 256)
    (ha : a.intent = intended stage nonce)
    (hs : (worker.signedTransaction a chain (hex0x address) []).run answer s = (.ok ([UInt8.ofNat nonce], hash), t))
    (ht : t.broadcasts.length ≤ 3) :
    (worker.driveStage a stage chain (hex0x address)).run answer s =
      (.ok (some ⟨1, a.actionID, hash, stage⟩),
        ⟨t.tables.observeAction a.actionID .submitted [("transaction_hash", .string hash)],
          t.broadcasts ++ [⟨1, a.actionID, [UInt8.ofNat nonce]⟩]⟩) := by
  rw [driveStage, frozen ha]
  show ((worker.signedTransaction a chain (hex0x address) []) >>= fun r => _).run answer s = _
  rw [Prog.run_bind, hs]
  show ((Prog.ofExcept (worker.checkRaw a chain [] [UInt8.ofNat nonce] hash)) >>= fun _ => _).run answer t = _
  rw [checked hn ha]
  have hans : answer (.sendRawTransaction chain.eid a.actionID [UInt8.ofNat nonce]) t =
      (.ok (), ⟨t.tables, t.broadcasts ++ [⟨1, a.actionID, [UInt8.ofNat nonce]⟩]⟩) := by
    rw [answer, if_pos ht]
    rfl
  rw [Prog.run_ofExcept_bind]
  dsimp only
  rw [Prog.run_bind, Prog.run_op, hans]
  rfl

/-- A stage that has no action. -/
theorem submitStage_run {stage : WorkerStage} {nonce : Nat} (hn : nonce < 256) {s : WorkerWorld}
    (hb : s.broadcasts.length ≤ 3) (hnone : s.tables.action guid stage = none)
    (hnonce : s.tables.nextNonce 1 0 = nonce)
    (hc : ¬ ∃ r ∈ s.tables.actions, WorkerTables.Conflict r (intended stage nonce)) :
    (worker.submitStage guid stage chain (hex0x address) []).run answer s =
      (.ok (some ⟨1, WorkerTables.actionID guid stage, hash, stage⟩),
        ⟨({ s.tables with
            actions := Table.update (fun a => a.actionID = WorkerTables.actionID guid stage)
              (fun a => { a with status := .submitted })
              (Table.update (fun a => a.actionID = WorkerTables.actionID guid stage ∧ a.status = WorkerStatus.intended)
                (fun a => { a with
                  rawTransactionHex := some (hex0x [UInt8.ofNat nonce])
                  transactionHash := some (toLower hash)
                  status := .signed }) (s.tables.actions ++ [intended stage nonce]))
            observations := s.tables.observations ++ [⟨WorkerTables.actionID guid stage, .intended, none, []⟩] ++
              [⟨WorkerTables.actionID guid stage, .signed, some (sha256Hex [UInt8.ofNat nonce]),
                [("transaction_hash", .string (toLower hash))]⟩] ++
              [⟨WorkerTables.actionID guid stage, .submitted, none, [("transaction_hash", .string hash)]⟩] }),
          s.broadcasts ++ [⟨1, WorkerTables.actionID guid stage, [UInt8.ofNat nonce]⟩]⟩) := by
  have hrow : s.tables.intendedRow guid stage 1 0 (hex0x address) [] = intended stage nonce := by
    rw [WorkerTables.intendedRow, hnonce]
    rfl
  have hi : s.tables.intendAction guid stage chain.chainID 0 (hex0x address) [] =
      .ok (({ s.tables with actions := s.tables.actions ++ [intended stage nonce] }).recordObservation
        ⟨WorkerTables.actionID guid stage, .intended, none, []⟩, intended stage nonce) := by
    rw [WorkerTables.intendAction, show chain.chainID = 1 from rfl, hrow]
    simp only [revertIf, if_neg hc]
    rfl
  have hans : answer (.intendAction guid stage chain.chainID 0 (hex0x address) []) s =
      (.ok (intended stage nonce), ⟨({ s.tables with
        actions := s.tables.actions ++ [intended stage nonce] }).recordObservation
          ⟨WorkerTables.actionID guid stage, .intended, none, []⟩, s.broadcasts⟩) := by
    rw [answer, hi]
  have hfound : answer (.action guid stage) s = (.ok none, s) := by rw [answer, hnone]
  show (Prog.op (.action guid stage) _).run answer s = _
  rw [Prog.run_op, hfound]
  show (Prog.op (.transactionCount chain.eid _) _).run answer s = _
  rw [Prog.run_op]
  show (Prog.op (.intendAction guid stage chain.chainID 0 (hex0x address) []) _).run answer s = _
  rw [Prog.run_op, hans]
  refine driveStage_run _ _ (t := ⟨(({ s.tables with
    actions := s.tables.actions ++ [intended stage nonce] }).recordObservation
      ⟨WorkerTables.actionID guid stage, .intended, none, []⟩).recordSigned (WorkerTables.actionID guid stage)
        [UInt8.ofNat nonce] hash, s.broadcasts⟩) hn ?_ ?_ hb
  · rfl
  · rfl

theorem ids : WorkerTables.actionID guid .dvnExecute ≠ WorkerTables.actionID guid .commitVerification ∧
    WorkerTables.actionID guid .dvnExecute ≠ WorkerTables.actionID guid .executorExecute ∧
    WorkerTables.actionID guid .commitVerification ≠ WorkerTables.actionID guid .executorExecute := by
  decide +kernel

/-- The actions of a packet that is submitted, up to a stage. -/
def actions (first : WorkerStatus) : List WorkerAction :=
  [signed .dvnExecute 0 first, signed .commitVerification 1 .submitted, signed .executorExecute 2 .submitted]

theorem submit_run (stage : WorkerStage) (nonce : Nat) (hn : nonce < 256) {s : WorkerWorld}
    (hb : s.broadcasts.length ≤ 3) (hother : ∀ a ∈ s.tables.actions,
      a.actionID ≠ WorkerTables.actionID guid stage ∧ a.stage ≠ stage ∧ a.nonce < nonce)
    (hnonce : s.tables.nextNonce 1 0 = nonce) :
    ∃ t, (worker.submitStage guid stage chain (hex0x address) []).run answer s =
      (.ok (some ⟨1, WorkerTables.actionID guid stage, hash, stage⟩), t) ∧
      t.tables.actions = s.tables.actions ++ [signed stage nonce .submitted] ∧ t.tables.packets = s.tables.packets ∧
      t.broadcasts.length = s.broadcasts.length + 1 := by
  refine ⟨_, submitStage_run hn hb ?_ hnonce ?_, ?_, rfl, ?_⟩
  · exact List.find?_eq_none.mpr fun a ha => by simp [(hother a ha).2.1]
  · rintro ⟨a, ha, hc⟩
    obtain ⟨hid, hst, hlt⟩ := hother a ha
    rcases hc with hc | ⟨-, hc⟩ | ⟨-, hc⟩
    · exact hid hc
    · exact hst hc
    · exact absurd hc (Nat.ne_of_lt hlt)
  · show Table.update _ _ (Table.update _ _ _) = _
    rw [Table.update_last (fun a ha h => (hother a ha).1 h.1) ⟨rfl, rfl⟩,
      Table.update_last (fun a ha => (hother a ha).1) rfl]
    rfl
  · simp

/-- The calls of the packet. -/
def calls : List (WorkerStage × String × GoBytes) :=
  [(.dvnExecute, hex0x address, []), (.commitVerification, hex0x address, []), (.executorExecute, hex0x address, [])]

/-- The row of the collected packet. -/
def row : PacketRow := WorkerTables.packetRow logPacket 0 "" 0

theorem decodePacket_packet : decodePacket packet = .ok logPacket := rfl

theorem stageCalls_run : worker.stageCalls logPacket chain (0 + 3600) =
    .ok calls := by
  have ht : Strings.trimPrefix (hex0x address) "0x" = encodeToString address := trimPrefix_encodeHex address
  have hb :
      ∃ instruction, buildDVNInstruction chain.eid chain.receiveULN logPacket 0 (0 + 3600) "" = .ok instruction := by
    show ∃ instruction, buildDVNInstruction 1 (hex0x address) logPacket 0 (0 + 3600) "" = .ok instruction
    rw [buildDVNInstruction, ht, encodeToString, String.toList_ofList, Hex.decode_encode]
    exact ⟨_, rfl⟩
  obtain ⟨instruction, hb⟩ := hb
  show (Except.mapError WorkerError.ofCall (buildDVNInstruction chain.eid chain.receiveULN logPacket 0 (0 + 3600) "")
    >>= fun _ => _) = _
  rw [hb]
  rfl

/-- The loop over the packets, from the calls on. -/
theorem submitPackets_run (s : WorkerWorld) :
    (worker.submitPackets [row]).run answer s =
      (worker.submitStages guid chain calls >>= fun submitted => pure (submitted ++ [], [guid])).run answer s := by
  have he : fromHex0x row.encodedPacketHex = .ok packet := fromHex0x_hex0x packet
  rw [LayerZeroWorker.submitPackets, he, Prog.run_ofExcept_bind]
  dsimp only
  rw [decodePacket_packet]
  show (Prog.ofExcept (worker.stageCalls logPacket chain (0 + 3600)) >>= fun _ => _).run answer s = _
  rw [stageCalls_run]
  rfl

/-- A cycle, when its packet is taken up. -/
theorem process_run (s : WorkerWorld) (hp : s.tables.packets = [row]) :
    worker.process.run answer s = (worker.submitPackets [row] >>= fun
      | (pending, packetGUIDs) => worker.finalizeStages pending >>= fun _ => markPackets packetGUIDs).run answer s := by
  have hready : s.tables.readyPackets [(1, 0)] 0 = .ok [row] := by
    rw [WorkerTables.readyPackets, hp]
    rfl
  have hans : answer (.readyPackets [(1, 0)] 0) s = (.ok [row], s) := by rw [answer, hready]
  show (Prog.op (.blockNumber chain.eid) _).run answer s = _
  rw [Prog.run_op]
  show (Prog.op (.readyPackets [(1, 0)] 0) _).run answer s = _
  rw [Prog.run_op, hans]
  show (Prog.ofExcept (.ok [row]) >>= fun ready => worker.submitPackets (ready.take worker.batchPackets) >>= _).run
    answer s = _
  rw [Prog.run_ofExcept_bind]
  rfl

theorem submitStages_cons_run {stage : WorkerStage} {target : String} {data : GoBytes}
    {calls : List (WorkerStage × String × GoBytes)} {s t u : WorkerWorld} {x : LayerZeroWorker.Pending}
    {rest : List LayerZeroWorker.Pending}
      (h : (worker.submitStage guid stage chain target data).run answer s = (.ok (some x), t))
    (hs : (worker.submitStages guid chain calls).run answer t = (.ok rest, u)) :
    (worker.submitStages guid chain ((stage, target, data) :: calls)).run answer s = (.ok (x :: rest), u) := by
  rw [submitStages, Prog.run_bind, h]
  dsimp only
  rw [Prog.run_bind, hs]
  rfl

theorem submitStages_run : ∃ rest t, (worker.submitStages guid chain calls).run answer ⟨collected, []⟩ =
      (.ok (⟨1, WorkerTables.actionID guid .dvnExecute, hash, .dvnExecute⟩ :: rest), t) ∧
    t.tables.actions = actions .submitted ∧ t.tables.packets = [row] ∧ t.broadcasts.length = 3 := by
  have hid := ids
  obtain ⟨t₁, h₁, ha₁, hp₁, hb₁⟩ := submit_run .dvnExecute 0 (by omega) (s := ⟨collected, []⟩)
    (Nat.zero_le _) (fun a ha => absurd ha List.not_mem_nil) rfl
  have ha₁ : t₁.tables.actions = [signed .dvnExecute 0 .submitted] := ha₁
  obtain ⟨t₂, h₂, ha₂, hp₂, hb₂⟩ := submit_run .commitVerification 1 (by omega) (s := t₁)
    (by rw [hb₁]; exact Nat.le_add_left _ _) (by
      rw [ha₁]
      exact List.forall_mem_singleton.mpr ⟨hid.1, WorkerStage.noConfusion, Nat.one_pos⟩) (by
      rw [WorkerTables.nextNonce, ha₁]
      rfl)
  rw [ha₁] at ha₂
  obtain ⟨t₃, h₃, ha₃, hp₃, hb₃⟩ := submit_run .executorExecute 2 (by omega) (s := t₂)
    (by rw [hb₂, hb₁]; exact Nat.le_of_ble_eq_true rfl) (by
      rw [ha₂]
      exact List.forall_mem_cons.mpr ⟨⟨hid.2.1, WorkerStage.noConfusion, Nat.two_pos⟩,
        List.forall_mem_singleton.mpr ⟨hid.2.2, WorkerStage.noConfusion, Nat.one_lt_two⟩⟩) (by
      rw [WorkerTables.nextNonce, ha₂]
      rfl)
  rw [ha₂] at ha₃
  refine ⟨_, t₃, submitStages_cons_run h₁ (submitStages_cons_run h₂ (submitStages_cons_run h₃ rfl)), ha₃,
    (hp₃.trans hp₂).trans hp₁, ?_⟩
  rw [hb₃, hb₂, hb₁]
  rfl

/-- The first stage that is finalized has failed. -/
theorem finalize_run (rest : List LayerZeroWorker.Pending) (t : WorkerWorld) :
    ((worker.finalizeStages (⟨1, WorkerTables.actionID guid .dvnExecute, hash, .dvnExecute⟩ :: rest) >>= fun _ =>
      markPackets [guid]).run answer t).2 =
      ⟨t.tables.observeAction (WorkerTables.actionID guid .dvnExecute) .failed [("transaction_hash", .string hash),
        ("receipt", .string (worker.rawRoot ++ "/" ++ hash ++ ".receipt.json"))], t.broadcasts⟩ := rfl

/-- An observation of the first stage. -/
theorem observe_run {s : WorkerTables} {status : WorkerStatus} (hs : s.actions = actions status) (state : WorkerStatus)
    (details : List (String × Json)) :
    (s.observeAction (WorkerTables.actionID guid .dvnExecute) state details).actions = actions state := by
  have hid := ids
  show Table.update _ _ s.actions = _
  rw [hs]
  exact Table.update_first rfl
    (List.forall_mem_cons.mpr ⟨Ne.symm hid.1, List.forall_mem_singleton.mpr (Ne.symm hid.2.1)⟩)

theorem collected_packets : collected.packets = [row] := rfl

/-- The first cycle: the transaction of the first stage has failed. -/
theorem process_first : ∃ t, (worker.process.run answer ⟨collected, []⟩).2 = t ∧ t.tables.actions = actions .failed ∧
    t.tables.packets = [row] ∧ t.broadcasts.length = 3 := by
  obtain ⟨rest, t, h, ha, hp, hb⟩ := submitStages_run
  refine ⟨⟨t.tables.observeAction (WorkerTables.actionID guid .dvnExecute) .failed [("transaction_hash", .string hash),
        ("receipt", .string (worker.rawRoot ++ "/" ++ hash ++ ".receipt.json"))], t.broadcasts⟩, ?_, observe_run ha _ _,
    hp, hb⟩
  have hsub : (worker.submitPackets [row]).run answer ⟨collected, []⟩ =
      (.ok (⟨1, WorkerTables.actionID guid .dvnExecute, hash, .dvnExecute⟩ :: rest ++ [], [guid]), t) := by
    rw [submitPackets_run, Prog.run_bind_ok h]
    rfl
  rw [process_run _ collected_packets, Prog.run_bind_ok hsub]
  exact finalize_run (rest ++ []) t

theorem signedTransaction_run (stage : WorkerStage) (nonce : Nat) (status : WorkerStatus) (s : WorkerWorld) :
    (worker.signedTransaction (signed stage nonce status) chain (hex0x address) []).run answer s =
      (.ok ([UInt8.ofNat nonce], hash), s) := by
  rw [signedTransaction, signed]
  dsimp only
  rw [fromHex0x_hex0x, Prog.run_ofExcept_bind, Option.getD_some, toLower_hash]
  rfl

/-- A stage that the node does not take. -/
theorem driveStage_raises {a : WorkerAction} {s : WorkerWorld} (stage : WorkerStage) (nonce : Nat) (hn : nonce < 256)
    (ha : a.intent = intended stage nonce)
    (hs : (worker.signedTransaction a chain (hex0x address) []).run answer s = (.ok ([UInt8.ofNat nonce], hash), s))
    (ht : ¬ s.broadcasts.length ≤ 3) :
    ∃ broadcasts, (worker.driveStage a stage chain (hex0x address)).run answer s =
      (.error (.other ""), ⟨s.tables, broadcasts⟩) := by
  have hans : answer (.sendRawTransaction chain.eid a.actionID [UInt8.ofNat nonce]) s =
      (.error (.other ""), ⟨s.tables, s.broadcasts ++ [⟨1, a.actionID, [UInt8.ofNat nonce]⟩]⟩) := by
    rw [answer, if_neg ht]
    rfl
  refine ⟨s.broadcasts ++ [⟨1, a.actionID, [UInt8.ofNat nonce]⟩], ?_⟩
  rw [driveStage, frozen ha]
  show ((worker.signedTransaction a chain (hex0x address) []) >>= fun r => _).run answer s = _
  rw [Prog.run_bind_ok hs]
  show ((Prog.ofExcept (worker.checkRaw a chain [] [UInt8.ofNat nonce] hash)) >>= fun _ => _).run answer s = _
  rw [checked hn ha, Prog.run_ofExcept_bind]
  dsimp only
  rw [Prog.run_bind, Prog.run_op, hans]
  rfl

/-- A stage that has an action. -/
theorem submitStage_found {a : WorkerAction} {s : WorkerWorld} {stage : WorkerStage}
    (hf : s.tables.action guid stage = some a) (hs : a.status ≠ .succeeded) :
    (worker.submitStage guid stage chain (hex0x address) []).run answer s =
      (worker.driveStage a stage chain (hex0x address)).run answer s := by
  have hans : answer (.action guid stage) s = (.ok (some a), s) := by rw [answer, hf]
  show (Prog.op (.action guid stage) _).run answer s = _
  rw [Prog.run_op, hans]
  show (if a.status = .succeeded then pure none else
    worker.driveStage a stage chain (hex0x address) : WorkerProg (Option LayerZeroWorker.Pending)).run answer s = _
  rw [if_neg hs]

/-- The second cycle: the action is submitted again. -/
theorem process_second {s : WorkerWorld} (ha : s.tables.actions = actions .failed) (hp : s.tables.packets = [row])
    (hb : s.broadcasts.length = 3) : (worker.process.run answer s).2.tables.actions = actions .submitted := by
  have hf : s.tables.action guid .dvnExecute = some (signed .dvnExecute 0 .failed) := by
    rw [WorkerTables.action, ha]
    exact List.find?_cons_of_pos (decide_eq_true ⟨rfl, rfl⟩)
  have h₁ := (submitStage_found hf WorkerStatus.noConfusion).trans (driveStage_run .dvnExecute 0
    (by omega) rfl (signedTransaction_run .dvnExecute 0 .failed s) hb.le)
  set t : WorkerWorld := ⟨s.tables.observeAction _ .submitted [("transaction_hash", .string hash)],
    s.broadcasts ++ [⟨1, _, [UInt8.ofNat 0]⟩]⟩ with ht
  have ha₁ : t.tables.actions = actions .submitted := observe_run ha _ _
  have hf₂ : t.tables.action guid .commitVerification = some (signed .commitVerification 1 .submitted) := by
    rw [WorkerTables.action, ha₁]
    refine (List.find?_cons_of_neg ?_).trans (List.find?_cons_of_pos (decide_eq_true ⟨rfl, rfl⟩))
    exact fun h => WorkerStage.noConfusion (of_decide_eq_true h).2
  have hlen : ¬ t.broadcasts.length ≤ 3 := by
    rw [ht, List.length_append, hb]
    decide
  obtain ⟨broadcasts, h₂⟩ := driveStage_raises .commitVerification 1
    (by omega) rfl (signedTransaction_run .commitVerification 1 .submitted t) hlen
  have h₂ := (submitStage_found hf₂ WorkerStatus.noConfusion).trans h₂
  have hrest : (worker.submitStages guid chain [(.commitVerification, hex0x address, []),
      (.executorExecute, hex0x address, [])]).run answer t = (.error (.other ""), ⟨t.tables, broadcasts⟩) :=
    Prog.run_bind_error h₂ _
  have hcalls : (worker.submitStages guid chain calls).run answer s = (.error (.other ""), ⟨t.tables, broadcasts⟩) :=
    (Prog.run_bind_ok h₁ _).trans (Prog.run_bind_error hrest _)
  have hsub : (worker.submitPackets [row]).run answer s = (.error (.other ""), ⟨t.tables, broadcasts⟩) := by
    rw [submitPackets_run, Prog.run_bind_error hcalls]
  rw [process_run _ hp, Prog.run_bind_error hsub]
  exact ha₁

/-- A step of the node that takes up no packets. -/
theorem answer_fit {op : WorkerOp} (h : TakesNone op) (s : WorkerWorld) :
    FitStep worker nodes op s (answer op s).1 (answer op s).2 := by
  refine ⟨answer_step op s, ?_⟩
  cases op with
  | readyPackets heads confirmations => exact absurd rfl h
  | _ => trivial

/-- A cycle that takes up the packet, none of whose actions has failed. -/
theorem process_fit {s : WorkerWorld} (hp : s.tables.packets = [row]) (hf : ∀ a ∈ s.tables.actions, a.status ≠ .failed)
    (q : WorkerProg Unit) : ∃ es p', Run (Process.Step (FitStep worker nodes) worker.cycle) ⟨s, q⟩ es
      ⟨(worker.process.run answer s).2, p'⟩ := by
  have hready : answer (.readyPackets [(1, 0)] 0) s = (.ok [row], s) := by
    rw [answer, WorkerTables.readyPackets, hp]
    rfl
  have hfit : FitStep worker nodes (.readyPackets [(1, 0)] 0) s (.ok [row]) s := by
    refine ⟨?_, fun _ _ a ha _ => hf a ha⟩
    have h := answer_step (.readyPackets [(1, 0)] 0) s
    rw [hready] at h
    exact h
  have hhead : FitStep worker nodes (.blockNumber 1) s (.ok 0) s := answer_fit WorkerOp.noConfusion s
  obtain ⟨k, hk, k', hk', hrest⟩ : ∃ k, worker.process = .op (.blockNumber 1) k ∧
      ∃ k', k (.ok 0) = .op (.readyPackets [(1, 0)] 0) k' ∧ (k' (.ok [row])).Asks TakesNone := by
    refine ⟨_, rfl, _, rfl, ?_⟩
    exact .ofExcept_bind fun rows _ => processRows_takesNone _
  have h₁ : Process.Step (FitStep worker nodes) worker.cycle ⟨s, q⟩ (.start .process) ⟨s, worker.process⟩ := .start
  have h₂ : Process.Step (FitStep worker nodes) worker.cycle ⟨s, .op (.blockNumber 1) k⟩ _ ⟨s, k (.ok 0)⟩ :=
    .answer hhead
  have h₃ : Process.Step (FitStep worker nodes) worker.cycle ⟨s, .op (.readyPackets [(1, 0)] 0) k'⟩ _
      ⟨s, k' (.ok [row])⟩ := .answer hfit
  have hfits (op) (t) (h : TakesNone op) : FitStep worker nodes op t (answer op t).1 (answer op t).2 := answer_fit h t
  obtain ⟨es, p', hrun⟩ := Process.run_prog worker.cycle hfits hrest s
  have hend : (worker.process.run answer s).2 = ((k' (.ok [row])).run answer s).2 := by
    rw [hk, Prog.run_op]
    show ((k (.ok 0)).run answer s).2 = _
    rw [hk', Prog.run_op, hready]
  rw [hk] at h₁
  rw [hk'] at h₂
  rw [hend]
  exact ⟨_, p', .cons h₁ (.cons h₂ (.cons h₃ hrun))⟩

end Sample

/-- A packet is collected and its stages are submitted, of which the first one fails. -/
theorem worker_actions_sound_failed :
    let _ : Unicode := asciiUnicode
    let _ : Digests := Sample.lengthDigests
    let _ : WorkerLibraries := Sample.libraries
    ∃ es p es' p',
      Run (Process.Step (FitStep Sample.worker Sample.nodes) Sample.worker.cycle) LayerZeroWorker.fresh es p ∧
      Run (Process.Step (FitStep Sample.worker Sample.nodes) Sample.worker.cycle) p es' p' ∧
      p.shared.tables.actions = Sample.actions .failed ∧ p.shared.broadcasts.length = 3 ∧
      (∀ x ∈ p.shared.broadcasts, ∀ a ∈ p.shared.tables.actions, a.actionID = x.actionID →
        a.rawTransactionHex = some (hex0x x.raw)) ∧
      ∀ a ∈ Sample.actions .failed, ∃ a' ∈ p'.shared.tables.actions, a.Grows a' := by
  let _ : Unicode := asciiUnicode
  let _ : Digests := Sample.lengthDigests
  let _ : WorkerLibraries := Sample.libraries
  obtain ⟨t, ht, ha, -, hb⟩ := Sample.process_first
  have hcollect : ((Sample.worker.cycle (.collect 1 le_rfl)).run Sample.answer .empty).2 = ⟨Sample.collected, []⟩ :=
    congrArg Prod.snd Sample.collect_run
  have answers op s (h : LayerZeroWorker.CollectAsks Sample.worker op) := Sample.answer_fit h.2 s
  have asks := LayerZeroWorker.collectChains_asks (w := Sample.worker) 1 le_rfl Sample.worker.chains
  obtain ⟨es₁, q₁, run₁⟩ :=
    Process.run_call Sample.worker.cycle (c := .collect 1 le_rfl) answers asks hcollect (pure ())
  obtain ⟨es₂, q₂, run₂⟩ := Sample.process_fit (s := ⟨Sample.collected, []⟩) Sample.collected_packets
    (fun _ ha => absurd ha List.not_mem_nil) q₁
  rw [ht] at run₂
  -- the packet is collected again
  obtain ⟨es₃, q₃, run₃⟩ := Process.run_call Sample.worker.cycle (c := .collect 1 le_rfl) answers asks rfl q₂
  obtain ⟨-, -, hraw, -, -, hgrow⟩ := worker_actions_sound Sample.worker Sample.nodes (run₁.append run₂) run₃
  exact ⟨_, _, _, _, run₁.append run₂, run₃, ha, hb, hraw, fun a h => hgrow a (ha ▸ h)⟩

/-- An action that has failed is submitted again. -/
theorem failed_action_submitted :
    let _ : Unicode := asciiUnicode
    let _ : Digests := Sample.lengthDigests
    let _ : WorkerLibraries := Sample.libraries
    ∃ es p es' p', Run (Process.Step (WorkerStep Sample.nodes) Sample.worker.cycle) LayerZeroWorker.fresh es p ∧
      Run (Process.Step (WorkerStep Sample.nodes) Sample.worker.cycle) p es' p' ∧
      ∃ a ∈ p.shared.tables.actions, a.status = .failed ∧
        ∀ a' ∈ p'.shared.tables.actions, a'.actionID = a.actionID → a'.status = .submitted := by
  let _ : Unicode := asciiUnicode
  let _ : Digests := Sample.lengthDigests
  let _ : WorkerLibraries := Sample.libraries
  obtain ⟨t, ht, ha, hp, hb⟩ := Sample.process_first
  have hcollect : ((Sample.worker.cycle (.collect 1 le_rfl)).run Sample.answer .empty).2 = ⟨Sample.collected, []⟩ :=
    congrArg Prod.snd Sample.collect_run
  have answers op t (_ : True) := Sample.answer_step op t
  obtain ⟨es₁, q₁, run₁⟩ := Process.run_call Sample.worker.cycle answers (.trivial _) hcollect (pure ())
  obtain ⟨es₂, q₂, run₂⟩ := Process.run_call Sample.worker.cycle (c := .process) answers (.trivial _) ht q₁
  obtain ⟨u, hu⟩ : ∃ u, (Sample.worker.process.run Sample.answer t).2 = u := ⟨_, rfl⟩
  have hsecond : u.tables.actions = Sample.actions .submitted := hu ▸ Sample.process_second ha hp hb
  obtain ⟨es', r, run'⟩ := Process.run_call Sample.worker.cycle (c := .process) answers (.trivial _) hu q₂
  refine ⟨_, _, es', _, run₁.append run₂, run', Sample.signed .dvnExecute 0 .failed, ?_, rfl, fun a' ha' _ => ?_⟩
  · rw [ha]
    exact List.mem_cons_self
  · rw [hsecond] at ha'
    rcases List.mem_cons.mp ha' with rfl | ha'
    · rfl
    · rcases List.mem_cons.mp ha' with rfl | ha'
      · rfl
      · rw [List.mem_singleton.mp ha']
        rfl

end Xir.Impl.XirLab
