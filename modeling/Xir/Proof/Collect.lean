import Xir.Proof.Worker

/-!
# The logs that the LayerZero worker collects

A row of `packets` is that of a log of a watched endpoint, no two rows are of one
log or have one `guid`, and the logs before a cursor have their rows (`Collected`).
A chunk is stored before the cursor moves to its end, so that a crash leaves at
most rows that are found again. This needs that distinct logs carry distinct
`guid`s, since `observe_packet` ignores a row whose `guid` is there.
-/

namespace Xir.Impl.XirLab

open Strings

namespace LayerZeroWorker

variable {w : LayerZeroWorker} {s t u : WorkerTables}

/-- The cursors of the chains, at two times. -/
def CursorsLE (w : LayerZeroWorker) (s t : WorkerTables) : Prop :=
  ∀ chain ∈ w.chains, s.cursor chain.eid chain.startBlock ≤ t.cursor chain.eid chain.startBlock

theorem CursorsLE.refl (s : WorkerTables) : CursorsLE w s s := fun _ _ => le_rfl

theorem CursorsLE.trans (h : CursorsLE w s t) (h' : CursorsLE w t u) : CursorsLE w s u :=
  fun chain hm => (h chain hm).trans (h' chain hm)

theorem CursorsLE.of_eq (hc : t.cursors = s.cursors) : CursorsLE w s t := fun chain _ => by
  rw [WorkerTables.cursor, WorkerTables.cursor, hc]

theorem CursorsLE.advanceCursor {chain : WorkerChain} (hm : chain ∈ w.chains) {next : Nat}
    (hn : s.cursor chain.eid chain.startBlock ≤ next) : CursorsLE w s (s.advanceCursor chain.eid next) := by
  intro chain' hm'
  by_cases he : chain'.eid = chain.eid
  · obtain rfl := List.inj_on_of_nodup_map w.distinct hm' hm he
    rw [WorkerTables.cursor_advanceCursor]
    exact hn
  · rw [WorkerTables.cursor_advanceCursor_of_ne s he]

end LayerZeroWorker

section

variable [Unicode] [Digests] [WorkerLibraries]

/-- Distinct logs carry distinct `guid`s. -/
def PacketLogs.DistinctGUIDs (nodes : PacketLogs) (w : LayerZeroWorker) : Prop :=
  ∀ {eid b eid' b' : Nat} {l l' : PacketSentLog} {p p' : LayerZeroPacket}, l ∈ nodes.logs eid b →
    l' ∈ nodes.logs eid' b' → packetOfLog w eid l = .ok p → packetOfLog w eid' l' = .ok p' → p.guid = p'.guid → l = l'

/-- The row that a log has when it is observed. -/
def rowOfLog (p : LayerZeroPacket) (l : PacketSentLog) : PacketRow :=
  WorkerTables.packetRow p l.blockNumber (encodeToString l.transactionHash) l.logIndex

/-- The row is at the place of a log. -/
def PacketRow.At (r : PacketRow) (eid : Nat) (l : PacketSentLog) : Prop :=
  r.sourceEID = eid ∧ r.sourceTransactionHash = encodeToString l.transactionHash ∧ r.sourceLogIndex = l.logIndex

instance (r : PacketRow) (eid : Nat) (l : PacketSentLog) : Decidable (r.At eid l) := inferInstanceAs (Decidable (_ ∧ _))

namespace LayerZeroWorker

variable (w : LayerZeroWorker)

/-- The row holds the packet of a log. -/
def Holds (eid : Nat) (l : PacketSentLog) (r : PacketRow) : Prop :=
  ∃ p, packetOfLog w eid l = .ok p ∧ r = { rowOfLog p l with status := r.status }

/-- The log has one row. -/
def StoredOnce (eid : Nat) (l : PacketSentLog) (s : WorkerTables) : Prop :=
  ∃ r, s.packets.filter (fun r => r.At eid l) = [r] ∧ w.Holds eid l r

/-- Some row holds the packet of the log. -/
def Stored (eid : Nat) (l : PacketSentLog) (s : WorkerTables) : Prop := ∃ r ∈ s.packets, w.Holds eid l r

/-- What the tables hold of the logs. -/
structure Collected (nodes : PacketLogs) (s : WorkerTables) : Prop where
  sound : ∀ r ∈ s.packets, ∃ eid b, ∃ l ∈ nodes.logs eid b, w.Holds eid l r
  unique : (s.packets.map PacketRow.guid).Nodup
  complete : ∀ chain ∈ w.chains, ∀ b, chain.startBlock ≤ b → b < s.cursor chain.eid chain.startBlock →
    ∀ l ∈ nodes.logs chain.eid b, w.Stored chain.eid l s

/-- What an operation of a cycle needs. -/
def CollectNeeds (nodes : PacketLogs) : WorkerOp → WorkerWorld → Prop
  | .advanceCursor eid next, s => ∃ chain ∈ w.chains, chain.eid = eid ∧ s.tables.cursor eid chain.startBlock ≤ next ∧
      ∀ b, s.tables.cursor eid chain.startBlock ≤ b → b < next → ∀ l ∈ nodes.logs eid b, w.Stored eid l s.tables
  | .observePacket packet block hash index, _ => ∃ eid b, ∃ l ∈ nodes.logs eid b, packetOfLog w eid l = .ok packet ∧
      l.blockNumber = block ∧ encodeToString l.transactionHash = hash ∧ l.logIndex = index
  | _, _ => True

variable {w}

omit [Unicode] in
theorem packetOfLog_sourceEID {eid : Nat} {l : PacketSentLog} {p : LayerZeroPacket} (h : packetOfLog w eid l = .ok p) :
    p.sourceEID = eid := by
  obtain ⟨encoded, -, h⟩ := mapError_bind.mp h
  obtain ⟨packet, -, h⟩ := mapError_bind.mp h
  obtain ⟨hs, h⟩ := revertIf_bind.mp h
  obtain ⟨-, h⟩ := revertIf_bind.mp h
  rw [← pure_eq_ok.mp h]
  exact not_not.mp hs

omit [Unicode] in
/-- The packet of a log does not depend on the chain that it is asked for. -/
theorem packetOfLog_eq {eid eid' : Nat} {l : PacketSentLog} {p p' : LayerZeroPacket} (h : packetOfLog w eid l = .ok p)
    (h' : packetOfLog w eid' l = .ok p') : p = p' := by
  obtain ⟨encoded, he, h⟩ := mapError_bind.mp h
  obtain ⟨packet, hd, h⟩ := mapError_bind.mp h
  obtain ⟨-, h⟩ := revertIf_bind.mp h
  obtain ⟨-, h⟩ := revertIf_bind.mp h
  obtain ⟨encoded', he', h'⟩ := mapError_bind.mp h'
  obtain ⟨packet', hd', h'⟩ := mapError_bind.mp h'
  obtain ⟨-, h'⟩ := revertIf_bind.mp h'
  obtain ⟨-, h'⟩ := revertIf_bind.mp h'
  obtain rfl := Except.ok.inj (he.symm.trans he')
  obtain rfl := Except.ok.inj (hd.symm.trans hd')
  exact (pure_eq_ok.mp h).symm.trans (pure_eq_ok.mp h')

/-! ## The rows -/

variable {nodes : PacketLogs} {s t : WorkerTables} {eid : Nat} {l : PacketSentLog} {r : PacketRow}

theorem Holds.at (h : w.Holds eid l r) : r.At eid l := by
  obtain ⟨p, hp, hr⟩ := h
  rw [hr]
  exact ⟨packetOfLog_sourceEID hp, toLower_encodeToString _, rfl⟩

theorem Holds.status (h : w.Holds eid l r) (status : PacketStatus) : w.Holds eid l { r with status := status } := by
  obtain ⟨p, hp, hr⟩ := h
  refine ⟨p, hp, ?_⟩
  rw [hr]

/-- Two rows of one place are one row. -/
theorem Collected.eq_of_at (h : w.Collected nodes s) {b : Nat} (hl : l ∈ nodes.logs eid b) {r r' : PacketRow}
    (hr : r ∈ s.packets) (hr' : r' ∈ s.packets) (ha : r.At eid l) (ha' : r'.At eid l) : r = r' := by
  have key : ∀ r ∈ s.packets, r.At eid l → w.Holds eid l r := by
    intro r hr ha
    obtain ⟨eid₁, b₁, l₁, hl₁, hh⟩ := h.sound r hr
    have ha₁ := hh.at
    obtain rfl := ha₁.1.symm.trans ha.1
    have hhash : encodeToString l₁.transactionHash = encodeToString l.transactionHash := ha₁.2.1.symm.trans ha.2.1
    have he := String.ofList_inj.mp hhash
    have hpos := nodes.position hl₁ hl (Hex.encode_inj.mp he) (ha₁.2.2.symm.trans ha.2.2)
    exact hpos ▸ hh
  obtain ⟨p, hp, hr₁⟩ := key r hr ha
  obtain ⟨p', hp', hr₂⟩ := key r' hr' ha'
  obtain rfl := packetOfLog_eq hp hp'
  refine List.inj_on_of_nodup_map h.unique hr hr' ?_
  rw [hr₁, hr₂]

/-- A log that is stored is stored once. -/
theorem Collected.storedOnce (h : w.Collected nodes s) {b : Nat} (hl : l ∈ nodes.logs eid b) (hs : w.Stored eid l s) :
    w.StoredOnce eid l s := by
  obtain ⟨r, hr, hh⟩ := hs
  refine ⟨r, ?_, hh⟩
  have hn : s.packets.Nodup := List.Nodup.of_map _ h.unique
  have hf : ∀ x, x ∈ s.packets.filter (fun r => r.At eid l) ↔ x = r := by
    intro x
    simp only [List.mem_filter, decide_eq_true_eq]
    exact ⟨fun hx => h.eq_of_at hl hx.1 hr hx.2 hh.at, fun hx => hx ▸ ⟨hr, hh.at⟩⟩
  have hperm := (List.perm_ext_iff_of_nodup (hn.filter _) (List.nodup_singleton r)).mpr fun x => by
    rw [hf x, List.mem_singleton]
  exact List.perm_singleton.mp hperm

/-! ## Operations -/

theorem Collected.congr (h : w.Collected nodes s) (hp : t.packets = s.packets) (hc : t.cursors = s.cursors) :
    w.Collected nodes t := by
  have hcur : ∀ eid d, t.cursor eid d = s.cursor eid d := fun eid d => by rw [WorkerTables.cursor, hc]; rfl
  refine ⟨fun r hr => h.sound r (hp ▸ hr), hp ▸ h.unique, fun chain hm b hb hlt l hl => ?_⟩
  rw [hcur] at hlt
  obtain ⟨r, hr, hh⟩ := h.complete chain hm b hb hlt l hl
  exact ⟨r, hp ▸ hr, hh⟩

/-- A log that is observed is stored, and so are those that were. -/
theorem Collected.observePacket (h : w.Collected nodes s) (hd : nodes.DistinctGUIDs w) {b : Nat} {p : LayerZeroPacket}
    (hl : l ∈ nodes.logs eid b) (hp : packetOfLog w eid l = .ok p) :
    w.Collected nodes (s.observePacket p l.blockNumber (encodeToString l.transactionHash) l.logIndex) ∧
      w.Stored eid l (s.observePacket p l.blockNumber (encodeToString l.transactionHash) l.logIndex) := by
  have hrow : w.Holds eid l (rowOfLog p l) := ⟨p, hp, rfl⟩
  rw [WorkerTables.observePacket]
  split
  · next hc =>
    refine ⟨h, ?_⟩
    obtain ⟨r, hr, hc⟩ := hc
    obtain ⟨eid₁, b₁, l₁, hl₁, hh⟩ := h.sound r hr
    rcases hc with hg | hat
    · obtain ⟨p₁, hp₁, hr₁⟩ := hh
      have hg₁ : hex0x p₁.guid = hex0x p.guid := (congrArg PacketRow.guid hr₁).symm.trans hg
      obtain rfl := hd hl₁ hl hp₁ hp (hex0x_inj.mp hg₁)
      obtain rfl := packetOfLog_eq hp₁ hp
      obtain rfl := (packetOfLog_sourceEID hp₁).symm.trans (packetOfLog_sourceEID hp)
      exact ⟨r, hr, p₁, hp₁, hr₁⟩
    · have ha := hrow.at
      have hr' : r.At eid l := ⟨hat.1.trans ha.1, hat.2.1.trans ha.2.1, hat.2.2.trans ha.2.2⟩
      have ha₁ := hh.at
      obtain rfl := ha₁.1.symm.trans hr'.1
      have he := String.ofList_inj.mp (ha₁.2.1.symm.trans hr'.2.1)
      have hpos := nodes.position hl₁ hl (Hex.encode_inj.mp he) (ha₁.2.2.symm.trans hr'.2.2)
      exact ⟨r, hr, hpos ▸ hh⟩
  · next hc =>
    have hnew : ∀ r ∈ s.packets, r.guid ≠ (rowOfLog p l).guid := fun r hr hg => hc ⟨r, hr, .inl hg⟩
    refine ⟨⟨?_, ?_, ?_⟩, rowOfLog p l, List.mem_append_right _ (List.mem_singleton_self _), hrow⟩
    · intro r hr
      rcases List.mem_append.mp hr with hr | hr
      · exact h.sound r hr
      · exact ⟨eid, b, l, hl, List.mem_singleton.mp hr ▸ hrow⟩
    · rw [List.map_append, List.map_singleton, ← List.concat_eq_append]
      refine h.unique.concat fun hm => ?_
      obtain ⟨r, hr, hg⟩ := List.mem_map.mp hm
      exact hnew r hr hg
    · intro chain hm b' hb hlt l' hl'
      obtain ⟨r, hr, hh⟩ := h.complete chain hm b' hb hlt l' hl'
      exact ⟨r, List.mem_append_left _ hr, hh⟩

theorem Collected.advanceCursor (h : w.Collected nodes s) {chain : WorkerChain} (hm : chain ∈ w.chains) {next : Nat}
    (hs : ∀ b, s.cursor chain.eid chain.startBlock ≤ b → b < next → ∀ l ∈ nodes.logs chain.eid b,
      w.Stored chain.eid l s) : w.Collected nodes (s.advanceCursor chain.eid next) := by
  refine ⟨h.sound, h.unique, fun chain' hm' b hb hlt l hl => ?_⟩
  by_cases he : chain'.eid = chain.eid
  · obtain rfl := List.inj_on_of_nodup_map w.distinct hm' hm he
    by_cases hlt' : b < s.cursor chain'.eid chain'.startBlock
    · exact h.complete chain' hm' b hb hlt' l hl
    · rw [WorkerTables.cursor_advanceCursor] at hlt
      exact hs b (not_lt.mp hlt') hlt l hl
  · rw [WorkerTables.cursor_advanceCursor_of_ne s he] at hlt
    exact h.complete chain' hm' b hb hlt l hl

theorem Collected.markDelivered (h : w.Collected nodes s) (guid : String) :
    w.Collected nodes (s.markDelivered guid) := by
  have hstatus : ∀ r ∈ s.packets, ∃ status, { r with status := status } ∈ (s.markDelivered guid).packets := by
    intro r hr
    have hm : _ ∈ (s.markDelivered guid).packets := Table.mem_update.mpr ⟨r, hr, rfl⟩
    split at hm
    · exact ⟨.delivered, hm⟩
    · exact ⟨r.status, hm⟩
  refine ⟨fun r hr => ?_, ?_, fun chain hm b hb hlt l hl => ?_⟩
  · obtain ⟨r₀, hr₀, rfl⟩ := Table.mem_update.mp hr
    obtain ⟨eid, b, l, hl, hh⟩ := h.sound r₀ hr₀
    refine ⟨eid, b, l, hl, ?_⟩
    split
    · exact hh.status .delivered
    · exact hh
  · have hg : (s.markDelivered guid).packets.map PacketRow.guid = s.packets.map PacketRow.guid :=
      Table.map_update fun _ _ _ => rfl
    rw [hg]
    exact h.unique
  · obtain ⟨r, hr, hh⟩ := h.complete chain hm b hb hlt l hl
    obtain ⟨status, hr'⟩ := hstatus r hr
    exact ⟨_, hr', hh.status status⟩

/-- What an operation does that may be asked. -/
theorem Collected.step (hd : nodes.DistinctGUIDs w) {op : WorkerOp} {s t : WorkerWorld}
    {r : Except WorkerError op.Value} (h : w.Collected nodes s.tables) (needs : w.CollectNeeds nodes op s)
    (hs : WorkerStep nodes op s r t) :
    w.Collected nodes t.tables ∧ CursorsLE w s.tables t.tables := by
  cases hs with
  | raise => exact ⟨h, .refl _⟩
  | answer effect honest =>
    cases effect with
    | advanceCursor eid next =>
      obtain ⟨chain, hm, rfl, hn, hs⟩ := needs
      exact ⟨h.advanceCursor hm hs, .advanceCursor hm hn⟩
    | observePacket packet block hash index =>
      obtain ⟨eid, b, l, hl, hp, rfl, rfl, rfl⟩ := needs
      refine ⟨(h.observePacket hd hl hp).1, .of_eq ?_⟩
      rw [WorkerTables.observePacket]
      split <;> rfl
    | markDelivered guid => exact ⟨h.markDelivered guid, .of_eq rfl⟩
    | intendAction hi =>
      obtain ⟨-, hi⟩ := revertIf_bind.mp hi
      obtain ⟨rfl, -⟩ := Prod.mk.inj (pure_eq_ok.mp hi)
      exact ⟨h.congr rfl rfl, .of_eq rfl⟩
    | recordSigned | observeAction => exact ⟨h.congr rfl rfl, .of_eq rfl⟩
    | cursor | readyPackets | action | time | blockNumber | getLogs | transactionCount | gasPrice | sendRawTransaction
    | transactionReceipt | writeText | readBytes => exact ⟨h, .refl _⟩

/-! ## Cycles -/

omit [WorkerLibraries] in
theorem subset_observePacket (p : LayerZeroPacket) (block : Nat) (hash : String) (index : Nat) :
    s.packets ⊆ (s.observePacket p block hash index).packets := by
  rw [WorkerTables.observePacket]
  split
  · exact List.Subset.refl _
  · exact List.subset_append_left _ _

omit [WorkerLibraries] in
theorem cursors_observePacket (p : LayerZeroPacket) (block : Nat) (hash : String) (index : Nat) :
    (s.observePacket p block hash index).cursors = s.cursors := by
  rw [WorkerTables.observePacket]
  split <;> rfl

variable {a b : WorkerWorld}

/-- The logs of a chunk are stored when the loop over them has ended. -/
theorem observeLogs_safe (hd : nodes.DistinctGUIDs w) (logs : List PacketSentLog)
    (hl : ∀ l ∈ logs, ∃ n, l ∈ nodes.logs eid n) (h : w.Collected nodes a.tables) :
    (w.observeLogs eid logs).Safe (WorkerStep nodes) (w.CollectNeeds nodes)
      (fun _ b => w.Collected nodes b.tables ∧ b.tables.cursors = a.tables.cursors ∧
        a.tables.packets ⊆ b.tables.packets ∧ ∀ l ∈ logs, w.Stored eid l b.tables) a := by
  induction logs generalizing a with
  | nil => exact .done ⟨h, rfl, List.Subset.refl _, fun _ hl => absurd hl List.not_mem_nil⟩
  | cons l logs ih =>
    obtain ⟨⟨n, hn⟩, hl⟩ := List.forall_mem_cons.mp hl
    refine .ofExcept_bind fun p hp => ?_
    refine .call_bind ⟨eid, n, l, hn, hp, rfl, rfl, rfl⟩ fun u b hs => ?_
    cases hs with
    | answer effect honest =>
      cases effect with
      | observePacket =>
        obtain ⟨hb, hst⟩ := h.observePacket hd hn hp
        refine (ih hl hb).weaken fun _ c ⟨hc, hcur, hsub, hall⟩ => ?_
        refine ⟨hc, hcur.trans (cursors_observePacket p _ _ _),
          List.Subset.trans (subset_observePacket p _ _ _) hsub, ?_⟩
        obtain ⟨r, hr, hh⟩ := hst
        exact List.forall_mem_cons.mpr ⟨⟨r, hsub hr, hh⟩, hall⟩

/-- The cursor that a chunk starts from is the stored one. -/
theorem collectChunks_safe (hd : nodes.DistinctGUIDs w) {chain : WorkerChain} (hm : chain ∈ w.chains) {span : Nat}
    (hspan : 1 ≤ span) (start head : Nat) (h : w.Collected nodes a.tables)
    (hcur : a.tables.cursor chain.eid chain.startBlock = start) :
    (w.collectChunks chain span hspan start head).Safe (WorkerStep nodes) (w.CollectNeeds nodes)
      (fun _ b => w.Collected nodes b.tables) a := by
  induction start using LayerZeroWorker.collectChunks.induct span hspan head generalizing a with
  | case1 start hle chunkEnd =>
    rename_i ih
    rw [LayerZeroWorker.collectChunks, if_pos hle]
    refine .call_bind trivial fun logs b hs => ?_
    cases hs with
    | answer effect honest =>
      cases effect with
      | getLogs =>
        obtain rfl : logs = nodes.range chain.eid start chunkEnd := honest
        have hmem : ∀ l ∈ nodes.range chain.eid start chunkEnd, ∃ n, l ∈ nodes.logs chain.eid n := by
          intro l hl
          obtain ⟨n, -, -, hn⟩ := PacketLogs.mem_range.mp hl
          exact ⟨n, hn⟩
        refine Prog.Safe.bind (observeLogs_safe hd _ hmem h) fun _ c hobserved => ?_
        obtain ⟨hc, hcur', -, hall⟩ := hobserved
        have hstart : c.tables.cursor chain.eid chain.startBlock = start := by
          rw [← hcur, WorkerTables.cursor, hcur', WorkerTables.cursor]
        have hstored :
            ∀ n, start ≤ n → n < chunkEnd + 1 → ∀ l ∈ nodes.logs chain.eid n, w.Stored chain.eid l c.tables :=
          fun n hn hlt l hl => hall l (PacketLogs.mem_range.mpr ⟨n, hn, Nat.lt_succ_iff.mp hlt, hl⟩)
        have hnext : start ≤ chunkEnd + 1 := by omega
        refine .call_bind ⟨chain, hm, rfl, hstart.trans_le hnext, hstart.symm ▸ hstored⟩ fun _ d hs => ?_
        cases hs with
        | answer effect honest =>
          cases effect with
          | advanceCursor =>
            refine ih (hc.advanceCursor hm (hstart.symm ▸ hstored)) ?_
            exact WorkerTables.cursor_advanceCursor _ _ _ _
  | case2 start hle =>
    rw [LayerZeroWorker.collectChunks, if_neg hle]
    exact .done h

theorem collectChains_safe (hd : nodes.DistinctGUIDs w) {span : Nat} (hspan : 1 ≤ span) (chains : List WorkerChain)
    (hm : ∀ chain ∈ chains, chain ∈ w.chains) (h : w.Collected nodes a.tables) :
    (w.collectChains span hspan chains).Safe (WorkerStep nodes) (w.CollectNeeds nodes) (fun _ _ => True) a := by
  induction chains generalizing a with
  | nil => exact .done trivial
  | cons chain chains ih =>
    obtain ⟨hm, hms⟩ := List.forall_mem_cons.mp hm
    refine .call_bind trivial fun head b hs => ?_
    cases hs with
    | answer effect honest =>
      cases effect with
      | blockNumber =>
        refine .call_bind trivial fun start c hs => ?_
        cases hs with
        | answer effect honest =>
          cases effect with
          | cursor => exact Prog.Safe.bind (collectChunks_safe hd hm hspan _ _ h rfl) fun _ d hd => ih hms hd

/-- An operation of `process`, as far as `collect` is concerned. -/
def Elsewhere (w : LayerZeroWorker) (nodes : PacketLogs) (op : WorkerOp) : Prop := ∀ s, w.CollectNeeds nodes op s

theorem driveStage_asks (action : WorkerAction) (stage : WorkerStage) (chain : WorkerChain) (target : String) :
    (w.driveStage action stage chain target).Asks (w.Elsewhere nodes) := by
  refine .ofExcept_bind fun data _ => .bind ?_ fun x => .ofExcept_bind fun _ _ => .bind ?_ fun _ =>
    .call_bind (fun _ => trivial) fun _ => .done _
  · rw [LayerZeroWorker.signedTransaction]
    split
    · exact .ofExcept_bind fun _ _ => .done _
    · exact .call_bind
        (fun _ => trivial) fun _ => .ofExcept_bind fun _ _ => .call_bind (fun _ => trivial) fun _ => .done _
  · refine .op (fun _ => trivial) fun r => ?_
    cases r with
    | ok => exact .done ()
    | error e =>
      dsimp only
      split
      · exact .done ()
      · exact .fail e

theorem submitStages_asks (guid : String) (chain : WorkerChain) (calls : List (WorkerStage × String × GoBytes)) :
    (w.submitStages guid chain calls).Asks (w.Elsewhere nodes) := by
  induction calls with
  | nil => exact .done _
  | cons call calls ih =>
    obtain ⟨stage, target, data⟩ := call
    refine .bind (.call_bind (fun _ => trivial) fun action => ?_) fun _ => ih.bind fun _ => .done _
    cases action with
    | some action =>
      dsimp only
      split
      · exact .done _
      · exact driveStage_asks action stage chain target
    | none =>
      exact .call_bind (fun _ => trivial) fun _ => .call_bind (fun _ => trivial) fun action =>
        driveStage_asks action stage chain target

theorem submitPackets_asks (rows : List PacketRow) :
    (w.submitPackets rows).Asks (w.Elsewhere nodes) := by
  induction rows with
  | nil => exact .done _
  | cons row rows ih =>
    exact .ofExcept_bind fun _ _ => .ofExcept_bind fun _ _ => .ofExcept_bind fun _ _ => .call_bind (fun _ => trivial)
      fun _ => .ofExcept_bind fun _ _ => (submitStages_asks _ _ _).bind fun _ => ih.bind fun _ => .done _

theorem finalizeStage_asks (pending : Pending) :
    (w.finalizeStage pending).Asks (w.Elsewhere nodes) := by
  refine .call_bind (fun _ => trivial) fun receipt => .call_bind (fun _ => trivial) fun _ => ?_
  dsimp only
  split
  · exact .call_bind (fun _ => trivial) fun _ => .fail _
  · split
    · exact .call_bind (fun _ => trivial) fun _ => .fail _
    · exact .call_bind (fun _ => trivial) fun _ => .call fun _ => trivial

theorem finalizeStages_asks (pending : List Pending) :
    (w.finalizeStages pending).Asks (w.Elsewhere nodes) := by
  induction pending with
  | nil => exact .done _
  | cons p pending ih => exact (finalizeStage_asks p).bind fun _ => ih

theorem stageActions_asks (guid : String) (stages : List WorkerStage) :
    (stageActions guid stages).Asks (w.Elsewhere nodes) := by
  induction stages with
  | nil => exact .done _
  | cons stage stages ih => exact .call_bind (fun _ => trivial) fun _ => ih.bind fun _ => .done _

theorem markPackets_asks (guids : List String) : (markPackets guids).Asks (w.Elsewhere nodes) := by
  induction guids with
  | nil => exact .done _
  | cons guid guids ih =>
    refine (stageActions_asks guid _).bind fun stages => ?_
    dsimp only
    split
    · exact .call_bind (fun _ => trivial) fun _ => ih
    · exact ih

theorem heads_asks (chains : List WorkerChain) :
    (LayerZeroWorker.heads chains).Asks (w.Elsewhere nodes) := by
  induction chains with
  | nil => exact .done _
  | cons chain chains ih => exact .call_bind (fun _ => trivial) fun _ => ih.bind fun _ => .done _

theorem process_asks : w.process.Asks (w.Elsewhere nodes) :=
  (heads_asks _).bind fun _ => .call_bind (fun _ => trivial) fun _ => (submitPackets_asks _).bind fun _ =>
    (finalizeStages_asks _).bind fun _ => markPackets_asks _

theorem cycle_safe (hd : nodes.DistinctGUIDs w) (c : WorkerCycle) (h : w.Collected nodes a.tables) :
    (w.cycle c).Safe (WorkerStep nodes) (w.CollectNeeds nodes) (fun _ _ => True) a := by
  cases c with
  | collect span hspan => exact collectChains_safe hd hspan _ (fun _ hm => hm) h
  | process => exact .of_asks process_asks a

theorem Collected.run (hd : nodes.DistinctGUIDs w)
    {p p' : Process WorkerWorld WorkerOp (fun op => Except WorkerError op.Value) WorkerError Unit}
    {es : List (Process.Event WorkerCycle WorkerOp)} (run : Run (Process.Step (WorkerStep nodes) w.cycle) p es p')
    (h : p.Sound (WorkerStep nodes) (w.CollectNeeds nodes) fun s => w.Collected nodes s.tables) :
    (p'.Sound (WorkerStep nodes) (w.CollectNeeds nodes) fun s => w.Collected nodes s.tables) ∧
      CursorsLE w p.shared.tables p'.shared.tables := by
  have trans {s t u : WorkerWorld} (h : CursorsLE w s.tables t.tables) (h' : CursorsLE w t.tables u.tables) :
      CursorsLE w s.tables u.tables := h.trans h'
  exact Process.safe_of_run (I := fun s => w.Collected nodes s.tables) (R := fun s t => CursorsLE w s.tables t.tables)
    (fun _ c h => (cycle_safe hd c h).imp fun hs => hs.1) (fun h needs hs => h.step hd needs hs)
      (fun s => .refl s.tables) trans run h

theorem Collected.empty : w.Collected nodes .empty :=
  ⟨fun _ hr => absurd hr List.not_mem_nil, List.nodup_nil, fun _ _ _ hb hlt =>
    absurd hlt (not_lt.mpr hb)⟩

end LayerZeroWorker

open LayerZeroWorker in
/-- Whatever the cycles and their crashes, the logs before a cursor are stored once each, and no cursor moves back. -/
theorem collect_complete (w : LayerZeroWorker) (nodes : PacketLogs) (hd : nodes.DistinctGUIDs w)
    {p p' : Process WorkerWorld WorkerOp (fun op => Except WorkerError op.Value) WorkerError Unit}
    {es es' : List (Process.Event WorkerCycle WorkerOp)}
    (run : Run (Process.Step (WorkerStep nodes) w.cycle) LayerZeroWorker.fresh es p)
    (run' : Run (Process.Step (WorkerStep nodes) w.cycle) p es' p') :
    ∀ chain ∈ w.chains,
      (∀ b, chain.startBlock ≤ b → b < p.shared.tables.cursor chain.eid chain.startBlock →
        ∀ l ∈ nodes.logs chain.eid b, w.StoredOnce chain.eid l p.shared.tables) ∧
      p.shared.tables.cursor chain.eid chain.startBlock ≤ p'.shared.tables.cursor chain.eid chain.startBlock := by
  obtain ⟨h, -⟩ := Collected.run hd run ⟨.empty, .done trivial⟩
  obtain ⟨-, hle⟩ := Collected.run hd run' h
  exact fun chain hm => ⟨fun b hb hlt l hl => h.1.storedOnce hl (h.1.complete chain hm b hb hlt l hl), hle chain hm⟩

end

theorem collect_complete_first :
    let _ : Unicode := asciiUnicode
    let _ : Digests := Sample.lengthDigests
    let _ : WorkerLibraries := Sample.libraries
    ∃ es p, Run (Process.Step (WorkerStep Sample.nodes) Sample.worker.cycle) LayerZeroWorker.fresh es p ∧
      p.shared.tables.cursor 1 0 = 1 ∧ Sample.worker.StoredOnce 1 Sample.log p.shared.tables := by
  let _ : Unicode := asciiUnicode
  let _ : Digests := Sample.lengthDigests
  let _ : WorkerLibraries := Sample.libraries
  have h : ∃ es q, Run (Process.Step (WorkerStep Sample.nodes) Sample.worker.cycle) LayerZeroWorker.fresh es ⟨_, q⟩ :=
    Process.run_calls _ Sample.answer_step [.collect 1 le_rfl]
  obtain ⟨es, q, run⟩ := h
  have hs := congrArg Prod.snd Sample.collect_run
  have hcur : ((Sample.worker.collect 1 le_rfl).run Sample.answer .empty).2.tables.cursor 1 0 = 1 := by rw [hs]; rfl
  have hd : Sample.nodes.DistinctGUIDs Sample.worker :=
    fun hl hl' _ _ _ => (Sample.nodes_log hl).trans (Sample.nodes_log hl').symm
  obtain ⟨hstored, -⟩ := collect_complete Sample.worker Sample.nodes hd run (.nil _) Sample.chain
    (List.mem_singleton_self _)
  refine ⟨es, _, run, hcur, hstored 0 le_rfl ?_ Sample.log (List.mem_singleton_self _)⟩
  show 0 < ((Sample.worker.collect 1 le_rfl).run Sample.answer .empty).2.tables.cursor 1 0
  rw [hcur]
  exact Nat.one_pos

end Xir.Impl.XirLab
