import Xir.Framework.Run
import Xir.Impl.XirLab.EvmCollector
import Xir.Proof.Submission
import Xir.Proof.Text

/-!
# The collection of transactions

A call changes the store only where its store transaction commits
(`collectTransaction_cases`), which adds the rows that the answers of its
provider give (`TakenFrom`, `commit_spec`). So the rows of a transaction are
those of one call (`Books`). A call that finds them counts the snapshots of the
whole attempt, which are its own where no other transaction of the attempt has
any (`Alone`).
-/

namespace Xir.Impl.XirLab.EvmCollector

open Strings (toLower)

variable {s s' : CollectorStore} {transactionID : String} {c : Collection}

/-! ## The store transaction -/

/-- A fold of inserts that succeeds has added all rows. -/
theorem foldlM_insert {α ρ : Type} {insert : CollectorStore → ρ → Except CollectorError CollectorStore}
    {table : CollectorStore → List ρ} {other : CollectorStore → α}
    (hi : ∀ {s s' : CollectorStore} {row : ρ}, insert s row = .ok s' →
      table s' = table s ++ [row] ∧ other s' = other s) {rows : List ρ}
    (h : rows.foldlM insert s = .ok s') : table s' = table s ++ rows ∧ other s' = other s := by
  induction rows generalizing s with
  | nil =>
    obtain rfl := Except.ok.inj h
    exact ⟨(List.append_nil _).symm, rfl⟩
  | cons row rows ih =>
    obtain ⟨s₁, hstep, h⟩ := foldlM_cons_eq_ok.mp h
    obtain ⟨htable, hother⟩ := hi hstep
    obtain ⟨htable', hother'⟩ := ih h
    exact ⟨by rw [htable', htable, List.append_assoc]; rfl, hother'.trans hother⟩

/-- The other tables. -/
abbrev beside (s : CollectorStore) :
    Store × List ObservationRow × List BlockHeaderRow × List EvmReceiptRow × List ResourceRow :=
  (s.store, s.observations, s.headers, s.receipts, s.resources)

theorem insertLog_eq {row : LogRow} (h : s.insertLog row = .ok s') :
    s'.events = s.events ++ [row] ∧ (beside s', s'.snapshots) = (beside s, s.snapshots) := by
  obtain ⟨-, h⟩ := revertIf_bind.mp h
  obtain rfl := Except.ok.inj h
  exact ⟨rfl, rfl⟩

theorem insertSnapshot_eq {row : SnapshotRow} (h : s.insertSnapshot row = .ok s') :
    s'.snapshots = s.snapshots ++ [row] ∧ (beside s', s'.events) = (beside s, s.events) := by
  obtain ⟨-, h⟩ := revertIf_bind.mp h
  obtain rfl := Except.ok.inj h
  exact ⟨rfl, rfl⟩

/-- A transaction is known, with its attempt and its hash. -/
def KnownAs (s : CollectorStore) (transactionID attemptID transactionHash : String) : Prop :=
  ∃ record, s.known transactionID = some (record, attemptID) ∧ record.transactionHash = some transactionHash

/-- What is known stays known. -/
def KeepsKnown (s s' : CollectorStore) : Prop :=
  ∀ {transactionID attemptID transactionHash : String}, KnownAs s transactionID attemptID transactionHash →
    KnownAs s' transactionID attemptID transactionHash

theorem known_eq {record : TransactionRow} {attemptID : String} : s.known transactionID = some (record, attemptID) ↔
    s.store.transaction transactionID = some record ∧ ∃ intent, s.store.intent record.intentID = some intent ∧
      ∃ stage, s.store.stage intent.stageID = some stage ∧ stage.attemptID = attemptID := by
  constructor
  · intro h
    obtain ⟨r, hr, h⟩ := Option.bind_eq_some_iff.mp h
    obtain ⟨intent, hintent, h⟩ := Option.bind_eq_some_iff.mp h
    obtain ⟨stage, hstage, h⟩ := Option.bind_eq_some_iff.mp h
    obtain ⟨rfl, rfl⟩ := Prod.mk.inj (Option.some.inj h)
    exact ⟨hr, intent, hintent, stage, hstage, rfl⟩
  · intro h
    obtain ⟨hr, intent, hintent, stage, hstage, rfl⟩ := h
    exact Option.bind_eq_some_iff.mpr ⟨record, hr, Option.bind_eq_some_iff.mpr ⟨intent, hintent,
      Option.bind_eq_some_iff.mpr ⟨stage, hstage, rfl⟩⟩⟩

theorem setIncluded_spec (h : s.setIncluded transactionID = .ok s') :
    (s'.observations, s'.headers, s'.receipts, s'.resources, s'.events, s'.snapshots) =
      (s.observations, s.headers, s.receipts, s.resources, s.events, s.snapshots) ∧ KeepsKnown s s' := by
  obtain ⟨current, -, h⟩ := orRevert_bind.mp h
  split at h
  · obtain rfl := Except.ok.inj h
    exact ⟨rfl, fun h => h⟩
  · obtain ⟨store, hstore, h⟩ := mapError_bind.mp h
    obtain rfl := Except.ok.inj h
    refine ⟨rfl, fun hknown => ?_⟩
    obtain ⟨record, hrecord, hhash⟩ := hknown
    obtain ⟨htransaction, intent, hintent, stage, hstage, hattempt⟩ := known_eq.mp hrecord
    have hrow := setTransaction_transaction hstore (fun _ => rfl) record.transactionID
    have hid := transaction_transactionID htransaction
    obtain ⟨-, rfl⟩ := putTransactions_eq_ok.mp hstore
    rw [hid, htransaction] at hrow
    split at hrow
    · exact ⟨_, known_eq.mpr ⟨hrow, intent, hintent, stage, hstage, hattempt⟩, hhash⟩
    · exact ⟨record, known_eq.mpr ⟨hrow, intent, hintent, stage, hstage, hattempt⟩, hhash⟩

/-- What a store transaction that commits leaves. -/
structure Committed (s : CollectorStore) (c : Collection) (s' : CollectorStore) : Prop where
  observations : s'.observations = s.observations
  headers : s'.headers = s.headers ∨ s'.headers = s.headers ++ [c.header]
  receipts : s'.receipts = s.receipts ++ [c.receipt]
  resources : s'.resources = s.resources ++ [c.resource]
  events : s'.events = s.events ++ c.events
  snapshots : s'.snapshots = s.snapshots ++ c.snapshots
  known : KeepsKnown s s'

theorem commit_spec (h : commit s transactionID c = .ok s') : Committed s c s' := by
  obtain ⟨s₁, hheader, h⟩ := bind_eq_ok.mp h
  obtain ⟨s₂, hreceipt, h⟩ := bind_eq_ok.mp h
  obtain ⟨s₃, hresource, h⟩ := bind_eq_ok.mp h
  obtain ⟨s₄, hevents, h⟩ := bind_eq_ok.mp h
  obtain ⟨s₅, hsnapshots, hstate⟩ := bind_eq_ok.mp h
  have hheaders : s₁.headers = s.headers ∨ s₁.headers = s.headers ++ [c.header] := by
    unfold CollectorStore.insertHeader at hheader
    split at hheader
    · exact absurd hheader nofun
    split at hheader <;> obtain rfl := Except.ok.inj hheader
    · exact .inl rfl
    · exact .inr rfl
  have hbeside : (s₁.store, s₁.observations, s₁.receipts, s₁.resources, s₁.events, s₁.snapshots) =
      (s.store, s.observations, s.receipts, s.resources, s.events, s.snapshots) := by
    unfold CollectorStore.insertHeader at hheader
    split at hheader
    · exact absurd hheader nofun
    split at hheader <;> obtain rfl := Except.ok.inj hheader <;> rfl
  obtain ⟨-, hreceipt⟩ := revertIf_bind.mp hreceipt
  obtain rfl := Except.ok.inj hreceipt
  obtain ⟨-, hresource⟩ := revertIf_bind.mp hresource
  obtain rfl := Except.ok.inj hresource
  obtain ⟨htable, hother⟩ := foldlM_insert insertLog_eq hevents
  obtain ⟨htable', hother'⟩ := foldlM_insert insertSnapshot_eq hsnapshots
  obtain ⟨hlast, hknown⟩ := setIncluded_spec hstate
  simp only [Prod.mk.injEq] at hbeside hother hother' hlast
  obtain ⟨hstore₁, hobservations₁, hreceipts₁, hresources₁, hevents₁, hsnapshots₁⟩ := hbeside
  obtain ⟨⟨hstore₄, hobservations₄, hheaders₄, hreceipts₄, hresources₄⟩, hsnapshots₄⟩ := hother
  obtain ⟨⟨hstore₅, hobservations₅, hheaders₅, hreceipts₅, hresources₅⟩, hevents₅⟩ := hother'
  obtain ⟨hobservations, hheaders', hreceipts, hresources, hevents, hsnapshots⟩ := hlast
  refine ⟨?_, ?_, ?_, ?_, ?_, ?_, fun hk => hknown ?_⟩
  · rw [hobservations, hobservations₅, hobservations₄, hobservations₁]
  · rw [hheaders', hheaders₅, hheaders₄]
    exact hheaders
  · rw [hreceipts, hreceipts₅, hreceipts₄, hreceipts₁]
  · rw [hresources, hresources₅, hresources₄, hresources₁]
  · rw [hevents, hevents₅, htable, hevents₁]
  · rw [hsnapshots, htable', hsnapshots₄, hsnapshots₁]
  · have hstore : s₅.store = s.store := hstore₅.trans (hstore₄.trans hstore₁)
    rwa [KnownAs, CollectorStore.known, hstore]

/-- The rows with a key, after some of one key were added. -/
theorem filter_append_key {ρ : Type} (key : ρ → String) {rows added : List ρ} {id : String}
    (ha : ∀ row ∈ added, key row = id) (id' : String) : (rows ++ added).filter (fun row => key row = id') =
      rows.filter (fun row => key row = id') ++ if id' = id then added else [] := by
  rw [List.filter_append]
  refine congrArg _ ?_
  split
  · rename_i h
    exact List.filter_eq_self.mpr fun row hr => decide_eq_true ((ha row hr).trans h.symm)
  · rename_i h
    exact List.filter_eq_nil_iff.mpr fun row hr hkey => h ((of_decide_eq_true hkey).symm.trans (ha row hr))

/-! ## What a call takes from its provider -/

variable [EvmLibraries]

theorem map_balanceRow {provider : EvmProvider} {address : String} {blocks : List Int}
    {rows : List (String × PublicBalance × String)} (h : blocks.mapM (balanceRow provider address) = .ok rows) :
    rows.map (fun b => (b.1, b.2.1.blockNumber)) = blocks.map fun block => (address, block) := by
  induction blocks generalizing rows with
  | nil =>
    obtain rfl := Except.ok.inj h
    rfl
  | cons block blocks ih =>
    obtain ⟨row, hrow, rows', hrows, rfl⟩ := mapM_cons_eq_ok.mp h
    obtain ⟨envelope, -, hrow⟩ := orRevert_bind.mp hrow
    obtain ⟨hsame, hrow⟩ := revertIf_bind.mp hrow
    obtain ⟨raw, -, hrow⟩ := bind_eq_ok.mp hrow
    obtain rfl := Except.ok.inj hrow
    have hblock : envelope.value.blockNumber = block := by_contra fun hne => hsame (.inr (.inl hne))
    rw [List.map_cons, List.map_cons, ih hrows, hblock]

theorem map_balanceRowsOf {provider : EvmProvider} {blocks : List Int} {accounts : List String}
    {rows : List (List (String × PublicBalance × String))}
    (h : accounts.mapM (balanceRowsOf provider blocks) = .ok rows) :
    rows.flatten.map (fun b => (b.1, b.2.1.blockNumber)) =
      accounts.flatMap fun address => blocks.map fun block => (address, block) := by
  induction accounts generalizing rows with
  | nil =>
    obtain rfl := Except.ok.inj h
    rfl
  | cons address accounts ih =>
    obtain ⟨row, hrow, rows', hrows, rfl⟩ := mapM_cons_eq_ok.mp h
    obtain ⟨-, hrow⟩ := revertIf_bind.mp hrow
    rw [List.flatten_cons, List.map_append, ih hrows, map_balanceRow hrow, List.flatMap_cons]

/-- The rows of a call are those of the answers of its provider: a row for each log, and one for
each account and block. -/
structure TakenFrom (call : Call) (attemptID transactionHash : String) (c : Collection)
    (collected : CollectedTransaction) : Prop where
  receipt_id : c.receipt.transactionID = call.transactionID
  resource_id : c.resource.transactionID = call.transactionID
  events_id (row : LogRow) : row ∈ c.events → row.transactionID = call.transactionID
  snapshots_id (row : SnapshotRow) :
    row ∈ c.snapshots → row.snapshotID.1 = call.transactionID ∧ row.attemptID = attemptID
  logs : ∃ receipt, call.provider.receipt transactionHash = some (some receipt) ∧
    c.events.map (fun row => (row.logIndex, row.topic0)) = receipt.value.logs.map fun log => (log.logIndex, log.topic0)
  logs_nodup : (c.events.map LogRow.logIndex).Nodup
  balances : c.snapshots.map (fun row => (row.account, row.blockNumber)) =
    (distinctAccounts call.balanceAccounts).flatMap fun address =>
      (balanceBlocks c.receipt.blockNumber).map fun block => (address, block)
  header : c.header.chainID = c.resource.chainID ∧ c.header.blockNumber = c.receipt.blockNumber ∧
    toLower c.header.blockHash = toLower c.receipt.blockHash
  collected_eq :
    collected = ⟨call.transactionID, transactionHash, c.resource.chainID, c.receipt.blockNumber, c.receipt.gasUsed,
    c.resource.executionFeeWei, c.resource.inputBytes, c.snapshots.length⟩

theorem collection_spec {call : Call} {record : TransactionRow} {attemptID transactionHash : String}
    {collected : CollectedTransaction}
    (h : collection call.transactionID record attemptID transactionHash call.provider call.balanceAccounts call.crash =
      .ok (c, collected)) : TakenFrom call attemptID transactionHash c collected := by
  obtain ⟨transaction₀, -, h⟩ := orRevert_bind.mp h
  obtain ⟨receipt₀, hreceipt, h⟩ := orRevert_bind.mp h
  obtain ⟨transaction, -, h⟩ := orRevert_bind.mp h
  obtain ⟨receipt, hsome, h⟩ := orRevert_bind.mp h
  obtain ⟨block₀, -, h⟩ := orRevert_bind.mp h
  obtain ⟨block, -, h⟩ := orRevert_bind.mp h
  obtain ⟨_, hvalid, h⟩ := bind_eq_ok.mp h
  obtain ⟨-, h⟩ := revertIf_bind.mp h
  obtain ⟨_, -, h⟩ := bind_eq_ok.mp h
  obtain ⟨receiptRaw, -, h⟩ := bind_eq_ok.mp h
  obtain ⟨blockRaw, -, h⟩ := bind_eq_ok.mp h
  obtain ⟨balances, hbalances, h⟩ := bind_eq_ok.mp h
  obtain ⟨-, h⟩ := revertIf_bind.mp h
  obtain ⟨rfl, rfl⟩ := Prod.mk.inj (Except.ok.inj h)
  obtain ⟨-, hvalid⟩ := revertIf_bind.mp hvalid
  obtain ⟨-, hvalid⟩ := revertIf_bind.mp hvalid
  obtain ⟨hheader, hvalid⟩ := revertIf_bind.mp hvalid
  obtain ⟨-, hvalid⟩ := revertIf_bind.mp hvalid
  obtain ⟨-, hvalid⟩ := revertIf_bind.mp hvalid
  obtain ⟨-, hvalid⟩ := revertIf_bind.mp hvalid
  obtain ⟨-, hvalid⟩ := revertIf_bind.mp hvalid
  obtain ⟨-, hvalid⟩ := revertIf_bind.mp hvalid
  obtain ⟨hnodup, -⟩ := revertIf_bind.mp hvalid
  simp only [not_or, not_not] at hheader hnodup
  refine ⟨rfl, rfl, fun row hr => ?_, fun row hr => ?_, ⟨receipt, by rw [hreceipt, hsome], ?_⟩, ?_, ?_,
    ⟨rfl, hheader.1.symm, hheader.2.symm⟩, ?_⟩
  · obtain ⟨log, -, rfl⟩ := List.mem_map.mp hr
    rfl
  · obtain ⟨balance, -, rfl⟩ := List.mem_map.mp hr
    exact ⟨rfl, rfl⟩
  · rw [List.map_map]
    rfl
  · rw [List.map_map]
    exact hnodup
  · rw [List.map_map]
    exact map_balanceRowsOf hbalances
  · rw [List.length_map]

/-- How a call ends, and what it leaves. -/
theorem collectTransaction_cases {call : Call} {outcome : Outcome} (h : collectTransaction s call = (s', outcome)) :
    (s' = s ∧ ∀ collected, outcome ≠ .returned collected) ∨
    (∃ attemptID transactionHash resource receipt, KnownAs s call.transactionID attemptID transactionHash ∧
      s.existing call.transactionID = some (resource, receipt) ∧ s' = s ∧
      outcome = .returned (replay s call.transactionID transactionHash resource receipt)) ∨
    ∃ attemptID transactionHash c collected, KnownAs s call.transactionID attemptID transactionHash ∧
      s.existing call.transactionID = none ∧ TakenFrom call attemptID transactionHash c collected ∧ Committed s c s' ∧
      (outcome = .died ∨ outcome = .returned collected) := by
  unfold collectTransaction at h
  split at h
  · obtain ⟨rfl, rfl⟩ := Prod.mk.inj h
    exact .inl ⟨rfl, fun _ hc => by cases hc⟩
  rename_i record attemptID hknown
  split at h
  · obtain ⟨rfl, rfl⟩ := Prod.mk.inj h
    exact .inl ⟨rfl, fun _ hc => by cases hc⟩
  rename_i transactionHash hhash
  split at h
  · rename_i resource receipt hexisting
    obtain ⟨rfl, rfl⟩ := Prod.mk.inj h
    exact .inr (.inl ⟨attemptID, transactionHash, resource, receipt, ⟨record, hknown, hhash⟩, hexisting, rfl, rfl⟩)
  rename_i hexisting
  split at h
  · obtain ⟨rfl, rfl⟩ := Prod.mk.inj h
    exact .inl ⟨rfl, fun _ hc => by cases hc⟩
  rename_i t collected hcollect
  obtain ⟨⟨c, collected'⟩, hcollection, hcollect⟩ := bind_eq_ok.mp hcollect
  obtain ⟨t', hcommit, hcollect⟩ := bind_eq_ok.mp hcollect
  obtain ⟨rfl, rfl⟩ := Prod.mk.inj (Except.ok.inj hcollect)
  have htaken := collection_spec hcollection
  have hcommitted := commit_spec hcommit
  split at h
  · obtain ⟨rfl, rfl⟩ := Prod.mk.inj h
    exact .inl ⟨rfl, fun _ hc => by cases hc⟩
  split at h
  · obtain ⟨rfl, rfl⟩ := Prod.mk.inj h
    exact .inr
      (.inr ⟨attemptID, transactionHash, c, _, ⟨record, hknown, hhash⟩, hexisting, htaken, hcommitted, .inl rfl⟩)
  · obtain ⟨rfl, rfl⟩ := Prod.mk.inj h
    exact .inr
      (.inr ⟨attemptID, transactionHash, c, _, ⟨record, hknown, hhash⟩, hexisting, htaken, hcommitted, .inr rfl⟩)

/-! ## Runs -/

/-- What other code may do to the store between two calls: known transactions keep their attempts
and hashes, and only collected ones are observed. -/
structure Elsewhere (s s' : CollectorStore) : Prop where
  tables : (s'.headers, s'.receipts, s'.resources, s'.events, s'.snapshots) =
    (s.headers, s.receipts, s.resources, s.events, s.snapshots)
  known : KeepsKnown s s'
  observed (o : ObservationRow) :
    o ∈ s'.observations → o ∈ s.observations ∨ o.transactionID ∈ s.receipts.map EvmReceiptRow.transactionID

inductive Event
  | call (call : Call) (outcome : Outcome)
  | elsewhere

def Step (s : CollectorStore) : Event → CollectorStore → Prop
  | .call call outcome, s' => collectTransaction s call = (s', outcome)
  | .elsewhere, s' => Elsewhere s s'

/-- Where a call is for a collected transaction, no other transaction of its attempt has snapshots. -/
def Alone (s : CollectorStore) : Event → Prop
  | .call call _ => (s.existing call.transactionID).isSome = true → ∀ record attemptID,
    s.known call.transactionID = some (record, attemptID) →
      ∀ row ∈ s.snapshots, row.attemptID = attemptID → row.snapshotID.1 = call.transactionID
  | .elsewhere => True

/-- A store in which nothing was collected. -/
structure Fresh (s : CollectorStore) : Prop where
  receipts : s.receipts = []
  resources : s.resources = []
  events : s.events = []
  snapshots : s.snapshots = []
  observations : s.observations = []

/-- A call that has collected a transaction, and its rows. -/
structure Taken where
  call : Call
  attemptID : String
  transactionHash : String
  rows : Collection
  collected : CollectedTransaction

variable {w : String → Option Taken} {t : Taken}

/-- The rows of each transaction are those of the call that has collected it. -/
structure Books (s : CollectorStore) (w : String → Option Taken) : Prop where
  receipts (id : String) :
    s.receipts.filter (fun row => row.transactionID = id) = (w id).toList.map fun t => t.rows.receipt
  resources (id : String) :
    s.resources.filter (fun row => row.transactionID = id) = (w id).toList.map fun t => t.rows.resource
  events (id : String) :
    s.events.filter (fun row => row.transactionID = id) = (w id).toList.flatMap fun t => t.rows.events
  snapshots (id : String) :
    s.snapshots.filter (fun row => row.snapshotID.1 = id) = (w id).toList.flatMap fun t => t.rows.snapshots
  taken (id : String) (t : Taken) :
    w id = some t → KnownAs s id t.attemptID t.transactionHash ∧ t.call.transactionID = id ∧
    TakenFrom t.call t.attemptID t.transactionHash t.rows t.collected
  observed (o : ObservationRow) : o ∈ s.observations → (w o.transactionID).isSome = true

theorem Fresh.books (h : Fresh s) : Books s fun _ => none where
  receipts _ := by rw [h.receipts]; rfl
  resources _ := by rw [h.resources]; rfl
  events _ := by rw [h.events]; rfl
  snapshots _ := by rw [h.snapshots]; rfl
  taken _ _ ht := by cases ht
  observed o ho := by
    rw [h.observations] at ho
    exact absurd ho List.not_mem_nil

theorem Books.mem_receipts (b : Books s w) {id : String} :
    id ∈ s.receipts.map EvmReceiptRow.transactionID ↔ (w id).isSome = true := by
  have h := b.receipts id
  constructor
  · intro hid
    obtain ⟨row, hr, rfl⟩ := List.mem_map.mp hid
    have hmem : row ∈ s.receipts.filter fun r => r.transactionID = row.transactionID :=
      List.mem_filter.mpr ⟨hr, decide_eq_true rfl⟩
    rw [h] at hmem
    cases hw : w row.transactionID with
    | none =>
      rw [hw] at hmem
      exact absurd hmem List.not_mem_nil
    | some t => rfl
  · intro hw
    obtain ⟨t, ht⟩ := Option.isSome_iff_exists.mp hw
    rw [ht] at h
    have hmem : t.rows.receipt ∈ s.receipts.filter fun r => r.transactionID = id := by
      rw [h]
      exact List.mem_singleton_self _
    obtain ⟨hr, hid⟩ := List.mem_filter.mp hmem
    exact List.mem_map.mpr ⟨_, hr, of_decide_eq_true hid⟩

theorem Books.existing_eq (b : Books s w) (id : String) :
    s.existing id = (w id).map fun t => (t.rows.resource, t.rows.receipt) := by
  have hresource : (s.resources.find? fun row => row.transactionID = id) = (w id).map fun t => t.rows.resource := by
    rw [← List.head?_filter, b.resources]
    cases w id <;> rfl
  have hreceipt : (s.receipts.find? fun row => row.transactionID = id) = (w id).map fun t => t.rows.receipt := by
    rw [← List.head?_filter, b.receipts]
    cases w id <;> rfl
  rw [CollectorStore.existing, hresource, hreceipt]
  cases w id <;> rfl

omit [EvmLibraries] in
theorem KnownAs.eq {id attemptID attemptID' transactionHash transactionHash' : String}
    (h : KnownAs s id attemptID transactionHash) (h' : KnownAs s id attemptID' transactionHash') :
    attemptID = attemptID' ∧ transactionHash = transactionHash' := by
  obtain ⟨record, hr, hh⟩ := h
  obtain ⟨record', hr', hh'⟩ := h'
  obtain ⟨rfl, rfl⟩ := Prod.mk.inj (Option.some.inj (hr.symm.trans hr'))
  exact ⟨rfl, Option.some.inj (hh.symm.trans hh')⟩

/-- The snapshots of an attempt are those of one transaction, where it is alone. -/
theorem Books.balanceCount_eq (b : Books s w) {id : String} (ht : w id = some t)
    (ha : ∀ row ∈ s.snapshots, row.attemptID = t.attemptID → row.snapshotID.1 = id) :
    s.balanceCount id = t.rows.snapshots.length := by
  obtain ⟨⟨record, hknown, -⟩, hid, htaken⟩ := b.taken id t ht
  have hsnapshots := b.snapshots id
  rw [ht] at hsnapshots
  have hfilter : (s.snapshots.filter fun row => row.attemptID = t.attemptID) =
      s.snapshots.filter fun row => row.snapshotID.1 = id := by
    refine List.filter_congr fun row hr => decide_eq_decide.mpr ⟨ha row hr, fun hown => ?_⟩
    have hmem : row ∈ s.snapshots.filter fun row => row.snapshotID.1 = id :=
      List.mem_filter.mpr ⟨hr, decide_eq_true hown⟩
    rw [hsnapshots] at hmem
    simp only [Option.toList_some, List.flatMap_cons, List.flatMap_nil, List.append_nil] at hmem
    exact (htaken.snapshots_id row hmem).2
  rw [CollectorStore.balanceCount, hknown]
  show s.snapshots.countP _ = _
  rw [List.countP_eq_length_filter, hfilter, hsnapshots]
  simp

/-- A call for a collected transaction that is alone returns what the call that has collected it has returned. -/
theorem Books.replay_eq (b : Books s w) {id transactionHash attemptID : String} {resource : ResourceRow}
    {receipt : EvmReceiptRow} (hk : KnownAs s id attemptID transactionHash)
    (he : s.existing id = some (resource, receipt))
    (ha : ∀ row ∈ s.snapshots, row.attemptID = attemptID → row.snapshotID.1 = id) :
    ∃ t, w id = some t ∧ replay s id transactionHash resource receipt = t.collected := by
  rw [b.existing_eq] at he
  obtain ⟨t, ht, hrows⟩ := Option.map_eq_some_iff.mp he
  obtain ⟨rfl, rfl⟩ := Prod.mk.inj hrows
  obtain ⟨hknown, hid, htaken⟩ := b.taken id t ht
  obtain ⟨rfl, rfl⟩ := hk.eq hknown
  refine ⟨t, ht, ?_⟩
  rw [replay, b.balanceCount_eq ht ha, htaken.collected_eq, hid]

/-- The books after a call has collected a transaction. -/
theorem Books.add (b : Books s w) (t : Taken) (hn : w t.call.transactionID = none)
    (hk : KnownAs s t.call.transactionID t.attemptID t.transactionHash)
    (ht : TakenFrom t.call t.attemptID t.transactionHash t.rows t.collected) (hc : Committed s t.rows s') :
    Books s' (Function.update w t.call.transactionID (some t)) := by
  refine ⟨fun id => ?_, fun id => ?_, fun id => ?_, fun id => ?_, fun id t' ht' => ?_, fun o ho => ?_⟩
  · rw [hc.receipts,
      filter_append_key EvmReceiptRow.transactionID fun row hr => List.mem_singleton.mp hr ▸ ht.receipt_id,
      b.receipts]
    by_cases h : id = t.call.transactionID
    · subst h
      simp [hn]
    · simp [h]
  · rw [hc.resources,
      filter_append_key ResourceRow.transactionID fun row hr => List.mem_singleton.mp hr ▸ ht.resource_id,
      b.resources]
    by_cases h : id = t.call.transactionID
    · subst h
      simp [hn]
    · simp [h]
  · rw [hc.events, filter_append_key LogRow.transactionID ht.events_id, b.events]
    by_cases h : id = t.call.transactionID
    · subst h
      simp [hn]
    · simp [h]
  · rw [hc.snapshots,
      filter_append_key
      (fun row : SnapshotRow => row.snapshotID.1) fun row hr => (ht.snapshots_id row hr).1, b.snapshots]
    by_cases h : id = t.call.transactionID
    · subst h
      simp [hn]
    · simp [h]
  · by_cases h : id = t.call.transactionID
    · subst h
      rw [Function.update_self] at ht'
      obtain rfl := Option.some.inj ht'
      exact ⟨hc.known hk, rfl, ht⟩
    · rw [Function.update_of_ne h] at ht'
      obtain ⟨hknown, hrest⟩ := b.taken id t' ht'
      exact ⟨hc.known hknown, hrest⟩
  · rw [hc.observations] at ho
    by_cases h : o.transactionID = t.call.transactionID
    · rw [h, Function.update_self]
      rfl
    · rw [Function.update_of_ne h]
      exact b.observed o ho

theorem Books.elsewhere (b : Books s w) (h : Elsewhere s s') : Books s' w := by
  have htables := h.tables
  simp only [Prod.mk.injEq] at htables
  obtain ⟨-, hreceipts, hresources, hevents, hsnapshots⟩ := htables
  refine ⟨fun id => hreceipts ▸ b.receipts id, fun id => hresources ▸ b.resources id, fun id => hevents ▸ b.events id,
    fun id => hsnapshots ▸ b.snapshots id, fun id t ht => ?_, fun o ho => ?_⟩
  · obtain ⟨hknown, hrest⟩ := b.taken id t ht
    exact ⟨h.known hknown, hrest⟩
  · obtain ho | ho := h.observed o ho
    · exact b.observed o ho
    · exact b.mem_receipts.mp ho

/-- What the events of a run say about the books. -/
structure History (s : CollectorStore) (es : List Event) (w : String → Option Taken) : Prop where
  books : Books s w
  called (id : String) (t : Taken) : w id = some t → ∃ outcome, Event.call t.call outcome ∈ es
  returned (call : Call) (collected : CollectedTransaction) : Event.call call (.returned collected) ∈ es →
    ∃ t, w call.transactionID = some t ∧ t.collected = collected

variable {es : List Event} {e : Event}

/-- An event after which the books are the same, and which returns nothing else than them. -/
theorem History.snoc (h : History s es w) (hb : Books s' w)
    (hr : ∀ call collected, e = .call call (.returned collected) →
    ∃ t, w call.transactionID = some t ∧ t.collected = collected) : History s' (es ++ [e]) w := by
  refine ⟨hb, fun id t ht => ?_, fun call collected hmem => ?_⟩
  · obtain ⟨outcome, hmem⟩ := h.called id t ht
    exact ⟨outcome, List.mem_append_left _ hmem⟩
  · obtain hmem | hmem := List.mem_append.mp hmem
    · exact h.returned call collected hmem
    · exact hr call collected (List.mem_singleton.mp hmem).symm

theorem History.step (h : History s es w) (hs : Step s e s') (ha : Alone s e) : ∃ w', History s' (es ++ [e]) w' := by
  cases e with
  | elsewhere => exact ⟨w, h.snoc (h.books.elsewhere hs) fun _ _ hc => by cases hc⟩
  | call call outcome =>
    obtain ⟨rfl, hnone⟩ | ⟨attemptID, transactionHash, resource, receipt, hk, hexisting, rfl, rfl⟩ |
      ⟨attemptID, transactionHash, c, collected, hk, hexisting, htaken, hcommitted, houtcome⟩ :=
        collectTransaction_cases hs
    · refine ⟨w, h.snoc h.books fun call' collected hc => ?_⟩
      obtain ⟨rfl, rfl⟩ := Event.call.inj hc
      exact absurd rfl (hnone collected)
    · refine ⟨w, h.snoc h.books fun call' collected hc => ?_⟩
      obtain ⟨rfl, hcollected⟩ := Event.call.inj hc
      obtain rfl := Outcome.returned.inj hcollected
      obtain ⟨record, hknown, -⟩ := id hk
      obtain ⟨t, ht, heq⟩ := h.books.replay_eq hk hexisting (ha (by rw [hexisting]; rfl) record attemptID hknown)
      exact ⟨t, ht, heq.symm⟩
    · have hn : w call.transactionID = none := by
        rw [h.books.existing_eq] at hexisting
        exact Option.map_eq_none_iff.mp hexisting
      refine ⟨_, h.books.add ⟨call, attemptID, transactionHash, c, collected⟩ hn hk htaken hcommitted,
        fun id t ht => ?_, fun call' collected' hmem => ?_⟩
      · by_cases hid : id = call.transactionID
        · subst hid
          rw [Function.update_self] at ht
          obtain rfl := Option.some.inj ht
          exact ⟨outcome, List.mem_append_right _ (List.mem_singleton_self _)⟩
        · rw [Function.update_of_ne hid] at ht
          obtain ⟨outcome', hmem⟩ := h.called id t ht
          exact ⟨outcome', List.mem_append_left _ hmem⟩
      · obtain hmem | hmem := List.mem_append.mp hmem
        · obtain ⟨t, ht, heq⟩ := h.returned call' collected' hmem
          have hne : call'.transactionID ≠ call.transactionID := by
            intro hid
            rw [hid, hn] at ht
            cases ht
          exact ⟨t, by rw [Function.update_of_ne hne, ht], heq⟩
        · obtain ⟨rfl, hreturned⟩ := Event.call.inj (List.mem_singleton.mp hmem)
          obtain rfl | rfl := houtcome
          · cases hreturned
          · obtain rfl := Outcome.returned.inj hreturned
            exact ⟨_, Function.update_self .., rfl⟩

/-- `_latest`. -/
def CollectorStore.latest (s : CollectorStore) (transactionID : String) : Option ObservationRow :=
  s.observations.find? fun current => current.transactionID = transactionID ∧
    ¬ ∃ later ∈ s.observations, later.supersedesObservationID = some current.observationID

@[reducible] def sampleEvmLibraries : EvmLibraries where
  toUnicode := asciiUnicode
  putRaw _ _ kind := .ok kind
  fromHex text := Hex.decode text.toList
  parseHex _ := some 1

/-- The snapshots that a call returns. -/
def Outcome.snapshots : Outcome → Option Int
  | .returned collected => some collected.balanceSnapshots
  | _ => none

/-- The store after a call. -/
def after (s : CollectorStore) (call : Call) : CollectorStore := (@collectTransaction sampleEvmLibraries s call).1

end Xir.Impl.XirLab.EvmCollector
