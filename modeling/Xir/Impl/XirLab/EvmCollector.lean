import Mathlib.Algebra.Order.Ring.Int
import Mathlib.Data.List.Sort
import Mathlib.Data.String.Basic
import Xir.Impl.GoRuntime.Stdlib
import Xir.Impl.XirLab.Finality

/-!
# `EvmCollector` of `src/xir_lab/collect/evm.py`

A call of `collect_transaction` reads the store, asks a provider that answers
what it likes, and commits one store transaction. Its injector may raise at two
points, and the process may die in the store transaction, which then leaves
nothing, or after it. `stable_id` is the parts of an identifier, and a raw blob
is its digest.
-/

namespace Xir.Impl.XirLab

namespace EvmCollector

open Strings (toLower trimPrefix)

/-! ## Public evidence -/

structure RawEnvelope (α : Type) where
  value : α
  rawBytes : PyBytes
  providerID : String

structure PublicTransaction where
  transactionHash : String
  chainID : Int
  nonce : Int
  sender : String
  recipient : Option String
  inputHex : String
  valueWei : Int

structure PublicLog where
  logIndex : Int
  topic0 : Option String

structure PublicReceipt where
  transactionHash : String
  blockNumber : Int
  blockHash : String
  status : Int
  gasUsed : Int
  effectiveGasPriceWei : Int
  logs : List PublicLog
  l1DataFeeWei : Option Int
  l1DataFeeUnavailableReason : Option String
  carrierPaymentWei : Int
  fundingAttribution : String

structure PublicBlockHeader where
  blockNumber : Int
  blockHash : String
  parentHash : String
  timestamp : Int

structure PublicBalance where
  address : String
  blockNumber : Int
  balanceWei : Int

structure CollectedTransaction where
  transactionID : String
  transactionHash : String
  chainID : Int
  blockNumber : Int
  gasUsed : Int
  executionFeeWei : Int
  inputBytes : Int
  balanceSnapshots : Int
  deriving DecidableEq

inductive CollectorError
  | evmCollectorError (text : String)
  /-- What the provider raises for a balance. -/
  | providerError
  /-- What the store raises. -/
  | store (e : LabError)
  | crashed

/-- The answers of a provider, of which `none` in the place of a result is an exception. -/
structure EvmProvider where
  transaction : String → Option (Option (RawEnvelope PublicTransaction))
  receipt : String → Option (Option (RawEnvelope PublicReceipt))
  blockHeader : Int → Option (Option (RawEnvelope PublicBlockHeader))
  balance : String → Int → Option (RawEnvelope PublicBalance)

/-- Where a call crashes: two points of its injector, and two where its process dies. -/
inductive CrashPoint
  | afterReceiptBeforeRawCommit
  | afterRawCommitBeforeNormalizedCommit
  | inNormalizedCommit
  | afterNormalizedCommit
  deriving DecidableEq

inductive Outcome
  | returned (collected : CollectedTransaction)
  | raised (e : CollectorError)
  | died

/-- What the collector uses of its libraries. -/
class EvmLibraries extends Unicode where
  /-- `put_raw` of bytes of a kind from a provider: their digest. -/
  putRaw : PyBytes → String → String → Except LabError String
  /-- `bytes.fromhex`. -/
  fromHex : String → Option PyBytes
  /-- `int(text, 16)`. -/
  parseHex : String → Option Int

/-! ## Tables -/

structure BlockHeaderRow where
  chainID : Int
  blockNumber : Int
  blockHash : String
  parentHash : String
  blockTimestamp : Int
  rawSHA256 : String
  deriving DecidableEq

structure EvmReceiptRow where
  transactionID : String
  blockNumber : Int
  blockHash : String
  receiptStatus : Int
  gasUsed : Int
  effectiveGasPriceWei : Int
  rawSHA256 : String
  deriving DecidableEq

structure ResourceRow where
  transactionID : String
  chainID : Int
  sender : String
  recipient : Option String
  inputBytes : Int
  transactionValueWei : Int
  gasUsed : Int
  effectiveGasPriceWei : Int
  executionFeeWei : Int
  l1DataFeeWei : Option Int
  l1DataFeeUnavailableReason : Option String
  carrierPaymentWei : Int
  fundingAttribution : String
  deriving DecidableEq

/-- A row of `events`, whose identifier is of its transaction and its index. -/
structure LogRow where
  transactionID : String
  logIndex : Int
  topic0 : Option String
  rawSHA256 : String
  deriving DecidableEq

/-- `stable_id` of a snapshot: the transaction, the address in lower case, and the block. -/
abbrev SnapshotID : Type := String × String × Int

structure SnapshotRow where
  snapshotID : SnapshotID
  attemptID : String
  chainID : Int
  account : String
  balanceWei : Int
  blockNumber : Int
  rawSHA256 : String
  deriving DecidableEq

/-- The store, with the tables of the collector. -/
structure CollectorStore where
  store : Store
  observations : List ObservationRow
  headers : List BlockHeaderRow
  receipts : List EvmReceiptRow
  resources : List ResourceRow
  events : List LogRow
  snapshots : List SnapshotRow

namespace CollectorStore

variable (s : CollectorStore)

/-- The transaction, and the attempt of the stage of its intent. -/
def known (transactionID : String) : Option (TransactionRow × String) := do
  let record ← s.store.transaction transactionID
  let intent ← s.store.intent record.intentID
  let stage ← s.store.stage intent.stageID
  return (record, stage.attemptID)

/-- The resource and the receipt of a transaction. -/
def existing (transactionID : String) : Option (ResourceRow × EvmReceiptRow) := do
  let resource ← s.resources.find? fun r => r.transactionID = transactionID
  let receipt ← s.receipts.find? fun r => r.transactionID = transactionID
  return (resource, receipt)

/-- `_balance_count`. The stages of the attempt are joined, but only that of the transaction has its intent. -/
def balanceCount (transactionID : String) : Nat :=
  match s.known transactionID with
  | some (_, attemptID) => s.snapshots.countP fun snapshot => snapshot.attemptID = attemptID
  | none => 0

/-! ## The store transaction -/

/-- `INSERT OR IGNORE` of a header, whose primary key is the chain and the hash. -/
def insertHeader (row : BlockHeaderRow) : Except CollectorError CollectorStore :=
  if ¬ (Stored row.blockNumber ∧ Stored row.blockTimestamp) then .error (.store .sqliteError)
  else if ∃ r ∈ s.headers, r.chainID = row.chainID ∧ r.blockHash = row.blockHash then .ok s
  else .ok { s with headers := s.headers ++ [row] }

def insertReceipt (row : EvmReceiptRow) : Except CollectorError CollectorStore := do
  revertIf (row.transactionID ∈ s.receipts.map EvmReceiptRow.transactionID ∨
    ¬ (Stored row.blockNumber ∧ (row.receiptStatus = 0 ∨ row.receiptStatus = 1) ∧ Stored row.gasUsed))
      (.store .sqliteError)
  return { s with receipts := s.receipts ++ [row] }

def insertResource (row : ResourceRow) : Except CollectorError CollectorStore := do
  revertIf (row.transactionID ∈ s.resources.map ResourceRow.transactionID ∨
    ¬ (Stored row.inputBytes ∧ Stored row.gasUsed) ∨
    (row.fundingAttribution ≠ "experiment" ∧ row.fundingAttribution ≠ "external") ∨
    row.l1DataFeeWei.isSome = row.l1DataFeeUnavailableReason.isSome) (.store .sqliteError)
  return { s with resources := s.resources ++ [row] }

def insertLog (row : LogRow) : Except CollectorError CollectorStore := do
  revertIf ((∃ r ∈ s.events, r.transactionID = row.transactionID ∧ r.logIndex = row.logIndex) ∨ ¬ Stored row.logIndex)
    (.store .sqliteError)
  return { s with events := s.events ++ [row] }

def insertSnapshot (row : SnapshotRow) : Except CollectorError CollectorStore := do
  revertIf (row.snapshotID ∈ s.snapshots.map SnapshotRow.snapshotID ∨ ¬ Stored row.blockNumber) (.store .sqliteError)
  return { s with snapshots := s.snapshots ++ [row] }

/-- The update of the state, where the transaction is not included yet. -/
def setIncluded (transactionID : String) : Except CollectorError CollectorStore := do
  let current ←
    orRevert (.evmCollectorError "transaction disappeared during collection") (s.store.transaction transactionID)
  if current.state = .included ∨ current.state = .finalized then return s
  else
    let store ← (s.store.setTransaction transactionID fun t => { t with state := .included }).mapError .store
    return { s with store }

end CollectorStore

/-- The rows that a call inserts. -/
structure Collection where
  header : BlockHeaderRow
  receipt : EvmReceiptRow
  resource : ResourceRow
  events : List LogRow
  snapshots : List SnapshotRow

/-- The store transaction of a call. -/
def commit (s : CollectorStore) (transactionID : String) (c : Collection) : Except CollectorError CollectorStore := do
  let s ← s.insertHeader c.header
  let s ← s.insertReceipt c.receipt
  let s ← s.insertResource c.resource
  let s ← c.events.foldlM CollectorStore.insertLog s
  let s ← c.snapshots.foldlM CollectorStore.insertSnapshot s
  s.setIncluded transactionID

/-! ## The call -/

section

variable [EvmLibraries]

/-- `_validate`. -/
def validate (transactionHash : String) (expectedChainID expectedNonce : Int) (transaction : PublicTransaction)
    (receipt : PublicReceipt) (block : PublicBlockHeader) : Except CollectorError Unit := do
  revertIf (toLower transaction.transactionHash ≠ toLower transactionHash ∨
    toLower receipt.transactionHash ≠ toLower transactionHash)
    (.evmCollectorError "transaction or receipt hash mismatch")
  revertIf (transaction.chainID ≠ expectedChainID ∨ transaction.nonce ≠ expectedNonce)
    (.evmCollectorError "transaction chain or nonce mismatch")
  revertIf (receipt.blockNumber ≠ block.blockNumber ∨ toLower receipt.blockHash ≠ toLower block.blockHash)
    (.evmCollectorError "receipt and block header mismatch")
  revertIf (receipt.status ≠ 0 ∧ receipt.status ≠ 1) (.evmCollectorError "receipt status is invalid")
  revertIf (transaction.valueWei < 0 ∨ receipt.blockNumber < 0 ∨ receipt.gasUsed < 0 ∨
    receipt.effectiveGasPriceWei < 0 ∨
    receipt.carrierPaymentWei < 0 ∨ block.timestamp < 0) (.evmCollectorError "public resource value cannot be negative")
  revertIf (receipt.fundingAttribution ≠ "experiment" ∧ receipt.fundingAttribution ≠ "external")
    (.evmCollectorError "funding attribution is invalid")
  revertIf ((receipt.l1DataFeeWei = none ∧ receipt.l1DataFeeUnavailableReason.getD "" = "") ∨
    (receipt.l1DataFeeWei.isSome ∧ receipt.l1DataFeeUnavailableReason.isSome))
    (.evmCollectorError "L1 data fee needs exactly one value or unavailable reason")
  revertIf (receipt.l1DataFeeWei.any (· < 0)) (.evmCollectorError "L1 data fee cannot be negative")
  revertIf (¬ (receipt.logs.map PublicLog.logIndex).Nodup) (.evmCollectorError "receipt log indices must be unique")
  revertIf (EvmLibraries.fromHex (trimPrefix transaction.inputHex "0x") = none)
    (.evmCollectorError "transaction input is not exact hex bytes")

/-- `_address`. -/
def isAddress (value : String) : Bool :=
  value.length = 42 && "0x".toList.isPrefixOf value.toList && (EvmLibraries.parseHex value).any (· ≠ 0)

/-- `_put_rpc_raw`. -/
def putRpcRaw {α : Type} (envelope : RawEnvelope α) (kind : String) : Except CollectorError String :=
  (EvmLibraries.putRaw envelope.rawBytes envelope.providerID kind).mapError .store

/-- The balance of an account at a block, and the digest of its raw form. -/
def balanceRow (provider : EvmProvider) (address : String) (blockNumber : Int) :
    Except CollectorError (String × PublicBalance × String) := do
  let envelope ← orRevert .providerError (provider.balance address blockNumber)
  revertIf (toLower envelope.value.address ≠ toLower address ∨ envelope.value.blockNumber ≠ blockNumber ∨
    envelope.value.balanceWei < 0)
    (.evmCollectorError "balance response changed address or block")
  return (address, envelope.value, ← putRpcRaw envelope "balance")

/-- The balances of an account at the blocks. -/
def balanceRowsOf (provider : EvmProvider) (blocks : List Int) (address : String) :
    Except CollectorError (List (String × PublicBalance × String)) := do
  revertIf (isAddress address = false) (.evmCollectorError "balance account is not a nonzero EVM address")
  blocks.mapM (balanceRow provider address)

/-- `balance_blocks`. -/
def balanceBlocks (blockNumber : Int) : List Int := if blockNumber ≤ 0 then [0] else [blockNumber - 1, blockNumber]

/-- `sorted(set(balance_accounts))`. -/
def distinctAccounts (accounts : List String) : List String := accounts.dedup.insertionSort fun a b => a ≤ b

/-- What a call reads, up to its store transaction: the rows, and what it returns for them. -/
def collection (transactionID : String) (record : TransactionRow) (attemptID transactionHash : String)
    (provider : EvmProvider) (accounts : List String) (crash : Option CrashPoint) :
    Except CollectorError (Collection × CollectedTransaction) := do
  let readFailed := CollectorError.evmCollectorError "public transaction or receipt read failed"
  let transaction ← orRevert readFailed (provider.transaction transactionHash)
  let receipt ← orRevert readFailed (provider.receipt transactionHash)
  let transaction ← orRevert (.evmCollectorError "known transaction is unavailable from archive data") transaction
  let receipt ← orRevert (.evmCollectorError "known transaction receipt is not yet available") receipt
  let block ←
    orRevert (.evmCollectorError "public block archive read failed") (provider.blockHeader receipt.value.blockNumber)
  let block ← orRevert (.evmCollectorError "receipt block is unavailable from archive data") block
  validate transactionHash record.chainID record.nonce transaction.value receipt.value block.value
  revertIf (crash = some .afterReceiptBeforeRawCommit) .crashed
  let _ ← putRpcRaw transaction "transaction"
  let receiptRaw ← putRpcRaw receipt "receipt"
  let blockRaw ← putRpcRaw block "block_header"
  let balances ← (distinctAccounts accounts).mapM (balanceRowsOf provider (balanceBlocks receipt.value.blockNumber))
  let balances := balances.flatten
  revertIf (crash = some .afterRawCommitBeforeNormalizedCommit) .crashed
  let tx := transaction.value
  let observed := receipt.value
  let inputBytes : Int := ((EvmLibraries.fromHex (trimPrefix tx.inputHex "0x")).getD []).length
  let fee := observed.gasUsed * observed.effectiveGasPriceWei
  return ({
    header :=
      ⟨tx.chainID, block.value.blockNumber, block.value.blockHash, block.value.parentHash,
        block.value.timestamp, blockRaw⟩
    receipt := ⟨transactionID, observed.blockNumber, observed.blockHash, observed.status, observed.gasUsed,
      observed.effectiveGasPriceWei, receiptRaw⟩
    resource := ⟨transactionID, tx.chainID, tx.sender, tx.recipient, inputBytes, tx.valueWei, observed.gasUsed,
      observed.effectiveGasPriceWei, fee, observed.l1DataFeeWei, observed.l1DataFeeUnavailableReason,
      observed.carrierPaymentWei, observed.fundingAttribution⟩
    events := observed.logs.map fun log => ⟨transactionID, log.logIndex, log.topic0, receiptRaw⟩
    snapshots :=
      balances.map fun b =>
        ⟨(transactionID, toLower b.1, b.2.1.blockNumber), attemptID, tx.chainID, b.1, b.2.1.balanceWei,
          b.2.1.blockNumber, b.2.2⟩ },
    { transactionID, transactionHash, chainID := tx.chainID, blockNumber := observed.blockNumber,
      gasUsed := observed.gasUsed, executionFeeWei := fee, inputBytes, balanceSnapshots := balances.length })

/-- A call, with the answers of its provider and where it crashes. -/
structure Call where
  transactionID : String
  balanceAccounts : List String
  provider : EvmProvider
  crash : Option CrashPoint

/-- What a call that finds a resource returns. -/
def replay (s : CollectorStore) (transactionID transactionHash : String) (resource : ResourceRow)
    (receipt : EvmReceiptRow) :
    CollectedTransaction :=
  ⟨transactionID, transactionHash, resource.chainID, receipt.blockNumber, receipt.gasUsed, resource.executionFeeWei,
    resource.inputBytes, s.balanceCount transactionID⟩

/-- A call that collects its transaction. -/
def collect (s : CollectorStore) (call : Call) (record : TransactionRow) (attemptID transactionHash : String) :
    Except CollectorError (CollectorStore × CollectedTransaction) := do
  let (c, collected) ←
    collection call.transactionID record attemptID transactionHash call.provider call.balanceAccounts call.crash
  return (← commit s call.transactionID c, collected)

/-- `collect_transaction`: the store that it leaves, and how it ends. -/
def collectTransaction (s : CollectorStore) (call : Call) : CollectorStore × Outcome :=
  let unknown := CollectorError.evmCollectorError "collector requires a known precomputed transaction hash"
  match s.known call.transactionID with
  | none => (s, .raised unknown)
  | some (record, attemptID) =>
    match record.transactionHash with
    | none => (s, .raised unknown)
    | some transactionHash =>
      match s.existing call.transactionID with
      | some (resource, receipt) => (s, .returned (replay s call.transactionID transactionHash resource receipt))
      | none =>
        match collect s call record attemptID transactionHash with
        | .error e => (s, .raised e)
        | .ok (s', collected) =>
          if call.crash = some .inNormalizedCommit then (s, .died)
          else if call.crash = some .afterNormalizedCommit then (s', .died)
          else (s', .returned collected)

end

end EvmCollector

end Xir.Impl.XirLab
