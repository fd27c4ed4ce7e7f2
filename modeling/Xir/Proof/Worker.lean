import Xir.Framework.Process
import Xir.Impl.XirLab.LayerZeroWorker
import Xir.Proof.Text

/-!
# What the LayerZero worker sees

The worker is a `Process` whose calls are its cycles. The logs of the watched
endpoints are those of fixed chains (`PacketLogs`), and otherwise the nodes answer
anything: the heads of two cycles need not have to do with each other. A call of
the tables that raises changes nothing. The bytes that are handed to a node are
recorded in the order of the broadcasts.
-/

namespace Xir.Impl.XirLab

open Strings

/-- The `PacketSent` logs of the endpoint that is watched for an `eid`, by block. -/
structure PacketLogs where
  logs : Nat → Nat → List PacketSentLog
  blockNumber {eid b : Nat} {l : PacketSentLog} : l ∈ logs eid b → l.blockNumber = b
  /-- A log of a chain is known by its transaction and its index. -/
  position {eid b b' : Nat} {l l' : PacketSentLog} : l ∈ logs eid b → l' ∈ logs eid b' →
    l.transactionHash = l'.transactionHash → l.logIndex = l'.logIndex → l = l'

/-- The logs from a block to another. -/
def PacketLogs.range (nodes : PacketLogs) (eid fromBlock toBlock : Nat) : List PacketSentLog :=
  (List.range' fromBlock (toBlock + 1 - fromBlock)).flatMap (nodes.logs eid)

theorem PacketLogs.mem_range {nodes : PacketLogs} {eid a b : Nat} {l : PacketSentLog} :
    l ∈ nodes.range eid a b ↔ ∃ n, a ≤ n ∧ n ≤ b ∧ l ∈ nodes.logs eid n := by
  simp only [range, List.mem_flatMap, List.mem_range'_1]
  refine exists_congr fun n => ?_
  rw [← and_assoc]
  refine and_congr_left fun _ => ?_
  omega

/-- Bytes that were handed to the node of a chain for an action. -/
structure Broadcast where
  eid : Nat
  actionID : String
  raw : GoBytes

structure WorkerWorld where
  tables : WorkerTables
  broadcasts : List Broadcast

def WorkerWorld.empty : WorkerWorld := ⟨.empty, []⟩

section

variable [Unicode] [Digests]

/-- What an operation that returns does to the tables. -/
inductive WorkerEffect (s : WorkerTables) : ∀ op : WorkerOp, op.Value → WorkerTables → Prop
  | cursor (eid default : Nat) : WorkerEffect s (.cursor eid default) (s.cursor eid default) s
  | advanceCursor (eid next : Nat) : WorkerEffect s (.advanceCursor eid next) () (s.advanceCursor eid next)
  | observePacket (packet : LayerZeroPacket) (block : Nat) (hash : String) (index : Nat) :
    WorkerEffect s (.observePacket packet block hash index) () (s.observePacket packet block hash index)
  | readyPackets {heads : List (Nat × Nat)} {confirmations : Int} {rows : List PacketRow} :
    s.readyPackets heads confirmations = .ok rows → WorkerEffect s (.readyPackets heads confirmations) rows s
  | action (guid : String) (stage : WorkerStage) : WorkerEffect s (.action guid stage) (s.action guid stage) s
  | intendAction {guid : String} {stage : WorkerStage} {chainID nonce : Nat} {target : String} {data : GoBytes}
    {t : WorkerTables} {row : WorkerAction} : s.intendAction guid stage chainID nonce target data = .ok (t, row) →
    WorkerEffect s (.intendAction guid stage chainID nonce target data) row t
  | recordSigned (actionID : String) (raw : GoBytes) (hash : String) :
    WorkerEffect s (.recordSigned actionID raw hash) () (s.recordSigned actionID raw hash)
  | observeAction (actionID : String) (state : WorkerStatus) (details : List (String × Json)) :
    WorkerEffect s (.observeAction actionID state details) () (s.observeAction actionID state details)
  | markDelivered (guid : String) : WorkerEffect s (.markDelivered guid) () (s.markDelivered guid)
  | time (now : Int) : WorkerEffect s .time now s
  | blockNumber (eid head : Nat) : WorkerEffect s (.blockNumber eid) head s
  | getLogs {eid a b : Nat} {address topic : String} (logs : List PacketSentLog) :
    WorkerEffect s (.getLogs eid a b address topic) logs s
  | transactionCount (eid : Nat) (address : String) (count : Nat) :
      WorkerEffect s (.transactionCount eid address) count s
  | gasPrice (eid price : Nat) : WorkerEffect s (.gasPrice eid) price s
  | sendRawTransaction (eid : Nat) (actionID : String) (raw : GoBytes) :
    WorkerEffect s (.sendRawTransaction eid actionID raw) () s
  | transactionReceipt (eid : Nat) (hash : String) (receipt : WorkerReceipt) :
    WorkerEffect s (.transactionReceipt eid hash) receipt s
  | writeText (path text : String) : WorkerEffect s (.writeText path text) () s
  | readBytes (path : String) (contents : GoBytes) : WorkerEffect s (.readBytes path) contents s

/-- What an operation hands to a node. -/
def WorkerOp.sent : WorkerOp → List Broadcast
  | .sendRawTransaction eid actionID raw => [⟨eid, actionID, raw⟩]
  | _ => []

/-- A node answers the logs of the chain, if it answers. -/
def WorkerOp.Honest (nodes : PacketLogs) : ∀ op : WorkerOp, op.Value → Prop
  | .getLogs eid a b _ _, logs => logs = nodes.range eid a b
  | _, _ => True

inductive WorkerStep (nodes : PacketLogs) (op : WorkerOp) :
    WorkerWorld → Except WorkerError op.Value → WorkerWorld → Prop
  | answer {s : WorkerWorld} {v : op.Value} {t : WorkerTables} : WorkerEffect s.tables op v t → op.Honest nodes v →
    WorkerStep nodes op s (.ok v) ⟨t, s.broadcasts ++ op.sent⟩
  | raise {s : WorkerWorld} (e : WorkerError) : WorkerStep nodes op s (.error e) ⟨s.tables, s.broadcasts ++ op.sent⟩

/-- The cycles. -/
inductive WorkerCycle
  | collect (maximumBlockSpan : Nat) (hspan : 1 ≤ maximumBlockSpan)
  | process

def LayerZeroWorker.cycle [WorkerLibraries] (w : LayerZeroWorker) : WorkerCycle → WorkerProg Unit
  | .collect span hspan => w.collect span hspan
  | .process => w.process

/-- The process of a worker, before its first cycle. -/
def LayerZeroWorker.fresh : Process WorkerWorld WorkerOp (fun op => Except WorkerError op.Value) WorkerError Unit :=
  ⟨.empty, .done ()⟩

end

/-! ## Text -/

theorem hex0x_inj {a b : GoBytes} : hex0x a = hex0x b ↔ a = b := by
  refine ⟨fun h => ?_, congrArg hex0x⟩
  have hl := congrArg String.toList h
  simp only [hex0x, encodeToString, String.toList_append, String.toList_ofList] at hl
  exact Hex.encode_inj.mp (List.append_cancel_left hl)

@[simp] theorem fromHex0x_hex0x (a : GoBytes) : fromHex0x (hex0x a) = .ok a := by
  have hl : (hex0x a).toList.drop 2 = Hex.encode a := by
    simp only [hex0x, encodeToString, String.toList_append, String.toList_ofList]
    rfl
  rw [fromHex0x, hl, Hex.decode_encode]
  rfl

/-! ## A worker of one chain -/

namespace Sample

/-- Hashes that tell strings of different lengths apart. -/
@[reducible] def lengthDigests : Digests where
  sha256 b := Vector.ofFn fun i => if i = 0 then UInt8.ofNat b.length else 0
  keccak256 b := Vector.ofFn fun i => if i = 0 then UInt8.ofNat b.length else 0

/-- A packet from the chain 1 to itself. -/
def packet : GoBytes :=
  1 :: (List.replicate 8 0 ++ [0, 0, 0, 1] ++ List.replicate 32 0 ++ [0, 0, 0, 1] ++ List.replicate 64 0)

def address : GoBytes := List.replicate 20 1

/-- A signed transaction is its nonce. -/
@[reducible] def libraries : WorkerLibraries where
  selector _ := []
  encode _ _ := .ok []
  signMessage _ _ := .ok []
  decodePacketSent _ := .ok packet
  signTransaction _ transaction := .ok ([UInt8.ofNat transaction.nonce], (lengthDigests.keccak256 [0]).toList)
  fromBytes raw := .ok ⟨1, (raw.getD 0 0).toNat, address, []⟩
  recoverTransaction _ := .ok ""
  address _ := ""

def chain : WorkerChain := ⟨1, 1, "", hex0x address, hex0x address, hex0x address, 0⟩

def worker : LayerZeroWorker where
  chains := [chain]
  distinct := List.nodup_singleton 1
  privateKey := ""
  rawRoot := ""
  confirmations := 0
  executorGasLimit := 0
  batchPackets := 1

def log : PacketSentLog := ⟨[], 0, [], 0⟩

/-- One log, in the first block. -/
def nodes : PacketLogs where
  logs eid b := if eid = 1 ∧ b = 0 then [log] else []
  blockNumber {eid b l} h := by
    split at h
    · next hb => rw [List.mem_singleton.mp h, hb.2, log]
    · exact absurd h List.not_mem_nil
  position {eid b b' l l'} h h' _ _ := by
    split at h
    · split at h'
      · rw [List.mem_singleton.mp h, List.mem_singleton.mp h']
      · exact absurd h' List.not_mem_nil
    · exact absurd h List.not_mem_nil

theorem nodes_log {eid b : Nat} {l : PacketSentLog} (h : l ∈ nodes.logs eid b) : l = log := by
  change l ∈ if eid = 1 ∧ b = 0 then [log] else [] at h
  split at h
  · exact List.mem_singleton.mp h
  · exact absurd h List.not_mem_nil

/-- The nodes answer with the first block as their head, and with receipts that say that the transaction has failed.
They take the first four broadcasts. -/
def answer [Unicode] [Digests] (op : WorkerOp) (s : WorkerWorld) : Except WorkerError op.Value × WorkerWorld :=
  match op with
  | .cursor eid default => (.ok (s.tables.cursor eid default), s)
  | .advanceCursor eid next => (.ok (), ⟨s.tables.advanceCursor eid next, s.broadcasts⟩)
  | .observePacket packet block hash index => (.ok (), ⟨s.tables.observePacket packet block hash index, s.broadcasts⟩)
  | .readyPackets heads confirmations =>
    match s.tables.readyPackets heads confirmations with
    | .ok rows => (.ok rows, s)
    | .error e => (.error e, s)
  | .action guid stage => (.ok (s.tables.action guid stage), s)
  | .intendAction guid stage chainID nonce target data =>
    match s.tables.intendAction guid stage chainID nonce target data with
    | .ok (t, row) => (.ok row, ⟨t, s.broadcasts⟩)
    | .error e => (.error e, s)
  | .recordSigned actionID raw hash => (.ok (), ⟨s.tables.recordSigned actionID raw hash, s.broadcasts⟩)
  | .observeAction actionID state details => (.ok (), ⟨s.tables.observeAction actionID state details, s.broadcasts⟩)
  | .markDelivered guid => (.ok (), ⟨s.tables.markDelivered guid, s.broadcasts⟩)
  | .time => (.ok 0, s)
  | .blockNumber _ => (.ok 0, s)
  | .getLogs eid a b _ _ => (.ok (nodes.range eid a b), s)
  | .transactionCount _ _ => (.ok 0, s)
  | .gasPrice _ => (.ok 0, s)
  | .sendRawTransaction eid actionID raw =>
    (if s.broadcasts.length ≤ 3 then .ok () else .error (.other ""), ⟨s.tables, s.broadcasts ++ [⟨eid, actionID, raw⟩]⟩)
  | .transactionReceipt _ _ => (.ok ⟨0, 0, 0, [], ""⟩, s)
  | .writeText _ _ => (.ok (), s)
  | .readBytes _ => (.ok [], s)

theorem answer_step [Unicode] [Digests] (op : WorkerOp) (s : WorkerWorld) :
    WorkerStep nodes op s (answer op s).1 (answer op s).2 := by
  have same {op : WorkerOp} {v : op.Value} (hs : op.sent = []) (he : WorkerEffect s.tables op v s.tables)
      (hh : op.Honest nodes v) : WorkerStep nodes op s (.ok v) s := by
    have h := WorkerStep.answer he hh
    rw [hs, List.append_nil] at h
    exact h
  have moved {op : WorkerOp} {v : op.Value} {t : WorkerTables} (hs : op.sent = []) (he : WorkerEffect s.tables op v t)
      (hh : op.Honest nodes v) : WorkerStep nodes op s (.ok v) ⟨t, s.broadcasts⟩ := by
    have h := WorkerStep.answer he hh
    rw [hs, List.append_nil] at h
    exact h
  have raised {op : WorkerOp} (hs : op.sent = []) (e : WorkerError) : WorkerStep nodes op s (.error e) s := by
    have h : WorkerStep nodes op s (.error e) _ := .raise e
    rw [hs, List.append_nil] at h
    exact h
  cases op with
  | cursor | action | time | blockNumber | transactionCount | gasPrice | transactionReceipt | writeText | readBytes =>
    exact same rfl (by constructor) trivial
  | getLogs => exact same rfl (by constructor) rfl
  | advanceCursor | observePacket | recordSigned | observeAction | markDelivered =>
    exact moved rfl (by constructor) trivial
  | sendRawTransaction eid actionID raw =>
    show WorkerStep nodes _ s (if s.broadcasts.length ≤ 3 then _ else _) _
    split
    · exact .answer (by constructor) trivial
    · exact .raise _
  | readyPackets heads confirmations =>
    rw [answer]
    cases h : s.tables.readyPackets heads confirmations with
    | ok rows => exact same rfl (.readyPackets h) trivial
    | error e => exact raised rfl e
  | intendAction guid stage chainID nonce target data =>
    rw [answer]
    cases h : s.tables.intendAction guid stage chainID nonce target data with
    | ok r => exact moved rfl (.intendAction h) trivial
    | error e => exact raised rfl e

/-! ### The collected log -/

/-- The packet of the log. -/
def logPacket : LayerZeroPacket where
  encoded := packet
  header := packet.take 81
  version := 1
  nonce := 0
  sourceEID := 1
  sender := List.replicate 32 0
  destinationEID := 1
  receiver := List.replicate 32 0
  guid := List.replicate 32 0
  message := []
  payloadHash := (lengthDigests.keccak256 (List.replicate 32 0)).toList

attribute [local instance] asciiUnicode lengthDigests libraries

/-- The tables when the log is collected. -/
def collected : WorkerTables := (WorkerTables.empty.observePacket logPacket 0 "" 0).advanceCursor 1 1

theorem collect_run : (worker.collect 1 le_rfl).run answer .empty = (.ok (), ⟨collected, []⟩) := by
  have hend : worker.collectChunks chain 1 le_rfl 1 0 = pure () := by
    rw [LayerZeroWorker.collectChunks, if_neg (by decide)]
  show (worker.collectChunks chain 1 le_rfl 0 0 >>= fun _ => pure ()).run answer .empty = _
  rw [LayerZeroWorker.collectChunks, if_pos le_rfl]
  show (WorkerOp.call (.getLogs 1 0 0 "" packetSentTopic) >>= fun logs => worker.observeLogs 1 logs >>= fun _ =>
    WorkerOp.call (.advanceCursor 1 1) >>= fun _ => worker.collectChunks chain 1 le_rfl 1 0 >>= fun _ => pure ()).run
      answer .empty = _
  rw [hend]
  rfl

end Sample

end Xir.Impl.XirLab
