import Xir.Framework.Merkle
import Xir.Impl.GoRuntime.Transactor

/-!
# `checkpointAtInsertion` of `go-runtime/internal/runner/protocol.go`

The checkpoint of the origin hook right after the insertion of a message, from
the logs of the hook. `sort.Slice` is a stable sort here: which of the logs with
one position comes first is not fixed by the source either.
-/

namespace Xir.Impl

/-- `types.Log`. -/
structure Log where
  address : GoAddress
  topics : List GoBytes32
  data : GoBytes
  blockNumber : UInt64
  txHash : GoBytes32
  blockHash : GoBytes32
  index : UInt64
  removed : Bool

structure HyperlaneDelivery where
  messageID : GoBytes32
  originHook : GoAddress
  insertedIndex : UInt32
  /-- `SourceResult.TransactionHash` -/
  transactionHash : String

@[ext] structure Checkpoint where
  root : GoBytes32
  index : UInt32
  deriving DecidableEq

namespace GoProtocol

variable [Digests]

/-- `topic` of `internal/hyperlane`. -/
def topic (signature : String) : GoBytes32 := Digests.keccak256 ((signature.toList.flatMap utf8).map UInt8.ofNat)

def InsertedIntoTreeTopic : GoBytes32 := topic "InsertedIntoTree(bytes32,uint32)"

/-- `xir.Keccak256` of two words. -/
def keccakPair (a b : GoBytes32) : GoBytes32 := Digests.keccak256 (a.toList ++ b.toList)

omit [Digests] in
/-- The message and the index of a log, if its data are two words. -/
def insertedIntoTree (log : Log) : Option (GoBytes32 × UInt32) :=
  if log.data.length ≠ 64 then none
  else some (copy32 (log.data.take 32), BigEndian.uint32 (slice log.data 60 64))

omit [Digests] in
/-- The order of the logs of a chain. -/
def precedes (a b : Log) : Bool :=
  if a.blockNumber ≠ b.blockNumber then decide (a.blockNumber < b.blockNumber) else decide (a.index < b.index)

/-- The log is not one that the loop skips. -/
def isInsertion (delivery : HyperlaneDelivery) (log : Log) : Bool :=
  !(log.removed || decide (log.address ≠ delivery.originHook) || decide (log.topics.length = 0) ||
    decide (log.topics.head? ≠ some InsertedIntoTreeTopic))

variable [GoEthereum]

/-- The loop over the sorted logs. -/
def replay (delivery : HyperlaneDelivery) (blockHash : GoBytes32) :
    List Log → (Nat → GoBytes32) → Nat → Except RuntimeError Checkpoint
  | [], _, _ => .error (.errorf "runner: dispatch insertion missing from hook history")
  | log :: logs, branch, count =>
    if isInsertion delivery log = false then replay delivery blockHash logs branch count
    else
      match insertedIntoTree log with
      | none => .error (.errorf ("runner: non-contiguous Merkle hook history at index " ++ toString count))
      | some (leaf, index) =>
        if index.toNat ≠ count then
          .error (.errorf ("runner: non-contiguous Merkle hook history at index " ++ toString count))
        else
          let count := count + 1
          let branch := Merkle.insertLoop keccakPair 32 0 branch leaf count
          if index ≠ delivery.insertedIndex then replay delivery blockHash logs branch count
          else if leaf ≠ delivery.messageID ∨ log.txHash ≠ GoEthereum.hexToHash delivery.transactionHash ∨
              log.blockHash ≠ blockHash then
            .error (.errorf "runner: Merkle insertion does not match dispatch identity")
          else .ok ⟨Merkle.rootLoop keccakPair branch count 32 0 zero32 zero32, index⟩

def checkpointAtInsertion (logs : List Log) (delivery : HyperlaneDelivery) (blockHash : GoBytes32) :
    Except RuntimeError Checkpoint :=
  replay delivery blockHash (logs.mergeSort fun a b => !precedes b a) (fun _ => zero32) 0

end GoProtocol

end Xir.Impl
