import Xir.Framework.Prog
import Xir.Impl.GoRuntime.Stdlib

/-!
# `awaitFinality` of `go-runtime/internal/runner/runner.go`, with the rules of `internal/evm/client.go`

A wait is a program over what it asks of a node and of the clock. A loop takes a
bound on its rounds, after which it fails: what holds of a wait that returns,
for every bound, holds of the loops of the source. The node answers from its
view of the chain, which may be another one at every request.
-/

namespace Xir.Impl

open Strings

/-- `qbftConfirmationBlocks`. -/
def qbftConfirmationBlocks : UInt64 := 1

inductive FinalityMode
  /-- `FinalityRPCFinalized`, or no mode. -/
  | rpcFinalized
  | confirmations
  | none
  | other (name : String)
  deriving DecidableEq

/-- `Finality`, whose timeout is the one that is configured, or the default. -/
structure Finality where
  mode : FinalityMode
  confirmations : UInt64
  timeout : Int

/-- The `Client` of a node. -/
structure FinalityClient where
  timeout : Int
  qbftQuorum : Nat

inductive FinalityOp
  /-- `HeaderByNumber`, of the tag `finalized`. -/
  | finalizedHeader
  | headerByNumber (number : UInt64)
  | blockNumber
  /-- `qbft_getValidatorsByBlockNumber`, of which only the number matters. -/
  | qbftValidators
  | now
  | sleepContext

@[reducible] def FinalityOp.Answer : FinalityOp → Type
  | finalizedHeader => Option UInt64
  | headerByNumber _ => Option GoBytes32
  | blockNumber => UInt64
  | qbftValidators => Nat
  | now => Int
  | sleepContext => Unit

abbrev FinalityProg := Prog FinalityOp (fun op => Except RuntimeError op.Answer) RuntimeError

namespace Finality

abbrev call (op : FinalityOp) : FinalityProg op.Answer := Prog.call op

/-- `err.Error()`. -/
def text : RuntimeError → String
  | .errorf text | .drift text | .stateTransition text => text
  | .rpc text err => text ++ err.message

variable [Unicode]

def finalizedTagUnsupported (err : RuntimeError) : Bool :=
  let message := toLower (text err)
  contains message "unknown block" || contains message "header not found" ||
    (contains message "finalized" && (contains message "unsupported" || contains message "not supported"))

/-- `finalizedTag`: the height, or nothing if the node does not have the tag. -/
def finalizedTag : FinalityProg (Option UInt64) :=
  Prog.op .finalizedHeader fun
    | .error err =>
      if finalizedTagUnsupported err then return none
      else Prog.fail (err.wrap "xir evm: the finalized block tag failed: ")
    | .ok none => Prog.fail (.errorf "xir evm: the finalized block tag returned no header")
    | .ok (some number) => return some number

variable (client : FinalityClient) (blockNumber : UInt64) (blockHash : GoBytes32)

omit [Unicode] in
/-- The loop of `qbftFinalized`. -/
def awaitSuccessor (required : UInt64) (deadline : Int) : Nat → UInt64 → FinalityProg UInt64
  | 0, _ => Prog.fail (.errorf "the wait goes on")
  | rounds + 1, latest => do
    if latest < required then
      let now ← call .now
      if now < deadline then
        Prog.op .sleepContext fun r => Prog.ofExcept (r.mapError (.wrap "xir evm: QBFT finality wait was cancelled: "))
        let latest ← call .blockNumber
        awaitSuccessor required deadline rounds latest
      else return latest
    else return latest

omit [Unicode] in
def qbftFinalized (rounds : Nat) : FinalityProg (UInt64 × String) := do
  let validators ← Prog.op .qbftValidators fun r =>
    Prog.ofExcept (r.mapError (.wrap "xir evm: QBFT validator quorum cannot be established: "))
  Prog.ofExcept (revertIf (validators < client.qbftQuorum) (.errorf
    s!"xir evm: QBFT validator quorum cannot be established: {validators} validators, want {client.qbftQuorum}"))
  let required := blockNumber + qbftConfirmationBlocks
  let latest ← call .blockNumber
  let now ← call .now
  let latest ← awaitSuccessor required (now + client.timeout) rounds latest
  Prog.ofExcept (revertIf (latest < required)
    (.errorf s!"xir evm: QBFT block {blockNumber} lacks the successor depth ({latest} < {required})"))
  let canonical ← call (.headerByNumber blockNumber)
  Prog.ofExcept (revertIf (canonical ≠ some blockHash)
    (.errorf s!"xir evm: block {blockNumber} is not in the canonical QBFT chain"))
  return (latest, s!"qbft-committed-plus-{qbftConfirmationBlocks}")

def finalizedNumberFor (rounds : Nat) : FinalityProg (UInt64 × String) := do
  match ← finalizedTag with
  | some number => return (number, "rpc-finalized-tag")
  | none => qbftFinalized client blockNumber blockHash rounds

/-- The loop of the mode `rpc-finalized`. -/
def awaitFinalized (deadline : Int) : Nat → FinalityProg String
  | 0 => Prog.fail (.errorf "the wait goes on")
  | rounds + 1 => do
    let (finalized, rule) ← finalizedNumberFor client blockNumber blockHash rounds
    if blockNumber ≤ finalized then
      return rule
    else
      let now ← call .now
      Prog.ofExcept (revertIf (deadline < now)
        (.errorf s!"runner: block {blockNumber} has not reached the finalized height {finalized} under {rule}"))
      call .sleepContext
      awaitFinalized deadline rounds

omit [Unicode] in
/-- The loop of the mode `confirmations`. -/
def awaitConfirmations (confirmations : UInt64) (deadline : Int) : Nat → FinalityProg String
  | 0 => Prog.fail (.errorf "the wait goes on")
  | rounds + 1 => do
    let head ← call .blockNumber
    if blockNumber + confirmations ≤ head then
      let canonical ← call (.headerByNumber blockNumber)
      Prog.ofExcept (revertIf (canonical ≠ some blockHash)
        (.errorf s!"runner: block {blockNumber} left the canonical chain"))
      return s!"confirmations-{confirmations}"
    else
      let now ← call .now
      Prog.ofExcept (revertIf (deadline < now)
        (.errorf s!"runner: block {blockNumber} has {head - blockNumber} successors of {confirmations} required"))
      call .sleepContext
      awaitConfirmations confirmations deadline rounds

/-- `awaitFinality`, of a receipt in a block. -/
def awaitFinality (f : Finality) (rounds : Nat) : FinalityProg String :=
  match f.mode with
  | .rpcFinalized => do
    let now ← call .now
    awaitFinalized client blockNumber blockHash (now + f.timeout) rounds
  | .confirmations => do
    let now ← call .now
    awaitConfirmations blockNumber blockHash f.confirmations (now + f.timeout) rounds
  | .none => return "none-test-only"
  | .other name => Prog.fail (.errorf s!"runner: unsupported finality mode {quoted name}")

end Finality

/-! ## Nodes -/

/-- What a node takes for the chain: its head, the hash of the block at each height up to it, and the height of the
tag `finalized`, if it has one. -/
structure ChainView where
  head : UInt64
  hash : UInt64 → GoBytes32
  finalized : Option UInt64
  finalized_le : ∀ n ∈ finalized, n ≤ head

/-- A request may fail; if it does not, it is answered from the view. -/
inductive ChainView.Answers (v : ChainView) : (op : FinalityOp) → Except RuntimeError op.Answer → ChainView → Prop
  | raises (op : FinalityOp) (e : RuntimeError) : Answers v op (.error e) v
  | noHeader : Answers v .finalizedHeader (.ok none) v
  | finalizedHeader {number : UInt64} : v.finalized = some number → Answers v .finalizedHeader (.ok (some number)) v
  | unknown (number : UInt64) : Answers v (.headerByNumber number) (.ok none) v
  | headerByNumber {number : UInt64} :
      number ≤ v.head → Answers v (.headerByNumber number) (.ok (some (v.hash number))) v
  | blockNumber : Answers v .blockNumber (.ok v.head) v
  | qbftValidators (validators : Nat) : Answers v .qbftValidators (.ok validators) v
  | now (time : Int) : Answers v .now (.ok time) v
  | sleepContext : Answers v .sleepContext (.ok ()) v

end Xir.Impl
