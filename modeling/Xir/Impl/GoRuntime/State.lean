import Xir.Framework.Prog
import Xir.Impl.GoRuntime.PyJson

/-!
# `go-runtime/internal/state/state.go`

The ledger: its tables (`Tables`), the calls that write an action
(`intend`, `recordSigned`, `observe`, `succeed`), and the check of a row
(`verifyActionIdentity`). A call is a program over `StoreOp`: it reads in one
operation and writes in another, the body of `transact`, which is a `Write`
(`Tables.apply`) on whatever the tables then hold. A detail document stands for
the object it holds, a nonce is a `Nat`, and events have no columns for clocks
and processes.
-/

namespace Xir.Impl

open Strings

/-! ## Rows -/

/-- The constants `Action…`; the empty text is `unset`. -/
inductive ActionState
  | unset
  | intended
  | signed
  | submitted
  | succeeded
  | failed
  | other (name : String)
  deriving DecidableEq

def ActionState.text : ActionState → String
  | unset => ""
  | intended => "intended"
  | signed => "signed"
  | submitted => "submitted"
  | succeeded => "succeeded"
  | failed => "failed"
  | other name => name

/-- The members of a `map[string]any`. -/
abbrev Members := List (String × Json)

/-- A `map[string]any` that is read and extended. -/
abbrev Fields := String → Option Json

/-- What a `detail_json` column decodes to: an object, which is empty for blank text, or an
error. -/
abbrev Document := Except String Fields

structure Action where
  actionID : String
  attemptID : String
  stage : String
  chainRole : String
  chainID : UInt64
  sender : String
  target : String
  calldataHex : String
  calldataBytes : Int
  calldataSHA256 : String
  value : String
  gas : UInt64
  nonce : Nat
  state : ActionState
  rawTransactionHex : String
  transactionHash : String
  receiptPath : String
  receiptSHA256 : String
  blockNumber : UInt64
  gasUsed : UInt64
  detailJSON : Document

structure ActionResult where
  transactionHash : String
  blockNumber : UInt64
  gasUsed : UInt64
  receiptPath : String
  receiptSHA256 : String
  contractAddress : String
  detail : Members

/-- A row of `actions`. A column that is `NULL` holds the zero value it is read as. -/
structure ActionRow where
  action : Action
  intendedAt : Int
  updatedAt : Int

/-- A row of `stages` or of `stage_history`. -/
structure StageRow where
  attemptID : String
  stage : String
  state : ActionState
  transactionHash : Option String
  detailJSON : Document
  observedAt : Int

/-- A row of `events` whose source is the coordinator. -/
structure EventRow where
  attemptID : String
  stage : String
  event : ActionState
  chainRole : Option String
  hopIndex : Option Int
  transactionHash : Option String
  detailJSON : Document

/-- A row of `durable_signed_transactions`. -/
structure SignedRow where
  attemptID : String
  stage : String
  transactionHash : String
  rawTransaction : GoBytes
  rawSHA256 : String
  detailJSON : Document

structure Tables where
  actions : List ActionRow
  stages : List StageRow
  stageHistory : List StageRow
  events : List EventRow
  durableSigned : List SignedRow

def Tables.empty : Tables := ⟨[], [], [], [], []⟩

/-! ## Detail documents -/

def decodeDetail (document : Document) : Except RuntimeError Fields := document.mapError .errorf

def Fields.set (fields : Fields) (key : String) (value : Json) : Fields := Function.update fields key (some value)

def mergeDetailFields (fields : Fields) (addition : Members) : Document :=
  .ok (addition.foldl (fun f m => f.set m.1 m.2) fields)

def mergeDetail (existing : Document) (addition : Members) : Except RuntimeError Document := do
  return mergeDetailFields (← decodeDetail existing) addition

def actionDetailString (fields : Fields) (key : String) : String :=
  match fields key with
  | some (.string text) => text
  | _ => ""

def actionDetailInt (fields : Fields) (key : String) : Option Int :=
  match fields key with
  | some (.number literal) => literal.toInt?.filter fun n => -2 ^ 63 ≤ n ∧ n < 2 ^ 63
  | _ => none

def nullableString (value : String) : Option String := if value = "" then none else some value

def nullableStringPointer (value : Option String) : Option String := value.bind nullableString

/-- `Action.Detail`. -/
def Action.detail (a : Action) : Except RuntimeError Fields := decodeDetail a.detailJSON

/-! ## Hashes and digests -/

section

variable [Unicode] [Digests]

def decodeHex (value : String) : Except RuntimeError GoBytes :=
  decodeHexWith (.errorf "hex string has an odd number of digits") id value

def encodeHex (value : GoBytes) : String := "0x" ++ encodeToString value

def keccakHex (value : GoBytes) : String := encodeHex (Digests.keccak256 value).toList

def requireDigest (value field actionID : String) : Except RuntimeError Unit := do
  revertIf (len value.toList ≠ 64)
    (.errorf s!"xir state: action {actionID} {field} is {quoted value}, want 64 hex characters")
  let _ ← (decodeString value).mapError (.wrap s!"xir state: action {actionID} {field} is not hex: ")
  revertIf (toLower value ≠ value) (.errorf s!"xir state: action {actionID} {field} is not lowercase hex")

/-- Normalises a transaction hash to the `0x`-prefixed lower-case form. -/
def canonicalHash (value : String) : Except RuntimeError String := do
  let trimmed := trimPrefix (trimPrefix (trimSpace value) "0x") "0X"
  revertIf (trimmed = "") (.errorf "empty transaction hash")
  revertIf (len trimmed.toList % 2 ≠ 0)
    (.errorf s!"transaction hash {quoted value} has an odd number of hex digits")
  let decoded ← (decodeString (toLower trimmed)).mapError (.wrap s!"transaction hash {quoted value} is not hex: ")
  return encodeHex decoded

end

/-! ## State transitions -/

def actionRank : ActionState → Except RuntimeError Nat
  | .intended => .ok 0
  | .signed => .ok 1
  | .submitted => .ok 2
  | .succeeded => .ok 3
  | .failed => .ok 4
  | stateName => .error (.errorf s!"xir state: unknown action state {quoted stateName.text}")

def checkTransition (source target : ActionState) : Except RuntimeError Unit :=
  if source = .unset ∨ source = target then .ok ()
  else do
    let fromRank ← actionRank source
    let toRank ← actionRank target
    revertIf (source = .failed)
      (.stateTransition s!"{source.text} is terminal and cannot become {target.text}")
    revertIf (source = .succeeded)
      (.stateTransition s!"{source.text} is terminal and cannot become {target.text}")
    revertIf (target ≠ .failed ∧ toRank < fromRank)
      (.stateTransition s!"{source.text} cannot regress to {target.text}")

/-! ## Writes -/

/-- The arguments of `insertStageAndEvent`. -/
structure StageWrite where
  attemptID : String
  stage : String
  state : ActionState
  detailJSON : Document
  transactionHash : Option String
  observedAt : Int
  updateCurrent : Bool
  chainRole : String
  hopIndex : Option Int

/-- The bodies of `transact`, each with the row its call has read. -/
inductive Write
  | insertAction (action : Action) (now : Int)
  | recordSigned (action : Action) (rawTx : GoBytes) (canonical : String) (signedDetail : Document) (now : Int)
  | observe (action : Action) (stateName : ActionState) (merged : Document) (now : Int)
  | succeed (action : Action) (canonical : String) (result : ActionResult) (merged : Document) (now : Int)

/-- The frozen-intent document that is recorded before signing. -/
def intendedDetail (action : Action) : Except RuntimeError Fields := do
  let fields ← action.detail
  return ((((fields.set "role" (.string action.chainRole)).set "nonce" (.ofNat action.nonce)).set "target"
    (.string action.target)).set "calldata_sha256" (.string action.calldataSHA256)).set "chain_id"
    (.ofNat action.chainID.toNat)

namespace Tables

def find (t : Tables) (actionID : String) : Option Action :=
  (t.actions.find? fun r => r.action.actionID = actionID).map ActionRow.action

/-- `SELECT MAX(nonce) … WHERE chain_id = ? AND sender = ?`. -/
def maxNonce (t : Tables) (chainID : UInt64) (sender : String) : Option Nat :=
  ((t.actions.filter fun r => r.action.chainID = chainID ∧ r.action.sender = sender).map (·.action.nonce)).max?

/-- What `actions_nonce_sender_unique` refuses: two rows that have not failed with the nonce of one
account. -/
def NonceConflict (a b : Action) : Prop :=
  a.actionID ≠ b.actionID ∧ a.chainID = b.chainID ∧ a.sender = b.sender ∧ a.nonce = b.nonce ∧ a.sender ≠ "" ∧
    a.state ≠ .failed ∧ b.state ≠ .failed

instance (a b : Action) : Decidable (NonceConflict a b) := inferInstanceAs (Decidable (_ ∧ _))

/-- `UPDATE actions … WHERE action_id = ?`. -/
def updateAction (t : Tables) (actionID : String) (f : ActionRow → ActionRow) (failure : RuntimeError) :
    Except RuntimeError Tables :=
  let rows := t.actions.map fun r => if r.action.actionID = actionID then f r else r
  if ∃ r ∈ rows, r.action.actionID = actionID ∧ ∃ r' ∈ rows, NonceConflict r.action r'.action then .error failure
  else .ok { t with actions := rows }

def upsertStage (stages : List StageRow) (row : StageRow) : List StageRow :=
  if ∃ r ∈ stages, r.attemptID = row.attemptID ∧ r.stage = row.stage then
    stages.map fun r => if r.attemptID = row.attemptID ∧ r.stage = row.stage then row else r
  else stages ++ [row]

def insertStageAndEvent (t : Tables) (write : StageWrite) : Except RuntimeError Tables := do
  let row : StageRow :=
    ⟨write.attemptID, write.stage, write.state, write.transactionHash, write.detailJSON, write.observedAt⟩
  let stages := if write.updateCurrent then upsertStage t.stages row else t.stages
  let fields ← decodeDetail write.detailJSON
  let chainRole := if write.chainRole = "" then actionDetailString fields "role" else write.chainRole
  let hopIndex := write.hopIndex.or (actionDetailInt fields "hop_index")
  let event : EventRow := ⟨write.attemptID, write.stage, write.state, nullableString chainRole, hopIndex,
    nullableStringPointer write.transactionHash, .ok fields⟩
  -- `INSERT OR IGNORE`, on the index of `attempt_id`, `stage`, `event` and `source`
  let events :=
    if ∃ r ∈ t.events, r.attemptID = write.attemptID ∧ r.stage = write.stage ∧ r.event = write.state then t.events
    else t.events ++ [event]
  return { t with stages := stages, stageHistory := t.stageHistory ++ [row], events := events }

section

variable [Unicode] [Digests]

def insertDurableSigned (t : Tables) (action : Action) (txHash : String) (rawTx : GoBytes) (rawSHA256 : String)
    (detailJSON : Document) : Except RuntimeError Tables :=
  match t.durableSigned.find? fun r => r.attemptID = action.attemptID ∧ r.stage = action.stage with
  | none =>
    if ∃ r ∈ t.durableSigned, r.transactionHash = txHash then
      .error (.errorf
        s!"xir state: cannot record durable signed transaction for {action.attemptID}/{action.stage}: ")
    else
      .ok { t with
        durableSigned := t.durableSigned ++
          [⟨action.attemptID, action.stage, txHash, rawTx, rawSHA256, detailJSON⟩] }
  | some existing =>
    if existing.transactionHash ≠ txHash ∨ existing.rawSHA256 ≠ rawSHA256 ∨ existing.rawTransaction ≠ rawTx then
      .error (.drift (s!"durable signed transaction for {action.attemptID}/{action.stage} already holds " ++
        existing.transactionHash))
    else .ok t

/-- The effect of a write transaction. One that fails has none. -/
def apply (t : Tables) : Write → Except RuntimeError Tables
  | .insertAction action now =>
    if ∃ r ∈ t.actions, r.action.actionID = action.actionID ∨ NonceConflict action r.action then
      .error (.errorf s!"xir state: cannot record action {action.actionID}: ")
    else .ok { t with actions := t.actions ++ [⟨action, now, now⟩] }
  | .recordSigned action rawTx canonical signedDetail now => do
    let t ← t.updateAction action.actionID
      (fun r => { r with
        action := { r.action with
          state := .signed, rawTransactionHex := encodeHex rawTx, transactionHash := canonical,
          detailJSON := signedDetail }
        updatedAt := now })
      (.errorf s!"xir state: cannot record signed action {action.actionID}: ")
    if action.attemptID = "" ∨ action.stage = "" then
      return t
    let t ← t.insertDurableSigned action canonical rawTx (sha256Hex rawTx) signedDetail
    let intended ← intendedDetail action
    let t ← t.insertStageAndEvent
      { attemptID := action.attemptID, stage := action.stage, state := .intended, detailJSON := .ok intended,
        transactionHash := none, observedAt := now, updateCurrent := false, chainRole := action.chainRole,
        hopIndex := none }
    t.insertStageAndEvent
      { attemptID := action.attemptID, stage := action.stage, state := .signed, detailJSON := signedDetail,
        transactionHash := some canonical, observedAt := now, updateCurrent := true, chainRole := action.chainRole,
        hopIndex := none }
  | .observe action stateName merged now => do
    let t ← t.updateAction action.actionID
      (fun r => { r with action := { r.action with state := stateName, detailJSON := merged }, updatedAt := now })
      (.errorf s!"xir state: cannot observe action {action.actionID}: ")
    if action.attemptID = "" ∨ action.stage = "" then
      return t
    let fields ← decodeDetail merged
    t.insertStageAndEvent
      { attemptID := action.attemptID, stage := action.stage, state := stateName, detailJSON := merged,
        transactionHash := nullableString action.transactionHash, observedAt := now, updateCurrent := true,
        chainRole := actionDetailString fields "role", hopIndex := actionDetailInt fields "hop_index" }
  | .succeed action canonical result merged now => do
    let t ← t.updateAction action.actionID
      (fun r => { r with
        action := { r.action with
          state := .succeeded
          -- `COALESCE(NULLIF(?, ''), transaction_hash)`
          transactionHash := if canonical = "" then r.action.transactionHash else canonical
          receiptPath := result.receiptPath, receiptSHA256 := result.receiptSHA256,
          blockNumber := result.blockNumber, gasUsed := result.gasUsed, detailJSON := merged }
        updatedAt := now })
      (.errorf s!"xir state: cannot complete action {action.actionID}: ")
    if action.attemptID = "" ∨ action.stage = "" then
      return t
    t.insertStageAndEvent
      { attemptID := action.attemptID, stage := action.stage, state := .succeeded, detailJSON := merged,
        transactionHash := nullableString canonical, observedAt := now, updateCurrent := true,
        chainRole := action.chainRole, hopIndex := none }

end

end Tables

/-! ## Calls -/

/-- What a call asks of the database: each operation is one critical section. -/
inductive StoreOp
  | action (actionID : String)
  | maxActionNonce (chainID : UInt64) (sender : String)
  | now
  | transact (write : Write)

@[reducible] def StoreOp.Answer : StoreOp → Type
  | action _ => Except RuntimeError (Option Action)
  | maxActionNonce _ _ => Except RuntimeError (Option Nat)
  | now => Int
  | transact _ => Except RuntimeError Unit

abbrev StoreProg := Prog StoreOp StoreOp.Answer RuntimeError

namespace Store

def action (actionID : String) : StoreProg (Option Action) := do
  Prog.ofExcept (revertIf (actionID = "") (.errorf "xir state: empty action id"))
  Prog.op (.action actionID) Prog.ofExcept

def now : StoreProg Int := Prog.ask StoreOp.now

def transact (write : Write) : StoreProg Unit := Prog.op (.transact write) Prog.ofExcept

variable [Unicode] [Digests]

def maxActionNonce (chainID : UInt64) (sender : String) : StoreProg (Option Nat) := do
  let sender := toLower (trimSpace sender)
  Prog.ofExcept (revertIf (sender = "") (.errorf "xir state: a nonce floor needs the signing account"))
  Prog.op (.maxActionNonce chainID sender) Prog.ofExcept

def validateIntend (action : Action) : Except RuntimeError Unit := do
  revertIf (action.actionID = "") (.errorf "xir state: an intent needs an action id")
  revertIf (action.chainRole = "") (.errorf s!"xir state: action {action.actionID} has no chain role")
  revertIf (action.sender = "") (.errorf s!"xir state: action {action.actionID} has no sender account")
  revertIf (action.state ≠ .unset ∧ action.state ≠ .intended)
    (.errorf (s!"xir state: action {action.actionID} must be intended at insert time, got " ++
      quoted action.state.text))
  revertIf (action.gas = 0) (.errorf s!"xir state: action {action.actionID} froze a zero gas limit")
  let calldata ← (decodeHex action.calldataHex).mapError
    (.wrap s!"xir state: action {action.actionID} has invalid calldata: ")
  revertIf (calldata.length ≠ action.calldataBytes)
    (.drift (s!"action {action.actionID} froze {action.calldataBytes} calldata bytes but carries " ++
      toString calldata.length))
  requireDigest action.calldataSHA256 "calldata_sha256" action.actionID
  revertIf (sha256Hex calldata ≠ action.calldataSHA256)
    (.drift (s!"action {action.actionID} froze calldata_sha256 {action.calldataSHA256} but its bytes digest to " ++
      sha256Hex calldata))
  revertIf (action.value = "") (.errorf s!"xir state: action {action.actionID} has no value")

/-- A field that a replay has to repeat. -/
def sameField (actionID name : String) (stored replayed : String) : Except RuntimeError Unit :=
  revertIf (stored ≠ replayed)
    (.drift s!"action {actionID} {name} is {quoted stored} in the ledger and {quoted replayed} in the replay")

def sameNumber {α : Type} [DecidableEq α] [ToString α] (actionID name : String) (stored replayed : α) :
    Except RuntimeError Unit :=
  revertIf (stored ≠ replayed)
    (.drift s!"action {actionID} {name} is {stored} in the ledger and {replayed} in the replay")

/-- Compares the fields that a restart must be able to derive again. -/
def sameFrozenIdentity (stored requested : Action) : Except RuntimeError Unit := do
  sameField stored.actionID "attempt_id" stored.attemptID requested.attemptID
  sameField stored.actionID "stage" stored.stage requested.stage
  sameField stored.actionID "chain_role" stored.chainRole requested.chainRole
  sameField stored.actionID "sender" stored.sender (toLower (trimSpace requested.sender))
  sameField stored.actionID "target" stored.target requested.target
  sameField stored.actionID "calldata_hex" stored.calldataHex requested.calldataHex
  sameField stored.actionID "calldata_sha256" stored.calldataSHA256 requested.calldataSHA256
  sameField stored.actionID "value" stored.value requested.value
  sameNumber stored.actionID "chain_id" stored.chainID requested.chainID
  sameNumber stored.actionID "gas" stored.gas requested.gas
  sameNumber stored.actionID "nonce" stored.nonce requested.nonce
  sameNumber stored.actionID "calldata_bytes" stored.calldataBytes requested.calldataBytes

/-- What `Intend` makes of its argument before it looks for the row. The detail of an unset text
is an empty object already. -/
def normalised (action : Action) : Action :=
  { action with
    state := if action.state = .unset then .intended else action.state
    sender := toLower (trimSpace action.sender)
    -- the columns that an insert leaves out
    rawTransactionHex := "", transactionHash := "", receiptPath := "", receiptSHA256 := "", blockNumber := 0,
    gasUsed := 0 }

def intend (requested : Action) : StoreProg (Option Action) := do
  Prog.ofExcept (validateIntend requested)
  let requested := normalised requested
  match ← action requested.actionID with
  | some stored =>
    Prog.ofExcept (sameFrozenIdentity stored requested)
    return some stored
  | none =>
    let time ← now
    transact (.insertAction requested time)
    action requested.actionID

/-- The frozen identity, the caller's detail and the digest of the raw bytes. -/
def signedDetail (action : Action) (rawTx : GoBytes) : Except RuntimeError Document := do
  let fields ← intendedDetail action
  return .ok (fields.set "raw_sha256" (.string (sha256Hex rawTx)))

/-- What `RecordSigned`, `Observe` and `Succeed` do after the checks of their arguments: read the row,
check it, which may end the call, derive a document from it, and write. -/
def rewriteRow (actionID : String) (check : Action → Except RuntimeError Bool)
    (document : Action → Except RuntimeError Document) (write : Action → Document → Int → Write) :
    StoreProg Unit := do
  match ← action actionID with
  | none => Prog.fail (.errorf s!"xir state: action {actionID} was never intended")
  | some stored =>
    if ← Prog.ofExcept (check stored) then
      return ()
    let detail ← Prog.ofExcept (document stored)
    let time ← now
    transact (write stored detail time)

/-- The part of `RecordSigned` that looks at the row: whether to return at once. -/
def checkSigned (action : Action) (rawTx : GoBytes) (canonical : String) : Except RuntimeError Bool := do
  if action.rawTransactionHex ≠ "" then
    let existing ← (decodeHex action.rawTransactionHex).mapError fun _ =>
      .drift s!"action {action.actionID} has undecodable raw bytes: "
    revertIf (existing ≠ rawTx ∨ action.transactionHash ≠ canonical)
      (.drift s!"action {action.actionID} already holds signed transaction {action.transactionHash}")
    if action.state = .succeeded ∨ action.state = .failed then
      return true
  checkTransition action.state .signed
  return false

/-- The part of `RecordSigned` that looks at its arguments. -/
def checkRaw (actionID : String) (rawTx : GoBytes) (txHash : String) : Except RuntimeError String := do
  revertIf (actionID = "") (.errorf "xir state: RecordSigned needs an action id")
  revertIf (rawTx = []) (.errorf s!"xir state: action {actionID} has no raw transaction bytes")
  let canonical ← (canonicalHash txHash).mapError (.wrap s!"xir state: action {actionID}: ")
  revertIf (keccakHex rawTx ≠ canonical)
    (.drift (s!"action {actionID} was handed transaction hash {canonical} but its bytes hash to " ++ keccakHex rawTx))
  return canonical

def recordSigned (actionID : String) (rawTx : GoBytes) (txHash : String) : StoreProg Unit := do
  let canonical ← Prog.ofExcept (checkRaw actionID rawTx txHash)
  rewriteRow actionID (checkSigned · rawTx canonical) (signedDetail · rawTx) (Write.recordSigned · rawTx canonical)

/-- The part of `Observe` that looks at the row: whether to return at once. -/
def checkObserved (action : Action) (stateName : ActionState) (detail : Members) : Except RuntimeError Bool := do
  revertIf ((stateName = .signed ∨ stateName = .submitted ∨ stateName = .succeeded) ∧ action.rawTransactionHex = "")
    (.errorf (s!"xir state: action {action.actionID} cannot become {stateName.text} before its raw transaction " ++
      "is recorded"))
  if action.state = stateName then
    return detail = []
  checkTransition action.state stateName
  return false

def observe (actionID : String) (stateName : ActionState) (detail : Members) : StoreProg Unit := do
  let _ ← Prog.ofExcept (actionRank stateName)
  rewriteRow actionID (checkObserved · stateName detail) (mergeDetail ·.detailJSON detail) (Write.observe · stateName)

/-- The part of `Succeed` that looks at its arguments. -/
def checkResult (actionID : String) (result : ActionResult) : Except RuntimeError String := do
  let canonical ← (canonicalHash result.transactionHash).mapError (.wrap s!"xir state: action {actionID}: ")
  if result.receiptPath ≠ "" then
    requireDigest result.receiptSHA256 "receipt_sha256" actionID
  return canonical

/-- The part of `Succeed` that looks at the row: whether to return at once. -/
def checkSucceeded (action : Action) (canonical : String) (result : ActionResult) : Except RuntimeError Bool := do
  revertIf (action.transactionHash ≠ "" ∧ action.transactionHash ≠ canonical)
    (.drift (s!"action {action.actionID} succeeded on {canonical} but the ledger holds " ++ action.transactionHash))
  if action.state = .succeeded then
    revertIf (action.blockNumber ≠ result.blockNumber ∨ action.gasUsed ≠ result.gasUsed)
      (.drift (s!"action {action.actionID} already succeeded at block {action.blockNumber} with " ++
        s!"{action.gasUsed} gas"))
    return true
  checkTransition action.state .succeeded
  return false

/-- The detail that `Succeed` adds to that of the row. -/
def resultMembers (result : ActionResult) : Members :=
  result.detail ++
  (if result.contractAddress ≠ "" then [("contract_address", .string result.contractAddress)] else []) ++
  (if result.receiptPath ≠ "" then
    [("receipt", .string result.receiptPath), ("receipt_sha256", .string result.receiptSHA256),
      ("gas_used", .ofNat result.gasUsed.toNat), ("block_number", .ofNat result.blockNumber.toNat)]
  else [])

def succeed (actionID : String) (result : ActionResult) : StoreProg Unit := do
  let canonical ← Prog.ofExcept (checkResult actionID result)
  rewriteRow actionID (checkSucceeded · canonical result) (mergeDetail ·.detailJSON (resultMembers result))
    (Write.succeed · canonical result)

end Store

/-- Derives the frozen identity of a row again, and rejects any mismatch. -/
def verifyActionIdentity [Unicode] [Digests] (action : Action) : Except RuntimeError Unit := do
  revertIf (action.actionID = "") (.errorf "xir state: action row has no action id")
  revertIf (action.chainRole = "") (.errorf s!"xir state: action {action.actionID} has no chain role")
  revertIf (action.sender = "") (.errorf s!"xir state: action {action.actionID} has no sender account")
  let _ ← (actionRank action.state).mapError (.wrap s!"xir state: action {action.actionID}: ")
  revertIf (action.gas = 0) (.errorf s!"xir state: action {action.actionID} froze a zero gas limit")
  let calldata ← (decodeHex action.calldataHex).mapError fun _ =>
    .drift s!"action {action.actionID} has undecodable calldata: "
  revertIf (calldata.length ≠ action.calldataBytes)
    (.drift (s!"action {action.actionID} carries {calldata.length} calldata bytes but froze " ++
      toString action.calldataBytes))
  requireDigest action.calldataSHA256 "calldata_sha256" action.actionID
  revertIf (sha256Hex calldata ≠ action.calldataSHA256)
    (.drift (s!"action {action.actionID} carries calldata digest {sha256Hex calldata} but froze " ++
      action.calldataSHA256))
  if action.receiptSHA256 ≠ "" then
    requireDigest action.receiptSHA256 "receipt_sha256" action.actionID
  if action.state = .signed ∨ action.state = .submitted ∨ action.state = .succeeded then
    revertIf (action.rawTransactionHex = "" ∨ action.transactionHash = "")
      (.drift s!"action {action.actionID} is {action.state.text} but holds no signed transaction")
    let raw ← (decodeHex action.rawTransactionHex).mapError fun _ =>
      .drift s!"action {action.actionID} has undecodable raw bytes: "
    revertIf (keccakHex raw ≠ action.transactionHash)
      (.drift (s!"action {action.actionID} carries raw bytes hashing to {keccakHex raw} but records " ++
        action.transactionHash))

end Xir.Impl
