import Xir.Impl.XirLab.Submission

/-!
# `src/xir_lab/execute/resolution.py`

`AmbiguousSubmissionResolver` and `ReplacementManager`. The resolver is a program whose operations are its store
transactions, the two lookups of its provider, and the calls for the controls. It handles what a
lookup raises; any other operation that raises ends it. A replacement is prepared
by a program as well, of a read and of the transaction of `prepare_intent`.
-/

namespace Xir.Impl.XirLab

structure TransactionProbe where
  transactionHash : String
  nonce : Int
  included : Bool
  canonical : Bool

structure ResolutionResult where
  transactionID : String
  status : String
  reasonCode : String
  safeToRepeatExactBytes : Bool

/-- A row of `transactions`, with the run of its attempt. -/
structure ResolverRow where
  record : TransactionRow
  runID : String

/-- What the resolver uses of its libraries. -/
class ResolutionLibraries where
  /-- `value.lower()`. -/
  lower : String → String
  /-- The SHA-256 of the canonical form of a run, a transaction, a reason and a time. -/
  materialSHA256 : String → String → String → Int → String

inductive ResolverOp
  | transaction (transactionID : String)
  | transactionByHash (chainID : Int) (transactionHash : String)
  | accountNonce (chainID : Int) (signerAddress : String)
  | advance (row : ResolverRow) (toState : TransactionState)
  | recordViolation (runID violationID : String)
  | controlState (runID : String)
  | halt (runID : String) (decision : ControlDecision)

@[reducible] def ResolverOp.Answer : ResolverOp → Type
  | transaction _ => ResolverRow
  | transactionByHash .. => Option TransactionProbe
  | accountNonce .. => Option Int
  | controlState _ => ControlRow
  | advance .. | recordViolation .. | halt .. => Unit

namespace AmbiguousSubmissionResolver

/-! ## Store transactions -/

variable (s : Store)

/-- The read of `resolve`. -/
def transaction (transactionID : String) : Except LabError ResolverRow := do
  let unknown := LabError.resolutionError ("unknown transaction: " ++ transactionID)
  let record ← orRevert unknown (s.transaction transactionID)
  let intent ← orRevert unknown (s.intent record.intentID)
  let stage ← orRevert unknown (s.stage intent.stageID)
  let attempt ← orRevert unknown (s.attempts stage.attemptID)
  return ⟨record, attempt.runID⟩

/-- The write of `_advance`. -/
def advanceRow (row : ResolverRow) (toState : TransactionState) : Except LabError Store := do
  let changed := LabError.resolutionError "transaction changed during resolution"
  let current ← orRevert changed (s.transaction row.record.transactionID)
  revertIf (current.state ≠ row.record.state) changed
  let s ← s.setTransaction row.record.transactionID fun t => { t with state := toState }
  s.setIntentState row.record.intentID toState

/-- The write of `_halt_conflict`. -/
def recordViolation (runID violationID : String) : Except LabError Store :=
  if ∃ v ∈ s.violations, v.violationID = violationID then .ok s
  else s.putViolations (s.violations ++ [⟨violationID, runID, "ambiguous_submission_conflict"⟩])

/-- An operation raises, and changes nothing, or it does what it should. The provider answers what it likes. -/
inductive Answers : (op : ResolverOp) → Except LabError op.Answer → Store → Prop
  | raises (op : ResolverOp) (e : LabError) : Answers op (.error e) s
  | transaction {transactionID : String} {row : ResolverRow} : transaction s transactionID = .ok row →
    Answers (.transaction transactionID) (.ok row) s
  | transactionByHash (chainID : Int) (transactionHash : String) (probe : Option TransactionProbe) :
    Answers (.transactionByHash chainID transactionHash) (.ok probe) s
  | accountNonce (chainID : Int) (signerAddress : String) (nonce : Option Int) :
    Answers (.accountNonce chainID signerAddress) (.ok nonce) s
  | advance {row : ResolverRow} {toState : TransactionState} {s' : Store} : advanceRow s row toState = .ok s' →
    Answers (.advance row toState) (.ok ()) s'
  | recordViolation {runID violationID : String} {s' : Store} : recordViolation s runID violationID = .ok s' →
    Answers (.recordViolation runID violationID) (.ok ()) s'
  | controlState {runID : String} {row : ControlRow} : RunControlManager.state s runID = .ok row →
    Answers (.controlState runID) (.ok row) s
  | halt {runID : String} {decision : ControlDecision} {s' : Store} : RunControlManager.halt s runID decision = .ok s' →
    Answers (.halt runID decision) (.ok ()) s'

/-! ## Methods -/

abbrev Program := Prog ResolverOp (fun op => Except LabError op.Answer) LabError

/-- Does an operation, and raises what it raises. -/
abbrev call (op : ResolverOp) : Program op.Answer := Prog.call op

variable [ResolutionLibraries]

/-- `_advance`. -/
def advance (row : ResolverRow) (toState : TransactionState) : Program Unit :=
  if row.record.state = toState then return ()
  else call (.advance row toState)

/-- `_halt_conflict`. -/
def haltConflict (row : ResolverRow) (reasonCode : String) (checkedAt : Int) : Program Unit := do
  let digest := ResolutionLibraries.materialSHA256 row.runID row.record.transactionID reasonCode checkedAt
  let violationID := "violation_" ++ String.ofList (digest.toList.take 24)
  call (.recordViolation row.runID violationID)
  let state ← call (.controlState row.runID)
  if state.mode = .running ∨ state.mode = .drain then
    call (.halt row.runID ⟨violationID, digest, reasonCode, none⟩)

/-- What `resolve` does about the transaction that the provider found. -/
def resolveFound (row : ResolverRow) (expectedHash : String) (probe : TransactionProbe) (checkedAt : Int) :
    Program ResolutionResult := do
  if ResolutionLibraries.lower probe.transactionHash ≠ ResolutionLibraries.lower expectedHash ∨
      probe.nonce ≠ row.record.nonce then
    haltConflict row "hash_or_nonce_conflict" checkedAt
    return ⟨row.record.transactionID, "conflict", "hash_or_nonce_conflict", false⟩
  else
    let targetState : TransactionState := if probe.included && probe.canonical then .included else .submitted
    advance row targetState
    return ⟨row.record.transactionID, targetState.name, "precomputed_hash_found", false⟩

/-- What `resolve` does if the provider does not know the hash, about the nonce of the account. -/
def resolveAbsent (row : ResolverRow) (observedNonce : Option Int) (checkedAt : Int) : Program ResolutionResult := do
  match observedNonce with
  | none => return ⟨row.record.transactionID, "unknown", "nonce_lookup_unavailable", false⟩
  | some observedNonce =>
    if row.record.nonce < observedNonce then
      haltConflict row "nonce_consumed_without_known_hash" checkedAt
      return ⟨row.record.transactionID, "conflict", "nonce_consumed_without_known_hash", false⟩
    else return ⟨row.record.transactionID, "not_found", "exact_hash_absent_nonce_not_consumed", true⟩

/-- `resolve`. -/
def resolve (transactionID signerAddress : String) (checkedAt : Int) : Program ResolutionResult := do
  let row ← call (.transaction transactionID)
  Prog.ofExcept (revertIf (row.record.state ≠ .broadcastUnknown ∧ row.record.state ≠ .submitted)
    (.resolutionError "only ambiguous or pending submissions can be resolved"))
  let expectedHash ← Prog.ofExcept (orRevert (.resolutionError "transaction lacks a precomputed hash")
    row.record.transactionHash)
  Prog.op (.transactionByHash row.record.chainID expectedHash) fun
    | .error _ => return ⟨transactionID, "unknown", "hash_lookup_error", false⟩
    | .ok (some probe) => resolveFound row expectedHash probe checkedAt
    | .ok none => Prog.op (.accountNonce row.record.chainID signerAddress) fun
      | .error _ => resolveAbsent row none checkedAt
      | .ok observedNonce => resolveAbsent row observedNonce checkedAt

end AmbiguousSubmissionResolver

/-! ## `ReplacementManager` -/

/-- A predecessor, with the stage of its intent and the number of transactions that it replaces, one after another. -/
structure Predecessor where
  record : TransactionRow
  stageID : String
  count : ℕ

inductive ReplacementOp
  | predecessor (transactionID : String)
  | prepareIntent (preparation : IntentPreparation) (operationID : String)

@[reducible] def ReplacementOp.Answer : ReplacementOp → Type
  | predecessor _ => Predecessor
  | prepareIntent .. => String

/-- The constructor refuses a maximum that is negative. -/
structure ReplacementManager where
  maximum : ℕ

namespace ReplacementManager

variable (s : Store)

/-- The recursive query `ancestors`. It does not end where transactions replace one another in a circle, which is then
longer than the table. -/
def ancestors : ℕ → Option String → Except LabError (List TransactionRow)
  | _, none => .ok []
  | 0, some _ => .error .diverges
  | fuel + 1, some transactionID =>
    match s.transaction transactionID with
    | none => .ok []
    | some t => do return t :: (← ancestors fuel t.replacesTransactionID)

/-- The read of `prepare_replacement`. -/
def predecessor (transactionID : String) : Except LabError Predecessor := do
  let unknown := LabError.resolutionError "unknown replacement predecessor"
  let record ← orRevert unknown (s.transaction transactionID)
  let intent ← orRevert unknown (s.intent record.intentID)
  let rows ← ancestors s (s.transactions.length + 1) (some transactionID)
  return ⟨record, intent.stageID, rows.length - 1⟩

/-- An operation raises, and changes nothing, or it does what it should. -/
inductive Answers : (op : ReplacementOp) → Except LabError op.Answer → Store → Prop
  | raises (op : ReplacementOp) (e : LabError) : Answers op (.error e) s
  | predecessor {transactionID : String} {found : Predecessor} : predecessor s transactionID = .ok found →
    Answers (.predecessor transactionID) (.ok found) s
  | prepareIntent {preparation : IntentPreparation} {operationID id : String} {s' : Store} :
    SubmissionCoordinator.prepareIntent s preparation operationID = .ok (s', id) →
    Answers (.prepareIntent preparation operationID) (.ok id) s'

abbrev Program := Prog ReplacementOp (fun op => Except LabError op.Answer) LabError

/-- Does an operation, and raises what it raises. -/
abbrev call (op : ReplacementOp) : Program op.Answer := Prog.call op

variable [SignerLibraries]

/-- `prepare_intent`, of the coordinator of the submissions. -/
def prepareIntent (preparation : IntentPreparation) : Program String := do
  let operationID ← Prog.ofExcept (SubmissionCoordinator.preparedOperation preparation)
  call (.prepareIntent preparation operationID)

/-- What becomes of an error of `prepare_intent`. -/
def unsafeIntent : LabError → LabError
  | .submissionError _ => .resolutionError "replacement intent failed durable safety gates"
  | e => e

/-- `prepare_replacement`. -/
def prepareReplacement (m : ReplacementManager) (priorTransactionID : String) (preparation : IntentPreparation) :
    Program String := do
  let prior ← call (.predecessor priorTransactionID)
  Prog.ofExcept (revertIf (m.maximum ≤ prior.count) (.resolutionError "same-nonce replacement limit exhausted"))
  Prog.ofExcept (revertIf (prior.record.state ∉ [.broadcastUnknown, .submitted, .other "orphaned"])
    (.resolutionError "replacement predecessor is not pending or orphaned"))
  let request := preparation.request
  Prog.ofExcept (revertIf (request.chainID ≠ prior.record.chainID ∨ request.nonce ≠ prior.record.nonce ∨
      preparation.stageID ≠ prior.stageID)
    (.resolutionError "replacement changed stage, chain, or nonce"))
  let bound := { preparation with replacesTransactionID := some priorTransactionID }
  (prepareIntent bound).handle fun e => Prog.fail (unsafeIntent e)

end ReplacementManager

/-- What a row of `transactions` has beside its phase: its intent, its chain and nonce, and what it replaces. -/
def TransactionRow.columns (t : TransactionRow) : String × Int × Int × Option String :=
  (t.intentID, t.chainID, t.nonce, t.replacesTransactionID)

/-- The transactions keep those columns, and the intents their stages. -/
structure Store.Kept (s s' : Store) : Prop where
  columns : ∀ id, (s'.transaction id).map TransactionRow.columns = (s.transaction id).map TransactionRow.columns
  stages : ∀ id i, s.intent id = some i → ∃ i', s'.intent id = some i' ∧ i'.stageID = i.stageID

/-- What happens around the managers: an operation of a coordinator of the submissions, whose preparations name no
predecessor, or anything that keeps every column of the transactions but those of their phase. -/
inductive AroundReplacements [SignerLibraries] : Store → Unit → Store → Prop
  | submission {l l' : Lab} {op : SubmissionOp} {r : Except LabError op.Answer}
    (plain : ∀ preparation operationID, op = .prepareIntent preparation operationID →
      preparation.replacesTransactionID = none)
    (answers : l.Answers op r l') : AroundReplacements l.store () l'.store
  | others {s s' : Store} (kept : s.Kept s') : AroundReplacements s () s'

/-- A call of a manager: the transaction that it names, and the preparation that is to replace it. -/
abbrev ReplacementCall := String × IntentPreparation

/-- The managers, each with the call that it is in. -/
abbrev Managers (τ : Type) := Threads τ Store ReplacementOp (fun op => Except LabError op.Answer) LabError String

/-- A step of a manager, or of what is around them. -/
abbrev ReplacementStep {τ : Type} [DecidableEq τ] [SignerLibraries] (m : ReplacementManager) :
    Managers τ → Threads.Event τ ReplacementCall ReplacementOp ⊕ Unit → Managers τ → Prop :=
  Threads.WorldStep (fun op s => ReplacementManager.Answers s op) (fun call => m.prepareReplacement call.1 call.2)
    AroundReplacements

end Xir.Impl.XirLab
