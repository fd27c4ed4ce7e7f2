import Xir.Framework.Dict
import Xir.Framework.Hex
import Xir.Framework.Threads
import Xir.Impl.XirLab.Signer

/-!
# `ApprovalVerifier` of `src/xir_lab/execute/approvals.py`

The two tables of approvals are one list of their rows, in the order in which
they were committed. A verifier is a program whose operations are the readings
of the clock, the reads of the ledger, and the two transactions. The fields of a
payload that only its digest depends on are one text.
-/

namespace Xir.Impl.XirLab

structure PinnedApprovalKey where
  issuerID : String
  approvalKeyID : String
  publicKeyHex : String

structure ApprovalPayload where
  approvalID : String
  issuerID : String
  approvalKeyID : String
  issuerSequence : Int
  operationType : String
  operationID : String
  issuedAt : String
  validFrom : String
  validUntil : String
  /-- The other fields. -/
  scope : String
  deriving DecidableEq

structure RevocationPayload where
  revocationID : String
  approvalID : String
  issuerID : String
  approvalKeyID : String
  issuerSequence : Int
  revokedAt : String
  reason : String
  deriving DecidableEq

/-- A signed payload. -/
structure SignedDocument (α : Type) where
  payload : α
  payloadSHA256 : String
  signature : String

abbrev ApprovalDocument := SignedDocument ApprovalPayload

abbrev RevocationDocument := SignedDocument RevocationPayload

structure VerifiedApproval where
  approvalID : String
  operationType : String
  operationID : String
  payloadSHA256 : String
  issuerSequence : Int

/-- A `datetime`: its instant, and whether it has a UTC offset. -/
structure PyDatetime where
  instant : Int
  aware : Bool

/-- What the verifier uses of its libraries. -/
class ApprovalLibraries where
  /-- `hashlib.sha256(data).digest()`. -/
  sha256 : PyBytes → PyBytes
  /-- `rfc8785.dumps`, of a payload. -/
  dumpsApproval : ApprovalPayload → Except LabError PyBytes
  dumpsRevocation : RevocationPayload → Except LabError PyBytes
  /-- `_validate_document`, with the schema of the document. -/
  validateApproval : ApprovalDocument → Except LabError Unit
  validateRevocation : RevocationDocument → Except LabError Unit
  /-- `datetime.fromisoformat`. -/
  fromISOFormat : String → Except LabError PyDatetime
  /-- Whether a public key, in hexadecimal digits, and a signature fit a message. -/
  verify : String → String → PyBytes → Bool

/-! ## The ledger -/

structure ConsumptionRow where
  approvalID : String
  issuerID : String
  approvalKeyID : String
  issuerSequence : Int
  operationType : String
  operationID : String
  payloadSHA256 : String
  validFrom : Int
  validUntil : Int
  consumedAt : Int

structure RevocationRow where
  revocationID : String
  approvalID : String
  issuerID : String
  approvalKeyID : String
  issuerSequence : Int
  payloadSHA256 : String
  revokedAt : Int

/-- A row of `approval_consumptions` or of `approval_revocations`. -/
inductive LedgerRow
  | consumption (row : ConsumptionRow)
  | revocation (row : RevocationRow)

namespace LedgerRow

def consumption? : LedgerRow → Option ConsumptionRow
  | consumption row => some row
  | revocation _ => none

def revocation? : LedgerRow → Option RevocationRow
  | consumption _ => none
  | revocation row => some row

def issuerID : LedgerRow → String
  | consumption row => row.issuerID
  | revocation row => row.issuerID

def issuerSequence : LedgerRow → Int
  | consumption row => row.issuerSequence
  | revocation row => row.issuerSequence

def payloadSHA256 : LedgerRow → String
  | consumption row => row.payloadSHA256
  | revocation row => row.payloadSHA256

end LedgerRow

structure ApprovalLedger where
  rows : List LedgerRow

namespace ApprovalLedger

variable (l : ApprovalLedger)

def consumptions : List ConsumptionRow := l.rows.filterMap LedgerRow.consumption?

def revocations : List RevocationRow := l.rows.filterMap LedgerRow.revocation?

/-- The constraints of the two tables. -/
def Constraints : Prop :=
  (∀ row ∈ l.rows, 1 ≤ row.issuerSequence ∧ row.issuerSequence < 2 ^ 63 ∧ row.payloadSHA256.length = 64) ∧
  Table.Unique (fun c : ConsumptionRow => some c.approvalID) l.consumptions ∧
  Table.Unique (fun c : ConsumptionRow => some (c.issuerID, c.issuerSequence)) l.consumptions ∧
  Table.Unique (fun r : RevocationRow => some r.revocationID) l.revocations ∧
  Table.Unique (fun r : RevocationRow => some (r.issuerID, r.issuerSequence)) l.revocations

instance : Decidable l.Constraints := inferInstanceAs (Decidable (_ ∧ _))

/-- An `INSERT`. -/
def insert (row : LedgerRow) : Except LabError ApprovalLedger :=
  let l' : ApprovalLedger := ⟨l.rows ++ [row]⟩
  if l'.Constraints then .ok l' else .error .sqliteError

/-- Whether `approval_revocations` has the approval. -/
def revoked (approvalID : String) : Bool := l.revocations.any (·.approvalID = approvalID)

/-- Whether `approval_consumptions` has the approval. -/
def consumed (approvalID : String) : Bool := l.consumptions.any (·.approvalID = approvalID)

/-- The greatest sequence number of an issuer, of both tables. -/
def maximum (issuerID : String) : Option Int :=
  ((l.rows.filter (·.issuerID = issuerID)).map LedgerRow.issuerSequence).max?

/-- The transaction of `verify_and_consume`. -/
def consume (row : ConsumptionRow) : Except LabError ApprovalLedger := do
  revertIf (l.revoked row.approvalID = true) (.approvalError "approval has been revoked")
  revertIf (∃ maximum ∈ l.maximum row.issuerID, row.issuerSequence ≤ maximum)
    (.approvalError "issuer sequence is not monotonic")
  (l.insert (.consumption row)).mapError fun _ => .approvalError "approval replay rejected"

/-- The transaction of `verify_and_record_revocation`. -/
def revoke (row : RevocationRow) : Except LabError ApprovalLedger := do
  revertIf (∃ maximum ∈ l.maximum row.issuerID, row.issuerSequence ≤ maximum)
    (.approvalError "revocation sequence is not monotonic")
  l.insert (.revocation row)

/-- A store that has these tables of approvals. -/
def onto (s : Store) : Store :=
  { s with
    approvals := fun approvalID => (l.consumptions.find? (·.approvalID = approvalID)).map fun c =>
      ⟨c.payloadSHA256, c.validFrom, c.validUntil⟩
    approvalRevocations := l.revocations.map (·.approvalID) }

end ApprovalLedger

/-! ## Operations -/

/-- Where the clock is read: by `verify`, or by `verify_and_consume` for an approval with a window. -/
inductive ClockReading
  | verify
  | consume (validFrom validUntil : Int)

inductive ApprovalOp
  | clock (reading : ClockReading)
  | revoked (approvalID : String)
  | consumed (approvalID : String)
  | maximum (issuerID : String)
  | consume (row : ConsumptionRow)
  | revoke (row : RevocationRow)

@[reducible] def ApprovalOp.Answer : ApprovalOp → Type
  | clock _ => Int
  | revoked _ | consumed _ => Bool
  | maximum _ => Option Int
  | consume _ | revoke _ => Unit

namespace ApprovalVerifier

/-- An operation raises, and changes nothing, or it does what it should. The clock shows any time. -/
inductive Answers (l : ApprovalLedger) : (op : ApprovalOp) → Except LabError op.Answer → ApprovalLedger → Prop
  | raises (op : ApprovalOp) (e : LabError) : Answers l op (.error e) l
  | clock (reading : ClockReading) (now : Int) : Answers l (.clock reading) (.ok now) l
  | revoked (approvalID : String) : Answers l (.revoked approvalID) (.ok (l.revoked approvalID)) l
  | consumed (approvalID : String) : Answers l (.consumed approvalID) (.ok (l.consumed approvalID)) l
  | maximum (issuerID : String) : Answers l (.maximum issuerID) (.ok (l.maximum issuerID)) l
  | consume {row : ConsumptionRow} {l' : ApprovalLedger} : l.consume row = .ok l' → Answers l (.consume row) (.ok ()) l'
  | revoke {row : RevocationRow} {l' : ApprovalLedger} : l.revoke row = .ok l' → Answers l (.revoke row) (.ok ()) l'

abbrev Program := Prog ApprovalOp (fun op => Except LabError op.Answer) LabError

abbrev call (op : ApprovalOp) : Program op.Answer := Prog.call op

/-- A read of the ledger by `verify`. -/
def read (op : ApprovalOp) : Program op.Answer :=
  Prog.op op fun
    | .error _ => Prog.fail (.approvalError "approval ledger is unavailable")
    | .ok a => Prog.done a

/-- `now or datetime.now(UTC)`. -/
def current (now : Option Int) (reading : ClockReading) : Program Int :=
  match now with
  | some now => return now
  | none => call (.clock reading)

variable [ApprovalLibraries]

open ApprovalLibraries

/-- `hashlib.sha256(data).hexdigest()`. -/
def hexdigest (data : PyBytes) : String := String.ofList (Hex.encode (sha256 data))

def bytes (text : String) : PyBytes := text.toList.map fun c => UInt8.ofNat c.toNat

def approvalDomain : PyBytes := bytes "xir-testnet-lab-approval-v1"

def revocationDomain : PyBytes := bytes "xir-testnet-lab-revocation-v1"

/-- `signature_message`. -/
def signatureMessage (domain : PyBytes) (payloadSHA256 : String) : Option PyBytes :=
  (Hex.decode payloadSHA256.toList).map fun digest => domain ++ 0 :: digest

/-- `value.replace("Z", "+00:00")`. -/
def withOffset (value : String) : String :=
  String.ofList (value.toList.flatMap fun c => if c = 'Z' then "+00:00".toList else [c])

/-- `_parse_time`. -/
def parseTime (value : String) : Except LabError Int := do
  let parsed ← fromISOFormat (withOffset value)
  revertIf (parsed.aware = false) (.approvalError "approval time must include a UTC offset")
  return parsed.instant

variable (keys : List PinnedApprovalKey)

/-- `_verify_signature`, of a payload with these fields and this canonical form. -/
def verifySignature (issuerID approvalKeyID : String) (canonical : Except LabError PyBytes)
    (payloadSHA256 signatureHex : String) (domain : PyBytes) : Except LabError PinnedApprovalKey := do
  let canonical ← canonical
  revertIf (hexdigest canonical ≠ payloadSHA256) (.approvalError "canonical payload digest mismatch")
  let unpinned := LabError.approvalError "approval key is not pinned for this issuer"
  -- Of several keys with one identifier the last is pinned.
  let key ← orRevert unpinned (Dict.get (·.approvalKeyID) keys.reverse approvalKeyID)
  revertIf (key.issuerID ≠ issuerID) unpinned
  let invalid := LabError.approvalError "invalid Ed25519 signature"
  let message ← orRevert invalid (signatureMessage domain payloadSHA256)
  revertIf (verify key.publicKeyHex signatureHex message = false) invalid
  return key

/-- `verify`. -/
def verify (document : ApprovalDocument) (now : Option Int) : Program VerifiedApproval := do
  let payload := document.payload
  Prog.ofExcept (validateApproval document)
  let _ ← Prog.ofExcept (verifySignature keys payload.issuerID payload.approvalKeyID (dumpsApproval payload)
    document.payloadSHA256 document.signature approvalDomain)
  let issuedAt ← Prog.ofExcept (parseTime payload.issuedAt)
  let validFrom ← Prog.ofExcept (parseTime payload.validFrom)
  let validUntil ← Prog.ofExcept (parseTime payload.validUntil)
  let current ← current now .verify
  Prog.ofExcept (revertIf (¬ (issuedAt ≤ validFrom ∧ validFrom < validUntil))
    (.approvalError "approval time ordering is invalid"))
  Prog.ofExcept (revertIf (¬ (validFrom ≤ current ∧ current < validUntil))
    (.approvalError "approval is not currently valid"))
  let revoked ← read (.revoked payload.approvalID)
  let consumed ← read (.consumed payload.approvalID)
  let maximum ← read (.maximum payload.issuerID)
  Prog.ofExcept (revertIf (revoked = true) (.approvalError "approval has been revoked"))
  Prog.ofExcept (revertIf (consumed = true) (.approvalError "approval has already been consumed"))
  Prog.ofExcept (revertIf (∃ m ∈ maximum, payload.issuerSequence ≤ m)
    (.approvalError "issuer sequence is not monotonic"))
  return ⟨payload.approvalID, payload.operationType, payload.operationID, document.payloadSHA256,
    payload.issuerSequence⟩

/-- `verify_and_consume`. -/
def verifyAndConsume (document : ApprovalDocument) (now : Option Int) : Program VerifiedApproval := do
  let verified ← verify keys document now
  let payload := document.payload
  Prog.ofExcept (validateApproval document)
  let validFrom ← Prog.ofExcept (parseTime payload.validFrom)
  let validUntil ← Prog.ofExcept (parseTime payload.validUntil)
  let current ← current now (.consume validFrom validUntil)
  call (.consume {
    approvalID := verified.approvalID, issuerID := payload.issuerID, approvalKeyID := payload.approvalKeyID
    issuerSequence := verified.issuerSequence, operationType := payload.operationType
    operationID := payload.operationID, payloadSHA256 := document.payloadSHA256
    validFrom, validUntil, consumedAt := current })
  return ⟨verified.approvalID, verified.operationType, verified.operationID, document.payloadSHA256,
    verified.issuerSequence⟩

/-- `verify_and_record_revocation`. -/
def verifyAndRecordRevocation (document : RevocationDocument) : Program Unit := do
  let payload := document.payload
  Prog.ofExcept (validateRevocation document)
  let _ ← Prog.ofExcept (verifySignature keys payload.issuerID payload.approvalKeyID (dumpsRevocation payload)
    document.payloadSHA256 document.signature revocationDomain)
  let revokedAt ← Prog.ofExcept (parseTime payload.revokedAt)
  call (.revoke {
    revocationID := payload.revocationID, approvalID := payload.approvalID, issuerID := payload.issuerID
    approvalKeyID := payload.approvalKeyID, issuerSequence := payload.issuerSequence
    payloadSHA256 := document.payloadSHA256, revokedAt })

inductive Call
  | verifyAndConsume (document : ApprovalDocument) (now : Option Int)
  | verifyAndRecordRevocation (document : RevocationDocument)

/-- The program of a call, for what it does. -/
def Call.prog : Call → Program Unit
  | verifyAndConsume document now => do
    let _ ← ApprovalVerifier.verifyAndConsume keys document now
  | verifyAndRecordRevocation document => ApprovalVerifier.verifyAndRecordRevocation keys document

end ApprovalVerifier

/-- Verifiers, each with the call that it is in. -/
abbrev Verifiers (τ : Type) :=
  Threads τ ApprovalLedger ApprovalOp (fun op => Except LabError op.Answer) LabError Unit

/-- A step of a verifier. -/
abbrev VerifierStep {τ : Type} [DecidableEq τ] [ApprovalLibraries] (keys : List PinnedApprovalKey) :
    Verifiers τ → Threads.Event τ ApprovalVerifier.Call ApprovalOp → Verifiers τ → Prop :=
  Threads.Step (fun op l => ApprovalVerifier.Answers l op) (ApprovalVerifier.Call.prog keys)

end Xir.Impl.XirLab
