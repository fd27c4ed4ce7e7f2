import Mathlib.Data.List.Infix
import Xir.Framework.Prog
import Xir.Impl.XirLab.Store

/-!
# `create_freeze` of `src/xir_lab/evidence/store.py`

A freeze reads three tables, each in a read of its own, then copies the
database, and publishes what it read beside the copy. The operations of the
program are these reads, the copy, which is a snapshot, the files it writes and
the row of `freezes`. The files hold the canonical JSON of what they are given
here.
-/

namespace Xir.Impl.XirLab

/-! ## Tables -/

/-- What a freeze lists of a row of `raw_blobs`. -/
structure RawEntry where
  rawSHA256 : String
  relativePath : String
  exactSize : Int
  storedSize : Int
  compression : String
  mediaType : String
  deriving DecidableEq

/-- A row of `raw_blobs`. -/
structure RawBlobRow extends RawEntry where
  metadataJSON : String
  createdAt : String
  deriving DecidableEq

/-- A row of `transition_journal`. -/
structure JournalRow where
  sequence : Int
  entityKind : String
  entityID : String
  fromState : Option String
  toState : String
  payloadJSON : String
  occurredAt : String
  deriving DecidableEq

/-- A row of `invariant_violations`. -/
structure RecordedViolation where
  violationID : String
  runID : String
  invariantCode : String
  resolvedAt : Option String
  deriving DecidableEq

/-- A row of `freezes`. -/
structure FreezeRow where
  freezeID : String
  runID : String
  version : Int
  scopeJSON : String
  databaseSHA256 : String
  rawManifestSHA256 : String
  journalSHA256 : String
  deriving DecidableEq

namespace FreezeRow

/-- The constraints of `freezes`. -/
def Constraints (rows : List FreezeRow) : Prop :=
  (∀ f ∈ rows, 1 ≤ f.version ∧ f.version < 2 ^ 63 ∧ f.databaseSHA256.length = 64 ∧ f.rawManifestSHA256.length = 64 ∧
    f.journalSHA256.length = 64) ∧
  Table.Unique (fun f : FreezeRow => some f.freezeID) rows ∧
  Table.Unique (fun f : FreezeRow => some (f.runID, f.version)) rows

instance (rows : List FreezeRow) : Decidable (Constraints rows) := inferInstanceAs (Decidable (_ ∧ _))

end FreezeRow

/-- What a database holds of what a freeze reads and writes. -/
structure Evidence where
  rawBlobs : List RawBlobRow
  transitionJournal : List JournalRow
  violations : List RecordedViolation
  freezes : List FreezeRow
  deriving DecidableEq

namespace Evidence

variable (e : Evidence)

/-- The columns of `raw_blobs` that a freeze lists, by their digests. -/
def rawRows : List RawEntry := (e.rawBlobs.map RawBlobRow.toRawEntry).mergeSort fun a b => a.rawSHA256 ≤ b.rawSHA256

/-- The journal, in its sequence. -/
def journalRows : List JournalRow := e.transitionJournal.mergeSort fun a b => a.sequence ≤ b.sequence

/-- How many violations of a run are not resolved. -/
def unresolved (runID : String) : Nat := e.violations.countP fun v => v.runID = runID ∧ v.resolvedAt = none

/-- The write of a freeze. -/
def insertFreeze (row : FreezeRow) : Except LabError Evidence :=
  let rows := e.freezes ++ [row]
  if FreezeRow.Constraints rows then .ok { e with freezes := rows } else .error .sqliteError

end Evidence

/-! ## Files -/

/-- What is written as canonical JSON. -/
inductive Published (Scope : Type)
  | rawRow (row : RawEntry)
  | scope (scope : Scope)
  | rawManifest (entries : List RawEntry)
  | journalManifest (entries : List JournalRow)
  | freezeManifest (row : FreezeRow) (scope : Scope)

/-- The destination of a freeze. -/
structure FreezeDirectory where
  /-- `evidence.sqlite`. -/
  database : Option Evidence
  /-- `raw-manifest.json`. -/
  rawManifest : Option (List RawEntry)
  /-- `journal-manifest.json`. -/
  journalManifest : Option (List JournalRow)
  /-- `freeze-manifest.json`. -/
  freezeManifest : Option FreezeRow

/-- The database, and the destination once it is there. -/
structure Freezing where
  tables : Evidence
  directory : Option FreezeDirectory

/-- Writes a file of the destination. -/
def Freezing.put (s : Freezing) (f : FreezeDirectory → FreezeDirectory) : Freezing :=
  { s with directory := s.directory.map f }

/-- What a freeze uses of its libraries. -/
class FreezeLibraries where
  Scope : Type
  /-- `_canonical_json`. -/
  canonicalJSON : Published Scope → Except LabError String
  /-- `hashlib.sha256(text.encode()).hexdigest()`. -/
  sha256 : String → String
  /-- `_sha256_file`, of a database. -/
  databaseSHA256 : Evidence → String
  /-- `Path(path).parts`. -/
  parts : String → List String

/-! ## Operations -/

inductive FreezeOp
  | makeDirectory
  | unresolvedViolations (runID : String)
  | rawRows
  | journalRows
  | backup
  | writeRawManifest (entries : List RawEntry)
  | writeJournalManifest (entries : List JournalRow)
  | insertFreeze (row : FreezeRow)
  | writeFreezeManifest (row : FreezeRow)
  deriving DecidableEq

@[reducible] def FreezeOp.Answer : FreezeOp → Type
  | unresolvedViolations _ => Nat
  | rawRows => List RawEntry
  | journalRows => List JournalRow
  | backup => String
  | makeDirectory | writeRawManifest _ | writeJournalManifest _ | insertFreeze _ | writeFreezeManifest _ => Unit

namespace EvidenceStore

open FreezeLibraries

variable [FreezeLibraries]

/-- An operation raises, and leaves the database as it is, or it does what it should. -/
inductive Answers (s : Freezing) : (op : FreezeOp) → Except LabError op.Answer → Freezing → Prop
  | raises (op : FreezeOp) (e : LabError) (directory : Option FreezeDirectory) :
    Answers s op (.error e) { s with directory }
  | makeDirectory :
      s.directory = none → Answers s .makeDirectory (.ok ()) { s with directory := some ⟨none, none, none, none⟩ }
  | unresolvedViolations (runID : String) : Answers s (.unresolvedViolations runID) (.ok (s.tables.unresolved runID)) s
  | rawRows : Answers s .rawRows (.ok s.tables.rawRows) s
  | journalRows : Answers s .journalRows (.ok s.tables.journalRows) s
  | backup : Answers s .backup (.ok (databaseSHA256 s.tables)) (s.put fun d => { d with database := some s.tables })
  | writeRawManifest (entries : List RawEntry) : Answers s (.writeRawManifest entries) (.ok ())
    (s.put fun d => { d with rawManifest := some entries })
  | writeJournalManifest (entries : List JournalRow) : Answers s (.writeJournalManifest entries) (.ok ())
    (s.put fun d => { d with journalManifest := some entries })
  | insertFreeze {row : FreezeRow} {tables : Evidence} : s.tables.insertFreeze row = .ok tables →
    Answers s (.insertFreeze row) (.ok ()) { s with tables }
  | writeFreezeManifest (row : FreezeRow) : Answers s (.writeFreezeManifest row) (.ok ())
    (s.put fun d => { d with freezeManifest := some row })

abbrev Program := Prog FreezeOp (fun op => Except LabError op.Answer) LabError

abbrev call (op : FreezeOp) : Program op.Answer := Prog.call op

/-- `SECRET_MARKERS`. -/
def secretMarkers : List String :=
  ["private_key", "private key", "mnemonic", "seed phrase", "xir_deployer_private_key", "xir_administrator_private_key"]

/-- `_scan_secret_bytes`. -/
def scanSecretBytes (value label : String) : Except LabError Unit :=
  revertIf (∃ marker ∈ secretMarkers, marker.toList <:+: value.toList.map Char.toLower)
    (.storeError ("secret marker found in publishable material: " ++ label))

/-- What `create_freeze` checks of a row of `raw_blobs`. -/
def checkRawRow (row : RawEntry) : Except LabError Unit := do
  scanSecretBytes (← FreezeLibraries.canonicalJSON (.rawRow row)) "raw manifest"
  revertIf ("private-spool" ∈ parts row.relativePath) (.storeError "private spool path cannot enter a freeze")

/-- `create_freeze`. -/
def createFreeze (freezeID runID : String) (version : Int) (scope : FreezeLibraries.Scope) (destination : List String) :
    Program (List String) := do
  Prog.ofExcept
    (revertIf ("private-spool" ∈ destination) (.storeError "freeze destination cannot be inside private spool"))
  call .makeDirectory
  let unresolved ← call (.unresolvedViolations runID)
  Prog.ofExcept (revertIf (unresolved ≠ 0) (.storeError "cannot freeze with unresolved invariant violations"))
  let rawRows ← call .rawRows
  let journalRows ← call .journalRows
  Prog.ofExcept (rawRows.forM checkRawRow)
  let scopeJSON ← Prog.ofExcept (FreezeLibraries.canonicalJSON (.scope scope))
  Prog.ofExcept (scanSecretBytes scopeJSON "freeze scope")
  let databaseSHA256 ← call .backup
  let rawManifest ← Prog.ofExcept (FreezeLibraries.canonicalJSON (.rawManifest rawRows))
  let journalManifest ← Prog.ofExcept (FreezeLibraries.canonicalJSON (.journalManifest journalRows))
  let row : FreezeRow := {
    freezeID, runID, version, scopeJSON, databaseSHA256
    rawManifestSHA256 := sha256 rawManifest
    journalSHA256 := sha256 journalManifest }
  call (.writeRawManifest rawRows)
  call (.writeJournalManifest journalRows)
  call (.insertFreeze row)
  let _ ← Prog.ofExcept (FreezeLibraries.canonicalJSON (.freezeManifest row scope))
  call (.writeFreezeManifest row)
  return destination ++ ["freeze-manifest.json"]

end EvidenceStore

end Xir.Impl.XirLab
