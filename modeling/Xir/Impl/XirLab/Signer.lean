import Mathlib.Data.List.AList
import Xir.Impl.XirLab.Store

/-!
# `src/xir_lab/execute/signer.py`

The spool is the files below its root, by their paths, and what of them is
certain to survive a crash of the system. The modes of the files and the check
that a path stays below the root are left out.
-/

namespace Xir.Impl.XirLab

abbrev PyBytes := List UInt8

structure SignerRequest where
  networkID : String
  chainID : Int
  signerID : String
  intentID : String
  nonce : Int
  destination : Option String
  valueWei : Int
  calldataSHA256 : String
  calldataLength : Int
  feeLimitWei : Int
  role : String
  configSHA256 : String
  codeSHA256 : String
  gasLimit : Int
  maxFeePerGasWei : Int
  maxPriorityFeePerGasWei : Int
  calldataHex : String
  unsignedTransactionSHA256 : String

/-- The hash, and the bytes of a request, as the libraries compute them. -/
class SignerLibraries where
  /-- `hashlib.sha256(data).hexdigest()`. -/
  sha256 : PyBytes → String
  /-- `rfc8785.dumps`, of a request in the domain of the signer. -/
  dumps : SignerRequest → Except LabError PyBytes

structure SignedTransaction where
  operationID : String
  transactionHash : String
  signedBytes : PyBytes

structure SpoolReference where
  operationID : String
  relativePath : String
  signedSHA256 : String
  signedLength : Int
  deriving DecidableEq

open SignerLibraries (sha256 dumps)

/-- `value.encode()`. -/
def encode (value : String) : PyBytes := value.toUTF8.data.toList

/-- `signer_operation_id`. -/
def signerOperationID [SignerLibraries] (request : SignerRequest) : Except LabError String := do
  let canonical ← dumps request
  return "signop_" ++ sha256 canonical

/-- A file, and whether its bytes were written to the disk. -/
structure SpoolFile where
  data : PyBytes
  fsynced : Bool

/-- The files by their paths. -/
abbrev SpoolFiles := AList fun _ : String => SpoolFile

structure PrivateSpool where
  /-- What the processes see. -/
  files : SpoolFiles
  /-- What is certain to be found after a crash of the system, if nothing was changed since. -/
  synced : SpoolFiles

namespace PrivateSpool

section

variable [SignerLibraries]

/-- The directory of an operation. -/
def directory (operationID : String) : String :=
  let operationDigest := sha256 (encode operationID)
  "signed/" ++ String.ofList (operationDigest.toList.take 2)

/-- `relative_path`. -/
def relativePath (operationID : String) : String := directory operationID ++ "/" ++ operationID ++ ".bin"

/-- The name that `mkstemp` gives, with what is random of it. -/
def temporaryPath (operationID token : String) : String :=
  directory operationID ++ "/." ++ operationID ++ "." ++ token ++ ".tmp"

end

variable (spool : PrivateSpool)

/-- `tempfile.mkstemp`, which makes a file that does not exist. -/
def mkstemp (path : String) : Except LabError PrivateSpool := do
  revertIf (path ∈ spool.files) .osError
  return { spool with files := spool.files.insert path ⟨[], false⟩ }

/-- `handle.write`. -/
def write (path : String) (data : PyBytes) : Except LabError PrivateSpool := do
  let file ← orRevert .osError (spool.files.lookup path)
  return { spool with files := spool.files.insert path ⟨file.data ++ data, false⟩ }

/-- `os.fsync` of a file. -/
def fsync (path : String) : Except LabError PrivateSpool := do
  let file ← orRevert .osError (spool.files.lookup path)
  return { spool with files := spool.files.insert path { file with fsynced := true } }

/-- `os.replace`. -/
def replace (path destination : String) : Except LabError PrivateSpool := do
  let file ← orRevert .osError (spool.files.lookup path)
  return { spool with files := (spool.files.erase path).insert destination file }

/-- `os.unlink`, of a file that may exist. -/
def unlink (path : String) : PrivateSpool := { spool with files := spool.files.erase path }

/-- `os.fsync` of the directory of a file, for this file. -/
def syncDirectory (path : String) : PrivateSpool :=
  match spool.files.lookup path with
  | some file => { spool with synced := spool.synced.insert path file }
  | none => { spool with synced := spool.synced.erase path }

/-- `load`. -/
def load [SignerLibraries] (reference : SpoolReference) : Except LabError PyBytes := do
  let file ← orRevert .osError (spool.files.lookup reference.relativePath)
  revertIf ((file.data.length : Int) ≠ reference.signedLength ∨ sha256 file.data ≠ reference.signedSHA256)
    (.signerError "private spool integrity mismatch")
  return file.data

end PrivateSpool

end Xir.Impl.XirLab
