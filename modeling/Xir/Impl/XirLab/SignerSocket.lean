import Xir.Framework.Hex
import Xir.Impl.XirLab.Signer

/-!
# `validate_signer_request` of `src/xir_lab/execute/signer_socket.py`

The check of a request against `schemas/signer-request-v1.schema.json`, and of
what its digests say. The fields of a request have the types of the schema, so
that only its patterns and bounds are checked. A `$` of a pattern also matches
before a line break at the end.
-/

namespace Xir.Impl.XirLab

/-- `unsigned_transaction_document`, of a transaction of type 2 to a destination. -/
structure UnsignedTransaction where
  chainID : Int
  nonce : Int
  destination : Option String
  value : Int
  data : String
  gas : Int
  maxFeePerGas : Int
  maxPriorityFeePerGas : Int
  deriving DecidableEq

/-- The bytes of the documents, as `rfc8785.dumps` computes them. -/
class SocketLibraries extends SignerLibraries where
  dumpsUnsigned : UnsignedTransaction → Except LabError PyBytes
  /-- Of `signer_request_document`. -/
  dumpsDocument : String → SignerRequest → Except LabError PyBytes

/-- What `rfc8785.dumps` takes of an integer. -/
def InDomain (n : Int) : Prop := - 2 ^ 53 < n ∧ n < 2 ^ 53

instance (n : Int) : Decidable (InDomain n) := inferInstanceAs (Decidable (_ ∧ _))

/-- The integers of a transaction. -/
def UnsignedTransaction.integers (t : UnsignedTransaction) : List Int :=
  [t.chainID, t.nonce, t.value, t.gas, t.maxFeePerGas, t.maxPriorityFeePerGas]

/-- The integers of a request. -/
def SignerRequest.integers (r : SignerRequest) : List Int :=
  [r.chainID, r.nonce, r.valueWei, r.calldataLength, r.feeLimitWei, r.gasLimit, r.maxFeePerGasWei,
    r.maxPriorityFeePerGasWei]

/-! ## Patterns -/

/-- A text without the line break that it may end with. -/
def chomp (text : List Char) : List Char := if text.getLast? = some '\n' then text.dropLast else text

def lowerHexDigit (c : Char) : Bool := decide (c ∈ "0123456789abcdef".toList)

def lowercase (c : Char) : Bool := decide ('a' ≤ c ∧ c ≤ 'z')

def digit (c : Char) : Bool := decide ('0' ≤ c ∧ c ≤ '9')

def hexDigit (c : Char) : Bool := (Hex.value c).isSome

/-- `^[0-9a-f]{64}$`. -/
def digestPattern (text : String) : Bool :=
  (chomp text.toList).length = 64 && (chomp text.toList).all lowerHexDigit

/-- `^signop_[0-9a-f]{64}$`. -/
def operationIDPattern (text : String) : Bool :=
  (chomp text.toList).take 7 = "signop_".toList && ((chomp text.toList).drop 7).length = 64 &&
    ((chomp text.toList).drop 7).all lowerHexDigit

/-- `^[a-z][a-z0-9-]{0,95}$`. -/
def signerIDPattern (text : String) : Bool :=
  match chomp text.toList with
  | [] => false
  | c :: cs => lowercase c && cs.length ≤ 95 && cs.all fun c => lowercase c || digit c || c = '-'

/-- `^0x[0-9a-fA-F]{40}$`. -/
def addressPattern (text : String) : Bool :=
  (chomp text.toList).take 2 = "0x".toList && ((chomp text.toList).drop 2).length = 40 &&
    ((chomp text.toList).drop 2).all hexDigit

/-- `^(?:[0-9a-fA-F]{2})*$`. -/
def calldataPattern (text : String) : Bool :=
  (chomp text.toList).length % 2 = 0 && (chomp text.toList).all hexDigit

/-! ## Requests -/

/-- `_CHAIN_NETWORKS`. -/
def chainNetwork (chainID : Int) : Option String :=
  if chainID = 11155420 then some "op-sepolia"
  else if chainID = 421614 then some "arbitrum-sepolia"
  else if chainID = 84532 then some "base-sepolia"
  else none

/-- The properties of the schema, in the order of their names, with what they ask. -/
def requestProperties (operationID : String) (r : SignerRequest) : List (String × Bool) :=
  [("calldata_hex", calldataPattern r.calldataHex),
    ("calldata_length", decide (0 ≤ r.calldataLength)),
    ("calldata_sha256", digestPattern r.calldataSHA256),
    ("chain_id", decide (r.chainID ∈ [11155420, 421614, 84532])),
    ("code_sha256", digestPattern r.codeSHA256),
    ("config_sha256", digestPattern r.configSHA256),
    ("destination", r.destination.all addressPattern),
    ("fee_limit_wei", decide (0 ≤ r.feeLimitWei)),
    ("gas_limit", decide (21000 ≤ r.gasLimit)),
    ("intent_id", decide (1 ≤ r.intentID.length ∧ r.intentID.length ≤ 128)),
    ("max_fee_per_gas_wei", decide (0 ≤ r.maxFeePerGasWei)),
    ("max_priority_fee_per_gas_wei", decide (0 ≤ r.maxPriorityFeePerGasWei)),
    ("network_id", decide (r.networkID ∈ ["op-sepolia", "arbitrum-sepolia", "base-sepolia"])),
    ("nonce", decide (0 ≤ r.nonce)),
    ("operation_id", operationIDPattern operationID),
    ("role", decide (r.role ∈ ["deployer", "runner"])),
    ("signer_id", signerIDPattern r.signerID),
    ("unsigned_transaction_sha256", digestPattern r.unsignedTransactionSHA256),
    ("value_wei", decide (0 ≤ r.valueWei))]

/-- `_validate_schema`, of properties in the order of their names. -/
def validateSchema (properties : List (String × Bool)) : Except LabError Unit :=
  match properties.find? fun property => property.2 = false with
  | none => .ok ()
  | some property => .error (.signerError ("signer schema violation at " ++ property.1))

def unsignedTransactionDocument (r : SignerRequest) : UnsignedTransaction where
  chainID := r.chainID
  nonce := r.nonce
  destination := r.destination
  value := r.valueWei
  data := "0x" ++ r.calldataHex
  gas := r.gasLimit
  maxFeePerGas := r.maxFeePerGasWei
  maxPriorityFeePerGas := r.maxPriorityFeePerGasWei

variable [SocketLibraries]

/-- `hashlib.sha256(rfc8785.dumps(unsigned)).hexdigest()`. -/
def unsignedDigest (t : UnsignedTransaction) : Except LabError String := do
  return SignerLibraries.sha256 (← SocketLibraries.dumpsUnsigned t)

/-- `unsigned_transaction_digest`. -/
def unsignedTransactionDigest (r : SignerRequest) : Except LabError String :=
  unsignedDigest (unsignedTransactionDocument r)

/-- `validate_signer_request`. -/
def validateSignerRequest (operationID : String) (r : SignerRequest) : Except LabError String := do
  validateSchema (requestProperties operationID r)
  revertIf ((← signerOperationID r) ≠ operationID) (.signerError "signer operation ID does not bind the request")
  revertIf (chainNetwork r.chainID ≠ some r.networkID)
    (.signerError "signer request changed the fixed network identity")
  let calldata ←
    orRevert (.valueError "non-hexadecimal number found in fromhex() arg") (Hex.decode (chomp r.calldataHex.toList))
  revertIf ((calldata.length : Int) ≠ r.calldataLength ∨ SignerLibraries.sha256 calldata ≠ r.calldataSHA256)
    (.signerError "signer calldata digest or length mismatch")
  revertIf ((← unsignedTransactionDigest r) ≠ r.unsignedTransactionSHA256)
    (.signerError "unsigned transaction digest mismatch")
  revertIf (r.maxFeePerGasWei < r.maxPriorityFeePerGasWei) (.signerError "priority fee exceeds maximum fee")
  revertIf (r.feeLimitWei < r.gasLimit * r.maxFeePerGasWei) (.signerError "unsigned transaction exceeds fee limit")
  return SignerLibraries.sha256 (← SocketLibraries.dumpsDocument operationID r)

end Xir.Impl.XirLab
