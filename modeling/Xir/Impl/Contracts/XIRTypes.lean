import Xir.Framework.Abi
import Xir.Framework.Except

/-!
# `XIRTypes.sol`, and the errors the contracts revert with
-/

namespace Xir.Impl

def EVM : UInt8 := 1
def SOLANA : UInt8 := 2

structure TypedId where
  kind : UInt8
  value : Bytes
  deriving DecidableEq

structure Record where
  sourceGateway : TypedId
  sourceApp : TypedId
  destinationApp : TypedId
  nonce : UInt64
  payloadHash : Bytes32
  deriving DecidableEq

structure VerifiedContext where
  requiredSecurity : UInt8
  policyHash : Bytes32
  deriving DecidableEq

structure RootCertificate where
  registryVersion : UInt32
  signature : Bytes
  deriving DecidableEq

structure Receipt where
  srcGateway : TypedId
  dstGateway : TypedId
  profileHash : Bytes32
  evidenceHash : Bytes32
  transitionHash : Bytes32
  priorPrefix : Bytes32
  deriving DecidableEq

structure Envelope where
  record : Record
  context : VerifiedContext
  certificate : RootCertificate
  receipts : List Receipt
  deriving DecidableEq

/-- The errors of the modelled contracts, under their names in the source. `panic`
is an arithmetic or memory error of the language, `decoding` a failed
`abi.decode`, `callFailed` a call into another contract that reverted;
`duplicateMessageId` and `invalidRouteLabel` are the `DuplicateMessage` and the
`InvalidRoute` that have an argument. -/
inductive Revert
  | invalidIdentifier (kind : UInt8) (length : Nat)
  | rootMismatch
  | rootInactive
  | invalidRootSignature
  | invalidTrace (index : Nat)
  | profileInactive (index : Nat)
  | policyRefused (index : Nat)
  | evidenceRejected (index : Nat)
  | bundleRejected
  | wrongDestination
  | payloadMismatch
  | alreadyConsumed (mid : Bytes32)
  | receiverCallFailed
  | receiverMismatch
  | unauthorized
  | invalidWindow
  | onlyAdministrator
  | onlyPendingAdministrator
  | onlyRunner
  | outboundPaused
  | sourceDraining
  | invalidControlAddress
  | onlyMailbox
  | onlyRemote
  | onlyEndpoint
  | onlyPeer
  | invalidEvidence
  | invalidPeer
  | unsupportedOptions
  | optionsNotConfigured
  | optionsMismatch
  | unknownMessageKind
  | unknownBaselineRoute
  | invalidBundle
  | unapprovedPriorVerifier (index : Nat)
  | unverifiedPriorEvidence (index : Nat)
  | onlyFirstInboundCarrier
  | onlySecondInboundCarrier
  | carrierSequenceMismatch
  | unauthorizedCaller
  | wrongReceiverMode
  | duplicateMessage
  | invalidAuthority
  | invalidRoute
  | duplicateAttempt (attemptId : Bytes32)
  | duplicateMessageId (messageId : Bytes32)
  | wrongInboundReceiptCount
  | transitionAlreadyRecorded (key : Bytes32)
  | notCarrierSwitch
  | invalidOutboundProfile
  | invalidAttempt
  | emptyApplicationPayload
  | invalidRouteLabel (route : BytesN 2)
  | invalidRecord
  | invalidReceipt (index : Nat)
  | panic (code : Nat)
  | decoding
  | callFailed
  deriving DecidableEq

end Xir.Impl
