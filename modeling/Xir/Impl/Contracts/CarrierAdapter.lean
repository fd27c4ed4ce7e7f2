import Xir.Impl.Contracts.OutboundControl
import Xir.Impl.Contracts.XIRGateway

/-!
# What `HyperlaneAdapter.sol` and `LayerZeroAdapter.sol` share

The two adapters declare the same bundle, the same maps and the same checks of
a forward request, and accept a delivered bundle in the same way. Each is
defined once here; the modules of the adapters name what is theirs.
-/

namespace Xir.Impl

open XIREncoding

structure DeliveryBundle where
  profileHash : Bytes32
  transitionHash : Bytes32
  priorProfiles : List Bytes32
  priorEvidence : List Bytes32
  priorTransitions : List Bytes32
  deriving DecidableEq

structure ForwardRequest where
  verifiers : List Address
  profileHashes : List Bytes32
  evidenceHashes : List Bytes32
  transitionHashes : List Bytes32
  currentProfileHash : Bytes32
  currentTransitionHash : Bytes32
  deriving DecidableEq

/-- The bundle that a request asks to deliver. -/
def ForwardRequest.bundle (request : ForwardRequest) : DeliveryBundle where
  profileHash := request.currentProfileHash
  transitionHash := request.currentTransitionHash
  priorProfiles := request.profileHashes
  priorEvidence := request.evidenceHashes
  priorTransitions := request.transitionHashes

/-! ## Encoding -/

/-- `abi.encode`, which runs out of memory when the result does not fit. -/
def abiEncode (ps : List Abi.Part) : Except Revert Bytes := do
  revertIf (2 ^ 64 ≤ (Abi.encode ps).length) (.panic 0x41)
  return Abi.encode ps

/-- `abi.encode(bundle)`. -/
def encodeBundle (bundle : DeliveryBundle) : Except Revert Bytes :=
  abiEncode [.dynamic (Abi.encode [.static bundle.profileHash, .static bundle.transitionHash,
    .dynamic (Abi.encodeWords bundle.priorProfiles), .dynamic (Abi.encodeWords bundle.priorEvidence),
    .dynamic (Abi.encodeWords bundle.priorTransitions)])]

/-- `abi.encode(kind, message)`. -/
def encodeMessage (kind : UInt8) (message : Bytes) : Except Revert Bytes :=
  abiEncode [.static (word kind.toNat), .dynamic (Abi.encodeBytes message)]

/-- `abi.encode(routeId, message)`. -/
def encodeRoute (routeId : Bytes32) (message : Bytes) : Except Revert Bytes :=
  abiEncode [.static routeId, .dynamic (Abi.encodeBytes message)]

/-- `abi.decode(body, (uint8, bytes))`. -/
def decodeMessage (body : Bytes) : Option (UInt8 × Bytes) := do
  let kind ← Abi.wordAt body 0
  let message ← Abi.bytesAt body (← Abi.sizeAt body 32)
  if wordVal kind < 2 ^ 8 then some (UInt8.ofNat (wordVal kind), message) else none

/-- `abi.decode(message, (bytes32, bytes))`. -/
def decodeRoute (message : Bytes) : Option (Bytes32 × Bytes) := do
  let routeId ← Abi.wordAt message 0
  let payload ← Abi.bytesAt message (← Abi.sizeAt message 32)
  some (routeId, payload)

/-- `abi.decode(message, (DeliveryBundle))`. -/
def decodeBundle (message : Bytes) : Option DeliveryBundle := do
  let tuple := message.drop (← Abi.sizeAt message 0)
  let profileHash ← Abi.wordAt tuple 0
  let transitionHash ← Abi.wordAt tuple 32
  let priorProfiles ← Abi.wordsAt tuple (← Abi.sizeAt tuple 64)
  let priorEvidence ← Abi.wordsAt tuple (← Abi.sizeAt tuple 96)
  let priorTransitions ← Abi.wordsAt tuple (← Abi.sizeAt tuple 128)
  some ⟨profileHash, transitionHash, priorProfiles, priorEvidence, priorTransitions⟩

/-! ## State -/

structure CarrierAdapter extends OutboundControl where
  acceptedEvidence : Bytes32 → Bool
  acceptedBundles : Bytes32 → Bool
  approvedPriorVerifiers : Bytes32 → Address
  baselineReceivers : Bytes32 → Address

namespace CarrierAdapter

/-- The state the constructors set up. -/
def new (administrator runner : Address) : Except Revert CarrierAdapter := do
  let control ← OutboundControl.new administrator runner
  return { control with
    acceptedEvidence := fun _ => false
    acceptedBundles := fun _ => false
    approvedPriorVerifiers := fun _ => 0
    baselineReceivers := fun _ => 0 }

def setBaselineReceiver (a : CarrierAdapter) (sender : Address) (routeId : Bytes32) (receiver : Address) :
    Except Revert CarrierAdapter := do
  a.onlyAdministrator sender
  revertIf (routeId = 0 ∨ receiver = 0) .invalidPeer
  return { a with baselineReceivers := Function.update a.baselineReceivers routeId receiver }

/-- Binds a prior-hop profile to the inbound adapter authorized to
attest that profile. Setting `verifier` to zero revokes the binding. -/
def setPriorVerifier (a : CarrierAdapter) (sender : Address) (profileHash : Bytes32) (verifier : Address) :
    Except Revert CarrierAdapter := do
  a.onlyAdministrator sender
  revertIf (profileHash = 0) .invalidBundle
  return { a with approvedPriorVerifiers := Function.update a.approvedPriorVerifiers profileHash verifier }

/-! ## Requests -/

def _checkBundle (request : ForwardRequest) : Except Revert Unit :=
  revertIf (request.verifiers.length ≠ request.profileHashes.length ∨
    request.verifiers.length ≠ request.evidenceHashes.length ∨
    request.verifiers.length ≠ request.transitionHashes.length) .invalidBundle

/-- The loop of `_checkPriorVerifierBindings`. -/
def checkBindings (a : CarrierAdapter) : Nat → List Address → List Bytes32 → Except Revert Unit
  | i, verifier :: verifiers, profileHash :: profileHashes => do
    let approvedVerifier := a.approvedPriorVerifiers profileHash
    revertIf (approvedVerifier = 0 ∨ verifier ≠ approvedVerifier) (.unapprovedPriorVerifier i)
    a.checkBindings (i + 1) verifiers profileHashes
  | _, _ :: _, [] => .error (.panic 0x32)
  | _, [], _ => .ok ()

def _checkPriorVerifierBindings (a : CarrierAdapter) (request : ForwardRequest) : Except Revert Unit :=
  a.checkBindings 0 request.verifiers request.profileHashes

/-- The loop of `_forwardVerified`, over arrays of one length. -/
def checkEvidence (a : CarrierAdapter) (carriers : Address → Carrier) :
    Nat → List Bytes32 → List Bytes32 → List Bytes32 → Except Revert Unit
  | i, profileHash :: profileHashes, evidenceHash :: evidenceHashes, transitionHash :: transitionHashes => do
    let approvedVerifier := a.approvedPriorVerifiers profileHash
    let verified ← orRevert .callFailed
      ((carriers approvedVerifier).verify profileHash evidenceHash transitionHash)
    revertIf (verified = false) (.unverifiedPriorEvidence i)
    a.checkEvidence carriers (i + 1) profileHashes evidenceHashes transitionHashes
  | _, _, _, _ => .ok ()

/-! ## Deliveries -/

variable [Keccak]

/-- The key of a receipt tuple in `acceptedEvidence`. -/
def evidenceKey (profileHash evidenceHash transitionHash : Bytes32) : Bytes32 :=
  keccak256 (Abi.encode [.static profileHash, .static evidenceHash, .static transitionHash])

def acceptEvidence (a : CarrierAdapter) (profileHash evidenceHash transitionHash : Bytes32) : CarrierAdapter :=
  { a with acceptedEvidence :=
      Function.update a.acceptedEvidence (evidenceKey profileHash evidenceHash transitionHash) true }

def acceptCommitment (a : CarrierAdapter) (commitment : Bytes32) : CarrierAdapter :=
  { a with acceptedBundles := Function.update a.acceptedBundles commitment true }

/-- The loop over the priors of a bundle, over arrays of one length. -/
def carryPriors : CarrierAdapter → Bytes32 → Nat → List Bytes32 → List Bytes32 → List Bytes32 →
    CarrierAdapter × Bytes32
  | a, commitment, i, profile :: profiles, evidence :: evidences, transition :: transitions =>
    (a.acceptEvidence profile evidence transition).carryPriors (bundleStep commitment i profile evidence transition)
      (i + 1) profiles evidences transitions
  | a, commitment, _, _, _, _ => (a, commitment)

/-- The delivery of a bundle by the message `evidence`. -/
def acceptBundle (a : CarrierAdapter) (bundle : DeliveryBundle) (evidence : Bytes32) :
    Except Revert CarrierAdapter := do
  revertIf (bundle.priorProfiles.length ≠ bundle.priorEvidence.length ∨
    bundle.priorProfiles.length ≠ bundle.priorTransitions.length) .invalidBundle
  let commitment := bundleStart (bundle.priorProfiles.length + 1)
  let a := a.acceptEvidence bundle.profileHash evidence bundle.transitionHash
  let (a, commitment) :=
    a.carryPriors commitment 0 bundle.priorProfiles bundle.priorEvidence bundle.priorTransitions
  let commitment :=
    bundleStep commitment bundle.priorProfiles.length bundle.profileHash evidence bundle.transitionHash
  return a.acceptCommitment commitment

/-- The delivery of a baseline message, which the receiver of its route takes if
`baselineCarrierReceive` says so. -/
def receiveBaseline (a : CarrierAdapter) (baselineCarrierReceive : Address → Bytes32 → Bytes → Bool)
    (messageId : Bytes32) (message : Bytes) : Except Revert Unit := do
  let (routeId, payload) ← orRevert .decoding (decodeRoute message)
  let receiver := a.baselineReceivers routeId
  revertIf (receiver = 0) .unknownBaselineRoute
  revertIf (baselineCarrierReceive receiver messageId payload = false) .callFailed

def verify (a : CarrierAdapter) (profileHash evidenceHash transitionHash : Bytes32) : Bool :=
  a.acceptedEvidence (evidenceKey profileHash evidenceHash transitionHash)

def verifyBundle (a : CarrierAdapter) (bundleCommitment : Bytes32) : Bool := a.acceptedBundles bundleCommitment

/-- The views of the adapter, as another contract calls them. -/
def carrier (a : CarrierAdapter) : Carrier where
  verify p e t := some (a.verify p e t)
  verifyBundle c := some (a.verifyBundle c)

end CarrierAdapter

end Xir.Impl
