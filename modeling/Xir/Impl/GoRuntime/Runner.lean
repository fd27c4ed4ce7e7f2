import Xir.Impl.GoRuntime.Deploy

/-!
# `go-runtime/internal/runner`, and the encoders it calls

What `walkHops` and the carriers build for a route, hop by hop: the request of a
hop, the call that its carrier submits, the evidence hash of the message sent,
and the receipt. The addresses and the chains' ids are those of the deployment,
and a role is its index in `roles`. The ledger, the fees and the transport of
transactions are left out.
-/

namespace Xir.Impl

/-- The error `err`, formatted with `%w` after a text. -/
def GoError.wrap (text : String) : GoError → GoError
  | errorf err => errorf (text ++ err)
  | panic err => panic err

/-- Go's `copy` into a slice, from an index on. -/
def copyAt (out : Bytes) (start : Nat) (value : Bytes) : Bytes :=
  out.take start ++ value.take (out.length - start) ++ out.drop (start + value.length)

structure Attempt where
  attemptID : String
  route : Route
  routeSequence : UInt64

/-- What a carrier needs to move a hop. -/
structure HopRequest where
  hopIndex : Nat
  protocol : Protocol
  sourceRole : Nat
  destinationRole : Nat
  verifiers : List Address
  priorReceipts : List Receipt
  currentProfile : Bytes32
  currentTransition : Bytes32

/-- The variables of a turn of the loop of `walkHops`. -/
structure HopState where
  request : HopRequest
  sourceGatewayID : TypedId
  destinationGatewayID : TypedId

/-- The variables `receipts` and `prefix` of `walkHops`. -/
structure WalkState where
  receipts : List Receipt
  tracePrefix : Bytes32

namespace GoRunner

open GoXir

def roles : List Char := ['a', 'b', 'c', 'd', 'e']

/-- The checks of `runAttempt`. -/
def checkAttempt (attempt : Attempt) : Except GoError Unit :=
  if attempt.route = [] ∨ attempt.routeSequence.toNat > 2 ^ 63 - 1 then
    .error (.errorf ("runner: attempt " ++ attempt.attemptID ++ " has an invalid route"))
  else if attempt.route.length + 1 > roles.length then
    .error (.errorf ("runner: route \"" ++ String.ofList (attempt.route.map Protocol.letter) ++
      "\" exceeds the five-chain topology"))
  else .ok ()

/-! ## Carriers -/

/-- `layerzero.ReceiveOptions`. -/
def receiveOptions (gasLimit : UInt64) : Except GoError Bytes :=
  if gasLimit = 0 then .error (.errorf "layerzero: executor gas limit is out of uint128 range")
  else .ok ([0x00, 0x03, 0x01, 0x00, 0x11, 0x01] ++ copyAt (List.replicate 16 0) 8 (be 8 gasLimit.toNat))

/-- The options that `newLayerZeroCarrier` sets. -/
def carrierOptions (optionsOverride : Bytes) : Except GoError Bytes :=
  if optionsOverride.length = 0 then (receiveOptions 1500000).mapError (.wrap "runner: layerzero options: ")
  else .ok optionsOverride

/-- The request that both carriers build in `Dispatch`. -/
def forwardRequest (request : HopRequest) : ForwardRequest where
  verifiers := request.verifiers
  profileHashes := request.priorReceipts.map Receipt.profileHash
  evidenceHashes := request.priorReceipts.map Receipt.evidenceHash
  transitionHashes := request.priorReceipts.map Receipt.transitionHash
  currentProfileHash := request.currentProfile
  currentTransitionHash := request.currentTransition

/-- The call that `Dispatch` submits. -/
def dispatchCall (options : Bytes) (request : HopRequest) : SendCall :=
  match request.protocol with
  | .H =>
    if request.hopIndex > 1 then .forwardBundle (forwardRequest request) [] else .sendBundle (forwardRequest request) []
  | .L =>
    if request.hopIndex > 1 then .forwardBundle (forwardRequest request) options
    else .sendBundle (forwardRequest request) options

/-- The body of a Hyperlane message, packed again. -/
def hyperlaneBody (request : HopRequest) : Bytes :=
  let inner := Abi.encode [.dynamic (Abi.encode [.static request.currentProfile, .static request.currentTransition,
    .dynamic (Abi.encodeWords (request.priorReceipts.map Receipt.profileHash)),
    .dynamic (Abi.encodeWords (request.priorReceipts.map Receipt.evidenceHash)),
    .dynamic (Abi.encodeWords (request.priorReceipts.map Receipt.transitionHash))])]
  Abi.encode [.static (Xir.word 3), .dynamic (Abi.encodeBytes inner)]

def bytes32FromAddress (address : Address) : Bytes32 :=
  ⟨copyAt (List.replicate 32 0) 12 address.val, by simp [copyAt]⟩

variable [Keccak]

/-- `hyperlane.EvidenceHash`. -/
def evidenceHash (domain : UInt32) (sender : Bytes32) (body : Bytes) : Bytes32 :=
  let bodyWords := (body.length + 31) / 32
  let encoded := List.replicate ((4 + bodyWords) * 32) 0
  let encoded := copyAt encoded 28 (be 4 domain.toNat)
  let encoded := copyAt encoded 32 sender.val
  let encoded := copyAt encoded 88 (be 8 96)
  let encoded := copyAt encoded 120 (be 8 body.length)
  let encoded := copyAt encoded 128 body
  keccak256 encoded

end GoRunner

namespace Deployment

open GoXir GoRunner

variable (D : Deployment)

/-- The approved verifiers of a hop: the inbound adapter of the hop before, once for each prior receipt. -/
def verifiers (route : Route) (hopIndex priorCount : Nat) : List Address :=
  if hopIndex = 1 ∨ priorCount = 0 then [] else List.replicate priorCount (D.manifest route (hopIndex - 1) .inbound)

variable [Keccak]

/-- The evidence hash that `Dispatch` returns; `guid` is what the adapter's event of a LayerZero hop says. -/
def evidenceFor (route : Route) (request : HopRequest) (guid : Bytes32) : Bytes32 :=
  match request.protocol with
  | .H => evidenceHash (D.specs request.sourceRole).hyperlaneDomain
      (bytes32FromAddress (D.manifest route request.hopIndex .outbound)) (hyperlaneBody request)
  | .L => guid

/-- A turn of the loop of `walkHops`, up to the dispatch. -/
def startHop (route : Route) (record : Record) (context : VerifiedContext) (receipts : List Receipt) (index : Nat) :
    Except GoError HopState := do
  let hopIndex := index + 1
  let profile ← profileHash route hopIndex
  let sourceGatewayID ← gatewayTypedID (D.specs index).chainID
  let destinationGatewayID ← gatewayTypedID (D.specs (index + 1)).chainID
  let transition ← transitionHash record context sourceGatewayID destinationGatewayID
  return {
    request := {
      hopIndex := hopIndex
      protocol := route.getD index .H
      sourceRole := index
      destinationRole := index + 1
      verifiers := D.verifiers route hopIndex receipts.length
      priorReceipts := receipts
      currentProfile := profile
      currentTransition := transition }
    sourceGatewayID := sourceGatewayID
    destinationGatewayID := destinationGatewayID }

/-- The turn from the dispatch on, whose evidence hash is given. -/
def finishHop (hop : HopState) (evidence : Bytes32) (w : WalkState) : Except GoError WalkState := do
  let receipt : Receipt :=
    { srcGateway := hop.sourceGatewayID
      dstGateway := hop.destinationGatewayID
      profileHash := hop.request.currentProfile
      evidenceHash := evidence
      transitionHash := hop.request.currentTransition
      priorPrefix := w.tracePrefix }
  let next ← nextPrefix w.tracePrefix receipt
  return ⟨w.receipts ++ [receipt], next⟩

end Deployment

end Xir.Impl
