import Xir.Framework.Updates
import Xir.Impl.GoRuntime.Deploy
import Xir.Proof.Agreement
import Xir.Proof.Line

/-!
# What a deployment sets up

No call of a deployment reverts: an adapter of a route is `Deployment.adapterOf`
(`routeAdapter_eq`), and the registry of a chain has the root of the first
chain and the profiles of the routes' hops up to the chain (`routeRegistry_eq`,
`enabled_registryOf`). So the adapters of a route and the registries of a
deployment for it are a line at its start (`line_deployed`).
-/

namespace Xir.Impl.GoXir

open Proof
open XIREncoding (ascii)

/-! ## Profile hashes and gateway ids -/

/-- What stands before the first colon of a string, and what stands after it. -/
theorem append_colon_inj : ∀ {a a' b b' : Bytes}, 58 ∉ a → 58 ∉ a' → a ++ 58 :: b = a' ++ 58 :: b' → a = a' ∧ b = b'
  | [], [], _, _, _, _, h => ⟨rfl, (List.cons.inj h).2⟩
  | [], x :: a', _, _, _, h', h => absurd (List.cons.inj h).1 (List.ne_of_not_mem_cons h')
  | x :: a, [], _, _, h', _, h => absurd (List.cons.inj h).1.symm (List.ne_of_not_mem_cons h')
  | x :: a, y :: a', b, b', ha, ha', h => by
    obtain ⟨rfl, hs⟩ := List.cons.inj h
    obtain ⟨rfl, rfl⟩ := append_colon_inj (List.not_mem_of_not_mem_cons ha) (List.not_mem_of_not_mem_cons ha') hs
    exact ⟨rfl, rfl⟩

theorem decimal_inj {m n : Nat} (h : decimal m = decimal n) : m = n := by
  have hc : Function.Injective Char.toNat := fun a b h => Char.toNat_inj.mp h
  have := List.map_injective_iff.mpr hc h
  rw [← Nat.ofDigitChars_ten_toDigits (n := m), this, Nat.ofDigitChars_ten_toDigits]

theorem colon_notMem_decimal (n : Nat) : 58 ∉ decimal n := by
  intro h
  obtain ⟨c, hc, h58⟩ := List.mem_map.mp h
  have hd := Nat.isDigit_of_mem_toDigits (by decide) (by decide) hc
  obtain rfl : c = ':' := Char.toNat_inj.mp h58
  exact absurd hd (by decide)

theorem routeBytes_inj : Function.Injective routeBytes := by
  refine List.map_injective_iff.mpr fun p q h => ?_
  cases p <;> cases q <;> first | rfl | exact absurd h (by decide)

theorem colon_notMem_routeBytes (route : Route) : 58 ∉ routeBytes route := by
  intro h
  obtain ⟨p, -, h58⟩ := List.mem_map.mp h
  cases p <;> exact absurd h58 (by decide)

variable [Keccak]

theorem profileHash_eq_ok {route : Route} {i : Nat} {p : Bytes32} (h : profileHash route i = .ok p) :
    1 ≤ i ∧ i ≤ route.length ∧ p = keccak256 (tagMultihopProf ++ ascii ":" ++ routeBytes route ++ ascii ":" ++
      decimal i ++ ascii ":" ++ routeBytes ((route.drop (i - 1)).take 1)) := by
  unfold profileHash at h
  split at h
  · exact nomatch h
  · next hi => exact ⟨by omega, by omega, (Except.ok.inj h).symm⟩

theorem profileHash_of_le {route : Route} {i : Nat} (h₁ : 1 ≤ i) (h₂ : i ≤ route.length) :
    ∃ p, profileHash route i = .ok p := by
  unfold profileHash
  rw [if_neg (by omega)]
  exact ⟨_, rfl⟩

/-- A profile hash determines the route and the hop. -/
theorem profileHash_inj (hk : Function.Injective keccak256) {route route' : Route} {i i' : Nat} {p : Bytes32}
    (h : profileHash route i = .ok p) (h' : profileHash route' i' = .ok p) : route = route' ∧ i = i' := by
  obtain ⟨-, -, rfl⟩ := profileHash_eq_ok h
  obtain ⟨-, -, he⟩ := profileHash_eq_ok h'
  have he := hk he
  simp only [List.append_assoc, List.append_cancel_left_eq, show ascii ":" = [58] from rfl, List.singleton_append] at he
  obtain ⟨hr, he⟩ := append_colon_inj (colon_notMem_routeBytes _) (colon_notMem_routeBytes _) (List.cons.inj he).2
  obtain ⟨hd, -⟩ := append_colon_inj (colon_notMem_decimal _) (colon_notMem_decimal _) he
  exact ⟨routeBytes_inj hr, decimal_inj hd⟩

/-- The value of a gateway's id. -/
def gatewayValue (chainID : UInt64) : Bytes :=
  (keccak256 (tagGatewayID ++ ascii ":" ++ decimal chainID.toNat)).val.drop 12

theorem gatewayValue_valid (chainID : UInt64) : TypedId.Valid ⟨EVM, gatewayValue chainID⟩ :=
  .inl ⟨rfl, by simp [gatewayValue]⟩

theorem gatewayTypedID_eq (chainID : UInt64) : gatewayTypedID chainID = .ok ⟨EVM, gatewayValue chainID⟩ := by
  have hv : TypedId.Valid ⟨KindEVM, gatewayValue chainID⟩ := gatewayValue_valid chainID
  rw [gatewayTypedID, newEVMID]
  exact congrArg (· >>= _) (typedIDBytes_of_valid hv)

end Xir.Impl.GoXir

namespace Xir.Impl.Adapter

open Proof

/-- The adapter with other approvals of prior verifiers. -/
def withApproved (a : Adapter) (approved : Bytes32 → Address) : Adapter :=
  a.withCarrier { a.carrier with approvedPriorVerifiers := approved }

/-- The adapter with another peer. -/
def withRemote : Adapter → Bytes32 → Adapter
  | hyperlane a, remote => .hyperlane { a with remoteAdapter := remote }
  | layerZero a, remote => .layerZero { a with remotePeer := remote }

variable [Keccak]

theorem administer_setPriorVerifier {a : Adapter} {sender verifier : Address} {p : Bytes32}
    (hs : sender = a.carrier.administrator) (hp : p ≠ 0) : a.administer sender (.setPriorVerifier p verifier) =
      .ok (a.withApproved (Function.update a.carrier.approvedPriorVerifiers p verifier)) := by
  cases a <;>
  · simp [administer, HyperlaneAdapter.setPriorVerifier, LayerZeroAdapter.setPriorVerifier,
      CarrierAdapter.setPriorVerifier, OutboundControl.onlyAdministrator, revertIf, carrier] at hs ⊢
    simp [hs, hp, bind, Except.bind, withApproved, withCarrier, carrier]

theorem administer_setRemote {a : Adapter} {sender : Address} {remote : Bytes32}
    (hs : sender = a.carrier.administrator) (hr : remote ≠ 0) :
    a.administer sender (.setRemote remote) = .ok (a.withRemote remote) := by
  cases a <;>
  · simp [administer, HyperlaneAdapter.setRemoteAdapter, LayerZeroAdapter.setRemotePeer,
      OutboundControl.onlyAdministrator, revertIf, carrier] at hs ⊢
    simp [hs, hr, bind, Except.bind, withRemote]

theorem administer_setEnforcedOptions {c : CarrierAdapter} {sender endpoint : Address} {remoteEid : UInt32}
    {remotePeer hash : Bytes32} {options : Bytes} (hs : sender = c.administrator) :
    (layerZero ⟨c, endpoint, remoteEid, remotePeer, hash⟩).administer sender (.setEnforcedOptions options) =
      .ok (.layerZero ⟨c, endpoint, remoteEid, remotePeer, keccak256 options⟩) := by
  simp [administer, LayerZeroAdapter.setEnforcedOptions, OutboundControl.onlyAdministrator, revertIf, hs, bind,
    Except.bind, pure, Except.pure]

end Xir.Impl.Adapter

namespace Xir.Impl.Deployment

open Proof GoXir

variable [Keccak] (D : Deployment)

/-! ## Adapters -/

/-- The state of a new adapter. -/
def newCarrier : CarrierAdapter where
  administrator := D.deployer
  pendingAdministrator := 0
  runner := D.runner
  outboundPaused := false
  draining := false
  acceptedEvidence _ := false
  acceptedBundles _ := false
  approvedPriorVerifiers _ := 0
  baselineReceivers _ := 0

/-- The prior verifiers that an adapter approves: on the way out, the adapter that stands on its
chain at the end of the hop before, for the profiles of all hops before. -/
def approvals (route : Route) (hopIndex : Nat) (direction : Direction) : Bytes32 → Address :=
  updates (fun _ => 0) (if direction = .outbound ∧ hopIndex > 1 then (List.range' 1 (hopIndex - 1)).map fun priorHop =>
    (profileHashes route priorHop, D.manifest route (hopIndex - 1) .inbound) else [])

/-- The options that every LayerZero adapter enforces. -/
def enforcedOptions : Bytes := (receiveOptions receiveOptionsGasLimit).toOption.getD []

/-- An adapter of a route, created and configured. -/
def adapterOf (route : Route) (hopIndex : Nat) (direction : Direction) : Adapter :=
  let remote := bytes32Address (D.manifest route hopIndex direction.other)
  let a : Adapter :=
    if route.getD (hopIndex - 1) .H = .H then
      .hyperlane ⟨D.newCarrier, (D.stack (direction.role hopIndex)).mailbox,
        (D.specs (direction.other.role hopIndex)).hyperlaneDomain, remote⟩
    else
      .layerZero ⟨D.newCarrier, (D.stack (direction.role hopIndex)).endpointV2,
        (D.specs (direction.other.role hopIndex)).layerZeroEID, remote, keccak256 enforcedOptions⟩
  a.withApproved (D.approvals route hopIndex direction)

variable {D}

theorem setPriorVerifiers_loop {verifier : Address} {route : Route} : ∀ (l : List Nat) (a : Adapter),
    D.deployer = a.carrier.administrator → (∀ i ∈ l, profileHashes route i ≠ 0) →
    l.foldlM (fun a priorHop => a.administer D.deployer (.setPriorVerifier (profileHashes route priorHop) verifier)) a =
      .ok (a.withApproved (updates a.carrier.approvedPriorVerifiers (l.map fun i => (profileHashes route i, verifier))))
  | [], a, _, _ => by cases a <;> rfl
  | i :: l, a, ha, hp => by
    rw [List.foldlM_cons, Adapter.administer_setPriorVerifier ha (hp i List.mem_cons_self), ok_bind,
      setPriorVerifiers_loop l _ (by cases a <;> exact ha) fun j hj => hp j (List.mem_cons_of_mem _ hj)]
    cases a <;> rfl

theorem profileHashes_ne (hk : IdealHash) {route : Route} {i : Nat} (h₁ : 1 ≤ i) (h₂ : i ≤ route.length) :
    profileHashes route i ≠ 0 := by
  obtain ⟨p, hp⟩ := profileHash_of_le h₁ h₂
  obtain ⟨-, -, rfl⟩ := profileHash_eq_ok hp
  rw [profileHashes, hp]
  exact hk.ne_zero _

omit [Keccak] in
theorem bytes32Address_ne {address : Address} (h : address ≠ 0) : bytes32Address address ≠ 0 := by
  intro hz
  have hv : List.replicate 12 0 ++ address.val = List.replicate 12 0 ++ (0 : Address).val := congrArg BytesN.val hz
  exact h (BytesN.ext (List.append_cancel_left hv))

omit [Keccak] in
theorem deployRouteAdapter_eq (route : Route) (hopIndex : Nat) (direction : Direction) :
    D.deployRouteAdapter route hopIndex direction = .ok (
      if route.getD (hopIndex - 1) .H = .H then
        .hyperlane ⟨D.newCarrier, (D.stack (direction.role hopIndex)).mailbox,
          (D.specs (direction.other.role hopIndex)).hyperlaneDomain, bytes32Address D.deployer⟩
      else
        .layerZero ⟨D.newCarrier, (D.stack (direction.role hopIndex)).endpointV2,
          (D.specs (direction.other.role hopIndex)).layerZeroEID, bytes32Address D.deployer, 0⟩) := by
  have hp := bytes32Address_ne D.deployer_ne
  unfold deployRouteAdapter
  split
  · simp [HyperlaneAdapter.new, CarrierAdapter.new, OutboundControl.new, revertIf, D.deployer_ne, D.runner_ne, hp,
      D.mailbox_ne, newCarrier, bind, Except.bind, pure, Except.pure]
  · simp [LayerZeroAdapter.new, CarrierAdapter.new, OutboundControl.new, revertIf, D.deployer_ne, D.runner_ne, hp,
      D.endpointV2_ne, newCarrier, bind, Except.bind, pure, Except.pure]

/-- A deployment creates the adapters of a route, and configures them. -/
theorem routeAdapter_eq (hk : IdealHash) {route : Route} {hopIndex : Nat} (h : hopIndex ≤ route.length)
    (direction : Direction) : D.routeAdapter route hopIndex direction = .ok (D.adapterOf route hopIndex direction) := by
  have hr := bytes32Address_ne (D.manifest_ne route hopIndex direction.other)
  have hprior : ∀ i ∈ List.range' 1 (hopIndex - 1), profileHashes route i ≠ 0 := fun i hi => by
    have := List.mem_range'_1.mp hi
    exact profileHashes_ne hk this.1 (by omega)
  have hfinish : ∀ a : Adapter, a.carrier = D.newCarrier →
      (if direction = .outbound ∧ hopIndex > 1 then
        D.setPriorVerifiers route hopIndex (D.manifest route (hopIndex - 1) .inbound) a else pure a) =
        .ok (a.withApproved (D.approvals route hopIndex direction)) := by
    intro a ha
    unfold approvals
    split
    · rw [setPriorVerifiers, setPriorVerifiers_loop _ _ (by rw [ha]; rfl) hprior, ha]
      rfl
    · rw [updates_nil]
      obtain ⟨c, m, r, x⟩ | ⟨c, e, r, p, o⟩ := a <;>
      · obtain rfl : c = D.newCarrier := ha
        rfl
  rw [routeAdapter, deployRouteAdapter_eq, ok_bind, configureRouteAdapter, adapterOf,
    Adapter.administer_setRemote (by split <;> rfl) hr, ok_bind]
  by_cases hH : route.getD (hopIndex - 1) .H = .H
  · simp only [if_pos hH, pure_bind]
    exact hfinish _ rfl
  · simp only [if_neg hH, Adapter.withRemote]
    rw [Adapter.administer_setEnforcedOptions (show D.deployer = D.newCarrier.administrator from rfl), ok_bind]
    exact hfinish _ rfl

/-! ## Registries -/

section

variable (D)

/-- The entry of a hop's profile in the registry of the chain `completed`. -/
def profileOf (route : Route) (completed receiptIndex : Nat) : ProfileSnapshot where
  srcHash := D.gatewayHashes (receiptIndex - 1)
  dstHash := D.gatewayHashes receiptIndex
  adapter := D.manifest route completed .inbound
  securityLevel := 1
  validAfter := 0
  validUntil := 0
  enabled := true

def routeEntries (route : Route) (role : Nat) : List (Bytes32 × ProfileSnapshot) :=
  (List.range' 1 role).map fun i => (profileHashes route i, D.profileOf route role i)

def entries (routes : List Route) (role : Nat) : List (Bytes32 × ProfileSnapshot) :=
  routes.flatMap fun route => if 1 ≤ role ∧ role ≤ route.length then D.routeEntries route role else []

/-- The registry of a chain, created and configured. -/
def registryOf (routes : List Route) (role : Nat) : XIRRegistry where
  owner := D.deployer
  roots := updates 0 (if role = 0 then [] else [(RegistryVersion, ⟨D.gatewayHashes 0, D.rootSigner, 0, 0, true⟩)])
  profiles := updates 0 (D.entries routes role)

end

omit [Keccak] in
theorem setRoot_eq {roots : UInt32 → RootSnapshot} {profiles : Bytes32 → ProfileSnapshot} {g : Bytes32} :
    D.setRoot g ⟨D.deployer, roots, profiles⟩ =
      .ok ⟨D.deployer, Function.update roots RegistryVersion ⟨g, D.rootSigner, 0, 0, true⟩, profiles⟩ := by
  simp [setRoot, XIRRegistry.setRoot, XIRRegistry.onlyOwner, XIRRegistry._checkWindow, revertIf, bind, Except.bind,
    pure, Except.pure]

omit [Keccak] in
theorem setProfile_eq {roots : UInt32 → RootSnapshot} {profiles : Bytes32 → ProfileSnapshot} {p s d : Bytes32}
    {a : Address} : D.setProfile p s d a ⟨D.deployer, roots, profiles⟩ =
      .ok ⟨D.deployer, roots, Function.update profiles p ⟨s, d, a, 1, 0, 0, true⟩⟩ := by
  simp [setProfile, XIRRegistry.setProfile, XIRRegistry.onlyOwner, XIRRegistry._checkWindow, revertIf,
    bind, Except.bind, pure, Except.pure]

theorem setRouteProfiles_eq {roots : UInt32 → RootSnapshot} {route : Route} {completed : Nat} :
    ∀ (profiles : Bytes32 → ProfileSnapshot), D.setRouteProfiles route completed ⟨D.deployer, roots, profiles⟩ =
      .ok ⟨D.deployer, roots, updates profiles (D.routeEntries route completed)⟩ := by
  unfold setRouteProfiles routeEntries
  generalize List.range' 1 completed = l
  induction l with
  | nil => exact fun profiles => rfl
  | cons i l ih =>
    intro profiles
    rw [List.foldlM_cons, setProfile_eq, ok_bind, ih]
    rfl

/-- A deployment creates the registries, and configures them. -/
theorem routeRegistry_eq (routes : List Route) (role : Nat) :
    D.routeRegistry routes role = .ok (D.registryOf routes role) := by
  have hroutes : ∀ (routes : List Route) (roots : UInt32 → RootSnapshot) (profiles : Bytes32 → ProfileSnapshot),
      routes.foldlM (fun registry route =>
        if 1 ≤ role ∧ role ≤ route.length then D.setRouteProfiles route role registry else pure registry)
          (⟨D.deployer, roots, profiles⟩ : XIRRegistry) =
        .ok ⟨D.deployer, roots, updates profiles (D.entries routes role)⟩ := by
    intro routes roots
    induction routes with
    | nil => exact fun profiles => rfl
    | cons route routes ih =>
      intro profiles
      rw [List.foldlM_cons, entries, List.flatMap_cons, updates_append]
      split
      · rw [setRouteProfiles_eq, ok_bind]
        exact ih _
      · exact ih _
  unfold routeRegistry registryOf
  by_cases h0 : role = 0
  · simp only [if_pos h0, pure_bind]
    exact hroutes routes _ _
  · simp only [if_neg h0, XIRRegistry.new, setRoot_eq, ok_bind]
    exact hroutes routes _ _

/-- The profile of a hop of a deployed route, in the registry of a chain that the route reaches by it. -/
theorem profileAt_registryOf (hk : Function.Injective keccak256) {routes : List Route} {route : Route} {role i : Nat}
    (hr : route ∈ routes) (h₁ : 1 ≤ i) (h₂ : i ≤ role) (h₃ : role ≤ route.length) :
    (D.registryOf routes role).profileAt (profileHashes route i) = D.profileOf route role i := by
  obtain ⟨p, hp⟩ := profileHash_of_le h₁ (h₂.trans h₃)
  have hpp : profileHashes route i = p := by rw [profileHashes, hp]; rfl
  refine (updates_apply (v := D.profileOf route role i) fun kv hkv hkey => ?_).trans (if_pos ?_)
  · -- an entry with this key is of this route and hop
    obtain ⟨route', -, hkv⟩ := List.mem_flatMap.mp hkv
    split at hkv
    · next hr' =>
      obtain ⟨i', hi', rfl⟩ := List.mem_map.mp hkv
      have hi' := List.mem_range'_1.mp hi'
      obtain ⟨p', hp'⟩ := profileHash_of_le hi'.1 (show i' ≤ route'.length by omega)
      have hpp' : profileHashes route' i' = p' := by rw [profileHashes, hp']; rfl
      obtain ⟨rfl, rfl⟩ := profileHash_inj hk (hpp' ▸ hp') (hkey ▸ hpp ▸ hp)
      rfl
    · exact nomatch hkv
  · refine List.mem_map.mpr ⟨(profileHashes route i, D.profileOf route role i), ?_, rfl⟩
    refine List.mem_flatMap.mpr ⟨route, hr, ?_⟩
    rw [if_pos ⟨h₁.trans h₂, h₃⟩]
    exact List.mem_map.mpr ⟨i, List.mem_range'_1.mpr (by omega), rfl⟩

/-- An enabled profile is that of a hop of a deployed route that reaches the chain by it. -/
theorem enabled_registryOf (hk : Function.Injective keccak256) {routes : List Route} {role : Nat} {p : Bytes32}
    (h : ((D.registryOf routes role).profileAt p).enabled = true) :
    ∃ route ∈ routes, ∃ i, 1 ≤ i ∧ i ≤ role ∧ role ≤ route.length ∧ p = profileHashes route i ∧
      (D.registryOf routes role).profileAt p = D.profileOf route role i := by
  by_cases hp : p ∈ (D.entries routes role).map Prod.fst
  · obtain ⟨kv, hkv, rfl⟩ := List.mem_map.mp hp
    obtain ⟨route, hr, hkv⟩ := List.mem_flatMap.mp hkv
    split at hkv
    · next hl =>
      obtain ⟨i, hi, rfl⟩ := List.mem_map.mp hkv
      have hi := List.mem_range'_1.mp hi
      exact ⟨route, hr, i, hi.1, by omega, hl.2, rfl, profileAt_registryOf hk hr hi.1 (by omega) hl.2⟩
    · exact nomatch hkv
  · have h0 : (D.registryOf routes role).profileAt p = 0 := by
      have hn : ∀ kv ∈ D.entries routes role, kv.1 = p → kv.2 = 0 := fun kv hkv hkey =>
        absurd (List.mem_map.mpr ⟨kv, hkv, hkey⟩) hp
      exact (updates_apply hn).trans (if_neg hp)
    rw [h0] at h
    exact nomatch h

theorem rootAt_registryOf (routes : List Route) {role : Nat} (h : role ≠ 0) :
    (D.registryOf routes role).rootAt RegistryVersion = ⟨D.gatewayHashes 0, D.rootSigner, 0, 0, true⟩ := by
  rw [registryOf, if_neg h, updates_cons, updates_nil]
  exact Function.update_self RegistryVersion _ (0 : UInt32 → RootSnapshot)

theorem gatewayHash_of_enabled {routes : List Route} {role : Nat} {v : UInt32}
    (h : ((D.registryOf routes role).rootAt v).enabled = true) :
    ((D.registryOf routes role).rootAt v).gatewayHash = D.gatewayHashes 0 := by
  by_cases h0 : role = 0
  · rw [registryOf, if_pos h0] at h
    exact nomatch h
  by_cases hv : v = RegistryVersion
  · rw [hv, rootAt_registryOf routes h0]
  · have hz : (D.registryOf routes role).rootAt v = 0 := by
      rw [registryOf, if_neg h0, updates_cons, updates_nil]
      exact Function.update_of_ne hv _ (0 : UInt32 → RootSnapshot)
    rw [hz] at h
    exact nomatch h

/-! ## The line -/

theorem gatewayIDs_eq (role : Nat) : D.gatewayIDs role = ⟨EVM, gatewayValue (D.specs role).chainID⟩ := by
  rw [gatewayIDs, gatewayTypedID_eq]
  rfl

theorem gatewayIDs_valid (role : Nat) : (D.gatewayIDs role).Valid := by
  rw [gatewayIDs_eq]
  exact gatewayValue_valid _

theorem gatewayHashes_eq (role : Nat) : D.gatewayHashes role = (D.gatewayIDs role).hash := by
  rw [gatewayHashes, typedIDHash_of_valid (gatewayIDs_valid role)]
  rfl

theorem approvals_outbound (route : Route) (hopIndex : Nat) (p : Bytes32) :
    D.approvals route hopIndex .outbound p = if p ∈ (List.range' 1 (hopIndex - 1)).map (profileHashes route) then
      D.manifest route (hopIndex - 1) .inbound else 0 := by
  have hl : ∀ l : List Nat, updates (fun _ => 0)
      (l.map fun i => (profileHashes route i, D.manifest route (hopIndex - 1) .inbound)) p =
        if p ∈ l.map (profileHashes route) then D.manifest route (hopIndex - 1) .inbound else 0 := by
    intro l
    refine (updates_apply fun kv hkv _ => ?_).trans (if_congr ?_ rfl rfl)
    · obtain ⟨i, -, rfl⟩ := List.mem_map.mp hkv
      rfl
    · rw [List.map_map]
      rfl
  rw [← hl, approvals]
  by_cases h : hopIndex > 1
  · rw [if_pos ⟨rfl, h⟩]
  · rw [if_neg (fun hc => h hc.2), show hopIndex - 1 = 0 by omega]
    rfl

section

variable (D)

/-- The address of an adapter of a route. -/
def address (route : Route) : Port → Address
  | .source i => D.manifest route (i + 1) .outbound
  | .target i => D.manifest route (i + 1) .inbound

/-- The adapters of a route, as deployed. -/
def start (route : Route) : LineState where
  adapter
    | .source i => D.adapterOf route (i + 1) .outbound
    | .target i => D.adapterOf route (i + 1) .inbound
  sent _ := []
  received _ := []

/-- The gateways of the chains of a route have different ids. -/
def DistinctGateways (route : Route) : Prop :=
  ∀ {i j : Nat}, i ≤ route.length → j ≤ route.length → D.gatewayIDs i = D.gatewayIDs j → i = j

/-- What is deployed for a route is a line. -/
def line (hk : Function.Injective keccak256) {route : Route} (hg : D.DistinctGateways route) : Line where
  length := route.length
  profile h := profileHashes route (h + 1)
  gatewayId := D.gatewayIDs
  address := D.address route
  registry := D.registryOf [route]
  profile_inj {h h'} hh hh' heq := by
    obtain ⟨p, hp⟩ := profileHash_of_le (Nat.le_add_left 1 h) hh
    obtain ⟨p', hp'⟩ := profileHash_of_le (Nat.le_add_left 1 h') hh'
    simp only [profileHashes, hp, hp'] at heq
    obtain rfl : p = p' := heq
    exact Nat.add_right_cancel (profileHash_inj hk hp hp').2
  gatewayId_valid := gatewayIDs_valid
  gatewayId_inj := hg
  root h := (gatewayHash_of_enabled h).trans (gatewayHashes_eq 0)
  registered {k p} h := by
    obtain ⟨_, hr, i, h₁, h₂, h₃, hp, he⟩ := enabled_registryOf hk h
    obtain rfl := List.mem_singleton.mp hr
    obtain ⟨i, rfl⟩ := Nat.exists_eq_add_of_le' h₁
    obtain ⟨k, rfl⟩ := Nat.exists_eq_add_of_le' (h₁.trans h₂)
    exact ⟨k, i, rfl, h₃, by omega, hp, he ▸ gatewayHashes_eq i, he ▸ gatewayHashes_eq (i + 1), he ▸ rfl⟩

end

theorem bundleKind_adapterOf (route : Route) (hopIndex : Nat) (direction : Direction) :
    (D.adapterOf route hopIndex direction).bundleKind =
      if route.getD (hopIndex - 1) .H = .H then HyperlaneAdapter.KIND_XIR_BUNDLE else LayerZeroAdapter.KIND_XIR := by
  unfold adapterOf
  split <;> rfl

theorem carrier_adapterOf (route : Route) (hopIndex : Nat) (direction : Direction) :
    (D.adapterOf route hopIndex direction).carrier =
      { D.newCarrier with approvedPriorVerifiers := D.approvals route hopIndex direction } := by
  unfold adapterOf
  split <;> rfl

theorem line_deployed (hk : Function.Injective keccak256) {route : Route} (hg : D.DistinctGateways route) :
    (D.line hk hg).Deployed (D.start route) where
  fresh x := by
    cases x <;> simp only [start, carrier_adapterOf] <;> exact ⟨by simp [newCarrier], by simp [newCarrier]⟩
  sent _ := rfl
  received _ := rfl
  paired x := by cases x <;> simp only [start, Port.peer, bundleKind_adapterOf]
  approved {i p} h := by
    simp only [start, carrier_adapterOf, approvals_outbound] at h ⊢
    split at h
    · next he =>
      obtain ⟨k, hk, rfl⟩ := List.mem_map.mp he
      have hk := List.mem_range'_1.mp hk
      obtain ⟨k, rfl⟩ := Nat.exists_eq_add_of_le' hk.1
      obtain ⟨j, rfl⟩ : ∃ j, i = j + 1 := ⟨i - 1, by omega⟩
      exact ⟨j, k, rfl, by omega, rfl, if_pos he⟩
    · exact absurd rfl h

/-! ## Sending a bundle -/

theorem takesOptions_adapterOf (hk : IdealHash) {route : Route} {hopIndex : Nat} {direction : Direction}
    {options : Bytes} (ho : route.getD (hopIndex - 1) .H ≠ .H → options = enforcedOptions) :
    (D.adapterOf route hopIndex direction).TakesOptions options := by
  unfold adapterOf
  split
  · trivial
  · next h =>
    obtain rfl := ho h
    exact ⟨hk.ne_zero _, rfl, bytes32Address_ne (D.manifest_ne _ _ _)⟩

theorem remote_adapterOf (route : Route) (hopIndex : Nat) (direction : Direction) :
    (D.adapterOf route hopIndex direction).remote = bytes32Address (D.manifest route hopIndex direction.other) := by
  unfold adapterOf
  split <;> rfl

theorem remote_adapterOf_ne (route : Route) (hopIndex : Nat) (direction : Direction) :
    (D.adapterOf route hopIndex direction).remote ≠ 0 := by
  rw [remote_adapterOf]
  exact bytes32Address_ne (D.manifest_ne _ _ _)

variable {route : Route} {s : LineState} {i : Nat} {priors : List Tuple}

/-- The priors are of earlier hops, and verified on the chain that sends them. -/
def Verified (s : LineState) (route : Route) (i : Nat) (priors : List Tuple) : Prop :=
  ∀ x ∈ priors, ∃ j h, i = j + 1 ∧ h ≤ j ∧ x.profileHash = profileHashes route (h + 1) ∧
    (s.adapter (.target j)).carrier.verify x.profileHash x.evidenceHash x.transitionHash = true

theorem verified_nil : Verified s route i [] := List.forall_mem_nil _

/-- An adapter of a deployed route sends the runner's bundle of verified priors. -/
theorem sendChecks (hk : IdealHash) (hg : Grows (D.start route) s) {carriers : Address → Carrier}
    (hs : s.Sees (D.address route) i carriers) {source : Bool} {options : Bytes}
    (ho : route.getD i .H ≠ .H → options = enforcedOptions) (hv : Verified s route i priors) (p t : Bytes32) :
    (s.adapter (.source i)).SendChecks carriers D.runner source (.of (D.manifest route i .inbound) priors p t)
      options := by
  have hc : SameConfig (D.adapterOf route (i + 1) .outbound) (s.adapter (.source i)) := hg.config (.source i)
  have hap : (s.adapter (.source i)).carrier.approvedPriorVerifiers = D.approvals route (i + 1) .outbound := by
    rw [hc.approved, carrier_adapterOf]
  have key : ∀ x ∈ priors, D.approvals route (i + 1) .outbound x.profileHash = D.manifest route i .inbound := by
    intro x hx
    obtain ⟨j, h, rfl, hh, hp, -⟩ := hv x hx
    rw [approvals_outbound, if_pos]
    · rfl
    · rw [hp]
      exact List.mem_map.mpr ⟨h + 1, List.mem_range'_1.mpr (by omega), rfl⟩
  refine ⟨?_, ⟨?_, ?_, ?_, ?_, ?_, ?_⟩, ?_⟩
  · rw [hc.control, carrier_adapterOf]
    exact ⟨rfl, rfl, fun _ => rfl⟩
  · simp [ForwardRequest.of]
  · simp [ForwardRequest.of]
  · simp [ForwardRequest.of]
  · rw [hap]
    refine (List.eq_replicate_iff.mpr ⟨by simp [ForwardRequest.of], fun b hb => ?_⟩).symm
    obtain ⟨_, hq, rfl⟩ := List.mem_map.mp hb
    obtain ⟨x, hx, rfl⟩ := List.mem_map.mp hq
    exact key x hx
  · intro q hq
    obtain ⟨x, hx, rfl⟩ := List.mem_map.mp hq
    rw [hap, key x hx]
    exact D.manifest_ne _ _ _
  · intro x hx
    rw [ForwardRequest.priors_of] at hx
    obtain ⟨j, h, rfl, -, -, hver⟩ := hv x hx
    have hcar : carriers (D.manifest route (j + 1) .inbound) = (s.adapter (.target j)).carrier.carrier := hs j rfl
    rw [hap, key x hx, hcar]
    exact congrArg some hver
  · rw [hc.options]
    exact takesOptions_adapterOf hk ho

/-- Such a bundle is sent and delivered, if the priors fit in a message. -/
theorem exists_hop (hk : IdealHash) (i : Nat) (priors : List Tuple) (hg : Grows (D.start route) s)
    (hv : Verified s route i priors) (hl : priors.length < 2 ^ 32) (p t : Bytes32) {guid : Bytes32} (hguid : guid ≠ 0) :
    ∃ (call : SendCall) (d : Delivery), call.priors = priors ∧ call.ownProfile = some p ∧ d.evidence ≠ 0 ∧
      d.tuples = some (priors ++ [⟨p, d.evidence, t⟩]) ∧
      Run (LineState.Step (D.address route)) s
        [.send (.source i) (s.view (D.address route) i) call, .receive (.target i) d]
        (s.hop i call d (priors ++ [⟨p, d.evidence, t⟩])) := by
  let request : ForwardRequest := .of (D.manifest route i .inbound) priors p t
  have ht : SameConfig (D.adapterOf route (i + 1) .inbound) (s.adapter (.target i)) := hg.config (.target i)
  have hs : SameConfig (D.adapterOf route (i + 1) .outbound) (s.adapter (.source i)) := hg.config (.source i)
  have hkind : (s.adapter (.target i)).bundleKind = (s.adapter (.source i)).bundleKind := by
    rw [ht.bundleKind, hs.bundleKind, bundleKind_adapterOf, bundleKind_adapterOf]
  obtain ⟨message, body, hm, hb⟩ := encodeBundle_of_length (k := (s.adapter (.source i)).bundleKind)
    (b := request.bundle) (by simp only [request, ForwardRequest.of, ForwardRequest.bundle, List.length_map]; omega)
  let d := (D.adapterOf route (i + 1) .inbound).deliveryOf guid body
  have hd : d.body = body := Adapter.body_deliveryOf _ _ _
  have hf : (s.adapter (.target i)).FromRemote d := by
    rw [ht.fromRemote]
    exact Adapter.fromRemote_deliveryOf (remote_adapterOf_ne _ _ _) guid body
  have hbody : Adapter.BundleBody (s.adapter (.source i)).bundleKind request.bundle d.body := by
    rw [hd]
    exact ⟨message, hm, hb⟩
  have hc : (s.adapter (.source i)).SendChecks (s.view (D.address route) i) D.runner true request enforcedOptions :=
    sendChecks hk hg (sees_view s i) (fun _ => rfl) hv p t
  have htuples : request.bundle.tuples d.evidence = priors ++ [⟨p, d.evidence, t⟩] := by
    rw [DeliveryBundle.tuples]
    exact congrArg (· ++ _) (zipTuples_map priors)
  have hrun := run_hop (sees_view s i) hc hbody hkind hf
  rw [htuples] at hrun
  refine ⟨Adapter.bundleCall true request enforcedOptions, d, ForwardRequest.priors_of _ priors p t, rfl,
    Adapter.evidence_deliveryOf_ne hk hguid _ body, ?_, hrun⟩
  rw [← htuples]
  exact Adapter.tuples_of_bundleBody hf hc.forward.aligned (hkind ▸ hbody)

/-! ## A deployment -/

/-- A deployment on chains with the ids 1, 2, and so on. -/
def lab : Deployment where
  specs role := ⟨UInt64.ofNat (role + 1), UInt32.ofNat (role + 1), UInt32.ofNat (role + 1)⟩
  stack _ := ⟨.single 1, .single 2⟩
  deployer := .single 3
  runner := .single 4
  rootSigner := .single 5
  manifest _ _
    | .outbound => .single 6
    | .inbound => .single 7
  mailbox_ne _ := by decide
  endpointV2_ne _ := by decide
  deployer_ne := by decide
  runner_ne := by decide
  manifest_ne _ _ direction := by cases direction <;> decide

omit [Keccak] in
/-- A guid of a delivery in the lab. -/
theorem labGuid_ne : (.single 2 : Bytes32) ≠ 0 := by decide

omit [Keccak] in
theorem lab_distinct (route : Route) (hl : route.length < 2 ^ 63) :
    @DistinctGateways idealKeccak lab route := by
  let _ := idealKeccak
  intro i j hi hj h
  rw [gatewayIDs_eq, gatewayIDs_eq] at h
  have hs := idealKeccak_drop (congrArg TypedId.value h)
  have hd := decimal_inj (List.append_cancel_left hs)
  simp only [lab] at hd
  have hsize : UInt64.size = 2 ^ 64 := rfl
  rw [UInt64.toNat_ofNat_of_lt' (by omega), UInt64.toNat_ofNat_of_lt' (by omega)] at hd
  omega

end Xir.Impl.Deployment
