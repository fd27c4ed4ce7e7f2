import Mathlib.Algebra.BigOperators.Ring.Finset
import Mathlib.Algebra.Order.BigOperators.Group.List
import Mathlib.Data.List.Perm.Subperm
import Mathlib.Data.List.Perm.Basic
import Xir.Framework.Table
import Xir.Impl.XirLab.MultihopEffects
import Xir.Proof.Text

/-!
# The reconciliation of effects

The windows of a scan have each block once, so that the logs are the events of
the range (`scanned_perm`). A turn matches them with different attempts
(`reconcileEvents_spec`), of which there are as many as are planned once the
audit has compared the numbers, and the audit compares each effect with the row
of its attempt in the runner's database (`lineage_of_effect`).
-/

namespace Xir.Impl.XirLab.MultihopEffects

open Strings (toLower)

variable {node : EffectNode} {address role : String} {windows : List BlockWindow} {logs : List EffectEvent}

/-! ## Windows -/

/-- The events of a range are those up to a block and those after it. -/
theorem inRange_split {first mid stop : Int} (hf : first ≤ mid) (hs : mid ≤ stop) (events : List EffectEvent) :
    (events.filter (inRange first mid) ++ events.filter (inRange (mid + 1) stop)).Perm
    (events.filter (inRange first stop)) := by
  have hlow : (events.filter (inRange first stop)).filter (fun e => e.blockNumber ≤ mid) =
      events.filter (inRange first mid) := by
    rw [List.filter_filter]
    refine List.filter_congr fun e _ => Bool.eq_iff_iff.mpr ?_
    simp only [inRange, Bool.and_eq_true, decide_eq_true_eq]
    omega
  have hhigh : (events.filter (inRange first stop)).filter (fun e => !decide (e.blockNumber ≤ mid)) =
      events.filter (inRange (mid + 1) stop) := by
    rw [List.filter_filter]
    refine List.filter_congr fun e _ => Bool.eq_iff_iff.mpr ?_
    simp only [inRange, Bool.and_eq_true, decide_eq_true_eq, Bool.not_eq_true', decide_eq_false_iff_not]
    omega
  rw [← hlow, ← hhigh]
  exact List.filter_append_perm _ _

/-- The windows have every block of the range once, and no other. -/
theorem windowsFrom_spec {size stop : Int} (hs : 0 < size) {turns : Nat} {cursor : Int}
    (ht : stop - cursor + 1 ≤ turns) :
    (∀ block, (windowsFrom size stop turns cursor).countP (fun w => w.fromBlock ≤ block ∧ block ≤ w.toBlock) =
      if cursor ≤ block ∧ block ≤ stop then 1 else 0) ∧
    ∀ events : List EffectEvent, ((windowsFrom size stop turns cursor).flatMap fun w =>
      events.filter (inRange w.fromBlock w.toBlock)).Perm (events.filter (inRange cursor stop)) := by
  have hnone (cursor : Int) (h : stop < cursor) (events : List EffectEvent) :
      events.filter (inRange cursor stop) = [] := by
    refine List.filter_eq_nil_iff.mpr fun e _ => ?_
    simp only [inRange, Bool.and_eq_true, decide_eq_true_eq]
    omega
  induction turns generalizing cursor with
  | zero =>
    refine ⟨fun block => ?_, fun events => ?_⟩
    · rw [if_neg (by omega)]
      rfl
    · rw [hnone cursor (by omega)]
      exact .refl _
  | succ turns ih =>
    rw [windowsFrom]
    by_cases hc : cursor ≤ stop
    · have hrest : stop - (min (cursor + size - 1) stop + 1) + 1 ≤ turns := by omega
      obtain ⟨hcount, hperm⟩ := ih hrest
      simp only [if_pos hc]
      refine ⟨fun block => ?_, fun events => ?_⟩
      · rw [List.countP_cons, hcount]
        simp only [decide_eq_true_eq]
        split_ifs <;> omega
      · rw [List.flatMap_cons]
        have hlow : cursor ≤ min (cursor + size - 1) stop := by omega
        exact (List.Perm.append_left _ (hperm events)).trans (inRange_split hlow (Int.min_le_right _ _) events)
    · simp only [if_neg hc]
      refine ⟨fun block => ?_, fun events => ?_⟩
      · rw [if_neg (by omega)]
        rfl
      · rw [hnone cursor (by omega)]
        exact .refl _

theorem blockWindows_spec {start stop : Int} (h : blockWindows start stop EFFECT_LOG_BLOCK_WINDOW = .ok windows) :
    (∀ block, windows.countP (fun w => w.fromBlock ≤ block ∧ block ≤ w.toBlock) = if start < block ∧ block ≤ stop
      then 1 else 0) ∧
    ∀ events : List EffectEvent, (windows.flatMap fun w => events.filter (inRange w.fromBlock w.toBlock)).Perm
      (events.filter (inRange (start + 1) stop)) := by
  obtain ⟨hrange, h⟩ := revertIf_bind.mp h
  obtain ⟨-, h⟩ := revertIf_bind.mp h
  obtain rfl := Except.ok.inj h
  exact windowsFrom_spec (by decide) (by omega)

theorem flatten_perm_of_mapM {fetched : List (List EffectEvent)}
    (h : windows.mapM (fun w => node.getLogs address w.fromBlock w.toBlock) = .ok fetched) :
    fetched.flatten.Perm (windows.flatMap fun w => (node.effects address).filter (inRange w.fromBlock w.toBlock)) := by
  induction windows generalizing fetched with
  | nil =>
    obtain rfl := Except.ok.inj h
    exact .refl _
  | cons w windows ih =>
    obtain ⟨logs, hlogs, fetched', hfetched, rfl⟩ := mapM_cons_eq_ok.mp h
    exact (node.getLogs_perm _ _ _ _ hlogs).append (ih hfetched)

/-- The logs of a scan are the events of the range. -/
theorem scanned_perm {start stop : Int} (hw : blockWindows start stop EFFECT_LOG_BLOCK_WINDOW = .ok windows)
    (h : fetchEffectLogs node address windows = .ok logs) :
    logs.Perm ((node.effects address).filter (inRange (start + 1) stop)) := by
  obtain ⟨fetched, hfetched, h⟩ := bind_eq_ok.mp h
  obtain rfl := Except.ok.inj h
  exact (List.perm_insertionSort _ _).trans ((flatten_perm_of_mapM hfetched).trans ((blockWindows_spec hw).2 _))

/-! ## Lists -/

theorem allM_eq_true {α : Type} {f : α → Except NativeError Bool} {xs : List α} (h : xs.allM f = .ok true) :
    ∀ x ∈ xs, f x = .ok true := by
  induction xs with
  | nil => exact List.forall_mem_nil _
  | cons x xs ih =>
    obtain ⟨b, hb, h⟩ := bind_eq_ok.mp h
    cases b with
    | true => exact List.forall_mem_cons.mpr ⟨hb, ih h⟩
    | false => exact absurd (Except.ok.inj h) Bool.false_ne_true

theorem encodeToString_inj {b b' : GoBytes} (h : encodeToString b = encodeToString b') : b = b' :=
  Hex.encode_inj.mp (String.ofList_injective h)

/-! ## The plan -/

variable {attempts : List MultihopAttempt}

/-- The planned attempts that end at a role. -/
def plannedAt (attempts : List MultihopAttempt) (role : String) : List MultihopAttempt :=
  attempts.filter fun a => CHAIN_ROLES[a.route.length]? = some role

theorem expectedByRole_eq {expected : String → List MultihopAttempt} (h : expectedByRole attempts = .ok expected)
    (role : String) :
    expected role = (plannedAt attempts role).foldl (fun d a => Dict.put MultihopAttempt.attemptID a d) [] := by
  have hfold (expected₀ : String → List MultihopAttempt) (h : attempts.foldlM expectAttempt expected₀ = .ok expected) :
      expected role =
        (plannedAt attempts role).foldl (fun d a => Dict.put MultihopAttempt.attemptID a d) (expected₀ role) := by
    clear * - h
    induction attempts generalizing expected₀ with
    | nil =>
      obtain rfl := Except.ok.inj h
      rfl
    | cons a attempts ih =>
      obtain ⟨_, hstep, h⟩ := foldlM_cons_eq_ok.mp h
      obtain ⟨r, hr, hstep⟩ := bind_eq_ok.mp hstep
      obtain rfl := Except.ok.inj hstep
      have hr : CHAIN_ROLES[a.route.length]? = some r := orRevert_eq_ok.mp hr
      rw [ih _ h, plannedAt, plannedAt, List.filter_cons]
      by_cases hrole : r = role
      · subst hrole
        rw [if_pos (decide_eq_true hr), Function.update_self]
        rfl
      · rw [if_neg fun hn => hrole (Option.some.inj (hr.symm.trans (of_decide_eq_true hn))),
          Function.update_of_ne (Ne.symm hrole)]
  exact hfold _ h

/-- As many elements have one of some keys as there are at least. -/
theorem sum_filter_le {α κ : Type} [DecidableEq κ] {keys : List κ} (hn : keys.Nodup) (key : α → Option κ)
    (xs : List α) :
    (keys.map fun k => (xs.filter fun x => key x = some k).length).sum ≤ xs.length := by
  induction keys generalizing xs with
  | nil => exact Nat.zero_le _
  | cons k keys ih =>
    obtain ⟨hk, hn⟩ := List.nodup_cons.mp hn
    have hrest : (keys.map fun k' => ((xs.filter fun x => ¬ key x = some k).filter fun x => key x = some k').length) =
        keys.map fun k' => (xs.filter fun x => key x = some k').length := by
      refine List.map_congr_left fun k' hk' => ?_
      rw [List.filter_filter]
      refine congrArg List.length (List.filter_congr fun x _ => ?_)
      by_cases h : key x = some k'
      · have hne : ¬ key x = some k := fun he => hk (Option.some.inj (he.symm.trans h) ▸ hk')
        simp [h, h ▸ hne]
      · simp [h]
    have hih := ih hn (xs.filter fun x => ¬ key x = some k)
    rw [hrest] at hih
    have hparts := (List.filter_append_perm (fun x => decide (key x = some k)) xs).length_eq
    simp only [List.length_append, List.map_cons, List.sum_cons, decide_not] at hparts hih ⊢
    omega

/-- Where as many attempts are expected as are planned, they are the planned ones. -/
theorem expected_eq_planned {expected : String → List MultihopAttempt} (h : expectedByRole attempts = .ok expected)
    (hsum : (EFFECT_DESTINATION_ROLES.map fun role => (expected role).length).sum = attempts.length) :
    ∀ role ∈ EFFECT_DESTINATION_ROLES, expected role = plannedAt attempts role := by
  have hle : ∀ role ∈ EFFECT_DESTINATION_ROLES, (expected role).length ≤ (plannedAt attempts role).length := by
    intro role _
    rw [expectedByRole_eq h]
    simpa using Dict.length_foldl_put_le MultihopAttempt.attemptID (plannedAt attempts role) []
  have hroles : EFFECT_DESTINATION_ROLES.Nodup := by decide
  have htotal := sum_filter_le hroles (fun a : MultihopAttempt => CHAIN_ROLES[a.route.length]?) attempts
  intro role hrole
  have heq : (expected role).length = (plannedAt attempts role).length := by
    refine (hle role hrole).antisymm (not_lt.mp fun hlt => ?_)
    have := List.sum_lt_sum _ _ hle ⟨role, hrole, hlt⟩
    exact absurd (hsum ▸ this) (not_lt.mpr htotal)
  rw [expectedByRole_eq h] at heq ⊢
  exact Dict.foldl_put_of_length (by simpa using heq)

/-! ## The tables -/

variable {runner : EffectRunner} {phase : String} {lineage : List EffectLineage}

theorem mem_lineageRows {row : LineageRow} : row ∈ runner.lineageRows phase ↔
    (row.attempt ∈ runner.attempts ∧ row.attempt.phase = phase ∧ row.attempt.status = "succeeded") ∧
    (row.stage ∈ runner.stages ∧ row.stage.attemptID = row.attempt.attemptID ∧
      row.stage.stage = "destination_verify_deliver" ∧ row.stage.state = "succeeded") ∧
    row.event ∈ runner.events ∧ row.event.attemptID = row.attempt.attemptID ∧
      row.event.stage = "destination_effect_observation" ∧ row.event.event = "observed" := by
  simp only [EffectRunner.lineageRows, List.mem_flatMap, List.mem_filter, List.mem_map, decide_eq_true_eq]
  constructor
  · intro h
    obtain ⟨a, ha, s, hs, e, he, rfl⟩ := h
    exact ⟨ha, hs, he⟩
  · intro h
    exact ⟨row.attempt, h.1, row.stage, h.2.1, row.event, h.2.2, rfl⟩

/-- The audit has compared each effect with the lineage of its attempt. -/
theorem lineage_of_effect {audit : EffectAudit} {evidenceNamespace : String} {bindings : EffectBindings}
    (hm : audit.matched phase evidenceNamespace bindings lineage = true) {effect : Effect}
    (he : effect ∈ audit.effects) :
    ∃ l ∈ lineage, effect.agrees l = true := by
  obtain ⟨-, -, -, -, -, -, hn, hsub, -, -, -, -, -, -, -, hagrees⟩ := of_decide_eq_true hm
  obtain ⟨l, hl, hid⟩ := List.mem_map.mp (hsub _ (List.mem_map_of_mem he))
  refine ⟨l, hl, ?_⟩
  have hany := hagrees l hl
  obtain ⟨e, hfind, hagree⟩ := Option.any_eq_true _ _ |>.mp hany
  have hmem : e ∈ audit.effects := List.mem_reverse.mp (List.mem_of_find?_eq_some hfind)
  have heid : e.attemptID = l.attemptID := by simpa using List.find?_some hfind
  rwa [List.inj_on_of_nodup_map hn he hmem (hid.symm.trans heid.symm)]

/-! ## The events of a receiver -/

section

variable [EffectLibraries]

variable {expected : List MultihopAttempt} {index : List (String × MultihopAttempt)}

theorem buildEffectHashIndex_eq (h : buildEffectHashIndex expected = .ok index) :
    index = expected.map fun a => (attemptDigest a.attemptID, a) := by
  have hfold (index₀ : List (String × MultihopAttempt)) (h : expected.foldlM indexAttempt index₀ = .ok index) :
      index = index₀ ++ expected.map fun a => (attemptDigest a.attemptID, a) := by
    clear * - h
    induction expected generalizing index₀ with
    | nil =>
      obtain rfl := Except.ok.inj h
      exact (List.append_nil _).symm
    | cons a expected ih =>
      obtain ⟨_, hstep, h⟩ := foldlM_cons_eq_ok.mp h
      obtain ⟨-, hstep⟩ := revertIf_bind.mp hstep
      obtain rfl := Except.ok.inj hstep
      rw [ih _ h, List.append_assoc]
      rfl
  exact hfold [] h

/-- An event, the attempt that its identifier is of, and the effect that is reported. -/
structure Recorded (role : String) (expected : List MultihopAttempt) (event : EffectEvent) (attempt : MultihopAttempt)
    (effect : Effect) : Prop where
  planned : attempt ∈ expected
  attemptID : event.attemptID = (Digests.keccak256 (encode attempt.attemptID)).toList
  route : decodeAscii event.route = .ok (String.ofList attempt.route)
  routeSequence : event.routeSequence = attempt.routeSequence
  effect_attemptID : effect.attemptID = attempt.attemptID
  effect_route : effect.route = String.ofList attempt.route
  effect_routeSequence : effect.routeSequence = attempt.routeSequence
  chainRole : effect.chainRole = role
  transactionHash : effect.transactionHash = hex0x event.transactionHash
  messageID : effect.messageID = hex0x event.messageID
  blockNumber : effect.blockNumber = event.blockNumber
  blockHash : effect.blockHash = hex0x event.blockHash

variable {chain : EffectChain} {row : BaselineRow} {effects effects' : List Effect} {event : EffectEvent}

/-- An event adds the effect of an attempt that has none. -/
theorem reconcileEvent_spec (hi : index = expected.map fun a => (attemptDigest a.attemptID, a))
    (h : reconcileEvent node role chain row index effects event = .ok effects') :
    ∃ attempt effect, effects' = effects ++ [effect] ∧ Recorded role expected event attempt effect ∧
      effect.attemptID ∉ effects.map Effect.attemptID := by
  unfold reconcileEvent at h
  split at h
  · exact absurd h nofun
  · rename_i digest attempt hfind
    obtain ⟨hnew, h⟩ := revertIf_bind.mp h
    obtain ⟨status, -, h⟩ := bind_eq_ok.mp h
    obtain ⟨route, hroute, h⟩ := bind_eq_ok.mp h
    obtain ⟨hplan, h⟩ := revertIf_bind.mp h
    obtain rfl := Except.ok.inj h
    have hplan : status = 1 ∧ route = String.ofList attempt.route ∧ event.routeSequence = attempt.routeSequence := by
      simpa only [not_or, not_not] using hplan
    have hmem := List.mem_of_find?_eq_some hfind
    have hdigest : digest = encodeToString event.attemptID := by simpa using List.find?_some hfind
    rw [hi] at hmem
    obtain ⟨a, ha, heq⟩ := List.mem_map.mp hmem
    obtain ⟨hd, rfl⟩ := Prod.mk.inj heq
    exact ⟨a, _, rfl,
      ⟨ha, (encodeToString_inj (hd.trans hdigest)).symm, hplan.2.1 ▸ hroute, hplan.2.2, rfl, rfl, rfl, rfl, rfl, rfl,
      rfl, rfl⟩, hnew⟩

/-- The events add the effects of different attempts, one each. -/
theorem reconcileEvents_spec (hi : index = expected.map fun a => (attemptDigest a.attemptID, a))
    (h : logs.foldlM (reconcileEvent node role chain row index) effects = .ok effects')
    (hn : (effects.map Effect.attemptID).Nodup) :
    (effects'.map Effect.attemptID).Nodup ∧
      ∃ found : List (MultihopAttempt × Effect), effects' = effects ++ found.map Prod.snd ∧
      List.Forall₂ (fun event p => Recorded role expected event p.1 p.2) logs found := by
  induction logs generalizing effects with
  | nil =>
    obtain rfl := Except.ok.inj h
    exact ⟨hn, [], (List.append_nil _).symm, .nil⟩
  | cons event logs ih =>
    obtain ⟨_, hstep, h⟩ := foldlM_cons_eq_ok.mp h
    obtain ⟨attempt, effect, rfl, hrecorded, hnew⟩ := reconcileEvent_spec hi hstep
    have hn' : ((effects ++ [effect]).map Effect.attemptID).Nodup := by
      rw [List.map_append]
      refine List.Nodup.append hn (List.nodup_singleton _) fun id hid hnewid => hnew ?_
      rwa [← List.mem_singleton.mp hnewid]
    obtain ⟨hnodup, found, rfl, hfound⟩ := ih h hn'
    exact ⟨hnodup, (attempt, effect) :: found, by rw [List.append_assoc]; rfl, .cons hrecorded hfound⟩

/-! ## The audit -/

/-- What a valid audit has. -/
theorem validateEffectAudit_ok {document : Semantic EffectAudit} {phase evidenceNamespace : String}
    {bindings : EffectBindings} {lineage : List EffectLineage}
    (h : validateEffectAudit document phase evidenceNamespace bindings lineage = .ok ()) :
    document.payload.matched phase evidenceNamespace bindings lineage = true ∧
      (∀ row ∈ document.payload.receiverChecks, row.counted document.payload.effects = true) ∧
      (document.payload.receiverChecks.map ReceiverCheck.expectedDelta).sum = lineage.length := by
  obtain ⟨_, -, h⟩ := bind_eq_ok.mp h
  obtain ⟨valid, hvalid, h⟩ := bind_eq_ok.mp h
  have h := revertIf_eq_ok.mp h
  obtain ⟨rfl, hsum⟩ := not_not.mp h
  by_cases hm : document.payload.matched phase evidenceNamespace bindings lineage = true
  · rw [if_pos hm] at hvalid
    refine ⟨hm, fun row hr => ?_, hsum⟩
    have hrow := allM_eq_true hvalid row hr
    unfold ReceiverCheck.holds at hrow
    by_contra hc
    rw [if_neg hc] at hrow
    exact Bool.false_ne_true (Except.ok.inj hrow)
  · rw [if_neg hm] at hvalid
    exact absurd (Except.ok.inj hvalid) Bool.false_ne_true

/-! ## Lineage -/

variable {traces : List EffectTraceRow}

theorem expectedEffectLineage_mem (h : expectedEffectLineage runner traces phase = .ok lineage) :
    ∀ l ∈ lineage, ∃ row ∈ runner.lineageRows phase, lineageOf traces row = .ok l := by
  have hfold (rows : List LineageRow) (hin : ∀ row ∈ rows, row ∈ runner.lineageRows phase) (found : List EffectLineage)
      (hf : ∀ l ∈ found, ∃ row ∈ runner.lineageRows phase, lineageOf traces row = .ok l)
      (h : rows.foldlM (addLineage traces) found = .ok lineage) :
        ∀ l ∈ lineage, ∃ row ∈ runner.lineageRows phase, lineageOf traces row = .ok l := by
    clear * - hin hf h
    induction rows generalizing found with
    | nil =>
      obtain rfl := Except.ok.inj h
      exact hf
    | cons row rows ih =>
      obtain ⟨hrow, hrows⟩ := List.forall_mem_cons.mp hin
      obtain ⟨_, hstep, h⟩ := foldlM_cons_eq_ok.mp h
      obtain ⟨l, hl, hstep⟩ := bind_eq_ok.mp hstep
      obtain rfl := Except.ok.inj hstep
      refine ih hrows _ (fun l' hl' => ?_) h
      obtain rfl | hl' := Dict.mem_of_mem_put hl'
      · exact ⟨row, hrow, hl⟩
      · exact hf l' hl'
  exact hfold _ (fun _ hr => hr) [] (List.forall_mem_nil _) h

/-- The delivery that the runner has recorded for an attempt, at a role. -/
structure Delivery (runner : EffectRunner) (traces : List EffectTraceRow) (phase role : String)
    (attempt : MultihopAttempt) (row : LineageRow) (trace : EffectTraceRow) : Prop where
  attempt_mem : row.attempt ∈ runner.attempts
  stage_mem : row.stage ∈ runner.stages
  event_mem : row.event ∈ runner.events
  trace_mem : trace ∈ traces
  attempt_row :
    row.attempt.phase = phase ∧ row.attempt.status = "succeeded" ∧ row.attempt.attemptID = attempt.attemptID ∧
    row.attempt.route = String.ofList attempt.route ∧ row.attempt.routeSequence = attempt.routeSequence
  stage_row : row.stage.attemptID = attempt.attemptID ∧ row.stage.stage = "destination_verify_deliver" ∧
    row.stage.state = "succeeded"
  event_row : row.event.attemptID = attempt.attemptID ∧ row.event.stage = "destination_effect_observation" ∧
    row.event.event = "observed" ∧ row.chainRole = role
  trace_row : trace.chainRole = role ∧ trace.transactionHash = row.transactionHash ∧ trace.status = some 1
  unique : traces.filter (fun t => t.chainRole = role ∧ t.transactionHash = row.transactionHash) = [trace]

/-- An event has the transaction, the message and the block of a delivery. -/
structure IsDelivery (event : EffectEvent) (row : LineageRow) (trace : EffectTraceRow) : Prop where
  transactionHash : hex0x event.transactionHash = row.transactionHash
  messageID : ∃ mid, row.event.mid = some mid ∧ hex0x event.messageID = toLower mid
  blockNumber : trace.blockNumber = some event.blockNumber
  blockHash : ∃ hash, trace.blockHash = some hash ∧ hex0x event.blockHash = toLower hash

/-- An effect with the values of a row of the query is the delivery of its attempt. -/
theorem delivery_of_lineage {l : EffectLineage} {attempt : MultihopAttempt} {effect : Effect} {row : LineageRow}
    (hrow : row ∈ runner.lineageRows phase) (hl : lineageOf traces row = .ok l)
    (hr : Recorded role expected event attempt effect) (ha : effect.agrees l = true) :
    ∃ trace, Delivery runner traces phase role attempt row trace ∧ IsDelivery event row trace := by
  obtain ⟨hattempt, hstage, hevent⟩ := mem_lineageRows.mp hrow
  obtain ⟨hid, hroute, hsequence, hrole, htx, hmid, hblock, hhash⟩ := of_decide_eq_true ha
  unfold lineageOf at hl
  split at hl
  · rename_i trace htrace
    obtain ⟨hbinding, hl⟩ := revertIf_bind.mp hl
    obtain ⟨mid, hm, hl⟩ := orRevert_bind.mp hl
    obtain ⟨number, hn, hl⟩ := orRevert_bind.mp hl
    obtain ⟨hash, hh, hl⟩ := orRevert_bind.mp hl
    obtain rfl := Except.ok.inj hl
    have hid : row.attempt.attemptID = attempt.attemptID := hid.symm.trans hr.effect_attemptID
    have hchain : row.chainRole = role := hrole.symm.trans hr.chainRole
    have hmem :
        trace ∈ traces.filter fun t => t.chainRole = row.chainRole ∧ t.transactionHash = row.transactionHash := by
      rw [htrace]
      exact List.mem_singleton_self trace
    obtain ⟨hmem, hkey⟩ := List.mem_filter.mp hmem
    obtain ⟨hkeyrole, hkeytx⟩ := of_decide_eq_true hkey
    have hstatus : trace.status = some 1 := by
      have h1 : trace.status.getD 0 = 1 := by_contra fun hne => hbinding (.inr hne)
      cases hs : trace.status with
      | none => exact absurd (hs ▸ h1) (by decide)
      | some status =>
        rw [hs] at h1
        exact congrArg some h1
    refine ⟨trace, ⟨hattempt.1, hstage.1, hevent.1, hmem, ⟨hattempt.2.1, hattempt.2.2, hid, ?_, ?_⟩, ?_, ?_,
      ⟨hkeyrole.trans hchain, hkeytx, hstatus⟩, ?_⟩, ⟨?_, ⟨mid, hm, ?_⟩, ?_, hash, hh, ?_⟩⟩
    · exact hroute.symm.trans hr.effect_route
    · exact hsequence.symm.trans hr.effect_routeSequence
    · exact ⟨hstage.2.1.trans hid, hstage.2.2⟩
    · exact ⟨hevent.2.1.trans hid, hevent.2.2.1, hevent.2.2.2, hchain⟩
    · rw [← htrace, hchain]
    · exact hr.transactionHash.symm.trans htx
    · exact hr.messageID.symm.trans hmid
    · rw [hn]
      exact congrArg some (hblock.symm.trans hr.blockNumber)
    · exact hr.blockHash.symm.trans hhash
  · exact absurd hl nofun

/-! ## The reconciliation -/

variable {input : EffectInput} {chainOf : String → Option EffectChain} {check : ReceiverCheck}

/-- A turn of the loop that succeeds. -/
structure Turn (input : EffectInput) (chainOf : String → Option EffectChain) (expected : List MultihopAttempt)
    (role : String) (effects : List Effect) (check : ReceiverCheck) (chain : EffectChain) (row : BaselineRow)
    (address : String) (logs : List EffectEvent) (found : List (MultihopAttempt × Effect)) : Prop where
  chain_eq : chainOf role = some chain
  row_eq : input.baselineRow role = some row
  address_eq : EffectLibraries.toChecksumAddress row.receiver = .ok address
  head_eq : (input.node chain.rpcURL).blockNumber = .ok check.endBlockInclusive
  role_eq : check.chainRole = role
  start_eq : check.startBlockInclusive = row.startBlockInclusive
  before_eq : check.deliveryCountBefore = row.deliveryCountBefore
  after_eq : (input.node chain.rpcURL).deliveryCount address = .ok check.deliveryCountAfter
  delta_eq : check.expectedDelta = expected.length
  count_eq : check.eventCount = logs.length
  windows_eq :
    blockWindows check.startBlockInclusive check.endBlockInclusive EFFECT_LOG_BLOCK_WINDOW = .ok check.scanWindows
  logs_perm : logs.Perm (((input.node chain.rpcURL).effects address).filter
    (inRange (check.startBlockInclusive + 1) check.endBlockInclusive))
  effects_eq : effects = found.map Prod.snd
  nodup : (effects.map Effect.attemptID).Nodup
  recorded : List.Forall₂ (fun event p => Recorded role expected event p.1 p.2) logs found

theorem reconcileRole_spec {expected : String → List MultihopAttempt}
    (h : reconcileRole input chainOf expected role = .ok (effects, check)) :
    ∃ chain row address logs found,
      Turn input chainOf (expected role) role effects check chain row address logs found := by
  obtain ⟨index, hindex, h⟩ := bind_eq_ok.mp h
  obtain ⟨chain, hchain, h⟩ := orRevert_bind.mp h
  obtain ⟨row, hrow, h⟩ := orRevert_bind.mp h
  obtain ⟨address, haddress, h⟩ := bind_eq_ok.mp h
  obtain ⟨startHash, -, h⟩ := bind_eq_ok.mp h
  obtain ⟨-, h⟩ := revertIf_bind.mp h
  obtain ⟨endBlock, hend, h⟩ := bind_eq_ok.mp h
  obtain ⟨endHash, -, h⟩ := bind_eq_ok.mp h
  obtain ⟨windows, hwindows, h⟩ := bind_eq_ok.mp h
  obtain ⟨logs, hlogs, h⟩ := bind_eq_ok.mp h
  obtain ⟨effects', heffects, h⟩ := bind_eq_ok.mp h
  obtain ⟨after, hafter, h⟩ := bind_eq_ok.mp h
  obtain ⟨rfl, rfl⟩ := Prod.mk.inj (Except.ok.inj h)
  obtain ⟨hnodup, found, hfound, hrecorded⟩ :=
    reconcileEvents_spec (buildEffectHashIndex_eq hindex) heffects List.nodup_nil
  exact ⟨chain, row, address, logs, found, hchain, hrow, haddress, hend, rfl, rfl, rfl, hafter, rfl, rfl, hwindows,
    scanned_perm hwindows hlogs, hfound, hnodup, hrecorded⟩

theorem Turn.map_attemptID {logs : List EffectEvent} {found : List (MultihopAttempt × Effect)} {address : String}
    (t : Turn input chainOf expected role effects check chain row address logs found) :
    (found.map Prod.fst).map MultihopAttempt.attemptID = effects.map Effect.attemptID := by
  rw [t.effects_eq, List.map_map, List.map_map]
  refine List.map_congr_left fun p hp => ?_
  obtain ⟨event, -, hr⟩ := Table.forall₂_left t.recorded hp
  exact hr.effect_attemptID.symm

/-- The attempts of a turn are the expected ones, where there are as many. -/
theorem Turn.perm {logs : List EffectEvent} {found : List (MultihopAttempt × Effect)} {address : String}
    (t : Turn input chainOf expected role effects check chain row address logs found)
    (hcount : logs.length = expected.length) :
    (found.map Prod.fst).Perm expected := by
  have hnodup : (found.map Prod.fst).Nodup := List.Nodup.of_map _ (t.map_attemptID ▸ t.nodup)
  refine (List.subperm_of_subset hnodup fun a ha => ?_).perm_of_length_le ?_
  · obtain ⟨p, hp, rfl⟩ := List.mem_map.mp ha
    obtain ⟨event, -, hr⟩ := Table.forall₂_left t.recorded hp
    exact hr.planned
  · rw [List.length_map, ← t.recorded.length_eq, hcount]

/-- An event is the effect of a planned attempt, in the transaction that the runner has recorded. -/
structure EffectOf (input : EffectInput) (role : String) (event : EffectEvent) (attempt : MultihopAttempt) : Prop where
  attemptID : event.attemptID = (Digests.keccak256 (encode attempt.attemptID)).toList
  route : decodeAscii event.route = .ok (String.ofList attempt.route)
  routeSequence : event.routeSequence = attempt.routeSequence
  delivery :
    ∃ row trace, Delivery input.runner input.traces input.phase role attempt row trace ∧ IsDelivery event row trace

/-- What is asked of a receiver and its check. -/
structure ExactOne (input : EffectInput) (role : String) (check : ReceiverCheck) (chain : EffectChain)
    (row : BaselineRow) (address : String) : Prop where
  chain_mem : chain ∈ input.profile ∧ toLower chain.label = role
  row_mem : row ∈ input.baseline.payload.receivers ∧ row.chainRole = role
  address_eq : EffectLibraries.toChecksumAddress row.receiver = .ok address
  range : check.startBlockInclusive = row.startBlockInclusive ∧
    (input.node chain.rpcURL).blockNumber = .ok check.endBlockInclusive
  windows (block : Int) : check.scanWindows.countP (fun w => w.fromBlock ≤ block ∧ block ≤ w.toBlock) =
    if check.startBlockInclusive < block ∧ block ≤ check.endBlockInclusive then 1 else 0
  distinct : ((plannedAt input.attempts role).map MultihopAttempt.attemptID).Nodup
  effects : ∃ attempts, attempts.Perm (plannedAt input.attempts role) ∧ List.Forall₂ (EffectOf input role)
    (((input.node chain.rpcURL).effects address).filter
      (inRange (check.startBlockInclusive + 1) check.endBlockInclusive)) attempts
  counter : ∃ after, (input.node chain.rpcURL).deliveryCount address = .ok after ∧
    after - row.deliveryCountBefore = (plannedAt input.attempts role).length

theorem profileChainsByRole_mem {chains : List EffectChain} (h : profileChainsByRole chains = .ok chainOf)
    (hc : chainOf role = some chain) : chain ∈ chains ∧ toLower chain.label = role := by
  obtain ⟨-, h⟩ := revertIf_bind.mp h
  obtain rfl := Except.ok.inj h
  exact ⟨List.mem_reverse.mp (List.mem_of_find?_eq_some hc), by simpa using List.find?_some hc⟩

/-- A reconciliation that succeeds has found exactly the planned effects, each in the transaction of its delivery. -/
theorem reconcileEffects_exactOne {document : Semantic EffectAudit} (h : reconcileEffects input = .ok document) :
    ∀ role ∈ EFFECT_DESTINATION_ROLES, ∃ check ∈ document.payload.receiverChecks, check.chainRole = role ∧
      ∃ chain row address, ExactOne input role check chain row address := by
  obtain ⟨_, -, h⟩ := bind_eq_ok.mp h
  obtain ⟨-, h⟩ := revertIf_bind.mp h
  obtain ⟨lineage, hlineage, h⟩ := bind_eq_ok.mp h
  obtain ⟨expected, hexpected, h⟩ := bind_eq_ok.mp h
  obtain ⟨_, -, h⟩ := bind_eq_ok.mp h
  obtain ⟨chainOf, hchains, h⟩ := bind_eq_ok.mp h
  obtain ⟨results, hresults, h⟩ := bind_eq_ok.mp h
  obtain ⟨_, hvalid, h⟩ := bind_eq_ok.mp h
  obtain rfl := Except.ok.inj h
  obtain ⟨hmatched, hcounted, hsum⟩ := validateEffectAudit_ok hvalid
  have hturns := forall₂_of_mapM hresults
  -- the audit has compared the numbers of the plan and of the receivers
  have htotal : (EFFECT_DESTINATION_ROLES.map fun role => (expected role).length).sum = input.attempts.length := by
    have hdeltas : EFFECT_DESTINATION_ROLES.map (fun role => ((expected role).length : Int)) =
        results.map fun result => result.2.expectedDelta := by
      rw [← List.forall₂_eq_eq_eq, List.forall₂_map_left_iff, List.forall₂_map_right_iff]
      refine hturns.imp fun role result hresult => ?_
      obtain ⟨chain, row, address, logs, found, t⟩ := reconcileRole_spec hresult
      exact t.delta_eq.symm
    obtain ⟨-, -, -, -, hcount, -⟩ := of_decide_eq_true hmatched
    rw [List.map_map] at hsum
    have := hsum.trans hcount.symm
    rw [show (results.map (ReceiverCheck.expectedDelta ∘ Prod.snd)) = _ from hdeltas.symm] at this
    rw [← Nat.cast_inj (R := Int), Nat.cast_list_sum, List.map_map]
    exact this
  have hplanned := expected_eq_planned hexpected htotal
  intro role hrole
  obtain ⟨result, hmem, hresult⟩ := Table.forall₂_right hturns hrole
  obtain ⟨chain, row, address, logs, found, t⟩ := reconcileRole_spec hresult
  rw [hplanned role hrole] at t
  have hcheck : result.2 ∈ results.map Prod.snd := List.mem_map_of_mem hmem
  obtain ⟨-, -, -, -, hbefore, hevents, -⟩ := of_decide_eq_true (hcounted _ hcheck)
  have hlength : logs.length = (plannedAt input.attempts role).length := by
    have := t.delta_eq.symm.trans (hevents.trans t.count_eq)
    omega
  have hperm := t.perm hlength
  refine ⟨result.2, hcheck, t.role_eq, chain, row, address, profileChainsByRole_mem hchains t.chain_eq, ?_,
    t.address_eq,
    ⟨t.start_eq, t.head_eq⟩, (blockWindows_spec t.windows_eq).1, ?_, ?_, result.2.deliveryCountAfter, t.after_eq, ?_⟩
  · exact ⟨List.mem_reverse.mp (List.mem_of_find?_eq_some t.row_eq), by simpa using List.find?_some t.row_eq⟩
  · exact (hperm.map _).nodup_iff.mp (t.map_attemptID ▸ t.nodup)
  · -- the pairs of logs and attempts, in the order of the events
    have heffects : List.Forall₂ (EffectOf input role) logs (found.map Prod.fst) := by
      rw [List.forall₂_map_right_iff]
      refine Table.forall₂_imp_right t.recorded fun p hp event hr => ⟨hr.attemptID, hr.route, hr.routeSequence, ?_⟩
      have heffect : p.2 ∈ result.1 := by
        rw [t.effects_eq]
        exact List.mem_map_of_mem hp
      obtain ⟨l, hl, hagrees⟩ := lineage_of_effect hmatched
        ((List.mem_insertionSort _).mpr (List.mem_flatMap.mpr ⟨result, hmem, heffect⟩))
      obtain ⟨row, hrow, hlrow⟩ := expectedEffectLineage_mem hlineage l hl
      exact ⟨row, delivery_of_lineage hrow hlrow hr hagrees⟩
    obtain ⟨attempts, hforall, hattempts⟩ := List.perm_comp_forall₂ t.logs_perm.symm heffects
    exact ⟨attempts, hattempts.trans hperm, hforall⟩
  · rw [← t.before_eq, hbefore, t.delta_eq]

/-! ## Successful turns -/

omit [EffectLibraries] in
theorem isHash_hex0x {data : GoBytes} (h : data.length = 32) : isHash (hex0x data) = true := by
  have ht : Strings.trimPrefix (hex0x data) "0x" = encodeToString data := trimPrefix_encodeHex data
  rw [isHash, ht, encodeToString, String.length_ofList, Hex.length_encode, h]
  rfl

theorem toLower_hex0x (data : GoBytes) : toLower (hex0x data) = hex0x data := by
  have h : (hex0x data).toList.map Unicode.toLower = (hex0x data).toList := by
    refine (List.map_congr_left fun c hc => ?_).trans (List.map_id _)
    rw [show (hex0x data).toList = _ from toList_encodeHex data, List.mem_cons, List.mem_cons] at hc
    obtain rfl | rfl | hc := hc
    · exact Unicode.toLower_ascii '0' (by decide)
    · exact Unicode.toLower_ascii 'x' (by decide)
    · obtain ⟨-, -, ha, hl, -⟩ := mem_encode hc
      exact (Unicode.toLower_ascii c ha).trans hl
  rw [toLower, h, String.ofList_toList]

theorem canonicalHash_hex0x (data : GoBytes) : canonicalHash (hex0x data) = hex0x data := by
  rw [canonicalHash, toLower_hex0x, show Strings.trimPrefix (hex0x data) "0x" = _ from trimPrefix_encodeHex data]
  rfl

/-- What a turn returns. -/
theorem reconcileRole_of {input : EffectInput} {chainOf : String → Option EffectChain}
    {expected : String → List MultihopAttempt} {role address : String} {index : List (String × MultihopAttempt)}
    {chain : EffectChain} {row : BaselineRow} {start last : GoBytes} {stop after : Int} {windows : List BlockWindow}
    {logs : List EffectEvent} {effects : List Effect} (hindex : buildEffectHashIndex (expected role) = .ok index)
    (hchain : chainOf role = some chain) (hrow : input.baselineRow role = some row)
    (haddress : EffectLibraries.toChecksumAddress row.receiver = .ok address)
    (hstart : (input.node chain.rpcURL).blockHash row.startBlockInclusive = .ok start)
    (hhash : toLower row.startBlockHash = hex0x start) (hstop : (input.node chain.rpcURL).blockNumber = .ok stop)
    (hlast : (input.node chain.rpcURL).blockHash stop = .ok last)
    (hwindows : blockWindows row.startBlockInclusive stop EFFECT_LOG_BLOCK_WINDOW = .ok windows)
    (hlogs : fetchEffectLogs (input.node chain.rpcURL) address windows = .ok logs)
    (heffects : logs.foldlM (reconcileEvent (input.node chain.rpcURL) role chain row index) [] = .ok effects)
    (hafter : (input.node chain.rpcURL).deliveryCount address = .ok after) :
    reconcileRole input chainOf expected role = .ok
    (effects, ⟨role, row.startBlockInclusive, stop, hex0x start, hex0x last,
      row.deliveryCountBefore, after, after - row.deliveryCountBefore, logs.length, (expected role).length, windows⟩) :=
  by
  simp [reconcileRole, hindex, hchain, hrow, haddress, hstart, hhash, hstop, hlast, hwindows, hlogs, heffects,
    hafter, orRevert, revertIf, bind, Except.bind, pure, Except.pure]

omit [EffectLibraries] in
theorem allM_ok {α : Type} {p : α → Except NativeError Bool} {xs : List α} (h : ∀ x ∈ xs, p x = .ok true) :
    xs.allM p = .ok true := by
  induction xs with
  | nil => rfl
  | cons x xs ih =>
    rw [List.allM, h x List.mem_cons_self]
    exact ih fun y hy => h y (List.mem_cons_of_mem x hy)

end

/-! ## A plan of one attempt -/

@[reducible] def sampleEffectLibraries : EffectLibraries where
  toUnicode := asciiUnicode
  sha256 := copy32
  keccak256 := copy32
  toChecksumAddress address := .ok address
  baselineSHA256 _ := "baseline"
  auditSHA256 _ := "audit"

/-- A hash of equal bytes. -/
def sampleHash (b : UInt8) : GoBytes := List.replicate 32 b

/-- A node at block 10, whose receivers have these events. -/
def sampleNode (events : List EffectEvent) : EffectNode where
  blockNumber := .ok 10
  blockHash _ := .ok (sampleHash 4)
  receiptStatus _ := .ok 1
  effects _ := events
  getLogs _ first last := .ok (events.filter (inRange first last))
  getLogs_perm _ _ _ _ h := Except.ok.inj h ▸ .refl _
  deliveryCount _ := .ok events.length

/-- The route of one hop, whose effect is in block 7 of the second chain. -/
def sampleInput : EffectInput where
  profile := [⟨"A", 1, "a"⟩, ⟨"B", 2, "b"⟩, ⟨"C", 3, "c"⟩, ⟨"D", 4, "d"⟩, ⟨"E", 5, "e"⟩]
  baseline := ⟨⟨baselineSchema, "scale", "config", "profile", "deployment",
    EFFECT_DESTINATION_ROLES.map fun role => ⟨role, "receiver", 5, hex0x (sampleHash 4), 0⟩⟩, "baseline"⟩
  bindings := ⟨"baseline", "config", "profile", "deployment"⟩
  evidenceNamespace := "native-multihop-switching-v1"
  phase := "scale"
  runner := ⟨[⟨"t", "scale", "H", 0, "succeeded"⟩],
    [⟨"t", "destination_verify_deliver", "succeeded", some (hex0x (sampleHash 1))⟩],
    [⟨"t", "destination_effect_observation", "observed", some "b", some (hex0x (sampleHash 1)),
      some (hex0x (sampleHash 2))⟩]⟩
  traces := [⟨"b", hex0x (sampleHash 1), some 1, some 7, some (hex0x (sampleHash 3))⟩]
  attempts := [⟨"t", "scale", ['H'], 0, ""⟩]
  node url := sampleNode (if url = "b" then
    [⟨(copy32 (encode "t")).toList, sampleHash 2, [72], 0, 1, 7, sampleHash 3, sampleHash 1, 0, 0⟩] else [])

attribute [local instance] sampleEffectLibraries

def sampleLineage : EffectLineage :=
  ⟨"t", "H", 0, "b", hex0x (sampleHash 1), hex0x (sampleHash 2), 7, hex0x (sampleHash 3)⟩

def sampleTrace : EffectTraceRow := ⟨"b", hex0x (sampleHash 1), some 1, some 7, some (hex0x (sampleHash 3))⟩

def sampleRow : LineageRow := ⟨⟨"t", "scale", "H", 0, "succeeded"⟩,
    ⟨"t", "destination_verify_deliver", "succeeded", some (hex0x (sampleHash 1))⟩,
    ⟨"t", "destination_effect_observation", "observed", some "b", some (hex0x (sampleHash 1)),
      some (hex0x (sampleHash 2))⟩⟩

theorem sample_lineage :
    expectedEffectLineage sampleInput.runner sampleInput.traces sampleInput.phase = .ok [sampleLineage] := by
  have hrows : sampleInput.runner.lineageRows sampleInput.phase = [sampleRow] := rfl
  have hhash : sampleRow.transactionHash = hex0x (sampleHash 1) := canonicalHash_hex0x _
  have hfilter :
      sampleInput.traces.filter
      (fun t => t.chainRole = sampleRow.chainRole ∧ t.transactionHash = sampleRow.transactionHash) =
      [sampleTrace] := by
    rw [List.filter_eq_self.mpr]
    · rfl
    · intro t ht
      obtain rfl := List.mem_singleton.mp ht
      rw [hhash]
      exact decide_eq_true ⟨rfl, rfl⟩
  have hlineage : lineageOf sampleInput.traces sampleRow = .ok sampleLineage := by
    rw [lineageOf, hfilter]
    refine revertIf_bind.mpr ⟨?_, ?_⟩
    · show ¬ (canonicalHash (hex0x (sampleHash 1)) ≠ sampleRow.transactionHash ∨ _)
      rw [hhash, canonicalHash_hex0x]
      simp [sampleTrace]
    · show Except.ok
        (EffectLineage.mk _ _ _ _ _ (toLower (hex0x (sampleHash 2))) _ (toLower (hex0x (sampleHash 3)))) = _
      rw [hhash, toLower_hex0x, toLower_hex0x]
      rfl
  rw [expectedEffectLineage, hrows, List.foldlM_cons, addLineage, hlineage]
  rfl

def sampleCheck (role : String) (count : Int) : ReceiverCheck :=
  ⟨role, 5, 10, hex0x (sampleHash 4), hex0x (sampleHash 4), 0, count, count, count, count, [⟨6, 10⟩]⟩

def sampleEffect : Effect :=
  ⟨"t", "H", 0, "b", 2, toLower "receiver", hex0x (sampleHash 1), 7, hex0x (sampleHash 3), 0, 1,
    hex0x (sampleHash 2), 1⟩


def sampleAttempt : MultihopAttempt := ⟨"t", "scale", ['H'], 0, ""⟩

def sampleEvent : EffectEvent :=
  ⟨(copy32 (encode "t")).toList, sampleHash 2, [72], 0, 1, 7, sampleHash 3, sampleHash 1, 0, 0⟩

def sampleExpected : String → List MultihopAttempt := Function.update (fun _ => []) "b" [sampleAttempt]

def sampleChain (role : String) : Option EffectChain :=
  sampleInput.profile.reverse.find? fun chain => toLower chain.label = role

theorem sample_quiet {role : String} {chain : EffectChain} (hchain : sampleChain role = some chain)
    (hurl : chain.rpcURL ≠ "b")
    (hrow : sampleInput.baselineRow role = some ⟨role, "receiver", 5, hex0x (sampleHash 4), 0⟩) (hr : role ≠ "b") :
    reconcileRole sampleInput sampleChain sampleExpected role = .ok ([], sampleCheck role 0) := by
  have hnode : sampleInput.node chain.rpcURL = sampleNode [] :=
    by show sampleNode (if chain.rpcURL = "b" then _ else _) = _; rw [if_neg hurl]
  have hwindows : blockWindows 5 10 EFFECT_LOG_BLOCK_WINDOW = .ok [⟨6, 10⟩] := rfl
  have he : sampleExpected role = [] := Function.update_of_ne hr _ _
  rw [reconcileRole_of (by rw [he]; rfl) hchain hrow rfl (by rw [hnode]; rfl) (toLower_hex0x _) (by rw [hnode]; rfl)
    (by rw [hnode]; rfl)
    hwindows (by rw [hnode]; rfl) (by rfl) (by rw [hnode]; rfl), he]
  rfl

theorem sample_first :
    reconcileRole sampleInput sampleChain sampleExpected "b" = .ok ([sampleEffect], sampleCheck "b" 1) := by
  have hwindows : blockWindows 5 10 EFFECT_LOG_BLOCK_WINDOW = .ok [⟨6, 10⟩] := rfl
  have hchain : sampleChain "b" = some ⟨"B", 2, "b"⟩ := rfl
  have hrow : sampleInput.baselineRow "b" = some ⟨"b", "receiver", 5, hex0x (sampleHash 4), 0⟩ := rfl
  have he : sampleExpected "b" = [sampleAttempt] := Function.update_self _ _ _
  have hnode : sampleInput.node "b" = sampleNode [sampleEvent] := rfl
  rw [reconcileRole_of (by rw [he]; rfl) hchain hrow rfl (by rw [hnode]; rfl) (toLower_hex0x _) (by rw [hnode]; rfl)
    (by rw [hnode]; rfl)
    hwindows (by rw [hnode]; rfl) (by rw [hnode]; rfl) (by rw [hnode]; rfl), he]
  rfl

theorem sample_results : EFFECT_DESTINATION_ROLES.mapM (reconcileRole sampleInput sampleChain sampleExpected) = .ok
    [([sampleEffect], sampleCheck "b" 1), ([], sampleCheck "c" 0), ([], sampleCheck "d" 0), ([], sampleCheck "e" 0)] :=
  by
  have hc : sampleChain "c" = some ⟨"C", 3, "c"⟩ := rfl
  have hd : sampleChain "d" = some ⟨"D", 4, "d"⟩ := rfl
  have he : sampleChain "e" = some ⟨"E", 5, "e"⟩ := rfl
  rw [show EFFECT_DESTINATION_ROLES = ["b", "c", "d", "e"] from rfl]
  simp only [List.mapM_cons, List.mapM_nil, sample_first, sample_quiet hc (by decide) rfl (by decide),
    sample_quiet hd (by decide) rfl (by decide), sample_quiet he (by decide) rfl (by decide)]
  rfl

def sampleAudit : EffectAudit :=
  { schemaVersion := auditSchema, evidenceNamespace := "native-multihop-switching-v1", phase := "scale",
    bindings := ⟨"baseline", "config", "profile", "deployment"⟩, valid := true, expectedEffectCount := 1,
    observedEffectCount := 1,
    receiverChecks := [sampleCheck "b" 1, sampleCheck "c" 0, sampleCheck "d" 0, sampleCheck "e" 0],
    effects := [sampleEffect], completeBlockRangeScanned := true, receiverCountersReconciled := true }

theorem sample_checks : ∀ check ∈ sampleAudit.receiverChecks, check.holds [sampleEffect] = .ok true := by
  have hhash (b) : isHash (hex0x (sampleHash b)) = true := isHash_hex0x rfl
  have hcounted (role) (count : Int)
      (hc : count = ([sampleEffect].filter fun effect => effect.chainRole = role).length) :
      (sampleCheck role count).counted [sampleEffect] = true :=
    decide_eq_true ⟨by show (5 : Int) ≤ 10; decide, hhash 4, hhash 4, (sub_zero count).symm, sub_zero count, rfl, hc⟩
  intro check hcheck
  simp only [sampleAudit, List.mem_cons, List.not_mem_nil, or_false] at hcheck
  obtain rfl | rfl | rfl | rfl := hcheck
  all_goals
    refine (if_pos (hcounted _ _ rfl)).trans ?_
    rfl

theorem sample_valid :
    validateEffectAudit ⟨sampleAudit, "audit"⟩ sampleInput.phase sampleInput.evidenceNamespace sampleInput.bindings
    [sampleLineage] = .ok () := by
  have hhash (b) : isHash (hex0x (sampleHash b)) = true := isHash_hex0x rfl
  have hmatched :
      sampleAudit.matched sampleInput.phase sampleInput.evidenceNamespace sampleInput.bindings [sampleLineage] = true :=
    by
    refine decide_eq_true ⟨rfl, rfl, rfl, rfl, rfl, rfl, by decide, by decide, by decide, rfl, rfl, rfl, by decide,
      by decide, ?_, ?_⟩
    · intro row hrow
      obtain rfl := List.mem_singleton.mp hrow
      exact decide_eq_true ⟨rfl, by decide, by decide, hhash 1, hhash 2, hhash 3⟩
    · intro l hl
      obtain rfl := List.mem_singleton.mp hl
      rfl
  rw [validateEffectAudit]
  refine bind_eq_ok.mpr ⟨(), rfl, ?_⟩
  rw [if_pos hmatched]
  refine bind_eq_ok.mpr ⟨true, ?_, rfl⟩
  exact allM_ok sample_checks

theorem sample_reconciled : reconcileEffects sampleInput = .ok ⟨sampleAudit, "audit"⟩ := by
  rw [reconcileEffects]
  refine bind_eq_ok.mpr ⟨(), rfl, revertIf_bind.mpr ⟨by decide, ?_⟩⟩
  refine bind_eq_ok.mpr ⟨_, sample_lineage, bind_eq_ok.mpr ⟨sampleExpected, rfl, ?_⟩⟩
  refine bind_eq_ok.mpr ⟨[[(attemptDigest "t", sampleAttempt)], [], [], []], rfl, bind_eq_ok.mpr ⟨sampleChain, rfl, ?_⟩⟩
  exact bind_eq_ok.mpr ⟨_, sample_results, bind_eq_ok.mpr ⟨(), sample_valid, rfl⟩⟩

theorem reconcileEffects_exactOne_sample :
    ∃ document, @reconcileEffects sampleEffectLibraries sampleInput = .ok document ∧
    ∀ role ∈ EFFECT_DESTINATION_ROLES, ∃ check ∈ document.payload.receiverChecks, check.chainRole = role ∧
      ∃ chain row address, @ExactOne sampleEffectLibraries sampleInput role check chain row address := by
  exact ⟨_, sample_reconciled, @reconcileEffects_exactOne sampleEffectLibraries sampleInput _ sample_reconciled⟩

end Xir.Impl.XirLab.MultihopEffects
