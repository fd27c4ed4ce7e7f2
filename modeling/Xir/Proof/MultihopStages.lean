import Xir.Impl.XirLab.MultihopRunner
import Xir.Proof.Attempts
import Xir.Proof.Deploy
import Xir.Proof.Worker

/-!
# The stages of an attempt of the Python runner

The stages of an attempt are always a prefix of the coordinator's part of its
plan, whatever the calls of the runner raise and however often an attempt is
resumed, and all of it when the attempt has succeeded
(`MultihopTables.stages_of_run`). With the actions of the Go runner
(`RunnerLedger.stages_of_run`), both runners follow the plan
(`stage_plans_agree`).
-/

namespace Xir.Impl.XirLab

open Strings XirTrace
open MultihopScalability (letters)

/-! ## Tables -/

/-- The protocol of a character of a route. -/
def protocolOf (c : Char) : Protocol := if c = 'L' then .L else .H

theorem letter_protocolOf {c : Char} (h : c = 'H' ∨ c = 'L') : (protocolOf c).letter = c := by
  rcases h with rfl | rfl <;> rfl

theorem protocolOf_letter (p : Protocol) : protocolOf p.letter = p := by cases p <;> rfl

/-- The coordinator's part of the plan of a route. -/
def coordinatorPlan (route : PyRoute) : List String := planOf false (route.map protocolOf)

namespace MultihopTables

variable {s t : MultihopTables}

/-- The recorded stages of an attempt. -/
def stagesOf (s : MultihopTables) (attemptID : String) : List String :=
  (s.stages.filter fun r => r.attemptID = attemptID).map NativeStageRow.stage

/-- The attempts with their plans, and the stages. -/
def log (s : MultihopTables) : PlanLog String String :=
  ⟨s.attempts.map fun r => ⟨r.attempt.attemptID, coordinatorPlan r.attempt.route, r.succeeded⟩,
    s.stages.map NativeStageRow.key⟩

@[simp] theorem stages_log (s : MultihopTables) (attemptID : String) :
    s.log.stages attemptID = s.stagesOf attemptID := by
  rw [log, PlanLog.stages, stagesOf, List.filter_map, List.map_map]
  rfl

theorem log_recordStage (s : MultihopTables) (row : NativeStageRow) :
    (s.recordStage row).log = (PlanLog.Act.record row.attemptID row.stage).apply s.log := by
  rw [recordStage, log, Dict.map_key_put, PlanLog.Act.apply]
  show _ = if row.key ∈ s.stages.map NativeStageRow.key then _ else _
  split <;> rfl

end MultihopTables

/-- What an operation records. -/
def MultihopOp.act : MultihopOp → PlanLog.Act String String
  | begin attempt => .begin attempt.attemptID (coordinatorPlan attempt.route)
  | finish attemptID => .finish attemptID
  | recordStage row => .record row.attemptID row.stage
  | recordDurableSignedStage row _ => .record row.attemptID row.stage
  | _ => .quiet

theorem MultihopOp.act_quiet {op : MultihopOp} (h : ¬ op.OnTables) : op.act = .quiet := by
  cases op with
  | begin | finish | stage | durableSignedTransaction | recordStage | recordDurableSignedStage => exact absurd trivial h
  | _ => rfl

namespace MultihopTables

variable {s t : MultihopTables}

/-- An operation does its act on the log. -/
theorem log_effect {op : MultihopOp} {v : op.Answer} (h : MultihopEffect s op v t) : t.log = op.act.apply s.log := by
  cases h with
  | @begin attempt t needed hb =>
    rw [begin] at hb
    rw [MultihopOp.act, PlanLog.Act.apply]
    split at hb
    · next row hrow =>
      split at hb
      rotate_left
      · cases hb
      obtain ⟨rfl, -⟩ := Prod.mk.inj (Except.ok.inj hb)
      rw [if_pos]
      refine ⟨_, List.mem_map.mpr ⟨row, List.mem_of_find?_eq_some hrow, rfl⟩, ?_⟩
      simpa using List.find?_some hrow
    · next hnone =>
      obtain ⟨rfl, -⟩ := Prod.mk.inj (Except.ok.inj hb)
      rw [if_neg]
      · simp [log]
      · rintro ⟨a, ha, hid⟩
        obtain ⟨r, hr, rfl⟩ := List.mem_map.mp ha
        exact List.find?_eq_none.mp hnone r hr (decide_eq_true hid)
  | finish =>
    simp only [MultihopOp.act, PlanLog.Act.apply, PlanLog.finish, log, finish, List.map_map, PlanLog.mk.injEq, and_true]
    refine List.map_congr_left fun r _ => ?_
    simp only [Function.comp_apply]
    split <;> rfl
  | stage | durableSignedTransaction => rfl
  | recordStage => exact log_recordStage s _
  | recordDurableSignedStage hr =>
    obtain ⟨_, -, hr⟩ := bind_eq_ok.mp hr
    rw [← pure_eq_ok.mp hr, log_recordStage]
    rfl
  | other _ hop => rw [MultihopOp.act_quiet hop, PlanLog.Act.apply]

/-- An attempt that is begun is in the tables. -/
theorem begun_of_begin {attempt : MultihopAttempt} {needed : Bool} (h : s.begin attempt = .ok (t, needed)) :
    t.log.Begun attempt.attemptID (coordinatorPlan attempt.route) := by
  rw [begin] at h
  split at h
  · next row hrow =>
    split at h
    · next he =>
      obtain ⟨rfl, -⟩ := Prod.mk.inj (Except.ok.inj h)
      exact ⟨_, List.mem_map.mpr ⟨row, List.mem_of_find?_eq_some hrow, rfl⟩, by rw [he], by rw [he]⟩
    · cases h
  · obtain ⟨rfl, -⟩ := Prod.mk.inj (Except.ok.inj h)
    exact ⟨_, List.mem_map.mpr ⟨_, List.mem_append_right _ (List.mem_singleton_self _), rfl⟩, rfl, rfl⟩

theorem planSystem : PlanSystem (fun op => MultihopStep op) (fun s => (log s).InPlan) log MultihopOp.act where
  inPlan h := h
  does hs _ _ := by
    cases hs with
    | answer he => exact log_effect he
  keeps hs h needs := by
    cases hs with
    | answer he | raiseAfter _ he =>
      rw [log_effect he]
      exact ⟨h.apply needs, PlanLog.later_apply _ _⟩
    | raise => exact ⟨h, .refl _⟩

end MultihopTables

/-! ## Programs -/

namespace MultihopRunner

open MultihopTables

abbrev Follows {α : Type} (Q : α → MultihopTables → Prop) (s : MultihopTables) (p : MultihopProg α) : Prop :=
  PlanSystem.Follows (fun op => MultihopStep op) (fun s => (log s).InPlan) log MultihopOp.act Q s p

/-- The attempt is begun, and these stages of it are recorded. -/
abbrev Upto (attempt : MultihopAttempt) (done : List String) (s : MultihopTables) : Prop :=
  s.log.Upto attempt.attemptID (coordinatorPlan attempt.route) done

variable {attempt : MultihopAttempt} {done : List String} {s : MultihopTables} {α : Type}
  {Q : α → MultihopTables → Prop} {stage : String}

/-- An operation that records nothing, and what follows it. -/
theorem call_follows {op : MultihopOp} {f : op.Answer → MultihopProg α} (h : Upto attempt done s) (hop : ¬ op.OnTables)
    (hf : ∀ v t, Upto attempt done t → Follows Q t (f v)) : Follows Q s (MultihopOp.call op >>= f) :=
  planSystem.quiet h (MultihopOp.act_quiet hop) hf

theorem call_last {o : MultihopOp} (h : Upto attempt done s) (hop : ¬ o.OnTables) :
    Follows (fun _ t => Upto attempt done t) s (MultihopOp.call o) :=
  planSystem.quiet_last h (MultihopOp.act_quiet hop)

/-- A stage is read: a row that there is has been recorded. -/
theorem stage_follows {attemptID : String} {f : Option NativeStageRow → MultihopProg α} (h : Upto attempt done s)
    (hf : ∀ v t, Upto attempt done t → t.log.InPlan →
    (∀ row, v = some row → row.attemptID = attemptID ∧ row.stage = stage ∧
      stage ∈ t.log.stages attemptID) → Follows Q t (f v)) :
    Follows Q s (MultihopOp.call (.stage attemptID stage) >>= f) := by
  refine .call_bind (fun _ _ _ => trivial) fun t v t' hl hi hst hi' => ?_
  cases hst with
  | answer he =>
    cases he with
    | stage =>
      refine hf _ _ (h.later hl) hi fun row hrow => ?_
      have hkey := Dict.key_of_get hrow
      obtain ⟨h₁, h₂⟩ := Prod.mk.inj hkey
      exact ⟨h₁, h₂, PlanLog.mem_stages.mpr (List.mem_map.mpr ⟨row, Dict.get_mem hrow, hkey⟩)⟩
    | other _ hop => exact absurd trivial hop

/-- The row of the next stage of the plan is recorded, or recorded again. -/
theorem record_follows (row : NativeStageRow) {f : Unit → MultihopProg α} (h : Upto attempt done s)
    (hid : row.attemptID = attempt.attemptID) (hnext : done ++ [row.stage] <+: coordinatorPlan attempt.route)
    (hf : ∀ t, Upto attempt (done ++ [row.stage]) t → Follows Q t (f ())) :
    Follows Q s (MultihopOp.call (.recordStage row) >>= f) :=
  planSystem.record h (congrArg (PlanLog.Act.record · row.stage) hid) hnext fun _ t h => hf t h

theorem durable_follows (row : DurableSignedRow) {detail : StageDetail} {f : Unit → MultihopProg α}
    (h : Upto attempt done s) (hid : row.attemptID = attempt.attemptID)
    (hnext : done ++ [row.stage] <+: coordinatorPlan attempt.route)
    (hf : ∀ t, Upto attempt (done ++ [row.stage]) t → Follows Q t (f ())) :
    Follows Q s (MultihopOp.call (.recordDurableSignedStage row detail) >>= f) :=
  planSystem.record h (congrArg (PlanLog.Act.record · row.stage) hid) hnext fun _ t h => hf t h

/-- A hop with a profile is one of a route of `H` and `L`. -/
theorem letters_of_profile [Keccak] {route : PyRoute} {hopIndex : Nat} {profile : Bytes}
    (h : multihopProfileHash route hopIndex = .ok profile) : ∀ c ∈ route, c = 'H' ∨ c = 'L' := by
  have hroute : route ∈ ROUTE_ORDER := by
    by_contra hn
    rw [multihopProfileHash, revertIf, if_pos (.inl hn)] at h
    cases h
  have hall : (ROUTE_ORDER.all fun route => route.all fun c => c == 'H' || c == 'L') = true := by decide +kernel
  intro c hc
  simpa using List.all_eq_true.mp (List.all_eq_true.mp hall route hroute) c hc

/-- The stages of a hop of the coordinator. -/
theorem names_turn (done : List String) (hop : Nat) (p : Protocol) (next : Option Protocol) :
    done ++ namesOf false (CampaignRunner.turn hop p next) =
      done ++ [(Stage.dispatch hop p).name] ++ namesOf false (CampaignRunner.transitionAfter hop p next) := by
  cases p <;> simp [CampaignRunner.turn, namesOf, Stage.Coordinated, Impl.carrierStages]

variable [Unicode] [Digests] [Keccak] [MultihopLibraries] (m : MultihopRunner)

omit [Unicode] [Keccak] [MultihopLibraries] in
theorem persistReceipt_follows (transactionHash : String) (receipt : NativeReceipt) (detail : StageDetail)
    (h : Upto attempt done s) :
    Follows (fun _ t => Upto attempt done t) s (persistReceipt transactionHash receipt detail) :=
  call_follows h id fun _ _ h => call_follows h id fun _ _ h => .done h

omit [Keccak] in
/-- A stage whose row there is. -/
theorem resumeTransaction_follows (row : NativeStageRow) (prior : String) (role : Nat) (h : Upto attempt done s)
    (hid : row.attemptID = attempt.attemptID) (hnext : done ++ [row.stage] <+: coordinatorPlan attempt.route) :
    Follows (fun _ t => Upto attempt (done ++ [row.stage]) t) s (m.resumeTransaction row prior role) := by
  refine planSystem.quiet h rfl fun durable t h => ?_
  cases durable with
  | none => exact .fail t _
  | some durable =>
    refine .ofExcept_bind fun _ _ =>
      call_follows h id fun _ _ h => .ofExcept_bind fun _ _ => call_follows h id fun reply t h => ?_
    have rest : Follows (fun _ t => Upto attempt (done ++ [row.stage]) t) t (do
        let receipt ← MultihopOp.call (.waitForTransactionReceipt role (canonicalTransactionHash prior))
        MultihopProg.raiseIf (receipt.status ≠ 1) ("durable multihop transaction reverted: " ++ row.stage)
        let result ← persistReceipt (canonicalTransactionHash prior) receipt row.detail
        MultihopOp.call
          (.recordStage ⟨row.attemptID, row.stage, .succeeded, some (canonicalTransactionHash prior), result⟩)
        return result) := by
      refine call_follows h
        id fun _ _ h => .ofExcept_bind fun _ _ => (persistReceipt_follows _ _ _ h).bind fun _ _ h => ?_
      exact record_follows ⟨_, _, _, _, _⟩ h hid hnext fun _ h => .done h
    cases reply with
    | accepted => exact rest
    | refused text transient => exact .ofExcept_bind fun _ _ => rest

omit [Unicode] [Digests] [Keccak] [MultihopLibraries] in
theorem transactionNonce_follows (role : Nat) (preallocatedNonce : Option Nat) (h : Upto attempt done s) :
    Follows (fun _ t => Upto attempt done t) s (transactionNonce role preallocatedNonce) := by
  cases preallocatedNonce with
  | none => exact call_last (o := .reserveNonce role) h id
  | some nonce => exact .done h

omit [Keccak] in
theorem newTransaction_follows (role : Nat) (contract : String) (function : MultihopFunction) (value : Nat)
    (recordNonce : Option Int) (evidence : Option Bytes) (preallocatedNonce : Option Nat) (h : Upto attempt done s)
    (hnext : done ++ [stage] <+: coordinatorPlan attempt.route) :
    Follows (fun _ t => Upto attempt (done ++ [stage]) t) s
      (m.newTransaction attempt.attemptID stage role contract
        function value recordNonce evidence preallocatedNonce) := by
  refine (transactionNonce_follows role preallocatedNonce h).bind fun nonce t h => ?_
  refine call_follows h id fun gasPrice t h => .ofExcept_bind fun _ _ => ?_
  refine durable_follows ⟨_, _, _, _, _⟩ h rfl hnext fun t h => call_follows h id fun _ _ h => ?_
  refine call_follows h id fun reply t h => ?_
  cases reply with
  | refused text transient => exact .fail t _
  | accepted =>
    refine call_follows h id fun receipt t h => (persistReceipt_follows _ _ _ h).bind fun _ t h => ?_
    have again := h.mono (List.prefix_append _ _)
    split
    · exact record_follows ⟨_, _, _, _, _⟩ again rfl hnext fun t _ => .fail t _
    · exact record_follows ⟨_, _, _, _, _⟩ again rfl hnext fun t h => .done h

omit [Keccak] in
/-- A transaction of the next stage of the plan. -/
theorem transact_follows (role : Nat) (contract : String) (function : MultihopFunction) (value : Nat)
    (recordNonce : Option Int) (evidence : Option Bytes) (preallocatedNonce : Option Nat) (h : Upto attempt done s)
    (hnext : done ++ [stage] <+: coordinatorPlan attempt.route) :
    Follows (fun _ t => Upto attempt (done ++ [stage]) t) s
      (m.transact attempt.attemptID stage role contract function value recordNonce evidence preallocatedNonce) := by
  have new (t : MultihopTables) (h : Upto attempt done t) := m.newTransaction_follows role contract function value
    recordNonce evidence preallocatedNonce h hnext
  refine stage_follows h fun v t h hi hrow => ?_
  cases v with
  | none => exact new t h
  | some row =>
    obtain ⟨hid, rfl, hmem⟩ := hrow row rfl
    dsimp only
    split
    · exact .done (h.recorded hi hnext hmem)
    · split
      · exact m.resumeTransaction_follows row _ role h hid hnext
      · split
        · exact .fail t _
        · exact new t h

omit [Unicode] [Digests] [Keccak] [MultihopLibraries] in
theorem rootNonces_follows (h : Upto attempt done s) :
    Follows (fun _ t => Upto attempt done t) s (rootNonces attempt.attemptID) := by
  refine stage_follows h fun v t h _ _ => ?_
  cases v with
  | none => exact call_follows h id fun _ _ h => .done h
  | some row => exact .ofExcept_bind fun _ _ => .done h

theorem root_follows (payload : Bytes) (receiverAddress : String) (h : Upto attempt [] s)
    (hnext : [Stage.root.name] <+: coordinatorPlan attempt.route) :
    Follows (fun _ t => Upto attempt [Stage.root.name] t) s (m.root attempt payload receiverAddress) := by
  refine (rootNonces_follows h).bind fun nonces t h => .ofExcept_bind fun _ _ => .ofExcept_bind fun _ _ => ?_
  refine (m.transact_follows _ _ _ _ _ _ _ h hnext).bind fun _ t h => stage_follows h fun v t h _ _ => ?_
  split
  · exact call_follows h id fun _ _ h => call_follows h id fun _ _ h => .done h
  · exact .fail t _

omit [Unicode] [Keccak] in
theorem hyperlaneMessageID_follows [Unicode] (result : StageDetail) (h : Upto attempt done s) :
    Follows (fun _ t => Upto attempt done t) s (hyperlaneMessageID result) :=
  .ofExcept_bind fun _ _ => call_follows h id fun _ _ h => .ofExcept_bind fun _ _ => .done h

omit [Unicode] [Keccak] in
theorem layerzeroGuid_follows [Unicode] (result : StageDetail) (h : Upto attempt done s) :
    Follows (fun _ t => Upto attempt done t) s (layerzeroGuid result) :=
  .ofExcept_bind fun _ _ => call_follows h id fun _ _ h => .ofExcept_bind fun _ _ => .ofExcept fun _ _ => h

omit [Keccak] in
/-- A dispatch that has succeeded is recorded again with the id of its message. -/
theorem completedDispatch_follows (row : NativeStageRow) (protocol : Char)
    (hid : row.attemptID = attempt.attemptID) (hnext : done ++ [row.stage] <+: coordinatorPlan attempt.route)
    (h : Upto attempt (done ++ [row.stage]) s) :
    Follows (fun _ t => Upto attempt (done ++ [row.stage]) t) s (completedDispatch row protocol) := by
  rw [completedDispatch]
  split
  · refine .ofExcept_bind fun evidence _ => ?_
    have rest (messageID : String) (t : MultihopTables) (h : Upto attempt (done ++ [row.stage]) t) :
        Follows (fun _ t => Upto attempt (done ++ [row.stage]) t) t (do
          MultihopOp.call (.recordStage { row with
            state := .succeeded, detail := { row.detail with nativeMessageID := some messageID } })
          Prog.ofExcept (orRevert .keyError row.detail.evidence)) :=
      record_follows ⟨_, _, _, _, _⟩ (h.mono (List.prefix_append _ _)) hid hnext fun _ h => .ofExcept fun _ _ => h
    split
    · exact rest _ s h
    · exact (hyperlaneMessageID_follows _ h).bind fun _ t h => rest _ t h
  · exact .ofExcept fun _ _ => h

omit [Keccak] in
theorem sendDispatch_follows (hopIndex : Nat) (protocol : Char) (sourceRole : Nat)
    (currentProfile currentTransition : Bytes) (priorReceipts : List XIRReceipt) (h : Upto attempt done s)
    (hnext : done ++ [stage] <+: coordinatorPlan attempt.route) :
    Follows (fun _ t => Upto attempt (done ++ [stage]) t) s
      (m.sendDispatch attempt hopIndex protocol sourceRole stage currentProfile currentTransition priorReceipts) := by
  refine .ofExcept_bind fun _ _ => .ofExcept_bind fun _ _ => .ofExcept_bind fun _ _ => ?_
  split
  · refine call_follows h id fun _ _ h => (m.transact_follows _ _ _ _ _ _ _ h hnext).bind fun _ _ h => ?_
    exact (layerzeroGuid_follows _ h).bind fun _ _ h => .done h
  · split
    · refine call_follows h id fun _ _ h => (m.transact_follows _ _ _ _ _ _ _ h hnext).bind fun _ _ h => ?_
      exact (hyperlaneMessageID_follows _ h).bind fun _ _ h => .done h
    · exact .fail s _

omit [Keccak] in
theorem sendHop_follows (hopIndex : Nat) (protocol : Char) (sourceRole : Nat)
    (currentProfile currentTransition : Bytes) (priorReceipts : List XIRReceipt) (h : Upto attempt done s)
    (hnext : done ++ [stage] <+: coordinatorPlan attempt.route) :
    Follows (fun _ t => Upto attempt (done ++ [stage]) t) s
      (m.sendHop attempt hopIndex protocol sourceRole stage currentProfile currentTransition priorReceipts) := by
  refine (m.sendDispatch_follows hopIndex protocol sourceRole currentProfile currentTransition priorReceipts
    h hnext).bind
    fun sent t h => stage_follows h fun current t h _ _ => ?_
  exact record_follows ⟨_, _, _, _, _⟩ (h.mono (List.prefix_append _ _)) rfl hnext fun _ h => .done h

omit [Keccak] in
theorem dispatchHop_follows (hopIndex : Nat) (p : Protocol) (sourceRole : Nat)
    (currentProfile currentTransition : Bytes) (priorReceipts : List XIRReceipt) (h : Upto attempt done s)
    (hnext : done ++ [(Stage.dispatch hopIndex p).name] <+: coordinatorPlan attempt.route) :
    Follows (fun _ t => Upto attempt (done ++ [(Stage.dispatch hopIndex p).name]) t) s
      (m.dispatchHop attempt hopIndex p.letter sourceRole currentProfile currentTransition priorReceipts) := by
  rw [← MultihopScalability.dispatchStage_letter] at hnext ⊢
  have send (t : MultihopTables) (h : Upto attempt done t) :=
    m.sendHop_follows hopIndex p.letter sourceRole currentProfile currentTransition priorReceipts h hnext
  refine stage_follows h fun v t h hi hrow => ?_
  cases v with
  | none => exact send t h
  | some row =>
    obtain ⟨hid, hstage, hmem⟩ := hrow row rfl
    dsimp only
    split
    · have hc := completedDispatch_follows row p.letter hid (hstage ▸ hnext) (hstage ▸ h.recorded hi hnext hmem)
      rwa [hstage] at hc
    · exact send t h

theorem hop_follows (payload : Bytes) (root : PyRoot) (index : Nat) (c : Char) (receipts : List XIRReceipt)
    (hc : c ∈ attempt.route) (h : Upto attempt done s) (hnext : done ++ namesOf false
      (CampaignRunner.turn (index + 1) (protocolOf c) (attempt.route[index + 1]?.map protocolOf)) <+:
        coordinatorPlan attempt.route) :
    Follows (fun _ t => Upto attempt (done ++ namesOf false
      (CampaignRunner.turn (index + 1) (protocolOf c) (attempt.route[index + 1]?.map protocolOf))) t) s
      (m.hop attempt payload root (index + 1) c receipts) := by
  refine .ofExcept_bind fun sourceRole _ => .ofExcept_bind fun _ _ => .ofExcept_bind fun profile hprofile =>
    .ofExcept_bind fun transition _ => ?_
  have hletters := letters_of_profile hprofile
  have hcl := letter_protocolOf (hletters c hc)
  rw [names_turn] at hnext ⊢
  have hsend := m.dispatchHop_follows (index + 1) (protocolOf c) sourceRole profile transition receipts h
    ((List.prefix_append _ _).trans hnext)
  rw [hcl] at hsend
  refine hsend.bind fun evidence _ h => ?_
  refine call_follows h id fun _ _ h => .ofExcept_bind fun _ _ => ?_
  dsimp only
  split
  · next hif =>
    obtain ⟨d, hd⟩ : ∃ d, attempt.route[index + 1]? = some d := ⟨_, List.getElem?_eq_getElem hif.1⟩
    have hne : protocolOf c ≠ protocolOf d := by
      intro he
      have hdl := letter_protocolOf (hletters d (List.mem_of_getElem? hd))
      exact hif.2 (hd.trans (congrArg some (hdl.symm.trans (he ▸ hcl))))
    have hafter : namesOf false (CampaignRunner.transitionAfter (index + 1) (protocolOf c)
        (attempt.route[index + 1]?.map protocolOf)) = [MultihopScalability.transitionStage (index + 2)] := by
      rw [hd, Option.map_some, CampaignRunner.transitionAfter, switchTo, if_neg hne]
      rfl
    rw [hafter] at hnext ⊢
    refine .ofExcept_bind fun _ _ => .ofExcept_bind fun _ _ => ?_
    exact (m.transact_follows _ _ _ _ _ _ _ h hnext).bind fun _ _ h => .done h
  · next hif =>
    have hafter : CampaignRunner.transitionAfter (index + 1) (protocolOf c)
        (attempt.route[index + 1]?.map protocolOf) = [] := by
      cases hd : attempt.route[index + 1]? with
      | none => rfl
      | some d =>
        have hlt : index + 1 < attempt.route.length := (List.getElem?_eq_some_iff.mp hd).1
        rw [Option.map_some, CampaignRunner.transitionAfter, switchTo, if_pos]
        by_contra hne
        exact hif ⟨hlt, fun he => hne (congrArg protocolOf (Option.some.inj (hd ▸ he)).symm)⟩
    rw [hafter]
    exact .done (by simpa [namesOf] using h)

/-- The loop over the hops that are left. -/
theorem hops_follows (payload : Bytes) (root : PyRoot) (index : Nat) (route : PyRoute) (receipts : List XIRReceipt)
    (h : Upto attempt done s) (hroute : attempt.route.drop index = route)
    (hnext : done ++ namesOf false (walk (index + 1) (route.map protocolOf)) <+: coordinatorPlan attempt.route) :
    Follows (fun _ t => Upto attempt (done ++ namesOf false (walk (index + 1) (route.map protocolOf))) t) s
      (m.hops attempt payload root (index + 1) route receipts) := by
  induction route generalizing index done s receipts with
  | nil => exact .done (by simpa [walk, namesOf] using h)
  | cons c route ih =>
    have hhead : attempt.route[index + 1]?.map protocolOf = (route.map protocolOf).head? := by
      rw [← List.getElem?_drop (i := index) (j := 1), hroute, List.head?_map, List.head?_eq_getElem?]
      rfl
    have hc : c ∈ attempt.route := List.mem_of_mem_drop (hroute ▸ List.mem_cons_self)
    rw [List.map_cons, CampaignRunner.walk_cons, namesOf_append, ← List.append_assoc, ← hhead] at hnext ⊢
    refine (m.hop_follows payload root index c receipts hc h
      ((List.prefix_append _ _).trans hnext)).bind fun w t h => ?_
    refine ih (index + 1) w h ?_ hnext
    rw [← List.drop_drop, hroute]
    rfl

theorem deliver_follows (payload : Bytes) (root : PyRoot) (receiverAddress : String) (receipts : List XIRReceipt)
    (h : Upto attempt done s) (hnext : done ++ [Stage.deliver.name] <+: coordinatorPlan attempt.route) :
    Follows (fun _ t => Upto attempt (done ++ [Stage.deliver.name]) t) s
      (m.deliver attempt payload root receiverAddress receipts) := by
  refine .ofExcept_bind fun _ _ => (m.transact_follows _ _ _ _ _ _ _ h hnext).bind fun _ _ h => ?_
  refine .ofExcept_bind fun _ _ => call_follows h id fun _ _ h => .ofExcept_bind fun _ _ => ?_
  refine .ofExcept_bind fun _ _ => .ofExcept_bind fun _ _ => call_follows h id fun _ _ h => ?_
  refine .ofExcept_bind fun _ _ => .ofExcept_bind fun _ _ => .ofExcept_bind fun _ _ => .ofExcept_bind fun _ _ => ?_
  refine stage_follows h fun v t h _ _ => ?_
  split
  · exact call_last (o := .recordEvent ..) h id
  · exact .fail t _

/-- An attempt of any route. -/
theorem runAttempt_follows (h : Upto attempt [] s) :
    Follows (fun _ t => Upto attempt (coordinatorPlan attempt.route) t) s (m.runAttempt attempt) := by
  have hplan : [Stage.root.name] ++ namesOf false (walk 1 (attempt.route.map protocolOf)) ++ [Stage.deliver.name] =
      coordinatorPlan attempt.route := by
    rw [coordinatorPlan, planOf]
    cases attempt.route with
    | nil => rfl
    | cons c route =>
      rw [stagesOf_eq_walk (by simp)]
      simp [namesOf, Stage.Coordinated]
  have hdeliver : [Stage.root.name] ++ namesOf false (walk 1 (attempt.route.map protocolOf)) ++ [Stage.deliver.name] <+:
      coordinatorPlan attempt.route := hplan ▸ List.prefix_rfl
  have hwalk := (List.prefix_append _ _).trans hdeliver
  refine .ofExcept_bind fun payload _ => .ofExcept_bind fun _ _ => .ofExcept_bind fun receiverAddress _ => ?_
  refine (m.root_follows payload receiverAddress h ((List.prefix_append _ _).trans hwalk)).bind fun root t h => ?_
  refine (m.hops_follows payload root 0 attempt.route [] h rfl hwalk).bind fun receipts t h => ?_
  exact (m.deliver_follows payload root receiverAddress receipts h hdeliver).weaken fun _ _ h => hplan ▸ h

theorem runIfNeeded_follows (attempt : MultihopAttempt) (s : MultihopTables) :
    Follows (fun _ _ => True) s (m.runIfNeeded attempt) := by
  refine .call_bind (fun _ _ _ => nodup_planOf _ _) fun t needed u _ _ hst _ => ?_
  have hbegun : Upto attempt [] u := by
    refine ⟨?_, List.nil_prefix⟩
    cases hst with
    | answer he =>
      cases he with
      | begin hb => exact begun_of_begin hb
      | other _ hop => exact absurd trivial hop
  split
  · refine (m.runAttempt_follows hbegun).bind fun _ t h => ?_
    exact (planSystem.finish_last (i := .finish attempt.attemptID) h rfl).weaken fun _ _ _ => trivial
  · exact .done trivial

end MultihopRunner

/-- In a run of attempts, those that have succeeded have recorded the coordinator's part of their plans. -/
theorem MultihopTables.stages_of_run [Unicode] [Digests] [Keccak] [MultihopLibraries] {τ : Type} [DecidableEq τ]
    (m : MultihopRunner)
    {s : Threads τ MultihopTables MultihopOp (fun op => Except NativeError op.Answer) NativeError Unit}
      {es : List (Threads.Event τ MultihopAttempt MultihopOp)}
    (run : Run (Threads.Step (fun op => MultihopStep op) m.runIfNeeded) ⟨.empty, fun _ => pure ()⟩ es s)
    {row : NativeAttemptRow} (hrow : row ∈ s.shared.attempts) (hsucceeded : row.succeeded = true) :
    s.shared.stagesOf row.attempt.attemptID = coordinatorPlan row.attempt.route := by
  have h := planSystem.run (fun s a => m.runIfNeeded_follows a s) run .empty fun _ => ⟨(), rfl⟩
  rw [← stages_log]
  exact h.finished _ (List.mem_map.mpr ⟨row, hrow, rfl⟩) hsucceeded

/-! ## Both runners -/

/-- The stages that a coordinator sends transactions for. -/
def CoordinatorStage (stage : String) : Prop :=
  stage = "root_create" ∨ stage = "destination_verify_deliver" ∨
    ∃ i, stage = MultihopScalability.transitionStage i ∨
      ∃ p : Protocol, stage = MultihopScalability.dispatchStage i p.letter

theorem coordinatorStage_name (s : Stage) : CoordinatorStage s.name ↔ s.Coordinated = true := by
  constructor
  · rintro (h | h | ⟨i, h | ⟨p, h⟩⟩)
    · obtain rfl : s = .root := Stage.name_injective h
      rfl
    · obtain rfl : s = .deliver := Stage.name_injective h
      rfl
    · obtain rfl : s = .transition i := Stage.name_injective h
      rfl
    · rw [MultihopScalability.dispatchStage_letter] at h
      obtain rfl := Stage.name_injective h
      rfl
  · intro h
    cases s with
    | root => exact .inl rfl
    | deliver => exact .inr (.inl rfl)
    | transition i => exact .inr (.inr ⟨i, .inl rfl⟩)
    | dispatch i p => exact .inr (.inr ⟨i, .inr ⟨p, (MultihopScalability.dispatchStage_letter i p).symm⟩⟩)
    | process | dvnExecute | commitVerification | executorExecute => cases h

theorem protocolsOf_letters (route : Route) : (letters route).map protocolOf = route := by
  simp [letters, Function.comp_def, protocolOf_letter]

/-- A change of the protocol, in the characters of a route. -/
theorem transition_letters {route : Route} {i : Nat} :
    (2 ≤ i ∧ ∃ a b, route[i - 2]? = some a ∧ route[i - 1]? = some b ∧ a ≠ b) ↔
      2 ≤ i ∧ i ≤ (letters route).length ∧ (letters route)[i - 2]? ≠ (letters route)[i - 1]? := by
  have hlen : (letters route).length = route.length := List.length_map ..
  have hget (k : Nat) : (letters route)[k]? = route[k]?.map Protocol.letter := List.getElem?_map
  rw [hlen, hget, hget]
  refine and_congr_right fun hi => ⟨?_, fun ⟨hle, hne⟩ => ?_⟩
  · rintro ⟨a, b, ha, hb, hne⟩
    have hlt : i - 1 < route.length := (List.getElem?_eq_some_iff.mp hb).1
    rw [ha, hb]
    exact ⟨by omega, fun he => hne (MultihopScalability.letter_injective (Option.some.inj he))⟩
  · have ha := List.getElem?_eq_getElem (l := route) (i := i - 2) (by omega)
    have hb := List.getElem?_eq_getElem (l := route) (i := i - 1) (by omega)
    refine ⟨_, _, ha, hb, fun he => hne ?_⟩
    rw [ha, hb, he]

/-- The coordinator's part of a plan. -/
theorem coordinatorPlan_letters (route : Route) :
    (coordinatorPlan (letters route)).Sublist ((stagesOf route).map Stage.name) ∧
      ∀ stage ∈ (stagesOf route).map Stage.name, stage ∈ coordinatorPlan (letters route) ↔ CoordinatorStage stage := by
  rw [coordinatorPlan, protocolsOf_letters, planOf, namesOf]
  refine ⟨List.filter_sublist.map _, fun stage hs => ?_⟩
  obtain ⟨x, hx, rfl⟩ := List.mem_map.mp hs
  rw [coordinatorStage_name, List.mem_map_of_injective Stage.name_injective]
  simp [hx]

/-- The plan of a route, and the stages that the runners record of attempts that succeed. -/
theorem stage_plans_agree [Keccak] [DeliveryEncoders] [Unicode] [Digests] [MultihopLibraries] :
    (∀ route : PyRoute, route ≠ [] → (∀ c ∈ route, c = 'H' ∨ c = 'L') →
      ∃ plan switches, MultihopScalability.expectedStageSequence route = .ok plan ∧
        MultihopScalability.switchCount route = .ok switches ∧ plan.Nodup ∧
        (∀ i, MultihopScalability.transitionStage i ∈ plan ↔
          2 ≤ i ∧ i ≤ route.length ∧ route[i - 2]? ≠ route[i - 1]?) ∧
        plan.length = route.length + switches + 2 + route.count 'H' + 3 * route.count 'L') ∧
    (∀ (τ : Type) (_ : DecidableEq τ) (r : CampaignRunner)
        (s : Threads τ RunnerLedger RunnerOp (fun op => Except GoError op.Answer) GoError Unit)
        (es : List (Threads.Event τ CampaignAttempt RunnerOp)), r.embeddedAgents = true →
      Run (Threads.Step (fun op => RunnerStep op) r.runAttempt) ⟨.empty, fun _ => pure ()⟩ es s →
      ∀ row ∈ s.shared.attempts, row.succeeded = true → row.attempt.route ≠ [] →
        MultihopScalability.expectedStageSequence (letters row.attempt.route) =
          .ok (s.shared.stages row.attempt.attemptID)) ∧
    (∀ (τ : Type) (_ : DecidableEq τ) (m : MultihopRunner)
        (s : Threads τ MultihopTables MultihopOp (fun op => Except NativeError op.Answer) NativeError Unit)
        (es : List (Threads.Event τ MultihopAttempt MultihopOp)),
      Run (Threads.Step (fun op => MultihopStep op) m.runIfNeeded) ⟨.empty, fun _ => pure ()⟩ es s →
      ∀ row ∈ s.shared.attempts, row.succeeded = true → row.attempt.route ≠ [] →
        (∀ c ∈ row.attempt.route, c = 'H' ∨ c = 'L') →
        ∃ plan, MultihopScalability.expectedStageSequence row.attempt.route = .ok plan ∧
          (s.shared.stagesOf row.attempt.attemptID).Sublist plan ∧
          ∀ stage ∈ plan, stage ∈ s.shared.stagesOf row.attempt.attemptID ↔ CoordinatorStage stage) := by
  refine ⟨fun route hne hroute => ?_, fun τ _ r s es hr run row hrow hs hne => ?_,
    fun τ _ m s es run row hrow hs hne hroute => ?_⟩
  · obtain ⟨route, rfl⟩ := MultihopScalability.exists_letters hroute
    have hne' : route ≠ [] := fun he => hne (congrArg letters he)
    have hplan := MultihopScalability.expectedStageSequence_letters hne'
    refine ⟨_, _, hplan, MultihopScalability.switchCount_letters hne', ?_, fun i => ?_, ?_⟩
    · exact (nodup_stagesOf route).map Stage.name_injective
    · show (Stage.transition i).name ∈ _ ↔ _
      rw [List.mem_map_of_injective Stage.name_injective, transition_mem_stagesOf, transition_letters]
    · exact MultihopScalability.length_names route
  · rw [RunnerLedger.stages_of_run r run hrow hs, MultihopScalability.expectedStageSequence_letters hne, hr,
      planOf, namesOf]
    simp
  · obtain ⟨route, hletters⟩ := MultihopScalability.exists_letters hroute
    rw [hletters] at hne ⊢
    have hne' : route ≠ [] := fun he => hne (congrArg letters he)
    refine ⟨_, MultihopScalability.expectedStageSequence_letters hne', ?_⟩
    rw [MultihopTables.stages_of_run m run hrow hs, hletters]
    exact coordinatorPlan_letters route

/-! ## An attempt of two hops -/

namespace StageLab

@[reducible] def noHash : Keccak := ⟨fun _ => 0⟩

@[reducible] def encoders : DeliveryEncoders := ⟨fun _ _ _ => .ok [], fun _ => .ok [], fun _ => .ok []⟩

def runner : CampaignRunner where
  deployment := Deployment.lab
  options := []
  embeddedAgents := true
  faultAfterStage := ""
  policyLabel := ""
  gateway _ := .single 8
  receiver _ := .single 9
  transitionRecorder _ := .single 10
  applicationPayload _ := .ok []

def attempt : CampaignAttempt := ⟨⟨"attempt", [.H, .L], 1⟩, "pilot", 1, ""⟩

def packet : LayerZero.Packet :=
  ⟨[], [], 1, 1, 1, Vector.replicate 32 0, 2, Vector.replicate 32 0, Vector.replicate 32 0, [], Vector.replicate 32 0⟩

/-- Everything that a runner asks succeeds. -/
def answer : (op : RunnerOp) → RunnerLedger → Except GoError op.Answer × RunnerLedger
  | .beginAttempt attempt, s =>
    if ∀ r ∈ s.attempts, r.attempt.attemptID ≠ attempt.attemptID then
      (.ok true, { s with attempts := s.attempts ++ [⟨attempt, false⟩] })
    else (.error (.errorf ""), s)
  | .finishAttempt attemptID, s => (.ok (), s.finish attemptID)
  | .execute request, s => (.ok "", s.record request)
  | .rootNonce _, s => (.ok 0, s)
  | .rootIntent _, s | .consumedAttempts .., s => (.ok true, s)
  | .signPersonalDigest _, s => (.ok [], s)
  | .dispatchFee .., s => (.ok 0, s)
  | .processEvents _, s => (.ok 1, s)
  | .evidenceForwarded _, s | .hyperlaneDispatched _, s | .transitionRecorded _, s => (.ok [0], s)
  | .collectDelivery .., s => (.ok [], s)
  | .readPacket .., s => (.ok packet, s)
  | .hyperlanePlan .., s => (.ok ⟨.single 1, []⟩, s)
  | .deliveryTargets _, s => (.ok ⟨.single 1, .single 2, .single 3⟩, s)
  | .expiration .., s => (.ok 0, s)
  | .effectApplied _, s => (.ok [(0, 0, 1)], s)
  | .recordStage .., s | .recordEvent .., s | .verifyRootCreation .., s | .verifyStageTopic .., s
  | .awaitVerified .., s =>
    (.ok (), s)

theorem answer_step (op : RunnerOp) (s : RunnerLedger) : RunnerStep op s (answer op s).1 (answer op s).2 := by
  cases op with
  | beginAttempt attempt =>
    rw [answer]
    split
    · exact .answer (.beginNew ‹_›)
    · exact .fail _
  | finishAttempt attemptID => exact .answer .finish
  | execute request => exact .answer (.execute "")
  | _ => exact .answer (.other _ id)

@[reducible] def libraries : @MultihopLibraries Sample.lengthDigests :=
  let _ := Sample.lengthDigests
  { encodeFunction _ _ := []
    signTransaction _ := ([], "")
    fromBytes _ := .error ""
    recoverTransaction _ := .error ""
    bundleEvidence _ _ _ := []
    dispatchedTopic := ""
    forwardedTopic := ""
    effectTopic := ""
    topicBytes _ := .error .keyError
    topicNumber _ := .error .keyError }

def last : RunnerLedger := ((@CampaignRunner.runAttempt noHash encoders runner attempt).run answer .empty).2

theorem last_attempts : last.attempts.map (fun r => (r.attempt.attemptID, r.attempt.route, r.succeeded)) =
    [("attempt", [.H, .L], true)] := by decide +kernel

end StageLab

open StageLab in
/-- The attempt succeeds, and its actions are the plan of its route. -/
theorem stage_plans_agree_lab :
    MultihopScalability.expectedStageSequence "HL".toList = .ok (last.stages "attempt") := by
  let _ : Keccak := noHash
  let _ : DeliveryEncoders := encoders
  let _ : Unicode := asciiUnicode
  let _ : Digests := Sample.lengthDigests
  let _ : MultihopLibraries := libraries
  obtain ⟨es, progs, run, -⟩ : ∃ es progs', Run (Threads.Step (fun op => RunnerStep op) runner.runAttempt)
      ⟨.empty, Function.update (fun _ => pure ()) () (runner.runAttempt attempt)⟩ es ⟨last, progs'⟩ ∧
      ∀ j, j ≠ () → progs' j = _ :=
    Threads.run_prog answer_step () (runner.runAttempt attempt) .empty _ (Function.update_self ..)
  obtain ⟨row, hrow, he⟩ : ∃ row ∈ last.attempts, (row.attempt.attemptID, row.attempt.route, row.succeeded) =
      ("attempt", [.H, .L], true) :=
    List.mem_map.mp (last_attempts ▸ List.mem_singleton_self _)
  obtain ⟨hid, hroute, hs⟩ :
      row.attempt.attemptID = "attempt" ∧ row.attempt.route = [.H, .L] ∧ row.succeeded = true := by
    simpa using he
  have h := stage_plans_agree.2.1 Unit inferInstance runner _ _ rfl (.cons .start run) row hrow hs (by simp [hroute])
  rw [hid, hroute] at h
  exact h

end Xir.Impl.XirLab
