import Xir.Framework.Plans
import Xir.Impl.GoRuntime.RunAttempt
import Xir.Proof.Stages

/-!
# The actions of an attempt of the Go runner

The stages of an attempt's actions are always a prefix of its plan: an action is
requested when those of the stages before it are recorded, and is recorded once
(`RunnerLedger.InPlan`). An attempt that has succeeded has recorded all of its
plan.
-/

namespace Xir.Impl

/-! ## Plans -/

/-- The stages that the runner itself sends transactions for. -/
def Stage.Coordinated : Stage → Bool
  | root | transition _ | dispatch .. | deliver => true
  | process _ | dvnExecute _ | commitVerification _ | executorExecute _ => false

/-- The names of stages, with those of the carriers or without. -/
def namesOf (agents : Bool) (stages : List Stage) : List String :=
  (stages.filter fun s => agents || s.Coordinated).map Stage.name

theorem namesOf_append (agents : Bool) (l l' : List Stage) :
    namesOf agents (l ++ l') = namesOf agents l ++ namesOf agents l' := by
  simp [namesOf]

def planOf (agents : Bool) (route : Route) : List String := namesOf agents (stagesOf route)

theorem nodup_planOf (agents : Bool) (route : Route) : (planOf agents route).Nodup :=
  ((nodup_stagesOf route).filter _).map Stage.name_injective

theorem colon_notMem_name (s : Stage) : ':' ∉ s.name.toList := by
  have hdigits (i : Nat) : ':' ∉ Nat.toDigits 10 i := fun h =>
    absurd (Nat.isDigit_of_mem_toDigits (by decide) (by decide) h) (by decide)
  cases h : s.hop with
  | none => cases s <;> cases h <;> decide
  | some i =>
    rw [Stage.toList_name h]
    simp only [List.mem_append, not_or]
    refine ⟨by decide, hdigits i, ?_⟩
    cases s with
    | dispatch _ p => cases p <;> simp [Stage.suffix]
    | root | deliver => cases h
    | _ => simp [Stage.suffix]

/-- A text is known by what it is before a last colon, and after it. -/
theorem append_colon_inj {a b s t : String} (hs : ':' ∉ s.toList) (ht : ':' ∉ t.toList)
    (h : a ++ ":" ++ s = b ++ ":" ++ t) : a = b ∧ s = t := by
  have hl : s.toList.reverse ++ ':' :: a.toList.reverse = t.toList.reverse ++ ':' :: b.toList.reverse := by
    have := congrArg (fun x => x.toList.reverse) h
    simpa using this
  have hne {x : String} (hx : ':' ∉ x.toList) : ∀ c ∈ x.toList.reverse, decide (c ≠ ':') = true := fun c hc =>
    decide_eq_true fun he => hx (he ▸ List.mem_reverse.mp hc)
  have htake := congrArg (List.takeWhile fun c => decide (c ≠ ':')) hl
  rw [List.takeWhile_append_of_pos (hne hs), List.takeWhile_append_of_pos (hne ht)] at htake
  have hst : s.toList.reverse = t.toList.reverse := by simpa using htake
  rw [hst] at hl
  have hab := (List.cons.inj (List.append_cancel_left hl)).2
  exact ⟨String.toList_inj.mp (List.reverse_injective hab), String.toList_inj.mp (List.reverse_injective hst)⟩

/-! ## The ledger -/

namespace RunnerLedger

variable {agents : Bool} {s t : RunnerLedger}

/-- The attempts with their plans, and the stages of their actions. -/
def log (agents : Bool) (s : RunnerLedger) : PlanLog String String :=
  ⟨s.attempts.map fun r => ⟨r.attempt.attemptID, planOf agents r.attempt.route, r.succeeded⟩,
    s.actions.map fun a => (a.attemptID, a.stage)⟩

@[simp] theorem stages_log (s : RunnerLedger) (attemptID : String) :
    (s.log agents).stages attemptID = s.stages attemptID := by
  simp [log, PlanLog.stages, RunnerLedger.stages, List.filter_map, Function.comp_def]

/-- The actions follow the plans, and are known by their attempt and their stage. -/
structure InPlan (agents : Bool) (s : RunnerLedger) : Prop where
  inPlan : (s.log agents).InPlan
  keys : ∀ a ∈ s.actions, a.actionID = a.attemptID ++ ":" ++ a.stage ∧ ':' ∉ a.stage.toList

theorem InPlan.empty : InPlan agents .empty := ⟨.empty, fun _ h => absurd h List.not_mem_nil⟩

end RunnerLedger

/-- What an operation records. -/
def RunnerOp.act (agents : Bool) : RunnerOp → PlanLog.Act String String
  | beginAttempt attempt => .begin attempt.attemptID (planOf agents attempt.route)
  | finishAttempt attemptID => .finish attemptID
  | execute request => .record request.attemptID request.stage
  | _ => .quiet

theorem RunnerOp.act_quiet {op : RunnerOp} (agents : Bool) (h : ¬ op.Writes) : op.act agents = .quiet := by
  cases op with
  | beginAttempt | finishAttempt | execute => exact absurd trivial h
  | _ => rfl

namespace RunnerLedger

variable {agents : Bool} {s t : RunnerLedger}

/-- A stage of a plan has no colon. -/
theorem colon_of_needs {request : RunnerRequest}
    (needs : ((RunnerOp.execute request).act agents).Needs (s.log agents)) :
    ':' ∉ request.stage.toList := by
  obtain ⟨a, ha, -, k, hk, -⟩ := needs
  obtain ⟨r, -, rfl⟩ := List.mem_map.mp ha
  obtain ⟨x, -, hx⟩ := List.mem_map.mp (List.mem_of_getElem? hk)
  rw [← hx]
  exact colon_notMem_name x

/-- There is an action of a request just when its stage is recorded. -/
theorem InPlan.recorded (h : InPlan agents s) {request : RunnerRequest} (hc : ':' ∉ request.stage.toList) :
    (∃ a ∈ s.actions, a.actionID = request.actionID) ↔ (request.attemptID, request.stage) ∈ (s.log agents).entries := by
  rw [log, List.mem_map]
  constructor
  · rintro ⟨a, ha, he⟩
    obtain ⟨hkey, hcolon⟩ := h.keys a ha
    obtain ⟨h₁, h₂⟩ := append_colon_inj hcolon hc (hkey.symm.trans he)
    exact ⟨a, ha, by rw [h₁, h₂]⟩
  · rintro ⟨a, ha, he⟩
    obtain ⟨h₁, h₂⟩ := Prod.mk.inj he
    refine ⟨a, ha, ?_⟩
    rw [(h.keys a ha).1, h₁, h₂]
    rfl

/-- An operation does its act on the log. -/
theorem InPlan.effect {op : RunnerOp} {v : op.Answer} (h : InPlan agents s) (he : RunnerEffect s op v t)
    (needs : (op.act agents).Needs (s.log agents)) : t.log agents = (op.act agents).apply (s.log agents) := by
  cases he with
  | beginNew hnew =>
    rw [RunnerOp.act, PlanLog.Act.apply, if_neg]
    · simp [log]
    · rintro ⟨a, ha, hid⟩
      obtain ⟨r, hr, rfl⟩ := List.mem_map.mp ha
      exact hnew r hr hid
  | beginAgain hr hid hplan =>
    rw [RunnerOp.act, PlanLog.Act.apply, if_pos]
    exact ⟨_, List.mem_map.mpr ⟨_, hr, rfl⟩, hid⟩
  | finish =>
    simp only [RunnerOp.act, PlanLog.Act.apply, PlanLog.finish, log, finish, List.map_map, PlanLog.mk.injEq, and_true]
    refine List.map_congr_left fun r _ => ?_
    simp only [Function.comp_apply]
    split <;> rfl
  | execute =>
    have hiff := h.recorded (colon_of_needs needs)
    rw [RunnerLedger.record, RunnerOp.act, PlanLog.Act.apply]
    split
    · rw [if_pos (hiff.mp ‹_›)]
    · rw [if_neg fun hc => absurd (hiff.mpr hc) ‹_›]
      simp [log]
  | other _ hop => rw [RunnerOp.act_quiet agents hop, PlanLog.Act.apply]

theorem InPlan.keys_effect {op : RunnerOp} {v : op.Answer} (h : InPlan agents s) (he : RunnerEffect s op v t)
    (needs : (op.act agents).Needs (s.log agents)) :
    ∀ a ∈ t.actions, a.actionID = a.attemptID ++ ":" ++ a.stage ∧ ':' ∉ a.stage.toList := by
  cases he with
  | execute =>
    intro a ha
    rw [RunnerLedger.record] at ha
    split at ha
    · exact h.keys a ha
    · rcases List.mem_append.mp ha with ha | ha
      · exact h.keys a ha
      · rw [List.mem_singleton.mp ha]
        exact ⟨rfl, colon_of_needs needs⟩
  | beginNew | beginAgain | finish | other => exact h.keys

theorem planSystem (agents : Bool) :
    PlanSystem (fun op => RunnerStep op) (InPlan agents) (log agents) (RunnerOp.act agents) where
  inPlan h := h.inPlan
  does hs h needs := by
    cases hs with
    | answer he => exact h.effect he needs
  keeps hs h needs := by
    cases hs with
    | answer he | failAfter _ he =>
      have hlog := h.effect he needs
      exact ⟨⟨hlog ▸ h.inPlan.apply needs, h.keys_effect he needs⟩, hlog ▸ PlanLog.later_apply _ _⟩
    | fail => exact ⟨h, .refl _⟩

end RunnerLedger

/-! ## Programs -/

namespace CampaignRunner

open RunnerLedger

abbrev Follows (agents : Bool) {α : Type} (Q : α → RunnerLedger → Prop) (s : RunnerLedger) (p : RunnerProg α) : Prop :=
  PlanSystem.Follows (fun op => RunnerStep op) (InPlan agents) (log agents) (RunnerOp.act agents) Q s p

/-- The attempt is begun, and these stages of it are recorded. -/
abbrev Upto (agents : Bool) (attempt : CampaignAttempt) (done : List String) (s : RunnerLedger) : Prop :=
  (s.log agents).Upto attempt.attemptID (planOf agents attempt.route) done

variable {agents : Bool} {attempt : CampaignAttempt} {done : List String} {s : RunnerLedger} {α : Type}
  {Q : α → RunnerLedger → Prop}

/-- An operation that records nothing, and what follows it. -/
theorem ask_follows {op : RunnerOp} {f : op.Answer → RunnerProg α} (h : Upto agents attempt done s)
    (hop : ¬ op.Writes) (hf : ∀ v t, Upto agents attempt done t → Follows agents Q t (f v)) :
    Follows agents Q s (RunnerOp.ask op >>= f) :=
  (planSystem agents).quiet h (RunnerOp.act_quiet agents hop) hf

theorem ask_last {o : RunnerOp} (h : Upto agents attempt done s) (hop : ¬ o.Writes) :
    Follows agents (fun _ t => Upto agents attempt done t) s (RunnerOp.ask o) :=
  (planSystem agents).quiet_last h (RunnerOp.act_quiet agents hop)

/-- A request for the next stage of the plan, and what follows it. -/
theorem execute_follows {request : RunnerRequest} {f : String → RunnerProg α} (h : Upto agents attempt done s)
    (hid : request.attemptID = attempt.attemptID) (hnext : done ++ [request.stage] <+: planOf agents attempt.route)
    (hf : ∀ v t, Upto agents attempt (done ++ [request.stage]) t → Follows agents Q t (f v)) :
    Follows agents Q s (RunnerOp.ask (.execute request) >>= f) :=
  (planSystem agents).record h (congrArg (PlanLog.Act.record · request.stage) hid) hnext hf

theorem createRoot_follows [Keccak] [DeliveryEncoders] (r : CampaignRunner) (payload : Bytes)
    (h : Upto agents attempt [] s) (hnext : [Stage.root.name] <+: planOf agents attempt.route) :
    Follows agents (fun _ t => Upto agents attempt [Stage.root.name] t) s (r.createRoot attempt payload) := by
  refine .ofExcept_bind fun _ _ => .ofExcept_bind fun _ _ => .ofExcept_bind fun _ _ => ?_
  refine ask_follows h id fun _ _ h => .ofExcept_bind fun _ _ => ask_follows h id fun _ _ h => ?_
  refine execute_follows h rfl hnext fun _ _ h => ?_
  refine ask_follows h id fun _ _ h => ask_follows h id fun _ _ h => .ofExcept_bind fun _ _ => ?_
  exact ask_follows h id fun _ _ h => ask_follows h id fun _ _ h => .done h

theorem dispatchStage_eq (i : Nat) (p : Protocol) : dispatchStage i p = (Stage.dispatch i p).name := by
  cases p <;> simp only [dispatchStage, Stage.name, Stage.suffix, Protocol.letter, String.append_assoc] <;> rfl

theorem hyperlaneProcessStage_eq (i : Nat) : hyperlaneProcessStage i = (Stage.process i).name := rfl

theorem transitionStage_eq (i : Nat) : transitionStage i = (Stage.transition i).name := rfl

theorem layerZeroStages_eq (i : Nat) :
    ["dvn_execute", "commit_verification", "executor_execute"].map (layerZeroStage i) =
    (carrierStages i .L).map Stage.name := by
  simp only [List.map_cons, List.map_nil, carrierStages, layerZeroStage, Stage.name, Stage.suffix, String.append_assoc]
  rfl

theorem dispatch_follows [Keccak] (r : CampaignRunner) (request : HopRequest) (h : Upto agents attempt done s)
    (hnext : done ++ [(Stage.dispatch request.hopIndex request.protocol).name] <+: planOf agents attempt.route) :
    Follows agents
    (fun _ t => Upto agents attempt (done ++ [(Stage.dispatch request.hopIndex request.protocol).name]) t) s
      (r.dispatch attempt request) := by
  rw [← dispatchStage_eq] at hnext ⊢
  refine ask_follows h id fun _ _ h => execute_follows h rfl hnext fun _ _ h => ?_
  split <;> exact ask_follows h id fun _ _ h => .ofExcept_bind fun _ _ => ask_follows h id fun _ _ h => .done h

theorem deliverHyperlane_follows (request : HopRequest) (message : GoBytes) (h : Upto agents attempt done s)
    (hnext : done ++ [(Stage.process request.hopIndex).name] <+: planOf agents attempt.route) :
    Follows agents (fun _ t => Upto agents attempt (done ++ [(Stage.process request.hopIndex).name]) t) s
      (deliverHyperlane attempt request message) := by
  rw [← hyperlaneProcessStage_eq] at hnext ⊢
  refine ask_follows h id fun _ _ h => execute_follows h rfl hnext fun _ _ h => ?_
  exact ask_follows h id fun _ _ h => .ofExcept_bind fun _ _ => ask_last (o := .recordEvent ..) h id

/-- The loop over the actions of a delivery. -/
theorem deliverActions_follows (r : CampaignRunner) (request : HopRequest) (actions : List DeliveryAction)
    (h : Upto agents attempt done s) (hnext : done ++ actions.map (fun a => layerZeroStage request.hopIndex a.stage) <+:
      planOf agents attempt.route) :
    Follows agents
    (fun _ t => Upto agents attempt (done ++ actions.map fun a => layerZeroStage request.hopIndex a.stage) t) s
      (r.deliverActions attempt request actions) := by
  induction actions generalizing done s with
  | nil => exact .done (by simpa using h)
  | cons a actions ih =>
    have happ : done ++ (a :: actions).map (fun a => layerZeroStage request.hopIndex a.stage) =
        done ++ [layerZeroStage request.hopIndex a.stage] ++
          actions.map fun a => layerZeroStage request.hopIndex a.stage := by
      simp
    rw [happ] at hnext ⊢
    refine execute_follows h rfl ((List.prefix_append _ _).trans hnext) fun _ _ h => .ofExcept_bind fun _ _ => ?_
    exact ask_follows h id fun _ _ h => ask_follows h id fun _ _ h => ih h hnext

theorem deliverLayerZero_follows [DeliveryEncoders] (r : CampaignRunner) (request : HopRequest)
    (packet : LayerZero.Packet) (h : Upto agents attempt done s)
    (hnext : done ++ (carrierStages request.hopIndex .L).map Stage.name <+: planOf agents attempt.route) :
    Follows agents (fun _ t => Upto agents attempt (done ++ (carrierStages request.hopIndex .L).map Stage.name) t) s
      (r.deliverLayerZero attempt request packet) := by
  refine ask_follows h id fun _ _ h => ask_follows h id fun _ _ h => .ofExcept_bind fun actions hactions => ?_
  obtain ⟨dvnExecute, -, hactions⟩ := bind_eq_ok.mp (mapError_eq_ok.mp hactions)
  obtain ⟨commitVerification, -, hactions⟩ := bind_eq_ok.mp hactions
  obtain ⟨executorExecute, -, hactions⟩ := bind_eq_ok.mp hactions
  obtain rfl := pure_eq_ok.mp hactions
  rw [← layerZeroStages_eq] at hnext ⊢
  exact deliverActions_follows r request
    [⟨_, _, dvnExecute, _⟩, ⟨_, _, commitVerification, _⟩, ⟨_, _, executorExecute, _⟩]
    h hnext

theorem confirm_follows [DeliveryEncoders] (r : CampaignRunner) (request : HopRequest) (dispatched : DispatchResult)
    (h : Upto r.embeddedAgents attempt done s)
    (hnext : done ++ namesOf r.embeddedAgents (carrierStages request.hopIndex request.protocol) <+:
      planOf r.embeddedAgents attempt.route) :
    Follows r.embeddedAgents (fun _ t => Upto r.embeddedAgents attempt (done ++ namesOf r.embeddedAgents
      (carrierStages request.hopIndex request.protocol)) t) s (r.confirm attempt request dispatched) := by
  -- Without agents, nothing is recorded.
  have none (p : Protocol) (hr : ¬ r.embeddedAgents = true) :
      namesOf r.embeddedAgents (carrierStages request.hopIndex p) = [] := by
    rw [Bool.eq_false_of_not_eq_true hr]
    cases p <;> rfl
  have all (p : Protocol) (hr : r.embeddedAgents = true) :
      namesOf r.embeddedAgents (carrierStages request.hopIndex p) =
        (carrierStages request.hopIndex p).map Stage.name := by
    rw [hr]
    cases p <;> rfl
  rw [confirm]
  split
  · next hp _ =>
    rw [hp] at hnext ⊢
    split
    · next hr =>
      rw [all _ hr] at hnext ⊢
      exact (deliverHyperlane_follows request _ h hnext).bind fun _ _ h => ask_last (o := .awaitVerified ..) h id
    · next hr =>
      rw [none _ hr, List.append_nil]
      exact ask_last (o := .awaitVerified ..) h id
  · next hp _ =>
    rw [hp] at hnext ⊢
    split
    · next hr =>
      rw [all _ hr] at hnext ⊢
      exact (deliverLayerZero_follows r request _ h hnext).bind fun _ _ h => ask_last (o := .awaitVerified ..) h id
    · next hr =>
      rw [none _ hr, List.append_nil]
      exact ask_last (o := .awaitVerified ..) h id
  · exact .fail s _
  · exact .fail s _

theorem recordTransition_follows [Keccak] (r : CampaignRunner) (payload : Bytes) (root : Root) (receipts : List Receipt)
    (hopIndex : Nat) (h : Upto agents attempt done s)
    (hnext : done ++ [(Stage.transition (hopIndex + 1)).name] <+: planOf agents attempt.route) :
    Follows agents (fun _ t => Upto agents attempt (done ++ [(Stage.transition (hopIndex + 1)).name]) t) s
      (r.recordTransition attempt payload root receipts hopIndex) := by
  rw [← transitionStage_eq] at hnext ⊢
  refine .ofExcept_bind fun _ _ => execute_follows h rfl hnext fun _ _ h => .ofExcept_bind fun _ _ => ?_
  exact ask_follows h id fun _ _ h => .ofExcept_bind fun _ _ => .ofExcept fun _ _ => h

/-- The transition from a hop to the next. -/
def transitionAfter (hop : Nat) (p : Protocol) : Option Protocol → List Stage
  | none => []
  | some q => switchTo (hop + 1) (some p) q

/-- The stages of a turn of the loop. -/
def turn (hop : Nat) (p : Protocol) (next : Option Protocol) : List Stage :=
  .dispatch hop p :: carrierStages hop p ++ transitionAfter hop p next

theorem walk_cons (hop : Nat) (p : Protocol) (route : Route) :
    walk hop (p :: route) = turn hop p route.head? ++ walk (hop + 1) route := by
  cases route <;> simp [walk, turn, transitionAfter]

theorem walkHop_follows [Keccak] [DeliveryEncoders] (r : CampaignRunner) (payload : Bytes) (root : Root) (index : Nat)
    (p : Protocol) (w : WalkState) (h : Upto r.embeddedAgents attempt done s) (hnext : done ++
      namesOf r.embeddedAgents
        (turn (index + 1) p attempt.route[index + 1]?) <+: planOf r.embeddedAgents attempt.route) :
    Follows r.embeddedAgents (fun _ t => Upto r.embeddedAgents attempt (done ++
      namesOf r.embeddedAgents (turn (index + 1) p attempt.route[index + 1]?)) t) s
      (r.walkHop attempt payload root index p w) := by
  have hturn : done ++ namesOf r.embeddedAgents (turn (index + 1) p attempt.route[index + 1]?) =
      done ++ [(Stage.dispatch (index + 1) p).name] ++ namesOf r.embeddedAgents (carrierStages (index + 1) p) ++
        namesOf r.embeddedAgents (transitionAfter (index + 1) p attempt.route[index + 1]?) := by
    simp [turn, namesOf, Stage.Coordinated]
  rw [hturn] at hnext ⊢
  have hconfirm := (List.prefix_append _ _).trans hnext
  have hdispatch := (List.prefix_append _ _).trans hconfirm
  refine .ofExcept_bind fun hop hhop => ?_
  have hindex : hop.request.hopIndex = index + 1 := by
    obtain ⟨_, -, hhop⟩ := bind_eq_ok.mp hhop
    obtain ⟨_, -, hhop⟩ := bind_eq_ok.mp hhop
    obtain ⟨_, -, hhop⟩ := bind_eq_ok.mp hhop
    obtain ⟨_, -, hhop⟩ := bind_eq_ok.mp hhop
    rw [← pure_eq_ok.mp hhop]
  obtain ⟨⟨hopIndex, _, sourceRole, destinationRole, verifiers, priorReceipts, profile, transition⟩, _, _⟩ := hop
  obtain rfl : hopIndex = index + 1 := hindex
  refine (dispatch_follows r ⟨index + 1, p, sourceRole, destinationRole, verifiers, priorReceipts, profile,
    transition⟩ h
    hdispatch).bind fun dispatched t h => ?_
  refine ask_follows h id fun _ _ h => .ofExcept_bind fun _ _ => ?_
  refine (confirm_follows r ⟨index + 1, p, sourceRole, destinationRole, verifiers, priorReceipts, profile, transition⟩
    dispatched h hconfirm).bind fun _ _ h => .ofExcept_bind fun w _ => ?_
  dsimp only
  split
  · next hif =>
    have hafter : namesOf r.embeddedAgents (transitionAfter (index + 1) p attempt.route[index + 1]?) =
        [(Stage.transition (index + 2)).name] := by
      have hq := List.getElem?_eq_getElem hif.1
      have hne : p ≠ attempt.route[index + 1] := fun he => hif.2 (hq.trans (congrArg some he.symm))
      rw [hq, transitionAfter, switchTo, if_neg hne]
      simp [namesOf, Stage.Coordinated]
    rw [hafter] at hnext ⊢
    exact (recordTransition_follows r payload root w.receipts (index + 1) h hnext).bind fun _ _ h => .done h
  · next hif =>
    have hafter : transitionAfter (index + 1) p attempt.route[index + 1]? = [] := by
      cases hq : attempt.route[index + 1]? with
      | none => rfl
      | some q =>
        have hlt : index + 1 < attempt.route.length := (List.getElem?_eq_some_iff.mp hq).1
        rw [transitionAfter, switchTo, if_pos]
        by_contra hne
        exact hif ⟨hlt, fun he => hne (Option.some.inj (hq ▸ he)).symm⟩
    rw [hafter]
    exact .done (by simpa [namesOf] using h)

/-- The loop over the hops that are left. -/
theorem walkHops_follows [Keccak] [DeliveryEncoders] (r : CampaignRunner) (payload : Bytes) (root : Root) (index : Nat)
    (route : Route) (w : WalkState) (h : Upto r.embeddedAgents attempt done s)
    (hroute : attempt.route.drop index = route)
      (hnext : done ++ namesOf r.embeddedAgents (walk (index + 1) route) <+: planOf r.embeddedAgents attempt.route) :
    Follows r.embeddedAgents
    (fun _ t => Upto r.embeddedAgents attempt (done ++ namesOf r.embeddedAgents (walk (index + 1) route)) t) s
      (r.walkHops attempt payload root index route w) := by
  induction route generalizing index done s w with
  | nil => exact .done (by simpa [walk, namesOf] using h)
  | cons p route ih =>
    have hhead : attempt.route[index + 1]? = route.head? := by
      rw [← List.getElem?_drop (i := index) (j := 1), hroute, List.head?_eq_getElem?]
      rfl
    rw [walk_cons, namesOf_append, ← List.append_assoc, ← hhead] at hnext ⊢
    refine (walkHop_follows r payload root index p w h ((List.prefix_append _ _).trans hnext)).bind fun w t h => ?_
    refine ih (index + 1) w h ?_ hnext
    rw [← List.drop_drop, hroute]
    rfl

theorem deliver_follows [Keccak] (r : CampaignRunner) (payload : Bytes) (root : Root) (receipts : List Receipt)
    (h : Upto agents attempt done s) (hnext : done ++ [Stage.deliver.name] <+: planOf agents attempt.route) :
    Follows agents (fun _ t => Upto agents attempt (done ++ [Stage.deliver.name]) t) s
      (r.deliver attempt payload root receipts) := by
  refine execute_follows h rfl hnext fun _ _ h => .ofExcept_bind fun _ _ => ask_follows h id fun _ _ h => ?_
  refine .ofExcept_bind fun _ _ => .ofExcept_bind fun _ _ => .ofExcept_bind fun _ _ => .ofExcept_bind fun _ _ => ?_
  refine .ofExcept_bind fun _ _ => .ofExcept_bind fun _ _ => ask_follows h id fun _ _ h => .ofExcept_bind fun _ _ => ?_
  exact ask_last (o := .recordEvent ..) h id

theorem runAttempt_follows [Keccak] [DeliveryEncoders] (r : CampaignRunner) (attempt : CampaignAttempt)
    (s : RunnerLedger) :
    Follows r.embeddedAgents (fun _ _ => True) s (r.runAttempt attempt) := by
  refine .ofExcept_bind fun _ hcheck => .call_bind (fun _ _ _ => nodup_planOf _ _) fun t first u _ _ hst _ => ?_
  have hbegun : Upto r.embeddedAgents attempt [] u := by
    refine ⟨?_, List.nil_prefix⟩
    cases hst with
    | answer he =>
      cases he with
      | beginNew =>
        exact ⟨_, List.mem_map.mpr ⟨_, List.mem_append_right _ (List.mem_singleton_self _), rfl⟩, rfl, rfl⟩
      | beginAgain hx hid hplan =>
        exact ⟨_, List.mem_map.mpr ⟨_, hx, rfl⟩, hid, congrArg (planOf r.embeddedAgents) hplan.2.1⟩
      | other _ hop => exact absurd trivial hop
  split
  · have hne : attempt.route ≠ [] := by
      intro he
      rw [GoRunner.checkAttempt, if_pos (.inl he)] at hcheck
      cases hcheck
    have hplan : [Stage.root.name] ++ namesOf r.embeddedAgents (walk 1 attempt.route) ++ [Stage.deliver.name] =
        planOf r.embeddedAgents attempt.route := by
      rw [planOf, stagesOf_eq_walk hne]
      simp [namesOf, Stage.Coordinated]
    have hdeliver : [Stage.root.name] ++ namesOf r.embeddedAgents (walk 1 attempt.route) ++ [Stage.deliver.name] <+:
        planOf r.embeddedAgents attempt.route := hplan ▸ List.prefix_rfl
    have hwalk := (List.prefix_append _ _).trans hdeliver
    refine .ofExcept_bind fun payload _ => ?_
    refine (createRoot_follows r payload hbegun ((List.prefix_append _ _).trans hwalk)).bind fun root t h => ?_
    refine (walkHops_follows r payload root 0 attempt.route _ h rfl hwalk).bind fun receipts t h => ?_
    refine (deliver_follows r payload root receipts h hdeliver).bind fun _ t h => ?_
    rw [hplan] at h
    exact (planSystem _).finish h rfl fun _ _ h => (ask_last (o := .recordEvent ..) h id).weaken fun _ _ _ => trivial
  · exact .done trivial

end CampaignRunner

/-- In a run of attempts, those that have succeeded have recorded their plans. -/
theorem RunnerLedger.stages_of_run [Keccak] [DeliveryEncoders] {τ : Type} [DecidableEq τ] (r : CampaignRunner)
    {s : Threads τ RunnerLedger RunnerOp (fun op => Except GoError op.Answer) GoError Unit}
    {es : List (Threads.Event τ CampaignAttempt RunnerOp)}
    (run : Run (Threads.Step (fun op => RunnerStep op) r.runAttempt) ⟨.empty, fun _ => pure ()⟩ es s)
    {row : RecordedAttempt} (hrow : row ∈ s.shared.attempts) (hsucceeded : row.succeeded = true) :
    s.shared.stages row.attempt.attemptID = planOf r.embeddedAgents row.attempt.route := by
  have h := (planSystem r.embeddedAgents).run (fun s a => r.runAttempt_follows a s) run .empty fun _ => ⟨(), rfl⟩
  rw [← RunnerLedger.stages_log]
  exact h.inPlan.finished _ (List.mem_map.mpr ⟨row, hrow, rfl⟩) hsucceeded

end Xir.Impl
