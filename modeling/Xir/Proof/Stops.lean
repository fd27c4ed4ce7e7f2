import Xir.Impl.XirLab.Controls
import Xir.Proof.Reservations

/-!
# The stop state of a run

`runs.state` and `run_controls.mode` agree as long as the controls are the ones
that stop a run. `reopen_after_reorganization` writes `runs.state` alone when a
reservation cannot be restored: the two agree after that only if the controls
have halted the run before.
-/

namespace Xir.Impl.XirLab

open Store

variable {s s' : Store}

/-- The two tables describe the same stop state. A run without a row of controls is running. -/
def Agree (s : Store) : Prop := ∀ runID, match s.runControls runID with
  | none => s.runs runID = none ∨ s.runs runID = some .running
  | some row => s.runs runID = some row.mode

/-- A call that takes a run out of the halted state. -/
def Leaves (runID : String) (call : RunControlManager.Call) : Prop :=
  (∃ decision approvalStateChanged, call = .resume runID decision approvalStateChanged) ∨
    ∃ decision, call = .revoke runID decision

/-- What a control call commits. -/
inductive ControlMove (s : Store) : RunControlManager.Call → Store → Prop
  | idle (call : RunControlManager.Call) : ControlMove s call s
  | initialized {runID : String} {decision : ControlDecision} {s' : Store} (running : s.runs runID = some .running)
    (runs : s'.runs = s.runs)
    (controls : s'.runControls = Function.update s.runControls runID (some ⟨.running, decision, 1⟩)) :
    ControlMove s (.initializeRun runID decision) s'
  | moved {call : RunControlManager.Call} {runID : String} {row row' : ControlRow} {s' : Store}
    (of : s.runControls runID = some row) (unrevoked : row.mode ≠ .revoked)
    (leaves : row.mode = .halted → Leaves runID call)
    (runs : s'.runs = Function.update s.runs runID ((s.runs runID).map fun _ => row'.mode))
    (controls : s'.runControls = Function.update s.runControls runID (some row')) : ControlMove s call s'

namespace RunControlManager

@[simp] theorem putControlEvents_eq_ok {rows : List ControlEventRow} :
    s.putControlEvents rows = .ok s' ↔ ControlEventRow.Constraints rows ∧ { s with controlEvents := rows } = s' := by
  simp [putControlEvents, apply_ite (· = Except.ok s')]

theorem initializeRun_move {runID : String} {decision : ControlDecision}
    (h : initializeRun s runID decision = .ok s') : ControlMove s (.initializeRun runID decision) s' := by
  obtain ⟨-, h⟩ := unit_bind.mp h
  obtain ⟨run, hr, h⟩ := orRevert_bind.mp h
  obtain ⟨-, h⟩ := revertIf_bind.mp h
  obtain ⟨hn, h⟩ := revertIf_bind.mp h
  have running : run = .running := by
    cases run <;> simp at hn ⊢
  obtain ⟨-, rfl⟩ := putControlEvents_eq_ok.mp h
  exact .initialized (running ▸ hr) rfl rfl

theorem transition_move {call : Call} {runID : String} {allowedFrom : List ControlMode} {toMode : ControlMode}
    {decision : ControlDecision} (h : transition s runID allowedFrom toMode decision = .ok s')
    (unrevoked : .revoked ∉ allowedFrom) (leaves : .halted ∈ allowedFrom → Leaves runID call) :
    ControlMove s call s' := by
  obtain ⟨-, h⟩ := unit_bind.mp h
  obtain ⟨row, hr, h⟩ := orRevert_bind.mp h
  obtain ⟨hm, h⟩ := revertIf_bind.mp h
  have hm := not_not.mp hm
  obtain ⟨-, rfl⟩ := putControlEvents_eq_ok.mp h
  refine .moved hr (fun he => unrevoked (he ▸ hm)) (fun he => leaves (he ▸ hm)) ?_ rfl
  rfl

theorem stop_move {runID : String} {triggeredMode : TriggeredMode} {decision : ControlDecision}
    (h : StopPolicyEngine.stop s runID triggeredMode decision = .ok s') (call : Call) : ControlMove s call s' := by
  obtain ⟨state, -, h⟩ := bind_eq_ok.mp h
  split at h
  · exact transition_move h (by decide) (fun hm => absurd hm (by decide))
  · split at h
    · exact transition_move h (by decide) (fun hm => absurd hm (by decide))
    · obtain rfl := pure_eq_ok.mp h
      exact .idle call

theorem Call.commit_move {call : Call} (h : call.commit s = .ok s') : ControlMove s call s' := by
  cases call with
  | initializeRun => exact initializeRun_move h
  | drain => exact transition_move h (by decide) (fun hm => absurd hm (by decide))
  | halt => exact transition_move h (by decide) (fun hm => absurd hm (by decide))
  | revoke runID decision => exact transition_move h (by decide) fun _ => .inr ⟨decision, rfl⟩
  | resume runID decision changed =>
    obtain ⟨-, h⟩ := revertIf_bind.mp h
    exact transition_move h (by decide) fun _ => .inl ⟨decision, changed, rfl⟩
  | stop => exact stop_move h _

/-- The controls do not write to `transactions`. -/
theorem transition_transactions {runID : String} {allowedFrom : List ControlMode} {toMode : ControlMode}
    {decision : ControlDecision} (h : transition s runID allowedFrom toMode decision = .ok s') :
    s'.transactions = s.transactions := by
  obtain ⟨-, h⟩ := unit_bind.mp h
  obtain ⟨row, -, h⟩ := orRevert_bind.mp h
  obtain ⟨-, h⟩ := revertIf_bind.mp h
  obtain ⟨-, rfl⟩ := putControlEvents_eq_ok.mp h
  rfl

theorem Call.after_transactions (call : Call) (s : Store) : (call.after s).transactions = s.transactions := by
  rw [after]
  split
  · rename_i s' h
    cases call with
    | initializeRun =>
      obtain ⟨-, h⟩ := unit_bind.mp h
      obtain ⟨run, -, h⟩ := orRevert_bind.mp h
      obtain ⟨-, h⟩ := revertIf_bind.mp h
      obtain ⟨-, h⟩ := revertIf_bind.mp h
      obtain ⟨-, rfl⟩ := putControlEvents_eq_ok.mp h
      rfl
    | drain | halt | revoke => exact transition_transactions h
    | resume =>
      obtain ⟨-, h⟩ := revertIf_bind.mp h
      exact transition_transactions h
    | stop =>
      obtain ⟨state, -, h⟩ := bind_eq_ok.mp h
      split at h
      · exact transition_transactions h
      · split at h
        · exact transition_transactions h
        · obtain rfl := pure_eq_ok.mp h
          rfl
  · rfl

theorem Call.after_move (call : Call) (s : Store) : ControlMove s call (call.after s) := by
  rw [after]
  split
  · exact commit_move ‹_›
  · exact .idle call

end RunControlManager

/-! ## Runs -/

/-- A call for the controls of a run or for the leases, or what the rest of the
laboratory does, which starts runs and writes to other tables. -/
inductive StopStep : Store → Option (RunControlManager.Call ⊕ LeaseBudgetManager.Call) → Store → Prop
  | control (s : Store) (call : RunControlManager.Call) : StopStep s (some (.inl call)) (call.after s)
  | lease (s : Store) (call : LeaseBudgetManager.Call) : StopStep s (some (.inr call)) (call.after s)
  | others {s s' : Store}
    (runs : ∀ runID, s'.runs runID = s.runs runID ∨ (s.runs runID = none ∧ s'.runs runID = some .running))
    (controls : s'.runControls = s.runControls) : StopStep s none s'

/-- A reorganization that cannot restore its reservation finds that the controls have halted the run. -/
def Restores (s : Store) : LeaseBudgetManager.Call → Prop
  | .reopenAfterReorganization l violationID => ∀ sub b, s.lineage l = .ok (sub, b) → sub.state = .finalized →
    s.assertCapacity b.runID b.batchID sub.chainID sub.reservedWei sub.finalizedWei ≠ .ok () →
    CanRecord s violationID b.runID → ∃ row, s.runControls b.runID = some row ∧ row.mode = .halted
  | _ => True

def RestoringStep (s : Store) (e : Option (RunControlManager.Call ⊕ LeaseBudgetManager.Call)) (s' : Store) : Prop :=
  StopStep s e s' ∧ ∀ call, e = some (.inr call) → Restores s call

/-- A halted run stays halted unless it is resumed or revoked, and a revoked run stays revoked. -/
def Lawful (s : Store) (e : Option (RunControlManager.Call ⊕ LeaseBudgetManager.Call)) (s' : Store) : Prop :=
  ∀ runID, (s.runs runID = some .halted →
      s'.runs runID = some .halted ∨ ∃ call, e = some (.inl call) ∧ Leaves runID call) ∧
    (s.runs runID = some .revoked → s'.runs runID = some .revoked)

/-- No run is stopped, and none has controls. -/
def Unstopped (s : Store) : Prop :=
  (∀ runID, s.runs runID = none ∨ s.runs runID = some .running) ∧ ∀ runID, s.runControls runID = none

theorem Agree.eq (h : Agree s) {runID : String} {row : ControlRow} (hr : s.runControls runID = some row) :
    s.runs runID = some row.mode := by
  have hi := h runID
  rw [hr] at hi
  exact hi

theorem Agree.of_eq (h : Agree s) (runs : s'.runs = s.runs) (controls : s'.runControls = s.runControls) : Agree s' := by
  unfold Agree
  rw [runs, controls]
  exact h

theorem Agree.of_control {call : RunControlManager.Call} (h : Agree s) (hm : ControlMove s call s') :
    Agree s' ∧ Lawful s (some (.inl call)) s' := by
  cases hm with
  | idle => exact ⟨h, fun _ => ⟨.inl, id⟩⟩
  | @initialized initializedID _ _ running runs controls =>
    refine ⟨fun runID => ?_, fun runID => ?_⟩
    · rw [runs, controls, Function.update_apply]
      by_cases hr : runID = initializedID
      · rw [if_pos hr, hr]
        exact running
      · rw [if_neg hr]
        exact h runID
    · rw [runs]
      exact ⟨.inl, id⟩
  | @moved _ movedID row row' _ of unrevoked leaves runs controls =>
    have hr := h.eq of
    refine ⟨fun runID => ?_, fun runID => ?_⟩
    · rw [runs, controls, Function.update_apply, Function.update_apply]
      by_cases hi : runID = movedID
      · rw [if_pos hi, if_pos hi, hr]
        rfl
      · rw [if_neg hi, if_neg hi]
        exact h runID
    · rw [runs, Function.update_apply]
      by_cases hi : runID = movedID
      · rw [hi, hr]
        exact ⟨fun hm => .inr ⟨call, rfl, leaves (Option.some.inj hm)⟩, fun hm => absurd (Option.some.inj hm) unrevoked⟩
      · rw [if_neg hi]
        exact ⟨.inl, id⟩

theorem Agree.of_lease {call : LeaseBudgetManager.Call} (h : Agree s) (hm : Move s call s') (hr : Restores s call) :
    Agree s' ∧ Lawful s (some (.inr call)) s' := by
  obtain ⟨controls, runs | ⟨l, v, sub, b, rfl, of, finalized, capacity, new, runs⟩⟩ := hm.stop_states
  · refine ⟨h.of_eq runs controls, fun runID => ?_⟩
    rw [runs]
    exact ⟨.inl, id⟩
  · obtain ⟨row, ho, hh⟩ := hr sub b of finalized capacity new
    have hs : s.runs b.runID = some .halted := hh ▸ h.eq ho
    have same : s'.runs = s.runs := by
      rw [runs, hs]
      exact Function.update_eq_self_iff.mpr hs.symm
    refine ⟨h.of_eq same controls, fun runID => ?_⟩
    rw [same]
    exact ⟨.inl, id⟩

theorem Agree.of_step {e : Option (RunControlManager.Call ⊕ LeaseBudgetManager.Call)} (h : Agree s)
    (hs : RestoringStep s e s') : Agree s' ∧ Lawful s e s' := by
  obtain ⟨step, restores⟩ := hs
  cases step with
  | control call => exact h.of_control (call.after_move s)
  | lease call => exact h.of_lease (call.after_move s) (restores call rfl)
  | others runs controls =>
    refine ⟨fun runID => ?_, fun runID => ?_⟩
    · have hi := h runID
      rw [controls]
      rcases runs runID with hr | ⟨hn, hr⟩
      · rw [hr]
        exact hi
      · rw [hn] at hi
        cases ho : s.runControls runID with
        | none => exact .inr hr
        | some row =>
          rw [ho] at hi
          exact absurd hi nofun
    · rcases runs runID with hr | ⟨hn, -⟩
      · rw [hr]
        exact ⟨.inl, id⟩
      · rw [hn]
        exact ⟨nofun, nofun⟩

/-- In a run in which the controls have halted a run before a reorganization
cannot be restored, the two tables agree in every state, and a stop is left only
as it should be. -/
theorem stops_of_run {s₀ : Store} {es : List (Option (RunControlManager.Call ⊕ LeaseBudgetManager.Call))}
    (start : Unstopped s₀) (run : Run RestoringStep s₀ es s) :
    Agree s ∧ ∀ {e s'}, RestoringStep s e s' → Lawful s e s' := by
  have h0 : Agree s₀ := fun runID => by
    rw [start.2 runID]
    exact start.1 runID
  have h : Agree s := run.inv (C := fun _ => True) (fun _ hi hs => (hi.of_step hs).1) (fun _ _ => trivial) h0
  exact ⟨h, fun step => (h.of_step step).2⟩

theorem twoAttempts_unstopped : Unstopped twoAttempts := by
  refine ⟨fun runID => ?_, fun _ => rfl⟩
  show (if runID = "run" then some ControlMode.running else none) = none ∨ _
  split
  · exact .inr (if_pos ‹_›)
  · exact .inl rfl

def decisionOf (decisionID : String) : ControlDecision :=
  ⟨decisionID, String.ofList (List.replicate 64 'a'), "reason", none⟩

theorem validateDecision_decisionOf {decisionID : String} (h : decisionID ≠ "") :
    RunControlManager.validateDecision (decisionOf decisionID) = .ok () := by
  have hd : LowerSHA256 (decisionOf decisionID).decisionSHA256 := by
    refine ⟨String.length_ofList.trans List.length_replicate, fun c hc => ?_⟩
    obtain rfl : c = 'a' := List.eq_of_mem_replicate (String.toList_ofList ▸ hc)
    decide
  refine revertIf_bind.mpr ⟨fun he => ?_, revertIf_bind.mpr ⟨not_not.mpr hd, revertIf_eq_ok.mpr ?_⟩⟩
  · have hn : "reason" ≠ "" := by decide
    exact he.elim h hn
  · exact fun ⟨_, hm, _⟩ => absurd hm nofun

/-- The store after the controls of the run were initialized. -/
def controlled : Store :=
  { twoAttempts with
    runControls := Function.update twoAttempts.runControls "run" (some ⟨.running, decisionOf "first", 1⟩)
    controlEvents := [⟨"run", none, .running, decisionOf "first"⟩] }

theorem initializeRun_twoAttempts :
    StopStep twoAttempts (some (.inl (.initializeRun "run" (decisionOf "first")))) controlled := by
  have h : RunControlManager.initializeRun twoAttempts "run" (decisionOf "first") = .ok controlled := by
    rw [RunControlManager.initializeRun, validateDecision_decisionOf (by decide)]
    rfl
  have ha : RunControlManager.Call.after (.initializeRun "run" (decisionOf "first")) twoAttempts = controlled := by
    rw [RunControlManager.Call.after, RunControlManager.Call.commit, h]
  exact ha ▸ .control twoAttempts _

/-- A reservation of 10 wei of which 4 are spent, and one of 6 wei: the first one cannot be restored. -/
def overspending : List LeaseBudgetManager.Call :=
  reserveOne ⟨10, 10, 10, 0, 100⟩ ++ startOne ++ [.finalizeLineage "lineage" 4,
    .reserveCompleteRoute "next-route" "next" "batch" [oneStage 6]]

/-- The calls restore nothing. -/
theorem run_unrestored (s : Store) (calls : List LeaseBudgetManager.Call) (h : ∀ call ∈ calls, ∀ s, Restores s call) :
    Run RestoringStep s (calls.map fun call => some (.inr call)) (callAll s calls) := by
  induction calls generalizing s with
  | nil => exact .nil s
  | cons call calls ih =>
    obtain ⟨first, others⟩ := List.forall_mem_cons.mp h
    refine .cons ⟨.lease s call, fun call' he => ?_⟩ (ih _ others)
    obtain rfl := Sum.inr.inj (Option.some.inj he)
    exact first s

theorem overspending_restores : ∀ call ∈ overspending, ∀ s, Restores s call := by
  intro call hc s
  simp only [overspending, reserveOne, startOne, List.cons_append, List.nil_append, List.mem_cons, List.not_mem_nil,
    or_false] at hc
  obtain rfl | rfl | rfl | rfl | rfl | rfl := hc <;> trivial

def spentStore : Store := callAll controlled overspending

def haltedStore : Store :=
  { spentStore with
    runs := Function.update spentStore.runs "run" (some .halted)
    runControls := Function.update spentStore.runControls "run" (some ⟨.halted, decisionOf "stop", 2⟩)
    controlEvents := controlled.controlEvents ++ [⟨"run", some .running, .halted, decisionOf "stop"⟩] }

theorem halt_spentStore : RunControlManager.Call.after (.halt "run" (decisionOf "stop")) spentStore = haltedStore := by
  have h : RunControlManager.halt spentStore "run" (decisionOf "stop") = .ok haltedStore := by
    rw [RunControlManager.halt, RunControlManager.transition, validateDecision_decisionOf (by decide)]
    rfl
  rw [RunControlManager.Call.after, RunControlManager.Call.commit, h]

def reopening : LeaseBudgetManager.Call := .reopenAfterReorganization "lineage" "violation"

theorem reopening_restores : Restores haltedStore reopening := by
  intro sub b of _ _ _
  have lineage : haltedStore.lineage "lineage" = .ok _ := rfl
  obtain ⟨-, rfl⟩ := Prod.mk.inj (Except.ok.inj (of.symm.trans lineage))
  exact ⟨_, rfl, rfl⟩

/-- The run is halted, the reorganization cannot be restored, and a drain follows. -/
theorem stops_of_run_reopened : Agree (reopening.after haltedStore) ∧
    Lawful (reopening.after haltedStore) (some (.inl (.drain "run" (decisionOf "late"))))
      (RunControlManager.Call.after (.drain "run" (decisionOf "late")) (reopening.after haltedStore)) := by
  have halt : RestoringStep spentStore (some (.inl (.halt "run" (decisionOf "stop")))) haltedStore :=
    ⟨halt_spentStore ▸ .control _ _, nofun⟩
  have reopen : RestoringStep haltedStore (some (.inr reopening)) (reopening.after haltedStore) := by
    refine ⟨.lease _ _, fun call he => ?_⟩
    obtain rfl := Sum.inr.inj (Option.some.inj he)
    exact reopening_restores
  have h : _ ∧ _ := stops_of_run twoAttempts_unstopped <| .cons ⟨initializeRun_twoAttempts, nofun⟩ <|
    ((run_unrestored controlled overspending overspending_restores).snoc halt).snoc reopen
  exact ⟨h.1, h.2 ⟨.control _ _, nofun⟩⟩

/-- The run is halted in one table, and running in the other. -/
theorem halted_alone : ¬ ∀ {s₀ s : Store} {es : List (Option (RunControlManager.Call ⊕ LeaseBudgetManager.Call))},
    Unstopped s₀ → Run StopStep s₀ es s → Agree s ∧ ∀ {e s'}, StopStep s e s' → Lawful s e s' := by
  intro h
  have calls : Run StopStep controlled _ spentStore :=
    (run_unrestored controlled overspending overspending_restores).imp And.left
  have hs := (h twoAttempts_unstopped (.cons initializeRun_twoAttempts (calls.snoc (.lease spentStore reopening)))).1
  have hc : (reopening.after spentStore).runControls "run" = some ⟨.running, decisionOf "first", 1⟩ := by
    rfl
  have hr := hs.eq hc
  revert hr
  decide +kernel

end Xir.Impl.XirLab
