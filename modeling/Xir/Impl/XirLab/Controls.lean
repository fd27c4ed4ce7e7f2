import Xir.Impl.XirLab.Leases

/-!
# `src/xir_lab/execute/controls.py` and `stop_policies.py`

A transition is a store transaction. A stop policy that triggers reads the
control state in a transaction of its own before it calls the manager; what it
records in `stop_policy_events` before is left out.
-/

namespace Xir.Impl.XirLab

namespace RunControlManager

/-- `_validate_decision`. -/
def validateDecision (decision : ControlDecision) : Except LabError Unit := do
  revertIf (decision.decisionID = "" ∨ decision.reasonCode = "")
    (.controlError "control decision ID and reason must be non-empty")
  revertIf (¬ LowerSHA256 decision.decisionSHA256) (.controlError "decision digest must be a lowercase SHA-256 value")
  revertIf (∃ digest ∈ decision.approvalPayloadSHA256, ¬ LowerSHA256 digest)
    (.controlError "approval payload digest must be a lowercase SHA-256 value")

variable (s : Store)

/-- `_event`. -/
def event (runID : String) (fromMode : Option ControlMode) (toMode : ControlMode) (decision : ControlDecision) :
    Except LabError Store :=
  s.putControlEvents (s.controlEvents ++ [⟨runID, fromMode, toMode, decision⟩])

/-- `initialize`. -/
def initializeRun (runID : String) (decision : ControlDecision) : Except LabError Store := do
  validateDecision decision
  let run ← orRevert (.controlError ("unknown run: " ++ runID)) (s.runs runID)
  revertIf (s.runControls runID ≠ none) (.controlError "run control state is already initialized")
  revertIf (run ∈ [.halted, .revoked, .drain]) (.controlError "cannot initialize running over an existing stop state")
  let s := { s with runControls := Function.update s.runControls runID (some ⟨.running, decision, 1⟩) }
  event s runID none .running decision

/-- `_transition`. -/
def transition (runID : String) (allowedFrom : List ControlMode) (toMode : ControlMode) (decision : ControlDecision) :
    Except LabError Store := do
  validateDecision decision
  let row ← orRevert (.controlError "run control state is not initialized") (s.runControls runID)
  revertIf (row.mode ∉ allowedFrom)
    (.controlError ("cannot transition run control from " ++ row.mode.name ++ " to " ++ toMode.name))
  let s := { s with
    runControls := Function.update s.runControls runID (some ⟨toMode, decision, row.sequence + 1⟩)
    runs := Function.update s.runs runID ((s.runs runID).map fun _ => toMode) }
  event s runID (some row.mode) toMode decision

/-- `drain`. -/
def drain (runID : String) (decision : ControlDecision) : Except LabError Store :=
  transition s runID [.running] .drain decision

/-- `halt`. -/
def halt (runID : String) (decision : ControlDecision) : Except LabError Store :=
  transition s runID [.running, .drain] .halted decision

/-- `revoke`. -/
def revoke (runID : String) (decision : ControlDecision) : Except LabError Store :=
  transition s runID [.running, .drain, .halted] .revoked decision

/-- `resume`. -/
def resume (runID : String) (decision : ControlDecision) (approvalStateChanged : Bool) : Except LabError Store := do
  revertIf (approvalStateChanged = true ∧ decision.approvalPayloadSHA256 = none)
    (.controlError "changed approval-bound state requires a new approval digest")
  transition s runID [.drain, .halted] .running decision

/-- `state`. -/
def state (runID : String) : Except LabError ControlRow :=
  orRevert (.controlError "run control state is not initialized") (s.runControls runID)

end RunControlManager

/-- `TriggeredMode`. -/
inductive TriggeredMode
  | drain
  | halted
  deriving DecidableEq

/-- What `_record_and_stop` does about the mode that it reads, in `stop_policies.py`. -/
def StopPolicyEngine.stop (s : Store) (runID : String) (triggeredMode : TriggeredMode) (decision : ControlDecision) :
    Except LabError Store := do
  let state ← RunControlManager.state s runID
  if triggeredMode = .halted ∧ state.mode ∈ [.running, .drain] then RunControlManager.halt s runID decision
  else if triggeredMode = .drain ∧ state.mode = .running then RunControlManager.drain s runID decision
  else return s

namespace RunControlManager

inductive Call
  | initializeRun (runID : String) (decision : ControlDecision)
  | drain (runID : String) (decision : ControlDecision)
  | halt (runID : String) (decision : ControlDecision)
  | revoke (runID : String) (decision : ControlDecision)
  | resume (runID : String) (decision : ControlDecision) (approvalStateChanged : Bool)
  | stop (runID : String) (triggeredMode : TriggeredMode) (decision : ControlDecision)

/-- What a call commits. -/
def Call.commit (s : Store) : Call → Except LabError Store
  | initializeRun runID decision => RunControlManager.initializeRun s runID decision
  | drain runID decision => RunControlManager.drain s runID decision
  | halt runID decision => RunControlManager.halt s runID decision
  | revoke runID decision => RunControlManager.revoke s runID decision
  | resume runID decision approvalStateChanged => RunControlManager.resume s runID decision approvalStateChanged
  | stop runID triggeredMode decision => StopPolicyEngine.stop s runID triggeredMode decision

/-- The store after a call: what it commits, or the same store if it raises. -/
def Call.after (call : Call) (s : Store) : Store :=
  match call.commit s with
  | .ok s' => s'
  | .error _ => s

end RunControlManager

end Xir.Impl.XirLab
