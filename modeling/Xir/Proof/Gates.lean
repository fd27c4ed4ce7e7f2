import Xir.Proof.Stops
import Xir.Proof.Submission

/-!
# A stop of a run and the calls to the signer and to the broadcaster

A method checks that the run is not stopped in a read of its own
(`revalidate_open`), before the call that the check is for. A stop that is
committed between the two does not keep the call from beginning
(`signed_after_halt`). Where no stop falls between them, every call begins while
the run is not stopped (`gates_of_run`).
-/

namespace Xir.Impl.XirLab

open Store SubmissionCoordinator

variable {s s' : Store} {l l' : Lab} {allowRepeat : Bool}

/-- The run of a transaction is not stopped, for the stage of the transaction. -/
def Open (s : Store) (transactionID : String) : Prop :=
  ∃ t, s.transaction transactionID = some t ∧ ∃ intent, s.intent t.intentID = some intent ∧
    ∃ stage, s.stage intent.stageID = some stage ∧ ∃ attempt, s.attempts stage.attemptID = some attempt ∧
      ∃ mode, s.runs attempt.runID = some mode ∧ mode ≠ .halted ∧ mode ≠ .revoked ∧
        ¬ (mode = .drain ∧ stage.stageName.startsWith "source" = true)

theorem revalidate_open {id : String} {gates : GateEvidence} {phase : Phase}
    (h : revalidate s id gates phase = .ok ()) : Open s id := by
  obtain ⟨t, ht, h⟩ := orRevert_bind.mp h
  obtain ⟨intent, hi, h⟩ := orRevert_bind.mp h
  obtain ⟨stage, hs, h⟩ := orRevert_bind.mp h
  obtain ⟨attempt, ha, h⟩ := orRevert_bind.mp h
  obtain ⟨mode, hm, h⟩ := orRevert_bind.mp h
  obtain ⟨sub, -, h⟩ := orRevert_bind.mp h
  obtain ⟨-, h⟩ := revertIf_bind.mp h
  obtain ⟨nonce, -, h⟩ := orRevert_bind.mp h
  obtain ⟨budget, -, h⟩ := orRevert_bind.mp h
  obtain ⟨approval, -, h⟩ := orRevert_bind.mp h
  obtain ⟨-, h⟩ := revertIf_bind.mp h
  obtain ⟨-, h⟩ := revertIf_bind.mp h
  obtain ⟨-, h⟩ := revertIf_bind.mp h
  obtain ⟨-, h⟩ := revertIf_bind.mp h
  obtain ⟨stopped, h⟩ := revertIf_bind.mp h
  obtain ⟨drained, -⟩ := revertIf_bind.mp h
  obtain ⟨halted, revoked⟩ := not_or.mp stopped
  exact ⟨t, ht, intent, hi, stage, hs, attempt, ha, mode, hm, halted, revoked, drained⟩

/-- The operations of a submission stop no run. -/
theorem Written.open {id : String} (h : Written allowRepeat s s') (ho : Open s id) : Open s' id := by
  obtain ⟨t, ht, intent, hi, stage, hs, attempt, ha, mode, hm, running⟩ := ho
  have row : ∃ t', s'.transaction id = some t' ∧ t'.intentID = t.intentID := by
    have hr := h.rows id
    rw [ht] at hr
    cases ht' : s'.transaction id with
    | none =>
      rw [ht'] at hr
      cases hr
    | some t' =>
      rw [ht'] at hr
      cases hr with
      | same => exact ⟨_, rfl, rfl⟩
      | moved move => exact ⟨t', rfl, move.intentID⟩
  obtain ⟨t', ht', hid⟩ := row
  obtain ⟨intent', hi', hstage⟩ := h.intents t.intentID intent hi
  refine ⟨t', ht', intent', hid ▸ hi', stage, ?_, attempt, ?_, mode, ?_, running⟩
  · rw [hstage, ← hs]
    exact congrArg (List.find? _) h.stages
  · rw [h.attempts, ha]
  · rw [h.runs, hm]

namespace SubmissionOp

/-- The operation is a call to the signer or to the broadcaster for a transaction. -/
def Calls (transactionID : String) : SubmissionOp → Prop
  | signTransaction id _ _ => id = transactionID
  | broadcast sent => sent.transactionID = transactionID
  | _ => False

/-- The operation checks the gates of a transaction. -/
def Validates (transactionID : String) : SubmissionOp → Prop
  | revalidate id _ _ => id = transactionID
  | _ => False

end SubmissionOp

/-- A method may call the signer or the broadcaster for a transaction without another check of its gates. -/
abbrev Pending {α : Type} (transactionID : String) (p : Program α) : Prop :=
  p.Reaches (·.Calls transactionID) (·.Validates transactionID)

/-! ## Methods -/

section

variable {id : String}

theorem broadcast_not_pending (transactionID : String) (gates : GateEvidence) (allowRepeat : Bool) :
    ¬ Pending id (broadcast transactionID gates allowRepeat) := by
  refine Prog.not_reaches_call nofun fun _ row => Prog.not_reaches_ofExcept_bind fun _ _ => ?_
  refine Prog.not_reaches_call nofun fun other _ => Prog.not_reaches_ofExcept_bind fun spooled _ => ?_
  have other : ¬ transactionID = id := other
  refine Prog.not_reaches_call nofun fun _ data => Prog.not_reaches_call nofun fun _ _ => ?_
  refine Prog.not_reaches_call other fun _ reply => Prog.not_reaches_ofExcept_bind fun result _ => ?_
  split
  · exact Prog.not_reaches_call nofun fun _ _ => nofun
  · exact nofun

variable [SignerLibraries]

theorem persist_not_pending (transaction : SignedTransaction) : ¬ Pending id (persist transaction) := by
  refine Prog.not_reaches_ofExcept_bind fun _ _ => Prog.not_reaches_call nofun fun _ existing => ?_
  cases existing with
  | some existing => exact Prog.not_reaches_ofExcept_bind fun _ _ => nofun
  | none =>
    refine Prog.not_reaches_bind ?_ fun _ => nofun
    refine Prog.not_reaches_call nofun fun _ temporary => Prog.not_reaches_call nofun fun _ _ => ?_
    refine Prog.not_reaches_call nofun fun _ _ => Prog.not_reaches_call nofun fun _ _ => ?_
    exact Prog.not_reaches_call nofun fun _ _ => Prog.not_reaches_op nofun fun _ _ => Prog.not_reaches_ofExcept _

/-- Signing passes the gates before it calls the signer. -/
theorem sign_not_pending (row : SubmissionRow) (transactionID : String) (request : SignerRequest)
    (gates : GateEvidence) : ¬ Pending id (sign row transactionID request gates) := by
  refine Prog.not_reaches_ofExcept_bind fun _ _ => Prog.not_reaches_ofExcept_bind fun operationID _ => ?_
  refine Prog.not_reaches_ofExcept_bind fun _ _ => Prog.not_reaches_call nofun fun other _ => ?_
  have other : ¬ transactionID = id := other
  refine Prog.not_reaches_bind ?_ fun signed => ?_
  · refine Prog.not_reaches_ofExcept_bind fun _ _ => Prog.not_reaches_call other fun _ signed => ?_
    exact Prog.not_reaches_ofExcept_bind fun _ _ => nofun
  · refine Prog.not_reaches_call nofun fun _ _ => Prog.not_reaches_bind (persist_not_pending signed) fun spooled => ?_
    exact Prog.not_reaches_op nofun fun _ _ => Prog.not_reaches_ofExcept _

theorem signPrepared_not_pending (transactionID : String) (request : SignerRequest) (gates : GateEvidence) :
    ¬ Pending id (signPrepared transactionID request gates) := by
  refine Prog.not_reaches_call nofun fun _ row => ?_
  split
  · exact sign_not_pending _ _ _ _
  · split
    · exact Prog.not_reaches_ofExcept _
    · exact Prog.not_reaches_fail _

theorem Call.prog_not_pending (c : Call) : ¬ Pending id c.prog := by
  cases c with
  | prepareIntent =>
    exact Prog.not_reaches_ofExcept_bind fun _ _ => Prog.not_reaches_call nofun fun _ _ => nofun
  | signPrepared => exact Prog.not_reaches_bind (signPrepared_not_pending _ _ _) fun _ => nofun
  | broadcast => exact Prog.not_reaches_bind (broadcast_not_pending _ _ _) fun _ => nofun
  | recordIncluded | recordFinalized =>
    exact Prog.not_reaches_op nofun fun _ _ => Prog.not_reaches_ofExcept _

/-! Every method ends when an operation raises. -/

theorem persist_heeds (transaction : SignedTransaction) : (persist transaction).Heeds := by
  refine .bind (.ofExcept _) fun _ => .bind (.call _) fun existing => ?_
  cases existing with
  | some existing => exact .bind (.ofExcept _) fun _ => .done _
  | none =>
    refine .bind ?_ fun _ => .done _
    refine .bind (.call _) fun temporary => .bind (.call _) fun _ => .bind (.call _) fun _ => ?_
    exact .bind (.call _) fun _ => .bind (.call _) fun _ => .call _

theorem sign_heeds (row : SubmissionRow) (transactionID : String) (request : SignerRequest) (gates : GateEvidence) :
    (sign row transactionID request gates).Heeds := by
  refine .bind (.ofExcept _) fun _ => .bind (.ofExcept _) fun operationID => .bind (.ofExcept _) fun _ => ?_
  refine .bind (.call _) fun _ => .bind ?_ fun signed => .bind (.call _) fun _ => ?_
  · exact .bind (.ofExcept _) fun _ => .bind (.call _) fun _ => .bind (.ofExcept _) fun _ => .done _
  · exact .bind (persist_heeds signed) fun _ => .call _

theorem Call.prog_heeds (c : Call) : c.prog.Heeds := by
  cases c with
  | prepareIntent => exact .bind (.ofExcept _) fun _ => .bind (.call _) fun _ => .done _
  | signPrepared =>
    refine .bind (.bind (.call _) fun row => ?_) fun _ => .done _
    split
    · exact sign_heeds ..
    · split
      · exact .ofExcept _
      · exact .fail _
  | broadcast =>
    refine .bind (.bind (.call _) fun row => .bind (.ofExcept _) fun _ => ?_) fun _ => .done _
    refine .bind (.call _) fun _ => .bind (.ofExcept _) fun _ => .bind (.call _) fun _ => .bind (.call _) fun _ => ?_
    refine .bind (.call _) fun _ => .bind (.ofExcept _) fun result => ?_
    split
    · exact .bind (.call _) fun _ => .done _
    · exact .done _
  | recordIncluded | recordFinalized => exact .call _

end

/-! ## Runs -/

section

variable {τ : Type} [DecidableEq τ] [SignerLibraries] {c c' c₀ : Coordinators τ}

/-- No stop is committed for a transaction between a check of its gates and the call that the check is for. -/
def GateStep (c : Coordinators τ) (e : Threads.Event τ Call SubmissionOp ⊕ Option RunControlManager.Call)
    (c' : Coordinators τ) : Prop :=
  SubmissionStep c e c' ∧ ∀ call, e = .inr call → ∀ i id, Pending id (c.progs i) → Open c.shared.store id →
    Open c'.shared.store id

/-- A transaction that is called for without another check is not stopped. -/
def Gated (c : Coordinators τ) : Prop :=
  ∀ i, (c.progs i).Heeds ∧ ∀ id, Pending id (c.progs i) → Open c.shared.store id

theorem revalidate_answer {id : String} {gates : GateEvidence} {phase : Phase}
    (h : l.Answers (.revalidate id gates phase) (.ok ()) l') : Open l'.store id := by
  cases h with
  | does h =>
    obtain ⟨x, hx, h⟩ := bind_eq_ok.mp h
    obtain ⟨rfl, -⟩ := Prod.mk.inj (pure_eq_ok.mp h)
    exact revalidate_open hx

/-- What a thread goes on with after an answer. -/
theorem Gated.answered {op : SubmissionOp} {k : Except LabError op.Answer → Program Unit}
    {r : Except LabError op.Answer} (heeds : (Prog.op op k).Heeds)
    (gated : ∀ id, Pending id (Prog.op op k) → Open l.store id) (ha : l.Answers op r l') :
    (k r).Heeds ∧ ∀ id, Pending id (k r) → Open l'.store id := by
  cases heeds with
  | op fails goesOn =>
    refine ⟨goesOn r, fun id hp => ?_⟩
    by_cases hv : op.Validates id
    · cases op with
      | revalidate transactionID gates phase =>
        obtain rfl : transactionID = id := hv
        cases r with
        | ok a => exact revalidate_answer ha
        | error e =>
          rw [fails e] at hp
          exact absurd hp nofun
      | _ => exact absurd hv nofun
    · exact ha.written.open (gated id (.later r hv hp))

theorem Gated.of_step {e : Threads.Event τ Call SubmissionOp ⊕ Option RunControlManager.Call} (h : Gated c)
    (hs : GateStep c e c') : Gated c' := by
  obtain ⟨step, spared⟩ := hs
  cases step with
  | around ha => exact fun i => ⟨(h i).1, fun id hp => spared _ rfl i id hp ((h i).2 id hp)⟩
  | thread hs =>
    cases hs with
    | @start i call =>
      exact (Function.forall_update_iff c.progs fun _ p => p.Heeds ∧ ∀ id, Pending id p → Open c.shared.store id).mpr
        ⟨⟨Call.prog_heeds call, fun id hp => absurd hp (Call.prog_not_pending call)⟩, fun j _ => h j⟩
    | @answer i op k r t asked answered =>
      have hi := h i
      rw [asked] at hi
      exact (Function.forall_update_iff c.progs fun _ p => p.Heeds ∧ ∀ id, Pending id p → Open t.store id).mpr
        ⟨Gated.answered hi.1 hi.2 answered, fun j _ => ⟨(h j).1, fun id hp => answered.written.open ((h j).2 id hp)⟩⟩

/-- In a run in which no stop is committed between a check of the gates and the
call that it is for, every call to the signer and to the broadcaster begins while
the run of its transaction is not stopped. -/
theorem gates_of_run {es : List (Threads.Event τ Call SubmissionOp ⊕ Option RunControlManager.Call)}
    (idle : ∀ i, c₀.progs i = .done ()) (run : Run GateStep c₀ es c) {i : τ} {op : SubmissionOp} {id : String}
    (step : SubmissionStep c (.inl (.answer i op)) c') (calls : op.Calls id) : Open c.shared.store id := by
  have h0 : Gated c₀ := fun i => by
    rw [idle i]
    exact ⟨.done (), nofun⟩
  have h : Gated c := run.inv (C := fun _ => True) (fun _ hi hs => hi.of_step hs) (fun _ _ => trivial) h0
  cases step with
  | thread hs =>
    cases hs with
    | answer asked _ => exact (h i).2 id (asked ▸ .here calls)

end

/-! ## A stop between a check and its call -/

/-- A laboratory with one transaction, whose run has controls. -/
def oneLab : Lab :=
  ⟨{ oneTransaction with
      runControls := Function.update oneTransaction.runControls "run" (some ⟨.running, decisionOf "first", 1⟩) },
    ⟨∅, ∅⟩, []⟩

/-- Whatever is asked fails. -/
def noReplies : Replies := ⟨fun _ _ => .error .osError, fun _ => .error .osError, ""⟩

/-- The transaction is of a later stage. -/
def laterLab : Lab := { oneLab with store := { oneLab.store with stages := [⟨"stage", "attempt", "deliver"⟩] } }

/-- Its run is drained. -/
def drainedLab : Lab :=
  { laterLab with
    store := { laterLab.store with
      runControls := Function.update laterLab.store.runControls "run" (some ⟨.drain, decisionOf "drain", 2⟩)
      runs := Function.update laterLab.store.runs "run" (some .drain)
      controlEvents := [⟨"run", some .running, .drain, decisionOf "drain"⟩] } }

theorem drain_laterLab : { laterLab with
    store := RunControlManager.Call.after (.drain "run" (decisionOf "drain")) laterLab.store } = drainedLab := by
  have h : RunControlManager.drain laterLab.store "run" (decisionOf "drain") = .ok drainedLab.store := by
    rw [RunControlManager.drain, RunControlManager.transition, validateDecision_decisionOf (by decide)]
    rfl
  rw [RunControlManager.Call.after, RunControlManager.Call.commit, h]
  rfl

theorem deliver_not_source : "deliver".startsWith "source" = false := by decide +kernel

theorem drainedLab_open {id : String} (h : Open laterLab.store id) : Open drainedLab.store id := by
  obtain ⟨t, ht, -⟩ := h
  obtain rfl := List.mem_singleton.mp (List.mem_of_find?_eq_some ht)
  obtain rfl : "transaction" = id := transaction_transactionID ht
  refine ⟨_, rfl, _, rfl, _, rfl, _, rfl, .drain, rfl, nofun, nofun, fun hs => ?_⟩
  exact absurd hs.2 (deliver_not_source ▸ Bool.false_ne_true)

/-- The run of a transaction of a later stage is drained after its gates were checked, and the signer is called. -/
theorem gates_of_run_drain : Open drainedLab.store "transaction" := by
  let _ := someLibraries
  have checking : Run GateStep (alone laterLab (.done ())) _ (alone laterLab _) :=
    .cons ⟨alone_start laterLab (.done ()) (.signPrepared "transaction" oneRequest oneGates), nofun⟩ <|
      .cons ⟨alone_answer (.does (show laterLab.does noReplies _ = .ok _ from rfl)), nofun⟩ <|
        .cons ⟨alone_answer (.does (show laterLab.does noReplies _ = .ok _ from rfl)), nofun⟩ (.nil _)
  have draining (p : Program Unit) :
      GateStep (alone laterLab p) (.inr (some (.drain "run" (decisionOf "drain")))) (alone drainedLab p) :=
    ⟨alone_around p (drain_laterLab ▸ .control laterLab _), fun _ _ _ _ _ => drainedLab_open⟩
  exact gates_of_run (fun _ => rfl) (checking.snoc (draining _))
    (alone_answer (.raises (.signTransaction "transaction" ("signop_" ++ someDigest) oneRequest) .osError)) rfl

theorem halt_oneLab : RunControlManager.halt oneLab.store "run" (decisionOf "stop") = .ok
    { oneLab.store with
      runControls := Function.update oneLab.store.runControls "run" (some ⟨.halted, decisionOf "stop", 2⟩)
      runs := Function.update oneLab.store.runs "run" (some .halted)
      controlEvents := [⟨"run", some .running, .halted, decisionOf "stop"⟩] } := by
  rw [RunControlManager.halt, RunControlManager.transition, validateDecision_decisionOf (by decide)]
  rfl

/-- The signer is called for a transaction whose run was halted. -/
theorem signed_after_halt : ¬ ∀ {τ : Type} [DecidableEq τ] [SignerLibraries] {c₀ c c' : Coordinators τ}
    {es : List (Threads.Event τ Call SubmissionOp ⊕ Option RunControlManager.Call)},
    (∀ i, c₀.progs i = .done ()) → Run SubmissionStep c₀ es c → ∀ {i : τ} {op : SubmissionOp} {id : String},
      SubmissionStep c (.inl (.answer i op)) c' → op.Calls id → Open c.shared.store id := by
  intro h
  let _ := someLibraries
  have signing : Run SubmissionStep (alone oneLab (.done ())) _ (alone _ _) :=
    .cons (alone_start oneLab (.done ()) (.signPrepared "transaction" oneRequest oneGates)) <|
      .cons (alone_answer (.does (show oneLab.does noReplies _ = .ok _ from rfl))) <|
        .cons (alone_answer (.does (show oneLab.does noReplies _ = .ok _ from rfl))) <|
          .cons (alone_around _ (.control _ (.halt "run" (decisionOf "stop")))) (.nil _)
  have ho : Open _ "transaction" := h (fun _ => rfl) signing
    (alone_answer (.raises (.signTransaction "transaction" ("signop_" ++ someDigest) oneRequest) .osError)) rfl
  obtain ⟨t, ht, intent, hi, stage, hs, attempt, ha, mode, hm, halted, -⟩ := ho
  rw [alone, RunControlManager.Call.after, RunControlManager.Call.commit, halt_oneLab] at ht hi hs ha hm
  obtain rfl := Option.some.inj ht
  obtain rfl := Option.some.inj hi
  obtain rfl := Option.some.inj hs
  obtain rfl := Option.some.inj ha
  exact halted (Option.some.inj hm).symm

end Xir.Impl.XirLab
