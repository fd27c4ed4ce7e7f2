import Mathlib.Algebra.Order.Field.Rat
import Mathlib.Data.List.Dedup
import Xir.Framework.Run
import Xir.Impl.XirLab.StopPolicies
import Xir.Proof.Stops

/-!
# What the stop policies stop

A check that returns leaves the run at least as strict as its threshold demands
(`returned_judged`), and no check weakens the controls (`Runs.notWeaker`). An
outcome that is recorded cannot be recorded again (`repeated_not_returned`), so
that a crash between its commit and that of the stop is not repaired; in every
history without one, a run whose outcomes meet a threshold is stopped, unless it
was resumed since (`stopped_of_run`).
-/

namespace Xir.Impl.XirLab

open Prog (Asked WasAsked)

def ControlMode.strictness : ControlMode → Nat
  | running => 0
  | drain => 1
  | halted => 2
  | revoked => 3

def TriggeredMode.strictness : TriggeredMode → Nat
  | drain => 1
  | halted => 2

namespace StopPolicyEngine

variable {s s' t u : StopStore} {runID : String} {n : Nat}

/-- What was asked in a call. -/
abbrev Record := List (Asked StopOp (fun op => Except LabError op.Answer) StopStore)

/-- The controls of a run are at least as strict as this. -/
def AtLeast (n : Nat) (s : StopStore) (runID : String) : Prop :=
  ∃ row, s.store.runControls runID = some row ∧ n ≤ row.mode.strictness

/-- No controls are less strict than they were. -/
def NotWeaker (s s' : StopStore) : Prop := ∀ n runID, AtLeast n s runID → AtLeast n s' runID

/-- While a call runs, others leave the controls and the outcomes alone. -/
def Meanwhile (s s' : StopStore) : Prop := s'.store.runControls = s.store.runControls ∧ s'.outcomes = s.outcomes

theorem NotWeaker.refl (s : StopStore) : NotWeaker s s := fun _ _ h => h

theorem NotWeaker.trans (h : NotWeaker s t) (h' : NotWeaker t u) : NotWeaker s u :=
  fun n runID hn => h' n runID (h n runID hn)

theorem notWeaker_of_eq (h : s'.store.runControls = s.store.runControls) : NotWeaker s s' := by
  rintro n runID ⟨row, hr, hn⟩
  exact ⟨row, h ▸ hr, hn⟩

/-! ## Controls -/

/-- What a transition does to the controls. -/
theorem transition_controls {s s' : Store} {allowedFrom : List ControlMode} {toMode : ControlMode}
    {decision : ControlDecision} (h : RunControlManager.transition s runID allowedFrom toMode decision = .ok s') :
    ∃ row, s.runControls runID = some row ∧ row.mode ∈ allowedFrom ∧
      s'.runControls = Function.update s.runControls runID (some ⟨toMode, decision, row.sequence + 1⟩) := by
  obtain ⟨-, h⟩ := unit_bind.mp h
  obtain ⟨row, hr, h⟩ := orRevert_bind.mp h
  obtain ⟨hm, h⟩ := revertIf_bind.mp h
  obtain ⟨-, rfl⟩ := RunControlManager.putControlEvents_eq_ok.mp h
  exact ⟨row, hr, not_not.mp hm, rfl⟩

/-- A transition from modes that are not stricter. -/
theorem transition_notWeaker {store : Store} {allowedFrom : List ControlMode} {toMode : ControlMode}
    {decision : ControlDecision}
    (h : RunControlManager.transition s.store runID allowedFrom toMode decision = .ok store)
      (hm : ∀ m ∈ allowedFrom, m.strictness ≤ toMode.strictness) : NotWeaker s { s with store } := by
  obtain ⟨row, hr, hf, controls⟩ := transition_controls h
  rintro n runID' ⟨row', hr', hn⟩
  show ∃ row, store.runControls runID' = some row ∧ _
  rw [controls]
  by_cases he : runID' = runID
  · subst he
    obtain rfl := Option.some.inj (hr.symm.trans hr')
    exact ⟨_, Function.update_self .., hn.trans (hm _ hf)⟩
  · exact ⟨row', (Function.update_of_ne he ..).trans hr', hn⟩

/-- A run that is taken to a mode is in it. -/
theorem transition_atLeast {store : Store} {allowedFrom : List ControlMode} {toMode : ControlMode}
    {decision : ControlDecision}
    (h : RunControlManager.transition s.store runID allowedFrom toMode decision = .ok store) :
    AtLeast toMode.strictness { s with store } runID := by
  obtain ⟨row, -, -, controls⟩ := transition_controls h
  exact ⟨_, (congrFun controls runID).trans (Function.update_self ..), Nat.le_refl _⟩

section

variable {op : StopOp} {r : Except LabError op.Answer}

theorem Answers.notWeaker (h : Answers s op r s') : NotWeaker s s' := by
  cases h with
  | raises | now | budgetRow | controlState => exact .refl s
  | insertOutcome h =>
    obtain ⟨-, h⟩ := revertIf_bind.mp h
    obtain ⟨-, rfl⟩ := Prod.mk.inj (pure_eq_ok.mp h)
    exact .refl s
  | recordEvent h =>
    unfold StopStore.recordEvent at h
    dsimp only at h
    split at h <;> split at h <;> cases h <;> exact .refl s
  | drain h => exact transition_notWeaker h (by decide)
  | halt h => exact transition_notWeaker h (by decide)

/-- The operation inserts an outcome. -/
def Inserts : StopOp → Prop
  | .insertOutcome .. => True
  | _ => False

/-- Only an insertion changes the outcomes. -/
theorem Answers.outcomes (h : Answers s op r s') (hi : ¬ Inserts op) : s'.outcomes = s.outcomes := by
  cases h with
  | raises | now | budgetRow | controlState | drain | halt => rfl
  | insertOutcome h => exact absurd trivial hi
  | recordEvent h =>
    unfold StopStore.recordEvent at h
    dsimp only at h
    split at h <;> split at h <;> cases h <;> rfl

/-- What an insertion commits and what it selects. -/
theorem insertOutcome_eq {row : OutcomeRow} {rollingWindow : ℕ+} {rows : OutcomeRows}
    (h : s.insertOutcome row rollingWindow = .ok (rows, s')) : s'.outcomes = s.outcomes ++ [row] ∧
      rows = ⟨(s'.outcomesOf row.runID).take rollingWindow, (s'.outcomesOf row.runID).countP (·.timedOut)⟩ := by
  obtain ⟨-, h⟩ := revertIf_bind.mp h
  obtain ⟨rfl, rfl⟩ := Prod.mk.inj (pure_eq_ok.mp h)
  exact ⟨rfl, rfl⟩

end

/-! ## Calls -/

/-- The runs of a program of the engine, with a record of what it asks. -/
abbrev Runs {α : Type} (p : Program α) (s : StopStore) (es : Record) (o : Prog.Outcome LabError α) (s' : StopStore)
    (es' : Record) : Prop :=
  Prog.Exec (Prog.Recorded (fun op s => Answers s op) Meanwhile) p (s, es) o (s', es')

variable {α β : Type} {es es' : Record} {o : Prog.Outcome LabError α} {p : Program α}

/-- No part of a call weakens the controls. -/
theorem Runs.notWeaker (h : Runs p s es o s' es') : NotWeaker s s' := by
  obtain ⟨new, -, trail, -⟩ := h.trail (.trivial p)
  exact trail.mono NotWeaker.refl NotWeaker.trans (fun henv => notWeaker_of_eq henv.1) Answers.notWeaker

/-- The record of a call grows. -/
theorem Runs.wasAsked (h : Runs p s es o s' es') {op : StopOp} {r : Except LabError op.Answer}
    (hr : Prog.WasAsked es op r) : Prog.WasAsked es' op r := by
  obtain ⟨new, rfl, -⟩ := h.trail (.trivial p)
  exact hr.append new

/-- An operation on the controls that a call survives. -/
theorem Runs.guarded {op : StopOp} {f : op.Answer → Program β} {b : β}
    (h : Runs (StopPolicyEngine.guarded op >>= f) s es (.returned b) s' es') :
    ∃ t a u es₁, NotWeaker s t ∧ Answers t op (.ok a) u ∧ Runs (f a) u es₁ (.returned b) s' es' := by
  cases h with
  | @op _ _ _ r _ _ _ hs he =>
    cases hs with
    | @step _ t u _ _ henv hst =>
      cases r with
      | ok a => exact ⟨t, a, u, _, notWeaker_of_eq henv.1, hst, he⟩
      | error e => cases he

theorem state_atLeast {row : ControlRow} (h : Answers s (.controlState runID) (.ok row) s') :
    AtLeast row.mode.strictness s runID ∧ s' = s := by
  cases h with
  | controlState h => exact ⟨⟨row, orRevert_eq_ok.mp h, Nat.le_refl _⟩, rfl⟩

theorem halt_atLeast {decision : ControlDecision} {a : Unit} (h : Answers s (.halt runID decision) (.ok a) s') :
    AtLeast 2 s' runID := by
  cases h with
  | halt h => exact transition_atLeast h

theorem drain_atLeast {decision : ControlDecision} {a : Unit} (h : Answers s (.drain runID decision) (.ok a) s') :
    AtLeast 1 s' runID := by
  cases h with
  | drain h => exact transition_atLeast h

/-- A stop that is established stops the run. -/
theorem establish_returned {mode : TriggeredMode} {decision : ControlDecision} {a : Unit}
    (h : Runs (establish runID mode decision) s es (.returned a) s' es') : AtLeast mode.strictness s' runID := by
  obtain ⟨t, row, u, es₁, -, answer, run⟩ := h.guarded
  obtain ⟨found, rfl⟩ := state_atLeast answer
  split at run
  · rename_i hm
    obtain ⟨t', _, u', es₂, -, answer', run'⟩ := run.guarded
    rw [hm.1]
    exact run'.notWeaker _ _ (halt_atLeast answer')
  · split at run
    · rename_i hm
      obtain ⟨t', _, u', es₂, -, answer', run'⟩ := run.guarded
      rw [hm.1]
      exact run'.notWeaker _ _ (drain_atLeast answer')
    · rename_i hh hd
      refine run.notWeaker _ _ ?_
      obtain ⟨row', hr, hn⟩ := found
      refine ⟨row', hr, hn.trans' ?_⟩
      cases mode <;> cases hmode : row.mode <;>
        simp [hmode, ControlMode.strictness, TriggeredMode.strictness] at hh hd ⊢

section

variable [StopLibraries]

/-- A check that is triggered and returns stops the run. -/
theorem recordAndStop_returned {category : PolicyCategory} {policyCode : String} {triggered : Bool}
    {threshold observed : PolicyDetails} {checkedAt : Option Int} {mode : TriggeredMode} {result : PolicyResult}
    (h : Runs (recordAndStop runID category policyCode triggered threshold observed checkedAt mode) s es
      (.returned result) s' es') (ht : triggered = true) : AtLeast mode.strictness s' runID := by
  obtain ⟨occurred, ⟨t, es₁⟩, -, h⟩ := h.returned_bind
  obtain ⟨recorded, ⟨t', es₂⟩, -, h⟩ := h.returned_bind
  rw [if_pos ht] at h
  obtain ⟨_, ⟨u, es₃⟩, stop, h⟩ := h.returned_bind
  exact Runs.notWeaker h _ _ (establish_returned stop)

end

/-! ## Thresholds -/

/-- A request is over a limit, or leaves less than the minimum balance. -/
def BudgetExceeded (row : BudgetPolicyRow) (requestedWei : Int) : Prop :=
  row.limits.maxTransactionWei < requestedWei ∨
    row.limits.maxBatchWei < row.batch.reserved + row.batch.finalized + requestedWei ∨
    row.limits.maxRunWei < row.totals.reserved + row.totals.finalized + requestedWei ∨
    row.limits.observedRunnerBalanceWei < row.limits.minimumRunnerBalanceWei + row.totals.reserved + requestedWei

theorem budgetCode_of_exceeded {row : BudgetPolicyRow} {requestedWei : Int} (h : BudgetExceeded row requestedWei) :
    budgetCode row requestedWei ≠ "financial_budget_pass" := by
  unfold budgetCode
  dsimp only [budgetUse]
  by_cases transaction : requestedWei > row.limits.maxTransactionWei
  · rw [if_pos transaction]
    decide
  by_cases batch : row.batch.reserved + row.batch.finalized + requestedWei > row.limits.maxBatchWei
  · rw [if_neg transaction, if_pos batch]
    decide
  by_cases run : row.totals.reserved + row.totals.finalized + requestedWei > row.limits.maxRunWei
  · rw [if_neg transaction, if_neg batch, if_pos run]
    decide
  · have floor : row.limits.observedRunnerBalanceWei - row.totals.reserved - requestedWei <
        row.limits.minimumRunnerBalanceWei := by
      unfold BudgetExceeded at h
      omega
    rw [if_neg transaction, if_neg batch, if_neg run, if_pos floor]
    decide

def QuoteExceeded (policy : FinancialStopPolicy) (quote : QuoteObservation) (checked : Int) : Prop :=
  ageSeconds checked quote.quotedAt > policy.maxQuoteAgeSeconds ∨ MovementExceeded policy quote

theorem quoteCode_of_exceeded {policy : FinancialStopPolicy} {quote : QuoteObservation} {checked : Int}
    (h : QuoteExceeded policy quote checked) : quoteCode policy quote checked ≠ "financial_quote_pass" := by
  unfold quoteCode
  by_cases age : ageSeconds checked quote.quotedAt > policy.maxQuoteAgeSeconds
  · rw [if_pos age]
    decide
  · rw [if_neg age, if_pos (h.resolve_left age)]
    decide

/-- The newest outcomes are that many failures. -/
def ConsecutiveExceeded (policy : ExecutionStopPolicy) (os : List OutcomeRow) : Prop :=
  policy.consecutiveFailures ≤ os.length ∧ ∀ o ∈ os.take policy.consecutiveFailures, o.failed = true

/-- A full window has failures, at or above the rate. -/
def WindowExceeded (policy : ExecutionStopPolicy) (os : List OutcomeRow) : Prop :=
  policy.rollingWindow ≤ os.length ∧ 0 < (os.take policy.rollingWindow).countP (·.failed) ∧
    policy.rollingFailureRate * (policy.rollingWindow : Nat) ≤ (os.take policy.rollingWindow).countP (·.failed)

/-- The outcomes of a run, the newest first, are over a threshold. -/
def OutcomesExceeded (policy : ExecutionStopPolicy) (os : List OutcomeRow) : Prop :=
  ConsecutiveExceeded policy os ∨ WindowExceeded policy os ∨ policy.timeoutCount ≤ os.countP (·.timedOut)

/-- What `record_execution_outcome` selects of the outcomes of a run. -/
def selected (policy : ExecutionStopPolicy) (os : List OutcomeRow) : OutcomeRows :=
  ⟨os.take policy.rollingWindow, os.countP (·.timedOut)⟩

theorem le_length_takeWhile {os : List OutcomeRow} {k : Nat} (hk : k ≤ os.length)
    (h : ∀ o ∈ os.take k, o.failed = true) :
    k ≤ (os.takeWhile (·.failed)).length := by
  induction os generalizing k with
  | nil => exact hk
  | cons o os ih =>
    cases k with
    | zero => exact Nat.zero_le _
    | succ k =>
      rw [List.take_succ_cons, List.forall_mem_cons] at h
      rw [List.takeWhile_cons_of_pos h.1]
      exact Nat.succ_le_succ (ih (Nat.le_of_succ_le_succ hk) h.2)

section

variable [StopLibraries]

theorem rollingExceeded_of_window {policy : ExecutionStopPolicy} {os : List OutcomeRow} (hn : os.length ≤ 2 ^ 53)
    (h : WindowExceeded policy os) : RollingExceeded policy (os.take policy.rollingWindow) := by
  obtain ⟨full, some_failed, rate⟩ := h
  have hl : (os.take policy.rollingWindow).length = policy.rollingWindow := List.length_take_of_le full
  exact ⟨hl, some_failed, StopLibraries.product_le (full.trans hn) (List.countP_le_length.trans hl.le) rate⟩

/-- Outcomes over a threshold do not pass. -/
theorem outcomeCode_of_exceeded {policy : ExecutionStopPolicy} {os : List OutcomeRow} (hn : os.length ≤ 2 ^ 53)
    (h : OutcomesExceeded policy os) : outcomeCode policy (selected policy os) ≠ "execution_outcome_pass" := by
  have triggered : policy.consecutiveFailures ≤ consecutive (os.take policy.rollingWindow) ∨
      RollingExceeded policy (os.take policy.rollingWindow) ∨ policy.timeoutCount ≤ os.countP (·.timedOut) := by
    rcases h with ⟨hk, failed⟩ | window | timeouts
    · by_cases hw : (policy.consecutiveFailures : Nat) ≤ policy.rollingWindow
      · left
        refine le_length_takeWhile (by rw [List.length_take]; omega) fun o ho => failed o ?_
        rwa [List.take_take, Nat.min_eq_left hw] at ho
      · -- The window is shorter, and all of it has failed.
        right; left
        have all : ∀ o ∈ os.take policy.rollingWindow, o.failed = true := fun o ho =>
          failed o (List.take_subset_take_left os (by omega) ho)
        have count : (os.take policy.rollingWindow).countP (·.failed) = policy.rollingWindow := by
          rw [List.countP_eq_length.mpr all, List.length_take_of_le (by omega)]
        refine rollingExceeded_of_window hn ⟨by omega, ?_, ?_⟩ <;> rw [count]
        · exact policy.rollingWindow.pos
        · exact mul_le_of_le_one_left (Nat.cast_nonneg _) policy.rate_le_one
    · exact .inr (.inl (rollingExceeded_of_window hn window))
    · exact .inr (.inr timeouts)
  unfold outcomeCode selected
  split
  · simp
  · split
    · simp
    · split <;> simp_all

end

/-! ## What a check that returns has done -/

/-- The time of a check: what it was given, or what the clock said. -/
def TimeOf (es : Record) : Option Int → Int → Prop
  | some t, checked => checked = t
  | none, checked => Prog.WasAsked es .now (.ok checked)

/-- A run whose check has read a threshold that is met is stopped. -/
def Call.Judged (engine : StopPolicyEngine) (es : Record) (s : StopStore) : Call → Prop
  | checkBudget runID batchID chainID requestedWei _ => ∃ row,
    Prog.WasAsked es (.budgetRow runID batchID chainID) (.ok row) ∧
      (BudgetExceeded row requestedWei → AtLeast 2 s runID)
  | checkQuote runID quote checkedAt => ∃ checked, TimeOf es checkedAt checked ∧
    (QuoteExceeded engine.financial quote checked → AtLeast 2 s runID)
  | recordExecutionOutcome runID outcomeID failed timedOut _ => ∃ policy os, engine.execution = some policy ∧
    Prog.WasAsked es (.insertOutcome ⟨outcomeID, runID, failed, timedOut⟩ policy.rollingWindow)
      (.ok (selected policy os)) ∧
    os = s.outcomesOf runID ∧ (os.length ≤ 2 ^ 53 → OutcomesExceeded policy os → AtLeast 2 s runID)
  | checkNonceGap runID _ expectedNonce observedNonce _ => expectedNonce ≠ observedNonce → AtLeast 2 s runID
  | checkRPCAgreement runID _ providerDigests _ =>
    (∃ d ∈ providerDigests, ∃ d' ∈ providerDigests, d.2 ≠ d'.2) → AtLeast 2 s runID
  | checkReorganization runID _ _ priorBlockHash currentBlockHash _ =>
    priorBlockHash ≠ currentBlockHash → AtLeast 2 s runID
  | checkEvidenceOperations runID collectorBacklog collectorHeartbeatAt diskAvailableBytes checkedAt =>
    ∃ policy checked, engine.evidenceOperations = some policy ∧ TimeOf es checkedAt checked ∧
      (diskAvailableBytes < policy.diskFloorBytes → AtLeast 2 s runID) ∧
      (ageSeconds checked collectorHeartbeatAt > policy.collectorHeartbeatSeconds ∨
        collectorBacklog > policy.collectorBacklog → AtLeast 1 s runID)
  | manualStop runID mode _ _ => AtLeast mode.strictness s runID

theorem AtLeast.mono {m : Nat} (h : AtLeast n s runID) (hm : m ≤ n) : AtLeast m s runID := by
  obtain ⟨row, hr, hn⟩ := h
  exact ⟨row, hr, hm.trans hn⟩

theorem Runs.utc {checkedAt : Option Int} {f : Int → Program β} {b : β}
    (h : Runs (StopPolicyEngine.utc checkedAt >>= f) s es (.returned b) s' es') :
    ∃ checked u es₁, TimeOf es' checkedAt checked ∧ u.outcomes = s.outcomes ∧
      Runs (f checked) u es₁ (.returned b) s' es' := by
  cases checkedAt with
  | some t => exact ⟨t, s, es, rfl, rfl, h⟩
  | none =>
    obtain ⟨t, checked, u, henv, answer, run⟩ := Prog.Exec.returned_recorded h
    exact ⟨checked, u, _, Runs.wasAsked run (.last ..), (answer.outcomes (by simp [Inserts])).trans henv.2, run⟩

section

variable [StopLibraries] {engine : StopPolicyEngine} {result : PolicyResult}

theorem checkBudget_returned {runID batchID : String} {chainID requestedWei : Int} {checkedAt : Option Int}
    (h : Runs (checkBudget runID batchID chainID requestedWei checkedAt) s es (.returned result) s' es') :
    (Call.checkBudget runID batchID chainID requestedWei checkedAt).Judged engine es' s' := by
  obtain ⟨_, -, h⟩ := h.returned_ofExcept
  obtain ⟨t, row, u, -, -, run⟩ := h.returned_recorded
  exact ⟨row, Runs.wasAsked run (.last ..), fun exceeded =>
    recordAndStop_returned run (decide_eq_true (budgetCode_of_exceeded exceeded))⟩

theorem checkQuote_returned {quote : QuoteObservation} {checkedAt : Option Int}
    (h : Runs (checkQuote engine runID quote checkedAt) s es (.returned result) s' es') :
    (Call.checkQuote runID quote checkedAt).Judged engine es' s' := by
  obtain ⟨checked, u, es₁, time, -, run⟩ := Runs.utc h
  obtain ⟨_, -, run⟩ := run.returned_ofExcept
  exact ⟨checked, time, fun exceeded => recordAndStop_returned run (decide_eq_true (quoteCode_of_exceeded exceeded))⟩

theorem checkNonceGap_returned {chainID expectedNonce observedNonce : Int} {checkedAt : Option Int}
    (h : Runs (checkNonceGap engine runID chainID expectedNonce observedNonce checkedAt) s es
    (.returned result) s' es') :
    (Call.checkNonceGap runID chainID expectedNonce observedNonce checkedAt).Judged engine es' s' := by
  obtain ⟨_, -, run⟩ := h.returned_ofExcept
  obtain ⟨_, -, run⟩ := run.returned_ofExcept
  exact fun exceeded => recordAndStop_returned run (decide_eq_true exceeded)

theorem checkReorganization_returned {chainID blockNumber : Int} {priorBlockHash currentBlockHash : String}
    {checkedAt : Option Int}
    (h : Runs (checkReorganization engine runID chainID blockNumber priorBlockHash currentBlockHash checkedAt) s es
      (.returned result) s' es') :
    (Call.checkReorganization runID chainID blockNumber priorBlockHash currentBlockHash checkedAt).Judged
      engine es' s' := by
  obtain ⟨_, -, run⟩ := h.returned_ofExcept
  obtain ⟨_, -, run⟩ := run.returned_ofExcept
  exact fun exceeded => recordAndStop_returned run (decide_eq_true exceeded)

theorem checkRPCAgreement_returned {subjectID : String} {providerDigests : List (String × String)}
    {checkedAt : Option Int}
    (h : Runs (checkRPCAgreement engine runID subjectID providerDigests checkedAt) s es (.returned result) s' es') :
    (Call.checkRPCAgreement runID subjectID providerDigests checkedAt).Judged engine es' s' := by
  obtain ⟨_, -, run⟩ := h.returned_ofExcept
  obtain ⟨_, -, run⟩ := run.returned_ofExcept
  rintro ⟨d, hd, d', hd', distinct⟩
  refine recordAndStop_returned run (decide_eq_true fun one => distinct ?_)
  obtain ⟨digest, hone⟩ := List.length_eq_one_iff.mp one
  have all : ∀ e ∈ providerDigests, e.2 = digest := fun e he => by
    have hm : e.2 ∈ (providerDigests.map Prod.snd).dedup := List.mem_dedup.mpr (List.mem_map_of_mem he)
    rwa [hone, List.mem_singleton] at hm
  rw [all d hd, all d' hd']

theorem checkEvidenceOperations_returned {collectorBacklog collectorHeartbeatAt diskAvailableBytes : Int}
    {checkedAt : Option Int}
    (h : Runs
    (checkEvidenceOperations engine runID collectorBacklog collectorHeartbeatAt diskAvailableBytes checkedAt) s es
      (.returned result) s' es') :
    (Call.checkEvidenceOperations runID collectorBacklog collectorHeartbeatAt diskAvailableBytes checkedAt).Judged
      engine es' s' := by
  obtain ⟨policy, hp, run⟩ := h.returned_ofExcept
  obtain ⟨checked, u, es₁, time, -, run⟩ := Runs.utc run
  obtain ⟨_, -, run⟩ := run.returned_ofExcept
  have stopped {code : String} {mode : TriggeredMode} (hc : evidenceOperationsCode policy collectorBacklog
      (ageSeconds checked collectorHeartbeatAt) diskAvailableBytes = (code, mode))
        (ht : code ≠ "evidence_operations_pass") :
      AtLeast mode.strictness s' runID := by
    dsimp only at run
    rw [hc] at run
    exact recordAndStop_returned run (decide_eq_true ht)
  refine ⟨policy, checked, orRevert_eq_ok.mp hp, time, fun disk => stopped (if_pos disk) (by decide), fun late => ?_⟩
  by_cases disk : diskAvailableBytes < policy.diskFloorBytes
  · exact (stopped (if_pos disk) (by decide)).mono (by decide)
  by_cases age : ageSeconds checked collectorHeartbeatAt > policy.collectorHeartbeatSeconds
  · exact stopped ((if_neg disk).trans (if_pos age)) (by decide)
  · exact stopped ((if_neg disk).trans ((if_neg age).trans (if_pos (late.resolve_left age)))) (by decide)

theorem manualStop_returned {mode : TriggeredMode} {decision : ControlDecision} {checkedAt : Option Int}
    (h : Runs (manualStop runID mode decision checkedAt) s es (.returned result) s' es') :
    (Call.manualStop runID mode decision checkedAt).Judged engine es' s' := by
  obtain ⟨checked, u, es₁, -, -, run⟩ := Runs.utc h
  cases mode with
  | drain =>
    obtain ⟨t, _, u, -, answer, run⟩ := Prog.Exec.returned_recorded run
    exact Runs.notWeaker run _ _ (drain_atLeast answer)
  | halted =>
    obtain ⟨t, _, u, -, answer, run⟩ := Prog.Exec.returned_recorded run
    exact Runs.notWeaker run _ _ (halt_atLeast answer)

end

/-! ## Outcomes -/

theorem utc_asks (checkedAt : Option Int) : Prog.Asks (fun op => ¬ Inserts op) (StopPolicyEngine.utc checkedAt) := by
  cases checkedAt with
  | some t => exact .done t
  | none => exact .call (by simp [Inserts])

theorem guarded_asks {op : StopOp} (hi : ¬ Inserts op) :
    Prog.Asks (fun op => ¬ Inserts op) (StopPolicyEngine.guarded op) :=
  .op hi fun _ => .ofExcept _

/-- An outcome of a run is committed. -/
def Committed (runID : String) (e : Prog.Asked StopOp (fun op => Except LabError op.Answer) StopStore) : Prop :=
  ∃ row rollingWindow t rows u, e = ⟨.insertOutcome row rollingWindow, t, .ok rows, u⟩ ∧ row.runID = runID

theorem Answers.outcomesOf {op : StopOp} {r : Except LabError op.Answer} (h : Answers s op r s')
    (hc : ¬ Committed runID ⟨op, s, r, s'⟩) : s'.outcomesOf runID = s.outcomesOf runID := by
  cases h with
  | insertOutcome h =>
    obtain ⟨ho, -⟩ := insertOutcome_eq h
    have other : ¬ (_ : OutcomeRow).runID = runID := fun he => hc ⟨_, _, _, _, _, rfl, he⟩
    rw [StopStore.outcomesOf, ho, List.filter_append, List.filter_cons_of_neg (by simpa using other), List.filter_nil,
      List.append_nil, StopStore.outcomesOf]
  | raises | now | budgetRow | controlState | drain | halt => rfl
  | recordEvent h =>
    have same := Answers.outcomes (.recordEvent h) (by simp [Inserts])
    rw [StopStore.outcomesOf, same, StopStore.outcomesOf]

/-- The outcomes of a run while none of it is committed. -/
theorem trail_outcomesOf (h : Prog.Trail (fun op s => Answers s op) Meanwhile s es s')
    (hc : ∀ e ∈ es, ¬ Committed runID e) :
    s'.outcomesOf runID = s.outcomesOf runID :=
  h.inv (I := fun t => t.outcomesOf runID = s.outcomesOf runID)
    (fun henv ht => (congrArg (fun os => (os.filter fun o : OutcomeRow => o.runID = runID).reverse) henv.2).trans ht)
    (fun hst hc ht => (hst.outcomesOf hc).trans ht) hc rfl

theorem not_committed {e : Prog.Asked StopOp (fun op => Except LabError op.Answer) StopStore} (h : ¬ Inserts e.op) :
    ¬ Committed runID e := by
  rintro ⟨row, rollingWindow, t, rows, u, rfl, -⟩
  exact h trivial

section

variable [StopLibraries] {engine : StopPolicyEngine}

/-- Nothing but the insertion inserts an outcome. -/
theorem recordAndStop_asks {category : PolicyCategory} {policyCode : String} {triggered : Bool}
    {threshold observed : PolicyDetails} {checkedAt : Option Int} {mode : TriggeredMode} :
    Prog.Asks (fun op => ¬ Inserts op)
      (recordAndStop runID category policyCode triggered threshold observed checkedAt mode) := by
  refine (utc_asks checkedAt).bind fun occurred => ?_
  refine (Prog.Asks.call_bind (by simp [Inserts]) fun _ => .done _).bind fun recorded => ?_
  cases triggered with
  | false => exact .done _
  | true =>
    refine Prog.Asks.bind ?_ fun _ => .done _
    refine (guarded_asks (by simp [Inserts])).bind fun row => ?_
    split
    · exact (guarded_asks (by simp [Inserts])).bind fun _ => (guarded_asks (by simp [Inserts])).bind fun _ => .done _
    · split
      · exact (guarded_asks (by simp [Inserts])).bind fun _ => (guarded_asks (by simp [Inserts])).bind fun _ => .done _
      · exact .done _

/-- The only call that commits an outcome. -/
theorem Call.asks {c : Call} (hc : ∀ runID outcomeID failed timedOut occurredAt,
    c ≠ .recordExecutionOutcome runID outcomeID failed timedOut occurredAt) :
    Prog.Asks (fun op => ¬ Inserts op) (c.prog engine) := by
  cases c with
  | checkBudget =>
    exact (Prog.Asks.ofExcept _).bind fun _ => .call_bind (by simp [Inserts]) fun row => recordAndStop_asks
  | checkQuote => exact (utc_asks _).bind fun _ => (Prog.Asks.ofExcept _).bind fun _ => recordAndStop_asks
  | recordExecutionOutcome => exact absurd rfl (hc _ _ _ _ _)
  | checkNonceGap | checkRPCAgreement | checkReorganization =>
    exact (Prog.Asks.ofExcept _).bind fun _ => (Prog.Asks.ofExcept _).bind fun _ => recordAndStop_asks
  | checkEvidenceOperations =>
    exact (Prog.Asks.ofExcept _).bind fun _ => (utc_asks _).bind fun _ => (Prog.Asks.ofExcept _).bind fun _ =>
      recordAndStop_asks
  | manualStop runID mode =>
    refine (utc_asks _).bind fun _ => ?_
    cases mode with
    | drain =>
      exact .call_bind (by simp [Inserts]) fun _ => .call_bind (by simp [Inserts]) fun _ =>
        .call_bind (by simp [Inserts]) fun _ => .done _
    | halted =>
      exact .call_bind (by simp [Inserts]) fun _ => .call_bind (by simp [Inserts]) fun _ =>
        .call_bind (by simp [Inserts]) fun _ => .done _

/-- A call that commits an outcome, at the point where it does. -/
structure Commit (engine : StopPolicyEngine) (runID outcomeID : String) (failed timedOut : Bool)
    (o : Prog.Outcome LabError PolicyResult) (es : Record) (s' : StopStore) (policy : ExecutionStopPolicy)
    (es₁ : Record) (t u : StopStore) (es₂ : Record) : Prop where
  configured : engine.execution = some policy
  record : es = es₁ ++ ⟨.insertOutcome ⟨outcomeID, runID, failed, timedOut⟩ policy.rollingWindow, t,
    .ok (selected policy (u.outcomesOf runID)), u⟩ :: es₂
  before : ∀ e ∈ es₁, ¬ Inserts e.op
  after : ∀ e ∈ es₂, ¬ Inserts e.op
  trail : Prog.Trail (fun op s => Answers s op) Meanwhile u es₂ s'
  judged : ∀ result, o = .returned result →
    outcomeCode policy (selected policy (u.outcomesOf runID)) ≠ "execution_outcome_pass" → AtLeast 2 s' runID

theorem recordExecutionOutcome_cases {outcomeID : String} {failed timedOut : Bool} {occurredAt : Option Int}
    {o : Prog.Outcome LabError PolicyResult}
    (h : Runs (recordExecutionOutcome engine runID outcomeID failed timedOut occurredAt) s [] o s' es) :
    (∃ policy es₁ t u es₂, Commit engine runID outcomeID failed timedOut o es s' policy es₁ t u es₂) ∨
      (∀ e ∈ es, ∀ runID, ¬ Committed runID e) ∧ ∀ result, o ≠ .returned result := by
  unfold recordExecutionOutcome at h
  cases hp : engine.executionPolicy with
  | error e =>
    rw [hp] at h
    cases h <;> exact .inr ⟨by simp, nofun⟩
  | ok policy =>
    simp only [hp, Prog.ofExcept, Prog.done_bind] at h
    obtain ⟨new₁, none₁, ⟨_, u₁, h⟩ | ⟨rfl, stopped⟩⟩ :=
      Prog.Exec.bind_trail (P := fun op => ¬ Inserts op) (.ofExcept _) h
    swap
    · exact .inr ⟨fun e he _ => not_committed (none₁ e (by simpa using he)), stopped⟩
    obtain ⟨new₂, none₂, ⟨occurred, u₂, h⟩ | ⟨rfl, stopped⟩⟩ := Prog.Exec.bind_trail (utc_asks _) h
    swap
    · refine .inr ⟨fun e he _ => not_committed ?_, stopped⟩
      rcases List.mem_append.mp he with he | he
      · exact none₁ e (by simpa using he)
      · exact none₂ e he
    have before : ∀ e ∈ [] ++ new₁ ++ new₂, ¬ Inserts e.op := List.forall_mem_append.mpr ⟨none₁, none₂⟩
    cases h with
    | cut => exact .inr ⟨fun e he _ => not_committed (before e he), nofun⟩
    | @op _ _ _ r _ _ _ hs he =>
      cases hs with
      | @step _ t u _ _ henv hst =>
        cases r with
        | error e =>
          have rejected : ∀ runID', ¬ Committed runID'
              ⟨.insertOutcome ⟨outcomeID, runID, failed, timedOut⟩ policy.rollingWindow, t, .error e, u⟩ := by
            rintro runID' ⟨row, rollingWindow, t', rows, u', heq, -⟩
            cases heq
          cases he <;>
            exact .inr
              ⟨List.forall_mem_append.mpr ⟨fun e he _ => not_committed (before e he), by simpa using rejected⟩, nofun⟩
        | ok rows =>
          cases hst with
          | insertOutcome h =>
            obtain ⟨-, rfl⟩ := insertOutcome_eq h
            obtain ⟨new, rfl, trail, after⟩ := Prog.Exec.trail recordAndStop_asks he
            refine .inl ⟨policy, _, t, u, new, orRevert_eq_ok.mp hp, by simp [selected], before, after, trail, ?_⟩
            rintro result rfl triggered
            exact recordAndStop_returned he (decide_eq_true triggered)

theorem Commit.outcomesOf {outcomeID : String} {failed timedOut : Bool} {o : Prog.Outcome LabError PolicyResult}
    {policy : ExecutionStopPolicy} {es₁ es₂ : Record} {t u : StopStore}
    (h : Commit engine runID outcomeID failed timedOut o es s' policy es₁ t u es₂) :
    s'.outcomesOf runID = u.outcomesOf runID :=
  trail_outcomesOf h.trail fun e he => not_committed (h.after e he)

/-- A call that commits an outcome of a run is `record_execution_outcome`. -/
theorem commit_of_committed {c : Call} {o : Prog.Outcome LabError PolicyResult} (h : Runs (c.prog engine) s [] o s' es)
    (hc : ∃ e ∈ es, Committed runID e) : ∃ outcomeID failed timedOut policy es₁ t u es₂,
      Commit engine runID outcomeID failed timedOut o es s' policy es₁ t u es₂ := by
  obtain ⟨e, he, committed⟩ := hc
  by_cases hr :
    ∀ runID outcomeID failed timedOut occurredAt, c ≠ .recordExecutionOutcome runID outcomeID failed timedOut occurredAt
  · obtain ⟨new, rfl, -, hnew⟩ := Prog.Exec.trail (Call.asks hr) h
    exact absurd committed (not_committed (hnew e (by simpa using he)))
  · simp only [not_forall, not_not] at hr
    obtain ⟨runID', outcomeID, failed, timedOut, occurredAt, rfl⟩ := hr
    rcases recordExecutionOutcome_cases h with ⟨policy, es₁, t, u, es₂, commit⟩ | ⟨uncommitted, -⟩
    · have same : runID' = runID := by
        have hm := commit.record ▸ he
        rcases List.mem_append.mp hm with hm | hm
        · exact absurd committed (not_committed (commit.before e hm))
        · rcases List.mem_cons.mp hm with rfl | hm
          · obtain ⟨row, rollingWindow, t', rows, u', heq, rfl⟩ := committed
            cases heq
            rfl
          · exact absurd committed (not_committed (commit.after e hm))
      exact ⟨outcomeID, failed, timedOut, policy, es₁, t, u, es₂, same ▸ commit⟩
    · exact absurd committed (uncommitted e he runID)

/-- A check that returns leaves the run as strict as the thresholds that it has found met demand. -/
theorem returned_judged {c : Call} {result : PolicyResult} (h : Runs (c.prog engine) s [] (.returned result) s' es) :
    c.Judged engine es s' := by
  cases c with
  | checkBudget => exact checkBudget_returned h
  | checkQuote => exact checkQuote_returned h
  | recordExecutionOutcome runID outcomeID failed timedOut occurredAt =>
    rcases recordExecutionOutcome_cases h with ⟨policy, es₁, t, u, es₂, commit⟩ | ⟨-, stopped⟩
    · refine ⟨policy, u.outcomesOf runID, commit.configured, ?_, commit.outcomesOf.symm, fun hn exceeded =>
        commit.judged result rfl (outcomeCode_of_exceeded hn exceeded)⟩
      exact ⟨t, u, commit.record ▸ List.mem_append_right _ List.mem_cons_self⟩
    · exact absurd rfl (stopped result)
  | checkNonceGap => exact checkNonceGap_returned h
  | checkRPCAgreement => exact checkRPCAgreement_returned h
  | checkReorganization => exact checkReorganization_returned h
  | checkEvidenceOperations => exact checkEvidenceOperations_returned h
  | manualStop => exact manualStop_returned h

end

/-! ## Histories -/

/-- What happens to the controls and the outcomes: a call of the engine, with how it ended and what it
asked, a call for the controls, with whether it raised, or something else. -/
inductive Event
  | check (call : Call) (outcome : Prog.Outcome LabError PolicyResult) (es : Record)
  | control (call : RunControlManager.Call) (result : Except LabError Unit)
  | others

/-- An outcome of the run is committed. -/
def Event.Commits (runID : String) : Event → Prop
  | check _ _ es => ∃ e ∈ es, Committed runID e
  | _ => False

/-- The run was resumed, and no outcome of it was committed since. -/
def Excused (runID : String) (hs : List Event) : Prop :=
  ∃ hs₁ decision approvalStateChanged hs₂,
    hs = hs₁ ++ .control (.resume runID decision approvalStateChanged) (.ok ()) :: hs₂ ∧ ∀ h ∈ hs₂, ¬ h.Commits runID

/-- The run is halted here. -/
def Halts (runID : String) (e : Prog.Asked StopOp (fun op => Except LabError op.Answer) StopStore) : Prop :=
  ∃ decision t u, e = ⟨.halt runID decision, t, .ok (), u⟩

/-- A call ends, by a crash or with an error, between the commit of an outcome with which its run is over a
threshold, and the halt that it demands. -/
def Event.Interrupted (policy : ExecutionStopPolicy) : Event → Prop
  | check _ outcome es => (∀ result, outcome ≠ .returned result) ∧ ∃ es₁ row t u es₂,
    es = es₁ ++ ⟨.insertOutcome row policy.rollingWindow, t, .ok (selected policy (u.outcomesOf row.runID)), u⟩ :: es₂ ∧
      OutcomesExceeded policy (u.outcomesOf row.runID) ∧ ¬ AtLeast 2 u row.runID ∧ ∀ e ∈ es₂, ¬ Halts row.runID e
  | _ => False

/-- Only a resumption makes the controls of a run less strict than halted. -/
theorem control_atLeast {c : RunControlManager.Call} (h : AtLeast 2 s runID)
    (hr : ∀ decision approvalStateChanged, c = .resume runID decision approvalStateChanged →
      (c.commit s.store).map (fun _ => ()) ≠ .ok ()) : AtLeast 2 { s with store := c.after s.store } runID := by
  unfold RunControlManager.Call.after
  cases hc : c.commit s.store with
  | error e => exact h
  | ok store =>
    cases c with
    | initializeRun runID' decision =>
      obtain ⟨-, hc⟩ := unit_bind.mp hc
      obtain ⟨run, -, hc⟩ := orRevert_bind.mp hc
      obtain ⟨hn, hc⟩ := revertIf_bind.mp hc
      obtain ⟨-, hc⟩ := revertIf_bind.mp hc
      obtain ⟨-, rfl⟩ := RunControlManager.putControlEvents_eq_ok.mp hc
      obtain ⟨row, hrow, hn'⟩ := h
      have other : runID ≠ runID' := fun he => by
        rw [← he, not_not, hrow] at hn
        cases hn
      exact ⟨row, (Function.update_of_ne other ..).trans hrow, hn'⟩
    | drain => exact transition_notWeaker hc (by decide) _ _ h
    | halt => exact transition_notWeaker hc (by decide) _ _ h
    | revoke => exact transition_notWeaker hc (by decide) _ _ h
    | resume runID' decision approvalStateChanged =>
      have other : runID ≠ runID' := fun he => hr decision approvalStateChanged (he ▸ rfl) (by rw [hc]; rfl)
      obtain ⟨-, hc⟩ := revertIf_bind.mp hc
      obtain ⟨row', -, -, controls⟩ := transition_controls hc
      obtain ⟨row, hrow, hn⟩ := h
      exact ⟨row, (congrFun controls runID).trans ((Function.update_of_ne other ..).trans hrow), hn⟩
    | stop =>
      obtain ⟨state, -, hc⟩ := bind_eq_ok.mp hc
      split at hc
      · exact transition_notWeaker hc (by decide) _ _ h
      · split at hc
        · exact transition_notWeaker hc (by decide) _ _ h
        · obtain rfl := pure_eq_ok.mp hc
          exact h

theorem Excused.snoc {hs : List Event} {h : Event} (he : Excused runID hs) (hc : ¬ h.Commits runID) :
    Excused runID (hs ++ [h]) := by
  obtain ⟨hs₁, decision, approvalStateChanged, hs₂, rfl, none⟩ := he
  exact ⟨hs₁, decision, approvalStateChanged, hs₂ ++ [h], by simp, List.forall_mem_append.mpr ⟨none, by simpa using hc⟩⟩

theorem not_exceeded_nil {policy : ExecutionStopPolicy} : ¬ OutcomesExceeded policy [] := by
  rintro (⟨hk, -⟩ | ⟨-, failed, -⟩ | timeouts)
  · exact absurd hk (Nat.not_le.mpr policy.consecutiveFailures.pos)
  · simp at failed
  · exact absurd timeouts (Nat.not_le.mpr policy.timeoutCount.pos)

section

variable [StopLibraries] {engine : StopPolicyEngine} {policy : ExecutionStopPolicy} {hs : List Event} {s₀ : StopStore}

inductive HistoryStep (engine : StopPolicyEngine) : StopStore → Event → StopStore → Prop
  | check {s s' : StopStore} {c : Call} {o : Prog.Outcome LabError PolicyResult} {es : Record} :
    Runs (c.prog engine) s [] o s' es → HistoryStep engine s (.check c o es) s'
  | control (s : StopStore) (c : RunControlManager.Call) :
    HistoryStep engine s (.control c ((c.commit s.store).map fun _ => ())) { s with store := c.after s.store }
  | others {s s' : StopStore} : Meanwhile s s' → HistoryStep engine s .others s'

/-- A call for the controls that does not raise. -/
theorem control_of_ok {c : RunControlManager.Call} {store : Store} (h : c.commit s.store = .ok store) :
    HistoryStep engine s (.control c (.ok ())) { s with store } := by
  have step : HistoryStep engine s _ _ := .control s c
  rw [RunControlManager.Call.after, h] at step
  exact step

/-- A call that commits an outcome with which its run is over a threshold halts it, unless it is interrupted. -/
theorem commit_stops {c : Call} {o : Prog.Outcome LabError PolicyResult} (hp : engine.execution = some policy)
    (h : Runs (c.prog engine) s [] o s' es) (hi : ¬ (Event.check c o es).Interrupted policy)
    (hc : ∃ e ∈ es, Committed runID e) (hn : (s'.outcomesOf runID).length ≤ 2 ^ 53)
      (exceeded : OutcomesExceeded policy (s'.outcomesOf runID)) :
    AtLeast 2 s' runID := by
  obtain ⟨outcomeID, failed, timedOut, policy', es₁, t, u, es₂, commit⟩ := commit_of_committed h hc
  obtain rfl := Option.some.inj (commit.configured.symm.trans hp)
  rw [commit.outcomesOf] at hn exceeded
  by_cases hr : ∃ result, o = .returned result
  · obtain ⟨result, rfl⟩ := hr
    exact commit.judged result rfl (outcomeCode_of_exceeded hn exceeded)
  · have unweakened {u' : StopStore} {new : Record}
        (trail : Prog.Trail (fun op s => Answers s op) Meanwhile u' new s') :
        NotWeaker u' s' :=
          trail.mono NotWeaker.refl NotWeaker.trans (fun henv => notWeaker_of_eq henv.1) Answers.notWeaker
    by_contra weak
    refine hi ⟨fun result ho => hr ⟨result, ho⟩, es₁, _, t, u, es₂, commit.record, exceeded,
      fun strict => weak (unweakened commit.trail 2 runID strict), ?_⟩
    rintro e he ⟨decision, t', u', rfl⟩
    obtain ⟨es₃, es₄, rfl⟩ := List.append_of_mem he
    obtain ⟨_, -, -, halted, trail⟩ := commit.trail.split
    exact weak (unweakened trail 2 runID (halt_atLeast halted))

/-- A run with outcomes over a threshold is halted, unless it is excused. -/
theorem stopped_of_run (hp : engine.execution = some policy) (h₀ : s₀.outcomes = [])
    (h : Run (HistoryStep engine) s₀ hs s) (hi : ∀ e ∈ hs, ¬ e.Interrupted policy)
    (hn : (s.outcomesOf runID).length ≤ 2 ^ 53) (exceeded : OutcomesExceeded policy (s.outcomesOf runID)) :
    AtLeast 2 s runID ∨ Excused runID hs := by
  refine h.snoc_induction (P := fun hs s => (∀ e ∈ hs, ¬ e.Interrupted policy) → (s.outcomesOf runID).length ≤ 2 ^ 53 →
    OutcomesExceeded policy (s.outcomesOf runID) → AtLeast 2 s runID ∨ Excused runID hs) ?_ ?_ hi hn exceeded
  · intro _ _ exceeded
    rw [StopStore.outcomesOf, h₀] at exceeded
    exact absurd exceeded not_exceeded_nil
  · intro hs s e s' hr ih step uninterrupted hn exceeded
    obtain ⟨hi', hie⟩ := List.forall_mem_append.mp uninterrupted
    cases step with
    | @check _ c o es run =>
      by_cases hc : ∃ e ∈ es, Committed runID e
      · exact .inl (commit_stops hp run (hie _ (List.mem_singleton_self _)) hc hn exceeded)
      · obtain ⟨new, rfl, trail, -⟩ := Prog.Exec.trail (.trivial _) run
        have same : s'.outcomesOf runID = s.outcomesOf runID :=
          trail_outcomesOf trail fun e he committed => hc ⟨e, he, committed⟩
        rw [same] at hn exceeded
        exact (ih hi' hn exceeded).imp (Runs.notWeaker run 2 runID) (Excused.snoc · hc)
    | control c =>
      rcases ih hi' hn exceeded with strict | excused
      · by_cases hresume : ∃ decision changed, c = .resume runID decision changed ∧
            (c.commit s.store).map (fun _ => ()) = .ok ()
        · obtain ⟨decision, changed, rfl, resumed⟩ := hresume
          exact .inr ⟨hs, decision, changed, [], by rw [resumed], by simp⟩
        · exact .inl
            (control_atLeast strict fun decision changed hc resumed => hresume ⟨decision, changed, hc, resumed⟩)
      · exact .inr (excused.snoc id)
    | others henv =>
      have same : s'.outcomesOf runID = s.outcomesOf runID := by rw [StopStore.outcomesOf, henv.2, StopStore.outcomesOf]
      rw [same] at hn exceeded
      exact (ih hi' hn exceeded).imp (notWeaker_of_eq henv.1 2 runID) (Excused.snoc · id)

/-- An outcome that was committed, as by a call that was then interrupted, cannot be recorded again. -/
theorem repeated_not_returned {outcomeID : String} {failed timedOut : Bool} {occurredAt : Option Int}
    {result : PolicyResult} (repeated : ∃ o ∈ s.outcomes, o.outcomeID = outcomeID) :
    ¬ Runs (recordExecutionOutcome engine runID outcomeID failed timedOut occurredAt) s []
    (.returned result) s' es := by
  intro h
  rcases recordExecutionOutcome_cases h with ⟨policy, es₁, t, u, es₂, commit⟩ | ⟨-, stopped⟩
  · obtain ⟨new, rfl, trail, -⟩ := Prog.Exec.trail (.trivial _) h
    obtain rfl := commit.record
    obtain ⟨t', before, henv, inserted, -⟩ := trail.split
    have kept : t'.outcomes = s.outcomes := before.inv (I := fun t => t.outcomes = s.outcomes)
      (fun henv ht => henv.2.trans ht) (fun hst hi ht => (hst.outcomes hi).trans ht) commit.before rfl
    cases inserted with
    | insertOutcome inserted =>
      obtain ⟨fresh, -⟩ := revertIf_bind.mp inserted
      rw [not_or] at fresh
      exact fresh.2 (henv.2.trans kept ▸ repeated)
  · exact stopped result rfl

/-- A check that returns leaves the run as strict as the thresholds that it has found met demand; no part of a
check weakens the controls; and a run with outcomes over a threshold is halted, unless it was resumed and has
none committed since, if no call was interrupted between the commit of an outcome and its halt. -/
theorem stop_policies_stop (engine : StopPolicyEngine) :
    (∀ (c : Call) s result s' es, Runs (c.prog engine) s [] (.returned result) s' es → c.Judged engine es s') ∧
      (∀ (c : Call) s o s' es, Runs (c.prog engine) s [] o s' es → NotWeaker s s') ∧
      ∀ policy s₀ hs s runID, engine.execution = some policy → s₀.outcomes = [] → Run (HistoryStep engine) s₀ hs s →
        (∀ e ∈ hs, ¬ e.Interrupted policy) → (s.outcomesOf runID).length ≤ 2 ^ 53 →
        OutcomesExceeded policy (s.outcomesOf runID) → AtLeast 2 s runID ∨ Excused runID hs :=
  ⟨fun _ _ _ _ _ => returned_judged, fun _ _ _ _ _ => Runs.notWeaker, fun _ _ _ _ _ => stopped_of_run⟩

end

/-! ## Runs that are left running -/

/-- A digest of zeros. -/
def zeros : String := String.ofList (List.replicate 64 '0')

theorem toList_zeros : zeros.toList = List.replicate 64 '0' := String.toList_ofList

theorem zeros_lowerSHA256 : LowerSHA256 zeros := by
  have length : zeros.length = 64 := by rw [← String.length_toList, toList_zeros, List.length_replicate]
  refine ⟨length, fun c hc => ?_⟩
  rw [toList_zeros] at hc
  rw [List.eq_of_mem_replicate hc]
  show '0' ∈ "0123456789abcdef".toList
  simp

theorem validateDecision_zeros {decisionID reasonCode : String} (hd : decisionID ≠ "") (hr : reasonCode ≠ "") :
    RunControlManager.validateDecision ⟨decisionID, zeros, reasonCode, none⟩ = .ok () := by
  refine unit_bind.mpr ⟨revertIf_eq_ok.mpr (not_or.mpr ⟨hd, hr⟩), unit_bind.mpr
    ⟨revertIf_eq_ok.mpr (not_not.mpr zeros_lowerSHA256), revertIf_eq_ok.mpr ?_⟩⟩
  rintro ⟨digest, hm, -⟩
  cases hm

/-- A transition that is allowed. -/
theorem transition_eq_ok {s : Store} {allowedFrom : List ControlMode} {toMode : ControlMode}
    {decision : ControlDecision} (row : ControlRow) (valid : RunControlManager.validateDecision decision = .ok ())
    (hr : s.runControls runID = some row) (hm : row.mode ∈ allowedFrom)
    (hc : ControlEventRow.Constraints (s.controlEvents ++ [⟨runID, some row.mode, toMode, decision⟩])) :
    RunControlManager.transition s runID allowedFrom toMode decision = .ok { s with
      runControls := Function.update s.runControls runID (some ⟨toMode, decision, row.sequence + 1⟩)
      runs := Function.update s.runs runID ((s.runs runID).map fun _ => toMode)
      controlEvents := s.controlEvents ++ [⟨runID, some row.mode, toMode, decision⟩] } := by
  refine unit_bind.mpr ⟨valid, orRevert_bind.mpr ⟨row, hr, revertIf_bind.mpr ⟨not_not.mpr hm, ?_⟩⟩⟩
  exact RunControlManager.putControlEvents_eq_ok.mpr ⟨hc, rfl⟩

def decision : ControlDecision := ⟨"decision", zeros, "reason", none⟩

/-- Every event has one identity, every digest is zero, and products are exact. -/
@[reducible] def exactLibraries : StopLibraries where
  eventID _ := "stop"
  decisionSHA256 _ _ _ := zeros
  product rate n := rate * n
  product_le _ _ h := h

def engineOf (policy : ExecutionStopPolicy) : StopPolicyEngine := ⟨⟨0, 0⟩, some policy, none⟩

/-- A run that is running, without outcomes. -/
def running : StopStore where
  store := { Store.empty with
    runs := Function.update (fun _ => none) "run" (some .running)
    runControls := Function.update (fun _ => none) "run" (some ⟨.running, decision, 1⟩) }
  outcomes := []
  events := []

/-- One failure halts, or one that timed out. -/
def oneFailure : ExecutionStopPolicy := ⟨1, 1, 1, 1, by decide, by decide⟩

/-- A window of one outcome, with a rate of zero. -/
def rateZero : ExecutionStopPolicy := ⟨Nat.succPNat 1, 1, 0, 1, le_refl 0, zero_le_one⟩

/-- What the failure of the run halts it with. -/
def failed : ControlDecision := ⟨"stop", zeros, "consecutive_failures", none⟩

/-- The run after its failure. -/
def halted : StopStore where
  store := { running.store with
    runs := Function.update running.store.runs "run" ((running.store.runs "run").map fun _ => .halted)
    runControls := Function.update running.store.runControls "run" (some ⟨.halted, failed, 2⟩)
    controlEvents := [⟨"run", some .running, .halted, failed⟩] }
  outcomes := [⟨"first", "run", true, false⟩]
  events := [⟨"stop", "run", .execution, "consecutive_failures", true⟩]

theorem validateDecision_failed : RunControlManager.validateDecision failed = .ok () :=
  validateDecision_zeros (by decide) (by decide)

/-- The run after it was resumed. -/
def resumed : StopStore where
  store := { halted.store with
    runs := Function.update halted.store.runs "run" ((halted.store.runs "run").map fun _ => .running)
    runControls := Function.update halted.store.runControls "run" (some ⟨.running, decision, 3⟩)
    controlEvents := halted.store.controlEvents ++ [⟨"run", some .halted, .running, decision⟩] }
  outcomes := halted.outcomes
  events := halted.events

theorem resume_halted : RunControlManager.resume halted.store "run" decision false = .ok resumed.store := by
  have valid : RunControlManager.validateDecision decision = .ok () := validateDecision_zeros (by decide) (by decide)
  exact revertIf_bind.mpr ⟨by decide, transition_eq_ok ⟨.halted, failed, 2⟩ valid rfl (by decide) (by decide)⟩

theorem halted_resumed : @HistoryStep exactLibraries (engineOf oneFailure) halted
    (.control (.resume "run" decision false) (.ok ())) resumed := by
  let _ := exactLibraries
  exact control_of_ok resume_halted

theorem resumed_running : ¬ AtLeast 1 resumed "run" := by
  rintro ⟨row, hr, hn⟩
  have controls : resumed.store.runControls "run" = some ⟨.running, decision, 3⟩ := by
    show Function.update halted.store.runControls "run" (some ⟨.running, decision, 3⟩) "run" = _
    rw [Function.update_self]
  obtain rfl := Option.some.inj (hr.symm.trans controls)
  exact absurd hn (by decide)

theorem halted_of_failure : ∃ es, Runs (@Call.prog exactLibraries (engineOf oneFailure)
    (.recordExecutionOutcome "run" "first" true false (some 0))) running []
    (.returned ⟨"stop", "consecutive_failures", true⟩) halted es := by
  have inserted : running.insertOutcome ⟨"first", "run", true, false⟩ 1 =
      .ok (⟨halted.outcomes, 0⟩, { running with outcomes := halted.outcomes }) := rfl
  have recorded : ({ running with outcomes := halted.outcomes } : StopStore).recordEvent
      ⟨"stop", "run", .execution, "consecutive_failures", true⟩ = .ok { halted with store := running.store } := rfl
  have halting : RunControlManager.halt running.store "run" failed = .ok halted.store :=
    transition_eq_ok ⟨.running, decision, 1⟩ validateDecision_failed rfl (by decide) (by decide)
  have state : RunControlManager.state running.store "run" = .ok ⟨.running, decision, 1⟩ := rfl
  have state' : RunControlManager.state halted.store "run" = .ok ⟨.halted, failed, 2⟩ := rfl
  exact ⟨_, .op (.step ⟨rfl, rfl⟩ (.insertOutcome inserted)) <| .op (.step ⟨rfl, rfl⟩ (.recordEvent recorded)) <|
    .op (.step ⟨rfl, rfl⟩ (.controlState state)) <| .op (.step ⟨rfl, rfl⟩ (.halt halting)) <|
    .op (.step ⟨rfl, rfl⟩ (.controlState state')) .done⟩

theorem stop_policies_stop_halted : AtLeast 2 halted "run" ∧ NotWeaker running halted ∧
    ∃ es, (Call.recordExecutionOutcome "run" "first" true false (some 0)).Judged (engineOf oneFailure) es halted := by
  let _ := exactLibraries
  obtain ⟨es, failure⟩ := halted_of_failure
  obtain ⟨judged, notWeaker, stopped⟩ := stop_policies_stop (engineOf oneFailure)
  refine ⟨?_, notWeaker _ _ _ _ _ failure, es, judged _ _ _ _ _ failure⟩
  have uninterrupted : ∀ e ∈ [Event.check (.recordExecutionOutcome "run" "first" true false (some 0))
      (.returned ⟨"stop", "consecutive_failures", true⟩) es], ¬ e.Interrupted oneFailure := by
    intro e he hi
    rw [List.mem_singleton.mp he] at hi
    exact hi.1 _ rfl
  refine (stopped oneFailure running _ halted "run" rfl rfl (.single (.check failure)) uninterrupted (by decide)
    (.inl ⟨by decide, by decide⟩)).resolve_right ?_
  rintro ⟨hs₁, decision, changed, hs₂, split, -⟩
  cases hs₁ with
  | nil => cases split
  | cons h hs₁ =>
    obtain ⟨-, split⟩ := List.cons.inj split
    exact absurd split (by simp)

/-- A run is resumed after the failure that halted it; and another has a full window of successes, of which the
failures are at its rate of zero. -/
theorem left_running :
    (∃ hs s, Run (@HistoryStep exactLibraries (engineOf oneFailure)) running hs s ∧
      ConsecutiveExceeded oneFailure (s.outcomesOf "run") ∧ ¬ AtLeast 1 s "run") ∧
    ∃ c result es s, Run (@HistoryStep exactLibraries (engineOf rateZero)) running [.check c (.returned result) es] s ∧
      rateZero.rollingWindow ≤ (s.outcomesOf "run").length ∧
      rateZero.rollingFailureRate * (rateZero.rollingWindow : Nat) ≤
        ((s.outcomesOf "run").take rateZero.rollingWindow).countP (·.failed) ∧ ¬ AtLeast 1 s "run" := by
  let _ := exactLibraries
  constructor
  · obtain ⟨es, failure⟩ := halted_of_failure
    exact ⟨_, resumed, .cons (.check failure) (.single halted_resumed), ⟨by decide, by decide⟩, resumed_running⟩
  · have inserted : running.insertOutcome ⟨"first", "run", false, false⟩ 1 =
        .ok (⟨[⟨"first", "run", false, false⟩], 0⟩, { running with outcomes := [⟨"first", "run", false, false⟩] }) :=
          rfl
    have recorded : ({ running with outcomes := [⟨"first", "run", false, false⟩] } : StopStore).recordEvent
        ⟨"stop", "run", .execution, "execution_outcome_pass", false⟩ = .ok { running with
          outcomes := [⟨"first", "run", false, false⟩]
          events := [⟨"stop", "run", .execution, "execution_outcome_pass", false⟩] } := rfl
    refine ⟨.recordExecutionOutcome "run" "first" false false (some 0), ⟨"stop", "execution_outcome_pass", false⟩, _, _,
      .single (.check <| .op (.step ⟨rfl, rfl⟩ (.insertOutcome inserted)) <|
        .op (.step ⟨rfl, rfl⟩ (.recordEvent recorded)) .done), by decide, (zero_mul _).trans_le (Nat.cast_nonneg _), ?_⟩
    rintro ⟨row, hr, hn⟩
    cases hr
    exact absurd hn (by decide)

end StopPolicyEngine

end Xir.Impl.XirLab
