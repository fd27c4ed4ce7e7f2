import Xir.Impl.XirLab.Reconcile
import Xir.Proof.Outcomes

/-!
# Runs that the reconciler accepts

The identities of `reconcile` count the attempts of a run that were submitted, that
are `not_submitted`, and that have a row for their deadline. In a run of the methods
that attempts are executed through, only `mark_deadline_timeout` writes such a row,
and nothing says `not_submitted` (`Tables`). The identities hold for every scope
exactly if each attempt was submitted, and timed out at its deadline (`accepts_iff`).
-/

namespace Xir.Impl.XirLab

/-! ## The issues -/

namespace RunReconciler

variable {runID : String} {rows : List RunRow} {expectations : List CountExpectation} {scopeIDs : List String}
  {i : ReconciliationIssue}

/-- The issues that the identities and the pending attempts of a scope give. -/
def identityCodes : List IssueCode := [.plannedSubmissionIdentity, .submittedTerminalIdentity, .freezeScopePending]

theorem mem_identityIssue {code : IssueCode} {whole part rest : Nat} :
    i ∈ identityIssue runID code whole part rest ↔ whole ≠ part + rest ∧
      i = ⟨code, runID, toString whole ++ " != " ++ toString part ++ " + " ++ toString rest⟩ := by
  rw [identityIssue]
  split
  · rw [List.mem_singleton]
    exact (and_iff_right ‹_›).symm
  · exact iff_of_false List.not_mem_nil fun h => absurd h.1 ‹_›

theorem mem_scopeIssue {row : RunRow} : i ∈ scopeIssue scopeIDs row ↔
    (row.attemptID ∈ scopeIDs ∧ (row.terminalAtDeadline = false ∨ row.backfillState = .pending)) ∧
      i = ⟨.freezeScopePending, row.attemptID, "scope attempt lacks reconciled deadline or has pending backfill"⟩ := by
  rw [scopeIssue]
  split
  · rw [List.mem_singleton]
    exact (and_iff_right ‹_›).symm
  · exact iff_of_false List.not_mem_nil fun h => absurd h.1 ‹_›

theorem retryIssue_code {row : RunRow} (h : i ∈ retryIssue rows row) : i.code = .retryLineage := by
  rw [retryIssue] at h
  split at h
  · rw [List.mem_singleton.mp h]
  · cases h

/-- The other issues are of other codes. -/
theorem mem_issues_iff (h : i.code ∈ identityCodes) : i ∈ issues runID rows expectations scopeIDs ↔
    i ∈ identityIssues runID rows ∨ ∃ row ∈ rows, i ∈ scopeIssue scopeIDs row := by
  have other (c : IssueCode) (hc : c ∉ identityCodes) (he : i.code = c) : False := hc (he ▸ h)
  have hcount : i ∉ countIssues rows expectations := by
    intro hm
    obtain ⟨key, -, rfl⟩ := List.mem_map.mp hm
    exact other .conditionArmKindCount (by decide) rfl
  have hpair : i ∉ pairIssues rows := by
    intro hm
    obtain ⟨pairID, -, rfl⟩ := List.mem_map.mp hm
    exact other .primaryPairArms (by decide) rfl
  have hretry (row : RunRow) : i ∉ retryIssue rows row := fun hm => other .retryLineage (by decide) (retryIssue_code hm)
  have hmissing : i ∉ missingIssues rows scopeIDs := by
    intro hm
    obtain ⟨attemptID, -, rfl⟩ := List.mem_map.mp hm
    exact other .freezeScopeMissing (by decide) rfl
  simp only [issues, List.mem_append, List.mem_flatMap, hcount, hpair, hretry, hmissing, false_or, or_false]

/-- None of the issues of the identities, where nothing is `not_submitted` and no backfill is pending. -/
theorem no_identity_issue_iff (hn : ∀ row ∈ rows, row.state ≠ .other "not_submitted")
    (hb : ∀ row ∈ rows, row.backfillState ≠ .pending) :
    (∀ i ∈ issues runID rows expectations scopeIDs, i.code ∉ identityCodes) ↔
      (∀ row ∈ rows, row.submitted = true) ∧ submittedCount rows = terminalCount rows ∧
        ∀ row ∈ rows, row.attemptID ∈ scopeIDs → row.terminalAtDeadline = true := by
  have notSubmitted : notSubmittedCount rows = 0 := by
    rw [notSubmittedCount, List.countP_eq_zero]
    exact fun row hr => by simpa using hn row hr
  have pending : pendingCount rows = 0 := by
    rw [pendingCount, List.countP_eq_zero]
    exact fun row hr => by simpa using hb row hr
  have all : rows.length = submittedCount rows ↔ ∀ row ∈ rows, row.submitted = true :=
    eq_comm.trans List.countP_eq_length
  constructor
  · intro h
    have holds (c : IssueCode) (hc : c ∈ identityCodes) {whole part rest : Nat}
        (hm : ∀ i ∈ identityIssue runID c whole part rest, i ∈ identityIssues runID rows) : whole = part + rest := by
      by_contra hne
      have hi : _ ∈ identityIssue runID c whole part rest := mem_identityIssue.mpr ⟨hne, rfl⟩
      exact h _ ((mem_issues_iff hc).mpr (.inl (hm _ hi))) hc
    have planned : rows.length = submittedCount rows + notSubmittedCount rows :=
      holds .plannedSubmissionIdentity (by decide) fun i hi => List.mem_append_left _ hi
    have terminal : submittedCount rows = terminalCount rows + pendingCount rows :=
      holds .submittedTerminalIdentity (by decide) fun i hi => List.mem_append_right _ hi
    refine ⟨all.mp (by omega), by omega, fun row hr hs => ?_⟩
    by_contra ht
    have hc : IssueCode.freezeScopePending ∈ identityCodes := by decide
    have hi : _ ∈ scopeIssue scopeIDs row := mem_scopeIssue.mpr ⟨⟨hs, .inl (Bool.eq_false_iff.mpr ht)⟩, rfl⟩
    exact h _ ((mem_issues_iff hc).mpr (.inr ⟨row, hr, hi⟩)) hc
  · rintro ⟨hsub, hterm, hscope⟩ i hi hc
    have planned := all.mpr hsub
    obtain hi | ⟨row, hr, hi⟩ := (mem_issues_iff hc).mp hi
    · obtain hi | hi := List.mem_append.mp hi
      · exact (mem_identityIssue.mp hi).1 (by omega)
      · exact (mem_identityIssue.mp hi).1 (by omega)
    · obtain ⟨⟨hs, ht | hp⟩, -⟩ := mem_scopeIssue.mp hi
      · exact absurd (hscope row hr hs) (by simp [ht])
      · exact hb row hr hp

end RunReconciler

/-! ## What the operations write -/

/-- An operation that writes a row for a deadline only for a timeout, and no state that it is handed. -/
def AttemptOp.Plain : AttemptOp → Prop
  | updateAttemptState .. => False
  | appendOutcome row => row.kind = .deadline → row.outcome = "timed_out"
  | _ => True

namespace AttemptStore

variable {s s' : AttemptStore}

theorem setState_cases (id : String) (t : AttemptState) (id' : String) :
    (s.setState id t).state id' = s.state id' ∨ (s.setState id t).state id' = some t := by
  rw [setState_state]
  by_cases h : id' = id
  · rw [if_pos h, h]
    cases s.state id with
    | none => exact .inl rfl
    | some u => exact .inr rfl
  · exact .inl (if_neg h)

theorem markSourceInFlight_state {reservationID : String} (h : s.markSourceInFlight reservationID = .ok s')
    (id : String) :
    s'.state id = s.state id ∨ s'.state id = some .inFlight := by
  obtain ⟨store', hm, h⟩ := bind_eq_ok.mp h
  obtain ⟨first, runState, rest, hr, hw⟩ := leases_markSourceInFlight hm
  simp only [hr] at h
  obtain ⟨hf, rfl⟩ | ⟨hf, attempt, ha, hp, hs⟩ := hw
  · rw [if_pos hf, pure_eq_ok] at h
    obtain rfl := h
    exact .inl rfl
  · rw [if_neg hf, pure_eq_ok] at h
    obtain rfl := h
    simp only [appendTransition, state, hs, Function.update_apply]
    split
    · exact .inr rfl
    · exact .inl rfl

/-- The outcomes after an operation. -/
theorem does_outcomes {op : AttemptOp} {a : op.Answer} (h : s.does op = .ok (s', a)) :
    s'.outcomes = s.outcomes ∨ ∃ row, op = .appendOutcome row ∧ s'.outcomes = s.outcomes ++ [row] := by
  cases op with
  | updateAttemptState =>
    obtain ⟨current, -, h⟩ := orRevert_bind.mp (commit_eq_ok.mp h)
    obtain ⟨-, h⟩ := revertIf_bind.mp h
    obtain rfl := pure_eq_ok.mp h
    exact .inl rfl
  | markSourceInFlight =>
    obtain ⟨store', hm, h⟩ := bind_eq_ok.mp (commit_eq_ok.mp h)
    obtain ⟨first, runState, rest, hr, -⟩ := leases_markSourceInFlight hm
    simp only [hr] at h
    split at h
    · exact .inl (congrArg AttemptStore.outcomes (pure_eq_ok.mp h)).symm
    · exact .inl (congrArg AttemptStore.outcomes (pure_eq_ok.mp h)).symm
  | completeAttempt =>
    obtain ⟨current, -, ⟨-, rfl⟩ | ⟨-, rfl⟩⟩ := completeAttempt_cases (commit_eq_ok.mp h)
    · exact .inl rfl
    · exact .inl rfl
  | window | state | validateDestinationFinality | releaseWork =>
    obtain ⟨_, -, h⟩ := bind_eq_ok.mp h
    obtain ⟨rfl, -⟩ := Prod.mk.inj (pure_eq_ok.mp h)
    exact .inl rfl
  | outcome | setTimedOut | setFailure =>
    obtain ⟨rfl, -⟩ := Prod.mk.inj (pure_eq_ok.mp h)
    exact .inl rfl
  | appendOutcome row =>
    have h := commit_eq_ok.mp h
    rw [appendOutcome] at h
    split at h
    · obtain rfl := Except.ok.inj h
      exact .inr ⟨row, rfl, rfl⟩
    · cases h

/-- The states after an operation: nothing says `not_submitted`. -/
theorem does_state {op : AttemptOp} {a : op.Answer} (h : s.does op = .ok (s', a)) (hp : op.Plain) (id : String) :
    s'.state id = s.state id ∨ ∃ t, s'.state id = some t ∧ t ≠ .other "not_submitted" := by
  have set {id' : String} {t : AttemptState} (ht : t ≠ .other "not_submitted") :
      (s.setState id' t).state id = s.state id ∨
        ∃ u, (s.setState id' t).state id = some u ∧ u ≠ .other "not_submitted" :=
    (setState_cases id' t id).imp_right fun hs => ⟨t, hs, ht⟩
  cases op with
  | updateAttemptState => exact hp.elim
  | markSourceInFlight =>
    exact (markSourceInFlight_state (commit_eq_ok.mp h) id).imp_right fun hs => ⟨_, hs, by decide⟩
  | completeAttempt =>
    obtain ⟨current, -, ⟨-, rfl⟩ | ⟨-, rfl⟩⟩ := completeAttempt_cases (commit_eq_ok.mp h)
    · exact .inl rfl
    · exact set (by decide)
  | window | state | validateDestinationFinality =>
    obtain ⟨_, -, h⟩ := bind_eq_ok.mp h
    obtain ⟨rfl, -⟩ := Prod.mk.inj (pure_eq_ok.mp h)
    exact .inl rfl
  | releaseWork =>
    obtain ⟨_, hr, h⟩ := bind_eq_ok.mp h
    obtain ⟨rfl, -⟩ := Prod.mk.inj (pure_eq_ok.mp h)
    exact .inl (by simp only [state, releaseWork_attempts hr])
  | outcome =>
    obtain ⟨rfl, -⟩ := Prod.mk.inj (pure_eq_ok.mp h)
    exact .inl rfl
  | setTimedOut =>
    obtain ⟨rfl, -⟩ := Prod.mk.inj (pure_eq_ok.mp h)
    exact set (by decide)
  | setFailure id' outcome =>
    obtain ⟨rfl, -⟩ := Prod.mk.inj (pure_eq_ok.mp h)
    exact set (by cases outcome <;> decide)
  | appendOutcome row =>
    have h := commit_eq_ok.mp h
    rw [appendOutcome] at h
    split at h
    · obtain rfl := Except.ok.inj h
      exact .inl rfl
    · cases h

end AttemptStore

namespace OutcomeClockRecorder

theorem appendOutcome_asks {row : AttemptOutcomeRow} (h : row.kind = .deadline → row.outcome = "timed_out") :
    (appendOutcome row).Asks AttemptOp.Plain := .ofExcept_bind fun _ _ => .call h

/-- What the methods ask is plain. -/
theorem Call.asks (c : Call) : c.prog.Asks AttemptOp.Plain := by
  cases c with
  | markDeadlineTimeout attemptID observer =>
    refine .call_bind trivial fun window => .ofExcept_bind fun _ _ => ?_
    refine .call_bind trivial fun state => .ofExcept_bind fun _ _ => ?_
    exact (appendOutcome_asks fun _ => rfl).bind fun _ => .call trivial
  | recordEventualOutcome attemptID outcome observer proof =>
    refine .call_bind trivial fun deadline => .ofExcept_bind fun _ _ => ?_
    refine .bind ?_ fun _ => appendOutcome_asks fun hk => by cases hk
    rw [validateProof]
    split
    · exact .ofExcept_bind fun _ _ => .call trivial
    · exact .ofExcept _
  | recordFailure attemptID outcome source failureCode observer =>
    refine .call_bind trivial fun window => .ofExcept_bind fun _ _ => ?_
    refine (appendOutcome_asks fun hk => by cases hk).bind fun _ => .call_bind trivial fun deadline => ?_
    split
    · exact .call trivial
    · exact .done _
  | completeAttempt attemptID workLeaseID holderID => exact .call_bind trivial fun _ => .call trivial

end OutcomeClockRecorder

/-! ## Runs -/

namespace ReconcileStore

variable {s : ReconcileStore} {runID : String} {row : RunRow}

/-- A transaction of the attempt was handed to the broadcaster. -/
def HandedOver (s : ReconcileStore) (attemptID : String) : Prop :=
  ∃ t ∈ s.store.transactions, s.attemptOf t = some attemptID ∧ t.state ∈ submittedStates

/-- The attempt timed out at its deadline. -/
def TimedOut (s : ReconcileStore) (attemptID : String) : Prop :=
  ∃ o ∈ s.outcomes, o.attemptID = attemptID ∧ o.kind = .deadline ∧ o.outcome = "timed_out"

theorem mem_attemptsOf (h : row ∈ s.attemptsOf runID) :
    s.state row.attemptID = some row.state ∧ row.submitted = s.submitted row.attemptID ∧
      row.terminalAtDeadline = s.terminalAtDeadline row.attemptID := by
  obtain ⟨p, -, hp⟩ := List.mem_filterMap.mp h
  rw [runRow] at hp
  split at hp
  · cases hp
  · split at hp
    · obtain rfl := Option.some.inj hp
      refine ⟨?_, rfl, rfl⟩
      rw [AttemptStore.state, ‹s.store.attempts p.attemptID = _›]
      rfl
    · cases hp

theorem submitted_iff (h : row ∈ s.attemptsOf runID) : row.submitted = true ↔ s.HandedOver row.attemptID := by
  rw [(mem_attemptsOf h).2.1, submitted, List.any_eq_true]
  exact exists_congr fun t => and_congr_right fun _ => decide_eq_true_iff

end ReconcileStore

/-- No attempt is said to be `not_submitted`, and the rows of deadlines are of timeouts. -/
structure Ordinary (s : AttemptStore) : Prop where
  states : ∀ id, s.state id ≠ some (.other "not_submitted")
  deadlines : ∀ o ∈ s.outcomes, o.kind = .deadline → o.outcome = "timed_out"

theorem Ordinary.timedOut_iff {s : ReconcileStore} {runID : String} {row : RunRow} (hs : Ordinary s.toAttemptStore)
    (h : row ∈ s.attemptsOf runID) : row.terminalAtDeadline = true ↔ s.TimedOut row.attemptID := by
  rw [(ReconcileStore.mem_attemptsOf h).2.2, ReconcileStore.terminalAtDeadline, List.any_eq_true]
  refine exists_congr fun o => and_congr_right fun ho => decide_eq_true_iff.trans (and_congr_right fun _ => ?_)
  exact ⟨fun hk => ⟨hk, hs.deadlines o ho hk⟩, And.left⟩

namespace RunReconciler

/-- The expectations are the counts of the attempts. -/
structure TrueCounts (expectations : List CountExpectation) (rows : List RunRow) : Prop where
  distinct : (expectations.map CountExpectation.key).Nodup
  counts : ∀ e ∈ expectations, e.count = actualCount rows e.key
  complete : ∀ row ∈ rows, row.key ∈ expectations.map CountExpectation.key

/-- With a declared scope of the attempts of the run, none of the identities gives an issue. -/
def Accepts (s : ReconcileStore) (runID : String) (expectations : List CountExpectation) : Prop :=
  ∀ scopeID ids recordViolations, (∀ id ∈ ids, ∃ row ∈ s.attemptsOf runID, row.attemptID = id) →
    ∃ s' report, reconcile runID expectations
        { s with scopes := Function.update s.scopes scopeID (some ⟨runID, ids⟩) } scopeID recordViolations =
        .ok (s', report) ∧ ∀ issue ∈ report.issues, issue.code ∉ identityCodes

variable {s : ReconcileStore} {runID : String} {expectations : List CountExpectation}

/-- With true counts and a declared scope, the reconciler reports. -/
theorem reconcile_issues (counts : TrueCounts expectations (s.attemptsOf runID)) (scopeID : String) (ids : List String)
    (recordViolations : Bool) : ∃ s' report, reconcile runID expectations
        { s with scopes := Function.update s.scopes scopeID (some ⟨runID, ids⟩) } scopeID recordViolations =
        .ok (s', report) ∧ report.issues = issues runID (s.attemptsOf runID) expectations ids := by
  have valid :
      ¬ (¬ (expectations.map CountExpectation.key).Nodup ∨ (expectations.any fun e => e.count < 0) = true) := by
    rw [not_or, not_not, List.any_eq_true]
    refine ⟨counts.distinct, ?_⟩
    rintro ⟨e, he, hc⟩
    have := counts.counts e he
    have := of_decide_eq_true hc
    omega
  let rows := s.attemptsOf runID
  let report : ReconciliationReport :=
    ⟨runID, rows.length, submittedCount rows, notSubmittedCount rows, terminalCount rows, pendingCount rows,
      issues runID rows expectations ids⟩
  let declared : ReconcileStore := { s with scopes := Function.update s.scopes scopeID (some ⟨runID, ids⟩) }
  refine ⟨if recordViolations then recordIssues declared runID report.issues else declared, report,
    orRevert_bind.mpr ⟨_, Function.update_self .., ?_⟩, rfl⟩
  exact revertIf_bind.mpr ⟨not_not.mpr rfl, revertIf_bind.mpr ⟨valid, rfl⟩⟩

end RunReconciler

section

variable [SignerLibraries]

def RunOp.Plain : RunOp → Prop
  | submission _ => True
  | attempt op => op.Plain

theorem RunCall.asks (c : RunCall) : c.prog.Asks RunOp.Plain := by
  cases c with
  | submission c => exact (Prog.Asks.trivial _).interp fun op _ => .op trivial .done
  | outcome c => exact c.asks.interp fun op hp => .op hp .done
  | markSourceInFlight reservationID =>
    have hp : (OutcomeClockRecorder.Writer.markSourceInFlight reservationID).prog.Asks AttemptOp.Plain := .call trivial
    exact Prog.Asks.interp (Q := RunOp.Plain) hp fun op hp => .op hp .done

/-- What an operation keeps. -/
theorem Ordinary.answers {l l' : RunLab} {op : RunOp} {r : Except LabError op.Answer}
    (h : Ordinary l.tables.toAttemptStore) (hp : op.Plain) (ha : l.Answers op r l') :
    Ordinary l'.tables.toAttemptStore := by
  cases ha with
  | @submission op r lab ha =>
    refine ⟨fun id => ?_, h.deadlines⟩
    have hs : lab.store.attempts = l.tables.store.attempts := ha.written.attempts
    rw [show (l.withLab lab).tables.state id =
      l.tables.state id from congrArg (fun f => (f id).map AttemptRow.state) hs]
    exact h.states id
  | attempt ha =>
    cases ha with
    | raises => exact h
    | does hd =>
      refine ⟨fun id hs => ?_, fun o ho hk => ?_⟩
      · obtain he | ⟨t, he, ht⟩ := AttemptStore.does_state hd hp id
        · exact h.states id (he ▸ hs)
        · exact ht (Option.some.inj (he.symm.trans hs))
      · obtain he | ⟨row, rfl, he⟩ := AttemptStore.does_outcomes hd
        · exact h.deadlines o (he ▸ ho) hk
        · obtain ho | ho := List.mem_append.mp ((show (l.withAttempts _).tables.outcomes = _ from he) ▸ ho)
          · exact h.deadlines o ho hk
          · obtain rfl := List.mem_singleton.mp ho
            exact hp hk

/-- The threads of a run. -/
abbrev Runners (τ : Type) : Type := Threads τ RunLab RunOp (fun op => Except LabError op.Answer) LabError Unit

/-- No attempt has ended, and nothing was observed. -/
structure Unobserved {τ : Type} (w : Runners τ) : Prop where
  unended : ∀ id, ∀ t ∈ w.shared.tables.state id, t ∉ terminalAttemptStates
  outcomes : w.shared.tables.outcomes = []
  idle : ∀ i, w.progs i = .done ()

theorem Ordinary.of_run {τ : Type} [DecidableEq τ] {w w' : Runners τ} {es : List (Threads.Event τ RunCall RunOp ⊕ Unit)}
    (new : Unobserved w) (run : Run RunStep w es w') : Ordinary w'.shared.tables.toAttemptStore := by
  have start : Ordinary w.shared.tables.toAttemptStore := by
    refine ⟨fun id hs => ?_, fun o ho => ?_⟩
    · exact absurd (show AttemptState.other "not_submitted" ∈ terminalAttemptStates by decide) (new.unended id _ hs)
    · rw [new.outcomes] at ho
      cases ho
  have ready : ∀ i, Threads.Ready (fun op (l : RunLab) => l.Answers op) (fun l => Ordinary l.tables.toAttemptStore)
      (fun _ _ => True) (fun op _ => op.Plain) w.shared (w.progs i) := fun i => by
    rw [new.idle i]
    exact .done _ _
  refine (Threads.ready_of_run (fun _ => trivial) (fun _ _ _ _ _ => trivial)
    (fun l c _ => .of_asks (c.asks.mono fun _ h _ => h) l) (fun hl needs ha => ⟨hl.answers needs ha, trivial⟩) ?_ run
    ⟨start, ready⟩).1
  intro l _ l' hl ha
  refine ⟨⟨fun id => ?_, ?_⟩, trivial⟩
  · rw [ha.states]
    exact hl.states id
  · rw [ha.outcomes]
    exact hl.deadlines

namespace RunReconciler

/-- In a run of the methods that attempts are executed through, with no backfill
that is pending, the identities hold for every scope exactly if each attempt was
handed over, and timed out at its deadline. -/
theorem accepts_iff {τ : Type} [DecidableEq τ] {w w' : Runners τ} {es : List (Threads.Event τ RunCall RunOp ⊕ Unit)}
    (new : Unobserved w) (run : Run RunStep w es w') {runID : String} {expectations : List CountExpectation}
    (counts : TrueCounts expectations (w'.shared.tables.attemptsOf runID))
    (resolved : ∀ row ∈ w'.shared.tables.attemptsOf runID, row.backfillState ≠ .pending) :
    Accepts w'.shared.tables runID expectations ↔ ∀ row ∈ w'.shared.tables.attemptsOf runID,
      w'.shared.tables.HandedOver row.attemptID ∧ w'.shared.tables.TimedOut row.attemptID := by
  have ordinary : Ordinary w'.shared.tables.toAttemptStore := .of_run new run
  have started : ∀ row ∈ w'.shared.tables.attemptsOf runID, row.state ≠ .other "not_submitted" := fun row hr hs =>
    ordinary.states row.attemptID (by rw [(ReconcileStore.mem_attemptsOf hr).1, hs])
  constructor
  · intro h row hr
    let ids := (w'.shared.tables.attemptsOf runID).map fun row => row.attemptID
    obtain ⟨s', report, hrec, hi⟩ := h "scope" ids true fun id hid => List.mem_map.mp hid
    obtain ⟨s'', report', hrec', hi'⟩ := reconcile_issues counts "scope" ids true
    obtain ⟨-, rfl⟩ := Prod.mk.inj (Except.ok.inj (hrec.symm.trans hrec'))
    rw [hi'] at hi
    obtain ⟨hsub, -, hterm⟩ := (no_identity_issue_iff started resolved).mp hi
    exact ⟨(ReconcileStore.submitted_iff hr).mp (hsub row hr),
      (ordinary.timedOut_iff hr).mp (hterm row hr (List.mem_map_of_mem hr))⟩
  · intro h scopeID ids recordViolations _
    obtain ⟨s', report, hrec, hi⟩ := reconcile_issues counts scopeID ids recordViolations
    have hsub : ∀ row ∈ w'.shared.tables.attemptsOf runID, row.submitted = true := fun row hr =>
      (ReconcileStore.submitted_iff hr).mpr (h row hr).1
    have hterm : ∀ row ∈ w'.shared.tables.attemptsOf runID, row.terminalAtDeadline = true := fun row hr =>
      (ordinary.timedOut_iff hr).mpr (h row hr).2
    refine ⟨s', report, hrec,
      hi ▸ (no_identity_issue_iff started resolved).mpr ⟨hsub, ?_, fun row hr _ => hterm row hr⟩⟩
    exact (List.countP_eq_length.mpr hsub).trans (List.countP_eq_length.mpr hterm).symm

/-! ## One attempt -/

/-- The answers of the store to the operations on attempts; the others raise. -/
def answer : (op : RunOp) → RunLab → Except LabError op.Answer × RunLab
  | .submission op, l => (.error .osError, l.withLab (l.lab.raised op))
  | .attempt op, l => ((AttemptStore.answer op l.tables.toAttemptStore).1,
    l.withAttempts (AttemptStore.answer op l.tables.toAttemptStore).2)

theorem answer_answers (op : RunOp) (l : RunLab) : l.Answers op (answer op l).1 (answer op l).2 := by
  cases op with
  | submission op => exact .submission (.raises op _)
  | attempt op => exact .attempt (AttemptStore.answer_answers op _)

/-- A lab with an attempt in flight, whose transactions are given. -/
def oneRunLab (transactions : List TransactionRow) : RunLab where
  tables :=
    { toAttemptStore :=
        { OutcomeClockRecorder.oneAttemptIn .inFlight with
          store :=
            { (OutcomeClockRecorder.oneAttemptIn .inFlight).store with
              intents := [{ oneIntent with intentID := "intent", stageID := "stage" }]
              transactions := transactions } }
      planned := [⟨"attempt", "condition", "HH", none, .xir, .pilot, none⟩]
      backfills := fun _ => none
      scopes := fun _ => none
      violations := [] }
  spool := ⟨∅, ∅⟩
  sent := []

/-- A call, in a lab of one attempt. -/
theorem run_oneRunLab (transactions : List TransactionRow) (c : RunCall) : ∃ (es : _) (w' : Runners Unit),
    Run RunStep ⟨oneRunLab transactions, fun _ => .done ()⟩ es w' ∧
      w'.shared = (c.prog.run answer (oneRunLab transactions)).2 := by
  obtain ⟨_, p, run⟩ := Threads.run_call answer_answers RunCall.prog c (oneRunLab transactions) (.done ())
  exact ⟨_, ⟨_, fun _ => p⟩, run.map Sum.inl .thread, rfl⟩

end RunReconciler

end

namespace RunReconciler

theorem oneRunLab_unobserved (transactions : List TransactionRow) :
    Unobserved (⟨oneRunLab transactions, fun _ => .done ()⟩ : Runners Unit) := by
  refine ⟨fun id t ht => ?_, rfl, fun _ => rfl⟩
  have hs : (oneRunLab transactions).tables.state id = if id = "attempt" then some .inFlight else none := by
    simp only [oneRunLab, OutcomeClockRecorder.oneAttemptIn, AttemptStore.state, Function.update_apply]
    split <;> rfl
  rw [hs] at ht
  split at ht
  · obtain rfl := Option.some.inj ht
    decide
  · cases ht

/-- The row of the attempt. -/
def onlyRow (state : AttemptState) (submitted terminalAtDeadline : Bool) : RunRow :=
  ⟨⟨"attempt", "condition", "HH", none, .xir, .pilot, none⟩, state, submitted, terminalAtDeadline, .resolved⟩

def oneCount : List CountExpectation := [⟨"HH", "xir", "pilot", 1⟩]

theorem oneCount_true (state : AttemptState) (submitted terminalAtDeadline : Bool) :
    TrueCounts oneCount [onlyRow state submitted terminalAtDeadline] := by
  refine ⟨by decide, fun e he => ?_, fun row hr => ?_⟩
  · obtain rfl := List.mem_singleton.mp he
    rfl
  · obtain rfl := List.mem_singleton.mp hr
    exact List.mem_singleton_self _

def someObserver : OutcomeClockRecorder.Observer := ⟨10, "observer", 0⟩

/-- An attempt is submitted, and times out at its deadline. -/
theorem accepts_iff_timedOut : ∃ s : ReconcileStore, s.TimedOut "attempt" ∧ Accepts s "run" oneCount := by
  let _ := someLibraries
  let submitted : TransactionRow := { onePrepared with state := .submitted }
  obtain ⟨es, w', run, hs⟩ := run_oneRunLab [submitted] (.outcome (.markDeadlineTimeout "attempt" someObserver))
  have rows : w'.shared.tables.attemptsOf "run" = [onlyRow (.other "timed_out") true true] := by
    rw [hs, ReconcileStore.attemptsOf]
    exact (congrArg _ (List.mergeSort_singleton _)).trans rfl
  have timedOut : w'.shared.tables.TimedOut "attempt" := by
    rw [hs]
    exact ⟨_, List.mem_singleton_self _, rfl, rfl, rfl⟩
  have handedOver : w'.shared.tables.HandedOver "attempt" := by
    rw [hs]
    exact ⟨submitted, List.mem_singleton_self _, rfl, by decide⟩
  have only {row : RunRow} (hr : row ∈ w'.shared.tables.attemptsOf "run") :
      row = onlyRow (.other "timed_out") true true :=
    List.mem_singleton.mp (rows ▸ hr)
  refine ⟨w'.shared.tables, timedOut, (accepts_iff (oneRunLab_unobserved _) run (rows ▸ oneCount_true ..) ?_).mpr ?_⟩
  · intro row hr
    rw [only hr]
    decide
  · intro row hr
    rw [only hr]
    exact ⟨handedOver, timedOut⟩

/-- An attempt fails before it is submitted. -/
theorem failed_unaccepted :
    ¬ ∀ [SignerLibraries] (w w' : Runners Unit) (es : List (Threads.Event Unit RunCall RunOp ⊕ Unit))
    (runID : String) (expectations : List CountExpectation), Unobserved w → Run RunStep w es w' →
    TrueCounts expectations (w'.shared.tables.attemptsOf runID) →
    (∀ row ∈ w'.shared.tables.attemptsOf runID, row.backfillState ≠ .pending) →
    (∀ row ∈ w'.shared.tables.attemptsOf runID, row.state ∈ terminalAttemptStates) →
    Accepts w'.shared.tables runID expectations := by
  intro h
  let _ := someLibraries
  obtain ⟨es, w', run, hs⟩ :=
    run_oneRunLab [] (.outcome (.recordFailure "attempt" .submissionFailed .submission "code" someObserver))
  have rows : w'.shared.tables.attemptsOf "run" = [onlyRow (.other "submission_failed") false false] := by
    rw [hs, ReconcileStore.attemptsOf]
    exact (congrArg _ (List.mergeSort_singleton _)).trans rfl
  have only {row : RunRow} (hr : row ∈ w'.shared.tables.attemptsOf "run") :
      row = onlyRow (.other "submission_failed") false false := List.mem_singleton.mp (rows ▸ hr)
  have resolved : ∀ row ∈ w'.shared.tables.attemptsOf "run", row.backfillState ≠ .pending := by
    intro row hr
    rw [only hr]
    decide
  have counts : TrueCounts oneCount (w'.shared.tables.attemptsOf "run") := rows ▸ oneCount_true ..
  obtain ⟨s', report, hrec, hi⟩ := h _ w' es "run" oneCount (oneRunLab_unobserved _) run counts resolved
    (fun row hr => by rw [only hr]; decide) "scope" [] false (fun id hid => by cases hid)
  obtain ⟨s'', report', hrec', hi'⟩ := reconcile_issues counts "scope" [] false
  obtain ⟨-, rfl⟩ := Prod.mk.inj (Except.ok.inj (hrec.symm.trans hrec'))
  rw [hi', no_identity_issue_iff (fun row hr => by rw [only hr]; decide) resolved] at hi
  exact absurd (hi.1 _ (rows ▸ List.mem_singleton_self _)) (by decide)

end RunReconciler

end Xir.Impl.XirLab
