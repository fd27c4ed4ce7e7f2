import Xir.Proof.Outcomes

/-!
# Recording an outcome again

A deadline and a failure are recorded by two transactions: one inserts the row
of the outcome, the next writes `attempts.state`. `Midway` says where the calls
for an outcome can have stopped, however often they were made. A repeated call
is refused by the row that a stopped one left, so that it never makes up for
the second write.
-/

namespace Xir.Impl.XirLab.OutcomeClockRecorder

open AttemptStore

/-- A call that records how an attempt ended. -/
inductive Recording
  | deadline (attemptID : String) (observer : Observer)
  | failure (attemptID : String) (outcome : FailureOutcome) (source : FailureSource) (failureCode : String)
    (observer : Observer)

namespace Recording

def prog : Recording → Program Unit
  | deadline attemptID observer => markDeadlineTimeout attemptID observer
  | failure attemptID outcome source failureCode observer => recordFailure attemptID outcome source failureCode observer

def attemptID : Recording → String
  | deadline attemptID _ => attemptID
  | failure attemptID .. => attemptID

def kind : Recording → OutcomeKind
  | deadline .. => .deadline
  | failure .. => .failure

/-- The state that the call writes. -/
def target : Recording → AttemptState
  | deadline .. => .other "timed_out"
  | failure _ outcome .. => .other outcome.name

/-- The call leaves `attempts.state` to the deadline that is recorded. -/
def LeavesState : Recording → AttemptStore → Prop
  | deadline .., _ => False
  | failure attemptID .., s => s.outcome attemptID .deadline ≠ none

/-- The checks before the row is inserted let the call insert it. -/
def Accepts (s : AttemptStore) (row : AttemptOutcomeRow) : Recording → Prop
  | deadline attemptID observer =>
    ∃ window state, s.windows attemptID = some window ∧ ¬ observer.observedUTC < window.deadlineUTC ∧
      s.state attemptID = some state ∧ state ∉ terminalChainOutcomes ∧
      ¬ (observer.observedMonotonicNs < 0 ∨ observer.observerSessionID = "") ∧
      row = timeoutRow attemptID window observer
  | failure attemptID outcome source failureCode observer =>
    (∃ window, s.windows attemptID = some window) ∧ ¬ source ∉ outcome.expectedSources ∧
      ¬ (observer.observedMonotonicNs < 0 ∨ observer.observerSessionID = "") ∧
      row = failureRow attemptID outcome source failureCode observer

variable {c : Recording} {s t u : AttemptStore} {row : AttemptOutcomeRow}

theorem Accepts.key (h : c.Accepts s row) : row.attemptID = c.attemptID ∧ row.kind = c.kind := by
  cases c with
  | deadline =>
    obtain ⟨_, _, -, -, -, -, -, rfl⟩ := h
    exact ⟨rfl, rfl⟩
  | failure =>
    obtain ⟨-, -, -, rfl⟩ := h
    exact ⟨rfl, rfl⟩

end Recording

/-! ## Where a call can stop -/

theorem appendOutcome_eq_ok {s t : AttemptStore} {row : AttemptOutcomeRow} (h : s.appendOutcome row = .ok t) :
    AttemptOutcomeRow.Constraints (s.outcomes ++ [row]) ∧ s.state row.attemptID ≠ none ∧
      t = { s with outcomes := s.outcomes ++ [row] } := by
  rw [AttemptStore.appendOutcome] at h
  split at h
  · exact ⟨And.left ‹_›, And.right ‹_›, (Except.ok.inj h).symm⟩
  · cases h

namespace Recording

variable {c : Recording} {s t u : AttemptStore} {row : AttemptOutcomeRow}

/-- The outcome that the call records is recorded. -/
def IsRecorded (c : Recording) (s : AttemptStore) : Prop :=
  ∃ o ∈ s.outcomes, o.attemptID = c.attemptID ∧ o.kind = c.kind

/-- The call has inserted its row. -/
def Inserted (c : Recording) (s t : AttemptStore) : Prop := ∃ row, c.Accepts s row ∧ s.appendOutcome row = .ok t

/-- What calls for the same outcome can leave, wherever they stopped. -/
inductive Midway (c : Recording) (s : AttemptStore) : AttemptStore → Prop
  | unrecorded : Midway c s s
  | recorded {t : AttemptStore} : c.Inserted s t → Midway c s t
  | ended {t : AttemptStore} : c.Inserted s t → ¬ c.LeavesState t → Midway c s (t.setState c.attemptID c.target)

theorem Inserted.isRecorded (h : c.Inserted s t) : c.IsRecorded t := by
  obtain ⟨row, ha, hi⟩ := h
  obtain ⟨-, -, rfl⟩ := appendOutcome_eq_ok hi
  exact ⟨row, by simp, ha.key⟩

theorem Midway.cases (h : c.Midway s t) : t = s ∨ c.IsRecorded t := by
  cases h with
  | unrecorded => exact .inl rfl
  | recorded h => exact .inr h.isRecorded
  | ended h => exact .inr (show c.IsRecorded _ from h.isRecorded)

/-- A second row for the outcome is refused. -/
theorem IsRecorded.not_append (h : c.IsRecorded t) (hr : row.attemptID = c.attemptID ∧ row.kind = c.kind) :
    t.appendOutcome row ≠ .ok u := by
  intro hi
  obtain ⟨o, ho, hk⟩ := h
  obtain ⟨⟨-, hu⟩, -, -⟩ := appendOutcome_eq_ok hi
  have hne := Table.Unique.ne_of_append hu ho (List.mem_singleton_self row) rfl
  rw [hk.1, hk.2, ← hr.1, ← hr.2] at hne
  exact hne rfl

/-- Where the checks let a call insert its row, it does so in the state that it was first made in. -/
theorem Midway.insert (h : c.Midway s t) (ha : c.Accepts t row) (hi : t.appendOutcome row = .ok u) :
    c.Inserted s u := by
  obtain rfl | hr := h.cases
  · exact ⟨row, ha, hi⟩
  · exact absurd hi (hr.not_append ha.key)

end Recording

/-- What a program leaves that asks operations which may raise at any time. -/
abbrev Ends (C : AttemptStore → Prop) (P : AttemptStore → Prop) (p : Program Unit) (Q : AttemptStore → Prop) : Prop :=
  Prog.Triple (fun op s => AttemptStore.Answers s op) C (fun _ => C) P p fun _ => Q

namespace Ends

variable {C P Q : AttemptStore → Prop} {op : AttemptOp} {f : op.Answer → Program Unit}

/-- Wherever a run stops. -/
theorem holds {p : Program Unit} (h : Ends C P p C) {s t : AttemptStore} {o : Prog.Outcome LabError Unit} (hP : P s)
    (he : Prog.Exec (fun op s => AttemptStore.Answers s op) p s o t) : C t := by
  have ht := h.ends hP he
  cases o with
  | returned | failed | cut => exact ht

theorem call_bind {M : op.Answer → AttemptStore → Prop} (hC : ∀ t, P t → C t)
    (hM : ∀ {t u : AttemptStore} {a : op.Answer}, P t → t.does op = .ok (u, a) → C u ∧ M a u)
    (hf : ∀ a, Ends C (M a) (f a) Q) : Ends C P (call op >>= f) Q := by
  refine Prog.Triple.bind (.call M hC ?_ ?_) hf
  · intro t a u hP ha
    cases ha with
    | does hd => exact hM hP hd
  · intro t e u hP ha
    cases ha with
    | raises => exact ⟨hC _ hP, hC _ hP⟩

/-- An operation that only reads. -/
theorem read_bind (hC : ∀ t, P t → C t) (hr : ∀ {t u : AttemptStore} {a : op.Answer}, t.does op = .ok (u, a) → u = t)
    (hf : ∀ a, Ends C (fun t => P t ∧ t.does op = .ok (t, a)) (f a) Q) : Ends C P (call op >>= f) Q := by
  refine call_bind hC ?_ hf
  intro t u a hP hd
  obtain rfl := hr hd
  exact ⟨hC _ hP, hP, hd⟩

end Ends

theorem does_window {s t : AttemptStore} {id : String} {w : WindowRow} :
    s.does (.window id) = .ok (t, w) ↔ s.windows id = some w ∧ t = s := by
  show (do return (s, ← orRevert _ (s.windows id)) : Except LabError _) = _ ↔ _
  rw [orRevert_bind]
  constructor
  · rintro ⟨w', hw, h⟩
    obtain ⟨rfl, rfl⟩ := Prod.mk.inj (pure_eq_ok.mp h)
    exact ⟨hw, rfl⟩
  · rintro ⟨hw, rfl⟩
    exact ⟨w, hw, rfl⟩

theorem does_state {s t : AttemptStore} {id : String} {x : AttemptState} :
    s.does (.state id) = .ok (t, x) ↔ s.state id = some x ∧ t = s := by
  show (do return (s, ← orRevert _ (s.state id)) : Except LabError _) = _ ↔ _
  rw [orRevert_bind]
  constructor
  · rintro ⟨x', hx, h⟩
    obtain ⟨rfl, rfl⟩ := Prod.mk.inj (pure_eq_ok.mp h)
    exact ⟨hx, rfl⟩
  · rintro ⟨hx, rfl⟩
    exact ⟨x, hx, rfl⟩

theorem does_outcome {s t : AttemptStore} {id : String} {kind : OutcomeKind} {x : Option AttemptOutcomeRow} :
    s.does (.outcome id kind) = .ok (t, x) ↔ s.outcome id kind = x ∧ t = s := by
  show (pure (s, s.outcome id kind) : Except LabError _) = _ ↔ _
  rw [pure_eq_ok, Prod.mk.injEq]
  exact ⟨fun h => ⟨h.2, h.1.symm⟩, fun h => ⟨h.2.symm, h.1⟩⟩

namespace Recording

variable {c : Recording} {s t : AttemptStore} {row : AttemptOutcomeRow}

theorem ends_append {P : AttemptStore → Prop} (hP : ∀ t, P t → c.Midway s t)
    (ha : ∀ t, P t → ¬ (row.observedMonotonicNs < 0 ∨ row.observerSessionID = "") → c.Accepts t row) {p : Program Unit}
    (hp : Ends (c.Midway s) (c.Inserted s) p (c.Midway s)) :
    Ends (c.Midway s) P (OutcomeClockRecorder.appendOutcome row >>= fun _ => p) (c.Midway s) := by
  refine Prog.Triple.bind (.ofExcept_bind hP (fun _ => hP) fun _ hclock => ?_) fun _ => hp
  refine .call (fun _ t => c.Inserted s t) hP ?_ ?_
  · intro t a u ht hans
    cases hans with
    | does hd =>
      have hi := (hP t ht).insert (ha t ht (revertIf_eq_ok.mp hclock)) (commit_eq_ok.mp hd)
      exact ⟨.recorded hi, hi⟩
  · intro t e u ht hans
    cases hans with
    | raises => exact ⟨hP t ht, hP t ht⟩

/-- The calls for an outcome stop midway. -/
theorem ends_midway (c : Recording) : Ends (c.Midway s) (c.Midway s) c.prog (c.Midway s) := by
  have recorded (c : Recording) (t : AttemptStore) (h : c.Inserted s t) : c.Midway s t := .recorded h
  cases c with
  | deadline id observer =>
    refine Ends.read_bind (fun _ h => h) (fun h => (does_window.mp h).2) fun window => ?_
    refine .ofExcept_bind (fun _ h => h.1) (fun _ _ h => h.1) fun _ hd => ?_
    refine Ends.read_bind (fun _ h => h.1) (fun h => (does_state.mp h).2) fun state => ?_
    refine .ofExcept_bind (fun _ h => h.1.1) (fun _ _ h => h.1.1) fun _ ht => ?_
    refine ends_append (fun _ h => h.1.1) ?_ ?_
    · intro t h hclock
      exact ⟨window, state, (does_window.mp h.1.2).1, revertIf_eq_ok.mp hd, (does_state.mp h.2).1, revertIf_eq_ok.mp ht,
        hclock, rfl⟩
    · refine .call _ (recorded _) ?_ ?_
      · intro t a u h hans
        cases hans with
        | does hd =>
          cases hd
          exact ⟨.ended h nofun, .ended h nofun⟩
      · intro t e u h hans
        cases hans with
        | raises => exact ⟨.recorded h, .recorded h⟩
  | failure id outcome source failureCode observer =>
    refine Ends.read_bind (fun _ h => h) (fun h => (does_window.mp h).2) fun window => ?_
    refine .ofExcept_bind (fun _ h => h.1) (fun _ _ h => h.1) fun _ hsource => ?_
    refine ends_append (fun _ h => h.1) ?_ ?_
    · intro t h hclock
      exact ⟨⟨window, (does_window.mp h.2).1⟩, revertIf_eq_ok.mp hsource, hclock, rfl⟩
    · refine Ends.read_bind (recorded _) (fun h => (does_outcome.mp h).2) fun deadline => ?_
      cases deadline with
      | some o => exact .done (fun t h => .recorded h.1) fun t h => .recorded h.1
      | none =>
        refine .call _ (fun t h => .recorded h.1) ?_ ?_
        · intro t a u h hans
          cases hans with
          | does hd =>
            cases hd
            have hl : (failure id outcome source failureCode observer).Midway s _ :=
              .ended h.1 (not_not.mpr (does_outcome.mp h.2).1)
            exact ⟨hl, hl⟩
        · intro t e u h hans
          cases hans with
          | raises => exact ⟨.recorded h.1, .recorded h.1⟩

/-- A call that is not interrupted stops midway too. -/
theorem run_midway (c : Recording) (s : AttemptStore) : c.Midway s (c.prog.run answer s).2 := by
  exact (ends_midway c).holds .unrecorded (Prog.exec_run answer_answers c.prog s)

/-- Where its outcome is recorded, a call changes nothing. -/
theorem IsRecorded.run (h : c.IsRecorded t) : (c.prog.run answer t).2 = t := by
  have not_inserted {u : AttemptStore} : ¬ c.Inserted t u := fun ⟨row, ha, hi⟩ => h.not_append ha.key hi
  have hm := run_midway c t
  generalize (c.prog.run answer t).2 = u at hm ⊢
  cases hm with
  | unrecorded => rfl
  | recorded hi => exact absurd hi not_inserted
  | ended hi => exact absurd hi not_inserted

theorem run_call {op : AttemptOp} {a : op.Answer} (h : s.does op = .ok (t, a)) :
    (call op : Program op.Answer).run answer s = (.ok a, t) := by
  show (Prog.ofExcept (answer op s).1 : Program op.Answer).run answer (answer op s).2 = _
  rw [answer, h]
  rfl

theorem run_revertIf {α : Type} {p : Prop} [Decidable p] (h : ¬ p) (e : LabError) (f : Unit → Program α)
    (s : AttemptStore) :
    (Prog.ofExcept (revertIf p e) >>= f).run answer s = (f ()).run answer s := by
  rw [revertIf_eq_ok.mpr h]
  rfl

theorem run_append (hclock : ¬ (row.observedMonotonicNs < 0 ∨ row.observerSessionID = ""))
    (hi : s.appendOutcome row = .ok t) : (OutcomeClockRecorder.appendOutcome row).run answer s = (.ok (), t) := by
  rw [OutcomeClockRecorder.appendOutcome, run_revertIf hclock]
  exact run_call (commit_eq_ok.mpr hi)

/-- What a call leaves that is not interrupted. -/
theorem Inserted.run (h : c.Inserted s t) : (c.prog.run answer s).1 = .ok () ∧
    (c.LeavesState t ∧ (c.prog.run answer s).2 = t ∨
      ¬ c.LeavesState t ∧ (c.prog.run answer s).2 = t.setState c.attemptID c.target) := by
  obtain ⟨row, ha, hi⟩ := h
  cases c with
  | deadline id observer =>
    obtain ⟨window, state, hw, hd, hs, ht, hclock, rfl⟩ := ha
    have hrun : (markDeadlineTimeout id observer).run answer s = (.ok (), t.setState id (.other "timed_out")) := by
      rw [markDeadlineTimeout, Prog.run_bind_ok (run_call (does_window.mpr ⟨hw, rfl⟩)), run_revertIf hd,
        Prog.run_bind_ok (run_call (does_state.mpr ⟨hs, rfl⟩)), run_revertIf ht,
          Prog.run_bind_ok (run_append hclock hi)]
      exact run_call rfl
    exact ⟨congrArg Prod.fst hrun, .inr ⟨nofun, congrArg Prod.snd hrun⟩⟩
  | failure id outcome source failureCode observer =>
    obtain ⟨⟨window, hw⟩, hsource, hclock, rfl⟩ := ha
    have hrun : (recordFailure id outcome source failureCode observer).run answer s =
        (if (t.outcome id .deadline).isNone then call (.setFailure id outcome) else pure () : Program Unit).run
          answer t := by
      rw [recordFailure, Prog.run_bind_ok (run_call (does_window.mpr ⟨hw, rfl⟩)), run_revertIf hsource,
        Prog.run_bind_ok (run_append hclock hi), Prog.run_bind_ok (run_call (does_outcome.mpr ⟨rfl, rfl⟩))]
    show ((recordFailure id outcome source failureCode observer).run answer s).1 = _ ∧
      (t.outcome id .deadline ≠ none ∧ ((recordFailure id outcome source failureCode observer).run answer s).2 = t ∨
        ¬ t.outcome id .deadline ≠ none ∧ ((recordFailure id outcome source failureCode observer).run answer s).2 = _)
    rw [hrun]
    cases t.outcome id .deadline with
    | none => exact ⟨rfl, .inr ⟨not_not.mpr rfl, rfl⟩⟩
    | some o => exact ⟨rfl, .inl ⟨by simp, rfl⟩⟩

/-! ## Repeated calls -/

/-- What is left where calls for the same outcome were interrupted, or raised, any number of times. -/
abbrev Stopped (c : Recording) : AttemptStore → AttemptStore → Prop :=
  Relation.ReflTransGen fun s t => ∃ o, Prog.Exec (fun op s => AttemptStore.Answers s op) c.prog s o t

theorem Stopped.midway (h : c.Stopped s t) : c.Midway s t := by
  induction h with
  | refl => exact .unrecorded
  | tail _ hstep ih =>
    obtain ⟨o, he⟩ := hstep
    exact (ends_midway c).holds ih he

/-- An attempt with a deadline or a failure is in a terminal state. -/
def Terminated (s : AttemptStore) : Prop :=
  ∀ o ∈ s.outcomes, o.kind = .deadline ∨ o.kind = .failure →
    ∃ state ∈ terminalAttemptStates, s.state o.attemptID = some state

/-- The call, made again where it was interrupted, leaves the outcomes and the
states as it does where it is not interrupted. -/
structure Recovers (c : Recording) (s t : AttemptStore) : Prop where
  succeeds : (c.prog.run answer t).1 = .ok () ∨ (c.prog.run answer t).2 = t
  outcomes : (c.prog.run answer t).2.outcomes = (c.prog.run answer s).2.outcomes
  state (id : String) : (c.prog.run answer t).2.state id = (c.prog.run answer s).2.state id
  terminated : Terminated s → Terminated (c.prog.run answer t).2

/-- No row was inserted, or the state that goes with it was written, or is not to be written. -/
def Settled (c : Recording) (s t : AttemptStore) : Prop :=
  t.outcomes = s.outcomes ∨ t.state c.attemptID = some c.target ∨ c.LeavesState s

theorem Inserted.eq (h : c.Inserted s t) : ∃ row, row.attemptID = c.attemptID ∧ row.kind = c.kind ∧
    s.state c.attemptID ≠ none ∧ t = { s with outcomes := s.outcomes ++ [row] } := by
  obtain ⟨row, ha, hi⟩ := h
  obtain ⟨-, hs, rfl⟩ := appendOutcome_eq_ok hi
  exact ⟨row, ha.key.1, ha.key.2, ha.key.1 ▸ hs, rfl⟩

/-- A row of the call's own does not change whether a deadline is recorded. -/
theorem Inserted.leavesState (h : c.Inserted s t) : c.LeavesState t ↔ c.LeavesState s := by
  obtain ⟨row, hid, hk, -, rfl⟩ := h.eq
  cases c with
  | deadline => exact Iff.rfl
  | failure id outcome source failureCode observer =>
    have ho : row.kind ≠ .deadline := by
      rw [hk]
      exact nofun
    simp only [LeavesState, AttemptStore.outcome, List.find?_append]
    simp [ho]

theorem target_terminal (c : Recording) : c.target ∈ terminalAttemptStates := by
  cases c with
  | deadline => exact show AttemptState.other "timed_out" ∈ terminalAttemptStates by decide
  | failure _ outcome =>
    have h : ∀ o : FailureOutcome, AttemptState.other o.name ∈ terminalAttemptStates := by
      intro o
      cases o <;> decide
    exact h outcome

theorem setState_target (h : s.state c.attemptID ≠ none) :
    (s.setState c.attemptID c.target).state c.attemptID = some c.target := by
  obtain ⟨x, hx⟩ := Option.ne_none_iff_exists'.mp h
  rw [setState_state, if_pos rfl, hx]
  rfl

theorem Inserted.outcomes_ne (h : c.Inserted s t) : t.outcomes ≠ s.outcomes := by
  obtain ⟨row, -, -, -, rfl⟩ := h.eq
  simp

/-- Where the state goes with the row, terminated attempts stay so. -/
theorem Midway.terminated (h : c.Midway s t) (hs : c.Settled s t) (ht : Terminated s) : Terminated t := by
  cases h with
  | unrecorded => exact ht
  | recorded hi =>
    have hne := hi.outcomes_ne
    obtain ⟨row, hid, hk, -, rfl⟩ := hi.eq
    intro o ho hkind
    obtain ho | ho := List.mem_append.mp ho
    · exact ht o ho hkind
    obtain rfl := List.mem_singleton.mp ho
    rw [hid]
    obtain h | h | h := hs
    · exact absurd h hne
    · exact ⟨c.target, c.target_terminal, h⟩
    · cases c with
      | deadline => exact h.elim
      | failure id outcome source failureCode observer =>
        -- the deadline that was recorded before is of a terminated attempt
        obtain ⟨o', ho'⟩ := Option.ne_none_iff_exists'.mp h
        have hfound := List.find?_some (show s.outcomes.find? _ = some o' from ho')
        obtain ⟨hid', hk'⟩ := of_decide_eq_true hfound
        obtain ⟨state, hm, hstate⟩ := ht o' (List.mem_of_find?_eq_some ho') (.inl hk')
        exact ⟨state, hm, hid' ▸ hstate⟩
  | @ended t hi =>
    obtain ⟨row, hid, hk, hstate, rfl⟩ := hi.eq
    intro o ho hkind
    by_cases h : o.attemptID = c.attemptID
    · refine ⟨c.target, c.target_terminal, ?_⟩
      rw [h]
      exact setState_target hstate
    · rw [setState_state, if_neg h]
      obtain ho | ho := List.mem_append.mp ho
      · exact ht o ho hkind
      · obtain rfl := List.mem_singleton.mp ho
        exact absurd hid h

theorem run_settled (c : Recording) (s : AttemptStore) : c.Settled s (c.prog.run answer s).2 := by
  by_cases hi : ∃ t, c.Inserted s t
  · obtain ⟨t, hi⟩ := hi
    obtain ⟨-, ⟨hl, -⟩ | ⟨-, hu⟩⟩ := hi.run
    · exact .inr (.inr (hi.leavesState.mp hl))
    · obtain ⟨row, -, -, hstate, rfl⟩ := hi.eq
      exact .inr (.inl (hu ▸ setState_target hstate))
  · have hm := run_midway c s
    generalize (c.prog.run answer s).2 = u at hm ⊢
    cases hm with
    | unrecorded => exact .inl rfl
    | recorded h | ended h => exact absurd ⟨_, h⟩ hi

/-- A repeated call makes up for an interrupted one exactly where that was not
stopped between its row and the state that goes with it. -/
theorem recovers_iff (h : c.Stopped s t) : c.Recovers s t ↔ c.Settled s t := by
  constructor
  · intro hr
    cases h.midway with
    | unrecorded => exact .inl rfl
    | recorded hi =>
      obtain ⟨-, ⟨hl, -⟩ | ⟨-, hu⟩⟩ := hi.run
      · exact .inr (.inr (hi.leavesState.mp hl))
      · have hstate := hr.state c.attemptID
        rw [hi.isRecorded.run, hu] at hstate
        obtain ⟨row, -, -, hne, rfl⟩ := hi.eq
        exact .inr (.inl (hstate.trans (setState_target hne)))
    | ended hi =>
      obtain ⟨row, -, -, hne, rfl⟩ := hi.eq
      exact .inr (.inl (setState_target hne))
  · intro hs
    have hm := h.midway
    have hterm := hm.terminated hs
    cases hm with
    | unrecorded =>
      refine ⟨?_, rfl, fun _ => rfl, (run_midway c s).terminated (run_settled c s)⟩
      by_cases hi : ∃ t, c.Inserted s t
      · obtain ⟨t, hi⟩ := hi
        exact .inl hi.run.1
      · have hu := run_midway c s
        generalize (c.prog.run answer s).2 = u at hu ⊢
        cases hu with
        | unrecorded => exact .inr rfl
        | recorded h | ended h => exact absurd ⟨_, h⟩ hi
    | recorded hi =>
      have hrun := hi.isRecorded.run
      refine ⟨.inr hrun, ?_, fun id => ?_, hrun.symm ▸ hterm⟩
      · obtain ⟨-, ⟨-, hu⟩ | ⟨-, hu⟩⟩ := hi.run
        · rw [hrun, hu]
        · rw [hrun, hu]
          rfl
      · rw [hrun]
        obtain ⟨-, ⟨-, hu⟩ | ⟨hl, hu⟩⟩ := hi.run
        · rw [hu]
        · obtain hs | hs | hs := hs
          · exact absurd hs hi.outcomes_ne
          · rw [hu, setState_same (.inr hs)]
          · exact absurd (hi.leavesState.mpr hs) hl
    | @ended t hi hl =>
      have hrun : (c.prog.run answer (t.setState c.attemptID c.target)).2 = _ :=
        IsRecorded.run (show c.IsRecorded (t.setState c.attemptID c.target) from hi.isRecorded)
      obtain ⟨-, ⟨hl', -⟩ | ⟨-, hu⟩⟩ := hi.run
      · exact absurd hl' hl
      · exact ⟨.inr hrun, by rw [hrun, hu], fun id => by rw [hrun, hu], hrun.symm ▸ hterm⟩

/-! ## A timeout -/

/-- The timeout of an attempt that is in flight. -/
def timeout : Recording := deadline "attempt" ⟨20, "observer", 0⟩

/-- The attempt, timed out, with the row of its timeout. -/
def timedOut : AttemptStore :=
  { oneAttemptIn (.other "timed_out") with outcomes := [timeoutRow "attempt" ⟨0, 10⟩ ⟨20, "observer", 0⟩] }

/-- A failure of the attempt, which leaves its state. -/
def lateFailure : Recording := failure "attempt" .carrierFailed .carrier "code" ⟨20, "observer", 0⟩

def failureInserted : AttemptStore :=
  { timedOut with
    outcomes := timedOut.outcomes ++ [failureRow "attempt" .carrierFailed .carrier "code" ⟨20, "observer", 0⟩] }

/-- A timeout that is interrupted before its row, and a failure that is interrupted after it. -/
theorem recovers_iff_interrupted : timeout.Recovers (oneAttemptIn .inFlight) (oneAttemptIn .inFlight) ∧
    lateFailure.Recovers timedOut failureInserted := by
  have before : timeout.Stopped (oneAttemptIn .inFlight) (oneAttemptIn .inFlight) :=
    .single ⟨.cut, .op (.does (does_window.mpr ⟨rfl, rfl⟩)) (.op (.does (does_state.mpr ⟨rfl, rfl⟩)) .cut)⟩
  have after : lateFailure.Stopped timedOut failureInserted :=
    .single ⟨.cut, .op (.does (does_window.mpr ⟨rfl, rfl⟩)) (.op (.does rfl) .cut)⟩
  exact ⟨(recovers_iff before).mpr (.inl rfl),
    (recovers_iff after).mpr (.inr (.inr (show timedOut.outcome "attempt" .deadline ≠ none by decide)))⟩

/-- The attempt in flight, with the row of its timeout. -/
def timeoutInserted : AttemptStore :=
  { oneAttemptIn .inFlight with outcomes := [timeoutRow "attempt" ⟨0, 10⟩ ⟨20, "observer", 0⟩] }

/-- The process ends after the row of the timeout. -/
theorem timeout_stopped : timeout.Stopped (oneAttemptIn .inFlight) timeoutInserted := by
  refine .single ⟨.cut, ?_⟩
  refine .op (.does (does_window.mpr ⟨rfl, rfl⟩)) (.op (.does (does_state.mpr ⟨rfl, rfl⟩)) ?_)
  exact .op (.does rfl) .cut

/-- The attempt stays in flight, and its timeout is refused from then on. -/
theorem not_recovers_timeout : ¬ ∀ c s t, Stopped c s t → Recovers c s t := by
  intro h
  have hs := (h _ _ _ timeout_stopped).state "attempt"
  exact absurd hs (by decide)

end Recording

end Xir.Impl.XirLab.OutcomeClockRecorder
