import Xir.Impl.XirLab.Outcomes
import Xir.Proof.Submission

/-!
# Terminal states of attempts

`Journalled` is what the journal says of the states: each of its new rows leads from a
state that is not terminal, and the rows about an attempt lead from its state
before to its state after. Two of the writers write `attempts.state` without a row, and
`complete_attempt` does not ask whether the attempt ended: `journalled_iff` says where an
operation is journalled all the same.
-/

namespace Xir.Impl.XirLab

/-- Rows of the journal that lead from a state to another, and never on from a terminal one. -/
def Linked : Option AttemptState → List AttemptTransition → Option AttemptState → Prop
  | x, [], y => x = y
  | x, r :: rows, y => x = some r.fromState ∧ r.fromState ∉ terminalAttemptStates ∧ Linked (some r.toState) rows y

theorem Linked.append {x y z : Option AttemptState} {rows rows' : List AttemptTransition} (h : Linked x rows y)
    (h' : Linked y rows' z) : Linked x (rows ++ rows') z := by
  induction rows generalizing x with
  | nil => exact (show x = y from h) ▸ h'
  | cons r rows ih => exact ⟨h.1, h.2.1, ih h.2.2⟩

/-- No row leads on from a terminal state. -/
theorem Linked.terminal {t : AttemptState} {rows : List AttemptTransition} {y : Option AttemptState}
    (h : Linked (some t) rows y) (ht : t ∈ terminalAttemptStates) : rows = [] ∧ y = some t := by
  cases rows with
  | nil => exact ⟨rfl, Eq.symm h⟩
  | cons r rows =>
    obtain ⟨hr, hn, -⟩ := h
    exact absurd (Option.some.inj hr ▸ ht) hn

/-- The rows of the journal about an attempt. -/
def rowsAbout (rows : List AttemptTransition) (attemptID : String) : List AttemptTransition :=
  rows.filter fun r => r.attemptID = attemptID

/-- The new rows of the journal say what became of every attempt. -/
def Journalled (s s' : AttemptStore) : Prop :=
  ∃ rows, s'.journal = s.journal ++ rows ∧ ∀ id, Linked (s.state id) (rowsAbout rows id) (s'.state id)

namespace Journalled

variable {s s' s'' : AttemptStore}

theorem of_same (hj : s'.journal = s.journal) (hs : ∀ id, s'.state id = s.state id) : Journalled s s' :=
  ⟨[], by rw [hj, List.append_nil], fun id => (hs id).symm⟩

theorem refl (s : AttemptStore) : Journalled s s := of_same rfl fun _ => rfl

theorem trans (h : Journalled s s') (h' : Journalled s' s'') : Journalled s s'' := by
  obtain ⟨rows, hj, hl⟩ := h
  obtain ⟨rows', hj', hl'⟩ := h'
  refine ⟨rows ++ rows', by rw [hj', hj, List.append_assoc], fun id => ?_⟩
  rw [rowsAbout, List.filter_append]
  exact (hl id).append (hl' id)

/-- A terminal state is final. -/
theorem terminal (h : Journalled s s') {id : String} {t : AttemptState} (hs : s.state id = some t)
    (ht : t ∈ terminalAttemptStates) : s'.state id = some t := by
  obtain ⟨rows, -, hl⟩ := h
  exact (Linked.terminal (hs ▸ hl id) ht).2

/-- Where the journal has no new row, no state changed. -/
theorem state_of_journal (h : Journalled s s') (hj : s'.journal = s.journal) (id : String) :
    s'.state id = s.state id := by
  obtain ⟨rows, hr, hl⟩ := h
  have hn : rows = [] := List.append_cancel_left (hr.symm.trans (hj.trans (List.append_nil _).symm))
  subst hn
  exact (show s.state id = s'.state id from hl id).symm

end Journalled

namespace AttemptStore

variable {s s' : AttemptStore}

theorem setState_state (id : String) (t : AttemptState) (id' : String) :
    (s.setState id t).state id' = if id' = id then (s.state id).map fun _ => t else s.state id' := by
  simp only [setState, state, Function.update_apply]
  split
  · rw [Option.map_map, Option.map_map]
    rfl
  · rfl

theorem setState_same {id : String} {t : AttemptState} (h : s.state id = none ∨ s.state id = some t) (id' : String) :
    (s.setState id t).state id' = s.state id' := by
  rw [setState_state]
  split
  · subst_vars
    obtain h | h := h <;> rw [h] <;> rfl
  · rfl

/-- A write with its row of the journal. -/
theorem journalled_written {s₁ : AttemptStore} {id : String} {current t : AttemptState} (hc : s.state id = some current)
    (hn : current ∉ terminalAttemptStates) (hj : s₁.journal = s.journal)
    (hs : ∀ id', s₁.state id' = (s.setState id t).state id') : Journalled s (s₁.appendTransition id current t) := by
  refine ⟨[⟨id, current, t⟩], by rw [appendTransition, hj], fun id' => ?_⟩
  show Linked _ _ (s₁.state id')
  rw [hs, setState_state, rowsAbout]
  by_cases h : id = id'
  · subst h
    rw [List.filter_cons_of_pos (by simp), if_pos rfl, hc]
    exact ⟨rfl, hn, rfl⟩
  · rw [List.filter_cons_of_neg (by simpa using h), if_neg (Ne.symm h)]
    exact rfl

/-- Where an operation that is answered leaves the changes journalled. -/
def Allowed : AttemptOp → AttemptStore → Prop
  | .setTimedOut id, s => s.state id = none ∨ s.state id = some (.other "timed_out")
  | .setFailure id outcome, s => s.state id = none ∨ s.state id = some (.other outcome.name)
  | .completeAttempt id, s => ∀ t ∈ s.state id, t ∈ terminalAttemptStates → t = .other "delivered"
  | _, _ => True

/-! ## The writers -/

theorem commit_eq_ok {x : Except LabError AttemptStore} {a : Unit} : commit x = .ok (s', a) ↔ x = .ok s' := by
  rw [commit, bind_eq_ok]
  constructor
  · rintro ⟨_, h, heq⟩
    obtain ⟨rfl, -⟩ := Prod.mk.inj (pure_eq_ok.mp heq)
    exact h
  · exact fun h => ⟨s', h, rfl⟩

theorem updateAttemptState_journalled {id toState : String} (h : s.updateAttemptState id toState = .ok s') :
    Journalled s s' := by
  obtain ⟨current, hc, h⟩ := orRevert_bind.mp h
  obtain ⟨hn, h⟩ := revertIf_bind.mp h
  obtain rfl := pure_eq_ok.mp h
  exact journalled_written hc hn rfl fun _ => rfl

/-- What `mark_source_in_flight` does to the states. -/
theorem leases_markSourceInFlight {store store' : Store} {reservationID : String}
    (h : LeaseBudgetManager.markSourceInFlight store reservationID = .ok store') :
    ∃ first runState rest, LeaseBudgetManager.reservationRows store reservationID = (first, runState) :: rest ∧
      ((∃ row ∈ (first, runState) :: rest, row.1.sourceInFlight = true) ∧ store' = store ∨
        (¬ ∃ row ∈ (first, runState) :: rest, row.1.sourceInFlight = true) ∧
          ∃ attempt, store.attempts first.attemptID = some attempt ∧ attempt.state = .planned ∧
            store'.attempts = Function.update store.attempts first.attemptID
              (some { attempt with state := .inFlight })) := by
  rw [LeaseBudgetManager.markSourceInFlight] at h
  cases hr : LeaseBudgetManager.reservationRows store reservationID with
  | nil =>
    rw [hr] at h
    cases h
  | cons row rest =>
    obtain ⟨first, runState⟩ := row
    rw [hr] at h
    refine ⟨first, runState, rest, rfl, ?_⟩
    dsimp only at h
    split at h
    · exact .inl ⟨‹_›, (Except.ok.inj h).symm⟩
    · obtain ⟨-, h⟩ := revertIf_bind.mp h
      obtain ⟨attempt, ha, h⟩ := orRevert_bind.mp h
      obtain ⟨hp, h⟩ := revertIf_bind.mp h
      obtain ⟨s₁, hb, h⟩ := bind_eq_ok.mp h
      obtain rfl := pure_eq_ok.mp h
      refine .inr ⟨‹_›, attempt, ha, not_not.mp hp, ?_⟩
      rw [Store.putBudgets] at hb
      split at hb
      · obtain rfl := Except.ok.inj hb
        rfl
      · cases hb

theorem markSourceInFlight_journalled {id : String} (h : s.markSourceInFlight id = .ok s') : Journalled s s' := by
  obtain ⟨store', hm, h⟩ := bind_eq_ok.mp h
  obtain ⟨first, runState, rest, hr, hw⟩ := leases_markSourceInFlight hm
  simp only [hr] at h
  obtain ⟨hf, rfl⟩ | ⟨hf, attempt, ha, hp, hs⟩ := hw
  · rw [if_pos hf, pure_eq_ok] at h
    obtain rfl := h
    exact .refl s
  · rw [if_neg hf, pure_eq_ok] at h
    obtain rfl := h
    have hc : s.state first.attemptID = some .planned := by rw [state, ha, Option.map_some, hp]
    refine journalled_written hc (by decide) rfl fun id' => ?_
    simp only [setState, state, hs, ha, Function.update_apply]
    rfl

theorem completeAttempt_cases {id : String} (h : s.completeAttempt id = .ok s') :
    ∃ current, s.state id = some current ∧ (current = .other "delivered" ∧ s' = s ∨ current ≠ .other "delivered" ∧
      s' = (s.setState id (.other "delivered")).appendTransition id current (.other "delivered")) := by
  obtain ⟨current, hc, h⟩ := orRevert_bind.mp h
  obtain ⟨-, h⟩ := revertIf_bind.mp h
  obtain ⟨-, h⟩ := revertIf_bind.mp h
  refine ⟨current, hc, ?_⟩
  split at h
  · exact .inl ⟨‹_›, (pure_eq_ok.mp h).symm⟩
  · exact .inr ⟨‹_›, (pure_eq_ok.mp h).symm⟩

theorem releaseWork_attempts {store store' : Store} {leaseID holderID : String}
    (h : LeaseBudgetManager.releaseWork store leaseID holderID = .ok store') : store'.attempts = store.attempts := by
  obtain ⟨_, -, h⟩ := bind_eq_ok.mp h
  rw [Store.putWorkLeases] at h
  split at h
  · obtain rfl := Except.ok.inj h
    rfl
  · cases h

/-- An operation that is answered is journalled exactly where it is allowed. -/
theorem journalled_iff {op : AttemptOp} {a : op.Answer} (h : s.does op = .ok (s', a)) :
    Journalled s s' ↔ Allowed op s := by
  cases op with
  | updateAttemptState => exact iff_of_true (updateAttemptState_journalled (commit_eq_ok.mp h)) trivial
  | markSourceInFlight => exact iff_of_true (markSourceInFlight_journalled (commit_eq_ok.mp h)) trivial
  | window | state | validateDestinationFinality =>
    obtain ⟨_, -, h⟩ := bind_eq_ok.mp h
    obtain ⟨rfl, -⟩ := Prod.mk.inj (pure_eq_ok.mp h)
    exact iff_of_true (.refl _) trivial
  | outcome =>
    obtain ⟨rfl, -⟩ := Prod.mk.inj (pure_eq_ok.mp h)
    exact iff_of_true (.refl _) trivial
  | releaseWork =>
    obtain ⟨_, hr, h⟩ := bind_eq_ok.mp h
    obtain ⟨rfl, -⟩ := Prod.mk.inj (pure_eq_ok.mp h)
    exact iff_of_true (.of_same rfl fun id => by simp only [state, releaseWork_attempts hr]) trivial
  | appendOutcome =>
    have h := commit_eq_ok.mp h
    rw [appendOutcome] at h
    split at h
    · obtain rfl := Except.ok.inj h
      exact iff_of_true (.of_same rfl fun _ => rfl) trivial
    · cases h
  | setTimedOut id =>
    obtain ⟨rfl, -⟩ := Prod.mk.inj (pure_eq_ok.mp h)
    refine ⟨fun hl => ?_, fun ha => .of_same rfl (setState_same ha)⟩
    have := hl.state_of_journal rfl id
    rw [setState_state, if_pos rfl] at this
    cases hs : s.state id with
    | none => exact .inl hs
    | some t => exact .inr (by rw [hs] at this; rw [hs, ← this]; rfl)
  | setFailure id outcome =>
    obtain ⟨rfl, -⟩ := Prod.mk.inj (pure_eq_ok.mp h)
    refine ⟨fun hl => ?_, fun ha => .of_same rfl (setState_same ha)⟩
    have := hl.state_of_journal rfl id
    rw [setState_state, if_pos rfl] at this
    cases hs : s.state id with
    | none => exact .inl hs
    | some t => exact .inr (by rw [hs] at this; rw [hs, ← this]; rfl)
  | completeAttempt id =>
    obtain ⟨current, hc, ⟨rfl, rfl⟩ | ⟨hne, rfl⟩⟩ := completeAttempt_cases (commit_eq_ok.mp h)
    · exact iff_of_true (.refl _) fun t ht _ => Option.some.inj (ht.symm.trans hc)
    · refine ⟨fun hl t ht hterm => ?_, fun ha => ?_⟩
      · have hs : (s.setState id (.other "delivered")).state id = some t := hl.terminal ht hterm
        rw [setState_state, if_pos rfl, hc] at hs
        exact (Option.some.inj hs).symm
      · have hterm : current ∉ terminalAttemptStates := fun hm => hne (ha current hc hm)
        exact journalled_written hc hterm rfl fun _ => rfl

/-- Terminal states are final. -/
def TerminalKept (s s' : AttemptStore) : Prop :=
  ∀ id, ∀ t ∈ s.state id, t ∈ terminalAttemptStates → s'.state id = some t

/-- Where an operation that is answered leaves a terminal state as it is. -/
def KeepsTerminal : AttemptOp → AttemptStore → Prop
  | .setTimedOut id, s => ∀ t ∈ s.state id, t ∈ terminalAttemptStates → t = .other "timed_out"
  | .setFailure id outcome, s => ∀ t ∈ s.state id, t ∈ terminalAttemptStates → t = .other outcome.name
  | .completeAttempt id, s => ∀ t ∈ s.state id, t ∈ terminalAttemptStates → t = .other "delivered"
  | _, _ => True

theorem setState_terminalKept {id : String} {t : AttemptState} :
    TerminalKept s (s.setState id t) ↔ ∀ u ∈ s.state id, u ∈ terminalAttemptStates → u = t := by
  constructor
  · intro h u hu hterm
    have hs := h id u hu hterm
    rw [setState_state, if_pos rfl, hu] at hs
    exact (Option.some.inj hs).symm
  · intro h id' u hu hterm
    rw [setState_state]
    split
    · subst_vars
      rw [hu, h u hu hterm]
      rfl
    · exact hu

theorem Allowed.keeps {op : AttemptOp} (h : Allowed op s) : KeepsTerminal op s := by
  cases op with
  | setTimedOut id | setFailure id outcome =>
    intro t ht _
    obtain h | h := h
    · rw [h] at ht
      cases ht
    · exact Option.some.inj (ht.symm.trans h)
  | completeAttempt id => exact h
  | _ => trivial

/-- An operation that is answered keeps the terminal states exactly where it says so. -/
theorem terminalKept_iff {op : AttemptOp} {a : op.Answer} (h : s.does op = .ok (s', a)) :
    TerminalKept s s' ↔ KeepsTerminal op s := by
  have of_allowed (ha : Allowed op s) : TerminalKept s s' := fun _ _ ht hm => ((journalled_iff h).mpr ha).terminal ht hm
  cases op with
  | setTimedOut id | setFailure id outcome =>
    obtain ⟨rfl, -⟩ := Prod.mk.inj (pure_eq_ok.mp h)
    exact setState_terminalKept
  | completeAttempt id =>
    refine ⟨fun hk => ?_, fun hk => of_allowed hk⟩
    obtain ⟨current, hc, ⟨rfl, rfl⟩ | ⟨-, rfl⟩⟩ := completeAttempt_cases (commit_eq_ok.mp h)
    · exact fun t ht _ => Option.some.inj (ht.symm.trans hc)
    · exact setState_terminalKept.mp hk
  | _ => exact iff_of_true (of_allowed trivial) trivial

/-- What an operation leaves and answers, which raises what refuses it. -/
def answer (op : AttemptOp) (s : AttemptStore) : Except LabError op.Answer × AttemptStore :=
  match s.does op with
  | .ok (s', a) => (.ok a, s')
  | .error e => (.error e, s)

theorem answer_answers (op : AttemptOp) (s : AttemptStore) : s.Answers op (answer op s).1 (answer op s).2 := by
  rw [answer]
  split
  · exact .does ‹_›
  · exact .raises op _

end AttemptStore

namespace OutcomeClockRecorder

open AttemptStore

/-- The writers, each with what it has still to do. -/
abbrev Writers (τ : Type) : Type := Threads τ AttemptStore AttemptOp (fun op => Except LabError op.Answer) LabError Unit

/-- A step of the writers, whose operations meet a condition where they are answered. -/
abbrev StepIf (C : AttemptOp → AttemptStore → Prop) {τ : Type} [DecidableEq τ] :
    Writers τ → Threads.Event τ Writer AttemptOp → Writers τ → Prop :=
  Threads.Step (fun op s r s' => s.Answers op r s' ∧ ((∃ a, r = .ok a) → C op s)) Writer.prog

variable {τ : Type} [DecidableEq τ]

/-- What holds over every operation that meets the condition holds over a run. -/
theorem run_mono {C : AttemptOp → AttemptStore → Prop} {R : AttemptStore → AttemptStore → Prop} (hr : ∀ s, R s s)
    (ht : ∀ {s s' s''}, R s s' → R s' s'' → R s s'')
    (hd : ∀ {s op s' a}, s.does op = .ok (s', a) → C op s → R s s') {w w' : Writers τ}
    {es : List (Threads.Event τ Writer AttemptOp)} (run : Run (StepIf C) w es w') : R w.shared w'.shared := by
  have trans (v v' v'' : Writers τ) (h : R v.shared v'.shared) (h' : R v'.shared v''.shared) : R v.shared v''.shared :=
    ht h h'
  refine run.mono (R := fun v v' => R v.shared v'.shared) (fun v => hr v.shared) (trans _ _ _) ?_
  intro v e v' hs
  cases hs with
  | start => exact hr _
  | answer asked answered =>
    obtain ⟨ha, hal⟩ := answered
    cases ha with
    | raises => exact hr _
    | does h => exact hd h (hal ⟨_, rfl⟩)

/-- In a run of the writers whose writes keep the terminal states, those are
final. Where the writes without a row of the journal change nothing either, the
journal leads from each state of an attempt to the next. -/
theorem final_of_run {w w' : Writers τ} {es : List (Threads.Event τ Writer AttemptOp)}
    (run : Run (StepIf KeepsTerminal) w es w') :
    TerminalKept w.shared w'.shared ∧ (Run (StepIf Allowed) w es w' → Journalled w.shared w'.shared) := by
  refine ⟨run_mono (fun _ _ _ ht _ => ht) ?_ (fun h hk => (terminalKept_iff h).mpr hk) run, fun run => ?_⟩
  · intro s s' s'' h h' id t ht hterm
    exact h' id t (h id t ht hterm) hterm
  · exact run_mono Journalled.refl Journalled.trans (fun h ha => (journalled_iff h).mpr ha) run

/-! ## One attempt -/

/-- One attempt in a given state, with its window and one completed stage. -/
def oneAttemptIn (state : AttemptState) : AttemptStore where
  store :=
    { Store.empty with
      attempts := Function.update (fun _ => none) "attempt" (some ⟨"run", state⟩)
      stages := [⟨"stage", "attempt", "source"⟩] }
  stageStates := fun _ => some "completed"
  receipts := fun _ => none
  policies := fun _ => none
  observations := []
  ordinals := fun _ => 0
  windows := fun _ => some ⟨0, 10⟩
  outcomes := []
  journal := []

/-- One thread, and what it has still to do. -/
abbrev oneWriter (s : AttemptStore) (p : Program Unit) : Writers Unit := ⟨s, fun _ => p⟩

instance : ∀ (op : AttemptOp) (s : AttemptStore), Decidable (Allowed op s)
  | .setTimedOut _, _ | .setFailure _ _, _ => inferInstanceAs (Decidable (_ ∨ _))
  | .completeAttempt _, _ => inferInstanceAs (Decidable (∀ t ∈ (_ : Option AttemptState), _ → _))
  | .updateAttemptState _ _, _ | .markSourceInFlight _, _ | .releaseWork _ _, _ | .window _, _ | .state _, _
  | .outcome _ _, _ | .validateDestinationFinality _ _, _ | .appendOutcome _, _ => .isTrue trivial

/-- The answers of the store, where an operation that is not allowed raises. -/
def allowedAnswer (op : AttemptOp) (s : AttemptStore) : Except LabError op.Answer × AttemptStore :=
  if Allowed op s then answer op s else (.error .osError, s)

theorem allowedAnswer_step (op : AttemptOp) (s : AttemptStore) :
    s.Answers op (allowedAnswer op s).1 (allowedAnswer op s).2 ∧
    ((∃ a, (allowedAnswer op s).1 = .ok a) → Allowed op s) := by
  rw [allowedAnswer]
  by_cases h : Allowed op s
  · rw [if_pos h]
    exact ⟨answer_answers op s, fun _ => h⟩
  · rw [if_neg h]
    exact ⟨.raises op _, nofun⟩

/-- What the calls of a thread leave, one after the other. -/
def allowedAfter (cs : List Writer) (s : AttemptStore) : AttemptStore :=
  cs.foldl (fun s c => (c.prog.run allowedAnswer s).2) s

theorem run_allowed (cs : List Writer) (s : AttemptStore) (p : Program Unit) :
    ∃ es p', Run (StepIf Allowed) (oneWriter s p) es (oneWriter (allowedAfter cs s) p') := by
  induction cs generalizing s p with
  | nil => exact ⟨[], p, .nil _⟩
  | cons c cs ih =>
    obtain ⟨es, p₁, first⟩ :
        ∃ es p₁, Run (StepIf Allowed) (oneWriter s p) es (oneWriter (c.prog.run allowedAnswer s).2 p₁) :=
      Threads.run_call allowedAnswer_step Writer.prog c s p
    obtain ⟨es', p', others⟩ := ih (c.prog.run allowedAnswer s).2 p₁
    exact ⟨es ++ es', p', first.append others⟩

def lateObserver : Observer := ⟨20, "observer", 0⟩

/-- Two attempts in flight, as far as a writer reads them. -/
def twoInFlight : AttemptStore :=
  { oneAttemptIn .inFlight with
    store :=
      { (oneAttemptIn .inFlight).store with
        attempts := Function.update (oneAttemptIn .inFlight).store.attempts "next" (some ⟨"run", .inFlight⟩) } }

/-- One attempt is delivered, and the other one timed out. -/
def terminatedStore : AttemptStore :=
  allowedAfter [.call (.completeAttempt "attempt" "lease" "holder"), .updateAttemptState "next" "timed_out"] twoInFlight

/-- The first one is completed again, and is too late for its deadline; the timeout and a failure of the other one are
recorded. -/
def recordedStore : AttemptStore :=
  allowedAfter
    [.call (.completeAttempt "attempt" "lease" "holder"), .call (.markDeadlineTimeout "attempt" lateObserver),
    .call (.markDeadlineTimeout "next" lateObserver),
    .call (.recordFailure "next" .carrierFailed .carrier "code" lateObserver)] terminatedStore

theorem final_of_run_terminated :
    TerminalKept terminatedStore recordedStore ∧ Journalled twoInFlight recordedStore := by
  have keeps {w w' : Writers Unit} {e : Threads.Event Unit Writer AttemptOp} (h : StepIf Allowed w e w') :
      StepIf KeepsTerminal w e w' := h.imp fun ha => ⟨ha.1, fun hk => (ha.2 hk).keeps⟩
  obtain ⟨_, p, before⟩ :
      ∃ es p, Run (StepIf Allowed) (oneWriter twoInFlight (.done ())) es (oneWriter terminatedStore p) :=
    run_allowed _ _ _
  obtain ⟨_, p', after⟩ : ∃ es p', Run (StepIf Allowed) (oneWriter terminatedStore p) es (oneWriter recordedStore p') :=
    run_allowed _ _ _
  have kept : TerminalKept _ _ ∧ _ := final_of_run (after.imp keeps)
  have journalled : _ ∧ (_ → Journalled _ _) := final_of_run ((before.append after).imp keeps)
  exact ⟨kept.1, journalled.2 (before.append after)⟩

-- The deadline and the failure of the second attempt.
example : recordedStore.outcomes.length = 2 ∧ recordedStore.state "next" = some (.other "timed_out") :=
  by decide +kernel

/-- An attempt is delivered by `complete_attempt`, and its carrier is then said to have failed. -/
theorem failed_after_delivery : ¬ ∀ (s : AttemptStore) (w w' : Writers Unit)
    (es es' : List (Threads.Event Unit Writer AttemptOp)), Run WriterStep (oneWriter s (.done ())) es w →
    Run WriterStep w es' w' → TerminalKept w.shared w'.shared ∧ Journalled w.shared w'.shared := by
  intro h
  let failing : Writer := .call (.recordFailure "attempt" .carrierFailed .carrier "code" lateObserver)
  obtain ⟨es, p, completed⟩ := Threads.run_call answer_answers Writer.prog
    (.call (.completeAttempt "attempt" "lease" "holder")) (oneAttemptIn .inFlight) (.done ())
  obtain ⟨es', p', failed⟩ := Threads.run_call answer_answers Writer.prog failing _ p
  have hk := (h _ _ _ _ _ completed failed).1
  have hs : some (AttemptState.other "carrier_failed") = some (.other "delivered") :=
    hk "attempt" (.other "delivered") rfl (by decide)
  exact absurd hs (by decide)

end OutcomeClockRecorder

end Xir.Impl.XirLab
