import Xir.Impl.XirLab.Scheduler
import Xir.Proof.Plan

/-!
# The limits of the scheduler

`claim_next` looks at the active attempts before it claims a planned one, and
not before it claims a retry. The limits hold in every run in which each retry
that is claimed would have passed the same checks (`limits_of_run`), and not in
every run (`limits_violated`).
-/

namespace Xir.Impl.XirLab.BoundedScheduler

variable {s s' : BoundedScheduler} {item : ScheduledAttempt} {r : Option ScheduledAttempt}

/-- Two attempts are not of one pair. -/
def Apart (a b : ScheduledAttempt) : Prop := a.pairID ≠ none → a.pairID ≠ b.pairID

theorem Apart.symm {a b : ScheduledAttempt} (h : Apart a b) : Apart b a := fun hb he =>
  h (he ▸ hb) he.symm

structure WithinLimits (s : BoundedScheduler) : Prop where
  inFlight {maximum : ℕ+} : s.plan.limits.maxInFlightAttempts = some maximum → s.active.length ≤ maximum
  batch {a b : ScheduledAttempt} : a ∈ s.active → b ∈ s.active → a.batchIndex = b.batchIndex
  pairs : s.active.Pairwise Apart

/-- The attempt is of the batch of the active ones, and of the pair of none. -/
def Admissible (s : BoundedScheduler) (item : ScheduledAttempt) : Prop :=
  ∀ active ∈ s.active, active.batchIndex = item.batchIndex ∧ Apart active item

/-- One more attempt may be active. -/
def Room (s : BoundedScheduler) : Prop :=
  ∃ maximum, s.plan.limits.maxInFlightAttempts = some maximum ∧ s.active.length < maximum

/-- If all planned attempts are claimed and there is room, the retry whose turn it is passes the checks that
`claim_next` makes of a planned attempt. -/
def RetryAdmissible (s : BoundedScheduler) : Prop :=
  Room s → s.plan.attempts.length ≤ s.nextIndex → ∀ item ∈ s.pendingRetries,
    (∀ other ∈ s.pendingRetries, item.sequenceIndex ≤ other.sequenceIndex) → Admissible s item

/-! ## Calls -/

/-- What `claim_next` claims. -/
inductive Claimed (s : BoundedScheduler) (item : ScheduledAttempt) : BoundedScheduler → Prop
  | planned : s.plan.attempts[s.nextIndex]? = some item → Admissible s item →
    Claimed s item { s.activate item with nextIndex := s.nextIndex + 1 }
  | retry : s.plan.attempts.length ≤ s.nextIndex → s.nextRetry = some item → Claimed s item (s.activate item)

theorem claimNext_eq_ok (h : s.claimNext = .ok (r, s')) :
    (r = none ∧ s' = s) ∨ ∃ item, r = some item ∧ Room s ∧ Claimed s item s' := by
  obtain ⟨maximum, hm, h⟩ := orRevert_bind.mp h
  split at h
  · cases h
    exact .inl ⟨rfl, rfl⟩
  have room : Room s := ⟨maximum, hm, by omega⟩
  split at h
  · rename_i hn
    split at h
    · cases h
      exact .inl ⟨rfl, rfl⟩
    · cases h
      exact .inr ⟨_, rfl, room, .retry (List.getElem?_eq_none_iff.mp hn) ‹_›⟩
  · rename_i item hi
    split at h
    · cases h
      exact .inl ⟨rfl, rfl⟩
    rename_i hb
    split at h
    · cases h
      exact .inl ⟨rfl, rfl⟩
    rename_i hp
    cases h
    refine .inr ⟨item, rfl, room, .planned hi fun active ha => ⟨?_, fun hn he => ?_⟩⟩
    · exact not_not.mp fun hne => hb ⟨active, ha, hne⟩
    · exact hp ⟨he ▸ hn, active, ha, he⟩

/-- Once all planned attempts are claimed, a retry is. -/
theorem claimNext_retry {maximum : ℕ+} (hm : s.plan.limits.maxInFlightAttempts = some maximum)
    (room : s.active.length < maximum) (exhausted : s.plan.attempts.length ≤ s.nextIndex)
    (next : s.nextRetry = some item) :
    s.claimNext = .ok (some item, s.activate item) := by
  have start : castInt s.plan.limits.maxInFlightAttempts = .ok maximum := orRevert_eq_ok.mpr hm
  rw [claimNext, start, ok_bind, if_neg (Nat.not_le_of_lt room), List.getElem?_eq_none_iff.mpr exhausted]
  simp only [next]
  rfl

theorem completeAttempt_single (h : s.active = [item]) : s.completeAttempt item.attemptID =
    .ok { s with active := [], completed := insert item.attemptID s.completed } := by
  have hget : Dict.get (·.attemptID) s.active item.attemptID = some item := by simp [Dict.get, h]
  have hdel : Dict.del (·.attemptID) item.attemptID s.active = [] := by simp [Dict.del, h]
  rw [completeAttempt, hget, hdel]
  rfl

theorem nextRetry_mem (h : s.nextRetry = some item) : item ∈ s.pendingRetries ∧
    ∀ other ∈ s.pendingRetries, item.sequenceIndex ≤ other.sequenceIndex := by
  obtain ⟨hm, hle, -⟩ := List.argmin_eq_some_iff.mp h
  exact ⟨hm, hle⟩

theorem completeAttempt_eq_ok {attemptID : String} (h : s.completeAttempt attemptID = .ok s') :
    (∃ item ∈ s.active, item.attemptID = attemptID) ∧
      s' = { s with active := Dict.del (·.attemptID) attemptID s.active, completed := insert attemptID s.completed } :=
  by
  obtain ⟨ha, h⟩ := revertIf_bind.mp h
  cases h
  refine ⟨?_, rfl⟩
  cases hg : Dict.get (·.attemptID) s.active attemptID with
  | none => exact absurd hg ha
  | some item => exact ⟨item, Dict.get_mem hg, Dict.key_of_get hg⟩

/-- A new scheduler. -/
theorem init_eq_ok {plan : ExecutionPlan} (h : init plan = .ok s) : s = ⟨plan, 0, [], ∅, []⟩ ∧
    ∃ size maximum, plan.limits.maxBatchAttempts = some size ∧ plan.limits.maxInFlightAttempts = some maximum := by
  obtain ⟨-, h⟩ := revertIf_bind.mp h
  obtain ⟨hn, h⟩ := revertIf_bind.mp h
  cases h
  obtain ⟨hb, hm⟩ := not_or.mp hn
  obtain ⟨size, hb⟩ := Option.ne_none_iff_exists'.mp hb
  obtain ⟨maximum, hm⟩ := Option.ne_none_iff_exists'.mp hm
  exact ⟨rfl, size, maximum, hb, hm⟩

/-- What `register_retry` found, and the retry that it adds. -/
structure Registered [ScheduleLibraries] (s : BoundedScheduler) (priorAttemptID : String) (retryIndex : Int)
    (item : ScheduledAttempt) (prior root : ScheduledAttempt) : Prop where
  index : 1 ≤ retryIndex ∧ ∃ maximum : Nat, s.plan.limits.maxRetriesPerLineage = some maximum ∧ retryIndex ≤ maximum
  found : (s.planned priorAttemptID).or (Dict.get (·.attemptID) s.retries priorAttemptID) = some prior
  rooted : ∃ rootID, s.root prior = some rootID ∧ s.planned rootID = some root
  unused : ∀ other ∈ s.retries, s.root other = some root.attemptID → other.retryIndex ≠ some retryIndex
  built : ∃ size, item = s.retry root prior retryIndex size

theorem WithinLimits.activate (h : WithinLimits s) (room : Room s) (admissible : Admissible s item) {nextIndex : Nat} :
    WithinLimits { s.activate item with nextIndex } := by
  obtain ⟨maximum, hm, hlt⟩ := room
  have batch {a : ScheduledAttempt} (ha : a ∈ Dict.put (·.attemptID) item s.active) :
      a.batchIndex = item.batchIndex := by
    rcases Dict.mem_of_mem_put ha with rfl | ha
    · rfl
    · exact (admissible a ha).1
  refine ⟨fun {maximum'} hm' => ?_, fun ha hb => (batch ha).trans (batch hb).symm,
    Dict.pairwise_put Apart.symm h.pairs fun a ha => (admissible a ha).2⟩
  obtain rfl : maximum = maximum' := Option.some.inj (hm.symm.trans hm')
  have hle : (Dict.put (·.attemptID) item s.active).length ≤ s.active.length + 1 := Dict.length_put_le
  show (Dict.put (·.attemptID) item s.active).length ≤ maximum
  omega

section

variable [ScheduleLibraries]

theorem registerRetry_eq_ok {priorAttemptID : String} {retryIndex : Int}
    (h : s.registerRetry priorAttemptID retryIndex = .ok (item, s')) :
    s' = { s with retries := Dict.put (·.attemptID) item s.retries } ∧
      ∃ prior root, Registered s priorAttemptID retryIndex item prior root := by
  obtain ⟨maximum, hm, h⟩ := orRevert_bind.mp h
  obtain ⟨hr, h⟩ := revertIf_bind.mp h
  obtain ⟨prior, hp, h⟩ := orRevert_bind.mp h
  obtain ⟨rootID, hid, h⟩ := orRevert_bind.mp h
  obtain ⟨root, hroot, h⟩ := orRevert_bind.mp h
  obtain ⟨hu, h⟩ := revertIf_bind.mp h
  obtain ⟨-, h⟩ := revertIf_bind.mp h
  obtain ⟨size, hs, h⟩ := orRevert_bind.mp h
  cases h
  obtain ⟨h1, h2⟩ := not_or.mp hr
  exact ⟨rfl, prior, root, ⟨by omega, maximum, hm, by omega⟩, hp, ⟨rootID, hid, hroot⟩,
    fun other ho hre hi => hu ⟨other, ho, hre, hi⟩, size, rfl⟩

/-- A call that returns. -/
inductive Returned (s : BoundedScheduler) : SchedulerCall → Option ScheduledAttempt → BoundedScheduler → Prop
  | none : Returned s .claimNext none s
  | claimed {item : ScheduledAttempt} {s' : BoundedScheduler} : Room s → Claimed s item s' →
    Returned s .claimNext (some item) s'
  | completed {item : ScheduledAttempt} : item ∈ s.active → Returned s (.completeAttempt item.attemptID) none
    { s with active := Dict.del (·.attemptID) item.attemptID s.active, completed := insert item.attemptID s.completed }
  | registered {priorAttemptID : String} {retryIndex : Int} {item prior root : ScheduledAttempt} :
    Registered s priorAttemptID retryIndex item prior root →
      Returned s (.registerRetry priorAttemptID retryIndex) (some item)
      { s with retries := Dict.put (·.attemptID) item s.retries }

theorem returned_of_does {call : SchedulerCall} (h : call.does s = .ok (r, s')) : Returned s call r s' := by
  cases call with
  | claimNext =>
    obtain ⟨rfl, rfl⟩ | ⟨item, rfl, room, claimed⟩ := claimNext_eq_ok h
    · exact .none
    · exact .claimed room claimed
  | completeAttempt attemptID =>
    obtain ⟨s₁, h₁, h⟩ := bind_eq_ok.mp h
    cases h
    obtain ⟨⟨item, hi, rfl⟩, rfl⟩ := completeAttempt_eq_ok h₁
    exact .completed hi
  | registerRetry priorAttemptID retryIndex =>
    obtain ⟨⟨item, s₁⟩, h₁, h⟩ := bind_eq_ok.mp h
    cases h
    obtain ⟨rfl, prior, root, registered⟩ := registerRetry_eq_ok h₁
    exact .registered registered

theorem step_plan {e : SchedulerEvent} (h : SchedulerStep s e s') : s'.plan = s.plan := by
  cases h with
  | raised => rfl
  | returned h =>
    cases returned_of_does h with
    | claimed _ claimed => cases claimed <;> rfl
    | _ => rfl

/-! ## Limits -/

/-- A step, which claims from a state in which the retry whose turn it is may be claimed. -/
def AdmissibleStep (s : BoundedScheduler) (e : SchedulerEvent) (s' : BoundedScheduler) : Prop :=
  SchedulerStep s e s' ∧ (e.1 = .claimNext → RetryAdmissible s)

theorem WithinLimits.of_step {e : SchedulerEvent} (h : WithinLimits s) (hs : AdmissibleStep s e s') :
    WithinLimits s' := by
  obtain ⟨hs, hr⟩ := hs
  cases hs with
  | raised => exact h
  | returned hd =>
    cases returned_of_does hd with
    | none => exact h
    | registered => exact ⟨h.inFlight, h.batch, h.pairs⟩
    | @completed item =>
      have sub : (Dict.del (·.attemptID) item.attemptID s.active).Sublist s.active := List.filter_sublist
      exact ⟨fun hm => sub.length_le.trans (h.inFlight hm), fun ha hb => h.batch (sub.subset ha) (sub.subset hb),
        h.pairs.sublist sub⟩
    | claimed room claimed =>
      cases claimed with
      | planned _ admissible => exact h.activate room admissible
      | retry exhausted next =>
        obtain ⟨pending, first⟩ := nextRetry_mem next
        exact h.activate room (hr rfl room exhausted _ pending first)

/-- In a run that claims no retry of another batch, or of the pair, of an active attempt, the
scheduler keeps its limits. -/
theorem limits_of_run {plan : ExecutionPlan} {s₀ : BoundedScheduler} {es : List SchedulerEvent}
    (new : init plan = .ok s₀) (run : Run AdmissibleStep s₀ es s) : s.plan = plan ∧ WithinLimits s := by
  obtain ⟨rfl, -⟩ := init_eq_ok new
  refine run.inv (I := fun s => s.plan = plan ∧ WithinLimits s) (C := fun _ => True)
    (fun _ h hs => ⟨(step_plan hs.1).trans h.1, h.2.of_step hs⟩)
    (fun _ _ => trivial) ⟨rfl, fun _ => Nat.zero_le _, ?_, .nil⟩
  intro a b ha
  exact absurd ha List.not_mem_nil

omit [ScheduleLibraries] in
/-- A retry that is claimed and is not admissible breaks a limit. -/
theorem not_within_of_retry (hp : item ∈ s.pendingRetries) (h : ¬ Admissible s item) :
    ¬ WithinLimits (s.activate item) := by
  obtain ⟨-, pending⟩ := List.mem_filter.mp hp
  have inactive := Dict.get_eq_none.mp (Option.isNone_iff_eq_none.mp (of_decide_eq_true pending).2)
  have put : (s.activate item).active = s.active ++ [item] := Dict.put_of_new inactive
  refine fun ⟨_, batch, pairs⟩ => h fun active ha => ⟨?_, ?_⟩
  · exact batch (put ▸ List.mem_append_left _ ha) (put ▸ List.mem_append_right _ (List.mem_singleton_self item))
  · exact (List.pairwise_append.mp (put ▸ pairs)).2.2 active ha item (List.mem_singleton_self item)

end

/-! ## A pair -/

section

variable [ScheduleLibraries]

/-- The retry of the first attempt of the pair. -/
def pairRetry : ScheduledAttempt :=
  { pairAttempt .baseline 2 with
    attemptID := ScheduleLibraries.stableID "attempt"
      [.text "run", .text (pairAttempt .baseline 0).attemptID, .text "retry", .number 1]
    attemptKind := .retry, retryOf := some (pairAttempt .baseline 0).attemptID, retryIndex := some 1, batchIndex := 1 }

def pairState (nextIndex : Nat) (active retries : List ScheduledAttempt) (completed : Finset String) :
    BoundedScheduler :=
  ⟨pairPlan, nextIndex, active, completed, retries⟩

end

/-- A retry is claimed once both arms of its pair are completed. -/
theorem limits_of_run_retry :
    @WithinLimits (@pairState pairIDs 2 [@pairRetry pairIDs] [@pairRetry pairIDs] {"attempt_1", "attempt_0"}) := by
  let _ := pairIDs
  let first := pairAttempt .baseline 0
  let second := pairAttempt .xir 1
  have new : init pairPlan = .ok (pairState 0 [] [] ∅) := rfl
  have claimed : AdmissibleStep (pairState 0 [] [] ∅) (.claimNext, .ok first) (pairState 1 [first] [] ∅) :=
    ⟨.returned rfl, fun _ _ exhausted => absurd exhausted (by decide)⟩
  have completed : AdmissibleStep (pairState 1 [first] [] ∅) (.completeAttempt "attempt_0", .ok none)
      (pairState 1 [] [] {"attempt_0"}) := ⟨.returned rfl, nofun⟩
  have registered : AdmissibleStep (pairState 1 [] [] {"attempt_0"}) (.registerRetry "attempt_0" 1, .ok pairRetry)
      (pairState 1 [] [pairRetry] {"attempt_0"}) := ⟨.returned (by with_unfolding_all rfl), nofun⟩
  have claimed' : AdmissibleStep (pairState 1 [] [pairRetry] {"attempt_0"}) (.claimNext, .ok second)
      (pairState 2 [second] [pairRetry] {"attempt_0"}) :=
    ⟨.returned rfl, fun _ _ exhausted => absurd exhausted (by decide)⟩
  have completed' :
      AdmissibleStep (pairState 2 [second] [pairRetry] {"attempt_0"}) (.completeAttempt "attempt_1", .ok none)
      (pairState 2 [] [pairRetry] {"attempt_1", "attempt_0"}) := ⟨.returned rfl, nofun⟩
  have retried : AdmissibleStep (pairState 2 [] [pairRetry] {"attempt_1", "attempt_0"}) (.claimNext, .ok pairRetry)
      (pairState 2 [pairRetry] [pairRetry] {"attempt_1", "attempt_0"}) :=
    ⟨.returned rfl, fun _ _ _ _ _ _ _ ha => absurd ha List.not_mem_nil⟩
  have run := Run.cons claimed
    (.cons completed (.cons registered (.cons claimed' (.cons completed' (.single retried)))))
  exact (limits_of_run new run).2

/-- After its first arm and the retry of it, a pair is active twice, in two batches. -/
theorem limits_violated : @expandPlan pairIDs pairProfile "run" = .ok (@pairPlan pairIDs) ∧
    ∃ s₀ es s, init (@pairPlan pairIDs) = .ok s₀ ∧ Run (@SchedulerStep pairIDs) s₀ es s ∧ ¬ WithinLimits s := by
  let _ := pairIDs
  let first := pairAttempt .baseline 0
  let second := pairAttempt .xir 1
  have claimed : SchedulerStep (pairState 0 [] [] ∅) (.claimNext, .ok first) (pairState 1 [first] [] ∅) := .returned rfl
  have completed : SchedulerStep (pairState 1 [first] [] ∅) (.completeAttempt first.attemptID, .ok none)
      (pairState 1 [] [] {first.attemptID}) := .returned rfl
  have registered :
      SchedulerStep (pairState 1 [] [] {first.attemptID}) (.registerRetry first.attemptID 1, .ok pairRetry)
      (pairState 1 [] [pairRetry] {first.attemptID}) := .returned (by with_unfolding_all rfl)
  have claimed' : SchedulerStep (pairState 1 [] [pairRetry] {first.attemptID}) (.claimNext, .ok second)
      (pairState 2 [second] [pairRetry] {first.attemptID}) := .returned rfl
  have retried : SchedulerStep (pairState 2 [second] [pairRetry] {first.attemptID}) (.claimNext, .ok pairRetry)
      (pairState 2 [second, pairRetry] [pairRetry] {first.attemptID}) := .returned rfl
  refine ⟨expandPlan_pair (by decide), pairState 0 [] [] ∅, _, _, rfl,
    .cons claimed (.cons completed (.cons registered (.cons claimed' (.cons retried (.nil _))))), fun h => ?_⟩
  have batch : second.batchIndex = pairRetry.batchIndex := h.batch List.mem_cons_self (by simp [pairState])
  exact absurd batch (by decide)

end Xir.Impl.XirLab.BoundedScheduler
