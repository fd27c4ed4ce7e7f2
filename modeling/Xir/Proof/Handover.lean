import Xir.Proof.Reservations

/-!
# Handing an attempt over

At most one work lease of an attempt is active: the index `one_live_work_lease`
sees to it. `acquire_work` looks for unresolved submissions of the attempt only
if it finds a lease that is still active and expires it; after `release_work` it
finds none, and looks for nothing. If leases are released only of attempts of
which nothing is unresolved, and the nonces of an attempt are locked only under
a lease (`Attended`), an attempt that was leased has an active lease or nothing
unresolved (`Resolved`), and `handover_of_run` has what `acquire_work` hands over.
-/

namespace Xir.Impl.XirLab

open Store LeaseBudgetManager

variable {s s' : Store} {attemptID holderID : String}

/-- At most one work lease per attempt is active. -/
def OneActive (s : Store) : Prop := ∀ w ∈ s.workLeases, ∀ w' ∈ s.workLeases,
  w.state = .active → w'.state = .active → w.attemptID = w'.attemptID → w = w'

/-- The attempt has a lease of another holder only if nothing of it is unresolved. -/
def HandedOver (s : Store) (attemptID holderID : String) : Prop :=
  (∃ w ∈ s.workLeases, w.attemptID = attemptID ∧ w.holderID ≠ holderID) → ¬ s.AttemptHasUnresolvedSubmission attemptID

instance (s : Store) (attemptID holderID : String) : Decidable (HandedOver s attemptID holderID) :=
  inferInstanceAs (Decidable (_ → _))

/-- The attempt was never leased, or a lease of it is active. -/
def InHands (s : Store) (attemptID : String) : Prop :=
  (∃ w ∈ s.workLeases, w.attemptID = attemptID) → ∃ w ∈ s.workLeases, w.attemptID = attemptID ∧ w.state = .active

/-- A lease is released only if nothing of its attempt is unresolved, and a nonce is locked only of an attempt that is
in hands. -/
def Attended (s : Store) : Call → Prop
  | .releaseWork leaseID _ => ∀ w ∈ s.workLeases, w.leaseID = leaseID → ¬ s.AttemptHasUnresolvedSubmission w.attemptID
  | .acquireNonceSubreservation _ _ reservationID stageKey _ _ _ _ _ => ∀ sub ∈ s.subreservations,
    sub.reservationID = reservationID → sub.stageKey = stageKey → InHands s sub.attemptID
  | .markLineagePending lineageID _ | .recordIncluded lineageID _ | .reopenAfterReorganization lineageID _ =>
    ∀ n ∈ s.nonceLeases, n.lineageID = lineageID → n.locked = false → InHands s n.attemptID
  | _ => True

/-- A step of an attended call, or one in which the rest of the laboratory submits nothing for an attempt that is not
in hands. -/
def AttendedStep (s : Store) (e : Option Call) (s' : Store) : Prop :=
  StepWhen Attended s e s' ∧ (e = none → ∀ attemptID, ¬ InHands s attemptID →
    ¬ s.AttemptHasUnresolvedSubmission attemptID → ¬ s'.AttemptHasUnresolvedSubmission attemptID)

/-- Every attempt is in hands, or nothing of it is unresolved. -/
def Resolved (s : Store) : Prop := ∀ attemptID, InHands s attemptID ∨ ¬ s.AttemptHasUnresolvedSubmission attemptID

instance (s : Store) (attemptID : String) : Decidable (InHands s attemptID) := inferInstanceAs (Decidable (_ → _))

instance (s : Store) (call : Call) : Decidable (Attended s call) := by
  unfold Attended
  split <;> infer_instance

theorem oneActive_of_constraints (h : WorkLeaseRow.Constraints s.workLeases) : OneActive s := by
  intro w hw w' hw' ha ha' he
  exact h.2.eq (a := w.attemptID) hw hw' (if_pos ha) (by rw [if_pos ha', he])

/-- The constraints of the work leases are kept by every move. -/
theorem Move.workLeases {call : Call} (hm : Move s call s') (h : WorkLeaseRow.Constraints s.workLeases) :
    WorkLeaseRow.Constraints s'.workLeases := by
  cases hm with
  | idle => exact h
  | work _ _ valid => exact valid
  | configured hc =>
    obtain ⟨_, _, rfl⟩ := hc.frame
    exact h
  | reserved _ _ _ _ _ _ _ frame =>
    obtain ⟨_, _, rfl⟩ := frame
    exact h
  | marked _ _ _ _ _ frame =>
    subst frame
    exact h
  | again _ _ _ _ _ frame =>
    subst frame
    exact h
  | bound _ _ _ _ _ _ _ frame =>
    subst frame
    exact h
  | wrote _ _ _ frame =>
    obtain ⟨_, _, rfl⟩ := frame
    exact h
  | halted => exact h
  | released h' =>
    obtain ⟨-, -, ⟨_, _, rfl⟩, -, -⟩ := h'
    exact h

theorem workLeases_of_step {e : Option Call} (hs : Step s e s') (h : WorkLeaseRow.Constraints s.workLeases) :
    WorkLeaseRow.Constraints s'.workLeases := by
  cases hs with
  | call call => exact (call.after_move _).workLeases h
  | others same =>
    rw [same.workLeases]
    exact h

theorem Unused.workLeases_constraints (h : Unused s) : WorkLeaseRow.Constraints s.workLeases := by
  rw [h.workLeases]
  exact ⟨.nil, .nil⟩

theorem workLeases_of_run {s₀ : Store} {es : List (Option Call)} (start : Unused s₀) (run : Run Step s₀ es s) :
    WorkLeaseRow.Constraints s.workLeases :=
  run.inv (I := fun s => WorkLeaseRow.Constraints s.workLeases) (C := fun _ => True)
    (fun _ hi hs => workLeases_of_step hs hi) (fun _ _ => trivial) start.workLeases_constraints

/-- A lease that is acquired although one is active: the attempt has nothing unresolved. -/
theorem resolved_of_active {leaseID : String} {ttl now : Int}
    (acquired : acquireWork s leaseID attemptID holderID ttl now = .ok s')
    (active : ∃ w ∈ s.workLeases, w.attemptID = attemptID ∧ w.state = .active) :
    ¬ s.AttemptHasUnresolvedSubmission attemptID := by
  obtain ⟨-, h⟩ := revertIf_bind.mp acquired
  obtain ⟨_, -, h⟩ := orRevert_bind.mp h
  obtain ⟨s₁, h₁, -⟩ := bind_eq_ok.mp h
  rw [expireWork] at h₁
  split at h₁
  · rename_i hn
    obtain ⟨w, hw, ha⟩ := active
    exact absurd ha (by simpa using List.find?_eq_none.mp hn w hw)
  · obtain ⟨-, h₁⟩ := revertIf_bind.mp h₁
    exact (revertIf_bind.mp h₁).1

/-! ## What is resolved -/

/-- Work leases of the same attempts, in the same states. -/
theorem Resolved.of_same (h : Resolved s) (f : WorkLeaseRow → WorkLeaseRow) (w : List WorkLeaseRow)
    (hw : w = s.workLeases.map f) (hf : ∀ r, (f r).attemptID = r.attemptID ∧ (f r).state = r.state) :
    Resolved { s with workLeases := w } := by
  subst hw
  refine fun attemptID => (h attemptID).imp_left fun hands leased => ?_
  obtain ⟨_, hm, ha⟩ := leased
  obtain ⟨r, hr, rfl⟩ := List.mem_map.mp hm
  obtain ⟨r', hr', ha', hstate⟩ := hands ⟨r, hr, (hf r).1.symm.trans ha⟩
  exact ⟨f r', List.mem_map_of_mem hr', (hf r').1.trans ha', (hf r').2.trans hstate⟩

theorem Resolved.heartbeatWork {leaseID : String} {ttl now : Int} (h : Resolved s)
    (beat : LeaseBudgetManager.heartbeatWork s leaseID holderID ttl now = .ok s') : Resolved s' := by
  obtain ⟨-, beat⟩ := revertIf_bind.mp beat
  obtain ⟨_, -, beat⟩ := bind_eq_ok.mp beat
  obtain ⟨-, beat⟩ := revertIf_bind.mp beat
  obtain ⟨-, rfl⟩ := putWorkLeases_eq_ok.mp beat
  refine h.of_same _ _ rfl fun r => ?_
  split <;> exact ⟨rfl, rfl⟩

theorem Resolved.releaseWork {leaseID : String} (h : Resolved s) (attended : Attended s (.releaseWork leaseID holderID))
    (release : LeaseBudgetManager.releaseWork s leaseID holderID = .ok s') : Resolved s' := by
  obtain ⟨_, -, release⟩ := bind_eq_ok.mp release
  obtain ⟨-, rfl⟩ := putWorkLeases_eq_ok.mp release
  intro attemptID
  by_cases hres : s.AttemptHasUnresolvedSubmission attemptID
  · have hands : InHands s attemptID := (h attemptID).resolve_right (not_not_intro hres)
    refine .inl fun leased => ?_
    obtain ⟨_, hm, ha⟩ := leased
    obtain ⟨r, hr, rfl⟩ := Table.mem_update.mp hm
    have ha : r.attemptID = attemptID := by
      rw [← ha]
      split <;> rfl
    obtain ⟨r', hr', ha', hstate⟩ := hands ⟨r, hr, ha⟩
    -- The lease that is released is not one of this attempt.
    have hne : r'.leaseID ≠ leaseID := fun he => attended r' hr' he (ha' ▸ hres)
    exact ⟨r', Table.mem_update.mpr ⟨r', hr', if_neg hne⟩, ha', hstate⟩
  · exact .inr hres

theorem Resolved.acquireWork {leaseID : String} {ttl now : Int} (h : Resolved s)
    (hc : WorkLeaseRow.Constraints s.workLeases)
    (acquired : LeaseBudgetManager.acquireWork s leaseID attemptID holderID ttl now = .ok s') : Resolved s' := by
  obtain ⟨-, acquired⟩ := revertIf_bind.mp acquired
  obtain ⟨_, -, acquired⟩ := orRevert_bind.mp acquired
  obtain ⟨s₁, h₁, acquired⟩ := bind_eq_ok.mp acquired
  obtain ⟨-, rfl⟩ := putWorkLeases_eq_ok.mp acquired
  -- The leases of the other attempts are as they were.
  obtain ⟨w, rfl, hw⟩ : ∃ w, s₁ = { s with workLeases := w } ∧ ∀ r, r.attemptID ≠ attemptID →
      (r ∈ w ↔ r ∈ s.workLeases) := by
    rw [expireWork] at h₁
    split at h₁
    · cases h₁
      exact ⟨s.workLeases, rfl, fun _ _ => .rfl⟩
    · rename_i active hactive
      obtain ⟨-, h₁⟩ := revertIf_bind.mp h₁
      obtain ⟨-, h₁⟩ := revertIf_bind.mp h₁
      obtain ⟨-, hs₁⟩ := putWorkLeases_eq_ok.mp h₁
      have hmem := List.mem_of_find?_eq_some hactive
      have hactive : active.attemptID = attemptID ∧ active.state = .active := by simpa using List.find?_some hactive
      refine ⟨_, hs₁.symm, fun r hr => Table.mem_update.trans ⟨fun hm => ?_, fun hm => ⟨r, hm, if_neg fun he => ?_⟩⟩⟩
      · obtain ⟨r₀, hr₀, he⟩ := hm
        by_cases hid : r₀.leaseID = active.leaseID
        · rw [hc.1.eq hr₀ hmem (congrArg some hid) rfl, if_pos rfl] at he
          rw [← he] at hr
          exact absurd hactive.1 hr
        · rw [if_neg hid] at he
          exact he ▸ hr₀
      · rw [hc.1.eq hm hmem (congrArg some he) rfl] at hr
        exact hr hactive.1
  intro id
  by_cases hid : id = attemptID
  · exact .inl fun _ => ⟨_, List.mem_append_right _ (List.mem_singleton_self _), hid.symm, rfl⟩
  · refine (h id).imp_left fun hands leased => ?_
    obtain ⟨r, hr, ha⟩ := leased
    have hr : r ∈ w := by
      rcases List.mem_append.mp hr with hr | hr
      · exact hr
      · rw [List.mem_singleton.mp hr] at ha
        exact absurd ha.symm hid
    obtain ⟨r', hr', ha', hstate⟩ := hands ⟨r, (hw r (ha ▸ hid)).mp hr, ha⟩
    exact ⟨r', List.mem_append_left _ ((hw r' (ha' ▸ hid)).mpr hr'), ha', hstate⟩

/-- The nonces are rewritten; those that are locked now were so before, or belong to attempts that are in hands. -/
theorem Resolved.of_nonces (h : Resolved s) (work : s'.workLeases = s.workLeases)
    (tables : s'.transactions = s.transactions ∧ s'.intents = s.intents ∧ s'.stages = s.stages)
    (locked : ∀ n ∈ s'.nonceLeases, n.locked = true →
      InHands s n.attemptID ∨ ∃ n' ∈ s.nonceLeases, n'.attemptID = n.attemptID ∧ n'.locked = true) : Resolved s' := by
  intro attemptID
  have hands_eq : InHands s' attemptID = InHands s attemptID := by rw [InHands, work, ← InHands]
  rw [hands_eq]
  refine (h attemptID).elim .inl fun resolved => or_iff_not_imp_left.mpr fun hands => not_or.mpr ⟨?_, ?_⟩
  · rw [tables.1, tables.2.1, tables.2.2]
    exact (not_or.mp resolved).1
  · intro ⟨n, hn, ha, hl⟩
    rcases locked n hn hl with hh | ⟨n', hn', ha', hl'⟩
    · exact hands (ha ▸ hh)
    · exact (not_or.mp resolved).2 ⟨n', hn', ha'.trans ha, hl'⟩

/-- What a call for a lineage makes of its nonce: it is locked only by some, and of the same attempt. -/
theorem Write.nonce {sub : SubreservationRow} {b : BudgetRow} {call : Call} {l : String} {w : LineageWrite}
    (h : Write s sub b call l w) (attended : Attended s call) : (∀ n, (w.nonce n).attemptID = n.attemptID) ∧
      ∀ n ∈ s.nonceLeases, n.lineageID = l → (w.nonce n).locked = true → n.locked = false → InHands s n.attemptID := by
  cases h with
  | pending | included | reopenIncluded | reopenFinalized =>
    exact ⟨fun _ => rfl, fun n hn hl _ hf => attended n hn hl hf⟩
  | finalized | dead => exact ⟨fun _ => rfl, fun _ _ _ hlocked => by cases hlocked⟩

theorem Resolved.of_move {call : Call} (h : Resolved s) (hm : Move s call s') (hwork : call.IsWork → Resolved s')
    (attended : Attended s call) : Resolved s' := by
  cases hm with
  | idle => exact h
  | work _ _ _ of => exact hwork of
  | configured hc =>
    obtain ⟨_, _, rfl⟩ := hc.frame
    exact h
  | reserved _ _ _ _ _ _ _ frame =>
    obtain ⟨_, _, rfl⟩ := frame
    exact h
  | marked _ _ _ _ _ frame | again _ _ _ _ _ frame =>
    subst frame
    exact h
  | bound row of stage _ _ _ _ frame =>
    subst frame
    refine h.of_nonces rfl ⟨rfl, rfl, rfl⟩ fun n hn hl => ?_
    rcases List.mem_append.mp hn with hn | hn
    · exact .inr ⟨n, hn, rfl, hl⟩
    · rw [List.mem_singleton.mp hn]
      exact .inl (attended _ row of stage)
  | @wrote _ l _ _ w _ _ _ write _ frame =>
    obtain ⟨_, _, rfl⟩ := frame
    obtain ⟨same, hands⟩ := write.nonce attended
    refine h.of_nonces rfl ⟨rfl, rfl, rfl⟩ fun n hn hl => ?_
    obtain ⟨n₀, hn₀, rfl⟩ := Table.mem_update.mp hn
    by_cases hid : n₀.lineageID = l
    · rw [if_pos hid] at hl ⊢
      rw [same]
      cases hlocked : n₀.locked with
      | true => exact .inr ⟨n₀, hn₀, rfl, hlocked⟩
      | false => exact .inl (hands n₀ hn₀ hid hl hlocked)
    · rw [if_neg hid] at hl ⊢
      exact .inr ⟨n₀, hn₀, rfl, hl⟩
  | halted => exact h
  | released h' =>
    obtain ⟨-, -, ⟨_, _, rfl⟩, -, -⟩ := h'
    exact h

theorem Resolved.commit {call : Call} (h : Resolved s) (hc : WorkLeaseRow.Constraints s.workLeases)
    (attended : Attended s call) (commit : call.commit s = .ok s') : Resolved s' := by
  refine h.of_move (Call.commit_move commit) (fun of => ?_) attended
  cases call with
  | acquireWork => exact h.acquireWork hc commit
  | heartbeatWork => exact h.heartbeatWork commit
  | releaseWork => exact h.releaseWork attended commit
  | _ => exact of.elim

theorem Resolved.step {e : Option Call} (h : Resolved s) (hc : WorkLeaseRow.Constraints s.workLeases)
    (step : AttendedStep s e s') : Resolved s' := by
  obtain ⟨⟨hs, attended⟩, quiet⟩ := step
  cases hs with
  | call call =>
    rw [Call.after]
    split
    · exact h.commit hc (attended call rfl) ‹_›
    · exact h
  | others same =>
    intro attemptID
    have hands_eq : InHands s' attemptID = InHands s attemptID := by rw [InHands, same.workLeases, ← InHands]
    rw [hands_eq]
    exact or_iff_not_imp_left.mpr fun hands => quiet rfl attemptID hands ((h attemptID).resolve_left hands)

theorem resolved_of_run {s₀ : Store} {es : List (Option Call)} (start : Unused s₀) (run : Run AttendedStep s₀ es s) :
    Resolved s := by
  have h : WorkLeaseRow.Constraints s.workLeases ∧ Resolved s := by
    refine run.inv (I := fun s => WorkLeaseRow.Constraints s.workLeases ∧ Resolved s) (C := fun _ => True)
      (fun _ hi hs => ⟨workLeases_of_step hs.1.1 hi.1, hi.2.step hi.1 hs⟩) (fun _ _ => trivial)
      ⟨start.workLeases_constraints, fun _ => .inl fun leased => ?_⟩
    obtain ⟨w, hw, -⟩ := leased
    rw [start.workLeases] at hw
    exact absurd hw List.not_mem_nil
  exact h.2

/-- In every run at most one lease of an attempt is active. In a run whose steps are attended, an attempt that another
holder had is handed over only if nothing of it is unresolved. -/
theorem handover_of_run {s₀ : Store} {es : List (Option Call)} (start : Unused s₀) (run : Run Step s₀ es s) :
    OneActive s ∧ (Run AttendedStep s₀ es s → ∀ {leaseID attemptID holderID : String} {ttl now : Int} {s' : Store},
      acquireWork s leaseID attemptID holderID ttl now = .ok s' → HandedOver s attemptID holderID) := by
  refine ⟨oneActive_of_constraints (workLeases_of_run start run),
    fun attended {_ attemptID _ _ _ _} acquired other => ?_⟩
  obtain ⟨w, hw, ha, -⟩ := other
  rcases resolved_of_run start attended attemptID with hands | resolved
  · exact resolved_of_active acquired (hands ⟨w, hw, ha⟩)
  · exact resolved

theorem run_attended {calls : List Call} (h : CallsWhen Attended s calls) :
    Run AttendedStep s (calls.map some) (callAll s calls) := by
  induction calls generalizing s with
  | nil => exact .nil s
  | cons call calls ih =>
    exact .cons ⟨⟨.call s call, fun _ hc => Option.mem_some_iff.mp hc ▸ h.1⟩, fun hnone => by cases hnone⟩ (ih h.2)

/-- A holder locks a nonce and finalizes its lineage, and then releases its lease. -/
def releasedResolved : List Call :=
  [.acquireWork "work" "attempt" "first" 10 0] ++ reserveOne ⟨10, 10, 10, 0, 100⟩ ++ startOne ++
    [.finalizeLineage "lineage" 10, .releaseWork "work" "first"]

/-- Another holder gets the attempt. -/
theorem handover_of_run_released : OneActive (callAll oneAttempt releasedResolved) ∧
    ¬ (callAll oneAttempt releasedResolved).AttemptHasUnresolvedSubmission "attempt" := by
  have calls : CallsWhen Attended oneAttempt releasedResolved :=
    ⟨trivial, trivial, trivial, trivial, by decide +kernel, trivial, by decide +kernel, trivial⟩
  have h : _ ∧ _ := handover_of_run oneAttempt_unused (run_callAll oneAttempt releasedResolved)
  have acquired : Call.commit (callAll oneAttempt releasedResolved) (.acquireWork "next-work" "attempt" "second" 10 1) =
      .ok _ := Call.commit_eq (by decide +kernel)
  exact ⟨h.1, h.2 (run_attended calls) acquired (by decide +kernel)⟩

/-- A holder releases its lease although a nonce of the attempt is locked. -/
def releasedLocked : List Call :=
  [.acquireWork "work" "attempt" "first" 10 0] ++ reserveOne ⟨10, 10, 10, 0, 100⟩ ++ startOne ++
    [.releaseWork "work" "first"]

/-- The attempt is handed over with the locked nonce. -/
theorem handed_over_locked : ¬ ∀ {s₀ s : Store} {es : List (Option Call)}, Unused s₀ → Run Step s₀ es s →
    OneActive s ∧ ∀ {leaseID attemptID holderID : String} {ttl now : Int} {s' : Store},
      acquireWork s leaseID attemptID holderID ttl now = .ok s' → HandedOver s attemptID holderID := by
  intro h
  have acquired : Call.commit (callAll oneAttempt releasedLocked) (.acquireWork "next-work" "attempt" "second" 10 1) =
      .ok _ := Call.commit_eq (by decide +kernel)
  have hc := (h oneAttempt_unused (run_callAll oneAttempt releasedLocked)).2 acquired
  revert hc
  decide +kernel

end Xir.Impl.XirLab
