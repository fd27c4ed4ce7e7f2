import Mathlib.Logic.Encodable.Basic
import Mathlib.Logic.Equiv.List
import Xir.Proof.Scheduler

/-!
# What the scheduler dispatches

The state of a scheduler accounts for the calls that led to it (`Accounted`):
the active attempts are those that were claimed and did not complete, planned
attempts were claimed in the order of the plan and before any retry, and each
retry goes back to a planned attempt. So nothing is claimed twice, and what is
not claimed can be (`conserved_of_run`).
-/

namespace Xir.Impl.XirLab.BoundedScheduler

open ScheduleLibraries

/-! ## Histories -/

/-- The attempts that `claim_next` returned. -/
def claimed (es : List SchedulerEvent) : List ScheduledAttempt :=
  es.filterMap fun | (.claimNext, .ok item) => item | _ => none

/-- The retries that `register_retry` returned. -/
def registered (es : List SchedulerEvent) : List ScheduledAttempt :=
  es.filterMap fun | (.registerRetry .., .ok item) => item | _ => none

/-- What `complete_attempt` was called with. -/
def completedIDs (es : List SchedulerEvent) : List String :=
  es.filterMap fun | (.completeAttempt attemptID, .ok _) => some attemptID | _ => none

/-- An attempt goes back to a planned one, by a chain of retries. -/
inductive Lineage (attempts retries : List ScheduledAttempt) : ScheduledAttempt → ScheduledAttempt → Prop
  | planned {a : ScheduledAttempt} : a ∈ attempts → Lineage attempts retries a a
  | retry {r prior a : ScheduledAttempt} :
      r ∈ retries → prior ∈ attempts ++ retries → r.retryOf = some prior.attemptID →
    Lineage attempts retries prior a → Lineage attempts retries r a

/-- The identifiers of planned attempts and retries are different. -/
abbrev Distinct (attempts retries : List ScheduledAttempt) : Prop := Dict.Unique (·.attemptID) (attempts ++ retries)

variable {attempts retries : List ScheduledAttempt} {a r item : ScheduledAttempt} {n : Nat} {x : String}

theorem claimed_append (es es' : List SchedulerEvent) : claimed (es ++ es') = claimed es ++ claimed es' :=
  List.filterMap_append

theorem registered_append (es es' : List SchedulerEvent) : registered (es ++ es') = registered es ++ registered es' :=
  List.filterMap_append

theorem completedIDs_append (es es' : List SchedulerEvent) :
    completedIDs (es ++ es') = completedIDs es ++ completedIDs es' := List.filterMap_append

theorem Lineage.append (h : Lineage attempts retries r a) : Lineage attempts (retries ++ [item]) r a := by
  induction h with
  | planned ha => exact .planned ha
  | retry hr hp he _ ih =>
    refine .retry (List.mem_append_left _ hr) ?_ he ih
    rw [← List.append_assoc]
    exact List.mem_append_left _ hp

/-! ## Roots -/

theorem rootAttemptID_succ (h : rootAttemptID retries n r = some x) : rootAttemptID retries (n + 1) r = some x := by
  induction n generalizing r with
  | zero => cases h
  | succ n ih =>
    rw [rootAttemptID] at h ⊢
    split at h
    · exact h
    · split at h
      · exact h
      · exact ih h

/-- A retry that was added is not on the way to a root before it. -/
theorem rootAttemptID_append (h : rootAttemptID retries n r = some x) (hx : item.attemptID ≠ x)
    (hn : ∀ other ∈ retries, other.attemptID ≠ item.attemptID) : rootAttemptID (retries ++ [item]) n r = some x := by
  induction n generalizing r with
  | zero => cases h
  | succ n ih =>
    rw [rootAttemptID] at h ⊢
    split at h
    · exact h
    · rename_i retryOf _
      split at h
      · rename_i hg
        obtain rfl := Option.some.inj h
        rw [Dict.get_append_of_ne hx, hg]
      · rename_i prior hg
        have hne : item.attemptID ≠ retryOf := fun he =>
          hn prior (Dict.get_mem hg) ((Dict.key_of_get hg).trans he.symm)
        rw [Dict.get_append_of_ne hne, hg]
        exact ih h

theorem Distinct.left (h : Distinct attempts retries) : Dict.Unique (·.attemptID) attempts :=
  h.sublist ((List.sublist_append_left ..).map _)

theorem Distinct.right (h : Distinct attempts retries) : Dict.Unique (·.attemptID) retries :=
  h.sublist ((List.sublist_append_right ..).map _)

theorem Distinct.ne (h : Distinct attempts retries) (ha : a ∈ attempts) (hr : r ∈ retries) :
    r.attemptID ≠ a.attemptID := by
  rw [Distinct, Dict.Unique, List.map_append] at h
  exact fun he => (List.nodup_append.mp h).2.2 _ (List.mem_map_of_mem ha) _ (List.mem_map_of_mem hr) he.symm

/-- A planned attempt is its own root. -/
theorem rootAttemptID_planned (hr : a.retryOf = none) : rootAttemptID retries (n + 1) a = some a.attemptID := by
  rw [rootAttemptID, hr]

/-- `_root_attempt_id` finds the attempt that a chain of retries goes back to. -/
theorem Lineage.root (h : Lineage attempts retries r a) (roots : ∀ a ∈ attempts, a.retryOf = none)
    (distinct : Distinct attempts retries) (hx : rootAttemptID retries n r = some x) : x = a.attemptID := by
  induction h generalizing n with
  | planned ha =>
    cases n with
    | zero => cases hx
    | succ n => exact Option.some.inj (hx.symm.trans (rootAttemptID_planned (roots _ ha)))
  | @retry r prior a hr hp he hl ih =>
    cases n with
    | zero => cases hx
    | succ n =>
      rw [rootAttemptID, he] at hx
      dsimp only at hx
      rcases List.mem_append.mp hp with hp | hp
      · rw [Dict.get_eq_none.mpr fun other ho => distinct.ne hp ho] at hx
        obtain rfl := Option.some.inj hx
        exact ih (rootAttemptID_planned (n := 0) (roots _ hp))
      · rw [distinct.right.get_of_mem hp] at hx
        exact ih hx

/-! ## Accounts -/

section

variable [ScheduleLibraries] {plan : ExecutionPlan} {es : List SchedulerEvent} {s s' : BoundedScheduler}

/-- The identifier of a retry. -/
def retryID (plan : ExecutionPlan) (rootID : String) (index : Int) : String :=
  stableID "attempt" [.text plan.runID, .text rootID, .text "retry", .number index]

theorem retryID_inj (distinct : DistinctIDs) {rootID rootID' : String} {index index' : Int}
    (h : retryID plan rootID index = retryID plan rootID' index') : rootID = rootID' ∧ index = index' := by
  have hc := distinct "attempt" h
  simp only [List.cons.injEq, Component.text.injEq, Component.number.injEq] at hc
  exact ⟨hc.2.1, hc.2.2.2.1⟩

/-- The planned attempts can be told apart, from each other and from retries. -/
structure Planned (plan : ExecutionPlan) : Prop where
  unique : Dict.Unique (·.attemptID) plan.attempts
  roots : ∀ a ∈ plan.attempts, a.retryOf = none
  fresh : ∀ a ∈ plan.attempts, ∀ rootID index, retryID plan rootID index ≠ a.attemptID

theorem Planned.of_expandPlan {profile : ExecutionProfile} {runID : String} (distinct : DistinctIDs)
    (h : expandPlan profile runID = .ok plan) : Planned plan := by
  obtain ⟨-, kind, expanded, -⟩ := expandPlan_eq_ok.mp h
  refine ⟨expanded.nodup distinct, (numberAttempts_copied expanded.attempts).2, fun a ha rootID index he => ?_⟩
  obtain ⟨cs, hids, -⟩ := expanded.coordinates
  obtain ⟨c, -, hc⟩ := List.mem_map.mp (hids ▸ List.mem_map_of_mem ha)
  exact absurd (congrArg List.length (distinct "attempt" (hc.trans he.symm))) (by simp)

/-- A retry goes back to a planned attempt, which names it. -/
structure Rooted (plan : ExecutionPlan) (retries : List ScheduledAttempt) (r root : ScheduledAttempt) (index : Int) :
    Prop where
  mem : root ∈ plan.attempts
  lineage : Lineage plan.attempts retries r root
  found : rootAttemptID retries (retries.length + 1) r = some root.attemptID
  named : r.attemptID = retryID plan root.attemptID index
  numbered : r.retryIndex = some index
  bounds : 1 ≤ index ∧ ∃ maximum : Nat, plan.limits.maxRetriesPerLineage = some maximum ∧ index ≤ maximum

theorem Rooted.append {root : ScheduledAttempt} {index : Int} (h : Rooted plan retries r root index)
    (hx : item.attemptID ≠ root.attemptID) (hn : ∀ other ∈ retries, other.attemptID ≠ item.attemptID) :
    Rooted plan (retries ++ [item]) r root index := by
  refine ⟨h.mem, h.lineage.append, ?_, h.named, h.numbered, h.bounds⟩
  rw [List.length_append]
  exact rootAttemptID_succ (rootAttemptID_append h.found hx hn)

structure Accounted (plan : ExecutionPlan) (es : List SchedulerEvent) (s : BoundedScheduler) : Prop where
  plan_eq : s.plan = plan
  retries : s.retries = registered es
  completed (attemptID : String) : attemptID ∈ s.completed ↔ attemptID ∈ completedIDs es
  index : s.nextIndex ≤ plan.attempts.length
  order : ∃ rs, claimed es = plan.attempts.take s.nextIndex ++ rs ∧ (rs ≠ [] → plan.attempts.length ≤ s.nextIndex) ∧
    ∀ r ∈ rs, r ∈ s.retries
  once : Dict.Unique (·.attemptID) (claimed es)
  active (a : ScheduledAttempt) : a ∈ s.active ↔ a ∈ claimed es ∧ a.attemptID ∉ s.completed
  activeOnce : Dict.Unique (·.attemptID) s.active
  completedOf {attemptID : String} : attemptID ∈ s.completed → ∃ a ∈ claimed es, a.attemptID = attemptID
  distinct : Distinct plan.attempts s.retries
  forest : ∀ r ∈ s.retries, ∃ root index, Rooted plan s.retries r root index

namespace Accounted

variable (h : Accounted plan es s)

include h

theorem claimed_mem (ha : a ∈ claimed es) : a ∈ plan.attempts ++ s.retries := by
  obtain ⟨rs, hrs, -, hmem⟩ := h.order
  rw [hrs] at ha
  exact (List.mem_append.mp ha).elim (fun ha => List.mem_append_left _ (List.mem_of_mem_take ha))
    fun ha => List.mem_append_right _ (hmem a ha)

/-- An attempt whose identifier was claimed was claimed. -/
theorem claimed_of_id (hr : r ∈ plan.attempts ++ s.retries) (ha : a ∈ claimed es)
    (he : a.attemptID = r.attemptID) : r ∈ claimed es := by
  rwa [← h.distinct.eq (h.claimed_mem ha) hr he]

/-- A known attempt that was not claimed is not active, and its identifier is not completed. -/
theorem unclaimed (hr : r ∈ plan.attempts ++ s.retries) (hn : r ∉ claimed es) :
    (∀ a ∈ claimed es, a.attemptID ≠ r.attemptID) ∧ (∀ a ∈ s.active, a.attemptID ≠ r.attemptID) ∧
      r.attemptID ∉ s.completed := by
  have ids : ∀ a ∈ claimed es, a.attemptID ≠ r.attemptID := fun a ha he => hn (h.claimed_of_id hr ha he)
  refine ⟨ids, fun a ha => ids a ((h.active a).mp ha).1, fun hc => ?_⟩
  obtain ⟨a, ha, he⟩ := h.completedOf hc
  exact ids a ha he

/-- The planned attempt whose turn it is was not claimed. -/
theorem next_unclaimed (hi : plan.attempts[s.nextIndex]? = some item) : item ∉ claimed es := by
  obtain ⟨rs, hrs, hexhausted, hmem⟩ := h.order
  obtain ⟨hlt, rfl⟩ := List.getElem?_eq_some_iff.mp hi
  rw [hrs]
  intro hc
  rcases List.mem_append.mp hc with hc | hc
  · obtain ⟨j, hj, he⟩ := List.getElem_of_mem hc
    rw [List.length_take] at hj
    rw [List.getElem_take] at he
    have nodup : plan.attempts.Nodup := h.distinct.left.of_map _
    have := (List.Nodup.getElem_inj_iff nodup).mp he
    omega
  · have := hexhausted (List.ne_nil_of_mem hc)
    omega

/-- A pending retry is registered, and was not claimed. -/
theorem pending_unclaimed (hp : item ∈ s.pendingRetries) : item ∈ s.retries ∧ item ∉ claimed es := by
  obtain ⟨hr, hp⟩ := List.mem_filter.mp hp
  obtain ⟨hc, hn⟩ := of_decide_eq_true hp
  refine ⟨hr, fun hcl => ?_⟩
  exact Dict.get_eq_none.mp (Option.isNone_iff_eq_none.mp hn) item ((h.active item).mpr ⟨hcl, hc⟩) rfl

/-- An event that claims, completes and registers nothing. -/
theorem idle {e : SchedulerEvent} (hc : claimed [e] = []) (hr : registered [e] = []) (hd : completedIDs [e] = []) :
    Accounted plan (es ++ [e]) s := by
  have hc' : claimed (es ++ [e]) = claimed es := by rw [claimed_append, hc, List.append_nil]
  refine ⟨h.plan_eq, ?_, fun attemptID => ?_, h.index, hc' ▸ h.order, hc' ▸ h.once, hc' ▸ h.active, h.activeOnce,
    hc' ▸ h.completedOf, h.distinct, h.forest⟩
  · rw [registered_append, hr, List.append_nil, h.retries]
  · rw [completedIDs_append, hd, List.append_nil, h.completed]

/-- An attempt that was not claimed is. -/
theorem claim {nextIndex : Nat} (hi : item ∈ plan.attempts ++ s.retries) (hn : item ∉ claimed es)
    (index : nextIndex ≤ plan.attempts.length)
    (order : ∃ rs, claimed es ++ [item] = plan.attempts.take nextIndex ++ rs ∧
      (rs ≠ [] → plan.attempts.length ≤ nextIndex) ∧ ∀ r ∈ rs, r ∈ s.retries) :
    Accounted plan (es ++ [(.claimNext, .ok item)]) { s.activate item with nextIndex } := by
  obtain ⟨new, inactive, uncompleted⟩ := h.unclaimed hi hn
  have hc : claimed (es ++ [(.claimNext, .ok item)]) = claimed es ++ [item] := claimed_append ..
  have hp : Dict.put (·.attemptID) item s.active = s.active ++ [item] := Dict.put_of_new inactive
  refine ⟨h.plan_eq, ?_, fun attemptID => ?_, index, hc ▸ order, hc ▸ h.once.append new, fun a => ?_, ?_, fun hd => ?_,
    h.distinct, h.forest⟩
  · rw [registered_append]
    exact h.retries.trans (List.append_nil _).symm
  · rw [completedIDs_append]
    exact (h.completed attemptID).trans
      (by rw [show completedIDs [(.claimNext, .ok item)] = [] from rfl, List.append_nil])
  · show a ∈ Dict.put (·.attemptID) item s.active ↔
      a ∈ claimed (es ++ [(.claimNext, .ok item)]) ∧ a.attemptID ∉ s.completed
    rw [hp, hc, List.mem_append, List.mem_append, h.active, List.mem_singleton]
    constructor
    · rintro (ha | rfl)
      · exact ⟨.inl ha.1, ha.2⟩
      · exact ⟨.inr rfl, uncompleted⟩
    · rintro ⟨ha | rfl, hd⟩
      · exact .inl ⟨ha, hd⟩
      · exact .inr rfl
  · show Dict.Unique _ (Dict.put (·.attemptID) item s.active)
    rw [hp]
    exact h.activeOnce.append inactive
  · obtain ⟨a, ha, he⟩ := h.completedOf hd
    exact ⟨a, hc ▸ List.mem_append_left _ ha, he⟩

theorem complete (hi : item ∈ s.active) : Accounted plan (es ++ [(.completeAttempt item.attemptID, .ok none)])
    { s with
      active := Dict.del (·.attemptID) item.attemptID s.active
      completed := insert item.attemptID s.completed } := by
  have hc : claimed (es ++ [(.completeAttempt item.attemptID, .ok none)]) = claimed es :=
    (claimed_append ..).trans (List.append_nil _)
  refine ⟨h.plan_eq, ?_, fun attemptID => ?_, h.index, hc ▸ h.order, hc ▸ h.once, fun a => ?_, h.activeOnce.del,
    fun hd => ?_, h.distinct, h.forest⟩
  · rw [registered_append]
    exact h.retries.trans (List.append_nil _).symm
  · rw [completedIDs_append, Finset.mem_insert, h.completed, List.mem_append]
    exact or_comm.trans (or_congr_right List.mem_singleton.symm)
  · rw [Dict.mem_del, h.active, hc, Finset.mem_insert, not_or]
    tauto
  · rw [hc]
    rcases Finset.mem_insert.mp hd with rfl | hd
    · exact ⟨item, ((h.active item).mp hi).1, rfl⟩
    · exact h.completedOf hd

/-- The predecessor of a retry is known, and `_root_attempt_id` finds the planned attempt that it goes back to. -/
theorem prior_root {priorID : String} {index : Int} {prior root : ScheduledAttempt} (planned : Planned plan)
    (hr : Registered s priorID index item prior root) : prior ∈ plan.attempts ++ s.retries ∧ root ∈ plan.attempts ∧
      Lineage plan.attempts s.retries prior root ∧
      rootAttemptID s.retries (s.retries.length + 1) prior = some root.attemptID := by
  obtain ⟨rootID, found, hroot⟩ := hr.rooted
  obtain rfl := h.plan_eq
  have hm : root ∈ s.plan.attempts := List.mem_reverse.mp (Dict.get_mem hroot)
  obtain rfl : root.attemptID = rootID := Dict.key_of_get hroot
  have cases_ : prior ∈ s.plan.attempts ∨ prior ∈ s.retries := by
    rcases Option.or_eq_some_iff.mp hr.found with hp | ⟨-, hp⟩
    · exact .inl (List.mem_reverse.mp (Dict.get_mem hp))
    · exact .inr (Dict.get_mem hp)
  rcases cases_ with hp | hp
  · have he : prior.attemptID = root.attemptID :=
      Option.some.inj ((rootAttemptID_planned (planned.roots _ hp)).symm.trans found)
    obtain rfl : prior = root := h.distinct.left.eq hp hm he
    exact ⟨List.mem_append_left _ hp, hp, .planned hp, found⟩
  · obtain ⟨root', index', hr'⟩ := h.forest prior hp
    obtain rfl : root' = root := h.distinct.left.eq hr'.mem hm (Option.some.inj (hr'.found.symm.trans found))
    exact ⟨List.mem_append_right _ hp, hm, hr'.lineage, found⟩

theorem register {priorID : String} {index : Int} {prior root : ScheduledAttempt} (distinct : DistinctIDs)
    (planned : Planned plan) (hr : Registered s priorID index item prior root) :
    Accounted plan (es ++ [(.registerRetry priorID index, .ok item)])
      { s with retries := Dict.put (·.attemptID) item s.retries } := by
  obtain ⟨hp, hm, lineage, found⟩ := h.prior_root planned hr
  obtain rfl := h.plan_eq
  obtain ⟨size, built⟩ := hr.built
  have named : item.attemptID = retryID s.plan root.attemptID index := built ▸ rfl
  have retryOf : item.retryOf = some prior.attemptID := built ▸ rfl
  have numbered : item.retryIndex = some index := built ▸ rfl
  have unplanned : ∀ a ∈ s.plan.attempts, item.attemptID ≠ a.attemptID := fun a ha =>
    named ▸ planned.fresh a ha root.attemptID index
  have fresh : ∀ r ∈ s.retries, r.attemptID ≠ item.attemptID := fun r hm he => by
    obtain ⟨root', index', hr'⟩ := h.forest r hm
    obtain ⟨hroot, rfl⟩ := retryID_inj distinct (hr'.named.symm.trans (he.trans named))
    exact hr.unused r hm (hr'.found.trans (congrArg some hroot)) hr'.numbered
  have put : Dict.put (·.attemptID) item s.retries = s.retries ++ [item] := Dict.put_of_new fresh
  have hdistinct : Distinct s.plan.attempts (s.retries ++ [item]) := by
    rw [Distinct, ← List.append_assoc]
    exact h.distinct.append fun a ha => (List.mem_append.mp ha).elim (fun ha => (unplanned a ha).symm) (fresh a)
  have hfound : rootAttemptID (s.retries ++ [item]) ((s.retries ++ [item]).length + 1) item = some root.attemptID := by
    rw [List.length_append, rootAttemptID, retryOf]
    dsimp only
    rcases List.mem_append.mp hp with hp | hp
    · rw [Dict.get_eq_none.mpr fun r hr => hdistinct.ne hp hr]
      exact (rootAttemptID_planned (planned.roots _ hp)).symm.trans found
    · rw [hdistinct.right.get_of_mem (List.mem_append_left _ hp)]
      exact rootAttemptID_append found (unplanned root hm) fresh
  have hc : claimed (es ++ [(.registerRetry priorID index, .ok item)]) = claimed es :=
    (claimed_append ..).trans (List.append_nil _)
  rw [put]
  refine ⟨rfl, ?_, fun attemptID => ?_, h.index, ?_, hc ▸ h.once, hc ▸ h.active, h.activeOnce,
    hc ▸ h.completedOf, hdistinct, fun r hmem => ?_⟩
  · rw [registered_append, ← h.retries]
    rfl
  · rw [completedIDs_append]
    exact (h.completed attemptID).trans
      (by rw [show completedIDs [(.registerRetry priorID index, .ok item)] = [] from rfl,
      List.append_nil])
  · obtain ⟨rs, hrs, hexhausted, hsub⟩ := h.order
    exact ⟨rs, hc ▸ hrs, hexhausted, fun r hr => List.mem_append_left _ (hsub r hr)⟩
  · rcases List.mem_append.mp hmem with hmem | hmem
    · obtain ⟨root', index', hr'⟩ := h.forest r hmem
      exact ⟨root', index', hr'.append (unplanned root' hr'.mem) fresh⟩
    · obtain rfl := List.mem_singleton.mp hmem
      refine ⟨root, index, hm, .retry (List.mem_append_right _ hmem) ?_ retryOf lineage.append, hfound, named, numbered,
        hr.index⟩
      rw [← List.append_assoc]
      exact List.mem_append_left _ hp

/-- What a call does to the accounts. -/
theorem of_step {e : SchedulerEvent} (distinct : DistinctIDs) (planned : Planned plan) (hs : SchedulerStep s e s') :
    Accounted plan (es ++ [e]) s' := by
  cases hs with
  | @raised call => cases call <;> exact h.idle rfl rfl rfl
  | returned hd =>
    cases returned_of_does hd with
    | none => exact h.idle rfl rfl rfl
    | completed hi => exact h.complete hi
    | registered hr => exact h.register distinct planned hr
    | @claimed item _ _ hc =>
      obtain ⟨rs, hrs, hexhausted, hsub⟩ := h.order
      cases hc with
      | planned hi =>
        rw [h.plan_eq] at hi
        obtain ⟨hlt, hget⟩ := List.getElem?_eq_some_iff.mp hi
        have hnil : rs = [] := by
          by_contra hne
          have := hexhausted hne
          omega
        refine h.claim (List.mem_append_left _ (List.mem_of_getElem? hi)) (h.next_unclaimed hi) hlt
          ⟨[], ?_, by simp, nofun⟩
        rw [hrs, hnil, List.append_nil, List.append_nil, List.take_add_one, hi]
        rfl
      | retry hexhausted' hnext =>
        rw [h.plan_eq] at hexhausted'
        obtain ⟨hr, hn⟩ := h.pending_unclaimed (nextRetry_mem hnext).1
        have sub : ∀ r ∈ rs ++ [item], r ∈ s.retries := fun r hr' =>
          (List.mem_append.mp hr').elim (hsub r) fun hr' => List.mem_singleton.mp hr' ▸ hr
        exact h.claim (List.mem_append_right _ hr) hn h.index
          ⟨rs ++ [item], by rw [hrs, List.append_assoc], fun _ => hexhausted', sub⟩

end Accounted

theorem Accounted.of_run {s₀ : BoundedScheduler} (distinct : DistinctIDs) (planned : Planned plan)
    (new : init plan = .ok s₀) (run : Run SchedulerStep s₀ es s) : Accounted plan es s := by
  obtain ⟨rfl, -⟩ := init_eq_ok new
  refine run.snoc_induction (P := fun es s => Accounted plan es s) ?_ fun _ h hs => h.of_step distinct planned hs
  refine ⟨rfl, rfl, fun attemptID => by simp [completedIDs], Nat.zero_le _, ⟨[], rfl, by simp, nofun⟩,
    .nil, fun a => ?_, .nil, fun h => absurd h (Finset.notMem_empty _), ?_, nofun⟩
  · exact ⟨fun h => absurd h List.not_mem_nil, fun h => absurd h.1 List.not_mem_nil⟩
  · rw [Distinct, List.append_nil]
    exact planned.unique

/-! ## Conservation -/

/-- What a scheduler has dispatched, and what it still can. -/
structure Conserved (plan : ExecutionPlan) (es : List SchedulerEvent) (s : BoundedScheduler) : Prop where
  order : ∃ k rs, claimed es = plan.attempts.take k ++ rs ∧ (rs ≠ [] → plan.attempts.length ≤ k) ∧
    ∀ r ∈ rs, r ∈ registered es
  once : Dict.Unique (·.attemptID) (claimed es)
  rooted : ∀ r ∈ registered es, ∃ root, Lineage plan.attempts (registered es) r root
  indexes : (registered es).Pairwise fun r r' => ∀ root, Lineage plan.attempts (registered es) r root →
    Lineage plan.attempts (registered es) r' root → r.retryIndex ≠ r'.retryIndex
  bounds : ∀ r ∈ registered es, ∃ (index : Int) (maximum : Nat), r.retryIndex = some index ∧
    plan.limits.maxRetriesPerLineage = some maximum ∧ 1 ≤ index ∧ index ≤ maximum
  complete : s.Complete ↔ ∀ a ∈ plan.attempts ++ registered es, a ∈ claimed es ∧ a.attemptID ∈ completedIDs es
  claims : s.active = [] → (∃ a ∈ plan.attempts ++ registered es, a ∉ claimed es) →
    ∃ item s', s.claimNext = .ok (some item, s')

namespace Accounted

variable (h : Accounted plan es s)

include h

theorem indexes (roots : ∀ a ∈ plan.attempts, a.retryOf = none) : s.retries.Pairwise fun r r' => ∀ root,
    Lineage plan.attempts s.retries r root → Lineage plan.attempts s.retries r' root →
      r.retryIndex ≠ r'.retryIndex := by
  have hids : s.retries.Pairwise fun r r' => r.attemptID ≠ r'.attemptID := List.pairwise_map.mp h.distinct.right
  refine hids.imp_of_mem fun {r r'} hr hr' hne root hl hl' he => hne ?_
  obtain ⟨root₁, index, h₁⟩ := h.forest r hr
  obtain ⟨root₂, index', h₂⟩ := h.forest r' hr'
  have hi : index = index' := Option.some.inj (h₁.numbered.symm.trans (he.trans h₂.numbered))
  rw [h₁.named, h₂.named, hl.root roots h.distinct h₁.found, hl'.root roots h.distinct h₂.found, hi]

/-- Everything planned is claimed once the index is at the end. -/
theorem all_claimed (hn : plan.attempts.length ≤ s.nextIndex) : ∀ a ∈ plan.attempts, a ∈ claimed es := fun a ha => by
  obtain ⟨rs, hrs, -⟩ := h.order
  rw [hrs, List.take_of_length_le hn]
  exact List.mem_append_left _ ha

theorem complete_iff : s.Complete ↔ ∀ a ∈ plan.attempts ++ s.retries, a ∈ claimed es ∧ a.attemptID ∈ s.completed := by
  have hplan := h.plan_eq
  constructor
  · rintro ⟨hn, hactive, hretries⟩ a ha
    have hc : a ∈ claimed es := by
      rcases List.mem_append.mp ha with ha' | ha'
      · exact h.all_claimed (by rw [hn, hplan]) a ha'
      · obtain ⟨b, hb, he⟩ := h.completedOf (hretries a ha')
        exact h.claimed_of_id ha hb he
    refine ⟨hc, by_contra fun hd => ?_⟩
    have := (h.active a).mpr ⟨hc, hd⟩
    rw [hactive] at this
    exact List.not_mem_nil this
  · intro hall
    refine ⟨?_, List.eq_nil_iff_forall_not_mem.mpr fun a ha => ?_, fun r hr => (hall r (List.mem_append_right _ hr)).2⟩
    · rw [hplan]
      by_contra hne
      have hlt : s.nextIndex < plan.attempts.length := Nat.lt_of_le_of_ne h.index hne
      exact h.next_unclaimed (List.getElem?_eq_getElem hlt)
        (hall _ (List.mem_append_left _ (List.getElem_mem hlt))).1
    · obtain ⟨hc, hd⟩ := (h.active a).mp ha
      exact hd (hall a (h.claimed_mem hc)).2

/-- If nothing is active and not everything was claimed, something is claimed next. -/
theorem claims {maximum : ℕ+} (hm : plan.limits.maxInFlightAttempts = some maximum) (hactive : s.active = [])
    (ha : a ∈ plan.attempts ++ s.retries) (hn : a ∉ claimed es) : ∃ item s', s.claimNext = .ok (some item, s') := by
  have hplan := h.plan_eq
  have room : ¬ (maximum : Nat) ≤ s.active.length := by
    rw [hactive]
    exact Nat.not_le_of_lt maximum.pos
  have start : castInt s.plan.limits.maxInFlightAttempts = .ok maximum := orRevert_eq_ok.mpr (hplan ▸ hm)
  rw [claimNext, start, ok_bind, if_neg room]
  cases hi : s.plan.attempts[s.nextIndex]? with
  | some item =>
    dsimp only
    rw [if_neg (by simp [hactive]), if_neg (by simp [hactive])]
    exact ⟨item, _, rfl⟩
  | none =>
    have hr : a ∈ s.retries := (List.mem_append.mp ha).resolve_left fun hp =>
      hn (h.all_claimed (hplan ▸ List.getElem?_eq_none_iff.mp hi) a hp)
    obtain ⟨-, inactive, uncompleted⟩ := h.unclaimed ha hn
    have pending : a ∈ s.pendingRetries := List.mem_filter.mpr
      ⟨hr, decide_eq_true ⟨uncompleted, Option.isNone_iff_eq_none.mpr (Dict.get_eq_none.mpr inactive)⟩⟩
    cases hnext : s.nextRetry with
    | none => exact absurd (List.argmin_eq_none.mp hnext ▸ pending) List.not_mem_nil
    | some item => exact ⟨item, _, rfl⟩

end Accounted

/-- Nothing that is planned or registered is lost or dispatched twice. -/
theorem conserved_of_run {profile : ExecutionProfile} {runID : String} {s₀ : BoundedScheduler} (distinct : DistinctIDs)
    (expanded : expandPlan profile runID = .ok plan) (new : init plan = .ok s₀) (run : Run SchedulerStep s₀ es s) :
    Conserved plan es s := by
  have planned := Planned.of_expandPlan distinct expanded
  have h := Accounted.of_run distinct planned new run
  obtain ⟨-, size, maximum, -, hm⟩ := init_eq_ok new
  obtain ⟨rs, hrs, hexhausted, hsub⟩ := h.order
  have hreg := h.retries
  refine ⟨⟨s.nextIndex, rs, hrs, hexhausted, hreg ▸ hsub⟩, h.once, fun r hr => ?_, hreg ▸ h.indexes planned.roots,
    fun r hr => ?_, ?_, fun hactive ⟨a, ha, hn⟩ => h.claims hm hactive (hreg ▸ ha) hn⟩
  · obtain ⟨root, index, hrooted⟩ := h.forest r (hreg ▸ hr)
    exact ⟨root, hreg ▸ hrooted.lineage⟩
  · obtain ⟨root, index, hrooted⟩ := h.forest r (hreg ▸ hr)
    obtain ⟨hpos, maximum', hm', hle⟩ := hrooted.bounds
    exact ⟨index, maximum', hrooted.numbered, hm', hpos, hle⟩
  · rw [h.complete_iff, ← hreg]
    exact forall₂_congr fun a _ => and_congr_right fun _ => h.completed _

end

/-! ## One pair -/

/-- The characters of a component, and what marks its end. -/
def spelling : Component → List Char × Char
  | .text value => (value.toList, '.')
  | .number (.ofNat n) => (List.replicate n '1', '+')
  | .number (.negSucc n) => (List.replicate n '1', '-')

theorem mark_spelling (c : Component) : (spelling c).2 ≠ '#' := by
  rcases c with value | n | n <;> simp [spelling]

theorem spelling_injective : Function.Injective spelling := by
  intro c c' h
  rcases c with value | n | n <;> rcases c' with value' | n' | n' <;> simp [spelling, String.toList_inj] at h <;> rw [h]

/-- A sign stands before each character, and none before the mark. -/
def spelled (s : List Char × Char) : List Char := s.1.flatMap (fun c => ['#', c]) ++ [s.2]

theorem spelled_append_inj {cs cs' : List Char} {m m' : Char} {x y : List Char} (hm : m ≠ '#') (hm' : m' ≠ '#')
    (h : spelled (cs, m) ++ x = spelled (cs', m') ++ y) : (cs, m) = (cs', m') ∧ x = y := by
  induction cs generalizing cs' with
  | nil =>
    cases cs' with
    | nil => simpa [spelled] using h
    | cons c' cs' => exact absurd (List.cons.inj h).1 hm
  | cons c cs ih =>
    cases cs' with
    | nil => exact absurd (List.cons.inj h).1.symm hm'
    | cons c' cs' =>
      obtain ⟨rfl, h⟩ := List.cons.inj (List.cons.inj h).2
      obtain ⟨he, hxy⟩ := ih h
      obtain ⟨rfl, rfl⟩ := Prod.mk.inj he
      exact ⟨rfl, hxy⟩

theorem flatMap_spelled_injective :
    Function.Injective fun cs : List Component => cs.flatMap fun c => spelled (spelling c) := by
  intro cs
  induction cs with
  | nil =>
    intro cs' h
    cases cs' with
    | nil => rfl
    | cons c' cs' => simp [spelled] at h
  | cons c cs ih =>
    intro cs' h
    cases cs' with
    | nil => simp [spelled] at h
    | cons c' cs' =>
      obtain ⟨hc, hcs⟩ := spelled_append_inj (mark_spelling c) (mark_spelling c') h
      rw [spelling_injective hc, ih hcs]

/-- Libraries with an identifier for each list of components, in which they are spelled. -/
@[reducible] def spelledIDs : ScheduleLibraries where
  stableID kind components := kind ++ String.ofList (components.flatMap fun c => spelled (spelling c))
  seededKey _ _ _ := "00"
  planDigest _ _ _ _ := "00"

theorem spelledIDs_distinct : @DistinctIDs spelledIDs := fun kind _ _ h =>
  flatMap_spelled_injective (String.ofList_injective (String.append_right_inj kind |>.mp h))

/-- Both arms of a pair are completed, and so is a retry of the first one. -/
theorem conserved_of_run_retry :
    ∃ es s, @claimed es = [@pairAttempt spelledIDs .baseline 0, @pairAttempt spelledIDs .xir 1,
    @pairRetry spelledIDs] ∧ s.Complete ∧ @Conserved (@pairPlan spelledIDs) es s := by
  let _ := spelledIDs
  let first := pairAttempt .baseline 0
  let second := pairAttempt .xir 1
  have new : init pairPlan = .ok (pairState 0 [] [] ∅) := rfl
  have claimed : SchedulerStep (pairState 0 [] [] ∅) (.claimNext, .ok first) (pairState 1 [first] [] ∅) := .returned rfl
  have completed : SchedulerStep (pairState 1 [first] [] ∅) (.completeAttempt first.attemptID, .ok none)
      (pairState 1 [] [] {first.attemptID}) := .returned rfl
  have registered :
      SchedulerStep (pairState 1 [] [] {first.attemptID}) (.registerRetry first.attemptID 1, .ok pairRetry)
      (pairState 1 [] [pairRetry] {first.attemptID}) := .returned (by with_unfolding_all rfl)
  have claimed' : SchedulerStep (pairState 1 [] [pairRetry] {first.attemptID}) (.claimNext, .ok second)
      (pairState 2 [second] [pairRetry] {first.attemptID}) := .returned rfl
  have completed' : SchedulerStep (pairState 2 [second] [pairRetry] {first.attemptID})
      (.completeAttempt second.attemptID, .ok none)
      (pairState 2 [] [pairRetry] {second.attemptID, first.attemptID}) := .returned rfl
  have pending : (pairState 2 [] [pairRetry] {second.attemptID, first.attemptID}).pendingRetries = [pairRetry] := by
    refine List.filter_eq_self.mpr fun r hr => ?_
    obtain rfl := List.mem_singleton.mp hr
    decide +kernel
  have next : (pairState 2 [] [pairRetry] {second.attemptID, first.attemptID}).nextRetry = some pairRetry := by
    rw [nextRetry, pending]
    rfl
  have retried :
      SchedulerStep (pairState 2 [] [pairRetry] {second.attemptID, first.attemptID}) (.claimNext, .ok pairRetry)
      (pairState 2 [pairRetry] [pairRetry] {second.attemptID, first.attemptID}) :=
    .returned (claimNext_retry rfl Nat.two_pos le_rfl next)
  have ended : SchedulerStep (pairState 2 [pairRetry] [pairRetry] {second.attemptID, first.attemptID})
      (.completeAttempt pairRetry.attemptID, .ok none)
      (pairState 2 [] [pairRetry] {pairRetry.attemptID, second.attemptID, first.attemptID}) :=
    .returned (bind_eq_ok.mpr ⟨_, completeAttempt_single rfl, rfl⟩)
  have run : Run SchedulerStep (pairState 0 [] [] ∅) _
      (pairState 2 [] [pairRetry] {pairRetry.attemptID, second.attemptID, first.attemptID}) :=
    .cons claimed
      (.cons completed (.cons registered (.cons claimed' (.cons completed' (.cons retried (.single ended))))))
  have h := conserved_of_run spelledIDs_distinct (expandPlan_pair (by decide)) new run
  refine ⟨_, _, rfl, ⟨rfl, rfl, fun r hr => ?_⟩, h⟩
  obtain rfl := List.mem_singleton.mp hr
  exact Finset.mem_insert_self _ _

end Xir.Impl.XirLab.BoundedScheduler
