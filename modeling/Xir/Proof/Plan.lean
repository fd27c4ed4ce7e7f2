import Mathlib.Data.List.Perm.Basic
import Xir.Impl.XirLab.Schedule

/-!
# Expanded plans

What `expand_plan` checks and builds (`expandPlan_eq_ok`). The attempts of a
plan have different identifiers, if different components do: a condition that a
profile lists twice has too many attempts (`nodup_pairCoordinates`), so no
two attempts have the same coordinates.
-/

namespace Xir.Impl.XirLab

open ScheduleLibraries

variable [ScheduleLibraries] {profile : ExecutionProfile} {runID : String} {plan : ExecutionPlan}
  {kind : ScheduleAttemptKind}

/-- The attempts of a plan, counted. -/
structure Expanded (profile : ExecutionProfile) (runID : String) (kind : ScheduleAttemptKind) (plan : ExecutionPlan) :
    Prop where
  designated : scheduledKind profile.counts.designatedAttemptKind = .ok kind
  attempts : numberAttempts runID profile.counts.designatedAttemptKind profile.liveLimits.maxBatchAttempts
    (rawAttempts profile runID kind) (fun _ => 0) 0 = .ok plan.attempts
  total : plan.attempts.length = profile.counts.plannedTotalNonRetryAttempts
  slots : (plan.attempts.filterMap (·.pairID)).dedup.length = profile.counts.plannedPairSlots
  balanced : ((profile.conditions.flatMap fun condition => [(condition, Arm.baseline), (condition, Arm.xir)]).map
    (perCell plan.attempts kind)).toFinset = {profile.counts.pairSlotsPerCondition}

theorem expandPlan_eq_ok : expandPlan profile runID = .ok plan ↔ runID ≠ "" ∧ ∃ kind, Expanded profile runID kind plan ∧
    plan = { plan with
      planID := stableID "run" [.text runID, .text profile.profileID, .text profile.fixedSeed]
      runID, profileID := profile.profileID, fixedSeed := profile.fixedSeed, profileKind := profile.profileKind
      executable := profile.executable, limits := profile.liveLimits
      planSHA256 :=
  planDigest (stableID "run" [.text runID, .text profile.profileID, .text profile.fixedSeed]) runID profile
        plan.attempts } := by
  constructor
  · intro h
    obtain ⟨hr, h⟩ := revertIf_bind.mp h
    obtain ⟨kind, hk, h⟩ := bind_eq_ok.mp h
    obtain ⟨frozen, hf, h⟩ := bind_eq_ok.mp h
    obtain ⟨ht, h⟩ := revertIf_bind.mp h
    obtain ⟨hs, h⟩ := revertIf_bind.mp h
    obtain ⟨hb, h⟩ := revertIf_bind.mp h
    obtain rfl := pure_eq_ok.mp h
    exact ⟨hr, kind, ⟨hk, hf, not_not.mp ht, not_not.mp hs, not_not.mp hb⟩, rfl⟩
  · rintro ⟨hr, kind, h, he⟩
    refine revertIf_bind.mpr ⟨hr, bind_eq_ok.mpr ⟨kind, h.designated, bind_eq_ok.mpr ⟨_, h.attempts, ?_⟩⟩⟩
    refine revertIf_bind.mpr ⟨not_not.mpr h.total, revertIf_bind.mpr ⟨not_not.mpr h.slots, ?_⟩⟩
    exact revertIf_bind.mpr ⟨not_not.mpr h.balanced, pure_eq_ok.mpr he.symm⟩

omit [ScheduleLibraries] in
theorem scheduledKind_eq_ok {text : String} (h : scheduledKind text = .ok kind) : text ≠ "warmup" ∧ kind ≠ .warmup := by
  unfold scheduledKind at h
  split at h
  · cases h
    decide
  · cases h
    decide
  · cases h

/-! ## Numbering -/

/-- What an identifier of a planned attempt is made of, with the run. -/
structure Coordinates where
  condition : String
  arm : Arm
  kind : String
  number : Nat

def Coordinates.attemptID (runID : String) (c : Coordinates) : String :=
  stableID "attempt" [.text runID, .text c.condition, .text c.arm.name, .text c.kind, .number c.number]

theorem Coordinates.attemptID_injective (distinct : DistinctIDs) :
    Function.Injective (Coordinates.attemptID runID) := by
  intro ⟨condition, arm, kind, number⟩ ⟨condition', arm', kind', number'⟩ h
  have hc := distinct "attempt" h
  simp only [List.cons.injEq, Component.text.injEq, Component.number.injEq] at hc
  obtain ⟨-, rfl, ha, rfl, hn, -⟩ := hc
  obtain rfl : arm = arm' := by
    cases arm <;> cases arm' <;> first | rfl | exact absurd ha (by decide)
  obtain rfl : number = number' := by omega
  rfl

/-- Where a designated attempt belongs. -/
def RawAttempt.place (item : RawAttempt) : Option (String × Arm × Nat) :=
  if item.kind = .warmup then none else item.slot.map fun slot => (item.condition, item.arm, slot)

/-- An attempt is numbered as a raw one. -/
structure Numbers (runID : String) (c : Coordinates) (item : RawAttempt) (attempt : ScheduledAttempt) : Prop where
  attemptID : attempt.attemptID = c.attemptID runID
  cell : (c.condition, c.arm) = (item.condition, item.arm)
  copied : attempt.condition = item.condition ∧ attempt.arm = item.arm ∧ attempt.attemptKind = item.kind
  retryOf : attempt.retryOf = none

variable {designatedKind : String} {size : Option ℕ+} {item : RawAttempt} {raw : List RawAttempt}
  {cells : String × Arm → Nat}
  {i : Nat} {attempts : List ScheduledAttempt}

theorem numberAttempts_cons (h : numberAttempts runID designatedKind size (item :: raw) cells i = .ok attempts) :
    ∃ attempt rest c cells', attempts = attempt :: rest ∧ Numbers runID c item attempt ∧
      numberAttempts runID designatedKind size raw cells' (i + 1) = .ok rest ∧
      ((c.kind = "warmup" ∧ item.place = none ∧ c.number = cells (item.condition, item.arm) ∧
          cells' = Function.update cells (item.condition, item.arm) (cells (item.condition, item.arm) + 1)) ∨
        (c.kind = designatedKind ∧ item.place = some (c.condition, c.arm, c.number) ∧ cells = cells')) := by
  rw [numberAttempts] at h
  split at h
  · rename_i hk
    obtain ⟨rest, hr, h⟩ := bind_eq_ok.mp h
    obtain rfl := pure_eq_ok.mp h
    exact ⟨_, rest, ⟨item.condition, item.arm, "warmup", _⟩, _, rfl, ⟨rfl, rfl, ⟨rfl, rfl, rfl⟩, rfl⟩, hr,
      .inl ⟨rfl, if_pos hk, rfl, rfl⟩⟩
  · rename_i hk
    obtain ⟨slot, hs, h⟩ := orRevert_bind.mp h
    obtain ⟨rest, hr, h⟩ := bind_eq_ok.mp h
    obtain rfl := pure_eq_ok.mp h
    refine ⟨_, rest, ⟨item.condition, item.arm, designatedKind, slot⟩, _, rfl, ⟨rfl, rfl, ⟨rfl, rfl, rfl⟩, rfl⟩, hr,
      .inr ⟨rfl, ?_, rfl⟩⟩
    rw [RawAttempt.place, if_neg hk, hs]
    rfl

/-- Coordinates of an attempt that comes after the given numbers of warmups. -/
def After (designatedKind : String) (raw : List RawAttempt) (cells : String × Arm → Nat) (c : Coordinates) : Prop :=
  (c.kind = "warmup" ∧ cells (c.condition, c.arm) ≤ c.number) ∨
    (c.kind = designatedKind ∧ (c.condition, c.arm, c.number) ∈ raw.filterMap RawAttempt.place)

/-- The attempts of different places have different coordinates. -/
theorem numberAttempts_coordinates (h : numberAttempts runID designatedKind size raw cells i = .ok attempts)
    (hd : designatedKind ≠ "warmup") (places : (raw.filterMap RawAttempt.place).Nodup) :
    ∃ cs : List Coordinates, attempts.map (·.attemptID) = cs.map (Coordinates.attemptID runID) ∧ cs.Nodup ∧
      ∀ c ∈ cs, After designatedKind raw cells c := by
  induction raw generalizing cells i attempts with
  | nil =>
    cases h
    exact ⟨[], rfl, .nil, nofun⟩
  | cons item raw ih =>
    obtain ⟨attempt, rest, c, cells', rfl, numbers, hr, ⟨hk, hp, hn, rfl⟩ | ⟨hk, hp, rfl⟩⟩ := numberAttempts_cons h
    · rw [List.filterMap_cons_none hp] at places
      obtain ⟨cs, hids, hnd, after⟩ := ih hr places
      have later : ∀ c' ∈ cs, After designatedKind (item :: raw) cells c' ∧ c' ≠ c := fun c' hc' => by
        rcases after c' hc' with ⟨hk', hle⟩ | ⟨hk', hm⟩
        · rw [Function.update_apply] at hle
          split at hle
          · rename_i hcell
            refine ⟨.inl ⟨hk', by rw [hcell]; omega⟩, ?_⟩
            rintro rfl
            omega
          · rename_i hcell
            exact ⟨.inl ⟨hk', hle⟩, fun he => hcell (he ▸ numbers.cell)⟩
        · exact ⟨.inr ⟨hk', by rwa [List.filterMap_cons_none hp]⟩, fun he => hd (hk'.symm.trans (he ▸ hk))⟩
      refine ⟨c :: cs, by rw [List.map_cons, List.map_cons, numbers.attemptID, hids],
        List.nodup_cons.mpr ⟨fun hc => (later c hc).2 rfl, hnd⟩, fun c' hc' => ?_⟩
      rcases List.mem_cons.mp hc' with rfl | hc'
      · exact .inl ⟨hk, by rw [numbers.cell]; omega⟩
      · exact (later c' hc').1
    · rw [List.filterMap_cons_some hp] at places
      obtain ⟨hnew, places⟩ := List.nodup_cons.mp places
      obtain ⟨cs, hids, hnd, after⟩ := ih hr places
      have later : ∀ c' ∈ cs, After designatedKind (item :: raw) cells c' ∧ c' ≠ c := fun c' hc' => by
        rcases after c' hc' with ⟨hk', hle⟩ | ⟨hk', hm⟩
        · exact ⟨.inl ⟨hk', hle⟩, fun he => hd (hk.symm.trans (he ▸ hk'))⟩
        · refine ⟨.inr ⟨hk', by rw [List.filterMap_cons_some hp]; exact List.mem_cons_of_mem _ hm⟩, ?_⟩
          rintro rfl
          exact hnew hm
      refine ⟨c :: cs, by rw [List.map_cons, List.map_cons, numbers.attemptID, hids],
        List.nodup_cons.mpr ⟨fun hc => (later c hc).2 rfl, hnd⟩, fun c' hc' => ?_⟩
      rcases List.mem_cons.mp hc' with rfl | hc'
      · exact .inr ⟨hk, by rw [List.filterMap_cons_some hp]; exact List.mem_cons_self⟩
      · exact (later c' hc').1

/-- The attempts are the raw ones, in order. -/
theorem numberAttempts_copied (h : numberAttempts runID designatedKind size raw cells i = .ok attempts) :
    attempts.map (fun a => (a.condition, a.arm, a.attemptKind)) = raw.map (fun r => (r.condition, r.arm, r.kind)) ∧
      ∀ a ∈ attempts, a.retryOf = none := by
  induction raw generalizing cells i attempts with
  | nil =>
    cases h
    exact ⟨rfl, nofun⟩
  | cons item raw ih =>
    obtain ⟨attempt, rest, c, cells', rfl, numbers, hr, -⟩ := numberAttempts_cons h
    obtain ⟨hcopied, hnone⟩ := ih hr
    obtain ⟨h1, h2, h3⟩ := numbers.copied
    exact ⟨by rw [List.map_cons, List.map_cons, hcopied, h1, h2, h3], List.forall_mem_cons.mpr ⟨numbers.retryOf, hnone⟩⟩

/-! ## Places -/

omit [ScheduleLibraries] in
theorem place_warmup (coordinates : List (String × Arm)) :
    (coordinates.map fun (condition, arm) => (⟨condition, arm, .warmup, none, none⟩ : RawAttempt)).filterMap
      RawAttempt.place =
      [] := by
  rw [List.filterMap_map, List.filterMap_eq_nil_iff]
  intro item _
  rfl

theorem pairArms_cases (seed condition : String) (slot : Nat) :
    pairArms seed condition slot = [.baseline, .xir] ∨ pairArms seed condition slot = [.xir, .baseline] := by
  unfold pairArms
  dsimp only
  split
  · exact .inl rfl
  · exact .inr rfl

theorem pairCoordinates_perm (profile : ExecutionProfile) : (pairCoordinates profile).Perm
    (profile.conditions.flatMap fun condition =>
      (List.range profile.counts.pairSlotsPerCondition).map fun slot => (condition, slot)) := List.mergeSort_perm ..

/-- The attempts of the pairs. -/
def pairAttempts (profile : ExecutionProfile) (runID : String) (kind : ScheduleAttemptKind)
    (coordinates : String × Nat) :
    List RawAttempt :=
  (pairArms profile.fixedSeed coordinates.1 coordinates.2).map fun arm => ⟨coordinates.1, arm, kind,
    some (stableID "pair" [.text runID, .text coordinates.1, .number coordinates.2]), some coordinates.2⟩

theorem rawAttempts_eq : rawAttempts profile runID kind =
    (warmupCoordinates profile).map (fun (condition, arm) => ⟨condition, arm, .warmup, none, none⟩) ++
      (pairCoordinates profile).flatMap (pairAttempts profile runID kind) := rfl

theorem countP_pairAttempts (coordinates : List (String × Nat)) (condition : String) :
    (coordinates.flatMap (pairAttempts profile runID kind)).countP
      (fun r => r.condition = condition ∧ r.arm = .baseline ∧ r.kind = kind) = coordinates.countP
        (·.1 = condition) := by
  induction coordinates with
  | nil => rfl
  | cons c coordinates ih =>
    have pair : (pairAttempts profile runID kind c).countP
        (fun r => r.condition = condition ∧ r.arm = .baseline ∧ r.kind = kind) = if c.1 = condition then 1 else 0 := by
      rw [pairAttempts]
      obtain ha | ha :=
        pairArms_cases profile.fixedSeed c.1 c.2 <;> rw [ha] <;> by_cases hc : c.1 = condition <;> simp [hc]
    rw [List.flatMap_cons, List.countP_append, ih, List.countP_cons, Nat.add_comm, pair]
    simp only [decide_eq_true_eq]

omit [ScheduleLibraries] in
theorem countP_slots (conditions : List String) (slots : Nat) (condition : String) :
    (conditions.flatMap fun c => (List.range slots).map fun slot => (c, slot)).countP (·.1 = condition) =
      conditions.count condition * slots := by
  induction conditions with
  | nil => simp
  | cons c conditions ih =>
    rw [List.flatMap_cons, List.countP_append, ih, List.count_cons, List.countP_map]
    by_cases hc : c = condition
    · have hall :
          (List.range slots).countP ((fun x : String × Nat => decide (x.1 = condition)) ∘ fun slot => (c, slot)) =
          slots := by
        rw [List.countP_eq_length.mpr fun _ _ => by simpa using hc, List.length_range]
      rw [hall, if_pos (by simpa using hc), Nat.add_mul, Nat.one_mul, Nat.add_comm]
    · have hnone :
          (List.range slots).countP ((fun x : String × Nat => decide (x.1 = condition)) ∘ fun slot => (c, slot)) =
          0 := List.countP_eq_zero.mpr fun _ _ => by simpa using hc
      rw [hnone, if_neg (by simpa using hc), Nat.zero_add, Nat.add_zero]

/-- A condition that is listed several times has several times the attempts. -/
theorem perCell_eq (h : Expanded profile runID kind plan) (condition : String) :
    perCell plan.attempts kind (condition, .baseline) =
      profile.conditions.count condition * profile.counts.pairSlotsPerCondition := by
  obtain ⟨-, hk⟩ := scheduledKind_eq_ok h.designated
  obtain ⟨hcopied, -⟩ := numberAttempts_copied h.attempts
  let q : String × Arm × ScheduleAttemptKind → Bool := fun x => x.1 = condition ∧ x.2.1 = .baseline ∧ x.2.2 = kind
  have warmups : ((warmupCoordinates profile).map (fun (condition, arm) =>
      (⟨condition, arm, .warmup, none, none⟩ : RawAttempt))).countP
      (fun r => r.condition = condition ∧ r.arm = .baseline ∧ r.kind = kind) = 0 := by
    rw [List.countP_map]
    exact List.countP_eq_zero.mpr fun _ _ => by simpa using fun _ _ he => hk he.symm
  calc perCell plan.attempts kind (condition, .baseline)
      = (plan.attempts.map fun a => (a.condition, a.arm, a.attemptKind)).countP q := by rw [List.countP_map]; rfl
    _ = (rawAttempts profile runID kind).countP
      (fun r => r.condition = condition ∧ r.arm = .baseline ∧ r.kind = kind) := by
      rw [hcopied, List.countP_map]; rfl
    _ = (pairCoordinates profile).countP (·.1 = condition) := by
      rw [rawAttempts_eq, List.countP_append, warmups, countP_pairAttempts, Nat.zero_add]
    _ = _ := by rw [(pairCoordinates_perm profile).countP_eq, countP_slots]

/-- The coordinates of the pairs are different: the attempts of a condition are as many as it has slots. -/
theorem nodup_pairCoordinates (h : Expanded profile runID kind plan) : (pairCoordinates profile).Nodup := by
  rw [(pairCoordinates_perm profile).nodup_iff]
  have slots {condition : String} (hc : condition ∈ profile.conditions) : profile.conditions.count condition *
      profile.counts.pairSlotsPerCondition = profile.counts.pairSlotsPerCondition := by
    rw [← perCell_eq h condition]
    refine Finset.mem_singleton.mp (h.balanced ▸ List.mem_toFinset.mpr (List.mem_map_of_mem ?_))
    exact List.mem_flatMap.mpr ⟨condition, hc, List.mem_cons_self⟩
  rcases Nat.eq_zero_or_pos profile.counts.pairSlotsPerCondition with h0 | hpos
  · have none : (profile.conditions.flatMap fun condition => (List.range 0).map fun slot => (condition, slot)) = [] :=
      List.flatMap_eq_nil_iff.mpr fun _ _ => rfl
    rw [h0, none]
    exact .nil
  refine List.nodup_flatMap.mpr ⟨fun c _ => List.nodup_range.map fun _ _ he => (Prod.mk.inj he).2, ?_⟩
  have nodup : profile.conditions.Nodup := List.nodup_iff_count_le_one.mpr fun c => by
    by_cases hc : c ∈ profile.conditions
    · exact Nat.le_of_mul_le_mul_right (by rw [slots hc, Nat.one_mul]) hpos
    · rw [List.count_eq_zero_of_not_mem hc]
      exact Nat.zero_le 1
  refine nodup.imp fun {c c'} hne x hx hx' => hne ?_
  obtain ⟨_, -, rfl⟩ := List.mem_map.mp hx
  obtain ⟨_, -, he⟩ := List.mem_map.mp hx'
  exact (Prod.mk.inj he).1.symm

theorem nodup_places (h : Expanded profile runID kind plan) :
    ((rawAttempts profile runID kind).filterMap RawAttempt.place).Nodup := by
  obtain ⟨-, hk⟩ := scheduledKind_eq_ok h.designated
  rw [rawAttempts_eq, List.filterMap_append, place_warmup, List.nil_append, List.filterMap_flatMap]
  have places (c : String × Nat) : (pairAttempts profile runID kind c).filterMap RawAttempt.place =
      (pairArms profile.fixedSeed c.1 c.2).map fun arm => (c.1, arm, c.2) := by
    rw [pairAttempts, List.filterMap_map, ← List.filterMap_eq_map]
    exact List.filterMap_congr fun arm _ => if_neg hk
  refine List.nodup_flatMap.mpr ⟨fun c _ => ?_, (nodup_pairCoordinates h).imp fun {c c'} hne x hx hx' => hne ?_⟩
  · rw [places]
    obtain ha | ha := pairArms_cases profile.fixedSeed c.1 c.2 <;> rw [ha] <;> simp
  · simp only [places] at hx hx'
    obtain ⟨_, -, rfl⟩ := List.mem_map.mp hx
    obtain ⟨_, -, he⟩ := List.mem_map.mp hx'
    obtain ⟨h1, -, h2⟩ := by simpa using he
    exact Prod.ext h1.symm h2.symm

/-! ## Plans -/

/-- The attempts of an expanded plan have identifiers of their own, and are retries of none. -/
theorem Expanded.coordinates (h : Expanded profile runID kind plan) :
    ∃ cs : List Coordinates, plan.attempts.map (·.attemptID) = cs.map (Coordinates.attemptID runID) ∧ cs.Nodup := by
  obtain ⟨hd, -⟩ := scheduledKind_eq_ok h.designated
  obtain ⟨cs, hids, hn, -⟩ := numberAttempts_coordinates h.attempts hd (nodup_places h)
  exact ⟨cs, hids, hn⟩

theorem Expanded.nodup (h : Expanded profile runID kind plan) (distinct : DistinctIDs) :
    (plan.attempts.map (·.attemptID)).Nodup := by
  obtain ⟨cs, hids, hn⟩ := h.coordinates
  rw [hids]
  exact hn.map (Coordinates.attemptID_injective distinct)

/-! ## A plan of one pair -/

def pairProfile : ExecutionProfile where
  profileID := "pilot-1"
  profileMode := .live
  profileKind := "pilot"
  fixedSeed := "00"
  conditions := ["HH"]
  counts := ⟨1, 1, "pilot", 0, 2⟩
  liveLimits := ⟨some 1, some 2, some 2⟩

def pairAttempt (arm : Arm) (sequenceIndex : Nat) : ScheduledAttempt where
  attemptID := stableID "attempt" [.text "run", .text "HH", .text arm.name, .text "pilot", .number 0]
  condition := "HH"
  arm := arm
  attemptKind := .pilot
  pairID := some (stableID "pair" [.text "run", .text "HH", .number 0])
  pairSlotIndex := some 0
  retryOf := none
  retryIndex := none
  sequenceIndex := sequenceIndex
  batchIndex := 0

def pairPlan : ExecutionPlan where
  planID := stableID "run" [.text "run", .text "pilot-1", .text "00"]
  runID := "run"
  profileID := "pilot-1"
  fixedSeed := "00"
  profileKind := "pilot"
  executable := true
  limits := pairProfile.liveLimits
  attempts := [pairAttempt .baseline 0, pairAttempt .xir 1]
  planSHA256 := planDigest (stableID "run" [.text "run", .text "pilot-1", .text "00"]) "run" pairProfile
    [pairAttempt .baseline 0, pairAttempt .xir 1]

theorem expandPlan_pair (arms : pairArms "00" "HH" 0 = [.baseline, .xir]) :
    expandPlan pairProfile "run" = .ok pairPlan := by
  have warmups : warmupCoordinates pairProfile = [] := by simp [warmupCoordinates, pairProfile]
  have pairs : pairCoordinates pairProfile = [("HH", 0)] := by simp [pairCoordinates, pairProfile]
  have raw : rawAttempts pairProfile "run" .pilot = pairAttempts pairProfile "run" .pilot ("HH", 0) := by
    rw [rawAttempts_eq, warmups, pairs, List.map_nil, List.nil_append, List.flatMap_singleton]
  refine expandPlan_eq_ok.mpr ⟨by decide, .pilot, ⟨rfl, ?_, rfl, ?_, by rfl⟩, rfl⟩
  · rw [raw, pairAttempts, show pairProfile.fixedSeed = "00" from rfl, arms]
    rfl
  · simp [pairPlan, pairAttempt, pairProfile]

/-- Libraries that tell the attempts of one pair apart. -/
@[reducible] def pairIDs : ScheduleLibraries where
  stableID
    | _, [_, _, .text arm, _, _] => if arm = "baseline" then "attempt_0" else "attempt_1"
    | _, [_, _, _, _] => "attempt_2"
    | kind, _ => kind
  seededKey _ _ _ := "00"
  planDigest _ _ _ _ := "00"

end Xir.Impl.XirLab
