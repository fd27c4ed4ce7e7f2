import Mathlib.Data.Finset.Card
import Mathlib.Data.List.ProdSigma
import Xir.Framework.Numbered
import Xir.Proof.Dispatch

/-!
# What a profile is expanded to

A plan is its attempts without a position (`identities`), placed one after the
other (`placed`): this is all that the numbering computes (`numberAttempts_eq`).
Whatever the seed, these attempts are the same up to their order
(`identities_perm`), since a warmup is numbered by its occurrence within its
cell. What is counted over a plan is counted over them.
-/

namespace Xir.Impl.XirLab

open ScheduleLibraries

/-! ## Attempts without a position -/

namespace ScheduledAttempt

/-- The attempt at a position of the plan. -/
def placed (size : Option ℕ+) (a : ScheduledAttempt) (i : Nat) : ScheduledAttempt :=
  { a with sequenceIndex := i, batchIndex := size.elim 0 fun size => i / size }

/-- The attempt without its position. -/
def identity (a : ScheduledAttempt) : ScheduledAttempt := { a with sequenceIndex := 0, batchIndex := 0 }

end ScheduledAttempt

variable [ScheduleLibraries] {profile : ExecutionProfile} {runID : String} {plan : ExecutionPlan}
  {kind : ScheduleAttemptKind} {size : Option ℕ+}

/-- Warmup `n` of a cell. -/
def warmupIdentity (runID : String) (item : (String × Arm) × Nat) : ScheduledAttempt where
  attemptID := stableID "attempt"
    [.text runID, .text item.1.1, .text item.1.2.name, .text "warmup", .number item.2]
  condition := item.1.1
  arm := item.1.2
  attemptKind := .warmup
  pairID := none
  pairSlotIndex := none
  retryOf := none
  retryIndex := none
  sequenceIndex := 0
  batchIndex := 0

/-- The attempt of a pair with an arm. -/
def designatedIdentity (runID designatedKind : String) (kind : ScheduleAttemptKind) (pair : String × Nat) (arm : Arm) :
    ScheduledAttempt where
  attemptID := stableID "attempt"
    [.text runID, .text pair.1, .text arm.name, .text designatedKind, .number pair.2]
  condition := pair.1
  arm := arm
  attemptKind := kind
  pairID := some (stableID "pair" [.text runID, .text pair.1, .number pair.2])
  pairSlotIndex := some pair.2
  retryOf := none
  retryIndex := none
  sequenceIndex := 0
  batchIndex := 0

/-- The attempts of the pairs, in order. -/
def pairIdentities (profile : ExecutionProfile) (runID : String) (kind : ScheduleAttemptKind) (pair : String × Nat) :
    List ScheduledAttempt :=
  (pairArms profile.fixedSeed pair.1 pair.2).map
    (designatedIdentity runID profile.counts.designatedAttemptKind kind pair)

/-- The attempts of a plan, in order. -/
def identities (profile : ExecutionProfile) (runID : String) (kind : ScheduleAttemptKind) : List ScheduledAttempt :=
  (numbered (fun _ => 0) (warmupCoordinates profile)).map (warmupIdentity runID) ++
    (pairCoordinates profile).flatMap (pairIdentities profile runID kind)

/-! ## Numbering -/

theorem numberAttempts_designated {designatedKind : String} (hk : kind ≠ .warmup) (items : List ((String × Nat) × Arm))
    (cells : String × Arm → Nat) (i : Nat) :
    numberAttempts runID designatedKind size (items.map fun item => ⟨item.1.1, item.2, kind,
        some (stableID "pair" [.text runID, .text item.1.1, .number item.1.2]), some item.1.2⟩) cells i =
      .ok ((items.map fun item => designatedIdentity runID designatedKind kind item.1 item.2).mapIdx
        fun j a => a.placed size (j + i)) := by
  induction items generalizing i with
  | nil => rfl
  | cons item items ih =>
    have hi : ∀ j, j + 1 + i = j + (i + 1) := fun j => by omega
    rw [List.map_cons, numberAttempts]
    simp only [if_neg hk, orRevert, ok_bind, ih, List.map_cons, List.mapIdx_cons, hi, Nat.zero_add]
    rfl

theorem numberAttempts_warmups {designatedKind : String} {raw : List RawAttempt} {rest : Nat → List ScheduledAttempt}
    (h : ∀ cells i, numberAttempts runID designatedKind size raw cells i = .ok (rest i))
    (items : List (String × Arm)) (cells : String × Arm → Nat) (i : Nat) :
    numberAttempts runID designatedKind size
        (items.map (fun item => ⟨item.1, item.2, .warmup, none, none⟩) ++ raw) cells i =
      .ok (((numbered cells items).map (warmupIdentity runID)).mapIdx (fun j a => a.placed size (j + i)) ++
        rest (items.length + i)) := by
  induction items generalizing cells i with
  | nil => exact (h cells i).trans (by rw [List.length_nil, Nat.zero_add]; rfl)
  | cons item items ih =>
    have hi : ∀ j, j + 1 + i = j + (i + 1) := fun j => by omega
    rw [List.map_cons, List.cons_append, numberAttempts]
    simp only [if_true, ih, ok_bind, numbered, List.map_cons, List.mapIdx_cons, hi, List.length_cons, Nat.zero_add]
    rfl

/-- The numbering places the attempts one after the other. -/
theorem numberAttempts_eq (profile : ExecutionProfile) (runID : String) (size : Option ℕ+) (hk : kind ≠ .warmup) :
    numberAttempts runID profile.counts.designatedAttemptKind size (rawAttempts profile runID kind) (fun _ => 0) 0 =
      .ok ((identities profile runID kind).mapIdx fun i a => a.placed size i) := by
  let items :=
    (pairCoordinates profile).flatMap fun pair => (pairArms profile.fixedSeed pair.1 pair.2).map fun arm => (pair, arm)
  have hd : (pairCoordinates profile).flatMap (pairAttempts profile runID kind) = items.map fun item =>
      ⟨item.1.1, item.2, kind, some (stableID "pair" [.text runID, .text item.1.1, .number item.1.2]), some item.1.2⟩ :=
        by
    simp only [items, List.map_flatMap, List.map_map]
    rfl
  have hp : (pairCoordinates profile).flatMap (pairIdentities profile runID kind) = items.map fun item =>
      designatedIdentity runID profile.counts.designatedAttemptKind kind item.1 item.2 := by
    simp only [items, List.map_flatMap, List.map_map]
    rfl
  rw [rawAttempts_eq, hd, identities, hp, List.mapIdx_append]
  refine (numberAttempts_warmups (numberAttempts_designated hk items) (warmupCoordinates profile) _ 0).trans ?_
  have hl : ((numbered (fun _ => 0) (warmupCoordinates profile)).map (warmupIdentity runID)).length =
      (warmupCoordinates profile).length := by
    rw [List.length_map, ← List.length_map (f := Prod.fst), map_fst_numbered]
  simp only [Nat.add_zero, hl]

/-! ## The same attempts for every seed -/

theorem warmupCoordinates_perm (profile : ExecutionProfile) : (warmupCoordinates profile).Perm
    (profile.conditions.flatMap fun condition => [Arm.baseline, Arm.xir].flatMap fun arm =>
      List.replicate profile.counts.warmupsPerConditionArm (condition, arm)) := List.mergeSort_perm ..

theorem pairArms_perm (seed condition : String) (slot : Nat) :
    (pairArms seed condition slot).Perm [.baseline, .xir] := by
  obtain h | h := pairArms_cases seed condition slot
  · rw [h]
  · rw [h]
    exact .swap ..

theorem identities_perm (profile : ExecutionProfile) (runID : String) (kind : ScheduleAttemptKind) (seed : String) :
    (identities profile runID kind).Perm (identities { profile with fixedSeed := seed } runID kind) := by
  have hw := (warmupCoordinates_perm profile).trans
    (warmupCoordinates_perm { profile with fixedSeed := seed }).symm
  have hp := (pairCoordinates_perm profile).trans (pairCoordinates_perm { profile with fixedSeed := seed }).symm
  refine ((numbered_perm hw _).map _).append (hp.flatMap fun pair _ => ?_)
  exact ((pairArms_perm _ pair.1 pair.2).trans (pairArms_perm _ pair.1 pair.2).symm).map _

theorem map_identity_identities (profile : ExecutionProfile) (runID : String) (kind : ScheduleAttemptKind) :
    (identities profile runID kind).map ScheduledAttempt.identity = identities profile runID kind := by
  have hw : ScheduledAttempt.identity ∘ warmupIdentity runID = warmupIdentity runID := rfl
  have hp : ∀ pair, (pairIdentities profile runID kind pair).map ScheduledAttempt.identity =
      pairIdentities profile runID kind pair := fun pair => by
    rw [pairIdentities, List.map_map]
    rfl
  rw [identities, List.map_append, List.map_map, hw, List.map_flatMap]
  simp only [hp]

omit [ScheduleLibraries] in
/-- The attempts of a plan, without their positions. -/
theorem map_identity_placed (attempts : List ScheduledAttempt) (size : Option ℕ+) :
    (attempts.mapIdx fun i a => a.placed size i).map ScheduledAttempt.identity =
      attempts.map ScheduledAttempt.identity := by
  refine List.ext_getElem (by simp) fun i _ _ => ?_
  rw [List.getElem_map, List.getElem_map, List.getElem_mapIdx]
  rfl

/-! ## Counts -/

omit [ScheduleLibraries] in
theorem perCell_identity (attempts : List ScheduledAttempt) (kind : ScheduleAttemptKind) (cell : String × Arm) :
    perCell (attempts.map ScheduledAttempt.identity) kind cell = perCell attempts kind cell := by
  rw [perCell, perCell, List.countP_map]
  rfl

omit [ScheduleLibraries] in
/-- The warmups that a cell has. -/
theorem count_warmups (conditions : List String) (n : Nat) (condition : String) (arm : Arm) :
    (conditions.flatMap fun condition => [Arm.baseline, Arm.xir].flatMap fun arm =>
      List.replicate n (condition, arm)).count (condition, arm) = conditions.count condition * n := by
  have cell : ∀ c, ([Arm.baseline, Arm.xir].flatMap fun arm => List.replicate n (c, arm)).count (condition, arm) =
      if c = condition then n else 0 := fun c => by
    cases arm <;> by_cases hc : c = condition <;> simp [List.count_replicate, hc]
  induction conditions with
  | nil => simp
  | cons c conditions ih =>
    rw [List.flatMap_cons, List.count_append, ih, cell, List.count_cons]
    by_cases hc : c = condition
    · simp only [hc, if_true, beq_self_eq_true, Nat.add_mul, Nat.one_mul, Nat.add_comm]
    · simp [hc]

theorem perCell_warmups (hk : kind ≠ .warmup) (cell : String × Arm) :
    perCell (identities profile runID kind) .warmup cell =
      profile.conditions.count cell.1 * profile.counts.warmupsPerConditionArm := by
  have hp : ((pairCoordinates profile).flatMap (pairIdentities profile runID kind)).countP
      (fun item => item.condition = cell.1 ∧ item.arm = cell.2 ∧ item.attemptKind = .warmup) = 0 := by
    refine List.countP_eq_zero.mpr fun a ha => ?_
    obtain ⟨pair, -, ha⟩ := List.mem_flatMap.mp ha
    obtain ⟨arm, -, rfl⟩ := List.mem_map.mp ha
    exact fun h => hk (of_decide_eq_true h).2.2
  have hw : ((numbered (fun _ => 0) (warmupCoordinates profile)).map (warmupIdentity runID)).countP
      (fun item => item.condition = cell.1 ∧ item.arm = cell.2 ∧ item.attemptKind = .warmup) =
      (warmupCoordinates profile).count cell := by
    conv_rhs => rw [← map_fst_numbered (fun _ => 0) (warmupCoordinates profile), List.count, List.countP_map]
    rw [List.countP_map]
    refine List.countP_congr fun item _ => ?_
    refine ⟨fun h => ?_, fun h => ?_⟩
    · exact beq_iff_eq.mpr (Prod.ext (of_decide_eq_true h).1 (of_decide_eq_true h).2.1)
    · have he : item.1 = cell := beq_iff_eq.mp h
      exact decide_eq_true ⟨congrArg Prod.fst he, congrArg Prod.snd he, rfl⟩
  rw [perCell, identities, List.countP_append, hw, hp, (warmupCoordinates_perm profile).count_eq, count_warmups,
    Nat.add_zero]

/-- The attempts of the pairs with an arm are one for each pair. -/
theorem countP_pairIdentities (pairs : List (String × Nat)) (cell : String × Arm) :
    (pairs.flatMap (pairIdentities profile runID kind)).countP
      (fun item => item.condition = cell.1 ∧ item.arm = cell.2 ∧ item.attemptKind = kind) = pairs.countP
        (·.1 = cell.1) := by
  induction pairs with
  | nil => rfl
  | cons pair pairs ih =>
    have one : (pairIdentities profile runID kind pair).countP
        (fun item => item.condition = cell.1 ∧ item.arm = cell.2 ∧ item.attemptKind = kind) =
        if pair.1 = cell.1 then 1 else 0 := by
      rw [pairIdentities, ((pairArms_perm profile.fixedSeed pair.1 pair.2).map _).countP_eq]
      obtain ⟨c, arm⟩ := cell
      cases arm <;> by_cases hc : pair.1 = c <;> simp [designatedIdentity, hc]
    rw [List.flatMap_cons, List.countP_append, ih, List.countP_cons, Nat.add_comm, one]
    simp only [decide_eq_true_eq]

theorem perCell_designated (hk : kind ≠ .warmup) (cell : String × Arm) :
    perCell (identities profile runID kind) kind cell =
      profile.conditions.count cell.1 * profile.counts.pairSlotsPerCondition := by
  have hw : ((numbered (fun _ => 0) (warmupCoordinates profile)).map (warmupIdentity runID)).countP
      (fun item => item.condition = cell.1 ∧ item.arm = cell.2 ∧ item.attemptKind = kind) = 0 := by
    refine List.countP_eq_zero.mpr fun a ha => ?_
    obtain ⟨item, -, rfl⟩ := List.mem_map.mp ha
    exact fun h => hk (of_decide_eq_true h).2.2.symm
  rw [perCell, identities, List.countP_append, hw, countP_pairIdentities, (pairCoordinates_perm profile).countP_eq,
    countP_slots, Nat.zero_add]

/-! ## Positions -/

omit [ScheduleLibraries] in
/-- No batch holds more attempts than its size. -/
theorem countP_div_le (n : Nat) (size : ℕ+) (b : Nat) : (List.range n).countP (fun i => i / size = b) ≤ size := by
  have hs : (List.range n).filter (fun i => i / size = b) ⊆ List.range' (b * size) size := by
    intro i hi
    rw [List.mem_filter, decide_eq_true_eq] at hi
    have hd := Nat.div_add_mod i size
    have hm := Nat.mod_lt i size.pos
    rw [hi.2, Nat.mul_comm] at hd
    rw [List.mem_range'_1]
    omega
  have := ((List.nodup_range (n := n)).filter _).subperm hs
  rw [List.countP_eq_length_filter]
  simpa using this.length_le

omit [ScheduleLibraries] in
/-- The batches of consecutive positions are the same or consecutive. -/
theorem succ_div (i : Nat) (size : ℕ+) : (i + 1) / size = i / size ∨ (i + 1) / (size : Nat) = i / size + 1 := by
  rw [Nat.succ_div]
  split
  · exact .inr rfl
  · exact .inl rfl

omit [ScheduleLibraries] in
/-- What the positions of placed attempts are. -/
theorem positions_placed (attempts : List ScheduledAttempt) (size : Option ℕ+) :
    (attempts.mapIdx fun i a => a.placed size i).map (·.sequenceIndex) = List.range attempts.length ∧
    (attempts.mapIdx fun i a => a.placed size i).map (·.batchIndex) =
      (List.range attempts.length).map fun i => size.elim 0 fun size => i / (size : Nat) := by
  constructor
  · refine List.ext_getElem (by simp) fun i _ _ => ?_
    rw [List.getElem_map, List.getElem_mapIdx, List.getElem_range]
    rfl
  · refine List.ext_getElem (by simp) fun i _ _ => ?_
    rw [List.getElem_map, List.getElem_mapIdx, List.getElem_map, List.getElem_range]
    rfl

/-- Two attempts of one pair, one with each arm. -/
structure IsPair (kind : ScheduleAttemptKind) (a b : ScheduledAttempt) : Prop where
  kind : a.attemptKind = kind ∧ b.attemptKind = kind
  condition : a.condition = b.condition
  pairID : a.pairID.isSome ∧ a.pairID = b.pairID
  slot : a.pairSlotIndex.isSome ∧ a.pairSlotIndex = b.pairSlotIndex
  arms : a.arm = .baseline ∧ b.arm = .xir ∨ a.arm = .xir ∧ b.arm = .baseline

/-- The identifier of a pair. -/
def pairIDOf (runID : String) (pair : String × Nat) : String :=
  stableID "pair" [.text runID, .text pair.1, .number pair.2]

theorem pairIDOf_injective (distinct : DistinctIDs) : Function.Injective (pairIDOf runID) := by
  intro ⟨condition, slot⟩ ⟨condition', slot'⟩ h
  have hc := distinct "pair" h
  simp only [List.cons.injEq, Component.text.injEq, Component.number.injEq] at hc
  obtain ⟨-, rfl, hn, -⟩ := hc
  exact Prod.ext rfl (by simpa using hn)

/-- The attempts of the pairs are placed next to each other. -/
theorem exists_pairs (size : Option ℕ+) (coordinates : List (String × Nat)) (i : Nat) :
    ∃ pairs : List (ScheduledAttempt × ScheduledAttempt),
      ((coordinates.flatMap (pairIdentities profile runID kind)).mapIdx fun j a => a.placed size (j + i)) =
        pairs.flatMap (fun p => [p.1, p.2]) ∧
      pairs.map (·.1.pairID) = coordinates.map (some ∘ pairIDOf runID) ∧ ∀ p ∈ pairs, IsPair kind p.1 p.2 := by
  induction coordinates generalizing i with
  | nil => exact ⟨[], rfl, rfl, List.forall_mem_nil _⟩
  | cons pair coordinates ih =>
    obtain ⟨pairs, hp, hids, hall⟩ := ih (i + 2)
    have hi : ∀ j, j + 1 + 1 + i = j + (i + 2) := fun j => by omega
    obtain ha | ha := pairArms_cases profile.fixedSeed pair.1 pair.2
    all_goals
      rw [List.flatMap_cons, pairIdentities, ha]
      simp only [List.map_cons, List.map_nil, List.cons_append, List.nil_append, List.mapIdx_cons, hi, hp]
      refine ⟨(_, _) :: pairs, rfl, congrArg (List.cons _) hids, List.forall_mem_cons.mpr ⟨?_, hall⟩⟩
    · exact ⟨⟨rfl, rfl⟩, rfl, ⟨rfl, rfl⟩, ⟨rfl, rfl⟩, .inl ⟨rfl, rfl⟩⟩
    · exact ⟨⟨rfl, rfl⟩, rfl, ⟨rfl, rfl⟩, ⟨rfl, rfl⟩, .inr ⟨rfl, rfl⟩⟩

/-! ## Valid profiles -/

/-- The conditions of a profile are different ones, and its planned counts are those of its
sizes. -/
structure ExecutionProfile.Valid (profile : ExecutionProfile) : Prop where
  conditions_ne : profile.conditions ≠ []
  conditions_nodup : profile.conditions.Nodup
  designated : profile.counts.designatedAttemptKind = "pilot" ∨ profile.counts.designatedAttemptKind = "primary"
  pairs : profile.counts.plannedPairSlots = profile.conditions.length * profile.counts.pairSlotsPerCondition
  total : profile.counts.plannedTotalNonRetryAttempts =
    profile.conditions.length * (2 * (profile.counts.warmupsPerConditionArm + profile.counts.pairSlotsPerCondition))

omit [ScheduleLibraries] in
theorem exists_scheduledKind (h : profile.Valid) :
    ∃ kind, scheduledKind profile.counts.designatedAttemptKind = .ok kind := by
  obtain h | h := h.designated
  · exact ⟨.pilot, by rw [h]; rfl⟩
  · exact ⟨.primary, by rw [h]; rfl⟩

theorem nodup_coordinates (h : profile.Valid) : (pairCoordinates profile).Nodup := by
  rw [(pairCoordinates_perm profile).nodup_iff]
  exact h.conditions_nodup.product List.nodup_range

theorem length_coordinates (profile : ExecutionProfile) :
    (pairCoordinates profile).length = profile.conditions.length * profile.counts.pairSlotsPerCondition := by
  rw [(pairCoordinates_perm profile).length_eq]
  exact (List.length_product _ _).trans (by rw [List.length_range])

theorem length_identities (profile : ExecutionProfile) (runID : String) (kind : ScheduleAttemptKind) :
    (identities profile runID kind).length =
      profile.conditions.length *
        (2 * (profile.counts.warmupsPerConditionArm + profile.counts.pairSlotsPerCondition)) := by
  have hw : ((numbered (fun _ => 0) (warmupCoordinates profile)).map (warmupIdentity runID)).length =
      profile.conditions.length * (2 * profile.counts.warmupsPerConditionArm) := by
    rw [List.length_map, ← List.length_map (f := Prod.fst), map_fst_numbered,
      (warmupCoordinates_perm profile).length_eq]
    simp [List.length_flatMap, Nat.two_mul]
  have hp : ((pairCoordinates profile).flatMap (pairIdentities profile runID kind)).length =
      (pairCoordinates profile).length * 2 := by
    have two : ∀ pair, (pairIdentities profile runID kind pair).length = 2 := fun pair => by
      rw [pairIdentities, List.length_map, (pairArms_perm _ _ _).length_eq]
      rfl
    simp [List.length_flatMap, two]
  rw [identities, List.length_append, hw, hp, length_coordinates, Nat.mul_left_comm,
    Nat.mul_left_comm _ 2, Nat.mul_add]
  omega

/-- The pairs of a plan. -/
theorem filterMap_pairID (profile : ExecutionProfile) (runID : String) (kind : ScheduleAttemptKind) :
    (identities profile runID kind).filterMap (·.pairID) =
      (pairCoordinates profile).flatMap fun pair => [pairIDOf runID pair, pairIDOf runID pair] := by
  have hw :
      ((numbered (fun _ => 0) (warmupCoordinates profile)).map (warmupIdentity runID)).filterMap (·.pairID) = [] := by
    rw [List.filterMap_map, List.filterMap_eq_nil_iff]
    exact fun _ _ => rfl
  have hp : ∀ pair, (pairIdentities profile runID kind pair).filterMap (·.pairID) =
      [pairIDOf runID pair, pairIDOf runID pair] := fun pair => by
    rw [pairIdentities]
    obtain ha | ha := pairArms_cases profile.fixedSeed pair.1 pair.2 <;> rw [ha] <;> rfl
  rw [identities, List.filterMap_append, hw, List.nil_append, List.filterMap_flatMap]
  simp only [hp]

theorem length_pairIDs (distinct : DistinctIDs) (h : profile.Valid) :
    ((identities profile runID kind).filterMap (·.pairID)).dedup.length = profile.counts.plannedPairSlots := by
  have hs : ((pairCoordinates profile).flatMap fun pair => [pairIDOf runID pair, pairIDOf runID pair]).toFinset =
      ((pairCoordinates profile).map (pairIDOf runID)).toFinset := by
    ext id
    simp [eq_comm]
  rw [filterMap_pairID, ← List.card_toFinset, hs, List.toFinset_card_of_nodup
    ((nodup_coordinates h).map (pairIDOf_injective distinct)), List.length_map, length_coordinates, h.pairs]

/-- The attempts of the plan of a profile. -/
def plannedAttempts (profile : ExecutionProfile) (runID : String) (kind : ScheduleAttemptKind) :
    List ScheduledAttempt :=
  (identities profile runID kind).mapIdx fun i a => a.placed profile.liveLimits.maxBatchAttempts i

theorem perCell_planned (kind' : ScheduleAttemptKind) (cell : String × Arm) :
    perCell (plannedAttempts profile runID kind) kind' cell = perCell (identities profile runID kind) kind' cell := by
  rw [plannedAttempts, ← perCell_identity, map_identity_placed, perCell_identity]

/-- A valid profile is expanded, to these attempts. -/
theorem expanded_of_valid (distinct : DistinctIDs) (h : profile.Valid)
    (hd : scheduledKind profile.counts.designatedAttemptKind = .ok kind)
    (he : plan.attempts = plannedAttempts profile runID kind) :
    Expanded profile runID kind plan where
  designated := hd
  attempts := by
    rw [numberAttempts_eq profile runID _ (scheduledKind_eq_ok hd).2, he, plannedAttempts]
  total := by
    rw [he, plannedAttempts, List.length_mapIdx, length_identities, h.total]
  slots := by
    have hm : (plannedAttempts profile runID kind).filterMap (·.pairID) =
        (identities profile runID kind).filterMap (·.pairID) := by
      have := congrArg (List.filterMap (·.pairID))
        (map_identity_placed (identities profile runID kind) profile.liveLimits.maxBatchAttempts)
      rwa [List.filterMap_map, List.filterMap_map] at this
    rw [he, hm, length_pairIDs distinct h]
  balanced := by
    have hc : ∀ cell ∈ profile.conditions.flatMap fun condition => [(condition, Arm.baseline), (condition, Arm.xir)],
        perCell plan.attempts kind cell = profile.counts.pairSlotsPerCondition := by
      intro cell hm
      obtain ⟨condition, hcond, hm⟩ := List.mem_flatMap.mp hm
      have hf : cell.1 = condition := by
        obtain rfl | rfl := List.mem_pair.mp hm <;> rfl
      rw [he, perCell_planned, perCell_designated (scheduledKind_eq_ok hd).2, hf,
        List.count_eq_one_of_mem h.conditions_nodup hcond, Nat.one_mul]
    obtain ⟨condition, hcond⟩ := List.exists_mem_of_ne_nil _ h.conditions_ne
    ext n
    rw [List.mem_toFinset, List.mem_map, Finset.mem_singleton]
    constructor
    · intro ⟨cell, hm, hn⟩
      rw [← hn, hc cell hm]
    · intro hn
      have hm : (condition, Arm.baseline) ∈ profile.conditions.flatMap fun condition =>
          [(condition, Arm.baseline), (condition, Arm.xir)] :=
            List.mem_flatMap.mpr ⟨condition, hcond, List.mem_cons_self⟩
      exact ⟨_, hm, (hc _ hm).trans hn.symm⟩

/-! ## Plans -/

/-- What a plan of a profile is to be. Each cell has its attempts, and there are no others; the
warmups come first, and then the pairs, one after the other; the batches follow each other,
from the first one, and none is too large. -/
structure WellExpanded (profile : ExecutionProfile) (kind : ScheduleAttemptKind)
    (attempts : List ScheduledAttempt) : Prop where
  ids : (attempts.map (·.attemptID)).Nodup
  sequence : attempts.map (·.sequenceIndex) = List.range attempts.length
  warmups (condition : String) : condition ∈ profile.conditions →
    ∀ arm, perCell attempts .warmup (condition, arm) = profile.counts.warmupsPerConditionArm
  designated (condition : String) : condition ∈ profile.conditions →
    ∀ arm, perCell attempts kind (condition, arm) = profile.counts.pairSlotsPerCondition
  cells (a : ScheduledAttempt) :
    a ∈ attempts → a.condition ∈ profile.conditions ∧ (a.attemptKind = .warmup ∨ a.attemptKind = kind)
  pairs : ∃ (warm : List ScheduledAttempt) (pairs : List (ScheduledAttempt × ScheduledAttempt)),
    attempts = warm ++ pairs.flatMap (fun p => [p.1, p.2]) ∧ (∀ a ∈ warm, a.attemptKind = .warmup ∧ a.pairID = none) ∧
      (∀ p ∈ pairs, IsPair kind p.1 p.2) ∧ (pairs.map (·.1.pairID)).Nodup
  first (a : ScheduledAttempt) : attempts.head? = some a → a.batchIndex = 0
  batches : (attempts.map (·.batchIndex)).IsChain fun a b => b = a ∨ b = a + 1
  bounded (size : ℕ+) : profile.liveLimits.maxBatchAttempts = some size →
    ∀ b, attempts.countP (fun a => a.batchIndex = b) ≤ size

omit [ScheduleLibraries] in
/-- The batches of placed attempts. -/
theorem batches_placed (attempts : List ScheduledAttempt) (size : Option ℕ+) :
    ((attempts.mapIdx fun i a => a.placed size i).map (·.batchIndex)).IsChain (fun a b => b = a ∨ b = a + 1) ∧
    ∀ n, size = some n → ∀ b, (attempts.mapIdx fun i a => a.placed size i).countP (fun a => a.batchIndex = b) ≤ n := by
  obtain ⟨-, hb⟩ := positions_placed attempts size
  rw [hb]
  refine ⟨List.isChain_iff_getElem.mpr fun i hi => ?_, fun n hn b => ?_⟩
  · rw [List.getElem_map, List.getElem_map, List.getElem_range, List.getElem_range]
    cases size with
    | none => exact .inl rfl
    | some size => exact succ_div i size
  · subst hn
    have hc : (attempts.mapIdx fun i a => a.placed (some n) i).countP (fun a => a.batchIndex = b) =
        ((attempts.mapIdx fun i a => a.placed (some n) i).map (·.batchIndex)).countP (fun k => k = b) := by
      rw [List.countP_map]
      rfl
    rw [hc, hb, List.countP_map]
    exact countP_div_le attempts.length n b

theorem condition_of_mem {a : ScheduledAttempt} (h : a ∈ identities profile runID kind) :
    a.condition ∈ profile.conditions ∧ (a.attemptKind = .warmup ∨ a.attemptKind = kind) := by
  rw [identities, List.mem_append] at h
  obtain h | h := h
  · obtain ⟨item, hm, rfl⟩ := List.mem_map.mp h
    have hm := (warmupCoordinates_perm profile).mem_iff.mp
      (map_fst_numbered _ (warmupCoordinates profile) ▸ List.mem_map_of_mem hm)
    obtain ⟨condition, hc, hm⟩ := List.mem_flatMap.mp hm
    obtain ⟨arm, -, hm⟩ := List.mem_flatMap.mp hm
    have he : item.1 = (condition, arm) := (List.mem_replicate.mp hm).2
    refine ⟨?_, .inl rfl⟩
    show item.1.1 ∈ profile.conditions
    rw [he]
    exact hc
  · obtain ⟨pair, hm, h⟩ := List.mem_flatMap.mp h
    obtain ⟨arm, -, rfl⟩ := List.mem_map.mp h
    obtain ⟨condition, hc, hm⟩ := List.mem_flatMap.mp ((pairCoordinates_perm profile).mem_iff.mp hm)
    obtain ⟨slot, -, rfl⟩ := List.mem_map.mp hm
    exact ⟨hc, .inr rfl⟩

theorem wellExpanded_of_valid (distinct : DistinctIDs) (h : profile.Valid) (he : Expanded profile runID kind plan)
    (ha : plan.attempts = plannedAttempts profile runID kind) : WellExpanded profile kind plan.attempts where
  ids := he.nodup distinct
  sequence := by
    rw [ha, plannedAttempts, (positions_placed _ _).1, List.length_mapIdx]
  warmups condition hc arm := by
    rw [ha, perCell_planned, perCell_warmups (scheduledKind_eq_ok he.designated).2,
      List.count_eq_one_of_mem h.conditions_nodup hc, Nat.one_mul]
  designated condition hc arm := by
    rw [ha, perCell_planned, perCell_designated (scheduledKind_eq_ok he.designated).2,
      List.count_eq_one_of_mem h.conditions_nodup hc, Nat.one_mul]
  cells a hm := by
    rw [ha] at hm
    have hi : a.identity ∈ identities profile runID kind := by
      rw [← map_identity_identities, ← map_identity_placed _ profile.liveLimits.maxBatchAttempts]
      exact List.mem_map_of_mem hm
    have hc := condition_of_mem hi
    exact hc
  pairs := by
    let warm := (numbered (fun _ => 0) (warmupCoordinates profile)).map (warmupIdentity runID)
    obtain ⟨pairs, hp, hids, hall⟩ := @exists_pairs _ profile runID kind profile.liveLimits.maxBatchAttempts
      (pairCoordinates profile) warm.length
    refine ⟨warm.mapIdx fun i a => a.placed profile.liveLimits.maxBatchAttempts i, pairs, ?_, ?_, hall, ?_⟩
    · rw [ha, plannedAttempts, identities, List.mapIdx_append, hp]
    · intro a hm
      obtain ⟨i, hi, rfl⟩ := List.mem_mapIdx.mp hm
      rw [List.getElem_map]
      exact ⟨rfl, rfl⟩
    · rw [hids]
      exact (nodup_coordinates h).map ((Option.some_injective _).comp (pairIDOf_injective distinct))
  first a hf := by
    rw [ha, plannedAttempts] at hf
    cases hl : identities profile runID kind with
    | nil => rw [hl] at hf; exact absurd hf (by simp)
    | cons b attempts =>
      rw [hl, List.mapIdx_cons, List.head?_cons, Option.some.injEq] at hf
      rw [← hf]
      cases profile.liveLimits.maxBatchAttempts with
      | none => rfl
      | some size => exact Nat.zero_div _
  batches := by
    rw [ha]
    exact (batches_placed _ _).1
  bounded := by
    rw [ha]
    exact (batches_placed _ _).2

/-- A valid profile is expanded, for every run id that is not empty, and what it is expanded to is
as it is to be. Plans for two seeds have the same attempts, in another order. -/
theorem expandPlan_wellExpanded (distinct : DistinctIDs) (h : profile.Valid) (runID : String) :
    (runID ≠ "" → ∃ plan, expandPlan profile runID = .ok plan) ∧
    ∀ plan, expandPlan profile runID = .ok plan →
      (∃ kind, scheduledKind profile.counts.designatedAttemptKind = .ok kind ∧
        WellExpanded profile kind plan.attempts) ∧
      ∀ seed plan', expandPlan { profile with fixedSeed := seed } runID = .ok plan' →
        (plan.attempts.map ScheduledAttempt.identity).Perm (plan'.attempts.map ScheduledAttempt.identity) := by
  have attempts_eq : ∀ {profile : ExecutionProfile} {kind plan}, Expanded profile runID kind plan →
      plan.attempts = plannedAttempts profile runID kind := fun {profile kind plan} he =>
    Except.ok.inj (he.attempts.symm.trans (numberAttempts_eq profile runID _ (scheduledKind_eq_ok he.designated).2))
  refine ⟨fun hr => ?_, fun plan hp => ?_⟩
  · obtain ⟨kind, hk⟩ := exists_scheduledKind h
    let planID := stableID "run" [.text runID, .text profile.profileID, .text profile.fixedSeed]
    let plan : ExecutionPlan := {
      planID, runID, profileID := profile.profileID, fixedSeed := profile.fixedSeed, profileKind := profile.profileKind
      executable := profile.executable, limits := profile.liveLimits, attempts := plannedAttempts profile runID kind
      planSHA256 := planDigest planID runID profile (plannedAttempts profile runID kind) }
    exact ⟨plan, expandPlan_eq_ok.mpr ⟨hr, kind, expanded_of_valid distinct h hk rfl, rfl⟩⟩
  · obtain ⟨-, kind, he, -⟩ := expandPlan_eq_ok.mp hp
    refine ⟨⟨kind, he.designated, wellExpanded_of_valid distinct h he (attempts_eq he)⟩, fun seed plan' hp' => ?_⟩
    obtain ⟨-, kind', he', -⟩ := expandPlan_eq_ok.mp hp'
    obtain rfl : kind = kind' := Except.ok.inj (he.designated.symm.trans he'.designated)
    rw [attempts_eq he, attempts_eq he', plannedAttempts, plannedAttempts, map_identity_placed, map_identity_placed]
    exact (identities_perm profile runID kind seed).map _

omit [ScheduleLibraries] in
/-- A profile of one pair. -/
theorem expandPlan_wellExpanded_pair : ∃ plan, @expandPlan BoundedScheduler.spelledIDs pairProfile "run" = .ok plan ∧
    ∃ kind, WellExpanded pairProfile kind plan.attempts := by
  let _ := BoundedScheduler.spelledIDs
  have valid : pairProfile.Valid := ⟨by decide, by decide, .inl rfl, rfl, rfl⟩
  obtain ⟨total, well⟩ := expandPlan_wellExpanded BoundedScheduler.spelledIDs_distinct valid "run"
  obtain ⟨plan, hp⟩ := total (by decide)
  obtain ⟨⟨kind, -, hw⟩, -⟩ := well plan hp
  exact ⟨plan, hp, kind, hw⟩

end Xir.Impl.XirLab
