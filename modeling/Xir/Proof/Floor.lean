import Xir.Proof.Cap

/-!
# The floor of the runner's balance

What a run finalized on a chain is no longer in the balance of the runner, and
what it reserves is promised. `_assert_capacity` subtracts the reserved wei from
the balance that was observed, but not the finalized ones. The floor holds as
long as the reservations that it admits are also admitted with both subtracted
(`Funded`).
-/

namespace Xir.Impl.XirLab

open Store LeaseBudgetManager

variable {s s' : Store}

/-- A call that configures the limits of a run. -/
def Configures (_ : Store) : Call → Prop
  | .configureLimits _ _ => True
  | _ => False

/-- A call for a reservation, an inclusion or a finalization, or for a work lease. -/
def Spending (_ : Store) : Call → Prop
  | .configureLimits _ _ | .releaseDeadLineage .. | .reopenAfterReorganization .. | .releaseUnstartedRoute _ => False
  | _ => True

/-- A reservation that `_assert_capacity` admits leaves the floor once the finalized wei are subtracted as well. -/
def Funded (s : Store) : Call → Prop
  | .reserveCompleteRoute _ attemptID batchID stages => ∀ totals attempt, stageTotals stages = .ok totals →
    s.attempts attemptID = some attempt → attempt.state = .planned → s.runs attempt.runID = some .running →
    (∀ c ∈ byChain totals, s.assertCapacity attempt.runID batchID c.1 c.2 0 = .ok ()) →
    ∀ c ∈ byChain totals, ∀ limit, s.budgetLimits (attempt.runID, c.1) = some limit →
      limit.minimumRunnerBalanceWei ≤ limit.observedRunnerBalanceWei - s.used ⟨attempt.runID, none, c.1⟩ - c.2
  | _ => True

/-- No stage is released. -/
def Unreleased (s : Store) : Prop := ∀ sub ∈ s.subreservations, sub.state ≠ .released

/-- The balance that was observed covers the floor and the totals. -/
def Floor (s : Store) : Prop := ∀ runID chainID limit, s.budgetLimits (runID, chainID) = some limit →
  limit.minimumRunnerBalanceWei ≤ limit.observedRunnerBalanceWei →
  limit.minimumRunnerBalanceWei ≤ limit.observedRunnerBalanceWei - s.used ⟨runID, none, chainID⟩

theorem keeps_of_unreleased {call : Call} (h : Unreleased s) (hc : Spending s call) (c : Column) : Keeps c s call := by
  cases call with
  | acquireNonceSubreservation => exact fun _ sub hs _ _ _ hr => absurd hr (h sub hs)
  | releaseDeadLineage => exact hc.elim
  | releaseUnstartedRoute => exact hc.elim
  | _ => trivial

theorem Unreleased.of_update {p : SubreservationRow → Prop} [DecidablePred p]
    {f : SubreservationRow → SubreservationRow} (h : Unreleased s)
    (hs : s'.subreservations = Table.update p f s.subreservations)
    (hf : ∀ sub ∈ s.subreservations, (f sub).state ≠ .released) : Unreleased s' := by
  intro sub hm
  obtain ⟨r, hr, rfl⟩ := Table.mem_update.mp (hs ▸ hm)
  split
  · exact hf r hr
  · exact h r hr

theorem Unreleased.of_move {call : Call} (h : Unreleased s) (hc : Spending s call) (hm : Move s call s') :
    Unreleased s' := by
  cases hm with
  | idle => exact h
  | work => exact h
  | configured => exact hc.elim
  | reserved _ _ _ _ _ _ _ frame =>
    obtain ⟨_, _, rfl⟩ := frame
    intro sub hs
    rcases List.mem_append.mp hs with hs | hs
    · exact h sub hs
    · obtain ⟨_, _, -, rfl⟩ := mem_plannedRow hs
      show SubState.reserved ≠ .released
      decide
  | marked _ _ _ _ _ frame =>
    subst frame
    exact h
  | again _ _ _ _ _ frame =>
    subst frame
    exact h.of_update rfl h
  | bound _ _ _ _ _ _ _ frame =>
    subst frame
    refine h.of_update rfl fun _ _ => ?_
    show SubState.active ≠ .released
    decide
  | wrote _ write _ frame =>
    obtain ⟨_, _, rfl⟩ := frame
    refine h.of_update rfl fun _ _ => ?_
    cases write with
    | pending accepted => exact (pendingState_unsettled accepted).2
    | included =>
      show SubState.included ≠ .released
      decide
    | finalized =>
      show SubState.finalized ≠ .released
      decide
    | dead => exact hc.elim
    | reopenIncluded => exact hc.elim
    | reopenFinalized => exact hc.elim
  | halted => exact hc.elim
  | released => exact hc.elim

theorem Floor.of_used_le (h : Floor s) (hl : s'.budgetLimits = s.budgetLimits) (hu : ∀ k, s'.used k ≤ s.used k) :
    Floor s' := by
  intro runID chainID limit hlimit enough
  have hf := h runID chainID limit (hl ▸ hlimit) enough
  have hle := hu ⟨runID, none, chainID⟩
  omega

theorem Floor.of_move {call : Call} (h : Sound s) (hF : Floor s) (hc : Spending s call) (funded : Funded s call)
    (hm : Move s call s') : Floor s' := by
  cases hm with
  | idle => exact hF
  | work => exact hF
  | configured => exact hc.elim
  | reserved planned _ of unstarted running _ capacity frame posted _ =>
    obtain ⟨_, _, rfl⟩ := frame
    intro runID chainID limit hl enough
    rcases posted.used_reserved capacity ⟨runID, none, chainID⟩ with ⟨c, hm, ⟨rfl, rfl, -⟩, hu⟩ | hu
    · have hf := funded _ _ planned of unstarted running capacity c hm limit hl
      rw [hu]
      show _ ≤ _ - (_ + c.2)
      omega
    · rw [hu]
      exact hF runID chainID limit hl enough
  | marked _ _ _ _ _ frame =>
    subst frame
    exact hF
  | again _ _ _ _ _ frame =>
    subst frame
    exact hF
  | bound _ _ _ _ _ _ _ frame =>
    subst frame
    exact hF
  | @wrote _ l sub _ _ _ _ of write _ frame posted _ =>
    obtain ⟨_, _, rfl⟩ := frame
    refine hF.of_used_le rfl (posted.used_le (h.line_listed of) (write.charge_le (h.valid.subs.1 sub of.row).1.1 ?_))
    rintro _ rfl
    exact hc.elim
  | halted => exact hc.elim
  | released => exact hc.elim

/-! ## Runs -/

/-- The store of a run of reservations, inclusions and finalizations. -/
structure Spent (s : Store) : Prop where
  settled : Settled (fun _ => True) s
  unreleased : Unreleased s
  floor : Floor s

/-- Limits before anything is reserved. -/
structure Prepared (s : Store) : Prop where
  settled : Settled (fun _ => True) s
  subreservations : s.subreservations = []
  totals : ∀ k, s.totals k = 0

theorem Prepared.of_move {call : Call} (h : Prepared s) (hc : Configures s call) (settled : Settled (fun _ => True) s')
    (hm : Move s call s') : Prepared s' := by
  cases hm with
  | idle => exact h
  | work => exact ⟨settled, h.subreservations, h.totals⟩
  | configured configured =>
    have hk : ∀ k, s'.totals k = 0 := fun k => (configured.totals k).trans (h.totals k)
    obtain ⟨_, _, rfl⟩ := configured.frame
    exact ⟨settled, h.subreservations, hk⟩
  | wrote _ write => cases write <;> exact hc.elim
  | _ => exact hc.elim

theorem Prepared.of_step {e : Option Call} (h : Prepared s) (hs : StepWhen Configures s e s') : Prepared s' := by
  obtain ⟨step, hc⟩ := hs
  have settled := h.settled.of_step ⟨step, fun call he c _ => by
    have hc := hc call he
    cases call with
    | configureLimits => trivial
    | _ => exact hc.elim⟩
  cases step with
  | call call => exact h.of_move (hc call rfl) settled (call.after_move s)
  | others same =>
    exact ⟨settled, same.subreservations.trans h.subreservations, fun k => (same.totals_eq k).trans (h.totals k)⟩

theorem Unused.prepared (h : Unused s) : Prepared s := by
  refine ⟨h.settled _, h.subreservations, fun k => ?_⟩
  rw [SameLeases.totals_eq h]
  unfold Store.totals Store.totalsRow
  cases k.batchID <;> rfl

theorem Prepared.spent (h : Prepared s) : Spent s := by
  refine ⟨h.settled, fun sub hs => absurd (h.subreservations ▸ hs) List.not_mem_nil,
    fun runID chainID limit _ enough => ?_⟩
  have hu : s.used ⟨runID, none, chainID⟩ = 0 := by
    unfold Store.used
    rw [h.totals]
    rfl
  omega

theorem Spent.of_step {e : Option Call} (h : Spent s)
    (hs : StepWhen (fun s call => Spending s call ∧ Funded s call) s e s') : Spent s' := by
  obtain ⟨step, hc⟩ := hs
  have settled := h.settled.of_step ⟨step, fun call he c _ => keeps_of_unreleased h.unreleased (hc call he).1 c⟩
  cases step with
  | call call =>
    obtain ⟨spending, funded⟩ := hc call rfl
    have hm := call.after_move s
    exact ⟨settled, h.unreleased.of_move spending hm, h.floor.of_move h.settled.sound spending funded hm⟩
  | others same =>
    refine ⟨settled, fun sub hs => h.unreleased sub (same.subreservations ▸ hs),
      h.floor.of_used_le same.budgetLimits fun k => ?_⟩
    unfold Store.used
    rw [same.totals_eq]

/-- After the limits were configured, in a run of reservations, inclusions and
finalizations that are funded, the balance that was observed less what the run
finalized and what it still reserves is at least the floor. -/
theorem floor_of_run {s₀ s₁ : Store} {es es' : List (Option Call)} (start : Unused s₀)
    (setup : Run (StepWhen Configures) s₀ es s₁)
    (run : Run (StepWhen fun s call => Spending s call ∧ Funded s call) s₁ es' s) {runID : String} {chainID : Int}
    {limit : BudgetLimit} (hl : s.budgetLimits (runID, chainID) = some limit)
    (enough : limit.minimumRunnerBalanceWei ≤ limit.observedRunnerBalanceWei) :
    limit.minimumRunnerBalanceWei ≤ limit.observedRunnerBalanceWei - s.spending ⟨runID, none, chainID⟩ .finalized -
      s.spending ⟨runID, none, chainID⟩ .reserved := by
  have prepared : Prepared s₁ :=
    setup.inv (C := fun _ => True) (fun _ hi hs => hi.of_step hs) (fun _ _ => trivial) start.prepared
  have spent : Spent s :=
    run.inv (C := fun _ => True) (fun _ hi hs => hi.of_step hs) (fun _ _ => trivial) prepared.spent
  have hf := spent.floor runID chainID limit hl enough
  have col : ∀ c, s.spending ⟨runID, none, chainID⟩ c = (s.totals ⟨runID, none, chainID⟩).col c := fun c =>
    (spent.settled.spends c trivial _).trans (spent.settled.recorded _ c).symm
  rw [col, col]
  show _ ≤ limit.observedRunnerBalanceWei - (s.totals _).finalized - (s.totals _).reserved
  unfold Store.used at hf
  omega

/-- Limits of 100 wei for a balance of 10. -/
def balanceOfTen : List Call := [.configureLimits "run" [(1, ⟨10, 100, 100, 0, 10⟩)]]

/-- The only stage of 10 wei is finalized with 4 wei. -/
def finalizedFour : List Call :=
  [.reserveCompleteRoute "route" "attempt" "batch" [oneStage 10]] ++ startOne ++ [.finalizeLineage "lineage" 4]

theorem floor_of_run_four :
    0 ≤ 10 - (callAll (callAll twoAttempts balanceOfTen) finalizedFour).spending ⟨"run", none, 1⟩ .finalized -
      (callAll (callAll twoAttempts balanceOfTen) finalizedFour).spending ⟨"run", none, 1⟩ .reserved := by
  have setup : CallsWhen Configures twoAttempts balanceOfTen := ⟨trivial, trivial⟩
  have run : CallsWhen (fun s call => Spending s call ∧ Funded s call) (callAll twoAttempts balanceOfTen)
      finalizedFour := by
    refine ⟨⟨trivial, fun totals attempt planned of _ _ _ c hc limit hl => ?_⟩, ⟨trivial, trivial⟩, ⟨trivial, trivial⟩,
      ⟨trivial, trivial⟩, trivial⟩
    have ht : stageTotals [oneStage 10] = .ok [(oneStage 10, 10)] := rfl
    obtain rfl := Except.ok.inj (ht.symm.trans planned)
    obtain rfl := List.mem_singleton.mp hc
    have ha : (callAll twoAttempts balanceOfTen).attempts "attempt" = some ⟨"run", .planned⟩ := rfl
    obtain rfl := Option.some.inj (ha.symm.trans of)
    have hl' : (callAll twoAttempts balanceOfTen).budgetLimits ("run", 1) = some ⟨10, 100, 100, 0, 10⟩ :=
      by decide +kernel
    obtain rfl := Option.some.inj (hl'.symm.trans hl)
    decide +kernel
  have hl : (callAll (callAll twoAttempts balanceOfTen) finalizedFour).budgetLimits ("run", 1) =
      some ⟨10, 100, 100, 0, 10⟩ := by decide +kernel
  exact floor_of_run twoAttempts_unused (run_callsWhen setup) (run_callsWhen run) hl (by decide)

/-- A second reservation of 10 wei after 10 wei were finalized. -/
def reservedTwice : List Call :=
  [.reserveCompleteRoute "route" "attempt" "batch" [oneStage 10]] ++ startOne ++
    [.finalizeLineage "lineage" 10, reserveNext]

/-- A balance of 10 wei of which 10 are spent and 10 are reserved. -/
theorem floor_violated : ¬ ∀ {s₀ s₁ s : Store} {es es' : List (Option Call)}, Unused s₀ →
    Run (StepWhen Configures) s₀ es s₁ → Run (StepWhen Spending) s₁ es' s → ∀ {runID : String} {chainID : Int}
    {limit : BudgetLimit}, s.budgetLimits (runID, chainID) = some limit →
    limit.minimumRunnerBalanceWei ≤ limit.observedRunnerBalanceWei →
    limit.minimumRunnerBalanceWei ≤ limit.observedRunnerBalanceWei - s.spending ⟨runID, none, chainID⟩ .finalized -
      s.spending ⟨runID, none, chainID⟩ .reserved := by
  intro h
  have setup : CallsWhen Configures twoAttempts balanceOfTen := ⟨trivial, trivial⟩
  have run : CallsWhen Spending (callAll twoAttempts balanceOfTen) reservedTwice :=
    ⟨trivial, trivial, trivial, trivial, trivial, trivial⟩
  have hl : (callAll (callAll twoAttempts balanceOfTen) reservedTwice).budgetLimits ("run", 1) =
      some ⟨10, 100, 100, 0, 10⟩ := by decide +kernel
  have hc := h twoAttempts_unused (run_callsWhen setup) (run_callsWhen run) hl (by decide)
  revert hc
  decide +kernel

end Xir.Impl.XirLab
