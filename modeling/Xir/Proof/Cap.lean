import Xir.Proof.Spending

/-!
# The spending cap

The reserved and the finalized total of a run on a chain, or of a batch, are
together at most its limit after every run (`Admitted`). What the nonce lineages
can spend (`Store.held`) is part of what the stages hold, and is thus at most the
limit as long as the reserved totals are what the stages hold.
-/

namespace Xir.Impl.XirLab

open Store LeaseBudgetManager

variable {s s' : Store}

/-- What a lineage that is not dead can spend: what it spent, or what it reserves. -/
def SubreservationRow.exposure (sub : SubreservationRow) : Int :=
  if sub.lineageID ≠ none ∧ sub.state ≠ .released then
    max sub.finalizedWei (if sub.state = .finalized then 0 else sub.reservedWei)
  else 0

/-- What the lineages of a scope can spend. -/
def Store.held (s : Store) (k : Scope) : Int :=
  Table.total (fun sub => if Within s.budgets k sub then sub.exposure else 0) s.subreservations

/-- The limit of a scope. -/
def Store.cap (s : Store) (k : Scope) : Int :=
  match s.budgetLimits (k.runID, k.chainID) with
  | none => 0
  | some limit => if k.batchID = none then limit.maxRunWei else limit.maxBatchWei

/-- What the totals of a scope hold against its limit. -/
def Store.used (s : Store) (k : Scope) : Int := (s.totals k).reserved + (s.totals k).finalized

def Admitted (s : Store) : Prop := ∀ k, s.used k ≤ s.cap k

/-! ## Admission -/

theorem cap_congr (h : s'.budgetLimits = s.budgetLimits) (k : Scope) : s'.cap k = s.cap k := by
  unfold cap
  rw [h]

/-- What `_assert_capacity` admits is within the limits of the run and of the batch. -/
theorem assertCapacity_cap {runID batchID : String} {chainID requested credit : Int}
    (h : s.assertCapacity runID batchID chainID requested credit = .ok ()) {k : Scope}
    (hk : k.Covers runID batchID chainID) : s.used k - credit + requested ≤ s.cap k := by
  obtain ⟨limit, total, hl, ht, hr, hb, -⟩ := assertCapacity_eq_ok.mp h
  obtain ⟨kr, kb, kc⟩ := k
  obtain ⟨rfl, rfl, hkb⟩ := hk
  have hcap : s.cap ⟨kr, kb, kc⟩ = if kb = none then limit.maxRunWei else limit.maxBatchWei := by
    show (match s.budgetLimits (kr, kc) with | none => 0 | some l => if kb = none then l.maxRunWei
      else l.maxBatchWei) = _
    rw [hl]
  rw [hcap]
  cases kb with
  | none =>
    have hu : s.used ⟨kr, none, kc⟩ = total.reserved + total.finalized := by
      show ((s.budgetTotals (kr, kc)).getD 0).reserved + ((s.budgetTotals (kr, kc)).getD 0).finalized = _
      rw [ht]
      rfl
    rw [hu]
    exact hr
  | some b =>
    obtain rfl := hkb b rfl
    exact hb

/-- What an event adds to what the totals hold. -/
def BudgetEventRow.charge (e : BudgetEventRow) : Int := e.delta.reserved + e.delta.finalized

/-- Events that are posted charge the scopes that cover them. -/
theorem Posted.used {es : List BudgetEventRow} (h : Posted s s' es)
    (listed : ∀ e ∈ es, s.budgetTotals (e.runID, e.chainID) ≠ none) (k : Scope) : s'.used k = s.used k +
      Table.total (fun e => if k.Covers e.runID e.batchID e.chainID then e.charge else 0) es := by
  have hr : (s'.totals k).reserved = (s.totals k).reserved + Table.total (worth k .reserved) es :=
    h.col listed k .reserved
  have hf : (s'.totals k).finalized = (s.totals k).finalized + Table.total (worth k .finalized) es :=
    h.col listed k .finalized
  have hw : Table.total (fun e => if k.Covers e.runID e.batchID e.chainID then e.charge else 0) es =
      Table.total (worth k .reserved) es + Table.total (worth k .finalized) es := by
    rw [← Table.total_add]
    refine Table.total_congr fun e _ => ?_
    show (if _ then e.delta.reserved + e.delta.finalized else 0) = (if _ then _ else 0) + (if _ then _ else 0)
    split
    · rfl
    · rfl
  rw [Store.used, hr, hf, hw, Store.used]
  omega

/-- Events that charge nothing. -/
theorem Posted.used_le {es : List BudgetEventRow} (h : Posted s s' es)
    (listed : ∀ e ∈ es, s.budgetTotals (e.runID, e.chainID) ≠ none) (charged : ∀ e ∈ es, e.charge ≤ 0) (k : Scope) :
    s'.used k ≤ s.used k := by
  have hle : Table.total (fun e => if k.Covers e.runID e.batchID e.chainID then e.charge else 0) es ≤
      Table.total (fun _ => 0) es := Table.total_le fun e he => by
    split
    · exact charged e he
    · exact le_rfl
  rw [Table.total_eq_zero fun _ _ => rfl] at hle
  rw [h.used listed]
  omega

/-- The chains of a new reservation that a scope covers. -/
theorem total_covered {runID batchID : String} {chains : List (Int × Int)} (nodup : (chains.map Prod.fst).Nodup)
    {c : Int × Int} (hc : c ∈ chains) {k : Scope} (hk : k.Covers runID batchID c.1) :
    Table.total (fun c => if k.Covers runID batchID c.1 then c.2 else 0) chains = c.2 := by
  have hu : Table.Unique (fun c : Int × Int => some c.1) chains := by
    rw [Table.Unique, List.filterMap_eq_map']
    exact nodup
  refine hu.total (p := fun c => k.Covers runID batchID c.1) (g := Prod.snd) hc
    rfl fun c' _ => ⟨fun hk' => ?_, fun he => ?_⟩
  · rw [← hk'.2.1, hk.2.1]
  · rw [Option.some.inj he]
    exact hk

/-- A new reservation charges a scope by what it reserves on its chain. -/
theorem Posted.used_reserved {r runID batchID : String} {totals : List (PlannedStageBudget × Int)}
    (h : Posted s s' ((byChain totals).map (chainEvent r runID batchID)))
    (capacity : ∀ c ∈ byChain totals, s.assertCapacity runID batchID c.1 c.2 0 = .ok ()) (k : Scope) :
    (∃ c ∈ byChain totals, k.Covers runID batchID c.1 ∧ s'.used k = s.used k + c.2) ∨ s'.used k = s.used k := by
  have hu :
      s'.used k = s.used k + Table.total (fun c => if k.Covers runID batchID c.1 then c.2 else 0) (byChain totals) := by
    rw [h.used (chains_listed capacity), Table.total_map]
    exact congrArg (_ + ·) (Table.total_congr fun c _ => if_congr Iff.rfl (add_zero c.2) rfl)
  by_cases hk : ∃ c ∈ byChain totals, k.Covers runID batchID c.1
  · obtain ⟨c, hc, hk⟩ := hk
    rw [total_covered byChain_nodup hc hk] at hu
    exact .inl ⟨c, hc, hk, hu⟩
  · rw [Table.total_eq_zero fun c hc => if_neg fun h => hk ⟨c, hc, h⟩, add_zero] at hu
    exact .inr hu

/-- What a write to a lineage charges, unless it restores a reservation. -/
theorem Write.charge_le {call : Call} {l : String} {sub : SubreservationRow} {b : BudgetRow} {w : LineageWrite}
    (h : Write s sub b call l w) (h0 : 0 ≤ sub.reservedWei)
    (hc : ∀ violationID, call = .reopenAfterReorganization l violationID → sub.state ≠ .finalized) :
    ∀ e ∈ [lineageRow sub b w.eventType w.delta], e.charge ≤ 0 := by
  intro e he
  obtain rfl := List.mem_singleton.mp he
  show w.delta.reserved + w.delta.finalized ≤ 0
  cases h with
  | pending => exact le_rfl
  | included => exact le_rfl
  | @finalized _ actual _ _ _ fits =>
    show -sub.reservedWei + actual ≤ 0
    omega
  | dead =>
    show -sub.reservedWei + 0 ≤ 0
    omega
  | reopenIncluded => exact le_rfl
  | reopenFinalized finalized => exact absurd finalized (hc _ rfl)

theorem Admitted.of_move {call : Call} (h : Sound s) (hA : Admitted s) (hm : Move s call s') : Admitted s' := by
  cases hm with
  | idle => exact hA
  | work => exact hA
  | configured hc =>
    intro k
    have hu : s'.used k = s.used k := by
      unfold Store.used
      rw [hc.totals k]
    have hk := hA k
    rw [hu]
    unfold cap at hk ⊢
    cases hl : s'.budgetLimits (k.runID, k.chainID) with
    | none =>
      have hn : s.budgetLimits (k.runID, k.chainID) = none := by_contra fun hn => hc.kept _ hn hl
      rw [hn] at hk
      exact hk
    | some limit =>
      rcases hc.limits _ limit hl with ⟨v, hv⟩ | ⟨hn, h0, hle⟩
      · rw [hv] at hk
        exact hk
      · rw [hn] at hk
        have hk : s.used k ≤ 0 := hk
        show s.used k ≤ if _ then limit.maxRunWei else limit.maxBatchWei
        split <;> omega
  | reserved _ _ _ _ _ _ capacity frame posted _ =>
    obtain ⟨_, _, rfl⟩ := frame
    intro k
    rcases posted.used_reserved capacity k with ⟨c, hc, hk, hu⟩ | hu
    · have hcap := assertCapacity_cap (capacity c hc) hk
      rw [hu]
      show s.used k + c.2 ≤ s.cap k
      omega
    · rw [hu]
      exact hA k
  | marked _ _ _ _ _ frame =>
    subst frame
    exact hA
  | again _ _ _ _ _ frame =>
    subst frame
    exact hA
  | bound _ _ _ _ _ _ _ frame =>
    subst frame
    exact hA
  | @wrote _ l sub b w _ _ of write _ frame posted _ =>
    obtain ⟨_, _, rfl⟩ := frame
    intro k
    by_cases hc : ∀ violationID, call = .reopenAfterReorganization l violationID → sub.state ≠ .finalized
    · exact (posted.used_le (h.line_listed of) (write.charge_le (h.valid.subs.1 sub of.row).1.1 hc) k).trans (hA k)
    · cases write with
      | reopenFinalized _ capacity =>
        rw [posted.used (h.line_listed of), Table.total_cons, Table.total_nil, add_zero]
        show _ + (if k.Covers b.runID b.batchID sub.chainID then sub.reservedWei + -sub.finalizedWei else 0) ≤ s.cap k
        split
        · have hcap := assertCapacity_cap capacity ‹_›
          omega
        · rw [add_zero]
          exact hA k
      | reopenIncluded included =>
        exact absurd (fun _ _ => by rw [included]; decide) hc
      | pending => exact absurd nofun hc
      | included => exact absurd nofun hc
      | finalized => exact absurd nofun hc
      | dead => exact absurd nofun hc
  | halted => exact hA
  | @released r _ released =>
    obtain ⟨-, -, ⟨_, _, rfl⟩, posted, -⟩ := released
    refine fun k => (posted.used_le (h.rows_listed _) (fun e he => ?_) k).trans (hA k)
    obtain ⟨b, hb, rfl⟩ := List.mem_map.mp he
    have h0 := (h.valid.budgets.1 b (List.mem_filter.mp hb).1).1.1
    show -b.reservedWei + 0 ≤ 0
    omega

/-! ## Lineages -/

/-- A lineage can spend no more than what its stage counts for. -/
theorem exposure_le {sub : SubreservationRow} (hs : sub.Sound) (hr : 0 ≤ sub.reservedWei) (hf : 0 ≤ sub.finalizedWei) :
    sub.exposure ≤ sub.weight .reserved + sub.weight .finalized := by
  have hle := hs.finalized
  show (if _ then _ else 0) ≤ (if _ then 0 else sub.reservedWei) + (if _ then sub.finalizedWei else 0)
  by_cases hfin : sub.state = .finalized
  · rw [hfin, if_pos (Or.inl rfl), if_pos rfl, if_pos rfl]
    split
    · exact max_le (by omega) (by omega)
    · omega
  · by_cases hrel : sub.state = .released
    · rw [hrel, if_neg (fun h => h.2 rfl), if_pos (Or.inr rfl)]
      exact le_rfl
    · have hn : ¬ (sub.state = .finalized ∨ sub.state = .released) := fun h => h.elim hfin hrel
      rw [if_neg hn, if_neg hfin, if_neg hfin]
      split
      · exact max_le (by omega) (by omega)
      · omega

theorem held_le_spending (h : Sound s) (k : Scope) : s.held k ≤ s.spending k .reserved + s.spending k .finalized := by
  unfold held spending
  rw [← Table.total_add]
  refine Table.total_le fun sub hs => ?_
  obtain ⟨hr, -, -, hf⟩ := h.valid.subs.1 sub hs
  split
  · exact exposure_le (h.stages sub hs) hr.1 hf.1
  · exact le_rfl

/-! ## Reorganizations -/

/-- The run of each reservation exists. -/
def Hosted (s : Store) : Prop := ∀ b ∈ s.budgets, s.runs b.runID ≠ none

theorem Hosted.of_fixed (h : Hosted s) (hb : s'.budgets.map BudgetRow.fixed = s.budgets.map BudgetRow.fixed)
    (hr : ∀ runID, s.runs runID ≠ none → s'.runs runID ≠ none) : Hosted s' := by
  intro b hm
  obtain ⟨b', hm', he⟩ := List.mem_map.mp (hb ▸ List.mem_map_of_mem hm)
  have hrun : b'.fixed.runID = b.fixed.runID := congrArg BudgetRow.runID he
  exact hr b.runID (hrun ▸ h b' hm')

theorem Move.runs_kept {call : Call} (hm : Move s call s') (runID : String) (h : s.runs runID ≠ none) :
    s'.runs runID ≠ none := by
  rcases hm.stop_states.2 with hr | ⟨_, _, _, b, _, _, _, _, _, hr⟩
  · rwa [hr]
  · rw [hr, Function.update_apply]
    split
    · subst_vars
      simpa using h
    · exact h

theorem Hosted.of_move {call : Call} (h : Hosted s) (hm : Move s call s') : Hosted s' := by
  rcases hm.fixed with ⟨hb, -⟩ | ⟨r, a, batchID, stages, rfl⟩
  · exact h.of_fixed hb hm.runs_kept
  · cases hm with
    | idle => exact h
    | work => exact h
    | reserved _ _ _ _ running _ _ frame =>
      obtain ⟨_, _, rfl⟩ := frame
      intro b hb
      rcases List.mem_append.mp hb with hb | hb
      · exact h b hb
      · obtain ⟨c, -, rfl⟩ := List.mem_map.mp hb
        exact running ▸ Option.some_ne_none _
    | wrote _ write => cases write

/-- Restoring the reservation of a lineage would exceed the limit of its run or of its batch. -/
def Exceeds (s : Store) (sub : SubreservationRow) (b : BudgetRow) : Prop :=
  ∃ k : Scope, k.Covers b.runID b.batchID sub.chainID ∧ s.cap k < s.used k - sub.finalizedWei + sub.reservedWei

/-- A reorganization whose reservation cannot be restored changes no lineage and halts the run. -/
def ReopenHalts (s : Store) (l violationID : String) (b : BudgetRow) : Prop :=
  let s' := (Call.reopenAfterReorganization l violationID).after s
  s'.subreservations = s.subreservations ∧ s'.nonceLeases = s.nonceLeases ∧ s'.runs b.runID = some .halted

theorem reopenHalts {l violationID : String} {sub : SubreservationRow} {b : BudgetRow} (hosted : Hosted s)
    (of : s.lineage l = .ok (sub, b)) (finalized : sub.state = .finalized) (exceeds : Exceeds s sub b)
    (new : CanRecord s violationID b.runID) : ReopenHalts s l violationID b := by
  have hh : haltRun s b violationID = .ok { s with
      runs := Function.update s.runs b.runID ((s.runs b.runID).map fun _ => .halted)
      violations := s.violations ++ [⟨violationID, b.runID, "budget_reorg_restore_failed"⟩] } := if_pos new
  have hr : (reopenAfterReorganization s l violationID).map Prod.fst = haltRun s b violationID := by
    rw [reopenAfterReorganization, of]
    show Except.map Prod.fst (if sub.state = .included then _ else _) = _
    rw [finalized, if_neg (by decide), hh]
    cases hc : s.assertCapacity b.runID b.batchID sub.chainID sub.reservedWei sub.finalizedWei with
    | ok u =>
      obtain ⟨k, hk, hlt⟩ := exceeds
      have hle := assertCapacity_cap hc hk
      omega
    | error e => rfl
  have ha : (Call.reopenAfterReorganization l violationID).after s = { s with
      runs := Function.update s.runs b.runID ((s.runs b.runID).map fun _ => .halted)
      violations := s.violations ++ [⟨violationID, b.runID, "budget_reorg_restore_failed"⟩] } := by
    have hc : (Call.reopenAfterReorganization l violationID).commit s = _ := hr.trans hh
    rw [Call.after, hc]
  unfold ReopenHalts
  rw [ha]
  refine ⟨rfl, rfl, ?_⟩
  show Function.update s.runs b.runID ((s.runs b.runID).map fun _ => .halted) b.runID = _
  obtain ⟨mode, hm⟩ := Option.ne_none_iff_exists'.mp (hosted b (lineage_eq_ok of).budget)
  rw [Function.update_self, hm]
  rfl

/-! ## Runs -/

theorem keeps_finalized (s : Store) (call : Call) : Keeps .finalized s call := by
  cases call <;> first | exact trivial | exact nofun

/-- What holds in every run, whatever is called. -/
structure Limited (s : Store) : Prop where
  sound : Sound s
  admitted : Admitted s
  hosted : Hosted s

theorem Limited.of_step {e : Option Call} (h : Limited s) (hs : Step s e s') : Limited s' := by
  have sound := h.sound.of_step hs
  cases hs with
  | call call =>
    have hm := call.after_move s
    exact ⟨sound, h.admitted.of_move h.sound hm, h.hosted.of_move hm⟩
  | others same =>
    refine ⟨sound, fun k => ?_, h.hosted.of_fixed ?_ same.runs⟩
    · unfold Store.used
      rw [same.totals_eq, cap_congr same.budgetLimits]
      exact h.admitted k
    · rw [same.budgets]

theorem Unused.limited (h : Unused s) : Limited s := by
  have hb : s.budgets = [] := h.budgets
  refine ⟨h.sound, fun k => ?_, fun b hm => absurd (hb ▸ hm) List.not_mem_nil⟩
  unfold Store.used
  rw [SameLeases.totals_eq h, cap_congr h.budgetLimits]
  unfold Store.totals Store.totalsRow
  cases k.batchID <;> exact le_rfl

theorem limited_of_run {s₀ : Store} {es : List (Option Call)} (start : Unused s₀)
    (run : Run Step s₀ es s) : Limited s :=
  run.inv (C := fun _ => True) (fun _ hi hs => hi.of_step hs) (fun _ _ => trivial) start.limited

/-- In a run whose calls forget no reserved wei, the lineages can spend at most
the limit of their run and of their batch. A reorganization that would exceed it
changes no lineage and halts the run, and no stage spends more than it reserves. -/
theorem cap_of_run {s₀ : Store} {es : List (Option Call)} (start : Unused s₀)
    (run : Run (StepWhen (Keeps .reserved)) s₀ es s) :
    (∀ k, s.held k ≤ s.cap k) ∧
    (∀ l violationID sub b, s.lineage l = .ok (sub, b) → sub.state = .finalized → Exceeds s sub b →
      CanRecord s violationID b.runID → ReopenHalts s l violationID b) ∧
    ∀ sub ∈ s.subreservations, sub.provisionalWei ≤ sub.reservedWei ∧ sub.finalizedWei ≤ sub.reservedWei := by
  obtain ⟨sound, admitted, hosted⟩ := limited_of_run start (run.imp And.left)
  have settled : Settled (· ≠ .provisional) s := settled_of_run start (run.imp fun ⟨step, keeps⟩ =>
    ⟨step, fun call hc c hp => by
      cases c with
      | reserved => exact keeps call hc
      | provisional => exact absurd rfl hp
      | finalized => exact keeps_finalized _ call⟩)
  have spent : ∀ k c, c ≠ .provisional → s.spending k c = (s.totals k).col c := fun k c hc =>
    (settled.spends c hc k).trans (settled.recorded k c).symm
  refine ⟨fun k => ?_, fun l v sub b of hf hx hv => reopenHalts hosted of hf hx hv, fun sub hs => ?_⟩
  · calc s.held k
      _ ≤ s.spending k .reserved + s.spending k .finalized := held_le_spending sound k
      _ = s.used k := by rw [spent k .reserved nofun, spent k .finalized nofun]; rfl
      _ ≤ s.cap k := admitted k
  · exact ⟨(sound.stages sub hs).provisional, (sound.stages sub hs).finalized⟩

theorem cap_of_run_started : (∀ k, (callAll oneAttempt started).held k ≤ (callAll oneAttempt started).cap k) ∧
    (∀ l violationID sub b, (callAll oneAttempt started).lineage l = .ok (sub, b) → sub.state = .finalized →
      Exceeds (callAll oneAttempt started) sub b → CanRecord (callAll oneAttempt started) violationID b.runID →
      ReopenHalts (callAll oneAttempt started) l violationID b) ∧
    ∀ sub ∈ (callAll oneAttempt started).subreservations,
      sub.provisionalWei ≤ sub.reservedWei ∧ sub.finalizedWei ≤ sub.reservedWei :=
  cap_of_run oneAttempt_unused ((run_callsWhen (keeps_started (· = .reserved))).imp fun ⟨step, keeps⟩ =>
    ⟨step, fun call hc => keeps call hc .reserved rfl⟩)

/-- A reservation is released before it starts, another one takes its place, and both start. -/
def bothStarted : List Call :=
  reserveOne ⟨10, 10, 10, 0, 100⟩ ++ [.releaseUnstartedRoute "route", reserveNext] ++ startOne ++ startNext

/-- Two lineages that can spend 20 wei of a limit of 10. -/
theorem cap_exceeded : ¬ ∀ {s₀ s : Store} {es : List (Option Call)}, Unused s₀ → Run Step s₀ es s →
    (∀ k, s.held k ≤ s.cap k) ∧
    (∀ l violationID sub b, s.lineage l = .ok (sub, b) → sub.state = .finalized → Exceeds s sub b →
      ReopenHalts s l violationID b) ∧
    ∀ sub ∈ s.subreservations, sub.provisionalWei ≤ sub.reservedWei ∧ sub.finalizedWei ≤ sub.reservedWei := by
  intro h
  have hc := (h twoAttempts_unused (run_callAll twoAttempts bothStarted)).1 ⟨"run", none, 1⟩
  revert hc
  decide +kernel

end Xir.Impl.XirLab
