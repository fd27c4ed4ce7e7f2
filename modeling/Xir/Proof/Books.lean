import Xir.Impl.XirLab.Leases

/-!
# What the totals should be

A `Scope` is a run on a chain, or a batch of it: what a row of totals is about.
A total of a scope should be the sum of what the stages within it hold
(`Store.spending`) and of what the events within it changed (`Store.recorded`).
`Posted` says that events were added to the totals and recorded: then the totals
change by what the events are worth.
-/

namespace Xir.Impl.XirLab

/-- The three columns of a row of totals. -/
inductive Column
  | reserved
  | provisional
  | finalized
  deriving DecidableEq

def Amounts.col (a : Amounts) : Column → Int
  | .reserved => a.reserved
  | .provisional => a.provisional
  | .finalized => a.finalized

@[simp] theorem Amounts.col_add (a b : Amounts) (c : Column) : (a + b).col c = a.col c + b.col c := by
  cases c <;> rfl

@[simp] theorem Amounts.col_zero (c : Column) : (0 : Amounts).col c = 0 := by
  cases c <;> rfl

/-- A run on a chain, or a batch of it. -/
structure Scope where
  runID : String
  batchID : Option String
  chainID : Int

/-- The scope is about the run, the batch and the chain. -/
def Scope.Covers (k : Scope) (runID batchID : String) (chainID : Int) : Prop :=
  k.runID = runID ∧ k.chainID = chainID ∧ ∀ b ∈ k.batchID, b = batchID

instance (k : Scope) (runID batchID : String) (chainID : Int) : Decidable (k.Covers runID batchID chainID) :=
  inferInstanceAs (Decidable (_ ∧ _))

/-- What a stage counts for in a column. -/
def SubreservationRow.weight (sub : SubreservationRow) : Column → Int
  | .reserved => if sub.state = .finalized ∨ sub.state = .released then 0 else sub.reservedWei
  | .provisional => if sub.state = .finalized ∨ sub.state = .released then 0 else sub.provisionalWei
  | .finalized => if sub.state = .finalized then sub.finalizedWei else 0

namespace Store

/-- The row of totals of a scope. -/
def totalsRow (s : Store) (k : Scope) : Option Amounts :=
  match k.batchID with
  | none => s.budgetTotals (k.runID, k.chainID)
  | some batchID => s.batchBudgetTotals (k.runID, batchID, k.chainID)

/-- The totals of a scope, which are zero as long as there is no row. -/
def totals (s : Store) (k : Scope) : Amounts := (s.totalsRow k).getD 0

/-- The stage belongs to a reservation of the scope. -/
def Within (budgets : List BudgetRow) (k : Scope) (sub : SubreservationRow) : Prop :=
  ∃ b ∈ budgets, b.key = sub.key ∧ k.Covers b.runID b.batchID b.chainID

instance (budgets : List BudgetRow) (k : Scope) (sub : SubreservationRow) : Decidable (Within budgets k sub) :=
  inferInstanceAs (Decidable (∃ b ∈ budgets, _))

/-- What the stages of a scope hold. -/
def spending (s : Store) (k : Scope) (c : Column) : Int :=
  Table.total (fun sub => if Within s.budgets k sub then sub.weight c else 0) s.subreservations

/-- What an event is worth for a scope. -/
def worth (k : Scope) (c : Column) (e : BudgetEventRow) : Int :=
  if k.Covers e.runID e.batchID e.chainID then e.delta.col c else 0

/-- What the events of a scope changed. -/
def recorded (s : Store) (k : Scope) (c : Column) : Int := Table.total (worth k c) s.budgetEvents

end Store

open Store

variable {s s' s'' : Store}

/-- The events were added to the totals, and recorded. -/
structure Posted (s s' : Store) (es : List BudgetEventRow) : Prop where
  events : s'.budgetEvents = s.budgetEvents ++ es
  present : ∀ k, s.totalsRow k ≠ none → s'.totalsRow k ≠ none
  valid : ∀ k, (s.totals k).Valid → (s'.totals k).Valid
  col : (∀ e ∈ es, s.budgetTotals (e.runID, e.chainID) ≠ none) →
    ∀ k c, (s'.totals k).col c = (s.totals k).col c + Table.total (worth k c) es

theorem Posted.nil (s : Store) : Posted s s [] where
  events := (List.append_nil _).symm
  present := fun _ h => h
  valid := fun _ h => h
  col := fun _ _ _ => (add_zero _).symm

theorem Posted.trans {es es' : List BudgetEventRow} (h : Posted s s' es) (h' : Posted s' s'' es') :
    Posted s s'' (es ++ es') where
  events := by rw [h'.events, h.events, List.append_assoc]
  present := fun k hk => h'.present k (h.present k hk)
  valid := fun k hk => h'.valid k (h.valid k hk)
  col := fun hp k c => by
    have hp' : ∀ e ∈ es', s'.budgetTotals (e.runID, e.chainID) ≠ none := fun e he =>
      h.present ⟨e.runID, none, e.chainID⟩ (hp e (List.mem_append_right _ he))
    rw [h'.col hp', h.col fun e he => hp e (List.mem_append_left _ he), Table.total_append, add_assoc]

/-- The totals are those of the events if they were before. -/
theorem Posted.recorded {es : List BudgetEventRow} (h : Posted s s' es)
    (hp : ∀ e ∈ es, s.budgetTotals (e.runID, e.chainID) ≠ none)
    (h0 : ∀ k c, (s.totals k).col c = s.recorded k c) (k : Scope) (c : Column) :
    (s'.totals k).col c = s'.recorded k c := by
  rw [h.col hp, h0, Store.recorded, Store.recorded, h.events, Table.total_append]

/-! ## Statements -/

@[simp] theorem putBudgets_eq_ok {rows : List BudgetRow} :
    s.putBudgets rows = .ok s' ↔ BudgetRow.Constraints rows ∧ { s with budgets := rows } = s' := by
  simp [putBudgets, apply_ite (· = Except.ok s')]

@[simp] theorem putSubreservations_eq_ok {rows : List SubreservationRow} : s.putSubreservations rows = .ok s' ↔
    SubreservationRow.Constraints rows ∧ { s with subreservations := rows } = s' := by
  simp [putSubreservations, apply_ite (· = Except.ok s')]

@[simp] theorem putNonceLeases_eq_ok {rows : List NonceLeaseRow} :
    s.putNonceLeases rows = .ok s' ↔ NonceLeaseRow.Constraints rows ∧ { s with nonceLeases := rows } = s' := by
  simp [putNonceLeases, apply_ite (· = Except.ok s')]

@[simp] theorem putWorkLeases_eq_ok {rows : List WorkLeaseRow} :
    s.putWorkLeases rows = .ok s' ↔ WorkLeaseRow.Constraints rows ∧ { s with workLeases := rows } = s' := by
  simp [putWorkLeases, apply_ite (· = Except.ok s')]

@[simp] theorem putViolations_eq_ok {rows : List ViolationRow} :
    s.putViolations rows = .ok s' ↔ ViolationRow.Constraints rows ∧ { s with violations := rows } = s' := by
  simp [putViolations, apply_ite (· = Except.ok s')]

@[simp] theorem putBudgetTotals_eq_ok {runID : String} {chainID : Int} {a : Amounts} :
    s.putBudgetTotals runID chainID a = .ok s' ↔
      a.Valid ∧ { s with budgetTotals := Function.update s.budgetTotals (runID, chainID) (some a) } = s' := by
  simp [putBudgetTotals, apply_ite (· = Except.ok s')]

@[simp] theorem putBatchBudgetTotals_eq_ok {runID batchID : String} {chainID : Int} {a : Amounts} :
    s.putBatchBudgetTotals runID batchID chainID a = .ok s' ↔ a.Valid ∧
      { s with batchBudgetTotals := Function.update s.batchBudgetTotals (runID, batchID, chainID) (some a) } = s' := by
  simp [putBatchBudgetTotals, apply_ite (· = Except.ok s')]

/-! ## Totals -/

section

variable {runID batchID : String} {chainID : Int} {delta : Amounts} {k : Scope}

theorem totalsRow_none (hk : k.batchID = none) : s.totalsRow k = s.budgetTotals (k.runID, k.chainID) := by
  rw [totalsRow, hk]

theorem totalsRow_some {b : String} (hk : k.batchID = some b) :
    s.totalsRow k = s.batchBudgetTotals (k.runID, b, k.chainID) := by
  rw [totalsRow, hk]

theorem covers_none (hk : k.batchID = none) :
    k.Covers runID batchID chainID ↔ (k.runID, k.chainID) = (runID, chainID) := by
  simp [Scope.Covers, hk]

theorem covers_some {b : String} (hk : k.batchID = some b) :
    k.Covers runID batchID chainID ↔ (k.runID, b, k.chainID) = (runID, batchID, chainID) := by
  simp only [Scope.Covers, hk, Option.mem_some_iff, Prod.mk.injEq]
  grind

/-- A row that is written for the scopes that cover it, and is worth `delta` more than before. -/
theorem totals_update {c : Column} (hr : s'.totalsRow k =
    if k.Covers runID batchID chainID then some (s.totals k + delta) else s.totalsRow k) :
    (s'.totals k).col c = (s.totals k).col c + if k.Covers runID batchID chainID then delta.col c else 0 := by
  rw [totals, hr]
  split
  · exact Amounts.col_add _ _ c
  · exact (add_zero _).symm

theorem changeRunTotals_eq_ok (h : s.changeRunTotals runID chainID delta = .ok s') :
    (∃ t, s' = { s with budgetTotals := t }) ∧ ∀ k, k.batchID = none → s'.totalsRow k =
      if (k.runID, k.chainID) = (runID, chainID) then (s.totalsRow k).map (· + delta) else s.totalsRow k := by
  rw [changeRunTotals] at h
  split at h
  · rename_i total ht
    obtain ⟨-, rfl⟩ := putBudgetTotals_eq_ok.mp h
    refine ⟨⟨_, rfl⟩, fun k hk => ?_⟩
    rw [totalsRow_none hk, totalsRow_none hk]
    show Function.update s.budgetTotals (runID, chainID) (some (total + delta)) (k.runID, k.chainID) = _
    rw [Function.update_apply]
    refine ite_congr rfl (fun he => ?_) fun _ => rfl
    rw [he, ht]
    rfl
  · rename_i ht
    obtain rfl := Except.ok.inj h
    refine ⟨⟨_, rfl⟩, fun k hk => ?_⟩
    split
    · rename_i he
      rw [totalsRow_none hk, he, ht]
      rfl
    · rfl

theorem changeBatchTotals_eq_ok (h : s.changeBatchTotals runID batchID chainID delta = .ok s') :
    (∃ t, s' = { s with batchBudgetTotals := t }) ∧ ∀ k b, k.batchID = some b → s'.totalsRow k =
      if (k.runID, b, k.chainID) = (runID, batchID, chainID) then some (s.totals k + delta) else s.totalsRow k := by
  have hw : ∀ a : Amounts, (∀ k : Scope, k.batchID = some batchID → (k.runID, k.chainID) = (runID, chainID) →
      a = s.totals k + delta) → s.putBatchBudgetTotals runID batchID chainID a = .ok s' →
      (∃ t, s' = { s with batchBudgetTotals := t }) ∧ ∀ k b, k.batchID = some b → s'.totalsRow k =
        if (k.runID, b, k.chainID) = (runID, batchID, chainID) then some (s.totals k + delta)
        else s.totalsRow k := fun a ha h => by
    obtain ⟨-, rfl⟩ := putBatchBudgetTotals_eq_ok.mp h
    refine ⟨⟨_, rfl⟩, fun k b hk => ?_⟩
    rw [totalsRow_some hk, totalsRow_some hk]
    show Function.update s.batchBudgetTotals (runID, batchID, chainID) (some a) (k.runID, b, k.chainID) = _
    rw [Function.update_apply]
    refine ite_congr rfl (fun he => ?_) fun _ => rfl
    obtain ⟨hr, rfl, hc⟩ := Prod.mk.injEq _ _ _ _ ▸ (Prod.mk.injEq _ _ _ _ ▸ he)
    rw [ha k hk (by rw [hr, hc])]
  rw [changeBatchTotals] at h
  split at h
  · rename_i batch hb
    refine hw _ (fun k hk he => ?_) h
    obtain ⟨hr, hc⟩ := Prod.mk.inj he
    rw [totals, totalsRow_some hk, hr, hc, hb]
    rfl
  · rename_i hb
    obtain ⟨-, h⟩ := revertIf_bind.mp h
    refine hw _ (fun k hk he => ?_) h
    obtain ⟨hr, hc⟩ := Prod.mk.inj he
    rw [totals, totalsRow_some hk, hr, hc, hb]
    show delta = ⟨0 + delta.reserved, 0 + delta.provisional, 0 + delta.finalized⟩
    simp only [zero_add]

/-- The totals that are written pass the checks of their rows. -/
theorem changeTotals_valid (h : s.changeTotals runID batchID chainID delta = .ok s') (k : Scope)
    (hk : (s.totals k).Valid) : (s'.totals k).Valid := by
  obtain ⟨s₁, h₁, h₂⟩ := bind_eq_ok.mp h
  have hupdate : ∀ {κ : Type} [DecidableEq κ] (t : κ → Option Amounts) (x y : κ) (a : Amounts), a.Valid →
      ((t y).getD 0).Valid → ((Function.update t x (some a) y).getD 0).Valid := fun t x y a ha ht => by
    rw [Function.update_apply]
    split
    · exact ha
    · exact ht
  cases hb : k.batchID with
  | none =>
    obtain ⟨⟨_, rfl⟩, -⟩ := changeBatchTotals_eq_ok h₂
    rw [totals, totalsRow_none hb] at hk ⊢
    rw [changeRunTotals] at h₁
    split at h₁
    · obtain ⟨ha, rfl⟩ := putBudgetTotals_eq_ok.mp h₁
      exact hupdate s.budgetTotals _ _ _ ha hk
    · exact Except.ok.inj h₁ ▸ hk
  | some b =>
    obtain ⟨⟨_, rfl⟩, -⟩ := changeRunTotals_eq_ok h₁
    rw [totals, totalsRow_some hb] at hk ⊢
    rw [changeBatchTotals] at h₂
    split at h₂
    · obtain ⟨ha, rfl⟩ := putBatchBudgetTotals_eq_ok.mp h₂
      exact hupdate s.batchBudgetTotals _ _ _ ha hk
    · obtain ⟨-, h₂⟩ := revertIf_bind.mp h₂
      obtain ⟨ha, rfl⟩ := putBatchBudgetTotals_eq_ok.mp h₂
      exact hupdate s.batchBudgetTotals _ _ _ ha hk

/-- What `_change_totals` writes, once the event of the change is recorded. -/
theorem changeTotals_eq_ok {e : BudgetEventRow} (h : s.changeTotals e.runID e.batchID e.chainID e.delta = .ok s') :
    (∃ t t', s' = { s with budgetTotals := t, batchBudgetTotals := t' }) ∧ Posted s (s'.event e) [e] := by
  have valid := changeTotals_valid h
  obtain ⟨s₁, h₁, h₂⟩ := bind_eq_ok.mp h
  obtain ⟨⟨t, rfl⟩, hr⟩ := changeRunTotals_eq_ok h₁
  obtain ⟨⟨t', rfl⟩, hb⟩ := changeBatchTotals_eq_ok h₂
  -- The rows of the scopes of a run and of a batch, as they are written.
  have hrun : ∀ k : Scope, k.batchID = none →
      (Store.event { s with budgetTotals := t, batchBudgetTotals := t' } e).totalsRow k =
        if k.Covers e.runID e.batchID e.chainID then (s.totalsRow k).map (· + e.delta) else s.totalsRow k :=
    fun k hk => by
      have hr := hr k hk
      rw [totalsRow_none hk] at hr
      rw [totalsRow_none hk]
      exact hr.trans (if_congr (covers_none hk).symm rfl rfl)
  have hbatch : ∀ (k : Scope) (b : String), k.batchID = some b →
      (Store.event { s with budgetTotals := t, batchBudgetTotals := t' } e).totalsRow k =
        if k.Covers e.runID e.batchID e.chainID then some (s.totals k + e.delta) else s.totalsRow k :=
    fun k b hk => by
      have hb := hb k b hk
      rw [totalsRow_some hk, totals, totalsRow_some hk] at hb
      rw [totalsRow_some hk, totals, totalsRow_some hk]
      exact hb.trans (if_congr (covers_some hk).symm rfl rfl)
  refine ⟨⟨t, t', rfl⟩, rfl, fun k hk => ?_, valid, fun hp k c => ?_⟩
  · cases hb : k.batchID with
    | none =>
      rw [hrun k hb]
      split
      · simpa using hk
      · exact hk
    | some b =>
      rw [hbatch k b hb]
      split
      · exact Option.some_ne_none _
      · exact hk
  · rw [Table.total_cons, Table.total_nil, add_zero]
    refine totals_update ?_
    cases hb : k.batchID with
    | none =>
      rw [hrun k hb]
      refine ite_congr rfl (fun hk => ?_) fun _ => rfl
      obtain ⟨a, ha⟩ := Option.ne_none_iff_exists'.mp (hp e List.mem_cons_self)
      obtain ⟨hr, hc⟩ := Prod.mk.inj ((covers_none hb).mp hk)
      rw [totals, totalsRow_none hb, hr, hc, ha]
      rfl
    | some b => exact hbatch k b hb

/-- What `_assert_capacity` checks. -/
theorem assertCapacity_eq_ok {requested credit : Int} :
    s.assertCapacity runID batchID chainID requested credit = .ok () ↔
      ∃ limit total, s.budgetLimits (runID, chainID) = some limit ∧ s.budgetTotals (runID, chainID) = some total ∧
        total.reserved + total.finalized - credit + requested ≤ limit.maxRunWei ∧
        (s.totals ⟨runID, some batchID, chainID⟩).reserved + (s.totals ⟨runID, some batchID, chainID⟩).finalized -
          credit + requested ≤ limit.maxBatchWei ∧
        limit.minimumRunnerBalanceWei ≤ limit.observedRunnerBalanceWei - total.reserved - requested := by
  simp only [assertCapacity, limit, orRevert_bind, revertIf_bind, revertIf_eq_ok, not_lt]
  constructor
  · rintro ⟨limit, hl, total, ht, hr, hb, hf⟩
    exact ⟨limit, total, hl, ht, hr, hb, hf⟩
  · rintro ⟨limit, total, hl, ht, hr, hb, hf⟩
    exact ⟨limit, hl, total, ht, hr, hb, hf⟩

end

end Xir.Impl.XirLab
