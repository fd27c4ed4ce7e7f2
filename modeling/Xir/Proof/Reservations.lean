import Mathlib.Data.List.Induction
import Xir.Framework.Run
import Xir.Proof.Leases

/-!
# What holds of the reservations, whatever is called

`Sound` is kept by every move (`Sound.of_move`) and thus by every run. A stage
belongs to one row of `budgets`; a reservation has its first stage, so no second
one gets its identifier (`Sound.fresh`); and as long as the source of a
reservation is not in flight, none of its stages has a nonce lineage.
-/

namespace Xir.Impl.XirLab

open Store LeaseBudgetManager

variable {s s' : Store}

/-! ## Amounts by chain -/

section

variable {totals : List (PlannedStageBudget × Int)}

theorem byChain_concat (t : PlannedStageBudget × Int) :
    byChain (totals ++ [t]) = Table.bump t.1.chainID t.2 (byChain totals) := List.foldl_concat ..

theorem byChain_nodup : ((byChain totals).map Prod.fst).Nodup := by
  induction totals using List.reverseRecOn with
  | nil => exact List.nodup_nil
  | append_singleton totals t ih =>
    rw [byChain_concat]
    exact Table.nodup_bump ih

theorem mem_byChain {c : Int} : c ∈ (byChain totals).map Prod.fst ↔ ∃ t ∈ totals, t.1.chainID = c := by
  induction totals using List.reverseRecOn with
  | nil => simp [byChain]
  | append_singleton totals t ih =>
    rw [byChain_concat, Table.mem_bump, ih]
    simp only [List.mem_append, List.mem_singleton]
    grind

theorem total_byChain (P : Int → Prop) [DecidablePred P] :
    Table.total (fun c => if P c.1 then c.2 else 0) (byChain totals) =
    Table.total (fun t => if P t.1.chainID then t.2 else 0) totals := by
  induction totals using List.reverseRecOn with
  | nil => rfl
  | append_singleton totals t ih =>
    rw [byChain_concat, Table.total_bump, ih, Table.total_append, Table.total_cons, Table.total_nil, add_zero]

/-- A sum over the rows of a new reservation that does not depend on their indices. -/
theorem total_plannedRow {r a : String} {g : SubreservationRow → Int} {h : PlannedStageBudget × Int → Int}
    (hg : ∀ i t, g (plannedRow r a i t) = h t) :
    Table.total g (totals.mapIdx (plannedRow r a)) = Table.total h totals := by
  induction totals using List.reverseRecOn with
  | nil => rfl
  | append_singleton totals t ih =>
    rw [List.mapIdx_concat, Table.total_append, Table.total_append, ih, Table.total_cons, Table.total_nil,
      Table.total_cons, Table.total_nil, hg]

theorem mem_plannedRow {r a : String} {sub : SubreservationRow} (h : sub ∈ totals.mapIdx (plannedRow r a)) :
    ∃ i, ∃ t ∈ totals, sub = plannedRow r a i t := by
  obtain ⟨i, hi, rfl⟩ := List.mem_mapIdx.mp h
  exact ⟨i, _, List.getElem_mem hi, rfl⟩

theorem stageTotals_ne_nil {stages : List PlannedStageBudget} (h : stageTotals stages = .ok totals)
    (hn : stages ≠ []) : totals ≠ [] := by
  cases stages with
  | nil => exact absurd rfl hn
  | cons stage stages =>
    obtain ⟨t, -, ts, -, rfl⟩ := mapM_cons_eq_ok.mp h
    exact List.cons_ne_nil t ts

end

/-- A pending lineage is not settled. -/
theorem pendingState_unsettled {state : String} {p : NonceState × SubState} (h : pendingState state = some p) :
    p.2 ≠ .finalized ∧ p.2 ≠ .released := by
  unfold pendingState at h
  split at h <;> cases h <;> exact ⟨nofun, nofun⟩

/-! ## Soundness -/

/-- What holds of a stage. -/
structure SubreservationRow.Sound (sub : SubreservationRow) : Prop where
  unbound : sub.lineageID = none →
    sub.provisionalWei = 0 ∧ sub.finalizedWei = 0 ∧ (sub.state = .reserved ∨ sub.state = .released)
  settled : sub.state = .finalized → sub.provisionalWei = 0
  provisional : sub.provisionalWei ≤ sub.reservedWei
  finalized : sub.finalizedWei ≤ sub.reservedWei
  allocated : sub.allocatedWei ≤ sub.reservedWei

/-- The events of a reservation that is admitted are about rows of totals that exist. -/
theorem chains_listed {r runID batchID : String} {chains : List (Int × Int)}
    (capacity : ∀ c ∈ chains, s.assertCapacity runID batchID c.1 c.2 0 = .ok ()) :
    ∀ e ∈ chains.map (chainEvent r runID batchID), s.budgetTotals (e.runID, e.chainID) ≠ none := by
  intro e he hn
  obtain ⟨c, hc, rfl⟩ := List.mem_map.mp he
  obtain ⟨_, total, -, ht, -⟩ := assertCapacity_eq_ok.mp (capacity c hc)
  exact Option.some_ne_none total (ht.symm.trans hn)

/-- The rows of a reservation are in flight together. -/
def Uniform (rows : List BudgetRow) : Prop :=
  ∀ b ∈ rows, ∀ b' ∈ rows, b.reservationID = b'.reservationID → b.sourceInFlight = b'.sourceInFlight

structure Sound (s : Store) : Prop where
  valid : s.Valid
  stages : ∀ sub ∈ s.subreservations, sub.Sound
  owned : ∀ sub ∈ s.subreservations, ∃ b ∈ s.budgets, b.key = sub.key
  first : ∀ b ∈ s.budgets, ∃ sub ∈ s.subreservations, sub.subreservationID = subreservationID b.reservationID 0
  listed : ∀ b ∈ s.budgets, s.budgetTotals (b.runID, b.chainID) ≠ none
  uniform : Uniform s.budgets
  /-- A stage has no lineage as long as its source is not in flight, and holds its amount unless it is released. -/
  unstarted : ∀ sub ∈ s.subreservations, ∀ b ∈ s.budgets, b.key = sub.key → b.sourceInFlight = false →
    sub.lineageID = none ∧ (b.state ≠ .released → sub.state = .reserved)
  leased : ∀ n ∈ s.nonceLeases, ∃ sub ∈ s.subreservations,
    sub.lineageID = some n.lineageID ∧ sub.reservationID = n.reservationID
  stored : ∀ k, (s.totals k).Valid

theorem Store.Valid.budget_eq (h : s.Valid) {b b' : BudgetRow} (hb : b ∈ s.budgets) (hb' : b' ∈ s.budgets)
    (hk : b.key = b'.key) : b = b' :=
  Table.Unique.eq h.budgets.2.1 hb hb' (congrArg some hk) rfl

theorem Store.Valid.sub_eq (h : s.Valid) {sub sub' : SubreservationRow} (hs : sub ∈ s.subreservations)
    (hs' : sub' ∈ s.subreservations) (hk : sub.subreservationID = sub'.subreservationID) : sub = sub' :=
  Table.Unique.eq h.subs.2.1 hs hs' (congrArg some hk) rfl

theorem Store.Valid.lineage_eq (h : s.Valid) {sub sub' : SubreservationRow} {l : String} (hs : sub ∈ s.subreservations)
    (hs' : sub' ∈ s.subreservations) (hl : sub.lineageID = some l) (hl' : sub'.lineageID = some l) : sub = sub' :=
  Table.Unique.eq h.subs.2.2.2 hs hs' hl hl'

theorem Uniform.of_forall₂ {rows rows' : List BudgetRow} (h : Uniform rows)
    (hf : List.Forall₂ (fun b b' => b'.fixed = b.fixed ∧ b'.sourceInFlight = b.sourceInFlight) rows rows') :
    Uniform rows' := by
  intro b' hb' c' hc' hr
  obtain ⟨b, hb, he, hi⟩ := Table.forall₂_left hf hb'
  obtain ⟨c, hc, he', hi'⟩ := Table.forall₂_left hf hc'
  have hr' : b.fixed.reservationID = c.fixed.reservationID := he ▸ he' ▸ hr
  exact hi.trans ((h b hb c hc hr').trans hi'.symm)

namespace Sound

/-- Tables that the reservations do not depend on. -/
theorem congr (h : Sound s) (hb : s'.budgets = s.budgets) (hs : s'.subreservations = s.subreservations)
    (hn : s'.nonceLeases.map (fun n => (n.lineageID, n.reservationID)) =
      s.nonceLeases.map fun n => (n.lineageID, n.reservationID))
    (ht : ∀ x, s.budgetTotals x ≠ none → s'.budgetTotals x ≠ none) (hk : ∀ k, (s'.totals k).Valid) : Sound s' where
  valid := ⟨hb ▸ h.valid.budgets, hs ▸ h.valid.subs⟩
  stages := hs ▸ h.stages
  owned := hb ▸ hs ▸ h.owned
  first := hb ▸ hs ▸ h.first
  listed := fun b hb' => ht _ (h.listed b (hb ▸ hb'))
  uniform := hb ▸ h.uniform
  unstarted := hb ▸ hs ▸ h.unstarted
  leased := fun n hn' => by
    obtain ⟨n', hn', he⟩ := List.mem_map.mp (hn ▸ List.mem_map_of_mem hn')
    obtain ⟨hl, hr⟩ := Prod.mk.inj he
    obtain ⟨sub, hs', hsl, hsr⟩ := h.leased n' hn'
    exact ⟨sub, hs ▸ hs', hsl.trans (congrArg some hl), hsr.trans hr⟩
  stored := hk

/-- The row of a stage whose lineage is bound is in flight, and so is its reservation. -/
theorem inFlight (h : Sound s) {l : String} {sub : SubreservationRow} {b b' : BudgetRow} (hb : Bound s l sub b)
    (hb' : b' ∈ s.budgets) (hr : b'.reservationID = sub.reservationID) : b'.sourceInFlight = true := by
  have hi : b.sourceInFlight = true := Bool.not_eq_false _ ▸ fun hn =>
    Option.some_ne_none l (hb.lineage ▸ (h.unstarted sub hb.row b hb.budget hb.key hn).1)
  exact (h.uniform b' hb' b hb.budget (hr.trans (congrArg Prod.fst hb.key).symm)).trans hi

/-- The events of a lineage are about rows of totals that exist. -/
theorem line_listed (h : Sound s) {l eventType : String} {sub : SubreservationRow} {b : BudgetRow} {delta : Amounts}
    (of : Bound s l sub b) :
    ∀ e ∈ [lineageRow sub b eventType delta], s.budgetTotals (e.runID, e.chainID) ≠ none := by
  intro e he hn
  obtain rfl := List.mem_singleton.mp he
  have hk := congrArg Prod.snd of.key
  exact h.listed b of.budget ((congrArg s.budgetTotals (congrArg (Prod.mk b.runID) hk)).trans hn)

/-- So are those of a cancelled reservation. -/
theorem rows_listed (h : Sound s) (p : BudgetRow → Bool) :
    ∀ e ∈ (s.budgets.filter p).map cancelEvent, s.budgetTotals (e.runID, e.chainID) ≠ none := by
  intro e he
  obtain ⟨b, hb, rfl⟩ := List.mem_map.mp he
  exact h.listed b (List.mem_filter.mp hb).1

/-- A reservation that can be inserted is new. -/
theorem fresh (h : Sound s) {r a : String} {t : PlannedStageBudget × Int} {totals : List (PlannedStageBudget × Int)}
    (hu : SubreservationRow.Constraints (s.subreservations ++ (t :: totals).mapIdx (plannedRow r a))) {b : BudgetRow}
    (hb : b ∈ s.budgets) : b.reservationID ≠ r := by
  intro hr
  obtain ⟨sub, hs, hi⟩ := h.first b hb
  have hm : plannedRow r a 0 t ∈ (t :: totals).mapIdx (plannedRow r a) := by
    rw [List.mapIdx_cons]
    exact List.mem_cons_self
  exact hu.2.1.ne_of_append hs hm (congrArg some hi) (hr ▸ rfl)

/-! ## Moves -/

theorem of_reserved (h : Sound s) {r a runID batchID : String} {totals : List (PlannedStageBudget × Int)}
    (hn : totals ≠ []) (hb : s'.budgets = s.budgets ++ (byChain totals).map (chainRow r a runID batchID))
    (hs : s'.subreservations = s.subreservations ++ totals.mapIdx (plannedRow r a))
    (hl : s'.nonceLeases = s.nonceLeases) (ht : ∀ x, s.budgetTotals x ≠ none → s'.budgetTotals x ≠ none)
    (hc : ∀ c ∈ byChain totals, s.budgetTotals (runID, c.1) ≠ none) (hk : ∀ k, (s'.totals k).Valid) (hv : s'.Valid) :
    Sound s' := by
  obtain ⟨t₀, rest, rfl⟩ := List.exists_cons_of_ne_nil hn
  have fresh : ∀ b ∈ s.budgets, b.reservationID ≠ r := fun b => h.fresh (hs ▸ hv.subs)
  have old : ∀ sub ∈ s.subreservations, sub.reservationID ≠ r := fun sub hsub => by
    obtain ⟨b, hb, hk⟩ := h.owned sub hsub
    exact fun hr => fresh b hb ((congrArg Prod.fst hk).trans hr)
  have hmb : ∀ b ∈ s'.budgets, b ∈ s.budgets ∨ ∃ c ∈ byChain (t₀ :: rest), b = chainRow r a runID batchID c :=
    fun b hb' => by
      rcases List.mem_append.mp (hb ▸ hb') with hb' | hb'
      · exact .inl hb'
      · obtain ⟨c, hc, rfl⟩ := List.mem_map.mp hb'
        exact .inr ⟨c, hc, rfl⟩
  have hms : ∀ sub ∈ s'.subreservations, sub ∈ s.subreservations ∨
      ∃ i, ∃ t ∈ t₀ :: rest, sub = plannedRow r a i t := fun sub hs' =>
    (List.mem_append.mp (hs ▸ hs')).imp_right mem_plannedRow
  refine ⟨hv, fun sub hsub => ?_, fun sub hsub => ?_, fun b hb' => ?_, fun b hb' => ?_, fun b hb' b' hb'' hr => ?_,
    fun sub hsub b hb' hk hf => ?_, fun n hn' => ?_, hk⟩
  · rcases hms sub hsub with hs' | ⟨i, t, -, rfl⟩
    · exact h.stages sub hs'
    · have h0 : 0 ≤ t.2 := (hv.subs.1 _ hsub).1.1
      exact ⟨fun _ => ⟨rfl, rfl, .inl rfl⟩, fun _ => rfl, h0, h0, h0⟩
  · rcases hms sub hsub with hs' | ⟨i, t, ht', rfl⟩
    · obtain ⟨b, hb', hk⟩ := h.owned sub hs'
      exact ⟨b, hb ▸ List.mem_append_left _ hb', hk⟩
    · obtain ⟨c, hc', he⟩ := List.mem_map.mp (mem_byChain.mpr ⟨t, ht', rfl⟩)
      exact ⟨chainRow r a runID batchID c, hb ▸ List.mem_append_right _ (List.mem_map_of_mem hc'),
        congrArg (Prod.mk r) he⟩
  · rcases hmb b hb' with hb' | ⟨c, -, rfl⟩
    · obtain ⟨sub, hs', hi⟩ := h.first b hb'
      exact ⟨sub, hs ▸ List.mem_append_left _ hs', hi⟩
    · refine ⟨plannedRow r a 0 t₀, hs ▸ List.mem_append_right _ ?_, rfl⟩
      rw [List.mapIdx_cons]
      exact List.mem_cons_self
  · rcases hmb b hb' with hb' | ⟨c, hc', rfl⟩
    · exact ht _ (h.listed b hb')
    · exact ht _ (hc c hc')
  · rcases hmb b hb' with hb' | ⟨c, -, rfl⟩
    · rcases hmb b' hb'' with hb'' | ⟨c, -, rfl⟩
      · exact h.uniform b hb' b' hb'' hr
      · exact absurd hr (fresh b hb')
    · rcases hmb b' hb'' with hb'' | ⟨c, -, rfl⟩
      · exact absurd hr.symm (fresh b' hb'')
      · rfl
  · rcases hms sub hsub with hs' | ⟨i, t, -, rfl⟩
    · rcases hmb b hb' with hb' | ⟨c, -, rfl⟩
      · exact h.unstarted sub hs' b hb' hk hf
      · exact absurd (congrArg Prod.fst hk).symm (old sub hs')
    · exact ⟨rfl, fun _ => rfl⟩
  · obtain ⟨sub, hs', hsl⟩ := h.leased n (hl ▸ hn')
    exact ⟨sub, hs ▸ List.mem_append_left _ hs', hsl⟩

/-- Rows of `budgets` that are rewritten, which start no reservation in part. -/
theorem of_budgets (h : Sound s) (hf : List.Forall₂ (fun b b' => b'.fixed = b.fixed ∧
      (b'.sourceInFlight = false → b.sourceInFlight = false ∧ (b'.state ≠ .released → b.state ≠ .released)))
        s.budgets s'.budgets)
    (hu : Uniform s'.budgets) (hs : s'.subreservations = s.subreservations) (hn : s'.nonceLeases = s.nonceLeases)
    (ht : ∀ x, s.budgetTotals x ≠ none → s'.budgetTotals x ≠ none) (hk : ∀ k, (s'.totals k).Valid) (hv : s'.Valid) :
    Sound s' where
  valid := hv
  stages := hs ▸ h.stages
  owned := fun sub hsub => by
    obtain ⟨b, hb, hk⟩ := h.owned sub (hs ▸ hsub)
    obtain ⟨b', hb', he, -⟩ := Table.forall₂_right hf hb
    have hk' : b'.fixed.key = b.fixed.key := congrArg BudgetRow.key he
    exact ⟨b', hb', hk'.trans hk⟩
  first := fun b' hb' => by
    obtain ⟨b, hb, he, -⟩ := Table.forall₂_left hf hb'
    have hr : b'.fixed.reservationID = b.fixed.reservationID := congrArg BudgetRow.reservationID he
    obtain ⟨sub, hsub, hi⟩ := h.first b hb
    exact ⟨sub, hs ▸ hsub, hi.trans (congrArg (subreservationID · 0) hr.symm)⟩
  listed := fun b' hb' => by
    obtain ⟨b, hb, he, -⟩ := Table.forall₂_left hf hb'
    have hx : (b'.fixed.runID, b'.fixed.chainID) = (b.fixed.runID, b.fixed.chainID) :=
      congrArg (fun b => (b.runID, b.chainID)) he
    exact ht _ (hx ▸ h.listed b hb)
  uniform := hu
  unstarted := fun sub hsub b' hb' hk hi => by
    obtain ⟨b, hb, he, hi'⟩ := Table.forall₂_left hf hb'
    have hk' : b'.fixed.key = b.fixed.key := congrArg BudgetRow.key he
    obtain ⟨hl, hr⟩ := h.unstarted sub (hs ▸ hsub) b hb (hk'.symm.trans hk) (hi' hi).1
    exact ⟨hl, fun hn => hr ((hi' hi).2 hn)⟩
  leased := hn ▸ hs ▸ h.leased
  stored := hk

/-- Stages that are rewritten. -/
theorem of_stages (h : Sound s) {p : SubreservationRow → Prop} [DecidablePred p]
    {f : SubreservationRow → SubreservationRow} (hs : s'.subreservations = Table.update p f s.subreservations)
    (hf : ∀ sub, (f sub).fixed = sub.fixed) (hr : ∀ sub ∈ s.subreservations, p sub → (f sub).Sound)
    (hu : ∀ sub ∈ s.subreservations, p sub → ∀ b ∈ s.budgets, b.key = sub.key → b.sourceInFlight = false →
      (f sub).lineageID = none ∧ (b.state ≠ .released → (f sub).state = .reserved))
    (hb : s'.budgets = s.budgets)
    (hn : ∀ n ∈ s'.nonceLeases, ∃ sub ∈ s'.subreservations,
      sub.lineageID = some n.lineageID ∧ sub.reservationID = n.reservationID)
    (ht : ∀ x, s.budgetTotals x ≠ none → s'.budgetTotals x ≠ none) (hst : ∀ k, (s'.totals k).Valid) (hv : s'.Valid) :
    Sound s' := by
  have hk : ∀ sub, (f sub).key = sub.key := fun sub =>
    (congrArg SubreservationRow.key (hf sub) : (f sub).fixed.key = sub.fixed.key)
  refine ⟨hv, fun sub' hs' => ?_, fun sub' hs' => ?_, fun b hb' => ?_, fun b hb' => ht _ (h.listed b (hb ▸ hb')),
    hb ▸ h.uniform, fun sub' hs' b hb' hk' hi => ?_, hn, hst⟩
  · obtain ⟨sub, hsub, rfl⟩ := Table.mem_update.mp (hs ▸ hs')
    split
    · exact hr sub hsub ‹_›
    · exact h.stages sub hsub
  · obtain ⟨sub, hsub, rfl⟩ := Table.mem_update.mp (hs ▸ hs')
    obtain ⟨b, hb', hk'⟩ := h.owned sub hsub
    refine ⟨b, hb ▸ hb', ?_⟩
    split
    · exact hk'.trans (hk sub).symm
    · exact hk'
  · obtain ⟨sub, hsub, hi⟩ := h.first b (hb ▸ hb')
    refine ⟨_, hs ▸ Table.mem_update.mpr ⟨sub, hsub, rfl⟩, ?_⟩
    split
    · have hi' : (f sub).fixed.subreservationID = sub.fixed.subreservationID :=
        congrArg SubreservationRow.subreservationID (hf sub)
      exact hi'.trans hi
    · exact hi
  · obtain ⟨sub, hsub, rfl⟩ := Table.mem_update.mp (hs ▸ hs')
    by_cases hp : p sub
    · rw [if_pos hp] at hk' ⊢
      exact hu sub hsub hp b (hb ▸ hb') (hk'.trans (hk sub)) hi
    · rw [if_neg hp] at hk' ⊢
      exact h.unstarted sub hsub b (hb ▸ hb') hk' hi

/-- The leases of nonces after stages were rewritten that keep their lineage. -/
theorem leased_update (h : Sound s) {p : SubreservationRow → Prop} [DecidablePred p]
    {f : SubreservationRow → SubreservationRow}
    (hl : ∀ sub ∈ s.subreservations, p sub → ∀ l, sub.lineageID = some l → (f sub).lineageID = some l)
    (hf : ∀ sub, (f sub).reservationID = sub.reservationID) {n : NonceLeaseRow} (hn : n ∈ s.nonceLeases) :
    ∃ sub ∈ Table.update p f s.subreservations,
      sub.lineageID = some n.lineageID ∧ sub.reservationID = n.reservationID := by
  obtain ⟨sub, hsub, hsl, hsr⟩ := h.leased n hn
  refine ⟨_, Table.mem_update.mpr ⟨sub, hsub, rfl⟩, ?_⟩
  split
  · exact ⟨hl sub hsub ‹_› _ hsl, (hf sub).trans hsr⟩
  · exact ⟨hsl, hsr⟩

/-- What a call makes of the stage of a lineage. -/
theorem of_write {call : Call} {l : String} {sub : SubreservationRow} {b : BudgetRow} {w : LineageWrite}
    (h : Write s sub b call l w) (hs : sub.Sound) (hl : sub.lineageID = some l) (h0 : 0 ≤ sub.reservedWei) :
    (w.sub sub).Sound := by
  have hb : ∀ {P : Prop}, sub.lineageID = none → P := fun hn => absurd (hl ▸ hn) (Option.some_ne_none l)
  obtain ⟨-, hf, hp, hz, ha⟩ := hs
  cases h with
  | pending accepted => exact ⟨hb, fun he => absurd he (pendingState_unsettled accepted).1, hp, hz, ha⟩
  | included _ _ fits => exact ⟨hb, nofun, fits, hz, ha⟩
  | finalized _ _ _ fits => exact ⟨hb, fun _ => rfl, h0, fits, ha⟩
  | dead => exact ⟨hb, nofun, hp, hz, ha⟩
  | reopenIncluded => exact ⟨hb, nofun, h0, hz, ha⟩
  | reopenFinalized => exact ⟨hb, nofun, hp, h0, ha⟩

end Sound

/-- What a call makes of a stage and of a nonce, it makes of their states and amounts only. -/
theorem Write.fixed {call : Call} {l : String} {sub : SubreservationRow} {b : BudgetRow} {w : LineageWrite}
    (h : Write s sub b call l w) : (∀ r, (w.sub r).fixed = r.fixed ∧ (w.sub r).lineageID = r.lineageID) ∧
      ∀ n, (w.nonce n).lineageID = n.lineageID ∧ (w.nonce n).reservationID = n.reservationID := by
  cases h <;> exact ⟨fun _ => ⟨rfl, rfl⟩, fun _ => ⟨rfl, rfl⟩⟩

theorem LineageWrite.key_eq {call : Call} {l : String} {sub : SubreservationRow} {b : BudgetRow} {w : LineageWrite}
    (h : Write s sub b call l w) (r : SubreservationRow) : (w.sub r).reservationID = r.reservationID :=
  (congrArg SubreservationRow.reservationID (h.fixed.1 r).1 : (w.sub r).fixed.reservationID = r.fixed.reservationID)

/-- Every move keeps the reservations sound. -/
theorem Sound.of_move {call : Call} (h : Sound s) (hm : Move s call s') : Sound s' := by
  cases hm with
  | idle => exact h
  | work => exact h.congr rfl rfl rfl (fun _ ht => ht) h.stored
  | configured hc =>
    obtain ⟨_, _, rfl⟩ := hc.frame
    exact h.congr rfl rfl rfl (fun x hx => hc.present ⟨x.1, none, x.2⟩ hx) fun k => hc.totals k ▸ h.stored k
  | reserved planned nonempty _ _ _ _ capacity frame posted valid =>
    obtain ⟨t, t', rfl⟩ := frame
    refine h.of_reserved (stageTotals_ne_nil planned nonempty) rfl rfl rfl
      (fun x hx => posted.present ⟨x.1, none, x.2⟩ hx) (fun c hc => ?_)
      (fun k => posted.valid k (h.stored k)) (valid h.valid)
    obtain ⟨_, total, -, ht, -⟩ := assertCapacity_eq_ok.mp (capacity c hc)
    exact ht ▸ Option.some_ne_none total
  | @marked r _ _ _ _ _ _ _ _ frame valid =>
    subst frame
    refine h.of_budgets (Table.forall₂_update fun b _ => ?_) (fun b hb b' hb' hr => ?_) rfl rfl (fun _ ht => ht)
      h.stored (valid h.valid)
    · split
      · exact ⟨rfl, nofun⟩
      · exact ⟨rfl, fun hi => ⟨hi, id⟩⟩
    · obtain ⟨b₀, hb₀, rfl⟩ := Table.mem_update.mp hb
      obtain ⟨b₁, hb₁, rfl⟩ := Table.mem_update.mp hb'
      by_cases h₀ : b₀.reservationID = r
      · by_cases h₁ : b₁.reservationID = r
        · rw [if_pos h₀, if_pos h₁]
        · rw [if_pos h₀, if_neg h₁] at hr
          exact absurd (hr.symm.trans h₀) h₁
      · by_cases h₁ : b₁.reservationID = r
        · rw [if_neg h₀, if_pos h₁] at hr
          exact absurd (hr.trans h₁) h₀
        · rw [if_neg h₀, if_neg h₁] at hr ⊢
          exact h.uniform b₀ hb₀ b₁ hb₁ hr
  | @again _ l r k _ _ nonce requested _ sub _ row _ _ started fits frame valid =>
    subst frame
    refine h.of_stages rfl (fun _ => rfl) (fun r hr hi => ?_) (fun r hr hi b hb hk hf => ?_) rfl (fun n hn => ?_)
      (fun _ ht => ht) h.stored (valid h.valid)
    · obtain rfl := h.valid.sub_eq hr row hi
      obtain ⟨hu, hs, hp, hz, ha⟩ := h.stages r hr
      exact ⟨hu, hs, hp, hz, max_le ha fits⟩
    · exact h.unstarted r hr b hb hk hf
    · refine h.leased_update ?_ ?_ hn
      · exact fun _ _ _ _ hl => hl
      · exact fun _ => rfl
  | @bound _ l r k _ _ nonce requested _ sub _ row of stage started nonneg fits unbound frame valid =>
    subst frame
    have only : ∀ r ∈ s.subreservations, r.subreservationID = sub.subreservationID → r = sub := fun r hr hi =>
      h.valid.sub_eq hr row hi
    refine h.of_stages rfl (fun _ => rfl) (fun r hr hi => ?_) (fun r hr hi b hb hk hf => ?_) rfl (fun n hn => ?_)
      (fun _ ht => ht) h.stored (valid h.valid)
    · obtain rfl := only r hr hi
      obtain ⟨hu, hs, hp, hz, -⟩ := h.stages r hr
      exact ⟨nofun, nofun, hp, hz, fits⟩
    · obtain rfl := only r hr hi
      obtain ⟨b', hb', hk', ht⟩ := started
      obtain rfl := h.valid.budget_eq hb hb' (hk.trans hk'.symm)
      exact absurd (ht.symm.trans hf) nofun
    · rcases List.mem_append.mp hn with hn | hn
      · refine h.leased_update (fun r hr hi l hl => ?_) ?_ hn
        · obtain rfl := only r hr hi
          exact absurd (unbound.symm.trans hl) nofun
        · exact fun _ => rfl
      · obtain rfl := List.mem_singleton.mp hn
        refine ⟨_, Table.mem_update.mpr ⟨sub, row, rfl⟩, ?_⟩
        rw [if_pos rfl]
        exact ⟨rfl, of⟩
  | @wrote _ l sub b w budgets _ of write keeps frame posted valid =>
    obtain ⟨t, t', rfl⟩ := frame
    have hv := valid h.valid
    have hs : Sound { s with
        subreservations := Table.update (fun r => r.lineageID = some l) w.sub s.subreservations
        nonceLeases := Table.update (fun n => n.lineageID = l) w.nonce s.nonceLeases } := by
      refine h.of_stages rfl (fun r => (write.fixed.1 r).1) (fun r hr hl => ?_) (fun r hr hl b' hb' hk hf => ?_) rfl
        (fun n hn => ?_) (fun _ ht => ht) h.stored ⟨h.valid.budgets, hv.subs⟩
      · obtain rfl := h.valid.lineage_eq hr of.row hl of.lineage
        exact Sound.of_write write (h.stages r hr) hl (h.valid.subs.1 r hr).1.1
      · exact absurd (hl.symm.trans (h.unstarted r hr b' hb' hk hf).1) nofun
      · obtain ⟨n, hn', rfl⟩ := Table.mem_update.mp hn
        obtain ⟨r, hr, hrl, hrr⟩ := h.leased_update (p := fun r => r.lineageID = some l) (f := w.sub)
          (fun r _ _ l hl => (write.fixed.1 r).2.trans hl) (LineageWrite.key_eq write) hn'
        refine ⟨r, hr, ?_⟩
        split
        · exact ⟨hrl.trans (congrArg some (write.fixed.2 n).1.symm), hrr.trans (write.fixed.2 n).2.symm⟩
        · exact ⟨hrl, hrr⟩
    have kept := (List.forall₂_and_left _ _).mpr ⟨fun x (hx : x ∈ s.budgets) => hx, keeps⟩
    refine hs.of_budgets (kept.imp fun x x' hx => ⟨hx.2.1, fun hi => ⟨hx.2.2.1 ▸ hi, fun hn => ?_⟩⟩)
      (h.uniform.of_forall₂ (keeps.imp fun _ _ hx => ⟨hx.1, hx.2.1⟩)) rfl rfl
        (fun x hx => posted.present ⟨x.1, none, x.2⟩ hx)
      (fun k => posted.valid k (h.stored k)) hv
    by_cases hr : x.reservationID = sub.reservationID
    · exact absurd ((h.inFlight of hx.1 hr).symm.trans (hx.2.2.1.symm.trans hi)) nofun
    · exact hx.2.2.2 hr ▸ hn
  | halted => exact h.congr rfl rfl rfl (fun _ ht => ht) h.stored
  | @released r _ released =>
    obtain ⟨-, unstarted, ⟨t, t', rfl⟩, posted, hv⟩ := released
    have hb : Sound { s with
        budgets :=
          Table.update (fun b => b.reservationID = r) (fun b => { b with state := .released }) s.budgets } := by
      refine h.of_budgets (Table.forall₂_update fun b _ => ?_) (h.uniform.of_forall₂
        (Table.forall₂_update fun b _ => ?_)) rfl rfl (fun _ ht => ht) h.stored ⟨hv.budgets, h.valid.subs⟩
      · split
        · exact ⟨rfl, fun hi => ⟨hi, fun hn => absurd rfl hn⟩⟩
        · exact ⟨rfl, fun hi => ⟨hi, id⟩⟩
      · split <;> exact ⟨rfl, rfl⟩
    -- A stage of the reservation has no lineage, and its row is released.
    have stage : ∀ sub ∈ s.subreservations, sub.reservationID = r →
        ∃ b ∈ s.budgets, b.key = sub.key ∧ b.reservationID = r ∧ sub.lineageID = none := fun sub hs hr => by
      obtain ⟨b, hb, hk⟩ := h.owned sub hs
      have hbr : b.reservationID = r := (congrArg Prod.fst hk).trans hr
      exact ⟨b, hb, hk, hbr, (h.unstarted sub hs b hb hk (unstarted b hb hbr)).1⟩
    refine hb.of_stages rfl (fun _ => rfl) (fun sub hs hr => ?_) (fun sub hs hr b hb' hk _ => ⟨?_, fun hn => ?_⟩) rfl
      (fun n hn => ?_) (fun x hx => posted.present ⟨x.1, none, x.2⟩ hx) (fun k => posted.valid k (h.stored k)) hv
    · obtain ⟨_, -, -, -, hl⟩ := stage sub hs hr
      obtain ⟨hu, -, hp, hz, ha⟩ := h.stages sub hs
      exact ⟨fun _ => ⟨(hu hl).1, (hu hl).2.1, .inr rfl⟩, nofun, hp, hz, ha⟩
    · obtain ⟨_, -, -, -, hl⟩ := stage sub hs hr
      exact hl
    · obtain ⟨b₀, -, rfl⟩ := Table.mem_update.mp hb'
      by_cases hb₀ : b₀.reservationID = r
      · rw [if_pos hb₀] at hn
        exact absurd rfl hn
      · rw [if_neg hb₀] at hk
        exact absurd ((congrArg Prod.fst hk).trans hr) hb₀
    · refine h.leased_update ?_ ?_ hn
      · exact fun _ _ _ _ hl => hl
      · exact fun _ => rfl

/-! ## Runs -/

theorem Sound.of_step {e : Option Call} (h : Sound s) (hs : Step s e s') : Sound s' := by
  cases hs with
  | call call => exact h.of_move (call.after_move s)
  | others same =>
    have hn : s'.nonceLeases.map (fun n => (n.lineageID, n.reservationID)) =
        s.nonceLeases.map fun n => (n.lineageID, n.reservationID) := by
      have hm := congrArg (List.map fun n : NonceLeaseRow => (n.lineageID, n.reservationID)) same.nonceLeases
      rw [List.map_map, List.map_map] at hm
      exact hm
    refine h.congr same.budgets same.subreservations hn (fun x hx => same.budgetTotals ▸ hx) fun k => ?_
    have hk : s'.totals k = s.totals k := by
      rw [totals, totalsRow, totals, totalsRow, same.budgetTotals, same.batchBudgetTotals]
    exact hk ▸ h.stored k

/-- A store in which nothing was leased or reserved yet. -/
def Unused (s : Store) : Prop := SameLeases .empty s

theorem Unused.sound (h : Unused s) : Sound s := by
  have hb : s.budgets = [] := h.budgets
  have hs : s.subreservations = [] := h.subreservations
  have hn : s.nonceLeases = [] := List.map_eq_nil_iff.mp h.nonceLeases
  have noBudget : ∀ b, b ∉ s.budgets := fun b hm => absurd (hb ▸ hm) List.not_mem_nil
  have noStage : ∀ sub, sub ∉ s.subreservations := fun sub hm => absurd (hs ▸ hm) List.not_mem_nil
  refine ⟨⟨?_, ?_⟩, fun sub hm => absurd hm (noStage sub), fun sub hm => absurd hm (noStage sub),
    fun b hm => absurd hm (noBudget b), fun b hm => absurd hm (noBudget b), fun b hm => absurd hm (noBudget b),
    fun sub hm => absurd hm (noStage sub), fun n hm => absurd (hn ▸ hm) List.not_mem_nil, fun k => ?_⟩
  · rw [hb]
    exact ⟨fun _ h => absurd h List.not_mem_nil, .nil, .nil⟩
  · rw [hs]
    exact ⟨fun _ h => absurd h List.not_mem_nil, .nil, .nil, .nil⟩
  · have hk : s.totals k = 0 := by
      rw [totals, totalsRow, h.budgetTotals, h.batchBudgetTotals]
      cases k.batchID <;> rfl
    rw [hk]
    decide

/-- Every store that is reached is sound. -/
theorem sound_of_run {es : List (Option Call)} (h0 : Unused s) (h : Run Step s es s') : Sound s' :=
  h.inv (C := fun _ => True) (fun _ hi hs => hi.of_step hs) (fun _ _ => trivial) h0.sound

/-- The store after calls, one after the other. -/
def callAll (s : Store) (calls : List Call) : Store := calls.foldl (fun s call => call.after s) s

theorem run_callAll (s : Store) (calls : List Call) : Run Step s (calls.map some) (callAll s calls) := by
  induction calls generalizing s with
  | nil => exact .nil s
  | cons call calls ih => exact .cons (.call s call) (ih _)

/-- A step whose call satisfies a condition on the store before it. -/
def StepWhen (Q : Store → Call → Prop) (s : Store) (e : Option Call) (s' : Store) : Prop :=
  Step s e s' ∧ ∀ call ∈ e, Q s call

/-- Calls that satisfy the condition, one after the other. -/
def CallsWhen (Q : Store → Call → Prop) (s : Store) : List Call → Prop
  | [] => True
  | call :: calls => Q s call ∧ CallsWhen Q (call.after s) calls

theorem run_callsWhen {Q : Store → Call → Prop} {calls : List Call} (h : CallsWhen Q s calls) :
    Run (StepWhen Q) s (calls.map some) (callAll s calls) := by
  induction calls generalizing s with
  | nil => exact .nil s
  | cons call calls ih => exact .cons ⟨.call s call, fun _ hc => Option.mem_some_iff.mp hc ▸ h.1⟩ (ih h.2)

theorem LeaseBudgetManager.Call.commit_eq {call : Call} (h : (call.commit s).isOk = true) :
    call.commit s = .ok (call.after s) := by
  rw [Call.after]
  cases hc : call.commit s with
  | ok => rfl
  | error => simp [hc, Except.isOk, Except.toBool] at h

/-! ## One attempt -/

/-- A running run with one planned attempt. -/
def oneAttempt : Store :=
  { Store.empty with
    runs := fun runID => if runID = "run" then some .running else none
    attempts := fun attemptID => if attemptID = "attempt" then some ⟨"run", .planned⟩ else none }

theorem oneAttempt_unused : Unused oneAttempt := ⟨rfl, rfl, rfl, rfl, rfl, rfl, rfl, rfl, fun _ h => absurd rfl h⟩

def oneStage (wei : Int) : PlannedStageBudget := ⟨"source", 1, wei, 0, 0, 0, 0⟩

/-- Limits for a chain, and a reservation of one stage of 10 wei. -/
def reserveOne (limit : BudgetLimit) : List Call :=
  [.configureLimits "run" [(1, limit)], .reserveCompleteRoute "route" "attempt" "batch" [oneStage 10]]

/-- The source of the reservation starts, and its stage gets a nonce. -/
def startOne : List Call :=
  [.markSourceInFlight "route",
    .acquireNonceSubreservation "lease" "lineage" "route" "source" "signer" "holder" 0 10 1]

/-- A running run with two planned attempts. -/
def twoAttempts : Store :=
  { oneAttempt with
    attempts := fun attemptID => if attemptID = "attempt" ∨ attemptID = "next" then some ⟨"run", .planned⟩ else none }

theorem twoAttempts_unused : Unused twoAttempts := ⟨rfl, rfl, rfl, rfl, rfl, rfl, rfl, rfl, fun _ h => absurd rfl h⟩

/-- A reservation of one stage of 10 wei for the second attempt. -/
def reserveNext : Call := .reserveCompleteRoute "next-route" "next" "batch" [oneStage 10]

def startNext : List Call :=
  [.markSourceInFlight "next-route",
    .acquireNonceSubreservation "next-lease" "next-lineage" "next-route" "source" "signer" "holder" 1 10 1]

end Xir.Impl.XirLab
