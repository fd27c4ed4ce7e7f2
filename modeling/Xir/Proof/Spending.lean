import Xir.Proof.Cancelled

/-!
# The totals and what the stages hold

The totals are those of the events after every run (`Recorded`). They are what
the stages hold as long as no call is one that forgets something (`Keeps`): a
second `release_unstarted_route`, a nonce for a stage that is released, and
`release_dead_lineage` for a lineage with provisional spending. Each column of
the totals depends on its own calls.
-/

namespace Xir.Impl.XirLab

open Store LeaseBudgetManager

variable {s s' : Store}

/-! ## Stages and their reservations -/

theorem within_fixed {rows : List BudgetRow} {k : Scope} {sub : SubreservationRow} :
    Within rows k sub ↔ Within (rows.map BudgetRow.fixed) k sub := by
  constructor
  · rintro ⟨b, hb, h⟩
    exact ⟨b.fixed, List.mem_map_of_mem hb, h⟩
  · rintro ⟨_, hm, h⟩
    obtain ⟨b, hb, rfl⟩ := List.mem_map.mp hm
    exact ⟨b, hb, h⟩

theorem within_congr {rows rows' : List BudgetRow} (h : rows'.map BudgetRow.fixed = rows.map BudgetRow.fixed)
    {k : Scope} {sub : SubreservationRow} : Within rows' k sub ↔ Within rows k sub := by
  rw [within_fixed, h, ← within_fixed]

theorem within_of_key {rows : List BudgetRow} {k : Scope} {sub sub' : SubreservationRow} (h : sub'.key = sub.key) :
    Within rows k sub' ↔ Within rows k sub := by
  rw [Within, Within, h]

/-- A stage is within the scopes of its row of `budgets`. -/
theorem Store.Valid.within (h : s.Valid) {b : BudgetRow} {sub : SubreservationRow} {k : Scope} (hb : b ∈ s.budgets)
    (hk : b.key = sub.key) : Within s.budgets k sub ↔ k.Covers b.runID b.batchID b.chainID := by
  constructor
  · rintro ⟨b', hb', hk', hc⟩
    rwa [h.budget_eq hb hb' (hk.trans hk'.symm)]
  · exact fun hc => ⟨b, hb, hk, hc⟩

theorem Kept.fixed {r : String} {rows rows' : List BudgetRow} (h : Kept r rows rows') :
    rows'.map BudgetRow.fixed = rows.map BudgetRow.fixed := by
  induction h with
  | nil => rfl
  | cons hb _ ih => rw [List.map_cons, List.map_cons, hb.1, ih]

/-- What the rows of a reservation hold within a scope, and what its stages hold. -/
def Backed (s : Store) : Prop := ∀ r k,
  Table.total (fun b => if b.reservationID = r ∧ k.Covers b.runID b.batchID b.chainID then b.reservedWei else 0)
      s.budgets =
    Table.total (fun sub => if sub.reservationID = r ∧ Within s.budgets k sub then sub.reservedWei else 0)
      s.subreservations

theorem Backed.congr (h : Backed s) (hb : s'.budgets.map BudgetRow.fixed = s.budgets.map BudgetRow.fixed)
    (hs : s'.subreservations.map SubreservationRow.fixed = s.subreservations.map SubreservationRow.fixed) :
    Backed s' := by
  intro r k
  have hbt : ∀ rows : List BudgetRow, Table.total (fun b => if b.reservationID = r ∧
      k.Covers b.runID b.batchID b.chainID then b.reservedWei else 0) rows =
      Table.total (fun b => if b.reservationID = r ∧ k.Covers b.runID b.batchID b.chainID then b.reservedWei else 0)
        (rows.map BudgetRow.fixed) := fun rows => by
    rw [Table.total_map]
    rfl
  have hst : ∀ rows : List SubreservationRow, Table.total (fun sub => if sub.reservationID = r ∧
      Within s.budgets k sub then sub.reservedWei else 0) rows =
      Table.total (fun sub => if sub.reservationID = r ∧ Within s.budgets k sub then sub.reservedWei else 0)
        (rows.map SubreservationRow.fixed) := fun rows => by
    rw [Table.total_map]
    rfl
  have hw : Table.total (fun sub => if sub.reservationID = r ∧ Within s'.budgets k sub then sub.reservedWei else 0)
      s'.subreservations = Table.total (fun sub => if sub.reservationID = r ∧ Within s.budgets k sub then
        sub.reservedWei else 0) s'.subreservations :=
    Table.total_congr fun sub _ => if_congr (and_congr_right fun _ => within_congr hb) rfl rfl
  rw [hw, hbt, hst, hb, hs, ← hbt, ← hst]
  exact h r k

/-! ## New reservations -/

section

variable {r a runID batchID : String} {totals : List (PlannedStageBudget × Int)} {k : Scope}

/-- The rows of a new reservation are no rows of the stages before. -/
theorem within_old (h : Sound s) (fresh : ∀ b ∈ s.budgets, b.reservationID ≠ r) {sub : SubreservationRow}
    (hs : sub ∈ s.subreservations) :
    Within (s.budgets ++ (byChain totals).map (chainRow r a runID batchID)) k sub ↔ Within s.budgets k sub := by
  constructor
  · rintro ⟨b, hb, hk, hc⟩
    rcases List.mem_append.mp hb with hb | hb
    · exact ⟨b, hb, hk, hc⟩
    · obtain ⟨c, -, rfl⟩ := List.mem_map.mp hb
      obtain ⟨b, hb, hk'⟩ := h.owned sub hs
      exact absurd ((congrArg Prod.fst hk').trans (congrArg Prod.fst hk).symm) (fresh b hb)
  · rintro ⟨b, hb, h⟩
    exact ⟨b, List.mem_append_left _ hb, h⟩

/-- A stage of a new reservation is within the scopes of its chain. -/
theorem within_new (fresh : ∀ b ∈ s.budgets, b.reservationID ≠ r) {t : PlannedStageBudget × Int} (ht : t ∈ totals)
    (i : Nat) : Within (s.budgets ++ (byChain totals).map (chainRow r a runID batchID)) k (plannedRow r a i t) ↔
      k.Covers runID batchID t.1.chainID := by
  constructor
  · rintro ⟨b, hb, hk, hc⟩
    rcases List.mem_append.mp hb with hb | hb
    · exact absurd (congrArg Prod.fst hk) (fresh b hb)
    · obtain ⟨c, -, rfl⟩ := List.mem_map.mp hb
      have hk' : c.1 = t.1.chainID := congrArg Prod.snd hk
      exact hk' ▸ hc
  · intro hc
    obtain ⟨c, hm, he⟩ := List.mem_map.mp (mem_byChain.mpr ⟨t, ht, rfl⟩)
    refine ⟨chainRow r a runID batchID c, List.mem_append_right _ (List.mem_map_of_mem hm), congrArg (Prod.mk r) he, ?_⟩
    show k.Covers runID batchID c.1
    rw [he]
    exact hc

/-- The amounts of a new reservation within a scope, stage by stage and chain by chain. -/
theorem total_new (fresh : ∀ b ∈ s.budgets, b.reservationID ≠ r) {g : SubreservationRow → Int}
    (hg : ∀ i t, g (plannedRow r a i t) = t.2) :
    Table.total (fun sub => if Within (s.budgets ++ (byChain totals).map (chainRow r a runID batchID)) k sub then g sub
        else 0) (totals.mapIdx (plannedRow r a)) =
      Table.total (fun c => if k.Covers runID batchID c.1 then c.2 else 0) (byChain totals) := by
  rw [total_byChain (fun c => k.Covers runID batchID c), ← total_plannedRow (r := r) (a := a)
    (g := fun sub => if k.Covers runID batchID sub.chainID then g sub else 0)
    (h := fun t => if k.Covers runID batchID t.1.chainID then t.2 else 0) fun i t => by rw [hg]; rfl]
  refine Table.total_congr fun sub hs => ?_
  obtain ⟨i, t, ht, rfl⟩ := mem_plannedRow hs
  exact if_congr (within_new fresh ht i) rfl rfl

theorem Backed.of_reserved (h : Sound s) (hB : Backed s) (fresh : ∀ b ∈ s.budgets, b.reservationID ≠ r)
    (hb : s'.budgets = s.budgets ++ (byChain totals).map (chainRow r a runID batchID))
    (hs : s'.subreservations = s.subreservations ++ totals.mapIdx (plannedRow r a)) : Backed s' := by
  intro r' k
  have hold : Table.total (fun sub => if sub.reservationID = r' ∧ Within s'.budgets k sub then sub.reservedWei else 0)
      s.subreservations = Table.total (fun sub => if sub.reservationID = r' ∧ Within s.budgets k sub then
        sub.reservedWei else 0) s.subreservations :=
    Table.total_congr fun sub hm => if_congr (and_congr_right fun _ => hb ▸ within_old h fresh hm) rfl rfl
  have hnew : Table.total (fun b => if b.reservationID = r' ∧ k.Covers b.runID b.batchID b.chainID then b.reservedWei
      else 0) ((byChain totals).map (chainRow r a runID batchID)) =
      Table.total (fun sub => if sub.reservationID = r' ∧ Within s'.budgets k sub then sub.reservedWei else 0)
        (totals.mapIdx (plannedRow r a)) := by
    rw [Table.total_map]
    by_cases hr : r = r'
    · calc Table.total (fun c => if r = r' ∧ k.Covers runID batchID c.1 then c.2 else 0) (byChain totals)
        _ = Table.total (fun c => if k.Covers runID batchID c.1 then c.2 else 0) (byChain totals) :=
          Table.total_congr fun _ _ => if_congr (and_iff_right hr) rfl rfl
        _ = Table.total (fun sub => if Within s'.budgets k sub then sub.reservedWei else 0)
            (totals.mapIdx (plannedRow r a)) := by
          rw [hb]
          exact (total_new fresh fun _ _ => rfl).symm
        _ = _ := Table.total_congr fun sub hm => by
          obtain ⟨_, _, -, rfl⟩ := mem_plannedRow hm
          exact if_congr (and_iff_right hr).symm rfl rfl
    · rw [Table.total_eq_zero fun c _ => if_neg fun h => hr h.1, Table.total_eq_zero fun sub hm => ?_]
      obtain ⟨_, _, -, rfl⟩ := mem_plannedRow hm
      exact if_neg fun h => hr h.1
  rw [hs, Table.total_append, hold, ← hB r' k, hb, Table.total_append, hnew, hb]

end

/-! ## Moves -/

/-- The rows that a move does not add keep what no operation changes. -/
theorem Move.fixed {call : Call} (h : Move s call s') :
    (s'.budgets.map BudgetRow.fixed = s.budgets.map BudgetRow.fixed ∧
      s'.subreservations.map SubreservationRow.fixed = s.subreservations.map SubreservationRow.fixed) ∨
    ∃ r a batchID stages, call = .reserveCompleteRoute r a batchID stages := by
  cases h with
  | idle => exact .inl ⟨rfl, rfl⟩
  | work => exact .inl ⟨rfl, rfl⟩
  | configured hc =>
    obtain ⟨_, _, rfl⟩ := hc.frame
    exact .inl ⟨rfl, rfl⟩
  | reserved => exact .inr ⟨_, _, _, _, rfl⟩
  | marked _ _ _ _ _ frame =>
    subst frame
    exact .inl ⟨Table.map_update fun _ _ _ => rfl, rfl⟩
  | again _ _ _ _ _ frame =>
    subst frame
    exact .inl ⟨rfl, Table.map_update fun _ _ _ => rfl⟩
  | bound _ _ _ _ _ _ _ frame =>
    subst frame
    exact .inl ⟨rfl, Table.map_update fun _ _ _ => rfl⟩
  | wrote _ write keeps frame =>
    obtain ⟨_, _, rfl⟩ := frame
    exact .inl ⟨keeps.fixed, Table.map_update fun r _ _ => (write.fixed.1 r).1⟩
  | halted => exact .inl ⟨rfl, rfl⟩
  | released h =>
    obtain ⟨-, -, ⟨_, _, rfl⟩, -, -⟩ := h
    exact .inl ⟨Table.map_update fun _ _ _ => rfl, Table.map_update fun _ _ _ => rfl⟩

theorem Backed.of_move {call : Call} (h : Sound s) (hB : Backed s) (hm : Move s call s') : Backed s' := by
  rcases hm.fixed with ⟨hb, hs⟩ | ⟨r, a, batchID, stages, rfl⟩
  · exact hB.congr hb hs
  · cases hm with
    | idle => exact hB
    | work => exact hB
    | reserved planned nonempty _ _ _ _ _ frame _ valid =>
      obtain ⟨_, _, rfl⟩ := frame
      obtain ⟨t₀, rest, rfl⟩ := List.exists_cons_of_ne_nil (stageTotals_ne_nil planned nonempty)
      exact hB.of_reserved h (fun b => h.fresh (valid h.valid).subs) rfl rfl
    | wrote _ write => cases write

/-- The totals are those of the events. -/
def Recorded (s : Store) : Prop := ∀ k c, (s.totals k).col c = s.recorded k c

theorem Recorded.of_move {call : Call} (h : Sound s) (hR : Recorded s) (hm : Move s call s') : Recorded s' := by
  cases hm with
  | idle => exact hR
  | work => exact hR
  | configured hc =>
    obtain ⟨_, _, rfl⟩ := hc.frame
    exact fun k c => (congrArg (Amounts.col · c) (hc.totals k)).trans (hR k c)
  | reserved _ _ _ _ _ _ capacity _ posted =>
    exact posted.recorded (chains_listed capacity) hR
  | marked _ _ _ _ _ frame =>
    subst frame
    exact hR
  | again _ _ _ _ _ frame =>
    subst frame
    exact hR
  | bound _ _ _ _ _ _ _ frame =>
    subst frame
    exact hR
  | wrote of _ _ _ posted =>
    exact posted.recorded (h.line_listed of) hR
  | halted => exact hR
  | released released =>
    exact released.posted.recorded (h.rows_listed _) hR

/-! ## What the stages hold -/

/-- In a column, the stages hold what the events recorded. -/
def Spends (c : Column) (s : Store) : Prop := ∀ k, s.spending k c = s.recorded k c

/-- A call forgets nothing in a column. -/
def Keeps (c : Column) (s : Store) : Call → Prop
  | .acquireNonceSubreservation _ _ r stageKey _ _ _ requested _ => c = .reserved → ∀ sub ∈ s.subreservations,
    sub.reservationID = r → sub.stageKey = stageKey → sub.lineageID = none → sub.state = .released →
    (∃ b ∈ s.budgets, b.key = sub.key ∧ b.sourceInFlight = true) → requested ≤ sub.reservedWei → sub.reservedWei = 0
  | .releaseUnstartedRoute r => c = .reserved →
    (∀ b ∈ s.budgets, b.reservationID = r → b.state = .released → b.reservedWei = 0) ∨ TooSmall s r
  | .releaseDeadLineage l proof destroyed manual => c = .provisional → Releasable proof destroyed manual →
    ∀ sub ∈ s.subreservations, sub.lineageID = some l → sub.state ≠ .included → sub.state ≠ .finalized →
      sub.state ≠ .released → sub.provisionalWei = 0
  | _ => True

section

variable {c : Column} {k : Scope} {p : SubreservationRow → Prop} [DecidablePred p]
  {f : SubreservationRow → SubreservationRow}

/-- What rewritten stages hold. -/
theorem spending_update (hb : s'.budgets.map BudgetRow.fixed = s.budgets.map BudgetRow.fixed)
    (hs : s'.subreservations = Table.update p f s.subreservations) (hf : ∀ sub, (f sub).key = sub.key) :
    s'.spending k c = s.spending k c + Table.total (fun sub => if p sub then
      (if Within s.budgets k sub then (f sub).weight c - sub.weight c else 0) else 0) s.subreservations := by
  have hw : s'.spending k c = Table.total (fun sub => if Within s.budgets k sub then sub.weight c else 0)
      (Table.update p f s.subreservations) := by
    rw [spending, hs]
    exact Table.total_congr fun sub _ => if_congr (within_congr hb) rfl rfl
  rw [hw, Table.total_update, spending]
  refine congrArg (_ + ·) (Table.total_congr fun sub _ => ite_congr rfl (fun _ => ?_) fun _ => rfl)
  rw [if_congr (within_of_key (hf sub)) rfl rfl]
  split
  · rfl
  · exact sub_self 0

/-- What the stages hold after one of them is rewritten. -/
theorem spending_update_key {κ : Type} {key : SubreservationRow → Option κ} {a : κ} {sub : SubreservationRow}
    (hb : s'.budgets.map BudgetRow.fixed = s.budgets.map BudgetRow.fixed)
    (hs : s'.subreservations = Table.update p f s.subreservations) (hf : ∀ sub, (f sub).key = sub.key)
    (hu : Table.Unique key s.subreservations) (hm : sub ∈ s.subreservations) (ha : key sub = some a)
    (hp : ∀ r ∈ s.subreservations, p r ↔ key r = some a) :
    s'.spending k c = s.spending k c + if Within s.budgets k sub then (f sub).weight c - sub.weight c else 0 := by
  rw [spending_update hb hs hf,
    hu.total (g := fun sub => if Within s.budgets k sub then (f sub).weight c - sub.weight c else 0) hm ha hp]

/-- Stages that are rewritten and count for as much as before. -/
theorem spending_same (hb : s'.budgets.map BudgetRow.fixed = s.budgets.map BudgetRow.fixed)
    (hs : s'.subreservations = Table.update p f s.subreservations) (hf : ∀ sub, (f sub).key = sub.key)
    (hw : ∀ sub ∈ s.subreservations, p sub → (f sub).weight c = sub.weight c) : s'.spending k c = s.spending k c := by
  rw [spending_update hb hs hf, Table.total_eq_zero fun sub hm => ?_]
  · exact add_zero _
  · split
    · rw [hw sub hm ‹_›, sub_self, ite_self]
    · rfl

/-- A stage that gets a lineage counts for as much as before, unless it was released. -/
theorem weight_bound {sub : SubreservationRow} {l : String} {requested : Int}
    (hu : sub.provisionalWei = 0 ∧ sub.finalizedWei = 0 ∧ (sub.state = .reserved ∨ sub.state = .released))
    (hk : c = .reserved → sub.state = .released → sub.reservedWei = 0) : SubreservationRow.weight { sub with
      lineageID := some l, allocatedWei := requested, state := .active } c = sub.weight c := by
  obtain ⟨hp, hf, hs | hs⟩ := hu
  · cases c <;> simp [SubreservationRow.weight, hs]
  · cases c with
    | reserved => simp [SubreservationRow.weight, hs, hk rfl hs]
    | provisional => simp [SubreservationRow.weight, hs, hp]
    | finalized => simp [SubreservationRow.weight, hs]

end

/-- A call forgets nothing in some columns. -/
def KeepsEach (P : Column → Prop) (s : Store) (call : Call) : Prop := ∀ c, P c → Keeps c s call

/-- What a call changes of what a stage counts for is what its event records. -/
theorem Write.weight {call : Call} {l : String} {sub : SubreservationRow} {b : BudgetRow} {w : LineageWrite}
    (h : Write s sub b call l w) (hs : sub.Sound) (hm : sub ∈ s.subreservations) (hl : sub.lineageID = some l)
    {c : Column} (hk : Keeps c s call) : (w.sub sub).weight c - sub.weight c = w.delta.col c := by
  cases h with
  | pending accepted unsettled =>
    have hp := pendingState_unsettled accepted
    cases c <;> simp_all [SubreservationRow.weight]
  | included _ unsettled _ => cases c <;> simp_all [SubreservationRow.weight, Amounts.col]
  | finalized _ unfinalized unreleased _ => cases c <;> simp_all [SubreservationRow.weight, Amounts.col]
  | dead reason unspent unreleased =>
    cases c with
    | reserved => simp_all [SubreservationRow.weight, Amounts.col]
    | provisional =>
      have h0 : sub.provisionalWei = 0 := hk rfl reason sub hm hl (by tauto) (by tauto) unreleased
      simp_all [SubreservationRow.weight, Amounts.col]
    | finalized => simp_all [SubreservationRow.weight, Amounts.col]
  | reopenIncluded included => cases c <;> simp_all [SubreservationRow.weight, Amounts.col]
  | reopenFinalized finalized _ =>
    have h0 := hs.settled finalized
    cases c <;> simp_all [SubreservationRow.weight, Amounts.col]

/-- A column in which a stage that is planned counts for nothing. -/
theorem total_plannedRow_zero {r a : String} {totals : List (PlannedStageBudget × Int)} {P : SubreservationRow → Prop}
    [DecidablePred P] (c : Column) (hc : ∀ i t, (plannedRow r a i t).weight c = 0) :
    Table.total (fun sub => if P sub then sub.weight c else 0) (totals.mapIdx (plannedRow r a)) = 0 :=
  Table.total_eq_zero fun sub hs => by
    obtain ⟨i, t, -, rfl⟩ := mem_plannedRow hs
    rw [hc, ite_self]

theorem recorded_append {es : List BudgetEventRow} (he : s'.budgetEvents = s.budgetEvents ++ es) (k : Scope)
    (c : Column) : s'.recorded k c = s.recorded k c + Table.total (worth k c) es := by
  rw [Store.recorded, he, Table.total_append]
  rfl

/-- A stage of a row that holds nothing holds nothing. -/
theorem Backed.reservedWei_eq_zero (h : Sound s) (hB : Backed s) {b : BudgetRow} {sub : SubreservationRow}
    (hb : b ∈ s.budgets) (hs : sub ∈ s.subreservations) (hk : b.key = sub.key) (h0 : b.reservedWei = 0) :
    sub.reservedWei = 0 := by
  let k : Scope := ⟨b.runID, none, b.chainID⟩
  have hc : k.Covers b.runID b.batchID b.chainID := ⟨rfl, rfl, nofun⟩
  have hrow :
      Table.total (fun b' => if b'.reservationID = b.reservationID ∧ k.Covers b'.runID b'.batchID b'.chainID then
      b'.reservedWei else 0) s.budgets = 0 := by
    refine Table.total_eq_zero fun b' hb' => ?_
    split
    · rename_i he
      rw [h.valid.budget_eq hb' hb (Prod.ext he.1 he.2.2.1.symm), h0]
    · rfl
  have hnonneg : ∀ sub' ∈ s.subreservations, 0 ≤ sub'.reservedWei := fun sub' hs' => (h.valid.subs.1 sub' hs').1.1
  have hle := Table.le_total_of_mem
    (g := fun sub => if sub.reservationID = b.reservationID ∧ Within s.budgets k sub then
      sub.reservedWei else 0) (fun sub' hs' => by
    show 0 ≤ if _ then _ else (0 : Int)
    split
    · exact hnonneg sub' hs'
    · exact le_rfl) hs
  rw [← hB b.reservationID k, hrow, if_pos ⟨(congrArg Prod.fst hk).symm, (h.valid.within hb hk).mpr hc⟩] at hle
  exact le_antisymm hle (hnonneg sub hs)

/-- What a stage counts for whose reservation is not in flight. -/
theorem weight_unstarted (h : Sound s) (hB : Backed s) {b : BudgetRow} {sub : SubreservationRow} (hb : b ∈ s.budgets)
    (hs : sub ∈ s.subreservations) (hk : b.key = sub.key) (hi : b.sourceInFlight = false) {c : Column}
    (h0 : c = .reserved → b.state = .released → b.reservedWei = 0) :
    sub.weight c = if c = .reserved then sub.reservedWei else 0 := by
  obtain ⟨hl, hr⟩ := h.unstarted sub hs b hb hk hi
  obtain ⟨hp, -, hst⟩ := (h.stages sub hs).unbound hl
  cases c with
  | reserved =>
    rw [if_pos rfl]
    by_cases hbr : b.state = .released
    · have hz := hB.reservedWei_eq_zero h hb hs hk (h0 rfl hbr)
      show (if _ then 0 else sub.reservedWei) = sub.reservedWei
      rw [hz, ite_self]
    · show (if _ then 0 else sub.reservedWei) = sub.reservedWei
      rw [hr hbr]
      exact if_neg (by decide)
  | provisional =>
    show (if _ then 0 else sub.provisionalWei) = _
    rw [hp, ite_self]
    rfl
  | finalized =>
    refine if_neg ?_
    rcases hst with hst | hst <;> rw [hst] <;> decide

/-- The stages of a reservation that is released hold less by what its rows hold. -/
theorem spending_released {r : String} {c : Column} {k : Scope} (h : Sound s) (hB : Backed s) (hr : Released s r s')
    (hk : Keeps c s (.releaseUnstartedRoute r)) :
    s'.spending k c = s.spending k c +
      Table.total (worth k c) ((s.budgets.filter fun b => b.reservationID = r).map cancelEvent) := by
  obtain ⟨-, unstarted, ⟨t, t', rfl⟩, posted, -⟩ := hr
  have h0 : c = .reserved → ∀ b ∈ s.budgets, b.reservationID = r → b.state = .released → b.reservedWei = 0 :=
    fun hc => (hk hc).resolve_right (not_tooSmall h posted)
  have hb : (Table.update (fun b => b.reservationID = r) (fun b => { b with state := .released }) s.budgets).map
      BudgetRow.fixed = s.budgets.map BudgetRow.fixed := Table.map_update fun _ _ _ => rfl
  refine (spending_update (p := fun sub => sub.reservationID = r) (f := fun sub => { sub with state := .released })
    hb rfl fun _ => rfl).trans (congrArg (_ + ·) ?_)
  have hstages : ∀ sub ∈ s.subreservations, (if sub.reservationID = r then (if Within s.budgets k sub then
      SubreservationRow.weight { sub with state := .released } c - sub.weight c else 0) else 0) =
      - if sub.reservationID = r ∧ Within s.budgets k sub then (if c = .reserved then sub.reservedWei else 0) else 0 :=
    fun sub hs => by
      by_cases hw : sub.reservationID = r ∧ Within s.budgets k sub
      · obtain ⟨b, hb, hbk⟩ := h.owned sub hs
        have hbr : b.reservationID = r := (congrArg Prod.fst hbk).trans hw.1
        rw [if_pos hw.1, if_pos hw.2, if_pos hw,
          weight_unstarted h hB hb hs hbk (unstarted b hb hbr) fun hc => h0 hc b hb hbr]
        have hz : SubreservationRow.weight { sub with state := .released } c = 0 := by cases c <;> rfl
        rw [hz, zero_sub]
      · rw [if_neg hw, ← ite_and, if_neg hw, neg_zero]
  have hrows : Table.total (worth k c) ((s.budgets.filter fun b => b.reservationID = r).map cancelEvent) =
      Table.total (fun b => - if b.reservationID = r ∧ k.Covers b.runID b.batchID b.chainID then
        (if c = .reserved then b.reservedWei else 0) else 0) s.budgets := by
    rw [Table.total_map, Table.total_filter]
    refine Table.total_congr fun b _ => ?_
    have hw : worth k c (cancelEvent b) = if k.Covers b.runID b.batchID b.chainID then
        (if c = .reserved then - b.reservedWei else 0) else 0 := by cases c <;> rfl
    rw [hw]
    by_cases hbr : b.reservationID = r <;> by_cases hcov : k.Covers b.runID b.batchID b.chainID <;>
      by_cases hc : c = .reserved <;> simp [hbr, hcov, hc]
  rw [Table.total_congr hstages, hrows, Table.total_neg, Table.total_neg]
  refine congrArg Neg.neg ?_
  by_cases hc : c = .reserved
  · simp only [if_pos hc]
    exact (hB r k).symm
  · simp only [if_neg hc, ite_self]
    exact (Table.total_eq_zero fun _ _ => rfl).trans (Table.total_eq_zero fun _ _ => rfl).symm

theorem Spends.of_move {c : Column} {call : Call} (h : Sound s) (hB : Backed s) (hS : Spends c s)
    (hm : Move s call s') (hk : Keeps c s call) : Spends c s' := by
  intro k
  cases hm with
  | idle => exact hS k
  | work => exact hS k
  | configured hc =>
    obtain ⟨_, _, rfl⟩ := hc.frame
    exact hS k
  | @reserved r a batchID stages totals attempt _ planned nonempty _ _ _ _ _ frame posted valid =>
    obtain ⟨_, _, rfl⟩ := frame
    obtain ⟨t₀, rest, rfl⟩ := List.exists_cons_of_ne_nil (stageTotals_ne_nil planned nonempty)
    have fresh : ∀ b ∈ s.budgets, b.reservationID ≠ r := fun b => h.fresh (valid h.valid).subs
    rw [recorded_append posted.events, ← hS k, spending, Table.total_append]
    refine congrArg₂ (· + ·) (Table.total_congr fun sub hs => if_congr (within_old h fresh hs) rfl rfl) ?_
    rw [Table.total_map]
    cases c with
    | reserved => exact total_new fresh fun _ _ => rfl
    | provisional =>
      exact (total_plannedRow_zero .provisional fun _ _ => rfl).trans (Table.total_eq_zero fun c _ => ite_self 0).symm
    | finalized =>
      exact (total_plannedRow_zero .finalized fun _ _ => rfl).trans (Table.total_eq_zero fun c _ => ite_self 0).symm
  | @marked r _ _ _ _ _ _ _ _ frame =>
    subst frame
    have hb : (Table.update (fun b => b.reservationID = r)
        (fun b => { b with sourceInFlight := true, state := .inFlight }) s.budgets).map BudgetRow.fixed =
        s.budgets.map BudgetRow.fixed := Table.map_update fun _ _ _ => rfl
    exact (Table.total_congr fun sub _ => if_congr (within_congr hb) rfl rfl).trans (hS k)
  | @again _ l r stageKey _ _ nonce requested _ sub _ row of stage started fits frame valid =>
    subst frame
    refine (?_ : Store.spending _ k c = s.spending k c).trans (hS k)
    refine spending_same (p := fun r => r.subreservationID = sub.subreservationID)
      (f := fun r => { r with allocatedWei := max r.allocatedWei requested }) rfl rfl (fun _ => rfl) fun r _ _ => ?_
    cases c <;> rfl
  | @bound _ l r stageKey _ _ nonce requested _ sub _ row of stage started nonneg fits unbound frame valid =>
    subst frame
    refine (?_ : Store.spending _ k c = s.spending k c).trans (hS k)
    refine spending_same (p := fun r => r.subreservationID = sub.subreservationID)
      (f := fun r => { r with lineageID := some l, allocatedWei := requested, state := .active }) rfl rfl (fun _ => rfl)
      fun r hr hi => ?_
    obtain rfl := h.valid.sub_eq hr row hi
    have hu := (h.stages r hr).unbound unbound
    exact weight_bound hu fun hc hs => hk hc r hr of stage unbound hs started fits
  | @wrote _ l sub b w budgets _ of write keeps frame posted valid =>
    obtain ⟨t, t', rfl⟩ := frame
    refine (spending_update_key (p := fun r => r.lineageID = some l) (f := w.sub) ?_ ?_ ?_ h.valid.subs.2.2.2
      of.row of.lineage
      fun r _ => Iff.rfl).trans ?_
    · exact keeps.fixed
    · rfl
    · exact fun r => (congrArg SubreservationRow.key (write.fixed.1 r).1 : (w.sub r).fixed.key = r.fixed.key)
    · rw [hS k, recorded_append posted.events, Table.total_cons, Table.total_nil, add_zero,
        write.weight (h.stages sub of.row) of.row of.lineage hk, worth]
      refine congrArg (_ + ·) (if_congr ?_ rfl rfl)
      rw [h.valid.within of.budget of.key]
      exact (congrArg (k.Covers b.runID b.batchID) (congrArg Prod.snd of.key)).to_iff
  | halted => exact hS k
  | @released r _ released =>
    rw [spending_released h hB released hk, hS k, recorded_append released.posted.events]

/-! ## Runs -/

/-- The totals are those of the events, and of what the stages hold in some columns. -/
structure Settled (P : Column → Prop) (s : Store) : Prop where
  sound : Sound s
  backed : Backed s
  recorded : Recorded s
  spends : ∀ c, P c → Spends c s

theorem LeaseBudgetManager.SameLeases.totals_eq (h : SameLeases s s') (k : Scope) : s'.totals k = s.totals k := by
  unfold Store.totals Store.totalsRow
  rw [h.budgetTotals, h.batchBudgetTotals]

theorem LeaseBudgetManager.SameLeases.recorded_eq (h : SameLeases s s') (k : Scope) (c : Column) :
    s'.recorded k c = s.recorded k c := by
  unfold Store.recorded
  rw [h.budgetEvents]

theorem LeaseBudgetManager.SameLeases.spending_eq (h : SameLeases s s') (k : Scope) (c : Column) :
    s'.spending k c = s.spending k c := by
  unfold Store.spending
  rw [h.budgets, h.subreservations]

theorem Settled.of_step {P : Column → Prop} {e : Option Call} (h : Settled P s) (hs : StepWhen (KeepsEach P) s e s') :
    Settled P s' := by
  obtain ⟨step, keeps⟩ := hs
  have sound := h.sound.of_step step
  cases step with
  | call call =>
    have hm := call.after_move s
    exact ⟨sound, h.backed.of_move h.sound hm, h.recorded.of_move h.sound hm, fun c hc =>
      (h.spends c hc).of_move h.sound h.backed hm (keeps call rfl c hc)⟩
  | others same =>
    refine ⟨sound, h.backed.congr ?_ ?_, fun k c => ?_, fun c hc k => ?_⟩
    · rw [same.budgets]
    · rw [same.subreservations]
    · rw [same.totals_eq, same.recorded_eq]
      exact h.recorded k c
    · rw [same.spending_eq, same.recorded_eq]
      exact h.spends c hc k

theorem Unused.settled (h : Unused s) (P : Column → Prop) : Settled P s := by
  have hb : s.budgets = [] := h.budgets
  have hs : s.subreservations = [] := h.subreservations
  have he : s.budgetEvents = [] := h.budgetEvents
  refine ⟨h.sound, fun r k => ?_, fun k c => ?_, fun c _ k => ?_⟩
  · rw [hb, hs]
    rfl
  · rw [SameLeases.totals_eq h, SameLeases.recorded_eq h]
    cases hk : k.batchID <;> unfold Store.totals Store.totalsRow <;> rw [hk] <;> exact Amounts.col_zero c
  · rw [SameLeases.spending_eq h, SameLeases.recorded_eq h]
    rfl

theorem settled_of_run {P : Column → Prop} {s₀ : Store} {es : List (Option Call)} (start : Unused s₀)
    (run : Run (StepWhen (KeepsEach P)) s₀ es s) : Settled P s :=
  run.inv (C := fun _ => True) (fun _ hi hs => hi.of_step hs) (fun _ _ => trivial) (start.settled P)

/-- In a run whose calls forget nothing, the totals of each run and of each batch
on each chain are what its stages hold, and what its events changed. -/
theorem totals_of_run {s₀ : Store} {es : List (Option Call)} (start : Unused s₀)
    (run : Run (StepWhen (KeepsEach fun _ => True)) s₀ es s) (k : Scope) (c : Column) :
    (s.totals k).col c = s.spending k c ∧ (s.totals k).col c = s.recorded k c := by
  obtain ⟨-, -, recorded, spends⟩ := settled_of_run start run
  exact ⟨(recorded k c).trans (spends c trivial k).symm, recorded k c⟩

/-- A reservation whose stage is started. -/
def started : List Call := reserveOne ⟨10, 10, 10, 0, 100⟩ ++ startOne

theorem keeps_started (P : Column → Prop) : CallsWhen (KeepsEach P) oneAttempt started := by
  refine ⟨?_, ?_, ?_, ?_, trivial⟩
  · exact fun _ _ => trivial
  · exact fun _ _ => trivial
  · exact fun _ _ => trivial
  · intro c _ _ sub hs _ _ _ hr
    have unreleased : ∀ sub ∈ (callAll oneAttempt (started.take 3)).subreservations, sub.state ≠ .released := by
      decide +kernel
    exact absurd hr (unreleased sub hs)

theorem totals_of_run_started : ((callAll oneAttempt started).totals ⟨"run", none, 1⟩).col .reserved =
      (callAll oneAttempt started).spending ⟨"run", none, 1⟩ .reserved ∧
    ((callAll oneAttempt started).totals ⟨"run", none, 1⟩).col .reserved =
      (callAll oneAttempt started).recorded ⟨"run", none, 1⟩ .reserved :=
  totals_of_run oneAttempt_unused (run_callsWhen (keeps_started _)) ⟨"run", none, 1⟩ .reserved

/-- A reservation is released, and once more after another one of 10 wei. -/
def releasedTwice : List Call := reserveOne ⟨10, 10, 10, 0, 100⟩ ++
  [.releaseUnstartedRoute "route", reserveNext, .releaseUnstartedRoute "route"]

/-- Totals that do not hold what a stage reserves. -/
theorem subtracted_twice : ¬ ∀ {s₀ s : Store} {es : List (Option Call)}, Unused s₀ → Run Step s₀ es s →
    ∀ (k : Scope) (c : Column), (s.totals k).col c = s.spending k c ∧ (s.totals k).col c = s.recorded k c := by
  intro h
  have hc := h twoAttempts_unused (run_callAll twoAttempts releasedTwice) ⟨"run", none, 1⟩ .reserved
  revert hc
  decide +kernel

end Xir.Impl.XirLab
