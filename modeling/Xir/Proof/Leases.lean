import Xir.Proof.Books

/-!
# What a call of the lease manager writes

`Move s call s'` says everything that `call` can do to the budgets: each
constructor is one way in which an operation returns, with the checks that it
made and the rows that it wrote. The operations on a lineage differ in what they
make of its rows (`Write`). `Call.commit_move` says that a call is such a move;
the invariants are proved of moves.
-/

namespace Xir.Impl.XirLab

open Store LeaseBudgetManager

variable {s s' : Store}

/-- What no operation changes of a row of `budgets`. -/
def BudgetRow.fixed (b : BudgetRow) : BudgetRow :=
  { b with provisionalWei := 0, finalizedWei := 0, sourceInFlight := false, state := .reserved }

/-- What no operation changes of a stage. -/
def SubreservationRow.fixed (sub : SubreservationRow) : SubreservationRow :=
  { sub with
    lineageID := none, allocatedWei := 0, provisionalWei := 0, finalizedWei := 0, state := .reserved,
    releaseProofSHA256 := none, manualReleaseDecisionSHA256 := none, signedBytesDestroyed := false }

/-- The constraints of the tables of reservations. -/
structure Store.Valid (s : Store) : Prop where
  budgets : BudgetRow.Constraints s.budgets
  subs : SubreservationRow.Constraints s.subreservations

/-- The stage of a lineage, and its row of `budgets`. -/
structure Bound (s : Store) (lineageID : String) (sub : SubreservationRow) (b : BudgetRow) : Prop where
  row : sub ∈ s.subreservations
  lineage : sub.lineageID = some lineageID
  budget : b ∈ s.budgets
  key : b.key = sub.key

/-- The row of a new reservation for a chain. -/
def chainRow (reservationID attemptID runID batchID : String) (chain : Int × Int) : BudgetRow :=
  ⟨reservationID, attemptID, runID, batchID, chain.1, chain.2, 0, 0, false, .reserved⟩

/-- The event of a new reservation for a chain. -/
def chainEvent (reservationID runID batchID : String) (chain : Int × Int) : BudgetEventRow :=
  ⟨runID, batchID, chain.1, reservationID, none, "route_reserved", ⟨chain.2, 0, 0⟩⟩

/-- The event of a row of a reservation that is cancelled. -/
def cancelEvent (b : BudgetRow) : BudgetEventRow :=
  ⟨b.runID, b.batchID, b.chainID, b.reservationID, none, "unstarted_route_released", ⟨-b.reservedWei, 0, 0⟩⟩

def lineageRow (sub : SubreservationRow) (b : BudgetRow) (eventType : String) (delta : Amounts) : BudgetEventRow :=
  ⟨b.runID, b.batchID, sub.chainID, sub.reservationID, some sub.subreservationID, eventType, delta⟩

/-- Only the amounts and the states of the rows of a reservation changed. -/
def Kept (r : String) : List BudgetRow → List BudgetRow → Prop :=
  List.Forall₂ fun b b' => b'.fixed = b.fixed ∧ b'.sourceInFlight = b.sourceInFlight ∧ (b.reservationID ≠ r → b' = b)

/-- What `release_dead_lineage` accepts as a reason: a proof and destroyed bytes, or a decision. -/
def Releasable (proof : Option String) (destroyed : Bool) (manual : Option String) : Prop :=
  (proof.isSome && destroyed) ≠ manual.isSome ∧ ∀ digest ∈ proof.toList ++ manual.toList, LowerSHA256 digest

/-- What the calls for the lineage of a stage make of its rows. -/
inductive Write (s : Store) (sub : SubreservationRow) (b : BudgetRow) : Call → String → LineageWrite → Prop
  | pending {l state : String} {pending : NonceState × SubState} (accepted : pendingState state = some pending)
    (unsettled : ¬ (sub.state = .finalized ∨ sub.state = .released)) :
    Write s sub b (.markLineagePending l state) l
      { sub := fun r => { r with state := pending.2 }
        nonce := fun n => { n with state := pending.1, locked := true }
        budget := id
        delta := 0
        eventType := "lineage_" ++ state }
  | included {l : String} {actual : Int} (nonneg : 0 ≤ actual)
    (unsettled : ¬ (sub.state = .finalized ∨ sub.state = .released)) (fits : actual ≤ sub.reservedWei) :
    Write s sub b (.recordIncluded l actual) l
      { sub := fun r => { r with provisionalWei := actual, state := .included }
        nonce := fun n => { n with state := .included, locked := true }
        budget := fun b => { b with provisionalWei := b.provisionalWei + (actual - sub.provisionalWei) }
        delta := ⟨0, actual - sub.provisionalWei, 0⟩
        eventType := "receipt_included" }
  | finalized {l : String} {actual : Int} (nonneg : 0 ≤ actual) (unfinalized : sub.state ≠ .finalized)
    (unreleased : sub.state ≠ .released) (fits : actual ≤ sub.reservedWei) :
    Write s sub b (.finalizeLineage l actual) l
      { sub := fun r => { r with provisionalWei := 0, finalizedWei := actual, state := .finalized }
        nonce := fun n => { n with state := .finalized, locked := false }
        budget := fun b => { b with
          provisionalWei := b.provisionalWei - sub.provisionalWei, finalizedWei := b.finalizedWei + actual }
        delta := ⟨-sub.reservedWei, -sub.provisionalWei, actual⟩
        eventType := "lineage_finalized" }
  | dead {l : String} {proof manual : Option String} {destroyed : Bool} (reason : Releasable proof destroyed manual)
    (unspent : ¬ (sub.state = .included ∨ sub.state = .finalized)) (unreleased : sub.state ≠ .released) :
    Write s sub b (.releaseDeadLineage l proof destroyed manual) l
      { sub := fun r => { r with
          state := .released, releaseProofSHA256 := proof, manualReleaseDecisionSHA256 := manual,
          signedBytesDestroyed := destroyed }
        nonce := fun n => { n with state := .released, locked := false }
        budget := id
        delta := ⟨-sub.reservedWei, 0, 0⟩
        eventType := if proof.isSome && destroyed then "lineage_proof_released" else "lineage_manual_released" }
  | reopenIncluded {l violation : String} (included : sub.state = .included) :
    Write s sub b (.reopenAfterReorganization l violation) l
      { sub := fun r => { r with provisionalWei := 0, state := .reopened }
        nonce := fun n => { n with state := .active, locked := true }
        budget := fun b => { b with provisionalWei := b.provisionalWei - sub.provisionalWei }
        delta := ⟨0, -sub.provisionalWei, 0⟩
        eventType := "included_receipt_reopened" }
  | reopenFinalized {l violation : String} (finalized : sub.state = .finalized)
    (capacity : s.assertCapacity b.runID b.batchID sub.chainID sub.reservedWei sub.finalizedWei = .ok ()) :
    Write s sub b (.reopenAfterReorganization l violation) l
      { sub := fun r => { r with finalizedWei := 0, state := .reopened }
        nonce := fun n => { n with state := .active, locked := true }
        budget := fun b => { b with finalizedWei := b.finalizedWei - sub.finalizedWei, state := .inFlight }
        delta := ⟨sub.reservedWei, 0, -sub.finalizedWei⟩
        eventType := "finalized_receipt_reopened" }

/-- The limits of chains were configured. -/
structure Configured (s s' : Store) : Prop where
  frame : ∃ l t, s' = { s with budgetLimits := l, budgetTotals := t }
  totals : ∀ k, s'.totals k = s.totals k
  present : ∀ k, s.totalsRow k ≠ none → s'.totalsRow k ≠ none
  /-- A limit is kept, up to the balance that was observed, and a new one is ordered. -/
  limits : ∀ x l, s'.budgetLimits x = some l →
    (∃ v, s.budgetLimits x = some { l with observedRunnerBalanceWei := v }) ∨
      (s.budgetLimits x = none ∧ 0 ≤ l.maxBatchWei ∧ l.maxBatchWei ≤ l.maxRunWei)
  kept : ∀ x, s.budgetLimits x ≠ none → s'.budgetLimits x ≠ none
  limited : (∀ x, s.budgetLimits x = none → s.budgetTotals x = none) →
    ∀ x, s'.budgetLimits x = none → s'.budgetTotals x = none

/-- A reservation that is not in flight was cancelled. -/
structure Released (s : Store) (r : String) (s' : Store) : Prop where
  nonempty : ∃ b ∈ s.budgets, b.reservationID = r
  unstarted : ∀ b ∈ s.budgets, b.reservationID = r → b.sourceInFlight = false
  frame : ∃ t t', s' = { s with
    subreservations := Table.update (fun sub => sub.reservationID = r) (fun sub => { sub with state := .released })
      s.subreservations
    budgets := Table.update (fun b => b.reservationID = r) (fun b => { b with state := .released }) s.budgets
    budgetTotals := t
    batchBudgetTotals := t'
    budgetEvents := s.budgetEvents ++ (s.budgets.filter fun b => b.reservationID = r).map cancelEvent }
  posted : Posted s s' ((s.budgets.filter fun b => b.reservationID = r).map cancelEvent)
  valid : s'.Valid

/-- The row of a violation is one that can be inserted. -/
def CanRecord (s : Store) (violationID runID : String) : Prop :=
  ViolationRow.Constraints (s.violations ++ [⟨violationID, runID, "budget_reorg_restore_failed"⟩])

/-- The calls for work leases. -/
def LeaseBudgetManager.Call.IsWork : Call → Prop
  | .acquireWork .. | .heartbeatWork .. | .releaseWork .. => True
  | _ => False

/-- What a call can do. -/
inductive Move (s : Store) : Call → Store → Prop
  | idle (call : Call) : Move s call s
  | work (call : Call) (w : List WorkLeaseRow) (valid : WorkLeaseRow.Constraints w) (of : call.IsWork) :
    Move s call { s with workLeases := w }
  | configured {runID : String} {limits : List (Int × BudgetLimit)} {s' : Store} (configured : Configured s s') :
    Move s (.configureLimits runID limits) s'
  | reserved {r a batchID : String} {stages : List PlannedStageBudget} {totals : List (PlannedStageBudget × Int)}
    {attempt : AttemptRow} {s' : Store} (planned : stageTotals stages = .ok totals) (nonempty : stages ≠ [])
    (of : s.attempts a = some attempt) (unstarted : attempt.state = .planned)
    (running : s.runs attempt.runID = some .running)
    (limited : ∀ t ∈ totals, ∃ limit, s.budgetLimits (attempt.runID, t.1.chainID) = some limit)
    (capacity : ∀ c ∈ byChain totals, s.assertCapacity attempt.runID batchID c.1 c.2 0 = .ok ())
    (frame : ∃ t t', s' = { s with
      budgets := s.budgets ++ (byChain totals).map (chainRow r a attempt.runID batchID)
      budgetTotals := t
      batchBudgetTotals := t'
      budgetEvents := s.budgetEvents ++ (byChain totals).map (chainEvent r attempt.runID batchID)
      subreservations := s.subreservations ++ totals.mapIdx (plannedRow r a) })
    (posted : Posted s s' ((byChain totals).map (chainEvent r attempt.runID batchID)))
    (valid : s.Valid → s'.Valid) : Move s (.reserveCompleteRoute r a batchID stages) s'
  | marked {r : String} {b : BudgetRow} {attempt : AttemptRow} {s' : Store} (row : b ∈ s.budgets)
    (of : b.reservationID = r) (running : s.runs b.runID = some .running)
    (planned : s.attempts b.attemptID = some attempt) (unstarted : attempt.state = .planned)
    (frame : s' = { s with
      budgets := Table.update (fun b => b.reservationID = r)
        (fun b => { b with sourceInFlight := true, state := .inFlight }) s.budgets
      attempts := Function.update s.attempts b.attemptID (some { attempt with state := .inFlight }) })
    (valid : s.Valid → s'.Valid) : Move s (.markSourceInFlight r) s'
  | again {leaseID l r k signerID holderID : String} {nonce requested ttl : Int} {sub : SubreservationRow}
    {s' : Store} (row : sub ∈ s.subreservations) (of : sub.reservationID = r) (stage : sub.stageKey = k)
    (started : ∃ b ∈ s.budgets, b.key = sub.key ∧ b.sourceInFlight = true) (fits : requested ≤ sub.reservedWei)
    (frame : s' = { s with
      subreservations := Table.update (fun r => r.subreservationID = sub.subreservationID)
        (fun r => { r with allocatedWei := max r.allocatedWei requested }) s.subreservations })
    (valid : s.Valid → s'.Valid) :
    Move s (.acquireNonceSubreservation leaseID l r k signerID holderID nonce requested ttl) s'
  | bound {leaseID l r k signerID holderID : String} {nonce requested ttl : Int} {sub : SubreservationRow}
    {s' : Store} (row : sub ∈ s.subreservations) (of : sub.reservationID = r) (stage : sub.stageKey = k)
    (started : ∃ b ∈ s.budgets, b.key = sub.key ∧ b.sourceInFlight = true) (nonneg : 0 ≤ requested)
    (fits : requested ≤ sub.reservedWei) (unbound : sub.lineageID = none)
    (frame : s' = { s with
      nonceLeases := s.nonceLeases ++ [⟨leaseID, l, sub.chainID, signerID, holderID, nonce, sub.attemptID, k, r,
        none, .active, true⟩]
      subreservations := Table.update (fun r => r.subreservationID = sub.subreservationID)
        (fun r => { r with lineageID := some l, allocatedWei := requested, state := .active }) s.subreservations })
    (valid : s.Valid → s'.Valid) :
    Move s (.acquireNonceSubreservation leaseID l r k signerID holderID nonce requested ttl) s'
  | wrote {call : Call} {l : String} {sub : SubreservationRow} {b : BudgetRow} {w : LineageWrite}
    {budgets : List BudgetRow} {s' : Store} (of : Bound s l sub b) (write : Write s sub b call l w)
    (keeps : Kept sub.reservationID s.budgets budgets)
    (frame : ∃ t t', s' = { s with
      subreservations := Table.update (fun r => r.lineageID = some l) w.sub s.subreservations
      nonceLeases := Table.update (fun n => n.lineageID = l) w.nonce s.nonceLeases
      budgets := budgets
      budgetTotals := t
      batchBudgetTotals := t'
      budgetEvents := s.budgetEvents ++ [lineageRow sub b w.eventType w.delta] })
    (posted : Posted s s' [lineageRow sub b w.eventType w.delta]) (valid : s.Valid → s'.Valid) : Move s call s'
  | halted {l violationID : String} {sub : SubreservationRow} {b : BudgetRow} (of : s.lineage l = .ok (sub, b))
    (finalized : sub.state = .finalized)
    (capacity : s.assertCapacity b.runID b.batchID sub.chainID sub.reservedWei sub.finalizedWei ≠ .ok ())
    (new : CanRecord s violationID b.runID) :
    Move s (.reopenAfterReorganization l violationID) { s with
      runs := Function.update s.runs b.runID ((s.runs b.runID).map fun _ => .halted)
      violations := s.violations ++ [⟨violationID, b.runID, "budget_reorg_restore_failed"⟩] }
  | released {r : String} {s' : Store} (released : Released s r s') : Move s (.releaseUnstartedRoute r) s'

/-! ## Lineages -/

theorem lineage_eq_ok {l : String} {sub : SubreservationRow} {b : BudgetRow} (h : s.lineage l = .ok (sub, b)) :
    Bound s l sub b := by
  obtain ⟨r, hr, h⟩ := orRevert_bind.mp h
  obtain ⟨-, h⟩ := revertIf_bind.mp h
  obtain ⟨b', hb, h⟩ := orRevert_bind.mp h
  obtain ⟨rfl, rfl⟩ := Prod.mk.inj (pure_eq_ok.mp h)
  exact ⟨List.mem_of_find?_eq_some hr, by simpa using List.find?_some hr, List.mem_of_find?_eq_some hb,
    by simpa [owner] using List.find?_some hb⟩

theorem Kept.update {r : String} {p : BudgetRow → Prop} [DecidablePred p] {g : BudgetRow → BudgetRow}
    (hp : ∀ b, p b → b.reservationID = r)
    (hg : ∀ b, (g b).fixed = b.fixed ∧ (g b).sourceInFlight = b.sourceInFlight) (rows : List BudgetRow) :
    Kept r rows (Table.update p g rows) := by
  refine Table.forall₂_update fun b _ => ?_
  split
  · exact ⟨(hg b).1, (hg b).2, fun hr => absurd (hp b ‹_›) hr⟩
  · exact ⟨rfl, rfl, fun _ => rfl⟩

theorem Kept.trans {r : String} {rows rows' rows'' : List BudgetRow} (h : Kept r rows rows')
    (h' : Kept r rows' rows'') : Kept r rows rows'' := by
  induction h generalizing rows'' with
  | nil => exact h'
  | @cons b b' rows rows' hb _ ih =>
    cases h' with
    | cons hb' h' =>
      have hr : b'.fixed.reservationID = b.fixed.reservationID := congrArg BudgetRow.reservationID hb.1
      exact .cons ⟨hb'.1.trans hb.1, hb'.2.1.trans hb.2.1, fun hn => (hb'.2.2 (hr ▸ hn)).trans (hb.2.2 hn)⟩ (ih h')

theorem settleCompletedBudgetRows_eq_ok {r : String} (h : s.settleCompletedBudgetRows r = .ok s') :
    ∃ rows, Kept r s.budgets rows ∧ BudgetRow.Constraints rows ∧ s' = { s with budgets := rows } := by
  obtain ⟨hb, rfl⟩ := putBudgets_eq_ok.mp h
  refine ⟨_, Kept.update ?_ ?_ _, hb, rfl⟩
  · exact fun _ hx => hx.1
  · exact fun _ => ⟨rfl, rfl⟩

theorem writeLineage_eq_ok {l : String} {sub : SubreservationRow} {b : BudgetRow} {w : LineageWrite}
    (h : s.writeLineage l sub b w = .ok s') :
    (∃ t t', s' = { s with
      subreservations := Table.update (fun r => r.lineageID = some l) w.sub s.subreservations
      nonceLeases := Table.update (fun n => n.lineageID = l) w.nonce s.nonceLeases
      budgets := Table.update (fun b => b.key = sub.key) w.budget s.budgets
      budgetTotals := t
      batchBudgetTotals := t'
      budgetEvents := s.budgetEvents ++ [lineageRow sub b w.eventType w.delta] }) ∧
    Posted s s' [lineageRow sub b w.eventType w.delta] ∧ s'.Valid := by
  obtain ⟨s₁, h₁, h⟩ := bind_eq_ok.mp h
  obtain ⟨hs, rfl⟩ := putSubreservations_eq_ok.mp h₁
  obtain ⟨s₂, h₂, h⟩ := bind_eq_ok.mp h
  obtain ⟨hn, rfl⟩ := putNonceLeases_eq_ok.mp h₂
  obtain ⟨s₃, h₃, h⟩ := bind_eq_ok.mp h
  obtain ⟨hb, rfl⟩ := putBudgets_eq_ok.mp h₃
  obtain ⟨s₄, h₄, h⟩ := bind_eq_ok.mp h
  obtain ⟨⟨t, t', rfl⟩, posted⟩ := changeTotals_eq_ok (e := lineageRow sub b w.eventType w.delta) h₄
  obtain rfl := pure_eq_ok.mp h
  exact ⟨⟨t, t', rfl⟩, ⟨posted.events, posted.present, posted.valid, posted.col⟩, ⟨hb, hs⟩⟩

theorem Write.budget_fixed {sub : SubreservationRow} {b : BudgetRow} {call : Call} {l : String} {w : LineageWrite}
    (h : Write s sub b call l w) (x : BudgetRow) :
    (w.budget x).fixed = x.fixed ∧ (w.budget x).sourceInFlight = x.sourceInFlight := by
  cases h <;> exact ⟨rfl, rfl⟩

/-- A write to the rows of a lineage. -/
theorem Move.of_write {call : Call} {l : String} {sub : SubreservationRow} {b : BudgetRow} {w : LineageWrite}
    (of : Bound s l sub b) (write : Write s sub b call l w) (h : s.writeLineage l sub b w = .ok s') :
    Move s call s' := by
  obtain ⟨⟨t, t', rfl⟩, posted, valid⟩ := writeLineage_eq_ok h
  exact .wrote of write (Kept.update (fun _ hb => congrArg Prod.fst hb) write.budget_fixed _) ⟨t, t', rfl⟩ posted
    fun _ => valid

/-- A write to the rows of a lineage, after which the rows of its reservation are settled. -/
theorem Move.of_settle {call : Call} {l : String} {sub : SubreservationRow} {b : BudgetRow} {w : LineageWrite}
    {s₁ : Store} (of : Bound s l sub b) (write : Write s sub b call l w) (h : s.writeLineage l sub b w = .ok s₁)
    (hs : s₁.settleCompletedBudgetRows sub.reservationID = .ok s') : Move s call s' := by
  obtain ⟨⟨t, t', rfl⟩, posted, valid⟩ := writeLineage_eq_ok h
  obtain ⟨rows, settled, hb, rfl⟩ := settleCompletedBudgetRows_eq_ok hs
  have written := Kept.update (p := fun x => x.key = sub.key) (fun _ hx => congrArg Prod.fst hx) write.budget_fixed
    s.budgets
  exact .wrote of write (written.trans settled) ⟨t, t', rfl⟩ ⟨posted.events, posted.present, posted.valid, posted.col⟩
    fun _ => ⟨hb, valid.subs⟩

theorem markLineagePending_move {l state : String} (h : markLineagePending s l state = .ok s') :
    Move s (.markLineagePending l state) s' := by
  obtain ⟨pending, hp, h⟩ := orRevert_bind.mp h
  obtain ⟨⟨sub, b⟩, hl, h⟩ := bind_eq_ok.mp h
  obtain ⟨hs, h⟩ := revertIf_bind.mp h
  obtain ⟨s₁, h₁, h⟩ := bind_eq_ok.mp h
  obtain ⟨hn, rfl⟩ := putNonceLeases_eq_ok.mp h₁
  obtain ⟨s₂, h₂, h⟩ := bind_eq_ok.mp h
  obtain ⟨hr, rfl⟩ := putSubreservations_eq_ok.mp h₂
  obtain rfl := pure_eq_ok.mp h
  have kept : Kept sub.reservationID s.budgets s.budgets := List.forall₂_same.mpr fun _ _ => ⟨rfl, rfl, fun _ => rfl⟩
  refine .wrote (lineage_eq_ok hl) (.pending hp hs) kept ⟨_, _, rfl⟩
    ⟨rfl, fun _ hk => hk, fun _ hk => hk, fun _ k c => ?_⟩
    fun hv => ⟨hv.budgets, hr⟩
  rw [Table.total_cons, Table.total_nil, worth]
  show _ = (s.totals k).col c + ((if _ then (0 : Amounts).col c else 0) + 0)
  rw [Amounts.col_zero, ite_self]
  exact (add_zero _).symm

theorem recordIncluded_move {l : String} {actual : Int} (h : recordIncluded s l actual = .ok s') :
    Move s (.recordIncluded l actual) s' := by
  obtain ⟨ha, h⟩ := revertIf_bind.mp h
  obtain ⟨⟨sub, b⟩, hl, h⟩ := bind_eq_ok.mp h
  obtain ⟨hs, h⟩ := revertIf_bind.mp h
  obtain ⟨hf, h⟩ := revertIf_bind.mp h
  exact .of_write (lineage_eq_ok hl) (.included (not_lt.mp ha) hs (not_lt.mp hf)) h

theorem finalizeLineage_move {l : String} {actual : Int} (h : finalizeLineage s l actual = .ok s') :
    Move s (.finalizeLineage l actual) s' := by
  obtain ⟨ha, h⟩ := revertIf_bind.mp h
  obtain ⟨⟨sub, b⟩, hl, h⟩ := bind_eq_ok.mp h
  dsimp only at h
  split at h
  · obtain ⟨-, h⟩ := revertIf_bind.mp h
    obtain rfl := pure_eq_ok.mp h
    exact .idle _
  · rename_i hn
    obtain ⟨hs, h⟩ := revertIf_bind.mp h
    obtain ⟨hf, h⟩ := revertIf_bind.mp h
    obtain ⟨s₁, h₁, h⟩ := bind_eq_ok.mp h
    exact .of_settle (lineage_eq_ok hl) (.finalized (not_lt.mp ha) hn hs (not_lt.mp hf)) h₁ h

theorem releaseDeadLineage_move {l : String} {proof manual : Option String} {destroyed : Bool}
    (h : releaseDeadLineage s l proof destroyed manual = .ok s') :
    Move s (.releaseDeadLineage l proof destroyed manual) s' := by
  obtain ⟨hm, h⟩ := revertIf_bind.mp h
  obtain ⟨hd, h⟩ := revertIf_bind.mp h
  obtain ⟨⟨sub, b⟩, hl, h⟩ := bind_eq_ok.mp h
  obtain ⟨hs, h⟩ := revertIf_bind.mp h
  split at h
  · obtain rfl := pure_eq_ok.mp h
    exact .idle _
  · rename_i hn
    obtain ⟨s₁, h₁, h⟩ := bind_eq_ok.mp h
    have reason : Releasable proof destroyed manual := ⟨hm, by simpa using hd⟩
    exact .of_settle (lineage_eq_ok hl) (.dead reason hs hn) h₁ h

theorem reopenAfterReorganization_move {l violation : String} {raised : Except LabError Unit}
    (h : reopenAfterReorganization s l violation = .ok (s', raised)) :
    Move s (.reopenAfterReorganization l violation) s' := by
  obtain ⟨⟨sub, b⟩, hl, h⟩ := bind_eq_ok.mp h
  dsimp only at h
  split at h
  · rename_i hi
    obtain ⟨s₁, h₁, h⟩ := bind_eq_ok.mp h
    obtain ⟨rfl, -⟩ := Prod.mk.inj (pure_eq_ok.mp h)
    exact .of_write (lineage_eq_ok hl) (.reopenIncluded hi) h₁
  · obtain ⟨hf, h⟩ := revertIf_bind.mp h
    cases hc : s.assertCapacity b.runID b.batchID sub.chainID sub.reservedWei sub.finalizedWei with
    | ok =>
      rw [hc] at h
      obtain ⟨s₁, h₁, h⟩ := bind_eq_ok.mp h
      obtain ⟨rfl, -⟩ := Prod.mk.inj (pure_eq_ok.mp h)
      exact .of_write (lineage_eq_ok hl) (.reopenFinalized (not_not.mp hf) hc) h₁
    | error e =>
      rw [hc] at h
      obtain ⟨s₁, h₁, h⟩ := bind_eq_ok.mp h
      obtain ⟨rfl, -⟩ := Prod.mk.inj (pure_eq_ok.mp h)
      obtain ⟨new, rfl⟩ := putViolations_eq_ok.mp h₁
      exact .halted hl (not_not.mp hf) (by simp [hc]) new

/-! ## Limits and work leases -/

theorem Configured.refl (s : Store) : Configured s s where
  frame := ⟨_, _, rfl⟩
  totals := fun _ => rfl
  present := fun _ h => h
  limits := fun _ l h => .inl ⟨l.observedRunnerBalanceWei, h⟩
  kept := fun _ h => h
  limited := fun h => h

theorem Configured.trans {s'' : Store} (h : Configured s s') (h' : Configured s' s'') : Configured s s'' where
  frame := by
    obtain ⟨_, _, rfl⟩ := h.frame
    obtain ⟨l, t, rfl⟩ := h'.frame
    exact ⟨l, t, rfl⟩
  totals := fun k => (h'.totals k).trans (h.totals k)
  present := fun k hk => h'.present k (h.present k hk)
  limits := fun x l hl => by
    rcases h'.limits x l hl with ⟨v, hv⟩ | ⟨hn, hl⟩
    · rcases h.limits x _ hv with ⟨v', hv'⟩ | hn
      · exact .inl ⟨v', hv'⟩
      · exact .inr hn
    · exact .inr ⟨by_contra fun hs => h.kept x hs hn, hl⟩
  kept := fun x hx => h'.kept x (h.kept x hx)
  limited := fun h0 => h'.limited (h.limited h0)

/-- A limit is stored for a chain, which has no other limits than before. -/
theorem Configured.of_limit {x : String × Int} {limit : BudgetLimit} (hv : limit.Valid)
    (ho : limit.maxTransactionWei ≤ limit.maxBatchWei ∧ limit.maxBatchWei ≤ limit.maxRunWei)
    (hi : ∀ present, s.budgetLimits x = some present →
      { present with observedRunnerBalanceWei := limit.observedRunnerBalanceWei } = limit) :
    Configured s { s with budgetLimits := Function.update s.budgetLimits x (some limit) } where
  frame := ⟨_, _, rfl⟩
  totals := fun _ => rfl
  present := fun _ h => h
  limits := fun y l hl => by
    by_cases hy : y = x
    · subst hy
      have hl : Function.update s.budgetLimits y (some limit) y = some l := hl
      rw [Function.update_self] at hl
      obtain rfl := Option.some.inj hl
      cases hs : s.budgetLimits y with
      | none => exact .inr ⟨rfl, hv.2.1.1, ho.2⟩
      | some present =>
        rw [← hi present hs]
        exact .inl ⟨present.observedRunnerBalanceWei, rfl⟩
    · have hl : Function.update s.budgetLimits x (some limit) y = some l := hl
      rw [Function.update_of_ne hy] at hl
      exact .inl ⟨l.observedRunnerBalanceWei, hl⟩
  kept := fun y hy => by
    show Function.update s.budgetLimits x (some limit) y ≠ none
    rw [Function.update_apply]
    split
    · exact Option.some_ne_none _
    · exact hy
  limited := fun h0 y hy => by
    have hy : Function.update s.budgetLimits x (some limit) y = none := hy
    rw [Function.update_apply] at hy
    split at hy
    · cases hy
    · exact h0 y hy

/-- The row of totals of a chain that has limits, before anything is reserved. -/
theorem Configured.of_totals {runID : String} {chainID : Int} (hl : s.budgetLimits (runID, chainID) ≠ none)
    (ht : s.budgetTotals (runID, chainID) = none) :
    Configured s { s with budgetTotals := Function.update s.budgetTotals (runID, chainID) (some 0) } where
  frame := ⟨_, _, rfl⟩
  totals := fun k => by
    cases hk : k.batchID with
    | none =>
      rw [Store.totals, Store.totals, totalsRow_none hk, totalsRow_none hk]
      show (Function.update s.budgetTotals (runID, chainID) (some 0) (k.runID, k.chainID)).getD 0 = _
      rw [Function.update_apply]
      split
      · rename_i he
        rw [he, ht]
        rfl
      · rfl
    | some b => rw [Store.totals, Store.totals, totalsRow_some hk, totalsRow_some hk]
  present := fun k hp => by
    cases hk : k.batchID with
    | none =>
      rw [totalsRow_none hk] at hp ⊢
      show Function.update s.budgetTotals (runID, chainID) (some 0) (k.runID, k.chainID) ≠ none
      rw [Function.update_apply]
      split
      · exact Option.some_ne_none _
      · exact hp
    | some b =>
      rw [totalsRow_some hk] at hp ⊢
      exact hp
  limits := fun _ l h => .inl ⟨l.observedRunnerBalanceWei, h⟩
  kept := fun _ h => h
  limited := fun h0 y hy => by
    have hx : y ≠ (runID, chainID) := fun hx => hl (hx ▸ hy)
    exact (Function.update_of_ne hx ..).trans (h0 y hy)

theorem configureLimit_eq_ok {runID : String} {row : Int × BudgetLimit} (h : configureLimit runID s row = .ok s') :
    Configured s s' := by
  obtain ⟨chainID, limit⟩ := row
  obtain ⟨-, h⟩ := revertIf_bind.mp h
  obtain ⟨ho, h⟩ := revertIf_bind.mp h
  obtain ⟨hi, h⟩ := revertIf_bind.mp h
  obtain ⟨s₁, h₁, h⟩ := bind_eq_ok.mp h
  rw [putBudgetLimit] at h₁
  split at h₁
  · rename_i hv
    obtain rfl := Except.ok.inj h₁
    have limited := Configured.of_limit hv.1 (not_not.mp ho) fun present hp => by_contra fun hn => hi ⟨present, hp, hn⟩
    split at h
    · obtain rfl := pure_eq_ok.mp h
      exact limited
    · rename_i ht
      obtain ⟨-, rfl⟩ := putBudgetTotals_eq_ok.mp h
      refine limited.trans (.of_totals ?_ ht)
      show Function.update s.budgetLimits (runID, chainID) (some limit) (runID, chainID) ≠ none
      rw [Function.update_self]
      exact Option.some_ne_none _
  · cases h₁

theorem configureLimits_move {runID : String} {limits : List (Int × BudgetLimit)}
    (h : configureLimits s runID limits = .ok s') : Move s (.configureLimits runID limits) s' := by
  obtain ⟨-, h⟩ := revertIf_bind.mp h
  obtain ⟨-, h⟩ := revertIf_bind.mp h
  obtain ⟨_, -, h⟩ := orRevert_bind.mp h
  refine .configured ?_
  clear * - h
  induction limits generalizing s with
  | nil => exact Except.ok.inj h ▸ .refl s
  | cons row limits ih =>
    obtain ⟨s₁, h₁, h⟩ := foldlM_cons_eq_ok.mp h
    exact (configureLimit_eq_ok h₁).trans (ih h)

theorem expireWork_eq_ok {attemptID : String} {now : Int} (h : expireWork s attemptID now = .ok s') :
    ∃ w, s' = { s with workLeases := w } := by
  rw [expireWork] at h
  split at h
  · exact ⟨_, (Except.ok.inj h).symm⟩
  · obtain ⟨-, h⟩ := revertIf_bind.mp h
    obtain ⟨-, h⟩ := revertIf_bind.mp h
    obtain ⟨-, rfl⟩ := putWorkLeases_eq_ok.mp h
    exact ⟨_, rfl⟩

theorem acquireWork_move {leaseID attemptID holderID : String} {ttl now : Int}
    (h : acquireWork s leaseID attemptID holderID ttl now = .ok s') :
    Move s (.acquireWork leaseID attemptID holderID ttl now) s' := by
  obtain ⟨-, h⟩ := revertIf_bind.mp h
  obtain ⟨_, -, h⟩ := orRevert_bind.mp h
  obtain ⟨s₁, h₁, h⟩ := bind_eq_ok.mp h
  obtain ⟨w, rfl⟩ := expireWork_eq_ok h₁
  obtain ⟨hc, rfl⟩ := putWorkLeases_eq_ok.mp h
  exact .work _ _ hc trivial

theorem heartbeatWork_move {leaseID holderID : String} {ttl now : Int}
    (h : heartbeatWork s leaseID holderID ttl now = .ok s') : Move s (.heartbeatWork leaseID holderID ttl now) s' := by
  obtain ⟨-, h⟩ := revertIf_bind.mp h
  obtain ⟨_, -, h⟩ := bind_eq_ok.mp h
  obtain ⟨-, h⟩ := revertIf_bind.mp h
  obtain ⟨hc, rfl⟩ := putWorkLeases_eq_ok.mp h
  exact .work _ _ hc trivial

theorem releaseWork_move {leaseID holderID : String} (h : releaseWork s leaseID holderID = .ok s') :
    Move s (.releaseWork leaseID holderID) s' := by
  obtain ⟨_, -, h⟩ := bind_eq_ok.mp h
  obtain ⟨hc, rfl⟩ := putWorkLeases_eq_ok.mp h
  exact .work _ _ hc trivial

/-! ## Reservations -/

theorem reserveChains_eq_ok {r a runID batchID : String} {chains : List (Int × Int)}
    (h : chains.foldlM (reserveChain r a runID batchID) s = .ok s') :
    (∃ t t', s' = { s with
      budgets := s.budgets ++ chains.map (chainRow r a runID batchID)
      budgetTotals := t
      batchBudgetTotals := t'
      budgetEvents := s.budgetEvents ++ chains.map (chainEvent r runID batchID) }) ∧
    Posted s s' (chains.map (chainEvent r runID batchID)) ∧
    (BudgetRow.Constraints s.budgets → BudgetRow.Constraints s'.budgets) := by
  induction chains generalizing s with
  | nil =>
    obtain rfl := Except.ok.inj h
    refine ⟨⟨s.budgetTotals, s.batchBudgetTotals, ?_⟩, .nil s, id⟩
    rw [List.map_nil, List.map_nil, List.append_nil, List.append_nil]
  | cons c chains ih =>
    obtain ⟨s₁, h₁, h⟩ := foldlM_cons_eq_ok.mp h
    obtain ⟨s₂, h₂, h₁⟩ := bind_eq_ok.mp h₁
    obtain ⟨hb, rfl⟩ := putBudgets_eq_ok.mp h₂
    obtain ⟨s₃, h₃, h₁⟩ := bind_eq_ok.mp h₁
    obtain ⟨⟨t, t', rfl⟩, posted⟩ := changeTotals_eq_ok (e := chainEvent r runID batchID c) h₃
    obtain rfl := pure_eq_ok.mp h₁
    obtain ⟨⟨u, u', rfl⟩, posted', hc⟩ := ih h
    refine ⟨⟨u, u', ?_⟩, ?_, fun _ => hc hb⟩
    · simp only [event, List.map_cons, List.append_assoc, List.cons_append, List.nil_append]
      rfl
    · have first : Posted s _ [chainEvent r runID batchID c] :=
        ⟨posted.events, posted.present, posted.valid, posted.col⟩
      exact first.trans posted'

theorem reserveCompleteRoute_move {r a batchID : String} {stages : List PlannedStageBudget}
    (h : reserveCompleteRoute s r a batchID stages = .ok s') :
    Move s (.reserveCompleteRoute r a batchID stages) s' := by
  obtain ⟨hn, h⟩ := revertIf_bind.mp h
  obtain ⟨-, h⟩ := revertIf_bind.mp h
  obtain ⟨totals, ht, h⟩ := bind_eq_ok.mp h
  obtain ⟨attempt, ha, h⟩ := orRevert_bind.mp h
  obtain ⟨mode, hm, h⟩ := orRevert_bind.mp h
  obtain ⟨hp, h⟩ := revertIf_bind.mp h
  obtain ⟨hr, h⟩ := revertIf_bind.mp h
  obtain ⟨-, h⟩ := revertIf_bind.mp h
  obtain ⟨hl, h⟩ := unit_bind.mp h
  obtain ⟨hc, h⟩ := unit_bind.mp h
  obtain ⟨s₁, h₁, h⟩ := bind_eq_ok.mp h
  obtain ⟨⟨t, t', rfl⟩, posted, hb⟩ := reserveChains_eq_ok h₁
  obtain ⟨s₂, h₂, h⟩ := bind_eq_ok.mp h
  obtain ⟨hs, rfl⟩ := putSubreservations_eq_ok.mp h₂
  obtain ⟨-, h⟩ := revertIf_bind.mp h
  obtain rfl := pure_eq_ok.mp h
  obtain rfl := not_not.mp hr
  refine .reserved ht (by simpa using hn) ha (not_not.mp hp) hm (fun t ht => ?_) (forM_eq_ok.mp hc) ⟨t, t', rfl⟩
    ⟨posted.events, posted.present, posted.valid, posted.col⟩ fun hv => ⟨hb hv.budgets, hs⟩
  obtain ⟨limit, hl, -⟩ := bind_eq_ok.mp (forM_eq_ok.mp hl t ht)
  exact ⟨limit, orRevert_eq_ok.mp hl⟩

theorem markSourceInFlight_move {r : String} (h : markSourceInFlight s r = .ok s') :
    Move s (.markSourceInFlight r) s' := by
  rw [markSourceInFlight] at h
  split at h
  · cases h
  · rename_i b mode rest hrows
    split at h
    · obtain rfl := Except.ok.inj h
      exact .idle _
    · obtain ⟨hm, h⟩ := revertIf_bind.mp h
      obtain ⟨attempt, ha, h⟩ := orRevert_bind.mp h
      obtain ⟨hp, h⟩ := revertIf_bind.mp h
      obtain ⟨s₁, h₁, h⟩ := bind_eq_ok.mp h
      obtain ⟨hb, rfl⟩ := putBudgets_eq_ok.mp h₁
      obtain rfl := pure_eq_ok.mp h
      obtain rfl := not_not.mp hm
      have hmem : (b, ControlMode.running) ∈ reservationRows s r := hrows ▸ List.mem_cons_self
      obtain ⟨b', hb', hs⟩ := List.mem_filterMap.mp hmem
      obtain ⟨mode, hm, he⟩ := Option.map_eq_some_iff.mp hs
      obtain ⟨rfl, rfl⟩ := Prod.mk.inj he
      obtain ⟨hb', hr⟩ := List.mem_filter.mp hb'
      exact .marked hb' (of_decide_eq_true hr) hm ha (not_not.mp hp) rfl fun hv => ⟨hb, hv.subs⟩

theorem acquireNonceSubreservation_move {leaseID l r k signerID holderID : String} {nonce requested ttl : Int}
    (h : acquireNonceSubreservation s leaseID l r k signerID holderID nonce requested ttl = .ok s') :
    Move s (.acquireNonceSubreservation leaseID l r k signerID holderID nonce requested ttl) s' := by
  obtain ⟨h0, h⟩ := revertIf_bind.mp h
  obtain ⟨sub, hs, h⟩ := orRevert_bind.mp h
  obtain ⟨b, ho, h⟩ := orRevert_bind.mp h
  obtain ⟨hb, h⟩ := revertIf_bind.mp h
  obtain ⟨hf, h⟩ := revertIf_bind.mp h
  obtain ⟨_, -, h⟩ := bind_eq_ok.mp h
  obtain ⟨-, h⟩ := revertIf_bind.mp h
  obtain ⟨-, h⟩ := revertIf_bind.mp h
  have row := List.mem_of_find?_eq_some hs
  obtain ⟨hr, hk⟩ : sub.reservationID = r ∧ sub.stageKey = k := by simpa using List.find?_some hs
  have started : ∃ b ∈ s.budgets, b.key = sub.key ∧ b.sourceInFlight = true :=
    ⟨b, List.mem_of_find?_eq_some ho, by simpa using List.find?_some ho, by simpa using hb⟩
  split at h
  · obtain ⟨-, h⟩ := revertIf_bind.mp h
    obtain ⟨hc, rfl⟩ := putSubreservations_eq_ok.mp h
    exact .again row hr hk started (not_lt.mp hf) rfl fun hv => ⟨hv.budgets, hc⟩
  · obtain ⟨hu, h⟩ := revertIf_bind.mp h
    obtain ⟨s₁, h₁, h⟩ := bind_eq_ok.mp h
    obtain ⟨hn, rfl⟩ := putNonceLeases_eq_ok.mp h₁
    obtain ⟨hc, rfl⟩ := putSubreservations_eq_ok.mp h
    exact .bound row hr hk started (by omega) (not_lt.mp hf) (not_not.mp hu) rfl fun hv => ⟨hv.budgets, hc⟩

theorem releaseChains_eq_ok {rows : List BudgetRow} (h : rows.foldlM releaseChain s = .ok s') :
    (∃ t t', s' = { s with
      budgetTotals := t, batchBudgetTotals := t', budgetEvents := s.budgetEvents ++ rows.map cancelEvent }) ∧
    Posted s s' (rows.map cancelEvent) := by
  induction rows generalizing s with
  | nil =>
    obtain rfl := Except.ok.inj h
    refine ⟨⟨s.budgetTotals, s.batchBudgetTotals, ?_⟩, .nil s⟩
    rw [List.map_nil, List.append_nil]
  | cons b rows ih =>
    obtain ⟨s₁, h₁, h⟩ := foldlM_cons_eq_ok.mp h
    obtain ⟨s₂, h₂, h₁⟩ := bind_eq_ok.mp h₁
    obtain ⟨⟨t, t', rfl⟩, posted⟩ := changeTotals_eq_ok (e := cancelEvent b) h₂
    obtain rfl := pure_eq_ok.mp h₁
    obtain ⟨⟨u, u', rfl⟩, posted'⟩ := ih h
    refine ⟨⟨u, u', ?_⟩, posted.trans posted'⟩
    simp only [event, List.map_cons, List.append_assoc, List.cons_append, List.nil_append]
    rfl

theorem releaseUnstartedRoute_eq_ok {r : String} (h : releaseUnstartedRoute s r = .ok s') : Released s r s' := by
  obtain ⟨hn, h⟩ := revertIf_bind.mp h
  obtain ⟨hu, h⟩ := revertIf_bind.mp h
  obtain ⟨s₁, h₁, h⟩ := bind_eq_ok.mp h
  obtain ⟨⟨t, t', rfl⟩, posted⟩ := releaseChains_eq_ok h₁
  obtain ⟨s₂, h₂, h⟩ := bind_eq_ok.mp h
  obtain ⟨hs, rfl⟩ := putSubreservations_eq_ok.mp h₂
  obtain ⟨hb, rfl⟩ := putBudgets_eq_ok.mp h
  refine ⟨?_, fun b hb hr => ?_, ⟨t, t', rfl⟩, ⟨posted.events, posted.present, posted.valid, posted.col⟩, ⟨hb, hs⟩⟩
  · simpa using hn
  · simpa using fun ht => hu ⟨b, List.mem_filter.mpr ⟨hb, decide_eq_true hr⟩, ht⟩

/-! ## Stop states -/

/-- A move leaves the controls as they are, and the state of a run unless its reorganization fails. -/
theorem Move.stop_states {call : Call} (hm : Move s call s') : s'.runControls = s.runControls ∧ (s'.runs = s.runs ∨
    ∃ l violationID sub b, call = .reopenAfterReorganization l violationID ∧ s.lineage l = .ok (sub, b) ∧
      sub.state = .finalized ∧
      s.assertCapacity b.runID b.batchID sub.chainID sub.reservedWei sub.finalizedWei ≠ .ok () ∧
      CanRecord s violationID b.runID ∧
      s'.runs = Function.update s.runs b.runID ((s.runs b.runID).map fun _ => .halted)) := by
  cases hm with
  | idle => exact ⟨rfl, .inl rfl⟩
  | work => exact ⟨rfl, .inl rfl⟩
  | configured hc =>
    obtain ⟨_, _, rfl⟩ := hc.frame
    exact ⟨rfl, .inl rfl⟩
  | reserved _ _ _ _ _ _ _ frame =>
    obtain ⟨_, _, rfl⟩ := frame
    exact ⟨rfl, .inl rfl⟩
  | marked _ _ _ _ _ frame =>
    subst frame
    exact ⟨rfl, .inl rfl⟩
  | again _ _ _ _ _ frame =>
    subst frame
    exact ⟨rfl, .inl rfl⟩
  | bound _ _ _ _ _ _ _ frame =>
    subst frame
    exact ⟨rfl, .inl rfl⟩
  | wrote _ _ _ frame =>
    obtain ⟨_, _, rfl⟩ := frame
    exact ⟨rfl, .inl rfl⟩
  | halted of finalized capacity new => exact ⟨rfl, .inr ⟨_, _, _, _, rfl, of, finalized, capacity, new, rfl⟩⟩
  | released released =>
    obtain ⟨_, _, rfl⟩ := released.frame
    exact ⟨rfl, .inl rfl⟩

/-! ## Calls -/

/-- What a call commits is a move. -/
theorem LeaseBudgetManager.Call.commit_move {call : Call} (h : call.commit s = .ok s') : Move s call s' := by
  cases call with
  | configureLimits => exact configureLimits_move h
  | acquireWork => exact acquireWork_move h
  | heartbeatWork => exact heartbeatWork_move h
  | releaseWork => exact releaseWork_move h
  | reserveCompleteRoute => exact reserveCompleteRoute_move h
  | markSourceInFlight => exact markSourceInFlight_move h
  | acquireNonceSubreservation => exact acquireNonceSubreservation_move h
  | markLineagePending => exact markLineagePending_move h
  | recordIncluded => exact recordIncluded_move h
  | finalizeLineage => exact finalizeLineage_move h
  | releaseDeadLineage => exact releaseDeadLineage_move h
  | reopenAfterReorganization =>
    rw [commit] at h
    cases hr : LeaseBudgetManager.reopenAfterReorganization s _ _ with
    | error e =>
      rw [hr] at h
      cases h
    | ok x =>
      rw [hr] at h
      obtain rfl := Except.ok.inj h
      exact reopenAfterReorganization_move hr
  | releaseUnstartedRoute => exact .released (releaseUnstartedRoute_eq_ok h)

theorem LeaseBudgetManager.Call.after_move (call : Call) (s : Store) : Move s call (call.after s) := by
  rw [after]
  split
  · exact commit_move ‹_›
  · exact .idle call

end Xir.Impl.XirLab
