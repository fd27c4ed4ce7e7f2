import Xir.Proof.Reservations

/-!
# A reservation that was released before it started

After `release_unstarted_route`, nothing is leased, included or finalized for
the reservation (`Cancelled`) as long as it is not marked in flight and not
released once more: `mark_source_in_flight` looks at the attempt and at the run,
and `release_unstarted_route` at the flag `source_in_flight`, and neither at the
state `released`.
-/

namespace Xir.Impl.XirLab

open Store LeaseBudgetManager

variable {s s' : Store} {r : String}

/-- The reservation is released, and nothing was started for it. -/
structure Cancelled (s : Store) (r : String) : Prop where
  known : ∃ b ∈ s.budgets, b.reservationID = r
  budgets : ∀ b ∈ s.budgets, b.reservationID = r → b.sourceInFlight = false ∧ b.state = .released
  stages : ∀ sub ∈ s.subreservations, sub.reservationID = r → sub.state = .released ∧ sub.lineageID = none
  nonces : ∀ n ∈ s.nonceLeases, n.reservationID ≠ r

/-- What the events of a reservation changed of the reserved totals. -/
def Store.subtracted (s : Store) (r : String) : Int :=
  Table.total (fun e => if e.reservationID = r then e.delta.reserved else 0) s.budgetEvents

/-- The rows of a reservation stay as they are, and nothing more is subtracted for it. -/
structure Untouched (r : String) (s s' : Store) : Prop where
  budgets : s'.budgets.filter (·.reservationID = r) = s.budgets.filter (·.reservationID = r)
  stages : s'.subreservations.filter (·.reservationID = r) = s.subreservations.filter (·.reservationID = r)
  nonces : (∀ n ∈ s.nonceLeases, n.reservationID ≠ r) → ∀ n ∈ s'.nonceLeases, n.reservationID ≠ r
  subtracted : s'.subtracted r = s.subtracted r

/-- Some total is smaller than what a row of the reservation holds. -/
def TooSmall (s : Store) (r : String) : Prop :=
  ∃ b ∈ s.budgets, b.reservationID = r ∧ ((s.totals ⟨b.runID, none, b.chainID⟩).reserved < b.reservedWei ∨
    (s.totals ⟨b.runID, some b.batchID, b.chainID⟩).reserved < b.reservedWei)

instance (s : Store) (r : String) : Decidable (TooSmall s r) := inferInstanceAs (Decidable (∃ b ∈ s.budgets, _))

/-- A call does not mark the reservation in flight, and releases it only if this
subtracts nothing: every amount is zero, or some total is too small. -/
def Spares (r : String) (s : Store) : Call → Prop
  | .markSourceInFlight r' => r' = r → ∀ b ∈ s.budgets, b.reservationID = r → ∀ attempt,
    s.attempts b.attemptID = some attempt → attempt.state = .planned → s.runs b.runID ≠ some .running
  | .releaseUnstartedRoute r' => r' = r →
    (∀ b ∈ s.budgets, b.reservationID = r → b.reservedWei = 0) ∨ TooSmall s r
  | _ => True

theorem Untouched.refl (r : String) (s : Store) : Untouched r s s := ⟨rfl, rfl, id, rfl⟩

theorem Untouched.trans {s'' : Store} (h : Untouched r s s') (h' : Untouched r s' s'') : Untouched r s s'' :=
  ⟨h'.budgets.trans h.budgets, h'.stages.trans h.stages, fun hn => h'.nonces (h.nonces hn),
    h'.subtracted.trans h.subtracted⟩

theorem Cancelled.of_untouched (h : Cancelled s r) (hu : Untouched r s s') : Cancelled s' r := by
  have hb : ∀ b, b ∈ s'.budgets ∧ b.reservationID = r ↔ b ∈ s.budgets ∧ b.reservationID = r := fun b => by
    simpa using congrArg (b ∈ ·) hu.budgets
  have hs : ∀ sub, sub ∈ s'.subreservations ∧ sub.reservationID = r ↔
      sub ∈ s.subreservations ∧ sub.reservationID = r := fun sub => by
    simpa using congrArg (sub ∈ ·) hu.stages
  obtain ⟨b, hbm, hbr⟩ := h.known
  obtain ⟨hbm, hbr⟩ := (hb b).mpr ⟨hbm, hbr⟩
  refine ⟨⟨b, hbm, hbr⟩, fun b hbm hbr => ?_, fun sub hsm hsr => ?_, hu.nonces h.nonces⟩
  · obtain ⟨hbm, hbr⟩ := (hb b).mp ⟨hbm, hbr⟩
    exact h.budgets b hbm hbr
  · obtain ⟨hsm, hsr⟩ := (hs sub).mp ⟨hsm, hsr⟩
    exact h.stages sub hsm hsr

theorem subtracted_append {es : List BudgetEventRow} (he : s'.budgetEvents = s.budgetEvents ++ es)
    (h0 : ∀ e ∈ es, e.reservationID = r → e.delta.reserved = 0) : s'.subtracted r = s.subtracted r := by
  have hz : Table.total (fun e => if e.reservationID = r then e.delta.reserved else 0) es = 0 :=
    Table.total_eq_zero fun e hm => by
      split
      · exact h0 e hm ‹_›
      · rfl
  rw [subtracted, he, Table.total_append, hz, add_zero]
  rfl

/-- Rewriting the rows of other reservations. -/
theorem filter_update {α : Type} {e : α → String} {p : α → Prop} [DecidablePred p] {f : α → α} {rows : List α}
    (hf : ∀ x ∈ rows, p x → e (f x) = e x ∧ (e x = r → f x = x)) :
    (Table.update p f rows).filter (e · = r) = rows.filter (e · = r) := by
  refine Table.filter_of_forall₂ (Table.forall₂_update fun x hx => ?_)
  split
  · obtain ⟨he, hr⟩ := hf x hx ‹_›
    rw [he]
    exact ⟨rfl, fun hx => hr (of_decide_eq_true hx)⟩
  · exact ⟨rfl, fun _ => rfl⟩

/-- Rows of other reservations that are added. -/
theorem filter_append {α : Type} {e : α → String} {rows rows' : List α} (h : ∀ x ∈ rows', e x ≠ r) :
    (rows ++ rows').filter (e · = r) = rows.filter (e · = r) := by
  have hn : rows'.filter (e · = r) = [] := List.filter_eq_nil_iff.mpr fun x hx => by simpa using h x hx
  rw [List.filter_append, hn, List.append_nil]

/-- A stage of the reservation is not one that is started. -/
theorem Cancelled.ne_started (h : Cancelled s r) {sub : SubreservationRow}
    (hs : ∃ b ∈ s.budgets, b.key = sub.key ∧ b.sourceInFlight = true) : sub.reservationID ≠ r := by
  obtain ⟨b, hb, hk, hi⟩ := hs
  intro hr
  exact absurd (hi.symm.trans (h.budgets b hb ((congrArg Prod.fst hk).trans hr)).1) nofun

/-- A release finds what it subtracts in the totals. -/
theorem enough_of_released (h : Sound s)
    (posted : Posted s s' ((s.budgets.filter fun b => b.reservationID = r).map cancelEvent)) {b : BudgetRow}
    (hb : b ∈ s.budgets) (hr : b.reservationID = r) {k : Scope} (hk : k.Covers b.runID b.batchID b.chainID) :
    b.reservedWei ≤ (s.totals k).reserved := by
  have hrow :
      ∀ e ∈ (s.budgets.filter fun b => b.reservationID = r).map cancelEvent, ∃ b ∈ s.budgets, cancelEvent b = e :=
    fun e he => by
      obtain ⟨b, hb, rfl⟩ := List.mem_map.mp he
      exact ⟨b, (List.mem_filter.mp hb).1, rfl⟩
  have hcol : (s'.totals k).reserved = (s.totals k).reserved + _ := posted.col (fun e he => by
    obtain ⟨b, hb, rfl⟩ := hrow e he
    exact h.listed b hb) k .reserved
  have hle := Table.total_le_of_mem (g := worth k .reserved) (fun e he => by
    obtain ⟨b, hb, rfl⟩ := hrow e he
    have h0 := (h.valid.budgets.1 b hb).1.1
    rw [worth]
    split
    · exact neg_nonpos.mpr h0
    · exact le_rfl) (List.mem_map_of_mem (List.mem_filter.mpr ⟨hb, decide_eq_true hr⟩))
  have hw : worth k .reserved (cancelEvent b) = - b.reservedWei := if_pos hk
  have h0 := (posted.valid k (h.stored k)).1.1
  omega

theorem not_tooSmall (h : Sound s) {r : String}
    (posted : Posted s s' ((s.budgets.filter fun b => b.reservationID = r).map cancelEvent)) : ¬ TooSmall s r := by
  rintro ⟨b, hb, hr, hlt | hlt⟩
  · have hle := enough_of_released h posted hb hr (k := ⟨b.runID, none, b.chainID⟩) ⟨rfl, rfl, nofun⟩
    exact absurd hlt (not_lt.mpr hle)
  · have hle := enough_of_released h posted hb hr (k := ⟨b.runID, some b.batchID, b.chainID⟩)
      ⟨rfl, rfl, fun _ hb => (Option.mem_some_iff.mp hb).symm⟩
    exact absurd hlt (not_lt.mpr hle)

/-- What a call leaves of a reservation that was released. -/
theorem Cancelled.untouched_move {call : Call} (hc : Cancelled s r) (h : Sound s) (hm : Move s call s')
    (hs : Spares r s call) : Untouched r s s' := by
  cases hm with
  | idle => exact .refl r s
  | work => exact ⟨rfl, rfl, id, rfl⟩
  | configured hc =>
    obtain ⟨_, _, rfl⟩ := hc.frame
    exact ⟨rfl, rfl, id, rfl⟩
  | @reserved r' a batchID stages totals attempt _ planned nonempty _ _ _ _ capacity frame posted valid =>
    obtain ⟨t, t', rfl⟩ := frame
    have hr : r' ≠ r := by
      obtain ⟨b, hb, rfl⟩ := hc.known
      obtain ⟨t₀, rest, rfl⟩ := List.exists_cons_of_ne_nil (stageTotals_ne_nil planned nonempty)
      exact (h.fresh (valid h.valid).subs hb).symm
    refine ⟨filter_append fun b hb => ?_, filter_append fun sub hs => ?_, id, subtracted_append rfl fun e he hr' => ?_⟩
    · obtain ⟨c, -, rfl⟩ := List.mem_map.mp hb
      exact hr
    · obtain ⟨_, _, -, rfl⟩ := mem_plannedRow hs
      exact hr
    · obtain ⟨c, -, rfl⟩ := List.mem_map.mp he
      exact absurd hr' hr
  | @marked r' b attempt _ row of running planned unstarted frame valid =>
    subst frame
    have hr : r' ≠ r := fun hr => hs hr b row (of.trans hr) attempt planned unstarted running
    exact ⟨filter_update fun b _ hb => ⟨rfl, fun hr' => absurd (hb.symm.trans hr') hr⟩, rfl, id, rfl⟩
  | @again _ l r' k _ _ nonce requested _ sub _ row of stage started fits frame valid =>
    subst frame
    have hr := hc.ne_started started
    refine ⟨rfl, filter_update fun x hx hi => ⟨rfl, fun hr' => ?_⟩, id, rfl⟩
    obtain rfl := h.valid.sub_eq hx row hi
    exact absurd hr' hr
  | @bound _ l r' k _ _ nonce requested _ sub _ row of stage started nonneg fits unbound frame valid =>
    subst frame
    have hr := hc.ne_started started
    refine ⟨rfl, filter_update fun x hx hi => ⟨rfl, fun hr' => ?_⟩, fun hn n hn' => ?_, rfl⟩
    · obtain rfl := h.valid.sub_eq hx row hi
      exact absurd hr' hr
    · rcases List.mem_append.mp hn' with hn' | hn'
      · exact hn n hn'
      · obtain rfl := List.mem_singleton.mp hn'
        exact of ▸ hr
  | @wrote _ l sub b w budgets _ of write keeps frame posted valid =>
    obtain ⟨t, t', rfl⟩ := frame
    have hr : sub.reservationID ≠ r := fun hr => absurd (of.lineage.symm.trans (hc.stages sub of.row hr).2) nofun
    refine ⟨?_, filter_update fun x hx hl => ⟨LineageWrite.key_eq write x, fun hr' => ?_⟩, fun hn n hn' => ?_,
      subtracted_append rfl fun e he hr' => ?_⟩
    · refine Table.filter_of_forall₂ (keeps.imp fun x x' hx => ?_)
      have hx' : x'.fixed.reservationID = x.fixed.reservationID := congrArg BudgetRow.reservationID hx.1
      refine ⟨congrArg (decide <| · = r) hx', fun he => hx.2.2 fun hs => ?_⟩
      exact hr (hs.symm.trans (of_decide_eq_true he))
    · obtain rfl := h.valid.lineage_eq hx of.row hl of.lineage
      exact absurd hr' hr
    · obtain ⟨n, hm, rfl⟩ := Table.mem_update.mp hn'
      split
      · exact (write.fixed.2 n).2 ▸ hn n hm
      · exact hn n hm
    · obtain rfl := List.mem_singleton.mp he
      exact absurd hr' hr
  | halted => exact ⟨rfl, rfl, id, rfl⟩
  | @released r' _ released =>
    obtain ⟨-, -, ⟨t, t', rfl⟩, posted, -⟩ := released
    refine ⟨filter_update fun b hb hb' => ⟨rfl, fun hr => ?_⟩, filter_update fun sub hs hs' => ⟨rfl, fun hr => ?_⟩, id,
      subtracted_append rfl fun e he hr => ?_⟩
    · show { b with state := BudgetState.released } = b
      rw [← (hc.budgets b hb hr).2]
    · show { sub with state := SubState.released } = sub
      rw [← (hc.stages sub hs hr).1]
    · obtain ⟨b, hb, rfl⟩ := List.mem_map.mp he
      obtain ⟨hb, hb'⟩ := List.mem_filter.mp hb
      have hr' : r' = r := (of_decide_eq_true hb').symm.trans hr
      show - b.reservedWei = 0
      rcases hs hr' with h0 | hlt
      · rw [h0 b hb hr, neg_zero]
      · exact absurd hlt (not_tooSmall h (hr' ▸ posted))

/-! ## Runs -/

theorem Cancelled.untouched_step {e : Option Call} (hc : Cancelled s r) (h : Sound s)
    (hs : StepWhen (Spares r) s e s') :
    Untouched r s s' := by
  obtain ⟨hs, hr⟩ := hs
  cases hs with
  | call call => exact hc.untouched_move h (call.after_move s) (hr call rfl)
  | others same =>
    refine ⟨by rw [same.budgets], by rw [same.subreservations], fun hn n hm => ?_, ?_⟩
    · have he := congrArg (List.map NonceLeaseRow.reservationID) same.nonceLeases
      rw [List.map_map, List.map_map] at he
      obtain ⟨n', hn', he⟩ := List.mem_map.mp (he ▸ List.mem_map_of_mem hm : n.reservationID ∈ _)
      exact he ▸ hn n' hn'
    · rw [subtracted, subtracted, same.budgetEvents]

/-- After `release_unstarted_route`, the reservation is released. -/
theorem cancelled_of_release (h : Sound s) (hr : Released s r s') : Cancelled s' r := by
  obtain ⟨⟨b₀, hb₀, hr₀⟩, unstarted, ⟨t, t', rfl⟩, -, -⟩ := hr
  have stage : ∀ sub ∈ s.subreservations, sub.reservationID = r → sub.lineageID = none := fun sub hs hr => by
    obtain ⟨b, hb, hk⟩ := h.owned sub hs
    exact (h.unstarted sub hs b hb hk (unstarted b hb ((congrArg Prod.fst hk).trans hr))).1
  refine ⟨⟨_, Table.mem_update.mpr ⟨b₀, hb₀, rfl⟩, ?_⟩, fun b hb hr => ?_, fun sub hs hr => ?_, fun n hn hr => ?_⟩
  · rw [if_pos hr₀]
    exact hr₀
  · obtain ⟨b, hm, rfl⟩ := Table.mem_update.mp hb
    by_cases hb : b.reservationID = r
    · rw [if_pos hb]
      exact ⟨unstarted b hm hb, rfl⟩
    · rw [if_neg hb] at hr
      exact absurd hr hb
  · obtain ⟨sub, hm, rfl⟩ := Table.mem_update.mp hs
    by_cases hs : sub.reservationID = r
    · rw [if_pos hs]
      exact ⟨rfl, stage sub hm hs⟩
    · rw [if_neg hs] at hr
      exact absurd hr hs
  · obtain ⟨sub, hs, hl, hsr⟩ := h.leased n hn
    exact absurd (hl.symm.trans (stage sub hs (hsr.trans hr))) nofun

/-- Once a reservation is released, nothing is marked, leased, included,
finalized or subtracted for it as long as it is not marked in flight and not
released once more. -/
theorem untouched_of_run {s₀ s₁ s₂ : Store} {es es' : List (Option Call)} (start : Unused s₀) (run : Run Step s₀ es s)
    (released : releaseUnstartedRoute s r = .ok s₁) (later : Run (StepWhen (Spares r)) s₁ es' s₂) :
    Cancelled s₂ r ∧ Untouched r s₁ s₂ := by
  have h := sound_of_run start run
  have hr := releaseUnstartedRoute_eq_ok released
  have h₁ : Sound s₁ := h.of_move (.released hr)
  have hc := cancelled_of_release h hr
  clear released hr
  induction later with
  | nil => exact ⟨hc, .refl r _⟩
  | cons step _ ih =>
    have hu := hc.untouched_step h₁ step
    obtain ⟨hc', hu'⟩ := ih (h₁.of_step step.1) (hc.of_untouched hu)
    exact ⟨hc', hu.trans hu'⟩

/-- The store after one stage of 10 wei was reserved. -/
def reserved : Store := callAll oneAttempt (reserveOne ⟨10, 10, 10, 0, 100⟩)

/-- The store after this reservation was released. -/
def cancelled : Store := (Call.releaseUnstartedRoute "route").after reserved

theorem release_reserved : releaseUnstartedRoute reserved "route" = .ok cancelled := by
  have h : ((Call.releaseUnstartedRoute "route").commit reserved).isOk = true := by decide +kernel
  exact Call.commit_eq h

/-- The totals are too small for a second release. -/
theorem untouched_of_run_again : Cancelled ((Call.releaseUnstartedRoute "route").after cancelled) "route" ∧
    Untouched "route" cancelled ((Call.releaseUnstartedRoute "route").after cancelled) := by
  refine untouched_of_run oneAttempt_unused (run_callAll oneAttempt _) release_reserved
    (.single ⟨.call cancelled (.releaseUnstartedRoute "route"), fun call hc => ?_⟩)
  obtain rfl := Option.mem_some_iff.mp hc
  exact fun _ => .inr (by decide +kernel)

/-- A stage of a released reservation that is leased and finalized. -/
theorem cancelled_spent : ¬ ∀ {s₀ s s₁ s₂ : Store} {es es' : List (Option Call)} {r : String}, Unused s₀ →
    Run Step s₀ es s → releaseUnstartedRoute s r = .ok s₁ → Run Step s₁ es' s₂ →
    Cancelled s₂ r ∧ Untouched r s₁ s₂ := by
  intro h
  have hc := (h oneAttempt_unused (run_callAll oneAttempt _) release_reserved
    (run_callAll cancelled (startOne ++ [.finalizeLineage "lineage" 10]))).1.stages
  revert hc
  decide +kernel

end Xir.Impl.XirLab
