import Xir.Impl.XirLab.Resolution
import Xir.Proof.Stops
import Xir.Proof.Submission

/-!
# What the resolver may conclude

A run of `resolve` is recorded with the answers that it got, while its
surroundings may change the store before each of its operations, but do not
resume a run that is stopped. Then what it reports, and every state that it
writes, is justified by what was answered before (`resolve_safe`).
-/

namespace Xir.Impl.XirLab

open Prog (Asked WasAsked Triple)

variable {s s' : Store}

/-- The controls have halted or revoked the run. -/
def Stopped (s : Store) (runID : String) : Prop :=
  ∃ row, s.runControls runID = some row ∧ (row.mode = .halted ∨ row.mode = .revoked)

namespace AmbiguousSubmissionResolver

/-- What was asked in a run. -/
abbrev Record := List (Asked ResolverOp (fun op => Except LabError op.Answer) Store)

/-- The surroundings change the store, and resume no run. -/
def Meanwhile (s s' : Store) : Prop := ∀ runID, Stopped s runID → Stopped s' runID

/-- The exact hash is absent, and the nonce of the transaction that was read is not consumed. -/
def SafeToRepeat (es : Record) (transactionID signerAddress : String) : Prop :=
  ∃ row hash nonce, WasAsked es (.transaction transactionID) (.ok row) ∧ row.record.transactionHash = some hash ∧
    WasAsked es (.transactionByHash row.record.chainID hash) (.ok none) ∧
    WasAsked es (.accountNonce row.record.chainID signerAddress) (.ok (some nonce)) ∧ nonce ≤ row.record.nonce

/-- The hash and the nonce that were read are included in a canonical block. -/
def SeenIncluded [ResolutionLibraries] (es : Record) (row : ResolverRow) : Prop :=
  ∃ hash probe, row.record.transactionHash = some hash ∧
    WasAsked es (.transactionByHash row.record.chainID hash) (.ok (some probe)) ∧ probe.included = true ∧
    probe.canonical = true ∧ ResolutionLibraries.lower probe.transactionHash = ResolutionLibraries.lower hash ∧
    probe.nonce = row.record.nonce

/-- A state and a later one, of a submission that is resolved. -/
inductive Advances : TransactionState → TransactionState → Prop
  | submitted : Advances .broadcastUnknown .submitted
  | included {state : TransactionState} (of : state = .broadcastUnknown ∨ state = .submitted) : Advances state .included

/-- The state of a transaction is the one that was read, and moves to a later one, for a reason that was answered. -/
def Justified [ResolutionLibraries] (es : Record) (transactionID : String) (t t' : TransactionRow) : Prop :=
  t.transactionID = transactionID ∧ t' = { t with state := t'.state } ∧ Advances t.state t'.state ∧
    ∃ row, WasAsked es (.transaction transactionID) (.ok row) ∧ t.state = row.record.state ∧
      (t'.state = .included → SeenIncluded es row)

/-- An operation rewrites no transaction, or the one that is resolved as it should. -/
def Lawful [ResolutionLibraries] (es : Record) (transactionID : String)
    (e : Asked ResolverOp (fun op => Except LabError op.Answer) Store) : Prop :=
  ∀ id t, e.before.transaction id = some t →
    ∃ t', e.after.transaction id = some t' ∧ (t' = t ∨ Justified es transactionID t t')

/-- The run of the transaction that was read is stopped. -/
def ConflictStopped (s : Store) (es : Record) (transactionID : String) : Prop :=
  ∃ row, WasAsked es (.transaction transactionID) (.ok row) ∧ Stopped s row.runID

/-! ## Operations -/

theorem advanceRow_transaction {row : ResolverRow} {toState : TransactionState} (h : advanceRow s row toState = .ok s')
    {id : String} {t : TransactionRow} (ht : s.transaction id = some t) : ∃ t', s'.transaction id = some t' ∧
      (t' = t ∨ (id = row.record.transactionID ∧ t.state = row.record.state ∧ t' = { t with state := toState })) := by
  obtain ⟨current, hc, h⟩ := orRevert_bind.mp h
  obtain ⟨hs, h⟩ := revertIf_bind.mp h
  obtain ⟨s₁, h₁, h⟩ := bind_eq_ok.mp h
  obtain ⟨-, transactions, -⟩ := setIntentState_written h
  have after := setTransaction_transaction h₁ (fun _ => rfl) id
  have hs' : s'.transaction id = s₁.transaction id := congrArg (List.find? _) transactions
  rw [hs', after, ht]
  by_cases hid : id = row.record.transactionID
  · rw [if_pos hid]
    obtain rfl : current = t := Option.some.inj (hc.symm.trans (hid ▸ ht))
    exact ⟨_, rfl, .inr ⟨hid, not_not.mp hs, rfl⟩⟩
  · rw [if_neg hid]
    exact ⟨t, rfl, .inl rfl⟩

/-- Only the write of `_advance` changes the table of transactions. -/
theorem Answers.transaction_eq {op : ResolverOp} {r : Except LabError op.Answer} (h : Answers s op r s')
    (hop : ∀ row toState, op ≠ .advance row toState) (id : String) : s'.transaction id = s.transaction id := by
  cases h with
  | advance => exact absurd rfl (hop _ _)
  | raises | transaction | transactionByHash | accountNonce | controlState => rfl
  | recordViolation h =>
    unfold AmbiguousSubmissionResolver.recordViolation at h
    split at h
    · cases h
      rfl
    · obtain ⟨-, rfl⟩ := putViolations_eq_ok.mp h
      rfl
  | halt h => exact congrArg (List.find? _) (RunControlManager.transition_transactions h)

/-- A run that is halted is stopped. -/
theorem halt_stopped {runID : String} {decision : ControlDecision}
    (h : RunControlManager.halt s runID decision = .ok s') :
    Stopped s' runID := by
  obtain ⟨-, h⟩ := unit_bind.mp h
  obtain ⟨row, -, h⟩ := orRevert_bind.mp h
  obtain ⟨-, h⟩ := revertIf_bind.mp h
  obtain ⟨-, rfl⟩ := RunControlManager.putControlEvents_eq_ok.mp h
  exact ⟨_, Function.update_self .., .inl rfl⟩

theorem transaction_eq_ok {row : ResolverRow} (h : transaction s transactionID = .ok row) :
    row.record.transactionID = transactionID := by
  obtain ⟨record, hr, h⟩ := orRevert_bind.mp h
  obtain ⟨intent, -, h⟩ := orRevert_bind.mp h
  obtain ⟨stage, -, h⟩ := orRevert_bind.mp h
  obtain ⟨attempt, -, h⟩ := orRevert_bind.mp h
  obtain rfl := pure_eq_ok.mp h
  exact transaction_transactionID hr

/-! ## Runs -/

section

variable [ResolutionLibraries] {transactionID signerAddress : String} {es : Record} {α : Type}

theorem SeenIncluded.append {row : ResolverRow} (h : SeenIncluded es row) (es' : Record) :
    SeenIncluded (es ++ es') row := by
  obtain ⟨hash, probe, hr, hw, hp⟩ := h
  exact ⟨hash, probe, hr, hw.append es', hp⟩

theorem Lawful.append {e : Asked ResolverOp (fun op => Except LabError op.Answer) Store} (h : Lawful es transactionID e)
    (es' : Record) : Lawful (es ++ es') transactionID e := fun id t ht => by
  obtain ⟨t', ht', rfl | ⟨hid, same, advances, row, hw, hs, seen⟩⟩ := h id t ht
  · exact ⟨t', ht', .inl rfl⟩
  · exact ⟨t', ht', .inr ⟨hid, same, advances, row, hw.append es', hs, fun hi => (seen hi).append es'⟩⟩

/-- Everything that was written until now is justified. -/
def AllLawful (transactionID : String) (x : Store × Record) : Prop := ∀ e ∈ x.2, Lawful x.2 transactionID e

theorem AllLawful.snoc {s t u : Store} {op : ResolverOp} {r : Except LabError op.Answer}
    (h : AllLawful transactionID (s, es)) (hl : Lawful (es ++ [⟨op, t, r, u⟩]) transactionID ⟨op, t, r, u⟩) :
    AllLawful transactionID (u, es ++ [⟨op, t, r, u⟩]) := fun e he => by
  rcases List.mem_append.mp he with he | he
  · exact (h e he).append _
  · exact List.mem_singleton.mp he ▸ hl

/-- An operation that rewrites no transaction. -/
theorem AllLawful.asked {s t u : Store} {op : ResolverOp} {r : Except LabError op.Answer}
    (h : AllLawful transactionID (s, es)) (ha : Answers t op r u) (hop : ∀ row toState, op ≠ .advance row toState) :
    AllLawful transactionID (u, es ++ [⟨op, t, r, u⟩]) :=
  h.snoc fun id x hx => ⟨x, (ha.transaction_eq hop id).trans hx, .inl rfl⟩

/-- How a run of the resolver ends: all that it wrote is justified. -/
abbrev Resolves (transactionID : String) (P : Store × Record → Prop) (p : Program α)
    (Q : α → Store × Record → Prop) : Prop :=
  Triple (Prog.Recorded (fun op s => Answers s op) Meanwhile) (AllLawful transactionID)
    (fun _ => AllLawful transactionID) P p Q

/-- An operation that rewrites no transaction. -/
theorem resolves_call {op : ResolverOp} {P : Store × Record → Prop} (M : op.Answer → Store × Record → Prop)
    (hop : ∀ row toState, op ≠ .advance row toState) (hP : ∀ x, P x → AllLawful transactionID x)
    (hs : ∀ s es t a u, P (s, es) → Meanwhile s t → Answers t op (.ok a) u →
      AllLawful transactionID (u, es ++ [⟨op, t, .ok a, u⟩]) → M a (u, es ++ [⟨op, t, .ok a, u⟩])) :
    Resolves transactionID P (call op) M := by
  refine Triple.call M hP ?_ ?_
  · rintro _ a _ hx ⟨hm, ha⟩
    have lawful := (hP _ hx).asked ha hop
    exact ⟨lawful, hs _ _ _ a _ hx hm ha lawful⟩
  · rintro _ e _ hx ⟨hm, ha⟩
    exact ⟨(hP _ hx).asked ha hop, (hP _ hx).asked ha hop⟩

/-- The row was read, and what was written is justified. -/
def ReadRow (transactionID : String) (row : ResolverRow) (x : Store × Record) : Prop :=
  AllLawful transactionID x ∧ WasAsked x.2 (.transaction transactionID) (.ok row)

/-- A conflict ends with the run stopped. -/
theorem haltConflict_resolves (row : ResolverRow) (reasonCode : String) (checkedAt : Int) :
    Resolves transactionID (ReadRow transactionID row) (haltConflict row reasonCode checkedAt)
      fun _ x => ReadRow transactionID row x ∧ Stopped x.1 row.runID := by
  refine Triple.bind (Q := fun _ => ReadRow transactionID row)
    (resolves_call _ (by simp) (fun _ h => h.1) ?_) fun _ => ?_
  · exact fun _ _ _ _ _ hx _ _ lawful => ⟨lawful, hx.2.append _⟩
  refine Triple.bind (Q := fun state x => ReadRow transactionID row x ∧ x.1.runControls row.runID = some state)
    (resolves_call _ (by simp) (fun _ h => h.1) ?_) fun state => ?_
  · intro s es t state u hx _ ha lawful
    cases ha with
    | controlState h => exact ⟨⟨lawful, hx.2.append _⟩, orRevert_eq_ok.mp h⟩
  split
  · refine resolves_call _ (by simp) (fun _ h => h.1.1) ?_
    intro s es t _ u hx _ ha lawful
    cases ha with
    | halt h => exact ⟨⟨lawful, hx.1.2.append _⟩, halt_stopped h⟩
  · rename_i hn
    refine Triple.done (fun _ h => h.1.1) fun x h => ⟨h.1, state, h.2, ?_⟩
    cases hm : state.mode <;> simp [hm] at hn ⊢

/-- A write of `_advance` is justified by what was read and answered. -/
theorem advance_resolves {row : ResolverRow} {toState : TransactionState}
    (hid : row.record.transactionID = transactionID)
    (hf : row.record.state = .broadcastUnknown ∨ row.record.state = .submitted)
    (ht : toState = .included ∨ toState = .submitted) :
    Resolves transactionID (fun x => ReadRow transactionID row x ∧ (toState = .included → SeenIncluded x.2 row))
      (advance row toState) fun _ => ReadRow transactionID row := by
  unfold advance
  split
  · exact Triple.done (fun _ h => h.1.1) fun _ h => h.1
  · rename_i hne
    have advances : Advances row.record.state toState := by
      rcases ht with rfl | rfl
      · exact .included hf
      · exact hf.resolve_right hne ▸ .submitted
    refine Triple.call _ (fun _ h => h.1.1) ?_ ?_
    · rintro _ _ _ ⟨⟨lawful, read⟩, seen⟩ ⟨-, ha⟩
      cases ha with
      | advance h =>
        suffices AllLawful transactionID _ from ⟨this, this, read.append _⟩
        refine lawful.snoc fun id t hx => ?_
        obtain ⟨t', ht', rfl | ⟨hrow, hs, rfl⟩⟩ := advanceRow_transaction h hx
        · exact ⟨t', ht', .inl rfl⟩
        · refine ⟨_, ht', .inr ⟨?_, rfl, hs ▸ advances, row, read.append _, hs, fun hi => (seen hi).append _⟩⟩
          exact (transaction_transactionID hx).trans (hrow.trans hid)
    · rintro _ e _ ⟨⟨lawful, read⟩, -⟩ ⟨-, ha⟩
      cases ha with
      | raises =>
        suffices AllLawful transactionID _ from ⟨this, this⟩
        exact lawful.snoc fun id t hx => ⟨t, hx, .inl rfl⟩

/-- What a result says is so. -/
def Sound (transactionID signerAddress : String) (result : ResolutionResult) (x : Store × Record) : Prop :=
  AllLawful transactionID x ∧
    (result.safeToRepeatExactBytes = true → SafeToRepeat x.2 transactionID signerAddress) ∧
    (result.status = "conflict" → ConflictStopped x.1 x.2 transactionID)

/-- A result that is neither safe nor a conflict. -/
theorem Sound.plain {id status reasonCode : String} {x : Store × Record} (h : AllLawful transactionID x)
    (hs : status ≠ "conflict") : Sound transactionID signerAddress ⟨id, status, reasonCode, false⟩ x :=
  ⟨h, nofun, fun hc => absurd hc hs⟩

/-- A conflict, after the run was stopped. -/
theorem conflict_sound {row : ResolverRow} {reasonCode : String} {x : Store × Record}
    (h : ReadRow transactionID row x ∧ Stopped x.1 row.runID) :
    Sound transactionID signerAddress ⟨row.record.transactionID, "conflict", reasonCode, false⟩ x :=
  ⟨h.1.1, nofun, fun _ => ⟨row, h.1.2, h.2⟩⟩

theorem resolveFound_resolves {row : ResolverRow} {hash : String} {probe : TransactionProbe} (checkedAt : Int)
    (hid : row.record.transactionID = transactionID)
    (hf : row.record.state = .broadcastUnknown ∨ row.record.state = .submitted)
    (hh : row.record.transactionHash = some hash) :
    Resolves transactionID (fun x => ReadRow transactionID row x ∧
        WasAsked x.2 (.transactionByHash row.record.chainID hash) (.ok (some probe)))
      (resolveFound row hash probe checkedAt) (Sound transactionID signerAddress) := by
  unfold resolveFound
  split
  · exact Triple.bind ((haltConflict_resolves row _ checkedAt).weaken (fun _ h => h.1) fun _ _ h => h) fun _ =>
      Triple.done (fun _ h => h.1.1) fun _ h => conflict_sound h
  · rename_i same
    obtain ⟨hash_eq, nonce_eq⟩ := not_or.mp same
    split
    · rename_i seen
      obtain ⟨hi, hc⟩ := Bool.and_eq_true_iff.mp seen
      refine Triple.bind ((advance_resolves hid hf (.inl rfl)).weaken (fun x h => ⟨h.1, fun _ => ?_⟩) fun _ _ h => h)
        fun _ => Triple.done (fun _ h => h.1) fun _ h => .plain h.1 (by decide)
      exact ⟨hash, probe, hh, h.2, hi, hc, not_not.mp hash_eq, not_not.mp nonce_eq⟩
    · exact Triple.bind ((advance_resolves hid hf (.inr rfl)).weaken (fun x h => ⟨h.1, nofun⟩) fun _ _ h => h)
        fun _ => Triple.done (fun _ h => h.1) fun _ h => .plain h.1 (by decide)

theorem resolveAbsent_resolves {row : ResolverRow} {hash : String} {nonce : Option Int} (checkedAt : Int)
    (hh : row.record.transactionHash = some hash) :
    Resolves transactionID (fun x => ReadRow transactionID row x ∧
        WasAsked x.2 (.transactionByHash row.record.chainID hash) (.ok none) ∧
        ∀ n, nonce = some n → WasAsked x.2 (.accountNonce row.record.chainID signerAddress) (.ok (some n)))
      (resolveAbsent row nonce checkedAt) (Sound transactionID signerAddress) := by
  cases nonce with
  | none => exact Triple.done (fun _ h => h.1.1) fun _ h => .plain h.1.1 (by decide)
  | some nonce =>
    unfold resolveAbsent
    dsimp only
    split
    · exact Triple.bind ((haltConflict_resolves row _ checkedAt).weaken (fun _ h => h.1) fun _ _ h => h) fun _ =>
        Triple.done (fun _ h => h.1.1) fun _ h => conflict_sound h
    · rename_i hn
      refine Triple.done
        (fun _ h => h.1.1) fun x h =>
        ⟨h.1.1, fun _ => ?_, fun hs => absurd (show "not_found" = "conflict" from hs) (by decide)⟩
      exact ⟨row, hash, nonce, h.1.2, hh, h.2.1, h.2.2 nonce rfl, not_lt.mp hn⟩

/-- A lookup of the provider, which may raise, after facts `F` about what was asked. -/
theorem lookup_resolves {op : ResolverOp} {F : Record → Prop} {k : Except LabError op.Answer → Program α}
    {Q : α → Store × Record → Prop} (hop : ∀ row toState, op ≠ .advance row toState)
    (hF : ∀ es e, F es → F (es ++ [e]))
    (hk : ∀ r, Resolves transactionID (fun x => (AllLawful transactionID x ∧ F x.2) ∧ WasAsked x.2 op r) (k r) Q) :
    Resolves transactionID (fun x => AllLawful transactionID x ∧ F x.2) (.op op k) Q := by
  refine Triple.op (fun _ h => h.1) _ ?_ hk
  rintro _ r _ ⟨lawful, hf⟩ ⟨hm, ha⟩
  exact ⟨⟨lawful.asked ha hop, hF _ _ hf⟩, .last ..⟩

theorem resolve_resolves (transactionID signerAddress : String) (checkedAt : Int) :
    Resolves transactionID (fun x => x.2 = []) (resolve transactionID signerAddress checkedAt)
      (Sound transactionID signerAddress) := by
  have start : ∀ x : Store × Record, x.2 = [] → AllLawful transactionID x := fun x hx e he =>
    absurd (hx ▸ he) List.not_mem_nil
  refine Triple.bind (Q := fun row x => ReadRow transactionID row x ∧ row.record.transactionID = transactionID)
    (resolves_call _ (by simp) start ?_) fun row => ?_
  · intro s es t row u hx _ ha lawful
    cases ha with
    | transaction h => exact ⟨⟨lawful, .last ..⟩, transaction_eq_ok h⟩
  refine Triple.of_states fun x₀ hx₀ =>
    Triple.weaken (P := ReadRow transactionID row) ?_ (fun _ h => h ▸ hx₀.1) fun _ _ h => h
  refine Triple.ofExcept_bind (fun _ h => h.1) (fun _ _ h => h.1) fun _ hs => ?_
  refine Triple.ofExcept_bind (fun _ h => h.1) (fun _ _ h => h.1) fun hash hh => ?_
  have hf : row.record.state = .broadcastUnknown ∨ row.record.state = .submitted := by
    by_contra hn
    exact revertIf_eq_ok.mp hs (not_or.mp hn)
  have hh := orRevert_eq_ok.mp hh
  refine lookup_resolves (F := fun es => WasAsked es (.transaction transactionID) (.ok row)) (by simp)
    (fun _ _ h => h.append _) fun r => ?_
  rcases r with e | _ | probe
  · exact Triple.done (fun _ h => h.1.1) fun _ h => .plain h.1.1 (by decide)
  · refine Triple.weaken (lookup_resolves (F := fun es => WasAsked es (.transaction transactionID) (.ok row) ∧
      WasAsked es (.transactionByHash row.record.chainID hash) (.ok none)) (by simp)
        (fun _ _ h => ⟨h.1.append _, h.2.append _⟩) fun r => ?_) (fun _ h => ⟨h.1.1, h.1.2, h.2⟩) fun _ _ h => h
    rcases r with e | nonce
    · exact (resolveAbsent_resolves checkedAt hh).weaken
        (fun _ h => ⟨⟨h.1.1, h.1.2.1⟩, h.1.2.2, nofun⟩) fun _ _ h => h
    · exact (resolveAbsent_resolves checkedAt hh).weaken
        (fun _ h => ⟨⟨h.1.1, h.1.2.1⟩, h.1.2.2, fun n hn => hn ▸ h.2⟩) fun _ _ h => h
  · exact resolveFound_resolves checkedAt hx₀.2 hf hh

/-- Every run of `resolve`, up to any point: each write is justified by what was
read and answered before, and so is what it reports. -/
theorem resolve_safe {checkedAt : Int} {s' : Store} {outcome : Prog.Outcome LabError ResolutionResult}
    (run : Prog.Exec (Prog.Recorded (fun op s => Answers s op) Meanwhile)
    (resolve transactionID signerAddress checkedAt)
      (s, []) outcome (s', es)) :
    (∀ e ∈ es, Lawful es transactionID e) ∧ ∀ result, outcome = .returned result →
      (result.safeToRepeatExactBytes = true → SafeToRepeat es transactionID signerAddress) ∧
      (result.status = "conflict" → ConflictStopped s' es transactionID) := by
  have h := (resolve_resolves transactionID signerAddress checkedAt).ends rfl run
  cases outcome with
  | returned result => exact ⟨h.1, fun r hr => Prog.Outcome.returned.inj hr ▸ h.2⟩
  | failed | cut => exact ⟨h, nofun⟩

end

/-- The hash is absent, and the account is still at the nonce of the transaction. -/
theorem resolve_safe_absent : ∃ es, SafeToRepeat es "transaction" "signer" := by
  let _ : ResolutionLibraries := ⟨id, fun _ _ _ _ => someDigest⟩
  let t : TransactionRow := { onePrepared with state := .broadcastUnknown, transactionHash := some "hash" }
  let s : Store := { oneTransaction with transactions := [t] }
  have still : Meanwhile s s := fun _ h => h
  have run :
      Prog.Exec (Prog.Recorded (fun op s => Answers s op) Meanwhile) (resolve "transaction" "signer" 5)
      (s, []) _ (s, _) :=
    .op (.step still (.transaction (show transaction s "transaction" = .ok ⟨t, "run"⟩ from rfl))) <|
      .op (.step still (.transactionByHash 1 "hash" none)) <|
        .op (.step still (.accountNonce 1 "signer" (some 0))) .done
  have h : _ ∧ _ := resolve_safe run
  exact ⟨_, (h.2 _ rfl).1 rfl⟩

end AmbiguousSubmissionResolver

end Xir.Impl.XirLab
