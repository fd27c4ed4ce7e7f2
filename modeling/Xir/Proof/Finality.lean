import Xir.Framework.Lineage
import Xir.Framework.Run
import Xir.Impl.XirLab.Finality
import Xir.Proof.Submission

/-!
# What the log of observations says

In every history of calls of the manager, each of which may fail or be cut
anywhere, the observations of each transaction supersede one another, a
finalized one is appended on an included one for what was answered just before,
and an audit that succeeds has seen every transaction of its run final
(`observed_of_run`). The row of a transaction has the state of its last
observation if no call was interrupted between its two writes
(`aligned_of_run`); a call that was is not repaired when it is made again.
-/

namespace Xir.Impl.XirLab

open Prog (Asked WasAsked Triple)

/-- The observations of each transaction are a line of successors. -/
abbrev Observed (rows : List ObservationRow) : Prop :=
  Lineage.Chained (fun o : ObservationRow => o.transactionID) (fun o => o.observationID)
    (fun o => o.supersedesObservationID) rows

namespace FinalityStore

variable {s s' : FinalityStore} {id : String}

theorem latest_eq (h : Observed s.observations) : s.latest id =
    (Lineage.latest (fun o : ObservationRow => o.transactionID) s.observations id).map
      ObservationRow.toFinalityObservation := congrArg (Option.map _) h.find_latest

theorem latest_congr (h : s'.observations = s.observations) : s'.latest id = s.latest id := by
  obtain ⟨_, _, _, _, rows⟩ := s
  obtain ⟨_, _, _, _, rows'⟩ := s'
  obtain rfl : rows' = rows := h
  rfl

theorem transactionsOf_congr (h : s'.store = s.store) (runID : String) :
    s'.transactionsOf runID = s.transactionsOf runID := by
  obtain ⟨store, _, _, _, _⟩ := s
  obtain ⟨store', _, _, _, _⟩ := s'
  obtain rfl : store' = store := h
  rfl

theorem append_eq_ok {row : ObservationRow} (h : s.append row = .ok s') :
    ObservationRow.Constraints (s.observations ++ [row]) ∧ s' = { s with observations := s.observations ++ [row] } := by
  unfold append at h
  dsimp only at h
  split at h
  · cases h
    exact ⟨‹_›, rfl⟩
  · cases h

/-- What `_set_transaction_state` does. -/
theorem setTransactionState_eq_ok {state : ObservationState} {completeStage collectStage : Bool}
    (h : s.setTransactionState id state completeStage collectStage = .ok s') :
    s'.observations = s.observations ∧
      (∃ record, s'.store.transaction id = some record ∧ record.state = state.toState) ∧
      ∀ id', id' ≠ id → s'.store.transaction id' = s.store.transaction id' := by
  obtain ⟨record, hr, h⟩ := orRevert_bind.mp h
  obtain ⟨intent, -, h⟩ := orRevert_bind.mp h
  obtain ⟨stage, -, h⟩ := orRevert_bind.mp h
  obtain ⟨current, -, h⟩ := orRevert_bind.mp h
  obtain ⟨store, hs, h⟩ := bind_eq_ok.mp h
  obtain rfl := pure_eq_ok.mp h
  have after := setTransaction_transaction hs fun _ => rfl
  refine ⟨rfl, ⟨{ record with state := state.toState }, ?_, rfl⟩, fun id' hne => (after id').trans (if_neg hne)⟩
  rw [after id, if_pos rfl, hr]
  rfl

end FinalityStore

namespace FinalityManager

/-- What was asked in a call. -/
abbrev Record := List (Asked FinalityOp (fun op => Except LabError op.Answer) FinalityStore)

/-- While a call runs, receipts may be replaced, and the provider answers what it likes. -/
def Meanwhile (s s' : FinalityStore) : Prop := s'.store = s.store ∧ s'.observations = s.observations

/-- The row of a transaction has the state of its last observation. -/
def AlignedAt (s : FinalityStore) (transactionID : String) : Prop :=
  ∀ o, s.latest transactionID = some o → (s.store.transaction transactionID).map (·.state) = some o.state.toState

/-- The call appended an observation of a transaction whose row has another state, and did not get to write it. -/
def Interrupted (es : Record) (transactionID : String) : Prop :=
  ∃ es₁ row t u es₂, es = es₁ ++ ⟨.append row, t, .ok (), u⟩ :: es₂ ∧ row.transactionID = transactionID ∧
    (u.store.transaction transactionID).map (·.state) ≠ some row.state.toState ∧
    ∀ e ∈ es₂, ∀ state completeStage collectStage v w,
      e ≠ ⟨.setTransactionState transactionID state completeStage collectStage, v, .ok (), w⟩

variable {s t u : FinalityStore} {es : Record} {op : FinalityOp} {r : Except LabError op.Answer} {id : String}
  {x : FinalityStore × Record} {o : FinalityObservation}

theorem Meanwhile.refl (s : FinalityStore) : Meanwhile s s := ⟨rfl, rfl⟩

theorem AlignedAt.congr (h : AlignedAt s id) (same : Meanwhile s t) : AlignedAt t id := by
  intro o ho
  rw [same.1]
  exact h o ((FinalityStore.latest_congr same.2).symm.trans ho)

/-- An answer that is not to an append which succeeds. -/
def Plain (e : Asked FinalityOp (fun op => Except LabError op.Answer) FinalityStore) : Prop :=
  ∀ row t u, e ≠ ⟨.append row, t, .ok (), u⟩

theorem plain_error (e : LabError) : Plain ⟨op, t, .error e, u⟩ := by
  intro row t u h
  cases h

/-- Not a write of the store. -/
def Reads : FinalityOp → Prop
  | .append _ | .setTransactionState .. => False
  | _ => True

theorem Answers.eq_of_reads (h : Answers s op r t) (hop : Reads op) : t = s := by
  cases h with
  | raises | receipt | policy | canonicalBlockHash | policyHead | latest | transactions => rfl
  | append | setTransactionState => exact hop.elim

theorem Answers.eq_of_error {e : LabError} (h : Answers s op (.error e) t) : t = s := by
  cases h
  rfl

theorem Reads.plain (hop : Reads op) : Plain ⟨op, t, r, u⟩ := by
  intro row t u h
  cases h
  exact hop

/-- An operation that raises does not write what is missing. -/
theorem Interrupted.raised (h : Interrupted es id) (e : LabError) : Interrupted (es ++ [⟨op, t, .error e, u⟩]) id := by
  obtain ⟨es₁, row, t', u', es₂, rfl, hid, hs, hes⟩ := h
  refine ⟨es₁, row, t', u', es₂ ++ [_], by rw [List.append_assoc, List.cons_append], hid, hs, ?_⟩
  intro e' he' state completeStage collectStage v w
  rcases List.mem_append.mp he' with he' | he'
  · exact hes e' he' state completeStage collectStage v w
  · rw [List.mem_singleton.mp he']
    intro h
    cases h

open FinalityLibraries

section

variable [FinalityLibraries]

/-- The last two answers are that the head of the policy of the transaction is far enough and that
the block is canonical. -/
def JustReached (es : Record) (row : ObservationRow) : Prop :=
  ∃ receipt policy head hash es₁ s₁ t₁ s₂ t₂,
    es = es₁ ++ [⟨.policyHead policy.chainID policy.kind, s₁, .ok (some head), t₁⟩,
      ⟨.canonicalBlockHash policy.chainID row.blockNumber, s₂, .ok (some hash), t₂⟩] ∧
    WasAsked es₁ (.receipt row.transactionID) (.ok receipt) ∧
    WasAsked es₁ (.policy receipt.runID receipt.chainID) (.ok policy) ∧
    Reached policy head row.blockNumber ∧ lower hash = row.blockHash

/-- A finalized observation is appended on an included one of its block, which was just reached. -/
def LawfulAppend (es : Record) (e : Asked FinalityOp (fun op => Except LabError op.Answer) FinalityStore) : Prop :=
  ∀ row t u, e = ⟨.append row, t, .ok (), u⟩ → row.state = .finalized →
    JustReached es row ∧ ∃ included, t.latest row.transactionID = some included ∧
      row.supersedesObservationID = some included.observationID ∧ included.state = .included ∧
      included.blockNumber = row.blockNumber ∧ included.blockHash = row.blockHash

/-- The block of the last observation is canonical, as was answered. -/
def CanonicalAsked (x : FinalityStore × Record) (transactionID : String) (o : FinalityObservation) : Prop :=
  ∃ record hash, x.1.store.transaction transactionID = some record ∧
    WasAsked x.2 (.canonicalBlockHash record.chainID o.blockNumber) (.ok (some hash)) ∧ lower hash = o.blockHash

/-- Every transaction of the run is finalized by its last observation, whose block was seen canonical. -/
def Audited (runID : String) (x : FinalityStore × Record) : Prop :=
  ∀ t ∈ x.1.transactionsOf runID, t.state = .finalized ∧ ∃ o, x.1.latest t.transactionID = some o ∧
    o.state = .finalized ∧ CanonicalAsked x t.transactionID o

structure Sound (x : FinalityStore × Record) : Prop where
  observed : Observed x.1.observations
  lawful : ∀ es₁ e es₂, x.2 = es₁ ++ e :: es₂ → LawfulAppend es₁ e

/-! ## What a call keeps -/

section

-- the transactions whose rows an earlier call left behind
variable (lost : String → Prop)

/-- Between two updates of a transaction. -/
structure Rest (x : FinalityStore × Record) : Prop extends Sound x where
  aligned : ∀ id, ¬ lost id → AlignedAt x.1 id

/-- At any point of a call. -/
structure Halts (x : FinalityStore × Record) : Prop extends Sound x where
  aligned : ∀ id, ¬ lost id → AlignedAt x.1 id ∨ Interrupted x.2 id

/-- Between the two writes of an update, to this observation. -/
structure Pending (o : FinalityObservation) (x : FinalityStore × Record) : Prop extends Sound x where
  latest : x.1.latest o.transactionID = some o
  others : ∀ id, id ≠ o.transactionID → ¬ lost id → AlignedAt x.1 id
  interrupted : AlignedAt x.1 o.transactionID ∨ Interrupted x.2 o.transactionID

variable {lost}

theorem Rest.halts (h : Rest lost x) : Halts lost x := ⟨h.toSound, fun id hl => .inl (h.aligned id hl)⟩

theorem Pending.halts (h : Pending lost o x) : Halts lost x := by
  refine ⟨h.toSound, fun id hl => ?_⟩
  by_cases hid : id = o.transactionID
  · exact hid ▸ h.interrupted
  · exact .inl (h.others id hid hl)

/-- One more answer, by which a finalized observation is lawfully appended if it is. -/
theorem lawful_snoc {e : Asked FinalityOp (fun op => Except LabError op.Answer) FinalityStore}
    (h : ∀ es₁ e es₂, es = es₁ ++ e :: es₂ → LawfulAppend es₁ e) (he : LawfulAppend es e) :
    ∀ es₁ e' es₂, es ++ [e] = es₁ ++ e' :: es₂ → LawfulAppend es₁ e' := by
  intro es₁ e' es₂ hes
  rcases List.eq_nil_or_concat es₂ with rfl | ⟨es₃, e₃, rfl⟩
  · obtain ⟨rfl, hh⟩ := List.append_inj' hes rfl
    obtain rfl := List.singleton_inj.mp hh
    exact he
  · rw [List.concat_eq_append, ← List.cons_append, ← List.append_assoc] at hes
    exact h es₁ e' es₃ (List.append_inj' hes rfl).1

theorem Plain.lawful {e : Asked FinalityOp (fun op => Except LabError op.Answer) FinalityStore} (h : Plain e) :
    LawfulAppend es e := fun row t u he => absurd he (h row t u)

theorem Sound.plain (h : Sound (s, es)) (same : Meanwhile s t)
    {e : Asked FinalityOp (fun op => Except LabError op.Answer) FinalityStore} (he : Plain e) : Sound (t, es ++ [e]) :=
  ⟨(show t.observations = s.observations from same.2) ▸ h.observed, lawful_snoc h.lawful he.lawful⟩

theorem Rest.plain (h : Rest lost (s, es)) (same : Meanwhile s t)
    {e : Asked FinalityOp (fun op => Except LabError op.Answer) FinalityStore} (he : Plain e) :
    Rest lost (t, es ++ [e]) :=
  ⟨h.toSound.plain same he, fun id hl => (h.aligned id hl).congr same⟩

theorem Rest.raised (h : Rest lost (s, es)) (same : Meanwhile s t) (e : LabError) :
    Halts lost (t, es ++ [⟨op, t, .error e, t⟩]) := (h.plain same (plain_error e)).halts

theorem Pending.raised (h : Pending lost o (s, es)) (same : Meanwhile s t) (e : LabError) :
    Halts lost (t, es ++ [⟨op, t, .error e, t⟩]) := by
  refine ⟨h.toSound.plain same (plain_error e), fun id hl => ?_⟩
  exact (h.halts.aligned id hl).imp (·.congr same) (·.raised e)

/-- How a call ends: whatever happens, in the state `Halts`. -/
abbrev Concludes {α : Type} (lost : String → Prop) (P : FinalityStore × Record → Prop) (p : Program α)
    (Q : α → FinalityStore × Record → Prop) : Prop :=
  Triple (Prog.Recorded (fun op s => Answers s op) Meanwhile) (Halts lost) (fun _ => Halts lost) P p Q

variable {P : FinalityStore × Record → Prop} {α : Type}

/-- An operation that reads. -/
theorem read (op : FinalityOp) (M : op.Answer → FinalityStore × Record → Prop) (hop : Reads op)
    (hP : ∀ x, P x → Rest lost x)
    (hs : ∀ s es t a, P (s, es) → Meanwhile s t → Answers t op (.ok a) t → M a (t, es ++ [⟨op, t, .ok a, t⟩])) :
    Concludes lost P (call op) fun a x => Rest lost x ∧ M a x := by
  refine Triple.call _ (fun x hx => (hP x hx).halts) ?_ ?_
  · rintro ⟨s, es⟩ a ⟨u, _⟩ hx ⟨same, ha⟩
    obtain rfl := ha.eq_of_reads hop
    have rest : Rest lost (u, es ++ [⟨op, u, .ok a, u⟩]) := (hP _ hx).plain same hop.plain
    exact ⟨rest.halts, rest, hs s es u a hx same ha⟩
  · rintro ⟨s, es⟩ e ⟨u, _⟩ hx ⟨same, ha⟩
    obtain rfl := ha.eq_of_error
    exact ⟨(hP _ hx).raised same e, (hP _ hx).raised same e⟩

/-- An operation that reads, whatever it answers. -/
theorem read_rest (op : FinalityOp) (hop : Reads op) : Concludes lost (Rest lost) (call op) fun _ => Rest lost :=
  (read op (fun _ _ => True) hop (fun _ h => h) fun _ _ _ _ _ _ _ => trivial).weaken (fun _ h => h) fun _ _ h => h.1

/-- An observation that supersedes the last one of its transaction. -/
theorem Rest.append {row : ObservationRow} (rest : Rest lost (s, es)) (same : Meanwhile s t)
    (constraints : ObservationRow.Constraints (t.observations ++ [row]))
    (pred : row.supersedesObservationID = (t.latest row.transactionID).map (·.observationID))
    (lawful : ∀ u, LawfulAppend es ⟨.append row, t, .ok (), u⟩) :
    Pending lost row.toFinalityObservation ({ t with observations := t.observations ++ [row] },
      es ++ [⟨.append row, t, .ok (), { t with observations := t.observations ++ [row] }⟩]) := by
  have observed : Observed t.observations := same.2 ▸ rest.observed
  rw [FinalityStore.latest_eq observed, Option.map_map] at pred
  have observed' : Observed (t.observations ++ [row]) := by
    refine observed.append ?_ pred
    have unique := constraints.2.1
    rwa [Table.Unique, List.filterMap_eq_map'] at unique
  set u : FinalityStore := { t with observations := t.observations ++ [row] } with hu
  have latest : ∀ id, u.latest id = if row.transactionID = id then some row.toFinalityObservation else t.latest id := by
    intro id
    rw [FinalityStore.latest_eq observed', FinalityStore.latest_eq observed, Lineage.latest_append]
    split <;> rfl
  refine ⟨⟨observed', lawful_snoc rest.lawful (lawful u)⟩, (latest _).trans (if_pos rfl), fun id hid hl o ho => ?_, ?_⟩
  · rw [latest, if_neg (Ne.symm hid)] at ho
    exact (rest.aligned id hl).congr same o ho
  · by_cases written : (u.store.transaction row.transactionID).map (·.state) = some row.state.toState
    · refine .inl fun o ho => ?_
      rw [latest, if_pos rfl] at ho
      exact Option.some.inj ho ▸ written
    · exact .inr ⟨es, row, t, u, [], rfl, rfl, written, fun e he => absurd he List.not_mem_nil⟩

/-- The first write of an update, which supersedes the last observation of the transaction. -/
theorem append_concludes {chainID blockNumber : Int} {blockHash : String} {state : ObservationState} {canonical : Bool}
    {policyKind : FinalityKind} {policyHead : Option Int} {supersedes : Option String} (hP : ∀ x, P x → Rest lost x)
    (hs : ∀ x, P x → supersedes = (x.1.latest id).map (·.observationID))
    (hl : ∀ s es t observationID u, P (s, es) → Meanwhile s t →
      LawfulAppend es ⟨.append ⟨⟨observationID, id, state, blockNumber, lower blockHash, policyKind, policyHead,
        supersedes⟩, chainID, canonical⟩, t, .ok (), u⟩) :
    Concludes lost P (append id chainID blockNumber blockHash state canonical policyKind policyHead supersedes)
      fun o x => Pending lost o x ∧ o.transactionID = id ∧ o.state = state ∧ o.blockHash = lower blockHash := by
  refine Triple.bind (Triple.call _ (fun x hx => (hP x hx).halts) ?_ ?_)
    fun _ => Triple.done (fun x hx => hx.halts) fun x hx => ⟨hx, rfl, rfl, rfl⟩
  · rintro ⟨s, es⟩ _ ⟨u, _⟩ hx ⟨same, ha⟩
    rename_i t
    cases ha with
    | append h =>
      obtain ⟨constraints, rfl⟩ := FinalityStore.append_eq_ok h
      have rest := hP _ hx
      have pred := (hs _ hx).trans (congrArg _ (FinalityStore.latest_congr same.2).symm)
      have pending := rest.append same constraints pred fun u => hl s es t _ u hx same
      exact ⟨pending.halts, pending⟩
  · rintro ⟨s, es⟩ e ⟨u, _⟩ hx ⟨same, ha⟩
    obtain rfl := ha.eq_of_error
    exact ⟨(hP _ hx).raised same e, (hP _ hx).raised same e⟩

/-- The second write of an update. -/
theorem set_concludes {state : ObservationState} {blockHash : String} (completeStage collectStage : Bool) :
    Concludes lost (fun x => Pending lost o x ∧ o.transactionID = id ∧ o.state = state ∧ o.blockHash = blockHash)
      (call (.setTransactionState id state completeStage collectStage))
      fun _ x => Rest lost x ∧ x.1.latest id = some o ∧ o.state = state ∧ o.blockHash = blockHash := by
  refine Triple.call _ (fun x hx => hx.1.halts) ?_ ?_
  · rintro ⟨s, es⟩ _ ⟨u, _⟩ ⟨pending, rfl, rfl, rfl⟩ ⟨same, ha⟩
    cases ha with
    | setTransactionState h =>
      obtain ⟨rows, ⟨record, hr, hst⟩, others⟩ := FinalityStore.setTransactionState_eq_ok h
      have rows' : u.observations = s.observations := rows.trans same.2
      have latest : ∀ id, u.latest id = s.latest id := fun _ => FinalityStore.latest_congr rows'
      suffices Rest lost (u, es ++ [_]) from ⟨this.halts, this, (latest _).trans pending.latest, rfl, rfl⟩
      refine ⟨⟨rows' ▸ pending.observed, lawful_snoc pending.lawful ?_⟩, fun id hl o' ho' => ?_⟩
      · exact Plain.lawful fun row t u he => by cases he
      · rw [latest] at ho'
        by_cases hid : id = o.transactionID
        · subst hid
          obtain rfl := Option.some.inj (ho'.symm.trans pending.latest)
          show (u.store.transaction _).map _ = _
          rw [hr, Option.map_some, hst]
        · show (u.store.transaction _).map _ = _
          rw [others id hid, same.1]
          exact pending.others id hid hl o' ho'
  · rintro ⟨s, es⟩ e ⟨u, _⟩ ⟨pending, -⟩ ⟨same, ha⟩
    obtain rfl := ha.eq_of_error
    exact ⟨pending.raised same e, pending.raised same e⟩

/-! ## The calls -/

/-- The last observation of the transaction is this one, of an inclusion. -/
def Included (id : String) (o : FinalityObservation) (x : FinalityStore × Record) : Prop :=
  x.1.latest id = some o ∧ o.state ∈ [.included, .finalized] ∧ lower o.blockHash = o.blockHash

theorem appendIncluded_concludes {transaction : TransactionReceipt} {policy : ChainFinalityPolicy}
    {supersedes : Option String} :
    Concludes lost (fun x => Rest lost x ∧ supersedes = (x.1.latest id).map (·.observationID))
      (appendIncluded id transaction policy supersedes) fun o x => Rest lost x ∧ Included id o x := by
  refine Triple.bind (append_concludes (fun _ h => h.1) (fun _ h => h.2) ?_) fun o => ?_
  · intro s es t observationID u _ _ row t u he hf
    cases he
    cases hf
  refine Triple.bind (set_concludes false false) fun _ => Triple.done (fun _ h => h.1.halts) ?_
  intro x ⟨rest, latest, state, hash⟩
  exact ⟨rest, latest, by simp [state], by rw [hash, lower_lower]⟩

theorem observeIncluded_concludes :
    Concludes lost (Rest lost) (observeIncluded id) fun o x => Rest lost x ∧ Included id o x := by
  refine Triple.bind (read_rest (.receipt id) trivial) fun transaction => ?_
  refine Triple.bind (read_rest (.policy ..) trivial) fun policy => ?_
  refine Triple.bind (read_rest (.canonicalBlockHash ..) trivial) fun canonicalHash => ?_
  refine Triple.ofExcept_bind (fun _ h => h.halts) (fun _ _ h => h.halts) fun _ _ => ?_
  refine Triple.bind
    (read (.latest id) (fun latest x => x.1.latest id = latest) trivial (fun _ h => h) ?_) fun latest => ?_
  · intro s es t latest _ _ ha
    cases ha with
    | latest => rfl
  cases latest with
  | none => exact appendIncluded_concludes.weaken (fun x h => ⟨h.1, by rw [h.2]; rfl⟩) fun _ _ h => h
  | some latest =>
    dsimp only
    split
    · rename_i observes
      refine Triple.done (fun _ h => h.1.halts) fun x h => ⟨h.1, h.2, observes.1, ?_⟩
      rw [observes.2.2, lower_lower]
    · exact appendIncluded_concludes.weaken (fun x h => ⟨h.1, by rw [h.2]; rfl⟩) fun _ _ h => h

theorem Included.congr (h : Included id o (s, es)) (same : Meanwhile s t) (es' : Record) : Included id o (t, es') :=
  ⟨(FinalityStore.latest_congr same.2).trans h.1, h.2⟩

/-- The policy was read for the chain of the transaction. -/
def PolicyAsked (id : String) (policy : ChainFinalityPolicy) (x : FinalityStore × Record) : Prop :=
  ∃ receipt record, WasAsked x.2 (.receipt id) (.ok receipt) ∧
    WasAsked x.2 (.policy receipt.runID receipt.chainID) (.ok policy) ∧
    x.1.store.transaction id = some record ∧ policy.chainID = record.chainID

theorem policyForTransaction_concludes {F : FinalityStore × Record → Prop}
    (hF : ∀ s es t e, F (s, es) → Meanwhile s t → F (t, es ++ [e])) :
    Concludes lost (fun x => Rest lost x ∧ F x) (policyForTransaction id)
      fun policy x => Rest lost x ∧ F x ∧ PolicyAsked id policy x := by
  refine Triple.bind (read (.receipt id) (fun receipt x => F x ∧ WasAsked x.2 (.receipt id) (.ok receipt) ∧
    ∃ record, x.1.store.transaction id = some record ∧ receipt.chainID = record.chainID) trivial (fun _ h => h.1) ?_)
    fun receipt => read _ _ trivial (fun _ h => h.1) ?_
  · intro s es t receipt hx same ha
    cases ha with
    | receipt h =>
      obtain ⟨record, hr, h⟩ := orRevert_bind.mp h
      obtain ⟨_, -, h⟩ := orRevert_bind.mp h
      obtain ⟨_, -, h⟩ := orRevert_bind.mp h
      obtain rfl := pure_eq_ok.mp h
      exact ⟨hF _ _ _ _ hx.2 same, .last .., record, hr, rfl⟩
  · rintro s es t policy ⟨-, frame, asked, record, hr, hc⟩ same ha
    cases ha with
    | policy h =>
      obtain ⟨_, -, h⟩ := orRevert_bind.mp h
      obtain rfl := pure_eq_ok.mp h
      exact ⟨hF _ _ _ _ frame same, receipt, record, asked.append _, .last .., same.1 ▸ hr, hc⟩

/-- The last answer is the head of the policy of the transaction. -/
def HeadAsked (id : String) (policy : ChainFinalityPolicy) (head : Option Int) (es : Record) : Prop :=
  ∃ receipt es₁ s t, es = es₁ ++ [⟨.policyHead policy.chainID policy.kind, s, .ok head, t⟩] ∧
    WasAsked es₁ (.receipt id) (.ok receipt) ∧ WasAsked es₁ (.policy receipt.runID receipt.chainID) (.ok policy)

theorem finalizeIncluded_concludes (hi : o.state = .included) :
    Concludes lost (fun x => Rest lost x ∧ Included id o x) (finalizeIncluded id o) fun _ => Rest lost := by
  refine Triple.bind (policyForTransaction_concludes fun s es t e h same => h.congr same _) fun policy => ?_
  refine Triple.bind (read (.policyHead policy.chainID policy.kind)
    (fun head x => Included id o x ∧ HeadAsked id policy head x.2) trivial (fun _ h => h.1) ?_) fun head => ?_
  · rintro s es t head ⟨-, included, receipt, -, hr, hp, -⟩ same -
    exact ⟨included.congr same _, receipt, es, t, t, rfl, hr, hp⟩
  refine Triple.ofExcept_bind (fun _ h => h.1.halts) (fun _ _ h => h.1.halts) fun head hh => ?_
  obtain rfl := orRevert_eq_ok.mp hh
  refine Triple.ofExcept_bind (fun _ h => h.1.halts) (fun _ _ h => h.1.halts) fun _ _ => ?_
  refine Triple.ofExcept_bind (fun _ h => h.1.halts) (fun _ _ h => h.1.halts) fun _ reached => ?_
  have reached := not_not.mp (revertIf_eq_ok.mp reached)
  refine Triple.bind (read (.canonicalBlockHash policy.chainID o.blockNumber) (fun hash x => Included id o x ∧
    ∃ es₁ s t, x.2 = es₁ ++ [⟨.canonicalBlockHash policy.chainID o.blockNumber, s, .ok hash, t⟩] ∧
      HeadAsked id policy (some head) es₁) trivial (fun _ h => h.1) ?_) fun hash => ?_
  · rintro s es t hash ⟨-, included, asked⟩ same -
    exact ⟨included.congr same _, es, t, t, rfl, asked⟩
  refine Triple.ofExcept_bind (fun _ h => h.1.halts) (fun _ _ h => h.1.halts) fun _ same => ?_
  obtain ⟨hash, rfl, canonical⟩ := Option.map_eq_some_iff.mp (not_not.mp (revertIf_eq_ok.mp same))
  refine Triple.bind (append_concludes (fun _ h => h.1) (fun x h => by rw [h.2.1.1]; rfl) ?_) fun _ =>
    Triple.bind (set_concludes true false) fun _ => Triple.done (fun _ h => h.1.halts) fun _ h => h.1
  -- the append is lawful: the last two answers were asked for it
  rintro s es t observationID u ⟨-, included, es₁, s₂, t₂, rfl, receipt, es₀, s₁, t₁, rfl, hr, hp⟩ same row t' u' he -
  cases he
  refine ⟨⟨receipt, policy, head, hash, es₀, s₁, t₁, s₂, t₂, ?_, hr, hp, reached, ?_⟩, o, ?_, rfl, hi, rfl, ?_⟩
  · rw [List.append_assoc]
    rfl
  · exact canonical.trans included.2.2.symm
  · exact (included.congr same []).1
  · exact included.2.2.symm

theorem finalize_concludes : Concludes lost (Rest lost) (finalize id) fun _ => Rest lost := by
  refine Triple.bind observeIncluded_concludes fun included => ?_
  split
  · exact Triple.done (fun _ h => h.1.halts) fun _ h => h.1
  · rename_i hn
    refine Triple.of_states fun x hx => Triple.weaken (finalizeIncluded_concludes ?_) (fun _ h => h ▸ hx) fun _ _ h => h
    simpa [hn] using hx.2.2.1

/-! ## Rechecks and audits -/

/-- The block of the last observation of the transaction was seen canonical, unless that is an orphan. -/
def Checked (id : String) (x : FinalityStore × Record) : Prop :=
  ∀ o, x.1.latest id = some o → o.state = .orphaned ∨ CanonicalAsked x id o

theorem Checked.congr (h : Checked id (s, es)) (same : Meanwhile s t) (es' : Record) : Checked id (t, es ++ es') := by
  intro o ho
  refine (h o ((FinalityStore.latest_congr same.2).symm.trans ho)).imp_right ?_
  intro ⟨record, hash, hr, asked, hh⟩
  exact ⟨record, hash, same.1 ▸ hr, asked.append es', hh⟩

/-- As long as `ok` holds, the store is still this one, and these transactions were checked. -/
def Seen (store : Store) (ok : Prop) (done : List String) (x : FinalityStore × Record) : Prop :=
  ok → x.1.store = store ∧ ∀ id ∈ done, Checked id x

section

variable {store : Store} {ok : Prop} {done : List String}

theorem Seen.congr (h : Seen store ok done (s, es)) (same : Meanwhile s t) (es' : Record) :
    Seen store ok done (t, es ++ es') :=
  fun hok => ⟨same.1.trans (h hok).1, fun id hid => ((h hok).2 id hid).congr same es'⟩

theorem Seen.snoc (h : Seen store ok done x) (hc : Checked id x) {b : Bool} :
    Seen store (ok ∧ b = false) (done ++ [id]) x := by
  intro hok
  obtain ⟨hs, hd⟩ := h hok.1
  refine ⟨hs, fun id' hid => ?_⟩
  rcases List.mem_append.mp hid with hid | hid
  · exact hd id' hid
  · exact List.mem_singleton.mp hid ▸ hc

theorem recheckLatest_concludes :
    Concludes lost (fun x => Rest lost x ∧ Seen store ok done x ∧ x.1.latest id = some o) (recheckLatest id o)
      fun b x => Rest lost x ∧ Seen store (ok ∧ b = false) (done ++ [id]) x := by
  refine Triple.bind (policyForTransaction_concludes fun s es t e h same =>
    ⟨h.1.congr same _, (FinalityStore.latest_congr same.2).trans h.2⟩) fun policy => ?_
  refine Triple.bind (read (.canonicalBlockHash policy.chainID o.blockNumber)
    (fun hash x => Seen store ok done x ∧ x.1.latest id = some o ∧ ∃ record, x.1.store.transaction id = some record ∧
      WasAsked x.2 (.canonicalBlockHash record.chainID o.blockNumber) (.ok hash)) trivial (fun _ h => h.1)
        ?_) fun hash => ?_
  · rintro s es t hash ⟨-, ⟨seen, latest⟩, _, record, -, -, hr, hc⟩ same -
    exact ⟨seen.congr same _, (FinalityStore.latest_congr same.2).trans latest, record, same.1 ▸ hr, hc ▸ .last ..⟩
  refine Triple.ofExcept_bind (fun _ h => h.1.halts) (fun _ _ h => h.1.halts) fun hash hh => ?_
  obtain rfl := orRevert_eq_ok.mp hh
  split
  · rename_i canonical
    refine Triple.done (fun _ h => h.1.halts) fun x ⟨rest, seen, latest, record, hr, asked⟩ => ⟨rest, seen.snoc ?_⟩
    intro o' ho'
    obtain rfl := Option.some.inj (latest.symm.trans ho')
    exact .inr ⟨record, hash, hr, asked, canonical⟩
  · refine Triple.bind (append_concludes (fun _ h => h.1) (fun x h => by rw [h.2.2.1]; rfl) ?_) fun _ =>
      Triple.bind (set_concludes false true) fun _ => Triple.done (fun _ h => h.1.halts) fun _ h => ⟨h.1, nofun⟩
    intro s es t observationID u _ _ row t u he hf
    cases he
    cases hf

theorem recheckTransaction_concludes :
    Concludes lost (fun x => Rest lost x ∧ Seen store ok done x) (recheckTransaction id)
    fun b x => Rest lost x ∧ Seen store (ok ∧ b = false) (done ++ [id]) x := by
  refine Triple.bind (read (.latest id) (fun latest x => Seen store ok done x ∧ x.1.latest id = latest) trivial
    (fun _ h => h.1) ?_) fun latest => ?_
  · intro s es t latest hx same ha
    cases ha with
    | latest => exact ⟨hx.2.congr same _, rfl⟩
  cases latest with
  | none =>
    refine Triple.done (fun _ h => h.1.halts) fun x h => ⟨h.1, h.2.1.snoc fun o ho => ?_⟩
    exact absurd (h.2.2.symm.trans ho) nofun
  | some latest =>
    dsimp only
    split
    · rename_i orphaned
      refine Triple.done (fun _ h => h.1.halts) fun x h => ⟨h.1, h.2.1.snoc fun o ho => .inl ?_⟩
      exact Option.some.inj (h.2.2.symm.trans ho) ▸ orphaned
    · exact recheckLatest_concludes

theorem recheckAll_concludes {rows : List TransactionRow} :
    Concludes lost (fun x => Rest lost x ∧ Seen store ok done x) (recheckAll rows)
      fun orphaned x => Rest lost x ∧ Seen store (ok ∧ orphaned = []) (done ++ rows.map (·.transactionID)) x := by
  induction rows generalizing ok done with
  | nil =>
    refine Triple.done (fun _ h => h.1.halts) fun x h => ⟨h.1, fun hok => ?_⟩
    rw [List.map_nil, List.append_nil]
    exact h.2 hok.1
  | cons row rows ih =>
    refine Triple.bind recheckTransaction_concludes fun b => Triple.bind ih fun rest => ?_
    refine Triple.done (fun _ h => h.1.halts) fun x h => ⟨h.1, fun hok => ?_⟩
    rw [List.map_cons, List.append_cons]
    cases b with
    | false => exact h.2 ⟨⟨hok.1, rfl⟩, hok.2⟩
    | true => exact absurd hok.2 nofun

end

/-- What a recheck that finds no orphan has seen. -/
def RunChecked (runID : String) (orphaned : List String) (x : FinalityStore × Record) : Prop :=
  orphaned = [] → ∀ t ∈ x.1.transactionsOf runID, Checked t.transactionID x

theorem recheckCanonicality_concludes {runID : String} : Concludes lost (Rest lost) (recheckCanonicality runID)
    fun orphaned x => Rest lost x ∧ RunChecked runID orphaned x := by
  refine Triple.bind
    (read (.transactions runID) (fun rows x => rows = x.1.transactionsOf runID) trivial (fun _ h => h) ?_)
    fun rows => Triple.of_states fun x₀ h₀ => ?_
  · intro s es t rows _ _ ha
    cases ha with
    | transactions => rfl
  refine Triple.weaken (P := fun x => Rest lost x ∧ Seen x₀.1.store True [] x) recheckAll_concludes ?_ ?_
  · rintro x rfl
    exact ⟨h₀.1, fun _ => ⟨rfl, fun id hid => absurd hid List.not_mem_nil⟩⟩
  · intro orphaned x h
    refine ⟨h.1, fun ho t ht => ?_⟩
    obtain ⟨store, checked⟩ := h.2 ⟨trivial, ho⟩
    refine checked t.transactionID (List.mem_map_of_mem ?_)
    rwa [h₀.2, ← FinalityStore.transactionsOf_congr store]

theorem auditAll_concludes {rows : List TransactionRow} {F : FinalityStore × Record → Prop}
    (hF : ∀ s es t e, F (s, es) → Meanwhile s t → F (t, es ++ [e])) :
    Concludes lost (fun x => Rest lost x ∧ F x) (auditAll rows) fun result x => Rest lost x ∧ F x ∧
      (result.1 = [] → ∀ t ∈ rows, t.state = .finalized ∧
        ∃ o, x.1.latest t.transactionID = some o ∧ o.state = .finalized) := by
  induction rows generalizing F with
  | nil => exact Triple.done (fun _ h => h.1.halts) fun x h => ⟨h.1, h.2, fun _ t ht => absurd ht List.not_mem_nil⟩
  | cons row rows ih =>
    refine Triple.bind (read (.latest row.transactionID) (fun latest x => F x ∧ x.1.latest row.transactionID = latest)
      trivial (fun _ h => h.1) ?_) fun latest => ?_
    · intro s es t latest hx same ha
      cases ha with
      | latest => exact ⟨hF _ _ _ _ hx.2 same, rfl⟩
    refine Triple.bind (ih fun s es t e h same =>
      ⟨hF _ _ _ _ h.1 same, (FinalityStore.latest_congr same.2).trans h.2⟩) fun result => ?_
    cases latest with
    | none => exact Triple.done (fun _ h => h.1.halts) fun x h => ⟨h.1, h.2.1.1, nofun⟩
    | some latest =>
      dsimp only
      split
      · rename_i final
        refine Triple.done
          (fun _ h => h.1.halts) fun x h => ⟨h.1, h.2.1.1, fun hi => List.forall_mem_cons.mpr ⟨?_, h.2.2 hi⟩⟩
        exact ⟨final.1, latest, h.2.1.2, final.2⟩
      · exact Triple.done (fun _ h => h.1.halts) fun x h => ⟨h.1, h.2.1.1, nofun⟩

theorem auditForFreeze_concludes {runID : String} : Concludes lost (Rest lost) (auditForFreeze runID)
    fun _ x => Rest lost x ∧ Audited runID x := by
  refine Triple.bind recheckCanonicality_concludes fun orphaned => ?_
  refine Triple.bind
    (read (.transactions runID) (fun rows x => RunChecked runID orphaned x ∧ x.1.transactionsOf runID = rows)
    trivial (fun _ h => h.1) ?_) fun rows => ?_
  · intro s es t rows hx same ha
    cases ha with
    | transactions =>
      refine ⟨fun ho t ht => ?_, rfl⟩
      rw [FinalityStore.transactionsOf_congr same.1] at ht
      exact (hx.2 ho t ht).congr same _
  refine Triple.bind (auditAll_concludes ?_) fun result => ?_
  · intro s es t e h same
    have rows' := FinalityStore.transactionsOf_congr same.1 runID
    exact ⟨fun ho t ht => (h.1 ho t (rows' ▸ ht)).congr same _, rows'.trans h.2⟩
  refine Triple.ofExcept_bind (fun _ h => h.1.halts) (fun _ _ h => h.1.halts) fun _ none => ?_
  obtain ⟨ho, hi⟩ := not_or.mp (revertIf_eq_ok.mp none)
  refine Triple.done (fun _ h => h.1.halts) fun x ⟨rest, ⟨checked, hrows⟩, final⟩ => ⟨rest, fun t ht => ?_⟩
  obtain ⟨hs, o, latest, hf⟩ := final (not_not.mp hi) t (hrows ▸ ht)
  refine ⟨hs, o, latest, hf, (checked (not_not.mp ho) t ht o latest).resolve_left ?_⟩
  rw [hf]
  exact nofun

theorem call_concludes (c : Call) : Concludes lost (Rest lost) c.prog fun _ => Rest lost := by
  cases c with
  | observeIncluded id => exact observeIncluded_concludes.weaken (fun _ h => h) fun _ _ h => h.1
  | finalize id => exact finalize_concludes
  | recheckCanonicality runID => exact recheckCanonicality_concludes.weaken (fun _ h => h) fun _ _ h => h.1
  | auditForFreeze runID => exact auditForFreeze_concludes.weaken (fun _ h => h) fun _ _ h => h.1

end

/-! ## Histories -/

/-- Between the calls, others leave the observations and the states of the transactions alone. -/
def Others (s s' : FinalityStore) : Prop :=
  s'.observations = s.observations ∧ ∀ id t, s.store.transaction id = some t →
    ∃ t', s'.store.transaction id = some t' ∧ t'.state = t.state

inductive Event
  /-- A call, with its outcome and what was asked in it. -/
  | call (c : Call) (outcome : Prog.Outcome LabError c.Result) (es : Record)
  | others

/-- A call runs to one of its outcomes, which may be that it is cut. -/
abbrev Ends (c : Call) (s : FinalityStore) (outcome : Prog.Outcome LabError c.Result) (s' : FinalityStore)
    (es : Record) :
    Prop := Prog.Exec (Prog.Recorded (fun op s => Answers s op) Meanwhile) c.prog (s, []) outcome (s', es)

inductive Step : FinalityStore → Event → FinalityStore → Prop
  | call {s s' : FinalityStore} {c : Call} {outcome : Prog.Outcome LabError c.Result} {es : Record} :
    Ends c s outcome s' es → Step s (.call c outcome es) s'
  | others {s s' : FinalityStore} : Others s s' → Step s .others s'

variable {s₀ s s' : FinalityStore} {events : List Event} {lost : String → Prop}

theorem rest_start (ho : Observed s.observations) (ha : ∀ id, ¬ lost id → AlignedAt s id) : Rest lost (s, []) :=
  ⟨⟨ho, fun _ _ _ h => absurd (h ▸ List.mem_append_right _ List.mem_cons_self) List.not_mem_nil⟩, ha⟩

/-- What holds at the end of a call. -/
theorem Ends.halts {c : Call} {outcome : Prog.Outcome LabError c.Result} {es : Record} (h : Ends c s outcome s' es)
    (hs : Rest lost (s, [])) : Halts lost (s', es) := by
  have ends := (call_concludes c).ends hs h
  cases outcome with
  | returned => exact ends.halts
  | failed | cut => exact ends

/-- A step keeps the lines of observations. -/
theorem Step.observed {e : Event} (h : Step s e s') (ho : Observed s.observations) : Observed s'.observations := by
  cases h with
  | call h =>
    have rest : Rest (fun _ => True) (s, []) := rest_start ho fun _ hl => absurd trivial hl
    exact (h.halts rest).observed
  | others h => exact h.1 ▸ ho

/-- In every history of calls, each transaction has one line of observations with
one last element, finalized observations are appended as they should be, and an
audit that returns has seen the run final. -/
theorem observed_of_run (h₀ : s₀.observations = []) (run : Run Step s₀ events s) :
    Observed s.observations ∧
    (∀ o ∈ s.observations,
      ∃! last, last ∈ s.observations ∧ last.transactionID = o.transactionID ∧ ¬ s.Superseded last) ∧
    (∀ c outcome s' es, Ends c s outcome s' es → ∀ es₁ e es₂, es = es₁ ++ e :: es₂ → LawfulAppend es₁ e) ∧
    ∀ runID audit s' es, Ends (.auditForFreeze runID) s (.returned audit) s' es → Audited runID (s', es) := by
  have start : Observed s₀.observations := h₀ ▸ .nil
  have observed : Observed s.observations :=
    run.inv (I := fun s => Observed s.observations) (C := fun _ => True) (fun _ ho hs => hs.observed ho)
      (fun _ _ => trivial) start
  have rest : Rest (fun _ => True) (s, []) := rest_start observed fun _ hl => absurd trivial hl
  refine ⟨observed, fun o ho => observed.existsUnique_latest ho, fun c outcome s' es h => (h.halts rest).lawful, ?_⟩
  exact fun runID audit s' es h => (auditForFreeze_concludes.ends rest h).2

theorem Step.aligned {id : String} {e : Event} (h : Step s e s')
    (whole : ∀ c outcome es, e = .call c outcome es → ¬ Interrupted es id)
    (hs : Observed s.observations ∧ AlignedAt s id) : AlignedAt s' id := by
  cases h with
  | call h =>
    have rest : Rest (· ≠ id) (s, []) := rest_start hs.1 fun id' hl => not_not.mp hl ▸ hs.2
    exact ((h.halts rest).aligned id (not_not.mpr rfl)).resolve_right (whole _ _ _ rfl)
  | others h =>
    intro o ho
    have before := hs.2 o ((FinalityStore.latest_congr h.1).symm.trans ho)
    obtain ⟨t, ht, hst⟩ := Option.map_eq_some_iff.mp before
    obtain ⟨t', ht', same⟩ := h.2 id t ht
    rw [ht', Option.map_some, same, hst]

/-- In every history of calls of which none is interrupted between the two
writes of an update of a transaction, the row of the transaction has the state
of its last observation. -/
theorem aligned_of_run {id : String} (h₀ : s₀.observations = []) (run : Run Step s₀ events s)
    (whole : ∀ c outcome es, .call c outcome es ∈ events → ¬ Interrupted es id) : AlignedAt s id := by
  have start : Observed s₀.observations ∧ AlignedAt s₀ id := by
    refine ⟨h₀ ▸ .nil, fun o ho => ?_⟩
    rw [FinalityStore.latest, h₀] at ho
    cases ho
  refine (run.inv (I := fun s => Observed s.observations ∧ AlignedAt s id)
    (C := fun e => ∀ c outcome es, e = .call c outcome es → ¬ Interrupted es id) ?_ ?_ start).2
  · exact fun hc hs h => ⟨h.observed hs.1, h.aligned hc hs⟩
  · exact fun e he c outcome es hec => whole c outcome es (hec ▸ he)

end

/-! ## Examples -/

/-- Hashes are in lower case, and the identifier of an observation is its state. -/
@[reducible] def plainLibraries : FinalityLibraries where
  lower text := text
  lower_lower _ := rfl
  stableID
    | _, [_, _, state, _, _] => state
    | _, _ => ""

/-- A run with one transaction, in block 5, where two confirmations are final. -/
def oneReceipt (state : TransactionState) (observations : List ObservationRow) : FinalityStore where
  store := { oneTransaction with transactions := [{ onePrepared with state }] }
  stageStates stageID := if stageID = "stage" then some "submitted" else none
  receipts transactionID := if transactionID = "transaction" then some ⟨5, "hash"⟩ else none
  policies key := if key = ("run", 1) then some ⟨.confirmations, some 2⟩ else none
  observations

def includedRow : ObservationRow :=
  ⟨⟨"included", "transaction", .included, 5, "hash", .confirmations, none, none⟩, 1, true⟩

def finalizedRow : ObservationRow :=
  ⟨⟨"finalized", "transaction", .finalized, 5, "hash", .confirmations, some 7, some "included"⟩, 1, true⟩

/-- The store after the inclusion is written. -/
def includedStore : FinalityStore :=
  { oneReceipt .included [includedRow] with
    stageStates := Function.update (oneReceipt .submitted []).stageStates "stage" (some "submitted") }

/-- The store after the finalized observation is appended. -/
def appendedStore : FinalityStore := { includedStore with observations := [includedRow, finalizedRow] }

theorem append_included :
    (oneReceipt .submitted []).append includedRow = .ok (oneReceipt .submitted [includedRow]) := rfl

theorem write_included : (oneReceipt .submitted [includedRow]).setTransactionState "transaction" .included false false =
    .ok includedStore := rfl

theorem append_finalized : includedStore.append finalizedRow = .ok appendedStore := rfl

/-- The transaction is observed, and its row is written. -/
theorem observe_whole : let _ := plainLibraries
    ∃ es, Ends (.observeIncluded "transaction") (oneReceipt .submitted []) (.returned includedRow.toFinalityObservation)
      includedStore es ∧ ¬ Interrupted es "transaction" := by
  refine ⟨_, .op (.step (.refl _) (.receipt rfl)) <| .op (.step (.refl _) (.policy rfl)) <|
    .op (.step (.refl _) (.canonicalBlockHash 1 5 (some "hash"))) <| .op (.step (.refl _) (.latest _)) <|
    .op (.step (.refl _) (.append append_included)) <|
      .op (.step (.refl _) (.setTransactionState write_included)) .done, ?_⟩
  rintro ⟨es₁, row, t, u, es₂, he, -, -, missing⟩
  rcases es₁ with _ | ⟨_, _ | ⟨_, _ | ⟨_, _ | ⟨_, _ | ⟨_, _ | ⟨_, es₁⟩⟩⟩⟩⟩⟩ <;> simp at he
  obtain ⟨-, rfl⟩ := he.2.2.2.2
  exact missing _ List.mem_cons_self _ _ _ _ _ rfl

/-- The store after the finalized observation is written. -/
def finalizedStore : FinalityStore :=
  { appendedStore with
    store := { appendedStore.store with transactions := [{ onePrepared with state := .finalized }] }
    stageStates := Function.update appendedStore.stageStates "stage" (some "completed") }

theorem write_finalized :
    appendedStore.setTransactionState "transaction" .finalized true false = .ok finalizedStore := rfl

theorem transactionsOf_finalizedStore :
    finalizedStore.transactionsOf "run" = [{ onePrepared with state := .finalized }] := by
  have h : finalizedStore.store.transactions.filter (fun t => finalizedStore.runOf t = some "run") =
      [{ onePrepared with state := .finalized }] := rfl
  rw [FinalityStore.transactionsOf, h, List.mergeSort_singleton]

/-- The transaction is observed and finalized, and the audit of its run returns. -/
theorem observed_of_run_audit : let _ := plainLibraries
    (∃ es, Ends (.finalize "transaction") (oneReceipt .submitted []) (.returned finalizedRow.toFinalityObservation)
      finalizedStore es ∧ ∀ es₁ e es₂, es = es₁ ++ e :: es₂ → LawfulAppend es₁ e) ∧
    Observed [includedRow, finalizedRow] ∧
    ∃ audit es, Ends (.auditForFreeze "run") finalizedStore (.returned audit) finalizedStore es ∧
      Audited "run" (finalizedStore, es) := by
  intro _
  have start : (oneReceipt .submitted []).observations = [] := rfl
  obtain ⟨es, finalize⟩ : ∃ es, Ends (.finalize "transaction") (oneReceipt .submitted [])
      (.returned finalizedRow.toFinalityObservation) finalizedStore es :=
    ⟨_, .op (.step (.refl _) (.receipt rfl)) <| .op (.step (.refl _) (.policy rfl)) <|
      .op (.step (.refl _) (.canonicalBlockHash 1 5 (some "hash"))) <| .op (.step (.refl _) (.latest _)) <|
      .op (.step (.refl _) (.append append_included)) <| .op (.step (.refl _) (.setTransactionState write_included)) <|
      .op (.step (.refl _) (.receipt rfl)) <| .op (.step (.refl _) (.policy rfl)) <|
      .op (.step (.refl _) (.policyHead 1 .confirmations (some 7))) <|
      .op (.step (.refl _) (.canonicalBlockHash 1 5 (some "hash"))) <|
      .op (.step (.refl _) (.append append_finalized)) <|
        .op (.step (.refl _) (.setTransactionState write_finalized)) .done⟩
  have rows :
      Answers finalizedStore (.transactions "run") (.ok [{ onePrepared with state := .finalized }]) finalizedStore :=
    transactionsOf_finalizedStore ▸ .transactions "run"
  obtain ⟨audit, es', audited⟩ :
      ∃ audit es', Ends (.auditForFreeze "run") finalizedStore (.returned audit) finalizedStore es' :=
    ⟨_, _, .op (.step (.refl _) rows) <| .op (.step (.refl _) (.latest _)) <| .op (.step (.refl _) (.receipt rfl)) <|
      .op (.step (.refl _) (.policy rfl)) <| .op (.step (.refl _) (.canonicalBlockHash 1 5 (some "hash"))) <|
      .op (.step (.refl _) rows) <| .op (.step (.refl _) (.latest _)) .done⟩
  have before : _ ∧ _ ∧ _ ∧ _ := observed_of_run start (.nil _)
  have after : _ ∧ _ ∧ _ ∧ _ := observed_of_run start (.single (.call finalize))
  exact ⟨⟨es, finalize, before.2.2.1 _ _ _ _ finalize⟩, after.1, audit, es', audited, after.2.2.2 _ _ _ _ audited⟩

theorem aligned_of_run_observe : AlignedAt includedStore "transaction" := by
  let _ := plainLibraries
  obtain ⟨es, h, whole⟩ := observe_whole
  refine aligned_of_run (show (oneReceipt .submitted []).observations = [] from rfl) (.single (.call h)) ?_
  intro c outcome es' he
  cases List.mem_singleton.mp he
  exact whole

/-- `finalize` is cut after it appends the finalized observation. When it is made
again, with the same answers, it returns at once, and the row stays included. -/
theorem finalize_interrupted : ∃ (_ : FinalityLibraries) (s₀ s s' : FinalityStore) (es es' : Record)
    (o : FinalityObservation), s₀.observations = [] ∧ Ends (.finalize "transaction") s₀ .cut s es ∧
      Ends (.finalize "transaction") s (.returned o) s' es' ∧
      (∀ chainID n r, WasAsked (es ++ es') (.canonicalBlockHash chainID n) r → r = .ok (some "hash")) ∧
      ¬ AlignedAt s' "transaction" := by
  let _ := plainLibraries
  refine ⟨plainLibraries, oneReceipt .submitted [], appendedStore, appendedStore, _, _, _, rfl,
    .op (.step (.refl _) (.receipt rfl)) <| .op (.step (.refl _) (.policy rfl)) <|
      .op (.step (.refl _) (.canonicalBlockHash 1 5 (some "hash"))) <| .op (.step (.refl _) (.latest _)) <|
      .op (.step (.refl _) (.append append_included)) <| .op (.step (.refl _) (.setTransactionState write_included)) <|
      .op (.step (.refl _) (.receipt rfl)) <| .op (.step (.refl _) (.policy rfl)) <|
      .op (.step (.refl _) (.policyHead 1 .confirmations (some 7))) <|
      .op (.step (.refl _) (.canonicalBlockHash 1 5 (some "hash"))) <|
      .op (.step (.refl _) (.append append_finalized)) .cut,
    .op (.step (.refl _) (.receipt rfl)) <| .op (.step (.refl _) (.policy rfl)) <|
      .op (.step (.refl _) (.canonicalBlockHash 1 5 (some "hash"))) <| .op (.step (.refl _) (.latest _)) .done, ?_, ?_⟩
  · rintro chainID n r ⟨t, u, h⟩
    simp only [List.nil_append, List.cons_append, List.mem_cons, List.not_mem_nil, or_false] at h
    rcases h with h | h | h | h | h | h | h | h | h | h | h | h | h | h | h <;> cases h <;> rfl
  · intro h
    have written := h finalizedRow.toFinalityObservation rfl
    exact absurd written (by decide)

end FinalityManager

end Xir.Impl.XirLab
