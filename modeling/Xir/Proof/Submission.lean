import Xir.Impl.XirLab.Submission
import Xir.Proof.Books

/-!
# What an operation of a submission writes

An operation of `SubmissionOp` changes the row of a transaction in one of the ways of
`RowMove`, or adds one that is prepared, and keeps the stage of every
transaction (`Written`). Only the broadcaster is handed bytes
(`Lab.Answers.sent`).
-/

namespace Xir.Impl.XirLab

open Store SubmissionCoordinator

variable {s s' : Store} {l l' : Lab} {allowRepeat : Bool}

/-- How a row of `transactions` is rewritten. -/
inductive RowMove (allowRepeat : Bool) (t : TransactionRow) : TransactionRow → Prop
  | signerReturned (of : t.state ∈ [.prepared, .signerReturn]) : RowMove allowRepeat t { t with state := .signerReturn }
  | hashPersisted (of : t.state = .signerReturn) (hash digest path : String) (length : Int) : RowMove allowRepeat t
    { t with state := .signedHashPersisted, transactionHash := some hash, signedSHA256 := some digest,
             signedLength := some length, spoolRelativePath := some path }
  | broadcastStarted (of : t.state ∈ allowed allowRepeat) : RowMove allowRepeat t { t with state := .broadcastUnknown }
  | acknowledged (of : t.state = .broadcastUnknown) : RowMove allowRepeat t { t with state := .submitted }
  | observed (observation : Observation) (of : t.state ∈ observation.expected) :
    RowMove allowRepeat t { t with state := observation.toState }

/-- What becomes of the row of a transaction. -/
inductive RowStep (allowRepeat : Bool) : Option TransactionRow → Option TransactionRow → Prop
  | same (t : Option TransactionRow) : RowStep allowRepeat t t
  | prepared (preparation : IntentPreparation) : RowStep allowRepeat none (some (transactionRow preparation))
  | moved {t t' : TransactionRow} : RowMove allowRepeat t t' → RowStep allowRepeat (some t) (some t')

/-- What an operation writes to the store. -/
structure Written (allowRepeat : Bool) (s s' : Store) : Prop where
  rows : ∀ id, RowStep allowRepeat (s.transaction id) (s'.transaction id)
  intents : ∀ id i, s.intent id = some i → ∃ i', s'.intent id = some i' ∧ i'.stageID = i.stageID
  stages : s'.stages = s.stages
  attempts : s'.attempts = s.attempts
  runs : s'.runs = s.runs

theorem RowMove.intentID {t t' : TransactionRow} (h : RowMove allowRepeat t t') : t'.intentID = t.intentID := by
  cases h <;> rfl

theorem Written.refl (s : Store) : Written allowRepeat s s :=
  ⟨fun _ => .same _, fun _ i h => ⟨i, h, rfl⟩, rfl, rfl, rfl⟩

/-! ## Statements -/

@[simp] theorem putIntents_eq_ok {rows : List IntentRow} :
    s.putIntents rows = .ok s' ↔ IntentRow.Constraints rows ∧ { s with intents := rows } = s' := by
  simp [putIntents, apply_ite (· = Except.ok s')]

@[simp] theorem putTransactions_eq_ok {rows : List TransactionRow} :
    s.putTransactions rows = .ok s' ↔ TransactionRow.Constraints rows ∧ { s with transactions := rows } = s' := by
  simp [putTransactions, apply_ite (· = Except.ok s')]

theorem transaction_transactionID {id : String} {t : TransactionRow} (h : s.transaction id = some t) :
    t.transactionID = id := by
  simpa using List.find?_some h

/-- The rows after one is rewritten. -/
theorem find_update_transaction {rows : List TransactionRow} {f : TransactionRow → TransactionRow} {id : String}
    (hf : ∀ t, (f t).transactionID = t.transactionID) (id' : String) :
    (Table.update (fun t => t.transactionID = id) f rows).find? (fun t => t.transactionID = id') =
      if id' = id then (rows.find? fun t => t.transactionID = id').map f
      else rows.find? fun t => t.transactionID = id' := by
  rw [Table.find_update fun t _ _ => by rw [hf]]
  cases hr : rows.find? fun t => t.transactionID = id' with
  | none => simp
  | some t =>
    have hid : t.transactionID = id' := by simpa using List.find?_some hr
    simp only [Option.map_some, hid]
    split <;> rfl

theorem setTransaction_transaction {id : String} {f : TransactionRow → TransactionRow}
    (h : s.setTransaction id f = .ok s') (hf : ∀ t, (f t).transactionID = t.transactionID) (id' : String) :
    s'.transaction id' = if id' = id then (s.transaction id').map f else s.transaction id' := by
  obtain ⟨-, rfl⟩ := putTransactions_eq_ok.mp h
  exact find_update_transaction hf id'

/-- A rewriting of the row of a transaction. -/
theorem setTransaction_written {id : String} {f : TransactionRow → TransactionRow} {t : TransactionRow}
    (h : s.setTransaction id f = .ok s') (hf : ∀ t, (f t).transactionID = t.transactionID)
    (ht : s.transaction id = some t) (move : RowMove allowRepeat t (f t)) : Written allowRepeat s s' := by
  have rows : ∀ id', RowStep allowRepeat (s.transaction id') (s'.transaction id') := fun id' => by
    rw [setTransaction_transaction h hf]
    by_cases hid : id' = id
    · rw [if_pos hid, hid, ht]
      exact .moved move
    · rw [if_neg hid]
      exact .same _
  obtain ⟨-, rfl⟩ := putTransactions_eq_ok.mp h
  exact ⟨rows, fun _ i h => ⟨i, h, rfl⟩, rfl, rfl, rfl⟩

theorem setIntentState_written {id : String} {state : TransactionState} (h : s.setIntentState id state = .ok s') :
    (∀ id i, s.intent id = some i → ∃ i', s'.intent id = some i' ∧ i'.stageID = i.stageID) ∧
      s'.transactions = s.transactions ∧ s'.stages = s.stages ∧ s'.attempts = s.attempts ∧ s'.runs = s.runs := by
  obtain ⟨-, rfl⟩ := putIntents_eq_ok.mp h
  refine ⟨fun id' i hi => ?_, rfl, rfl, rfl, rfl⟩
  refine ⟨if i.intentID = id then { i with state := state } else i, ?_, ?_⟩
  · show (Table.update _ _ s.intents).find? _ = _
    have hk : ∀ i ∈ s.intents, i.intentID = id →
        decide (({ i with state := state } : IntentRow).intentID = id') = decide (i.intentID = id') := fun _ _ _ => rfl
    rw [Table.find_update hk, show s.intents.find? _ = some i from hi]
    rfl
  · split <;> rfl

/-- A rewriting of the row of a transaction, and then of its intent. -/
theorem Written.setIntentState {s₁ : Store} {id : String} {state : TransactionState} (h : Written allowRepeat s s₁)
    (hi : s₁.setIntentState id state = .ok s') : Written allowRepeat s s' := by
  obtain ⟨intents, transactions, stages, attempts, runs⟩ := setIntentState_written hi
  refine ⟨fun id => ?_, fun id i hs => ?_, stages.trans h.stages, attempts.trans h.attempts, runs.trans h.runs⟩
  · show RowStep _ _ (s'.transactions.find? _)
    rw [transactions]
    exact h.rows id
  · obtain ⟨i₁, h₁, hs₁⟩ := h.intents id i hs
    obtain ⟨i', h', hs'⟩ := intents id i₁ h₁
    exact ⟨i', h', hs'.trans hs₁⟩

/-! ## Store transactions -/

theorem transactionFrom_eq_ok {id : String} {row : SubmissionRow} (h : transactionFrom s id = .ok row) :
    s.transaction id = some row.record := by
  obtain ⟨record, hr, h⟩ := orRevert_bind.mp h
  obtain ⟨intent, -, h⟩ := orRevert_bind.mp h
  obtain rfl := pure_eq_ok.mp h
  exact hr

theorem prepareIntent_written {preparation : IntentPreparation} {operationID id : String}
    (h : prepareIntent s preparation operationID = .ok (s', id)) : Written allowRepeat s s' := by
  unfold prepareIntent at h
  split at h
  · obtain ⟨-, h⟩ := revertIf_bind.mp h
    obtain ⟨rfl, -⟩ := Prod.mk.inj (pure_eq_ok.mp h)
    exact .refl s
  · obtain ⟨-, h⟩ := unit_bind.mp h
    obtain ⟨s₁, h₁, h⟩ := bind_eq_ok.mp h
    obtain ⟨-, rfl⟩ := putIntents_eq_ok.mp h₁
    obtain ⟨-, h⟩ := revertIf_bind.mp h
    obtain ⟨s₂, h₂, h⟩ := bind_eq_ok.mp h
    obtain ⟨-, rfl⟩ := putTransactions_eq_ok.mp h₂
    obtain ⟨s₃, h₃, h⟩ := bind_eq_ok.mp h
    obtain ⟨-, rfl⟩ := putNonceLeases_eq_ok.mp h₃
    obtain ⟨rfl, -⟩ := Prod.mk.inj (pure_eq_ok.mp h)
    refine ⟨fun id => ?_, fun id i hi => ⟨i, Table.find_append hi, rfl⟩, rfl, rfl, rfl⟩
    show RowStep _ _ ((s.transactions ++ [transactionRow preparation]).find? _)
    rw [List.find?_append, List.find?_singleton]
    cases ht : s.transaction id with
    | some t =>
      rw [show s.transactions.find? _ = some t from ht]
      exact .same _
    | none =>
      rw [show s.transactions.find? _ = none from ht]
      split
      · exact .prepared preparation
      · exact .same _

theorem signerReturned_written {id : String} (h : signerReturned s id = .ok s') : Written allowRepeat s s' := by
  obtain ⟨current, hc, h⟩ := bind_eq_ok.mp h
  obtain ⟨of, h⟩ := revertIf_bind.mp h
  exact setTransaction_written h (fun _ => rfl) (transactionFrom_eq_ok hc) (.signerReturned (not_not.mp of))

theorem hashPersisted_written {id intentID : String} {signed : SignedTransaction} {spooled r : SpoolReference}
    (h : hashPersisted s id intentID signed spooled = .ok (s', r)) : Written allowRepeat s s' := by
  obtain ⟨current, hc, h⟩ := bind_eq_ok.mp h
  obtain ⟨of, h⟩ := revertIf_bind.mp h
  have of := not_not.mp of
  split at h
  · obtain ⟨existing, -, h⟩ := bind_eq_ok.mp h
    obtain ⟨-, h⟩ := revertIf_bind.mp h
    obtain ⟨rfl, -⟩ := Prod.mk.inj (pure_eq_ok.mp h)
    exact .refl s
  · rename_i unsigned
    obtain ⟨s₁, h₁, h⟩ := bind_eq_ok.mp h
    obtain ⟨s₂, h₂, h⟩ := bind_eq_ok.mp h
    obtain ⟨rfl, -⟩ := Prod.mk.inj (pure_eq_ok.mp h)
    have hs : current.record.state = .signerReturn := by simpa [unsigned] using of
    exact (setTransaction_written h₁ (fun _ => rfl) (transactionFrom_eq_ok hc)
      (.hashPersisted hs ..)).setIntentState h₂

theorem broadcastStarted_written {id intentID : String} (h : broadcastStarted s id intentID allowRepeat = .ok s') :
    Written allowRepeat s s' := by
  obtain ⟨current, hc, h⟩ := bind_eq_ok.mp h
  obtain ⟨of, h⟩ := revertIf_bind.mp h
  obtain ⟨s₁, h₁, h⟩ := bind_eq_ok.mp h
  exact (setTransaction_written h₁ (fun _ => rfl) (transactionFrom_eq_ok hc)
    (.broadcastStarted (not_not.mp of))).setIntentState h

theorem acknowledged_written {id intentID : String} (h : acknowledged s id intentID = .ok s') :
    Written allowRepeat s s' := by
  obtain ⟨current, hc, h⟩ := bind_eq_ok.mp h
  obtain ⟨of, h⟩ := revertIf_bind.mp h
  obtain ⟨s₁, h₁, h⟩ := bind_eq_ok.mp h
  exact (setTransaction_written h₁ (fun _ => rfl) (transactionFrom_eq_ok hc)
    (.acknowledged (not_not.mp of))).setIntentState h

theorem advanceObservation_written {id : String} {observation : Observation}
    (h : advanceObservation s id observation = .ok s') : Written allowRepeat s s' := by
  obtain ⟨row, hr, h⟩ := bind_eq_ok.mp h
  split at h
  · obtain rfl := pure_eq_ok.mp h
    exact .refl s
  · obtain ⟨of, h⟩ := revertIf_bind.mp h
    obtain ⟨s₁, h₁, h⟩ := bind_eq_ok.mp h
    exact (setTransaction_written h₁ (fun _ => rfl) (transactionFrom_eq_ok hr)
      (.observed observation (not_not.mp of))).setIntentState h

/-! ## Operations -/

/-- The operation is a broadcast that is explicitly repeated. -/
def SubmissionOp.allowsRepeat : SubmissionOp → Bool
  | broadcastStarted _ _ allowRepeat => allowRepeat
  | _ => false

theorem Lab.commit_eq_ok {x : Except LabError Store} {a : Unit} :
    l.commit x = .ok (l', a) ↔ ∃ s, x = .ok s ∧ { l with store := s } = l' := by
  rw [Lab.commit, bind_eq_ok]
  simp

theorem Lab.change_eq_ok {x : Except LabError PrivateSpool} {a : Unit} :
    l.change x = .ok (l', a) ↔ ∃ spool, x = .ok spool ∧ { l with spool := spool } = l' := by
  rw [Lab.change, bind_eq_ok]
  simp

theorem Lab.raised_store (l : Lab) (op : SubmissionOp) : (l.raised op).store = l.store := by
  cases op <;> rfl

theorem Lab.raised_sent (l : Lab) (op : SubmissionOp) : (l.raised op).sent = l.sent := by
  cases op <;> rfl

section

variable [SignerLibraries] {replies : Replies} {op : SubmissionOp}

theorem Lab.does_written {a : op.Answer} (h : l.does replies op = .ok (l', a)) :
    Written op.allowsRepeat l.store l'.store := by
  cases op with
  | prepareIntent =>
    obtain ⟨⟨s, id⟩, hp, h⟩ := bind_eq_ok.mp h
    obtain ⟨rfl, -⟩ := Prod.mk.inj (pure_eq_ok.mp h)
    exact prepareIntent_written hp
  | transaction | revalidate | signTransaction | load =>
    obtain ⟨x, -, h⟩ := bind_eq_ok.mp h
    obtain ⟨rfl, -⟩ := Prod.mk.inj (pure_eq_ok.mp h)
    exact .refl _
  | signerReturned =>
    obtain ⟨s, hs, rfl⟩ := Lab.commit_eq_ok.mp h
    exact signerReturned_written hs
  | read | syncDirectory | broadcast =>
    obtain ⟨rfl, -⟩ := Prod.mk.inj (pure_eq_ok.mp h)
    exact .refl _
  | mkstemp =>
    obtain ⟨spool, -, h⟩ := bind_eq_ok.mp h
    obtain ⟨rfl, -⟩ := Prod.mk.inj (pure_eq_ok.mp h)
    exact .refl _
  | write | fsync | replace =>
    obtain ⟨spool, -, rfl⟩ := Lab.change_eq_ok.mp h
    exact .refl _
  | hashPersisted =>
    obtain ⟨⟨s, spooled⟩, hp, h⟩ := bind_eq_ok.mp h
    obtain ⟨rfl, -⟩ := Prod.mk.inj (pure_eq_ok.mp h)
    exact hashPersisted_written hp
  | broadcastStarted =>
    obtain ⟨s, hs, rfl⟩ := Lab.commit_eq_ok.mp h
    exact broadcastStarted_written hs
  | acknowledged =>
    obtain ⟨s, hs, rfl⟩ := Lab.commit_eq_ok.mp h
    exact acknowledged_written hs
  | advanceObservation =>
    obtain ⟨s, hs, rfl⟩ := Lab.commit_eq_ok.mp h
    exact advanceObservation_written hs

theorem Lab.Answers.written {r : Except LabError op.Answer} (h : l.Answers op r l') :
    Written op.allowsRepeat l.store l'.store := by
  cases h with
  | raises =>
    rw [Lab.raised_store]
    exact .refl _
  | does h => exact Lab.does_written h

/-- Bytes are handed to the broadcaster by the operation that is for it. -/
theorem Lab.Answers.sent {r : Except LabError op.Answer} (h : l.Answers op r l') :
    l'.sent = l.sent ∨ ∃ sent, op = .broadcast sent ∧ l'.sent = l.sent ++ [sent] := by
  cases h with
  | raises => exact .inl (l.raised_sent op)
  | does h =>
    cases op with
    | prepareIntent | transaction | revalidate | signTransaction | load | mkstemp | hashPersisted =>
      obtain ⟨x, -, h⟩ := bind_eq_ok.mp h
      obtain ⟨rfl, -⟩ := Prod.mk.inj (pure_eq_ok.mp h)
      exact .inl rfl
    | signerReturned | broadcastStarted | acknowledged | advanceObservation =>
      obtain ⟨s, -, rfl⟩ := Lab.commit_eq_ok.mp h
      exact .inl rfl
    | read | syncDirectory =>
      obtain ⟨rfl, -⟩ := Prod.mk.inj (pure_eq_ok.mp h)
      exact .inl rfl
    | write | fsync | replace =>
      obtain ⟨spool, -, rfl⟩ := Lab.change_eq_ok.mp h
      exact .inl rfl
    | broadcast sent =>
      obtain ⟨rfl, -⟩ := Prod.mk.inj (pure_eq_ok.mp h)
      exact .inr ⟨sent, rfl, rfl⟩

end

/-! ## One transaction -/

/-- A digest of the right form. -/
def someDigest : String := String.ofList (List.replicate 64 'a')

/-- A hash whose values are digests, and a request that has a canonical form. -/
@[reducible] def someLibraries : SignerLibraries := ⟨fun _ => someDigest, fun _ => .ok []⟩

def oneRequest : SignerRequest :=
  ⟨"network", 1, "signer", "intent", 0, none, 0, "data", 0, 0, "runner", "config", "code", 0, 0, 0, "", "unsigned"⟩

def oneIntent : IntentRow :=
  ⟨"intent", "stage", "signop_" ++ someDigest, 1, 0, .prepared, "payload", "approval", "approved", "signer", "identity",
    "network", "quote", 10, "simulation", 10, "route", "source", 1⟩

def onePrepared : TransactionRow := ⟨"transaction", "intent", 1, 0, none, none, .prepared, none, none, none⟩

/-- A store with one transaction that is prepared, and with everything that its gates need. -/
def oneTransaction : Store :=
  { Store.empty with
    runs := fun runID => if runID = "run" then some .running else none
    attempts := fun attemptID => if attemptID = "attempt" then some ⟨"run", .inFlight⟩ else none
    stages := [⟨"stage", "attempt", "source"⟩]
    intents := [oneIntent]
    transactions := [onePrepared]
    approvals := fun approvalID => if approvalID = "approval" then some ⟨"approved", 0, 10⟩ else none
    nonceLeases := [⟨"lease", "lineage", 1, "signer", "holder", 0, "attempt", "source", "route", some "intent", .active,
      true⟩]
    budgets := [⟨"route", "attempt", "run", "batch", 1, 1, 0, 0, true, .inFlight⟩]
    subreservations :=
      [⟨"stage-route", "route", "attempt", "source", 1, some "lineage", 1, 1, 0, 0, .active, none, none, false⟩] }

def oneGates : GateEvidence :=
  ⟨"approval", "approved", "signer", "identity", "network", "quote", 0, 5, "simulation", 10⟩

/-- A coordinator that is the only one. -/
def alone (l : Lab) (p : Program Unit) : Coordinators Unit := ⟨l, fun _ => p⟩

theorem alone_start [SignerLibraries] (l : Lab) (p : Program Unit) (c : Call) :
    SubmissionStep (alone l p) (.inl (.start () c)) (alone l c.prog) :=
  .thread (.start (s := alone l p))

theorem alone_answer [SignerLibraries] {op : SubmissionOp} {k : Except LabError op.Answer → Program Unit}
    {r : Except LabError op.Answer} (h : l.Answers op r l') :
    SubmissionStep (alone l (.op op k)) (.inl (.answer () op)) (alone l' (k r)) :=
  .thread (.answer (s := alone l (.op op k)) rfl h)

theorem alone_around [SignerLibraries] (p : Program Unit) {call : Option RunControlManager.Call}
    (h : Around l call l') :
    SubmissionStep (alone l p) (.inr call) (alone l' p) :=
  .around (s := alone l p) h

theorem Lab.answer_answers [SignerLibraries] (replies : Replies) (op : SubmissionOp) (l : Lab) :
    l.Answers op (l.answer replies op).1 (l.answer replies op).2 := by
  rw [Lab.answer]
  split
  · exact .does ‹_›
  · exact .raises op _

/-- A call that nothing interrupts. -/
theorem alone_call [SignerLibraries] (replies : Replies) (l : Lab) (p : Program Unit) (c : Call) :
    ∃ es p', Run SubmissionStep (alone l p) es (alone (c.prog.run (fun op l => l.answer replies op) l).2 p') := by
  obtain ⟨_, p', run⟩ := Threads.run_call (fun op l => l.answer_answers replies op) Call.prog c l p
  exact ⟨_, p', run.map Sum.inl .thread⟩

end Xir.Impl.XirLab
