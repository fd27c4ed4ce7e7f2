import Xir.Framework.Parents
import Xir.Impl.XirLab.Resolution
import Xir.Proof.Submission

/-!
# How many replacements a transaction gets

`prepare_replacement` counts what the transaction that it is given replaces, one
after another, and compares that with the maximum. Two calls may name the same
transaction, and then neither counts the other's replacement
(`replacements_unbounded`). Where every call names a transaction that none
replaces yet, all replacements that begin with one transaction lie on a line,
and what the calls count is all of them (`replacements_of_run`).
-/

namespace Xir.Impl.XirLab

open Parents Store

variable {s s' t : Store} {maximum : ℕ}

namespace Store

/-- The transaction that one replaces. -/
def replaced (s : Store) (transactionID : String) : Option String :=
  (s.transaction transactionID).bind TransactionRow.replacesTransactionID

/-- The stage, the chain and the nonce of a transaction. -/
def slot (s : Store) (transactionID : String) : Option (String × Int × Int) := do
  let t ← s.transaction transactionID
  let i ← s.intent t.intentID
  return (i.stageID, t.chainID, t.nonce)

theorem slot_eq_some {id : String} {c : String × Int × Int} : s.slot id = some c ↔
    ∃ t i, s.transaction id = some t ∧ s.intent t.intentID = some i ∧ (i.stageID, t.chainID, t.nonce) = c := by
  simp [slot, Option.bind_eq_some_iff]

/-- The transactions of one store are in another, where they replace what they did. -/
structure Later (s s' : Store) : Prop where
  slot : ∀ id c, s.slot id = some c → s'.slot id = some c
  replaced : ∀ id c, s.slot id = some c → s'.replaced id = s.replaced id

theorem Later.refl (s : Store) : s.Later s := ⟨fun _ _ h => h, fun _ _ _ => rfl⟩

theorem Later.trans (h : s.Later s') (h' : s'.Later t) : s.Later t :=
  ⟨fun id c hc => h'.slot id c (h.slot id c hc),
    fun id c hc => (h'.replaced id c (h.slot id c hc)).trans (h.replaced id c hc)⟩

/-! ## What keeps the transactions -/

theorem Kept.refl (s : Store) : s.Kept s := ⟨fun _ => rfl, fun _ i hi => ⟨i, hi, rfl⟩⟩

theorem Kept.trans (h : s.Kept s') (h' : s'.Kept t) : s.Kept t := by
  refine ⟨fun id => (h'.columns id).trans (h.columns id), fun id i hi => ?_⟩
  obtain ⟨i', hi', he⟩ := h.stages id i hi
  obtain ⟨i'', hi'', he'⟩ := h'.stages id i' hi'
  exact ⟨i'', hi'', he'.trans he⟩

theorem Kept.replaced (h : s.Kept s') (id : String) : s'.replaced id = s.replaced id := by
  have hc :
      ∀ t : Store, t.replaced id = ((t.transaction id).map TransactionRow.columns).bind fun c => c.2.2.2 := fun t => by
    rw [Store.replaced, Option.bind_map]
    rfl
  rw [hc, hc, h.columns]

theorem Kept.slot (h : s.Kept s') {id : String} {c : String × Int × Int} (hc : s.slot id = some c) :
    s'.slot id = some c := by
  obtain ⟨t, i, ht, hi, rfl⟩ := slot_eq_some.mp hc
  obtain ⟨t', ht', he⟩ : ∃ t', s'.transaction id = some t' ∧ t'.columns = t.columns := by
    simpa [ht] using h.columns id
  obtain ⟨i', hi', hs⟩ := h.stages _ i hi
  obtain ⟨hintent, hchain, hnonce, -⟩ : t'.intentID = t.intentID ∧ t'.chainID = t.chainID ∧ t'.nonce = t.nonce ∧ _ := by
    simpa [TransactionRow.columns] using he
  exact slot_eq_some.mpr ⟨t', i', ht', hintent ▸ hi', by rw [hs, hchain, hnonce]⟩

theorem Kept.later (h : s.Kept s') : s.Later s' := ⟨fun _ _ hc => h.slot hc, fun id _ _ => h.replaced id⟩

/-- A rewriting of a row that leaves those columns. -/
theorem setTransaction_kept {id : String} {f : TransactionRow → TransactionRow} (h : s.setTransaction id f = .ok s')
    (hf : ∀ t, (f t).transactionID = t.transactionID) (hc : ∀ t, (f t).columns = t.columns) : s.Kept s' := by
  refine ⟨fun id' => ?_, fun id' i hi => ?_⟩
  · rw [setTransaction_transaction h hf]
    split
    · rename_i hid
      rw [hid, Option.map_map]
      exact congrArg (fun g => (s.transaction id).map g) (funext hc)
    · rfl
  · obtain ⟨-, rfl⟩ := putTransactions_eq_ok.mp h
    exact ⟨i, hi, rfl⟩

theorem Kept.setIntentState {id : String} {state : TransactionState} (h : s.Kept s')
    (hi : s'.setIntentState id state = .ok t) : s.Kept t := by
  obtain ⟨intents, transactions, -⟩ := setIntentState_written hi
  exact h.trans ⟨fun id' => by simp only [transaction, transactions], intents⟩

end Store

section

variable [SignerLibraries] {l l' : Lab} {replies : Replies} {op : SubmissionOp}

/-- An operation of a submission other than `prepare_intent`. -/
theorem Lab.does_kept {a : op.Answer} (h : l.does replies op = .ok (l', a))
    (hop : ∀ preparation operationID, op ≠ .prepareIntent preparation operationID) : l.store.Kept l'.store := by
  cases op with
  | prepareIntent preparation operationID => exact absurd rfl (hop preparation operationID)
  | transaction | revalidate | signTransaction | load =>
    obtain ⟨x, -, h⟩ := bind_eq_ok.mp h
    obtain ⟨rfl, -⟩ := Prod.mk.inj (pure_eq_ok.mp h)
    exact .refl _
  | read | syncDirectory | broadcast =>
    obtain ⟨rfl, -⟩ := Prod.mk.inj (pure_eq_ok.mp h)
    exact .refl _
  | mkstemp =>
    obtain ⟨spool, -, h⟩ := bind_eq_ok.mp h
    obtain ⟨rfl, -⟩ := Prod.mk.inj (pure_eq_ok.mp h)
    exact .refl _
  | write | fsync | replace =>
    obtain ⟨spool, -, rfl⟩ := Lab.change_eq_ok.mp h
    exact .refl _
  | signerReturned =>
    obtain ⟨s, hs, rfl⟩ := Lab.commit_eq_ok.mp h
    obtain ⟨current, -, hs⟩ := bind_eq_ok.mp hs
    obtain ⟨-, hs⟩ := revertIf_bind.mp hs
    exact setTransaction_kept hs (fun _ => rfl) fun _ => rfl
  | hashPersisted =>
    obtain ⟨⟨s, spooled⟩, hs, h⟩ := bind_eq_ok.mp h
    obtain ⟨rfl, -⟩ := Prod.mk.inj (pure_eq_ok.mp h)
    obtain ⟨current, -, hs⟩ := bind_eq_ok.mp hs
    obtain ⟨-, hs⟩ := revertIf_bind.mp hs
    split at hs
    · obtain ⟨existing, -, hs⟩ := bind_eq_ok.mp hs
      obtain ⟨-, hs⟩ := revertIf_bind.mp hs
      obtain ⟨rfl, -⟩ := Prod.mk.inj (pure_eq_ok.mp hs)
      exact .refl _
    · obtain ⟨s₁, h₁, hs⟩ := bind_eq_ok.mp hs
      obtain ⟨s₂, h₂, hs⟩ := bind_eq_ok.mp hs
      obtain ⟨rfl, -⟩ := Prod.mk.inj (pure_eq_ok.mp hs)
      exact (setTransaction_kept h₁ (fun _ => rfl) fun _ => rfl).setIntentState h₂
  | broadcastStarted | acknowledged =>
    obtain ⟨s, hs, rfl⟩ := Lab.commit_eq_ok.mp h
    obtain ⟨current, -, hs⟩ := bind_eq_ok.mp hs
    obtain ⟨-, hs⟩ := revertIf_bind.mp hs
    obtain ⟨s₁, h₁, hs⟩ := bind_eq_ok.mp hs
    exact (setTransaction_kept h₁ (fun _ => rfl) fun _ => rfl).setIntentState hs
  | advanceObservation =>
    obtain ⟨s, hs, rfl⟩ := Lab.commit_eq_ok.mp h
    obtain ⟨row, -, hs⟩ := bind_eq_ok.mp hs
    split at hs
    · obtain rfl := pure_eq_ok.mp hs
      exact .refl _
    · obtain ⟨-, hs⟩ := revertIf_bind.mp hs
      obtain ⟨s₁, h₁, hs⟩ := bind_eq_ok.mp hs
      exact (setTransaction_kept h₁ (fun _ => rfl) fun _ => rfl).setIntentState hs

end

/-! ## A new transaction -/

/-- The store after the transaction of a preparation is added. -/
structure Inserted (preparation : IntentPreparation) (operationID : String) (s s' : Store) : Prop where
  unused : s.transaction preparation.transactionID = none
  unbound : s.intent preparation.request.intentID = none
  transaction : ∀ id, s'.transaction id =
    if id = preparation.transactionID then some (SubmissionCoordinator.transactionRow preparation) else s.transaction id
  intent : ∀ id, s'.intent id =
    if id = preparation.request.intentID then some (SubmissionCoordinator.intentRow preparation operationID)
      else s.intent id

/-- A new intent is bound to a new transaction; a known one changes nothing. -/
theorem prepareIntent_eq_ok {preparation : IntentPreparation} {operationID id : String}
    (h : SubmissionCoordinator.prepareIntent s preparation operationID = .ok (s', id)) :
    s' = s ∨ Inserted preparation operationID s s' := by
  unfold SubmissionCoordinator.prepareIntent at h
  split at h
  · obtain ⟨-, h⟩ := revertIf_bind.mp h
    exact .inl (Prod.mk.inj (pure_eq_ok.mp h)).1.symm
  · rename_i unbound
    obtain ⟨-, h⟩ := unit_bind.mp h
    obtain ⟨s₁, h₁, h⟩ := bind_eq_ok.mp h
    obtain ⟨-, rfl⟩ := putIntents_eq_ok.mp h₁
    obtain ⟨-, h⟩ := revertIf_bind.mp h
    obtain ⟨s₂, h₂, h⟩ := bind_eq_ok.mp h
    obtain ⟨⟨-, unique, -⟩, rfl⟩ := putTransactions_eq_ok.mp h₂
    obtain ⟨s₃, h₃, h⟩ := bind_eq_ok.mp h
    obtain ⟨-, rfl⟩ := putNonceLeases_eq_ok.mp h₃
    obtain ⟨rfl, -⟩ := Prod.mk.inj (pure_eq_ok.mp h)
    have unused : s.transaction preparation.transactionID = none := by
      refine List.find?_eq_none.mpr fun t ht he => ?_
      have hid : t.transactionID = preparation.transactionID := by simpa using he
      exact unique.ne_of_append ht (List.mem_singleton_self _) rfl (congrArg some hid.symm)
    refine .inr ⟨unused, unbound, fun id => ?_, fun id => ?_⟩
    · show (s.transactions ++ [_]).find? _ = _
      rw [List.find?_append, List.find?_singleton, show s.transactions.find? _ = s.transaction id from rfl]
      by_cases hid : id = preparation.transactionID
      · rw [hid, unused]
        simp [SubmissionCoordinator.transactionRow]
      · simp [SubmissionCoordinator.transactionRow, hid, Ne.symm hid]
    · show (s.intents ++ [_]).find? _ = _
      rw [List.find?_append, List.find?_singleton, show s.intents.find? _ = s.intent id from rfl]
      by_cases hid : id = preparation.request.intentID
      · rw [hid, unbound]
        simp [SubmissionCoordinator.intentRow]
      · simp [SubmissionCoordinator.intentRow, hid, Ne.symm hid]

section

variable {preparation : IntentPreparation} {operationID : String}

/-- The slot that a preparation asks for. -/
def IntentPreparation.slot (preparation : IntentPreparation) : String × Int × Int :=
  (preparation.stageID, preparation.request.chainID, preparation.request.nonce)

theorem Inserted.slot_self (h : Inserted preparation operationID s s') :
    s'.slot preparation.transactionID = some preparation.slot :=
  slot_eq_some.mpr ⟨_, _, (h.transaction _).trans (if_pos rfl), (h.intent _).trans (if_pos rfl), rfl⟩

theorem Inserted.replaced_self (h : Inserted preparation operationID s s') :
    s'.replaced preparation.transactionID = preparation.replacesTransactionID := by
  rw [Store.replaced, h.transaction, if_pos rfl]
  rfl

theorem Inserted.replaced_of_ne (h : Inserted preparation operationID s s') {id : String}
    (hid : id ≠ preparation.transactionID) :
    s'.replaced id = s.replaced id := by
  rw [Store.replaced, h.transaction, if_neg hid]
  rfl

theorem Inserted.ne (h : Inserted preparation operationID s s') {id : String} {c : String × Int × Int}
    (hc : s.slot id = some c) : id ≠ preparation.transactionID := by
  obtain ⟨t, i, ht, -⟩ := slot_eq_some.mp hc
  intro hid
  rw [hid, h.unused] at ht
  exact absurd ht nofun

theorem Inserted.later (h : Inserted preparation operationID s s') : s.Later s' := by
  refine ⟨fun id c hc => ?_, fun id c hc => h.replaced_of_ne (h.ne hc)⟩
  have hne : id ≠ preparation.transactionID := h.ne hc
  obtain ⟨t, i, ht, hi, he⟩ := slot_eq_some.mp hc
  have hintent : t.intentID ≠ preparation.request.intentID := fun hid => by
    rw [hid, h.unbound] at hi
    exact absurd hi nofun
  exact slot_eq_some.mpr ⟨t, i, (h.transaction id).trans ((if_neg hne).trans ht),
    (h.intent _).trans ((if_neg hintent).trans hi), he⟩

end

/-! ## Lines of replacements -/

/-- What replaces one another agrees in its slot, lies on lines, and is not too deep. -/
structure Replacing (maximum : ℕ) (s : Store) : Prop where
  known : ∀ id t, s.transaction id = some t → ∃ c, s.slot id = some c
  slots : ∀ id p, s.replaced id = some p → ∃ c, s.slot p = some c ∧ s.slot id = some c
  depth : ∀ id p, s.replaced id = some p → ∃ n < maximum, Depth s.replaced p n
  single : ∀ p a b, s.replaced a = some p → s.replaced b = some p → a = b

/-- A transaction that is known stays at its depth. -/
theorem Replacing.depth_later (h : Replacing maximum s) (hl : s.Later s') {id : String} {n : ℕ} {c : String × Int × Int}
    (hc : s.slot id = some c) (hd : Depth s.replaced id n) : Depth s'.replaced id n := by
  induction hd generalizing c with
  | top hp => exact .top ((hl.replaced _ c hc).trans hp)
  | under hp _ ih =>
    obtain ⟨c', hc', -⟩ := h.slots _ _ hp
    exact .under ((hl.replaced _ c hc).trans hp) (ih hc')

/-- What a preparation that names a predecessor needs: a transaction with its slot that is not too deep. -/
def Allowed (maximum : ℕ) (preparation : IntentPreparation) (s : Store) : Prop :=
  ∀ p, preparation.replacesTransactionID = some p →
    s.slot p = some preparation.slot ∧ ∃ n < maximum, Depth s.replaced p n

/-- No transaction replaces the one that a preparation names. -/
def Unreplaced (preparation : IntentPreparation) (s : Store) : Prop :=
  ∀ p, preparation.replacesTransactionID = some p → ∀ id, s.replaced id ≠ some p

theorem Replacing.kept (h : Replacing maximum s) (hk : s.Kept s') : Replacing maximum s' := by
  have hr : s'.replaced = s.replaced := funext hk.replaced
  refine ⟨fun id t ht => ?_, fun id p hp => ?_, fun id p hp => ?_, fun p a b ha hb => ?_⟩
  · obtain ⟨t', ht', -⟩ : ∃ t', s.transaction id = some t' ∧ t'.columns = t.columns := by
      simpa [ht, eq_comm] using hk.columns id
    obtain ⟨c, hc⟩ := h.known id t' ht'
    exact ⟨c, hk.slot hc⟩
  · obtain ⟨c, hc, hc'⟩ := h.slots id p (hr ▸ hp)
    exact ⟨c, hk.slot hc, hk.slot hc'⟩
  · rw [hr] at hp ⊢
    exact h.depth id p hp
  · rw [hr] at ha hb
    exact h.single p a b ha hb

theorem Replacing.inserted {preparation : IntentPreparation} {operationID : String} (h : Replacing maximum s)
    (hi : Inserted preparation operationID s s') (allowed : Allowed maximum preparation s)
    (unreplaced : Unreplaced preparation s) : Replacing maximum s' := by
  have hl : s.Later s' := hi.later
  refine ⟨fun id t ht => ?_, fun id p hp => ?_, fun id p hp => ?_, fun p a b ha hb => ?_⟩
  · by_cases hid : id = preparation.transactionID
    · exact ⟨_, hid ▸ hi.slot_self⟩
    · obtain ⟨c, hc⟩ := h.known id t (((hi.transaction id).trans (if_neg hid)).symm.trans ht)
      exact ⟨c, hl.slot id c hc⟩
  · by_cases hid : id = preparation.transactionID
    · rw [hid, hi.replaced_self] at hp
      rw [hid]
      exact ⟨_, hl.slot p _ (allowed p hp).1, hi.slot_self⟩
    · rw [hi.replaced_of_ne hid] at hp
      obtain ⟨c, hc, hc'⟩ := h.slots id p hp
      exact ⟨c, hl.slot p c hc, hl.slot id c hc'⟩
  · by_cases hid : id = preparation.transactionID
    · rw [hid, hi.replaced_self] at hp
      obtain ⟨hc, n, hn, hd⟩ := allowed p hp
      exact ⟨n, hn, h.depth_later hl hc hd⟩
    · rw [hi.replaced_of_ne hid] at hp
      obtain ⟨n, hn, hd⟩ := h.depth id p hp
      obtain ⟨c, hc, -⟩ := h.slots id p hp
      exact ⟨n, hn, h.depth_later hl hc hd⟩
  · by_cases ha' : a = preparation.transactionID <;> by_cases hb' : b = preparation.transactionID
    · exact ha'.trans hb'.symm
    · rw [ha', hi.replaced_self] at ha
      exact absurd ((hi.replaced_of_ne hb').symm.trans hb) (unreplaced p ha b)
    · rw [hb', hi.replaced_self] at hb
      exact absurd ((hi.replaced_of_ne ha').symm.trans ha) (unreplaced p hb a)
    · exact h.single p a b ((hi.replaced_of_ne ha').symm.trans ha) ((hi.replaced_of_ne hb').symm.trans hb)

/-- The replacements that begin with a transaction: so many at most, with its slot. -/
theorem Replacing.bounded (h : Replacing maximum s) (root : String) :
    {id | Below s.replaced root id}.encard ≤ maximum ∧
      ∀ id, Below s.replaced root id → ∃ c, s.slot root = some c ∧ s.slot id = some c := by
  refine ⟨encard_below_le (fun p a b => h.single p a b) fun id hid => ?_, fun id hid => ?_⟩
  · obtain ⟨p, -, hp⟩ := Relation.TransGen.tail'_iff.mp hid
    obtain ⟨n, hn, hd⟩ := h.depth id p hp
    exact ⟨n + 1, hn, .under hp hd⟩
  · refine Below.rel (R := fun a b => ∃ c, s.slot a = some c ∧ s.slot b = some c) ?_ (fun hp => h.slots _ _ hp) hid
    rintro a b c ⟨x, ha, hb⟩ ⟨y, hb', hc⟩
    obtain rfl := Option.some.inj (hb.symm.trans hb')
    exact ⟨x, ha, hc⟩

namespace ReplacementManager

/-! ## Calls -/

/-- The rows of the query are the transaction and all that is above it. -/
theorem ancestors_depth (slots : ∀ id p, s.replaced id = some p → ∃ c, s.slot p = some c) {fuel : ℕ} {id : String}
    {record : TransactionRow} {rows : List TransactionRow} (hr : s.transaction id = some record)
    (h : ancestors s fuel (some id) = .ok rows) : Depth s.replaced id (rows.length - 1) ∧ rows ≠ [] := by
  induction fuel generalizing id record rows with
  | zero => cases h
  | succ fuel ih =>
    rw [ancestors, hr] at h
    obtain ⟨rest, hrest, h⟩ := bind_eq_ok.mp h
    obtain rfl := pure_eq_ok.mp h
    have hp : s.replaced id = record.replacesTransactionID := by rw [Store.replaced, hr]; rfl
    refine ⟨?_, by simp⟩
    cases hq : record.replacesTransactionID with
    | none =>
      rw [hq] at hrest hp
      cases fuel <;> (cases hrest; exact .top hp)
    | some q =>
      rw [hq] at hrest hp
      obtain ⟨c, hc⟩ := slots id q hp
      obtain ⟨t, i, ht, -⟩ := slot_eq_some.mp hc
      obtain ⟨hd, hne⟩ := ih ht hrest
      obtain ⟨n, hn⟩ := Nat.exists_eq_succ_of_ne_zero (mt List.length_eq_zero_iff.mp hne)
      rw [hn] at hd
      rw [List.length_cons, Nat.add_sub_cancel, hn]
      exact .under hp hd

theorem predecessor_eq_ok {id : String} {found : Predecessor} (hs : Replacing maximum s)
    (h : predecessor s id = .ok found) :
    s.slot id = some (found.stageID, found.record.chainID, found.record.nonce) ∧ Depth s.replaced id found.count := by
  obtain ⟨record, hr, h⟩ := orRevert_bind.mp h
  obtain ⟨intent, hi, h⟩ := orRevert_bind.mp h
  obtain ⟨rows, hrows, h⟩ := bind_eq_ok.mp h
  obtain rfl := pure_eq_ok.mp h
  refine ⟨slot_eq_some.mpr ⟨record, intent, hr, hi, rfl⟩, ?_⟩
  refine (ancestors_depth (fun id p hp => ?_) hr hrows).1
  obtain ⟨c, hc, -⟩ := hs.slots id p hp
  exact ⟨c, hc⟩

/-- What an operation of a manager needs. -/
def Fit (maximum : ℕ) (op : ReplacementOp) (s : Store) : Prop :=
  ∀ preparation operationID, op = .prepareIntent preparation operationID → Allowed maximum preparation s

/-- An operation prepares nothing new, or a replacement of a transaction that none replaces yet. -/
def NamesLast (s : Store) (op : ReplacementOp) : Prop :=
  ∀ preparation operationID, op = .prepareIntent preparation operationID →
    s.intent preparation.request.intentID = none → Unreplaced preparation s

end ReplacementManager

open ReplacementManager

theorem Allowed.later {preparation : IntentPreparation} (hs : Replacing maximum s) (hl : s.Later s')
    (h : Allowed maximum preparation s) : Allowed maximum preparation s' := fun p hp => by
  obtain ⟨hslot, n, hn, hd⟩ := h p hp
  exact ⟨hl.slot p _ hslot, n, hn, hs.depth_later hl hslot hd⟩

/-- An operation that has what it needs keeps the lines. -/
theorem Replacing.answers {op : ReplacementOp} {r : Except LabError op.Answer} (h : Replacing maximum s)
    (fit : Fit maximum op s) (ha : Answers s op r s') (last : NamesLast s op) : Replacing maximum s' ∧ s.Later s' := by
  cases ha with
  | raises | predecessor => exact ⟨h, .refl s⟩
  | prepareIntent hp =>
    obtain rfl | hi := prepareIntent_eq_ok hp
    · exact ⟨h, .refl _⟩
    · exact ⟨h.inserted hi (fit _ _ rfl) (last _ _ rfl hi.unbound), hi.later⟩

section

variable [SignerLibraries]

/-- What happens around the managers keeps the lines. -/
theorem Replacing.around (h : Replacing maximum s) (ha : AroundReplacements s () s') :
    Replacing maximum s' ∧ s.Later s' := by
  cases ha with
  | others kept => exact ⟨h.kept kept, kept.later⟩
  | @submission l l' op r plain answers =>
    cases answers with
    | raises =>
      rw [l.raised_store]
      exact ⟨h, .refl _⟩
    | @does _ _ _ hd =>
      by_cases hop : ∃ preparation operationID, op = .prepareIntent preparation operationID
      · obtain ⟨preparation, operationID, rfl⟩ := hop
        have none : preparation.replacesTransactionID = none := plain _ _ rfl
        obtain ⟨⟨s, id⟩, hp, hd⟩ := bind_eq_ok.mp hd
        obtain ⟨rfl, -⟩ := Prod.mk.inj (pure_eq_ok.mp hd)
        obtain rfl | hi := prepareIntent_eq_ok hp
        · exact ⟨h, .refl _⟩
        · refine ⟨h.inserted hi (fun p hp => ?_) (fun p hp => ?_), hi.later⟩
          · exact absurd (none.symm.trans hp) nofun
          · exact absurd (none.symm.trans hp) nofun
      · have kept := Lab.does_kept hd fun preparation operationID he => hop ⟨preparation, operationID, he⟩
        exact ⟨h.kept kept, kept.later⟩

end

namespace ReplacementManager

/-- The answers in a run whose calls name the last transaction of a line. -/
abbrev LineAnswers (op : ReplacementOp) (s : Store) (r : Except LabError op.Answer) (s' : Store) : Prop :=
  Answers s op r s' ∧ NamesLast s op

section

variable [SignerLibraries] (m : ReplacementManager)

/-- However its surroundings change the store, a call prepares no more than the maximum allows. -/
theorem prepareReplacement_ready (s : Store) (priorTransactionID : String) (preparation : IntentPreparation) :
    Threads.Ready LineAnswers (Replacing m.maximum) Store.Later (Fit m.maximum) s
      (m.prepareReplacement priorTransactionID preparation) := by
  refine .call_bind (fun _ _ _ _ _ => nofun) fun s₁ found s₁' _ hs₁ ha _ => ?_
  obtain ⟨rfl, hfound⟩ : s₁' = s₁ ∧ predecessor s₁ priorTransactionID = .ok found := by
    cases ha.1 with
    | predecessor h => exact ⟨rfl, h⟩
  obtain ⟨hslot, hdepth⟩ := predecessor_eq_ok hs₁ hfound
  refine .ofExcept_bind fun _ hcount => .ofExcept_bind fun _ _ => .ofExcept_bind fun _ hsame => ?_
  have hcount : ¬ m.maximum ≤ found.count := revertIf_eq_ok.mp hcount
  have hsame := revertIf_eq_ok.mp hsame
  simp only [not_or, not_not] at hsame
  obtain ⟨hchain, hnonce, hstage⟩ := hsame
  have allowed : Allowed m.maximum { preparation with replacesTransactionID := some priorTransactionID } s₁' := by
    intro p hp
    obtain rfl := Option.some.inj hp
    refine ⟨?_, found.count, by omega, hdepth⟩
    rw [hslot, IntentPreparation.slot, hchain, hnonce, hstage]
  refine .handle
    (.ofExcept_bind fun operationID _ => .op (fun t hl _ preparation' operationID' he => ?_) fun _ _ _ _ _ _ _ => ?_)
    fun t e => .fail t _
  · obtain ⟨rfl, -⟩ := ReplacementOp.prepareIntent.inj he
    exact Allowed.later hs₁ hl allowed
  · exact .ofExcept _

variable {τ : Type} [DecidableEq τ]

/-- No call is running, no transaction replaces another, and each has its intent. -/
structure Unstarted (s : Managers τ) : Prop where
  idle : ∀ i, ∃ id, s.progs i = .done id
  rows : ∀ id t, s.shared.transaction id = some t →
    t.replacesTransactionID = none ∧ ∃ i, s.shared.intent t.intentID = some i

omit [SignerLibraries] [DecidableEq τ] in
theorem Unstarted.replacing {s : Managers τ} (h : Unstarted s) : Replacing maximum s.shared := by
  have hnone (id : String) : s.shared.replaced id = none := by
    rw [Store.replaced, Option.bind_eq_none_iff]
    exact fun t ht => (h.rows id t ht).1
  refine ⟨fun id t ht => ?_, fun id p hp => ?_, fun id p hp => ?_, fun p a b ha => ?_⟩
  · obtain ⟨-, i, hi⟩ := h.rows id t ht
    exact ⟨_, slot_eq_some.mpr ⟨t, i, ht, hi, rfl⟩⟩
  · exact absurd ((hnone id).symm.trans hp) nofun
  · exact absurd ((hnone id).symm.trans hp) nofun
  · exact absurd ((hnone a).symm.trans ha) nofun

/-- The replacements that begin with any transaction are at most the maximum, and keep its stage, chain and nonce. -/
def Bounded (s : Store) : Prop :=
  ∀ root, {id | Below s.replaced root id}.encard ≤ m.maximum ∧
    ∀ id, Below s.replaced root id → ∃ c, s.slot root = some c ∧ s.slot id = some c

/-- A step in which a call that prepares a replacement names a transaction that none replaces yet. -/
abbrev LineStep : Managers τ → Threads.Event τ ReplacementCall ReplacementOp ⊕ Unit → Managers τ → Prop :=
  Threads.WorldStep LineAnswers (fun call => m.prepareReplacement call.1 call.2) AroundReplacements

/-- In every run of such steps the replacements are bounded. -/
theorem replacements_of_run {s₀ s : Managers τ} {es : List (Threads.Event τ ReplacementCall ReplacementOp ⊕ Unit)}
    (start : Unstarted s₀) (run : Run (LineStep m) s₀ es s) : Bounded m s.shared := by
  have h₀ : Replacing m.maximum s₀.shared ∧
      ∀ i, Threads.Ready LineAnswers (Replacing m.maximum) Store.Later (Fit m.maximum) s₀.shared (s₀.progs i) := by
    refine ⟨start.replacing, fun i => ?_⟩
    obtain ⟨id, hi⟩ := start.idle i
    rw [hi]
    exact .done _ _
  have h := Threads.ready_of_run Later.refl (fun _ _ _ => Later.trans)
    (fun s call _ => prepareReplacement_ready m s call.1 call.2)
    (fun hs fit ha => hs.answers fit ha.1 ha.2) (fun hs ha => hs.around ha) run h₀
  exact h.1.bounded

end

/-! ## Two replacements of one transaction -/

/-- A manager that is the only one. -/
def only (s : Store) (p : Program String) : Managers Unit := ⟨s, fun _ => p⟩

section

variable [SignerLibraries] {m : ReplacementManager} (p : String) (preparation : IntentPreparation) {found : Predecessor}
  {operationID : String}

/-- What a call asks once it has read its predecessor, if its checks pass. -/
theorem prepareReplacement_eq (hcount : found.count < m.maximum)
    (hstate : found.record.state ∈ [.broadcastUnknown, .submitted, .other "orphaned"])
    (hslot : preparation.slot = (found.stageID, found.record.chainID, found.record.nonce))
    (hop : SubmissionCoordinator.preparedOperation { preparation with replacesTransactionID := some p } =
      .ok operationID) :
    ∃ k k', m.prepareReplacement p preparation = .op (.predecessor p) k ∧
      k (.ok found) = .op (.prepareIntent { preparation with replacesTransactionID := some p } operationID) k' ∧
      ∀ id, k' (.ok id) = .done id := by
  obtain ⟨hstage, hchain, hnonce⟩ := by simpa [IntentPreparation.slot] using hslot
  have hcount : ¬ m.maximum ≤ found.count := by omega
  refine ⟨_, fun r => (Prog.ofExcept r).handle fun e => Prog.fail (unsafeIntent e), rfl, ?_, fun _ => rfl⟩
  show (Prog.ofExcept (revertIf (m.maximum ≤ found.count) _) >>= fun _ => _) = _
  rw [revertIf, if_neg hcount]
  show (Prog.ofExcept (revertIf (found.record.state ∉ _) _) >>= fun _ => _) = _
  rw [revertIf, if_neg (not_not.mpr hstate)]
  show (Prog.ofExcept
    (revertIf (preparation.request.chainID ≠ _ ∨ preparation.request.nonce ≠ _ ∨ preparation.stageID ≠ _) _) >>=
    fun _ => _) = _
  rw [revertIf, if_neg (by simp [hstage, hchain, hnonce])]
  show (prepareIntent _).handle _ = _
  rw [prepareIntent, hop]
  rfl

/-- A call that is answered twice and returns. -/
theorem call_run (answers : ∀ op : ReplacementOp, Store → Except LabError op.Answer → Store → Prop) {id x : String}
    (hcount : found.count < m.maximum)
    (hstate : found.record.state ∈ [.broadcastUnknown, .submitted, .other "orphaned"])
    (hslot : preparation.slot = (found.stageID, found.record.chainID, found.record.nonce))
    (hop : SubmissionCoordinator.preparedOperation { preparation with replacesTransactionID := some p } =
      .ok operationID)
    (first : answers (.predecessor p) s (.ok found) s)
    (second : answers (.prepareIntent { preparation with replacesTransactionID := some p } operationID) s (.ok id) s') :
    ∃ es, Run
    (Threads.WorldStep answers (fun call : ReplacementCall => m.prepareReplacement call.1 call.2) AroundReplacements)
      (only s (.done x)) es (only s' (.done id)) := by
  obtain ⟨k, k', hk, hk', hdone⟩ := prepareReplacement_eq p preparation hcount hstate hslot hop
  refine ⟨[.inl (.start () (p, preparation)), .inl (.answer () (.predecessor p)), .inl
      (.answer () (.prepareIntent { preparation with replacesTransactionID := some p } operationID))],
    @Run.cons _ _ _ _ (only s (.op _ k)) _ _ _ ?_ (@Run.cons _ _ _ _ (only s (.op _ k')) _ _ _ ?_ (.single ?_))⟩
  · rw [← hk]
    exact .thread (.start (s := only s (.done x)))
  · rw [← hk']
    exact .thread (.answer (s := only s (.op _ k)) rfl first)
  · rw [← hdone]
    exact .thread (.answer (s := only s (.op _ k')) rfl second)

end

/-- A hash and a canonical form that tell requests by the lengths of their intents' identifiers. -/
@[reducible] def lengthLibraries : SignerLibraries where
  sha256 data := String.ofList (List.replicate (64 - data.length) 'a' ++ List.replicate data.length 'b')
  dumps request := .ok (List.replicate request.intentID.length 0)

/-- The store with one transaction, which was submitted. -/
def oneSubmitted : Store := { oneTransaction with
  transactions := [{ onePrepared with state := .submitted }]
  approvals := fun approvalID => if approvalID = "approval" then some ⟨someDigest, 0, 10⟩ else none }

/-- A preparation for the slot of that transaction. -/
def onePreparation (transactionID intentID : String) : IntentPreparation :=
  ⟨transactionID, "stage", "lineage", "route", "source", "approval", someDigest, someDigest, someDigest, someDigest, 10,
    someDigest, 10, someDigest, 1, { oneRequest with intentID := intentID }, none⟩

section

attribute [local instance] lengthLibraries

/-- The operation of a request whose intent's identifier has so many characters. -/
def operationOf (n : ℕ) : String := "signop_" ++ SignerLibraries.sha256 (List.replicate n 0)

/-- The preparation of a replacement of the submitted transaction. -/
def bump (transactionID intentID : String) : IntentPreparation :=
  { onePreparation transactionID intentID with replacesTransactionID := some "transaction" }

/-- A store, and what a preparation adds to it. -/
def withReplacement (s : Store) (transactionID intentID operationID : String) : Store :=
  { s with
    intents := s.intents ++ [SubmissionCoordinator.intentRow (bump transactionID intentID) operationID]
    transactions := s.transactions ++ [SubmissionCoordinator.transactionRow (bump transactionID intentID)] }

def bumped : Store := withReplacement oneSubmitted "bumped" "bump" (operationOf 4)

def bumpedTwice : Store := withReplacement bumped "again" "again" (operationOf 5)

theorem predecessor_oneSubmitted :
    predecessor oneSubmitted "transaction" = .ok ⟨{ onePrepared with state := .submitted }, "stage", 0⟩ := rfl

/-- The first replacement is not counted. -/
theorem predecessor_bumped :
    predecessor bumped "transaction" = .ok ⟨{ onePrepared with state := .submitted }, "stage", 0⟩ := rfl

set_option maxRecDepth 4000 in
theorem prepareIntent_bumped :
    SubmissionCoordinator.prepareIntent oneSubmitted (bump "bumped" "bump") (operationOf 4) = .ok
    (bumped, operationOf 4) := rfl

set_option maxRecDepth 4000 in
theorem prepareIntent_bumpedTwice :
    SubmissionCoordinator.prepareIntent bumped (bump "again" "again") (operationOf 5) = .ok
    (bumpedTwice, operationOf 5) := rfl

theorem unstarted_oneSubmitted : Unstarted (only oneSubmitted (.done "")) := by
  refine ⟨fun _ => ⟨"", rfl⟩, fun id t ht => ?_⟩
  obtain rfl := List.mem_singleton.mp (List.mem_of_find?_eq_some ht)
  exact ⟨rfl, oneIntent, rfl⟩

theorem namesLast_predecessor (s : Store) (transactionID : String) : NamesLast s (.predecessor transactionID) :=
  fun _ _ he => by cases he

theorem namesLast_bump : NamesLast oneSubmitted (.prepareIntent (bump "bumped" "bump") (operationOf 4)) := by
  rintro preparation operationID he - p - id hid
  obtain ⟨t, ht, hr⟩ := Option.bind_eq_some_iff.mp hid
  obtain rfl := List.mem_singleton.mp (List.mem_of_find?_eq_some ht)
  exact absurd hr nofun

theorem length_someDigest : someDigest.length = 64 := by
  unfold someDigest
  rw [String.length_ofList, List.length_replicate]

theorem mem_someDigest {c : Char} (h : c ∈ someDigest.toList) : c = 'a' := by
  unfold someDigest at h
  rw [String.toList_ofList] at h
  exact List.eq_of_mem_replicate h

theorem digest_someDigest (label : String) : SubmissionCoordinator.digest someDigest label = .ok () := by
  refine revertIf_eq_ok.mpr (not_not.mpr ⟨length_someDigest, fun c hc => ?_⟩)
  rw [mem_someDigest hc]
  decide

theorem preparedOperation_bump {transactionID intentID : String} {n : ℕ} (ht : transactionID ≠ "") (hi : intentID ≠ "")
    (hn : intentID.length = n) :
    SubmissionCoordinator.preparedOperation (bump transactionID intentID) = .ok (operationOf n) := by
  subst hn
  unfold SubmissionCoordinator.preparedOperation
  refine revertIf_bind.mpr ⟨not_or.mpr ⟨hi, ht⟩, revertIf_bind.mpr ⟨?_, ?_⟩⟩
  · show ¬ ((1 : Int) < 0 ∨ (0 : Int) < 0 ∨ (1 : Int) < 0)
    decide
  · show (do
      SubmissionCoordinator.digest someDigest _
      SubmissionCoordinator.digest someDigest _
      SubmissionCoordinator.digest someDigest _
      SubmissionCoordinator.digest someDigest _
      SubmissionCoordinator.digest someDigest _
      SubmissionCoordinator.digest someDigest _
      signerOperationID { oneRequest with intentID := intentID }) = _
    rw [digest_someDigest, digest_someDigest, digest_someDigest, digest_someDigest, digest_someDigest,
      digest_someDigest]
    rfl

/-- The run of the first replacement. -/
theorem replacements_of_run_bumped : ∃ es,
    Run (LineStep ⟨1⟩) (only oneSubmitted (.done "")) es (only bumped (.done (operationOf 4))) ∧
      Bounded ⟨1⟩ bumped := by
  have first : LineAnswers (.predecessor "transaction") oneSubmitted (.ok _) oneSubmitted :=
    ⟨.predecessor predecessor_oneSubmitted, namesLast_predecessor _ _⟩
  have second :
      LineAnswers (.prepareIntent (bump "bumped" "bump") (operationOf 4)) oneSubmitted (.ok (operationOf 4)) bumped :=
    ⟨.prepareIntent prepareIntent_bumped, namesLast_bump⟩
  obtain ⟨es, run⟩ :=
    call_run (m := ⟨1⟩) "transaction" (onePreparation "bumped" "bump") LineAnswers (x := "") Nat.one_pos
    (by decide) rfl (preparedOperation_bump (n := 4) (by decide) (by decide) (by decide)) first second
  have bounded := replacements_of_run ⟨1⟩ unstarted_oneSubmitted run
  exact ⟨es, run, bounded⟩

/-- Two calls that name one transaction exceed a maximum of one. -/
theorem replacements_unbounded : ¬ ∀ (m : ReplacementManager) (s₀ s : Managers Unit)
    (es : List (Threads.Event Unit ReplacementCall ReplacementOp ⊕ Unit)),
    Unstarted s₀ → Run (ReplacementStep m) s₀ es s → Bounded m s.shared := by
  intro h
  have first : Answers oneSubmitted (.predecessor "transaction") (.ok _) oneSubmitted :=
    .predecessor predecessor_oneSubmitted
  have second :
      Answers oneSubmitted (.prepareIntent (bump "bumped" "bump") (operationOf 4)) (.ok (operationOf 4)) bumped :=
    .prepareIntent prepareIntent_bumped
  have third : Answers bumped (.predecessor "transaction") (.ok _) bumped := .predecessor predecessor_bumped
  have fourth :
      Answers bumped (.prepareIntent (bump "again" "again") (operationOf 5)) (.ok (operationOf 5)) bumpedTwice :=
    .prepareIntent prepareIntent_bumpedTwice
  obtain ⟨es, run⟩ :=
    call_run (m := ⟨1⟩) "transaction" (onePreparation "bumped" "bump") (fun op s => Answers s op) (x := "")
    Nat.one_pos (by decide) rfl (preparedOperation_bump (n := 4) (by decide) (by decide) (by decide)) first second
  obtain ⟨es', run'⟩ := call_run (m := ⟨1⟩) "transaction" (onePreparation "again" "again") (fun op s => Answers s op)
    (x := operationOf 4) Nat.one_pos (by decide) rfl
      (preparedOperation_bump (n := 5) (by decide) (by decide) (by decide)) third fourth
  obtain ⟨hcard, -⟩ := h ⟨1⟩ _ _ _ unstarted_oneSubmitted (run.append run') "transaction"
  have hsub : ({"bumped", "again"} : Set String) ⊆ {id | Below bumpedTwice.replaced "transaction" id} := by
    rintro id (rfl | rfl)
    · exact .single rfl
    · exact .single rfl
  have hpair := (Set.encard_le_encard hsub).trans hcard
  rw [Set.encard_pair (by decide)] at hpair
  exact absurd hpair (by decide)

end

end ReplacementManager

end Xir.Impl.XirLab
