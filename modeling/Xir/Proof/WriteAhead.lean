import Xir.Proof.Stops
import Xir.Proof.Submission

/-!
# Bytes are persisted before they are sent

In every run of the coordinators, whatever the signer and the broadcaster reply
and wherever a method is given up, the hash, the digest and the length of bytes
are in the row of their transaction before the broadcaster gets the bytes, and
they stay there (`writeAhead_of_run`).
-/

namespace Xir.Impl.XirLab

open Store SubmissionCoordinator

variable {s s' : Store} {l l' : Lab} {allowRepeat : Bool}

/-- Bytes of the transaction may have reached the network. -/
def TransactionState.MayBeSent (state : TransactionState) : Prop :=
  state ∈ [.broadcastUnknown, .submitted, .included, .finalized]

/-- How the state of a transaction moves. -/
inductive Moves (allowRepeat : Bool) : TransactionState → TransactionState → Prop
  | stay (state : TransactionState) : Moves allowRepeat state state
  | signerReturned : Moves allowRepeat .prepared .signerReturn
  | hashPersisted : Moves allowRepeat .signerReturn .signedHashPersisted
  | broadcastStarted : Moves allowRepeat .signedHashPersisted .broadcastUnknown
  | acknowledged : Moves allowRepeat .broadcastUnknown .submitted
  | included {state : TransactionState} (of : state = .broadcastUnknown ∨ state = .submitted) :
    Moves allowRepeat state .included
  | finalized : Moves allowRepeat .included .finalized
  | repeated (allowed : allowRepeat = true) : Moves allowRepeat .submitted .broadcastUnknown

/-- What is persisted of the signed bytes stays. -/
structure ValuesKept (t t' : TransactionRow) : Prop where
  transactionHash : ∀ hash, t.transactionHash = some hash → t'.transactionHash = some hash
  signedSHA256 : ∀ digest, t.signedSHA256 = some digest → t'.signedSHA256 = some digest
  signedLength : ∀ length, t.signedLength = some length → t'.signedLength = some length

/-- The hash, the digest and the length of signed bytes are in the row of a transaction. -/
def Persisted (s : Store) (transactionID hash digest : String) (length : Int) : Prop :=
  ∃ t, s.transaction transactionID = some t ∧ t.transactionHash = some hash ∧ t.signedSHA256 = some digest ∧
    t.signedLength = some length

/-- The state of the transaction says that its bytes may have been sent. -/
def Announced (s : Store) (transactionID : String) : Prop :=
  ∃ t, s.transaction transactionID = some t ∧ t.state.MayBeSent

/-- The values are there from the time on when the bytes were signed. -/
inductive TransactionRow.Signed (t : TransactionRow) : Prop
  | unsigned (of : t.state = .prepared ∨ t.state = .signerReturn) (transactionHash : t.transactionHash = none)
    (signedSHA256 : t.signedSHA256 = none) (signedLength : t.signedLength = none)
  | signed (of : t.state = .signedHashPersisted ∨ t.state.MayBeSent) {hash digest : String} {length : Int}
    (transactionHash : t.transactionHash = some hash) (signedSHA256 : t.signedSHA256 = some digest)
    (signedLength : t.signedLength = some length)

/-- A new state changes no value. -/
theorem ValuesKept.of_state (t : TransactionRow) (state : TransactionState) : ValuesKept t { t with state := state } :=
  ⟨fun _ => id, fun _ => id, fun _ => id⟩

theorem ValuesKept.refl (t : TransactionRow) : ValuesKept t t := .of_state t t.state

theorem ValuesKept.trans {t t' t'' : TransactionRow} (h : ValuesKept t t') (h' : ValuesKept t' t'') :
    ValuesKept t t'' where
  transactionHash hash he := h'.transactionHash hash (h.transactionHash hash he)
  signedSHA256 digest he := h'.signedSHA256 digest (h.signedSHA256 digest he)
  signedLength length he := h'.signedLength length (h.signedLength length he)

/-! ## Steps -/

theorem mem_allowed {state : TransactionState} : state ∈ allowed allowRepeat ↔
    state = .signedHashPersisted ∨ state = .broadcastUnknown ∨ (allowRepeat = true ∧ state = .submitted) := by
  cases allowRepeat <;> simp [allowed]

theorem RowMove.moves {t t' : TransactionRow} (h : RowMove allowRepeat t t') : Moves allowRepeat t.state t'.state := by
  cases h with
  | signerReturned of =>
    have ht : t.state = .prepared ∨ t.state = .signerReturn := by simpa using of
    rcases ht with ht | ht
    · exact ht ▸ .signerReturned
    · exact ht ▸ .stay _
  | hashPersisted of => exact of ▸ .hashPersisted
  | broadcastStarted of =>
    rcases mem_allowed.mp of with ht | ht | ⟨ha, ht⟩
    · exact ht ▸ .broadcastStarted
    · exact ht ▸ .stay _
    · exact ht ▸ .repeated ha
  | acknowledged of => exact of ▸ .acknowledged
  | observed observation of =>
    cases observation with
    | included => exact .included (by simpa [Observation.expected] using of)
    | finalized =>
      have ht : t.state = .included := by simpa [Observation.expected] using of
      exact ht ▸ .finalized

theorem Moves.mayBeSent {state state' : TransactionState} (h : Moves allowRepeat state state')
    (hs : state.MayBeSent) : state'.MayBeSent := by
  cases h with
  | stay => exact hs
  | acknowledged | included | finalized | repeated => simp [TransactionState.MayBeSent]
  | signerReturned | hashPersisted | broadcastStarted => simp [TransactionState.MayBeSent] at hs

namespace TransactionRow

variable {t t' : TransactionRow}

theorem Signed.unsigned_values (h : t.Signed) (of : t.state = .prepared ∨ t.state = .signerReturn) :
    t.transactionHash = none ∧ t.signedSHA256 = none ∧ t.signedLength = none := by
  cases h with
  | unsigned _ hash digest length => exact ⟨hash, digest, length⟩
  | signed hs => rcases of with of | of <;> simp [of, TransactionState.MayBeSent] at hs

theorem Signed.signed_values (h : t.Signed) (of : t.state = .signedHashPersisted ∨ t.state.MayBeSent) :
    ∃ hash digest length, t.transactionHash = some hash ∧ t.signedSHA256 = some digest ∧ t.signedLength = some length :=
  by
  cases h with
  | unsigned hs => rcases hs with hs | hs <;> simp [hs, TransactionState.MayBeSent] at of
  | signed _ hash digest length => exact ⟨_, _, _, hash, digest, length⟩

/-- A row that is signed, in another state in which it is. -/
theorem Signed.of_state {state : TransactionState} (h : t.Signed)
    (of : t.state = .signedHashPersisted ∨ t.state.MayBeSent) (hs : state.MayBeSent) :
    ({ t with state := state } : TransactionRow).Signed := by
  obtain ⟨hash, digest, length, hh, hd, hl⟩ := h.signed_values of
  exact .signed (.inr hs) hh hd hl

end TransactionRow

/-- A rewriting of a row keeps what is persisted in it. -/
theorem RowMove.signed {t t' : TransactionRow} (h : RowMove allowRepeat t t') (ht : t.Signed) :
    t'.Signed ∧ ValuesKept t t' := by
  cases h with
  | signerReturned of =>
    obtain ⟨hash, digest, length⟩ := ht.unsigned_values (by simpa using of)
    exact ⟨.unsigned (.inr rfl) hash digest length, .of_state t _⟩
  | hashPersisted of hash digest path length =>
    obtain ⟨hh, hd, hl⟩ := ht.unsigned_values (.inr of)
    exact ⟨.signed (.inl rfl) rfl rfl rfl, ⟨by simp [hh], by simp [hd], by simp [hl]⟩⟩
  | broadcastStarted of =>
    refine ⟨ht.of_state ?_ (by simp [TransactionState.MayBeSent]), .of_state t _⟩
    rcases mem_allowed.mp of with hs | hs | ⟨-, hs⟩
    · exact .inl hs
    · exact .inr (by simp [hs, TransactionState.MayBeSent])
    · exact .inr (by simp [hs, TransactionState.MayBeSent])
  | acknowledged of =>
    exact ⟨ht.of_state (.inr (by simp [of, TransactionState.MayBeSent])) (by simp [TransactionState.MayBeSent]),
      .of_state t _⟩
  | observed observation of =>
    refine ⟨ht.of_state (.inr ?_) ?_, .of_state t _⟩
    · cases observation with
      | included =>
        have hs : t.state = .broadcastUnknown ∨ t.state = .submitted := by simpa [Observation.expected] using of
        rcases hs with hs | hs <;> simp [hs, TransactionState.MayBeSent]
      | finalized =>
        have hs : t.state = .included := by simpa [Observation.expected] using of
        simp [hs, TransactionState.MayBeSent]
    · cases observation <;> simp [TransactionState.MayBeSent, Observation.toState]

/-- The rows of a store keep what is persisted in them, and their states move as they should. -/
def Ahead (allowRepeat : Bool) (s s' : Store) : Prop := ∀ id t, s.transaction id = some t →
  ∃ t', s'.transaction id = some t' ∧ ValuesKept t t' ∧ Moves allowRepeat t.state t'.state

/-- The values of every transaction are there from the time on when its bytes were signed. -/
def AllSigned (s : Store) : Prop := ∀ id t, s.transaction id = some t → t.Signed

theorem Written.ahead (h : Written allowRepeat s s') (hs : AllSigned s) : AllSigned s' ∧ Ahead allowRepeat s s' := by
  refine ⟨fun id t' ht' => ?_, fun id t ht => ?_⟩
  · have hr := h.rows id
    rw [ht'] at hr
    cases ht : s.transaction id with
    | none =>
      rw [ht] at hr
      cases hr with
      | prepared preparation => exact .unsigned (.inl rfl) rfl rfl rfl
    | some t =>
      rw [ht] at hr
      cases hr with
      | same => exact hs id _ ht
      | moved move => exact (move.signed (hs id t ht)).1
  · have hr := h.rows id
    rw [ht] at hr
    cases ht' : s'.transaction id with
    | none =>
      rw [ht'] at hr
      cases hr
    | some t' =>
      rw [ht'] at hr
      cases hr with
      | same => exact ⟨_, rfl, .refl _, .stay _⟩
      | moved move => exact ⟨t', rfl, (move.signed (hs id t ht)).2, move.moves⟩

/-! ## What later states keep -/

/-- What a state keeps from any state before it. -/
def Later (l l' : Lab) : Prop := ∀ id t, l.store.transaction id = some t →
  ∃ t', l'.store.transaction id = some t' ∧ ValuesKept t t' ∧ (t.state.MayBeSent → t'.state.MayBeSent)

theorem Later.refl (l : Lab) : Later l l := fun _ t ht => ⟨t, ht, .refl t, id⟩

theorem Later.trans (l l' l'' : Lab) (h : Later l l') (h' : Later l' l'') : Later l l'' := fun id t ht => by
  obtain ⟨t', ht', hk, hm⟩ := h id t ht
  obtain ⟨t'', ht'', hk', hm'⟩ := h' id t' ht'
  exact ⟨t'', ht'', hk.trans hk', fun hs => hm' (hm hs)⟩

theorem Ahead.later (h : Ahead allowRepeat l.store l'.store) : Later l l' := fun id t ht => by
  obtain ⟨t', ht', hk, hm⟩ := h id t ht
  exact ⟨t', ht', hk, hm.mayBeSent⟩

theorem Persisted.later {id hash digest : String} {length : Int} (h : Persisted l.store id hash digest length)
    (hl : Later l l') : Persisted l'.store id hash digest length := by
  obtain ⟨t, ht, hh, hd, hn⟩ := h
  obtain ⟨t', ht', hk, -⟩ := hl id t ht
  exact ⟨t', ht', hk.transactionHash hash hh, hk.signedSHA256 digest hd, hk.signedLength length hn⟩

theorem Announced.later {id : String} (h : Announced l.store id) (hl : Later l l') : Announced l'.store id := by
  obtain ⟨t, ht, hs⟩ := h
  obtain ⟨t', ht', -, hm⟩ := hl id t ht
  exact ⟨t', ht', hm hs⟩

theorem broadcastStarted_announced {id intentID : String} (h : broadcastStarted s id intentID allowRepeat = .ok s') :
    Announced s' id := by
  obtain ⟨current, hc, h⟩ := bind_eq_ok.mp h
  obtain ⟨-, h⟩ := revertIf_bind.mp h
  obtain ⟨s₁, h₁, h⟩ := bind_eq_ok.mp h
  obtain ⟨-, transactions, -⟩ := setIntentState_written h
  have after := setTransaction_transaction h₁ (fun _ => rfl) id
  rw [if_pos rfl, transactionFrom_eq_ok hc] at after
  exact ⟨_, (congrArg (List.find? _) transactions).trans after, by simp [TransactionState.MayBeSent]⟩


theorem reference_eq_ok {row : SubmissionRow} {spooled : SpoolReference} (h : reference row = .ok spooled) :
    row.record.signedSHA256 = some spooled.signedSHA256 ∧ row.record.signedLength = some spooled.signedLength := by
  obtain ⟨path, -, h⟩ := orRevert_bind.mp h
  obtain ⟨digest, hd, h⟩ := orRevert_bind.mp h
  obtain ⟨length, hl, h⟩ := orRevert_bind.mp h
  obtain rfl := pure_eq_ok.mp h
  exact ⟨hd, hl⟩

section

variable [SignerLibraries]

/-- What the broadcaster is handed is persisted before. -/
def Sent.Persisted (sent : Sent) (s : Store) : Prop := XirLab.Persisted s sent.transactionID sent.transactionHash
  (SignerLibraries.sha256 sent.signedBytes) sent.signedBytes.length

/-- What was handed to the broadcaster is persisted, and its transaction is announced. -/
def Covered (l : Lab) : Prop :=
  AllSigned l.store ∧ ∀ sent ∈ l.sent, sent.Persisted l.store ∧ Announced l.store sent.transactionID

/-- What an operation needs: the broadcaster gets bytes that are persisted, of a transaction that is announced. -/
def SubmissionOp.Needs (op : SubmissionOp) (l : Lab) : Prop :=
  ∀ sent, op = .broadcast sent → sent.Persisted l.store ∧ Announced l.store sent.transactionID

theorem SubmissionOp.needs_of {op : SubmissionOp} (h : ∀ sent, op ≠ .broadcast sent) (l : Lab) : op.Needs l :=
  fun sent he => absurd he (h sent)

theorem Covered.of_answer {op : SubmissionOp} {r : Except LabError op.Answer} (h : Covered l)
    (ha : l.Answers op r l') (hn : op.Needs l) : Covered l' ∧ Ahead op.allowsRepeat l.store l'.store := by
  obtain ⟨signed, ahead⟩ := ha.written.ahead h.1
  refine ⟨⟨signed, fun sent hs => ?_⟩, ahead⟩
  have before : sent.Persisted l.store ∧ Announced l.store sent.transactionID := by
    rcases ha.sent with he | ⟨new, hop, he⟩
    · exact h.2 sent (he ▸ hs)
    · rw [he] at hs
      rcases List.mem_append.mp hs with hs | hs
      · exact h.2 sent hs
      · obtain rfl := List.mem_singleton.mp hs
        exact hn sent hop
  exact ⟨before.1.later ahead.later, before.2.later ahead.later⟩

theorem Covered.of_around {call : Option RunControlManager.Call} (h : Covered l) (ha : Around l call l') :
    Covered l' ∧ Ahead false l.store l'.store := by
  have same : l'.store.transaction = l.store.transaction ∧ l'.sent = l.sent := by
    cases ha with
    | control => exact ⟨funext fun id => congrArg (List.find? _) (RunControlManager.Call.after_transactions ..), rfl⟩
    | others transactions sent => exact ⟨funext fun id => congrArg (List.find? _) transactions, sent⟩
  unfold Covered AllSigned Sent.Persisted Persisted Announced Ahead
  rw [same.1, same.2]
  exact ⟨h, fun id t ht => ⟨t, ht, .refl t, .stay _⟩⟩

/-! ## Methods -/

/-- The program hands nothing to the broadcaster. -/
abbrev Silent {α : Type} (p : Program α) : Prop := p.Asks fun op => ∀ l, op.Needs l

theorem persistNew_silent (transaction : SignedTransaction) (destination : String) :
    Silent (persistNew transaction destination) :=
  .call_bind nofun fun _ => .call_bind nofun fun _ => .call_bind nofun fun _ => .call_bind nofun fun _ =>
    .call_bind nofun fun _ => .call nofun

theorem persist_silent (transaction : SignedTransaction) : Silent (persist transaction) := by
  refine .ofExcept_bind fun _ _ => .call_bind nofun fun existing => ?_
  cases existing with
  | some existing => exact .ofExcept_bind fun _ _ => .done _
  | none => exact (persistNew_silent ..).bind fun _ => .done _

theorem sign_silent (row : SubmissionRow) (transactionID : String) (request : SignerRequest) (gates : GateEvidence) :
    Silent (sign row transactionID request gates) := by
  refine .ofExcept_bind fun _ _ => .ofExcept_bind fun operationID _ => .ofExcept_bind fun _ _ => ?_
  refine .call_bind nofun fun _ => .bind ?_ fun signed => .call_bind nofun fun _ => ?_
  · exact .ofExcept_bind fun _ _ => .call_bind nofun fun _ => .ofExcept_bind fun _ _ => .done _
  · exact (persist_silent signed).bind fun spooled => .call nofun

theorem signPrepared_silent (transactionID : String) (request : SignerRequest) (gates : GateEvidence) :
    Silent (signPrepared transactionID request gates) := by
  refine .call_bind nofun fun row => ?_
  split
  · exact sign_silent ..
  · split
    · exact .ofExcept _
    · exact .fail _

/-- A program that is ready in a state, for what its operations need. -/
abbrev WritesAhead {α : Type} (l : Lab) (p : Program α) : Prop :=
  Threads.Ready (fun op l => l.Answers op) Covered Later SubmissionOp.Needs l p

theorem transaction_answer {id : String} {row : SubmissionRow} (h : l.Answers (.transaction id) (.ok row) l') :
    l' = l ∧ l.store.transaction id = some row.record := by
  cases h with
  | does h =>
    obtain ⟨x, hx, h⟩ := bind_eq_ok.mp h
    obtain ⟨rfl, rfl⟩ := Prod.mk.inj (pure_eq_ok.mp h)
    exact ⟨rfl, transactionFrom_eq_ok hx⟩

/-- The bytes that are loaded are the ones that the reference is for. -/
theorem load_answer {spooled : SpoolReference} {data : PyBytes} (h : l.Answers (.load spooled) (.ok data) l') :
    (data.length : Int) = spooled.signedLength ∧ SignerLibraries.sha256 data = spooled.signedSHA256 := by
  cases h with
  | does h =>
    obtain ⟨x, hx, h⟩ := bind_eq_ok.mp h
    obtain ⟨rfl, rfl⟩ := Prod.mk.inj (pure_eq_ok.mp h)
    obtain ⟨file, -, hx⟩ := orRevert_bind.mp hx
    obtain ⟨hc, hx⟩ := revertIf_bind.mp hx
    obtain rfl := pure_eq_ok.mp hx
    simpa using hc

theorem broadcastStarted_answer {id intentID : String}
    (h : l.Answers (.broadcastStarted id intentID allowRepeat) (.ok ()) l') :
    Announced l'.store id := by
  cases h with
  | does h =>
    obtain ⟨s, hs, rfl⟩ := Lab.commit_eq_ok.mp h
    exact broadcastStarted_announced hs

/-- The broadcaster is asked with bytes whose digest and length were read from the row of the transaction. -/
theorem broadcast_writesAhead (l : Lab) (transactionID : String) (gates : GateEvidence) (allowRepeat : Bool) :
    WritesAhead l (broadcast transactionID gates allowRepeat) := by
  refine .call_bind (fun _ _ _ => nofun) fun l₁ row l₁' _ covered ha _ => ?_
  obtain ⟨rfl, hrow⟩ := transaction_answer ha
  refine .ofExcept_bind fun _ hs => .call_bind (fun _ _ _ => nofun) fun l₂ _ l₂' h₂ i₂ a₂ i₂' => ?_
  have state := mem_allowed.mp (not_not.mp (revertIf_eq_ok.mp hs))
  have signed : row.record.state = .signedHashPersisted ∨ row.record.state.MayBeSent := by
    rcases state with hs | hs | ⟨-, hs⟩ <;> simp [hs, TransactionState.MayBeSent]
  obtain ⟨hash, digest, length, hh, hd, hn⟩ := (covered.1 _ _ hrow).signed_values signed
  have persisted : Persisted l₁'.store transactionID hash digest length := ⟨_, hrow, hh, hd, hn⟩
  have later₂ : Later l₁' l₂' := h₂.trans _ _ _ ((i₂.of_answer a₂ (SubmissionOp.needs_of (by simp) _)).2.later)
  refine .ofExcept_bind fun spooled hr => .call_bind (fun _ _ _ => nofun) fun l₃ data l₃' h₃ i₃ a₃ _ => ?_
  obtain ⟨hd', hn'⟩ := reference_eq_ok hr
  obtain ⟨hlen, hsha⟩ := load_answer a₃
  have later₃ : Later l₁' l₃' :=
    later₂.trans _ _ _ (h₃.trans _ _ _ (i₃.of_answer a₃ (SubmissionOp.needs_of (by simp) _)).2.later)
  refine .call_bind (fun _ _ _ => nofun) fun l₄ _ l₄' h₄ i₄ a₄ _ => ?_
  have later₄ : Later l₁' l₄' :=
    later₃.trans _ _ _ (h₄.trans _ _ _ (i₄.of_answer a₄ (SubmissionOp.needs_of (by simp) _)).2.later)
  have announced := broadcastStarted_answer a₄
  refine .call_bind (fun l₅ h₅ _ sent he => ?_) fun l₅ reply l₅' _ _ _ _ => ?_
  · obtain rfl := SubmissionOp.broadcast.inj he
    refine ⟨?_, announced.later h₅⟩
    obtain rfl : digest = spooled.signedSHA256 := Option.some.inj (hd.symm.trans hd')
    obtain rfl : length = spooled.signedLength := Option.some.inj (hn.symm.trans hn')
    have hp := persisted.later (later₄.trans _ _ _ h₅)
    rw [← hsha, ← hlen] at hp
    simpa [Sent.Persisted, hh] using hp
  · refine .ofExcept_bind fun result _ => ?_
    split
    · exact .of_asks (.call_bind (SubmissionOp.needs_of (by simp)) fun _ => .done _) _
    · exact .done _ _

theorem Call.prog_writesAhead (l : Lab) (c : Call) : WritesAhead l c.prog := by
  cases c with
  | prepareIntent =>
    exact .of_asks (.ofExcept_bind fun _ _ => .call_bind (SubmissionOp.needs_of (by simp)) fun _ => .done _) l
  | signPrepared => exact .of_asks ((signPrepared_silent ..).bind fun _ => .done _) l
  | broadcast => exact (broadcast_writesAhead l ..).bind fun _ _ => .done _ _
  | recordIncluded | recordFinalized => exact .of_asks (.call (SubmissionOp.needs_of (by simp))) l

/-! ## Runs -/

variable {τ : Type} [DecidableEq τ]

/-- No method is running, no transaction is signed, and nothing was sent. -/
structure Fresh (s : Coordinators τ) : Prop where
  idle : ∀ i, s.progs i = .done ()
  unsigned : ∀ id t, s.shared.store.transaction id = some t →
    t.state = .prepared ∧ t.transactionHash = none ∧ t.signedSHA256 = none ∧ t.signedLength = none
  unsent : s.shared.sent = []

/-- The broadcaster gets only bytes that are persisted, what is persisted stays, and the states move in their order. -/
def Orderly (s : Coordinators τ) (e : Threads.Event τ Call SubmissionOp ⊕ Option RunControlManager.Call)
    (s' : Coordinators τ) : Prop :=
  (∀ i sent, e = .inl (.answer i (.broadcast sent)) → sent.Persisted s.shared.store) ∧
  ∃ allowRepeat, (allowRepeat = true → ∃ i id intentID, e = .inl (.answer i (.broadcastStarted id intentID true))) ∧
    Ahead allowRepeat s.shared.store s'.shared.store

theorem Orderly.of_step {s s' : Coordinators τ} {e : Threads.Event τ Call SubmissionOp ⊕ Option RunControlManager.Call}
    (h : Covered s.shared ∧ ∀ i, WritesAhead s.shared (s.progs i)) (hs : SubmissionStep s e s') : Orderly s e s' := by
  obtain ⟨covered, ready⟩ := h
  cases hs with
  | around ha => exact ⟨nofun, false, nofun, (covered.of_around ha).2⟩
  | thread hs =>
    cases hs with
    | start => exact ⟨nofun, false, nofun, fun id t ht => ⟨t, ht, .refl t, .stay _⟩⟩
    | @answer i op k r t asked answered =>
      have needs : op.Needs s.shared := (asked ▸ ready i).asked Later.refl covered
      refine ⟨fun j sent he => ?_, op.allowsRepeat, fun ha => ?_, (covered.of_answer answered needs).2⟩
      · cases he
        exact (needs sent rfl).1
      · cases op with
        | broadcastStarted id intentID allowRepeat =>
          obtain rfl : allowRepeat = true := ha
          exact ⟨i, id, intentID, rfl⟩
        | _ => exact absurd ha nofun

/-- In every run from a state in which nothing is signed, the bytes that were
sent are persisted, and their transactions are announced; and every step keeps
the order of the phases. -/
theorem writeAhead_of_run {s₀ s : Coordinators τ}
    {es : List (Threads.Event τ Call SubmissionOp ⊕ Option RunControlManager.Call)} (start : Fresh s₀)
    (run : Run SubmissionStep s₀ es s) :
    (∀ sent ∈ s.shared.sent, sent.Persisted s.shared.store ∧ Announced s.shared.store sent.transactionID) ∧
      ∀ {e s'}, SubmissionStep s e s' → Orderly s e s' := by
  have h0 : Covered s₀.shared ∧ ∀ i, WritesAhead s₀.shared (s₀.progs i) := by
    refine ⟨⟨fun id t ht => ?_, fun sent hs => ?_⟩, fun i => ?_⟩
    · obtain ⟨state, hash, digest, length⟩ := start.unsigned id t ht
      exact .unsigned (.inl state) hash digest length
    · rw [start.unsent] at hs
      exact absurd hs List.not_mem_nil
    · rw [start.idle i]
      exact .done _ _
  have h : Covered s.shared ∧ ∀ i, WritesAhead s.shared (s.progs i) :=
    Threads.ready_of_run Later.refl Later.trans (fun l c _ => Call.prog_writesAhead l c)
      (fun covered needs ha => ((covered.of_answer ha needs).imp_right Ahead.later))
      (fun covered ha => ((covered.of_around ha).imp_right Ahead.later)) run h0
  exact ⟨h.1.2, fun step => Orderly.of_step h step⟩

end

/-- A signer that returns a byte for every operation. -/
def someReplies : Replies := ⟨fun id _ => .ok ⟨id, "hash", [0]⟩, fun _ => .ok ⟨true, none⟩, ""⟩

/-- The file of the bytes that `someReplies` signs. -/
def oneFile : SpoolFiles :=
  (∅ : SpoolFiles).insert (@PrivateSpool.relativePath someLibraries ("signop_" ++ someDigest)) ⟨[0], true⟩

def oneSigned : TransactionRow :=
  { onePrepared with
    state := .signedHashPersisted
    transactionHash := some "hash"
    signedSHA256 := some someDigest
    signedLength := some 1
    spoolRelativePath := some (@PrivateSpool.relativePath someLibraries ("signop_" ++ someDigest)) }

def signedLab : Lab :=
  ⟨{ oneTransaction with intents := [{ oneIntent with state := .signedHashPersisted }], transactions := [oneSigned] },
    ⟨oneFile, oneFile⟩, []⟩

theorem run_signPrepared :
    let _ := someLibraries
    ((Call.signPrepared "transaction" oneRequest oneGates).prog.run (fun op l => l.answer someReplies op)
      ⟨oneTransaction, ⟨∅, ∅⟩, []⟩).2 = signedLab := rfl

def sentLab : Lab :=
  ⟨{ oneTransaction with
      intents := [{ oneIntent with state := .submitted }]
      transactions := [{ oneSigned with state := .submitted }] }, ⟨oneFile, oneFile⟩, [⟨"transaction", [0], "hash"⟩]⟩

theorem run_broadcast :
    let _ := someLibraries
    ((Call.broadcast "transaction" oneGates false).prog.run (fun op l => l.answer someReplies op) signedLab).2 =
      sentLab := rfl

/-- The bytes that were signed are handed to the broadcaster, which accepts them. -/
theorem writeAhead_of_run_broadcast :
    (∃ s s' : Coordinators Unit,
      @Orderly someLibraries _ s (.inl (.answer () (.broadcast ⟨"transaction", [0], "hash"⟩))) s') ∧
      @Sent.Persisted someLibraries ⟨"transaction", [0], "hash"⟩ sentLab.store ∧
        Announced sentLab.store "transaction" := by
  let _ := someLibraries
  let l : Lab := ⟨oneTransaction, ⟨∅, ∅⟩, []⟩
  have fresh : Fresh (alone l (.done ())) := by
    refine ⟨fun _ => rfl, fun id t ht => ?_, rfl⟩
    obtain rfl := List.mem_singleton.mp (List.mem_of_find?_eq_some ht)
    exact ⟨rfl, rfl, rfl, rfl⟩
  obtain ⟨_, p, signing⟩ := alone_call someReplies l (.done ()) (.signPrepared "transaction" oneRequest oneGates)
  rw [run_signPrepared] at signing
  obtain ⟨_, p', sending⟩ := alone_call someReplies signedLab p (.broadcast "transaction" oneGates false)
  rw [run_broadcast] at sending
  have announced : Run SubmissionStep (alone signedLab p) _ (alone _ _) :=
    .cons (alone_start signedLab p (.broadcast "transaction" oneGates false)) <|
      .cons (alone_answer (.does (show signedLab.does someReplies _ = .ok _ from rfl))) <|
        .cons (alone_answer (.does (show signedLab.does someReplies _ = .ok _ from rfl))) <|
          .cons (alone_answer (.does (show signedLab.does someReplies _ = .ok _ from rfl))) <|
            .cons (alone_answer (.does (show signedLab.does someReplies _ = .ok _ from rfl))) (.nil _)
  have before : _ ∧ _ := writeAhead_of_run fresh (signing.append announced)
  have after : _ ∧ _ := writeAhead_of_run fresh (signing.append sending)
  refine ⟨⟨_, _, before.2 (alone_answer (.does (show Lab.does _ someReplies _ = .ok _ from rfl)))⟩, ?_⟩
  exact after.1 _ (List.mem_singleton_self _)

end Xir.Impl.XirLab
