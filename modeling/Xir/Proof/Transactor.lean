import Xir.Framework.Process
import Xir.Impl.GoRuntime.Transactor
import Xir.Proof.Ledger

/-!
# What a transactor sends

`Execute` reads the row of its action, and writes it before it sends anything
(`drive_safe`). A row that holds signed bytes keeps them (`RowStep.signed`), so
that whatever a node answers, and wherever a process stops and another takes up
the action, the bytes that are sent for it are the same (`broadcasts_of_run`).
What is sent for a row says what the row says, even where the row is none that the
ledger wrote (`resume_asks`).
-/

namespace Xir.Impl

open Strings

section

variable [Unicode] [Digests]

/-! ## Calls of the ledger, one operation after the other -/

/-- A write changes the row that its call has read. -/
def StoreOp.Fits : StoreOp → Tables → Prop
  | .transact w, t => ∃ c : StoreCall, c.Makes w ∧ w.Fresh t
  | _, _ => True

/-- A call of a single process, which returns where `Q` holds. -/
abbrev StoreSafe {α : Type} (Q : α → Tables → Prop) (t : Tables) (p : StoreProg α) : Prop :=
  p.Safe StoreStep StoreOp.Fits Q t

namespace Store

variable {t : Tables} {id : String}

theorem action_safe {Q : Option Action → Tables → Prop} (h : Q (t.find id) t) : StoreSafe Q t (action id) := by
  refine .ofExcept_bind fun _ _ => .op trivial fun r t' hs => .ofExcept fun a ha => ?_
  obtain ⟨rfl, hr | ⟨e, hr⟩⟩ := hs
  · obtain rfl := Except.ok.inj (ha.symm.trans hr)
    exact h
  · cases ha.symm.trans hr

theorem now_safe : StoreSafe (fun _ t' => t' = t) t now := .op trivial fun _ _ hs => .done hs

theorem transact_safe {c : StoreCall} {w : Write} {Q : Tables → Prop} (hm : c.Makes w) (hf : w.Fresh t)
    (h : ∀ t', Lands c t w t' → Q t') : StoreSafe (fun _ => Q) t (transact w) := by
  refine .op ⟨c, hm, hf⟩ fun r t' hs => .ofExcept fun _ hr => ?_
  rcases hs with ⟨ha, -⟩ | ⟨-, e, he⟩
  · exact h t' ⟨hm, hf, ha⟩
  · cases hr.symm.trans he

/-- A call that rewrites a row returns early, or after its write. -/
theorem rewriteRow_safe {c : StoreCall} {check : Action → Except RuntimeError Bool}
    {document : Action → Except RuntimeError Document} {write : Action → Document → Int → Write} {Q : Tables → Prop}
    (makes : ∀ a d time, check a = .ok false → document a = .ok d → c.Makes (write a d time))
    (fresh : ∀ a d time, t.find a.actionID = some a → (write a d time).Fresh t)
    (kept : ∀ a, t.find id = some a → check a = .ok true → Q t)
    (landed : ∀ a d time t', t.find id = some a → check a = .ok false → Lands c t (write a d time) t' → Q t') :
    StoreSafe (fun _ => Q) t (rewriteRow id check document write) := by
  refine (action_safe (Q := fun stored t' => stored = t.find id ∧ t' = t) ⟨rfl, rfl⟩).bind fun stored t' ⟨hf, ht⟩ => ?_
  subst ht
  cases stored with
  | none => exact .fail _ _
  | some a =>
    refine .ofExcept_bind fun b hb => ?_
    cases b with
    | true => exact .done (kept a hf.symm hb)
    | false =>
      refine .ofExcept_bind fun d hd => now_safe.bind fun time t' ht => ?_
      subst ht
      have hid : a.actionID = id := (t'.find_eq_some hf.symm).2
      exact transact_safe (makes a d time hb hd)
        (fresh a d time (hid ▸ hf.symm)) fun t₁ hl => landed a d time t₁ hf.symm hb hl

/-- Signed bytes are recorded in a row that has none. -/
theorem recordSigned_safe {a : Action} {raw : GoBytes} {hash : String} (ha : t.find id = some a)
    (hr : a.rawTransactionHex = "") :
    StoreSafe (fun _ t' => ∃ a', t'.find id = some a' ∧ a'.state = .signed ∧ a'.rawTransactionHex = encodeHex raw ∧
      a'.transactionHash = keccakHex raw) t (recordSigned id raw hash) := by
  rw [recordSigned]
  refine .ofExcept_bind fun canonical hc => ?_
  obtain ⟨-, -, -, rfl⟩ := checkRaw_eq_ok.mp hc
  refine rewriteRow_safe (c := .recordSigned id raw hash) (fun b d time hb hd => .recordSigned hc hb hd)
    (fun b d time hb => hb)
    (fun b hb hk => ?_) fun b d time t' hb hk hl => ?_
  · obtain rfl := Option.some.inj (hb.symm.trans ha)
    exact absurd hr (checkSigned_eq_true.mp hk).1
  · obtain ⟨-, hid⟩ := t.find_eq_some hb
    have hf := hl.find_self
    rw [show (Write.recordSigned b raw (keccakHex raw) d time).action.actionID = id from hid] at hf
    exact ⟨_, hf, rfl, rfl, rfl⟩

theorem observe_safe (stateName : ActionState) (detail : Members) :
    StoreSafe (fun _ _ => True) t (observe id stateName detail) := by
  rw [observe]
  refine .ofExcept_bind fun n hn => ?_
  exact rewriteRow_safe (c := .observe id stateName detail) (fun b d time hb hd => .observe hn hb hd)
    (fun b d time hb => hb)
    (fun _ _ _ => trivial) fun _ _ _ _ _ _ _ => trivial

theorem succeed_safe (result : ActionResult) : StoreSafe (fun _ _ => True) t (succeed id result) := by
  rw [succeed]
  refine .ofExcept_bind fun canonical hc => ?_
  exact rewriteRow_safe (c := .succeed id result) (fun b d time hb hd => .succeed hc hb hd) (fun b d time hb => hb)
    (fun _ _ _ => trivial) fun _ _ _ _ _ _ _ => trivial

/-- The row of an intent that there was none of. -/
theorem intend_safe {requested : Action} (hn : t.find requested.actionID = none) :
    StoreSafe (fun r t' => t'.find requested.actionID = r ∧ ∀ a, r = some a → RowOk a ∧ a.state = .intended) t
      (intend requested) := by
  rw [intend]
  refine .ofExcept_bind fun _ hv => ?_
  have hid : (normalised requested).actionID = requested.actionID := normalised_actionID requested
  dsimp only
  rw [hid]
  refine (action_safe (Q := fun stored t' => stored = t.find requested.actionID ∧ t' = t)
    ⟨rfl, rfl⟩).bind fun stored t' hst => ?_
  obtain ⟨hf, ht⟩ := hst
  subst ht
  rw [hn] at hf
  subst hf
  refine now_safe.bind fun time t' ht => ?_
  subst ht
  have hfresh : (Write.insertAction (normalised requested) time).Fresh t' := by
    show t'.find (normalised requested).actionID = none
    rw [hid]
    exact hn
  refine (transact_safe (Q := fun t₁ => t₁.find requested.actionID = some (normalised requested)) (.intend hv)
    hfresh fun t₁ hl => ?_).bind
    fun _ t₁ hfound => action_safe ⟨rfl, fun a ha => ?_⟩
  · have := hl.find_self
    rwa [show (Write.insertAction (normalised requested) time).action.actionID = requested.actionID from hid] at this
  · obtain rfl := Option.some.inj (hfound.symm.trans ha)
    obtain ⟨-, -, hs, -⟩ := validateIntend_eq_ok.mp hv
    refine ⟨.normalised hv, ?_⟩
    rcases hs with h | h <;> simp [normalised, h]

theorem maxActionNonce_safe (chainID : UInt64) (sender : String) :
    StoreSafe (fun _ t' => t' = t) t (maxActionNonce chainID sender) := by
  rw [maxActionNonce]
  exact .ofExcept_bind fun _ _ => .op trivial fun _ _ hs => .ofExcept fun _ _ => hs.1

end Store

namespace Transactor

/-! ## The surroundings of a transactor -/

/-- What a node is asked about the transaction of an action: its receipt, with the answer, and its bytes, with
the ledger as it was. -/
inductive TxEvent
  | lookup (actionID : String) (hash : GoBytes32) (answer : Except RuntimeError (Option TxReceipt))
  | broadcast (actionID : String) (raw : GoBytes) (ledger : Tables)

structure TxWorld where
  tables : Tables
  trace : List TxEvent

/-- An operation for an action. A node answers anything, and so does the memory of the nonces, which a process that
starts again has lost. -/
def TxStep : ∀ i : String × TxOp, TxWorld → i.2.Answer → TxWorld → Prop
  | (_, .store op), w, r, w' => StoreStep op w.tables r w'.tables ∧ w'.trace = w.trace
  | (actionID, .receiptDocument hash), w, r, w' => w' = ⟨w.tables, w.trace ++ [.lookup actionID hash r]⟩
  | (actionID, .sendRawTransaction raw), w, _, w' => w' = ⟨w.tables, w.trace ++ [.broadcast actionID raw w.tables]⟩
  | _, w, _, w' => w' = w

/-- The row of the action holds the bytes, and is not terminal. -/
def Holds (actionID : String) (raw : GoBytes) (t : Tables) : Prop :=
  ∃ a, t.find actionID = some a ∧ (a.state = .signed ∨ a.state = .submitted) ∧ a.rawTransactionHex = encodeHex raw ∧
    a.transactionHash = keccakHex raw

/-- Bytes are sent when they are those of the row, and the node was just asked for their receipt, and had none. -/
def Ready (actionID : String) (raw : GoBytes) (w : TxWorld) : Prop :=
  Holds actionID raw w.tables ∧ w.trace.getLast? = some (.lookup actionID (Digests.keccak256 raw) (.ok none))

/-- Where an operation may be asked. -/
def TxPre : String × TxOp → TxWorld → Prop
  | (_, .store op), w => op.Fits w.tables
  | (actionID, .sendRawTransaction raw), w => Ready actionID raw w
  | _, _ => True

abbrev TxSafe {α : Type} (actionID : String) (Q : α → TxWorld → Prop) (w : TxWorld) (p : TxProg α) : Prop :=
  p.Safe (fun op => TxStep (actionID, op)) (fun op => TxPre (actionID, op)) Q w

variable {w : TxWorld} {actionID : String}

theorem ledger_safe {α : Type} {Q : α → Tables → Prop} {p : StoreProg α} (h : StoreSafe Q w.tables p) :
    TxSafe actionID (fun a w' => Q a w'.tables ∧ w'.trace = w.trace) w (ledger p) := by
  generalize ht : w.tables = t at h
  induction h generalizing w with
  | done h => exact .done ⟨ht ▸ h, rfl⟩
  | fail s e => exact .fail _ _
  | op hi _ ih =>
    subst ht
    refine .op hi fun r w' hs => ?_
    exact (ih r w'.tables hs.1 rfl).weaken fun a w₁ hq => ⟨hq.1, hq.2.trans hs.2⟩

variable (t : Transactor)

/-- An operation that leaves the world alone. -/
theorem quiet_safe {α : Type} {Q : α → TxWorld → Prop} {op : TxOp} {k : op.Answer → TxProg α}
    (hs : ∀ {r w'}, TxStep (actionID, op) w r w' → w' = w) (hp : TxPre (actionID, op) w)
    (h : ∀ r, TxSafe actionID Q w (k r)) :
    TxSafe actionID Q w (Prog.op op k) :=
  .op hp fun r w' hst => by
    rw [hs hst]
    exact h r

theorem spoolReceipt_safe (hash : GoBytes32) (document : String) :
    TxSafe actionID (fun _ _ => True) w (t.spoolReceipt hash document) := by
  rw [spoolReceipt]
  exact .ofExcept_bind fun _ _ =>
    .ofExcept_bind fun _ _ => quiet_safe id trivial fun r => .ofExcept_bind fun _ _ => .done trivial

/-- Gas and fees are found, and the tables are as they were. -/
theorem resolveGas_safe {request : TxRequest} {data : GoBytes} {value : Int} {creation : Bool} :
    TxSafe actionID (fun _ w' => w'.tables = w.tables) w (resolveGas request data value creation) := by
  rw [resolveGas]
  split
  · exact .done rfl
  · refine quiet_safe id trivial fun r => ?_
    rcases r with err | estimated
    · dsimp only
      split
      · exact .fail _ _
      · exact .done rfl
    · exact .done rfl

theorem resolveFees_safe : TxSafe actionID (fun _ w' => w'.tables = w.tables) w resolveFees := by
  rw [resolveFees]
  exact quiet_safe id trivial fun r => .ofExcept_bind fun _ _ => .done rfl

theorem finishedResult_safe (action : Action) : TxSafe actionID (fun _ _ => True) w (finishedResult action) := by
  rw [finishedResult]
  refine .ofExcept_bind fun detail _ => ?_
  split
  · exact quiet_safe id trivial fun r => .ofExcept_bind fun _ _ => .ofExcept_bind fun _ _ => .done trivial
  · exact .done trivial

section

variable [GoEthereum]

/-- So with a nonce. -/
theorem reserveNonce_safe (chainRole : String) :
    TxSafe actionID (fun _ w' => w'.tables = w.tables) w (t.reserveNonce chainRole) := by
  have hset (nonce : Nat) {w' : TxWorld} (hw : w'.tables = w.tables) :
      TxSafe actionID (fun _ w' => w'.tables = w.tables) w' (do
      let _ ← (Prog.ask (TxOp.setNonceNext chainRole (nonce + 1)) : TxProg Unit)
      return nonce) := quiet_safe id trivial fun _ => .done hw
  rw [reserveNonce]
  refine quiet_safe id trivial fun r => ?_
  rcases r with _ | next
  · refine quiet_safe id trivial fun r => .ofExcept_bind fun pending _ => ?_
    refine (ledger_safe (Q := fun _ t' => t' = w.tables) (Store.maxActionNonce_safe _ _)).bind fun durable w' hw => ?_
    exact hset _ hw.1
  · exact hset next rfl

theorem complete_safe {action : Action} {data : GoBytes} {creation : Bool} {hash : GoBytes32} {receipt : TxReceipt} :
    TxSafe actionID (fun _ _ => True) w (t.complete actionID action data creation hash receipt) := by
  rw [complete]
  refine (t.spoolReceipt_safe _ _).bind fun spooled w' _ => ?_
  dsimp only
  by_cases hs : receipt.successful = false
  · rw [if_pos hs]
    exact (ledger_safe (Store.observe_safe _ _)).bind fun _ w' _ => .fail _ _
  · rw [if_neg hs]
    exact (ledger_safe (Store.succeed_safe _)).bind fun _ w' _ => .done trivial

theorem submit_safe {action : Action} {data raw : GoBytes} {creation : Bool} (h : Holds actionID raw w.tables) :
    TxSafe actionID (fun _ _ => True) w (t.submit actionID action data creation raw (Digests.keccak256 raw)) := by
  rw [submit]
  refine .op trivial fun r w' hs => .ofExcept_bind fun receipt hr => ?_
  obtain rfl : w' = ⟨w.tables, w.trace ++ [TxEvent.lookup actionID (Digests.keccak256 raw) r]⟩ := hs
  cases receipt with
  | some receipt => exact (ledger_safe (Store.observe_safe _ _)).bind fun _ w' _ => t.complete_safe
  | none =>
    have hready : Ready actionID raw ⟨w.tables, w.trace ++ [.lookup actionID (Digests.keccak256 raw) r]⟩ :=
      ⟨h, by rw [List.getLast?_concat, hr]⟩
    have hsent : TxSafe actionID (fun _ _ => True) ⟨w.tables, w.trace ++ [.lookup actionID (Digests.keccak256 raw) r]⟩
        (broadcast raw) := by
      rw [broadcast]
      split
      · exact .fail _ _
      · refine .op hready fun r w' hs => ?_
        rcases r with err | _
        · dsimp only
          split
          · exact .done trivial
          · exact .fail _ _
        · exact .done trivial
    refine hsent.bind fun _ w₁ _ => (ledger_safe (Store.observe_safe _ _)).bind fun _ w₂ _ => ?_
    refine quiet_safe id trivial fun r => .ofExcept_bind fun _ _ => ?_
    refine .op trivial fun r w' hs => .ofExcept_bind fun receipt _ => ?_
    cases receipt with
    | some receipt => exact t.complete_safe
    | none => exact .fail _ _

/-- Signed bytes that are returned are those of the row. -/
theorem ensureSigned_safe {action : Action} {data : GoBytes} {value : Int} {creation : Bool} (hok : RowOk action)
    (ha : w.tables.find actionID = some action)
    (hs : action.state = .intended ∨ action.state = .signed ∨ action.state = .submitted) :
    TxSafe actionID (fun r w' => Holds actionID r.1 w'.tables) w (t.ensureSigned action data value creation) := by
  have hid : action.actionID = actionID := (w.tables.find_eq_some ha).2
  rw [ensureSigned]
  by_cases hr : action.rawTransactionHex ≠ ""
  · rw [if_pos hr]
    refine .ofExcept_bind fun raw hraw => .done ?_
    obtain ⟨hstate, b, hb, hk⟩ := hok.raw hr
    rw [hb, trimPrefix_encodeHex, decodeString_encodeToString] at hraw
    obtain rfl := Except.ok.inj hraw
    exact ⟨action, ha, hs.resolve_left hstate, hb, hk⟩
  · rw [if_neg hr, hid]
    refine .ofExcept_bind fun signed _ => quiet_safe id trivial fun _ => .ofExcept_bind fun _ _ => ?_
    refine (ledger_safe (Store.recordSigned_safe ha (not_not.mp hr))).bind fun _ w' ⟨⟨a, hf, hst, hraw, hh⟩, _⟩ => ?_
    exact .done ⟨a, hf, .inl hst, hraw, hh⟩

theorem drive_safe {action : Action} {data : GoBytes} {value : Int} {creation : Bool} (hok : RowOk action)
    (ha : w.tables.find actionID = some action)
    (hs : action.state = .intended ∨ action.state = .signed ∨ action.state = .submitted) :
    TxSafe actionID (fun _ _ => True) w (t.drive actionID action data creation value) := by
  rw [drive]
  refine (t.ensureSigned_safe hok ha hs).bind fun signed w' hholds => .ofExcept_bind fun _ hvalid => ?_
  obtain ⟨hk, -⟩ := revertIf_bind.mp hvalid
  rw [← not_not.mp hk]
  exact t.submit_safe hholds

/-- An intent that is returned is the new row of the action. -/
theorem freezeIntent_safe {request : TxRequest} {data : GoBytes} {value : Int} {creation : Bool}
    (hn : w.tables.find request.actionID = none) :
    TxSafe actionID
    (fun r w' => w'.tables.find request.actionID = r ∧ ∀ a, r = some a → RowOk a ∧ a.state = .intended) w
      (t.freezeIntent request data value creation) := by
  rw [freezeIntent]
  refine (t.reserveNonce_safe _).bind fun nonce w₁ h₁ => resolveGas_safe.bind fun gas w₂ h₂ => ?_
  refine resolveFees_safe.bind fun fees w₃ h₃ => .ofExcept_bind fun action haction => ?_
  obtain ⟨detail, -, haction⟩ := bind_eq_ok.mp haction
  obtain rfl := Except.ok.inj haction
  have hn₃ : w₃.tables.find request.actionID = none := by rw [h₃, h₂, h₁, hn]
  exact (ledger_safe (Store.intend_safe hn₃)).weaken fun _ _ h => h.1

theorem start_safe {request : TxRequest} (hn : w.tables.find request.actionID = none) :
    TxSafe request.actionID (fun _ _ => True) w (t.start request) := by
  rw [start]
  refine .ofExcept_bind fun calldata _ => (t.freezeIntent_safe hn).bind fun frozen w' ⟨hf, hi⟩ => ?_
  cases frozen with
  | none => exact .fail _ _
  | some action => exact t.drive_safe (hi _ rfl).1 hf (.inl (hi _ rfl).2)

theorem resume_safe {request : TxRequest} {action : Action} (hok : RowOk action)
    (ha : w.tables.find request.actionID = some action) :
    TxSafe request.actionID (fun _ _ => True) w (t.resume request action) := by
  rw [resume]
  refine .ofExcept_bind fun _ _ => .ofExcept_bind fun frozen _ => ?_
  dsimp only
  split
  · exact .fail _ _
  · split
    · exact finishedResult_safe action
    · next hfailed hsucceeded =>
      obtain ⟨n, hn⟩ := hok.rank
      refine t.drive_safe hok ha ?_
      rcases actionRank_eq_ok hn with ⟨h, -⟩ | ⟨h, -⟩ | ⟨h, -⟩ | ⟨h, -⟩ | ⟨h, -⟩
      · exact .inl h
      · exact .inr (.inl h)
      · exact .inr (.inr h)
      · exact absurd h hsucceeded
      · exact absurd h hfailed

theorem execute_safe (request : TxRequest) (hv : w.tables.Valid) :
    TxSafe request.actionID (fun _ _ => True) w (t.execute request) := by
  rw [execute]
  refine .ofExcept_bind fun _ _ => ?_
  refine (ledger_safe
    (Store.action_safe (Q := fun r t' => r = t'.find request.actionID ∧ t' = w.tables) ⟨rfl, rfl⟩)).bind
    fun stored w' ⟨⟨hf, ht⟩, _⟩ => ?_
  cases stored with
  | none => exact t.start_safe hf.symm
  | some action => exact t.resume_safe ((ht ▸ hv).rows hf.symm) hf.symm

/-! ## Runs of the transactor -/

/-- What holds of the world: the bytes that were sent were ready, and the row of their action still has them. -/
structure TxOk (w : TxWorld) : Prop where
  valid : w.tables.Valid
  ready (before after : List TxEvent) (actionID : String) (raw : GoBytes) (ledger : Tables) :
    w.trace = before ++ .broadcast actionID raw ledger :: after → Ready actionID raw ⟨ledger, before⟩
  kept (actionID : String) (raw : GoBytes) (ledger : Tables) : .broadcast actionID raw ledger ∈ w.trace →
    ∃ a, w.tables.find actionID = some a ∧ a.rawTransactionHex = encodeHex raw

omit [Unicode] [Digests] [GoEthereum] in
/-- Where a list is extended by one element, an element of it is the last, or was there before. -/
theorem concat_eq_append {xs before after : List TxEvent} {e x : TxEvent} (h : xs ++ [e] = before ++ x :: after) :
    (x = e ∧ before = xs) ∨ ∃ after', xs = before ++ x :: after' := by
  obtain rfl | ⟨after', y, rfl⟩ := List.eq_nil_or_concat after
  · obtain ⟨rfl, hx⟩ := List.append_inj' h rfl
    exact .inl ⟨(List.cons.inj hx).1.symm, rfl⟩
  · have h' : xs ++ [e] = (before ++ x :: after') ++ [y] := by simpa using h
    exact .inr ⟨after', (List.append_inj' h' rfl).1⟩

omit [GoEthereum] in
theorem TxOk.store {op : StoreOp} {r : op.Answer} {w' : TxWorld} (h : TxOk w) (hf : op.Fits w.tables)
    (hs : StoreStep op w.tables r w'.tables) (ht : w'.trace = w.trace) : TxOk w' := by
  have same (he : w'.tables = w.tables) : TxOk w' := by
    obtain ⟨tables, trace⟩ := w'
    subst he ht
    exact h
  cases op with
  | action | maxActionNonce => exact same hs.1
  | now => exact same hs
  | transact write =>
    obtain ⟨ha, -⟩ | ⟨he, -⟩ := hs
    · obtain ⟨c, hm, hfresh⟩ := hf
      have hl : Lands c w.tables write w'.tables := ⟨hm, hfresh, ha⟩
      refine ⟨h.valid.lands hl, fun before after id raw ledger he => h.ready _ _ _ _ _ (ht ▸ he),
        fun id raw ledger he => ?_⟩
      obtain ⟨a, hfind, hraw⟩ := h.kept id raw ledger (ht ▸ he)
      obtain ⟨a', hfind', hstep⟩ := hl.row hfind
      obtain ⟨hraw', -⟩ := hstep.signed (h.valid.rows hfind) (hraw ▸ encodeHex_ne_empty _)
      exact ⟨a', hfind', hraw'.trans hraw⟩
    · exact same he

omit [GoEthereum] in
theorem TxOk.step {i : String × TxOp} {r : i.2.Answer} {w' : TxWorld} (h : TxOk w) (hp : TxPre i w)
    (hs : TxStep i w r w') :
    TxOk w' := by
  obtain ⟨id, op⟩ := i
  cases op with
  | store op => exact h.store hp hs.1 hs.2
  | receiptDocument hash =>
    obtain rfl : w' = ⟨w.tables, w.trace ++ [TxEvent.lookup id hash r]⟩ := hs
    refine ⟨h.valid, fun before after id raw ledger he => ?_, fun id raw ledger he => ?_⟩
    · obtain ⟨hx, -⟩ | ⟨after', he⟩ := concat_eq_append he
      · cases hx
      · exact h.ready _ _ _ _ _ he
    · obtain he | he := List.mem_append.mp he
      · exact h.kept id raw ledger he
      · cases List.mem_singleton.mp he
  | sendRawTransaction bytes =>
    obtain rfl : w' = ⟨w.tables, w.trace ++ [TxEvent.broadcast id bytes w.tables]⟩ := hs
    refine ⟨h.valid, fun before after id raw ledger he => ?_, fun id raw ledger he => ?_⟩
    · obtain ⟨hx, rfl⟩ | ⟨after', he⟩ := concat_eq_append he
      · cases hx
        exact hp
      · exact h.ready _ _ _ _ _ he
    · obtain he | he := List.mem_append.mp he
      · exact h.kept id raw ledger he
      · cases List.mem_singleton.mp he
        obtain ⟨a, ha, -, hraw, -⟩ := hp.1
        exact ⟨a, ha, hraw⟩
  | nonceNext | setNonceNext | pendingNonce | estimateGas | gasPrice | waitMined | readFile | writePrivateRaw =>
    obtain rfl : w' = w := hs
    exact h

/-- An invocation. -/
def invocation (request : TxRequest) : Prog (String × TxOp) (fun i => i.2.Answer) RuntimeError TxResult :=
  (t.execute request).tagged request.actionID

variable {t}

/-- However `Execute` is invoked, cut off and answered, all bytes that are sent for an action are the same. When they
are sent, the row of the action holds them and is not terminal, and the node has just found no receipt for them. -/
theorem broadcasts_of_run {es : List (Process.Event TxRequest (String × TxOp))}
    {p : Process TxWorld (String × TxOp) (fun i => i.2.Answer) RuntimeError TxResult} {e : RuntimeError}
    (hv : w.tables.Valid) (ht : w.trace = []) (run : Run (Process.Step TxStep t.invocation) ⟨w, .fail e⟩ es p) :
    (∀ actionID raw raw' ledger ledger', .broadcast actionID raw ledger ∈ p.shared.trace →
      .broadcast actionID raw' ledger' ∈ p.shared.trace → raw' = raw) ∧
    ∀ before after actionID raw ledger, p.shared.trace = before ++ .broadcast actionID raw ledger :: after →
      Holds actionID raw ledger ∧ before.getLast? = some (.lookup actionID (Digests.keccak256 raw) (.ok none)) := by
  have h₀ : TxOk w := by
    refine ⟨hv, fun before after id raw ledger he => ?_, fun id raw ledger he => ?_⟩
    · simp [ht] at he
    · simp [ht] at he
  have hcall (s : TxWorld) (request : TxRequest) (hI : TxOk s) :
      (t.invocation request).Safe (fun i s r u => TxStep i s r u ∧ TxOk u) TxPre (fun _ _ => True) s :=
    (Prog.Safe.tagged (t.execute_safe request hI.valid)).imp And.left
  have hok : TxOk p.shared := (Process.safe_of_run (I := TxOk) (R := fun _ _ => True) hcall
    (fun hI hp hs => ⟨hI.step hp hs, trivial⟩) (fun _ => trivial) (fun _ _ => trivial) run ⟨h₀, .fail _ _⟩).1.1
  refine ⟨fun id raw raw' ledger ledger' hb hb' => ?_, fun before after id raw ledger he => hok.ready _ _ _ _ _ he⟩
  obtain ⟨a, ha, hraw⟩ := hok.kept _ _ _ hb
  obtain ⟨a', ha', hraw'⟩ := hok.kept _ _ _ hb'
  obtain rfl := Option.some.inj (ha'.symm.trans ha)
  have hdecoded := congrArg decodeHex (hraw'.symm.trans hraw)
  rw [decodeHex_encodeHex, decodeHex_encodeHex] at hdecoded
  exact Except.ok.inj hdecoded

/-! ## What is sent -/

/-- What the request gives is what the row has. -/
structure Repeats (request : TxRequest) (action : Action) : Prop where
  intentDetail : ∀ supplied ∈ request.intentDetail, ∃ detail text, action.detail = .ok detail ∧
    canonicalJSON ((detail "intent_detail").getD .null) = .ok text ∧ canonicalJSON (.object supplied.members) = .ok text
  chainRole : request.chainRole ≠ "" → request.chainRole = action.chainRole
  attemptID : request.attemptID ≠ "" → action.attemptID ≠ "" → request.attemptID = action.attemptID
  stage : request.stage ≠ "" → action.stage ≠ "" → request.stage = action.stage
  data : request.data ≠ [] → sha256Hex request.data = action.calldataSHA256
  deployCode : request.deployCode ≠ [] → action.target = "" ∧ sha256Hex request.deployCode = action.calldataSHA256
  target : request.target ≠ zeroAddress → lowerHex request.target = action.target
  value : ∀ value ∈ request.value, toString value = action.value
  gas : request.gas ≠ 0 → request.gas = action.gas

/-- The bytes are a transaction of the transactor's account which says what the row says. -/
structure Says (t : Transactor) (action : Action) (raw : GoBytes) (decoded : Transaction) : Prop where
  decodes : GoEthereum.unmarshalBinary raw = .ok decoded
  recovers : GoEthereum.sender t.signer.chainID decoded = .ok t.signer.address
  sender : action.sender = lowerHex t.signer.address
  chainID : decoded.chainID = t.signer.chainID ∧ decoded.chainID = action.chainID.toNat
  nonce : decoded.nonce = action.nonce
  gas : decoded.gas = action.gas
  value : setString action.value = some decoded.value
  data : sha256Hex decoded.data = action.calldataSHA256 ∧ decoded.data.length = action.calldataBytes
  target : (decoded.target.map lowerHex).getD "" = action.target
  creation : decoded.target = none ↔ action.target = ""

variable (t)

omit [Unicode] [Digests] [GoEthereum] in
/-- What a check of two texts has found. -/
theorem sameText_ok {name given frozen id : String} (h : sameText name given frozen id = .ok ()) (hg : given ≠ "")
    (hf : frozen ≠ "") : given = frozen := by
  exact by_contra fun hd => revertIf_eq_ok.mp h ⟨hg, hf, hd⟩

omit [Unicode] [GoEthereum] in
theorem sameDigest_ok {given : GoBytes} {action : Action} (h : sameDigest given action = .ok ()) (hg : given ≠ []) :
    sha256Hex given = action.calldataSHA256 := by
  exact by_contra fun hd => revertIf_eq_ok.mp h ⟨List.length_pos_of_ne_nil hg, hd⟩

omit [Unicode] [Digests] [GoEthereum] in
theorem sameIntentDetail_ok {request : TxRequest} {action : Action} (h : sameIntentDetail request action = .ok ()) :
    ∀ supplied ∈ request.intentDetail, ∃ detail text, action.detail = .ok detail ∧
      canonicalJSON ((detail "intent_detail").getD .null) = .ok text ∧ canonicalJSON
        (.object supplied.members) = .ok text := by
  intro supplied hs
  obtain hs : request.intentDetail = some supplied := hs
  rw [sameIntentDetail, hs] at h
  obtain ⟨detail, hdetail, h⟩ := bind_eq_ok.mp h
  obtain ⟨stored, hstored, h⟩ := bind_eq_ok.mp h
  obtain ⟨text, htext, h⟩ := bind_eq_ok.mp h
  obtain rfl := not_not.mp (revertIf_eq_ok.mp h)
  exact ⟨detail, stored, hdetail, hstored, htext⟩

theorem frozenRequest_ok {request : TxRequest} {action : Action} {data : GoBytes} {creation : Bool} {value : Int}
    (h : t.frozenRequest request action = .ok (data, creation, value)) :
    Repeats request action ∧ (action.sender ≠ "" → action.sender = t.senderHex) ∧
      setString action.value = some value ∧ creation = decide (action.target = "") := by
  obtain ⟨bytes, -, h⟩ := mapError_bind.mp h
  obtain ⟨v, hv, h⟩ := orRevert_bind.mp h
  obtain ⟨_, hdetail, h⟩ := bind_eq_ok.mp h
  obtain ⟨hsender, h⟩ := revertIf_bind.mp h
  obtain ⟨hrole, h⟩ := revertIf_bind.mp h
  obtain ⟨_, hattempt, h⟩ := bind_eq_ok.mp h
  obtain ⟨_, hstage, h⟩ := bind_eq_ok.mp h
  obtain ⟨_, hdata, h⟩ := bind_eq_ok.mp h
  obtain ⟨hdeploy, h⟩ := revertIf_bind.mp h
  obtain ⟨_, hcode, h⟩ := bind_eq_ok.mp h
  obtain ⟨hcreated, h⟩ := revertIf_bind.mp h
  obtain ⟨htarget, h⟩ := revertIf_bind.mp h
  obtain ⟨hvalue, h⟩ := revertIf_bind.mp h
  obtain ⟨hgas, h⟩ := revertIf_bind.mp h
  cases Except.ok.inj h
  refine ⟨⟨sameIntentDetail_ok hdetail, ?_, sameText_ok hattempt, sameText_ok hstage, sameDigest_ok hdata,
    fun hne => ⟨?_, sameDigest_ok hcode hne⟩, ?_, ?_, ?_⟩, ?_, hv, rfl⟩
  · exact fun hne => by_contra fun hd => hrole ⟨hne, hd⟩
  · have hc := not_and_not_right.mp hdeploy (List.length_pos_of_ne_nil hne)
    simpa using hc
  · exact fun hne => by_contra fun hd => htarget ⟨hne, hd⟩
  · exact fun x hx => by_contra fun hd => hvalue ⟨x, hx, hd⟩
  · exact fun hne => by_contra fun hd => hgas ⟨hne, hd⟩
  · exact fun hne => by_contra fun hd => hsender ⟨hne, hd⟩

theorem validateSignedBytes_ok {action : Action} {raw : GoBytes} {hash : GoBytes32} {value : Int} {creation : Bool}
    (h : t.validateSignedBytes action raw hash value creation = .ok ()) (hsender : action.sender = t.senderHex)
    (hv : setString action.value = some value) (hc : creation = decide (action.target = "")) :
    Digests.keccak256 raw = hash ∧ ∃ decoded, Says t action raw decoded := by
  obtain ⟨hk, h⟩ := revertIf_bind.mp h
  obtain ⟨decoded, hdecoded, h⟩ := mapError_bind.mp h
  obtain ⟨recovered, hrecovered, h⟩ := mapError_bind.mp h
  obtain ⟨haddress, h⟩ := revertIf_bind.mp h
  obtain ⟨-, h⟩ := revertIf_bind.mp h
  obtain ⟨hchain, h⟩ := revertIf_bind.mp h
  obtain ⟨hnonce, h⟩ := revertIf_bind.mp h
  obtain ⟨hgas, h⟩ := revertIf_bind.mp h
  obtain ⟨hvalue, h⟩ := revertIf_bind.mp h
  obtain ⟨hdata, h⟩ := revertIf_bind.mp h
  obtain ⟨hsome, h⟩ := revertIf_bind.mp h
  obtain ⟨hnone, h⟩ := revertIf_bind.mp h
  have htarget := not_not.mp (revertIf_eq_ok.mp h)
  obtain rfl := not_not.mp haddress
  obtain ⟨hchain, hchain'⟩ := not_or.mp hchain
  obtain ⟨hdigest, hlength⟩ := not_or.mp hdata
  refine ⟨not_not.mp hk, decoded, hdecoded, hrecovered, hsender, ⟨not_not.mp hchain, not_not.mp hchain'⟩,
    not_not.mp hnonce,
    not_not.mp hgas, hv.trans (congrArg some (not_not.mp hvalue).symm),
      ⟨not_not.mp hdigest, not_not.mp hlength⟩, htarget, ?_⟩
  subst hc
  constructor
  · intro hn
    by_contra hne
    exact hnone ⟨by rw [hn]; rfl, by simpa using hne⟩
  · intro he
    cases ht : decoded.target with
    | none => rfl
    | some address => exact absurd ⟨by rw [ht]; rfl, decide_eq_true he⟩ hsome

/-- An operation that sends bytes only if they satisfy `P`. -/
def Sends (P : GoBytes → Prop) (op : TxOp) : Prop := ∀ raw, op = .sendRawTransaction raw → P raw

variable {P : GoBytes → Prop}

omit [Unicode] [Digests] [GoEthereum] in
theorem ledger_asks {α : Type} (p : StoreProg α) : (ledger p).Asks (Sends P) :=
  (Prog.Asks.trivial p).interp fun _ _ => .op (fun _ h => by cases h) fun _ => .done _

omit [Unicode] [Digests] [GoEthereum] in
theorem quiet_asks {α : Type} {op : TxOp} {k : op.Answer → TxProg α} (hop : ∀ raw, op ≠ .sendRawTransaction raw)
    (h : ∀ r, (k r).Asks (Sends P)) : (Prog.op op k : TxProg α).Asks (Sends P) := .op (fun _ he => absurd he (hop _)) h

theorem complete_asks (actionID : String) (action : Action) (data : GoBytes) (creation : Bool) (hash : GoBytes32)
    (receipt : TxReceipt) :
    (t.complete actionID action data creation hash receipt).Asks (Sends P) := by
  rw [complete, spoolReceipt]
  refine Prog.Asks.bind
    (.ofExcept_bind fun _ _ => .ofExcept_bind fun _ _ => quiet_asks nofun fun r => .ofExcept_bind fun _ _ => .done _)
    fun spooled => ?_
  dsimp only
  by_cases hs : receipt.successful = false
  · rw [if_pos hs]
    exact (ledger_asks _).bind fun _ => .fail _
  · rw [if_neg hs]
    exact (ledger_asks _).bind fun _ => .done _

theorem submit_asks (actionID : String) (action : Action) (data : GoBytes) (creation : Bool) {raw : GoBytes}
    (hash : GoBytes32) (h : P raw) : (t.submit actionID action data creation raw hash).Asks (Sends P) := by
  rw [submit]
  refine quiet_asks nofun fun r => .ofExcept_bind fun receipt _ => ?_
  cases receipt with
  | some receipt => exact (ledger_asks _).bind fun _ => t.complete_asks ..
  | none =>
    refine Prog.Asks.bind
      ?_ fun _ => (ledger_asks _).bind fun _ => quiet_asks nofun fun r => .ofExcept_bind fun _ _ => ?_
    · rw [broadcast]
      split
      · exact .fail _
      · refine .op (fun raw' he => ?_) fun r => ?_
        · cases he
          exact h
        · rcases r with err | _
          · dsimp only
            split
            · exact .done _
            · exact .fail _
          · exact .done _
    · refine quiet_asks nofun fun r => .ofExcept_bind fun receipt _ => ?_
      cases receipt with
      | some receipt => exact t.complete_asks ..
      | none => exact .fail _

theorem ensureSigned_asks (action : Action) (data : GoBytes) (value : Int) (creation : Bool) :
    (t.ensureSigned action data value creation).Asks (Sends P) := by
  rw [ensureSigned]
  split
  · exact .ofExcept_bind fun _ _ => .done _
  · exact .ofExcept_bind fun _ _ =>
      quiet_asks nofun fun _ => .ofExcept_bind fun _ _ => (ledger_asks _).bind fun _ => .done _

theorem ensureSigned_returns (action : Action) (data : GoBytes) (value : Int) (creation : Bool) :
    (t.ensureSigned action data value creation).Returns fun signed => action.rawTransactionHex ≠ "" →
      decodeString (trimPrefix action.rawTransactionHex "0x") = .ok signed.1 ∧
        signed.2 = GoEthereum.hexToHash action.transactionHash := by
  rw [ensureSigned]
  split
  · exact .ofExcept_bind fun raw hraw => .done fun _ => ⟨mapError_eq_ok.mp hraw, rfl⟩
  · next hr => exact .ofExcept_bind fun _ _ => .bind fun _ => .bind fun _ => .done fun h => absurd h hr

/-- Whatever a row holds, and whatever is asked of it, its transaction is sent only if the row can be verified, the
request repeats it, and the bytes are a transaction of this account that says the same; and they
are those of the row, if it has any. -/
theorem resume_asks (request : TxRequest) (action : Action) :
    (t.resume request action).Asks (Sends fun raw => verifyActionIdentity action = .ok () ∧ Repeats request action ∧
      (∃ decoded, Says t action raw decoded) ∧ action.state ≠ .succeeded ∧ action.state ≠ .failed ∧
      (action.rawTransactionHex ≠ "" → decodeString (trimPrefix action.rawTransactionHex "0x") = .ok raw ∧
        Digests.keccak256 raw = GoEthereum.hexToHash action.transactionHash)) := by
  rw [resume]
  refine .ofExcept_bind fun _ hidentity => .ofExcept_bind fun frozen hfrozen => ?_
  obtain ⟨data, creation, value⟩ := frozen
  obtain ⟨hrepeats, hsender, hvalue, hcreation⟩ := t.frozenRequest_ok hfrozen
  obtain ⟨-, hne, -⟩ := verifyActionIdentity_eq_ok.mp hidentity
  dsimp only
  split
  · exact .fail _
  split
  · rw [finishedResult]
    refine .ofExcept_bind fun detail _ => ?_
    split
    · exact quiet_asks (fun _ hop => by cases hop) fun r => .ofExcept_bind fun _ _ => .ofExcept_bind fun _ _ => .done _
    · exact .done _
  next hfailed hsucceeded =>
    rw [drive]
    refine Prog.Asks.bind_returns (t.ensureSigned_asks ..) (t.ensureSigned_returns ..) fun signed hsigned => ?_
    refine .ofExcept_bind fun _ hvalid => ?_
    obtain ⟨hk, hsays⟩ := t.validateSignedBytes_ok hvalid (hsender hne) hvalue hcreation
    refine t.submit_asks _ _ _ _ _ ⟨hidentity, hrepeats, hsays, hsucceeded, hfailed, fun hr => ?_⟩
    obtain ⟨hraw, hhash⟩ := hsigned hr
    exact ⟨hraw, hk.trans hhash⟩

end

end Transactor

end

/-! ## An action whose bytes are signed -/

namespace Transactor

attribute [local instance] asciiUnicode emptinessDigests

def sampleTransaction : Transaction := ⟨1, 0, 21000, some (Vector.replicate 20 2), 0, [], []⟩

/-- Of a node's library, what reads the one transaction. -/
@[reducible] def sampleEthereum : GoEthereum where
  marshalBinary _ := .ok [7]
  unmarshalBinary _ := .ok sampleTransaction
  hash _ := Digests.keccak256 [7]
  sender _ _ := .ok (Vector.replicate 20 1)
  checksum address := encodeHex address.toList
  hexToHash text := .ofFn fun i => ((Hex.decode (text.toList.drop 2)).getD []).getD i 0
  hexToAddress text := .ofFn fun i => ((Hex.decode (text.toList.drop 2)).getD []).getD i 0

attribute [local instance] sampleEthereum

def sampleTransactor : Transactor := ⟨⟨Vector.replicate 20 1, 1, fun _ => .error "no key"⟩, "spool"⟩

def sampleRow : Action where
  actionID := "action"
  attemptID := ""
  stage := ""
  chainRole := "a"
  chainID := 1
  sender := lowerHex (Vector.replicate 20 1)
  target := lowerHex (Vector.replicate 20 2)
  calldataHex := ""
  calldataBytes := 0
  calldataSHA256 := sha256Hex []
  value := "0"
  gas := 21000
  nonce := 0
  state := .signed
  rawTransactionHex := encodeHex [7]
  transactionHash := keccakHex [7]
  receiptPath := ""
  receiptSHA256 := ""
  blockNumber := 0
  gasUsed := 0
  detailJSON := .ok fun _ => none

/-- The request that only names the action. -/
def sampleRequest : TxRequest := ⟨"action", none, "", "", "", zeroAddress, [], none, 0, []⟩

def sampleWorld : TxWorld := ⟨.single ⟨sampleRow, 0, 0⟩, []⟩

/-- A node that has no receipt, and answers nothing else. -/
def sampleAnswer : ∀ i : String × TxOp, TxWorld → i.2.Answer × TxWorld
  | (_, .store op), w => ((w.tables.answer 0 op).1, ⟨(w.tables.answer 0 op).2, w.trace⟩)
  | (actionID, .receiptDocument hash), w => (.ok none, ⟨w.tables, w.trace ++ [.lookup actionID hash (.ok none)]⟩)
  | (actionID, .sendRawTransaction raw), w =>
    (.error ⟨.transport, "connection reset"⟩, ⟨w.tables, w.trace ++ [.broadcast actionID raw w.tables]⟩)
  | (_, .nonceNext _), w => (none, w)
  | (_, .setNonceNext _ _), w => ((), w)
  | (_, .pendingNonce _), w => (.error ⟨.transport, ""⟩, w)
  | (_, .estimateGas _ _ _), w => (.error ⟨.transport, ""⟩, w)
  | (_, .gasPrice), w => (.error ⟨.transport, ""⟩, w)
  | (_, .waitMined _), w => (.error (.errorf ""), w)
  | (_, .readFile _), w => (.error "", w)
  | (_, .writePrivateRaw _ _), w => (.error (.errorf ""), w)

theorem sampleAnswer_step (i : String × TxOp) (w : TxWorld) : TxStep i w (sampleAnswer i w).1 (sampleAnswer i w).2 := by
  obtain ⟨id, op⟩ := i
  cases op with
  | store op => exact ⟨Tables.answer_step 0 op w.tables, rfl⟩
  | _ => rfl

theorem sampleWorld_valid : sampleWorld.tables.Valid := by
  refine ⟨List.nodup_singleton _, ?_, ?_⟩
  · intro r hr r' hr' hc
    obtain rfl := List.mem_singleton.mp hr
    obtain rfl := List.mem_singleton.mp hr'
    exact hc.1 rfl
  · intro id a ha
    obtain ⟨⟨r, hr, rfl⟩, -⟩ := Tables.find_eq_some _ ha
    obtain rfl := List.mem_singleton.mp hr
    exact ⟨⟨1, rfl⟩, fun _ => ⟨by decide, [7], rfl, rfl⟩, fun _ => encodeHex_ne_empty _, fun h => by cases h⟩

theorem decodeHex_empty : decodeHex "" = .ok [] := by
  rw [decodeHex, decodeHexWith]
  rfl

theorem lowerHex_ne_empty (address : GoAddress) : lowerHex address ≠ "" := toLower_ne_empty (encodeHex_ne_empty _)

theorem sampleRow_verified : verifyActionIdentity sampleRow = .ok () := by
  have hraw : decodeHex sampleRow.rawTransactionHex = .ok [7] := decodeHex_encodeHex _
  refine verifyActionIdentity_eq_ok.mpr
    ⟨⟨by decide, by decide, by decide, isDigest_sha256Hex _, [], decodeHex_empty, rfl, rfl⟩,
    lowerHex_ne_empty _, ⟨1, rfl⟩,
      fun h => absurd rfl h, fun _ => ⟨encodeHex_ne_empty _, encodeHex_ne_empty _, [7], hraw, rfl⟩⟩

theorem sampleRow_frozen : sampleTransactor.frozenRequest sampleRequest sampleRow = .ok ([], false, 0) := by
  have htarget : sampleRow.target ≠ "" := lowerHex_ne_empty _
  have hvalue : setString sampleRow.value = some 0 := by decide
  refine mapError_bind.mpr ⟨[], decodeHex_empty, orRevert_bind.mpr ⟨0, hvalue, bind_eq_ok.mpr ⟨(), rfl, ?_⟩⟩⟩
  refine revertIf_bind.mpr ⟨fun h => h.2 rfl, revertIf_bind.mpr ⟨fun h => h.1 rfl, ?_⟩⟩
  refine bind_eq_ok.mpr
    ⟨(), revertIf_eq_ok.mpr fun h => h.1 rfl, bind_eq_ok.mpr ⟨(), revertIf_eq_ok.mpr fun h => h.1 rfl, ?_⟩⟩
  refine bind_eq_ok.mpr
    ⟨(), revertIf_eq_ok.mpr fun h => absurd h.1 (by decide), revertIf_bind.mpr ⟨fun h => absurd h.1 (by decide), ?_⟩⟩
  refine bind_eq_ok.mpr
    ⟨(), revertIf_eq_ok.mpr fun h => absurd h.1 (by decide), revertIf_bind.mpr ⟨fun h => h.1 rfl, ?_⟩⟩
  refine revertIf_bind.mpr ⟨fun h => h.1 rfl,
    revertIf_bind.mpr ⟨fun ⟨_, h, _⟩ => absurd h (by simp [sampleRequest]), revertIf_bind.mpr ⟨fun h => h.1 rfl, ?_⟩⟩⟩
  rw [decide_eq_false htarget]
  rfl

theorem sampleRow_signed :
    sampleTransactor.validateSignedBytes sampleRow [7] (Digests.keccak256 [7]) 0 false = .ok () := by
  refine revertIf_bind.mpr ⟨fun h => h rfl, mapError_bind.mpr ⟨sampleTransaction, rfl, mapError_bind.mpr ⟨_, rfl, ?_⟩⟩⟩
  refine revertIf_bind.mpr ⟨fun h => h rfl, revertIf_bind.mpr ⟨fun h => h.2 rfl, revertIf_bind.mpr ⟨by decide, ?_⟩⟩⟩
  refine revertIf_bind.mpr ⟨by decide, revertIf_bind.mpr ⟨by decide, revertIf_bind.mpr ⟨by decide, ?_⟩⟩⟩
  refine revertIf_bind.mpr
    ⟨fun h => h.elim (· rfl) (· rfl), revertIf_bind.mpr ⟨by decide, revertIf_bind.mpr ⟨by decide, ?_⟩⟩⟩
  exact revertIf_eq_ok.mpr fun h => h rfl

theorem ensureSigned_sample :
    sampleTransactor.ensureSigned sampleRow [] 0 false = .done ([7], Digests.keccak256 [7]) := by
  have hhash : GoEthereum.hexToHash sampleRow.transactionHash = Digests.keccak256 [7] := by decide +kernel
  have hraw : decodeString (trimPrefix sampleRow.rawTransactionHex "0x") = .ok [7] := by
    rw [show trimPrefix sampleRow.rawTransactionHex "0x" = _ from trimPrefix_encodeHex [7], decodeString_encodeToString]
  rw [ensureSigned, if_pos (show sampleRow.rawTransactionHex ≠ "" from encodeHex_ne_empty _), hraw, hhash]
  rfl

theorem resume_sample : sampleTransactor.resume sampleRequest sampleRow =
    sampleTransactor.submit "action" sampleRow [] false [7] (Digests.keccak256 [7]) := by
  have hdrive : sampleTransactor.drive "action" sampleRow [] false 0 =
      sampleTransactor.submit "action" sampleRow [] false [7] (Digests.keccak256 [7]) := by
    rw [drive, ensureSigned_sample, Prog.done_bind]
    dsimp only
    rw [sampleRow_signed]
    rfl
  rw [resume, sampleRow_verified, sampleRow_frozen, ← hdrive]
  rfl

/-- The invocation comes to the broadcast, which fails. -/
theorem execute_sample :
    ((sampleTransactor.execute sampleRequest).run (fun op => sampleAnswer ("action", op)) sampleWorld).2 =
    ⟨sampleWorld.tables,
    [.lookup "action" (Digests.keccak256 [7]) (.ok none), .broadcast "action" [7] sampleWorld.tables]⟩ := by
  have hid :
      revertIf (trimSpace sampleRequest.actionID = "") (.errorf "xir evm: a transaction request needs an action id") =
      (.ok () : Except RuntimeError Unit) := revertIf_eq_ok.mpr (by decide)
  have hread : (ledger (Store.action sampleRequest.actionID)).run (fun op => sampleAnswer ("action", op)) sampleWorld =
      (.ok (some sampleRow), sampleWorld) := rfl
  rw [execute, hid]
  show ((ledger (Store.action sampleRequest.actionID) >>= fun stored => _).run _ _).2 = _
  rw [Prog.run_bind_ok hread]
  dsimp only
  rw [resume_sample]
  rfl

theorem broadcasts_of_run_sample : ∃ es p, Run (Process.Step TxStep sampleTransactor.invocation)
      ⟨sampleWorld, .fail (.errorf "no call")⟩ es p ∧ .broadcast "action" [7] sampleWorld.tables ∈ p.shared.trace ∧
    (∀ actionID raw raw' ledger ledger', .broadcast actionID raw ledger ∈ p.shared.trace →
      .broadcast actionID raw' ledger' ∈ p.shared.trace → raw' = raw) ∧
    ∀ before after actionID raw ledger, p.shared.trace = before ++ .broadcast actionID raw ledger :: after →
      Holds actionID raw ledger ∧ before.getLast? = some (.lookup actionID (Digests.keccak256 raw) (.ok none)) := by
  have hrun : ((sampleTransactor.invocation sampleRequest).run sampleAnswer sampleWorld).2 = _ :=
    (congrArg Prod.snd (Prog.run_tagged _ _)).trans execute_sample
  obtain ⟨es, p, run⟩ :=
    Process.run_call sampleTransactor.invocation (P := fun _ => True) (fun i w _ => sampleAnswer_step i w)
    (.trivial _) hrun (.fail (.errorf "no call"))
  exact ⟨es, _, run, by simp, broadcasts_of_run sampleWorld_valid rfl run⟩

end Transactor

end Xir.Impl
