import Xir.Proof.Checks
import Mathlib.Data.List.Nodup

/-!
# What a call of the ledger does to the tables

A call reads a row and writes it later, so what a write knows is that the checks
passed on the row that was read (`StoreCall.Makes`); that it is still the row in the
table is another matter (`Write.Fresh`). A write that `Lands` is a fresh one,
and changes the row of its action to `Write.result`, and no other. Where nothing
comes between the read and the write, as in a single process, every write lands
(`StoreCall.triple`).
-/

namespace Xir.Impl

variable [Unicode] [Digests]

/-! ## Calls -/

/-- The calls that write an action, with their arguments. -/
inductive StoreCall
  | intend (action : Action)
  | recordSigned (actionID : String) (rawTx : GoBytes) (txHash : String)
  | observe (actionID : String) (stateName : ActionState) (detail : Members)
  | succeed (actionID : String) (result : ActionResult)

namespace StoreCall

def actionID : StoreCall → String
  | intend action => action.actionID
  | recordSigned actionID _ _ | observe actionID _ _ | succeed actionID _ => actionID

def prog : StoreCall → StoreProg Unit
  | intend action => do
    let _ ← Store.intend action
  | recordSigned actionID rawTx txHash => Store.recordSigned actionID rawTx txHash
  | observe actionID stateName detail => Store.observe actionID stateName detail
  | succeed actionID result => Store.succeed actionID result

end StoreCall

/-- What a process sees of the database. A statement that fails changes nothing. -/
def StoreStep : ∀ op : StoreOp, Tables → op.Answer → Tables → Prop
  | .action actionID, t, r, t' => t' = t ∧ (r = .ok (t.find actionID) ∨ ∃ e, r = .error e)
  | .maxActionNonce chainID sender, t, r, t' => t' = t ∧ (r = .ok (t.maxNonce chainID sender) ∨ ∃ e, r = .error e)
  | .now, t, _, t' => t' = t
  | .transact w, t, r, t' => (t.apply w = .ok t' ∧ r = .ok ()) ∨ (t' = t ∧ ∃ e, r = .error e)

/-! ## Writes -/

namespace Write

/-- The row that the call has read, and for an insert the one it writes. -/
def action : Write → Action
  | insertAction a _ | recordSigned a _ _ _ _ | observe a _ _ _ | succeed a _ _ _ _ => a

/-- The row that the write makes of one with its identifier. -/
def set : Write → Action → Action
  | insertAction a _, _ => a
  | recordSigned _ rawTx canonical detail _, b =>
    { b with state := .signed, rawTransactionHex := encodeHex rawTx, transactionHash := canonical,
             detailJSON := detail }
  | observe _ stateName merged _, b => { b with state := stateName, detailJSON := merged }
  | succeed _ canonical r merged _, b =>
    { b with state := .succeeded, transactionHash := if canonical = "" then b.transactionHash else canonical,
             receiptPath := r.receiptPath, receiptSHA256 := r.receiptSHA256, blockNumber := r.blockNumber,
             gasUsed := r.gasUsed, detailJSON := merged }

/-- The row that the write leaves, where the one in the table is the one that was read. -/
def result (w : Write) : Action := w.set w.action

def time : Write → Int
  | insertAction _ now | recordSigned _ _ _ _ now | observe _ _ _ now | succeed _ _ _ _ now => now

/-- The table holds the row that the call has read. -/
def Fresh (t : Tables) : Write → Prop
  | insertAction a _ => t.find a.actionID = none
  | w => t.find w.action.actionID = some w.action

end Write

/-- The writes that a call may ask for: its checks have passed on the row that the write carries. -/
inductive StoreCall.Makes : StoreCall → Write → Prop
  | intend {requested : Action} {time : Int} (checked : Store.validateIntend requested = .ok ()) :
    Makes (.intend requested) (.insertAction (Store.normalised requested) time)
  | recordSigned {actionID txHash canonical : String} {rawTx : GoBytes} {a : Action} {detail : Document} {time : Int}
    (arguments : Store.checkRaw actionID rawTx txHash = .ok canonical)
    (checked : Store.checkSigned a rawTx canonical = .ok false) (derived : Store.signedDetail a rawTx = .ok detail) :
    Makes (.recordSigned actionID rawTx txHash) (.recordSigned a rawTx canonical detail time)
  | observe {actionID : String} {stateName : ActionState} {detail : Members} {n : Nat} {a : Action} {merged : Document}
    {time : Int} (arguments : actionRank stateName = .ok n)
    (checked : Store.checkObserved a stateName detail = .ok false)
    (derived : mergeDetail a.detailJSON detail = .ok merged) :
    Makes (.observe actionID stateName detail) (.observe a stateName merged time)
  | succeed {actionID canonical : String} {result : ActionResult} {a : Action} {merged : Document} {time : Int}
    (arguments : Store.checkResult actionID result = .ok canonical)
    (checked : Store.checkSucceeded a canonical result = .ok false)
    (derived : mergeDetail a.detailJSON (Store.resultMembers result) = .ok merged) :
    Makes (.succeed actionID result) (.succeed a canonical result merged time)

/-- A write of a call, where the row is still as the call has read it. -/
structure Lands (c : StoreCall) (t : Tables) (w : Write) (t' : Tables) : Prop where
  makes : c.Makes w
  fresh : w.Fresh t
  apply : t.apply w = .ok t'

/-- An operation that writes only what the call makes. -/
def StoreCall.Allows (c : StoreCall) : StoreOp → Prop
  | .transact w => c.Makes w
  | _ => True

theorem Store.action_asks (c : StoreCall) (id : String) : (Store.action id).Asks c.Allows :=
  (Prog.Asks.ofExcept _).bind fun _ => .op trivial fun _ => Prog.Asks.ofExcept _

theorem Store.rewriteRow_asks {c : StoreCall} {id : String} {check : Action → Except RuntimeError Bool}
    {document : Action → Except RuntimeError Document} {write : Action → Document → Int → Write}
    (h : ∀ a d time, check a = .ok false → document a = .ok d → c.Makes (write a d time)) :
    (Store.rewriteRow id check document write).Asks c.Allows := by
  refine (Store.action_asks c id).bind fun stored => ?_
  cases stored with
  | none => exact .fail _
  | some a =>
    refine Prog.Asks.ofExcept_bind fun b hb => ?_
    cases b with
    | true => exact .done _
    | false =>
      refine Prog.Asks.ofExcept_bind fun d hd => ?_
      exact .op trivial fun time => .op (h a d time hb hd) fun _ => Prog.Asks.ofExcept _

/-- Whatever a call is answered, it asks for no other write. -/
theorem StoreCall.asks (c : StoreCall) : c.prog.Asks c.Allows := by
  cases c with
  | intend a =>
    rw [StoreCall.prog, Store.intend]
    refine Prog.Asks.bind (Prog.Asks.ofExcept_bind fun _ hv => (Store.action_asks _ _).bind fun stored => ?_) fun _ =>
      .done _
    cases stored with
    | some stored => exact Prog.Asks.ofExcept_bind fun _ _ => .done _
    | none =>
      exact .op trivial fun time => .op (.intend hv) fun _ => (Prog.Asks.ofExcept _).bind fun _ => Store.action_asks _ _
  | recordSigned id raw hash =>
    rw [StoreCall.prog, Store.recordSigned]
    exact Prog.Asks.ofExcept_bind fun canonical hc => Store.rewriteRow_asks fun a d time hb hd => .recordSigned hc hb hd
  | observe id s detail =>
    rw [StoreCall.prog, Store.observe]
    exact Prog.Asks.ofExcept_bind fun n hn => Store.rewriteRow_asks fun a d time hb hd => .observe hn hb hd
  | succeed id r =>
    rw [StoreCall.prog, Store.succeed]
    exact Prog.Asks.ofExcept_bind fun canonical hc => Store.rewriteRow_asks fun a d time hb hd => .succeed hc hb hd

/-! ## The tables after a write -/

namespace Tables

omit [Unicode] [Digests]

/-- Each action has one row. -/
def Keyed (t : Tables) : Prop := (t.actions.map fun r => r.action.actionID).Nodup

theorem find_eq_some (t : Tables) {actionID : String} {a : Action} (h : t.find actionID = some a) :
    (∃ r ∈ t.actions, r.action = a) ∧ a.actionID = actionID := by
  obtain ⟨r, hr, rfl⟩ := Option.map_eq_some_iff.mp h
  exact ⟨⟨r, List.mem_of_find?_eq_some hr, rfl⟩, by simpa using List.find?_some hr⟩

theorem find_of_mem {t : Tables} (ht : t.Keyed) {r : ActionRow} (hr : r ∈ t.actions) :
    t.find r.action.actionID = some r.action := by
  have hf : t.actions.find? (fun s => s.action.actionID = r.action.actionID) = some r := by
    unfold Keyed at ht
    generalize t.actions = rows at ht hr
    induction rows with
    | nil => exact absurd hr List.not_mem_nil
    | cons s rows ih =>
      rw [List.map_cons, List.nodup_cons] at ht
      rcases List.mem_cons.mp hr with rfl | hr
      · exact List.find?_cons_of_pos (by simp)
      · have hne : s.action.actionID ≠ r.action.actionID := fun h => ht.1 (h ▸ List.mem_map_of_mem hr)
        rw [List.find?_cons_of_neg (by simpa using hne)]
        exact ih ht.2 hr
  rw [Tables.find, hf, Option.map_some]

/-- No two rows conflict. -/
def Unique (t : Tables) : Prop := ∀ r ∈ t.actions, ∀ r' ∈ t.actions, ¬ NonceConflict r.action r'.action

theorem NonceConflict.symm {a b : Action} (h : NonceConflict a b) : NonceConflict b a := by
  obtain ⟨hid, hc, hs, hn, he, ha, hb⟩ := h
  exact ⟨hid.symm, hc.symm, hs.symm, hn.symm, hs ▸ he, hb, ha⟩

theorem updateAction_eq_ok {t t' : Tables} {actionID : String} {f : ActionRow → ActionRow} {e : RuntimeError} :
    t.updateAction actionID f e = .ok t' ↔
      t' = { t with actions := t.actions.map fun r => if r.action.actionID = actionID then f r else r } ∧
        ∀ r ∈ t'.actions, r.action.actionID = actionID → ∀ r' ∈ t'.actions, ¬ NonceConflict r.action r'.action := by
  rw [updateAction]
  split
  · next hc =>
    refine ⟨fun h => (by cases h), fun ⟨h, hu⟩ => ?_⟩
    subst h
    obtain ⟨r, hr, hid, r', hr', hx⟩ := hc
    exact absurd hx (hu r hr hid r' hr')
  · next hc =>
    refine ⟨fun h => ?_, fun h => congrArg Except.ok h.1.symm⟩
    cases h
    exact ⟨rfl, fun r hr hid r' hr' hx => hc ⟨r, hr, hid, r', hr', hx⟩⟩

theorem insertStageAndEvent_actions {t t' : Tables} {w : StageWrite} (h : t.insertStageAndEvent w = .ok t') :
    t'.actions = t.actions := by
  obtain ⟨fields, -, hf⟩ := bind_eq_ok.mp h
  cases hf
  rfl

theorem insertDurableSigned_actions {t t' : Tables} [Unicode] [Digests] {a : Action} {hash sha : String} {raw : GoBytes}
    {d : Document} (h : t.insertDurableSigned a hash raw sha d = .ok t') : t'.actions = t.actions := by
  unfold insertDurableSigned at h
  split at h <;> split at h <;> cases h <;> rfl

end Tables

/-- The row of `actions` that a write makes of one with its identifier. -/
def Write.setRow (w : Write) (r : ActionRow) : ActionRow := { r with action := w.set r.action, updatedAt := w.time }

omit [Digests] [Unicode] in
theorem Write.set_actionID (w : Write) (b : Action) (h : b.actionID = w.action.actionID) :
    (w.set b).actionID = b.actionID := by
  cases w with
  | insertAction => exact h.symm
  | recordSigned | observe | succeed => rfl

/-- A write that is no insert begins with an update of the row of its action. -/
theorem Tables.apply_update {t t' : Tables} {w : Write} (hw : ∀ a now, w ≠ .insertAction a now)
    (h : t.apply w = .ok t') :
    ∃ t₁ e, t.updateAction w.action.actionID w.setRow e = .ok t₁ ∧ t'.actions = t₁.actions := by
  cases w with
  | insertAction a now => exact absurd rfl (hw a now)
  | recordSigned a raw c d now =>
    rw [Tables.apply] at h
    obtain ⟨t₁, h₁, h⟩ := bind_eq_ok.mp h
    refine ⟨t₁, _, h₁, ?_⟩
    split at h
    · cases h
      rfl
    · obtain ⟨t₂, h₂, h⟩ := bind_eq_ok.mp h
      obtain ⟨fields, -, h⟩ := bind_eq_ok.mp h
      obtain ⟨t₃, h₃, h⟩ := bind_eq_ok.mp h
      rw [insertStageAndEvent_actions h, insertStageAndEvent_actions h₃, insertDurableSigned_actions h₂]
  | observe a s m now =>
    rw [Tables.apply] at h
    obtain ⟨t₁, h₁, h⟩ := bind_eq_ok.mp h
    refine ⟨t₁, _, h₁, ?_⟩
    split at h
    · cases h
      rfl
    · obtain ⟨fields, -, h⟩ := bind_eq_ok.mp h
      exact insertStageAndEvent_actions h
  | succeed a c r m now =>
    rw [Tables.apply] at h
    obtain ⟨t₁, h₁, h⟩ := bind_eq_ok.mp h
    refine ⟨t₁, _, h₁, ?_⟩
    split at h
    · cases h
      rfl
    · exact insertStageAndEvent_actions h

omit [Unicode] in
theorem Tables.apply_insert {t t' : Tables} {a : Action} {now : Int} (h : t.apply (.insertAction a now) = .ok t') :
    (∀ r ∈ t.actions, r.action.actionID ≠ a.actionID ∧ ¬ NonceConflict a r.action) ∧
      t'.actions = t.actions ++ [⟨a, now, now⟩] := by
  rw [Tables.apply] at h
  split at h
  · cases h
  · next hn =>
    cases h
    exact ⟨fun r hr => not_or.mp fun hc => hn ⟨r, hr, hc⟩, rfl⟩

/-- A write changes the rows of its action only, or adds one. -/
theorem Tables.apply_actions {t t' : Tables} {w : Write} (h : t.apply w = .ok t') :
    (∃ a now, w = .insertAction a now ∧ (∀ r ∈ t.actions, r.action.actionID ≠ a.actionID ∧ ¬ NonceConflict a r.action) ∧
        t'.actions = t.actions ++ [⟨a, now, now⟩]) ∨
      (∀ a now, w ≠ .insertAction a now) ∧
        t'.actions = t.actions.map fun r => if r.action.actionID = w.action.actionID then w.setRow r else r := by
  by_cases hw : ∃ a now, w = .insertAction a now
  · obtain ⟨a, now, rfl⟩ := hw
    exact .inl ⟨a, now, rfl, Tables.apply_insert h⟩
  · have hw' : ∀ a now, w ≠ .insertAction a now := fun a now he => hw ⟨a, now, he⟩
    obtain ⟨t₁, e, h₁, ht⟩ := Tables.apply_update hw' h
    refine .inr ⟨hw', ?_⟩
    rw [ht, (updateAction_eq_ok.mp h₁).1]

/-- The index on the nonces of an account holds after every write. -/
theorem Tables.Unique.apply {t t' : Tables} {w : Write} (hu : t.Unique) (h : t.apply w = .ok t') : t'.Unique := by
  by_cases hw : ∃ a now, w = .insertAction a now
  · obtain ⟨a, now, rfl⟩ := hw
    obtain ⟨hn, ht⟩ := Tables.apply_insert h
    have hself : ¬ NonceConflict a a := fun hx => hx.1 rfl
    intro r hr r' hr'
    rw [ht, List.mem_append, List.mem_singleton] at hr hr'
    rcases hr with hr | rfl <;> rcases hr' with hr' | rfl
    · exact hu r hr r' hr'
    · exact fun hx => (hn r hr).2 hx.symm
    · exact (hn r' hr').2
    · exact hself
  · obtain ⟨t₁, e, h₁, ht⟩ := Tables.apply_update (fun a now he => hw ⟨a, now, he⟩) h
    obtain ⟨heq, hx⟩ := updateAction_eq_ok.mp h₁
    have hold {r : ActionRow} (hr : r ∈ t₁.actions) (hid : r.action.actionID ≠ w.action.actionID) : r ∈ t.actions := by
      rw [heq] at hr
      obtain ⟨r₀, hr₀, rfl⟩ := List.mem_map.mp hr
      split at hid
      · next h => exact absurd ((w.set_actionID _ h).trans h) hid
      · next h => rwa [if_neg h]
    intro r hr r' hr'
    rw [ht] at hr hr'
    by_cases hid : r.action.actionID = w.action.actionID
    · exact hx r hr hid r' hr'
    · by_cases hid' : r'.action.actionID = w.action.actionID
      · exact fun h => hx r' hr' hid' r hr h.symm
      · exact hu r (hold hr hid) r' (hold hr' hid')

omit [Digests] [Unicode] in
theorem Tables.setRow_actionID (w : Write) (r : ActionRow) :
    (if r.action.actionID = w.action.actionID then w.setRow r else r).action.actionID = r.action.actionID := by
  split
  · next h => exact w.set_actionID r.action h
  · rfl

omit [Digests] [Unicode] in
/-- What `find` reads in rows that a write has changed. -/
theorem Tables.find_set (rows : List ActionRow) (w : Write) (id : String) :
    ((rows.map fun r => if r.action.actionID = w.action.actionID then w.setRow r else r).find? fun r =>
        r.action.actionID = id) =
      (rows.find? fun r => r.action.actionID = id).map fun r =>
        if id = w.action.actionID then w.setRow r else r := by
  rw [List.find?_map]
  have hid : ((fun r : ActionRow => decide (r.action.actionID = id)) ∘ fun r =>
      if r.action.actionID = w.action.actionID then w.setRow r else r) = fun r => decide (r.action.actionID = id) :=
    funext fun r => by rw [Function.comp, setRow_actionID]
  rw [hid]
  refine Option.map_congr fun r hr => ?_
  rw [show r.action.actionID = id by simpa using List.find?_some hr]

/-- What an update leaves of each row. -/
theorem Tables.find_update {t t' : Tables} {w : Write} (hw : ∀ a now, w ≠ .insertAction a now)
    (h : t.apply w = .ok t') (id : String) :
    t'.find id = (t.find id).map fun b => if id = w.action.actionID then w.set b else b := by
  rcases Tables.apply_actions h with ⟨a, now, hi, -⟩ | ⟨-, hr⟩
  · exact absurd hi (hw a now)
  · rw [Tables.find, hr, Tables.find_set, Option.map_map, Tables.find, Option.map_map]
    refine Option.map_congr fun r _ => ?_
    by_cases hid : id = w.action.actionID
    · simp only [Function.comp, if_pos hid, Write.setRow]
    · simp only [Function.comp, if_neg hid]

omit [Unicode] in
/-- What an insert leaves. -/
theorem Tables.find_insert {t t' : Tables} {a : Action} {now : Int} (h : t.apply (.insertAction a now) = .ok t') :
    t.find a.actionID = none ∧ t'.find = Function.update t.find a.actionID (some a) := by
  obtain ⟨hn, hr⟩ := Tables.apply_insert h
  have hnone : t.find a.actionID = none := by
    rw [Tables.find, List.find?_eq_none.mpr fun r hm => by simpa using (hn r hm).1]
    rfl
  refine ⟨hnone, funext fun id => ?_⟩
  rw [Tables.find, hr, List.find?_append, Option.map_or]
  show (t.find id).or _ = _
  by_cases hid : id = a.actionID
  · subst hid
    rw [hnone, Function.update_self, Option.none_or, List.find?_cons_of_pos (by simp)]
    rfl
  · rw [Function.update_of_ne hid, List.find?_cons_of_neg (by simpa using Ne.symm hid)]
    exact Option.or_none

/-- A write that lands leaves its result in the row of its action, and the other rows as they were. -/
theorem Lands.find {c : StoreCall} {t t' : Tables} {w : Write} (h : Lands c t w t') :
    t'.find = Function.update t.find w.action.actionID (some w.result) := by
  by_cases hw : ∃ a now, w = .insertAction a now
  · obtain ⟨a, now, rfl⟩ := hw
    exact (Tables.find_insert h.apply).2
  · have hw' : ∀ a now, w ≠ .insertAction a now := fun a now he => hw ⟨a, now, he⟩
    have hf : t.find w.action.actionID = some w.action := by
      cases w with
      | insertAction a now => exact absurd rfl (hw' a now)
      | recordSigned | observe | succeed => exact h.fresh
    funext id
    rw [Tables.find_update hw' h.apply]
    by_cases hid : id = w.action.actionID
    · subst hid
      rw [hf, Function.update_self, Option.map_some, if_pos rfl]
      rfl
    · rw [Function.update_of_ne hid]
      simp only [if_neg hid, Option.map_id']

theorem Lands.find_self {c : StoreCall} {t t' : Tables} {w : Write} (h : Lands c t w t') :
    t'.find w.action.actionID = some w.result := by
  rw [h.find, Function.update_self]

theorem Lands.keyed {c : StoreCall} {t t' : Tables} {w : Write} (h : Lands c t w t') (ht : t.Keyed) : t'.Keyed := by
  rw [Tables.Keyed]
  rcases Tables.apply_actions h.apply with ⟨a, now, rfl, hn, hr⟩ | ⟨hw, hr⟩
  · rw [hr, List.map_append]
    refine List.nodup_append.mpr ⟨ht, List.nodup_singleton _, fun id hid id' hs heq => ?_⟩
    obtain ⟨r, hm, rfl⟩ := List.mem_map.mp hid
    exact (hn r hm).1 (heq.trans (List.mem_singleton.mp hs))
  · rw [hr, List.map_map]
    have hid : ((fun r : ActionRow => r.action.actionID) ∘ fun r =>
        if r.action.actionID = w.action.actionID then w.setRow r else r) = fun r => r.action.actionID :=
      funext fun r => Tables.setRow_actionID w r
    rw [hid]
    exact ht

/-! ## The life of a row -/

/-- What a write that lands may make of a row. -/
inductive RowStep (a : Action) : Action → Prop
  | keep : RowStep a a
  | write {c : StoreCall} {w : Write} (makes : c.Makes w) (update : ∀ b now, w ≠ .insertAction b now)
    (read : w.action = a) : RowStep a w.result

theorem Lands.row {c : StoreCall} {t t' : Tables} {w : Write} (h : Lands c t w t') {id : String} {a : Action}
    (ha : t.find id = some a) : ∃ a', t'.find id = some a' ∧ RowStep a a' := by
  rw [h.find]
  by_cases hid : id = w.action.actionID
  · have hf := h.fresh
    have hup : ∀ b now, w ≠ .insertAction b now := by
      rintro b now rfl
      have hn : t.find b.actionID = none := hf
      rw [hid] at ha
      cases hn.symm.trans ha
    have hr : t.find w.action.actionID = some w.action := by
      cases w with
      | insertAction b now => exact absurd rfl (hup b now)
      | recordSigned | observe | succeed => exact hf
    rw [hid, hr] at ha
    rw [hid, Function.update_self]
    exact ⟨w.result, rfl, .write h.makes hup (Option.some.inj ha)⟩
  · rw [Function.update_of_ne hid]
    exact ⟨a, ha, .keep⟩

/-- Where the tables gain a row, it is that of an intent. -/
theorem Lands.row_new {c : StoreCall} {t t' : Tables} {w : Write} (h : Lands c t w t') {id : String} {a : Action}
    (hn : t.find id = none) (ha : t'.find id = some a) :
    ∃ requested, Store.validateIntend requested = .ok () ∧ a = Store.normalised requested := by
  rw [h.find] at ha
  by_cases hid : id = w.action.actionID
  · rw [hid, Function.update_self] at ha
    obtain rfl := Option.some.inj ha
    have hf := h.fresh
    cases h.makes with
    | intend hv => exact ⟨_, hv, rfl⟩
    | recordSigned | observe | succeed =>
      rw [hid] at hn
      cases hn.symm.trans hf
  · rw [Function.update_of_ne hid] at ha
    cases hn.symm.trans ha

/-! ## Calls that nothing interrupts -/

/-- What a call may do to the tables: nothing, or a write that lands on its action. -/
def After (c : StoreCall) (t t' : Tables) : Prop :=
  t' = t ∨ ∃ w, w.action.actionID = c.actionID ∧ Lands c t w t'

namespace Store

variable {C : Tables → Prop} {E : RuntimeError → Tables → Prop} {t : Tables}

section

omit [Unicode]

theorem action_triple (hC : C t) (hE : ∀ e, E e t) (id : String) :
    Prog.Triple StoreStep C E (· = t) (Store.action id) fun r s => s = t ∧ r = t.find id := by
  have hc : ∀ s, s = t → C s := fun s h => h ▸ hC
  have he : ∀ e s, s = t → E e s := fun e s h => h ▸ hE e
  refine .ofExcept_bind hc he fun _ _ => ?_
  refine .op hc (fun r s => s = t ∧ (r = .ok (t.find id) ∨ ∃ e, r = .error e)) (fun s r s' h hs => ?_) fun r => ?_
  · subst h
    exact hs
  · refine .ofExcept (fun s h => hc s h.1) (fun a ha s h => ⟨h.1, ?_⟩) fun e _ s h => he e s h.1
    rcases h.2 with hr | ⟨e, hr⟩
    · exact Except.ok.inj (ha.symm.trans hr)
    · cases ha.symm.trans hr

theorem now_triple (hC : C t) : Prog.Triple StoreStep C E (· = t) Store.now fun _ s => s = t ∧ True :=
  .op (fun _ h => h ▸ hC) (fun _ s => s = t) (fun _ _ _ h hs => Eq.trans hs h) fun _ =>
    .done (fun _ h => h ▸ hC) fun _ h => ⟨h, trivial⟩

theorem transact_triple (hC : C t) (hE : ∀ e, E e t) {w : Write} {Q : Tables → Prop}
    (hw : ∀ t', t.apply w = .ok t' → C t' ∧ Q t') :
    Prog.Triple StoreStep C E (· = t) (Store.transact w) fun _ => Q := by
  refine .op (fun _ h => h ▸ hC)
    (fun r t' => (t.apply w = .ok t' ∧ r = .ok ()) ∨ (t' = t ∧ ∃ e, r = .error e)) (fun s r s' h hs => ?_) fun r => ?_
  · subst h
    exact hs
  · refine .ofExcept (fun s h => ?_) (fun a ha s h => ?_) fun e he s h => ?_
    · rcases h with ⟨h, -⟩ | ⟨rfl, -⟩
      · exact (hw s h).1
      · exact hC
    · rcases h with ⟨h, -⟩ | ⟨-, e, hr⟩
      · exact (hw s h).2
      · cases ha.symm.trans hr
    · rcases h with ⟨-, hr⟩ | ⟨rfl, -⟩
      · cases he.symm.trans hr
      · exact hE e

/-- A call that rewrites a row returns early, or after its write. -/
theorem rewriteRow_triple {id : String} {check : Action → Except RuntimeError Bool}
    {document : Action → Except RuntimeError Document} {write : Action → Document → Int → Write} {Q : Tables → Prop}
    (hC : C t) (hE : ∀ e, E e t) (hq : ∀ a, t.find id = some a → check a = .ok true → Q t)
    (hw : ∀ a d time t', t.find id = some a → check a = .ok false → document a = .ok d →
      t.apply (write a d time) = .ok t' → C t' ∧ Q t') :
    Prog.Triple StoreStep C E (· = t) (rewriteRow id check document write) fun _ => Q := by
  have hc : ∀ s, s = t → C s := fun s h => h ▸ hC
  have he : ∀ e s, s = t → E e s := fun e s h => h ▸ hE e
  refine (action_triple hC hE id).bind_of fun stored hf => ?_
  cases stored with
  | none => exact .fail hc (he _)
  | some a =>
    refine .ofExcept_bind hc he fun b hb => ?_
    cases b with
    | true => exact .done hc fun s h => h ▸ hq a hf.symm hb
    | false =>
      refine .ofExcept_bind hc he fun d hd => ?_
      refine (now_triple hC).bind_of fun time _ => ?_
      exact transact_triple hC hE fun t' ht => hw a d time t' hf.symm hb hd ht

end

end Store

theorem After.of_find {c : StoreCall} {t t' : Tables} {w : Write} (hm : c.Makes w)
    (hf : t.find c.actionID = some w.action) (ha : t.apply w = .ok t') : After c t t' := by
  obtain ⟨-, hi⟩ := t.find_eq_some hf
  have hi' : t.find w.action.actionID = some w.action := hi ▸ hf
  refine .inr ⟨w, hi, hm, ?_, ha⟩
  cases w with
  | insertAction a now =>
    rcases Tables.apply_actions ha with ⟨a, now, hw, hn, -⟩ | ⟨hw, -⟩
    · cases hw
      obtain ⟨⟨r, hr, hra⟩, -⟩ := t.find_eq_some hf
      exact absurd (congrArg Action.actionID hra) (hn r hr).1
    · exact absurd rfl (hw a now)
  | recordSigned | observe | succeed => exact hi'

omit [Digests] in
@[simp] theorem Store.normalised_actionID (a : Action) : (Store.normalised a).actionID = a.actionID := by
  rw [Store.normalised]

/-- A call does nothing to the tables, or one write that lands, however it ends. -/
theorem StoreCall.triple (c : StoreCall) (t : Tables) :
    Prog.Triple StoreStep (After c t) (fun _ => After c t) (· = t) c.prog fun _ => After c t := by
  have hC : After c t t := .inl rfl
  have hE : RuntimeError → After c t t := fun _ => hC
  have hc : ∀ s, s = t → After c t s := fun s h => h ▸ hC
  have hw {w : Write} {t'} (hm : c.Makes w) (hf : t.find c.actionID = some w.action) (ha : t.apply w = .ok t') :
      After c t t' ∧ After c t t' := and_self_iff.mpr (.of_find hm hf ha)
  cases c with
  | intend a =>
    rw [StoreCall.prog, Store.intend]
    refine .bind (Q := fun _ => After _ t) (.ofExcept_bind hc (fun _ => hc) fun _ hv => ?_) fun _ =>
      .done (fun _ h => h) fun _ h => h
    refine (Store.action_triple hC hE _).bind_of fun stored hf => ?_
    cases stored with
    | some stored => exact .ofExcept_bind hc (fun _ => hc) fun _ _ => .done hc hc
    | none =>
      refine (Store.now_triple hC).bind_of fun time _ => ?_
      have hi {t'} (ht : t.apply (.insertAction (Store.normalised a) time) = .ok t') :
          After (.intend a) t t' :=
        .inr ⟨.insertAction (Store.normalised a) time, Store.normalised_actionID a, .intend hv, hf.symm, ht⟩
      refine .bind (Store.transact_triple hC hE fun t' ht => ⟨hi ht, hi ht⟩) fun _ => ?_
      refine .of_states fun s hs => (Store.action_triple hs (fun _ => hs) _).weaken (fun _ h => h) ?_
      exact fun _ _ h => h.1 ▸ hs
  | recordSigned id raw hash =>
    rw [StoreCall.prog, Store.recordSigned]
    refine .ofExcept_bind hc (fun _ => hc) fun canonical hr => ?_
    exact Store.rewriteRow_triple hC hE
      (fun _ _ _ => hC) fun a d time t' hf hb hd ht => hw (.recordSigned hr hb hd) hf ht
  | observe id s detail =>
    rw [StoreCall.prog, Store.observe]
    refine .ofExcept_bind hc (fun _ => hc) fun n hn => ?_
    exact Store.rewriteRow_triple hC hE (fun _ _ _ => hC) fun a d time t' hf hb hd ht =>
      hw (.observe hn hb hd) hf ht
  | succeed id r =>
    rw [StoreCall.prog, Store.succeed]
    refine .ofExcept_bind hc (fun _ => hc) fun canonical hr => ?_
    exact Store.rewriteRow_triple hC hE (fun _ _ _ => hC) fun a d time t' hf hb hd ht => hw (.succeed hr hb hd) hf ht

/-- What the database answers to a single process, at a time of the clock. -/
def Tables.answer (time : Int) : ∀ op : StoreOp, Tables → op.Answer × Tables
  | .action actionID, t => (.ok (t.find actionID), t)
  | .maxActionNonce chainID sender, t => (.ok (t.maxNonce chainID sender), t)
  | .now, t => (time, t)
  | .transact w, t =>
    match t.apply w with
    | .ok t' => (.ok (), t')
    | .error e => (.error e, t)

omit [Unicode] in
theorem Tables.answer_step (time : Int) (op : StoreOp) (t : Tables) :
    StoreStep op t (t.answer time op).1 (t.answer time op).2 := by
  cases op with
  | action | maxActionNonce => exact ⟨rfl, .inl rfl⟩
  | now => exact rfl
  | transact w =>
    cases h : t.apply w with
    | ok t' =>
      left
      simp only [answer, h, and_self]
    | error e =>
      right
      simp only [answer, h]
      exact ⟨trivial, e, rfl⟩

/-- A call of a single process: what it returns, and the tables then. -/
def StoreCall.run (c : StoreCall) (time : Int) (t : Tables) : Except RuntimeError Unit × Tables :=
  c.prog.run (fun op t => t.answer time op) t

theorem StoreCall.run_after (c : StoreCall) (time : Int) (t : Tables) : After c t (c.run time t).2 := by
  have hexec : Prog.Exec StoreStep c.prog t _ _ := Prog.exec_run (Tables.answer_step time) c.prog t
  have h := (c.triple t).ends rfl hexec
  rw [StoreCall.run]
  generalize c.prog.run (fun op t => t.answer time op) t = r at h ⊢
  obtain ⟨_ | _, _⟩ := r <;> exact h

/-- A step of a ledger that one process uses: a call, and the time of its write. -/
def LedgerStep (t : Tables) (e : StoreCall × Int) (t' : Tables) : Prop := t' = (e.1.run e.2 t).2

/-- A step by a call that returns no error. -/
def AcceptedStep (t : Tables) (e : StoreCall × Int) (t' : Tables) : Prop := e.1.run e.2 t = (.ok (), t')

/-! ## What a call of a single process returns -/

namespace Store

section

omit [Unicode]

variable {t t' : Tables} {time : Int} {id : String}

theorem action_run (h : id ≠ "") : (Store.action id).run (fun op t => t.answer time op) t = (.ok (t.find id), t) := by
  rw [Store.action, revertIf, if_neg h]
  rfl

theorem now_run : Store.now.run (fun op t => t.answer time op) t = (.ok time, t) := rfl

theorem transact_run (w : Write) :
    (Store.transact w).run (fun op t => t.answer time op) t =
      match t.apply w with
      | .ok t' => (.ok (), t')
      | .error e => (.error e, t) := by
  rw [Store.transact, Prog.run_op]
  rcases h : t.apply w with e | t' <;> simp only [Tables.answer, h, Prog.run_ofExcept]

variable {check : Action → Except RuntimeError Bool} {document : Action → Except RuntimeError Document}
  {write : Action → Document → Int → Write} {a : Action}

theorem rewriteRow_run (hid : id ≠ "") (hf : t.find id = some a) :
    (rewriteRow id check document write).run (fun op t => t.answer time op) t =
      match check a with
      | .error e => (.error e, t)
      | .ok true => (.ok (), t)
      | .ok false =>
        match document a with
        | .error e => (.error e, t)
        | .ok d =>
          match t.apply (write a d time) with
          | .ok t' => (.ok (), t')
          | .error e => (.error e, t) := by
  rw [rewriteRow, Prog.run_bind, action_run hid, hf]
  simp only [Prog.run_ofExcept_bind]
  rcases check a with e | b
  · rfl
  · cases b with
    | true => rfl
    | false =>
      rcases document a with e | d
      · rfl
      · exact transact_run (write a d time)

/-- A call that rewrites a row is accepted if it returns at once, or its write is made. -/
theorem rewriteRow_eq_ok
    (h : (rewriteRow id check document write).run (fun op t => t.answer time op) t = (.ok (), t')) :
    id ≠ "" ∧ ∃ a, t.find id = some a ∧
      (check a = .ok true ∧ t' = t ∨
        ∃ d, check a = .ok false ∧ document a = .ok d ∧ t.apply (write a d time) = .ok t') := by
  by_cases hid : id = ""
  · subst hid
    cases h
  refine ⟨hid, ?_⟩
  cases hf : t.find id with
  | none =>
    rw [rewriteRow, Prog.run_bind, action_run hid, hf] at h
    cases h
  | some a =>
    refine ⟨a, rfl, ?_⟩
    rw [rewriteRow_run hid hf] at h
    rcases hc : check a with e | b
    · simp only [hc] at h
      cases h
    cases b with
    | true =>
      simp only [hc] at h
      exact .inl ⟨rfl, (Prod.ext_iff.mp h).2.symm⟩
    | false =>
      rcases hd : document a with e | d
      · simp only [hc, hd] at h
        cases h
      rcases ha : t.apply (write a d time) with e | u
      · simp only [hc, hd, ha] at h
        cases h
      · simp only [hc, hd, ha] at h
        exact .inr ⟨d, rfl, rfl, ha.trans (congrArg Except.ok (Prod.ext_iff.mp h).2)⟩

end

variable {t : Tables} {time : Int} {a : Action}

theorem intend_run_new (hv : validateIntend a = .ok ()) (hf : t.find a.actionID = none) :
    (StoreCall.intend a).run time t =
      match t.apply (.insertAction (normalised a) time) with
      | .ok t' => (.ok (), t')
      | .error e => (.error e, t) := by
  have hid : (normalised a).actionID ≠ "" := by
    rw [normalised_actionID]
    exact (validateIntend_eq_ok.mp hv).1.actionID_ne
  rw [← normalised_actionID] at hf
  rw [StoreCall.run, StoreCall.prog, intend, hv]
  simp only [Prog.run_bind, Prog.run_ofExcept, action_run hid, hf, now_run, transact_run]
  rcases t.apply (.insertAction (normalised a) time) with e | t'
  · rfl
  · simp only [Prog.run_pure]

theorem intend_run_stored {stored : Action} (hv : validateIntend a = .ok ()) (hf : t.find a.actionID = some stored) :
    (StoreCall.intend a).run time t =
      match sameFrozenIdentity stored (normalised a) with
      | .ok () => (.ok (), t)
      | .error e => (.error e, t) := by
  have hid : (normalised a).actionID ≠ "" := by
    rw [normalised_actionID]
    exact (validateIntend_eq_ok.mp hv).1.actionID_ne
  rw [← normalised_actionID] at hf
  rw [StoreCall.run, StoreCall.prog, intend, hv]
  simp only [Prog.run_bind, Prog.run_ofExcept, action_run hid, hf]
  rcases sameFrozenIdentity stored (normalised a) with e | u <;> rfl

end Store

/-- The check that a call makes of its arguments alone. -/
def StoreCall.checkArguments : StoreCall → Except RuntimeError Unit
  | intend requested => Store.validateIntend requested
  | recordSigned actionID rawTx txHash => (Store.checkRaw actionID rawTx txHash).map fun _ => ()
  | observe _ stateName _ => (actionRank stateName).map fun _ => ()
  | succeed actionID result => (Store.checkResult actionID result).map fun _ => ()

theorem StoreCall.run_arguments {c : StoreCall} {time : Int} {t : Tables} {e : RuntimeError}
    (h : c.checkArguments = .error e) : c.run time t = (.error e, t) := by
  have hmap {α : Type} (x : Except RuntimeError α) (hx : (x.map fun _ => ()) = .error e) : x = .error e := by
    cases x with
    | error => exact congrArg Except.error (Except.error.inj hx)
    | ok => cases hx
  cases c with
  | intend a =>
    rw [checkArguments] at h
    rw [run, prog, Store.intend, h]
    rfl
  | recordSigned id raw hash =>
    rw [checkArguments] at h
    rw [run, prog, Store.recordSigned, hmap (Store.checkRaw id raw hash) h]
    rfl
  | observe id s d =>
    rw [checkArguments] at h
    rw [run, prog, Store.observe, hmap (actionRank s) h]
    rfl
  | succeed id r =>
    rw [checkArguments] at h
    rw [run, prog, Store.succeed, hmap (Store.checkResult id r) h]
    rfl

/-! ## What an accepted call has done -/

section

variable {t t' : Tables} {time : Int}

omit [Unicode] in
/-- A computation that asks nothing succeeds before the rest of a program that is accepted. -/
theorem run_ofExcept_bind_eq_ok {α : Type} {x : Except RuntimeError α} {f : α → StoreProg Unit}
    (h : (Prog.ofExcept x >>= f).run (fun op t => t.answer time op) t = (.ok (), t')) :
    ∃ a, x = .ok a ∧ (f a).run (fun op t => t.answer time op) t = (.ok (), t') := by
  rw [Prog.run_ofExcept_bind] at h
  cases x with
  | ok a => exact ⟨a, rfl, h⟩
  | error e => cases h

theorem intend_eq_ok {requested : Action} (h : AcceptedStep t (.intend requested, time) t') :
    Store.validateIntend requested = .ok () ∧
      ((∃ a, t.find requested.actionID = some a ∧ SameIntent a (Store.normalised requested) ∧ t' = t) ∨
        Lands (.intend requested) t (.insertAction (Store.normalised requested) time) t') := by
  rw [AcceptedStep] at h
  rcases hv : Store.validateIntend requested with e | u
  · rw [StoreCall.run_arguments (c := .intend requested) hv] at h
    cases h
  refine ⟨rfl, ?_⟩
  cases hf : t.find requested.actionID with
  | some stored =>
    rw [Store.intend_run_stored hv hf] at h
    rcases hs : Store.sameFrozenIdentity stored (Store.normalised requested) with e | u
    · simp only [hs] at h
      cases h
    · simp only [hs] at h
      exact .inl ⟨stored, rfl, sameFrozenIdentity_eq_ok.mp hs, (Prod.ext_iff.mp h).2.symm⟩
  | none =>
    rw [Store.intend_run_new hv hf] at h
    rcases ha : t.apply (.insertAction (Store.normalised requested) time) with e | u
    · simp only [ha] at h
      cases h
    · simp only [ha] at h
      obtain rfl : u = t' := (Prod.ext_iff.mp h).2
      have hn : t.find (Store.normalised requested).actionID = none := by rwa [Store.normalised_actionID]
      exact .inr ⟨.intend hv, hn, ha⟩

theorem recordSigned_eq_ok {id hash : String} {raw : GoBytes}
    (h : AcceptedStep t (.recordSigned id raw hash, time) t') :
    ∃ canonical, Store.checkRaw id raw hash = .ok canonical ∧ ∃ a, t.find id = some a ∧
      (Store.checkSigned a raw canonical = .ok true ∧ t' = t ∨
        ∃ d, Lands (.recordSigned id raw hash) t (.recordSigned a raw canonical d time) t') := by
  rw [AcceptedStep, StoreCall.run, StoreCall.prog, Store.recordSigned] at h
  obtain ⟨canonical, harg, h⟩ := run_ofExcept_bind_eq_ok h
  obtain ⟨-, a, hf, hok⟩ := Store.rewriteRow_eq_ok h
  refine ⟨canonical, harg, a, hf, hok.imp_right fun ⟨d, hc, hd, ha⟩ => ⟨d, .recordSigned harg hc hd, ?_, ha⟩⟩
  obtain ⟨-, rfl⟩ := t.find_eq_some hf
  exact hf

theorem observe_eq_ok {id : String} {s : ActionState} {detail : Members}
    (h : AcceptedStep t (.observe id s detail, time) t') :
    ∃ a, t.find id = some a ∧
      (Store.checkObserved a s detail = .ok true ∧ t' = t ∨
        ∃ d, Lands (.observe id s detail) t (.observe a s d time) t') := by
  rw [AcceptedStep, StoreCall.run, StoreCall.prog, Store.observe] at h
  obtain ⟨n, harg, h⟩ := run_ofExcept_bind_eq_ok h
  obtain ⟨-, a, hf, hok⟩ := Store.rewriteRow_eq_ok h
  refine ⟨a, hf, hok.imp_right fun ⟨d, hc, hd, ha⟩ => ⟨d, .observe harg hc hd, ?_, ha⟩⟩
  obtain ⟨-, rfl⟩ := t.find_eq_some hf
  exact hf

theorem succeed_eq_ok {id : String} {r : ActionResult} (h : AcceptedStep t (.succeed id r, time) t') :
    ∃ canonical, Store.checkResult id r = .ok canonical ∧ id ≠ "" ∧ ∃ a, t.find id = some a ∧
      (Store.checkSucceeded a canonical r = .ok true ∧ t' = t ∨
        ∃ d, Lands (.succeed id r) t (.succeed a canonical r d time) t') := by
  rw [AcceptedStep, StoreCall.run, StoreCall.prog, Store.succeed] at h
  obtain ⟨canonical, harg, h⟩ := run_ofExcept_bind_eq_ok h
  obtain ⟨hid, a, hf, hok⟩ := Store.rewriteRow_eq_ok h
  refine ⟨canonical, harg, hid, a, hf, hok.imp_right fun ⟨d, hc, hd, ha⟩ => ⟨d, .succeed harg hc hd, ?_, ha⟩⟩
  obtain ⟨-, rfl⟩ := t.find_eq_some hf
  exact hf

end

end Xir.Impl
