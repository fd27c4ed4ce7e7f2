import Xir.Framework.Threads
import Xir.Proof.Replay

/-!
# Calls of the ledger that run at the same time

A call reads its row in one critical section and writes it in a later one, so
another call may come between. Where what a write has read of the progress of
its row, the state and the signed bytes with their hash, is still there
(`Undisturbed`), an action goes on as its row does under a single caller
(`progress_of_run`); else a broadcast that is recorded late takes a success back
(`observe_late`).
-/

namespace Xir.Impl

variable [Unicode] [Digests]

/-- Two versions of a row with the same progress. -/
structure SameProgress (a b : Action) : Prop where
  state : a.state = b.state
  raw : a.rawTransactionHex = b.rawTransactionHex
  hash : a.transactionHash = b.transactionHash

/-- How the row of an action may go on: its rank does not decrease, a terminal state stays, and so
do signed bytes, with their hash. -/
structure Progress (a b : Action) : Prop where
  rank_le {m n : Nat} : actionRank a.state = .ok m → actionRank b.state = .ok n → m ≤ n
  terminal : a.state = .succeeded ∨ a.state = .failed → b.state = a.state
  signed : a.rawTransactionHex ≠ "" →
    b.rawTransactionHex = a.rawTransactionHex ∧ b.transactionHash = a.transactionHash

namespace Progress

omit [Unicode] [Digests]

theorem refl (a : Action) : Progress a a where
  rank_le hm hn := (Except.ok.inj (hm.symm.trans hn)).le
  terminal _ := rfl
  signed _ := ⟨rfl, rfl⟩

theorem trans {a b c : Action} (h : Progress a b) (h' : Progress b c) (hb : ∃ n, actionRank b.state = .ok n) :
    Progress a c where
  rank_le hm hn := by
    obtain ⟨k, hk⟩ := hb
    exact (h.rank_le hm hk).trans (h'.rank_le hk hn)
  terminal ha := by
    have hb := h.terminal ha
    exact (h'.terminal (hb ▸ ha)).trans hb
  signed ha := by
    obtain ⟨hr, hh⟩ := h.signed ha
    obtain ⟨hr', hh'⟩ := h'.signed (hr ▸ ha)
    exact ⟨hr'.trans hr, hh'.trans hh⟩

/-- Versions with the same progress may go on to the same. -/
theorem congr {a a' b b' : Action} (h : Progress a b) (ha : SameProgress a a') (hb : SameProgress b b') :
    Progress a' b' where
  rank_le hm hn := h.rank_le (ha.state ▸ hm) (hb.state ▸ hn)
  terminal ht := by
    rw [← ha.state] at ht ⊢
    exact hb.state ▸ h.terminal ht
  signed hr := by
    rw [← ha.raw] at hr
    obtain ⟨h₁, h₂⟩ := h.signed hr
    exact ⟨hb.raw.symm.trans (h₁.trans ha.raw), hb.hash.symm.trans (h₂.trans ha.hash)⟩

end Progress

theorem RowStep.progress {a b : Action} (h : RowStep a b) (ha : RowOk a) : Progress a b :=
  ⟨h.rank_le, h.terminal, h.signed ha⟩

omit [Unicode] in
theorem RowOk.congr {a b : Action} (h : RowOk a) (hab : SameProgress a b) : RowOk b where
  rank := hab.state ▸ h.rank
  raw := by
    rw [← hab.raw, ← hab.state, ← hab.hash]
    exact h.raw
  signed := by
    rw [← hab.raw, ← hab.state]
    exact h.signed
  hash := by
    rw [← hab.state, ← hab.hash]
    exact h.hash

omit [Unicode] [Digests] in
/-- What a write makes of a version of the row with the progress that was read. -/
theorem Write.set_sameProgress (w : Write) {b : Action} (h : SameProgress w.action b) :
    SameProgress w.result (w.set b) := by
  cases w with
  | insertAction => exact ⟨rfl, rfl, rfl⟩
  | recordSigned => exact ⟨rfl, rfl, rfl⟩
  | observe a s m now => exact ⟨rfl, h.raw, h.hash⟩
  | succeed a c r m now =>
    refine ⟨rfl, h.raw, ?_⟩
    show (if c = "" then a.transactionHash else c) = if c = "" then b.transactionHash else c
    rw [show a.transactionHash = b.transactionHash from h.hash]

/-! ## Concurrent callers -/

/-- Any number of callers of one store. -/
abbrev Callers (τ : Type) := Threads τ Tables StoreOp StoreOp.Answer RuntimeError Unit

abbrev CallerEvent (τ : Type) := Threads.Event τ StoreCall StoreOp

variable {τ : Type} [DecidableEq τ]

abbrev CallerStep : Callers τ → CallerEvent τ → Callers τ → Prop := Threads.Step StoreStep StoreCall.prog

/-- An empty ledger, before any call. -/
def Callers.initial : Callers τ := ⟨Tables.empty, fun _ => .done ()⟩

/-- The write that is made, if any, finds the progress that its call has read. -/
def Undisturbed (s : Callers τ) : CallerEvent τ → Prop
  | .answer _ (.transact w) => ∀ t b, s.shared.apply w = .ok t → s.shared.find w.action.actionID = some b →
      SameProgress w.action b
  | _ => True

/-- A step whose write, if any, is undisturbed. -/
def UndisturbedStep (s : Callers τ) (e : CallerEvent τ) (s' : Callers τ) : Prop := Undisturbed s e ∧ CallerStep s e s'

/-! ## What a step does to the rows -/

/-- A write that finds the progress that its call has read. -/
theorem Write.progress {c : StoreCall} {w : Write} {t t' : Tables} (hm : c.Makes w) (ht : RowsOk t)
    (h : t.apply w = .ok t')
    (hr : ∀ b, t.find w.action.actionID = some b → SameProgress w.action b) :
    RowsOk t' ∧ ∀ id b, t.find id = some b → ∃ b', t'.find id = some b' ∧ Progress b b' := by
  by_cases hw : ∃ a now, w = .insertAction a now
  · obtain ⟨a, now, rfl⟩ := hw
    obtain ⟨hn, hf⟩ := Tables.find_insert h
    have ha : RowOk a := by
      cases hm with
      | intend hv => exact .normalised hv
    constructor
    · intro id b hb
      rw [hf] at hb
      by_cases hid : id = a.actionID
      · rw [hid, Function.update_self] at hb
        exact Option.some.inj hb ▸ ha
      · rw [Function.update_of_ne hid] at hb
        exact ht hb
    · intro id b hb
      have hid : id ≠ a.actionID := by
        rintro rfl
        cases hn.symm.trans hb
      exact ⟨b, by rw [hf, Function.update_of_ne hid, hb], .refl b⟩
  · have hw' : ∀ a now, w ≠ .insertAction a now := fun a now he => hw ⟨a, now, he⟩
    have hstep : RowStep w.action w.result := .write hm hw' rfl
    have hset {b : Action} (hb : t.find w.action.actionID = some b) :
        RowOk (w.set b) ∧ Progress b (w.set b) := by
      have hs := hr b hb
      have hok : RowOk w.action := (ht hb).congr ⟨hs.state.symm, hs.raw.symm, hs.hash.symm⟩
      exact ⟨(hstep.rowOk hok).congr (w.set_sameProgress hs), (hstep.progress hok).congr hs (w.set_sameProgress hs)⟩
    have hf := Tables.find_update hw' h
    constructor
    · intro id b' hb'
      rw [hf] at hb'
      obtain ⟨b, hb, rfl⟩ := Option.map_eq_some_iff.mp hb'
      by_cases hid : id = w.action.actionID
      · subst hid
        rw [if_pos rfl]
        exact (hset hb).1
      · rw [if_neg hid]
        exact ht hb
    · intro id b hb
      by_cases hid : id = w.action.actionID
      · subst hid
        exact ⟨w.set b, by rw [hf, hb, Option.map_some, if_pos rfl], (hset hb).2⟩
      · exact ⟨b, by rw [hf, hb, Option.map_some, if_neg hid], .refl b⟩

/-- What holds of concurrent callers in every run. -/
structure CallersOk (s : Callers τ) : Prop where
  asking : s.Asking StoreCall.Allows
  rows : RowsOk s.shared

omit [DecidableEq τ] in
theorem CallersOk.initial : CallersOk (Callers.initial : Callers τ) where
  asking _ := ⟨.intend bareIntent, .done ()⟩
  rows := RowsOk.empty

theorem CallersOk.step {s s' : Callers τ} {e : CallerEvent τ} (h : CallersOk s) (hs : UndisturbedStep s e s') :
    CallersOk s' ∧ ∀ id b, s.shared.find id = some b → ∃ b', s'.shared.find id = some b' ∧ Progress b b' := by
  obtain ⟨hu, hs⟩ := hs
  have hasking := Threads.Asking.of_step StoreCall.asks h.asking hs
  have hkeep {t : Tables} (ht : t = s.shared) :
      RowsOk t ∧ ∀ id b, s.shared.find id = some b → ∃ b', t.find id = some b' ∧ Progress b b' := by
    subst ht
    exact ⟨h.rows, fun _ b hb => ⟨b, hb, .refl b⟩⟩
  suffices hrows : RowsOk s'.shared ∧
      ∀ id b, s.shared.find id = some b → ∃ b', s'.shared.find id = some b' ∧ Progress b b' from
    ⟨⟨hasking, hrows.1⟩, hrows.2⟩
  cases hs with
  | start => exact hkeep rfl
  | @answer i op k r t asked answered =>
    obtain ⟨c, hc⟩ := h.asking.asked asked
    cases op with
    | action | maxActionNonce => exact hkeep answered.1
    | now => exact hkeep answered
    | transact w =>
      rcases answered with ⟨ha, -⟩ | ⟨ht, -⟩
      · exact Write.progress hc h.rows ha (hu t · ha)
      · exact hkeep ht

/-- Where every write finds the progress that its call has read, no action ever goes back. -/
theorem progress_of_run {s s' : Callers τ} {es es' : List (CallerEvent τ)}
    (h : Run UndisturbedStep Callers.initial es s) (h' : Run UndisturbedStep s es' s') {actionID : String} {a : Action}
    (ha : s.shared.find actionID = some a) : ∃ a', s'.shared.find actionID = some a' ∧ Progress a a' := by
  have hs : CallersOk s :=
    h.inv (I := CallersOk) (C := fun _ => True) (fun _ hi hs => (hi.step hs).1) (fun _ _ => trivial) .initial
  clear h
  induction h' generalizing a with
  | nil => exact ⟨a, ha, .refl a⟩
  | cons hstep _ ih =>
    obtain ⟨hs', hrow⟩ := hs.step hstep
    obtain ⟨b, hb, hab⟩ := hrow actionID a ha
    obtain ⟨a', ha', hba'⟩ := ih hb hs'
    exact ⟨a', ha', hab.trans hba' (hs'.rows hb).rank⟩

/-! ## The operations of a call -/

omit [Unicode] [Digests] in
/-- A call that rewrites a row reads it first, and then writes if its checks pass. -/
theorem rewriteRow_op {id : String} {check : Action → Except RuntimeError Bool}
    {document : Action → Except RuntimeError Document} {write : Action → Document → Int → Write} (hid : id ≠ "") :
    ∃ k, Store.rewriteRow id check document write = .op (.action id) k ∧
      ∀ a d, check a = .ok false → document a = .ok d →
        ∃ g, k (.ok (some a)) = .op .now g ∧ ∀ time, g time = .op (.transact (write a d time)) Prog.ofExcept := by
  rw [Store.rewriteRow, Store.action, revertIf, if_neg hid]
  refine ⟨_, rfl, fun a d hc hd => ⟨fun time => .op (.transact (write a d time)) Prog.ofExcept, ?_, fun _ => rfl⟩⟩
  show (Prog.ofExcept (check a) >>= _) = _
  rw [hc]
  show (Prog.ofExcept (document a) >>= _) = _
  rw [hd]
  rfl

theorem intend_op {a : Action} (hv : Store.validateIntend a = .ok ()) :
    ∃ k, (StoreCall.intend a).prog = .op (.action (Store.normalised a).actionID) k ∧
      ∃ (g : Int → StoreProg Unit) (k' : Int → Except RuntimeError Unit → StoreProg Unit), k (.ok none) = .op .now g ∧
        ∀ time, g time = .op (.transact (.insertAction (Store.normalised a) time)) (k' time) := by
  have hid : (Store.normalised a).actionID ≠ "" := by
    rw [Store.normalised_actionID]
    exact (validateIntend_eq_ok.mp hv).1.actionID_ne
  rw [StoreCall.prog, Store.intend, hv]
  show ∃ k, ((Store.action (Store.normalised a).actionID >>= _) >>= _) = Prog.op _ k ∧ _
  rw [Store.action, revertIf, if_neg hid]
  exact ⟨_, rfl, _, _, rfl, fun _ => rfl⟩

/-! ## Undisturbed steps -/

namespace UndisturbedStep

variable {s : Callers τ} {i : τ}

theorem start (c : StoreCall) :
    UndisturbedStep s (.start i c) ⟨s.shared, Function.update s.progs i c.prog⟩ := ⟨trivial, .start⟩

theorem read {id : String} {k : Except RuntimeError (Option Action) → StoreProg Unit}
    (h : s.progs i = .op (.action id) k) :
    UndisturbedStep s (.answer i (.action id))
      ⟨s.shared, Function.update s.progs i (k (.ok (s.shared.find id)))⟩ := by
  have ha : StoreStep (.action id) s.shared (.ok (s.shared.find id)) s.shared := ⟨rfl, .inl rfl⟩
  exact ⟨trivial, .answer h ha⟩

theorem clock {k : Int → StoreProg Unit} (h : s.progs i = .op .now k) (time : Int) :
    UndisturbedStep s (.answer i .now) ⟨s.shared, Function.update s.progs i (k time)⟩ := by
  have ha : StoreStep .now s.shared time s.shared := rfl
  exact ⟨trivial, .answer h ha⟩

theorem commit {w : Write} {k : Except RuntimeError Unit → StoreProg Unit} {t : Tables}
    (h : s.progs i = .op (.transact w) k) (ht : s.shared.apply w = .ok t)
    (hu : ∀ b, s.shared.find w.action.actionID = some b → SameProgress w.action b) :
    UndisturbedStep s (.answer i (.transact w)) ⟨t, Function.update s.progs i (k (.ok ()))⟩ := by
  have ha : StoreStep (.transact w) s.shared (.ok ()) t := .inl ⟨ht, rfl⟩
  exact ⟨fun _ b _ hb => hu b hb, .answer h ha⟩

end UndisturbedStep

/-! ## Calls on the one row -/

omit [Unicode] [Digests] in
theorem progs_self (t : Tables) (progs : τ → StoreProg Unit) (i : τ) (p : StoreProg Unit) :
    (⟨t, Function.update progs i p⟩ : Callers τ).progs i = p := Function.update_self ..

/-- The first row, written by one caller. -/
theorem bareIntent_steps (i : τ) (progs : τ → StoreProg Unit) : ∃ es progs',
    Run UndisturbedStep ⟨Tables.empty, progs⟩ es ⟨Tables.single ⟨bareRow, 0, 0⟩, progs'⟩ := by
  obtain ⟨k, hk, g, k', hg, hk'⟩ := intend_op bareIntent_valid
  have hnone : Tables.empty.find (Store.normalised bareIntent).actionID = none := rfl
  have h₁ : UndisturbedStep ⟨Tables.empty, progs⟩ (.start i (.intend bareIntent))
      ⟨Tables.empty, Function.update progs i (StoreCall.intend bareIntent).prog⟩ := .start _
  have h₂ := UndisturbedStep.read ((progs_self Tables.empty progs i _).trans hk)
  simp only [hnone, hg, Function.update_idem] at h₂
  have h₃ := UndisturbedStep.clock (progs_self Tables.empty progs i (.op .now g)) 0
  simp only [hk', Function.update_idem] at h₃
  have h₄ := UndisturbedStep.commit (progs_self Tables.empty progs i (.op _ (k' 0))) (bareIntent_apply 0)
    fun b hb => (by cases hnone.symm.trans hb)
  exact ⟨_, _, .cons h₁ (.cons h₂ (.cons h₃ (.single h₄)))⟩

/-- A call that rewrites the one row, up to its write. -/
theorem rewriteRow_reads {r : ActionRow} {check : Action → Except RuntimeError Bool}
    {document : Action → Except RuntimeError Document} {write : Action → Document → Int → Write} {d : Document}
    (hid : r.action.actionID ≠ "") (hc : check r.action = .ok false) (hd : document r.action = .ok d) {i : τ}
    {progs : τ → StoreProg Unit} (hp : progs i = Store.rewriteRow r.action.actionID check document write) (time : Int) :
    ∃ es, Run UndisturbedStep ⟨Tables.single r, progs⟩ es
      ⟨Tables.single r, Function.update progs i (.op (.transact (write r.action d time)) Prog.ofExcept)⟩ := by
  obtain ⟨k, hk, hop⟩ := rewriteRow_op hid
  obtain ⟨g, hg, hw⟩ := hop r.action d hc hd
  have h₁ := UndisturbedStep.read (s := ⟨Tables.single r, progs⟩) (hp.trans hk)
  simp only [Tables.single_find, hg] at h₁
  have h₂ := UndisturbedStep.clock (progs_self (Tables.single r) progs i (.op .now g)) time
  simp only [hw, Function.update_idem] at h₂
  exact ⟨_, .cons h₁ (.single h₂)⟩

/-- A call that rewrites the one row while no other call does. -/
theorem rewriteRow_steps {r : ActionRow} {check : Action → Except RuntimeError Bool}
    {document : Action → Except RuntimeError Document} {write : Action → Document → Int → Write} {d : Document}
    (hid : r.action.actionID ≠ "") (ha : r.action.attemptID = "") (hc : check r.action = .ok false)
    (hd : document r.action = .ok d) {i : τ} {progs : τ → StoreProg Unit}
    (hp : progs i = Store.rewriteRow r.action.actionID check document write) (time : Int)
    (hw : ∀ a now, write r.action d time ≠ .insertAction a now) (hr : (write r.action d time).action = r.action) :
    ∃ es progs', Run UndisturbedStep ⟨Tables.single r, progs⟩ es
      ⟨Tables.single ((write r.action d time).setRow r), progs'⟩ ∧ ∀ j, j ≠ i → progs' j = progs j := by
  obtain ⟨es, h₁⟩ := rewriteRow_reads hid hc hd hp time
  have happly := Tables.single_apply hw (congrArg Action.actionID hr.symm) ((congrArg Action.attemptID hr).trans ha)
  have hfound (b : Action) (hb : (Tables.single r).find (write r.action d time).action.actionID = some b) :
      SameProgress (write r.action d time).action b := by
    rw [hr, Tables.single_find] at hb
    obtain rfl := Option.some.inj hb
    rw [hr]
    exact ⟨rfl, rfl, rfl⟩
  have h₂ := UndisturbedStep.commit (progs_self (Tables.single r) progs i (.op _ Prog.ofExcept)) happly hfound
  simp only [Function.update_idem] at h₂
  exact ⟨_, _, h₁.append (.single h₂), fun j hj => Function.update_of_ne hj ..⟩

/-! ## Two callers of one action -/

/-- One caller records the bytes. Then it is to record the success while the other records the broadcast. -/
theorem twoCallers_steps : ∃ es es' progs progs',
    Run UndisturbedStep (Callers.initial : Callers Bool) es ⟨Tables.single ⟨signedRow, 0, 1⟩, progs⟩ ∧
      Run UndisturbedStep ⟨Tables.single ⟨signedRow, 0, 1⟩, progs⟩ es'
        ⟨Tables.single ⟨succeededRow, 0, 3⟩, progs'⟩ := by
  have hid : "action" ≠ "" := by decide
  obtain ⟨es₁, p₁, h₁⟩ := bareIntent_steps false fun _ => .done ()
  have h₂ := UndisturbedStep.start (s := ⟨Tables.single ⟨bareRow, 0, 0⟩, p₁⟩) (i := false)
    (.recordSigned "action" [7] (keccakHex [7]))
  have hp₂ := (Function.update_self false _ p₁).trans (StoreCall.recordSigned_prog checkRaw_seven)
  obtain ⟨es₃, p₃, h₃, -⟩ := rewriteRow_steps (r := ⟨bareRow, 0, 0⟩) hid rfl checkSigned_bareRow rfl hp₂ 1
    (fun _ _ => Write.noConfusion) rfl
  have h₄ := UndisturbedStep.start (s := ⟨Tables.single ⟨signedRow, 0, 1⟩, p₃⟩) (i := false)
    (.succeed "action" minedResult)
  have h₅ := UndisturbedStep.start (s := ⟨Tables.single ⟨signedRow, 0, 1⟩, Function.update p₃ false
    (StoreCall.succeed "action" minedResult).prog⟩) (i := true) (.observe "action" .submitted [])
  have hobserve : (StoreCall.observe "action" .submitted []).prog = Store.rewriteRow "action" _ _ _ :=
    StoreCall.observe_prog rfl
  have hp₅ :=
    (Function.update_self true _ (Function.update p₃ false (StoreCall.succeed "action" minedResult).prog)).trans
    hobserve
  obtain ⟨es₆, p₆, h₆, hkeep⟩ := rewriteRow_steps (r := ⟨signedRow, 0, 1⟩) hid rfl checkObserved_signedRow rfl hp₅ 2
    (fun _ _ => Write.noConfusion) rfl
  have hp₆ : p₆ false = (StoreCall.succeed "action" minedResult).prog :=
    (hkeep false Bool.noConfusion).trans
      ((Function.update_of_ne Bool.noConfusion ..).trans (Function.update_self false _ p₃))
  obtain ⟨es₇, p₇, h₇, -⟩ := rewriteRow_steps (r := ⟨{ signedRow with state := .submitted }, 0, 2⟩)
    (d := signedRow.detailJSON) hid rfl (checkSucceeded_minedResult (.inr rfl)) rfl
    (hp₆.trans (StoreCall.succeed_prog checkResult_minedResult)) 3 (fun _ _ => Write.noConfusion) rfl
  have hlast := congrArg (fun r => (⟨Tables.single r, p₇⟩ : Callers Bool)) (setRow_minedResult .submitted 0 2 3)
  exact ⟨_, _, _, _, h₁.append (.cons h₂ h₃), .cons h₄ (.cons h₅ (h₆.append (hlast ▸ h₇)))⟩

omit [Unicode] [Digests] in
theorem progress_of_run_twoCallers :
    let _ := asciiUnicode
    let _ := emptinessDigests
    ∃ (es es' : List (CallerEvent Bool)) (s s' : Callers Bool), Run UndisturbedStep Callers.initial es s ∧
      Run UndisturbedStep s es' s' ∧ s.shared.find "action" = some signedRow ∧
        s'.shared.find "action" = some succeededRow ∧ Progress signedRow succeededRow := by
  intro _ _
  obtain ⟨es, es', progs, progs', h, h'⟩ := twoCallers_steps
  obtain ⟨a', ha', hp⟩ := progress_of_run h h' (show (_ : Callers Bool).shared.find "action" = _ from rfl)
  obtain rfl : succeededRow = a' := Option.some.inj ha'
  exact ⟨es, es', _, _, h, h', rfl, rfl, hp⟩

/-! ## A broadcast that is recorded late -/

/-- A call that a caller makes without an interruption. -/
theorem callers_run (c : StoreCall) (time : Int) (i : τ) {t t' : Tables} (h : AcceptedStep t (c, time) t')
    (progs : τ → StoreProg Unit) :
    ∃ es progs', Run CallerStep ⟨t, progs⟩ es ⟨t', progs'⟩ ∧ ∀ j, j ≠ i → progs' j = progs j := by
  have hthread : ∃ es progs', Run CallerStep ⟨t, Function.update progs i c.prog⟩ es
      ⟨(c.prog.run (fun op t => t.answer time op) t).2, progs'⟩ ∧
        ∀ j, j ≠ i → progs' j = Function.update progs i c.prog j :=
    Threads.run_prog (Tables.answer_step time) i c.prog t _ (Function.update_self ..)
  obtain ⟨es, progs', hr, hj⟩ := hthread
  have ht : (c.prog.run (fun op t => t.answer time op) t).2 = t' := congrArg Prod.snd h
  rw [ht] at hr
  refine ⟨.start i c :: es, progs', .cons .start hr, fun j hne => ?_⟩
  rw [hj j hne, Function.update_of_ne hne]

/-- A caller records a broadcast after another one has recorded the success that came of it. -/
theorem late_steps : ∃ es es' progs progs',
    Run CallerStep (Callers.initial : Callers Bool) es ⟨Tables.single ⟨succeededRow, 0, 3⟩, progs⟩ ∧
      Run CallerStep ⟨Tables.single ⟨succeededRow, 0, 3⟩, progs⟩ es'
        ⟨Tables.single ⟨{ succeededRow with state := .submitted }, 0, 2⟩, progs'⟩ := by
  obtain ⟨es₁, p₁, h₁, -⟩ := callers_run (.intend bareIntent) 0 false (bareIntent_run 0) fun _ => .done ()
  obtain ⟨es₂, p₂, h₂, -⟩ := callers_run _ 1 false (signedRow_run 0 1) p₁
  have h₃ := UndisturbedStep.start (s := ⟨Tables.single ⟨signedRow, 0, 1⟩, p₂⟩) (i := true)
    (.observe "action" .submitted [])
  have hobserve : (StoreCall.observe "action" .submitted []).prog = Store.rewriteRow "action" _ _ _ :=
    StoreCall.observe_prog rfl
  obtain ⟨es₄, h₄⟩ := rewriteRow_reads (r := ⟨signedRow, 0, 1⟩) (d := signedRow.detailJSON)
    (by decide : "action" ≠ "") checkObserved_signedRow rfl ((Function.update_self true _ p₂).trans hobserve) 2
  obtain ⟨es₅, p₅, h₅, hkeep⟩ :=
    callers_run _ 3 false (succeededRow_run 0 1 3) (Function.update (Function.update p₂ true
    (StoreCall.observe "action" .submitted []).prog) true
      (.op (.transact (.observe signedRow .submitted signedRow.detailJSON 2)) Prog.ofExcept))
  have hasked : p₅ true = .op (.transact (.observe signedRow .submitted signedRow.detailJSON 2)) Prog.ofExcept :=
    (hkeep true Bool.noConfusion).trans (Function.update_self ..)
  have happly := Tables.single_apply (r := ⟨succeededRow, 0, 3⟩)
    (w := .observe signedRow .submitted signedRow.detailJSON 2) (fun _ _ => Write.noConfusion) rfl rfl
  have hanswer : StoreStep (.transact (.observe signedRow .submitted signedRow.detailJSON 2))
      (Tables.single ⟨succeededRow, 0, 3⟩) (.ok ())
      (Tables.single ⟨{ succeededRow with state := .submitted }, 0, 2⟩) := .inl ⟨happly, rfl⟩
  have hbefore := h₁.append (h₂.append (.cons h₃.2 ((h₄.imp And.right).append h₅)))
  exact ⟨_, _, _, _, hbefore, .single (.answer (s := ⟨_, p₅⟩) hasked hanswer)⟩

omit [Unicode] [Digests] in
/-- The success of an action is taken back. -/
theorem observe_late :
    let _ := asciiUnicode
    let _ := emptinessDigests
    ¬ ∀ (s s' : Callers Bool) (es es' : List (CallerEvent Bool)), Run CallerStep Callers.initial es s →
      Run CallerStep s es' s' → ∀ id a, s.shared.find id = some a →
        ∃ a', s'.shared.find id = some a' ∧ Progress a a' := by
  intro _ _ h
  obtain ⟨es, es', progs, progs', hr, hr'⟩ := late_steps
  obtain ⟨a', ha', hp⟩ := h _ _ _ _ hr hr' "action" succeededRow rfl
  have hstate : ActionState.submitted = a'.state := congrArg Action.state (Option.some.inj ha')
  cases hstate.trans (hp.terminal (.inl rfl))

end Xir.Impl
