import Xir.Proof.Rows

/-!
# Every row of the ledger can be verified

`verifyActionIdentity` asks more of a row than the calls that write it do: an
account of spaces only, a receipt digest without a path, and a success without a
signed transaction pass their checks. Where no call is one of these
(`StoreCall.Sound`), every row passes (`verifyActionIdentity_of_run`).
-/

namespace Xir.Impl

variable [Unicode] [Digests]

open Strings

omit [Digests] in
/-- A check of a digest that is made in one case, and what follows it. -/
theorem ite_requireDigest_bind {p : Prop} [Decidable p] {value field actionID : String}
    {x : Except RuntimeError Unit} :
    (if p then requireDigest value field actionID >>= fun _ => x else x) = .ok () ↔
      (p → IsDigest value) ∧ x = .ok () := by
  split
  · next hp => rw [requireDigest_bind, imp_iff_right hp]
  · next hp => exact ⟨fun hx => ⟨fun hp' => absurd hp' hp, hx⟩, And.right⟩

omit [Unicode] [Digests] in
theorem ite_pure_eq_ok {p : Prop} [Decidable p] {x : Except RuntimeError Unit} :
    (if p then x else pure ()) = .ok () ↔ (p → x = .ok ()) := by
  split
  · next hp => rw [imp_iff_right hp]
  · next hp => exact ⟨fun _ hp' => absurd hp' hp, fun _ => rfl⟩

/-- The signed transaction that a row holds is the one that it names. -/
def HoldsSigned (a : Action) : Prop :=
  a.transactionHash ≠ "" ∧ ∃ b, decodeHex a.rawTransactionHex = .ok b ∧ keccakHex b = a.transactionHash

theorem verifyActionIdentity_eq_ok {a : Action} :
    verifyActionIdentity a = .ok () ↔
      Frozen a ∧ a.sender ≠ "" ∧ (∃ n, actionRank a.state = .ok n) ∧
        (a.receiptSHA256 ≠ "" → IsDigest a.receiptSHA256) ∧
        (a.state = .signed ∨ a.state = .submitted ∨ a.state = .succeeded → a.rawTransactionHex ≠ "" ∧ HoldsSigned a) :=
  by
  rw [verifyActionIdentity]
  simp only [revertIf_bind, mapError_bind, requireDigest_bind, ite_requireDigest_bind, ite_pure_eq_ok, revertIf_eq_ok,
    ne_eq, not_not, not_or]
  constructor
  · rintro ⟨hi, hc, hs, n, hn, hg, b, hb, hl, hd, hh, hr, hx⟩
    refine ⟨⟨hi, hc, hg, hd, b, hb, hl, hh⟩, hs, ⟨n, hn⟩, hr, fun hst => ?_⟩
    obtain ⟨⟨hraw, hhash⟩, hk⟩ := hx hst
    exact ⟨hraw, hhash, hk⟩
  · rintro ⟨⟨hi, hc, hg, hd, b, hb, hl, hh⟩, hs, ⟨n, hn⟩, hr, hx⟩
    refine ⟨hi, hc, hs, n, hn, hg, b, hb, hl, hd, hh, hr, fun hst => ?_⟩
    obtain ⟨hraw, hhash, hk⟩ := hx hst
    exact ⟨⟨hraw, hhash⟩, hk⟩

/-- What makes a row pass, in terms that the writes preserve. -/
structure Consistent (a : Action) : Prop where
  frozen : Frozen a
  sender_ne : a.sender ≠ ""
  rank : ∃ n, actionRank a.state = .ok n
  receipt : a.receiptSHA256 ≠ "" → IsDigest a.receiptSHA256
  raw_ne : a.state = .signed ∨ a.state = .submitted ∨ a.state = .succeeded → a.rawTransactionHex ≠ ""
  signed : a.rawTransactionHex ≠ "" → HoldsSigned a

theorem Consistent.verifyActionIdentity {a : Action} (h : Consistent a) : verifyActionIdentity a = .ok () :=
  verifyActionIdentity_eq_ok.mpr
    ⟨h.frozen, h.sender_ne, h.rank, h.receipt, fun hs => ⟨h.raw_ne hs, h.signed (h.raw_ne hs)⟩⟩

/-! ## What the calls preserve -/

/-- A call that does not take one of the three ways to a row that cannot be verified: a new action
whose account is spaces only, and a success, past its checks, of an action that holds no signed
transaction, or with something else than a digest beside an empty receipt path. -/
def StoreCall.Sound (t : Tables) : StoreCall → Prop
  | intend requested =>
    Store.validateIntend requested = .ok () → t.find requested.actionID = none →
      toLower (trimSpace requested.sender) ≠ ""
  | succeed actionID result =>
    ∀ a canonical, t.find actionID = some a → Store.checkResult actionID result = .ok canonical →
      Store.checkSucceeded a canonical result = .ok false →
        a.rawTransactionHex ≠ "" ∧
          (result.receiptPath = "" → result.receiptSHA256 ≠ "" → IsDigest result.receiptSHA256)
  | _ => True

/-- Every action of the ledger is consistent. -/
structure LedgerOk (t : Tables) : Prop where
  keyed : t.Keyed
  consistent {actionID : String} {a : Action} : t.find actionID = some a → Consistent a

theorem Consistent.normalised {requested : Action} (hv : Store.validateIntend requested = .ok ())
    (hs : toLower (trimSpace requested.sender) ≠ "") : Consistent (Store.normalised requested) := by
  obtain ⟨hf, -, hst, -⟩ := validateIntend_eq_ok.mp hv
  rw [Store.normalised]
  refine ⟨⟨hf.actionID_ne, hf.chainRole_ne, hf.gas_ne, hf.digest, hf.calldata⟩, hs, ⟨0, ?_⟩, fun h => absurd rfl h, ?_,
    fun h => absurd rfl h⟩
  · rcases hst with h | h <;> simp only [h] <;> rfl
  · rcases hst with h | h <;> simp [h]

theorem Consistent.recordSigned {a : Action} {raw : GoBytes} {d : Document} (h : Consistent a) :
    Consistent { a with state := .signed, rawTransactionHex := encodeHex raw, transactionHash := keccakHex raw,
                        detailJSON := d } where
  frozen := ⟨h.frozen.actionID_ne, h.frozen.chainRole_ne, h.frozen.gas_ne, h.frozen.digest, h.frozen.calldata⟩
  sender_ne := h.sender_ne
  rank := ⟨1, rfl⟩
  receipt := h.receipt
  raw_ne _ := encodeHex_ne_empty raw
  signed _ := ⟨encodeHex_ne_empty _, raw, decodeHex_encodeHex raw, rfl⟩

theorem Consistent.observe {a : Action} {s : ActionState} {d : Document} (h : Consistent a)
    (hr : ∃ n, actionRank s = .ok n)
    (hx : s = .signed ∨ s = .submitted ∨ s = .succeeded → a.rawTransactionHex ≠ "") :
    Consistent { a with state := s, detailJSON := d } where
  frozen := ⟨h.frozen.actionID_ne, h.frozen.chainRole_ne, h.frozen.gas_ne, h.frozen.digest, h.frozen.calldata⟩
  sender_ne := h.sender_ne
  rank := hr
  receipt := h.receipt
  raw_ne := hx
  signed := h.signed

theorem Consistent.succeed {a : Action} {r : ActionResult} {canonical : String} {d : Document} (h : Consistent a)
    (hr : a.rawTransactionHex ≠ "") (hh : a.transactionHash ≠ "" → a.transactionHash = canonical)
    (hd : r.receiptSHA256 ≠ "" → IsDigest r.receiptSHA256) :
    Consistent { a with
      state := .succeeded, transactionHash := if canonical = "" then a.transactionHash else canonical,
      receiptPath := r.receiptPath, receiptSHA256 := r.receiptSHA256, blockNumber := r.blockNumber,
      gasUsed := r.gasUsed, detailJSON := d } where
  frozen := ⟨h.frozen.actionID_ne, h.frozen.chainRole_ne, h.frozen.gas_ne, h.frozen.digest, h.frozen.calldata⟩
  sender_ne := h.sender_ne
  rank := ⟨3, rfl⟩
  receipt := hd
  raw_ne _ := hr
  signed _ := by
    have hk : (if canonical = "" then a.transactionHash else canonical) = a.transactionHash := by
      rw [hh (h.signed hr).1, ite_self]
    show (if canonical = "" then a.transactionHash else canonical) ≠ "" ∧ _
    rw [hk]
    exact h.signed hr

theorem LedgerOk.step {c : StoreCall} {t t' : Tables} (h : LedgerOk t) (hs : c.Sound t) (ha : After c t t') :
    LedgerOk t' := by
  rcases ha with rfl | ⟨w, hi, hl⟩
  · exact h
  refine ⟨hl.keyed h.keyed, fun {id b} hb => ?_⟩
  rw [hl.find] at hb
  by_cases hid : id = w.action.actionID
  · rw [hid, Function.update_self] at hb
    obtain rfl := Option.some.inj hb
    have hf := hl.fresh
    cases hl.makes with
    | @intend requested time hv =>
      have hn : t.find (Store.normalised requested).actionID = none := hf
      rw [Store.normalised_actionID] at hn
      exact .normalised hv (hs hv hn)
    | recordSigned harg hc hd =>
      obtain ⟨-, -, -, rfl⟩ := checkRaw_eq_ok.mp harg
      exact (h.consistent hf).recordSigned
    | observe harg hc hd => exact (h.consistent hf).observe ⟨_, harg⟩ (checkObserved_eq_false.mp hc).1
    | @succeed id canonical r a m time harg hc hd =>
      obtain ⟨hh, -, -⟩ := checkSucceeded_eq_false.mp hc
      have hid : a.actionID = id := hi
      have ha : t.find id = some a := hid ▸ hf
      obtain ⟨hr, hd⟩ := hs a canonical ha harg hc
      exact (h.consistent hf).succeed hr hh fun hne =>
        (em (r.receiptPath = "")).elim (hd · hne) (checkResult_eq_ok.mp harg).2
  · rw [Function.update_of_ne hid] at hb
    exact h.consistent hb

/-! ## Runs -/

/-- A step by a call that is sound. -/
def SoundStep (t : Tables) (e : StoreCall × Int) (t' : Tables) : Prop := e.1.Sound t ∧ LedgerStep t e t'

theorem LedgerOk.empty : LedgerOk Tables.empty where
  keyed := List.nodup_nil
  consistent h := by cases h

theorem LedgerOk.run {t t' : Tables} {calls : List (StoreCall × Int)} (h : Run SoundStep t calls t') (h0 : LedgerOk t) :
    LedgerOk t' :=
  h.inv (I := LedgerOk) (C := fun _ => True) (fun _ hi hs => hi.step hs.1 (LedgerStep.after hs.2))
    (fun _ _ => trivial) h0

/-! ## An intent -/

theorem isDigest_sha256Hex (b : GoBytes) : IsDigest (sha256Hex b) where
  len_eq := by rw [sha256Hex, len_encodeToString, Vector.length_toList]
  decodes := ⟨_, decodeString_encodeToString _⟩
  lower := toLower_encodeToString _

/-- An intent to call an account without calldata. -/
def bareIntent : Action where
  actionID := "action"
  attemptID := ""
  stage := ""
  chainRole := "a"
  chainID := 1
  sender := encodeHex [1]
  target := encodeHex [2]
  calldataHex := ""
  calldataBytes := 0
  calldataSHA256 := sha256Hex []
  value := "0"
  gas := 21000
  nonce := 0
  state := .intended
  rawTransactionHex := ""
  transactionHash := ""
  receiptPath := ""
  receiptSHA256 := ""
  blockNumber := 0
  gasUsed := 0
  detailJSON := .ok fun _ => none

theorem bareIntent_valid : Store.validateIntend bareIntent = .ok () := by
  have hc : decodeHex (bareIntent).calldataHex = .ok [] := by
    rw [decodeHex, decodeHexWith]
    rfl
  exact validateIntend_eq_ok.mpr
    ⟨⟨(by decide : "action" ≠ ""), (by decide : "a" ≠ ""), (by decide : (21000 : UInt64) ≠ 0),
    isDigest_sha256Hex _, [], hc, rfl, rfl⟩, encodeHex_ne_empty _, .inr rfl, (by decide : "0" ≠ "")⟩

/-- The row that it leaves. -/
def bareRow : Action := { bareIntent with sender := toLower (trimSpace (encodeHex [1])) }

theorem normalised_bareIntent : Store.normalised bareIntent = bareRow := by
  rw [Store.normalised]
  rfl

theorem bareIntent_apply (time : Int) :
    Tables.empty.apply (.insertAction (Store.normalised bareIntent) time) =
      .ok ⟨[⟨bareRow, time, time⟩], [], [], [], []⟩ := by
  rw [normalised_bareIntent, Tables.apply, if_neg]
  · rfl
  · rintro ⟨r, hr, -⟩
    exact absurd hr List.not_mem_nil

theorem bareIntent_run (time : Int) :
    AcceptedStep Tables.empty (.intend bareIntent, time) ⟨[⟨bareRow, time, time⟩], [], [], [], []⟩ := by
  rw [AcceptedStep, Store.intend_run_new bareIntent_valid rfl, bareIntent_apply]

/-! ## A ledger of one action -/

def Tables.single (r : ActionRow) : Tables := ⟨[r], [], [], [], []⟩

omit [Unicode] [Digests] in
theorem Tables.single_find (r : ActionRow) : (Tables.single r).find r.action.actionID = some r.action := by
  rw [Tables.find, Tables.single, List.find?_cons_of_pos (by simp)]
  rfl

omit [Unicode] in
/-- A write to the one action, outside of the attempts. -/
theorem Tables.single_apply {r : ActionRow} {w : Write} (hw : ∀ a now, w ≠ .insertAction a now)
    (hr : r.action.actionID = w.action.actionID) (ha : w.action.attemptID = "") :
    (Tables.single r).apply w = .ok (.single (w.setRow r)) := by
  have hup (e : RuntimeError) :
      (Tables.single r).updateAction w.action.actionID w.setRow e = .ok (.single (w.setRow r)) := by
    refine Tables.updateAction_eq_ok.mpr ⟨?_, fun s hs _ s' hs' hx => ?_⟩
    · simp only [Tables.single, List.map_cons, List.map_nil, if_pos hr]
    · obtain rfl := List.mem_singleton.mp hs
      obtain rfl := List.mem_singleton.mp hs'
      exact hx.1 rfl
  have ha' : w.action.attemptID = "" ∨ w.action.stage = "" := .inl ha
  cases w with
  | insertAction a now => exact absurd rfl (hw a now)
  | recordSigned | observe | succeed =>
    rw [Tables.apply]
    refine bind_eq_ok.mpr ⟨_, hup _, ?_⟩
    exact (if_pos ha').trans rfl

omit [Unicode] in
theorem Tables.single_rewriteRow {r : ActionRow} {check : Action → Except RuntimeError Bool} {time : Int}
    {document : Action → Except RuntimeError Document} {write : Action → Document → Int → Write} {d : Document}
    (hid : r.action.actionID ≠ "") (ha : r.action.attemptID = "") (hc : check r.action = .ok false)
    (hd : document r.action = .ok d) (hw : ∀ a now, write r.action d time ≠ .insertAction a now)
    (hr : (write r.action d time).action = r.action) :
    (Store.rewriteRow r.action.actionID check document write).run (fun op (t : Tables) => t.answer time op)
        (Tables.single r) =
      (.ok (), Tables.single ((write r.action d time).setRow r)) := by
  have hw' := Tables.single_apply hw (congrArg Action.actionID hr.symm) ((congrArg Action.attemptID hr).trans ha)
  simp only [Store.rewriteRow_run hid (Tables.single_find r), hc, hd, hw']

/-! ## A signed and mined transaction -/

theorem StoreCall.recordSigned_prog {id canonical hash : String} {raw : GoBytes}
    (harg : Store.checkRaw id raw hash = .ok canonical) :
    (StoreCall.recordSigned id raw hash).prog = Store.rewriteRow id (Store.checkSigned · raw canonical)
      (Store.signedDetail · raw) (Write.recordSigned · raw canonical) := by
  rw [StoreCall.prog, Store.recordSigned, harg]
  rfl

theorem StoreCall.observe_prog {id : String} {s : ActionState} {n : Nat} {detail : Members}
    (hs : actionRank s = .ok n) :
    (StoreCall.observe id s detail).prog = Store.rewriteRow id (Store.checkObserved · s detail)
      (mergeDetail ·.detailJSON detail) (Write.observe · s) := by
  rw [StoreCall.prog, Store.observe, hs]
  rfl

theorem StoreCall.succeed_prog {id canonical : String} {r : ActionResult}
    (harg : Store.checkResult id r = .ok canonical) :
    (StoreCall.succeed id r).prog = Store.rewriteRow id (Store.checkSucceeded · canonical r)
      (mergeDetail ·.detailJSON (Store.resultMembers r)) (Write.succeed · canonical r) := by
  rw [StoreCall.prog, Store.succeed, harg]
  rfl

/-- The row that holds the bytes. -/
def signedRow : Action :=
  let fields : Fields := fun _ => none
  { bareRow with
    state := .signed
    rawTransactionHex := encodeHex [7]
    transactionHash := keccakHex [7]
    detailJSON := .ok ((((((fields.set "role" (.string "a")).set "nonce" (.ofNat 0)).set "target"
      (.string (encodeHex [2]))).set "calldata_sha256" (.string (sha256Hex []))).set "chain_id" (.ofNat 1)).set
      "raw_sha256" (.string (sha256Hex [7]))) }

theorem checkRaw_seven : Store.checkRaw "action" [7] (keccakHex [7]) = .ok (keccakHex [7]) := by
  refine checkRaw_eq_ok.mpr ⟨by decide, by decide, canonicalHash_encodeHex fun h => ?_, rfl⟩
  have hl : (Digests.keccak256 [7]).toList.length = 32 := Vector.length_toList
  rw [h] at hl
  cases hl

theorem checkSigned_bareRow : Store.checkSigned bareRow [7] (keccakHex [7]) = .ok false :=
  checkSigned_eq_false.mpr ⟨fun h => absurd rfl h, rfl⟩

theorem checkObserved_signedRow : Store.checkObserved signedRow .submitted [] = .ok false :=
  checkObserved_eq_false.mpr ⟨fun _ => encodeHex_ne_empty _, rfl⟩

theorem signedRow_run (time time' : Int) :
    AcceptedStep (Tables.single ⟨bareRow, time, time⟩) (.recordSigned "action" [7] (keccakHex [7]), time')
      (Tables.single ⟨signedRow, time, time'⟩) := by
  have hd : Store.signedDetail bareRow [7] = .ok signedRow.detailJSON := rfl
  rw [AcceptedStep, StoreCall.run, StoreCall.recordSigned_prog checkRaw_seven]
  exact Tables.single_rewriteRow (r := ⟨bareRow, time, time⟩) (by decide : "action" ≠ "") rfl checkSigned_bareRow hd
    (fun _ _ => Write.noConfusion) rfl

theorem submittedRow_run (time time' time'' : Int) :
    AcceptedStep (Tables.single ⟨signedRow, time, time'⟩) (.observe "action" .submitted [], time'')
      (Tables.single ⟨{ signedRow with state := .submitted }, time, time''⟩) := by
  have hd : mergeDetail signedRow.detailJSON [] = .ok signedRow.detailJSON := rfl
  rw [AcceptedStep, StoreCall.run, StoreCall.observe_prog rfl]
  exact Tables.single_rewriteRow (r := ⟨signedRow, time, time'⟩) (by decide : "action" ≠ "") rfl
    checkObserved_signedRow hd (fun _ _ => Write.noConfusion) rfl

/-- The row of an action whose transaction was mined. -/
def succeededRow : Action := { signedRow with state := .succeeded, blockNumber := 1, gasUsed := 21000 }

def minedResult : ActionResult where
  transactionHash := keccakHex [7]
  blockNumber := 1
  gasUsed := 21000
  receiptPath := ""
  receiptSHA256 := ""
  contractAddress := ""
  detail := []

theorem checkResult_minedResult : Store.checkResult "action" minedResult = .ok (keccakHex [7]) := by
  refine checkResult_eq_ok.mpr ⟨(checkRaw_eq_ok.mp checkRaw_seven).2.2.1, fun h => absurd rfl h⟩

theorem checkSucceeded_minedResult {s : ActionState} (hs : s = .signed ∨ s = .submitted) :
    Store.checkSucceeded { signedRow with state := s } (keccakHex [7]) minedResult = .ok false := by
  refine checkSucceeded_eq_false.mpr ⟨fun _ => rfl, ?_, ?_⟩ <;> obtain rfl | rfl := hs
  · exact ActionState.noConfusion
  · exact ActionState.noConfusion
  · rfl
  · rfl

theorem setRow_minedResult (s : ActionState) (time time' time'' : Int) :
    (Write.succeed { signedRow with state := s } (keccakHex [7]) minedResult signedRow.detailJSON time'').setRow
      ⟨{ signedRow with state := s }, time, time'⟩ = ⟨succeededRow, time, time''⟩ := by
  rw [Write.setRow, Write.set, if_neg (show keccakHex [7] ≠ "" from encodeHex_ne_empty _)]
  rfl

theorem succeededRow_run (time time' time'' : Int) :
    AcceptedStep (Tables.single ⟨signedRow, time, time'⟩) (.succeed "action" minedResult, time'')
      (Tables.single ⟨succeededRow, time, time''⟩) := by
  have hd : mergeDetail signedRow.detailJSON (Store.resultMembers minedResult) = .ok signedRow.detailJSON := rfl
  rw [AcceptedStep, StoreCall.run, StoreCall.succeed_prog checkResult_minedResult]
  exact (Tables.single_rewriteRow (r := ⟨signedRow, time, time'⟩) (by decide : "action" ≠ "") rfl
    (checkSucceeded_minedResult (.inl rfl)) hd (fun _ _ => Write.noConfusion) rfl).trans
    (congrArg (fun r => (Except.ok (), Tables.single r)) (setRow_minedResult ..))

/-! ## The rows of a run -/

/-- In every ledger that sound calls lead to, a restart can verify every action. -/
theorem verifyActionIdentity_of_run {t : Tables} {calls : List (StoreCall × Int)}
    (h : Run SoundStep Tables.empty calls t) : ∀ r ∈ t.actions, verifyActionIdentity r.action = .ok () :=
  fun _ hr =>
    ((LedgerOk.empty.run h).consistent (Tables.find_of_mem (LedgerOk.empty.run h).keyed hr)).verifyActionIdentity

theorem bareIntent_sound (t : Tables) : (StoreCall.intend bareIntent).Sound t := by
  intro _ _
  show toLower (trimSpace (encodeHex [1])) ≠ ""
  rw [trimSpace_encodeHex]
  exact toLower_ne_empty (encodeHex_ne_empty _)

theorem minedResult_sound : (StoreCall.succeed "action" minedResult).Sound (Tables.single ⟨signedRow, 0, 1⟩) := by
  intro a _ ha _ _
  obtain rfl : signedRow = a := Option.some.inj ha
  exact ⟨encodeHex_ne_empty _, fun _ h => absurd rfl h⟩

omit [Unicode] [Digests] in
theorem verifyActionIdentity_of_run_succeeded :
    let _ := asciiUnicode
    let _ := emptinessDigests
    verifyActionIdentity succeededRow = .ok () := by
  intro _ _
  have h₁ : SoundStep Tables.empty (.intend bareIntent, 0) (Tables.single ⟨bareRow, 0, 0⟩) :=
    ⟨bareIntent_sound _, (congrArg Prod.snd (bareIntent_run 0)).symm⟩
  have h₂ : SoundStep (Tables.single ⟨bareRow, 0, 0⟩) (.recordSigned "action" [7] (keccakHex [7]), 1)
      (Tables.single ⟨signedRow, 0, 1⟩) := ⟨trivial, (congrArg Prod.snd (signedRow_run 0 1)).symm⟩
  have h₃ : SoundStep (Tables.single ⟨signedRow, 0, 1⟩) (.succeed "action" minedResult, 2)
      (Tables.single ⟨succeededRow, 0, 2⟩) := ⟨minedResult_sound, (congrArg Prod.snd (succeededRow_run 0 1 2)).symm⟩
  exact verifyActionIdentity_of_run (.cons h₁ (.cons h₂ (.single h₃))) ⟨succeededRow, 0, 2⟩ List.mem_cons_self

/-! ## A success without a signed transaction -/

/-- The result of a transaction that the ledger has never signed. -/
def bareResult : ActionResult where
  transactionHash := encodeHex [3]
  blockNumber := 1
  gasUsed := 21000
  receiptPath := ""
  receiptSHA256 := ""
  contractAddress := ""
  detail := []

/-- The row after it. -/
def unsignedRow : Action :=
  { bareRow with state := .succeeded, transactionHash := encodeHex [3], blockNumber := 1, gasUsed := 21000 }

theorem bareResult_run (time time' : Int) :
    AcceptedStep ⟨[⟨bareRow, time, time⟩], [], [], [], []⟩ (.succeed "action" bareResult, time')
      ⟨[⟨unsignedRow, time, time'⟩], [], [], [], []⟩ := by
  have harg : Store.checkResult "action" bareResult = .ok (encodeHex [3]) :=
    checkResult_eq_ok.mpr ⟨canonicalHash_encodeHex (by decide), fun h => absurd rfl h⟩
  have hcheck : Store.checkSucceeded bareRow (encodeHex [3]) bareResult = .ok false := by
    refine checkSucceeded_eq_false.mpr ⟨fun h => absurd rfl h, ActionState.noConfusion, ?_⟩
    rfl
  have hmerge : mergeDetail bareRow.detailJSON (Store.resultMembers bareResult) = .ok (.ok fun _ => none) := rfl
  have hset :
      (Write.succeed bareRow (encodeHex [3]) bareResult (.ok fun _ => none) time').setRow ⟨bareRow, time, time⟩ =
      ⟨unsignedRow, time, time'⟩ := by
    rw [Write.setRow, Write.set, if_neg (encodeHex_ne_empty [3])]
    rfl
  rw [AcceptedStep, StoreCall.run, StoreCall.succeed_prog harg]
  exact (Tables.single_rewriteRow (r := ⟨bareRow, time, time⟩) (by decide : "action" ≠ "") rfl hcheck hmerge
    (fun _ _ => Write.noConfusion) rfl).trans (congrArg (fun r => (Except.ok (), Tables.single r)) hset)

theorem unsignedRow_unverifiable : verifyActionIdentity unsignedRow ≠ .ok () := by
  intro h
  obtain ⟨-, -, -, -, hx⟩ := verifyActionIdentity_eq_ok.mp h
  exact (hx (.inr (.inr rfl))).1 rfl

omit [Unicode] [Digests] in
/-- An action that never was signed succeeds, and cannot be verified afterwards. -/
theorem succeed_unsigned :
    let _ := asciiUnicode
    let _ := emptinessDigests
    ¬ ∀ calls t, Run AcceptedStep Tables.empty calls t → ∀ r ∈ t.actions, verifyActionIdentity r.action = .ok () := by
  intro _ _ h
  have hr := h _ _ (.cons (bareIntent_run 0) (.single (bareResult_run 0 1)))
  exact unsignedRow_unverifiable (hr ⟨unsignedRow, 0, 1⟩ List.mem_cons_self)

end Xir.Impl
