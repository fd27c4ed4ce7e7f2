import Xir.Proof.Ledger

/-!
# Calls that are made again

Once a call has taken effect (`StoreCall.Durable`), its effect stays in the row
of its action. Made again, it is to change nothing, and with another frozen
byte to be refused as identity drift; `replay` says when it does.
-/

namespace Xir.Impl

variable [Unicode] [Digests]

open Strings

omit [Digests] in
theorem normalised_sender (a : Action) :
    toLower (trimSpace (Store.normalised a).sender) = (Store.normalised a).sender := by
  rw [Store.normalised]
  exact toLower_trimSpace_idem _

namespace StoreCall

/-- The effect of the call is in the row. -/
def Durable (a : Action) : StoreCall → Prop
  | intend requested => Store.validateIntend requested = .ok () ∧ SameIntent a (Store.normalised requested)
  | recordSigned actionID rawTx txHash =>
    Store.checkRaw actionID rawTx txHash = .ok a.transactionHash ∧ a.rawTransactionHex = encodeHex rawTx
  | observe _ _ _ => True
  | succeed actionID result =>
    actionID ≠ "" ∧ Store.checkResult actionID result = .ok a.transactionHash ∧ a.state = .succeeded ∧
      a.blockNumber = result.blockNumber ∧ a.gasUsed = result.gasUsed

theorem durable_step {c : StoreCall} {a a' : Action} (ha : RowOk a) (hs : RowStep a a') (hd : c.Durable a) :
    c.Durable a' := by
  cases c with
  | intend requested =>
    refine ⟨hd.1, ?_⟩
    obtain ⟨-, h⟩ := hd
    cases hs with
    | keep => exact h
    | write makes update read =>
      subst read
      cases makes with
      | intend => exact absurd rfl (update _ _)
      | recordSigned | observe | succeed =>
        exact ⟨h.attemptID, h.stage, h.chainRole, h.sender, h.target, h.calldataHex, h.calldataSHA256, h.value,
          h.chainID, h.gas, h.nonce, h.calldataBytes⟩
  | recordSigned id raw hash =>
    obtain ⟨hraw, hhash⟩ := hs.signed ha (hd.2 ▸ encodeHex_ne_empty raw)
    exact ⟨hhash ▸ hd.1, hraw.trans hd.2⟩
  | observe => trivial
  | succeed id r =>
    obtain ⟨hne, hr, hst, hb, hg⟩ := hd
    have hst' := hs.terminal (.inl hst)
    cases hs with
    | keep => exact ⟨hne, hr, hst, hb, hg⟩
    | write makes update read =>
      subst read
      cases makes with
      | intend => exact absurd rfl (update _ _)
      | recordSigned => cases hst'.trans hst
      | observe => exact ⟨hne, hr, hst'.trans hst, hb, hg⟩
      | succeed harg hc hd => exact absurd hst (checkSucceeded_eq_false.mp hc).2.1

theorem durable_run {c : StoreCall} {t t' : Tables} {calls : List (StoreCall × Int)} (hr : Run LedgerStep t calls t')
    (ht : RowsOk t) {a : Action} (ha : t.find c.actionID = some a) (hd : c.Durable a) :
    ∃ a', t'.find c.actionID = some a' ∧ RowOk a' ∧ c.Durable a' := by
  induction hr generalizing a with
  | nil => exact ⟨a, ha, ht ha, hd⟩
  | cons hs _ ih =>
    obtain ⟨b, hb, hab⟩ := (LedgerStep.after hs).row ha
    exact ih (ht.after (LedgerStep.after hs)) hb (durable_step (ht ha) hab hd)

theorem durable_accepted {c : StoreCall} {t t' : Tables} {time : Int} (ht : RowsOk t)
    (h : AcceptedStep t (c, time) t') : ∃ a, t'.find c.actionID = some a ∧ c.Durable a := by
  cases c with
  | intend requested =>
    obtain ⟨hv, hok⟩ := intend_eq_ok h
    refine hok.elim (fun ⟨a, hf, hs, e⟩ => ⟨a, e ▸ hf, hv, hs⟩) fun hl => ?_
    have hself := hl.find_self
    rw [Write.action, Store.normalised_actionID] at hself
    exact ⟨Store.normalised requested, hself, hv, .refl (normalised_sender requested)⟩
  | recordSigned id raw hash =>
    obtain ⟨canonical, harg, a, hf, hok⟩ := recordSigned_eq_ok h
    rcases hok with ⟨hc, rfl⟩ | ⟨d, hl⟩
    · obtain ⟨hr, hraw, rfl, -⟩ := checkSigned_eq_true.mp hc
      obtain ⟨-, b, hb, -⟩ := (ht hf).raw hr
      rw [hb, decodeHex_encodeHex] at hraw
      obtain rfl := Except.ok.inj hraw
      exact ⟨a, hf, harg, hb⟩
    · obtain ⟨-, rfl⟩ := t.find_eq_some hf
      exact ⟨_, hl.find_self, harg, rfl⟩
  | observe id s detail =>
    obtain ⟨a, hf, hok⟩ := observe_eq_ok h
    rcases hok with ⟨-, rfl⟩ | ⟨d, hl⟩
    · exact ⟨a, hf, trivial⟩
    · obtain ⟨-, rfl⟩ := t.find_eq_some hf
      exact ⟨_, hl.find_self, trivial⟩
  | succeed id r =>
    obtain ⟨canonical, harg, hid, a, hf, hok⟩ := succeed_eq_ok h
    have hne := canonicalHash_ne_empty (checkResult_eq_ok.mp harg).1
    rcases hok with ⟨hc, rfl⟩ | ⟨d, hl⟩
    · obtain ⟨hh, hs, hb, hg⟩ := checkSucceeded_eq_true.mp hc
      exact ⟨a, hf, hid, hh ((ht hf).hash hs) ▸ harg, hs, hb, hg⟩
    · obtain ⟨-, rfl⟩ := t.find_eq_some hf
      have hb : (Write.succeed a canonical r d time).result.transactionHash = canonical := if_neg hne
      exact ⟨_, hl.find_self, hid, harg.trans (congrArg Except.ok hb.symm), rfl, rfl, rfl⟩

/-! ## What a replay is to do -/

/-- The calls whose replays the package describes: all but `observe`. -/
def Records : StoreCall → Prop
  | observe _ _ _ => False
  | _ => True

/-- The call returns no error, and changes nothing. -/
def Repeats (t : Tables) (time : Int) (c : StoreCall) : Prop := c.run time t = (.ok (), t)

/-- The call is refused as identity drift, and changes nothing. -/
def Refused (t : Tables) (time : Int) (c : StoreCall) : Prop :=
  ∃ e : RuntimeError, e.IsDrift ∧ c.run time t = (.error e, t)

/-- The call records, for the same action, something else than `c` has. -/
def Differs : StoreCall → StoreCall → Prop
  | intend a, intend a' => a'.actionID = a.actionID ∧ ¬ SameIntent (Store.normalised a) (Store.normalised a')
  | recordSigned id raw hash, recordSigned id' raw' hash' =>
    id' = id ∧ (raw' ≠ raw ∨ canonicalHash hash' ≠ canonicalHash hash)
  | succeed id r, succeed id' r' =>
    id' = id ∧ (canonicalHash r'.transactionHash ≠ canonicalHash r.transactionHash ∨ r'.blockNumber ≠ r.blockNumber ∨
      r'.gasUsed ≠ r.gasUsed ∨ r'.receiptPath ≠ r.receiptPath ∨ r'.receiptSHA256 ≠ r.receiptSHA256 ∨
      r'.contractAddress ≠ r.contractAddress ∨ r'.detail ≠ r.detail)
  | _, _ => False

/-! ## When it does -/

/-- The detail document holds what `RecordSigned` writes into it. -/
def HoldsIdentity (a : Action) (raw : GoBytes) : Prop :=
  ∃ f, a.detailJSON = .ok f ∧ f "role" = some (.string a.chainRole) ∧ f "nonce" = some (.ofNat a.nonce) ∧
    f "target" = some (.string a.target) ∧ f "calldata_sha256" = some (.string a.calldataSHA256) ∧
    f "chain_id" = some (.ofNat a.chainID.toNat) ∧ f "raw_sha256" = some (.string (sha256Hex raw))

/-- Signed bytes are recorded again without an effect once the action has ended; before, only of an
action outside of the attempts, in the instant of its last update, and if no call has changed what
they wrote into its detail. -/
def Quiet (t : Tables) (time : Int) : StoreCall → Prop
  | recordSigned id raw _ => ∃ r ∈ t.actions, r.action.actionID = id ∧
      (r.action.state = .succeeded ∨ r.action.state = .failed ∨
        r.action.state = .signed ∧ (r.action.attemptID = "" ∨ r.action.stage = "") ∧ HoldsIdentity r.action raw ∧
          r.updatedAt = time)
  | _ => True

/-- Another write is identity drift if its arguments alone are no other error, and a success only
by its hash, block or gas. -/
def Drifts (c c' : StoreCall) : Prop :=
  (∀ e, c'.checkArguments = .error e → e.IsDrift) ∧
    match c, c' with
    | succeed _ r, succeed id' r' =>
      (succeed id' r').checkArguments = .ok () → canonicalHash r'.transactionHash ≠ canonicalHash r.transactionHash ∨
        r'.blockNumber ≠ r.blockNumber ∨ r'.gasUsed ≠ r.gasUsed
    | _, _ => True

/-! ## The same bytes again -/

omit [Unicode] in
theorem signedDetail_eq {a : Action} {raw : GoBytes} :
    Store.signedDetail a raw = .ok a.detailJSON ↔ HoldsIdentity a raw := by
  rw [Store.signedDetail, intendedDetail, Action.detail, HoldsIdentity]
  cases a.detailJSON with
  | error e =>
    refine ⟨fun h => (by cases h), fun ⟨f, hf, _⟩ => (by cases hf)⟩
  | ok f =>
    show (Except.ok (Except.ok _) : Except RuntimeError Document) = _ ↔ _
    simp only [Except.ok.injEq, exists_eq_left']
    constructor
    · intro h
      refine ⟨?_, ?_, ?_, ?_, ?_, ?_⟩ <;> rw [← h] <;> simp [Fields.set, Function.update]
    · rintro ⟨h₁, h₂, h₃, h₄, h₅, h₆⟩
      simp only [Fields.set, ← h₁, ← h₂, ← h₃, ← h₄, ← h₅, ← h₆, Function.update_eq_self]

theorem run_recordSigned {id canonical hash : String} {raw : GoBytes} {t : Tables} {time : Int}
    (harg : Store.checkRaw id raw hash = .ok canonical) :
    (recordSigned id raw hash).run time t =
      (Store.rewriteRow id (Store.checkSigned · raw canonical) (Store.signedDetail · raw)
        (Write.recordSigned · raw canonical)).run (fun op t => t.answer time op) t := by
  rw [StoreCall.run, recordSigned_prog harg]

omit [Unicode] [Digests] in
/-- Each stage that is written leaves a row in the history of the stages. -/
theorem insertStageAndEvent_history {t t' : Tables} {w : StageWrite} (h : t.insertStageAndEvent w = .ok t') :
    t'.stageHistory.length = t.stageHistory.length + 1 := by
  obtain ⟨fields, -, hf⟩ := bind_eq_ok.mp h
  cases hf
  exact List.length_append

omit [Unicode] [Digests] in
theorem insertDurableSigned_history {t t' : Tables} {a : Action} {hash sha : String} {raw : GoBytes}
    {d : Document} (h : t.insertDurableSigned a hash raw sha d = .ok t') : t'.stageHistory = t.stageHistory := by
  unfold Tables.insertDurableSigned at h
  split at h <;> split at h <;> cases h <;> rfl

omit [Unicode] in
/-- The write of signed bytes that changes nothing is that of an action outside of the attempts. -/
theorem apply_recordSigned_self {t : Tables} {a : Action} {raw : GoBytes} {canonical : String} {d : Document}
    {time : Int} (h : t.apply (.recordSigned a raw canonical d time) = .ok t) : a.attemptID = "" ∨ a.stage = "" := by
  by_contra hs
  rw [Tables.apply] at h
  obtain ⟨t₁, h₁, h⟩ := bind_eq_ok.mp h
  rw [if_neg hs] at h
  obtain ⟨t₂, h₂, h⟩ := bind_eq_ok.mp h
  obtain ⟨fields, -, h⟩ := bind_eq_ok.mp h
  obtain ⟨t₃, h₃, h⟩ := bind_eq_ok.mp h
  have hl₁ : t₁.stageHistory = t.stageHistory := by rw [(Tables.updateAction_eq_ok.mp h₁).1]
  have hl₂ := insertDurableSigned_history h₂
  have hl₃ := insertStageAndEvent_history h₃
  have hl := insertStageAndEvent_history h
  rw [hl₃, hl₂, hl₁] at hl
  omega

theorem signed_of_checkSigned {a : Action} {raw : GoBytes} {canonical : String} (ha : RowOk a)
    (hr : a.rawTransactionHex ≠ "") (h : Store.checkSigned a raw canonical = .ok false) : a.state = .signed := by
  obtain ⟨hc, ht⟩ := checkSigned_eq_false.mp h
  obtain ⟨-, -, hs, hf⟩ := hc hr
  obtain ⟨n, hn⟩ := ha.rank
  have hle : n ≤ 1 := checkTransition_le ht hn rfl
  rcases actionRank_eq_ok hn with ⟨h, -⟩ | ⟨h, -⟩ | ⟨-, rfl⟩ | ⟨h, -⟩ | ⟨h, -⟩
  · exact absurd h (ha.raw hr).1
  · exact h
  · omega
  · exact absurd h hs
  · exact absurd h hf

omit [Unicode] in
/-- The write of signed bytes that are there already, in an action outside of the attempts. -/
theorem apply_recordSigned_same {t : Tables} (ht : t.Valid) {r : ActionRow} {raw : GoBytes} {time : Int}
    (hr : r ∈ t.actions) (hs : r.action.state = .signed) (hraw : r.action.rawTransactionHex = encodeHex raw)
    (hst : r.action.attemptID = "" ∨ r.action.stage = "") (htime : r.updatedAt = time) :
    t.apply (.recordSigned r.action raw r.action.transactionHash r.action.detailJSON time) = .ok t := by
  have hrow : ∀ s ∈ t.actions, s.action.actionID = r.action.actionID →
      (Write.recordSigned r.action raw r.action.transactionHash r.action.detailJSON time).setRow s = s := by
    intro s hsm hid
    obtain rfl : s = r := List.inj_on_of_nodup_map ht.keyed hsm hr hid
    rw [Write.setRow, Write.set, Write.time, ← hs, ← hraw, ← htime]
  have hmap : (t.actions.map fun s => if s.action.actionID = r.action.actionID then
      (Write.recordSigned r.action raw r.action.transactionHash r.action.detailJSON time).setRow s else s) =
      t.actions := by
    refine (List.map_congr_left fun s hsm => ?_).trans (List.map_id _)
    by_cases hid : s.action.actionID = r.action.actionID
    · rw [if_pos hid]
      exact hrow s hsm hid
    · rw [if_neg hid]
      rfl
  have hup (e : RuntimeError) : t.updateAction r.action.actionID
      (Write.recordSigned r.action raw r.action.transactionHash r.action.detailJSON time).setRow e = .ok t := by
    refine Tables.updateAction_eq_ok.mpr ⟨?_, fun s hs _ s' hs' => ht.unique s hs s' hs'⟩
    rw [hmap]
  rw [Tables.apply]
  refine bind_eq_ok.mpr ⟨t, hup _, ?_⟩
  rw [if_pos hst]
  rfl

theorem recordSigned_repeats {id hash : String} {raw : GoBytes} {t : Tables} {time : Int} {a : Action} (ht : t.Valid)
    (hf : t.find id = some a) (hd : (recordSigned id raw hash).Durable a) :
    Repeats t time (recordSigned id raw hash) ↔ Quiet t time (recordSigned id raw hash) := by
  obtain ⟨harg, hraw⟩ := hd
  obtain ⟨-, hne, -, -⟩ := checkRaw_eq_ok.mp harg
  have hr : a.rawTransactionHex ≠ "" := hraw ▸ encodeHex_ne_empty raw
  have hdec : decodeHex a.rawTransactionHex = .ok raw := by rw [hraw, decodeHex_encodeHex]
  obtain ⟨⟨r, hrm, rfl⟩, hid⟩ := t.find_eq_some hf
  constructor
  · intro h
    obtain ⟨canonical, harg', b, hf', hok⟩ := recordSigned_eq_ok h
    obtain rfl := Except.ok.inj (harg.symm.trans harg')
    obtain rfl := Option.some.inj (hf.symm.trans hf')
    refine ⟨r, hrm, hid, ?_⟩
    rcases hok with ⟨hc, -⟩ | ⟨d, hl⟩
    · exact (checkSigned_eq_true.mp hc).2.2.2.imp_right .inl
    · obtain ⟨hc, hd⟩ : Store.checkSigned r.action raw r.action.transactionHash = .ok false ∧
          Store.signedDetail r.action raw = .ok d := by
        cases hl.makes with
        | recordSigned _ hc hd => exact ⟨hc, hd⟩
      have hself : r.action.detailJSON = d := by
        have hs := hl.find_self
        rw [Write.action, hid, hf] at hs
        exact congrArg Action.detailJSON (Option.some.inj hs)
      have hst := signed_of_checkSigned (ht.rows hf) hr hc
      refine .inr (.inr ⟨hst, apply_recordSigned_self hl.apply, signedDetail_eq.mp (hself ▸ hd), ?_⟩)
      rcases Tables.apply_actions hl.apply with ⟨_, _, hw, -⟩ | ⟨-, hrows⟩
      · cases hw
      · have hself : (if r.action.actionID = r.action.actionID then _ else r) = r :=
          List.map_inj_left.mp ((List.map_id _).trans hrows).symm r hrm
        rw [if_pos rfl] at hself
        exact (congrArg ActionRow.updatedAt hself).symm
  · rintro ⟨r', hrm', hid', hq⟩
    obtain rfl : r' = r := List.inj_on_of_nodup_map ht.keyed hrm' hrm (hid'.trans hid.symm)
    have hrun : (recordSigned id raw hash).run time t = _ := run_recordSigned harg
    rw [Store.rewriteRow_run (checkRaw_eq_ok.mp harg).1 hf] at hrun
    rw [Repeats, hrun]
    rcases or_assoc.mpr hq with hq | ⟨hs, hst, hh, htime⟩
    · rw [checkSigned_eq_true.mpr ⟨hr, hdec, rfl, hq⟩]
    · have hc : Store.checkSigned r'.action raw r'.action.transactionHash = .ok false := by
        refine checkSigned_eq_false.mpr ⟨fun _ => ⟨hdec, rfl, ?_, ?_⟩, ?_⟩
        · simp only [hs, ne_eq, reduceCtorEq, not_false_eq_true]
        · simp only [hs, ne_eq, reduceCtorEq, not_false_eq_true]
        · rw [hs]
          rfl
      simp only [hc, signedDetail_eq.mpr hh, apply_recordSigned_same ht hrm hs hraw hst htime]

/-! ## An intent and a success again -/

theorem intend_repeats {requested a : Action} {t : Tables} {time : Int} (hf : t.find requested.actionID = some a)
    (hd : (intend requested).Durable a) : Repeats t time (intend requested) := by
  rw [Repeats, Store.intend_run_stored hd.1 hf, sameFrozenIdentity_eq_ok.mpr hd.2]

theorem run_succeed {id canonical : String} {r : ActionResult} {t : Tables} {time : Int}
    (harg : Store.checkResult id r = .ok canonical) :
    (succeed id r).run time t =
      (Store.rewriteRow id (Store.checkSucceeded · canonical r) (mergeDetail ·.detailJSON (Store.resultMembers r))
        (Write.succeed · canonical r)).run (fun op t => t.answer time op) t := by
  rw [StoreCall.run, succeed_prog harg]

/-- What the replay of a success finds in the row that it left. -/
theorem succeed_replay {id id' canonical : String} {r r' : ActionResult} {t : Tables} {time : Int} {a : Action}
    (hf : t.find id = some a) (hd : (succeed id r).Durable a) (hid : id' = id)
    (harg : Store.checkResult id' r' = .ok canonical) :
    (succeed id' r').run time t =
      match Store.checkSucceeded a canonical r' with
      | .error e => (.error e, t)
      | .ok _ => (.ok (), t) := by
  subst hid
  rw [run_succeed harg, Store.rewriteRow_run hd.1 hf]
  rcases hc : Store.checkSucceeded a canonical r' with e | b
  · rfl
  · cases b with
    | true => rfl
    | false => exact absurd hd.2.2.1 (checkSucceeded_eq_false.mp hc).2.1

theorem succeed_repeats {id : String} {r : ActionResult} {a : Action} {t : Tables} {time : Int}
    (hf : t.find id = some a) (hd : (succeed id r).Durable a) : Repeats t time (succeed id r) := by
  obtain ⟨hid, harg, hs, hb, hg⟩ := hd
  have hc : Store.checkSucceeded a a.transactionHash r = .ok true :=
    checkSucceeded_eq_true.mpr ⟨fun _ => rfl, hs, hb, hg⟩
  rw [Repeats, succeed_replay hf ⟨hid, harg, hs, hb, hg⟩ rfl harg, hc]

/-! ## Something else -/

/-- A call whose arguments are refused alone is refused as drift if that error is. -/
theorem refused_arguments {c : StoreCall} {t : Tables} {time : Int} {e : RuntimeError}
    (h : c.checkArguments = .error e) : Refused t time c ↔ ∀ e, c.checkArguments = .error e → e.IsDrift := by
  rw [Refused, run_arguments h]
  constructor
  · rintro ⟨e', hd, he⟩ e'' he''
    obtain rfl := Except.error.inj (h.symm.trans he'')
    obtain rfl := Except.error.inj (Prod.ext_iff.mp he).1
    exact hd
  · exact fun hd => ⟨e, hd e h, rfl⟩

theorem intend_refused {requested requested' a : Action} {t : Tables} {time : Int}
    (hf : t.find requested.actionID = some a) (hd : (intend requested).Durable a)
    (hx : (intend requested).Differs (intend requested')) :
    Refused t time (intend requested') ↔ (intend requested).Drifts (intend requested') := by
  obtain ⟨hid, hx⟩ := hx
  have hdrifts : (intend requested).Drifts (intend requested') ↔
      ∀ e, (intend requested').checkArguments = .error e → e.IsDrift := and_iff_left trivial
  rw [hdrifts]
  rcases hv : (intend requested').checkArguments with e | u
  · rw [refused_arguments hv, hv]
  · have hs : ¬ SameIntent a (Store.normalised requested') := fun hs =>
      hx ((hd.2.symm (normalised_sender requested)).trans hs)
    rw [← hid] at hf
    rw [Refused, Store.intend_run_stored hv hf]
    rcases he : Store.sameFrozenIdentity a (Store.normalised requested') with e | u
    · exact ⟨fun _ e he => (by cases he), fun _ => ⟨e, sameFrozenIdentity_onlyDrift _ _ e he, rfl⟩⟩
    · exact absurd (sameFrozenIdentity_eq_ok.mp he) hs

theorem recordSigned_refused {id id' hash hash' : String} {raw raw' : GoBytes} {a : Action} {t : Tables} {time : Int}
    (hf : t.find id = some a) (hd : (recordSigned id raw hash).Durable a)
    (hx : (recordSigned id raw hash).Differs (recordSigned id' raw' hash')) :
    Refused t time (recordSigned id' raw' hash') ↔ (recordSigned id raw hash).Drifts (recordSigned id' raw' hash') := by
  obtain ⟨rfl, hx⟩ := hx
  obtain ⟨harg, hraw⟩ := hd
  have hdrifts : (recordSigned id' raw hash).Drifts (recordSigned id' raw' hash') ↔
      ∀ e, (recordSigned id' raw' hash').checkArguments = .error e → e.IsDrift := and_iff_left trivial
  rw [hdrifts]
  rcases hv : (recordSigned id' raw' hash').checkArguments with e | u
  · rw [refused_arguments hv, hv]
  · rcases harg' : Store.checkRaw id' raw' hash' with e | canonical'
    · rw [checkArguments, harg'] at hv
      cases hv
    have hne : raw ≠ raw' := by
      rintro rfl
      obtain ⟨-, -, hc, hk⟩ := checkRaw_eq_ok.mp harg
      obtain ⟨-, -, hc', hk'⟩ := checkRaw_eq_ok.mp harg'
      exact hx.elim (· rfl) (· (by rw [hc, hc', ← hk, ← hk']))
    have hdrift : ∃ e, e.IsDrift ∧ Store.checkSigned a raw' canonical' = .error e :=
      checkSigned_drift (hraw ▸ encodeHex_ne_empty raw) (hraw ▸ decodeHex_encodeHex raw) hne
    obtain ⟨e, he, hc⟩ := hdrift
    rw [Refused, run_recordSigned harg', Store.rewriteRow_run (checkRaw_eq_ok.mp harg').1 hf, hc]
    exact ⟨fun _ e he => (by cases he), fun _ => ⟨e, he, rfl⟩⟩

theorem succeed_refused {id id' : String} {r r' : ActionResult} {a : Action} {t : Tables} {time : Int}
    (hf : t.find id = some a) (hd : (succeed id r).Durable a) (hid : id' = id) :
    Refused t time (succeed id' r') ↔ (succeed id r).Drifts (succeed id' r') := by
  rw [Drifts]
  rcases hv : (succeed id' r').checkArguments with e | u
  · rw [refused_arguments hv, hv]
    exact ⟨fun h => ⟨h, fun h => (by cases h)⟩, And.left⟩
  · rcases harg' : Store.checkResult id' r' with e | canonical'
    · rw [checkArguments, harg'] at hv
      cases hv
    have hh : canonicalHash r.transactionHash = .ok a.transactionHash := (checkResult_eq_ok.mp hd.2.1).1
    have hh' : canonicalHash r'.transactionHash = .ok canonical' := (checkResult_eq_ok.mp harg').1
    have hb := hd.2.2.2.1
    have hg := hd.2.2.2.2
    have hne : a.transactionHash ≠ "" := canonicalHash_ne_empty hh
    rw [Refused, succeed_replay hf hd hid harg', hh, hh', ← hb, ← hg]
    rcases hc : Store.checkSucceeded a canonical' r' with e | b
    · refine ⟨fun _ => ⟨fun e he => (by cases he), fun _ => ?_⟩,
        fun _ => ⟨e, checkSucceeded_onlyDrift hd.2.2.1 hc, rfl⟩⟩
      by_contra hn
      simp only [not_or, not_not, ne_eq, Except.ok.injEq] at hn
      rw [checkSucceeded_eq_true.mpr ⟨fun _ => hn.1.symm, hd.2.2.1, hn.2.1.symm, hn.2.2.symm⟩] at hc
      cases hc
    · cases b with
      | false => exact absurd hd.2.2.1 (checkSucceeded_eq_false.mp hc).2.1
      | true =>
        obtain ⟨h, -, hb', hg'⟩ := checkSucceeded_eq_true.mp hc
        constructor
        · intro hr
          obtain ⟨e, -, he⟩ := hr
          cases he
        · intro hx
          rcases hx.2 rfl with hx | hx | hx
          · exact absurd (congrArg Except.ok (h hne).symm) hx
          · exact absurd hb'.symm hx
          · exact absurd hg'.symm hx

/-! ## Replays -/

end StoreCall

open StoreCall

/-- After any calls since it was accepted, a call made again is without an effect exactly if it is
`Quiet`, and another one in its place is refused as drift exactly if it `Drifts`. -/
theorem replay {t₀ t₁ t : Tables} {before after : List (StoreCall × Int)} {c : StoreCall} {time : Int}
    (hbefore : Run LedgerStep Tables.empty before t₀) (hc : c.Records) (haccepted : AcceptedStep t₀ (c, time) t₁)
    (hafter : Run LedgerStep t₁ after t) :
    (∀ time', c.Repeats t time' ↔ c.Quiet t time') ∧
      ∀ c' time', c.Differs c' → (c'.Refused t time' ↔ c.Drifts c') := by
  have ht₀ : t₀.Valid := Tables.Valid.empty.run hbefore
  have hstep : LedgerStep t₀ (c, time) t₁ := (congrArg Prod.snd haccepted).symm
  have ht₁ : t₁.Valid := ht₀.after (LedgerStep.after hstep)
  have ht : t.Valid := ht₁.run hafter
  obtain ⟨a₁, hf₁, hd₁⟩ := durable_accepted ht₀.rows haccepted
  obtain ⟨a, hf, -, hd⟩ := durable_run hafter ht₁.rows hf₁ hd₁
  cases c with
  | intend requested =>
    refine ⟨fun _ => iff_of_true (intend_repeats hf hd) trivial, fun c' time' hx => ?_⟩
    cases c' with
    | intend => exact intend_refused hf hd hx
    | recordSigned | observe | succeed => exact hx.elim
  | recordSigned id raw hash =>
    refine ⟨fun _ => recordSigned_repeats ht hf hd, fun c' time' hx => ?_⟩
    cases c' with
    | recordSigned => exact recordSigned_refused hf hd hx
    | intend | observe | succeed => exact hx.elim
  | observe => exact hc.elim
  | succeed id r =>
    refine ⟨fun _ => iff_of_true (succeed_repeats hf hd) trivial, fun c' time' hx => ?_⟩
    cases c' with
    | succeed => exact succeed_refused hf hd hx.1
    | intend | recordSigned | observe => exact hx.elim

/-! ## An intent that is made again -/

omit [Unicode] [Digests] in
theorem replay_bareIntent :
    let _ := asciiUnicode
    let _ := emptinessDigests
    (intend bareIntent).Repeats (Tables.single ⟨bareRow, 0, 0⟩) 5 := by
  intro _ _
  have hc : (intend bareIntent).Records := trivial
  exact ((replay (.nil _) hc (bareIntent_run 0) (.nil _)).1 5).mpr trivial

/-! ## Signed bytes that are recorded again -/

omit [Unicode] [Digests] in
/-- Bytes that a restart records again: after the broadcast this is an error. -/
theorem recordSigned_again :
    let _ := asciiUnicode
    let _ := emptinessDigests
    ¬ ∀ (t₀ t₁ t : Tables) (before after : List (StoreCall × Int)) (c : StoreCall) (time time' : Int),
      Run LedgerStep Tables.empty before t₀ → c.Records → AcceptedStep t₀ (c, time) t₁ → Run LedgerStep t₁ after t →
        c.Repeats t time' := by
  intro _ _ h
  have hi : LedgerStep Tables.empty (.intend bareIntent, 0) (Tables.single ⟨bareRow, 0, 0⟩) :=
    (congrArg Prod.snd (bareIntent_run 0)).symm
  have hs : LedgerStep (Tables.single ⟨signedRow, 0, 1⟩) (.observe "action" .submitted [], 2)
      (Tables.single ⟨{ signedRow with state := .submitted }, 0, 2⟩) :=
    (congrArg Prod.snd (submittedRow_run 0 1 2)).symm
  have hc : (recordSigned "action" [7] (keccakHex [7])).Records := trivial
  have hr := h _ _ _ _ _ _ _ 3 (.single hi) hc (signedRow_run 0 1) (.single hs)
  have hf : (Tables.single ⟨{ signedRow with state := .submitted }, 0, 2⟩).find "action" =
      some { signedRow with state := .submitted } := rfl
  have hc : Store.checkSigned { signedRow with state := .submitted } [7] (keccakHex [7]) ≠ .ok true := fun h => by
    obtain ⟨-, -, -, ht⟩ := checkSigned_eq_true.mp h
    rcases ht with ht | ht <;> cases ht
  have hc' : Store.checkSigned { signedRow with state := .submitted } [7] (keccakHex [7]) ≠ .ok false := fun h => by
    have ht := (checkSigned_eq_false.mp h).2
    cases ht
  rw [Repeats, run_recordSigned checkRaw_seven, Store.rewriteRow_run (by decide) hf] at hr
  rcases he : Store.checkSigned { signedRow with state := .submitted } [7] (keccakHex [7]) with e | b
  · rw [he] at hr
    cases hr
  · cases b with
    | true => exact hc he
    | false => exact hc' he

end Xir.Impl
