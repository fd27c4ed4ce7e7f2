import Xir.Impl.XirLab.Approvals
import Xir.Impl.XirLab.Submission

/-!
# The ledger of approvals

`verify` checks an approval against the ledger and against the clock before the
transaction that consumes it. The transaction checks the ledger again, and not
the clock: an approval can be consumed after its window (`consumed_late`). If no
clock moves out of the window between the two readings, the ledger is `Lawful`
in every run of verifiers (`approvals_of_run`).
-/

namespace Xir.Impl.XirLab

open Prog (Triple Asked)

/-! ## Transactions -/

namespace ApprovalLedger

variable {l l' : ApprovalLedger} {c : ConsumptionRow} {r : RevocationRow}

/-- The sequence number is greater than those of the issuer in the ledger. -/
def Later (l : ApprovalLedger) (row : LedgerRow) : Prop :=
  ∀ other ∈ l.rows, other.issuerID = row.issuerID → other.issuerSequence < row.issuerSequence

theorem later_of_maximum {row : LedgerRow} (h : ¬ ∃ maximum ∈ l.maximum row.issuerID, row.issuerSequence ≤ maximum) :
    l.Later row := by
  intro other ho he
  have hm : other.issuerSequence ∈ (l.rows.filter (·.issuerID = row.issuerID)).map LedgerRow.issuerSequence :=
    List.mem_map_of_mem (List.mem_filter.mpr ⟨ho, by simpa using he⟩)
  by_contra hle
  cases hmax : l.maximum row.issuerID with
  | none =>
    rw [List.max?_eq_none_iff.mp hmax] at hm
    exact List.not_mem_nil hm
  | some maximum =>
    have := (List.max?_eq_some_iff.mp hmax).2 _ hm
    exact h ⟨maximum, hmax, by omega⟩

theorem insert_eq_ok {row : LedgerRow} (h : l.insert row = .ok l') : l'.rows = l.rows ++ [row] ∧ l'.Constraints := by
  unfold insert at h
  dsimp only at h
  split at h
  · cases h
    exact ⟨rfl, ‹_›⟩
  · cases h

theorem consume_eq_ok (h : l.consume c = .ok l') : (l'.rows = l.rows ++ [.consumption c] ∧ l'.Constraints) ∧
    l.Later (.consumption c) ∧ ∀ r ∈ l.revocations, r.approvalID ≠ c.approvalID := by
  obtain ⟨hr, h⟩ := revertIf_bind.mp h
  obtain ⟨hm, h⟩ := revertIf_bind.mp h
  refine ⟨insert_eq_ok (mapError_eq_ok.mp h), later_of_maximum hm, fun r hmem he => hr ?_⟩
  exact List.any_eq_true.mpr ⟨r, hmem, by simpa using he⟩

theorem revoke_eq_ok (h : l.revoke r = .ok l') : (l'.rows = l.rows ++ [.revocation r] ∧ l'.Constraints) ∧
    l.Later (.revocation r) := by
  obtain ⟨hm, h⟩ := revertIf_bind.mp h
  exact ⟨insert_eq_ok h, later_of_maximum hm⟩

/-- No gate of an intent passes whose approval is revoked. -/
theorem revalidate_unrevoked {s : Store} {id : String} {gates : GateEvidence} {phase : Phase} {t : TransactionRow}
    {intent : IntentRow} (ht : s.transaction id = some t) (hi : s.intent t.intentID = some intent)
    (hr : r ∈ l.revocations) (he : intent.approvalID = r.approvalID) :
    SubmissionCoordinator.revalidate (l.onto s) id gates phase ≠ .ok () := by
  intro h
  obtain ⟨t', ht', h⟩ := orRevert_bind.mp h
  obtain rfl : t = t' := Option.some.inj (ht.symm.trans ht')
  obtain ⟨intent', hi', h⟩ := orRevert_bind.mp h
  obtain rfl : intent = intent' := Option.some.inj (hi.symm.trans hi')
  obtain ⟨stage, -, h⟩ := orRevert_bind.mp h
  obtain ⟨attempt, -, h⟩ := orRevert_bind.mp h
  obtain ⟨mode, -, h⟩ := orRevert_bind.mp h
  obtain ⟨sub, -, h⟩ := orRevert_bind.mp h
  obtain ⟨-, h⟩ := revertIf_bind.mp h
  obtain ⟨nonce, -, h⟩ := orRevert_bind.mp h
  obtain ⟨budget, -, h⟩ := orRevert_bind.mp h
  obtain ⟨approval, -, h⟩ := orRevert_bind.mp h
  obtain ⟨-, h⟩ := revertIf_bind.mp h
  obtain ⟨-, h⟩ := revertIf_bind.mp h
  obtain ⟨unrevoked, -⟩ := revertIf_bind.mp h
  exact unrevoked (List.mem_map.mpr ⟨r, hr, he.symm⟩)

end ApprovalLedger

namespace ApprovalVerifier

variable [ApprovalLibraries]

open ApprovalLibraries

/-! ## Signatures -/

/-- What the holder of a key signs. -/
inductive Signable
  | approval (payload : ApprovalPayload)
  | revocation (payload : RevocationPayload)

/-- The message that is signed for it. -/
inductive Signable.Message : Signable → PyBytes → Prop
  | approval {payload : ApprovalPayload} {canonical : PyBytes} : dumpsApproval payload = .ok canonical →
    Message (.approval payload) (approvalDomain ++ 0 :: sha256 canonical)
  | revocation {payload : RevocationPayload} {canonical : PyBytes} : dumpsRevocation payload = .ok canonical →
    Message (.revocation payload) (revocationDomain ++ 0 :: sha256 canonical)

/-- Signatures cannot be forged, and digests tell payloads apart. -/
structure Ideal (signed : String → Signable → Prop) : Prop where
  unforgeable {key signature : String} {message : PyBytes} : ApprovalLibraries.verify key signature message = true →
    ∃ document, signed key document ∧ document.Message message
  approvals {p p' : ApprovalPayload} {c c' : PyBytes} : dumpsApproval p = .ok c → dumpsApproval p' = .ok c' →
    sha256 c = sha256 c' → p = p'
  revocations {p p' : RevocationPayload} {c c' : PyBytes} : dumpsRevocation p = .ok c → dumpsRevocation p' = .ok c' →
    sha256 c = sha256 c' → p = p'

variable {keys : List PinnedApprovalKey} {signed : String → Signable → Prop}
  {issuerID approvalKeyID payloadSHA256 signature : String}
  {canonical : Except LabError PyBytes} {domain : PyBytes} {key : PinnedApprovalKey}

theorem signatureMessage_hexdigest (data : PyBytes) :
    signatureMessage domain (hexdigest data) = some (domain ++ 0 :: sha256 data) := by
  rw [signatureMessage, hexdigest, String.toList_ofList, Hex.decode_encode]
  rfl

theorem verifySignature_eq_ok
    (h : verifySignature keys issuerID approvalKeyID canonical payloadSHA256 signature domain = .ok key) :
    key ∈ keys ∧ key.issuerID = issuerID ∧ key.approvalKeyID = approvalKeyID ∧ ∃ data, canonical = .ok data ∧
      hexdigest data = payloadSHA256 ∧
      ApprovalLibraries.verify key.publicKeyHex signature (domain ++ 0 :: sha256 data) = true := by
  obtain ⟨data, hc, h⟩ := bind_eq_ok.mp h
  obtain ⟨hd, h⟩ := revertIf_bind.mp h
  obtain ⟨key', hk, h⟩ := orRevert_bind.mp h
  obtain ⟨hi, h⟩ := revertIf_bind.mp h
  obtain ⟨message, hm, h⟩ := orRevert_bind.mp h
  obtain ⟨hv, h⟩ := revertIf_bind.mp h
  obtain rfl := pure_eq_ok.mp h
  rw [not_not] at hd hi
  rw [← hd, signatureMessage_hexdigest] at hm
  obtain rfl := Option.some.inj hm
  exact ⟨List.mem_reverse.mp (Dict.get_mem hk), hi, Dict.key_of_get hk, data, hc, hd, by simpa using hv⟩

omit [ApprovalLibraries] in
/-- The two domains keep the messages apart. -/
theorem domains_ne (digest digest' : PyBytes) : approvalDomain ++ 0 :: digest ≠ revocationDomain ++ 0 :: digest' := by
  intro h
  have hc := congrArg (fun message : PyBytes => message[16]?) h
  exact absurd hc (by simp [approvalDomain, revocationDomain, bytes])

theorem Ideal.approval (ideal : Ideal signed) {payload : ApprovalPayload} {data : PyBytes} {publicKeyHex : String}
    (hd : dumpsApproval payload = .ok data)
    (hv : ApprovalLibraries.verify publicKeyHex signature (approvalDomain ++ 0 :: sha256 data) = true) :
    signed publicKeyHex (.approval payload) := by
  obtain ⟨document, hs, hm⟩ := ideal.unforgeable hv
  generalize hmsg : approvalDomain ++ 0 :: sha256 data = message at hm
  cases hm with
  | approval hd' =>
    have he := List.cons.inj (List.append_cancel_left hmsg)
    rwa [ideal.approvals hd hd' he.2]
  | revocation => exact absurd hmsg (domains_ne _ _)

theorem Ideal.revocation (ideal : Ideal signed) {payload : RevocationPayload} {data : PyBytes} {publicKeyHex : String}
    (hd : dumpsRevocation payload = .ok data)
    (hv : ApprovalLibraries.verify publicKeyHex signature (revocationDomain ++ 0 :: sha256 data) = true) :
    signed publicKeyHex (.revocation payload) := by
  obtain ⟨document, hs, hm⟩ := ideal.unforgeable hv
  generalize hmsg : revocationDomain ++ 0 :: sha256 data = message at hm
  cases hm with
  | approval => exact absurd hmsg.symm (domains_ne _ _)
  | revocation hd' =>
    have he := List.cons.inj (List.append_cancel_left hmsg)
    rwa [ideal.revocations hd hd' he.2]

/-! ## Rows -/

/-- The row is of a payload that the holder of a key signed, which is pinned for its issuer. -/
structure Approved (keys : List PinnedApprovalKey) (signed : String → Signable → Prop) (row : ConsumptionRow)
    (payload : ApprovalPayload) : Prop where
  key : ∃ key ∈ keys, key.issuerID = row.issuerID ∧ key.approvalKeyID = row.approvalKeyID ∧
    signed key.publicKeyHex (.approval payload)
  digest : ∃ data, dumpsApproval payload = .ok data ∧ hexdigest data = row.payloadSHA256
  ids : row.approvalID = payload.approvalID ∧ row.issuerID = payload.issuerID ∧
    row.approvalKeyID = payload.approvalKeyID
  issuerSequence : row.issuerSequence = payload.issuerSequence
  operation : row.operationType = payload.operationType ∧ row.operationID = payload.operationID
  window : parseTime payload.validFrom = .ok row.validFrom ∧ parseTime payload.validUntil = .ok row.validUntil

structure Revoked (keys : List PinnedApprovalKey) (signed : String → Signable → Prop) (row : RevocationRow)
    (payload : RevocationPayload) : Prop where
  key : ∃ key ∈ keys, key.issuerID = row.issuerID ∧ key.approvalKeyID = row.approvalKeyID ∧
    signed key.publicKeyHex (.revocation payload)
  digest : ∃ data, dumpsRevocation payload = .ok data ∧ hexdigest data = row.payloadSHA256
  ids : row.revocationID = payload.revocationID ∧ row.approvalID = payload.approvalID ∧
    row.issuerID = payload.issuerID ∧ row.approvalKeyID = payload.approvalKeyID
  issuerSequence : row.issuerSequence = payload.issuerSequence
  revokedAt : parseTime payload.revokedAt = .ok row.revokedAt

/-- The row is of a payload that was signed, under the domain of its table. -/
def Authorized (keys : List PinnedApprovalKey) (signed : String → Signable → Prop) : LedgerRow → Prop
  | .consumption row => ∃ payload, Approved keys signed row payload
  | .revocation row => ∃ payload, Revoked keys signed row payload

/-- The approval was consumed in its window. -/
def Timely (row : ConsumptionRow) : Prop := row.validFrom ≤ row.consumedAt ∧ row.consumedAt < row.validUntil

structure Lawful (keys : List PinnedApprovalKey) (signed : String → Signable → Prop) (l : ApprovalLedger) : Prop where
  once : (l.consumptions.map (·.approvalID)).Nodup
  timely : ∀ c ∈ l.consumptions, Timely c
  unrevoked : l.rows.Pairwise fun a b => ∀ r c, a = .revocation r → b = .consumption c → r.approvalID ≠ c.approvalID
  increasing : l.rows.Pairwise fun a b => a.issuerID = b.issuerID → a.issuerSequence < b.issuerSequence
  authorized : ∀ row ∈ l.rows, Authorized keys signed row

variable {l l' : ApprovalLedger}

/-- What an operation needs, for the ledger to stay lawful. -/
def Needs (keys : List PinnedApprovalKey) (signed : String → Signable → Prop) : ApprovalOp → Prop
  | .consume row => Timely row ∧ Authorized keys signed (.consumption row)
  | .revoke row => Authorized keys signed (.revocation row)
  | _ => True

/-- One more row. -/
theorem Lawful.snoc {row : LedgerRow} (h : Lawful keys signed l) (hrows : l'.rows = l.rows ++ [row])
    (hc : l'.Constraints) (later : l.Later row) (timely : ∀ c, row = .consumption c → Timely c)
    (unrevoked : ∀ c, row = .consumption c → ∀ r ∈ l.revocations, r.approvalID ≠ c.approvalID)
    (authorized : Authorized keys signed row) : Lawful keys signed l' := by
  have hcons : l'.consumptions = l.consumptions ++ [row].filterMap LedgerRow.consumption? := by
    rw [ApprovalLedger.consumptions, hrows, List.filterMap_append]
    rfl
  refine ⟨?_, fun c hm => ?_, ?_, ?_, ?_⟩
  · have := hc.2.1
    rwa [Table.Unique, List.filterMap_eq_map'] at this
  · rw [hcons] at hm
    rcases List.mem_append.mp hm with hm | hm
    · exact h.timely c hm
    · cases row with
      | consumption => exact timely c (congrArg _ (List.mem_singleton.mp hm).symm)
      | revocation => exact absurd hm List.not_mem_nil
  · rw [hrows]
    refine List.pairwise_append.mpr ⟨h.unrevoked, List.pairwise_singleton .., fun a ha b hb r c hr hc => ?_⟩
    obtain rfl := List.mem_singleton.mp hb
    exact unrevoked c hc r (List.mem_filterMap.mpr ⟨a, ha, hr ▸ rfl⟩)
  · rw [hrows]
    refine List.pairwise_append.mpr ⟨h.increasing, List.pairwise_singleton .., fun a ha b hb he => ?_⟩
    obtain rfl := List.mem_singleton.mp hb
    exact later a ha he
  · rw [hrows]
    intro x hx
    rcases List.mem_append.mp hx with hx | hx
    · exact h.authorized x hx
    · exact List.mem_singleton.mp hx ▸ authorized

theorem Lawful.answers {op : ApprovalOp} {a : Except LabError op.Answer} (h : Lawful keys signed l)
    (needs : Needs keys signed op) (ha : Answers l op a l') : Lawful keys signed l' ∧ l.rows <+: l'.rows := by
  cases ha with
  | consume ht =>
    obtain ⟨⟨hrows, hc⟩, later, unrevoked⟩ := ApprovalLedger.consume_eq_ok ht
    refine ⟨h.snoc hrows hc later (fun c hc => ?_) (fun c hc => ?_) needs.2, hrows ▸ List.prefix_append ..⟩
    · cases hc
      exact needs.1
    · cases hc
      exact unrevoked
  | revoke ht =>
    obtain ⟨⟨hrows, hc⟩, later⟩ := ApprovalLedger.revoke_eq_ok ht
    exact ⟨h.snoc hrows hc later nofun nofun needs, hrows ▸ List.prefix_append ..⟩
  | _ => exact ⟨h, List.prefix_rfl⟩

/-! ## Calls -/

/-- A reading of the clock for a consumption falls into the window. -/
def InWindow : (op : ApprovalOp) → Except LabError op.Answer → Prop
  | .clock (.consume validFrom validUntil), a => ∀ now, a = .ok now → validFrom ≤ now ∧ now < validUntil
  | _, _ => True

/-- The operations, with a clock that does not leave a window before the approval is consumed. -/
def TimelyAnswers (op : ApprovalOp) (l : ApprovalLedger) (a : Except LabError op.Answer) (l' : ApprovalLedger) : Prop :=
  Answers l op a l' ∧ InWindow op a

/-- A program goes on lawfully. -/
abbrev Goes (keys : List PinnedApprovalKey) (signed : String → Signable → Prop) {α : Type} (l : ApprovalLedger)
    (p : Program α) : Prop :=
  Threads.Ready TimelyAnswers (Lawful keys signed) (fun _ _ => True) (fun op _ => Needs keys signed op) l p

/-- What `verify` has checked. -/
structure Checked (keys : List PinnedApprovalKey) (document : ApprovalDocument) (now : Option Int)
    (verified : VerifiedApproval) : Prop where
  fields : verified = ⟨document.payload.approvalID, document.payload.operationType, document.payload.operationID,
    document.payloadSHA256, document.payload.issuerSequence⟩
  signature : ∃ key, verifySignature keys document.payload.issuerID document.payload.approvalKeyID
    (dumpsApproval document.payload) document.payloadSHA256 document.signature approvalDomain = .ok key
  window {current : Int} :
    now = some current → ∃ validFrom validUntil, parseTime document.payload.validFrom = .ok validFrom ∧
    parseTime document.payload.validUntil = .ok validUntil ∧ validFrom ≤ current ∧ current < validUntil

omit [ApprovalLibraries] in
theorem current_returns {α : Type} {φ : α → Prop} {now : Option Int} {reading : ClockReading} {f : Int → Program α}
    (hf : ∀ t, (∀ t', now = some t' → t' = t) → (f t).Returns φ) : (current now reading >>= f).Returns φ := by
  cases now with
  | some t => exact hf t fun _ h => (Option.some.inj h).symm
  | none => exact .bind fun t => hf t nofun

theorem verify_returns (document : ApprovalDocument) (now : Option Int) :
    (verify keys document now).Returns (Checked keys document now) := by
  refine .ofExcept_bind fun _ _ => .ofExcept_bind fun key signature => .ofExcept_bind fun issuedAt _ => ?_
  refine .ofExcept_bind fun validFrom hf => .ofExcept_bind fun validUntil hu => current_returns fun current hnow => ?_
  refine .ofExcept_bind fun _ _ => .ofExcept_bind fun _ hw => .bind fun revoked => .bind fun consumed => ?_
  refine .bind fun maximum => .ofExcept_bind fun _ _ => .ofExcept_bind fun _ _ => .ofExcept_bind fun _ _ => ?_
  refine .done ⟨rfl, ⟨key, signature⟩, fun ht => ⟨validFrom, validUntil, hf, hu, ?_⟩⟩
  exact hnow _ ht ▸ not_not.mp (revertIf_eq_ok.mp hw)

/-- An operation of `verify`: it reads the clock or the ledger. -/
def Reads : ApprovalOp → Prop
  | .consume _ | .revoke _ => False
  | _ => True

omit [ApprovalLibraries] in
theorem read_asks {op : ApprovalOp} (h : Reads op) : (read op).Asks Reads :=
  .op h fun a => by
    cases a with
    | ok a => exact .done a
    | error e => exact .fail _

omit [ApprovalLibraries] in
theorem current_asks (now : Option Int) (reading : ClockReading) : (current now reading).Asks Reads := by
  cases now with
  | some t => exact .done t
  | none => exact .call trivial

theorem verify_asks (document : ApprovalDocument) (now : Option Int) : (verify keys document now).Asks Reads := by
  refine .ofExcept_bind fun _ _ => .ofExcept_bind fun _ _ => .ofExcept_bind fun _ _ => .ofExcept_bind fun _ _ => ?_
  refine .ofExcept_bind fun _ _ =>
    .bind (current_asks ..) fun _ => .ofExcept_bind fun _ _ => .ofExcept_bind fun _ _ => ?_
  refine .bind (read_asks trivial) fun _ => .bind (read_asks trivial) fun _ => .bind (read_asks trivial) fun _ => ?_
  exact .ofExcept_bind fun _ _ => .ofExcept_bind fun _ _ => .ofExcept_bind fun _ _ => .done _

theorem goes_of_reads {α : Type} {p : Program α} (h : p.Asks Reads) (l : ApprovalLedger) : Goes keys signed l p :=
  .of_asks (h.mono fun op hop => by
    cases op with
    | consume | revoke => exact hop.elim
    | _ => exact fun _ => trivial) l

/-- The time of the consumption is in the window. -/
theorem goes_current {α : Type} {now : Option Int} {validFrom validUntil : Int} {f : Int → Program α}
    (l : ApprovalLedger) (hnow : ∀ t, now = some t → validFrom ≤ t ∧ t < validUntil)
    (hf : ∀ l t, validFrom ≤ t ∧ t < validUntil → Goes keys signed l (f t)) :
    Goes keys signed l (current now (.consume validFrom validUntil) >>= f) := by
  cases now with
  | some t => exact hf l t (hnow t rfl)
  | none => exact .call_bind (fun _ _ _ => trivial) fun _ t l' _ _ ha _ => hf l' t (ha.2 t rfl)

theorem goes_verifyAndConsume (ideal : Ideal signed) (l : ApprovalLedger) (document : ApprovalDocument)
    (now : Option Int) :
    Goes keys signed l (verifyAndConsume keys document now) := by
  refine .bind_of (goes_of_reads (verify_asks ..) l) (verify_returns ..) fun l verified checked => ?_
  refine .ofExcept_bind fun _ _ => .ofExcept_bind fun validFrom hf => .ofExcept_bind fun validUntil hu => ?_
  refine goes_current l
    (fun t ht => ?_) fun l t window => .call_bind (fun _ _ _ => ⟨window, ?_⟩) fun _ _ _ _ _ _ _ => .done _ _
  · obtain ⟨validFrom', validUntil', hf', hu', window⟩ := checked.window ht
    obtain rfl := Except.ok.inj (hf.symm.trans hf')
    obtain rfl := Except.ok.inj (hu.symm.trans hu')
    exact window
  · obtain ⟨key, hs⟩ := checked.signature
    obtain ⟨hk, hi, hid, data, hd, hdigest, hv⟩ := verifySignature_eq_ok hs
    rw [checked.fields]
    exact ⟨document.payload, ⟨key, hk, hi, hid, ideal.approval hd hv⟩, ⟨data, hd, hdigest⟩, ⟨rfl, rfl, rfl⟩, rfl,
      ⟨rfl, rfl⟩, hf, hu⟩

theorem goes_verifyAndRecordRevocation (ideal : Ideal signed) (l : ApprovalLedger) (document : RevocationDocument) :
    Goes keys signed l (verifyAndRecordRevocation keys document) := by
  refine .ofExcept_bind fun _ _ => .ofExcept_bind fun key hs => .ofExcept_bind fun revokedAt hr => ?_
  refine .op (fun _ _ _ => ?_) fun _ a _ _ _ _ _ => .ofExcept a
  obtain ⟨hk, hi, hid, data, hd, hdigest, hv⟩ := verifySignature_eq_ok hs
  exact ⟨document.payload, ⟨key, hk, hi, hid, ideal.revocation hd hv⟩, ⟨data, hd, hdigest⟩,
    ⟨rfl, rfl, rfl, rfl⟩, rfl, hr⟩

theorem Call.goes (ideal : Ideal signed) (l : ApprovalLedger) (c : Call) : Goes keys signed l (c.prog keys) := by
  cases c with
  | verifyAndConsume document now => exact .bind (goes_verifyAndConsume ideal l document now) fun _ _ => .done _ _
  | verifyAndRecordRevocation document => exact goes_verifyAndRecordRevocation ideal l document

/-! ## Calls that fail -/

/-- What was asked in a run of a call. -/
abbrev Record := List (Asked ApprovalOp (fun op => Except LabError op.Answer) ApprovalLedger)

/-- Nothing that was asked has changed the ledger. -/
def Unchanged (x : ApprovalLedger × Record) : Prop := ∀ e ∈ x.2, e.after = e.before

/-- A call that fails has changed nothing, whatever happens to the ledger meanwhile. -/
abbrev Fails {α : Type} (env : ApprovalLedger → ApprovalLedger → Prop) (p : Program α)
    (Q : ApprovalLedger × Record → Prop) :
    Prop :=
  Triple (Prog.Recorded (fun op l => Answers l op) env) (fun _ => True) (fun _ => Unchanged) Unchanged p fun _ => Q

variable {env : ApprovalLedger → ApprovalLedger → Prop}

omit [ApprovalLibraries] in
theorem Unchanged.snoc {es : Record} {op : ApprovalOp} {a : Except LabError op.Answer} (h : Unchanged (l, es))
    (l₀ : ApprovalLedger) :
    Unchanged (l₀, es ++ [⟨op, l₀, a, l₀⟩]) := fun e he => by
  rcases List.mem_append.mp he with he | he
  · exact h e he
  · exact List.mem_singleton.mp he ▸ rfl

omit [ApprovalLibraries] in
theorem Answers.reads {op : ApprovalOp} {a : Except LabError op.Answer} (hop : Reads op)
    (ha : Answers l op a l') : l' = l := by
  cases ha with
  | consume | revoke => exact hop.elim
  | _ => rfl

omit [ApprovalLibraries] in
theorem fails_of_reads {α : Type} {p : Program α} (h : p.Asks Reads) : Fails env p Unchanged := by
  induction h with
  | done a => exact .done (fun _ _ => trivial) fun _ h => h
  | fail e => exact .fail (fun _ _ => trivial) fun _ h => h
  | op hop _ ih =>
    refine .op (fun _ _ => trivial) (fun _ => Unchanged) (fun s a s' hu hs => ?_) ih
    cases hs with
    | step _ ha => exact ha.reads hop ▸ hu.snoc _

omit [ApprovalLibraries] in
/-- A transaction changes the ledger only if it does not fail. -/
theorem fails_call (op : ApprovalOp) : Fails env (call op) fun _ => True := by
  refine .call (fun _ _ => True) (fun _ _ => trivial)
    (fun _ _ _ _ _ => ⟨trivial, trivial⟩) fun s e s' hu hs => ⟨trivial, ?_⟩
  cases hs with
  | step _ ha =>
    cases ha with
    | raises => exact hu.snoc _

omit [ApprovalLibraries] in
theorem fails_ofExcept_bind {α β : Type} {x : Except LabError β} {f : β → Program α}
    {Q : ApprovalLedger × Record → Prop} (hf : ∀ b, Fails env (f b) Q) : Fails env (Prog.ofExcept x >>= f) Q :=
  .ofExcept_bind (fun _ _ => trivial) (fun _ _ h => h) fun b _ => hf b

theorem fails_verifyAndConsume (document : ApprovalDocument) (now : Option Int) :
    Fails env (verifyAndConsume keys document now) fun _ => True := by
  refine .bind (fails_of_reads (verify_asks document now)) fun verified => fails_ofExcept_bind fun _ => ?_
  refine fails_ofExcept_bind fun validFrom => fails_ofExcept_bind fun validUntil => ?_
  refine .bind (fails_of_reads (current_asks now _)) fun t => .bind (fails_call _) fun _ => ?_
  exact .done (fun _ _ => trivial) fun _ _ => trivial

theorem Call.fails (c : Call) : Fails env (c.prog keys) fun _ => True := by
  cases c with
  | verifyAndConsume document now =>
    exact .bind (fails_verifyAndConsume document now) fun _ => .done (fun _ _ => trivial) fun _ _ => trivial
  | verifyAndRecordRevocation document =>
    exact fails_ofExcept_bind fun _ => fails_ofExcept_bind fun _ => fails_ofExcept_bind fun _ => fails_call _

/-! ## Runs -/

section

variable {τ : Type} [DecidableEq τ] {v v' v'' : Verifiers τ}

/-- A step of a verifier, by a clock that does not leave a window before the approval is consumed. -/
abbrev TimelyStep (keys : List PinnedApprovalKey) :
    Verifiers τ → Threads.Event τ Call ApprovalOp → Verifiers τ → Prop :=
  Threads.Step TimelyAnswers (Call.prog keys)

/-- A lawful ledger, and verifiers that go on lawfully. -/
def Going (keys : List PinnedApprovalKey) (signed : String → Signable → Prop) (v : Verifiers τ) : Prop :=
  Lawful keys signed v.shared ∧ ∀ i, Goes keys signed v.shared (v.progs i)

theorem Going.of_run (ideal : Ideal signed) {es : List (Threads.Event τ Call ApprovalOp)} (h : Going keys signed v)
    (run : Run (TimelyStep keys) v es v') : Going keys signed v' := by
  have world : Run (Threads.WorldStep TimelyAnswers (Call.prog keys) fun _ (_ : Empty) _ => False) v _ v' :=
    run.map Sum.inl .thread
  exact Threads.ready_of_run (fun _ => trivial) (fun _ _ _ _ _ => trivial) (fun l c _ => c.goes ideal l)
    (fun hl needs ha => ⟨(hl.answers needs ha.1).1, trivial⟩) (fun _ he => he.elim) world h

/-- The ledger only grows. -/
theorem rows_prefix {es : List (Threads.Event τ Call ApprovalOp)} (run : Run (VerifierStep keys) v es v') :
    v.shared.rows <+: v'.shared.rows := by
  refine run.mono (R := fun v v' => v.shared.rows <+: v'.shared.rows) (fun _ => List.prefix_rfl) List.IsPrefix.trans ?_
  intro v e v' hs
  cases hs with
  | start => exact List.prefix_rfl
  | answer _ ha =>
    cases ha with
    | consume h => exact (ApprovalLedger.consume_eq_ok h).1.1 ▸ List.prefix_append ..
    | revoke h => exact (ApprovalLedger.revoke_eq_ok h).1.1 ▸ List.prefix_append ..
    | _ => exact List.prefix_rfl

/-- No gate of an intent passes whose approval is revoked. -/
def Blocked (l : ApprovalLedger) (approvalID : String) : Prop :=
  ∀ (s : Store) (id : String) (gates : GateEvidence) (phase : Phase) (t : TransactionRow) (intent : IntentRow),
    s.transaction id = some t → s.intent t.intentID = some intent → intent.approvalID = approvalID →
    SubmissionCoordinator.revalidate (l.onto s) id gates phase ≠ .ok ()

/-- In a run in which the clock does not leave the window of an approval between
its verification and its consumption, the ledger is lawful and only grows, a
revocation blocks the gates from then on, and a call that fails changes nothing. -/
theorem approvals_of_run {es es' : List (Threads.Event τ Call ApprovalOp)} (ideal : Ideal signed)
    (empty : v.shared = ⟨[]⟩) (idle : ∀ i, v.progs i = .done ()) (run : Run (TimelyStep keys) v es v')
    (later : Run (TimelyStep keys) v' es' v'') :
    Lawful keys signed v''.shared ∧ v'.shared.rows <+: v''.shared.rows ∧
      (∀ r ∈ v'.shared.revocations, Blocked v''.shared r.approvalID) ∧
      ∀ (call : Call) (env : ApprovalLedger → ApprovalLedger → Prop), Fails env (call.prog keys) fun _ => True := by
  have start : Going keys signed v := by
    refine ⟨empty ▸ ⟨.nil, nofun, .nil, .nil, nofun⟩, fun i => ?_⟩
    rw [idle i]
    exact .done _ _
  have grown : v'.shared.rows <+: v''.shared.rows := rows_prefix (later.imp fun hs => hs.imp fun ha => ha.1)
  refine ⟨((start.of_run ideal run).of_run ideal later).1, grown, fun r hr s id gates phase t intent ht hi he => ?_,
    fun call env => call.fails⟩
  exact ApprovalLedger.revalidate_unrevoked ht hi ((grown.filterMap _).subset hr) he

end

end ApprovalVerifier

/-! ## One approval -/

namespace ApprovalVerifier

/-- The answers, where the clock shows what it is given to show. -/
def answer (clock : ClockReading → Except LabError Int) :
    (op : ApprovalOp) → ApprovalLedger → Except LabError op.Answer × ApprovalLedger
  | .clock reading, l => (clock reading, l)
  | .revoked approvalID, l => (.ok (l.revoked approvalID), l)
  | .consumed approvalID, l => (.ok (l.consumed approvalID), l)
  | .maximum issuerID, l => (.ok (l.maximum issuerID), l)
  | .consume row, l => match l.consume row with
    | .ok l' => (.ok (), l')
    | .error e => (.error e, l)
  | .revoke row, l => match l.revoke row with
    | .ok l' => (.ok (), l')
    | .error e => (.error e, l)

theorem answer_answers (clock : ClockReading → Except LabError Int) (op : ApprovalOp) (l : ApprovalLedger) :
    Answers l op (answer clock op l).1 (answer clock op l).2 := by
  cases op with
  | clock reading =>
    rw [answer]
    cases clock reading with
    | ok now => exact .clock reading now
    | error e => exact .raises _ e
  | revoked | consumed | maximum => constructor
  | consume row =>
    rw [answer]
    cases h : l.consume row with
    | ok l' => exact .consume h
    | error e => exact .raises _ e
  | revoke row =>
    rw [answer]
    cases h : l.revoke row with
    | ok l' => exact .revoke h
    | error e => exact .raises _ e

def someApproval : ApprovalPayload :=
  ⟨"approval-1", "issuer-1", "key-1", 1, "pilot", "operation-1", "0Z", "0Z", "10Z", "{}"⟩

def someRevocation : RevocationPayload := ⟨"revocation-1", "approval-1", "issuer-1", "key-1", 2, "7Z", "reason"⟩

/-- The digests of the two. -/
def approvalDigest : PyBytes := List.replicate 32 1

def revocationDigest : PyBytes := List.replicate 32 2

/-- Libraries that know the two payloads, and their signatures. -/
@[reducible] def someApprovalLibraries : ApprovalLibraries where
  sha256 data := data
  dumpsApproval payload := if payload = someApproval then .ok approvalDigest else .error .integerDomainError
  dumpsRevocation payload := if payload = someRevocation then .ok revocationDigest else .error .integerDomainError
  validateApproval _ := .ok ()
  validateRevocation _ := .ok ()
  fromISOFormat text := .ok ⟨if text = "10+00:00" then 10 else 0, true⟩
  verify _ _ message :=
    message = approvalDomain ++ 0 :: approvalDigest ∨ message = revocationDomain ++ 0 :: revocationDigest

/-- Every key has signed these two. -/
def SomeSigned (_ : String) (document : Signable) : Prop :=
  document = .approval someApproval ∨ document = .revocation someRevocation

theorem someIdeal : @Ideal someApprovalLibraries SomeSigned := by
  let _ := someApprovalLibraries
  have approval {payload : ApprovalPayload} {data : PyBytes} (h : ApprovalLibraries.dumpsApproval payload = .ok data) :
      payload = someApproval := by
    by_contra hne
    rw [show ApprovalLibraries.dumpsApproval payload = .error .integerDomainError from if_neg hne] at h
    cases h
  have revocation {payload : RevocationPayload} {data : PyBytes}
      (h : ApprovalLibraries.dumpsRevocation payload = .ok data) :
      payload = someRevocation := by
    by_contra hne
    rw [show ApprovalLibraries.dumpsRevocation payload = .error .integerDomainError from if_neg hne] at h
    cases h
  refine ⟨fun h => ?_, fun h h' _ => (approval h).trans (approval h').symm,
    fun h h' _ => (revocation h).trans (revocation h').symm⟩
  obtain rfl | rfl := of_decide_eq_true h
  · exact ⟨.approval someApproval, .inl rfl, .approval (if_pos rfl)⟩
  · exact ⟨.revocation someRevocation, .inr rfl, .revocation (if_pos rfl)⟩

def someKey : PinnedApprovalKey := ⟨"issuer-1", "key-1", "00"⟩

def someDocument : ApprovalDocument := ⟨someApproval, String.ofList (Hex.encode approvalDigest), "00"⟩

def someRevoking : RevocationDocument := ⟨someRevocation, String.ofList (Hex.encode revocationDigest), "00"⟩

/-- The row of the approval, consumed at a time. -/
def someRow (consumedAt : Int) : ConsumptionRow :=
  ⟨"approval-1", "issuer-1", "key-1", 1, "pilot", "operation-1", someDocument.payloadSHA256, 0, 10, consumedAt⟩

def someRevoked : RevocationRow := ⟨"revocation-1", "approval-1", "issuer-1", "key-1", 2, someRevoking.payloadSHA256, 0⟩

/-- One verifier. -/
abbrev oneVerifier (rows : List LedgerRow) (p : Program Unit) : Verifiers Unit := ⟨⟨rows⟩, fun _ => p⟩

/-- A clock that shows 5, and then 6 if the approval has not expired. -/
def timelyClock : ClockReading → Except LabError Int
  | .verify => .ok 5
  | .consume validFrom validUntil => if validFrom ≤ 6 ∧ 6 < validUntil then .ok 6 else .error .osError

theorem timelyClock_answers (op : ApprovalOp) (l : ApprovalLedger) :
    TimelyAnswers op l (answer timelyClock op l).1 (answer timelyClock op l).2 := by
  refine ⟨answer_answers timelyClock op l, ?_⟩
  cases op with
  | clock reading =>
    cases reading with
    | verify => trivial
    | consume validFrom validUntil =>
      intro now hn
      change timelyClock (.consume validFrom validUntil) = .ok now at hn
      rw [timelyClock] at hn
      split at hn
      · cases hn
        assumption
      · cases hn
  | _ => trivial

/-- The approval is consumed, by two readings of the clock, and is then revoked. -/
theorem approvals_of_run_revoke :
    let l : ApprovalLedger := ⟨[.consumption (someRow 6), .revocation someRevoked]⟩
    @Lawful someApprovalLibraries [someKey] SomeSigned l ∧ Blocked l "approval-1" := by
  let _ := someApprovalLibraries
  obtain ⟨_, p, consumed⟩ : ∃ es p, Run (TimelyStep [someKey]) (oneVerifier [] (.done ())) es
      (oneVerifier [.consumption (someRow 6)] p) :=
    Threads.run_call timelyClock_answers (Call.prog [someKey]) (.verifyAndConsume someDocument none) ⟨[]⟩ _
  obtain ⟨_, p', revoked⟩ : ∃ es p', Run (TimelyStep [someKey]) (oneVerifier [.consumption (someRow 6)] p) es
      (oneVerifier [.consumption (someRow 6), .revocation someRevoked] p') :=
    Threads.run_call timelyClock_answers (Call.prog [someKey]) (.verifyAndRecordRevocation someRevoking) _ p
  have h : Lawful _ _ _ ∧ _ ∧ _ ∧ _ := approvals_of_run someIdeal rfl (fun _ => rfl) (consumed.append revoked) (.nil _)
  exact ⟨h.1, h.2.2.1 someRevoked (List.mem_singleton_self _)⟩

/-- The clock shows a time in the window, and one after it when the approval is consumed. -/
theorem consumed_late : ¬ ∀ [ApprovalLibraries] (keys : List PinnedApprovalKey) (signed : String → Signable → Prop)
    (v v' : Verifiers Unit) (es : List (Threads.Event Unit Call ApprovalOp)), Ideal signed → v.shared = ⟨[]⟩ →
    (∀ i, v.progs i = .done ()) → Run (VerifierStep keys) v es v' → ∀ c ∈ v'.shared.consumptions, Timely c := by
  intro h
  let _ := someApprovalLibraries
  let clock : ClockReading → Except LabError Int := fun
    | .verify => .ok 5
    | .consume .. => .ok 20
  obtain ⟨_, p, run⟩ : ∃ es p, Run (VerifierStep [someKey]) (oneVerifier [] (.done ())) es
      (oneVerifier [.consumption (someRow 20)] p) :=
    Threads.run_call (answer_answers clock) (Call.prog [someKey]) (.verifyAndConsume someDocument none) ⟨[]⟩ _
  have timely : Timely (someRow 20) :=
    h [someKey] _ _ _ _ someIdeal rfl (fun _ => rfl) run (someRow 20) List.mem_cons_self
  exact absurd timely.2 (by decide)

end ApprovalVerifier

end Xir.Impl.XirLab
