import Xir.Framework.Run
import Xir.Proof.Calls

/-!
# The life of a row

A row that only writes that land have changed (`RowStep`) goes through the states
in the order of their ranks, stays in a terminal one, and keeps the signed bytes
that it was given.
-/

namespace Xir.Impl

variable [Unicode] [Digests]

/-- What holds of every row of the ledger: its state has a rank, and from `signed` on it holds
signed bytes beside their hash. -/
structure RowOk (a : Action) : Prop where
  rank : ∃ n, actionRank a.state = .ok n
  raw : a.rawTransactionHex ≠ "" →
    a.state ≠ .intended ∧ ∃ b, a.rawTransactionHex = encodeHex b ∧ a.transactionHash = keccakHex b
  signed : a.state = .signed ∨ a.state = .submitted → a.rawTransactionHex ≠ ""
  hash : a.state = .succeeded → a.transactionHash ≠ ""

theorem RowOk.normalised {requested : Action} (hv : Store.validateIntend requested = .ok ()) :
    RowOk (Store.normalised requested) := by
  obtain ⟨-, -, hs, -⟩ := validateIntend_eq_ok.mp hv
  have hi : (if requested.state = .unset then ActionState.intended else requested.state) = .intended := by
    rcases hs with h | h <;> simp [h]
  rw [Store.normalised, hi]
  exact ⟨⟨0, rfl⟩, fun h => absurd rfl h, fun h => by simp at h, fun h => by simp at h⟩

theorem RowStep.rowOk {a a' : Action} (h : RowStep a a') (ha : RowOk a) : RowOk a' := by
  cases h with
  | keep => exact ha
  | @write c w makes update read =>
    subst read
    cases makes with
    | intend => exact absurd rfl (update _ _)
    | recordSigned harg hc hd =>
      obtain ⟨-, -, -, rfl⟩ := checkRaw_eq_ok.mp harg
      exact ⟨⟨1, rfl⟩, fun _ => ⟨ActionState.noConfusion, _, rfl, rfl⟩, fun _ => encodeHex_ne_empty _,
        fun h => ActionState.noConfusion h⟩
    | @observe id s detail n a m time harg hc hd =>
      obtain ⟨hx, ht⟩ := checkObserved_eq_false.mp hc
      refine ⟨⟨n, harg⟩, fun hr => ⟨?_, (ha.raw hr).2⟩, fun hs => hx (hs.imp_right .inl), fun hs => ?_⟩
      · rintro rfl
        have hne : a.state ≠ .intended := (ha.raw hr).1
        rw [if_neg hne] at ht
        obtain ⟨k, hk⟩ := ha.rank
        obtain rfl : k = 0 := Nat.le_zero.mp (checkTransition_le ht hk rfl)
        rcases actionRank_eq_ok hk with ⟨h, -⟩ | ⟨-, h⟩ | ⟨-, h⟩ | ⟨-, h⟩ | ⟨-, h⟩
        · exact hne h
        all_goals cases h
      · obtain ⟨-, b, -, hb⟩ := ha.raw (hx (.inr (.inr hs)))
        exact hb ▸ encodeHex_ne_empty _
    | @succeed id canonical r a m time harg hc hd =>
      obtain ⟨hh, -, -⟩ := checkSucceeded_eq_false.mp hc
      have hne := canonicalHash_ne_empty (checkResult_eq_ok.mp harg).1
      refine ⟨⟨3, rfl⟩, fun hr => ⟨ActionState.noConfusion, ?_⟩, ?_, fun _ => ?_⟩
      · obtain ⟨b, hb, hk⟩ := (ha.raw hr).2
        refine ⟨b, hb, ?_⟩
        show (if canonical = "" then a.transactionHash else canonical) = _
        rw [if_neg hne, ← hh (hk ▸ encodeHex_ne_empty _)]
        exact hk
      · rintro (h | h) <;> cases h
      · show (if canonical = "" then a.transactionHash else canonical) ≠ ""
        rwa [if_neg hne]

theorem RowStep.rank_le {a a' : Action} (h : RowStep a a') {m n : Nat} (hm : actionRank a.state = .ok m)
    (hn : actionRank a'.state = .ok n) : m ≤ n := by
  cases h with
  | keep => exact (Except.ok.inj (hm.symm.trans hn)).le
  | write makes update read =>
    subst read
    cases makes with
    | intend => exact absurd rfl (update _ _)
    | recordSigned harg hc hd => exact checkTransition_le (checkSigned_eq_false.mp hc).2 hm hn
    | observe harg hc hd =>
      have ht := (checkObserved_eq_false.mp hc).2
      split at ht
      · next hs => exact (Except.ok.inj (hm.symm.trans ((congrArg actionRank hs).trans hn))).le
      · exact checkTransition_le ht hm hn
    | succeed harg hc hd => exact checkTransition_le (checkSucceeded_eq_false.mp hc).2.2 hm hn

/-- A terminal state is not left. -/
theorem RowStep.terminal {a a' : Action} (h : RowStep a a') (ht : a.state = .succeeded ∨ a.state = .failed) :
    a'.state = a.state := by
  cases h with
  | keep => rfl
  | write makes update read =>
    subst read
    cases makes with
    | intend => exact absurd rfl (update _ _)
    | recordSigned harg hc hd => exact checkTransition_terminal (checkSigned_eq_false.mp hc).2 ht
    | observe harg hc hd =>
      have hs := (checkObserved_eq_false.mp hc).2
      split at hs
      · next h => exact h.symm
      · exact checkTransition_terminal hs ht
    | succeed harg hc hd => exact checkTransition_terminal (checkSucceeded_eq_false.mp hc).2.2 ht

/-- Signed bytes stay, with their hash. -/
theorem RowStep.signed {a a' : Action} (h : RowStep a a') (ha : RowOk a) (hr : a.rawTransactionHex ≠ "") :
    a'.rawTransactionHex = a.rawTransactionHex ∧ a'.transactionHash = a.transactionHash := by
  obtain ⟨-, b, hb, hk⟩ := ha.raw hr
  cases h with
  | keep => exact ⟨rfl, rfl⟩
  | write makes update read =>
    subst read
    cases makes with
    | intend => exact absurd rfl (update _ _)
    | @recordSigned id hash canonical raw a d time harg hc hd =>
      obtain ⟨hraw, hh, -, -⟩ := (checkSigned_eq_false.mp hc).1 hr
      have hb' : a.rawTransactionHex = encodeHex b := hb
      rw [hb', decodeHex_encodeHex] at hraw
      obtain rfl := Except.ok.inj hraw
      exact ⟨hb'.symm, hh.symm⟩
    | observe harg hc hd => exact ⟨rfl, rfl⟩
    | @succeed id canonical r a m time harg hc hd =>
      refine ⟨rfl, ?_⟩
      show (if canonical = "" then a.transactionHash else canonical) = a.transactionHash
      rw [(checkSucceeded_eq_false.mp hc).1 (hk ▸ encodeHex_ne_empty _), ite_self]

/-! ## The rows of the tables -/

def RowsOk (t : Tables) : Prop := ∀ {id a}, t.find id = some a → RowOk a

omit [Unicode] in
theorem RowsOk.empty : RowsOk Tables.empty := fun h => by cases h

theorem RowsOk.lands {c : StoreCall} {t t' : Tables} {w : Write} (h : RowsOk t) (hl : Lands c t w t') : RowsOk t' := by
  intro id a' ha'
  cases ha : t.find id with
  | none =>
    obtain ⟨requested, hv, rfl⟩ := hl.row_new ha ha'
    exact .normalised hv
  | some a =>
    obtain ⟨b, hb, hs⟩ := hl.row ha
    obtain rfl := Option.some.inj (ha'.symm.trans hb)
    exact hs.rowOk (h ha)

theorem After.row {c : StoreCall} {t t' : Tables} (h : After c t t') {id : String} {a : Action}
    (ha : t.find id = some a) : ∃ a', t'.find id = some a' ∧ RowStep a a' := by
  rcases h with rfl | ⟨w, -, hl⟩
  · exact ⟨a, ha, .keep⟩
  · exact hl.row ha

theorem RowsOk.after {c : StoreCall} {t t' : Tables} (h : RowsOk t) (ha : After c t t') : RowsOk t' := by
  rcases ha with rfl | ⟨w, -, hl⟩
  · exact h
  · exact h.lands hl

theorem LedgerStep.after {t t' : Tables} {e : StoreCall × Int} (h : LedgerStep t e t') : After e.1 t t' :=
  h ▸ e.1.run_after e.2 t

/-- What holds of the tables in every run. -/
structure Tables.Valid (t : Tables) : Prop where
  keyed : t.Keyed
  unique : t.Unique
  rows : RowsOk t

namespace Tables.Valid

omit [Unicode] in
theorem empty : Tables.empty.Valid := ⟨List.nodup_nil, fun _ hr => absurd hr List.not_mem_nil, RowsOk.empty⟩

theorem lands {c : StoreCall} {t t' : Tables} {w : Write} (h : t.Valid) (hl : Lands c t w t') : t'.Valid :=
  ⟨hl.keyed h.keyed, h.unique.apply hl.apply, RowsOk.lands h.rows hl⟩

theorem after {c : StoreCall} {t t' : Tables} (h : t.Valid) (ha : After c t t') : t'.Valid := by
  rcases ha with rfl | ⟨w, -, hl⟩
  · exact h
  · exact h.lands hl

theorem run {t t' : Tables} {calls : List (StoreCall × Int)} (h : t.Valid)
    (hr : Run LedgerStep t calls t') : t'.Valid :=
  hr.inv (I := Tables.Valid) (C := fun _ => True) (fun _ hi hs => hi.after (LedgerStep.after hs)) (fun _ _ => trivial) h

end Tables.Valid

end Xir.Impl
