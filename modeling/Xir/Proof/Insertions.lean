import Xir.Impl.GoRuntime.Protocol

/-!
# Checkpoints at an insertion

`checkpointAtInsertion` replays the insertions of a hook in the order of the
chain. It succeeds if the history is complete up to the message that was
dispatched (`Complete`), with the root of the tree of the leaves up to it, and
fails otherwise (`checkpointAtInsertion_eq`).
-/

namespace Xir.Impl.GoProtocol

variable [Digests] [GoEthereum] {delivery : HyperlaneDelivery} {blockHash : GoBytes32} {history logs : List Log}
  {c : Checkpoint}

/-- Where a log is in its chain. -/
def position (log : Log) : UInt64 × UInt64 := (log.blockNumber, log.index)

/-- The leaf of a log that is well formed. -/
def leafOf (log : Log) : GoBytes32 := copy32 (log.data.take 32)

/-- The history holds insertion `i` at its place. -/
def InsertedAt (history : List Log) (i : Nat) : Prop :=
  ∃ log, history[i]? = some log ∧ ∃ index, insertedIntoTree log = some (leafOf log, index) ∧ index.toNat = i

/-- All insertions up to the delivered one are well formed and each at its place, and this one is of
the message, by its transaction, in the block. -/
structure Complete (history : List Log) (delivery : HyperlaneDelivery) (blockHash : GoBytes32) : Prop where
  contiguous (i : Nat) : i ≤ delivery.insertedIndex.toNat → InsertedAt history i
  target : ∃ log, history[delivery.insertedIndex.toNat]? = some log ∧ leafOf log = delivery.messageID ∧
    log.txHash = GoEthereum.hexToHash delivery.transactionHash ∧ log.blockHash = blockHash

/-- The leaves up to an index. -/
def leavesTo (history : List Log) (index : Nat) : List GoBytes32 := (history.take (index + 1)).map leafOf

/-- The insertions of the hook, in the order of the chain. -/
structure IsHistory (logs : List Log) (delivery : HyperlaneDelivery) (history : List Log) : Prop where
  perm : history.Perm (logs.filter (isInsertion delivery))
  sorted : history.Pairwise fun a b => precedes a b = true

omit [Digests] [GoEthereum] in
theorem insertedIntoTree_eq_some {log : Log} {leaf : GoBytes32} {index : UInt32}
    (h : insertedIntoTree log = some (leaf, index)) :
    leaf = leafOf log := by
  unfold insertedIntoTree at h
  split at h
  · cases h
  · exact (congrArg Prod.fst (Option.some.inj h)).symm

/-! ## The loop -/

theorem replay_filter (logs : List Log) (branch : Nat → GoBytes32) (count : Nat) :
    replay delivery blockHash logs branch count = replay delivery blockHash
    (logs.filter (isInsertion delivery)) branch count := by
  induction logs generalizing branch count with
  | nil => rfl
  | cons log logs ih =>
    by_cases hi : isInsertion delivery log = true
    · rw [List.filter_cons_of_pos hi, replay, replay]
      simp only [ih]
    · rw [List.filter_cons_of_neg hi, replay, if_pos (by simpa using hi), ih]

/-- The loop, after the insertions `before`. -/
theorem replay_eq_ok {before rest : List Log} {branch : Nat → GoBytes32} (hh : history = before ++ rest)
    (hi : ∀ log ∈ rest, isInsertion delivery log = true) (hlen : history.length < 2 ^ 32)
    (hbefore : ∀ i < before.length, InsertedAt history i) (hle : before.length ≤ delivery.insertedIndex.toNat)
    (hb : Merkle.Branch keccakPair (fun i => (before.map leafOf).getD i zero32) (before.map leafOf).length branch) :
    replay delivery blockHash rest branch before.length = .ok c ↔ Complete history delivery blockHash ∧
      c = ⟨Merkle.root keccakPair zero32 32 (leavesTo history delivery.insertedIndex.toNat), delivery.insertedIndex⟩ :=
  by
  induction rest generalizing before branch with
  | nil =>
    rw [replay]
    refine ⟨fun h => (by cases h), fun ⟨hc, _⟩ => ?_⟩
    obtain ⟨log, hl, -⟩ := hc.contiguous _ le_rfl
    rw [hh, List.append_nil, List.getElem?_eq_none hle] at hl
    exact absurd hl.symm (Option.some_ne_none _)
  | cons log rest ih =>
    rw [List.forall_mem_cons] at hi
    have hat : history[before.length]? = some log := by
      rw [hh, List.getElem?_append_right le_rfl, Nat.sub_self, List.getElem?_cons_zero]
    have hnext : history = (before ++ [log]) ++ rest := by rw [hh, List.append_assoc, List.singleton_append]
    -- What a complete history has at this place is what the loop reads.
    have here : Complete history delivery blockHash → ∃ index, insertedIntoTree log = some (leafOf log, index) ∧
        index.toNat = before.length := fun hc => by
      obtain ⟨log', hl, h⟩ := hc.contiguous _ hle
      obtain rfl := Option.some.inj (hat.symm.trans hl)
      exact h
    rw [replay, if_neg (by rw [hi.1]; decide)]
    cases hd : insertedIntoTree log with
    | none =>
      refine ⟨fun h => (by cases h), fun ⟨hc, _⟩ => ?_⟩
      obtain ⟨index, h, -⟩ := here hc
      rw [hd] at h
      cases h
    | some decoded =>
      obtain ⟨leaf, index⟩ := decoded
      obtain rfl := insertedIntoTree_eq_some hd
      by_cases hindex : index.toNat = before.length
      · have hcount : (before.map leafOf).length + 1 < 2 ^ 32 := by
          rw [hh, List.length_append, List.length_cons] at hlen
          rw [List.length_map]
          omega
        have hb' := Merkle.insert_list hb hcount (leafOf log)
        have hmap : before.map leafOf ++ [leafOf log] = (before ++ [log]).map leafOf := by
          rw [List.map_append, List.map_singleton]
        have hlength : (before ++ [log]).length = before.length + 1 := List.length_append
        rw [hmap, List.length_map] at hb'
        have hbefore' : ∀ i < (before ++ [log]).length, InsertedAt history i := fun i hi => by
          rw [hlength] at hi
          obtain hlt | rfl := Nat.lt_succ_iff_lt_or_eq.mp hi
          · exact hbefore i hlt
          · exact ⟨log, hat, index, hd, hindex⟩
        simp only [hindex, ne_eq, not_true_eq_false, if_false]
        by_cases htarget : index = delivery.insertedIndex
        · have hinserted : delivery.insertedIndex.toNat = before.length := by rw [← htarget, hindex]
          have hidentity : Complete history delivery blockHash ↔ ¬ (leafOf log ≠ delivery.messageID ∨
              log.txHash ≠ GoEthereum.hexToHash delivery.transactionHash ∨ log.blockHash ≠ blockHash) := by
            rw [not_or, not_or, not_not, not_not, not_not]
            constructor
            · intro hc
              obtain ⟨log', hl, h⟩ := hc.target
              rw [← htarget, hindex] at hl
              obtain rfl := Option.some.inj (hat.symm.trans hl)
              exact h
            · exact fun h => ⟨fun i hi => hbefore' i (by omega), log, by rw [← htarget, hindex, hat], h⟩
          have hroot :
              Merkle.rootLoop keccakPair (Merkle.insertLoop keccakPair 32 0 branch (leafOf log) (before.length + 1))
              (before.length + 1) 32 0 zero32 zero32 =
              Merkle.root keccakPair zero32 32 (leavesTo history delivery.insertedIndex.toNat) := by
            have hl : ((before ++ [log]).map leafOf).length = before.length + 1 := by rw [List.length_map, hlength]
            rw [leavesTo, hinserted, hnext, List.take_left' hlength]
            rw [← hl] at hb' ⊢
            refine Merkle.root_of_branch hb' ?_
            rw [List.length_map] at hcount
            rwa [hl]
          rw [if_neg (not_not.mpr htarget), htarget, hroot, hidentity]
          split
          · exact ⟨fun h => (by cases h), fun ⟨h, _⟩ => absurd ‹_› h⟩
          · exact ⟨fun h => ⟨‹_›, (Except.ok.inj h).symm⟩, fun ⟨_, h⟩ => congrArg Except.ok h.symm⟩
        · rw [if_pos htarget]
          have hne : index.toNat ≠ delivery.insertedIndex.toNat := fun h => htarget (UInt32.toNat_inj.mp h)
          have := ih hnext hi.2 hbefore' (by omega) (by rwa [List.length_map, hlength])
          rwa [hlength] at this
      · simp only [ne_eq, hindex, not_false_eq_true, if_true]
        refine ⟨fun h => (by cases h), fun ⟨hc, _⟩ => ?_⟩
        obtain ⟨index', h, he⟩ := here hc
        rw [hd] at h
        cases h
        exact absurd he hindex

/-- The loop over the insertions of a hook. -/
theorem replay_history (hi : ∀ log ∈ history, isInsertion delivery log = true) (hlen : history.length < 2 ^ 32) :
    replay delivery blockHash history (fun _ => zero32) 0 = .ok c ↔ Complete history delivery blockHash ∧
      c = ⟨Merkle.root keccakPair zero32 32 (leavesTo history delivery.insertedIndex.toNat), delivery.insertedIndex⟩ :=
  by
  have h0 : history = [] ++ history := rfl
  exact replay_eq_ok h0 hi hlen (fun i hi => absurd hi (Nat.not_lt_zero i)) (Nat.zero_le _) Merkle.branch_zero

/-! ## The order of the logs -/

omit [Digests] [GoEthereum] in
theorem precedes_iff {a b : Log} : precedes a b = true ↔ a.blockNumber.toNat < b.blockNumber.toNat ∨
    a.blockNumber.toNat = b.blockNumber.toNat ∧ a.index.toNat < b.index.toNat := by
  rw [precedes]
  split
  · rename_i h
    have hne : a.blockNumber.toNat ≠ b.blockNumber.toNat := fun he => h (UInt64.toNat_inj.mp he)
    rw [decide_eq_true_eq, UInt64.lt_iff_toNat_lt]
    omega
  · rename_i h
    rw [decide_eq_true_eq, UInt64.lt_iff_toNat_lt, not_not.mp h]
    omega

omit [Digests] [GoEthereum] in
theorem precedes_of_ne {a b : Log} (h : precedes b a = false) (hne : position a ≠ position b) :
    precedes a b = true := by
  rw [Bool.eq_false_iff, ne_eq, precedes_iff] at h
  have : ¬ (a.blockNumber.toNat = b.blockNumber.toNat ∧ a.index.toNat = b.index.toNat) := fun ⟨h₁, h₂⟩ =>
    hne (Prod.ext (UInt64.toNat_inj.mp h₁) (UInt64.toNat_inj.mp h₂))
  rw [precedes_iff]
  omega

omit [GoEthereum] in
/-- What the loop reads of the sorted logs. -/
theorem isHistory_sorted (h : (logs.map position).Nodup) :
    IsHistory logs delivery ((logs.mergeSort fun a b => !precedes b a).filter (isInsertion delivery)) := by
  have hp := List.mergeSort_perm logs fun a b => !precedes b a
  have hs : (logs.mergeSort fun a b => !precedes b a).Pairwise fun a b => (!precedes b a) = true := by
    refine List.pairwise_mergeSort (fun a b c hab hbc => ?_) (fun a b => ?_) logs
    · simp only [Bool.not_eq_true', Bool.eq_false_iff, ne_eq, precedes_iff] at hab hbc ⊢
      omega
    · rw [Bool.or_eq_true]
      simp only [Bool.not_eq_true', Bool.eq_false_iff, ne_eq, precedes_iff]
      omega
  have hn : (logs.mergeSort fun a b => !precedes b a).Pairwise fun a b => position a ≠ position b :=
    List.pairwise_map.mp ((hp.map position).nodup_iff.mpr h)
  refine ⟨hp.filter _, ((hs.and hn).imp fun hab => ?_).filter _⟩
  exact precedes_of_ne (by simpa using hab.1) hab.2

/-- The checkpoint of an insertion, from the logs of a chain in whatever order, in each of which it is
at a position of its own, with fewer than `2³²` insertions of the hook. It is the root of the tree of
depth 32 over the leaves up to the delivered one, and zeros, if the history is complete up to it,
and an error if it is not. -/
theorem checkpointAtInsertion_eq (hpos : (logs.map position).Nodup)
    (hcount : (logs.filter (isInsertion delivery)).length < 2 ^ 32) :
    ∃ history, IsHistory logs delivery history ∧
      (∀ c, checkpointAtInsertion logs delivery blockHash = .ok c ↔ Complete history delivery blockHash ∧
        c = ⟨Merkle.root keccakPair zero32 32 (leavesTo history delivery.insertedIndex.toNat),
          delivery.insertedIndex⟩) ∧
      ((∃ e, checkpointAtInsertion logs delivery blockHash = .error e) ↔ ¬ Complete history delivery blockHash) := by
  have hh : IsHistory logs delivery _ := isHistory_sorted hpos
  have hok : ∀ c, checkpointAtInsertion logs delivery blockHash = .ok c ↔
      Complete ((logs.mergeSort fun a b => !precedes b a).filter (isInsertion delivery)) delivery blockHash ∧
        _ := fun c => by
    rw [checkpointAtInsertion, replay_filter]
    exact replay_history (fun log hl => (List.mem_filter.mp hl).2) (hh.perm.length_eq ▸ hcount)
  refine ⟨_, hh, hok, ?_⟩
  cases hc : checkpointAtInsertion logs delivery blockHash with
  | ok c =>
    exact ⟨fun ⟨e, he⟩ => (by cases he), fun hn => absurd ((hok c).mp hc).1 hn⟩
  | error e =>
    refine ⟨fun _ hcomplete => ?_, fun _ => ⟨e, rfl⟩⟩
    have := (hok _).mpr ⟨hcomplete, rfl⟩
    rw [hc] at this
    cases this

omit [Digests] [GoEthereum] in
/-- The second insertion of a hook, from logs in the opposite order, one of which was removed. -/
theorem checkpointAtInsertion_second :
    let _ : Digests := ⟨fun _ => zero32, fun _ => zero32⟩
    let _ : GoEthereum := ⟨fun _ => .error "", fun _ => .error "", fun _ => zero32, fun _ _ => .error "", fun _ => "",
      fun _ => zero32, fun _ => zeroAddress⟩
    ∃ (logs : List Log) (delivery : HyperlaneDelivery) (c : Checkpoint), logs.length = 3 ∧
      checkpointAtInsertion logs delivery zero32 = .ok c ∧ c.index = 1 := by
  let _ : Digests := ⟨fun _ => zero32, fun _ => zero32⟩
  let _ : GoEthereum := ⟨fun _ => .error "", fun _ => .error "", fun _ => zero32, fun _ _ => .error "", fun _ => "",
    fun _ => zero32, fun _ => zeroAddress⟩
  let delivery : HyperlaneDelivery := ⟨zero32, zeroAddress, 1, ""⟩
  let log (removed : Bool) (inserted : UInt8) (index : UInt64) : Log :=
    ⟨zeroAddress, [zero32], List.replicate 63 0 ++ [inserted], 7, zero32, zero32, index, removed⟩
  let logs := [log true 2 2, log false 1 1, log false 0 0]
  have hfilter : logs.filter (isInsertion delivery) = [log false 1 1, log false 0 0] := by rfl
  obtain ⟨history, hh, hok, -⟩ :=
    @checkpointAtInsertion_eq _ _ delivery zero32 logs (by decide) (by rw [hfilter]; decide)
  obtain rfl : history = [log false 0 0, log false 1 1] := by
    refine (hh.perm.trans (hfilter ▸ List.Perm.swap ..)).eq_of_pairwise (fun a b _ _ hab hba => ?_) hh.sorted
      (List.pairwise_pair.mpr (by decide))
    rw [precedes_iff] at hab hba
    omega
  have hat (i : Nat) (hi : i ≤ 1) : InsertedAt [log false 0 0, log false 1 1] i := by
    obtain rfl | rfl : i = 0 ∨ i = 1 := by omega
    · exact ⟨log false 0 0, rfl, 0, by decide, rfl⟩
    · exact ⟨log false 1 1, rfl, 1, by decide, rfl⟩
  have hleaf : leafOf (log false 1 1) = zero32 := by decide
  exact ⟨logs, delivery, _, rfl, (hok _).mpr ⟨⟨hat, log false 1 1, rfl, hleaf, rfl, rfl⟩, rfl⟩, rfl⟩

end Xir.Impl.GoProtocol
