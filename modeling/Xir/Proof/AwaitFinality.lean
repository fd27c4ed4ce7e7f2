import Xir.Impl.GoRuntime.AwaitFinality
import Xir.Proof.Text

/-!
# When a receipt may be taken for final

A wait is run against a node whose view of the chain changes before each of its
requests. If it returns, its last answer decides (`Settled`). On the two paths that
compare the hash of the block this shows that the block is on the chain under so
many others, provided that the head did not move back since it was read; on the
path of the tag only the heights are compared (`reorganised_accepted`), and the
block has to be on the chain for another reason (`awaited_of_run`).
-/

namespace Xir.Impl

open Prog (Asked Triple Recorded)

/-- The block is the one that the view has at its height. -/
def ChainView.OnChain (v : ChainView) (number : UInt64) (hash : GoBytes32) : Prop :=
  number ≤ v.head ∧ v.hash number = hash

/-- The block is on the chain, and it is finalized or has so many successors. -/
def ChainView.Final (v : ChainView) (number : UInt64) (hash : GoBytes32) (required : UInt64) : Prop :=
  v.OnChain number hash ∧ ((∃ n ∈ v.finalized, number ≤ n) ∨ number.toNat + required.toNat ≤ v.head.toNat)

/-- A request leaves the view. -/
theorem ChainView.Answers.same {v v' : ChainView} {op : FinalityOp} {r : Except RuntimeError op.Answer}
    (h : v.Answers op r v') :
    v' = v := by
  cases h <;> rfl

namespace Finality

/-- The successors that a mode requires where the node does not have the tag. -/
def required (f : Finality) : UInt64 := if f.mode = .confirmations then f.confirmations else qbftConfirmationBlocks

/-- What was asked of the node, with its views. -/
abbrev Record := List (Asked FinalityOp (fun op => Except RuntimeError op.Answer) ChainView)

/-- The view changes, and its head does not move back. -/
def Onward (v v' : ChainView) : Prop := v.head ≤ v'.head

variable (number : UInt64) (hash : GoBytes32)

/-- Where the node answers the tag with a height that is not below the block, the block is on the chain. -/
def TagKeeps (v : ChainView) (op : FinalityOp) : Prop :=
  op = .finalizedHeader → ∀ n ∈ v.finalized, number ≤ n → v.OnChain number hash

/-- A request of the node, in a run whose steps meet the condition. -/
def Step (op : FinalityOp) (v : ChainView) (r : Except RuntimeError op.Answer) (v' : ChainView) : Prop :=
  v.Answers op r v' ∧ TagKeeps number hash v op

/-- The last answer was given where the block is final. -/
def Settled (needed : UInt64) (x : ChainView × Record) : Prop :=
  ∃ e, x.2.getLast? = some e ∧ e.before.Final number hash needed

/-- How a wait that returns ends. -/
abbrev Waits {α : Type} (P : ChainView × Record → Prop) (p : FinalityProg α)
    (Q : α → ChainView × Record → Prop) : Prop :=
  Triple (Recorded (Step number hash) Onward) (fun _ => True) (fun _ _ => True) P p Q

variable {number hash} {α β : Type} {P : ChainView × Record → Prop} {Q : α → ChainView × Record → Prop}
  {R : β → ChainView × Record → Prop}

/-- A request, and what its answer shows. -/
theorem Waits.op {op : FinalityOp} {k : Except RuntimeError op.Answer → FinalityProg α}
    (M : Except RuntimeError op.Answer → ChainView × Record → Prop)
    (hM : ∀ v es v' r, P (v, es) → v.head ≤ v'.head → v'.Answers op r v' → TagKeeps number hash v' op →
      M r (v', es ++ [⟨op, v', r, v'⟩])) (hk : ∀ r, Waits number hash (M r) (k r) Q) :
        Waits number hash P (.op op k) Q := by
  refine Triple.op (fun _ _ => trivial) M ?_ hk
  rintro _ r _ hP ⟨hon, hanswers, hkeeps⟩
  obtain rfl := hanswers.same
  exact hM _ _ _ r hP hon hanswers hkeeps

/-- A request whose error ends the wait. -/
theorem Waits.call {op : FinalityOp} (M : op.Answer → ChainView × Record → Prop)
    (hM : ∀ v es v' a, P (v, es) → v.head ≤ v'.head → v'.Answers op (.ok a) v' →
      M a (v', es ++ [⟨op, v', .ok a, v'⟩])) :
    Waits number hash P (call op) M := by
  refine Triple.call M (fun _ _ => trivial) ?_ fun _ _ _ _ _ => ⟨trivial, trivial⟩
  rintro _ a _ hP ⟨hon, hanswers, -⟩
  obtain rfl := hanswers.same
  exact ⟨trivial, hM _ _ _ a hP hon hanswers⟩

theorem Waits.fail (e : RuntimeError) : Waits number hash P (.fail e) Q :=
  Triple.fail (fun _ _ => trivial) fun _ _ => trivial

theorem Waits.done {a : α} (h : ∀ x, P x → Q a x) : Waits number hash P (.done a) Q :=
  Triple.done (fun _ _ => trivial) h

theorem Waits.ofExcept_bind {x : Except RuntimeError β} {f : β → FinalityProg α}
    (h : ∀ b, x = .ok b → Waits number hash P (f b) Q) : Waits number hash P (Prog.ofExcept x >>= f) Q :=
  Triple.ofExcept_bind (fun _ _ => trivial) (fun _ _ _ => trivial) h

theorem Waits.ofExcept {x : Except RuntimeError α} (h : ∀ a, x = .ok a → ∀ s, P s → Q a s) :
    Waits number hash P (Prog.ofExcept x) Q :=
  Triple.ofExcept (fun _ _ => trivial) h fun _ _ _ _ => trivial

/-- The head is not below a height that was read. -/
def Reached (latest : UInt64) (x : ChainView × Record) : Prop := latest ≤ x.1.head

theorem Reached.on {latest : UInt64} {v v' : ChainView} {es es' : Record} (h : Reached latest (v, es))
    (hon : v.head ≤ v'.head) :
    Reached latest (v', es') := UInt64.le_trans h hon

/-! ## The paths that compare the hash -/

/-- What the header at the height of the block shows, where the head is so far. -/
def Compared (number : UInt64) (hash : GoBytes32) (needed : UInt64) (canonical : Option GoBytes32)
    (x : ChainView × Record) : Prop :=
  canonical = some hash → Settled number hash needed x

/-- The header is read where the head was seen high enough. -/
theorem header_waits {latest needed : UInt64} (hn : number.toNat + needed.toNat ≤ latest.toNat) :
    Waits number hash (Reached latest) (call (.headerByNumber number)) (Compared number hash needed) := by
  refine Waits.call _ fun v es v' canonical h hon ha hcanonical => ?_
  have hhead : latest ≤ v'.head := UInt64.le_trans h hon
  subst hcanonical
  cases ha with
  | headerByNumber hle =>
    refine ⟨_, List.getLast?_concat .., ⟨hle, rfl⟩, .inr ?_⟩
    have := UInt64.le_iff_toNat_le.mp hhead
    show number.toNat + needed.toNat ≤ v'.head.toNat
    omega

theorem awaitSuccessor_waits (required : UInt64) (deadline : Int) (rounds : Nat) (latest : UInt64) :
    Waits number hash (Reached latest) (awaitSuccessor required deadline rounds latest) Reached := by
  induction rounds generalizing latest with
  | zero => exact Waits.fail _
  | succ rounds ih =>
    rw [awaitSuccessor]
    split
    · refine Triple.bind (Q := fun _ => Reached latest) (Waits.call _ fun v es v' _ h hon _ => h.on hon) fun now => ?_
      split
      · refine Triple.bind (Q := fun _ => Reached latest)
          (Waits.op (fun _ => Reached latest) (fun v es v' _ h hon _ _ => h.on hon)
          fun r => Waits.ofExcept fun _ _ _ h => h) fun _ => ?_
        refine Triple.bind (Q := Reached) (Waits.call _ fun v es v' head _ _ ha => ?_) fun head => ih head
        cases ha with
        | blockNumber => exact UInt64.le_refl _
      · exact Waits.done fun _ h => h
    · exact Waits.done fun _ h => h

theorem qbftFinalized_waits (client : FinalityClient) (rounds : Nat) (hn : number.toNat + 1 < 2 ^ 64) :
    Waits number hash P
    (qbftFinalized client number hash rounds) fun _ => Settled number hash qbftConfirmationBlocks := by
  rw [qbftFinalized]
  refine Triple.bind (Q := fun _ _ => True) (Waits.op (fun _ _ => True) (fun _ _ _ _ _ _ _ _ => trivial)
    fun r => Waits.ofExcept fun _ _ _ _ => trivial) fun validators => Waits.ofExcept_bind fun _ _ => ?_
  refine Triple.bind (Q := Reached) (Waits.call _ fun v es v' head _ _ ha => ?_) fun head => ?_
  · cases ha with
    | blockNumber => exact UInt64.le_refl _
  refine Triple.bind (Q := fun _ => Reached head) (Waits.call _ fun v es v' _ h hon _ => h.on hon) fun now => ?_
  refine Triple.bind (awaitSuccessor_waits ..) fun latest => Waits.ofExcept_bind fun _ hdepth => ?_
  have hdepth : ¬ latest < number + qbftConfirmationBlocks := revertIf_eq_ok.mp hdepth
  have hneeded : number.toNat + qbftConfirmationBlocks.toNat ≤ latest.toNat := by
    rw [UInt64.lt_iff_toNat_lt, UInt64.toNat_add] at hdepth
    have : qbftConfirmationBlocks.toNat = 1 := rfl
    omega
  refine Triple.bind (header_waits hneeded) fun canonical => Waits.ofExcept_bind fun _ hsame => Waits.done fun _ h => ?_
  exact h (not_not.mp (revertIf_eq_ok.mp hsame))

theorem awaitConfirmations_waits (confirmations : UInt64) (deadline : Int) (rounds : Nat)
    (hn : number.toNat + confirmations.toNat < 2 ^ 64) :
    Waits number hash P
    (awaitConfirmations number hash confirmations deadline rounds) fun _ => Settled number hash confirmations := by
  induction rounds generalizing P with
  | zero => exact Waits.fail _
  | succ rounds ih =>
    rw [awaitConfirmations]
    refine Triple.bind (Q := Reached) (Waits.call _ fun v es v' head _ _ ha => ?_) fun head => ?_
    · cases ha with
      | blockNumber => exact UInt64.le_refl _
    split
    · rename_i hdepth
      have hneeded : number.toNat + confirmations.toNat ≤ head.toNat := by
        rw [UInt64.le_iff_toNat_le, UInt64.toNat_add] at hdepth
        omega
      refine Triple.bind
        (header_waits hneeded) fun canonical => Waits.ofExcept_bind fun _ hsame => Waits.done fun _ h => ?_
      exact h (not_not.mp (revertIf_eq_ok.mp hsame))
    · refine Triple.bind (Q := fun _ _ => True) (Waits.call _ fun _ _ _ _ _ _ _ => trivial) fun now =>
        Waits.ofExcept_bind fun _ _ => ?_
      exact Triple.bind (Q := fun _ _ => True) (Waits.call _ fun _ _ _ _ _ _ _ => trivial) fun _ => ih

/-! ## The path of the tag -/

section

variable [Unicode]

/-- A height that the tag has, if it is not below the block, settles the wait. -/
theorem finalizedTag_waits (needed : UInt64) : Waits number hash P finalizedTag fun found x =>
    ∀ n, found = some n → number ≤ n → Settled number hash needed x := by
  refine Waits.op (fun r x => ∀ n, r = .ok (some n) → number ≤ n → Settled number hash needed x) ?_ fun r => ?_
  · intro v es v' r _ _ ha hkeeps n hr hle
    subst hr
    cases ha with
    | finalizedHeader hfinalized =>
      exact ⟨_, List.getLast?_concat .., hkeeps rfl n hfinalized hle, .inl ⟨n, hfinalized, hle⟩⟩
  · cases r with
    | error err =>
      dsimp only
      split
      · exact Waits.done fun _ _ => nofun
      · exact Waits.fail _
    | ok found =>
      cases found with
      | none => exact Waits.fail _
      | some n =>
        refine Waits.done fun x h m hm => ?_
        obtain rfl := Option.some.inj hm
        exact h n rfl

theorem finalizedNumberFor_waits (client : FinalityClient) (rounds : Nat) (hn : number.toNat + 1 < 2 ^ 64) :
    Waits number hash P (finalizedNumberFor client number hash rounds) fun r x =>
      number ≤ r.1 → Settled number hash qbftConfirmationBlocks x := by
  rw [finalizedNumberFor]
  refine Triple.bind (finalizedTag_waits qbftConfirmationBlocks) fun found => ?_
  cases found with
  | some n => exact Waits.done fun x h => h n rfl
  | none => exact (qbftFinalized_waits client rounds hn).weaken (fun _ h => h) fun _ _ h _ => h

theorem awaitFinalized_waits (client : FinalityClient) (deadline : Int) (rounds : Nat)
    (hn : number.toNat + 1 < 2 ^ 64) :
    Waits number hash P
    (awaitFinalized client number hash deadline rounds) fun _ => Settled number hash qbftConfirmationBlocks := by
  induction rounds generalizing P with
  | zero => exact Waits.fail _
  | succ rounds ih =>
    rw [awaitFinalized]
    refine Triple.bind (finalizedNumberFor_waits client rounds hn) fun found => ?_
    obtain ⟨finalized, rule⟩ := found
    dsimp only
    split
    · exact Waits.done fun x h => h ‹_›
    · refine Triple.bind (Q := fun _ _ => True) (Waits.call _ fun _ _ _ _ _ _ _ => trivial) fun now =>
        Waits.ofExcept_bind fun _ _ => ?_
      exact Triple.bind (Q := fun _ _ => True) (Waits.call _ fun _ _ _ _ _ _ _ => trivial) fun _ => ih

/-! ## Waits -/

variable (client : FinalityClient) (number hash) (f : Finality) (rounds : Nat)

/-- A wait that returns ends where its block is final, if the required height is a `uint64`, the head does not move
back while it waits, and the block is on the chain wherever the tag is answered with a height that is not below it. -/
theorem awaited_of_run (hmode : f.mode ≠ .none) (hn : number.toNat + f.required.toNat < 2 ^ 64) {v v' : ChainView}
    {es : Record} {rule : String}
    (run : Prog.Exec (Recorded (Step number hash) Onward) (awaitFinality client number hash f rounds) (v, [])
      (.returned rule) (v', es)) : Settled number hash f.required (v', es) := by
  have h : Waits number hash (fun _ => True)
      (awaitFinality client number hash f rounds) fun _ => Settled number hash f.required := by
    unfold awaitFinality
    split
    · rename_i hm
      have hr : f.required = qbftConfirmationBlocks := if_neg (by simp [hm])
      rw [hr] at hn ⊢
      exact Triple.bind (Q := fun _ _ => True) (Waits.call _ fun _ _ _ _ _ _ _ => trivial) fun now =>
        awaitFinalized_waits client _ rounds hn
    · rename_i hm
      have hr : f.required = f.confirmations := if_pos hm
      rw [hr] at hn ⊢
      exact Triple.bind (Q := fun _ _ => True) (Waits.call _ fun _ _ _ _ _ _ _ => trivial) fun now =>
        awaitConfirmations_waits _ _ rounds hn
    · rename_i hm
      exact absurd hm hmode
    · exact Waits.fail _
  exact h.ends trivial run

end

/-! ## A block that left the chain -/

/-- The hash of a block that is on no chain. -/
def lostHash : GoBytes32 := Vector.replicate 32 1

/-- A chain of six blocks, of which five are finalized. -/
def sampleView (hash : GoBytes32) : ChainView := ⟨5, fun _ => hash, some 4, by simp⟩

section

attribute [local instance] asciiUnicode

/-- A wait for the block at height 3, with the answers of one view. -/
theorem awaitFinality_run (step : ∀ op : FinalityOp, ChainView → Except RuntimeError op.Answer → ChainView → Prop)
    (env : ChainView → ChainView → Prop) {v : ChainView} (hash : GoBytes32) (henv : env v v)
    (now : step .now v (.ok 0) v) (tag : step .finalizedHeader v (.ok (some 4)) v) :
    Prog.Exec (Recorded step env) (awaitFinality ⟨30, 4⟩ 3 hash ⟨.rpcFinalized, 0, 120⟩ 1) (v, [])
    (.returned "rpc-finalized-tag")
      (v, [⟨.now, v, .ok 0, v⟩, ⟨.finalizedHeader, v, .ok (some 4), v⟩]) :=
  .op (.step henv now) (.op (.step henv tag) .done)

/-- The block is on the chain of the view. -/
theorem awaited_of_run_tag : Settled 3 lostHash 1
    (sampleView lostHash, [⟨.now, sampleView lostHash, .ok 0, sampleView lostHash⟩,
      ⟨.finalizedHeader, sampleView lostHash, .ok (some 4), sampleView lostHash⟩]) := by
  have keeps (op : FinalityOp) : TagKeeps 3 lostHash (sampleView lostHash) op := fun _ _ _ _ => ⟨by decide, rfl⟩
  exact awaited_of_run 3 lostHash ⟨30, 4⟩ ⟨.rpcFinalized, 0, 120⟩ 1 (by decide) (by decide)
    (awaitFinality_run (Step 3 lostHash) Onward lostHash (UInt64.le_refl _) ⟨.now 0, keeps _⟩
      ⟨.finalizedHeader rfl, keeps _⟩)

/-- The height of the tag is enough, also if another block is at the height of the receipt. -/
theorem reorganised_accepted :
    ¬ ∀ (client : FinalityClient) (number : UInt64) (hash : GoBytes32) (f : Finality) (rounds : Nat)
    (v v' : ChainView) (es : Record) (rule : String), f.mode ≠ .none →
      Prog.Exec (Recorded (fun op v => v.Answers op) fun _ _ => True)
        (awaitFinality client number hash f rounds) (v, [])
        (.returned rule) (v', es) → Settled number hash f.required (v', es) := by
  intro h
  have run := awaitFinality_run (fun op v => v.Answers op) (fun _ _ => True)
    (v := sampleView (Vector.replicate 32 0)) lostHash trivial
    (.now 0) (.finalizedHeader rfl)
  obtain ⟨e, he, ⟨-, hhash⟩, -⟩ := h _ _ _ _ _ _ _ _ _ (by decide) run
  obtain rfl := Option.some.inj he
  exact absurd hhash (by decide)

end

end Finality

end Xir.Impl
