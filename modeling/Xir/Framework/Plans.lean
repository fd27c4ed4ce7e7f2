import Mathlib.Data.List.Nodup
import Xir.Framework.Threads

/-!
# Attempts that follow their plans

A log has attempts, each with a plan, which is a list of distinct stages, and
the stages that are recorded of attempts. In a `PlanLog.InPlan` the stages of an
attempt are a prefix of its plan, and all of it if the attempt is finished. This
is kept if a stage is recorded only when those before it are
(`Act.Needs`), and programs that do so are put together by the rules of
`PlanSystem`: in a run of them, every finished attempt has recorded its plan
(`PlanSystem.run`).
-/

namespace Xir

variable {κ α : Type}

/-- An attempt, and the stages that it goes through. -/
structure Planned (κ α : Type) where
  id : κ
  plan : List α
  finished : Bool

structure PlanLog (κ α : Type) where
  attempts : List (Planned κ α)
  entries : List (κ × α)

namespace PlanLog

def empty : PlanLog κ α := ⟨[], []⟩

/-- What an operation does to a log. -/
inductive Act (κ α : Type)
  | quiet
  | begin (id : κ) (plan : List α)
  | finish (id : κ)
  | record (id : κ) (stage : α)

variable [DecidableEq κ] (l : PlanLog κ α)

/-- The recorded stages of an attempt. -/
def stages (id : κ) : List α := (l.entries.filter fun e => e.1 = id).map Prod.snd

/-- An attempt has begun. -/
def Begun (id : κ) (plan : List α) : Prop := ∃ a ∈ l.attempts, a.id = id ∧ a.plan = plan

def finish (id : κ) : PlanLog κ α :=
  { l with attempts := l.attempts.map fun a => if a.id = id then { a with finished := true } else a }

variable [DecidableEq α]

def Act.apply : Act κ α → PlanLog κ α → PlanLog κ α
  | quiet, l => l
  | begin id plan, l =>
    if ∃ a ∈ l.attempts, a.id = id then l else { l with attempts := l.attempts ++ [⟨id, plan, false⟩] }
  | finish id, l => l.finish id
  | record id stage, l => if (id, stage) ∈ l.entries then l else { l with entries := l.entries ++ [(id, stage)] }

/-- What an act needs: that the stages before it are recorded. -/
def Act.Needs : Act κ α → PlanLog κ α → Prop
  | quiet, _ => True
  | begin _ plan, _ => plan.Nodup
  | finish id, l => ∀ a ∈ l.attempts, a.id = id → l.stages id = a.plan
  | record id stage, l => ∃ a ∈ l.attempts, a.id = id ∧ ∃ k : Nat, a.plan[k]? = some stage ∧ k ≤ (l.stages id).length

/-- What is recorded stays. -/
def Later (l l' : PlanLog κ α) : Prop :=
  (∀ id plan, l.Begun id plan → l'.Begun id plan) ∧ ∀ id, l.stages id <+: l'.stages id

/-- The stages of each attempt follow its plan. -/
structure InPlan : Prop where
  ids : (l.attempts.map Planned.id).Nodup
  plans : ∀ a ∈ l.attempts, a.plan.Nodup
  entries : ∀ e ∈ l.entries, ∃ a ∈ l.attempts, a.id = e.1
  stages : ∀ a ∈ l.attempts, l.stages a.id <+: a.plan
  finished : ∀ a ∈ l.attempts, a.finished = true → l.stages a.id = a.plan

/-- An attempt has begun, and these stages of it are recorded. -/
def Upto (id : κ) (plan done : List α) : Prop := l.Begun id plan ∧ done <+: l.stages id

variable {l} {l' l'' : PlanLog κ α} {id : κ} {plan done : List α} {stage : α} {act : Act κ α}

omit [DecidableEq α] in
theorem Later.refl (l : PlanLog κ α) : l.Later l := ⟨fun _ _ h => h, fun _ => List.prefix_rfl⟩

omit [DecidableEq α] in
theorem Later.trans (h : l.Later l') (h' : l'.Later l'') : l.Later l'' :=
  ⟨fun id plan hb => h'.1 id plan (h.1 id plan hb), fun id => (h.2 id).trans (h'.2 id)⟩

omit [DecidableEq α] in
theorem Upto.later (h : l.Upto id plan done) (hl : l.Later l') : l'.Upto id plan done :=
  ⟨hl.1 id plan h.1, h.2.trans (hl.2 id)⟩

omit [DecidableEq α] in
theorem Upto.mono (h : l.Upto id plan done) {done' : List α} (hd : done' <+: done) : l.Upto id plan done' :=
  ⟨h.1, hd.trans h.2⟩

omit [DecidableEq α] in
theorem InPlan.empty : (PlanLog.empty : PlanLog κ α).InPlan := by
  refine ⟨List.nodup_nil, ?_, ?_, ?_, ?_⟩ <;> exact fun _ h => absurd h List.not_mem_nil

omit [DecidableEq κ] [DecidableEq α] in
/-- What recording an element of a plan does, if what comes before it is recorded. -/
theorem prefix_record {l plan : List α} (hn : plan.Nodup) (h : l <+: plan) {k : Nat} {x : α} (hk : plan[k]? = some x)
    (hle : k ≤ l.length) : (x ∈ l ∧ k < l.length) ∨ (x ∉ l ∧ k = l.length ∧ l ++ [x] <+: plan) := by
  obtain ⟨rest, rfl⟩ := h
  rcases Nat.lt_or_eq_of_le hle with hlt | rfl
  · rw [List.getElem?_append_left hlt] at hk
    exact .inl ⟨List.mem_of_getElem? hk, hlt⟩
  · rw [List.getElem?_append_right (Nat.le_refl _), Nat.sub_self] at hk
    cases rest with
    | nil => cases hk
    | cons y rest =>
      obtain rfl := Option.some.inj hk
      refine .inr ⟨fun hm => ?_, rfl, rest, by simp⟩
      exact (List.disjoint_of_nodup_append hn) hm List.mem_cons_self

omit [DecidableEq α] in
theorem mem_stages : stage ∈ l.stages id ↔ (id, stage) ∈ l.entries := by
  simp only [stages, List.mem_map, List.mem_filter, decide_eq_true_eq]
  constructor
  · rintro ⟨⟨i, x⟩, ⟨h, rfl⟩, rfl⟩
    exact h
  · exact fun h => ⟨_, ⟨h, rfl⟩, rfl⟩

theorem stages_record (hno : (id, stage) ∉ l.entries) (i : κ) :
    ((Act.record id stage).apply l).stages i = l.stages i ++ if id = i then [stage] else [] := by
  rw [Act.apply, if_neg hno, stages, stages, List.filter_append, List.map_append]
  congr 1
  by_cases he : id = i <;> simp [he]

omit [DecidableEq α] in
theorem InPlan.stages_of_begun (h : l.InPlan) (hb : l.Begun id plan) : l.stages id <+: plan := by
  obtain ⟨a, ha, rfl, rfl⟩ := hb
  exact h.stages a ha

omit [DecidableEq α] in
theorem InPlan.begin (h : l.InPlan) (hn : plan.Nodup) (hnew : ¬ ∃ a ∈ l.attempts, a.id = id) :
    InPlan { l with attempts := l.attempts ++ [⟨id, plan, false⟩] } := by
  -- An attempt that is new has no stages.
  have hnone : l.stages id = [] := by
    rw [PlanLog.stages, List.map_eq_nil_iff, List.filter_eq_nil_iff]
    intro e he hid
    obtain ⟨a, ha, hae⟩ := h.entries e he
    exact hnew ⟨a, ha, hae.trans (of_decide_eq_true hid)⟩
  refine ⟨?_, fun a ha => ?_, fun e he => ?_, fun a ha => ?_, fun a ha hf => ?_⟩
  · rw [List.map_append, List.map_singleton, ← List.concat_eq_append]
    refine h.ids.concat fun hm => ?_
    obtain ⟨a, ha, he⟩ := List.mem_map.mp hm
    exact hnew ⟨a, ha, he⟩
  · rcases List.mem_append.mp ha with ha | ha
    · exact h.plans a ha
    · rwa [List.mem_singleton.mp ha]
  · obtain ⟨a, ha, hae⟩ := h.entries e he
    exact ⟨a, List.mem_append_left _ ha, hae⟩
  · rcases List.mem_append.mp ha with ha | ha
    · exact h.stages a ha
    · rw [List.mem_singleton.mp ha]
      show l.stages id <+: plan
      rw [hnone]
      exact List.nil_prefix
  · rcases List.mem_append.mp ha with ha | ha
    · exact h.finished a ha hf
    · rw [List.mem_singleton.mp ha] at hf
      cases hf

omit [DecidableEq α] in
theorem InPlan.finish (h : l.InPlan) (hdone : ∀ a ∈ l.attempts, a.id = id → l.stages id = a.plan) :
    (l.finish id).InPlan := by
  have hrow {a' : Planned κ α} (ha' : a' ∈ (l.finish id).attempts) :
      ∃ a ∈ l.attempts, a'.id = a.id ∧ a'.plan = a.plan ∧ (a'.finished = true → a.finished = true ∨ a.id = id) := by
    obtain ⟨a, ha, rfl⟩ := List.mem_map.mp ha'
    refine ⟨a, ha, ?_⟩
    split
    · exact ⟨rfl, rfl, fun _ => .inr ‹_›⟩
    · exact ⟨rfl, rfl, .inl⟩
  have hids : (l.finish id).attempts.map Planned.id = l.attempts.map Planned.id := by
    rw [PlanLog.finish, List.map_map]
    refine List.map_congr_left fun a _ => ?_
    simp only [Function.comp_apply]
    split <;> rfl
  refine ⟨hids ▸ h.ids, fun a' ha' => ?_, fun e he => ?_, fun a' ha' => ?_, fun a' ha' hf => ?_⟩
  · obtain ⟨a, ha, -, hp, -⟩ := hrow ha'
    exact hp ▸ h.plans a ha
  · obtain ⟨a, ha, hae⟩ := h.entries e he
    refine ⟨_, List.mem_map.mpr ⟨a, ha, rfl⟩, ?_⟩
    split <;> exact hae
  · obtain ⟨a, ha, he, hp, -⟩ := hrow ha'
    rw [he, hp]
    exact h.stages a ha
  · obtain ⟨a, ha, he, hp, hf'⟩ := hrow ha'
    rw [he, hp]
    rcases hf' hf with hf | hid
    · exact h.finished a ha hf
    · rw [hid]
      exact hdone a ha hid

/-- A stage is recorded where its attempt is in its plan. -/
theorem InPlan.record (h : l.InPlan) {a : Planned κ α} (ha : a ∈ l.attempts) (hid : a.id = id) {k : Nat}
    (hk : a.plan[k]? = some stage) (hle : k ≤ (l.stages id).length) :
    ((Act.record id stage).apply l).InPlan ∧ k < (((Act.record id stage).apply l).stages id).length := by
  subst hid
  rcases prefix_record (h.plans a ha) (h.stages a ha) hk hle with ⟨hin, hlt⟩ | ⟨hnot, rfl, hpre⟩
  · rw [Act.apply, if_pos (mem_stages.mp hin)]
    exact ⟨h, hlt⟩
  · have hno : (a.id, stage) ∉ l.entries := fun he => hnot (mem_stages.mpr he)
    have hatt : ((Act.record a.id stage).apply l).attempts = l.attempts := by rw [Act.apply, if_neg hno]
    have hst := stages_record hno
    refine ⟨⟨hatt ▸ h.ids, hatt ▸ h.plans, fun e he => ?_, fun b hb => ?_, fun b hb hf => ?_⟩, ?_⟩
    · rw [Act.apply, if_neg hno] at he
      rw [hatt]
      rcases List.mem_append.mp he with he | he
      · exact h.entries e he
      · rw [List.mem_singleton.mp he]
        exact ⟨a, ha, rfl⟩
    · rw [hatt] at hb
      rw [hst]
      split
      · next he =>
        obtain rfl := List.inj_on_of_nodup_map h.ids ha hb he
        exact hpre
      · rw [List.append_nil]
        exact h.stages b hb
    · rw [hatt] at hb
      rw [hst, if_neg, List.append_nil]
      · exact h.finished b hb hf
      · intro he
        obtain rfl := List.inj_on_of_nodup_map h.ids ha hb he
        exact hnot (h.finished a ha hf ▸ List.mem_of_getElem? hk)
    · rw [hst, if_pos rfl]
      simp

theorem InPlan.apply (h : l.InPlan) (needs : act.Needs l) : (act.apply l).InPlan := by
  cases act with
  | quiet => exact h
  | begin id plan =>
    rw [Act.apply]
    split
    · exact h
    · exact h.begin needs ‹_›
  | finish id => exact h.finish needs
  | record id stage =>
    obtain ⟨a, ha, hid, k, hk, hle⟩ := needs
    exact (h.record ha hid hk hle).1

theorem later_apply (l : PlanLog κ α) (act : Act κ α) : l.Later (act.apply l) := by
  cases act with
  | quiet => exact .refl l
  | begin id plan =>
    rw [Act.apply]
    split
    · exact .refl l
    · exact ⟨fun _ _ ⟨a, ha, hid, hp⟩ => ⟨a, List.mem_append_left _ ha, hid, hp⟩, fun _ => List.prefix_rfl⟩
  | finish id =>
    refine ⟨fun _ _ ⟨a, ha, hid, hp⟩ => ⟨_, List.mem_map.mpr ⟨a, ha, rfl⟩, ?_⟩, fun _ => List.prefix_rfl⟩
    split <;> exact ⟨hid, hp⟩
  | record id stage =>
    rw [Act.apply]
    split
    · exact .refl l
    · exact ⟨fun _ _ h => h, fun i => ((List.prefix_append _ _).filter _).map _⟩

omit [DecidableEq α] in
/-- The next stage of a plan is what may be recorded. -/
theorem Upto.needs (h : l.Upto id plan done) (hnext : done ++ [stage] <+: plan) : (Act.record id stage).Needs l := by
  obtain ⟨⟨a, ha, hid, rfl⟩, hdone⟩ := h
  obtain ⟨rest, hrest⟩ := hnext
  exact ⟨a, ha, hid, done.length, by simp [← hrest], hdone.length_le⟩

/-- It is recorded then. -/
theorem Upto.record (hi : l.InPlan) (h : l.Upto id plan done) (hnext : done ++ [stage] <+: plan) :
    ((Act.record id stage).apply l).Upto id plan (done ++ [stage]) := by
  have hb := (later_apply l (.record id stage)).1 id plan h.1
  obtain ⟨a, ha, hid, k, hk, hle⟩ := h.needs hnext
  obtain ⟨hi', hlt⟩ := hi.record ha hid hk hle
  refine ⟨hb, List.prefix_of_prefix_length_le hnext (hi'.stages_of_begun hb) ?_⟩
  -- The stage is not recorded before its place in the plan.
  obtain ⟨rest, rfl⟩ := hnext
  obtain ⟨b, hb, hbid, hplan⟩ := h.1
  obtain rfl := List.inj_on_of_nodup_map hi.ids ha hb (hid.trans hbid.symm)
  have hn := hi.plans a ha
  rw [hplan] at hk hn
  have hdone : done.length < (done ++ [stage] ++ rest).length := by simp
  have hk' : (done ++ [stage] ++ rest)[done.length]? = some stage := by simp
  obtain ⟨hlt₁, h₁⟩ := List.getElem?_eq_some_iff.mp hk
  obtain ⟨hlt₂, h₂⟩ := List.getElem?_eq_some_iff.mp hk'
  obtain rfl := (hn.getElem_inj_iff).mp (h₁.trans h₂.symm)
  rw [List.length_append, List.length_singleton]
  omega

omit [DecidableEq α] in
/-- A stage that is recorded when those before it are. -/
theorem Upto.recorded (hi : l.InPlan) (h : l.Upto id plan done) (hnext : done ++ [stage] <+: plan)
    (hm : stage ∈ l.stages id) : l.Upto id plan (done ++ [stage]) := by
  refine ⟨h.1, List.prefix_of_prefix_length_le hnext (hi.stages_of_begun h.1) ?_⟩
  obtain ⟨rest, hrest⟩ := h.2
  cases rest with
  | nil =>
    -- All that is recorded comes before the stage in the plan.
    obtain ⟨a, ha, -, rfl⟩ := h.1
    rw [List.append_nil] at hrest
    have hn := (hi.plans a ha).sublist hnext.sublist
    exact absurd (List.mem_singleton_self stage) ((List.disjoint_of_nodup_append hn) (hrest ▸ hm))
  | cons x rest =>
    rw [← hrest, List.length_append, List.length_append, List.length_cons, List.length_cons]
    simp

omit [DecidableEq α] in
/-- An attempt whose plan is recorded may be finished. -/
theorem Upto.finished (hi : l.InPlan) (h : l.Upto id plan plan) : (Act.finish id : Act κ α).Needs l := by
  intro a ha hid
  obtain ⟨⟨b, hb, hbid, rfl⟩, hdone⟩ := h
  obtain rfl := List.inj_on_of_nodup_map hi.ids ha hb (hid.trans hbid.symm)
  have hplan := hi.stages a ha
  rw [hid] at hplan
  exact hplan.eq_of_length_le hdone.length_le

end PlanLog

/-! ## Programs -/

open PlanLog

variable {σ ι ε γ τ β : Type} {ρ : ι → Type} [DecidableEq κ] [DecidableEq α]

/-- Operations that do their act on the log of a state, or fail before or after it. -/
structure PlanSystem (step : ∀ i, σ → Except ε (ρ i) → σ → Prop) (inv : σ → Prop) (log : σ → PlanLog κ α)
    (act : ι → Act κ α) : Prop where
  inPlan {s : σ} : inv s → (log s).InPlan
  does {i : ι} {s t : σ} {v : ρ i} : step i s (.ok v) t → inv s → (act i).Needs (log s) → log t = (act i).apply (log s)
  keeps {i : ι} {s t : σ} {r : Except ε (ρ i)} : step i s r t → inv s → (act i).Needs (log s) →
    inv t ∧ (log s).Later (log t)

namespace PlanSystem

variable {step : ∀ i, σ → Except ε (ρ i) → σ → Prop} {inv : σ → Prop} {log : σ → PlanLog κ α} {act : ι → Act κ α}
  {Q : β → σ → Prop} {s : σ} {id : κ} {plan done : List α}

/-- What each operation of the program needs is there, and the program leaves `Q`. -/
abbrev Follows (step : ∀ i, σ → Except ε (ρ i) → σ → Prop) (inv : σ → Prop) (log : σ → PlanLog κ α) (act : ι → Act κ α)
    (Q : β → σ → Prop) (s : σ) (p : Prog ι (fun i => Except ε (ρ i)) ε β) : Prop :=
  Threads.ReadyTo step inv (fun s t => (log s).Later (log t)) (fun i s => (act i).Needs (log s)) Q s p

/-- An operation that records nothing, and what follows it. -/
theorem quiet (sys : PlanSystem step inv log act) {i : ι} {f : ρ i → Prog ι (fun i => Except ε (ρ i)) ε β}
    (h : (log s).Upto id plan done) (hq : act i = .quiet)
    (hf : ∀ v t, (log t).Upto id plan done → Follows step inv log act Q t (f v)) :
    Follows step inv log act Q s (Prog.call i >>= f) := by
  have needs (t : σ) : (act i).Needs (log t) := hq ▸ trivial
  exact .call_bind (fun t _ _ => needs t) fun t v t' hl hi hst _ =>
    hf v t' (h.later (hl.trans (sys.keeps hst hi (needs t)).2))

theorem quiet_last (sys : PlanSystem step inv log act) {i : ι} (h : (log s).Upto id plan done) (hq : act i = .quiet) :
    Follows step inv log act (fun _ t => (log t).Upto id plan done) s (Prog.call i) := by
  have needs (t : σ) : (act i).Needs (log t) := hq ▸ trivial
  exact .call (fun t _ _ => needs t) fun t v t' hl hi hst _ => h.later (hl.trans (sys.keeps hst hi (needs t)).2)

/-- An operation that records the next stage, and what follows it. -/
theorem record (sys : PlanSystem step inv log act) {i : ι} {stage : α} {f : ρ i → Prog ι (fun i => Except ε (ρ i)) ε β}
    (h : (log s).Upto id plan done) (hr : act i = .record id stage) (hnext : done ++ [stage] <+: plan)
    (hf : ∀ v t, (log t).Upto id plan (done ++ [stage]) → Follows step inv log act Q t (f v)) :
    Follows step inv log act Q s (Prog.call i >>= f) := by
  have needs (t : σ) (ht : (log s).Later (log t)) : (act i).Needs (log t) := hr ▸ (h.later ht).needs hnext
  refine .call_bind (fun t hl _ => needs t hl) fun t v t' hl hi hst _ => hf v t' ?_
  rw [sys.does hst hi (needs t hl), hr]
  exact (h.later hl).record (sys.inPlan hi) hnext

/-- The operation that finishes an attempt, and what follows it. -/
theorem finish (sys : PlanSystem step inv log act) {i : ι} {f : ρ i → Prog ι (fun i => Except ε (ρ i)) ε β}
    (h : (log s).Upto id plan plan) (hq : act i = .finish id)
    (hf : ∀ v t, (log t).Upto id plan plan → Follows step inv log act Q t (f v)) :
    Follows step inv log act Q s (Prog.call i >>= f) := by
  have needs (t : σ) (ht : (log s).Later (log t)) (hi : inv t) : (act i).Needs (log t) :=
    hq ▸ (h.later ht).finished (sys.inPlan hi)
  exact .call_bind needs fun t v t' hl hi hst _ =>
    hf v t' (h.later (hl.trans (sys.keeps hst hi (needs t hl hi)).2))

theorem finish_last (sys : PlanSystem step inv log act) {i : ι} (h : (log s).Upto id plan plan)
    (hq : act i = .finish id) :
    Follows step inv log act (fun _ t => (log t).Upto id plan plan) s (Prog.call i) := by
  have needs (t : σ) (ht : (log s).Later (log t)) (hi : inv t) : (act i).Needs (log t) :=
    hq ▸ (h.later ht).finished (sys.inPlan hi)
  exact .call needs fun t v t' hl hi hst _ => h.later (hl.trans (sys.keeps hst hi (needs t hl hi)).2)

variable [DecidableEq τ]

/-- In a run of programs that follow their plans, the recorded stages do. -/
theorem run (sys : PlanSystem step inv log act) {prog : γ → Prog ι (fun i => Except ε (ρ i)) ε β}
    (calls : ∀ s c, Follows step inv log act (fun _ _ => True) s (prog c))
    {s t : Threads τ σ ι (fun i => Except ε (ρ i)) ε β} {es : List (Threads.Event τ γ ι)}
    (run : Run (Threads.Step step prog) s es t) (h0 : inv s.shared) (idle : ∀ i, ∃ v, s.progs i = .done v) :
    inv t.shared := by
  have ready (i : τ) : Threads.Ready step inv (fun s t => (log s).Later (log t)) (fun i s => (act i).Needs (log s))
      s.shared (s.progs i) := by
    obtain ⟨v, hv⟩ := idle i
    rw [hv]
    exact .done _ v
  exact (Threads.ready_of_steps (fun s => .refl (log s)) (fun _ _ _ => .trans) (fun s c _ => (calls s c).ready)
    (fun hi hn hs => sys.keeps hs hi hn) run ⟨h0, ready⟩).1

end PlanSystem

end Xir
