import Xir.Impl.GoRuntime.Xir
import Xir.Impl.XirLab.MultihopScalability

/-!
# The stages of a route

`stagesOf` lists the stages of a route with the transition to a hop before its
dispatch, which is how the plan has them; a walk that records the transition
after the hop before lists the same (`hops_eq_walk`). The stages are distinct,
as their names are (`Stage.name_injective`), and the plan is their names
(`expectedStageSequence_letters`).
-/

namespace Xir.Impl

inductive Stage
  | root
  | transition (hop : Nat)
  | dispatch (hop : Nat) (protocol : Protocol)
  | process (hop : Nat)
  | dvnExecute (hop : Nat)
  | commitVerification (hop : Nat)
  | executorExecute (hop : Nat)
  | deliver
  deriving DecidableEq

namespace Stage

/-- What follows the number of the hop in the name of a stage. -/
def suffix : Stage → String
  | transition _ => "_xir_transition"
  | dispatch _ .H => "_h_dispatch"
  | dispatch _ .L => "_l_dispatch"
  | process _ => "_hyperlane_process"
  | dvnExecute _ => "_layerzero_dvn_execute"
  | commitVerification _ => "_layerzero_commit_verification"
  | executorExecute _ => "_layerzero_executor_execute"
  | root | deliver => ""

def name : Stage → String
  | root => "root_create"
  | deliver => "destination_verify_deliver"
  | stage@(transition i) | stage@(dispatch i _) | stage@(process i) | stage@(dvnExecute i)
  | stage@(commitVerification i) | stage@(executorExecute i) => "hop_" ++ toString i ++ stage.suffix

/-- The hop of a stage, which the ends of a route have not. -/
def hop : Stage → Option Nat
  | root | deliver => none
  | transition i | dispatch i _ | process i | dvnExecute i | commitVerification i | executorExecute i => some i

theorem toList_name {s : Stage} {i : Nat} (h : s.hop = some i) :
    s.name.toList = "hop_".toList ++ (Nat.toDigits 10 i ++ s.suffix.toList) := by
  cases s <;> cases h <;> simp [name, Nat.repr, toString]

theorem head_suffix {s : Stage} {i : Nat} (h : s.hop = some i) : ∃ cs, s.suffix.toList = '_' :: cs := by
  cases s with
  | root | deliver => cases h
  | dispatch i p => cases p <;> simp [suffix]
  | _ => simp [suffix]

theorem takeWhile_digits {cs : List Char} (n : Nat) :
    (Nat.toDigits 10 n ++ '_' :: cs).takeWhile Char.isDigit = Nat.toDigits 10 n := by
  rw [List.takeWhile_append_of_pos fun c hc => Nat.isDigit_of_mem_toDigits (by decide) (by decide) hc]
  simp

theorem ofDigits_inj {m n : Nat} (h : Nat.toDigits 10 m = Nat.toDigits 10 n) : m = n := by
  rw [← Nat.ofDigitChars_ten_toDigits (n := m), h, Nat.ofDigitChars_ten_toDigits]

/-- A stage is known by its hop and its suffix. -/
theorem eq_of_suffix {s t : Stage} {i : Nat} (hs : s.hop = some i) (ht : t.hop = some i) (h : s.suffix = t.suffix) :
    s = t := by
  cases s with
  | root | deliver => cases hs
  | dispatch _ p =>
    cases t with
    | dispatch _ q =>
      cases hs
      cases ht
      cases p <;> cases q <;> first | rfl | simp [suffix] at h
    | root | deliver => cases ht
    | _ => cases p <;> simp [suffix] at h
  | _ =>
    cases t with
    | root | deliver => cases ht
    | dispatch _ q => cases q <;> simp [suffix] at h
    | _ =>
      cases hs
      cases ht
      first | rfl | simp [suffix] at h

theorem name_ne_of_hop {s t : Stage} {i : Nat} (hs : s.hop = none) (ht : t.hop = some i) : s.name ≠ t.name := by
  intro h
  have hl : s.name.toList = "hop_".toList ++ (Nat.toDigits 10 i ++ t.suffix.toList) := by rw [h, toList_name ht]
  cases s with
  | root | deliver => exact absurd (List.cons.inj hl).1 (by decide)
  | _ => cases hs

theorem name_injective : Function.Injective name := by
  intro s t h
  cases hs : s.hop with
  | none =>
    cases ht : t.hop with
    | none => cases s <;> cases hs <;> cases t <;> cases ht <;> first | rfl | exact absurd h (by decide)
    | some j => exact absurd h (name_ne_of_hop hs ht)
  | some i =>
    cases ht : t.hop with
    | none => exact absurd h.symm (name_ne_of_hop ht hs)
    | some j =>
      have hl : s.name.toList = t.name.toList := by rw [h]
      rw [toList_name hs, toList_name ht] at hl
      have hl := List.append_cancel_left hl
      obtain ⟨cs, hc⟩ := head_suffix hs
      obtain ⟨ds, hd⟩ := head_suffix ht
      rw [hc, hd] at hl
      have hi := congrArg (List.takeWhile Char.isDigit) hl
      rw [takeWhile_digits, takeWhile_digits] at hi
      obtain rfl := ofDigits_inj hi
      have hsuffix := List.append_cancel_left hl
      rw [← hc, ← hd] at hsuffix
      exact eq_of_suffix hs ht (String.toList_inj.mp hsuffix)

end Stage

/-! ## Routes -/

/-- The stages of the carrier of a hop. -/
def carrierStages (hop : Nat) : Protocol → List Stage
  | .H => [.process hop]
  | .L => [.dvnExecute hop, .commitVerification hop, .executorExecute hop]

/-- The transition to a hop, after one of another protocol. -/
def switchTo (hop : Nat) (previous : Option Protocol) (protocol : Protocol) : List Stage :=
  match previous with
  | none => []
  | some p => if p = protocol then [] else [.transition hop]

/-- The stages of the hops, from one on. -/
def hops (hop : Nat) (previous : Option Protocol) : Route → List Stage
  | [] => []
  | p :: route => switchTo hop previous p ++ .dispatch hop p :: carrierStages hop p ++ hops (hop + 1) (some p) route

/-- The stages of the hops, from one on whose transition is recorded. -/
def walk (hop : Nat) : Route → List Stage
  | [] => []
  | [p] => .dispatch hop p :: carrierStages hop p
  | p :: q :: route =>
    .dispatch hop p :: carrierStages hop p ++ switchTo (hop + 1) (some p) q ++ walk (hop + 1) (q :: route)

/-- The stages of a route. -/
def stagesOf (route : Route) : List Stage := .root :: hops 1 none route ++ [.deliver]

theorem hops_eq_walk (hop : Nat) (previous : Option Protocol) (p : Protocol) (route : Route) :
    hops hop previous (p :: route) = switchTo hop previous p ++ walk hop (p :: route) := by
  induction route generalizing hop previous p with
  | nil => simp [hops, walk]
  | cons q route ih => rw [hops, ih, walk]; simp

theorem stagesOf_eq_walk {route : Route} (h : route ≠ []) : stagesOf route = .root :: walk 1 route ++ [.deliver] := by
  obtain ⟨p, route, rfl⟩ := List.exists_cons_of_ne_nil h
  rw [stagesOf, hops_eq_walk]
  rfl

/-- The stages of one hop. -/
def block (hop : Nat) (previous : Option Protocol) (p : Protocol) : List Stage :=
  switchTo hop previous p ++ .dispatch hop p :: carrierStages hop p

theorem hops_cons (hop : Nat) (previous : Option Protocol) (p : Protocol) (route : Route) :
    hops hop previous (p :: route) = block hop previous p ++ hops (hop + 1) (some p) route := by
  simp [hops, block]

/-- The stages of a hop are its own, each once. -/
theorem block_ok (hop : Nat) (previous : Option Protocol) (p : Protocol) :
    (∀ s ∈ block hop previous p, s.hop = some hop) ∧ (block hop previous p).Nodup := by
  rw [block]
  rcases previous with - | q
  · cases p <;> simp [switchTo, carrierStages, Stage.hop]
  · cases p <;> cases q <;> simp [switchTo, carrierStages, Stage.hop]

theorem hop_of_mem_hops {hop : Nat} {previous : Option Protocol} {route : Route} {s : Stage}
    (h : s ∈ hops hop previous route) : ∃ i, s.hop = some i ∧ hop ≤ i := by
  induction route generalizing hop previous with
  | nil => cases h
  | cons p route ih =>
    rw [hops_cons] at h
    rcases List.mem_append.mp h with h | h
    · exact ⟨hop, (block_ok hop previous p).1 s h, le_rfl⟩
    · obtain ⟨i, hi, hle⟩ := ih h
      exact ⟨i, hi, by omega⟩

theorem nodup_hops (hop : Nat) (previous : Option Protocol) (route : Route) : (hops hop previous route).Nodup := by
  induction route generalizing hop previous with
  | nil => exact List.nodup_nil
  | cons p route ih =>
    rw [hops_cons]
    obtain ⟨hhop, hb⟩ := block_ok hop previous p
    refine hb.append (ih _ _) fun s hs hs' => ?_
    obtain ⟨i, hi, hle⟩ := hop_of_mem_hops hs'
    rw [hhop s hs] at hi
    obtain rfl := Option.some.inj hi
    omega

theorem nodup_stagesOf (route : Route) : (stagesOf route).Nodup := by
  have hnot {s : Stage} (hs : s.hop = none) : s ∉ hops 1 none route := by
    intro h
    obtain ⟨i, hi, -⟩ := hop_of_mem_hops h
    rw [hs] at hi
    cases hi
  rw [stagesOf, List.cons_append, List.nodup_cons]
  refine ⟨fun h => ?_, (nodup_hops 1 none route).append (List.nodup_singleton _) ?_⟩
  · rcases List.mem_append.mp h with h | h
    · exact hnot rfl h
    · cases List.mem_singleton.mp h
  · intro s hs h
    rw [List.mem_singleton.mp h] at hs
    exact hnot rfl hs

/-- The hops at which the protocol changes. -/
def switches (previous : Option Protocol) : Route → Nat
  | [] => 0
  | p :: route => (switchTo 0 previous p).length + switches (some p) route

theorem length_hops (hop : Nat) (previous : Option Protocol) (route : Route) :
    (hops hop previous route).length =
      route.length + switches previous route + route.count .H + 3 * route.count .L := by
  induction route generalizing hop previous with
  | nil => rfl
  | cons p route ih =>
    have hs : (switchTo hop previous p).length = (switchTo 0 previous p).length := by
      cases previous with
      | none => rfl
      | some q => cases p <;> cases q <;> rfl
    rw [hops, List.length_append, List.length_append, List.length_cons, ih, switches, hs]
    cases p <;> simp [carrierStages] <;> omega

theorem transition_mem_block {hop i : Nat} {previous : Option Protocol} {q : Protocol} :
    Stage.transition i ∈ block hop previous q ↔ i = hop ∧ ∃ p, previous = some p ∧ p ≠ q := by
  rcases previous with - | p
  · cases q <;> simp [block, switchTo, carrierStages]
  · cases p <;> cases q <;> simp [block, switchTo, carrierStages]

theorem transition_mem_hops {hop i : Nat} {p : Protocol} {route : Route} :
    Stage.transition i ∈ hops hop (some p) route ↔ ∃ k a b, i = hop + k ∧ (p :: route)[k]? = some a ∧
      (p :: route)[k + 1]? = some b ∧ a ≠ b := by
  induction route generalizing hop p with
  | nil => simp [hops]
  | cons q route ih =>
    rw [hops_cons, List.mem_append, ih, transition_mem_block]
    constructor
    · rintro (⟨rfl, a, ha, hne⟩ | ⟨k, a, b, rfl, ha, hb, hne⟩)
      · exact ⟨0, a, q, rfl, ha, rfl, hne⟩
      · exact ⟨k + 1, a, b, by omega, ha, hb, hne⟩
    · rintro ⟨k, a, b, rfl, ha, hb, hne⟩
      cases k with
      | zero => exact .inl ⟨rfl, a, ha, Option.some.inj hb ▸ hne⟩
      | succ k => exact .inr ⟨k, a, b, by omega, ha, hb, hne⟩

/-- There is a transition to a hop exactly where the protocol changes. -/
theorem transition_mem_stagesOf {route : Route} {i : Nat} :
    Stage.transition i ∈ stagesOf route ↔ 2 ≤ i ∧ ∃ a b, route[i - 2]? = some a ∧ route[i - 1]? = some b ∧ a ≠ b := by
  cases route with
  | nil => simp [stagesOf, hops]
  | cons p route =>
    have hm : Stage.transition i ∈ stagesOf (p :: route) ↔ Stage.transition i ∈ hops 2 (some p) route := by
      simp [stagesOf, hops_cons, transition_mem_block]
    rw [hm, transition_mem_hops]
    constructor
    · rintro ⟨k, a, b, rfl, ha, hb, hne⟩
      refine ⟨Nat.le_add_right 2 k, a, b, ?_, ?_, hne⟩
      · rwa [Nat.add_sub_cancel_left]
      · rwa [show 2 + k - 1 = k + 1 by omega]
    · rintro ⟨hi, a, b, ha, hb, hne⟩
      exact ⟨i - 2, a, b, by omega, ha, (show i - 1 = i - 2 + 1 by omega) ▸ hb, hne⟩

/-! ## The plan -/

namespace XirLab.MultihopScalability

/-- The characters of a route. -/
def letters (route : Route) : PyRoute := route.map Protocol.letter

theorem exists_letters {route : PyRoute} (h : ∀ protocol ∈ route, protocol = 'H' ∨ protocol = 'L') :
    ∃ r, route = letters r := by
  induction route with
  | nil => exact ⟨[], rfl⟩
  | cons c route ih =>
    obtain ⟨hc, h⟩ := List.forall_mem_cons.mp h
    obtain ⟨r, rfl⟩ := ih h
    rcases hc with rfl | rfl
    · exact ⟨.H :: r, rfl⟩
    · exact ⟨.L :: r, rfl⟩

theorem letter_injective : Function.Injective Protocol.letter := by
  intro p q h
  cases p <;> cases q <;> first | rfl | exact absurd h (by decide)

theorem dispatchStage_letter (i : Nat) (p : Protocol) : dispatchStage i p.letter = (Stage.dispatch i p).name := by
  cases p <;> simp only [dispatchStage, Stage.name, Stage.suffix, Protocol.letter, String.append_assoc] <;> rfl

theorem carrierStages_letter (i : Nat) (p : Protocol) :
    carrierStages i p.letter = (Impl.carrierStages i p).map Stage.name := by
  cases p <;> rfl

/-- What a turn of the loop appends, at a hop with the hops before it. -/
theorem hopStages_letters (pre : Route) (p : Protocol) (route : Route) :
    hopStages (letters (pre ++ p :: route)) (pre.length + 1) p.letter =
      (block (pre.length + 1) pre.getLast? p).map Stage.name := by
  rw [hopStages, block, List.map_append, List.map_cons, dispatchStage_letter, carrierStages_letter]
  congr 1
  rcases List.eq_nil_or_concat pre with rfl | ⟨pre, q, rfl⟩
  · rfl
  · have hq : (letters (pre ++ [q] ++ p :: route))[(pre ++ [q]).length + 1 - 2]? = some q.letter := by
      simp [letters]
    rw [List.concat_eq_append, hq, List.getLast?_concat, switchTo]
    by_cases h : q = p
    · rw [if_pos h, if_neg fun hn => hn.2 (congrArg _ (congrArg _ h))]
      rfl
    · rw [if_neg h, if_pos ⟨by simp, fun he => h (letter_injective (Option.some.inj he))⟩]
      rfl

theorem flatMap_hopStages (pre route : Route) :
    ((letters route).zipIdx (pre.length + 1)).flatMap (fun x => hopStages (letters (pre ++ route)) x.2 x.1) =
      (hops (pre.length + 1) pre.getLast? route).map Stage.name := by
  induction route generalizing pre with
  | nil => rfl
  | cons p route ih =>
    have ih := ih (pre ++ [p])
    rw [List.length_append, List.length_singleton, List.append_assoc, List.getLast?_concat] at ih
    rw [hops_cons, List.map_append, ← hopStages_letters pre p route, ← ih]
    rfl

theorem stages_letters (route : Route) : stages (letters route) = (stagesOf route).map Stage.name := by
  have h := flatMap_hopStages [] route
  simp only [List.length_nil, List.nil_append, Nat.zero_add] at h
  rw [stages, stagesOf, h, List.map_append, List.map_cons]
  rfl

theorem changes_letters (route : Route) : changes (letters route) = switches none route := by
  have h (p : Protocol) (route : Route) : changes (letters (p :: route)) = switches (some p) route := by
    induction route generalizing p with
    | nil => rfl
    | cons q route ih =>
      rw [switches, ← ih q]
      cases p <;> cases q <;> simp [changes, letters, switchTo, Protocol.letter] <;> omega
  cases route with
  | nil => rfl
  | cons p route => rw [h, switches]; simp [switchTo]

theorem switchCount_letters {route : Route} (h : route ≠ []) :
    switchCount (letters route) = .ok (switches none route) := by
  rw [switchCount, if_neg, changes_letters]
  rintro (hn | hany)
  · exact h (List.map_eq_nil_iff.mp hn)
  · obtain ⟨c, hc, hne⟩ := List.any_eq_true.mp hany
    obtain ⟨p, -, rfl⟩ := List.mem_map.mp hc
    cases p <;> exact absurd hne (by decide)

theorem count_letters (route : Route) (p : Protocol) : (letters route).count p.letter = route.count p :=
  List.count_map_of_injective route Protocol.letter letter_injective p

/-- The number of the stages of a route. -/
theorem length_names (route : Route) : ((stagesOf route).map Stage.name).length =
    (letters route).length + switches none route + 2 + (letters route).count 'H' + 3 * (letters route).count 'L' := by
  rw [List.length_map, stagesOf, List.length_append, List.length_cons, length_hops, letters, List.length_map, ← letters,
    show (letters route).count 'H' = route.count .H from count_letters route .H,
    show (letters route).count 'L' = route.count .L from count_letters route .L]
  simp
  omega

/-- The plan of a route is the names of its stages. -/
theorem expectedStageSequence_letters {route : Route} (h : route ≠ []) :
    expectedStageSequence (letters route) = .ok ((stagesOf route).map Stage.name) := by
  simp only [expectedStageSequence, expectedPhysicalTransactions, expectedCoordinatorTransactions,
    switchCount_letters h, stages_letters]
  simp only [bind, Except.bind, pure, Except.pure, ← length_names, ne_eq, not_true_eq_false, if_false]

end XirLab.MultihopScalability

end Xir.Impl
