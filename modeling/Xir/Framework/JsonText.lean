import Xir.Framework.Json

/-!
# What is written is read again

A style is `Lawful` when a reader gets each escaped character back, and when its
separators are the ones of JSON with spaces after them.
-/

namespace Xir.Json

/-! ## Spaces -/

theorem skip_append {w : List Char} (hw : ∀ c ∈ w, isSpace c = true) (cs : List Char) : skip (w ++ cs) = skip cs :=
  List.dropWhile_append_of_pos hw

theorem skip_cons {c : Char} (h : isSpace c = false) (cs : List Char) : skip (c :: cs) = c :: cs :=
  List.dropWhile_cons_of_neg (by simp [h])

/-! ## Styles -/

/-- What a reader needs of a style. -/
structure Style.Lawful (style : Style) : Prop where
  escape (c : Char) (rest : List Char) : readChar (style.escape c ++ rest) = some (c, rest)
  escape_head (c : Char) : ∃ e es, style.escape c = e :: es ∧ e ≠ '"'
  indent : ∀ c ∈ style.indent, isSpace c = true
  itemSeparator : ∃ w, style.itemSeparator = ',' :: w ∧ ∀ c ∈ w, isSpace c = true
  keySeparator : ∃ w, style.keySeparator = ':' :: w ∧ ∀ c ∈ w, isSpace c = true

variable {style : Style} {level rest : List Char}

/-- A level is made of spaces. -/
def Blank (level : List Char) : Prop := ∀ c ∈ level, isSpace c = true

theorem Blank.append {level indent : List Char} (hl : Blank level) (hi : Blank indent) : Blank (level ++ indent) :=
  List.forall_mem_append.mpr ⟨hl, hi⟩

theorem blank_nil : Blank [] := fun _ h => absurd h List.not_mem_nil

theorem blank_space : Blank [' '] := fun _ h => by
  rw [List.mem_singleton.mp h]
  rfl

theorem blank_line (hl : Blank level) : Blank (style.line level) := by
  unfold Style.line
  split
  · exact fun _ h => absurd h List.not_mem_nil
  · exact List.forall_mem_cons.mpr ⟨by decide, hl⟩

/-! ## Strings -/

theorem readString_escaped (hs : style.Lawful) (value : List Char) {n : Nat} (hn : value.length < n) :
    readString n (value.flatMap style.escape ++ '"' :: rest) = some (value, rest) := by
  induction value generalizing n with
  | nil =>
    cases n with
    | zero => exact absurd hn (Nat.not_lt_zero _)
    | succ n => rfl
  | cons c value ih =>
    cases n with
    | zero => exact absurd hn (Nat.not_lt_zero _)
    | succ n =>
      obtain ⟨e, es, he, hq⟩ := hs.escape_head c
      have step : ∀ cs, readString (n + 1) (style.escape c ++ cs) =
          (readChar (style.escape c ++ cs)).bind fun p => (readString n p.2).bind fun q => some (p.1 :: q.1, q.2) := by
        intro cs
        rw [he, List.cons_append, readString]
        · rfl
        · rintro _ heq
          exact hq (List.cons.inj heq).1
      rw [List.flatMap_cons, List.append_assoc, step, hs.escape, Option.bind_some, ih (Nat.lt_of_succ_lt_succ hn)]
      rfl

/-- A string is not longer than its text. -/
theorem length_le_escaped (hs : style.Lawful) (value : List Char) :
    value.length ≤ (value.flatMap style.escape).length := by
  induction value with
  | nil => exact Nat.zero_le _
  | cons c value ih =>
    obtain ⟨e, es, he, -⟩ := hs.escape_head c
    rw [List.flatMap_cons, he, List.length_append, List.length_cons, List.length_cons]
    omega

/-- A string, after its opening quote. -/
theorem readString_string (hs : style.Lawful) (value : String) (rest : List Char) :
    ∃ cs, style.string value ++ rest = '"' :: cs ∧
      readString (cs.length + 1) cs = some (value.toList, rest) := by
  refine ⟨value.toList.flatMap style.escape ++ '"' :: rest, by simp [Style.string], readString_escaped hs _ ?_⟩
  have := length_le_escaped hs value.toList
  rw [List.length_append]
  omega

/-! ## Numbers -/

/-- What follows a number does not continue it. -/
def Stops (rest : List Char) : Prop := ∀ c cs, rest = c :: cs → c.isDigit = false ∧ c ≠ '.' ∧ c ≠ 'e' ∧ c ≠ 'E'

theorem stops_nil : Stops [] := nofun

theorem stops_cons {c : Char} (h : c.isDigit = false ∧ c ≠ '.' ∧ c ≠ 'e' ∧ c ≠ 'E') (cs : List Char) :
    Stops (c :: cs) := by
  rintro _ _ heq
  obtain ⟨rfl, rfl⟩ := List.cons.inj heq
  exact h

theorem digits_append {ds : List Char} (hd : ∀ c ∈ ds, c.isDigit = true) (hn : ds ≠ []) (hr : Stops rest) :
    digits (ds ++ rest) = some (ds, rest) := by
  have take : rest.takeWhile Char.isDigit = [] := by
    cases rest with
    | nil => rfl
    | cons c cs => exact List.takeWhile_cons_of_neg (by simp [(hr c cs rfl).1])
  have drop : rest.dropWhile Char.isDigit = rest := by
    cases rest with
    | nil => rfl
    | cons c cs => exact List.dropWhile_cons_of_neg (by simp [(hr c cs rfl).1])
  have ht : (ds ++ rest).takeWhile Char.isDigit = ds := by
    rw [List.takeWhile_append_of_pos hd, take, List.append_nil]
  have hdrop : (ds ++ rest).dropWhile Char.isDigit = rest := by
    rw [List.dropWhile_append_of_pos hd, drop]
  rw [digits, ht, hdrop, if_neg hn]

theorem readFraction_stops (hr : Stops rest) : readFraction rest = some ([], rest) := by
  cases rest with
  | nil => rfl
  | cons c cs =>
    rw [readFraction]
    rintro _ heq
    exact (hr c cs rfl).2.1 (List.cons.inj heq).1

theorem readExponent_stops (hr : Stops rest) : readExponent rest = some ([], rest) := by
  cases rest with
  | nil => rfl
  | cons c cs =>
    obtain ⟨-, -, he, hE⟩ := hr c cs rfl
    rw [readExponent, if_neg (not_or.mpr ⟨he, hE⟩)]

/-- The digits of a number that is not zero do not start with a zero. -/
theorem head_toDigits {n : Nat} (hn : 0 < n) : ∃ c cs, Nat.toDigits 10 n = c :: cs ∧ c ≠ '0' := by
  induction n using Nat.strongRecOn with
  | _ n ih =>
    by_cases h : n < 10
    · refine ⟨_, _, Nat.toDigits_of_lt_base h, ?_⟩
      interval_cases n <;> decide
    · obtain ⟨c, cs, hc, h0⟩ := ih (n / 10) (by omega) (by omega)
      exact ⟨c, cs ++ [(n % 10).digitChar], by rw [Nat.toDigits_of_base_le (by decide) (by omega), hc]; rfl, h0⟩

theorem readWhole_toDigits (n : Nat) (hr : Stops rest) :
    readWhole (Nat.toDigits 10 n ++ rest) = some (Nat.toDigits 10 n, rest) := by
  rcases Nat.eq_zero_or_pos n with rfl | hn
  · rfl
  · obtain ⟨c, cs, hc, h0⟩ := head_toDigits hn
    have hd : ∀ c ∈ Nat.toDigits 10 n, c.isDigit = true := fun c => Nat.isDigit_of_mem_toDigits (by decide) (by decide)
    have := digits_append hd Nat.toDigits_ne_nil hr
    rw [hc, List.cons_append] at this ⊢
    rw [readWhole]
    · exact this
    · rintro _ heq
      exact h0 (List.cons.inj heq).1

/-- An integer is a sign and its digits. -/
theorem toList_toString_int (n : Int) :
    (toString n).toList = if 0 ≤ n then Nat.toDigits 10 n.toNat else '-' :: Nat.toDigits 10 (-n).toNat := by
  rw [Int.toString_eq_repr, Int.repr_eq_if]
  split
  · exact Nat.toList_repr
  · rw [String.toList_append, Nat.toList_repr]
    rfl

/-- The first character of an integer. -/
theorem head_toString_int (n : Int) : ∃ c cs, (toString n).toList = c :: cs ∧ (c.isDigit = true ∨ c = '-') := by
  rw [toList_toString_int]
  split
  · obtain ⟨c, cs, hc⟩ := List.exists_cons_of_ne_nil (Nat.toDigits_ne_nil (n := n.toNat) (b := 10))
    exact ⟨c, cs, hc, .inl (Nat.isDigit_of_mem_toDigits (by decide) (by decide) (hc ▸ List.mem_cons_self))⟩
  · exact ⟨_, _, rfl, .inr rfl⟩

theorem readNumber_int (n : Int) (hr : Stops rest) :
    readNumber ((toString n).toList ++ rest) = some (.int n, rest) := by
  have literal : .number (String.ofList (toString n).toList) = int n := congrArg number String.ofList_toList
  have tail (sign : List Char) (m : Nat) :
      readSign (sign ++ Nat.toDigits 10 m ++ rest) = (sign, Nat.toDigits 10 m ++ rest) →
      readNumber (sign ++ Nat.toDigits 10 m ++ rest) =
        some (.number (String.ofList (sign ++ Nat.toDigits 10 m)), rest) := by
    intro hs
    unfold readNumber
    simp only [hs, readWhole_toDigits m hr, readFraction_stops hr, readExponent_stops hr, Option.bind_eq_bind,
      Option.bind_some, List.append_nil]
    rfl
  rw [← literal, toList_toString_int]
  split
  · refine tail [] n.toNat ?_
    obtain ⟨c, cs, hc⟩ := List.exists_cons_of_ne_nil (Nat.toDigits_ne_nil (n := n.toNat) (b := 10))
    have digit : c.isDigit = true := Nat.isDigit_of_mem_toDigits (by decide) (by decide) (hc ▸ List.mem_cons_self)
    rw [List.nil_append, hc, List.cons_append, readSign]
    rintro _ heq
    rw [(List.cons.inj heq).1] at digit
    exact absurd digit (by decide)
  · exact tail ['-'] (-n).toNat rfl

/-! ## Values -/

theorem not_isSpace {c : Char} (hc : c.isDigit = true ∨ c = '-') : isSpace c = false := by
  rw [Bool.eq_false_iff]
  intro h
  simp only [isSpace, Bool.or_eq_true, decide_eq_true_eq] at h
  rcases h with ((rfl | rfl) | rfl) | rfl <;> exact absurd hc (by decide)

/-- A number is read where a value is. -/
theorem readValue_number {n depth : Nat} {c : Char} (hc : c.isDigit = true ∨ c = '-') (cs : List Char) :
    readValue (n + 1) depth (c :: cs) = readNumber (c :: cs) := by
  rw [readValue, skip_cons (not_isSpace hc)]
  split <;> simp_all

/-- Spaces before a value are skipped. -/
theorem readValue_blank {w : List Char} (hw : Blank w) (n depth : Nat) (cs : List Char) :
    readValue n depth (w ++ cs) = readValue n depth cs := by
  cases n with
  | zero => rfl
  | succ n => rw [readValue, readValue, skip_append hw]

theorem readItems_succ (n depth : Nat) (cs : List Char) :
    readItems (n + 1) depth cs = (readValue n depth cs).bind fun p => match skip p.2 with
      | ',' :: rest => (readItems n depth rest).bind fun q => some (p.1 :: q.1, q.2)
      | ']' :: rest => some ([p.1], rest)
      | _ => none := rfl

theorem readItems_blank {w : List Char} (hw : Blank w) (n depth : Nat) (cs : List Char) :
    readItems n depth (w ++ cs) = readItems n depth cs := by
  cases n with
  | zero => rfl
  | succ n => rw [readItems_succ, readItems_succ, readValue_blank hw]

theorem readMembers_blank {w : List Char} (hw : Blank w) (n depth : Nat) (cs : List Char) :
    readMembers n depth (w ++ cs) = readMembers n depth cs := by
  cases n with
  | zero => rfl
  | succ n => rw [readMembers, readMembers, skip_append hw]

section

variable {n depth : Nat} {cs r r' r₁ r₂ : List Char} {item value : Json} {c : Char} {key : List Char}

theorem readValue_array (hskip : skip cs = c :: r) (hc : c ≠ ']') :
    readValue (n + 1) (depth + 1) ('[' :: cs) =
      (readItems n depth (c :: r)).map fun p => (.array p.1, p.2) := by
  rw [readValue, skip_cons (by decide)]
  simp only [hskip]
  split
  · simp_all
  · rfl

theorem readValue_object (hskip : skip cs = c :: r) (hc : c ≠ '\x7d') :
    readValue (n + 1) (depth + 1) ('\x7b' :: cs) =
      (readMembers n depth (c :: r)).map fun p => (.object (p.1.foldl put []), p.2) := by
  rw [readValue, skip_cons (by decide)]
  simp only [hskip]
  split
  · simp_all
  · rfl

theorem readItems_cons (hv : readValue n depth cs = some (item, r)) (hskip : skip r = ',' :: r') :
    readItems (n + 1) depth cs = (readItems n depth r').map fun p => (item :: p.1, p.2) := by
  rw [readItems_succ, hv, Option.bind_some, hskip]
  show (readItems n depth r').bind _ = _
  cases readItems n depth r' <;> rfl

theorem readItems_last (hv : readValue n depth cs = some (item, r)) (hskip : skip r = ']' :: r') :
    readItems (n + 1) depth cs = some ([item], r') := by
  rw [readItems_succ, hv, Option.bind_some, hskip]
  rfl

theorem readItems_none (hv : readValue n depth cs = none) : readItems (n + 1) depth cs = none := by
  rw [readItems_succ, hv, Option.bind_none]

theorem readMembers_succ (n depth : Nat) (cs : List Char) :
    readMembers (n + 1) depth ('"' :: cs) = (readString (cs.length + 1) cs).bind fun p => match skip p.2 with
      | ':' :: rest => (readValue n depth rest).bind fun q => match skip q.2 with
        | ',' :: rest => (readMembers n depth rest).bind fun m => some ((String.ofList p.1, q.1) :: m.1, m.2)
        | '\x7d' :: rest => some ([(String.ofList p.1, q.1)], rest)
        | _ => none
      | _ => none := rfl

theorem readMembers_cons (hk : readString (cs.length + 1) cs = some (key, r)) (hcolon : skip r = ':' :: r₁)
    (hv : readValue n depth r₁ = some (value, r₂)) (hskip : skip r₂ = ',' :: r') :
    readMembers (n + 1) depth ('"' :: cs) =
      (readMembers n depth r').map fun p => ((String.ofList key, value) :: p.1, p.2) := by
  rw [readMembers_succ, hk, Option.bind_some, hcolon]
  show (readValue n depth r₁).bind _ = _
  rw [hv, Option.bind_some, hskip]
  show (readMembers n depth r').bind _ = _
  cases readMembers n depth r' <;> rfl

theorem readMembers_last (hk : readString (cs.length + 1) cs = some (key, r)) (hcolon : skip r = ':' :: r₁)
    (hv : readValue n depth r₁ = some (value, r₂)) (hskip : skip r₂ = '\x7d' :: r') :
    readMembers (n + 1) depth ('"' :: cs) = some ([(String.ofList key, value)], r') := by
  rw [readMembers_succ, hk, Option.bind_some, hcolon]
  show (readValue n depth r₁).bind _ = _
  rw [hv, Option.bind_some, hskip]
  rfl

theorem readMembers_none (hk : readString (cs.length + 1) cs = some (key, r)) (hcolon : skip r = ':' :: r₁)
    (hv : readValue n depth r₁ = none) : readMembers (n + 1) depth ('"' :: cs) = none := by
  rw [readMembers_succ, hk, Option.bind_some, hcolon]
  show (readValue n depth r₁).bind _ = _
  rw [hv, Option.bind_none]

end

/-! ## Induction -/

/-- A property of values that the items of an array and the members of an object pass on to it. -/
theorem induct {P : Json → Prop} (null : P .null) (bool : ∀ b, P (.bool b)) (number : ∀ literal, P (.number literal))
    (string : ∀ value, P (.string value)) (array : ∀ items, (∀ t ∈ items, P t) → P (.array items))
    (object : ∀ members, (∀ m ∈ members, P m.2) → P (.object members)) (t : Json) : P t :=
  @Json.rec P (fun items => ∀ t ∈ items, P t) (fun members => ∀ m ∈ members, P m.2) (fun m => P m.2)
    null bool number string array object
    (fun _ h => absurd h List.not_mem_nil) (fun _ _ head tail => List.forall_mem_cons.mpr ⟨head, tail⟩)
    (fun _ h => absurd h List.not_mem_nil) (fun _ _ head tail => List.forall_mem_cons.mpr ⟨head, tail⟩)
    (fun _ _ h => h) t

theorem wellFormedAll_iff {items : List Json} : WellFormedAll items ↔ ∀ t ∈ items, WellFormed t := by
  induction items with
  | nil => simp [WellFormedAll]
  | cons item items ih => rw [WellFormedAll, ih, List.forall_mem_cons]

theorem wellFormedMembers_iff {members : List (String × Json)} :
    WellFormedMembers members ↔ ∀ m ∈ members, WellFormed m.2 := by
  induction members with
  | nil => simp [WellFormedMembers]
  | cons m members ih => rw [WellFormedMembers, ih, List.forall_mem_cons]

/-! ## Values and their texts -/

mutual

/-- How deep the recursion of a reader goes. -/
def size : Json → Nat
  | .array items => sizeAll items + 1
  | .object members => sizeMembers members + 1
  | _ => 1

def sizeAll : List Json → Nat
  | [] => 0
  | item :: items => size item + sizeAll items + 1

def sizeMembers : List (String × Json) → Nat
  | [] => 0
  | (_, value) :: members => size value + sizeMembers members + 1

end

/-- The first character of a text. -/
theorem write_head {t : Json} (ht : WellFormed t) (level : List Char) :
    ∃ c cs, style.write t level = c :: cs ∧ isSpace c = false ∧ c ≠ ']' := by
  cases t with
  | null => exact ⟨_, _, rfl, by decide, by decide⟩
  | bool b => cases b <;> exact ⟨_, _, rfl, by decide, by decide⟩
  | number literal =>
    obtain ⟨n, rfl⟩ := ht
    obtain ⟨c, cs, hc, digit⟩ := head_toString_int n
    refine ⟨c, cs, hc, not_isSpace digit, ?_⟩
    rintro rfl
    exact absurd digit (by decide)
  | string value => exact ⟨_, _, rfl, by decide, by decide⟩
  | array items => cases items <;> exact ⟨_, _, rfl, by decide, by decide⟩
  | object members => cases members <;> exact ⟨_, _, rfl, by decide, by decide⟩

/-- The first item of an array comes after its opening bracket. -/
theorem readValue_items {item : Json} (wf : WellFormed item) {n depth : Nat} {child tail : List Char}
    (hc : Blank child) :
    readValue (n + 1) (depth + 1) ('[' :: (style.line child ++ (style.write item child ++ tail))) =
      (readItems n depth (style.write item child ++ tail)).map fun p => (.array p.1, p.2) := by
  obtain ⟨c, cs, head, space, bracket⟩ := @write_head style _ wf child
  have skipped : skip (style.line child ++ (style.write item child ++ tail)) = c :: (cs ++ tail) := by
    rw [skip_append (blank_line hc), head, List.cons_append, skip_cons space]
  rw [readValue_array skipped bracket, head, List.cons_append]

/-- The first key of an object comes after its opening brace. -/
theorem readValue_members (key : String) {n depth : Nat} {child tail : List Char} (hc : Blank child) :
    readValue (n + 1) (depth + 1) ('\x7b' :: (style.line child ++ (style.string key ++ tail))) =
      (readMembers n depth (style.string key ++ tail)).map fun p => (.object (p.1.foldl put []), p.2) := by
  have skipped : skip (style.line child ++ (style.string key ++ tail)) =
      '"' :: (key.toList.flatMap style.escape ++ ['"'] ++ tail) := by
    rw [skip_append (blank_line hc), Style.string, List.cons_append, List.cons_append, skip_cons (by decide)]
  rw [readValue_object skipped (by decide), Style.string, List.cons_append, List.cons_append]

/-- What is written of a value is read as this value. -/
def Readable (style : Style) (t : Json) : Prop := ∀ n depth level rest, WellFormed t → t.depth ≤ depth → t.size ≤ n →
  Blank level → Stops rest → readValue n depth (style.write t level ++ rest) = some (t, rest)

/-- What follows the items of an array, or the members of an object, up to its closing bracket. -/
theorem skip_close {c : Char} (hl : Blank level) (hc : isSpace c = false) (cs : List Char) :
    skip (style.line level ++ c :: cs) = c :: cs := by rw [skip_append (blank_line hl), skip_cons hc]

theorem stops_line (level : List Char) {c : Char} (hc : c.isDigit = false ∧ c ≠ '.' ∧ c ≠ 'e' ∧ c ≠ 'E')
    (cs : List Char) :
    Stops (style.line level ++ c :: cs) := by
  unfold Style.line
  split
  · exact stops_cons hc cs
  · exact stops_cons (by decide) _

theorem readItems_write (hs : style.Lawful) {item : Json} {items : List Json} {n depth : Nat} {child : List Char}
    (readable : ∀ t ∈ item :: items, Readable style t) (wf : ∀ t ∈ item :: items, WellFormed t)
    (hd : depthAll (item :: items) ≤ depth) (hn : sizeAll (item :: items) ≤ n) (hc : Blank child) (hl : Blank level) :
    readItems n depth (style.write item child ++ (style.writeItems items child ++ (style.line level ++ ']' :: rest))) =
      some (item :: items, rest) := by
  induction items generalizing item n with
  | nil =>
    simp only [depthAll, sizeAll] at hd hn
    obtain ⟨n, rfl⟩ : ∃ m, n = m + 1 := ⟨n - 1, by omega⟩
    have last := readable item List.mem_cons_self n depth child (style.line level ++ ']' :: rest)
      (wf item List.mem_cons_self)
      (by omega) (by omega) hc (stops_line level (by decide) rest)
    exact readItems_last last (skip_close hl (by decide) rest)
  | cons next items ih =>
    have hd' : item.depth ≤ depth ∧ depthAll (next :: items) ≤ depth := by
      rw [depthAll] at hd
      omega
    have hn' : item.size + sizeAll (next :: items) + 1 ≤ n := by
      rw [sizeAll] at hn
      exact hn
    obtain ⟨n, rfl⟩ : ∃ m, n = m + 1 := ⟨n - 1, by omega⟩
    obtain ⟨w, hw, blank⟩ := hs.itemSeparator
    have others :=
      @ih next n (fun t ht => readable t (List.mem_cons_of_mem _ ht)) (fun t ht => wf t (List.mem_cons_of_mem _ ht))
      hd'.2 (by omega)
    have first := readable item List.mem_cons_self n depth child
      (',' :: (w ++ (style.line child ++ (style.write next child ++
      (style.writeItems items child ++ (style.line level ++ ']' :: rest)))))) (wf item List.mem_cons_self) hd'.1
        (by omega) hc
      (stops_cons (by decide) _)
    rw [Style.writeItems, hw]
    simp only [List.append_assoc, List.cons_append]
    rw [readItems_cons first (skip_cons (by decide) _), readItems_blank blank, readItems_blank (blank_line hc), others]
    rfl

/-- A member, up to what follows it. -/
theorem read_member (hs : style.Lawful) (key : String) {value : Json} {n depth : Nat} {child tail : List Char}
    (readable : Readable style value) (wf : WellFormed value) (hd : value.depth ≤ depth) (hn : value.size ≤ n)
    (hc : Blank child) (stops : Stops tail) : ∃ cs r r₁,
      style.string key ++ (style.keySeparator ++ (style.write value child ++ tail)) = '"' :: cs ∧
      readString (cs.length + 1) cs = some (key.toList, r) ∧ skip r = ':' :: r₁ ∧ readValue n depth r₁ = some
        (value, tail) := by
  obtain ⟨w, hw, blank⟩ := hs.keySeparator
  obtain ⟨cs, hcs, hk⟩ := readString_string hs key (style.keySeparator ++ (style.write value child ++ tail))
  refine ⟨cs, _, w ++ (style.write value child ++ tail), hcs, hk, ?_, ?_⟩
  · rw [hw, List.cons_append, skip_cons (by decide)]
  · rw [readValue_blank blank]
    exact readable n depth child tail wf hd hn hc stops

theorem readMembers_write (hs : style.Lawful) {key : String} {value : Json} {members : List (String × Json)}
    {n depth : Nat} {child : List Char} (readable : ∀ m ∈ (key, value) :: members, Readable style m.2)
    (wf : ∀ m ∈ (key, value) :: members, WellFormed m.2) (hd : depthMembers ((key, value) :: members) ≤ depth)
    (hn : sizeMembers ((key, value) :: members) ≤ n) (hc : Blank child) (hl : Blank level) :
    readMembers n depth (style.string key ++ (style.keySeparator ++ (style.write value child ++
      (style.writeMembers members child ++ (style.line level ++ '\x7d' :: rest))))) = some
        ((key, value) :: members, rest) := by
  have hdv : value.depth ≤ depth := by
    rw [depthMembers] at hd
    omega
  have hnv : value.size + sizeMembers members + 1 ≤ n := by
    rw [sizeMembers] at hn
    exact hn
  have name (key : String) : String.ofList key.toList = key := String.ofList_toList
  induction members generalizing key value n with
  | nil =>
    obtain ⟨n, rfl⟩ : ∃ m, n = m + 1 := ⟨n - 1, by omega⟩
    obtain ⟨cs, r, r₁, hcs, hk, hr, hv⟩ :=
      read_member hs key (readable _ List.mem_cons_self) (wf _ List.mem_cons_self) hdv
      (show value.size ≤ n by omega) hc (stops_line level (c := '\x7d') (by decide) rest)
    rw [Style.writeMembers, List.nil_append, hcs, readMembers_last hk hr hv (skip_close hl (by decide) rest), name]
  | cons next members ih =>
    obtain ⟨key', value'⟩ := next
    obtain ⟨n, rfl⟩ : ∃ m, n = m + 1 := ⟨n - 1, by omega⟩
    obtain ⟨w, hw, blank⟩ := hs.itemSeparator
    have hd' : depthMembers ((key', value') :: members) ≤ depth := by
      rw [depthMembers] at hd
      omega
    have hdv' : value'.depth ≤ depth := by
      rw [depthMembers] at hd'
      omega
    have hn' : value'.size + sizeMembers members + 1 ≤ n := by
      rw [sizeMembers] at hnv
      omega
    have others :=
      @ih key' value' n (fun m hm => readable m (List.mem_cons_of_mem _ hm))
        (fun m hm => wf m (List.mem_cons_of_mem _ hm))
      hd' hn' hdv' hn'
    obtain ⟨cs, r, r₁, hcs, hk, hr, hv⟩ :=
      read_member hs key (readable _ List.mem_cons_self) (wf _ List.mem_cons_self) hdv
      (show value.size ≤ n by omega) hc
        (stops_cons (c := ',') (by decide) (w ++ (style.line child ++ (style.string key' ++ (style.keySeparator ++
        (style.write value' child ++ (style.writeMembers members child ++ (style.line level ++ '\x7d' :: rest))))))))
    rw [Style.writeMembers, hw]
    simp only [List.append_assoc, List.cons_append]
    rw [hcs, readMembers_cons hk hr hv (skip_cons (by decide) _), readMembers_blank blank,
      readMembers_blank (blank_line hc), others, name]
    rfl

/-- Members of distinct keys are all kept. -/
theorem foldl_put {members : List (String × Json)} (h : (members.map Prod.fst).Nodup) :
    members.foldl put [] = members := by
  have aux : ∀ (done members : List (String × Json)), ((done ++ members).map Prod.fst).Nodup →
      members.foldl put done = done ++ members := by
    intro done members
    induction members generalizing done with
    | nil => simp
    | cons m members ih =>
      intro h
      have fresh : done.filter (·.1 ≠ m.1) = done := by
        rw [List.filter_eq_self]
        intro d hd
        rw [List.map_append, List.nodup_append] at h
        simpa using h.2.2 _ (List.mem_map_of_mem hd) _ List.mem_cons_self
      rw [List.foldl_cons, put, fresh, ih _ (by simpa using h), List.append_assoc, List.singleton_append]
  exact aux [] members h

theorem readable (hs : style.Lawful) (t : Json) : Readable style t := by
  induction t using induct with
  | null =>
    intro n depth level rest _ _ hn _ _
    obtain ⟨n, rfl⟩ : ∃ m, n = m + 1 := ⟨n - 1, by simp only [size] at hn; omega⟩
    rfl
  | bool b =>
    intro n depth level rest _ _ hn _ _
    obtain ⟨n, rfl⟩ : ∃ m, n = m + 1 := ⟨n - 1, by simp only [size] at hn; omega⟩
    cases b <;> rfl
  | number literal =>
    intro n depth level rest hv _ hn _ hr
    obtain ⟨n, rfl⟩ : ∃ m, n = m + 1 := ⟨n - 1, by simp only [size] at hn; omega⟩
    obtain ⟨k, rfl⟩ := hv
    obtain ⟨c, cs, hc, digit⟩ := head_toString_int k
    have number := readNumber_int k hr
    rw [Style.write]
    rw [hc, List.cons_append] at number ⊢
    rw [readValue_number digit]
    exact number
  | string value =>
    intro n depth level rest _ _ hn _ _
    obtain ⟨n, rfl⟩ : ∃ m, n = m + 1 := ⟨n - 1, by simp only [size] at hn; omega⟩
    obtain ⟨cs, hcs, hk⟩ := readString_string hs value rest
    rw [Style.write, hcs, readValue, skip_cons (by decide)]
    simp only [hk]
    rw [Option.map_some, String.ofList_toList]
  | array items ih =>
    intro n depth level rest wf hd hn hl _
    obtain ⟨n, rfl⟩ : ∃ m, n = m + 1 := ⟨n - 1, by simp only [size] at hn; omega⟩
    obtain ⟨depth, rfl⟩ : ∃ m, depth = m + 1 := ⟨depth - 1, by simp only [Json.depth] at hd; omega⟩
    cases items with
    | nil => rfl
    | cons item items =>
      have hc : Blank (level ++ style.indent) := hl.append hs.indent
      have wf' := wellFormedAll_iff.mp wf
      simp only [Style.write, List.append_assoc, List.cons_append, List.nil_append]
      rw [readValue_items (wf' item List.mem_cons_self) hc,
        readItems_write hs ih wf' (by simpa only [Json.depth, Nat.add_le_add_iff_right] using hd)
          (by simpa only [size, Nat.add_le_add_iff_right] using hn) hc hl]
      rfl
  | object members ih =>
    intro n depth level rest wf hd hn hl _
    obtain ⟨n, rfl⟩ : ∃ m, n = m + 1 := ⟨n - 1, by simp only [size] at hn; omega⟩
    obtain ⟨depth, rfl⟩ : ∃ m, depth = m + 1 := ⟨depth - 1, by simp only [Json.depth] at hd; omega⟩
    cases members with
    | nil => rfl
    | cons member members =>
      obtain ⟨key, value⟩ := member
      have hc : Blank (level ++ style.indent) := hl.append hs.indent
      simp only [Style.write, List.append_assoc, List.cons_append, List.nil_append]
      rw [readValue_members key hc,
        readMembers_write hs ih (wellFormedMembers_iff.mp wf.2)
          (by simpa only [Json.depth, Nat.add_le_add_iff_right] using hd)
          (by simpa only [size, Nat.add_le_add_iff_right] using hn) hc hl, Option.map_some, foldl_put wf.1]

/-! ## Values that are nested too deep -/

/-- What is written of a value is not read where it is nested too deep. -/
def Refused (style : Style) (t : Json) : Prop := ∀ n depth level rest, WellFormed t → depth < t.depth → t.size ≤ n →
  Blank level → readValue n depth (style.write t level ++ rest) = none

theorem readItems_refused (hs : style.Lawful) {item : Json} {items : List Json} {n depth : Nat} {child tail : List Char}
    (refused : ∀ t ∈ item :: items, Refused style t) (wf : ∀ t ∈ item :: items, WellFormed t)
    (hd : depth < depthAll (item :: items)) (hn : sizeAll (item :: items) ≤ n) (hc : Blank child) :
    readItems n depth (style.write item child ++ (style.writeItems items child ++ tail)) = none := by
  have hn' : item.size + sizeAll items + 1 ≤ n := by
    rw [sizeAll] at hn
    exact hn
  induction items generalizing item n with
  | nil =>
    obtain ⟨n, rfl⟩ : ∃ m, n = m + 1 := ⟨n - 1, by omega⟩
    have deep : depth < item.depth := by
      rw [depthAll, depthAll] at hd
      omega
    exact readItems_none
      (refused item List.mem_cons_self n depth child _ (wf item List.mem_cons_self) deep (by omega) hc)
  | cons next items ih =>
    obtain ⟨n, rfl⟩ : ∃ m, n = m + 1 := ⟨n - 1, by omega⟩
    by_cases deep : depth < item.depth
    · exact readItems_none
        (refused item List.mem_cons_self n depth child _ (wf item List.mem_cons_self) deep (by omega) hc)
    · obtain ⟨w, hw, blank⟩ := hs.itemSeparator
      have hd' : depth < depthAll (next :: items) := by
        rw [depthAll] at hd
        omega
      have hn'' : next.size + sizeAll items + 1 ≤ n := by
        rw [sizeAll] at hn'
        omega
      have others :=
        @ih next n (fun t ht => refused t (List.mem_cons_of_mem _ ht)) (fun t ht => wf t (List.mem_cons_of_mem _ ht))
        hd' hn'' hn''
      have first := readable hs item n depth child (',' :: (w ++ (style.line child ++ (style.write next child ++
        (style.writeItems items child ++ tail))))) (wf item List.mem_cons_self) (by omega) (by omega) hc
          (stops_cons (by decide) _)
      rw [Style.writeItems, hw]
      simp only [List.append_assoc, List.cons_append]
      rw [readItems_cons first (skip_cons (by decide) _), readItems_blank blank,
        readItems_blank (blank_line hc), others]
      rfl

theorem readMembers_refused (hs : style.Lawful) {key : String} {value : Json} {members : List (String × Json)}
    {n depth : Nat} {child tail : List Char} (refused : ∀ m ∈ (key, value) :: members, Refused style m.2)
    (wf : ∀ m ∈ (key, value) :: members, WellFormed m.2) (hd : depth < depthMembers ((key, value) :: members))
    (hn : sizeMembers ((key, value) :: members) ≤ n) (hc : Blank child) :
    readMembers n depth (style.string key ++ (style.keySeparator ++ (style.write value child ++
      (style.writeMembers members child ++ tail)))) = none := by
  have hn' : value.size + sizeMembers members + 1 ≤ n := by
    rw [sizeMembers] at hn
    exact hn
  have none_of_deep {key : String} {value : Json} {n : Nat} {tail : List Char} (refused : Refused style value)
      (wf : WellFormed value)
      (deep : depth < value.depth) (hn : value.size ≤ n) :
        readMembers (n + 1) depth (style.string key ++ (style.keySeparator ++
        (style.write value child ++ tail))) = none := by
    obtain ⟨w, hw, blank⟩ := hs.keySeparator
    obtain ⟨cs, hcs, hk⟩ := readString_string hs key (style.keySeparator ++ (style.write value child ++ tail))
    rw [hcs]
    have colon : skip (style.keySeparator ++ (style.write value child ++ tail)) =
        ':' :: (w ++ (style.write value child ++ tail)) := by
      rw [hw, List.cons_append, skip_cons (by decide)]
    refine readMembers_none hk colon ?_
    rw [readValue_blank blank]
    exact refused n depth child tail wf deep hn hc
  induction members generalizing key value n with
  | nil =>
    obtain ⟨n, rfl⟩ : ∃ m, n = m + 1 := ⟨n - 1, by omega⟩
    have deep : depth < value.depth := by
      rw [depthMembers, depthMembers] at hd
      omega
    exact none_of_deep (refused _ List.mem_cons_self) (wf _ List.mem_cons_self) deep (by omega)
  | cons next members ih =>
    obtain ⟨key', value'⟩ := next
    obtain ⟨n, rfl⟩ : ∃ m, n = m + 1 := ⟨n - 1, by omega⟩
    by_cases deep : depth < value.depth
    · exact none_of_deep (refused _ List.mem_cons_self) (wf _ List.mem_cons_self) deep (by omega)
    · obtain ⟨w, hw, blank⟩ := hs.itemSeparator
      have hd' : depth < depthMembers ((key', value') :: members) := by
        rw [depthMembers] at hd
        omega
      have hn'' : value'.size + sizeMembers members + 1 ≤ n := by
        rw [sizeMembers] at hn'
        omega
      have others :=
        @ih key' value' n (fun m hm => refused m (List.mem_cons_of_mem _ hm))
          (fun m hm => wf m (List.mem_cons_of_mem _ hm))
        hd' hn'' hn''
      obtain ⟨cs, r, r₁, hcs, hk, hr, hv⟩ :=
        read_member hs key (readable hs value) (wf _ List.mem_cons_self) (Nat.le_of_not_lt deep)
        (show value.size ≤ n by omega) hc
          (stops_cons (c := ',') (by decide) (w ++ (style.line child ++ (style.string key' ++
          (style.keySeparator ++ (style.write value' child ++ (style.writeMembers members child ++ tail)))))))
      rw [Style.writeMembers, hw]
      simp only [List.append_assoc, List.cons_append]
      rw [hcs, readMembers_cons hk hr hv (skip_cons (by decide) _), readMembers_blank blank,
        readMembers_blank (blank_line hc), others]
      rfl

theorem refused (hs : style.Lawful) (t : Json) : Refused style t := by
  induction t using induct with
  | null => exact fun _ _ _ _ _ hd => absurd hd (Nat.not_lt_zero _)
  | bool b => exact fun _ _ _ _ _ hd => absurd hd (Nat.not_lt_zero _)
  | number literal => exact fun _ _ _ _ _ hd => absurd hd (Nat.not_lt_zero _)
  | string value => exact fun _ _ _ _ _ hd => absurd hd (Nat.not_lt_zero _)
  | array items ih =>
    intro n depth level rest wf hd hn hl
    obtain ⟨n, rfl⟩ : ∃ m, n = m + 1 := ⟨n - 1, by simp only [size] at hn; omega⟩
    cases items with
    | nil =>
      cases depth with
      | zero => rfl
      | succ depth => simp only [Json.depth, depthAll] at hd; omega
    | cons item items =>
      cases depth with
      | zero =>
        simp only [Style.write, List.append_assoc, List.cons_append]
        rfl
      | succ depth =>
        have hc : Blank (level ++ style.indent) := hl.append hs.indent
        have wf' := wellFormedAll_iff.mp wf
        simp only [Style.write, List.append_assoc, List.cons_append, List.nil_append]
        rw [readValue_items (wf' item List.mem_cons_self) hc,
          readItems_refused hs ih wf' (by simpa only [Json.depth, Nat.add_lt_add_iff_right] using hd)
            (by simpa only [size, Nat.add_le_add_iff_right] using hn) hc]
        rfl
  | object members ih =>
    intro n depth level rest wf hd hn hl
    obtain ⟨n, rfl⟩ : ∃ m, n = m + 1 := ⟨n - 1, by simp only [size] at hn; omega⟩
    cases members with
    | nil =>
      cases depth with
      | zero => rfl
      | succ depth => simp only [Json.depth, depthMembers] at hd; omega
    | cons member members =>
      obtain ⟨key, value⟩ := member
      cases depth with
      | zero =>
        simp only [Style.write, List.append_assoc, List.cons_append]
        rfl
      | succ depth =>
        have hc : Blank (level ++ style.indent) := hl.append hs.indent
        simp only [Style.write, List.append_assoc, List.cons_append, List.nil_append]
        rw [readValue_members key hc,
          readMembers_refused hs ih (wellFormedMembers_iff.mp wf.2)
            (by simpa only [Json.depth, Nat.add_lt_add_iff_right] using hd)
            (by simpa only [size, Nat.add_le_add_iff_right] using hn) hc]
        rfl

/-! ## Whole texts -/

theorem one_le_length_write {t : Json} (ht : WellFormed t) (level : List Char) : 1 ≤ (style.write t level).length := by
  obtain ⟨c, cs, h, -⟩ := @write_head style t ht level
  rw [h, List.length_cons]
  exact Nat.le_add_left 1 _

/-- A value is not larger than its text. -/
theorem size_le_length (hs : style.Lawful) (t : Json) (ht : WellFormed t) (level : List Char) :
    t.size ≤ (style.write t level).length := by
  induction t using induct generalizing level with
  | null => exact one_le_length_write ht level
  | bool b => exact one_le_length_write ht level
  | number literal => exact one_le_length_write ht level
  | string value => exact one_le_length_write ht level
  | array items ih =>
    have others (child : List Char) : ∀ items : List Json, (∀ t ∈ items, t.size ≤ (style.write t child).length) →
        sizeAll items ≤ (style.writeItems items child).length := by
      intro items
      induction items with
      | nil => exact fun _ => Nat.zero_le _
      | cons item items ih =>
        intro h
        obtain ⟨w, hw, -⟩ := hs.itemSeparator
        have first := h item List.mem_cons_self
        have rest := ih fun t ht => h t (List.mem_cons_of_mem _ ht)
        simp only [Style.writeItems, sizeAll, List.length_append, hw, List.length_cons]
        omega
    have wf := wellFormedAll_iff.mp ht
    cases items with
    | nil => show 1 ≤ 2; omega
    | cons item items =>
      have first := ih item List.mem_cons_self (wf item List.mem_cons_self) (level ++ style.indent)
      have rest :=
        others (level ++ style.indent)
          items fun t ht => ih t (List.mem_cons_of_mem _ ht) (wf t (List.mem_cons_of_mem _ ht)) _
      simp only [Style.write, size, sizeAll, List.length_append, List.length_cons, List.length_nil]
      omega
  | object members ih =>
    have others (child : List Char) :
        ∀ members : List (String × Json), (∀ m ∈ members, m.2.size ≤ (style.write m.2 child).length) →
        sizeMembers members ≤ (style.writeMembers members child).length := by
      intro members
      induction members with
      | nil => exact fun _ => Nat.zero_le _
      | cons m members ih =>
        intro h
        obtain ⟨w, hw, -⟩ := hs.itemSeparator
        have first := h m List.mem_cons_self
        have rest := ih fun t ht => h t (List.mem_cons_of_mem _ ht)
        simp only [Style.writeMembers, sizeMembers, List.length_append, hw, List.length_cons]
        omega
    have wf := wellFormedMembers_iff.mp ht.2
    cases members with
    | nil => show 1 ≤ 2; omega
    | cons m members =>
      have first := ih m List.mem_cons_self (wf m List.mem_cons_self) (level ++ style.indent)
      have rest :=
        others (level ++ style.indent)
          members fun m hm => ih m (List.mem_cons_of_mem _ hm) (wf m (List.mem_cons_of_mem _ hm)) _
      simp only [Style.write, size, sizeMembers, List.length_append, List.length_cons, List.length_nil]
      omega

theorem size_le_fuel (hs : style.Lawful) {t : Json} (ht : WellFormed t) :
    t.size ≤ (style.write t [] ++ rest).length + 1 := by
  have := size_le_length hs t ht []
  rw [List.length_append]
  omega

/-- A text is read as the value that it was written for. -/
theorem read_write (hs : style.Lawful) {t : Json} (ht : WellFormed t) {depth : Nat} (hd : t.depth ≤ depth)
    (hr : Stops rest) :
    read depth (style.write t [] ++ rest) = some (t, rest) :=
  readable hs t _ depth [] rest ht hd (size_le_fuel hs ht) blank_nil hr

/-- The text of a value that is nested too deep is not read. -/
theorem read_write_deep (hs : style.Lawful) {t : Json} (ht : WellFormed t) {depth : Nat} (hd : depth < t.depth)
    (rest : List Char) :
    read depth (style.write t [] ++ rest) = none :=
  refused hs t _ depth [] rest ht hd (size_le_fuel hs ht) blank_nil

/-! ## Sorted values -/

section

variable {le : String → String → Bool}

theorem sortedAll_eq_map (items : List Json) : sortedAll le items = items.map (sorted le) := by
  induction items with
  | nil => rfl
  | cons item items ih => rw [sortedAll, ih, List.map_cons]

theorem sortedMembers_eq_map (members : List (String × Json)) :
    sortedMembers le members = members.map fun m => (m.1, sorted le m.2) := by
  induction members with
  | nil => rfl
  | cons m members ih => rw [sortedMembers, ih, List.map_cons]

/-- The members of a sorted object are the sorted members of the object. -/
theorem mem_sorted {members : List (String × Json)} {m : String × Json} :
    m ∈ (sortedMembers le members).mergeSort (keyLE le) ↔ ∃ m' ∈ members, (m'.1, sorted le m'.2) = m := by
  rw [(List.mergeSort_perm _ _).mem_iff, sortedMembers_eq_map, List.mem_map]

theorem keys_sorted_perm (members : List (String × Json)) :
    List.Perm (((sortedMembers le members).mergeSort (keyLE le)).map Prod.fst) (members.map Prod.fst) := by
  have keys : (sortedMembers le members).map Prod.fst = members.map Prod.fst := by
    rw [sortedMembers_eq_map, List.map_map]
    rfl
  rw [← keys]
  exact (List.mergeSort_perm _ _).map _

theorem wellFormed_sorted (le : String → String → Bool) (t : Json) (h : WellFormed t) : WellFormed (sorted le t) := by
  induction t using induct with
  | null => exact h
  | bool b => exact h
  | number literal => exact h
  | string value => exact h
  | array items ih =>
    have wf := wellFormedAll_iff.mp h
    refine wellFormedAll_iff.mpr ?_
    rw [sortedAll_eq_map, List.forall_mem_map]
    exact fun t ht => ih t ht (wf t ht)
  | object members ih =>
    have wf := wellFormedMembers_iff.mp h.2
    refine ⟨(keys_sorted_perm members).nodup_iff.mpr h.1, wellFormedMembers_iff.mpr fun m hm => ?_⟩
    obtain ⟨m', hm', rfl⟩ := mem_sorted.mp hm
    exact ih m' hm' (wf m' hm')

theorem depthAll_le_iff {items : List Json} {n : Nat} : depthAll items ≤ n ↔ ∀ t ∈ items, t.depth ≤ n := by
  induction items with
  | nil => simp [depthAll]
  | cons item items ih => rw [depthAll, Nat.max_le, ih, List.forall_mem_cons]

theorem depthMembers_le_iff {members : List (String × Json)} {n : Nat} :
    depthMembers members ≤ n ↔ ∀ m ∈ members, m.2.depth ≤ n := by
  induction members with
  | nil => simp [depthMembers]
  | cons m members ih => rw [depthMembers, Nat.max_le, ih, List.forall_mem_cons]

theorem depth_sorted_le_iff (le : String → String → Bool) (t : Json) (n : Nat) :
    (sorted le t).depth ≤ n ↔ t.depth ≤ n := by
  induction t using induct generalizing n with
  | null => exact Iff.rfl
  | bool b => exact Iff.rfl
  | number literal => exact Iff.rfl
  | string value => exact Iff.rfl
  | array items ih =>
    cases n with
    | zero => simp [sorted, Json.depth]
    | succ n =>
      rw [sorted, Json.depth, Json.depth, Nat.add_le_add_iff_right, Nat.add_le_add_iff_right, depthAll_le_iff,
        depthAll_le_iff, sortedAll_eq_map, List.forall_mem_map]
      exact forall₂_congr fun t ht => ih t ht n
  | object members ih =>
    cases n with
    | zero => simp [sorted, Json.depth]
    | succ n =>
      rw [sorted, Json.depth, Json.depth, Nat.add_le_add_iff_right, Nat.add_le_add_iff_right, depthMembers_le_iff,
        depthMembers_le_iff]
      constructor
      · exact fun h m hm => (ih m hm n).mp (h _ (mem_sorted.mpr ⟨m, hm, rfl⟩))
      · intro h m hm
        obtain ⟨m', hm', rfl⟩ := mem_sorted.mp hm
        exact (ih m' hm' n).mpr (h m' hm')

/-- Sorting a sorted value does not change it. -/
theorem sorted_sorted (htrans : ∀ a b c, le a b → le b c → le a c) (htotal : ∀ a b, le a b || le b a) (t : Json) :
    sorted le (sorted le t) = sorted le t := by
  induction t using induct with
  | null => rfl
  | bool b => rfl
  | number literal => rfl
  | string value => rfl
  | array items ih =>
    rw [sorted, sorted, sortedAll_eq_map, sortedAll_eq_map, List.map_map]
    exact congrArg array (List.map_congr_left ih)
  | object members ih =>
    rw [sorted, sorted]
    have fixed : sortedMembers le ((sortedMembers le members).mergeSort (keyLE le)) =
        (sortedMembers le members).mergeSort (keyLE le) := by
      rw [sortedMembers_eq_map]
      refine (List.map_congr_left fun m hm => ?_).trans (List.map_id _)
      obtain ⟨m', hm', rfl⟩ := mem_sorted.mp hm
      rw [ih m' hm', id]
    have pairwise : ((sortedMembers le members).mergeSort (keyLE le)).Pairwise fun a b => keyLE le a b :=
      List.pairwise_mergeSort (fun a b c => htrans a.1 b.1 c.1) (fun a b => htotal a.1 b.1) _
    rw [fixed, List.mergeSort_of_pairwise pairwise]

end

end Xir.Json
