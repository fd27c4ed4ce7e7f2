import Xir.Framework.JsonText
import Xir.Impl.GoRuntime.PyJson
import Xir.Impl.XirLab.JsonEncoder

/-!
# Canonical JSON

`CanonicalJSON` of the Go runtime writes what `json.dumps` of Python does, and
`DecodeJSON` reads it again, of every value that `encoding/json` reads at all:
one that is nested at most `maxNestingDepth` deep.

Both writers are `pythonStyle`, of the value with its members in the order of
their keys: a writer that sorts what it has written sorts the members first
(`write_object`).
-/

namespace Xir.Impl

open Json PyJson XirLab.JsonEncoder

/-! ## The order of the keys -/

/-- Keys in the order of their bytes are in the order of their code points. -/
theorem bytesLE_eq_strLE : bytesLE = strLE := funext₂ fun a b => lexLE_utf8 a.toList b.toList

theorem strLE_trans (a b c : String) : strLE a b → strLE b c → strLE a c := lexLE_trans

theorem strLE_total (a b : String) : strLE a b || strLE b a := lexLE_total _ _

/-! ## Escaped characters -/

theorem uFormat_eq_hex4 (n : Nat) : uFormat n = '\\' :: 'u' :: hex4 n := by
  simp only [uFormat, hex4, Nat.shiftRight_eq_div_pow, Nat.and_two_pow_sub_one_eq_mod _ 4]

theorem or_eq_add {a n : Nat} (i : Nat) (h : n < 2 ^ i) : 2 ^ i * a ||| n = 2 ^ i * a + n :=
  (Nat.two_pow_add_eq_or_of_lt h a).symm

/-- The two escapes of a pair. -/
theorem pair_eq (n : Nat) :
    uFormat (0xd800 ||| (n >>> 10 &&& 0x3ff)) ++ uFormat (0xdc00 ||| (n &&& 0x3ff)) =
      '\\' :: 'u' :: hex4 (0xd800 + n / 1024 % 1024) ++ '\\' :: 'u' :: hex4 (0xdc00 + n % 1024) := by
  have low (m : Nat) : m &&& 0x3ff = m % 1024 := Nat.and_two_pow_sub_one_eq_mod m 10
  have high : n >>> 10 = n / 1024 := Nat.shiftRight_eq_div_pow n 10
  have first : 0xd800 ||| n / 1024 % 1024 = 0xd800 + n / 1024 % 1024 :=
    or_eq_add (a := 54) 10 (Nat.mod_lt _ (by decide))
  have second : 0xdc00 ||| n % 1024 = 0xdc00 + n % 1024 := or_eq_add (a := 55) 10 (Nat.mod_lt _ (by decide))
  rw [low, low, high, first, second, uFormat_eq_hex4, uFormat_eq_hex4]

/-- Both runtimes escape a character alike. -/
theorem replace_eq_escaped (c : Char) : (if escapeAscii c then replace c else [c]) = escaped c := by
  by_cases hb : c = '\\'
  · subst hb
    rfl
  by_cases hq : c = '"'
  · subst hq
    rfl
  have plain : escapeAscii c = !decide (0x20 ≤ c.toNat ∧ c.toNat ≤ 0x7e) := by
    have low : (' ' ≤ c) ↔ 0x20 ≤ c.toNat := Iff.rfl
    have high : (c ≤ '~') ↔ c.toNat ≤ 0x7e := Iff.rfl
    simp [escapeAscii, hb, hq, low, high]
  by_cases hp : 0x20 ≤ c.toNat ∧ c.toNat ≤ 0x7e
  · have ne {d : Char} (hd : d.toNat < 0x20) : c ≠ d := fun h => by
      rw [h] at hp
      omega
    have ne_toNat {n : Nat} (hn : n < 0x20) : c.toNat ≠ n := by omega
    rw [plain, decide_eq_true hp, if_neg (by decide)]
    simp only [escaped, hb, hq, hp, if_false, ne_toNat (n := 8) (by decide), ne_toNat (n := 12) (by decide),
      ne (d := '\n') (by decide), ne (d := '\r') (by decide), ne (d := '\t') (by decide), and_self, if_true]
  · rw [plain, decide_eq_false hp, Bool.not_false, if_pos rfl]
    have replacement (h : c.toNat = 0xfffd) : uFormat c.toNat = ['\\', 'u', 'f', 'f', 'f', 'd'] := by
      rw [h]
      rfl
    by_cases hpair : c.toNat < 0x10000
    · have hle : c.toNat ≤ 0xffff := by omega
      simp only [replace, escapeDct, escaped, hb, hq, hp, hpair, hle, if_false, if_true]
      split_ifs <;> first | rfl | exact uFormat_eq_hex4 _ | exact replacement ‹_›
    · have ne {d : Char} (hd : d.toNat < 0x20) : c ≠ d := fun h => by
        rw [h] at hpair
        omega
      have ne_toNat {n : Nat} (hn : n < 0x10000) : c.toNat ≠ n := by omega
      have hle : ¬ c.toNat ≤ 0xffff := by omega
      have hcontrol : ¬ c.toNat < 0x20 := by omega
      simp only [replace, escapeDct, escaped, hb, hq, hp, hpair, hle, hcontrol, if_false, ne_toNat (n := 8) (by decide),
        ne_toNat (n := 12) (by decide), ne_toNat (n := 0xfffd) (by decide), ne (d := '\n') (by decide),
        ne (d := '\r') (by decide), ne (d := '\t') (by decide), pair_eq]

/-! ## Characters that are read again -/

section

variable {c : Char} {rest : List Char}

theorem unit_hex4 {n : Nat} (h : n < 0x10000) : Json.unit (hex4 n ++ rest) = some (n, rest) := by
  simp only [hex4, List.cons_append, List.nil_append, Json.unit,
    Hex.value_digitChar (Nat.mod_lt _ (show 16 > 0 by decide))]
  congr 2
  omega

/-- A character is no half of a pair. -/
theorem toNat_valid (c : Char) : c.toNat < 0xd800 ∨ 0xe000 ≤ c.toNat ∧ c.toNat < 0x110000 := by
  have : UInt32.toNat c.val < 0xd800 ∨ 0xdfff < UInt32.toNat c.val ∧ UInt32.toNat c.val < 0x110000 := c.valid
  show UInt32.toNat c.val < _ ∨ _ ≤ UInt32.toNat c.val ∧ UInt32.toNat c.val < _
  omega

/-- An escape of one unit. -/
theorem readChar_hex4 (h : c.toNat < 0x10000) : readChar ('\\' :: 'u' :: hex4 c.toNat ++ rest) = some (c, rest) := by
  have valid := toNat_valid c
  have single : ofUnit c.toNat = c := by
    rw [ofUnit, if_neg (by omega), Char.ofNat_toNat]
  show escapedUnit (hex4 c.toNat ++ rest) = _
  simp only [escapedUnit, unit_hex4 h, single]
  split
  · split
    · rw [if_neg (by omega)]
    · rfl
  · rfl

/-- An escape of two units. -/
theorem escapedUnit_pair {a b : Nat} (ha : a < 0x400) (hb : b < 0x400) (rest : List Char) :
    escapedUnit (hex4 (0xd800 + a) ++ '\\' :: 'u' :: (hex4 (0xdc00 + b) ++ rest)) =
      some (Char.ofNat (0x10000 + 1024 * a + b), rest) := by
  have high : 0xd800 + a < 0x10000 := by omega
  have low : 0xdc00 + b < 0x10000 := by omega
  have sum : 0x10000 + 1024 * (0xd800 + a - 0xd800) + (0xdc00 + b - 0xdc00) = 0x10000 + 1024 * a + b := by omega
  have halves : 0xd800 ≤ 0xd800 + a ∧ 0xd800 + a < 0xdc00 ∧ 0xdc00 ≤ 0xdc00 + b ∧ 0xdc00 + b < 0xe000 := by omega
  simp only [escapedUnit, unit_hex4 high, unit_hex4 low, if_pos halves, sum]

theorem readChar_pair (h : 0x10000 ≤ c.toNat) :
    readChar ('\\' :: 'u' :: hex4 (0xd800 + (c.toNat - 0x10000) / 1024 % 1024) ++
      '\\' :: 'u' :: hex4 (0xdc00 + (c.toNat - 0x10000) % 1024) ++ rest) = some (c, rest) := by
  have valid := toNat_valid c
  have ha : (c.toNat - 0x10000) / 1024 % 1024 < 0x400 := Nat.mod_lt _ (by decide)
  have hb : (c.toNat - 0x10000) % 1024 < 0x400 := Nat.mod_lt _ (by decide)
  have sum : 0x10000 + 1024 * ((c.toNat - 0x10000) / 1024 % 1024) + (c.toNat - 0x10000) % 1024 = c.toNat := by omega
  have pair := escapedUnit_pair ha hb rest
  rw [sum, Char.ofNat_toNat] at pair
  rw [List.append_assoc, List.cons_append, List.cons_append, List.cons_append, List.cons_append, readChar]
  exact pair

/-- A character that is written as it is. -/
theorem readChar_self (hb : c ≠ '\\') (h : 0x20 ≤ c.toNat) : readChar (c :: rest) = some (c, rest) := by
  rw [readChar.eq_def]
  split <;> simp_all

/-- What a character may be written as. -/
inductive Escape (c : Char) : List Char → Prop
  | self (hb : c ≠ '\\') (hq : c ≠ '"') (h : 0x20 ≤ c.toNat) : Escape c [c]
  | short (e : Char) (h : ∀ rest, readChar ('\\' :: e :: rest) = some (c, rest)) : Escape c ['\\', e]
  | unit (h : c.toNat < 0x10000) : Escape c ('\\' :: 'u' :: hex4 c.toNat)
  | pair (h : 0x10000 ≤ c.toNat) :
    Escape c ('\\' :: 'u' :: hex4 (0xd800 + (c.toNat - 0x10000) / 1024 % 1024) ++
      '\\' :: 'u' :: hex4 (0xdc00 + (c.toNat - 0x10000) % 1024))

namespace Escape

variable {escape : List Char}

theorem read (h : Escape c escape) (rest : List Char) : readChar (escape ++ rest) = some (c, rest) := by
  cases h with
  | self hb _ h => exact readChar_self hb h
  | short e h => exact h rest
  | unit h => exact readChar_hex4 h
  | pair h => exact readChar_pair h

/-- A quote is written with a backslash. -/
theorem head (h : Escape c escape) : ∃ e es, escape = e :: es ∧ e ≠ '"' := by
  cases h with
  | self _ hq _ => exact ⟨_, _, rfl, hq⟩
  | short | unit | pair => exact ⟨_, _, rfl, by decide⟩

theorem of_toNat {d e : Char} (h : c.toNat = d.toNat) (hd : ∀ rest, readChar ('\\' :: e :: rest) = some (d, rest)) :
    Escape c ['\\', e] := .short e (Char.toNat_inj.mp h ▸ hd)

/-- The replacement character. -/
theorem replacement (h : c.toNat = 0xfffd) : Escape c ['\\', 'u', 'f', 'f', 'f', 'd'] := by
  have hex : hex4 c.toNat = ['f', 'f', 'f', 'd'] := by
    rw [h]
    rfl
  have unit : Escape c ('\\' :: 'u' :: hex4 c.toNat) := .unit (by omega)
  rwa [hex] at unit

end Escape

theorem escape_escaped (c : Char) : Escape c (escaped c) := by
  refine iteInduction (motive := Escape c) (fun h => .of_toNat (d := '"') (congrArg _ h) fun _ => rfl) fun hq => ?_
  refine iteInduction (motive := Escape c) (fun h => .of_toNat (d := '\\') (congrArg _ h) fun _ => rfl) fun hb => ?_
  refine iteInduction (motive := Escape c) (fun h => .of_toNat (d := '\x08') h fun _ => rfl) fun _ => ?_
  refine iteInduction (motive := Escape c) (fun h => .of_toNat (d := '\x0c') h fun _ => rfl) fun _ => ?_
  refine iteInduction (motive := Escape c) (fun h => .of_toNat (d := '\n') (congrArg _ h) fun _ => rfl) fun _ => ?_
  refine iteInduction (motive := Escape c) (fun h => .of_toNat (d := '\r') (congrArg _ h) fun _ => rfl) fun _ => ?_
  refine iteInduction (motive := Escape c) (fun h => .of_toNat (d := '\t') (congrArg _ h) fun _ => rfl) fun _ => ?_
  refine iteInduction (motive := Escape c) (fun h => .self hb hq h.1) fun _ => ?_
  refine iteInduction (motive := Escape c) .replacement fun _ => ?_
  exact iteInduction (motive := Escape c) (fun h => .unit (by omega)) fun h => .pair (by omega)

theorem escape_marshalChar (c : Char) : Escape c (marshalChar c) := by
  refine iteInduction (motive := Escape c) (fun h => .of_toNat (d := '"') (congrArg _ h) fun _ => rfl) fun hq => ?_
  refine iteInduction (motive := Escape c) (fun h => .of_toNat (d := '\\') (congrArg _ h) fun _ => rfl) fun hb => ?_
  refine iteInduction (motive := Escape c) (fun h => .of_toNat (d := '\x08') h fun _ => rfl) fun _ => ?_
  refine iteInduction (motive := Escape c) (fun h => .of_toNat (d := '\x0c') h fun _ => rfl) fun _ => ?_
  refine iteInduction (motive := Escape c) (fun h => .of_toNat (d := '\n') (congrArg _ h) fun _ => rfl) fun _ => ?_
  refine iteInduction (motive := Escape c) (fun h => .of_toNat (d := '\r') (congrArg _ h) fun _ => rfl) fun _ => ?_
  refine iteInduction (motive := Escape c) (fun h => .of_toNat (d := '\t') (congrArg _ h) fun _ => rfl) fun _ => ?_
  refine iteInduction (motive := Escape c) (fun h => .unit ?_) fun h => .self hb hq (by omega)
  rcases h with h | rfl | rfl | rfl | h | h <;> first | omega | decide

end

/-! ## Styles -/

/-- What both runtimes write, of a value with sorted members. -/
def pythonStyle (indent : List Char) : Json.Style where
  escape := escaped
  indent := indent
  itemSeparator := if indent = [] then [',', ' '] else [',']
  keySeparator := [':', ' ']

theorem pythonStyle_lawful (n : Nat) : (pythonStyle (List.replicate n ' ')).Lawful where
  escape c := (escape_escaped c).read
  escape_head c := (escape_escaped c).head
  indent c hc := by
    rw [(List.mem_replicate.mp hc).2]
    rfl
  itemSeparator := by
    unfold pythonStyle
    dsimp only
    split
    · exact ⟨[' '], rfl, blank_space⟩
    · exact ⟨[], rfl, blank_nil⟩
  keySeparator := ⟨[' '], rfl, blank_space⟩

theorem marshalStyle_lawful : marshalStyle.Lawful where
  escape c := (escape_marshalChar c).read
  escape_head c := (escape_marshalChar c).head
  indent := blank_nil
  itemSeparator := ⟨[], rfl, blank_nil⟩
  keySeparator := ⟨[], rfl, blank_nil⟩

/-! ## Writers -/

section

variable (style : Json.Style)

/-- The text of an array, from the texts of its items. -/
theorem write_array (items : List Json) (level : List Char) :
    style.write (.array items) level =
      writeItems style.indent level style.itemSeparator '[' ']'
        (items.map fun t => style.write t (level ++ style.indent)) := by
  have others (items : List Json) (child : List Char) : style.writeItems items child =
      (items.map fun t => style.write t child).flatMap fun t => style.itemSeparator ++ style.line child ++ t := by
    induction items with
    | nil => rfl
    | cons item items ih => rw [Json.Style.writeItems, ih, List.map_cons, List.flatMap_cons]
  cases items with
  | nil => rfl
  | cons item items =>
    rw [Json.Style.write, others, writeItems, List.map_cons, if_neg (List.cons_ne_nil _ _), writeLines]
    simp only [List.append_assoc, List.cons_append, Json.Style.line]

/-- A member, as a writer writes it. -/
def member (child : List Char) (m : String × Json) : String × List Char :=
  (m.1, style.string m.1 ++ style.keySeparator ++ style.write m.2 child)

/-- The text of an object, from the texts of its members. -/
theorem write_object (members : List (String × Json)) (level : List Char) :
    style.write (.object members) level = writeItems style.indent level style.itemSeparator '\x7b' '\x7d'
      ((members.map (member style (level ++ style.indent))).map Prod.snd) := by
  have others (members : List (String × Json)) (child : List Char) : style.writeMembers members child =
      ((members.map (member style child)).map Prod.snd).flatMap fun t => style.itemSeparator ++ style.line child ++ t :=
        by
    induction members with
    | nil => rfl
    | cons m members ih =>
      rw [Json.Style.writeMembers, ih, List.map_cons, List.map_cons, List.flatMap_cons, member]
      simp only [List.append_assoc]
  cases members with
  | nil => rfl
  | cons m members =>
    rw [Json.Style.write, others, writeItems, List.map_cons, List.map_cons, if_neg (List.cons_ne_nil _ _),
      writeLines, member]
    simp only [List.append_assoc, List.cons_append, Json.Style.line]

/-- Sorting the texts of the members sorts the members. -/
theorem sort_members (le : String → String → Bool) (members : List (String × Json)) (child : List Char) :
    (members.map (member style child)).mergeSort (keyLE le) =
      (members.mergeSort (keyLE le)).map (member style child) := by
  refine (List.map_mergeSort ?_).symm
  exact fun _ _ _ _ => rfl

end

/-- The writer of the Go runtime. -/
theorem writePythonJSON_eq (indent : List Char) (t : Json) (level : List Char) :
    writePythonJSON indent (pythonStyle indent).itemSeparator [':', ' '] t level =
      (pythonStyle indent).write (t.sorted bytesLE) level := by
  induction t using Json.induct generalizing level with
  | null => rfl
  | bool b => cases b <;> rfl
  | number literal => rfl
  | string value => rfl
  | array items ih =>
    have all (child : List Char) : writeAll indent (pythonStyle indent).itemSeparator [':', ' '] items child =
        (sortedAll bytesLE items).map fun t => (pythonStyle indent).write t child := by
      induction items with
      | nil => rfl
      | cons item items step =>
        rw [writeAll, ih item List.mem_cons_self, step fun t ht => ih t (List.mem_cons_of_mem _ ht), sortedAll,
          List.map_cons]
    rw [writePythonJSON, sorted, write_array, all]
    rfl
  | object members ih =>
    have all (child : List Char) : writeMembers indent (pythonStyle indent).itemSeparator [':', ' '] members child =
        (sortedMembers bytesLE members).map (member (pythonStyle indent) child) := by
      induction members with
      | nil => rfl
      | cons m members step =>
        rw [writeMembers, ih m List.mem_cons_self, step fun t ht => ih t (List.mem_cons_of_mem _ ht), sortedMembers,
          List.map_cons]
        rfl
    rw [writePythonJSON, sorted, write_object, all, sort_members]
    rfl

/-! ### Python -/

/-- What the Python runtime indents by. -/
def indentOf (indent : Option Nat) : List Char := List.replicate (indent.getD 0) ' '

/-- The spaces of a level. -/
def spaces (indent : Option Nat) (level : Nat) : List Char := (List.replicate level (indentOf indent)).flatten

theorem spaces_succ (indent : Option Nat) (level : Nat) :
    spaces indent (level + 1) = spaces indent level ++ indentOf indent := by
  rw [spaces, List.replicate_succ', List.flatten_append, List.flatten_singleton, spaces]

theorem encodeBasestringAscii_eq (indent : List Char) (s : String) :
    encodeBasestringAscii s = (pythonStyle indent).string s := by
  unfold encodeBasestringAscii Json.Style.string
  rw [funext replace_eq_escaped]
  rfl

/-- The separators of lines, for no indent and for one that is not empty. -/
theorem newlineIndent_eq {indent : Option Nat} (h : indent ≠ some 0) (level : Nat) :
    newlineIndent indent level = (pythonStyle (indentOf indent)).line (spaces indent level) := by
  cases indent with
  | none => rfl
  | some n =>
    cases n with
    | zero => exact absurd rfl h
    | succ n => rfl

theorem itemSeparator_eq {indent : Option Nat} (h : indent ≠ some 0) :
    itemSeparator indent = (pythonStyle (indentOf indent)).itemSeparator := by
  cases indent with
  | none => rfl
  | some n =>
    cases n with
    | zero => exact absurd rfl h
    | succ n => rfl

theorem intercalate_cons (separator first : List Char) (others : List (List Char)) :
    separator.intercalate (first :: others) = first ++ others.flatMap fun t => separator ++ t := by
  induction others generalizing first with
  | nil => simp [List.intercalate]
  | cons next others ih =>
    rw [List.flatMap_cons, List.append_assoc, ← ih]
    simp [List.intercalate]

/-- The lines between brackets, as the Python runtime joins them. -/
theorem lines_eq {indent : Option Nat} (h : indent ≠ some 0) (level : Nat) (opening closing : Char)
    {texts : List (List Char)} (hne : texts ≠ []) :
    opening :: newlineIndent indent (level + 1) ++
        (itemSeparator indent ++ newlineIndent indent (level + 1)).intercalate texts ++
          newlineIndent indent level ++ [closing] =
      writeItems (indentOf indent) (spaces indent level)
        (pythonStyle (indentOf indent)).itemSeparator opening closing texts := by
  obtain ⟨first, others, rfl⟩ := List.exists_cons_of_ne_nil hne
  rw [writeItems, if_neg hne, writeLines, intercalate_cons, newlineIndent_eq h, newlineIndent_eq h,
    itemSeparator_eq h, spaces_succ]
  simp only [Json.Style.line, List.append_assoc, List.cons_append]
  rfl

/-- The writer of the Python runtime. -/
theorem iterencode_eq {indent : Option Nat} (h : indent ≠ some 0) (t : Json) (level : Nat) :
    iterencode indent t level = (pythonStyle (indentOf indent)).write (t.sorted strLE) (spaces indent level) := by
  induction t using Json.induct generalizing level with
  | null => rfl
  | bool b => cases b <;> rfl
  | number literal => rfl
  | string value => exact encodeBasestringAscii_eq _ value
  | array items ih =>
    have all (level : Nat) : iterencodeList indent items level =
        (sortedAll strLE items).map fun t => (pythonStyle (indentOf indent)).write t (spaces indent level) := by
      induction items with
      | nil => rfl
      | cons item items step =>
        rw [iterencodeList, ih item List.mem_cons_self, step fun t ht => ih t (List.mem_cons_of_mem _ ht), sortedAll,
          List.map_cons]
    cases items with
    | nil => rfl
    | cons item items =>
      have texts := all (level + 1)
      rw [iterencodeList] at texts
      rw [iterencode, texts, lines_eq h level '[' ']' (by simp [sortedAll]), sorted, write_array, spaces_succ]
      rfl
  | object members ih =>
    have all (level : Nat) : iterencodeDict indent members level =
        (sortedMembers strLE members).map (member (pythonStyle (indentOf indent)) (spaces indent level)) := by
      induction members with
      | nil => rfl
      | cons m members step =>
        rw [iterencodeDict, ih m List.mem_cons_self, step fun t ht => ih t (List.mem_cons_of_mem _ ht), sortedMembers,
          List.map_cons, encodeBasestringAscii_eq (indentOf indent)]
        rfl
    cases members with
    | nil =>
      rw [iterencode, sorted, sortedMembers, List.mergeSort_nil]
      rfl
    | cons m members =>
      have hne : ((((sortedMembers strLE (m :: members)).mergeSort (keyLE strLE)).map
          (member (pythonStyle (indentOf indent)) (spaces indent (level + 1)))).map Prod.snd) ≠ [] := by
        intro hnil
        have length := congrArg List.length hnil
        simp [sortedMembers] at length
      rw [iterencode, all, sort_members, lines_eq h level '\x7b' '\x7d' hne, sorted, write_object, spaces_succ]
      rfl

/-! ## Both runtimes -/

/-- A value that `encoding/json` reads arrives with its members sorted. -/
theorem normalizeJSON_eq {t : Json} (ht : t.WellFormed) (hd : t.depth ≤ maxNestingDepth) :
    normalizeJSON t = .ok (t.sorted bytesLE) := by
  have read := read_write marshalStyle_lawful (wellFormed_sorted bytesLE t ht)
    ((depth_sorted_le_iff bytesLE t maxNestingDepth).mpr hd) stops_nil
  rw [List.append_nil] at read
  simp only [normalizeJSON, decode, marshal, read]

/-- A value that is nested deeper is refused. -/
theorem normalizeJSON_deep {t : Json} (ht : t.WellFormed) (hd : maxNestingDepth < t.depth) :
    normalizeJSON t = .error (.errorf "xir state: JSON value is not decodable: exceeded max depth") := by
  have deep : maxNestingDepth < (t.sorted bytesLE).depth := by
    have := depth_sorted_le_iff bytesLE t maxNestingDepth
    omega
  have read := read_write_deep marshalStyle_lawful (wellFormed_sorted bytesLE t ht) deep []
  rw [List.append_nil] at read
  simp only [normalizeJSON, decode, marshal, read]

theorem renderPythonJSON_eq {t : Json} (ht : t.WellFormed) (hd : t.depth ≤ maxNestingDepth) (indent : Option Nat)
    (h : indent ≠ some 0) :
    renderPythonJSON t (indentOf indent) (pythonStyle (indentOf indent)).itemSeparator [':', ' '] = .ok
    (dumps t indent) := by
  have sorted := sorted_sorted strLE_trans strLE_total t
  simp only [renderPythonJSON, normalizeJSON_eq ht hd, bind, Except.bind, pure, Except.pure]
  rw [writePythonJSON_eq, bytesLE_eq_strLE, sorted, dumps, iterencode_eq h]
  rfl

/-- `DecodeJSON` reads what the Python runtime writes. -/
theorem decodeJSON_dumps {t : Json} (ht : t.WellFormed) (hd : t.depth ≤ maxNestingDepth) {indent : Option Nat}
    (h : indent ≠ some 0) : decodeJSON (dumps t indent) = .ok (t.sorted strLE) := by
  have read := read_write (pythonStyle_lawful (indent.getD 0)) (wellFormed_sorted strLE t ht)
    ((depth_sorted_le_iff strLE t maxNestingDepth).mpr hd) stops_nil
  rw [List.append_nil] at read
  have text : (dumps t indent).toList = (pythonStyle (indentOf indent)).write (t.sorted strLE) [] := by
    rw [dumps, String.toList_ofList, iterencode_eq h]
    rfl
  simp only [decodeJSON, decode, text]
  rw [show (pythonStyle (indentOf indent)).write (t.sorted strLE) [] =
    (pythonStyle (List.replicate (indent.getD 0) ' ')).write (t.sorted strLE) [] from rfl, read]
  rfl

theorem canonicalJSON_eq {t : Json} (ht : t.WellFormed) (hd : t.depth ≤ maxNestingDepth) :
    canonicalJSON t = .ok (dumps t none) :=
  renderPythonJSON_eq ht hd none (by decide)

theorem canonicalJSONIndent_eq {t : Json} (ht : t.WellFormed) (hd : t.depth ≤ maxNestingDepth) {n : Nat} (hn : 1 ≤ n) :
    canonicalJSONIndent t n = .ok (dumps t (some n)) := by
  have lines : (pythonStyle (indentOf (some n))).itemSeparator = [','] := by
    obtain ⟨n, rfl⟩ : ∃ m, n = m + 1 := ⟨n - 1, by omega⟩
    rfl
  have rendered := renderPythonJSON_eq ht hd (some n) (by simp; omega)
  rw [lines] at rendered
  rw [canonicalJSONIndent, if_neg (by omega), Int.toNat_natCast]
  exact rendered

/-- What is written of a value is written of the value with its members sorted. -/
theorem dumps_sorted (t : Json) {indent : Option Nat} (h : indent ≠ some 0) :
    dumps (t.sorted strLE) indent = dumps t indent := by
  rw [dumps, dumps, iterencode_eq h, iterencode_eq h, sorted_sorted strLE_trans strLE_total]

/-- `CanonicalJSON` and `CanonicalJSONIndent` write what `json.dumps` does, `DecodeJSON` reads both texts as the value
that they were written for, and writing what was read gives the texts again. -/
theorem canonical_json_agrees {t : Json} (ht : t.WellFormed) (hd : t.depth ≤ maxNestingDepth) {n : Nat} (hn : 1 ≤ n) :
    (canonicalJSON t = .ok (dumps t none) ∧ canonicalJSONIndent t n = .ok (dumps t (some n))) ∧
      (∀ indent ∈ [none, some n], decodeJSON (dumps t indent) = .ok (t.sorted strLE)) ∧
      canonicalJSON (t.sorted strLE) = .ok (dumps t none) ∧
      canonicalJSONIndent (t.sorted strLE) n = .ok (dumps t (some n)) := by
  have sorted_wf := wellFormed_sorted strLE t ht
  have sorted_depth := (depth_sorted_le_iff strLE t maxNestingDepth).mpr hd
  have indented : some n ≠ some 0 := by
    simp only [ne_eq, Option.some.injEq]
    omega
  refine ⟨⟨canonicalJSON_eq ht hd, canonicalJSONIndent_eq ht hd hn⟩, fun indent h => ?_, ?_, ?_⟩
  · refine decodeJSON_dumps ht hd ?_
    rcases List.mem_pair.mp h with rfl | rfl
    · decide
    · exact indented
  · rw [canonicalJSON_eq sorted_wf sorted_depth, dumps_sorted t (by decide)]
  · rw [canonicalJSONIndent_eq sorted_wf sorted_depth hn, dumps_sorted t indented]

/-- A note with a clef and a control character, after a key that sorts before it. -/
def sample : Json := .object [("note", .array [.string "\u007f𝄞", .int (-1)]), ("key", .null)]

theorem canonical_json_agrees_sample :
    canonicalJSON sample = .ok (dumps sample none) ∧ canonicalJSONIndent sample 2 = .ok (dumps sample (some 2)) := by
  have wf : sample.WellFormed := ⟨by decide, ⟨trivial, ⟨-1, rfl⟩, trivial⟩, trivial, trivial⟩
  have shallow : sample.depth ≤ maxNestingDepth := by decide
  exact (canonical_json_agrees wf shallow (by decide)).1

/-- An array in an array, so many times. -/
def nest : Nat → Json
  | 0 => .array []
  | n + 1 => .array [nest n]

theorem depth_nest (n : Nat) : (nest n).depth = n + 1 := by
  induction n with
  | zero => rfl
  | succ n ih =>
    rw [nest, Json.depth, depthAll, depthAll, ih]
    omega

theorem wellFormed_nest (n : Nat) : (nest n).WellFormed := by
  induction n with
  | zero => trivial
  | succ n ih => exact ⟨ih, trivial⟩

/-- `encoding/json` does not read more than 10000 nested arrays, and `CanonicalJSON` reads what it writes. -/
theorem canonicalJSON_nested :
    (nest 10000).WellFormed ∧ canonicalJSON (nest 10000) ≠ .ok (dumps (nest 10000) none) := by
  refine ⟨wellFormed_nest _, ?_⟩
  have deep : maxNestingDepth < (nest 10000).depth := by
    rw [depth_nest, maxNestingDepth]
    omega
  simp only [canonicalJSON, renderPythonJSON, normalizeJSON_deep (wellFormed_nest _) deep]
  exact nofun

end Xir.Impl
