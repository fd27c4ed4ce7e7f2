import Xir.Framework.Json

/-!
# `json.dumps` of Python

What `json/encoder.py` writes with `sort_keys=True` for a value of dictionaries
with string keys, lists, strings, integers, booleans and `None`. A string has no
lone surrogates, and the limits that an interpreter sets on recursion and on the
digits of an integer are left out.
-/

namespace Xir.Impl.XirLab.JsonEncoder

/-- `'\u{0:04x}'.format(n)`, of a number below `0x10000`. -/
def uFormat (n : Nat) : List Char :=
  ['\\', 'u', Nat.digitChar (n >>> 12 &&& 0xf), Nat.digitChar (n >>> 8 &&& 0xf), Nat.digitChar (n >>> 4 &&& 0xf),
    Nat.digitChar (n &&& 0xf)]

/-- `ESCAPE_DCT`. -/
def escapeDct (c : Char) : Option (List Char) :=
  if c = '\\' then some ['\\', '\\']
  else if c = '"' then some ['\\', '"']
  else if c.toNat = 0x08 then some ['\\', 'b']
  else if c.toNat = 0x0c then some ['\\', 'f']
  else if c = '\n' then some ['\\', 'n']
  else if c = '\r' then some ['\\', 'r']
  else if c = '\t' then some ['\\', 't']
  else if c.toNat < 0x20 then some (uFormat c.toNat)
  else none

/-- `replace` of `py_encode_basestring_ascii`. -/
def replace (c : Char) : List Char :=
  match escapeDct c with
  | some escape => escape
  | none =>
    let n := c.toNat
    if n < 0x10000 then uFormat n
    else
      -- surrogate pair
      let n := n - 0x10000
      let s1 := 0xd800 ||| (n >>> 10 &&& 0x3ff)
      let s2 := 0xdc00 ||| (n &&& 0x3ff)
      uFormat s1 ++ uFormat s2

/-- `ESCAPE_ASCII`: `([\\"]|[^\ -~])`. -/
def escapeAscii (c : Char) : Bool := c = '\\' || c = '"' || !(' ' ≤ c && c ≤ '~')

/-- `encode_basestring_ascii`. -/
def encodeBasestringAscii (s : String) : List Char :=
  '"' :: s.toList.flatMap (fun c => if escapeAscii c then replace c else [c]) ++ ['"']

/-- How `sorted` orders strings: by their code points. -/
def strLE (a b : String) : Bool := lexLE (a.toList.map Char.toNat) (b.toList.map Char.toNat)

/-- `newline_indent`. -/
def newlineIndent (indent : Option Nat) (currentIndentLevel : Nat) : List Char :=
  match indent with
  | some indent => '\n' :: (List.replicate currentIndentLevel (List.replicate indent ' ')).flatten
  | none => []

/-- `item_separator`: `dumps` has another default with an indent. -/
def itemSeparator (indent : Option Nat) : List Char := if indent.isSome then [','] else [',', ' ']

def keySeparator : List Char := [':', ' ']

mutual

/-- `_iterencode`, with `_iterencode_list` and `_iterencode_dict`. -/
def iterencode (indent : Option Nat) : Json → (currentIndentLevel : Nat) → List Char
  | .string o, _ => encodeBasestringAscii o
  | .null, _ => "null".toList
  | .bool true, _ => "true".toList
  | .bool false, _ => "false".toList
  | .number literal, _ => literal.toList
  | .array [], _ => "[]".toList
  | .array (value :: lst), level =>
    let separator := itemSeparator indent ++ newlineIndent indent (level + 1)
    '[' :: newlineIndent indent (level + 1) ++
      separator.intercalate (iterencode indent value (level + 1) :: iterencodeList indent lst (level + 1)) ++
      newlineIndent indent level ++ [']']
  | .object [], _ => "\x7b\x7d".toList
  | .object (item :: dct), level =>
    let separator := itemSeparator indent ++ newlineIndent indent (level + 1)
    let items := (iterencodeDict indent (item :: dct) (level + 1)).mergeSort (Json.keyLE strLE)
    '\x7b' :: newlineIndent indent (level + 1) ++ separator.intercalate (items.map Prod.snd) ++
      newlineIndent indent level ++ ['\x7d']

def iterencodeList (indent : Option Nat) : List Json → Nat → List (List Char)
  | [], _ => []
  | value :: lst, level => iterencode indent value level :: iterencodeList indent lst level

/-- The items of a dictionary, beside their keys. -/
def iterencodeDict (indent : Option Nat) : List (String × Json) → Nat → List (String × List Char)
  | [], _ => []
  | (key, value) :: dct, level =>
    (key, encodeBasestringAscii key ++ keySeparator ++ iterencode indent value level) :: iterencodeDict indent dct level

end

/-- `json.dumps(value, indent=indent, sort_keys=True)`. -/
def dumps (value : Json) (indent : Option Nat) : String := String.ofList (iterencode indent value 0)

end Xir.Impl.XirLab.JsonEncoder
