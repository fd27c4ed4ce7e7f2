import Xir.Framework.Json
import Xir.Impl.GoRuntime.Stdlib

/-!
# `go-runtime/internal/state/pyjson.go`

The text that Python's `json.dumps` writes for a value. A number is its literal,
as a `json.Number` is, and what `encoding/json` writes and reads of a value is
taken of a tree of JSON values, without structs and typed maps.
-/

namespace Xir.Impl

namespace PyJson

/-- `%04x`, of a number below `0x10000`. -/
def hex4 (n : Nat) : List Char :=
  [Nat.digitChar (n / 4096 % 16), Nat.digitChar (n / 256 % 16), Nat.digitChar (n / 16 % 16), Nat.digitChar (n % 16)]

/-- How `sort.Strings` orders strings: by their bytes. -/
def bytesLE (a b : String) : Bool := lexLE (a.toList.flatMap utf8) (b.toList.flatMap utf8)

/-! ## `encoding/json` -/

/-- What `json.Marshal` writes for a character. -/
def marshalChar (c : Char) : List Char :=
  if c = '"' then ['\\', '"']
  else if c = '\\' then ['\\', '\\']
  else if c.toNat = 0x08 then ['\\', 'b']
  else if c.toNat = 0x0c then ['\\', 'f']
  else if c = '\n' then ['\\', 'n']
  else if c = '\r' then ['\\', 'r']
  else if c = '\t' then ['\\', 't']
  -- it escapes `<`, `>` and `&` for HTML, and two line separators for JavaScript
  else if c.toNat < 0x20 ∨ c = '<' ∨ c = '>' ∨ c = '&' ∨ c.toNat = 0x2028 ∨ c.toNat = 0x2029 then
    '\\' :: 'u' :: hex4 c.toNat
  else [c]

def marshalStyle : Json.Style where
  escape := marshalChar
  indent := []
  itemSeparator := [',']
  keySeparator := [':']

/-- `json.Marshal`, which writes the keys of a map in their order. -/
def marshal (value : Json) : List Char := marshalStyle.write (value.sorted bytesLE) []

/-- How deep `encoding/json` reads: its `maxNestingDepth`. -/
def maxNestingDepth : Nat := 10000

/-- `Decode` of a decoder that uses numbers, and what it has not read. It refuses a value that is nested too deep. -/
def decode (document : List Char) : Option (Json × List Char) := Json.read maxNestingDepth document

/-- `decoder.More()`. -/
def more (rest : List Char) : Bool :=
  match Json.skip rest with
  | [] => false
  | c :: _ => c ≠ ']' && c ≠ '\x7d'

/-! ## Writing -/

/-- What the loop of `writePythonString` writes for a character. -/
def escaped (character : Char) : List Char :=
  if character = '"' then ['\\', '"']
  else if character = '\\' then ['\\', '\\']
  else if character.toNat = 0x08 then ['\\', 'b']
  else if character.toNat = 0x0c then ['\\', 'f']
  else if character = '\n' then ['\\', 'n']
  else if character = '\r' then ['\\', 'r']
  else if character = '\t' then ['\\', 't']
  else
    let code := character.toNat
    if 0x20 ≤ code ∧ code ≤ 0x7e then [character]
    else if code = 0xfffd then ['\\', 'u', 'f', 'f', 'f', 'd']
    else if code ≤ 0xffff then '\\' :: 'u' :: hex4 code
    else
      -- `utf16.EncodeRune`
      '\\' :: 'u' :: hex4 (0xd800 + (code - 0x10000) / 1024 % 1024) ++
        '\\' :: 'u' :: hex4 (0xdc00 + (code - 0x10000) % 1024)

def writePythonString (value : String) : List Char := '"' :: value.toList.flatMap escaped ++ ['"']

/-- The loop over items: the separator comes before each but the first, and each starts a line if there is an indent. -/
def writeLines (indent child itemSeparator : List Char) : List (List Char) → List Char
  | [] => []
  | item :: items =>
    let line := if indent = [] then [] else '\n' :: child
    line ++ item ++ items.flatMap fun item => itemSeparator ++ line ++ item

/-- The items of an array, or the members of an object, between brackets. -/
def writeItems (indent level itemSeparator : List Char) (opening closing : Char)
    (items : List (List Char)) : List Char :=
  if items = [] then [opening, closing]
  else
    opening :: writeLines indent (level ++ indent) itemSeparator items ++
      (if indent = [] then [] else '\n' :: level) ++ [closing]

mutual

def writePythonJSON (indent itemSeparator keySeparator : List Char) : Json → List Char → List Char
  | .null, _ => "null".toList
  | .bool value, _ => if value then "true".toList else "false".toList
  | .number literal, _ => literal.toList
  | .string value, _ => writePythonString value
  | .array items, level =>
    writeItems indent level itemSeparator '[' ']' (writeAll indent itemSeparator keySeparator items (level ++ indent))
  | .object members, level =>
    -- `sort.Strings(keys)`
    let written := writeMembers indent itemSeparator keySeparator members (level ++ indent)
    writeItems indent level itemSeparator '\x7b' '\x7d' ((written.mergeSort (Json.keyLE bytesLE)).map Prod.snd)

def writeAll (indent itemSeparator keySeparator : List Char) : List Json → List Char → List (List Char)
  | [], _ => []
  | item :: items, child =>
    writePythonJSON indent itemSeparator keySeparator item child ::
      writeAll indent itemSeparator keySeparator items child

/-- The members, beside their keys. -/
def writeMembers (indent itemSeparator keySeparator : List Char) :
    List (String × Json) → List Char → List (String × List Char)
  | [], _ => []
  | (key, value) :: members, child =>
    (key, writePythonString key ++ keySeparator ++ writePythonJSON indent itemSeparator keySeparator value child) ::
      writeMembers indent itemSeparator keySeparator members child

end

/-! ## Values -/

def normalizeJSON (value : Json) : Except RuntimeError Json :=
  match decode (marshal value) with
  | some (decoded, _) => .ok decoded
  | none => .error (.errorf "xir state: JSON value is not decodable: exceeded max depth")

def renderPythonJSON (value : Json) (indent itemSeparator keySeparator : List Char) : Except RuntimeError String := do
  let normalized ← normalizeJSON value
  return String.ofList (writePythonJSON indent itemSeparator keySeparator normalized [])

end PyJson

/-- `CanonicalJSON`. -/
def canonicalJSON (value : Json) : Except RuntimeError String :=
  PyJson.renderPythonJSON value [] [',', ' '] [':', ' ']

/-- `CanonicalJSONIndent`. -/
def canonicalJSONIndent (value : Json) (indent : Int) : Except RuntimeError String :=
  if indent < 0 then .error (.errorf ("xir state: negative JSON indent " ++ toString indent))
  else PyJson.renderPythonJSON value (List.replicate indent.toNat ' ') [','] [':', ' ']

/-- `DecodeJSON`. The error of the decoder is one for all documents that it refuses. -/
def decodeJSON (document : String) : Except RuntimeError Json :=
  match PyJson.decode document.toList with
  | none => .error (.errorf "invalid JSON document")
  | some (decoded, rest) =>
    if PyJson.more rest then .error (.errorf "trailing JSON content after the first value") else .ok decoded

end Xir.Impl
