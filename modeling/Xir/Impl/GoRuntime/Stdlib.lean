import Xir.Framework.Except
import Xir.Framework.Hex
import Xir.Framework.Layout
import Mathlib.Data.List.DropRight

/-!
# What the Go runtime uses of its libraries

Strings, hexadecimal text and digests as the packages `state` and `evm` use them,
and their errors. A Go string is a `String`, so one that is not UTF-8 is left out.
-/

namespace Xir.Impl

/-- `[]byte`. -/
abbrev GoBytes := List UInt8

/-- `[32]byte`. -/
abbrev GoBytes32 := Vector UInt8 32

/-- The `[32]byte` that is zero. -/
def zero32 : GoBytes32 := Vector.replicate 32 0

/-- `copy` into a `[32]byte` that is zero. -/
def copy32 (b : GoBytes) : GoBytes32 := Vector.ofFn fun i => b.getD i 0

/-! ## Integers -/

namespace BigEndian

/-- `binary.BigEndian.AppendUint32`. -/
def appendUint32 (b : GoBytes) (v : UInt32) : GoBytes := b ++ Uint.bytes 4 v.toNat

/-- `binary.BigEndian.Uint32`, of at least 4 bytes. -/
def uint32 (b : GoBytes) : UInt32 := UInt32.ofNat (Uint.value (b.take 4))

/-- `binary.BigEndian.Uint64`, of at least 8 bytes. -/
def uint64 (b : GoBytes) : UInt64 := UInt64.ofNat (Uint.value (b.take 8))

end BigEndian

/-! ## Strings -/

/-- `unicode.IsSpace`. -/
def isSpace (c : Char) : Bool :=
  [0x09, 0x0a, 0x0b, 0x0c, 0x0d, 0x20, 0x85, 0xa0, 0x1680, 0x2028, 0x2029, 0x202f, 0x205f, 0x3000].contains c.toNat ||
    (0x2000 ≤ c.toNat && c.toNat ≤ 0x200a)

/-- The tables of `unicode.ToLower`, of which the model fixes that they agree with ASCII,
that a lower-case character is its own, and that spaces correspond to spaces. -/
class Unicode where
  toLower : Char → Char
  toLower_ascii (c : Char) : c.toNat < 128 → toLower c = c.toLower
  toLower_toLower (c : Char) : toLower (toLower c) = toLower c
  isSpace_toLower (c : Char) : isSpace (toLower c) = isSpace c

namespace Strings

/-- The bytes of a string of characters in UTF-8: `len`. -/
def len (cs : List Char) : Nat := (cs.map Char.utf8Size).sum

def trimSpaceChars (cs : List Char) : List Char := (cs.dropWhile isSpace).rdropWhile isSpace

/-- `strings.TrimSpace`. -/
def trimSpace (s : String) : String := String.ofList (trimSpaceChars s.toList)

def trimPrefixChars (cs pre : List Char) : List Char := if pre <+: cs then cs.drop pre.length else cs

/-- `strings.TrimPrefix`. -/
def trimPrefix (s pre : String) : String := String.ofList (trimPrefixChars s.toList pre.toList)

/-- `strings.Contains`. -/
def contains (s substr : String) : Bool := s.toList.tails.any fun t => substr.toList <+: t

/-- `strings.ToLower`. -/
def toLower [Unicode] (s : String) : String := String.ofList (s.toList.map Unicode.toLower)

/-- The verb `%q`, on text that needs no escape. -/
def quoted (s : String) : String := "\"" ++ s ++ "\""

end Strings

/-! ## Errors -/

/-- What distinguishes an error of a call to a node. -/
inductive RpcErrorKind
  /-- `context.DeadlineExceeded` -/
  | deadlineExceeded
  /-- `context.Canceled` -/
  | canceled
  /-- a `net.Error`, an end of file, or one of the listed `syscall` errors -/
  | transport
  /-- an `rpc.Error`: the node answered with an error -/
  | answered
  | other
  deriving DecidableEq

structure RpcError where
  kind : RpcErrorKind
  message : String
  deriving DecidableEq

/-- What the functions of `state` and `evm` return as an error. The prefix that `%w` writes
for `ErrDrift` and `ErrStateTransition` is left out of the text. -/
inductive RuntimeError
  | errorf (text : String)
  | drift (text : String)
  | stateTransition (text : String)
  | rpc (text : String) (err : RpcError)
  deriving DecidableEq

namespace RuntimeError

/-- `fmt.Errorf(text + "%w", err)`. -/
def wrap (text : String) : RuntimeError → RuntimeError
  | errorf t => errorf (text ++ t)
  | drift t => drift (text ++ t)
  | stateTransition t => stateTransition (text ++ t)
  | rpc t err => rpc (text ++ t) err

/-- `errors.Is(err, ErrDrift)`. -/
def IsDrift : RuntimeError → Prop
  | drift _ => True
  | _ => False

end RuntimeError

/-! ## Hexadecimal text -/

/-- `hex.EncodeToString`. -/
def encodeToString (b : GoBytes) : String := String.ofList (Hex.encode b)

/-- `hex.DecodeString`. -/
def decodeString (s : String) : Except RuntimeError GoBytes :=
  orRevert (.errorf "encoding/hex: invalid byte") (Hex.decode s.toList)

/-- The body of `decodeHex` in both packages, with their errors for an odd number of digits
and for others than digits. -/
def decodeHexWith [Unicode] (odd : RuntimeError) (invalid : RuntimeError → RuntimeError) (value : String) :
    Except RuntimeError GoBytes :=
  let trimmed := Strings.trimSpace value
  if trimmed = "" then .ok []
  else
    let digits := Strings.trimPrefix (Strings.trimPrefix trimmed "0x") "0X"
    if Strings.len digits.toList % 2 ≠ 0 then .error odd
    else (decodeString (Strings.toLower digits)).mapError invalid

/-! ## Digests -/

/-- The hashes `crypto/sha256` and legacy Keccak-256, of which the model fixes nothing. -/
class Digests where
  sha256 : GoBytes → Vector UInt8 32
  keccak256 : GoBytes → Vector UInt8 32

def sha256Hex [Digests] (value : GoBytes) : String := encodeToString (Digests.sha256 value).toList

end Xir.Impl
