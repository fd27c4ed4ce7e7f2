import Mathlib.Data.Nat.Digits.Defs

/-!
# Transactions of a chain of the EVM

The encoding of what is hashed to the address of a created contract, and what a
chain asks of a transaction whatever its state is (`Admissible`). The hash, and
the costs and limits that differ between chains and change with their versions,
are parameters.
-/

namespace Xir.Evm

/-! ## RLP -/

/-- The bytes of a number, the most significant first and without leading zeros. -/
def scalar (n : Nat) : List UInt8 := (Nat.digits 256 n).reverse.map UInt8.ofNat

/-- What goes before a payload: its length, over a base. -/
def rlpHeader (base length : Nat) : List UInt8 :=
  if length < 56 then [UInt8.ofNat (base + length)]
  else UInt8.ofNat (base + 55 + (scalar length).length) :: scalar length

def rlpString (data : List UInt8) : List UInt8 :=
  if data.length = 1 ∧ data.all (· < 0x80) then data else rlpHeader 0x80 data.length ++ data

/-- A list, of items that are encoded. -/
def rlpList (items : List (List UInt8)) : List UInt8 := rlpHeader 0xc0 items.flatten.length ++ items.flatten

/-! ## Chains -/

/-- What the chains compute, of which only the hash is common to all of them. -/
class Rules where
  keccak256 : List UInt8 → List UInt8
  /-- The gas that a chain charges before it runs anything, to a transaction that creates a contract or does not, for
  its data. -/
  intrinsicGas (chainID : Int) : Bool → List UInt8 → Nat
  /-- The most bytes of data that may create a contract. -/
  initCodeLimit (chainID : Int) : Nat

structure Rules.Lawful [Rules] : Prop where
  length_keccak256 (data : List UInt8) : (Rules.keccak256 data).length = 32
  creation_le (chainID : Int) (data : List UInt8) : 53000 ≤ Rules.intrinsicGas chainID true data
  call_le (chainID : Int) (data : List UInt8) : 21000 ≤ Rules.intrinsicGas chainID false data

variable [Rules]

/-- The address that `CREATE` gives: the last twenty bytes of the hash of the sender and its nonce. -/
def createdAddress (sender : List UInt8) (nonce : Nat) : List UInt8 :=
  (Rules.keccak256 (rlpList [rlpString sender, rlpString (scalar nonce)])).drop 12

theorem length_createdAddress (h : Rules.Lawful) (sender : List UInt8) (nonce : Nat) :
    (createdAddress sender nonce).length = 20 := by
  rw [createdAddress, List.length_drop, h.length_keccak256]

structure Transaction where
  chainID : Int
  nonce : Int
  gasLimit : Int
  maxFeePerGas : Int
  maxPriorityFeePerGas : Int
  /-- Whether it has no destination. -/
  creates : Bool
  data : List UInt8

/-- What a chain asks of a transaction, whatever its state is. -/
structure Admissible (t : Transaction) : Prop where
  nonce : 0 ≤ t.nonce ∧ t.nonce < 2 ^ 64 - 1
  gasLimit : Rules.intrinsicGas t.chainID t.creates t.data ≤ t.gasLimit
  priority : t.maxPriorityFeePerGas ≤ t.maxFeePerGas
  initCode : t.creates = true → t.data.length ≤ Rules.initCodeLimit t.chainID

end Xir.Evm
