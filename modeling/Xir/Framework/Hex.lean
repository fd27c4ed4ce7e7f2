import Mathlib.Data.List.Basic
import Mathlib.Tactic.IntervalCases

/-!
# Hexadecimal text

Two digits for each byte. `encode` writes lower-case digits, and `decode` reads
digits of both cases, so that it has `encode` as a right inverse.
-/

namespace Xir.Hex

/-- The value of a digit. -/
def value (c : Char) : Option Nat :=
  if '0' ≤ c ∧ c ≤ '9' then some (c.toNat - 48)
  else if 'a' ≤ c ∧ c ≤ 'f' then some (c.toNat - 87)
  else if 'A' ≤ c ∧ c ≤ 'F' then some (c.toNat - 55)
  else none

def encode : List UInt8 → List Char
  | [] => []
  | b :: bs => Nat.digitChar (b.toNat / 16) :: Nat.digitChar (b.toNat % 16) :: encode bs

def decode : List Char → Option (List UInt8)
  | [] => some []
  | [_] => none
  | c :: d :: cs =>
    match value c, value d, decode cs with
    | some x, some y, some bs => some (UInt8.ofNat (16 * x + y) :: bs)
    | _, _, _ => none

theorem value_digitChar {n : Nat} (h : n < 16) : value (Nat.digitChar n) = some n := by
  interval_cases n <;> decide

@[simp] theorem decode_encode (bs : List UInt8) : decode (encode bs) = some bs := by
  induction bs with
  | nil => rfl
  | cons b bs ih =>
    have hb := b.toNat_lt
    rw [encode, decode, value_digitChar (by omega), value_digitChar (by omega), ih]
    simp only [Nat.div_add_mod, UInt8.ofNat_toNat]

theorem encode_inj {bs bs' : List UInt8} : encode bs = encode bs' ↔ bs = bs' := by
  refine ⟨fun h => ?_, congrArg encode⟩
  rw [← Option.some_inj, ← decode_encode bs, h, decode_encode]

@[simp] theorem length_encode (bs : List UInt8) : (encode bs).length = 2 * bs.length := by
  induction bs with
  | nil => rfl
  | cons b bs ih =>
    rw [encode, List.length_cons, List.length_cons, ih, List.length_cons]
    omega

/-- What holds of the sixteen lower-case digits holds of every encoded character. -/
theorem forall_encode {P : Char → Prop} (h : ∀ n : Fin 16, P (Nat.digitChar n)) (bs : List UInt8) :
    ∀ c ∈ encode bs, P c := by
  induction bs with
  | nil => exact fun _ hc => absurd hc List.not_mem_nil
  | cons b bs ih =>
    have hb := b.toNat_lt
    intro c hc
    rw [encode, List.mem_cons, List.mem_cons] at hc
    rcases hc with rfl | rfl | hc
    · exact h ⟨b.toNat / 16, by omega⟩
    · exact h ⟨b.toNat % 16, by omega⟩
    · exact ih c hc

end Xir.Hex
