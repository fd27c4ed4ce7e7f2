import Xir.Impl.GoRuntime.State

/-!
# Text that the ledger writes and reads again

What `encodeHex` writes, `decodeHex` reads back, and an account that was brought
to lower case is not changed by doing it again.
-/

namespace Xir.Impl

namespace Strings

theorem dropWhile_isSpace_eq {cs : List Char} (h : ∀ c ∈ cs, isSpace c = false) : cs.dropWhile isSpace = cs := by
  cases cs with
  | nil => rfl
  | cons c cs => exact List.dropWhile_cons_of_neg (by simp [h c List.mem_cons_self])

theorem trimSpaceChars_eq {cs : List Char} (h : ∀ c ∈ cs, isSpace c = false) : trimSpaceChars cs = cs := by
  rw [trimSpaceChars, dropWhile_isSpace_eq h, List.rdropWhile,
    dropWhile_isSpace_eq fun c hc => h c (List.mem_reverse.mp hc), List.reverse_reverse]

theorem trimSpaceChars_idem (cs : List Char) : trimSpaceChars (trimSpaceChars cs) = trimSpaceChars cs := by
  have hp : (cs.dropWhile isSpace).rdropWhile isSpace <+: cs.dropWhile isSpace := List.rdropWhile_prefix isSpace _
  have hd : (trimSpaceChars cs).dropWhile isSpace = trimSpaceChars cs := by
    rw [List.dropWhile_eq_self_iff]
    intro hl
    have hn : 0 < (cs.dropWhile isSpace).length := hl.trans_le hp.length_le
    have hz := List.dropWhile_get_zero_not isSpace cs hn
    rw [List.get_eq_getElem] at hz
    show ¬isSpace ((cs.dropWhile isSpace).rdropWhile isSpace)[0] = true
    rwa [hp.getElem hl]
  rw [trimSpaceChars, hd, trimSpaceChars, List.rdropWhile_idempotent]

variable [Unicode]

theorem trimSpaceChars_map_toLower (cs : List Char) :
    trimSpaceChars (cs.map Unicode.toLower) = (trimSpaceChars cs).map Unicode.toLower := by
  have hs : isSpace ∘ Unicode.toLower = isSpace := funext Unicode.isSpace_toLower
  simp only [trimSpaceChars, List.rdropWhile, List.dropWhile_map, hs, ← List.map_reverse]

/-- An account in the form that the ledger holds is in this form. -/
theorem toLower_trimSpace_idem (s : String) :
    toLower (trimSpace (toLower (trimSpace s))) = toLower (trimSpace s) := by
  have ht : Unicode.toLower ∘ Unicode.toLower = Unicode.toLower := funext Unicode.toLower_toLower
  simp only [toLower, trimSpace, String.toList_ofList, trimSpaceChars_map_toLower, trimSpaceChars_idem, List.map_map,
    ht]

end Strings

open Strings

theorem mem_encode {bs : GoBytes} {c : Char} (h : c ∈ Hex.encode bs) :
    isSpace c = false ∧ c ≠ 'X' ∧ c.toNat < 128 ∧ c.toLower = c ∧ c.utf8Size = 1 :=
  Hex.forall_encode (P := fun c => isSpace c = false ∧ c ≠ 'X' ∧ c.toNat < 128 ∧ c.toLower = c ∧ c.utf8Size = 1)
    (by decide) bs c h

theorem len_encode (bs : GoBytes) : len (Hex.encode bs) = 2 * bs.length := by
  have h : (Hex.encode bs).map Char.utf8Size = List.replicate (2 * bs.length) 1 := by
    rw [List.eq_replicate_iff, List.length_map, Hex.length_encode]
    refine ⟨rfl, fun n hn => ?_⟩
    obtain ⟨c, hc, rfl⟩ := List.mem_map.mp hn
    exact (mem_encode hc).2.2.2.2
  rw [len, h, List.sum_replicate_nat, mul_one]

theorem toList_encodeHex (bs : GoBytes) : (encodeHex bs).toList = '0' :: 'x' :: Hex.encode bs := by
  rw [encodeHex, encodeToString, String.toList_append, String.toList_ofList]
  simp

theorem encodeHex_ne_empty (bs : GoBytes) : encodeHex bs ≠ "" := by
  intro h
  have := congrArg String.toList h
  rw [toList_encodeHex] at this
  cases this

@[simp] theorem decodeString_encodeToString (bs : GoBytes) : decodeString (encodeToString bs) = .ok bs := by
  rw [decodeString, encodeToString, String.toList_ofList, Hex.decode_encode]
  rfl

theorem trimPrefix_encodeHex (bs : GoBytes) : trimPrefix (encodeHex bs) "0x" = encodeToString bs := by
  rw [trimPrefix, toList_encodeHex, trimPrefixChars, if_pos ⟨Hex.encode bs, rfl⟩]
  rfl

theorem trimSpace_encodeHex (bs : GoBytes) : trimSpace (encodeHex bs) = encodeHex bs := by
  rw [trimSpace, trimSpaceChars_eq, String.ofList_toList]
  intro c hc
  rw [toList_encodeHex, List.mem_cons, List.mem_cons] at hc
  rcases hc with rfl | rfl | hc
  · decide
  · decide
  · exact (mem_encode hc).1

/-- The digits of `encodeHex`, as `decodeHex` and `canonicalHash` find them. -/
theorem trimmed_encodeHex (bs : GoBytes) :
    trimPrefix (trimPrefix (trimSpace (encodeHex bs)) "0x") "0X" = encodeToString bs := by
  rw [trimSpace_encodeHex, trimPrefix_encodeHex, trimPrefix, trimPrefixChars, if_neg, String.ofList_toList]
  intro hp
  have hm : 'X' ∈ (encodeToString bs).toList := hp.subset (by decide : 'X' ∈ "0X".toList)
  rw [encodeToString, String.toList_ofList] at hm
  exact (mem_encode hm).2.1 rfl

theorem len_encodeToString (bs : GoBytes) : len (encodeToString bs).toList = 2 * bs.length := by
  rw [encodeToString, String.toList_ofList, len_encode]

theorem encodeToString_ne_empty {bs : GoBytes} (h : bs ≠ []) : encodeToString bs ≠ "" := by
  intro he
  have hl := len_encodeToString bs
  rw [he] at hl
  have hz : len "".toList = 0 := rfl
  exact h (List.eq_nil_of_length_eq_zero (by omega))

variable [Unicode]

theorem toLower_ne_empty {s : String} (h : s ≠ "") : toLower s ≠ "" := by
  intro hl
  have hn := congrArg String.toList hl
  rw [toLower, String.toList_ofList] at hn
  have he : s.toList = "".toList := List.map_eq_nil_iff.mp (hn.trans rfl)
  exact h (String.toList_inj.mp he)

theorem toLower_encodeToString (bs : GoBytes) : toLower (encodeToString bs) = encodeToString bs := by
  have h : (Hex.encode bs).map Unicode.toLower = Hex.encode bs := by
    refine (List.map_congr_left fun c hc => ?_).trans (List.map_id _)
    obtain ⟨-, -, ha, hl, -⟩ := mem_encode hc
    exact (Unicode.toLower_ascii c ha).trans hl
  rw [toLower, encodeToString, String.toList_ofList, h]

theorem decodeHexWith_encodeHex (odd : RuntimeError) (invalid : RuntimeError → RuntimeError) (bs : GoBytes) :
    decodeHexWith odd invalid (encodeHex bs) = .ok bs := by
  have hne : trimSpace (encodeHex bs) ≠ "" := by
    rw [trimSpace_encodeHex]
    exact encodeHex_ne_empty bs
  have heven : ¬ len (encodeToString bs).toList % 2 ≠ 0 := by
    rw [len_encodeToString]
    omega
  simp only [decodeHexWith, if_neg hne, trimmed_encodeHex, if_neg heven, toLower_encodeToString,
    decodeString_encodeToString]
  rfl

@[simp] theorem decodeHex_encodeHex (bs : GoBytes) : decodeHex (encodeHex bs) = .ok bs :=
  decodeHexWith_encodeHex _ _ bs

/-- A hash in canonical form is its own. -/
theorem canonicalHash_encodeHex {bs : GoBytes} (h : bs ≠ []) : canonicalHash (encodeHex bs) = .ok (encodeHex bs) := by
  rw [canonicalHash]
  simp only [trimmed_encodeHex, len_encodeToString, toLower_encodeToString, decodeString_encodeToString,
    revertIf_bind, mapError_bind]
  refine ⟨encodeToString_ne_empty h, by omega, bs, rfl, rfl⟩

/-! ## An instance of the parameters -/

omit [Unicode]

theorem Char.toLower_cases (c : Char) : c.toLower = c ∨ ∃ n : Fin 26, c = Char.ofNat (65 + n) := by
  by_cases h : 65 ≤ c.toNat ∧ c.toNat ≤ 90
  · refine .inr ⟨⟨c.toNat - 65, by omega⟩, ?_⟩
    rw [show 65 + (c.toNat - 65) = c.toNat by omega, Char.ofNat_toNat]
  · left
    exact dif_neg h

/-- The tables of `unicode` for ASCII alone. -/
@[reducible] def asciiUnicode : Unicode where
  toLower := Char.toLower
  toLower_ascii _ _ := rfl
  toLower_toLower c := by
    rcases Char.toLower_cases c with h | ⟨n, rfl⟩
    · rw [h, h]
    · revert n
      decide
  isSpace_toLower c := by
    rcases Char.toLower_cases c with h | ⟨n, rfl⟩
    · rw [h]
    · revert n
      decide

/-- Hashes that tell the empty string from the others. -/
@[reducible] def emptinessDigests : Digests where
  sha256 b := Vector.replicate 32 (if b = [] then 0 else 1)
  keccak256 b := Vector.replicate 32 (if b = [] then 0 else 1)

end Xir.Impl
