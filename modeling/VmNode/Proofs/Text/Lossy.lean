import Mathlib.Data.List.DropRight
import VmNode.Text.Utf8

/-!
# Ill-formed bytes and carriage returns

A carriage return, the byte `0x0d`, is part of no other character, and bytes that are ill-formed
do not take it with them (`Utf8.next_append_return`). No other bytes are read as one
(`Utf8.eq_of_next_eq_return`). So it makes no difference whether the carriage returns at the end
are taken off the bytes or off the text that they are read as (`Utf8.decodeLossy_rdropWhile`).
-/

namespace VmNode.Text.Utf8

variable {b : UInt8} {rest : List UInt8} {n : Nat}

/-- A carriage return is no tail of a character, so none is swallowed by the one before it. -/
theorem isTail_return : isTail 0x0d = false := by decide

theorem secondOfThree_return (lead : UInt8) : secondOfThree lead 0x0d = false := by
  rw [secondOfThree]
  split
  · rfl
  · split <;> rfl

theorem secondOfFour_return (lead : UInt8) : secondOfFour lead 0x0d = false := by
  rw [secondOfFour]
  split
  · rfl
  · split <;> rfl

/-- A carriage return belongs to no character that begins before it. -/
theorem next_append_return (b : UInt8) (rest : List UInt8) :
    next b (rest ++ [0x0d]) = ((next b rest).1, (next b rest).2 ++ [0x0d]) := by
  unfold next
  by_cases h1 : b < 0x80
  · simp only [if_pos h1]
  by_cases h2 : (0xc2 ≤ b && b ≤ 0xdf) = true
  · simp only [if_neg h1, if_pos h2]
    rcases rest with _ | ⟨c, r⟩
    · simp [isTail_return]
    · simp only [List.cons_append]
      split <;> rfl
  by_cases h3 : (0xe0 ≤ b && b ≤ 0xef) = true
  · simp only [if_neg h1, if_neg h2, if_pos h3]
    rcases rest with _ | ⟨c, _ | ⟨d, r⟩⟩
    · simp [secondOfThree_return]
    · simp only [List.cons_append, List.nil_append, isTail_return]
      split <;> rfl
    · simp only [List.cons_append]
      repeat' split
      all_goals rfl
  by_cases h4 : (0xf0 ≤ b && b ≤ 0xf4) = true
  · simp only [if_neg h1, if_neg h2, if_neg h3, if_pos h4]
    rcases rest with _ | ⟨c, _ | ⟨d, _ | ⟨e, r⟩⟩⟩
    · simp [secondOfFour_return]
    · simp only [List.cons_append, List.nil_append, isTail_return]
      split <;> rfl
    · simp only [List.cons_append, List.nil_append, isTail_return, Bool.false_eq_true, if_false]
      repeat' split
      all_goals rfl
    · simp only [List.cons_append]
      repeat' split
      all_goals rfl
  · simp only [if_neg h1, if_neg h2, if_neg h3, if_neg h4]

/-- The next character or its replacement, and then what is left. -/
theorem decodeLossy_cons (b : UInt8) (rest : List UInt8) :
    decodeLossy (b :: rest) = (next b rest).1.getD '\ufffd' :: decodeLossy (next b rest).2 := by
  rw [decodeLossy]

/-- A carriage return at the end stays one. -/
theorem decodeLossy_concat (bytes : List UInt8) :
    decodeLossy (bytes ++ [0x0d]) = decodeLossy bytes ++ ['\r'] := by
  fun_induction decodeLossy bytes with
  | case1 =>
    rw [List.nil_append, decodeLossy_cons]
    simp [next, decodeLossy]
  | case2 b rest ih =>
    rw [List.cons_append, decodeLossy_cons, next_append_return, ih]
    rfl

/-- Only the number 13 is a carriage return. -/
theorem eq_of_ofNat_eq_return (h : Char.ofNat n = '\r') : n = 13 := by
  by_cases hvalid : n.isValidChar
  · have hchar : Char.ofNat n = Char.ofNatAux n hvalid := dif_pos hvalid
    exact congrArg Char.toNat (hchar.symm.trans h)
  · have hchar : Char.ofNat n = Char.ofNat 0 := dif_neg hvalid
    rw [h] at hchar
    exact absurd hchar (by decide)

/-- The first of three bytes that carries no bits is followed by one that does. -/
theorem tailBits_ne_zero_of_three {c : UInt8} (hlead : (0xe0 ≤ b && b ≤ 0xef) = true)
    (h : secondOfThree b c = true) (hb : b.toNat % 16 = 0) : tailBits c ≠ 0 := by
  have hle : 0xe0 ≤ b.toNat ∧ b.toNat ≤ 0xef := by simpa [UInt8.le_iff_toNat_le] using hlead
  obtain rfl : b = 0xe0 := UInt8.toNat_inj.1 (by show b.toNat = 0xe0; omega)
  have hc : 0xa0 ≤ c.toNat ∧ c.toNat ≤ 0xbf := by
    simpa [secondOfThree, UInt8.le_iff_toNat_le] using h
  rw [tailBits]
  omega

/-- So is the first of four. -/
theorem tailBits_ne_zero_of_four {c : UInt8} (hlead : (0xf0 ≤ b && b ≤ 0xf4) = true)
    (h : secondOfFour b c = true) (hb : b.toNat % 8 = 0) : tailBits c ≠ 0 := by
  have hle : 0xf0 ≤ b.toNat ∧ b.toNat ≤ 0xf4 := by simpa [UInt8.le_iff_toNat_le] using hlead
  obtain rfl : b = 0xf0 := UInt8.toNat_inj.1 (by show b.toNat = 0xf0; omega)
  have hc : 0x90 ≤ c.toNat ∧ c.toNat ≤ 0xbf := by
    simpa [secondOfFour, UInt8.le_iff_toNat_le] using h
  rw [tailBits]
  omega

/-- Only its own byte is read as a carriage return. -/
theorem eq_of_next_eq_return (h : (next b rest).1 = some '\r') :
    b = 0x0d ∧ (next b rest).2 = rest := by
  unfold next at h ⊢
  -- a byte below 0x80 is a character of its own
  by_cases h1 : b < 0x80
  · simp only [if_pos h1, Option.some.injEq] at h ⊢
    exact ⟨UInt8.toNat_inj.1 (eq_of_ofNat_eq_return h), trivial⟩
  -- with two bytes, the character is 0x80 at least
  by_cases h2 : (0xc2 ≤ b && b ≤ 0xdf) = true
  · simp only [if_neg h1, if_pos h2] at h
    have hb : 0xc2 ≤ b.toNat ∧ b.toNat ≤ 0xdf := by
      simpa [UInt8.le_iff_toNat_le] using h2
    split at h
    · split at h
      · have := eq_of_ofNat_eq_return (Option.some.inj h)
        omega
      · cases h
    · cases h
  -- with three or four, it has bits above those of a carriage return
  by_cases h3 : (0xe0 ≤ b && b ≤ 0xef) = true
  · simp only [if_neg h1, if_neg h2, if_pos h3] at h
    split at h
    · split at h
      · rename_i hc
        split at h
        · have := eq_of_ofNat_eq_return (Option.some.inj h)
          have := tailBits_ne_zero_of_three h3 hc
          omega
        · cases h
      · cases h
    · split at h <;> cases h
    · cases h
  by_cases h4 : (0xf0 ≤ b && b ≤ 0xf4) = true
  · simp only [if_neg h1, if_neg h2, if_neg h3, if_pos h4] at h
    split at h
    · split at h
      · rename_i hc
        split at h
        · split at h
          · have := eq_of_ofNat_eq_return (Option.some.inj h)
            have := tailBits_ne_zero_of_four h4 hc
            omega
          · cases h
        · cases h
      · cases h
    · split at h
      · split at h <;> cases h
      · cases h
    · split at h <;> cases h
    · cases h
  · simp only [if_neg h1, if_neg h2, if_neg h3, if_neg h4] at h
    cases h

/-- What is left after a character is the end of what there was. -/
theorem next_isSuffix (b : UInt8) (rest : List UInt8) : (next b rest).2 <:+ rest := by
  unfold next
  repeat' split
  all_goals simp [List.suffix_cons_iff]

/-- What is read ends with a carriage return only if the bytes do. -/
theorem getLast?_of_decodeLossy {bytes : List UInt8}
    (h : (decodeLossy bytes).getLast? = some '\r') : bytes.getLast? = some 0x0d := by
  fun_induction decodeLossy bytes with
  | case1 => cases h
  | case2 b rest ih =>
    cases hrest : (next b rest).2 with
    | nil =>
      have hlast : (next b rest).1 = some '\r' := by
        rw [hrest, decodeLossy, List.getLast?_singleton, Option.some.injEq] at h
        cases hchar : (next b rest).1 with
        | none =>
          rw [hchar] at h
          cases h
        | some c =>
          rw [hchar] at h
          exact congrArg some h
      obtain ⟨rfl, hnil⟩ := eq_of_next_eq_return hlast
      rw [← hnil, hrest]
      rfl
    | cons c r =>
      -- the last character is read from the bytes after the first one
      obtain ⟨skipped, hskipped⟩ := next_isSuffix b rest
      rw [hrest] at hskipped h ih
      rw [decodeLossy_cons, List.getLast?_cons_cons, ← decodeLossy_cons] at h
      rw [← hskipped, ← List.cons_append, List.getLast?_append_of_ne_nil _ (List.cons_ne_nil _ _)]
      exact ih h

/-- Carriage returns at the end can be taken off before the bytes are read or after. -/
theorem decodeLossy_rdropWhile (bytes : List UInt8) :
    decodeLossy (bytes.rdropWhile (· = 0x0d)) =
      (decodeLossy bytes).rdropWhile (· = '\r') := by
  induction bytes using List.reverseRecOn with
  | nil =>
    rw [List.rdropWhile_nil, decodeLossy, List.rdropWhile_nil]
  | append_singleton bytes b ih =>
    by_cases hb : b = 0x0d
    · rw [hb, List.rdropWhile_concat_pos _ _ _ (by simp), decodeLossy_concat,
        List.rdropWhile_concat_pos _ _ _ (by simp), ih]
    · rw [List.rdropWhile_concat_neg _ _ _ (by simpa using hb), eq_comm,
        List.rdropWhile_eq_self_iff]
      intro hne hlast
      have hreturn : (bytes ++ [b]).getLast? = some 0x0d := getLast?_of_decodeLossy (by
        rw [List.getLast?_eq_getLast_of_ne_nil hne]
        simpa using hlast)
      rw [List.getLast?_concat, Option.some.injEq] at hreturn
      exact hb hreturn

end VmNode.Text.Utf8
