import Mathlib.Data.List.TakeDrop
import VmNode.Address.Ipv4

/-!
# Texts of addresses

The text of an IPv4 address spells the address (`Ipv4.ofText?_text`).
-/

namespace VmNode.Ipv4

variable {n : Nat} {rest : List Char}

/-- What can follow a decimal number. -/
def EndsDigits (s : List Char) : Prop := ∀ c ∈ s.head?, digit? 10 c = none

/-- The digits of a number are at most three, without a leading zero, and spell it. -/
def isPlain (n : Nat) : Bool :=
  let ds := Nat.toDigits 10 n
  ds.all (fun c => (digit? 10 c).isSome) && digitsValue 10 ds == n && !ds.isEmpty &&
    decide (ds.length ≤ 3) && (ds.head? != some '0' || ds.length == 1)

theorem isPlain_of_lt (h : n < 256) : isPlain n = true := by
  have hall : (List.range 256).all isPlain = true := by decide +kernel
  exact List.all_eq_true.1 hall n (List.mem_range.2 h)

/-- An octet is read from its digits, if no further digit follows. -/
theorem scanOctet_toString (h : n < 256) (hrest : EndsDigits rest) :
    scanOctet ((toString n).toList ++ rest) = some (UInt8.ofNat n, rest) := by
  have hplain := isPlain_of_lt h
  simp only [isPlain, Bool.and_eq_true, List.all_eq_true, beq_iff_eq] at hplain
  obtain ⟨⟨⟨⟨hdigits, hvalue⟩, hempty⟩, hlength⟩, hlead⟩ := hplain
  have hstop : rest.takeWhile (fun c => (digit? 10 c).isSome) = [] ∧
      rest.dropWhile (fun c => (digit? 10 c).isSome) = rest := by
    cases rest with
    | nil => exact ⟨rfl, rfl⟩
    | cons c rest => simp [hrest c rfl]
  have htext : (toString n).toList = Nat.toDigits 10 n := by
    simp [toString, Nat.repr]
  rw [scanOctet, scanNumber, List.span_eq_takeWhile_dropWhile, htext,
    List.takeWhile_append_of_pos hdigits, List.dropWhile_append_of_pos hdigits, hstop.1, hstop.2,
    List.append_nil]
  simp only [hvalue]
  rw [if_neg]
  · rfl
  · have hone : (Nat.toDigits 10 n).head? = some '0' → (Nat.toDigits 10 n).length ≤ 1 := by
      intro hzero
      simp only [hzero, bne_self_eq_false, Bool.false_or, beq_iff_eq] at hlead
      exact Nat.le_of_eq hlead
    have hnot : ¬3 < (Nat.toDigits 10 n).length := Nat.not_lt.2 (of_decide_eq_true hlength)
    simp_all

/-- An octet has eight bits. -/
theorem octet_lt (a : Ipv4) (i : Nat) : a.octet i < 256 := Nat.mod_lt _ (by decide)

/-- An address is put together from its octets. -/
theorem ofOctets_octet (a : Ipv4) :
    ofOctets (UInt8.ofNat (a.octet 3)) (UInt8.ofNat (a.octet 2)) (UInt8.ofNat (a.octet 1))
      (UInt8.ofNat (a.octet 0)) = a := by
  have hoctet (i : Nat) : (UInt8.ofNat (a.octet i)).toNat = a.octet i :=
    UInt8.toNat_ofNat_of_lt' (a.octet_lt i)
  have hbits : a.bits.toNat < 2 ^ 32 := a.bits.toNat_lt
  have hsum : ((a.octet 3 * 256 + a.octet 2) * 256 + a.octet 1) * 256 + a.octet 0 =
      a.bits.toNat := by
    simp only [octet, Nat.shiftRight_eq_div_pow]
    omega
  rw [ofOctets, hoctet, hoctet, hoctet, hoctet, hsum, UInt32.ofNat_toNat]

/-- The text of an address spells it. -/
theorem ofText?_text (a : Ipv4) : ofText? a.text = some a := by
  have hend (s : List Char) : EndsDigits ('.' :: s) := by
    rintro _ ⟨⟩
    decide
  have hstop : EndsDigits [] := by simp [EndsDigits]
  have hchars : a.text.toList = (toString (a.octet 3)).toList ++ '.' ::
      ((toString (a.octet 2)).toList ++ '.' :: ((toString (a.octet 1)).toList ++ '.' ::
        ((toString (a.octet 0)).toList ++ []))) := by
    have hdot : (toString ".").toList = ['.'] := rfl
    simp [text, hdot]
  rw [ofText?, hchars, scan]
  simp only [scanOctet_toString (a.octet_lt _) (hend _), scanOctet_toString (a.octet_lt 0) hstop,
    scanChar, Option.bind_eq_bind, Option.bind_some, if_true, ofOctets_octet]

end VmNode.Ipv4
