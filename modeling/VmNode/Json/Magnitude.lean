/-!
# Magnitudes of numbers

How large a number with a fraction or an exponent may be. Of its digits only the
first ones are kept, as many as a number of 64 bits holds (`keep`). What is kept and
the power of ten that belongs to it are each rounded to a floating-point number of
53 bits (`rounded`), and their product must round to one as well (`isTooLarge`).
-/

namespace VmNode.Magnitude

/-- Puts digits behind a number as long as it has 64 bits, and gives the digits
    that are left over. -/
def keep (n : Nat) : List Nat → Nat × List Nat
  | [] => (n, [])
  | d :: rest => if 10 * n + d < UInt64.size then keep (10 * n + d) rest else (n, d :: rest)

/-- What is kept of the digits before and after the point, and the power of ten that
    belongs to it. Digits before the point that are not kept count as zeros; those
    after it do not count. -/
def scientific (whole fraction : List Nat) (exponent : Int) : Nat × Int :=
  let (n, dropped) := keep 0 whole
  let (n, unread) := keep n fraction
  (n, exponent + dropped.length - (fraction.length - unread.length : Nat))

/-- The multiple of a power of two with 53 bits that is nearest to a number; of two
    that are, the one with the even factor. -/
def rounded (n : Nat) : Nat :=
  let unit := 1 <<< (n.log2 + 1 - 53)
  let factor := n / unit
  let rest := n % unit
  if unit < 2 * rest ∨ (unit = 2 * rest ∧ factor % 2 = 1) then (factor + 1) * unit
  else factor * unit

/-- The least number that rounds to no floating-point number: half a unit above the
    greatest. -/
def bound : Nat := (1 <<< 54 - 1) <<< 970

/-- The largest power of ten that is a floating-point number. -/
def maxScale : Int := 308

/-- Whether a number of 64 bits times a power of ten is too large. Dividing makes no
    number too large. -/
def isTooLarge (n : Nat) (scale : Int) : Bool :=
  n ≠ 0 && 0 ≤ scale && (maxScale < scale || bound ≤ rounded n * rounded (Nat.pow 10 scale.toNat))

end VmNode.Magnitude
