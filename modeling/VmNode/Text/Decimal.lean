/-!
# Decimal digits

Natural numbers written with decimal digits, without leading zeros, and read
back.
-/

namespace VmNode.Text.Decimal

/-- The character of a digit. -/
def digitChar (d : Nat) : Char := Char.ofNat ('0'.toNat + d)

/-- The digits of a number, most significant first. -/
def digits (n : Nat) : List Char :=
  if n < 10 then [digitChar n] else digits (n / 10) ++ [digitChar (n % 10)]
termination_by n
decreasing_by omega

/-- The value of a digit. -/
def digitValue? (c : Char) : Option Nat :=
  if '0' ≤ c ∧ c ≤ '9' then some (c.toNat - '0'.toNat) else none

/-- The number that the digits spell after those already read. -/
def readFrom? (acc : Nat) : List Char → Option Nat
  | [] => some acc
  | c :: rest => (digitValue? c).bind fun d => readFrom? (10 * acc + d) rest

/-- The number that one digit or more spell. -/
def ofDigits? : List Char → Option Nat
  | [] => none
  | c :: rest => readFrom? 0 (c :: rest)

end VmNode.Text.Decimal
