/-!
# Bytes as text

Reading bytes as UTF-8. A strict reading (`Utf8.decode?`) refuses ill-formed
bytes; a lenient one (`Utf8.decodeLossy`) replaces each longest ill-formed piece
that begins a character by U+FFFD.
-/

namespace VmNode.Text.Utf8

/-- The bytes of a text. -/
def encode (s : String) : List UInt8 := s.toUTF8.data.toList

/-- The text that the bytes spell, if they are well formed. -/
def decode? (bytes : List UInt8) : Option String := String.fromUTF8? ⟨bytes.toArray⟩

/-- A byte that continues a character. -/
def isTail (b : UInt8) : Bool := 0x80 ≤ b && b ≤ 0xbf

/-- The six bits that a continuing byte carries. -/
def tailBits (b : UInt8) : Nat := b.toNat % 64

/-- The second bytes that may follow the lead byte of three. -/
def secondOfThree (lead second : UInt8) : Bool :=
  if lead == 0xe0 then 0xa0 ≤ second && second ≤ 0xbf
  else if lead == 0xed then 0x80 ≤ second && second ≤ 0x9f
  else isTail second

/-- The second bytes that may follow the lead byte of four. -/
def secondOfFour (lead second : UInt8) : Bool :=
  if lead == 0xf0 then 0x90 ≤ second && second ≤ 0xbf
  else if lead == 0xf4 then 0x80 ≤ second && second ≤ 0x8f
  else isTail second

/-- The character that begins with byte `b`, or none if the piece is ill-formed,
    with the bytes after it. -/
def next (b : UInt8) (rest : List UInt8) : Option Char × List UInt8 :=
  if b < 0x80 then (some (Char.ofNat b.toNat), rest)
  else if 0xc2 ≤ b && b ≤ 0xdf then
    match rest with
    | c :: r =>
      if isTail c then (some (Char.ofNat (b.toNat % 32 * 64 + tailBits c)), r) else (none, rest)
    | [] => (none, [])
  else if 0xe0 ≤ b && b ≤ 0xef then
    match rest with
    | c :: d :: r =>
      if secondOfThree b c then
        if isTail d then
          (some (Char.ofNat ((b.toNat % 16 * 64 + tailBits c) * 64 + tailBits d)), r)
        else (none, d :: r)
      else (none, rest)
    | [c] => if secondOfThree b c then (none, []) else (none, [c])
    | [] => (none, [])
  else if 0xf0 ≤ b && b ≤ 0xf4 then
    match rest with
    | c :: d :: e :: r =>
      if secondOfFour b c then
        if isTail d then
          if isTail e then
            (some (Char.ofNat
              (((b.toNat % 8 * 64 + tailBits c) * 64 + tailBits d) * 64 + tailBits e)), r)
          else (none, e :: r)
        else (none, d :: e :: r)
      else (none, rest)
    | [c, d] =>
      if secondOfFour b c then if isTail d then (none, []) else (none, [d]) else (none, rest)
    | [c] => if secondOfFour b c then (none, []) else (none, [c])
    | [] => (none, [])
  else (none, rest)

theorem length_next_le (b : UInt8) (rest : List UInt8) : (next b rest).2.length ≤ rest.length := by
  unfold next
  repeat' split
  all_goals simp
  all_goals omega

/-- The characters of the bytes, with U+FFFD for each ill-formed piece. -/
def decodeLossy : List UInt8 → List Char
  | [] => []
  | b :: rest => (next b rest).1.getD '\ufffd' :: decodeLossy (next b rest).2
termination_by bytes => bytes.length
decreasing_by exact Nat.lt_succ_of_le (length_next_le b rest)

/-- The text of the bytes, with U+FFFD for each ill-formed piece. -/
def lossy (bytes : List UInt8) : String := String.ofList (decodeLossy bytes)

end VmNode.Text.Utf8
