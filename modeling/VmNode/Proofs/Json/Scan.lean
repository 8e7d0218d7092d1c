import Mathlib.Data.List.TakeDrop
import VmNode.Json.Printer
import VmNode.Json.Reader
import VmNode.Proofs.Text.Utf8

/-!
# Reading texts and numbers

What the writer puts between quotes is read as the text that it was written for, whatever its
characters are (`Doc.scanText_quoted`), and the digits of an integer are read as the integer if
what follows does not go on with the number (`Doc.scanNumber_digits`).
-/

namespace VmNode.Doc

variable {b e : UInt8} {c : Char} {acc : List Piece} {rest : List UInt8}

/-- The bytes of characters. -/
def bytes (l : List Char) : List UInt8 := l.flatMap String.utf8EncodeChar

@[simp] theorem bytes_nil : bytes [] = [] := rfl

@[simp] theorem bytes_append (l m : List Char) : bytes (l ++ m) = bytes l ++ bytes m :=
  List.flatMap_append

theorem bytes_cons (c : Char) (l : List Char) :
    bytes (c :: l) = String.utf8EncodeChar c ++ bytes l := rfl

/-- A character of ASCII is one byte, so the bytes of a text that begins with it can be matched on.
    -/
theorem bytes_cons_of_lt (l : List Char) (h : c.toNat < 0x80) :
    bytes (c :: l) = ascii c :: bytes l := by
  rw [bytes_cons, Text.Utf8.utf8EncodeChar_of_lt h]
  rfl

/-- Encoding a text is taking the bytes of its characters: the reader works on the former, the
    writer's lemmas on the latter. -/
theorem encode_ofList (l : List Char) : Text.Utf8.encode (String.ofList l) = bytes l :=
  Text.Utf8.encode_ofList l

/-! ### Texts -/

/-- A byte that stands for itself between quotes. -/
def IsPlain (b : UInt8) : Prop := b ≠ 0x22 ∧ b ≠ 0x5c ∧ 0x20 ≤ b

/-- A byte that stands for itself is one more piece. -/
theorem scanText_plain (h : IsPlain b) :
    scanText acc (b :: rest) = scanText (.byte b :: acc) rest := by
  obtain ⟨hquote, hslash, hblank⟩ := h
  rw [scanText]
  · simp [hslash, UInt8.not_lt.2 hblank]
  · exact hquote
  · exact fun _ _ _ _ _ heq => absurd heq hslash
  · exact fun _ _ heq => absurd heq hslash

/-- So are any number of them. The pieces are collected in reverse. -/
theorem scanText_plains {l : List UInt8} (h : ∀ b ∈ l, IsPlain b) :
    scanText acc (l ++ rest) = scanText ((l.map .byte).reverse ++ acc) rest := by
  induction l generalizing acc with
  | nil => rfl
  | cons b l ih =>
    rw [List.cons_append, scanText_plain (h b (List.mem_cons_self ..)),
      ih fun b hb => h b (List.mem_cons_of_mem _ hb)]
    simp

/-- A short escape is read as the byte that it names. -/
theorem scanText_short (hu : b ≠ 0x75) (h : shortEscape? b = some e) :
    scanText acc (0x5c :: b :: rest) = scanText (.byte e :: acc) rest := by
  rw [scanText]
  · rw [h, Option.bind_some]
  · exact fun _ _ _ _ _ heq => absurd heq hu

/-- The pieces that a character between quotes is read as. -/
def piecesOf (c : Char) : List Piece :=
  if c.toNat < 32 ∧ c.toNat ∉ [8, 9, 10, 12, 13] then [.unit c.toNat]
  else (String.utf8EncodeChar c).map .byte

/-- The digits that the writer uses are those that the reader knows. -/
theorem hexValue?_hexDigit : ∀ n < 16, hexValue? (ascii (Json.hexDigit n)) = some n := by
  decide

theorem hexDigit_lt : ∀ n < 16, (Json.hexDigit n).toNat < 0x80 := by
  decide

/-- The bytes of a character that is written as it is stand for themselves. -/
theorem isPlain_of_mem_utf8EncodeChar (hquote : c ≠ '"') (hslash : c ≠ '\\')
    (hblank : 32 ≤ c.toNat) (hb : b ∈ String.utf8EncodeChar c) : IsPlain b := by
  rcases Nat.lt_or_ge c.toNat 0x80 with hlt | hge
  · rw [Text.Utf8.utf8EncodeChar_of_lt hlt, List.mem_singleton] at hb
    have hnat : b.toNat = c.toNat := by
      rw [hb]
      exact UInt8.toNat_ofNat_of_lt' (by show _ < 256; omega)
    refine ⟨fun h => hquote ?_, fun h => hslash ?_, UInt8.le_iff_toNat_le.2 (by rwa [hnat])⟩
    · exact Char.toNat_inj.1 (by rw [← hnat, h]; rfl)
    · exact Char.toNat_inj.1 (by rw [← hnat, h]; rfl)
  · have hle := Text.Utf8.le_of_mem_utf8EncodeChar hge hb
    refine ⟨?_, ?_, UInt8.le_trans (by decide) hle⟩
    · rintro rfl
      exact absurd hle (by decide)
    · rintro rfl
      exact absurd hle (by decide)

/-- A control character without a letter of its own is written by its number, and read as a unit
    with that number. -/
theorem scanText_numbered (h : c.toNat < 32) :
    scanText acc (bytes ['\\', 'u', '0', '0', Json.hexDigit (c.toNat / 16),
      Json.hexDigit (c.toNat % 16)] ++ rest) = scanText (.unit c.toNat :: acc) rest := by
  have hhigh : c.toNat / 16 < 16 := by omega
  have hlow : c.toNat % 16 < 16 := by omega
  -- the four digits are `00` and the two halves of the number
  have hvalue : ((0 * 16 + 0) * 16 + c.toNat / 16) * 16 + c.toNat % 16 = c.toNat := by omega
  simp only [bytes_cons_of_lt, hexDigit_lt, hhigh, hlow, bytes_nil, List.cons_append,
    List.nil_append, show '\\'.toNat < 0x80 by decide, show 'u'.toNat < 0x80 by decide,
    show '0'.toNat < 0x80 by decide]
  show scanText acc (0x5c :: 0x75 :: ascii '0' :: ascii '0' :: _) = _
  rw [scanText, hexValue?_hexDigit _ hhigh, hexValue?_hexDigit _ hlow]
  show scanText (.unit (((0 * 16 + 0) * 16 + _) * 16 + _) :: acc) rest = _
  rw [hvalue]

/-- A character that is written by a letter is read as the byte that the letter stands for. -/
theorem scanText_lettered {n : Nat} {letter : Char} (hc : c.toNat = n)
    (hletter : letter.toNat < 0x80 ∧ ascii letter ≠ 0x75)
    (hbyte : shortEscape? (ascii letter) = some n.toUInt8)
    (hpieces : piecesOf (Char.ofNat n) = [.byte n.toUInt8]) :
    scanText acc (bytes ['\\', letter] ++ rest) =
      scanText ((piecesOf c).reverse ++ acc) rest := by
  rw [← Char.ofNat_toNat c, hc, hpieces, bytes_cons_of_lt _ (by decide),
    bytes_cons_of_lt _ hletter.1]
  exact scanText_short hletter.2 hbyte

/-- What a character is written as is read as its pieces. -/
theorem scanText_escape (c : Char) :
    scanText acc (bytes (Json.escape c) ++ rest) =
      scanText ((piecesOf c).reverse ++ acc) rest := by
  rw [Json.escape]
  split
  · -- the quote, the backslash, and then the control characters: five with letters, the others by
    -- number
    exact scanText_lettered (n := 34) (by simp [*]) (by decide) (by decide) rfl
  split
  · exact scanText_lettered (n := 92) (by simp [*]) (by decide) (by decide) rfl
  split
  · rename_i hblank
    split
    · exact scanText_lettered ‹_› (by decide) (by decide) rfl
    · exact scanText_lettered ‹_› (by decide) (by decide) rfl
    · exact scanText_lettered ‹_› (by decide) (by decide) rfl
    · exact scanText_lettered ‹_› (by decide) (by decide) rfl
    · exact scanText_lettered ‹_› (by decide) (by decide) rfl
    · have hother : c.toNat ∉ [8, 9, 10, 12, 13] := by simp_all
      rw [scanText_numbered hblank, piecesOf, if_pos ⟨hblank, hother⟩]
      rfl
  · -- everything else stands for itself, whatever number of bytes it has
    rename_i hquote hslash hblank
    rw [piecesOf, if_neg fun h => hblank h.1, bytes_cons, bytes_nil, List.append_nil]
    exact scanText_plains fun b hb =>
      isPlain_of_mem_utf8EncodeChar hquote hslash (Nat.not_lt.1 hblank) hb

/-- Pieces that are bytes go into the text as they are. -/
theorem assemble_bytes (l : List UInt8) (pieces : List Piece) :
    assemble (l.map .byte ++ pieces) = (assemble pieces).map (l ++ ·) := by
  induction l with
  | nil => simp
  | cons b l ih =>
    rw [List.map_cons, List.cons_append, assemble, ih, Option.map_map]
    rfl

/-- The pieces of a character spell it. -/
theorem assemble_piecesOf (c : Char) (pieces : List Piece) :
    assemble (piecesOf c ++ pieces) = (assemble pieces).map (String.utf8EncodeChar c ++ ·) := by
  rw [piecesOf]
  split
  · rename_i h
    rw [List.singleton_append, assemble.eq_def]
    simp only
    -- a control character is below the numbers that make pairs
    rw [if_neg (by omega), if_neg (by omega), Char.ofNat_toNat, Text.Utf8.encode_singleton]
  · exact assemble_bytes _ _

/-- The pieces of a text spell the text. -/
theorem textOf_piecesOf (s : String) : textOf (s.toList.flatMap piecesOf) = some s := by
  have hassemble (l : List Char) : assemble (l.flatMap piecesOf) = some (bytes l) := by
    induction l with
    | nil => rfl
    | cons c l ih => rw [List.flatMap_cons, assemble_piecesOf, ih, bytes_cons, Option.map_some]
  rw [textOf, hassemble, Option.bind_some, bytes, ← Text.Utf8.encode_eq_flatMap,
    Text.Utf8.decode?_encode]

/-- What is written between quotes is read as the text that it was written for. -/
theorem scanText_quoted (s : String) (rest : List UInt8) :
    scanText [] (bytes (s.toList.flatMap Json.escape) ++ 0x22 :: rest) =
      some (s.toList.flatMap piecesOf, rest) := by
  have hscan (l : List Char) (acc : List Piece) :
      scanText acc (bytes (l.flatMap Json.escape) ++ 0x22 :: rest) =
        some (acc.reverse ++ l.flatMap piecesOf, rest) := by
    induction l generalizing acc with
    | nil => simp [scanText]
    | cons c l ih => simp [scanText_escape, ih]
  exact hscan s.toList []

/-! ### Numbers -/

open Text.Decimal (digits digitChar)

theorem toNat_digitChar : ∀ d < 10, (digitChar d).toNat < 0x80 := by decide

theorem isDigit_digitChar : ∀ d < 10, isDigit (ascii (digitChar d)) = true := by decide

theorem value_digitChar : ∀ d < 10, (ascii (digitChar d)).toNat - 48 = d := by decide

theorem eq_zero_of_digitChar : ∀ d < 10, ascii (digitChar d) = ascii '0' → d = 0 := by decide

/-- The digits of a number are those of its tenth part and one more, in bytes. -/
theorem bytes_digits (n : Nat) :
    bytes (digits n) =
      (if n < 10 then [] else bytes (digits (n / 10))) ++ [ascii (digitChar (n % 10))] := by
  rw [digits]
  split
  · rename_i h
    rw [Nat.mod_eq_of_lt h, bytes_cons_of_lt _ (toNat_digitChar n h)]
    rfl
  · rw [bytes_append, bytes_cons_of_lt _ (toNat_digitChar _ (Nat.mod_lt _ (by decide)))]
    rfl

theorem bytes_digits_ne_nil (n : Nat) : bytes (digits n) ≠ [] := by
  simp [bytes_digits n]

/-- Nothing but digits is written for a number. -/
theorem isDigit_of_mem_digits {n : Nat} (h : b ∈ bytes (digits n)) : isDigit b = true := by
  induction n using Nat.strongRecOn with
  | _ n ih =>
    rw [bytes_digits, List.mem_append, List.mem_singleton] at h
    rcases h with h | rfl
    · split at h
      · contradiction
      · exact ih (n / 10) (by omega) h
    · exact isDigit_digitChar _ (Nat.mod_lt _ (by decide))

/-- The digits of a number spell it. -/
theorem digitsValue_digits (n : Nat) : digitsValue (bytes (digits n)) = n := by
  induction n using Nat.strongRecOn with
  | _ n ih =>
    have hlast := value_digitChar (n % 10) (Nat.mod_lt _ (by decide))
    rw [bytes_digits]
    split
    · simp only [digitsValue, digitValues, List.nil_append, List.map_cons, List.map_nil,
        List.foldl_cons, List.foldl_nil, hlast]
      omega
    · have hfirst := ih (n / 10) (by omega)
      simp only [digitsValue, digitValues] at hfirst
      simp only [digitsValue, digitValues, List.map_append, List.foldl_append, hfirst,
        List.map_cons, List.map_nil, List.foldl_cons, List.foldl_nil, hlast]
      omega

/-- Only zero is written with a leading zero. -/
theorem eq_zero_of_head?_digits {n : Nat} (h : (bytes (digits n)).head? = some (ascii '0')) :
    n = 0 := by
  induction n using Nat.strongRecOn with
  | _ n ih =>
    rw [bytes_digits] at h
    split at h
    · rename_i hlt
      have hzero := eq_zero_of_digitChar (n % 10) (by omega) (Option.some.inj h)
      omega
    · -- the first digit is that of the tenth part, which is not zero here
      obtain ⟨first, rest, hcons⟩ := List.exists_cons_of_ne_nil (bytes_digits_ne_nil (n / 10))
      have := ih (n / 10) (by omega) (by simpa [hcons] using h)
      omega

/-- Bytes that do not go on with a number. -/
def EndsNumber (s : List UInt8) : Prop :=
  ∀ b ∈ s.head?, isDigit b = false ∧ b ≠ 0x2e ∧ b ≠ 0x65 ∧ b ≠ 0x45

theorem endsNumber_nil : EndsNumber [] := nofun

/-- A number ends where no digit, point or exponent follows. -/
theorem endsNumber_cons (h : isDigit b = false ∧ b ≠ 0x2e ∧ b ≠ 0x65 ∧ b ≠ 0x45) :
    EndsNumber (b :: rest) := by
  rintro _ ⟨⟩
  exact h

/-- The digits before what ends a number are all that the reader takes. -/
theorem span_digits {l : List UInt8} (h : ∀ b ∈ l, isDigit b = true) (hrest : EndsNumber rest) :
    (l ++ rest).span isDigit = (l, rest) := by
  have hstop : rest.takeWhile isDigit = [] ∧ rest.dropWhile isDigit = rest := by
    cases rest with
    | nil => exact ⟨rfl, rfl⟩
    | cons b rest => simp [(hrest b rfl).1]
  rw [List.span_eq_takeWhile_dropWhile, List.takeWhile_append_of_pos h,
    List.dropWhile_append_of_pos h, hstop.1, hstop.2, List.append_nil]

/-- The digits of a number are read as the integer that they spell. -/
theorem scanNumber_digits (negative : Bool) (n : Nat) (hrest : EndsNumber rest) :
    scanNumber negative (bytes (digits n) ++ rest) =
      some (integerOf negative (bytes (digits n)), rest) := by
  -- the reader refuses no digits at all, and zeros in front
  have hlead : ¬((bytes (digits n)).isEmpty || ((bytes (digits n)).head? == some (ascii '0') &&
      decide (1 < (bytes (digits n)).length))) = true := by
    simp only [Bool.or_eq_true, List.isEmpty_iff, bytes_digits_ne_nil, Bool.and_eq_true, beq_iff_eq,
      decide_eq_true_eq, false_or, not_and, Nat.not_lt]
    intro h
    rw [eq_zero_of_head?_digits h, bytes_digits]
    exact Nat.le_refl 1
  simp only [scanNumber, span_digits (fun _ => isDigit_of_mem_digits) hrest, if_neg hlead]
  cases rest with
  | nil => rfl
  | cons b rest =>
    obtain ⟨-, hpoint, hlower, hupper⟩ := hrest b rfl
    split
    · rename_i heq
      exact absurd (List.cons.inj heq).1 hpoint
    · simp only [Option.bind_some]
      split
      · rename_i heq
        exact absurd (List.cons.inj heq).1 hlower
      · rename_i heq
        exact absurd (List.cons.inj heq).1 hupper
      · rfl

/-- A number of 64 bits is read as an integer, and not as a number with a fraction. -/
theorem integerOf_digits {n : Nat} (h : n < UInt64.size) :
    integerOf false (bytes (digits n)) = .int n := by
  rw [integerOf, digitsValue_digits]
  exact if_pos h

/-- So is a negative number that 64 bits can hold. -/
theorem integerOf_neg_digits {n : Nat} (hpos : 0 < n) (h : Int64.minValue.toInt ≤ -(n : Int)) :
    integerOf true (bytes (digits n)) = .int (-n) := by
  simp only [integerOf, digitsValue_digits, hpos, h, if_true, and_self]

end VmNode.Doc
