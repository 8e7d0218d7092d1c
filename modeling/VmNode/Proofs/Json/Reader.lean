import VmNode.Json.Text
import VmNode.Proofs.Json.Scan

/-!
# The text of a value

The two layouts of a value's text differ in their blanks only (`Json.write`). Whatever the
blanks are, the text is read as the document of the value and nothing is left of it
(`Doc.ofBytes_write`), as long as a reader can tell its integers from other numbers
(`Json.IsReadable`). The induction is on the value, with the bytes that follow it kept open.
-/

namespace VmNode

/-- Where a writer puts blanks. -/
structure Gaps where
  /-- Before what stands at a depth. -/
  line : Nat → List Char
  /-- After the colon of a member. -/
  colon : List Char
  /-- Nothing but blanks and line feeds stands there. -/
  blank_line : ∀ depth, ∀ c ∈ line depth, c = ' ' ∨ c = '\n'
  /-- Nothing but blanks and line feeds stands there. -/
  blank_colon : ∀ c ∈ colon, c = ' ' ∨ c = '\n'

namespace Json

mutual

/-- The text of a value at a depth, with some blanks. -/
def write (g : Gaps) (depth : Nat) : Json → List Char
  | .null => "null".toList
  | .bool true => "true".toList
  | .bool false => "false".toList
  | .int n => writeInt n
  | .str s => quote s
  | .arr [] => ['[', ']']
  | .arr (v :: rest) =>
    '[' :: (g.line (depth + 1) ++ write g (depth + 1) v ++ writeItems g depth rest)
  | .obj [] => ['{', '}']
  | .obj ((k, v) :: rest) =>
    '{' :: (g.line (depth + 1) ++ quote k ++ ':' :: (g.colon ++ write g (depth + 1) v) ++
      writeMembers g depth rest)

/-- The items after the first, with the closing bracket. -/
def writeItems (g : Gaps) (depth : Nat) : List Json → List Char
  | [] => g.line depth ++ [']']
  | v :: rest =>
    ',' :: (g.line (depth + 1) ++ write g (depth + 1) v ++ writeItems g depth rest)

/-- The members after the first, with the closing brace. -/
def writeMembers (g : Gaps) (depth : Nat) : List (String × Json) → List Char
  | [] => g.line depth ++ ['}']
  | (k, v) :: rest =>
    ',' :: (g.line (depth + 1) ++ quote k ++ ':' :: (g.colon ++ write g (depth + 1) v) ++
      writeMembers g depth rest)

end

/-- No blanks. -/
def noGaps : Gaps := ⟨fun _ => [], [], nofun, nofun⟩

/-- A line for each item and member, and a blank after each colon. -/
def lineGaps : Gaps where
  line := newline
  colon := [' ']
  blank_line _ _ h := (List.mem_cons.1 h).symm.imp_left List.eq_of_mem_replicate
  blank_colon _ h := .inl (List.mem_singleton.1 h)

@[simp] theorem line_noGaps (depth : Nat) : noGaps.line depth = [] := rfl

@[simp] theorem colon_noGaps : noGaps.colon = [] := rfl

@[simp] theorem line_lineGaps (depth : Nat) : lineGaps.line depth = newline depth := rfl

@[simp] theorem colon_lineGaps : lineGaps.colon = [' '] := rfl

mutual

/-- Without blanks, the text of a value is the compact one. -/
theorem write_noGaps (depth : Nat) : ∀ v : Json, write noGaps depth v = compactChars v
  | .null | .bool true | .bool false | .int _ | .str _ | .arr [] | .obj [] => rfl
  | .arr (v :: rest) => by
    simp [write, compactChars, write_noGaps (depth + 1) v, writeItems_noGaps depth rest]
  | .obj ((k, v) :: rest) => by
    simp [write, compactChars, write_noGaps (depth + 1) v, writeMembers_noGaps depth rest]

/-- Without gaps, the items of a list are written as in compact text. -/
theorem writeItems_noGaps (depth : Nat) :
    ∀ l : List Json, writeItems noGaps depth l = compactItems l
  | [] => rfl
  | v :: rest => by
    simp [writeItems, compactItems, write_noGaps (depth + 1) v, writeItems_noGaps depth rest]

/-- So are members. -/
theorem writeMembers_noGaps (depth : Nat) :
    ∀ l : List (String × Json), writeMembers noGaps depth l = compactMembers l
  | [] => rfl
  | (k, v) :: rest => by
    simp [writeMembers, compactMembers, write_noGaps (depth + 1) v,
      writeMembers_noGaps depth rest]

end

mutual

/-- With a line for each item, the text of a value is the pretty one. -/
theorem write_lineGaps (depth : Nat) : ∀ v : Json, write lineGaps depth v = prettyChars depth v
  | .null | .bool true | .bool false | .int _ | .str _ | .arr [] | .obj [] => rfl
  | .arr (v :: rest) => by
    simp [write, prettyChars, write_lineGaps (depth + 1) v, writeItems_lineGaps depth rest]
  | .obj ((k, v) :: rest) => by
    simp [write, prettyChars, write_lineGaps (depth + 1) v, writeMembers_lineGaps depth rest]

/-- With lines for gaps, they are written as in pretty text. -/
theorem writeItems_lineGaps (depth : Nat) :
    ∀ l : List Json, writeItems lineGaps depth l = prettyItems depth l
  | [] => rfl
  | v :: rest => by
    simp [writeItems, prettyItems, write_lineGaps (depth + 1) v, writeItems_lineGaps depth rest]

/-- So are members. -/
theorem writeMembers_lineGaps (depth : Nat) :
    ∀ l : List (String × Json), writeMembers lineGaps depth l = prettyMembers depth l
  | [] => rfl
  | (k, v) :: rest => by
    simp [writeMembers, prettyMembers, write_lineGaps (depth + 1) v,
      writeMembers_lineGaps depth rest]

end

/-! ### Values that can be read -/

mutual

/-- Whether a reader tells all integers of a value from other numbers. -/
def isReadable : Json → Bool
  | .int n => decide (Int64.minValue.toInt ≤ n ∧ n < UInt64.size)
  | .arr items => areReadable items
  | .obj members => membersReadable members
  | _ => true

/-- Whether all items are readable. -/
def areReadable : List Json → Bool
  | [] => true
  | v :: rest => v.isReadable && areReadable rest

/-- Whether all members are readable. -/
def membersReadable : List (String × Json) → Bool
  | [] => true
  | (_, v) :: rest => v.isReadable && membersReadable rest

end

/-- Naturals of up to 64 bits are readable, hence those of all fields. -/
theorem isReadable_nat {n : Nat} (h : n < UInt64.size) : (nat n).isReadable = true := by
  have hmin : Int64.minValue.toInt ≤ 0 := by decide
  rw [nat, isReadable, decide_eq_true_eq]
  exact ⟨Int.le_trans hmin (Int.natCast_nonneg n), Int.ofNat_lt.2 h⟩

@[simp] theorem isReadable_uint8 (n : UInt8) : (nat n.toNat).isReadable = true :=
  isReadable_nat (Nat.lt_of_lt_of_le n.toNat_lt_size (by decide))

@[simp] theorem isReadable_uint16 (n : UInt16) : (nat n.toNat).isReadable = true :=
  isReadable_nat (Nat.lt_of_lt_of_le n.toNat_lt_size (by decide))

@[simp] theorem isReadable_uint32 (n : UInt32) : (nat n.toNat).isReadable = true :=
  isReadable_nat (Nat.lt_of_lt_of_le n.toNat_lt_size (by decide))

@[simp] theorem isReadable_uint64 (n : UInt64) : (nat n.toNat).isReadable = true :=
  isReadable_nat n.toNat_lt_size

/-- A value that may be missing is readable if it is whenever it is there. -/
theorem isReadable_option {α : Type} {g : α → Json} (h : ∀ a, (g a).isReadable = true)
    (a : Option α) : (option g a).isReadable = true := by
  cases a with
  | none => rfl
  | some a => exact h a

theorem isReadable_int64 (n : Int64) : (int n.toInt).isReadable = true := by
  have hmax : Int64.maxValue.toInt < UInt64.size := by decide
  rw [isReadable, decide_eq_true_eq]
  exact ⟨n.minValue_le_toInt, Int.lt_of_le_of_lt n.toInt_le hmax⟩

theorem isReadable_int32 (n : Int32) : (int n.toInt).isReadable = true := by
  have hmin : Int64.minValue.toInt ≤ Int32.minValue.toInt := by decide
  have hmax : Int32.maxValue.toInt < UInt64.size := by decide
  rw [isReadable, decide_eq_true_eq]
  exact ⟨Int.le_trans hmin n.minValue_le_toInt, Int.lt_of_le_of_lt n.toInt_le hmax⟩

/-- A list is readable if each of its items is. -/
theorem areReadable_map {α : Type} {g : α → Json} (h : ∀ a, (g a).isReadable = true)
    (l : List α) : areReadable (l.map g) = true := by
  induction l with
  | nil => rfl
  | cons a rest ih => rw [List.map_cons, areReadable, h, ih, Bool.and_self]

/-- An object is readable if the value of each member is. -/
theorem membersReadable_map {α : Type} {g : α → String × Json}
    (h : ∀ a, (g a).2.isReadable = true) (l : List α) :
    membersReadable (l.map g) = true := by
  induction l with
  | nil => rfl
  | cons a rest ih => rw [List.map_cons, membersReadable, h, ih, Bool.and_self]

end Json

namespace Doc

open Json (write writeItems writeMembers)

variable {g : Gaps} {depth fuel : Nat} {b : UInt8} {gap rest s : List UInt8} {d : Doc}

/-! ### Blanks -/

/-- Blanks are skipped, all of them. -/
theorem skipGap_append (h : ∀ b ∈ gap, isGap b = true) : skipGap (gap ++ s) = skipGap s :=
  List.dropWhile_append_of_pos h

/-- Where no blank stands, nothing is skipped. -/
theorem skipGap_cons (h : isGap b = false) : skipGap (b :: s) = b :: s := by
  rw [skipGap, List.dropWhile_cons, h]
  rfl

/-- What a layout puts between tokens is blank for the reader. -/
theorem isGap_of_mem_bytes {l : List Char} (h : ∀ c ∈ l, c = ' ' ∨ c = '\n')
    (hb : b ∈ bytes l) : isGap b = true := by
  obtain ⟨c, hc, hbc⟩ := List.mem_flatMap.1 hb
  rcases h c hc with rfl | rfl
  · rw [List.mem_singleton.1 hbc]
    rfl
  · rw [List.mem_singleton.1 hbc]
    rfl

theorem isGap_line (g : Gaps) (depth : Nat) : ∀ b ∈ bytes (g.line depth), isGap b = true :=
  fun _ => isGap_of_mem_bytes (g.blank_line depth)

theorem isGap_colon (g : Gaps) : ∀ b ∈ bytes g.colon, isGap b = true :=
  fun _ => isGap_of_mem_bytes g.blank_colon

/-- A value is the same with blanks before it. -/
theorem readValue_gap (h : ∀ b ∈ gap, isGap b = true) :
    readValue fuel (gap ++ s) = readValue fuel s := by
  cases fuel with
  | zero => simp only [readValue]
  | succ fuel => rw [readValue, readValue, skipGap_append h]

/-- So are the entries of an object. -/
theorem readEntries_gap (h : ∀ b ∈ gap, isGap b = true) :
    readEntries fuel (gap ++ s) = readEntries fuel s := by
  cases fuel with
  | zero => simp only [readEntries]
  | succ fuel => rw [readEntries, readEntries, skipGap_append h]

/-- Blanks end a number, and where there are none, what follows does. -/
theorem endsNumber_gap (h : ∀ b ∈ gap, isGap b = true) (hs : EndsNumber s) :
    EndsNumber (gap ++ s) := by
  cases gap with
  | nil => exact hs
  | cons b gap =>
    have hb := h b (List.mem_cons_self ..)
    simp only [isGap, Bool.or_eq_true, beq_iff_eq] at hb
    rcases hb with ((rfl | rfl) | rfl) | rfl <;> exact endsNumber_cons (by decide)

/-! ### Reading what was written -/

theorem bytes_openBracket (l : List Char) : bytes ('[' :: l) = 0x5b :: bytes l :=
  bytes_cons_of_lt l (by decide)

theorem bytes_closeBracket (l : List Char) : bytes (']' :: l) = 0x5d :: bytes l :=
  bytes_cons_of_lt l (by decide)

theorem bytes_openBrace (l : List Char) : bytes ('{' :: l) = 0x7b :: bytes l :=
  bytes_cons_of_lt l (by decide)

theorem bytes_closeBrace (l : List Char) : bytes ('}' :: l) = 0x7d :: bytes l :=
  bytes_cons_of_lt l (by decide)

theorem bytes_comma (l : List Char) : bytes (',' :: l) = 0x2c :: bytes l :=
  bytes_cons_of_lt l (by decide)

theorem bytes_colon (l : List Char) : bytes (':' :: l) = 0x3a :: bytes l :=
  bytes_cons_of_lt l (by decide)

theorem bytes_minus (l : List Char) : bytes ('-' :: l) = 0x2d :: bytes l :=
  bytes_cons_of_lt l (by decide)

/-- A quoted text begins and ends with a quote. -/
theorem bytes_quote (k : String) :
    bytes (Json.quote k) = 0x22 :: (bytes (k.toList.flatMap Json.escape) ++ [0x22]) := by
  rw [Json.quote, List.cons_append, bytes_cons_of_lt _ (by decide), bytes_append]
  rfl

theorem readValue_null :
    readValue (fuel + 1) (bytes "null".toList ++ rest) = (.null, some rest) := by
  rw [readValue]
  rfl

theorem readValue_true :
    readValue (fuel + 1) (bytes "true".toList ++ rest) = (.bool true, some rest) := by
  rw [readValue]
  rfl

theorem readValue_false :
    readValue (fuel + 1) (bytes "false".toList ++ rest) = (.bool false, some rest) := by
  rw [readValue]
  rfl

/-- A quoted text is read as the text. The reader may find that pieces spell none; those of the
    writer always do. -/
theorem readValue_quote (k : String) :
    readValue (fuel + 1) (bytes (Json.quote k) ++ rest) = (.text (some k), some rest) := by
  rw [readValue, bytes_quote]
  simp only [List.cons_append, skipGap_cons (show isGap 0x22 = false by decide), List.append_assoc]
  simp only [List.nil_append, scanText_quoted, textOf_piecesOf]

/-- A digit is none of the bytes that begin another value. -/
theorem ne_of_isDigit {c : UInt8} (h : isDigit b = true) (hc : isDigit c = false) : b ≠ c := by
  rintro rfl
  simp [hc] at h

theorem isGap_of_isDigit (h : isDigit b = true) : isGap b = false := by
  simp [isGap, ne_of_isDigit h (c := 0x20) (by decide), ne_of_isDigit h (c := 0x09) (by decide),
    ne_of_isDigit h (c := 0x0a) (by decide), ne_of_isDigit h (c := 0x0d) (by decide)]

/-- A value that no blank, quote, bracket or word begins is a number. -/
theorem readValue_number (hgap : isGap b = false)
    (hother : b ∉ [0x22, 0x5b, 0x7b, 0x6e, 0x74, 0x66])
    (hscan : (if b == ascii '-' then scanNumber true s else scanNumber false (b :: s))
      = some (d, rest)) :
    readValue (fuel + 1) (b :: s) = (d, some rest) := by
  rw [readValue, skipGap_cons hgap]
  split
  · contradiction
  -- the six bytes that begin a text, a list, an object or a word
  iterate 6 next heq => exact absurd hother (by simp [(List.cons.inj heq).1])
  · rename_i heq
    cases heq
    simp only [hscan]

/-- A value that begins with a digit is a number that is not negative. -/
theorem readValue_digit (h : isDigit b = true)
    (hscan : scanNumber false (b :: s) = some (d, rest)) :
    readValue (fuel + 1) (b :: s) = (d, some rest) := by
  have hother : [0x22, 0x5b, 0x7b, 0x6e, 0x74, 0x66].all (!isDigit ·) = true := by decide
  refine readValue_number (isGap_of_isDigit h) (fun hmem => ?_) ?_
  · have hb := List.all_eq_true.1 hother b hmem
    rw [h] at hb
    cases hb
  have hminus : (b == ascii '-') = false := by simpa using ne_of_isDigit h (by decide)
  simp only [hminus, hscan, Bool.false_eq_true, if_false]

/-- A value that begins with a minus is a negative number. -/
theorem readValue_minus (hscan : scanNumber true s = some (d, rest)) :
    readValue (fuel + 1) (0x2d :: s) = (d, some rest) :=
  readValue_number (by decide) (by decide) (by rwa [if_pos (by decide)])

/-- An integer is read as itself, if what follows ends it. -/
theorem readValue_int {n : Int} (h : (Json.int n).isReadable = true) (hrest : EndsNumber rest) :
    readValue (fuel + 1) (bytes (Json.writeInt n) ++ rest) = (.int n, some rest) := by
  simp only [Json.isReadable, decide_eq_true_eq] at h
  cases n with
  | ofNat n =>
    have hread := scanNumber_digits false n hrest
    obtain ⟨b, l, hcons⟩ := List.exists_cons_of_ne_nil (bytes_digits_ne_nil n)
    have hdigit : isDigit b = true :=
      isDigit_of_mem_digits (n := n) (hcons ▸ List.mem_cons_self ..)
    rw [integerOf_digits (Int.ofNat_lt.1 h.2), hcons, List.cons_append] at hread
    rw [Json.writeInt, hcons, List.cons_append, readValue_digit hdigit hread]
    rfl
  -- a negative number is a minus and the digits of its size
  | negSucc n =>
    have hread := scanNumber_digits true (n + 1) hrest
    rw [integerOf_neg_digits (Nat.succ_pos n) h.1] at hread
    rw [Json.writeInt, bytes_minus, List.cons_append, readValue_minus hread]
    rfl

/-- The text of a value begins with neither a blank nor a closing bracket. -/
theorem exists_bytes_write (g : Gaps) (depth : Nat) (v : Json) :
    ∃ b l, bytes (write g depth v) = b :: l ∧ isGap b = false ∧ b ≠ 0x5d := by
  cases v with
  | null => exact ⟨0x6e, _, rfl, by decide, by decide⟩
  | bool b =>
    cases b with
    | true => exact ⟨0x74, _, rfl, by decide, by decide⟩
    | false => exact ⟨0x66, _, rfl, by decide, by decide⟩
  | int n =>
    cases n with
    | ofNat n =>
      obtain ⟨b, l, hcons⟩ := List.exists_cons_of_ne_nil (bytes_digits_ne_nil n)
      have hdigit : isDigit b = true :=
        isDigit_of_mem_digits (n := n) (hcons ▸ List.mem_cons_self ..)
      exact ⟨b, l, by simpa only [write, Json.writeInt] using hcons, isGap_of_isDigit hdigit,
        ne_of_isDigit hdigit (by decide)⟩
    | negSucc n => exact ⟨0x2d, _, bytes_minus _, by decide, by decide⟩
  | str s => exact ⟨0x22, _, bytes_quote s, by decide, by decide⟩
  | arr items =>
    cases items with
    | nil => exact ⟨0x5b, _, rfl, by decide, by decide⟩
    | cons v rest => exact ⟨0x5b, _, bytes_openBracket _, by decide, by decide⟩
  | obj members =>
    cases members with
    | nil => exact ⟨0x7b, _, rfl, by decide, by decide⟩
    | cons m rest => exact ⟨0x7b, _, bytes_openBrace _, by decide, by decide⟩

/-- What follows an item in a list ends a number: a comma, or a bracket after blanks. -/
theorem endsNumber_writeItems (g : Gaps) (depth : Nat) (items : List Json) (rest : List UInt8) :
    EndsNumber (bytes (writeItems g depth items) ++ rest) := by
  cases items with
  | nil =>
    rw [writeItems, bytes_append, bytes_closeBracket, List.append_assoc]
    exact endsNumber_gap (isGap_line g depth) (endsNumber_cons (by decide))
  | cons v items =>
    rw [writeItems, bytes_comma]
    exact endsNumber_cons (by decide)

/-- What follows a member in an object ends a number. -/
theorem endsNumber_writeMembers (g : Gaps) (depth : Nat) (members : List (String × Json))
    (rest : List UInt8) :
    EndsNumber (bytes (writeMembers g depth members) ++ rest) := by
  cases members with
  | nil =>
    rw [writeMembers, bytes_append, bytes_closeBrace, List.append_assoc]
    exact endsNumber_gap (isGap_line g depth) (endsNumber_cons (by decide))
  | cons m members =>
    rw [writeMembers, bytes_comma]
    exact endsNumber_cons (by decide)

/-- The last entry of an object. -/
theorem readEntries_last {after : List UInt8} (k : String)
    (hvalue : readValue fuel s = (d, some after)) (hafter : skipGap after = 0x7d :: rest) :
    readEntries (fuel + 1) (bytes (Json.quote k) ++ 0x3a :: s) =
      (.cons (some k) d .done, some rest) := by
  rw [readEntries, bytes_quote]
  simp only [List.cons_append, List.append_assoc, List.nil_append,
    skipGap_cons (show isGap 0x22 = false by decide), scanText_quoted, textOf_piecesOf,
    skipGap_cons (show isGap 0x3a = false by decide), hvalue, hafter]

/-- An entry of an object after which others follow. -/
theorem readEntries_next {after : List UInt8} {entries : Entries} {left : Option (List UInt8)}
    (k : String) (hvalue : readValue fuel s = (d, some after))
    (hafter : skipGap after = 0x2c :: rest) (hentries : readEntries fuel rest = (entries, left)) :
    readEntries (fuel + 1) (bytes (Json.quote k) ++ 0x3a :: s) =
      (.cons (some k) d entries, left) := by
  rw [readEntries, bytes_quote]
  simp only [List.cons_append, List.append_assoc, List.nil_append,
    skipGap_cons (show isGap 0x22 = false by decide), scanText_quoted, textOf_piecesOf,
    skipGap_cons (show isGap 0x3a = false by decide), hvalue, hafter, hentries]

mutual

/-- The text of a value is read as its document, whatever follows that does not go on with a
    number. -/
theorem readValue_write (g : Gaps) (depth : Nat) : ∀ (v : Json) (fuel : Nat) (rest : List UInt8),
    v.isReadable = true → EndsNumber rest → 2 * (bytes (write g depth v)).length ≤ fuel →
    readValue fuel (bytes (write g depth v) ++ rest) = (ofJson v, some rest)
  | v, 0, rest, _, _, hfuel => by
    -- a text is not empty, so there is fuel
    obtain ⟨b, l, hcons, -⟩ := exists_bytes_write g depth v
    simp [hcons] at hfuel
  | .null, fuel + 1, rest, _, _, _ => by
    rw [write, readValue_null, ofJson]
  | .bool true, fuel + 1, rest, _, _, _ => by
    rw [write, readValue_true, ofJson]
  | .bool false, fuel + 1, rest, _, _, _ => by
    rw [write, readValue_false, ofJson]
  | .int n, fuel + 1, rest, hread, hrest, _ => by
    rw [write, readValue_int hread hrest, ofJson]
  | .str s, fuel + 1, rest, _, _, _ => by
    rw [write, readValue_quote, ofJson]
  | .arr [], fuel + 1, rest, _, _, _ => by
    rw [write, readValue, ofJson, itemsOf]
    rfl
  | .arr (v :: items), fuel + 1, rest, hread, _, hfuel => by
    -- the first item is read by itself, and the others after it
    simp only [Json.isReadable, Json.areReadable, Bool.and_eq_true] at hread
    simp only [write, bytes_openBracket, bytes_append, List.length_cons, List.length_append]
      at hfuel
    obtain ⟨b, l, hcons, hgap, hclose⟩ := exists_bytes_write g (depth + 1) v
    obtain ⟨fuel, rfl⟩ : ∃ n, fuel = n + 1 := ⟨fuel - 1, by omega⟩
    have hitems := readItems_write g depth items fuel (ofJson v) _ rest hread.2
      (readValue_write g (depth + 1) v fuel _ hread.1 (endsNumber_writeItems g depth items rest)
        (by omega))
      (by omega)
    rw [write, bytes_openBracket, List.cons_append, readValue,
      skipGap_cons (show isGap 0x5b = false by decide)]
    simp only [bytes_append, List.append_assoc, skipGap_append (isGap_line g (depth + 1))]
    rw [hcons, List.cons_append, skipGap_cons hgap, ← List.cons_append, ← hcons]
    -- an item does not begin with the bracket that closes the list
    split
    · rename_i heq
      rw [hcons, List.cons_append] at heq
      exact absurd (List.cons.inj heq).1 hclose
    · rw [hitems, ofJson, itemsOf]
  | .obj [], fuel + 1, rest, _, _, _ => by
    rw [write, readValue, ofJson, entriesOf]
    rfl
  | .obj ((k, v) :: members), fuel + 1, rest, hread, _, hfuel => by
    -- the first name is read by itself, and the other members after its value
    simp only [Json.isReadable, Json.membersReadable, Bool.and_eq_true] at hread
    simp only [write, bytes_openBrace, bytes_append, bytes_colon, List.length_cons,
      List.length_append] at hfuel
    obtain ⟨fuel, rfl⟩ : ∃ n, fuel = n + 1 := ⟨fuel - 1, by omega⟩
    have hvalue := readValue_write g (depth + 1) v fuel _ hread.1
      (endsNumber_writeMembers g depth members rest) (by omega)
    rw [← readValue_gap (isGap_colon g)] at hvalue
    have hentries := readEntries_write g depth members fuel k (ofJson v) _ rest hread.2 hvalue
      (by omega)
    rw [write, bytes_openBrace, List.cons_append, readValue,
      skipGap_cons (show isGap 0x7b = false by decide)]
    simp only [bytes_append, bytes_colon, List.append_assoc, List.cons_append,
      skipGap_append (isGap_line g (depth + 1))]
    rw [bytes_quote, List.cons_append, skipGap_cons (by decide)]
    simp only [bytes_quote, List.cons_append] at hentries
    rw [ofJson, entriesOf]
    exact congrArg (fun r => (Doc.obj r.1, r.2)) hentries

/-- The items of a list are read, the first of which was read before. -/
theorem readItems_write (g : Gaps) (depth : Nat) :
    ∀ (items : List Json) (fuel : Nat) (d : Doc) (s rest : List UInt8),
    Json.areReadable items = true →
    readValue fuel s = (d, some (bytes (writeItems g depth items) ++ rest)) →
    2 * (bytes (writeItems g depth items)).length ≤ fuel →
    readItems (fuel + 1) s = (.cons d (itemsOf items), some rest)
  -- the closing bracket follows
  | [], fuel, d, s, rest, _, hs, _ => by
    rw [readItems, hs]
    simp only [writeItems, bytes_append, bytes_closeBracket, List.append_assoc,
      skipGap_append (isGap_line g depth), List.cons_append,
      skipGap_cons (show isGap 0x5d = false by decide), itemsOf]
    rfl
  -- a comma follows, and the fuel for it is there since the text has a byte for it
  | v :: items, fuel, d, s, rest, hread, hs, hfuel => by
    simp only [Json.areReadable, Bool.and_eq_true] at hread
    simp only [writeItems, bytes_comma, bytes_append, List.length_cons, List.length_append]
      at hfuel
    obtain ⟨fuel, rfl⟩ : ∃ n, fuel = n + 1 := ⟨fuel - 1, by omega⟩
    have hvalue := readValue_write g (depth + 1) v fuel _ hread.1
      (endsNumber_writeItems g depth items rest) (by omega)
    rw [← readValue_gap (isGap_line g (depth + 1))] at hvalue
    have hitems := readItems_write g depth items fuel (ofJson v) _ rest hread.2 hvalue (by omega)
    rw [readItems, hs]
    simp only [writeItems, bytes_append, bytes_comma, List.append_assoc, List.cons_append,
      skipGap_cons (show isGap 0x2c = false by decide), hitems, itemsOf]

/-- The entries of an object are read, the value of the first of which was read before. -/
theorem readEntries_write (g : Gaps) (depth : Nat) :
    ∀ (members : List (String × Json)) (fuel : Nat) (k : String) (d : Doc) (s rest : List UInt8),
    Json.membersReadable members = true →
    readValue fuel s = (d, some (bytes (writeMembers g depth members) ++ rest)) →
    2 * (bytes (writeMembers g depth members)).length ≤ fuel →
    readEntries (fuel + 1) (bytes (Json.quote k) ++ 0x3a :: s) =
      (.cons (some k) d (entriesOf members), some rest)
  -- the closing brace follows
  | [], fuel, k, d, s, rest, _, hs, _ => by
    refine readEntries_last k hs ?_
    rw [writeMembers, bytes_append, bytes_closeBrace, List.append_assoc,
      skipGap_append (isGap_line g depth)]
    exact skipGap_cons (by decide)
  | (k', v) :: members, fuel, k, d, s, rest, hread, hs, hfuel => by
    simp only [Json.membersReadable, Bool.and_eq_true] at hread
    simp only [writeMembers, bytes_comma, bytes_colon, bytes_append, List.length_cons,
      List.length_append] at hfuel
    obtain ⟨fuel, rfl⟩ : ∃ n, fuel = n + 1 := ⟨fuel - 1, by omega⟩
    have hvalue := readValue_write g (depth + 1) v fuel _ hread.1
      (endsNumber_writeMembers g depth members rest) (by omega)
    rw [← readValue_gap (isGap_colon g)] at hvalue
    have hentries := readEntries_write g depth members fuel k' (ofJson v) _ rest hread.2 hvalue
      (by omega)
    rw [← readEntries_gap (isGap_line g (depth + 1))] at hentries
    refine readEntries_next k hs ?_ hentries
    simp only [writeMembers, bytes_append, bytes_comma, bytes_colon, List.append_assoc,
      List.cons_append, skipGap_cons (show isGap 0x2c = false by decide)]

end

/-- The text of a value is read as its document, and nothing is left. -/
theorem ofBytes_write (g : Gaps) {v : Json} (h : v.isReadable = true) :
    ofBytes (bytes (write g 0 v)) = (ofJson v, some []) := by
  have hread := readValue_write g 0 v (2 * (bytes (write g 0 v)).length + 1) [] h endsNumber_nil
    (Nat.le_succ _)
  rwa [List.append_nil] at hread

/-- A text is read as a document, with nothing but blanks after it. -/
def ReadsAs (text : String) (d : Doc) : Prop :=
  ∃ rest, ofBytes (Text.Utf8.encode text) = (d, some rest) ∧ skipGap rest = []

/-- To decode a text is to decode the document that it is read as. -/
theorem ReadsAs.decodeText {α : Type} {text : String} (h : ReadsAs text d) (f : Decoder α) :
    decodeText f text = f d := by
  obtain ⟨rest, hread, hrest⟩ := h
  simp only [Doc.decodeText, decodeBytes, hread, hrest]
  cases f d <;> rfl

/-- The compact text of a readable value is read as its document. -/
theorem readsAs_compact {v : Json} (h : v.isReadable = true) : ReadsAs v.compact (ofJson v) := by
  refine ⟨[], ?_, rfl⟩
  rw [Json.compact, encode_ofList, ← Json.write_noGaps 0, ofBytes_write _ h]

/-- So is the pretty text. -/
theorem readsAs_pretty {v : Json} (h : v.isReadable = true) : ReadsAs v.pretty (ofJson v) := by
  refine ⟨[], ?_, rfl⟩
  rw [Json.pretty, encode_ofList, ← Json.write_lineGaps, ofBytes_write _ h]

end Doc

end VmNode
