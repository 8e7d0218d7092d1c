import Mathlib.Order.Bounds.Basic
import VmNode.Console.Truncate

/-!
# Cutting messages

A message that is too long is cut at the last boundary between two characters that leaves room
for the mark. Whoever has the bytes of the message only looks for it from behind, one byte after
the other (`boundary?`). The search ends at the latest at the start of the message, and it ends
where the characters do that fit (`boundary?_fitting`).

* `isGreatest_fitting`: the characters that fit end at the greatest boundary in reach.
* `cutToFit_truncate`: what becomes of any message under any limit, also under one that the mark
  is too long for.
-/

namespace VmNode.Console

variable {max room n k : Nat} {l m : List Char} {s : String}

/-! ### Bytes -/

/-- Texts that follow each other have the bytes of both. -/
theorem byteLength_append (l m : List Char) :
    byteLength (l ++ m) = byteLength l + byteLength m := by
  induction l with
  | nil => exact (Nat.zero_add _).symm
  | cons c l ih => rw [List.cons_append, byteLength, byteLength, ih, Nat.add_assoc]

/-- Fewer characters have fewer bytes. -/
theorem byteLength_le_of_sublist (h : l.Sublist m) : byteLength l ≤ byteLength m := by
  induction h with
  | slnil => exact Nat.le_refl _
  | cons c _ ih => exact ih.trans (Nat.le_add_left ..)
  | cons_cons c _ ih => exact Nat.add_le_add_left ih _

/-- The bytes of a text are those of its characters. -/
theorem byteLength_ofList (l : List Char) : (String.ofList l).utf8ByteSize = byteLength l := by
  induction l with
  | nil => rfl
  | cons c l ih =>
    rw [String.ofList_cons, String.utf8ByteSize_append, String.utf8ByteSize_singleton, ih,
      byteLength]

/-- The length that is counted is that of the encoding. -/
theorem byteLength_toList (s : String) : byteLength s.toList = s.utf8ByteSize := by
  rw [← byteLength_ofList, String.ofList_toList]

/-! ### Boundaries -/

/-- Whether a character ends after so many bytes of a text, or the text begins there. -/
abbrev IsBoundary (s : String) (n : Nat) : Prop := (⟨n⟩ : String.Pos.Raw).IsValid s

/-- The boundary that is found first by going back from a byte, if the text does not begin
    before one is found. -/
def boundary? (s : String) : Nat → Option Nat
  | 0 => if IsBoundary s 0 then some 0 else none
  | n + 1 => if IsBoundary s (n + 1) then some (n + 1) else boundary? s n

/-- A boundary divides a text in two. -/
theorem isBoundary_iff : IsBoundary s n ↔ ∃ p q, p ++ q = s ∧ p.utf8ByteSize = n := by
  refine String.Pos.Raw.isValid_iff_exists_append.trans ⟨?_, ?_⟩
  · rintro ⟨p, q, rfl, hn⟩
    exact ⟨p, q, rfl, (congrArg String.Pos.Raw.byteIdx hn).symm⟩
  · rintro ⟨p, q, rfl, rfl⟩
    exact ⟨p, q, rfl, rfl⟩

/-- What is found is the greatest boundary that there is up to the byte. -/
theorem boundary?_of_isGreatest (h : IsGreatest {i | i ≤ n ∧ IsBoundary s i} k) :
    boundary? s n = some k := by
  induction n with
  | zero =>
    obtain rfl := Nat.le_zero.1 h.1.1
    exact if_pos h.1.2
  | succ n ih =>
    rw [boundary?]
    by_cases hn : IsBoundary s (n + 1)
    · rw [if_pos hn, Nat.le_antisymm h.1.1 (h.2 ⟨Nat.le_refl _, hn⟩)]
    · -- the byte is no boundary, so the greatest one is before it
      have hk : k ≤ n := Nat.le_of_lt_succ (h.1.1.lt_of_ne fun heq => hn (heq ▸ h.1.2))
      rw [if_neg hn]
      exact ih ⟨⟨hk, h.1.2⟩, fun i hi => h.2 ⟨Nat.le_succ_of_le hi.1, hi.2⟩⟩

/-! ### What fits -/

/-- What fits is the beginning of the text. -/
theorem fitting_isPrefix (room : Nat) (s : List Char) : fitting room s <+: s := by
  induction s generalizing room with
  | nil => exact List.prefix_refl _
  | cons c rest ih =>
    rw [fitting]
    split
    · exact List.prefix_cons_inj c |>.2 (ih _)
    · exact List.nil_prefix

/-- What fits has no more bytes than there is room for. -/
theorem byteLength_fitting_le (room : Nat) (s : List Char) :
    byteLength (fitting room s) ≤ room := by
  induction s generalizing room with
  | nil => simp [fitting, byteLength]
  | cons c rest ih =>
    rw [fitting]
    split
    · have := ih (room - c.utf8Size)
      rw [byteLength]
      omega
    · simp [byteLength]

/-- Every other start that has as few bytes is a start of what fits. -/
theorem isPrefix_fitting (h : l <+: m) (hroom : byteLength l ≤ room) : l <+: fitting room m := by
  induction l generalizing m room with
  | nil => exact List.nil_prefix
  | cons c l ih =>
    obtain ⟨rest, rfl⟩ := h
    rw [byteLength] at hroom
    rw [List.cons_append, fitting, if_pos (by omega)]
    exact (List.prefix_cons_inj c).2 (ih (List.prefix_append l rest) (by omega))

/-- The start of a text that fits, and the rest of the text. -/
theorem exists_fitting_append (room : Nat) (s : String) :
    ∃ q, String.ofList (fitting room s.toList) ++ q = s := by
  obtain ⟨rest, hrest⟩ := fitting_isPrefix room s.toList
  exact ⟨String.ofList rest, by rw [← String.ofList_append, hrest, String.ofList_toList]⟩

/-- It ends at the last boundary that leaves no more than the room. -/
theorem isGreatest_fitting (room : Nat) (s : String) :
    IsGreatest {i | i ≤ room ∧ IsBoundary s i}
      (String.ofList (fitting room s.toList)).utf8ByteSize := by
  constructor
  · obtain ⟨q, hq⟩ := exists_fitting_append room s
    refine ⟨?_, isBoundary_iff.2 ⟨_, q, hq, rfl⟩⟩
    rw [byteLength_ofList]
    exact byteLength_fitting_le ..
  · rintro i ⟨hi, hbound⟩
    obtain ⟨p, q, rfl, rfl⟩ := isBoundary_iff.1 hbound
    have hstart : p.toList <+: fitting room (p ++ q).toList := by
      refine isPrefix_fitting ?_ ((byteLength_toList p).le.trans hi)
      rw [String.toList_append]
      exact List.prefix_append ..
    rw [byteLength_ofList, ← byteLength_toList p]
    exact byteLength_le_of_sublist hstart.sublist

/-- The search finds the end of what fits. -/
theorem boundary?_fitting (room : Nat) (s : String) :
    boundary? s room = some (String.ofList (fitting room s.toList)).utf8ByteSize :=
  boundary?_of_isGreatest (isGreatest_fitting room s)

/-! ### Messages -/

/-- A text that fits is left as it is. -/
theorem truncate_of_le (h : s.utf8ByteSize ≤ max) : truncate max s = s := if_pos h

/-- One that does not fit is cut so that the mark fits behind it. -/
theorem truncate_of_lt (h : max < s.utf8ByteSize) : truncate max s =
    String.ofList (fitting (max - truncationMark.utf8ByteSize) s.toList) ++ truncationMark :=
  if_neg (Nat.not_le.2 h)

/-- With its mark, a message that is cut is as long as allowed. -/
theorem utf8ByteSize_truncate_le (hmark : truncationMark.utf8ByteSize ≤ max) (s : String) :
    (truncate max s).utf8ByteSize ≤ max := by
  rw [truncate]
  split
  · assumption
  · have := byteLength_fitting_le (max - truncationMark.utf8ByteSize) s.toList
    rw [String.utf8ByteSize_append, byteLength_ofList]
    omega

/-- Cutting a message makes it no longer. -/
theorem utf8ByteSize_truncate_le_self (hmark : truncationMark.utf8ByteSize ≤ max) (s : String) :
    (truncate max s).utf8ByteSize ≤ s.utf8ByteSize := by
  by_cases h : s.utf8ByteSize ≤ max
  · rw [truncate, if_pos h]
  · exact (utf8ByteSize_truncate_le hmark s).trans (Nat.le_of_not_le h)

/-- Where nothing fits, the start is empty. -/
theorem fitting_zero (l : List Char) : fitting 0 l = [] := by
  cases l with
  | nil => rfl
  | cons c l => exact if_neg (Nat.not_le.2 c.utf8Size_pos)

/-- Under a limit that the mark is too long for, the mark alone is left. -/
theorem truncate_of_lt_mark (hmark : max < truncationMark.utf8ByteSize)
    (h : max < s.utf8ByteSize) : truncate max s = truncationMark := by
  rw [truncate_of_lt h, Nat.sub_eq_zero_of_le hmark.le, fitting_zero, String.ofList_nil,
    String.empty_append]

/-- Cutting a message that was cut changes nothing. -/
theorem truncate_truncate (max : Nat) (s : String) :
    truncate max (truncate max s) = truncate max s := by
  rcases Nat.lt_or_ge max s.utf8ByteSize with hlong | hshort
  · rcases Nat.lt_or_ge max truncationMark.utf8ByteSize with hmark | hmark
    · rw [truncate_of_lt_mark hmark hlong, truncate_of_lt_mark hmark hmark]
    · exact truncate_of_le (utf8ByteSize_truncate_le hmark s)
  · rw [truncate_of_le hshort, truncate_of_le hshort]

/-- What becomes of a message under a limit. -/
structure CutToFit (max : Nat) (s : String) : Prop where
  /-- The mark has twelve bytes. -/
  mark : truncationMark.utf8ByteSize = 12
  /-- A message within the limit stays as it is. -/
  short : s.utf8ByteSize ≤ max → truncate max s = s
  /-- Of a longer one a start is left, with the mark. The search for its end does not go back
      beyond the start of the message, and no boundary further on leaves room for the mark. -/
  long : max < s.utf8ByteSize → ∃ p q, p ++ q = s ∧ truncate max s = p ++ truncationMark ∧
    boundary? s (max - 12) = some p.utf8ByteSize ∧
      IsGreatest {i | i ≤ max - 12 ∧ IsBoundary s i} p.utf8ByteSize
  /-- The result is within a limit that has room for the mark. -/
  within : 12 ≤ max → (truncate max s).utf8ByteSize ≤ max
  /-- Cutting it again changes nothing. -/
  again : truncate max (truncate max s) = truncate max s

/-- A message is left alone, or cut at the last boundary that leaves room for the mark, whatever
    its characters are and however low the limit is. -/
theorem cutToFit_truncate (max : Nat) (s : String) : CutToFit max s where
  mark := rfl
  short := truncate_of_le
  long h := by
    obtain ⟨q, hq⟩ := exists_fitting_append (max - truncationMark.utf8ByteSize) s
    exact ⟨_, q, hq, truncate_of_lt h, boundary?_fitting _ s, isGreatest_fitting _ s⟩
  within h := utf8ByteSize_truncate_le h s
  again := truncate_truncate max s

/-- The cut goes back to before a character that does not fit as a whole. -/
example : truncate 15 "ééééééééé" = "é [truncated]" := by decide

end VmNode.Console
