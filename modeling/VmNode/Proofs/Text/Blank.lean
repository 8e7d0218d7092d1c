import Mathlib.Data.List.TakeWhile
import VmNode.Text.Blank

/-!
# Trimmed texts

A trimmed text begins and ends with a character that is not blank (`IsTrimmed`). Trimming makes
a text so (`isTrimmed_trimChars`), and changes no text that is (`trimChars_of_isTrimmed`).
Nothing is left of a text of blanks, and of no other one (`trimChars_eq_nil_iff`).
-/

namespace VmNode.Text

/-- Neither the first nor the last character is blank. -/
def IsTrimmed (s : List Char) : Prop :=
  (∀ c, s.head? = some c → isBlank c = false) ∧ ∀ c, s.getLast? = some c → isBlank c = false

/-- Without the blanks at its start, a text does not begin with one. -/
theorem head?_dropWhile_isBlank (s : List Char) {c : Char}
    (h : (s.dropWhile isBlank).head? = some c) : isBlank c = false := by
  induction s with
  | nil => simp at h
  | cons d r ih =>
    by_cases hd : isBlank d
    · exact ih (by simpa [List.dropWhile_cons, hd] using h)
    · have : d = c := by simpa [List.dropWhile_cons, hd] using h
      simpa [this] using hd

/-- A text that begins with no blank keeps its beginning. -/
theorem dropWhile_isBlank_of_head {s : List Char}
    (h : ∀ c, s.head? = some c → isBlank c = false) : s.dropWhile isBlank = s := by
  cases s with
  | nil => rfl
  | cons c r => simp [h c rfl]

/-- What is left without the blanks at the end is the beginning of the text. -/
theorem trimEndChars_isPrefix (s : List Char) : trimEndChars s <+: s := by
  have : s.reverse.dropWhile isBlank <:+ s.reverse := List.dropWhile_suffix _
  simpa [trimEndChars] using List.reverse_prefix.2 this

/-- What is left after trimming is trimmed. -/
theorem isTrimmed_trimChars (s : List Char) : IsTrimmed (trimChars s) := by
  constructor
  · intro c hc
    -- what is left begins as the text does without the blanks at its start
    obtain ⟨t, ht⟩ := trimEndChars_isPrefix (s.dropWhile isBlank)
    refine head?_dropWhile_isBlank s (c := c) ?_
    rw [← ht]
    rw [trimChars] at hc
    cases hl : trimEndChars (s.dropWhile isBlank) with
    | nil => rw [hl] at hc; simp at hc
    | cons d r => rw [hl] at hc; simpa using hc
  · intro c hc
    rw [trimChars, trimEndChars, List.getLast?_reverse] at hc
    exact head?_dropWhile_isBlank _ hc

/-- Trimming changes no text that is trimmed. -/
theorem trimChars_of_isTrimmed {s : List Char} (h : IsTrimmed s) : trimChars s = s := by
  rw [trimChars, dropWhile_isBlank_of_head h.1, trimEndChars,
    dropWhile_isBlank_of_head (fun c hc => h.2 c (by simpa [List.head?_reverse] using hc)),
    List.reverse_reverse]

/-- Nothing is left exactly of blanks. -/
theorem trimEndChars_eq_nil_iff {s : List Char} :
    trimEndChars s = [] ↔ ∀ c ∈ s, isBlank c = true := by
  simp [trimEndChars]

/-- Nothing is left of blanks, and of nothing else. -/
theorem trimChars_eq_nil_iff {s : List Char} : trimChars s = [] ↔ ∀ c ∈ s, isBlank c = true := by
  rw [trimChars, trimEndChars_eq_nil_iff]
  constructor
  · intro h
    -- what is left of the blanks at the start would begin with another character
    rw [← List.dropWhile_eq_nil_iff]
    cases hrest : s.dropWhile isBlank with
    | nil => rfl
    | cons c rest =>
      have hblank := h c (by rw [hrest]; exact List.mem_cons_self ..)
      rw [head?_dropWhile_isBlank s (by rw [hrest]; rfl)] at hblank
      cases hblank
  · exact fun h c hc => h c ((List.dropWhile_suffix _).subset hc)

end VmNode.Text
