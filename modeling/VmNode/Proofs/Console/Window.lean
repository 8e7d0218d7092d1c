import Mathlib.Data.List.Basic
import VmNode.Console.Channel

/-!
# What a buffer holds

Records leave a buffer one by one as others come in. What is left over is what one would keep
with all of the past at hand: the most of the last records that the bounds admit, or the last
record alone if the bounds do not even admit that (`Bounds.Newest`). `newest_evict` says so of
the records that the buffer has and the one that comes in, and `Bounds.Newest.concat` of all
records that ever came in.

The counter of bytes is that of the records that are left, so it is never too small for a
record that leaves (`evict?_eq_some`).
-/

namespace VmNode.Console

/-- The bytes of text in some records. -/
def payload : List LogRecord → Nat
  | [] => 0
  | r :: rest => r.payloadLen + payload rest

@[simp] theorem payload_nil : payload [] = 0 := rfl

@[simp] theorem payload_cons (r : LogRecord) (l : List LogRecord) :
    payload (r :: l) = r.payloadLen + payload l := rfl

/-- Payloads add up. -/
@[simp] theorem payload_append (l m : List LogRecord) :
    payload (l ++ m) = payload l + payload m := by
  induction l with
  | nil => exact (Nat.zero_add _).symm
  | cons r rest ih => rw [List.cons_append, payload_cons, payload_cons, ih, Nat.add_assoc]

/-! ### Bounds -/

namespace Bounds

variable {b : Bounds} {history l m kept : List LogRecord} {r : LogRecord}

/-- The records are within the bounds. -/
def Admits (b : Bounds) (l : List LogRecord) : Prop := l.length ≤ b.lines ∧ payload l ≤ b.bytes

instance (b : Bounds) (l : List LogRecord) : Decidable (b.Admits l) := instDecidableAnd

/-- Bounds that admit some records admit the first of them. -/
theorem Admits.of_append (h : b.Admits (l ++ m)) : b.Admits l := by
  obtain ⟨hlines, hbytes⟩ := h
  rw [List.length_append] at hlines
  rw [payload_append] at hbytes
  exact ⟨by omega, by omega⟩

/-- Of all records the most of the last that the bounds admit, or the last record alone if the
    bounds do not admit it. -/
structure Newest (b : Bounds) (history kept : List LogRecord) : Prop where
  /-- They are the last records. -/
  isSuffix : kept <:+ history
  /-- Unless there are none, the last one is kept. -/
  ne_nil : history ≠ [] → kept ≠ []
  /-- The records that are kept are within the bounds, unless there is only one and it is not. -/
  fits : b.Admits kept ∨ ∃ r, kept = [r] ∧ ¬ b.Admits [r]
  /-- No other last records within the bounds are more. -/
  most : ∀ l, l <:+ history → l ≠ [] → b.Admits l → l.length ≤ kept.length

/-- What the bounds admit is kept. -/
theorem Newest.of_admits (h : b.Admits l) : b.Newest l l :=
  ⟨List.suffix_rfl, id, .inl h, fun _ hm _ _ => hm.length_le⟩

/-- The last record is kept. -/
theorem Newest.singleton (b : Bounds) (r : LogRecord) : b.Newest [r] [r] := by
  refine ⟨List.suffix_rfl, id, ?_, fun _ hm _ _ => hm.length_le⟩
  by_cases h : b.Admits [r]
  · exact .inl h
  · exact .inr ⟨r, rfl, h⟩

/-- The oldest record is not kept if the bounds do not admit all. -/
theorem Newest.cons (h : b.Newest l kept) (hl : l ≠ []) (hr : ¬ b.Admits (r :: l)) :
    b.Newest (r :: l) kept := by
  refine ⟨h.isSuffix.trans (List.suffix_cons r l), fun _ => h.ne_nil hl, h.fits,
    fun m hm hne hadmits => ?_⟩
  rcases List.suffix_cons_iff.1 hm with rfl | hm
  · exact absurd hadmits hr
  · exact h.most m hm hne hadmits

/-- With one more record, what is to be kept is found among that and what was kept so far. -/
theorem Newest.concat {kept' : List LogRecord} (h : b.Newest history kept)
    (h' : b.Newest (kept ++ [r]) kept') : b.Newest (history ++ [r]) kept' := by
  have hsuffix : kept ++ [r] <:+ history ++ [r] := by
    obtain ⟨older, rfl⟩ := h.isSuffix
    exact ⟨older, (List.append_assoc ..).symm⟩
  refine ⟨h'.isSuffix.trans hsuffix, fun _ => h'.ne_nil (by simp), h'.fits,
    fun l hl hne hadmits => ?_⟩
  -- the last records without the new one were admitted before, so they are among those kept
  obtain ⟨older, hold⟩ := hl
  obtain rfl | ⟨init, last, rfl⟩ := List.eq_nil_or_concat' l
  · exact absurd rfl hne
  · rw [← List.append_assoc] at hold
    obtain ⟨hinit, hlast⟩ := List.append_inj' hold rfl
    obtain rfl := List.singleton_inj.1 hlast
    have hinit : init <:+ history := ⟨older, hinit⟩
    have hfits : init.length ≤ kept.length := by
      by_cases hnil : init = []
      · simp [hnil]
      · exact h.most init hinit hnil hadmits.of_append
    have hkept : init <:+ kept := List.suffix_of_suffix_length_le hinit h.isSuffix hfits
    obtain ⟨rest, rfl⟩ := hkept
    exact h'.most _ ⟨rest, (List.append_assoc ..).symm⟩ (by simp) hadmits

end Bounds

/-! ### Leaving records out -/

namespace Channel

variable {b : Bounds} {bytes : Nat} {l : List LogRecord}

/-- The bounds do not admit records that are too many or too long. -/
theorem not_admits_iff {r s : LogRecord} {rest : List LogRecord} :
    ¬ b.Admits (r :: s :: rest) ↔
      b.lines < rest.length + 2 ∨ b.bytes < payload (r :: s :: rest) := by
  rw [Bounds.Admits, not_and_or, Nat.not_le, Nat.not_le]
  rfl

/-- What is left over is to be kept, and the counter is that of what is left over. -/
theorem newest_evict (h : bytes = payload l) :
    b.Newest l (evict b bytes l).2 ∧ (evict b bytes l).1 = payload (evict b bytes l).2 := by
  fun_induction evict b bytes l with
  | case1 => exact ⟨.of_admits ⟨Nat.zero_le _, Nat.zero_le _⟩, h⟩
  | case2 bytes r => exact ⟨.singleton b r, h⟩
  | case3 bytes r s rest hout ih =>
    obtain ⟨hnewest, hbytes⟩ := ih (by rw [h, payload_cons, Nat.add_sub_cancel_left])
    rw [h, ← not_admits_iff] at hout
    exact ⟨hnewest.cons (List.cons_ne_nil _ _) hout, hbytes⟩
  | case4 bytes r s rest hin =>
    rw [h, ← not_admits_iff, not_not] at hin
    exact ⟨.of_admits hin, h⟩

/-- Leaves records out like `evict`, and fails when the counter is too small for a record that
    leaves. -/
def evict? (b : Bounds) (bytes : Nat) : List LogRecord → Option (Nat × List LogRecord)
  | [] => some (bytes, [])
  | [r] => some (bytes, [r])
  | r :: s :: rest =>
    if b.lines < rest.length + 2 ∨ b.bytes < bytes then
      if r.payloadLen ≤ bytes then evict? b (bytes - r.payloadLen) (s :: rest) else none
    else some (bytes, r :: s :: rest)

/-- The counter is never too small. -/
theorem evict?_eq_some (h : bytes = payload l) : evict? b bytes l = some (evict b bytes l) := by
  fun_induction evict b bytes l with
  | case1 => rfl
  | case2 => rfl
  | case3 bytes r s rest hout ih =>
    have hle : r.payloadLen ≤ bytes := by
      rw [h, payload_cons]
      exact Nat.le_add_right ..
    rw [evict?, if_pos hout, if_pos hle]
    exact ih (by rw [h, payload_cons, Nat.add_sub_cancel_left])
  | case4 bytes r s rest hin => rw [evict?, if_neg hin]

end Channel

end VmNode.Console
