import Mathlib.Algebra.BigOperators.Group.List.Basic
import Mathlib.Algebra.Order.Group.Multiset
import VmNode.Proofs.Table

/-!
# Tallies

Sums over the entries of a table, in any commutative monoid. A tally is how one
says that something is in exactly one place: what all places hold together is
compared as a whole, and a step that changes one entry changes the tally by what
that entry held before and holds afterwards.

* `Table.tally_add_of_agree`: two tables that differ at one key at most have tallies
  that differ by the entries of that key.
* `Table.mem_tally`: what is in a tally of multisets is in one of its entries.
* `Table.tally_le_one`: a tally in which one entry counts, once.
* `Table.IsNumbered`: tables whose keys are the numbers below their size, to which
  the next number can be added.
-/

namespace VmNode.Table

section Tally

variable {κ α M : Type} [Ord κ] [Std.TransOrd κ] [Std.LawfulEqOrd κ] [AddCommMonoid M]

/-- The sum of what `f` gives for each entry. -/
def tally (t : Table κ α) (f : κ → α → M) : M := (t.entries.map fun e => f e.1 e.2).sum

omit [Std.TransOrd κ] in
/-- The sum of a list is that without one key, and what stands at the key. -/
theorem sum_drop (f : κ → α → M) (k : κ) (l : List (κ × α)) :
    ((drop k l).map fun e => f e.1 e.2).sum + (lookup k l).elim 0 (f k) =
      (l.map fun e => f e.1 e.2).sum := by
  induction l with
  | nil => simp [drop, lookup]
  | cons x rest ih =>
    obtain ⟨j, b⟩ := x
    rw [drop, lookup]
    -- the key is not there, here, or in the rest
    split
    · simp
    · rename_i heq
      have hkj : k = j := Std.LawfulEqCmp.eq_of_compare heq
      subst hkj
      simp [add_comm]
    · simp only [List.map_cons, List.sum_cons, add_assoc, ih]

omit [Std.TransOrd κ] in
/-- The tally without one entry, and that entry. -/
theorem tally_erase (t : Table κ α) (k : κ) (f : κ → α → M) :
    (t.erase k).tally f + (t.find? k).elim 0 (f k) = t.tally f := sum_drop f k t.entries

/-- Two tables that differ at one key at most have tallies that differ by what
    stands there. -/
theorem tally_add_of_agree {t u : Table κ α} {k : κ} (h : ∀ j, j ≠ k → t.find? j = u.find? j)
    (f : κ → α → M) :
    u.tally f + (t.find? k).elim 0 (f k) = t.tally f + (u.find? k).elim 0 (f k) := by
  -- what is left without the key is the same table
  have hrest : u.erase k = t.erase k := ext_find? fun j => by
    by_cases hj : j = k
    · subst hj; simp
    · rw [find?_erase_of_ne _ hj, find?_erase_of_ne _ hj, h j hj]
  rw [← tally_erase u k f, ← tally_erase t k f, hrest]
  exact add_right_comm _ _ _

/-- A new entry adds what it gives. -/
theorem tally_insert_of_none {t : Table κ α} {k : κ} (h : t.find? k = none) (a : α)
    (f : κ → α → M) : (t.insert k a).tally f = t.tally f + f k a := by
  have := tally_add_of_agree (u := t.insert k a) (fun j hj => (find?_insert_of_ne t a hj).symm) f
  simpa [h] using this

/-- An entry that takes the place of another adds what it gives instead of what that gave. Nothing
    is subtracted, so this holds in any monoid. -/
theorem tally_insert_of_some {t : Table κ α} {k : κ} {a : α} (h : t.find? k = some a) (b : α)
    (f : κ → α → M) : (t.insert k b).tally f + f k a = t.tally f + f k b := by
  have := tally_add_of_agree (u := t.insert k b) (fun j hj => (find?_insert_of_ne t b hj).symm) f
  simpa [h] using this

/-- The same for an entry that is changed. -/
theorem tally_modify {t : Table κ α} {k : κ} {a : α} (h : t.find? k = some a) (g : α → α)
    (f : κ → α → M) : (t.modify k g).tally f + f k a = t.tally f + f k (g a) := by
  rw [modify, h]
  exact tally_insert_of_some h _ f

omit [Std.TransOrd κ] in
/-- An entry that is taken out takes with it what it gave. -/
theorem tally_erase_of_some {t : Table κ α} {k : κ} {a : α} (h : t.find? k = some a)
    (f : κ → α → M) : (t.erase k).tally f + f k a = t.tally f := by
  simpa [h] using tally_erase t k f

omit [Std.TransOrd κ] [Std.LawfulEqOrd κ] in
@[simp] theorem tally_empty (f : κ → α → M) : (empty : Table κ α).tally f = 0 := rfl

/-- Only the entries that are there count. -/
theorem tally_congr {t : Table κ α} {f g : κ → α → M}
    (h : ∀ k a, t.find? k = some a → f k a = g k a) : t.tally f = t.tally g := by
  unfold tally
  congr 1
  exact List.map_congr_left fun e he => h e.1 e.2 ((mem_entries_iff t).1 he)

/-- Where no entry gives anything, the tally is nothing. -/
theorem tally_eq_zero {t : Table κ α} {f : κ → α → M}
    (h : ∀ k a, t.find? k = some a → f k a = 0) : t.tally f = 0 := by
  rw [tally_congr h]
  exact List.sum_eq_zero (by simp)

omit [Std.TransOrd κ] [Std.LawfulEqOrd κ] in
/-- A tally may be counted in another way as a whole or entry by entry. -/
theorem map_tally {N : Type} [AddCommMonoid N] (g : M →+ N) (t : Table κ α) (f : κ → α → M) :
    g (t.tally f) = t.tally fun k a => g (f k a) := by
  simp [tally, map_list_sum, Function.comp_def]

end Tally

/-! ### Tallies of multisets -/

section Multiset

variable {κ α β : Type} [Ord κ] [Std.TransOrd κ] [Std.LawfulEqOrd κ]

/-- What is in a tally is in one of the entries. -/
theorem mem_tally {t : Table κ α} {f : κ → α → Multiset β} {x : β} :
    x ∈ t.tally f ↔ ∃ k a, t.find? k = some a ∧ x ∈ f k a := by
  -- on the list of entries, by induction; the table says which these are
  have hl : ∀ l : List (κ × α), x ∈ (l.map fun e => f e.1 e.2).sum ↔
      ∃ e ∈ l, x ∈ f e.1 e.2 := fun l => by
    induction l with
    | nil => simp
    | cons e l ih => simp [ih]
  rw [tally, hl]
  constructor
  · rintro ⟨⟨k, a⟩, he, hx⟩
    exact ⟨k, a, (mem_entries_iff t).1 he, hx⟩
  · rintro ⟨k, a, h, hx⟩
    exact ⟨(k, a), (mem_entries_iff t).2 h, hx⟩

omit [Std.TransOrd κ] in
/-- An entry is within the tally. -/
theorem le_tally {t : Table κ α} {k : κ} {a : α} (h : t.find? k = some a)
    (f : κ → α → Multiset β) : f k a ≤ t.tally f := by
  rw [← tally_erase_of_some h f]
  exact Multiset.le_add_left _ _

omit [Std.TransOrd κ] [Std.LawfulEqOrd κ] in
/-- The tally of the values as they are. -/
theorem tally_singleton (t : Table κ α) : (t.tally fun _ a => ({a} : Multiset α)) = ↑t.values := by
  rw [tally, values]
  induction t.entries with
  | nil => rfl
  | cons e l ih => rw [List.map_cons, List.sum_cons, ih, List.map_cons, ← Multiset.cons_coe,
      Multiset.singleton_add]

/-- Two entries are both within the tally. -/
theorem add_le_tally {t : Table κ α} {j k : κ} {a b : α} (hne : j ≠ k) (hj : t.find? j = some a)
    (hk : t.find? k = some b) (f : κ → α → Multiset β) : f j a + f k b ≤ t.tally f := by
  have hrest : (t.erase k).find? j = some a := by rw [find?_erase_of_ne _ hne, hj]
  rw [← tally_erase_of_some hk f]
  exact add_le_add (le_tally hrest f) le_rfl

end Multiset

/-! ### Tallies that count one thing -/

/-- A tally of numbers in which no two entries count, and none more than once, is one at
    most. -/
theorem tally_le_one {κ α : Type} [Ord κ] [Std.TransOrd κ] [Std.LawfulEqOrd κ] {t : Table κ α}
    {f : κ → α → Nat} (hone : ∀ k a, t.find? k = some a → f k a ≤ 1)
    (hsole : ∀ j k a b, j ≠ k → t.find? j = some a → t.find? k = some b → f j a = 0 ∨ f k b = 0) :
    t.tally f ≤ 1 := by
  by_cases hzero : ∀ k a, t.find? k = some a → f k a = 0
  · rw [tally_eq_zero hzero]
    exact Nat.zero_le 1
  · push Not at hzero
    obtain ⟨k, a, hk, hne⟩ := hzero
    -- without the entry that counts, nothing does
    have hrest : (t.erase k).tally f = 0 := tally_eq_zero fun j b hj => by
      by_cases hjk : j = k
      · simp [hjk] at hj
      · rw [find?_erase_of_ne _ hjk] at hj
        exact (hsole j k b a hjk hj hk).resolve_right hne
    rw [← tally_erase_of_some hk, hrest, Nat.zero_add]
    exact hone k a hk

/-! ### Entries after a change -/

section Changes

variable {κ α : Type} [Ord κ] [Std.TransOrd κ] [Std.LawfulEqOrd κ] {t : Table κ α} {j k : κ}
variable {a b : α}

/-- What is found after an entry was put in is that entry or was there before. -/
theorem find?_insert_eq_some (h : (t.insert k a).find? j = some b) :
    j = k ∧ b = a ∨ j ≠ k ∧ t.find? j = some b := by
  by_cases hj : j = k
  · subst hj
    rw [find?_insert_self, Option.some.injEq] at h
    exact .inl ⟨rfl, h.symm⟩
  · rw [find?_insert_of_ne _ _ hj] at h
    exact .inr ⟨hj, h⟩

/-- What is found after an entry was taken out was there before. -/
theorem find?_erase_eq_some (h : (t.erase k).find? j = some b) : j ≠ k ∧ t.find? j = some b := by
  by_cases hj : j = k
  · simp [hj] at h
  · exact ⟨hj, by rwa [find?_erase_of_ne _ hj] at h⟩

/-- An entry that is added and taken away again was never there. -/
theorem erase_insert_of_none (h : t.find? k = none) (a : α) : (t.insert k a).erase k = t :=
  ext_find? fun j => by
    by_cases hj : j = k
    · rw [hj, find?_erase_self, h]
    · rw [find?_erase_of_ne _ hj, find?_insert_of_ne _ _ hj]

/-- Of two entries with one key the later counts. -/
theorem insert_insert (t : Table κ α) (k : κ) (a b : α) :
    (t.insert k a).insert k b = t.insert k b :=
  ext_find? fun j => by
    by_cases hj : j = k
    · rw [hj, find?_insert_self, find?_insert_self]
    · rw [find?_insert_of_ne _ _ hj, find?_insert_of_ne _ _ hj, find?_insert_of_ne _ _ hj]

end Changes

/-! ### Keeping some of the entries -/

/-- An entry is found in the rest of a table if it is one that is kept. -/
theorem find?_filter {κ α : Type} [Ord κ] [Std.TransOrd κ] [Std.LawfulEqOrd κ] (t : Table κ α)
    (p : κ → α → Bool) (k : κ) : (t.filter p).find? k = (t.find? k).filter (p k) :=
  Option.ext fun a => by
    rw [← mem_entries_iff, filter, List.mem_filter, mem_entries_iff, Option.filter_eq_some_iff]

/-! ### Numbered tables -/

section Numbered

variable {α : Type}

/-- A new key makes the table one longer. -/
theorem length_put_of_none {κ : Type} [Ord κ] {k : κ} (a : α) {l : List (κ × α)}
    (h : lookup k l = none) : (put k a l).length = l.length + 1 := by
  induction l with
  | nil => rfl
  | cons x rest ih =>
    obtain ⟨j, b⟩ := x
    rw [lookup] at h
    rw [put]
    split at h <;> simp_all

/-- The keys are the numbers below the size. -/
def IsNumbered (t : Table Nat α) : Prop := ∀ n, (t.find? n).isSome ↔ n < t.size

/-- No numbers are below zero. -/
theorem isNumbered_empty : (empty : Table Nat α).IsNumbered := fun n => by
  simp [empty, find?, lookup, size]

/-- The size is the next number, which no key is yet. -/
theorem IsNumbered.find?_size {t : Table Nat α} (h : t.IsNumbered) : t.find? t.size = none := by
  have := h t.size
  simpa using this

/-- The next number can be added. -/
theorem IsNumbered.insert_size {t : Table Nat α} (h : t.IsNumbered) (a : α) :
    (t.insert t.size a).IsNumbered := fun n => by
  have hsize : (t.insert t.size a).size = t.size + 1 := length_put_of_none a h.find?_size
  rw [hsize]
  by_cases hn : n = t.size
  · subst hn; simp
  · rw [find?_insert_of_ne _ _ hn, h n]
    omega

/-- A key that is there does not. -/
theorem length_put_of_some {κ : Type} [Ord κ] {k : κ} (a : α) {l : List (κ × α)}
    (h : (lookup k l).isSome) : (put k a l).length = l.length := by
  induction l with
  | nil => simp [lookup] at h
  | cons x rest ih =>
    obtain ⟨j, b⟩ := x
    rw [lookup] at h
    rw [put]
    split at h <;> simp_all

/-- An entry can be replaced. -/
theorem IsNumbered.insert {t : Table Nat α} (h : t.IsNumbered) {k : Nat} (hk : (t.find? k).isSome)
    (a : α) : (t.insert k a).IsNumbered := fun n => by
  have hsize : (t.insert k a).size = t.size := length_put_of_some a hk
  rw [hsize]
  by_cases hn : n = k
  · subst hn; simpa using (h n).1 hk
  · rw [find?_insert_of_ne _ _ hn, h n]

/-- Changing a value keeps the keys. -/
theorem IsNumbered.modify {t : Table Nat α} (h : t.IsNumbered) (k : Nat) (f : α → α) :
    (t.modify k f).IsNumbered := by
  rw [Table.modify]
  split
  · exact h
  · exact h.insert (by simp [*]) _

end Numbered

end VmNode.Table
