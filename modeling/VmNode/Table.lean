/-!
# Tables

A finite map from keys to values, held as the list of its entries in strictly
increasing order of their keys. The order is part of the type, so each operation
comes with the proof that it keeps the order (`put_sorted`, `drop_sublist`), and two
tables that answer alike are equal, whatever was done to build them.
-/

namespace VmNode

/-- A finite map, as its entries in increasing order of the keys. -/
structure Table (κ : Type) (α : Type) [Ord κ] where
  /-- The entries. -/
  entries : List (κ × α)
  /-- Each key is below those after it. -/
  sorted : entries.Pairwise fun a b => compare a.1 b.1 = .lt

namespace Table

variable {κ α : Type} [Ord κ]

/-! ### Operations on entries -/

/-- The value that stands beside `k`. -/
def lookup (k : κ) : List (κ × α) → Option α
  | [] => none
  | (j, a) :: rest =>
    match compare k j with
    | .lt => none
    | .eq => some a
    | .gt => lookup k rest

/-- Puts `(k, a)` in its place, over an entry with the same key. -/
def put (k : κ) (a : α) : List (κ × α) → List (κ × α)
  | [] => [(k, a)]
  | (j, b) :: rest =>
    match compare k j with
    | .lt => (k, a) :: (j, b) :: rest
    | .eq => (k, a) :: rest
    | .gt => (j, b) :: put k a rest

/-- Leaves out the entry of `k`. -/
def drop (k : κ) : List (κ × α) → List (κ × α)
  | [] => []
  | (j, b) :: rest =>
    match compare k j with
    | .lt => (j, b) :: rest
    | .eq => rest
    | .gt => (j, b) :: drop k rest

/-- Nothing is put but the new entry. -/
theorem mem_put {k : κ} {a : α} {e : κ × α} {l : List (κ × α)} (h : e ∈ put k a l) :
    e = (k, a) ∨ e ∈ l := by
  induction l with
  | nil => simpa [put] using h
  | cons x rest ih =>
    obtain ⟨j, b⟩ := x
    rw [put] at h
    split at h <;> grind

/-- Nothing is added by leaving out. -/
theorem drop_sublist (k : κ) (l : List (κ × α)) : (drop k l).Sublist l := by
  induction l with
  | nil => exact .slnil
  | cons x rest ih =>
    obtain ⟨j, b⟩ := x
    rw [drop]
    split
    · exact List.Sublist.refl _
    · exact List.sublist_cons_self ..
    · exact ih.cons_cons _

variable [Std.TransOrd κ] [Std.LawfulEqOrd κ]

/-- The new entry is put in its place. -/
theorem put_sorted (k : κ) (a : α) {l : List (κ × α)}
    (h : l.Pairwise fun a b => compare a.1 b.1 = .lt) :
    (put k a l).Pairwise fun a b => compare a.1 b.1 = .lt := by
  induction l with
  | nil => simp [put]
  | cons x rest ih =>
    obtain ⟨j, b⟩ := x
    rw [put]
    have htail : ∀ e ∈ rest, compare j e.1 = .lt := (List.pairwise_cons.1 h).1
    split
    · rename_i hlt
      exact h.cons fun e he => (List.mem_cons.1 he).elim (fun heq => heq ▸ hlt)
        fun hmem => Std.TransCmp.lt_trans hlt (htail e hmem)
    · rename_i heq
      have : k = j := Std.LawfulEqCmp.eq_of_compare heq
      subst this
      exact h.of_cons.cons htail
    · rename_i hgt
      exact (ih h.of_cons).cons fun e he => (mem_put he).elim
        (fun heq => heq ▸ Std.OrientedCmp.lt_of_gt hgt) fun hmem => htail e hmem

/-! ### Tables -/

/-- The table without entries. -/
def empty : Table κ α := ⟨[], .nil⟩

instance : EmptyCollection (Table κ α) := ⟨empty⟩

instance : Inhabited (Table κ α) := ⟨empty⟩

/-- The value of `k`. -/
def find? (t : Table κ α) (k : κ) : Option α := lookup k t.entries

/-- Whether `k` has a value. -/
def contains (t : Table κ α) (k : κ) : Bool := (t.find? k).isSome

/-- Gives `k` the value `a`, in place of any it had. -/
def insert (t : Table κ α) (k : κ) (a : α) : Table κ α :=
  ⟨put k a t.entries, put_sorted k a t.sorted⟩

/-- Takes the value of `k` away. -/
def erase (t : Table κ α) (k : κ) : Table κ α :=
  ⟨drop k t.entries, t.sorted.sublist (drop_sublist k t.entries)⟩

/-- Changes the value of `k`, if it has one. -/
def modify (t : Table κ α) (k : κ) (f : α → α) : Table κ α :=
  match t.find? k with
  | none => t
  | some a => t.insert k (f a)

/-- Keeps the entries that `p` holds of. -/
def filter (t : Table κ α) (p : κ → α → Bool) : Table κ α :=
  ⟨t.entries.filter fun e => p e.1 e.2, t.sorted.sublist List.filter_sublist⟩

/-- The keys, in increasing order. -/
def keys (t : Table κ α) : List κ := t.entries.map (·.1)

/-- The values, in the order of their keys. -/
def values (t : Table κ α) : List α := t.entries.map (·.2)

/-- The number of entries. -/
def size (t : Table κ α) : Nat := t.entries.length

/-- The table of the pairs; of two with one key, the later counts. -/
def ofList (l : List (κ × α)) : Table κ α :=
  l.foldl (fun t e => t.insert e.1 e.2) empty

instance [BEq α] [BEq κ] : BEq (Table κ α) := ⟨fun t u => t.entries == u.entries⟩

instance [DecidableEq κ] [DecidableEq α] : DecidableEq (Table κ α) := fun t u =>
  decidable_of_iff (t.entries = u.entries) ⟨fun h => by cases t; cases u; simp_all, fun h => h ▸ rfl⟩

end Table

end VmNode
