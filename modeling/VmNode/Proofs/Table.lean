import VmNode.Table

/-!
# Look-ups in tables

What each operation on a table does to its look-ups (`find?_insert`, `find?_erase`,
`find?_modify_self`), and what a table is made of: its entries are the pairs that look-ups
answer (`mem_entries_iff`). As the entries are in order, a table is determined by its look-ups
(`ext_find?`), and putting its entries together gives the table again (`ofList_entries`).
-/

namespace VmNode.Table

variable {κ α : Type} [Ord κ]

/-! ### Entries in order -/

/-- A key below all others is not there. -/
theorem lookup_eq_none_of_lt {k : κ} {l : List (κ × α)}
    (h : ∀ e ∈ l, compare k e.1 = .lt) : lookup k l = none := by
  cases l with
  | nil => rfl
  | cons x rest => simp [lookup, h x (List.mem_cons_self ..)]

variable [Std.TransOrd κ] [Std.LawfulEqOrd κ]

omit [Std.LawfulEqOrd κ] in
/-- What comes after all entries is put last. -/
theorem put_eq_append {k : κ} {a : α} {l : List (κ × α)} (h : ∀ e ∈ l, compare e.1 k = .lt) :
    put k a l = l ++ [(k, a)] := by
  induction l with
  | nil => rfl
  | cons x rest ih =>
    have hx : compare k x.1 = .gt := Std.OrientedCmp.gt_of_lt (h x (List.mem_cons_self ..))
    simp only [put, hx, ih fun e he => h e (List.mem_cons_of_mem _ he), List.cons_append]

/-- What was put is found, and the rest as before. -/
theorem lookup_put (k j : κ) (a : α) (l : List (κ × α)) :
    lookup j (put k a l) = if compare j k = .eq then some a else lookup j l := by
  induction l with
  | nil => simp only [put, lookup]; split <;> simp_all
  | cons x rest ih =>
    obtain ⟨i, b⟩ := x
    rw [put]
    split
    · rename_i hlt
      rw [lookup]
      split <;> rename_i hjk
      · have : compare j i = .lt := Std.TransCmp.lt_trans hjk hlt
        simp [hjk, lookup, this]
      · simp [hjk]
      · simp [hjk]
    · rename_i heq
      have : k = i := Std.LawfulEqCmp.eq_of_compare heq
      subst this
      simp only [lookup]
      split <;> simp_all
    · rename_i hgt
      simp only [lookup]
      split <;> rename_i hji
      · have hik := Std.OrientedCmp.lt_of_gt hgt
        have : compare j k = .lt := Std.TransCmp.lt_trans hji hik
        simp [this]
      · have : j = i := Std.LawfulEqCmp.eq_of_compare hji
        subst this
        have hik := Std.OrientedCmp.lt_of_gt hgt
        simp [hik]
      · exact ih

/-- What was left out is not found, and the rest as before. -/
theorem lookup_drop (k j : κ) {l : List (κ × α)}
    (h : l.Pairwise fun a b => compare a.1 b.1 = .lt) :
    lookup j (drop k l) = if compare j k = .eq then none else lookup j l := by
  induction l with
  | nil => simp [drop, lookup]
  | cons x rest ih =>
    obtain ⟨i, b⟩ := x
    have htail : ∀ e ∈ rest, compare i e.1 = .lt := (List.pairwise_cons.1 h).1
    rw [drop]
    split
    · rename_i hlt
      split
      · rename_i heq
        have : j = k := Std.LawfulEqCmp.eq_of_compare heq
        subst this
        simp [lookup, hlt]
      · rfl
    · rename_i heq
      have : k = i := Std.LawfulEqCmp.eq_of_compare heq
      subst this
      cases hjk : compare j k with
      | lt =>
        simp [lookup, hjk, lookup_eq_none_of_lt fun e he => Std.TransCmp.lt_trans hjk (htail e he)]
      | eq =>
        have : j = k := Std.LawfulEqCmp.eq_of_compare hjk
        subst this
        simp [lookup_eq_none_of_lt htail]
      | gt => simp [lookup, hjk]
    · rename_i hgt
      simp only [lookup]
      split <;> rename_i hji
      · have : compare j k = .lt := Std.TransCmp.lt_trans hji (Std.OrientedCmp.lt_of_gt hgt)
        simp [this]
      · have : j = i := Std.LawfulEqCmp.eq_of_compare hji
        subst this
        simp [Std.OrientedCmp.lt_of_gt hgt]
      · exact ih h.of_cons

/-- What is found is what stands beside the key. -/
theorem lookup_eq_some_iff {k : κ} {a : α} {l : List (κ × α)}
    (h : l.Pairwise fun a b => compare a.1 b.1 = .lt) : lookup k l = some a ↔ (k, a) ∈ l := by
  induction l with
  | nil => simp [lookup]
  | cons x rest ih =>
    obtain ⟨j, b⟩ := x
    have htail : ∀ e ∈ rest, compare j e.1 = .lt := (List.pairwise_cons.1 h).1
    rw [lookup, List.mem_cons]
    split <;> rename_i hkj
    · simp only [reduceCtorEq, false_iff, not_or, Prod.mk.injEq]
      constructor
      · rintro ⟨rfl, -⟩; simp at hkj
      · intro hmem
        have := Std.TransCmp.lt_trans hkj (htail _ hmem)
        simp at this
    · have : k = j := Std.LawfulEqCmp.eq_of_compare hkj
      subst this
      constructor
      · intro heq; simp_all
      · rintro (heq | hmem)
        · simp_all
        · have := htail _ hmem; simp at this
    · rw [ih h.of_cons]
      constructor
      · exact Or.inr
      · rintro (heq | hmem)
        · obtain ⟨rfl, rfl⟩ := heq; simp at hkj
        · exact hmem

/-! ### Operations -/

omit [Std.TransOrd κ] [Std.LawfulEqOrd κ] in
@[simp] theorem find?_empty (k : κ) : (empty : Table κ α).find? k = none := rfl

/-- What is found is the value that was put in, or what was there. -/
theorem find?_insert (t : Table κ α) (k j : κ) (a : α) :
    (t.insert k a).find? j = if compare j k = .eq then some a else t.find? j :=
  lookup_put k j a t.entries

@[simp] theorem find?_insert_self (t : Table κ α) (k : κ) (a : α) :
    (t.insert k a).find? k = some a := by
  simp [find?_insert]

theorem find?_insert_of_ne (t : Table κ α) {k j : κ} (a : α) (h : j ≠ k) :
    (t.insert k a).find? j = t.find? j := by
  rw [find?_insert, if_neg fun he => h (Std.LawfulEqCmp.eq_of_compare he)]

/-- What was taken out is not found, and everything else is. -/
theorem find?_erase (t : Table κ α) (k j : κ) :
    (t.erase k).find? j = if compare j k = .eq then none else t.find? j :=
  lookup_drop k j t.sorted

@[simp] theorem find?_erase_self (t : Table κ α) (k : κ) : (t.erase k).find? k = none := by
  simp [find?_erase]

theorem find?_erase_of_ne (t : Table κ α) {k j : κ} (h : j ≠ k) :
    (t.erase k).find? j = t.find? j := by
  rw [find?_erase, if_neg fun he => h (Std.LawfulEqCmp.eq_of_compare he)]

/-- The value at the key is changed. -/
theorem find?_modify_self (t : Table κ α) (k : κ) (f : α → α) :
    (t.modify k f).find? k = (t.find? k).map f := by
  rw [modify]
  split <;> simp_all

/-- All others are as they were. -/
theorem find?_modify_of_ne (t : Table κ α) {k j : κ} (f : α → α) (h : j ≠ k) :
    (t.modify k f).find? j = t.find? j := by
  rw [modify]
  split
  · rfl
  · exact find?_insert_of_ne _ _ h

/-! ### What a table is made of -/

/-- The entries are the pairs that look-ups answer. -/
theorem mem_entries_iff (t : Table κ α) {k : κ} {a : α} :
    (k, a) ∈ t.entries ↔ t.find? k = some a :=
  (lookup_eq_some_iff t.sorted).symm

omit [Std.TransOrd κ] in
/-- No key is there twice. -/
theorem nodup_keys (t : Table κ α) : t.keys.Nodup := by
  rw [keys, List.Nodup, List.pairwise_map]
  refine t.sorted.imp fun {a b} hlt heq => ?_
  rw [heq] at hlt
  simp at hlt

/-- A key is one of the table if something is found there. -/
theorem mem_keys_iff (t : Table κ α) {k : κ} : k ∈ t.keys ↔ (t.find? k).isSome = true := by
  rw [keys, List.mem_map, Option.isSome_iff_exists]
  constructor
  · rintro ⟨⟨j, a⟩, hmem, rfl⟩
    exact ⟨a, t.mem_entries_iff.1 hmem⟩
  · rintro ⟨a, ha⟩
    exact ⟨(k, a), t.mem_entries_iff.2 ha, rfl⟩

/-- Sorted lists with the same members are equal. -/
theorem eq_of_sorted {l m : List (κ × α)}
    (hl : l.Pairwise fun a b => compare a.1 b.1 = .lt)
    (hm : m.Pairwise fun a b => compare a.1 b.1 = .lt)
    (h : ∀ e, e ∈ l ↔ e ∈ m) : l = m := by
  induction l generalizing m with
  | nil =>
    cases m with
    | nil => rfl
    | cons y _ => exact absurd ((h y).2 (List.mem_cons_self ..)) (by simp)
  | cons x l ih =>
    cases m with
    | nil => exact absurd ((h x).1 (List.mem_cons_self ..)) (by simp)
    | cons y m =>
      have hxy : x = y := by
        rcases List.mem_cons.1 ((h x).1 (List.mem_cons_self ..)) with hx | hx
        · exact hx
        rcases List.mem_cons.1 ((h y).2 (List.mem_cons_self ..)) with hy | hy
        · exact hy.symm
        have := Std.TransCmp.lt_trans (List.rel_of_pairwise_cons hl hy)
          (List.rel_of_pairwise_cons hm hx)
        simp at this
      subst hxy
      congr 1
      refine ih hl.of_cons hm.of_cons fun e => ⟨fun he => ?_, fun he => ?_⟩
      · rcases List.mem_cons.1 ((h e).1 (List.mem_cons_of_mem _ he)) with rfl | he'
        · have := List.rel_of_pairwise_cons hl he; simp at this
        · exact he'
      · rcases List.mem_cons.1 ((h e).2 (List.mem_cons_of_mem _ he)) with rfl | he'
        · have := List.rel_of_pairwise_cons hm he; simp at this
        · exact he'

/-- A table is determined by its look-ups. -/
theorem ext_find? {t u : Table κ α} (h : ∀ k, t.find? k = u.find? k) : t = u := by
  have : t.entries = u.entries := eq_of_sorted t.sorted u.sorted fun ⟨k, a⟩ => by
    rw [mem_entries_iff, mem_entries_iff, h]
  cases t; cases u; simp_all

/-- To insert what is there changes nothing. -/
theorem insert_eq_self {t : Table κ α} {k : κ} {a : α} (h : t.find? k = some a) :
    t.insert k a = t :=
  ext_find? fun j => by
    by_cases hj : j = k
    · rw [hj, find?_insert_self, h]
    · exact find?_insert_of_ne _ _ hj

/-- A table is made of its entries. -/
theorem ofList_entries (t : Table κ α) : ofList t.entries = t := by
  have hfold (l : List (κ × α)) (u : Table κ α)
      (h : (u.entries ++ l).Pairwise fun a b => compare a.1 b.1 = .lt) :
      (l.foldl (fun t e => t.insert e.1 e.2) u).entries = u.entries ++ l := by
    induction l generalizing u with
    | nil => simp
    | cons e rest ih =>
      have hput : (u.insert e.1 e.2).entries = u.entries ++ [e] :=
        put_eq_append fun x hx => (List.pairwise_append.1 h).2.2 x hx e (List.mem_cons_self ..)
      rw [List.foldl_cons, ih, hput, List.append_assoc, List.singleton_append]
      rwa [hput, List.append_assoc, List.singleton_append]
  refine ext_find? fun k => ?_
  rw [find?, ofList, hfold t.entries empty t.sorted]
  rfl

end VmNode.Table
