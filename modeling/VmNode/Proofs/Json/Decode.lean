import Mathlib.Data.List.Nodup
import VmNode.Json.Decode
import VmNode.Proofs.Table

/-!
# Decoding objects

A structure is decoded from an object whose entries stand in any order and may be more than
its fields (`Doc.record_obj`): all that counts is what look-ups of its keys answer, which is
said field by field (`Doc.Layout.Gives`). Lists and numbers are decoded as what they were
written for.
-/

namespace VmNode.Doc

variable {α β : Type}

/-! ### Entries -/

/-- The entries of pairs. -/
def Entries.ofList : List (String × Doc) → Entries
  | [] => .done
  | (k, d) :: rest => .cons (some k) d (ofList rest)

/-- The entries of an object are those of its members. -/
theorem entriesOf_eq_ofList (members : List (String × Json)) :
    entriesOf members = .ofList (members.map fun m => (m.1, ofJson m.2)) := by
  induction members with
  | nil => rfl
  | cons m rest ih =>
    rw [entriesOf, ih]
    rfl

namespace Entries

variable {l : List (String × Doc)} {key : String} {d : Doc}

/-- What a look-up finds is there. -/
theorem mem_of_find?_ofList (h : (ofList l).find? key = some d) : (key, d) ∈ l := by
  induction l with
  | nil => cases h
  | cons e rest ih =>
    rw [ofList, find?] at h
    split at h
    · rename_i heq
      cases h
      exact heq ▸ List.mem_cons_self ..
    · exact List.mem_cons_of_mem _ (ih h)

/-- A key that is not there is not found. -/
theorem find?_ofList_eq_none (h : key ∉ l.map (·.1)) : (ofList l).find? key = none := by
  cases hfind : (ofList l).find? key with
  | none => rfl
  | some d => exact absurd (List.mem_map_of_mem (f := (·.1)) (mem_of_find?_ofList hfind)) h

/-- No known key is there twice, and whatever is not known is JSON. -/
structure IsRegular (known : List String) (l : List (String × Doc)) : Prop where
  /-- No known key is there twice. -/
  nodup : ((l.map (·.1)).filter (· ∈ known)).Nodup
  /-- Whatever is not known is JSON. -/
  isWhole : ∀ e ∈ l, e.1 ∉ known → e.2.isWhole = true

/-- Entries are regular if all of them are known and no key is there twice. -/
theorem isRegular_of_subset {known : List String} (hnodup : (l.map (·.1)).Nodup)
    (hsub : ∀ k ∈ l.map (·.1), k ∈ known) : IsRegular known l :=
  ⟨hnodup.filter _, fun e he hnot => absurd (hsub e.1 (List.mem_map_of_mem he)) hnot⟩

namespace IsRegular

variable {known : List String} {e : String × Doc}

/-- Regular entries stay regular without the first. -/
theorem tail (h : IsRegular known (e :: l)) : IsRegular known l :=
  ⟨h.nodup.sublist ((List.sublist_cons_self ..).filter _),
    fun e he => h.isWhole e (List.mem_cons_of_mem _ he)⟩

/-- A known key is not there once more. -/
theorem not_mem_tail (h : IsRegular known (e :: l)) (hkey : e.1 ∈ known) : (e.1, d) ∉ l := by
  obtain ⟨hnot, -⟩ : (∀ d, (e.1, d) ∉ l) ∧ ((l.map (·.1)).filter (· ∈ known)).Nodup := by
    simpa [hkey] using h.nodup
  exact hnot d

/-- The entry with a known key is the one that a look-up finds. -/
theorem find? (h : IsRegular known l) (hkey : key ∈ known) (hmem : (key, d) ∈ l) :
    (ofList l).find? key = some d := by
  induction l with
  | nil => cases hmem
  | cons e rest ih =>
    rw [ofList, Entries.find?]
    rcases List.mem_cons.1 hmem with rfl | hmem
    · exact if_pos rfl
    · rw [if_neg, ih h.tail hmem]
      rintro rfl
      exact h.not_mem_tail hkey hmem

end IsRegular

/-- Regular entries pass the check if the values of the known ones do. -/
theorem check_ofList {known : List (String × (Doc → Except Fault Unit))} {seen : List String}
    (hreg : IsRegular (known.map (·.1)) l)
    (hseen : ∀ e ∈ l, e.1 ∈ known.map (·.1) → e.1 ∉ seen)
    (htest : ∀ e ∈ l, ∀ test, (e.1, test) ∈ known → test e.2 = .ok ()) :
    (ofList l).check known seen = .ok () := by
  induction l generalizing seen with
  | nil => rfl
  | cons e rest ih =>
    have hrest := fun e he => htest e (List.mem_cons_of_mem _ he)
    rw [ofList, check]
    cases hlookup : known.lookup e.1 with
    -- an unknown key: its value is skipped, and has to be JSON
    | none =>
      have hnot : e.1 ∉ known.map (·.1) := by
        intro hmem
        obtain ⟨k, hk, heq⟩ := List.mem_map.1 hmem
        simpa [heq] using List.lookup_eq_none_iff.1 hlookup k hk
      simp only [hreg.isWhole e (List.mem_cons_self ..) hnot, if_true]
      exact ih hreg.tail (fun e he => hseen e (List.mem_cons_of_mem _ he)) hrest
    -- a known key: it was not seen before, and its value passes the test
    | some test =>
      obtain ⟨before, after, hsplit, -⟩ := List.lookup_eq_some_iff.1 hlookup
      have hmem : (e.1, test) ∈ known := hsplit ▸ List.mem_append_right _ (List.mem_cons_self ..)
      have hknown : e.1 ∈ known.map (·.1) := List.mem_map_of_mem (f := (·.1)) hmem
      simp only [if_neg (hseen e (List.mem_cons_self ..) hknown),
        htest e (List.mem_cons_self ..) test hmem]
      refine ih hreg.tail (fun e' he' hk hin => ?_) hrest
      rcases List.mem_cons.1 hin with heq | hin
      · exact hreg.not_mem_tail hknown (d := e'.2) (heq ▸ he')
      · exact hseen e' (List.mem_cons_of_mem _ he') hk hin

end Entries

/-! ### Structures -/

namespace Layout

variable {find : String → Option Doc} {key : String} {f : Decoder α} {absent short : Option α}
  {a : α} {d : Doc}

/-- What a layout makes of the look-ups of its keys, all of whose values pass their tests. -/
structure Gives (layout : Layout α) (find : String → Option Doc) (a : α) : Prop where
  /-- The structure. -/
  ofKeys : layout.ofKeys find = .ok a
  /-- The values pass their tests. -/
  test : ∀ t ∈ layout.known, ∀ d, find t.1 = some d → t.2 d = .ok ()

/-- A structure without fields needs no entries. -/
theorem gives_pure (a : α) : (Layout.pure a).Gives find a := ⟨rfl, nofun⟩

/-- A layout with one more field gives the structure with its value. -/
theorem Gives.seq {g : Layout (α → β)} {x : Layout α} {h : α → β} (hg : g.Gives find h)
    (hx : x.Gives find a) : (g.seq x).Gives find (h a) where
  ofKeys := by
    simp only [Layout.seq, hg.ofKeys, hx.ofKeys]
    rfl
  test t ht := (List.mem_append.1 ht).elim (hg.test t) (hx.test t)

/-- A field whose entry is there. -/
theorem gives_of_some (hfind : find key = some d) (hf : f d = .ok a) :
    (fieldWith key f absent short).Gives find a where
  ofKeys := by simp only [fieldWith, hfind, hf]
  test t ht d' hd' := by
    obtain rfl := List.mem_singleton.1 ht
    obtain rfl := Option.some.inj (hfind.symm.trans hd')
    simp only [hf]
    rfl

/-- A field whose entry is missing. -/
theorem gives_of_none (hfind : find key = none) :
    (fieldWith key f (some a) short).Gives find a where
  ofKeys := by simp only [fieldWith, hfind]
  test t ht d' hd' := by
    obtain rfl := List.mem_singleton.1 ht
    simp [hfind] at hd'

end Layout

/-- A structure is decoded from regular entries by what look-ups of its keys answer. -/
theorem record_obj {layout : Layout α} {l : List (String × Doc)} {a : α}
    (hreg : Entries.IsRegular (layout.known.map (·.1)) l)
    (h : layout.Gives (fun key => (Entries.ofList l).find? key) a) :
    record layout (.obj (.ofList l)) = .ok a := by
  have hcheck : (Entries.ofList l).check layout.known [] = .ok () :=
    Entries.check_ofList hreg (fun _ _ _ => List.not_mem_nil) fun e he test hmem =>
      h.test _ hmem _ (hreg.find? (List.mem_map_of_mem (f := (·.1)) hmem) he)
  simp only [record, hcheck]
  exact h.ofKeys

/-- A structure is decoded from the document of an object with its fields. -/
theorem record_ofJson {layout : Layout α} {members : List (String × Json)} {a : α}
    (hnodup : (members.map (·.1)).Nodup)
    (hsub : members.map (·.1) ⊆ layout.known.map (·.1))
    (h : layout.Gives (fun key => (entriesOf members).find? key) a) :
    record layout (ofJson (.obj members)) = .ok a := by
  rw [entriesOf_eq_ofList] at h
  rw [ofJson, entriesOf_eq_ofList]
  have hkeys : (members.map fun m => (m.1, ofJson m.2)).map (·.1) = members.map (·.1) := by
    simp
  exact record_obj (Entries.isRegular_of_subset (hkeys ▸ hnodup) (hkeys ▸ hsub)) h

/-! ### Values -/

/-- A list is decoded item by item. -/
theorem decode_itemsOf (f : Decoder α) (g : α → Json) (h : ∀ a, f (ofJson (g a)) = .ok a)
    (l : List α) : (itemsOf (l.map g)).decode f = .ok l := by
  induction l with
  | nil => rfl
  | cons a rest ih =>
    rw [List.map_cons, itemsOf, Items.decode, h, ih]
    rfl

/-- A table is decoded entry by entry, with its order kept. -/
theorem decode_entriesOf (f : Decoder α) (g : α → Json) (h : ∀ a, f (ofJson (g a)) = .ok a)
    (l : List (String × α)) :
    (entriesOf (l.map fun e => (e.1, g e.2))).decode f = .ok l := by
  induction l with
  | nil => rfl
  | cons e rest ih =>
    rw [List.map_cons, entriesOf, Entries.decode, h, ih]
    rfl

/-- A natural within the bound of a type is decoded as its value there. -/
theorem integer_natBelow {bound n : Nat} (ofNat : Nat → α) (h : n < bound) :
    integer (fun m => (natBelow bound m).map ofNat) (ofJson (.nat n)) = .ok (ofNat n) := by
  have hnat : natBelow bound n = some n := if_pos ⟨Int.natCast_nonneg n, Int.ofNat_lt.2 h⟩
  simp only [Json.nat, ofJson, integer, hnat, Option.map_some]

theorem uint8_ofJson (n : UInt8) : uint8 (ofJson (.nat n.toNat)) = .ok n := by
  rw [uint8, integer_natBelow _ n.toNat_lt_size, UInt8.ofNat_toNat]

theorem uint16_ofJson (n : UInt16) : uint16 (ofJson (.nat n.toNat)) = .ok n := by
  rw [uint16, integer_natBelow _ n.toNat_lt_size, UInt16.ofNat_toNat]

theorem uint32_ofJson (n : UInt32) : uint32 (ofJson (.nat n.toNat)) = .ok n := by
  rw [uint32, integer_natBelow _ n.toNat_lt_size, UInt32.ofNat_toNat]

theorem uint64_ofJson (n : UInt64) : uint64 (ofJson (.nat n.toNat)) = .ok n := by
  rw [uint64, integer_natBelow _ n.toNat_lt_size, UInt64.ofNat_toNat]

theorem int32_ofJson (n : Int32) : int32 (ofJson (.int n.toInt)) = .ok n := by
  have hrange : Int32.minValue.toInt ≤ n.toInt ∧ n.toInt ≤ Int32.maxValue.toInt :=
    ⟨n.minValue_le_toInt, n.toInt_le⟩
  simp only [ofJson, int32, integer, if_pos hrange, Int32.ofInt_toInt]

theorem int64_ofJson (n : Int64) : int64 (ofJson (.int n.toInt)) = .ok n := by
  have hrange : Int64.minValue.toInt ≤ n.toInt ∧ n.toInt ≤ Int64.maxValue.toInt :=
    ⟨n.minValue_le_toInt, n.toInt_le⟩
  simp only [ofJson, int64, integer, if_pos hrange, Int64.ofInt_toInt]

theorem string_ofJson (s : String) : string (ofJson (.str s)) = .ok s := by
  rw [ofJson, string]

theorem boolean_ofJson (b : Bool) : boolean (ofJson (.bool b)) = .ok b := by
  rw [ofJson, boolean]

/-- A text that may be missing is decoded from `null` or from the text. -/
theorem nullable_ofJson (s : Option String) :
    nullable string (ofJson (.option .str s)) = .ok s := by
  cases s <;> rfl

/-- A value that is written as a text is decoded by parsing the text. -/
theorem parsed_ofJson {f : String → Option α} {s : String} {a : α} (h : f s = some a) :
    parsed f (ofJson (.str s)) = .ok a := by
  simp only [parsed, string_ofJson, bind, Except.bind, h]

end VmNode.Doc
