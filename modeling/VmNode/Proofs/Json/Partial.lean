import VmNode.Proofs.Json.Decode

/-!
# Objects with some of their members

An object may leave out some of the members of a value, give the others in any order, and hold
members that nobody knows (`Doc.Holds`). A structure with a default for each field is decoded
from it by what look-ups answer: the value of a member that is kept, and nothing for one that
is left out (`Doc.record_of_holds`).
-/

namespace VmNode.Doc

variable {α : Type} {keep : String → Bool} {members : List (String × (Doc → Prop))} {d : Doc}

/-- The members that `keep` names are there, in any order, beside others that are not known. Of
    each member it is said which documents are its value. -/
inductive Holds (keep : String → Bool) (members : List (String × (Doc → Prop))) : Doc → Prop
  | obj (l kept others : List (String × Doc))
    (order : l.Perm (kept ++ others))
    (keys : kept.map (·.1) = (members.map (·.1)).filter keep)
    (values : ∀ e ∈ kept, ∀ m ∈ members, m.1 = e.1 → m.2 e.2)
    (unknown : ∀ e ∈ others, e.1 ∉ members.map (·.1) ∧ e.2.isWhole = true) :
    Holds keep members (.obj (.ofList l))

/-- What look-ups answer where the members that `keep` names are there. -/
def Answers (keep : String → Bool) (members : List (String × (Doc → Prop)))
    (find : String → Option Doc) : Prop :=
  ∀ m ∈ members, (keep m.1 = true → ∃ v, find m.1 = some v ∧ m.2 v) ∧
    (keep m.1 = false → find m.1 = none)

/-- The entries of such an object are regular, and their look-ups answer as they should. -/
theorem Holds.answers (h : Holds keep members d) (hnodup : (members.map (·.1)).Nodup) :
    ∃ l, d = .obj (.ofList l) ∧ Entries.IsRegular (members.map (·.1)) l ∧
      Answers keep members fun key => (Entries.ofList l).find? key := by
  obtain ⟨l, kept, others, order, keys, values, unknown⟩ := h
  have hmem (e : String × Doc) : e ∈ l ↔ e ∈ kept ∨ e ∈ others := by
    rw [order.mem_iff, List.mem_append]
  have hknown (e : String × Doc) (he : e ∈ kept) : e.1 ∈ (members.map (·.1)).filter keep :=
    keys ▸ List.mem_map_of_mem he
  have hreg : Entries.IsRegular (members.map (·.1)) l := by
    constructor
    · have hothers : (others.map (·.1)).filter (· ∈ members.map (·.1)) = [] := by
        rw [List.filter_eq_nil_iff]
        intro k hk
        obtain ⟨e, he, rfl⟩ := List.mem_map.1 hk
        simpa using (unknown e he).1
      have hperm := (order.map (·.1)).filter (· ∈ members.map (·.1))
      rw [List.map_append, List.filter_append, hothers, List.append_nil, keys] at hperm
      exact hperm.nodup_iff.2 ((hnodup.filter _).filter _)
    · intro e he hnot
      rcases (hmem e).1 he with he | he
      · exact absurd (List.mem_of_mem_filter (hknown e he)) hnot
      · exact (unknown e he).2
  refine ⟨l, rfl, hreg, fun m hm => ⟨fun hkeep => ?_, fun hkeep => ?_⟩⟩
  · have hkey : m.1 ∈ members.map (·.1) := List.mem_map_of_mem hm
    have hkept : m.1 ∈ kept.map (·.1) := keys ▸ List.mem_filter.2 ⟨hkey, hkeep⟩
    obtain ⟨e, he, heq⟩ := List.mem_map.1 hkept
    exact ⟨e.2, hreg.find? hkey (heq ▸ (hmem e).2 (.inl he)), values e he m hm heq.symm⟩
  · refine Entries.find?_ofList_eq_none fun hin => ?_
    obtain ⟨e, he, heq⟩ := List.mem_map.1 hin
    rcases (hmem e).1 he with he | he
    · have := (List.mem_filter.1 (hknown e he)).2
      rw [heq, hkeep] at this
      cases this
    · exact (unknown e he).1 (heq ▸ List.mem_map_of_mem hm)

/-- A structure is decoded from an object with some of its members by what look-ups answer. -/
theorem record_of_holds {layout : Layout α} {a : α} (h : Holds keep members d)
    (hnodup : (members.map (·.1)).Nodup) (hknown : layout.known.map (·.1) = members.map (·.1))
    (hgives : ∀ find, Answers keep members find → layout.Gives find a) :
    record layout d = .ok a := by
  obtain ⟨l, rfl, hreg, hanswers⟩ := h.answers hnodup
  exact record_obj (hknown ▸ hreg) (hgives _ hanswers)

/-- The documents of an object with some of its members as they are; any other value has its
    document only. -/
def Thins (keep : String → Bool) : Json → Doc → Prop
  | .obj members, d => Holds keep (members.map fun m => (m.1, (· = ofJson m.2))) d
  | v, d => d = ofJson v

/-- The document of an object holds all of its members. -/
theorem holds_ofJson {fields : List (String × Json)} {P : String → Json → Doc → Prop}
    (hnodup : (fields.map (·.1)).Nodup) (h : ∀ m ∈ fields, P m.1 m.2 (ofJson m.2)) :
    Holds (fun _ => true) (fields.map fun m => (m.1, P m.1 m.2)) (ofJson (.obj fields)) := by
  rw [ofJson, entriesOf_eq_ofList]
  refine .obj _ (fields.map fun m => (m.1, ofJson m.2)) [] (by simp) (by simp) ?_ (by simp)
  intro e he n hn hkey
  obtain ⟨m, hm, rfl⟩ := List.mem_map.1 he
  obtain ⟨m', hm', rfl⟩ := List.mem_map.1 hn
  obtain rfl := List.inj_on_of_nodup_map hnodup hm' hm hkey
  exact h _ hm

theorem thins_ofJson {fields : List (String × Json)} (hnodup : (fields.map (·.1)).Nodup) :
    Thins (fun _ => true) (.obj fields) (ofJson (.obj fields)) :=
  holds_ofJson (P := fun _ v d => d = ofJson v) hnodup fun _ _ => rfl

namespace Layout

variable {key : String} {f : Decoder α} {a b : α} {v : Json} {find : String → Option Doc}
  {fields : List (String × Json)}

/-- A field with a default has its value where its member is kept, and the default elsewhere. -/
theorem gives_fieldOr {P : String → Json → Doc → Prop}
    (h : Answers keep (fields.map fun m => (m.1, P m.1 m.2)) find)
    (hmem : (key, v) ∈ fields) (hf : ∀ d, P key v d → f d = .ok a) :
    (fieldOr key f b).Gives find (if keep key then a else b) := by
  obtain ⟨hkept, hleft⟩ := h (key, P key v) (List.mem_map.2 ⟨_, hmem, rfl⟩)
  rw [fieldOr]
  split
  · rename_i hkeep
    obtain ⟨d, hfind, hd⟩ := hkept hkeep
    exact gives_of_some hfind (hf d hd)
  · rename_i hkeep
    exact gives_of_none (hleft (Bool.eq_false_iff.2 hkeep))

theorem gives_thinned (h : Answers keep (fields.map fun m => (m.1, (· = ofJson m.2))) find)
    (hmem : (key, v) ∈ fields) (hf : f (ofJson v) = .ok a) :
    (fieldOr key f b).Gives find (if keep key then a else b) :=
  gives_fieldOr (P := fun _ v d => d = ofJson v) h hmem fun _ hd => hd ▸ hf

end Layout

end VmNode.Doc
