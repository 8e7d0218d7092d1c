import VmNode.Node.Deprovision
import VmNode.Proofs.Registry.Operation
import VmNode.Proofs.Text.Utf8

/-!
# Listing instances

Instances are listed by the time when they were made, and by the bytes of their identifiers
among those of the same time. No two of them have the same identifier, so one of any two precedes
the other (`InstanceInfo.Precedes`), and there is one way only to list them: it makes no
difference in which order a table goes through its records (`Registry.Keyed.list_eq_of_perm`).

Main statement: what operations have made of a registry is listed so, and whoever asks a node for
its instances or drains it has them in this order (`listed_after`).
-/

namespace VmNode

/-! ### Points in time -/

namespace Timestamp

variable {a b : Timestamp}

/-- A point in time is before another. -/
def Before (a b : Timestamp) : Prop :=
  a.seconds < b.seconds ∨ a.seconds = b.seconds ∧ a.nanos < b.nanos

instance : Std.TransOrd Timestamp :=
  inferInstanceAs (Std.TransCmp (compareLex (compareOn seconds) (compareOn nanos)))

instance : Std.LawfulEqOrd Timestamp where
  eq_of_compare {a b} h := by
    obtain ⟨hseconds, hnanos⟩ := Ordering.then_eq_eq.1 h
    cases a
    cases b
    exact congrArg₂ mk (Std.LawfulEqCmp.eq_of_compare hseconds)
      (Std.LawfulEqCmp.eq_of_compare hnanos)

/-- Points in time are compared by their seconds and then by what is left of a second. -/
theorem compare_eq_lt_iff : compare a b = .lt ↔ a.Before b := by
  refine Ordering.then_eq_lt.trans ?_
  rw [Before, compare_lt_iff_lt, compare_lt_iff_lt, compare_eq_iff_eq]

end Timestamp

/-! ### The order of instances -/

namespace InstanceInfo

variable {a b c : InstanceInfo}

/-- An instance was made before another, or at the same time and its identifier has the lesser
    bytes. -/
def Precedes (a b : InstanceInfo) : Prop :=
  a.createdAt.Before b.createdAt ∨
    a.createdAt = b.createdAt ∧ Text.Utf8.encode a.id < Text.Utf8.encode b.id

/-- How two instances compare that are to be listed. -/
abbrev order : InstanceInfo → InstanceInfo → Ordering :=
  compareLex (compareOn createdAt) (compareOn id)

/-- The order by bytes is the order that the list is sorted by, since comparing the characters of
    identifiers is comparing their bytes. -/
theorem precedes_iff : a.Precedes b ↔ order a b = .lt := by
  rw [Precedes, Text.Utf8.encode_lt_encode_iff, ← Timestamp.compare_eq_lt_iff]
  refine Iff.trans ?_ Ordering.then_eq_lt.symm
  rw [compareOn, compareOn, Std.LawfulEqCmp.compare_eq_iff_eq, compare_lt_iff_lt]

/-- No two instances precede each other. -/
theorem Precedes.asymm (hab : a.Precedes b) (hba : b.Precedes a) : False := by
  rw [precedes_iff] at hab hba
  cases hba.symm.trans (Std.OrientedCmp.gt_of_lt hab)

theorem Precedes.ne (h : a.Precedes b) : a ≠ b := by
  rintro rfl
  exact h.asymm h

/-- Of two instances with different identifiers, the one that is not listed after the other
    precedes it. -/
theorem precedes_of_listedBefore (h : Registry.listedBefore a b = true) (hid : a.id ≠ b.id) :
    a.Precedes b := by
  have hle : (order a b).isLE = true := h
  rw [precedes_iff]
  cases horder : order a b with
  | lt => rfl
  | eq =>
    have heq : compare a.id b.id = .eq := (Ordering.then_eq_eq.1 horder).2
    exact absurd (Std.LawfulEqCmp.eq_of_compare heq) hid
  | gt =>
    rw [horder] at hle
    cases hle

end InstanceInfo

namespace Registry

variable {π : Type} {g g' : Registry π} {id : InstanceId} {info : InstanceInfo}
variable {l : List InstanceInfo}

/-- What is sorted by is transitive. -/
theorem listedBefore_trans (a b c : InstanceInfo) (hab : listedBefore a b = true)
    (hbc : listedBefore b c = true) : listedBefore a c = true := by
  have hac : (InstanceInfo.order a c).isLE = true := Std.TransCmp.isLE_trans hab hbc
  exact hac

/-- Any two instances can be put in order. -/
theorem listedBefore_total (a b : InstanceInfo) :
    (listedBefore a b || listedBefore b a) = true := by
  rw [Bool.or_eq_true]
  cases horder : InstanceInfo.order a b with
  | lt | eq => exact .inl (congrArg Ordering.isLE horder)
  | gt =>
    have hba : InstanceInfo.order b a = .lt := Std.OrientedCmp.lt_of_gt horder
    exact .inr (congrArg Ordering.isLE hba)

/-- Instances with different identifiers are listed one before the other. -/
theorem pairwise_precedes_mergeSort (h : (l.map InstanceInfo.id).Nodup) :
    (l.mergeSort listedBefore).Pairwise InstanceInfo.Precedes := by
  have hids : ((l.mergeSort listedBefore).map InstanceInfo.id).Nodup :=
    ((l.mergeSort_perm listedBefore).map InstanceInfo.id).nodup_iff.2 h
  rw [List.Nodup, List.pairwise_map] at hids
  have hsorted := List.pairwise_mergeSort listedBefore_trans listedBefore_total l
  exact hsorted.imp₂ (fun _ _ => InstanceInfo.precedes_of_listedBefore) hids

/-- The same instances are listed in one way only. -/
theorem eq_of_pairwise_precedes {m : List InstanceInfo} (hl : l.Pairwise InstanceInfo.Precedes)
    (hm : m.Pairwise InstanceInfo.Precedes) (h : ∀ info, info ∈ l ↔ info ∈ m) : l = m := by
  have hperm : l.Perm m := (List.perm_ext_iff_of_nodup (hl.imp InstanceInfo.Precedes.ne)
    (hm.imp InstanceInfo.Precedes.ne)).2 h
  exact hperm.eq_of_pairwise (fun _ _ _ _ hab hba => (hab.asymm hba).elim) hl hm

/-- What is answered about an instance is in its record. -/
theorem get_eq_ok_iff : g.get id = .ok info ↔
    ∃ r, g.records.find? id = some r ∧ r.info = info := by
  rw [get]
  cases hfind : g.records.find? id with
  | none =>
    rw [lookUp_of_find?_none hfind]
    constructor
    · intro h
      cases h
    · rintro ⟨_, hq, -⟩
      cases hq
  | some r =>
    rw [lookUp_of_find? hfind]
    exact ⟨fun h => ⟨r, rfl, Except.ok.inj h⟩, fun ⟨q, hq, h⟩ => Option.some.inj hq ▸ h ▸ rfl⟩

namespace Keyed

variable (hg : g.Keyed)
include hg

/-- No instance is listed twice. -/
theorem nodup_list : (g.list.map InstanceInfo.id).Nodup :=
  hg.perm_list.nodup_iff.2 g.records.nodup_keys

/-- What is listed of an instance is what is answered about it. -/
theorem mem_list_iff : info ∈ g.list ↔ g.get info.id = .ok info := by
  rw [list, List.mem_mergeSort, List.mem_map, get_eq_ok_iff]
  constructor
  · rintro ⟨r, hr, rfl⟩
    obtain ⟨⟨id, _⟩, he, rfl⟩ := List.mem_map.1 hr
    have hfind := g.records.mem_entries_iff.1 he
    exact ⟨_, hg id _ hfind ▸ hfind, rfl⟩
  · rintro ⟨r, hfind, rfl⟩
    exact ⟨r, List.mem_map.2 ⟨_, g.records.mem_entries_iff.2 hfind, rfl⟩, rfl⟩

/-- The list is in order. -/
theorem pairwise_list : g.list.Pairwise InstanceInfo.Precedes := by
  refine pairwise_precedes_mergeSort ?_
  exact ((List.mergeSort_perm _ _).map InstanceInfo.id).nodup_iff.1 hg.nodup_list

/-- Whatever order the records come in, they are listed in the same way. -/
theorem list_eq_of_perm {records : List (Record π)} (h : records.Perm g.records.values) :
    (records.map Record.info).mergeSort listedBefore = g.list := by
  have hperm : ((records.map Record.info).mergeSort listedBefore).Perm g.list :=
    (List.mergeSort_perm _ _).trans ((h.map Record.info).trans (List.mergeSort_perm _ _).symm)
  refine eq_of_pairwise_precedes (pairwise_precedes_mergeSort ?_) hg.pairwise_list
    fun _ => hperm.mem_iff
  exact (((List.mergeSort_perm _ _).symm.trans hperm).map InstanceInfo.id).nodup_iff.2 hg.nodup_list

end Keyed

/-- How the instances of a registry are listed. -/
structure Listed (g : Registry π) : Prop where
  /-- Every instance that is registered is listed, and once, and no other is. -/
  once : ∀ id, (g.list.map InstanceInfo.id).count id = if g.contains id then 1 else 0
  /-- What is listed of an instance is what is known of it. -/
  known : ∀ info ∈ g.list, g.get info.id = .ok info
  /-- One instance precedes all that are listed after it. -/
  ordered : g.list.Pairwise InstanceInfo.Precedes
  /-- Whatever order the records come in, sorting them gives this list. -/
  arranged : ∀ records : List (Record π), records.Perm g.records.values →
    (records.map Record.info).mergeSort listedBefore = g.list
  /-- No other list of the instances is in order. -/
  unique : ∀ l : List InstanceInfo, (∀ info, info ∈ l ↔ g.get info.id = .ok info) →
    l.Pairwise InstanceInfo.Precedes → l = g.list
  /-- Operations that lead to the same instances lead to the same list. -/
  determined : ∀ ops : List (Operation π), (∀ id, (empty.after ops).get id = g.get id) →
    (empty.after ops).list = g.list

/-- A registry whose records are under their own identifiers is listed in the only way there is. -/
theorem Keyed.listed (hg : g.Keyed) : g.Listed where
  once id := by
    have hmem := hg.perm_list.mem_iff.trans (g.records.mem_keys_iff (k := id))
    rw [hg.nodup_list.count]
    exact if_congr hmem rfl rfl
  known _ hinfo := hg.mem_list_iff.1 hinfo
  ordered := hg.pairwise_list
  arranged _ h := hg.list_eq_of_perm h
  unique _ hmem hl := eq_of_pairwise_precedes hl hg.pairwise_list fun info =>
    (hmem info).trans hg.mem_list_iff.symm
  determined ops hsame := by
    have hops := keyed_empty.after ops
    refine eq_of_pairwise_precedes hops.pairwise_list hg.pairwise_list fun info => ?_
    rw [hops.mem_list_iff, hg.mem_list_iff, hsame]

end Registry

/-! ### Nodes -/

namespace Node

/-- A drain has one member for each identifier, in their order. -/
theorem map_fst_spawnMembers (l : List InstanceId) (n : Node) :
    (n.spawnMembers l).2.map Prod.fst = l := by
  induction l generalizing n with
  | nil => rfl
  | cons id rest ih => exact congrArg (id :: ·) (ih _)

/-- The identifiers that a node answers and those that a drain goes through are in the order of
    the list. -/
structure Lists (n : Node) : Prop where
  /-- Whoever asks for the instances has them in this order. -/
  asked : n.instanceIds = n.registry.list.map InstanceInfo.id
  /-- A drain goes through all of them in this order. -/
  drained : ∃ m members, n.stepDrain .list = some (m, .await members) ∧
    members.map Prod.fst = n.registry.list.map InstanceInfo.id

/-- A node asks its registry. -/
theorem lists (n : Node) : n.Lists where
  asked := rfl
  drained := ⟨_, _, rfl, map_fst_spawnMembers _ n⟩

end Node

/-- Whatever operations have made of a registry, it lists each instance once, the oldest first
    and by the bytes of the identifiers among those of the same time, in the only order that
    there is; and a node shows and drains its instances in the order of its registry. -/
theorem listed_after : (∀ {π : Type} (ops : List (Registry.Operation π)),
    (Registry.empty.after ops).Listed) ∧ ∀ n : Node, n.Lists :=
  ⟨fun ops => (Registry.keyed_empty.after ops).listed, Node.lists⟩

end VmNode
