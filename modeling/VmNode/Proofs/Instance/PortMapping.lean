import Mathlib.Data.List.Sort
import VmNode.Instance.Info

/-!
# Lists of published ports

A record keeps its published ports in order. A port that is not among them yet joins them
in its place (`PortMapping.Joins`), and as long as no port of the host is there twice, each
one is below those after it (`PortMapping.Increasing`). Of two such lists, one is a part of
the other as soon as it has no other members (`PortMapping.Increasing.sublist`).
-/

namespace VmNode.PortMapping

variable {m : PortMapping} {l l' : List PortMapping}

/-- Each port of the host is below those after it, so none is there twice. -/
def Increasing (l : List PortMapping) : Prop := l.Pairwise fun a b => a.hostPort < b.hostPort

instance : Std.TransOrd PortMapping :=
  inferInstanceAs (Std.TransCmp (compareLex (compareOn hostPort) (compareOn guestPort)))

/-- Another mapping comes first if its port of the host is lower. -/
theorem hostPort_lt {a b : PortMapping} (h : (compare a b).isLE = true)
    (hne : a.hostPort ≠ b.hostPort) : a.hostPort < b.hostPort := by
  have hcompare : ((compare a.hostPort b.hostPort).then (compare a.guestPort b.guestPort)).isLE :=
    h
  cases hport : compare a.hostPort b.hostPort with
  | lt => exact Std.compare_eq_lt.1 hport
  | eq => exact absurd (Std.compare_eq_iff_eq.1 hport) hne
  | gt =>
    rw [hport] at hcompare
    cases hcompare

/-- A mapping is new and has joined others, and all are in order. -/
structure Joins (m : PortMapping) (l l' : List PortMapping) : Prop where
  /-- It was not among the others. -/
  new : m ∉ l
  /-- It is among them now, and nothing else is new. -/
  perm : l'.Perm (m :: l)
  /-- All are in order. -/
  sorted : l'.Pairwise fun a b => (compare a b).isLE = true

theorem Joins.mergeSort (h : m ∉ l) :
    m.Joins l ((l ++ [m]).mergeSort fun a b => (compare a b).isLE) where
  new := h
  perm := (List.mergeSort_perm _ _).trans (List.perm_append_singleton m l)
  sorted := List.pairwise_mergeSort (fun _ _ _ => Std.TransCmp.isLE_trans)
    (fun a b => by
      have hswap : compare b a = (compare a b).swap := Std.OrientedCmp.eq_swap
      rw [hswap]
      cases compare a b <;> rfl) _

namespace Joins

theorem mem_iff (h : m.Joins l l') {a : PortMapping} : a ∈ l' ↔ a = m ∨ a ∈ l := by
  rw [h.perm.mem_iff, List.mem_cons]

/-- A port of the host that was not there keeps the ports increasing. -/
theorem increasing (h : m.Joins l l') (hl : Increasing l)
    (hport : ∀ a ∈ l, a.hostPort ≠ m.hostPort) : Increasing l' := by
  have hne : (m :: l).Pairwise fun a b => a.hostPort ≠ b.hostPort :=
    List.pairwise_cons.2 ⟨fun a ha => (hport a ha).symm, hl.imp UInt16.ne_of_lt⟩
  have hne' := (h.perm.pairwise_iff fun hab => hab.symm).2 hne
  exact h.sorted.imp₂ (fun _ _ => hostPort_lt) hne'

end Joins

namespace Increasing

theorem nil : Increasing [] := List.Pairwise.nil

/-- Increasing ports that are all among increasing ports stand there in the same order. -/
theorem sublist (hl : Increasing l) (hl' : Increasing l') (hsub : l ⊆ l') : l.Sublist l' := by
  have : Std.Antisymm fun a b : PortMapping => a.hostPort < b.hostPort :=
    ⟨fun _ _ hab hba => absurd hba (UInt16.lt_asymm hab)⟩
  have : Std.Irrefl fun a b : PortMapping => a.hostPort < b.hostPort :=
    ⟨fun a => UInt16.lt_irrefl a.hostPort⟩
  have hsubperm := List.subperm_of_subset (List.Pairwise.nodup hl) hsub
  exact List.sublist_of_subperm_of_pairwise hsubperm hl hl'

/-- Increasing ports with the same members are the same. -/
theorem eq (hl : Increasing l) (hl' : Increasing l') (h : ∀ a, a ∈ l ↔ a ∈ l') : l = l' :=
  (hl.sublist hl' fun a => (h a).1).antisymm (hl'.sublist hl fun a => (h a).2)

end Increasing

end VmNode.PortMapping
