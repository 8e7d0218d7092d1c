import VmNode.Network.Pool
import VmNode.Proofs.Tally

/-!
# What the operations on a pool do

For each operation of the pool, when it succeeds and what it leaves: the entry of one
slot changes, or the entry of one port of the host, and no other.

* `Pool.freeSlot?_eq_some`: the slot that is found is free, and no lower one is.
* `Pool.take_eq_ok`, `Pool.beginRelease_eq_ok`, `Pool.takePort_eq_ok`,
  `Pool.recordPort?_eq_some`: the operations that can be refused.
-/

namespace VmNode.Pool

/-! ### Free slots -/

/-- The search for a gap does not go back. -/
theorem le_firstGap {α : Type} (n : Nat) (l : List (Nat × α)) : n ≤ firstGap n l := by
  induction l generalizing n with
  | nil => exact Nat.le_refl _
  | cons e l ih =>
    rw [firstGap]
    split
    · exact Nat.le_of_succ_le (ih (n + 1))
    · exact Nat.le_refl _

/-- The first gap among increasing keys from `n` on is no key, and each number below it
    is one. -/
theorem lookup_firstGap {α : Type} {n : Nat} {l : List (Nat × α)}
    (hl : l.Pairwise fun a b => compare a.1 b.1 = .lt) (hn : ∀ e ∈ l, n ≤ e.1) :
    Table.lookup (firstGap n l) l = none ∧
      ∀ j, n ≤ j → j < firstGap n l → (Table.lookup j l).isSome := by
  -- the keys increase, so a key that is above `n` leaves `n` free
  induction l generalizing n with
  | nil => exact ⟨rfl, fun j h h' => absurd h' (Nat.not_lt.2 h)⟩
  | cons e rest ih =>
    obtain ⟨k, a⟩ := e
    have hk : n ≤ k := hn _ List.mem_cons_self
    have hrest : ∀ e ∈ rest, k < e.1 := fun e he =>
      Nat.compare_eq_lt.1 ((List.pairwise_cons.1 hl).1 e he)
    have hup : ∀ j, k < j → Table.lookup j ((k, a) :: rest) = Table.lookup j rest := fun j hj => by
      rw [Table.lookup, Nat.compare_eq_gt.2 hj]
    by_cases heq : k = n
    · -- the first key is no gap, and the search goes on behind it
      subst heq
      obtain ⟨hgap, hbelow⟩ := ih (n := k + 1) hl.of_cons hrest
      rw [firstGap, if_pos rfl]
      refine ⟨by rw [hup _ (le_firstGap _ _)]; exact hgap, fun j hj hlt => ?_⟩
      rcases Nat.eq_or_lt_of_le hj with rfl | hj
      · simp [Table.lookup]
      · rw [hup j hj]
        exact hbelow j hj hlt
    · rw [firstGap, if_neg heq]
      refine ⟨?_, fun j h h' => absurd h' (Nat.not_lt.2 h)⟩
      rw [Table.lookup, Nat.compare_eq_lt.2 (Nat.lt_of_le_of_ne hk (Ne.symm heq))]

/-- The slot that is found is free, below the bound, and the least free one. -/
theorem freeSlot?_eq_some {p : Pool} {count slot : Nat} (h : p.freeSlot? count = some slot) :
    p.slots.find? slot = none ∧ slot < count ∧ ∀ j < slot, (p.slots.find? j).isSome := by
  rw [freeSlot?] at h
  split at h
  · rename_i hlt
    cases h
    obtain ⟨hgap, hbelow⟩ := lookup_firstGap (n := 0) p.slots.sorted fun _ _ => Nat.zero_le _
    exact ⟨hgap, hlt, fun j hj => hbelow j (Nat.zero_le _) hj⟩
  · cases h

/-- No slot uses a tap device of which the pool says so. -/
theorem tap_ne_of_usesTap_eq_false {p : Pool} {tap : String} (h : p.usesTap tap = false) {s : Nat}
    {g : Holding} (hs : p.slots.find? s = some g) : g.link.tap ≠ tap := fun heq => by
  have hmem : g ∈ p.slots.values := List.mem_map.2 ⟨(s, g), (Table.mem_entries_iff _).2 hs, rfl⟩
  have : p.usesTap tap = true := List.any_eq_true.2 ⟨g, hmem, by simp [heq]⟩
  simp [this] at h

/-! ### Operations that can be refused -/

variable {c : NetworkConfig} {ownerBase : Option Nat} {p p' : Pool}

/-- Taking a slot puts a new holding, without rules and ports, where there was none. -/
theorem take_eq_ok {id : InstanceId} {slot : Nat} {link : GuestLink}
    (h : p.take c ownerBase id = .ok (slot, link, p')) :
    p.usesTap (GuestLink.tapOf id) = false ∧ p.slots.find? slot = none ∧ slot < c.slotCount ∧
      link = linkFor c ownerBase id slot ∧
      p' = { p with slots := p.slots.insert slot ⟨id, link, [], .empty, false⟩ } := by
  rw [take] at h
  split at h
  · cases h
  · rename_i htap
    split at h
    · cases h
    · rename_i hfree
      simp only [Except.ok.injEq, Prod.mk.injEq] at h
      obtain ⟨rfl, rfl, rfl⟩ := h
      obtain ⟨hnone, hlt, -⟩ := freeSlot?_eq_some hfree
      exact ⟨by simpa using htap, hnone, hlt, rfl, rfl⟩

/-- A slot is given back by the instance that holds it, once. -/
theorem beginRelease_eq_ok {l : Lease} {g : Holding} (h : p.beginRelease l = .ok (g, p')) :
    p.slots.find? l.slot = some g ∧ g.holder = l.holder ∧ g.releasing = false ∧
      p' = { p with slots := p.slots.insert l.slot { g with releasing := true } } := by
  rw [beginRelease] at h
  split at h
  · rename_i hfind
    split at h
    · rename_i hmine
      cases h
      exact ⟨hfind, hmine.1, hmine.2, rfl⟩
    · cases h
  · cases h

/-- The lease of a slot that is held and not being given back can be given back. -/
theorem beginRelease_of_held {l : Lease} {g : Holding} (hfind : p.slots.find? l.slot = some g)
    (hmine : g.holder = l.holder) (hfree : g.releasing = false) :
    p.beginRelease l =
      .ok (g, { p with slots := p.slots.insert l.slot { g with releasing := true } }) := by
  rw [beginRelease, hfind]
  simp [hmine, hfree]

/-- A port is reserved for the instance that holds a slot. -/
theorem takePort_eq_ok {id : InstanceId} {slot : Nat} {m : PortMapping} {hostLink : String}
    (h : p.takePort id slot m = .ok (some hostLink, p')) :
    p.hostPorts.find? m.hostPort = none ∧
      ∃ g, p.slots.find? slot = some g ∧ g.holder = id ∧ g.releasing = false ∧
        hostLink = g.link.hostLink ∧
        p' = ⟨p.slots.insert slot { g with ports := g.ports.insert m.hostPort ⟨m.guestPort, []⟩ },
          p.hostPorts.insert m.hostPort slot⟩ := by
  rw [takePort] at h
  split at h
  · split at h <;> cases h
  · rename_i hport
    split at h
    · rename_i g hfind
      split at h
      · rename_i hmine
        cases h
        exact ⟨hport, g, hfind, hmine.1, hmine.2, rfl, rfl⟩
      · cases h
    · cases h

/-- A port that is published already is not reserved again. -/
theorem takePort_eq_ok_none {id : InstanceId} {slot : Nat} {m : PortMapping}
    (h : p.takePort id slot m = .ok (none, p')) : p.isPublished id slot m = true ∧ p' = p := by
  rw [takePort] at h
  split at h
  · split at h
    · rename_i hmine
      cases h
      exact ⟨hmine.2, rfl⟩
    · cases h
  · split at h
    · split at h <;> cases h
    · cases h

/-- A slot is that of an instance if it is held for it. -/
theorem heldBy?_eq_some {id : InstanceId} {slot : Nat} {g : Holding} :
    p.heldBy? slot id = some g ↔ p.slots.find? slot = some g ∧ g.holder = id := by
  simp [heldBy?, Option.filter_eq_some_iff]

/-- A mapping is published if it is among the ports of a slot that the instance holds,
    whether it has its rules already or not. -/
theorem isPublished_eq_true {id : InstanceId} {slot : Nat} {m : PortMapping} :
    p.isPublished id slot m = true ↔ ∃ g port, p.slots.find? slot = some g ∧ g.holder = id ∧
      g.ports.find? m.hostPort = some port ∧ port.guestPort = m.guestPort := by
  simp only [isPublished, Option.any_eq_true, Option.bind_eq_some_iff, heldBy?_eq_some, beq_iff_eq]
  constructor
  · rintro ⟨port, ⟨g, ⟨hfind, hholder⟩, hport⟩, hguest⟩
    exact ⟨g, port, hfind, hholder, hport, hguest⟩
  · rintro ⟨g, port, hfind, hholder, hport, hguest⟩
    exact ⟨port, ⟨g, ⟨hfind, hholder⟩, hport⟩, hguest⟩

/-- The rules of a port are written down for an instance that still holds the slot. -/
theorem recordPort?_eq_some {id : InstanceId} {slot : Nat} {m : PortMapping}
    {rules : List FirewallRule} (h : p.recordPort? id slot m rules = some p') :
    ∃ g port, p.slots.find? slot = some g ∧ g.holder = id ∧ g.releasing = false ∧
      g.ports.find? m.hostPort = some port ∧
      p' = { p with
        slots := p.slots.insert slot
          { g with ports := g.ports.insert m.hostPort { port with rules } } } := by
  rw [recordPort?] at h
  split at h
  · cases h
  · rename_i g hheld
    split at h
    · cases h
    · rename_i hfree
      split at h
      · cases h
      · rename_i port hport
        cases h
        obtain ⟨hfind, hmine⟩ := heldBy?_eq_some.1 hheld
        exact ⟨g, port, hfind, hmine, by simpa using hfree, hport, rfl⟩

/-- A reservation is taken back from an instance that still holds the slot. -/
theorem abandonPort_cases (p : Pool) (id : InstanceId) (slot : Nat) (m : PortMapping) :
    (p.heldBy? slot id = none ∧ p.abandonPort id slot m = p) ∨
      ∃ g, p.slots.find? slot = some g ∧ g.holder = id ∧
        p.abandonPort id slot m = ⟨p.slots.insert slot { g with ports := g.ports.erase m.hostPort },
          p.hostPorts.erase m.hostPort⟩ := by
  rw [abandonPort]
  split
  · rename_i hheld
    exact .inl ⟨hheld, rfl⟩
  · rename_i g hheld
    obtain ⟨hfind, hmine⟩ := heldBy?_eq_some.1 hheld
    exact .inr ⟨g, hfind, hmine, rfl⟩

end VmNode.Pool
