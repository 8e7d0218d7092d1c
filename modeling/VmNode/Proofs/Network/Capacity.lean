import Mathlib.Order.Bounds.Basic
import VmNode.Proofs.Network.Callers
import VmNode.Proofs.Network.Run

/-!
# How many slots there are

A slot is held from the moment a call takes it until the work of giving it back is
finished. Whatever calls were made, and however their steps fell between each other, the
slots that are held are distinct numbers below the number of slots of the subnet. So a
lease takes the least slot that is not held, and it is refused for want of a slot exactly
when all of them are held (`Traffic.least_free_slot`).
-/

namespace VmNode

namespace Pool

variable {c : NetworkConfig} {p : Pool} {slot : Nat}

/-- The slots of the subnet that nobody holds. -/
def freeSlots (c : NetworkConfig) (p : Pool) : Set Nat :=
  {slot | slot < c.slotCount ∧ p.slots.find? slot = none}

/-- A slot that is found free is the least one. -/
theorem isLeast_of_freeSlot? (h : p.freeSlot? c.slotCount = some slot) :
    IsLeast (p.freeSlots c) slot := by
  obtain ⟨hnone, hlt, hbelow⟩ := freeSlot?_eq_some h
  refine ⟨⟨hlt, hnone⟩, fun j hj => ?_⟩
  by_contra hlow
  have hheld := hbelow j (Nat.lt_of_not_le hlow)
  rw [hj.2] at hheld
  cases hheld

/-- If no slot is found free, all are held. -/
theorem isSome_of_freeSlot?_eq_none (h : p.freeSlot? c.slotCount = none)
    (hlt : slot < c.slotCount) : (p.slots.find? slot).isSome := by
  rw [freeSlot?] at h
  split at h
  · cases h
  · rename_i hgap
    obtain ⟨-, hbelow⟩ := lookup_firstGap (n := 0) p.slots.sorted fun _ _ => Nat.zero_le _
    exact hbelow slot (Nat.zero_le _) (hlt.trans_le (Nat.le_of_not_lt hgap))

/-- The least free slot is found. -/
theorem freeSlot?_eq_some_iff :
    p.freeSlot? c.slotCount = some slot ↔ IsLeast (p.freeSlots c) slot := by
  refine ⟨isLeast_of_freeSlot?, fun hleast => ?_⟩
  cases hfree : p.freeSlot? c.slotCount with
  | none =>
    have hheld := isSome_of_freeSlot?_eq_none hfree hleast.1.1
    rw [hleast.1.2] at hheld
    cases hheld
  | some j => rw [(isLeast_of_freeSlot? hfree).unique hleast]

/-- None is found exactly when all are held. -/
theorem freeSlot?_eq_none_iff :
    p.freeSlot? c.slotCount = none ↔ ∀ slot < c.slotCount, (p.slots.find? slot).isSome := by
  refine ⟨fun h slot hlt => isSome_of_freeSlot?_eq_none h hlt, fun hall => ?_⟩
  cases hfree : p.freeSlot? c.slotCount with
  | none => rfl
  | some j =>
    obtain ⟨hlt, hnone⟩ := (isLeast_of_freeSlot? hfree).1
    have hheld := hall j hlt
    rw [hnone] at hheld
    cases hheld

/-- No more slots are held than there are. -/
theorem Within.inUse_le (hp : p.Within c) : p.inUse ≤ c.slotCount := by
  have hsub : p.slots.keys ⊆ List.range c.slotCount := fun s hs =>
    List.mem_range.2 (hp s (p.slots.mem_keys_iff.1 hs))
  calc p.inUse
    _ = p.slots.keys.length := (List.length_map _).symm
    _ ≤ (List.range c.slotCount).length := (p.slots.nodup_keys.subperm hsub).length_le
    _ = c.slotCount := List.length_range

/-- If all slots are held, as many are held as there are. -/
theorem Within.inUse_eq (hp : p.Within c)
    (hall : ∀ slot < c.slotCount, (p.slots.find? slot).isSome) : p.inUse = c.slotCount := by
  have hperm : p.slots.keys.Perm (List.range c.slotCount) :=
    (List.perm_ext_iff_of_nodup p.slots.nodup_keys List.nodup_range).2 fun s => by
      rw [p.slots.mem_keys_iff, List.mem_range]
      exact ⟨hp s, hall s⟩
  calc p.inUse
    _ = p.slots.keys.length := (List.length_map _).symm
    _ = (List.range c.slotCount).length := hperm.length_eq
    _ = c.slotCount := List.length_range

theorem usesTap_eq_false {tap : String}
    (h : ∀ s g, p.slots.find? s = some g → g.link.tap ≠ tap) : p.usesTap tap = false := by
  rw [usesTap, List.any_eq_false]
  intro g hg
  obtain ⟨⟨s, _⟩, he, rfl⟩ := List.mem_map.1 hg
  simpa using h s _ ((Table.mem_entries_iff _).1 he)

end Pool

/-! ### The first step of a lease -/

section Begin

variable {c : NetworkConfig} {ownerBase : Option Nat} {p : Pool} {id : InstanceId}

theorem Call.begin_lease_of_free (htap : p.usesTap (GuestLink.tapOf id) = false) {slot : Nat}
    (hfree : p.freeSlot? c.slotCount = some slot) :
    (Call.lease id).begin c ownerBase p =
      ({ p with
          slots := p.slots.insert slot ⟨id, Pool.linkFor c ownerBase id slot, [], .empty, false⟩ },
        .going (.lease id slot (Pool.linkFor c ownerBase id slot) .create)) := by
  rw [Call.begin, Pool.take, htap, hfree]
  rfl

theorem Call.begin_lease_of_full (htap : p.usesTap (GuestLink.tapOf id) = false)
    (hfree : p.freeSlot? c.slotCount = none) :
    (Call.lease id).begin c ownerBase p = (p, .done (.error (.addressPoolExhausted p.inUse))) := by
  rw [Call.begin, Pool.take, htap, hfree]
  rfl

end Begin

namespace Traffic

variable {c : NetworkConfig} {ownerBase : Option Nat} {t : Traffic}

/-- Whatever calls were made and are in progress: a lease for an instance whose tap device
    no slot uses takes the least slot of the subnet that is not held. It is refused for want
    of a slot, with the number of slots, exactly when all slots are held: a call that has
    taken one does not end so, whatever happens beside it, unless the host says so. No more
    slots are held than there are. -/
theorem least_free_slot (h : Arises (fun _ _ => True) c ownerBase t) {id : InstanceId}
    (htap : ∀ s g, t.pool.slots.find? s = some g → g.link.tap ≠ GuestLink.tapOf id) :
    (∀ slot, IsLeast (t.pool.freeSlots c) slot ↔
      (Call.lease id).begin c ownerBase t.pool =
        ({ t.pool with
            slots := t.pool.slots.insert slot
              ⟨id, Pool.linkFor c ownerBase id slot, [], .empty, false⟩ },
          .going (.lease id slot (Pool.linkFor c ownerBase id slot) .create))) ∧
    (∀ {σ : Type} (getPool : σ → Pool) (setPool : σ → Pool → σ)
      (host : σ → HostCall → σ × Except Error Unit) (s : σ), getPool s = t.pool →
      (∀ s call n, (host s call).2 ≠ .error (.addressPoolExhausted n)) →
      ∀ n, ((Call.lease id).run c ownerBase getPool setPool host s).2 =
          .error (.addressPoolExhausted n) ↔
        (∀ slot < c.slotCount, (t.pool.slots.find? slot).isSome) ∧ n = c.slotCount) ∧
    t.pool.inUse ≤ c.slotCount := by
  have htap' := Pool.usesTap_eq_false htap
  refine ⟨fun slot => ?_, fun getPool setPool host s hpool hhost n => ?_, h.within.inUse_le⟩
  · -- the call takes the slot that the search finds, and what it takes tells which
    rw [← Pool.freeSlot?_eq_some_iff]
    refine ⟨Call.begin_lease_of_free htap', fun hbegin => ?_⟩
    have hprogress := congrArg Prod.snd hbegin
    cases hfree : t.pool.freeSlot? c.slotCount with
    | none =>
      rw [Call.begin_lease_of_full htap' hfree] at hprogress
      cases hprogress
    | some j =>
      rw [Call.begin_lease_of_free htap' hfree, Progress.going.injEq, Job.lease.injEq] at hprogress
      rw [hprogress.2.1]
  · -- with a slot in hand, the call ends in an error only if the host answers with it
    rw [← Pool.freeSlot?_eq_none_iff, Call.run, hpool]
    cases hfree : t.pool.freeSlot? c.slotCount with
    | none =>
      rw [Call.begin_lease_of_full htap' hfree,
        h.within.inUse_eq (Pool.freeSlot?_eq_none_iff.1 hfree)]
      simp [eq_comm]
    | some j =>
      rw [Call.begin_lease_of_free htap' hfree]
      refine ⟨fun hrun => ?_, fun hnone => absurd hnone.1 (by simp)⟩
      obtain ⟨s, call, herror⟩ := Job.exists_error_of_run_lease hrun
      exact absurd herror (hhost s call n)

/-- The first slot is leased and given back, and while its link is taken down the same
    instance leases the next one. -/
def leaseDuringRelease : List Event :=
  let l := Job.leaseOf "i-1" 0 (Pool.linkFor {} none "i-1" 0)
  let ok (n : Nat) : Event := .answer n (.ok ())
  [.begin (.lease "i-1"), ok 0, ok 0, ok 0, ok 0, .settle 0, .begin (.lease "i-2"),
    .begin (.release l), ok 2, ok 2, ok 2]

/-- A slot that is still being set up and one that is still being taken down are held, so
    the third one is taken. -/
theorem begin_eq_leaseDuringRelease : ∃ t, (start {} none).playFreely leaseDuringRelease = some t ∧
    (∀ s g, t.pool.slots.find? s = some g → g.link.tap ≠ GuestLink.tapOf "i-3") ∧
    ((Call.lease "i-3").begin {} none t.pool).1.slots.find? 2 =
      some ⟨"i-3", Pool.linkFor {} none "i-3" 2, [], .empty, false⟩ := by
  let t := ((start {} none).playFreely leaseDuringRelease).get (by decide +kernel)
  have hplay : (start {} none).playFreely leaseDuringRelease = some t := (Option.some_get _).symm
  have htap : t.pool.usesTap (GuestLink.tapOf "i-3") = false := by decide +kernel
  have hleast : IsLeast (t.pool.freeSlots {}) 2 :=
    Pool.freeSlot?_eq_some_iff.1 (by decide +kernel)
  have htaps := fun s g => Pool.tap_ne_of_usesTap_eq_false htap (s := s) (g := g)
  refine ⟨t, hplay, htaps, ?_⟩
  rw [((least_free_slot (Arises.start.playFreely hplay) htaps).1 2).1 hleast]
  exact Table.find?_insert_self ..

end Traffic

end VmNode
