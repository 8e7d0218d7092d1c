import VmNode.Proofs.Network.Owner

/-!
# What a lease tells

A lease tells all of the link that was set up for it: the slot, the addresses and the names
of the devices. The instance that it was granted to has no other slot, not before it gives
the lease back and not afterwards (`Traffic.Told`). So whatever slot the pool has for an
instance is the one that its lease tells of.
-/

namespace VmNode

variable {c : NetworkConfig} {ownerBase : Option Nat} {p p' : Pool} {s : Nat} {g' : Holding}

/-- No two slots are held for one instance. -/
theorem Pool.Regular.eq_of_holder (hp : p.Regular c ownerBase) {s' : Nat} {g : Holding}
    (hfind : p.slots.find? s = some g) (hfind' : p.slots.find? s' = some g')
    (hholder : g.holder = g'.holder) : s = s' := by
  by_contra hne
  refine hp.tap s s' g g' hne hfind hfind' ?_
  rw [hp.link s g hfind, hp.link s' g' hfind', hholder]
  rfl

/-- A slot that is held was held for the same instance before, or the instance has just asked
    for one. -/
theorem Call.Begins.holder_origin {call : Call} {progress : Progress}
    (h : call.Begins c ownerBase p p' progress) (hfind' : p'.slots.find? s = some g') :
    (∃ g, p.slots.find? s = some g ∧ g.holder = g'.holder) ∨ call = .lease g'.holder := by
  cases h with
  | refused | known => exact .inl ⟨g', hfind', rfl⟩
  | lease =>
    rcases Table.find?_insert_eq_some hfind' with ⟨-, rfl⟩ | ⟨-, hold⟩
    · exact .inr rfl
    · exact .inl ⟨g', hold, rfl⟩
  | @release l g hfind | @publish id n m g _ hfind =>
    rcases Table.find?_insert_eq_some hfind' with ⟨rfl, rfl⟩ | ⟨-, hold⟩
    · exact .inl ⟨g, hfind, rfl⟩
    · exact .inl ⟨g', hold, rfl⟩

/-- The lease tells the link of its slot. -/
def Lease.Tells (c : NetworkConfig) (ownerBase : Option Nat) (l : Lease) : Prop :=
  l = Job.leaseOf l.holder l.slot (Pool.linkFor c ownerBase l.holder l.slot)

/-- The slot number of a lease is that of a slot of the subnet. -/
theorem Job.slot_leaseOf (id : InstanceId) (link : GuestLink) (hs : s < c.slotCount) :
    (leaseOf id s link).slot = s :=
  UInt32.toNat_ofNat_of_lt' (Nat.lt_trans hs c.slotCount_lt)

namespace Traffic

/-- Whoever was granted a lease was told the link of the slot, and holds no other slot. -/
structure Told (t : Traffic) : Prop where
  /-- The lease shows the link of its slot. -/
  link : ∀ l ∈ t.granted, l.Tells t.config t.ownerBase
  /-- No other slot is held by the same instance. -/
  only : ∀ l ∈ t.granted, ∀ s g, t.pool.slots.find? s = some g → g.holder = l.holder → s = l.slot

namespace Told

variable {t u : Traffic}

theorem start (c : NetworkConfig) (ownerBase : Option Nat) : (start c ownerBase).Told where
  link := fun l h => by simp [Traffic.start, granted, Table.values, Table.empty] at h
  only := fun l h => by simp [Traffic.start, granted, Table.values, Table.empty] at h

/-- The address of the guest is that of the slot. -/
theorem guest (ht : t.Told) {l : Lease} (hl : l ∈ t.granted) :
    l.info.guest = t.config.guest l.slot :=
  congrArg (fun l => l.info.guest) (ht.link l hl)

/-- One call takes a step, and every lease is still worth what it was. -/
theorem setProgress {n : Nat} {progress : Progress} (hopen : t.outcomes.find? n = none)
    (hlink : ∀ l ∈ t.granted, l.Tells t.config t.ownerBase)
    (honly : ∀ l ∈ t.granted, ∀ s g, t.pool.slots.find? s = some g → g.holder = l.holder →
      s = l.slot)
    (hnew : ∀ l, progress = .done (.ok (.leased l)) → l.Tells t.config t.ownerBase ∧
      ∀ s g, t.pool.slots.find? s = some g → g.holder = l.holder → s = l.slot) :
    (t.setProgress n progress).Told := by
  have hall : ∀ l ∈ (t.setProgress n progress).granted, l ∈ t.granted ∨
      progress = .done (.ok (.leased l)) := fun l hl => by
    obtain ⟨m, hm⟩ := mem_granted.1 hl
    rcases find?_outcomes_setProgress_eq_some hm hopen with ⟨-, hprog⟩ | hold
    · exact .inr hprog
    · exact .inl (mem_granted.2 ⟨m, hold⟩)
  refine ⟨fun l hl => ?_, fun l hl => ?_⟩
  · rw [config_setProgress, ownerBase_setProgress]
    exact (hall l hl).elim (hlink l) fun h => (hnew l h).1
  · rw [pool_setProgress]
    exact (hall l hl).elim (honly l) fun h => (hnew l h).2

theorem turn (ht : t.Told) (hord : t.Orderly) (h : t.Turn u) : u.Told := by
  cases h with
  | @begin call p progress hadmits hbegins =>
    refine setProgress hord.sound.find?_outcomes_size ht.link (fun l hl s g hfind hholder => ?_)
      fun l hprog => ?_
    · rcases hbegins.holder_origin hfind with ⟨g₀, hfind₀, hg⟩ | hcall
      · exact ht.only l hl s g₀ hfind₀ (hg.trans hholder)
      · -- the instance was granted a lease, so it does not ask for one again
        obtain ⟨m, hm, -⟩ := hord.sound.exists_call_of_granted hl
        rw [← hholder] at hm
        exact absurd hm (find?_calls_ne_lease (hcall ▸ hadmits) m)
    · -- a lease is not granted at once
      subst hprog
      cases hbegins
  | @settle n job p progress hjob hsettles =>
    -- every hold was one before
    have hle := hsettles.holds_le hord.regular.within (hord.fits n job hjob).holds_le
    have hold : ∀ {s g}, p.slots.find? s = some g →
        ∃ g₀, t.pool.slots.find? s = some g₀ ∧ g₀.holder = g.holder := fun {s g} hfind => by
      have hx : ⟨s, g.holder, g.releasing⟩ ∈ p.holds := Pool.mem_holds.2 ⟨g, hfind, rfl, rfl⟩
      obtain ⟨g₀, hfind₀, hholder, -⟩ := Pool.mem_holds.1 (Multiset.mem_of_le hle hx)
      exact ⟨g₀, hfind₀, hholder⟩
    refine setProgress (hord.sound.pending n job hjob) ht.link (fun l hl s g hfind hholder => ?_)
      fun l hprog => ?_
    · obtain ⟨g₀, hfind₀, hg⟩ := hold hfind
      exact ht.only l hl s g₀ hfind₀ (hg.trans hholder)
    · subst hprog
      obtain ⟨id, slot, link, rules, rfl, rfl⟩ := hsettles.eq_leaseOf
      have hmine : t.pool.slots.find? slot = some ⟨id, link, [], .empty, false⟩ :=
        hord.fits n _ hjob
      have hslot := Job.slot_leaseOf id link (hord.regular.within slot (by simp [hmine]))
      refine ⟨?_, fun s g hfind hholder => ?_⟩
      · rw [Lease.Tells, hslot]
        exact congrArg (Job.leaseOf id slot) (hord.regular.link slot _ hmine)
      · obtain ⟨g₀, hfind₀, hg⟩ := hold hfind
        rw [hslot]
        exact hord.regular.eq_of_holder hfind₀ hmine (hg.trans hholder)
  | @answer n job host result hjob hhost =>
    exact setProgress (hord.sound.pending n job hjob) ht.link ht.only fun l hprog =>
      absurd hprog (job.answer_ne_ok _ _ _)

end Told

theorem Reachable.told {t : Traffic} (h : Reachable c ownerBase t) : t.Told := by
  induction h with
  | start => exact .start c ownerBase
  | step h hstep ih => exact ih.turn h.orderly (turn_of_step hstep)

end Traffic

end VmNode
