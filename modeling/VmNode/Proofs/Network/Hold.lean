import VmNode.Proofs.Network.Link
import VmNode.Proofs.Network.Step

/-!
# Who holds a slot

A slot that is held is held by somebody: by a call that sets it up or gives it back,
or by whoever has the lease. A `Hold` says which slot it is, for which instance, and
whether it is being given back; the pool has one for each slot (`Pool.holds`), and so
has whoever holds it.

What a step adds to the holds of the pool it adds to those of the one who makes it
(`Call.Begins.holds`, `Job.Settles.holds`, `Job.holds_answer`). So the holds of the pool
remain what all holders have together.
-/

namespace VmNode

/-- The hold on a slot. -/
structure Hold where
  /-- The slot. -/
  slot : Nat
  /-- The instance. -/
  holder : InstanceId
  /-- The slot is being given back. -/
  isLeaving : Bool
  deriving DecidableEq

/-- The hold on a slot of which that is known. -/
def Holding.holds (slot : Nat) (g : Holding) : Multiset Hold := {⟨slot, g.holder, g.releasing⟩}

/-- What is known of a slot says who holds it. -/
theorem Holding.holds_eq {slot : Nat} {g : Holding} {holder : InstanceId} {isLeaving : Bool}
    (hholder : g.holder = holder) (hleaving : g.releasing = isLeaving) :
    g.holds slot = {⟨slot, holder, isLeaving⟩} := by
  rw [holds, hholder, hleaving]

/-- The holds on all slots. -/
def Pool.holds (p : Pool) : Multiset Hold := p.slots.tally Holding.holds

/-- The hold that comes with a lease. -/
def Lease.holds (l : Lease) : Multiset Hold := {⟨l.slot, l.holder, false⟩}

/-- The hold that a call is handed. -/
def Call.holds : Call → Multiset Hold
  | .release l => l.holds
  | .lease _ | .publish .. => 0

/-- The hold that a call in progress has. -/
def Job.holds : Job → Multiset Hold
  | .lease id slot _ _ => {⟨slot, id, false⟩}
  | .release l _ _ => {⟨l.slot, l.holder, true⟩}
  | .publish .. => 0

/-- The hold that a call has, or hands over at its end. -/
def Progress.holds : Progress → Multiset Hold
  | .going job => job.holds
  | .done (.ok (.leased l)) => l.holds
  | .done _ => 0

/-- Every slot that is held is one of the subnet. -/
def Pool.Within (c : NetworkConfig) (p : Pool) : Prop :=
  ∀ s, (p.slots.find? s).isSome → s < c.slotCount

namespace Pool

variable {c : NetworkConfig} {p : Pool}

/-- A hold is in the pool if that slot is held in that way. -/
theorem mem_holds {x : Hold} : x ∈ p.holds ↔
    ∃ g, p.slots.find? x.slot = some g ∧ g.holder = x.holder ∧ g.releasing = x.isLeaving := by
  rw [holds, Table.mem_tally]
  constructor
  · rintro ⟨s, g, hfind, hx⟩
    obtain rfl := Multiset.mem_singleton.1 hx
    exact ⟨g, hfind, rfl, rfl⟩
  · rintro ⟨g, hfind, hholder, hleaving⟩
    exact ⟨x.slot, g, hfind, by simp [Holding.holds, hholder, hleaving]⟩

/-- An entry that changes in other respects keeps its hold. -/
theorem tally_insert_holds {slot : Nat} {g g' : Holding} (hfind : p.slots.find? slot = some g)
    (hholder : g'.holder = g.holder) (hleaving : g'.releasing = g.releasing) :
    (p.slots.insert slot g').tally Holding.holds = p.slots.tally Holding.holds := by
  have h := Table.tally_insert_of_some hfind g' Holding.holds
  rw [Holding.holds, Holding.holds, hholder, hleaving] at h
  exact add_right_cancel h

/-- Freeing a slot takes its hold away. -/
theorem tally_erase_holds {slot : Nat} {holder : InstanceId} {isLeaving : Bool}
    (h : ⟨slot, holder, isLeaving⟩ ∈ p.holds) :
    (p.slots.erase slot).tally Holding.holds + {⟨slot, holder, isLeaving⟩} = p.holds := by
  obtain ⟨g, hfind, rfl, rfl⟩ := mem_holds.1 h
  exact Table.tally_erase_of_some hfind Holding.holds

/-- The pool has one hold on each slot. -/
theorem nodup_holds (p : Pool) : p.holds.Nodup := Multiset.nodup_iff_count_le_one.2 fun x => by
  -- a slot has one entry in the table, so without it the hold is not there
  by_cases hx : x ∈ p.holds
  · rw [← tally_erase_holds hx, Multiset.count_add, Multiset.count_singleton_self]
    have hnot : x ∉ (p.slots.erase x.slot).tally Holding.holds := fun h => by
      obtain ⟨g, hfind, -⟩ := (mem_holds (p := ⟨p.slots.erase x.slot, .empty⟩)).1 h
      rw [Table.find?_erase_self] at hfind
      cases hfind
    rw [Multiset.count_eq_zero.2 hnot]
  · rw [Multiset.count_eq_zero.2 hx]
    exact Nat.zero_le 1

/-- Writing down the rules of a slot changes nothing about who holds it. -/
theorem holds_record (p : Pool) (slot : Nat) (rules : List FirewallRule) :
    (p.record slot rules).holds = p.holds := by
  rw [holds, record, Table.modify]
  split
  · rfl
  · rename_i g hfind
    exact tally_insert_holds hfind rfl rfl

/-- The slot of a hold is one of the subnet. -/
theorem slot_lt_of_mem_holds (hp : p.Within c) {x : Hold} (h : x ∈ p.holds) :
    x.slot < c.slotCount := by
  obtain ⟨g, hfind, -⟩ := mem_holds.1 h
  exact hp x.slot (by simp [hfind])

end Pool

/-! ### Steps -/

variable {c : NetworkConfig} {ownerBase : Option Nat} {p p' : Pool} {progress : Progress}

/-- The slot of a lease is the one that was leased. -/
theorem Job.holds_leaseOf {id : InstanceId} {slot : Nat} (link : GuestLink)
    (hslot : slot < c.slotCount) : (leaseOf id slot link).holds = {⟨slot, id, false⟩} := by
  -- the slot number survives being written into 32 bits
  have hlt : slot < UInt32.size := hslot.trans c.slotCount_lt
  simpa [Lease.holds, leaseOf, Lease.slot] using hlt

/-- A call that begins with a hold of the pool hands on what it was handed, and whatever
    else it adds to the pool. -/
theorem Call.Begins.holds {call : Call} (h : call.Begins c ownerBase p p' progress)
    (hmine : call.holds ≤ p.holds) : p'.holds + call.holds = p.holds + progress.holds := by
  cases h with
  | refused herr =>
    cases call with
    | release l =>
      -- whoever has the hold is not refused
      obtain ⟨g, hfind, hholder, hfree⟩ := Pool.mem_holds.1 (Multiset.singleton_le.1 hmine)
      have := herr l rfl
      rw [Pool.beginRelease_of_held hfind hholder hfree] at this
      cases this
    | lease | publish => rfl
  | lease htap hnone hlt hlink =>
    exact (add_zero _).trans (Table.tally_insert_of_none hnone _ Holding.holds)
  | @release l g hfind hholder hfree =>
    have h := Table.tally_insert_of_some hfind { g with releasing := true } Holding.holds
    rwa [Holding.holds_eq hholder hfree, Holding.holds_eq (g := { g with releasing := true })
      hholder rfl] at h
  | known => rfl
  | publish hport hfind hholder hfree =>
    exact congrArg (· + 0) (Pool.tally_insert_holds hfind rfl rfl)

/-- A call that is handed a hold which the pool does not have does nothing. -/
theorem Call.Begins.eq_of_not_le {call : Call} (h : call.Begins c ownerBase p p' progress)
    (hmine : ¬ call.holds ≤ p.holds) : p' = p ∧ progress.holds = 0 := by
  cases h with
  | refused | known => exact ⟨rfl, rfl⟩
  | lease | publish => exact absurd (Multiset.zero_le _) hmine
  | release hfind hholder hfree =>
    exact absurd (Multiset.singleton_le.2 (Pool.mem_holds.2 ⟨_, hfind, hholder, hfree⟩)) hmine

/-- Once a lease is asked to be given back, its hold is gone. -/
theorem Call.Begins.not_holds_le {l : Lease}
    (h : (Call.release l).Begins c ownerBase p p' progress) : ¬ l.holds ≤ p'.holds := fun hle => by
  obtain ⟨g, hfind, hholder, hfree⟩ := Pool.mem_holds.1 (Multiset.singleton_le.1 hle)
  cases h with
  | refused herr =>
    have := herr l rfl
    rw [Pool.beginRelease_of_held hfind hholder hfree] at this
    cases this
  | release =>
    rw [Table.find?_insert_self, Option.some.injEq] at hfind
    subst hfind
    cases hfree

/-- A hold that is new is that of an instance that leases a slot. -/
theorem Call.Begins.eq_lease_of_mem_holds {call : Call}
    (h : call.Begins c ownerBase p p' progress) {x : Hold} (hx : x ∈ progress.holds)
    (hfree : x.isLeaving = false) : call = .lease x.holder := by
  cases h with
  | lease =>
    obtain rfl := Multiset.mem_singleton.1 hx
    rfl
  | release =>
    obtain rfl := Multiset.mem_singleton.1 hx
    cases hfree
  | refused | known | publish => simp [Progress.holds, Job.holds] at hx

/-- A call that goes on with a hold of the pool keeps it, hands it over, or takes it out
    of the pool. -/
theorem Job.Settles.holds {job : Job} (h : job.Settles p p' progress) (hp : p.Within c)
    (hmine : job.holds ≤ p.holds) : p'.holds + job.holds = p.holds + progress.holds := by
  cases h with
  | @leased id slot link rules =>
    -- the hold goes over to the lease
    have hslot := Pool.slot_lt_of_mem_holds hp (Multiset.singleton_le.1 hmine)
    rw [Pool.holds_record, Progress.holds, Job.holds_leaseOf (c := c) link hslot, Job.holds]
  | unleased | released =>
    -- the slot is freed, and the hold is gone
    exact (Pool.tally_erase_holds (Multiset.singleton_le.1 hmine)).trans (add_zero _).symm
  | published hfind hholder hfree hport =>
    exact congrArg (· + 0) (Pool.tally_insert_holds hfind rfl rfl)
  | @orphaned id n m rules hlost => cases hr : rules.reverse <;> rfl
  | unpublished hfind hholder => exact congrArg (· + 0) (Pool.tally_insert_holds hfind rfl rfl)
  | forgotten hlost => rfl

/-- A call that goes on keeps its hold, hands it over or gives it up. -/
theorem Job.Settles.progress_le {job : Job} (h : job.Settles p p' progress) (hp : p.Within c)
    (hmine : job.holds ≤ p.holds) : progress.holds ≤ job.holds := by
  cases h with
  | @leased id slot link rules =>
    have hslot := Pool.slot_lt_of_mem_holds hp (Multiset.singleton_le.1 hmine)
    rw [Progress.holds, Job.holds_leaseOf (c := c) link hslot, Job.holds]
  | @orphaned id n m rules => cases hr : rules.reverse <;> exact le_rfl
  | unleased | released | published | unpublished | forgotten => exact Multiset.zero_le _

/-- No step on the pool after the first one makes a hold. -/
theorem Job.Settles.holds_le {job : Job} (h : job.Settles p p' progress) (hp : p.Within c)
    (hmine : job.holds ≤ p.holds) : p'.holds ≤ p.holds := by
  have hlaw := h.holds hp hmine
  exact le_of_add_le_add_right
    (hlaw.trans_le (add_le_add_right (h.progress_le hp hmine) p.holds))

/-- A step on the host changes no holds. -/
theorem Job.holds_answer (c : NetworkConfig) (result : Except Error Unit) (job : Job) :
    (job.answer c result).holds = job.holds := by
  cases job with
  | lease id slot link phase => cases phase <;> cases result <;> rfl
  | release l link phase => cases phase <;> rfl
  | publish id n m phase =>
    cases phase with
    | orphan rule rest => cases rest <;> rfl
    | install | record | undo | abandon => cases result <;> rfl

/-! ### Slots of the subnet -/

/-- A slot of the subnet may be taken. -/
theorem Pool.Within.insert (hp : p.Within c) {slot : Nat} (hslot : slot < c.slotCount)
    {g : Holding} {ports : Table UInt16 Nat} :
    Pool.Within c ⟨p.slots.insert slot g, ports⟩ := fun s hs => by
  by_cases h : s = slot
  · exact h ▸ hslot
  · exact hp s (by rwa [Table.find?_insert_of_ne _ _ h] at hs)

/-- Freeing a slot leaves the others. -/
theorem Pool.Within.erase (hp : p.Within c) {slot : Nat} {ports : Table UInt16 Nat} :
    Pool.Within c ⟨p.slots.erase slot, ports⟩ := fun s hs => by
  by_cases h : s = slot
  · simp [h] at hs
  · exact hp s (by rwa [Table.find?_erase_of_ne _ h] at hs)

/-- A call takes no slot but one of the subnet. -/
theorem Call.Begins.within {call : Call} (h : call.Begins c ownerBase p p' progress)
    (hp : p.Within c) : p'.Within c := by
  cases h with
  | refused => exact hp
  | lease htap hnone hlt hlink => exact hp.insert hlt
  | release hfind hholder hfree => exact hp.insert (hp _ (by simp [hfind]))
  | known => exact hp
  | publish hport hfind hholder hfree => exact hp.insert (hp _ (by simp [hfind]))

/-- No later step takes a slot. -/
theorem Job.Settles.within {job : Job} (h : job.Settles p p' progress) (hp : p.Within c) :
    p'.Within c := by
  cases h with
  | leased =>
    intro s hs
    rw [Pool.record, Table.modify] at hs
    split at hs
    · exact hp s hs
    · rename_i hfind
      exact (hp.insert (hp _ (by simp [hfind]))) s hs
  | unleased => exact hp.erase
  | released => exact hp.erase
  | published hfind hholder hfree hport => exact hp.insert (hp _ (by simp [hfind]))
  | orphaned => exact hp
  | unpublished hfind hholder => exact hp.insert (hp _ (by simp [hfind]))
  | forgotten => exact hp

end VmNode
