import VmNode.Proofs.Instance.PortMapping
import VmNode.Proofs.Tally
import VmNode.Registry

/-!
# Operations of the registry

What the operations answer about a record that is there, and what they do to the look-ups.

The signal of a record that is in the registry is pending, and no other record has it
(`Registry.Signalled`). So whoever waits for a signal that has been raised knows that the
record is gone.
-/

namespace VmNode

/-- How far an instance in this state has come. -/
def InstanceState.rank : InstanceState → Nat
  | provisioning => 0
  | running => 1
  | deprovisioning => 2
  | stopped | failed => 3

/-- A legal move goes further. -/
theorem InstanceState.rank_lt_of_canMoveTo {s t : InstanceState} (h : s.canMoveTo t = true) :
    s.rank < t.rank := by
  cases s <;> cases t <;> first | decide | cases h

theorem InstanceState.rank_le_of_canMoveTo {s t : InstanceState} (h : s.canMoveTo t = true) :
    s.rank ≤ t.rank := (rank_lt_of_canMoveTo h).le

namespace Registry

variable {π : Type} {g g' : Registry π} {id : InstanceId} {r : Record π} {s t : InstanceState}

/-- A record that is there is looked up. -/
theorem lookUp_of_find? (h : g.records.find? id = some r) : g.lookUp id = .ok r := by
  rw [lookUp, h]

/-- One that is not there is an error that names the instance. -/
theorem lookUp_of_find?_none (h : g.records.find? id = none) :
    g.lookUp id = .error (.instanceNotFound id) := by
  rw [lookUp, h]

/-- A legal move is granted, and the answer is the state before. -/
theorem updateState_of_find? (h : g.records.find? id = some r) (hmove : r.state.canMoveTo t) :
    g.updateState id t = .ok (r.state, g.put { r with state := t }) := by
  rw [updateState, lookUp_of_find? h]
  simp only [bind, Except.bind, InstanceState.move, if_pos hmove, pure, Except.pure]

/-- What was granted is a legal move of a record that was there, and nothing else has changed. -/
theorem updateState_eq_ok (h : g.updateState id t = .ok (s, g')) :
    ∃ r, g.records.find? id = some r ∧ r.state = s ∧ s.canMoveTo t = true ∧
      g' = g.put { r with state := t } := by
  rw [updateState] at h
  cases hfind : g.records.find? id with
  | none =>
    rw [lookUp_of_find?_none hfind] at h
    cases h
  | some r =>
    rw [lookUp_of_find? hfind] at h
    simp only [bind, Except.bind, InstanceState.move] at h
    -- an illegal move is an error
    by_cases hmove : r.state.canMoveTo t = true
    · rw [if_pos hmove] at h
      obtain ⟨rfl, rfl⟩ := Prod.mk.inj (Except.ok.inj h)
      exact ⟨r, rfl, rfl, hmove, rfl⟩
    · rw [if_neg hmove] at h
      cases h

/-- A transition that was granted found the record in the state that it was to leave, and is a legal
    move from there. -/
theorem transition_eq_ok (h : g.transition id s t = .ok g') :
    ∃ r, g.records.find? id = some r ∧ r.state = s ∧ s.canMoveTo t = true ∧
      g' = g.put { r with state := t } := by
  rw [transition] at h
  cases hfind : g.records.find? id with
  | none =>
    rw [lookUp_of_find?_none hfind] at h
    cases h
  | some r =>
    rw [lookUp_of_find? hfind] at h
    simp only [bind, Except.bind, InstanceState.move] at h
    -- a record in another state is an error, and so is an illegal move
    by_cases hs : r.state = s
    · rw [if_neg (not_not.2 hs)] at h
      by_cases hmove : s.canMoveTo t = true
      · rw [if_pos hmove] at h
        exact ⟨r, rfl, hs, hmove, (Except.ok.inj h).symm⟩
      · rw [if_neg hmove] at h
        cases h
    · rw [if_pos hs] at h
      cases h

/-- A process is attached to a record whatever its state is. -/
theorem attach_of_find? (h : g.records.find? id = some r) (process : π) :
    g.attach id process = .ok (g.put { r with process := some process }) := by
  rw [attach, lookUp_of_find? h]
  rfl

/-- A process was attached to a record that was there. -/
theorem attach_eq_ok {process : π} (h : g.attach id process = .ok g') :
    ∃ r, g.records.find? id = some r ∧ g' = g.put { r with process := some process } := by
  cases hfind : g.records.find? id with
  | none =>
    rw [attach, lookUp_of_find?_none hfind] at h
    cases h
  | some r =>
    rw [attach_of_find? hfind] at h
    exact ⟨r, rfl, (Except.ok.inj h).symm⟩

/-- Adding a port changes nothing but the ports of the record, and those only if it is not
    there. -/
theorem addPort_eq_ok {m : PortMapping} (h : g.addPort id m = .ok g') :
    (g' = g ∧ ∃ r, g.records.find? id = some r ∧ m ∈ r.network.ports) ∨
      ∃ r ports, g.records.find? id = some r ∧ m.Joins r.network.ports ports ∧
        g' = g.put { r with network := { r.network with ports } } := by
  rw [addPort] at h
  cases hfind : g.records.find? id with
  | none =>
    rw [lookUp_of_find?_none hfind] at h
    cases h
  | some r =>
    rw [lookUp_of_find? hfind] at h
    simp only [bind, Except.bind] at h
    split at h
    · -- the port is there already
      rename_i hmem
      exact .inl ⟨(Except.ok.inj h).symm, r, rfl, hmem⟩
    · -- it is sorted in
      rename_i hnot
      exact .inr ⟨r, _, rfl, .mergeSort hnot, (Except.ok.inj h).symm⟩

/-- A record is found where it was put. -/
theorem find?_put_self (hr : r.id = id) : (g.put r).records.find? id = some r := by
  rw [put, ← hr]
  exact Table.find?_insert_self ..

/-- All others are as they were. -/
theorem find?_put_of_ne {j : InstanceId} (hj : j ≠ r.id) :
    (g.put r).records.find? j = g.records.find? j :=
  Table.find?_insert_of_ne _ _ hj

/-- Putting a record where it is changes nothing. -/
theorem put_eq_self (hfind : g.records.find? id = some r) (hid : r.id = id) : g.put r = g := by
  rw [put, hid, Table.insert_eq_self hfind]

/-! ### Listing -/

/-- Every record is found under its own identifier. -/
def Keyed (g : Registry π) : Prop := ∀ id r, g.records.find? id = some r → r.id = id

theorem keyed_empty : (empty : Registry π).Keyed := fun _ _ h => by cases h

/-- The instances that are listed are those that have a record. -/
theorem Keyed.perm_list (hg : g.Keyed) : (g.list.map InstanceInfo.id).Perm g.records.keys := by
  have hids : (g.records.values.map Record.info).map InstanceInfo.id = g.records.keys := by
    rw [Table.values, Table.keys, List.map_map, List.map_map]
    exact List.map_congr_left fun e he => hg e.1 e.2 (g.records.mem_entries_iff.1 he)
  exact hids ▸ (List.mergeSort_perm _ _).map InstanceInfo.id

/-! ### Signals -/

/-- The records have signals of their own, which are pending. -/
structure Signalled (g : Registry π) : Prop where
  /-- Signals are numbered in the order in which records were made. -/
  numbered : g.signals.IsNumbered
  /-- As long as a record is there, its signal has not been raised. -/
  pending : ∀ id r, g.records.find? id = some r → g.signals.find? r.signal = some .pending
  /-- No two records have the same signal. -/
  own : ∀ i j q r, g.records.find? i = some q → g.records.find? j = some r →
    q.signal = r.signal → i = j

/-- Without records there is nothing to signal. -/
theorem signalled_empty : (empty : Registry π).Signalled :=
  ⟨Table.isNumbered_empty, fun _ _ h => (by cases h), fun _ _ _ _ h => (by cases h)⟩

namespace Signalled

/-- A record that is changed keeps its signal. -/
theorem put (h : g.Signalled) {r' : Record π} (hfind : g.records.find? id = some r)
    (hid : r'.id = id) (hsignal : r'.signal = r.signal) : (g.put r').Signalled := by
  -- the new record has the signal of one that was there
  have hbefore : ∀ j q, (g.put r').records.find? j = some q →
      ∃ p, g.records.find? j = some p ∧ p.signal = q.signal := fun j q hq => by
    by_cases hj : j = id
    · rw [hj, find?_put_self hid, Option.some.injEq] at hq
      exact ⟨r, hj ▸ hfind, hsignal.symm.trans (congrArg Record.signal hq)⟩
    · rw [find?_put_of_ne (hid.symm ▸ hj)] at hq
      exact ⟨q, hq, rfl⟩
  refine ⟨h.numbered, fun j q hq => ?_, fun i j q q' hq hq' heq => ?_⟩
  · obtain ⟨p, hp, hs⟩ := hbefore j q hq
    exact hs ▸ h.pending j p hp
  · obtain ⟨p, hp, hs⟩ := hbefore i q hq
    obtain ⟨p', hp', hs'⟩ := hbefore j q' hq'
    exact h.own i j p p' hp hp' (hs.trans (heq.trans hs'.symm))

/-- A record that is taken out raises its own signal and no other. -/
theorem takeApart (h : g.Signalled) (hfind : g.records.find? id = some r) :
    (Registry.takeApart { g with records := g.records.erase id } r).2.Signalled := by
  have hbefore : ∀ j q, (g.records.erase id).find? j = some q →
      j ≠ id ∧ g.records.find? j = some q := fun j q hq => by
    by_cases hj : j = id
    · rw [hj, Table.find?_erase_self] at hq
      cases hq
    · exact ⟨hj, by rwa [Table.find?_erase_of_ne _ hj] at hq⟩
  -- the records that are left have signals of their own, so theirs are not raised
  refine ⟨h.numbered.insert (by rw [h.pending id r hfind]; rfl) _, fun j q hq => ?_,
    fun i j q q' hq hq' heq => ?_⟩
  · obtain ⟨hj, hq⟩ := hbefore j q hq
    refine (Table.find?_insert_of_ne _ _ fun heq => hj ?_).trans (h.pending j q hq)
    exact h.own j id q r hq hfind heq
  · exact h.own i j q q' (hbefore i q hq).2 (hbefore j q' hq').2 heq

/-- A record that is inserted gets a new signal. -/
theorem insert (h : g.Signalled) {spec : InstanceSpec} {l : Lease} {time : Timestamp}
    (hg : (g.newRecord id spec l time).2.insert (g.newRecord id spec l time).1 = .ok g') :
    g'.Signalled := by
  rw [Registry.insert] at hg
  split at hg
  · cases hg
  · cases hg
    -- the new signal has the next number, so no record has it yet
    have hold : ∀ j q, g.records.find? j = some q → q.signal ≠ g.signals.size := by
      rintro j q hq heq
      have := h.pending j q hq
      rw [heq, h.numbered.find?_size] at this
      cases this
    have hbefore : ∀ j q, (g.records.insert id (g.newRecord id spec l time).1).find? j = some q →
        j = id ∧ q.signal = g.signals.size ∨ g.records.find? j = some q := fun j q hq => by
      by_cases hj : j = id
      · rw [hj, Table.find?_insert_self, Option.some.injEq] at hq
        exact .inl ⟨hj, hq ▸ rfl⟩
      · exact .inr (by rwa [Table.find?_insert_of_ne _ _ hj] at hq)
    refine ⟨h.numbered.insert_size _, fun j q hq => ?_, fun i j q q' hq hq' heq => ?_⟩
    · rcases hbefore j q hq with ⟨-, hs⟩ | hq
      · rw [hs]
        exact Table.find?_insert_self ..
      · exact (Table.find?_insert_of_ne _ _ (hold j q hq)).trans (h.pending j q hq)
    · -- the new record and an old one have different signals, two old ones have their own
      rcases hbefore i q hq with ⟨rfl, hs⟩ | hq
      · rcases hbefore j q' hq' with ⟨rfl, -⟩ | hq'
        · rfl
        · exact absurd (heq.symm.trans hs) (hold j q' hq')
      · rcases hbefore j q' hq' with ⟨-, hs⟩ | hq'
        · exact absurd (heq.trans hs) (hold i q hq)
        · exact h.own i j q q' hq hq' heq

end Signalled

end Registry

/-! ### Leases -/

/-- The lease that an instance got its network identity with. The ports that were published
    since make no difference. -/
def Record.origin {π : Type} (r : Record π) : Lease := ⟨r.id, { r.network with ports := [] }⟩

/-- The lease is in the record, or the network identity is that of the lease. -/
def Record.Knows {π : Type} (l : Lease) (r : Record π) : Prop := r.lease = some l ∨ r.origin = l

namespace Registry

variable {π : Type} {g g' : Registry π} {id : InstanceId} {r r' : Record π} {l : Lease}
variable {s t : InstanceState}

/-- Some record knows the lease. -/
def Knows (g : Registry π) (l : Lease) : Prop :=
  ∃ id r, g.records.find? id = some r ∧ r.Knows l

/-- A record that is changed knows no other leases. -/
theorem Knows.of_put (h : (g.put r').Knows l) (hfind : g.records.find? id = some r)
    (hr : r'.Knows l → r.Knows l) : g.Knows l := by
  obtain ⟨j, q, hq, hknows⟩ := h
  by_cases hj : j = r'.id
  · rw [hj, find?_put_self rfl, Option.some.injEq] at hq
    exact ⟨id, r, hfind, hr (hq ▸ hknows)⟩
  · rw [find?_put_of_ne hj] at hq
    exact ⟨j, q, hq, hknows⟩

/-- Neither does a registry without one of the records. -/
theorem Knows.of_erase {signals : Table Nat Signal}
    (h : Knows ⟨g.records.erase id, signals⟩ l) : g.Knows l := by
  obtain ⟨j, q, hq, hknows⟩ := h
  by_cases hj : j = id
  · rw [hj, Table.find?_erase_self] at hq
    cases hq
  · rw [Table.find?_erase_of_ne _ hj] at hq
    exact ⟨j, q, hq, hknows⟩

/-- A record that is inserted knows the lease that it was made with, if no port is published
    with the lease. -/
theorem Knows.of_insert {spec : InstanceSpec} {lease : Lease} {time : Timestamp}
    (h : Knows { (g.newRecord id spec lease time).2 with
      records := g.records.insert id (g.newRecord id spec lease time).1 } l)
    (hholder : lease.holder = id) (hplain : lease.info.ports = []) : lease = l ∨ g.Knows l := by
  obtain ⟨j, q, hq, hknows⟩ := h
  by_cases hj : j = id
  · rw [hj, Table.find?_insert_self, Option.some.injEq] at hq
    obtain rfl := hq
    -- the record has the network identity of the lease, which has no ports
    refine .inl (hknows.elim (fun hl => Option.some.inj hl) fun horigin => ?_)
    obtain ⟨holder, info⟩ := lease
    subst hholder
    rw [← horigin, Record.origin, newRecord]
    congr 1
    rw [← hplain]
  · exact .inr ⟨j, q, (Table.find?_insert_of_ne _ _ hj).symm.trans hq, hknows⟩

/-- The ports of a record make no difference. -/
theorem Knows.of_addPort {m : PortMapping} (hg : g.addPort id m = .ok g') (h : g'.Knows l) :
    g.Knows l := by
  rcases addPort_eq_ok hg with ⟨rfl, -⟩ | ⟨r, ports, hfind, -, rfl⟩
  · exact h
  · exact h.of_put hfind fun hr => hr

end Registry

end VmNode
