import VmNode.Proofs.Node.Release

/-!
# Nodes at rest

When no task that works on an instance has a step left (`Node.isQuiet`), nobody looks after
anything: each instance is in a state to stay in, it holds what belongs to that state, and
the node holds nothing else (`Node.Settled`).
-/

namespace VmNode

/-- No step is left of the work of a task on its instance: it has ended, or it waits until
    a process goes away or another task has taken the record out. -/
def Work.isAtRest : Work → Bool
  | .provision _ _ (.ended _) | .deprovision _ _ (.ended _) | .deprovision _ _ (.await _) => true
  | .provision .. | .deprovision .. => false
  | .monitor _ _ .wait | .monitor _ _ .ended => true
  | .monitor .. => false
  | .drain _ | .forward .. | .report .. | .gone => true

/-- Whoever has no step left has no part in the life of an instance. -/
theorem Work.role?_of_isAtRest {work : Work} (h : work.isAtRest = true) (id : InstanceId) :
    work.role? id = none := by
  cases work with
  | provision i spec phase =>
    cases phase with
    | ended => exact ite_self none
    | _ => cases h
  | deprovision i timeout phase =>
    cases phase with
    | ended | await => exact ite_self none
    | _ => cases h
  | monitor | drain | forward | report | gone => rfl

/-- Whoever has no step left has no hold on a slot. -/
theorem Work.holds_of_isAtRest {work : Work} (h : work.isAtRest = true) (hproper : work.Proper) :
    work.holds = 0 := by
  cases work with
  | provision i spec phase =>
    cases phase with
    | ended => rfl
    | _ => cases h
  | deprovision i timeout phase =>
    cases phase with
    | ended | await => rfl
    | _ => cases h
  | monitor i process phase =>
    cases phase with
    | wait | ended => rfl
    | _ => cases h
  | forward i mapping phase =>
    cases phase with
    | work e =>
      obtain ⟨n, hcall⟩ := hproper
      exact Errand.holds_of_publish hcall
    | _ => rfl
  | drain | report | gone => rfl

namespace Node

/-- No task that works on an instance has a step left. -/
def isQuiet (n : Node) : Bool := n.tasks.values.all fun task => task.work.isAtRest

/-- Every instance is in a state to stay in, and there is nothing besides. -/
structure Settled (n : Node) : Prop where
  /-- A record is running with its lease and its process, or failed without both. -/
  records : ∀ id r, n.registry.records.find? id = some r →
    (r.state = .running ∧ r.process.isSome = true ∧ ∃ l, r.lease = some l ∧ l.holder = id) ∨
    (r.state = .failed ∧ r.process = none ∧ r.lease = none)
  /-- The slots that are held are those of the leases of running instances. -/
  slots : ∀ slot, (n.pool.slots.find? slot).isSome = true ↔
    ∃ id r l, n.registry.records.find? id = some r ∧ r.state = .running ∧ r.lease = some l ∧
      l.slot = slot
  /-- The instances with a console are those with a record. -/
  consoles : ∀ id, (n.hub.current.find? id).isSome = true ↔
    (n.registry.records.find? id).isSome = true

variable {ids : List InstanceId} {n : Node} {t : Nat} {work : Work}

theorem isAtRest_of_isQuiet (h : n.isQuiet = true) (ht : n.work? t = some work) :
    work.isAtRest = true := by
  obtain ⟨task, hfind, rfl⟩ := Option.map_eq_some_iff.1 ht
  refine List.all_eq_true.1 h task ?_
  exact List.mem_map.2 ⟨(t, task), (Table.mem_entries_iff _).2 hfind, rfl⟩

theorem not_hasRole_of_isQuiet (h : n.isQuiet = true) (id : InstanceId) (r : Role) :
    ¬ n.HasRole id r := by
  rintro ⟨t, ht⟩
  obtain ⟨work, hwork, hrole⟩ := Option.bind_eq_some_iff.1 ht
  rw [Work.role?_of_isAtRest (isAtRest_of_isQuiet h hwork) id] at hrole
  cases hrole

/-- Without tasks that have a step left, only records have holds. -/
theorem Tidy.holds_of_isQuiet (hn : n.Tidy ids) (h : n.isQuiet = true) :
    n.pool.holds = n.recordHolds := by
  have htasks : n.taskHolds = 0 := Table.tally_eq_zero fun t task hfind => by
    have ht : n.work? t = some task.work := congrArg (Option.map Task.work) hfind
    exact Work.holds_of_isAtRest (isAtRest_of_isQuiet h ht) (hn.proper t _ ht)
  rw [hn.holds, htasks, zero_add]

/-- A node in order is settled once it is quiet. -/
theorem Tidy.settled (hn : n.Tidy ids) (h : n.isQuiet = true) : n.Settled := by
  have hnone := not_hasRole_of_isQuiet h
  have hrecord : ∀ id r, n.registry.records.find? id = some r →
      (n.hub.current.find? id).isSome = true ∧
        ((r.state = .running ∧ r.process.isSome = true ∧ ∃ l, r.lease = some l ∧ l.holder = id) ∨
          (r.state = .failed ∧ r.process = none ∧ r.lease = none)) := fun id r hfind => by
    have hcovered := hn.covered id
    rw [view_of_find? hfind] at hcovered
    obtain ⟨hholder, hstate⟩ := hcovered
    simp only [Record.status] at hholder hstate
    cases hs : r.state with
    | running =>
      rw [hs] at hstate
      obtain ⟨hprocess, hlease, hconsole⟩ := hstate
      obtain ⟨l, hl⟩ := Option.isSome_iff_exists.1 hlease
      exact ⟨hconsole, .inl ⟨rfl, hprocess, l, hl, hholder l hl⟩⟩
    | failed =>
      rw [hs] at hstate
      obtain ⟨hprocess, hlease, hconsole⟩ := hstate
      refine ⟨hconsole, .inr ⟨rfl, ?_, hlease.resolve_right (hnone id _)⟩⟩
      simpa using hprocess
    | provisioning =>
      rw [hs] at hstate
      rcases hstate with hr | hr | hr <;> exact absurd hr (hnone id _)
    | deprovisioning | stopped =>
      rw [hs] at hstate
      rcases hstate with hr | hr <;> exact absurd hr (hnone id _)
  refine ⟨fun id r hfind => (hrecord id r hfind).2, fun slot => ⟨fun hslot => ?_, ?_⟩,
    fun id => ⟨fun hconsole => ?_, fun hfind => ?_⟩⟩
  · -- a slot that is held is held by a record
    obtain ⟨g, hg⟩ := Option.isSome_iff_exists.1 hslot
    have hhold : (⟨slot, g.holder, g.releasing⟩ : Hold) ∈ n.pool.holds :=
      Pool.mem_holds.2 ⟨g, hg, rfl, rfl⟩
    rw [hn.holds_of_isQuiet h] at hhold
    obtain ⟨id, r, hfind, hlease⟩ := Table.mem_tally.1 hhold
    rcases (hrecord id r hfind).2 with ⟨hstate, -, l, hl, -⟩ | ⟨-, -, hl⟩
    · rw [hl] at hlease
      exact ⟨id, r, l, hfind, hstate, hl, (Hold.mk.inj (Multiset.mem_singleton.1 hlease)).1.symm⟩
    · rw [hl] at hlease
      cases hlease
  · rintro ⟨id, r, l, hfind, -, hl, rfl⟩
    have hhold : (⟨l.slot, l.holder, false⟩ : Hold) ∈ n.pool.holds := by
      rw [hn.holds_of_isQuiet h]
      refine Table.mem_tally.2 ⟨id, r, hfind, ?_⟩
      rw [hl]
      exact Multiset.mem_singleton_self _
    obtain ⟨g, hg, -⟩ := Pool.mem_holds.1 hhold
    rw [hg]
    rfl
  · by_contra hgone
    have hfind : n.registry.records.find? id = none := by simpa using hgone
    have hcovered := hn.covered id
    rw [view_of_find?_none hfind] at hcovered
    exact hnone id _ (hcovered hconsole)
  · obtain ⟨r, hr⟩ := Option.isSome_iff_exists.1 hfind
    exact (hrecord id r hr).1

/-- Whatever calls are made to a node and however the steps of tasks fall between each other,
    as long as no two instances get one identifier: no lease is asked back twice, for no
    instance gives back more than one; the allocator takes each of them; and whenever the
    node is quiet, it is settled. -/
theorem leases_released_once_and_settled {config : NodeConfig} {ownerBase : Option Nat}
    {start n : Node} {moves : List Move} (hstart : Node.start config ownerBase = .ok start)
    (hids : (provisioned moves).Nodup) (hplay : start.play moves = some n) :
    ((start.releases moves).map Lease.holder).Nodup ∧
      (∀ outcome ∈ start.releaseOutcomes moves, outcome = .ok .released) ∧
      (n.isQuiet = true → n.Settled) := by
  have htidy := tidy_start hstart
  have hspent : Spent [] [] start := fun _ h => (by cases h)
  refine ⟨?_, releaseOutcomes_eq htidy hids hplay, fun hquiet => ?_⟩
  · exact nodup_releases htidy hspent List.nodup_nil hids hplay
  · have hn := htidy.play (P := fun _ _ => True) (fun _ _ _ => trivial) trivial hids hplay
    exact hn.1.settled hquiet

/-- Two instances are provisioned, and then the process of the first one crashes. -/
def crashOfFirst : List Move :=
  let ok (t : Nat) : Move := .host t (.ok ())
  let raise (t : Nat) : List Move := [.run t, ok t, ok t, ok t, ok t, .run t, .run t, .run t,
    .launched t (.ok ()), .run t, .run t]
  [.begin (.provision "i-1" (.ofImage "app")), .begin (.provision "i-2" (.ofImage "app"))] ++
    raise 0 ++ raise 1 ++ [.process 0 (.exit (.exited (some 1))), .process 0 .cleaned,
      .run 2, .run 2, .run 2, .run 2, ok 2, ok 2, ok 2, ok 2, .run 2, .run 2]

/-- Its monitor has given the one lease back, and the node is settled. -/
theorem settled_crashOfFirst : ∃ start n, Node.start {} none = .ok start ∧
    start.play crashOfFirst = some n ∧ (start.releases crashOfFirst).map Lease.holder = ["i-1"] ∧
    n.Settled := by
  let n := (blank.play crashOfFirst).get (by decide +kernel)
  have hplay : blank.play crashOfFirst = some n := (Option.some_get _).symm
  have hids : (provisioned crashOfFirst).Nodup := by decide +kernel
  have hquiet : n.isQuiet = true := by decide +kernel
  have hreleases : (blank.releases crashOfFirst).map Lease.holder = ["i-1"] := by decide +kernel
  exact ⟨blank, n, start_blank, hplay, hreleases,
    (leases_released_once_and_settled start_blank hids hplay).2.2 hquiet⟩

end Node

end VmNode
