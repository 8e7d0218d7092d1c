import VmNode.Proofs.Node.Phase

/-!
# Steps of tasks

What the next step of a task does to its instance: it is one of the steps of a `Stride`,
taken from a node that the task may have given a monitor (`Node.Paces`). Each way to change
the record or the console of an instance makes such a step possible (`Node.Paces.insert`,
`Node.Paces.put`, `Node.Paces.remove`, `Node.Paces.console`), and there is one lemma for each
kind of task, which goes through all that the task can do (`Node.stepProvision_paces`,
`Node.stepMonitor_paces`, `Node.stepDeprovision_paces`, `Node.stepForward_paces`,
`Node.stepReport_paces`).
-/

namespace VmNode

namespace Node

/-- A task with a role and a hold takes a step on its instance, and has a role and a hold
    afterwards. -/
structure Paces (id : InstanceId) (r : Option Role) (h : Multiset Hold) (r' : Option Role)
    (h' : Multiset Hold) (n m : Node) : Prop where
  /-- No other instance is touched. -/
  touches : Touches id n m
  /-- The tasks stay the same. -/
  tasks : m.tasks = n.tasks
  /-- The role changes with the record and the console. -/
  stride : Stride id r h (n.view id) r' h' (m.view id)

variable {ids : List InstanceId} {n m : Node} {id : InstanceId} {t : Nat}
variable {r r' : Option Role} {h h' : Multiset Hold}

namespace Paces

/-- Nothing happens to the instance. -/
theorem still (hn : n.Tidy ids) (hconfig : m.config = n.config) (hpool : m.pool = n.pool)
    (hregistry : m.registry = n.registry) (hcurrent : m.hub.current = n.hub.current)
    (htasks : m.tasks = n.tasks) : Paces id r h r h n m := by
  refine ⟨⟨hconfig, hpool, fun j _ => by rw [hregistry], fun j _ => by rw [hcurrent],
    hregistry ▸ hn.keyed id, hregistry ▸ hn.signals, fun p q hp hq => ?_⟩, htasks, ?_⟩
  · rw [hregistry, hp, Option.some.injEq] at hq
    rw [hq]
  · have hview : m.view id = n.view id := by rw [view, view, hregistry, hcurrent]
    rw [hview]
    exact .still

/-- What happens to the instance changes neither registry nor consoles. -/
theorem look (hn : n.Tidy ids) (hstride : Stride id r h (n.view id) r' h' (n.view id)) :
    Paces id r h r' h' n n := by
  refine ⟨⟨rfl, rfl, fun _ _ => rfl, fun _ _ => rfl, hn.keyed id, hn.signals, fun p q hp hq => ?_⟩,
    rfl, hstride⟩
  rw [hp, Option.some.injEq] at hq
  rw [hq]

/-- The record of the instance is changed. -/
theorem put (hn : n.Tidy ids) {record record' : Record Nat}
    (hfind : n.registry.records.find? id = some record) (hid : record'.id = record.id)
    (hsignal : record'.signal = record.signal)
    (hstride : Stride id r h (n.view id) r' h' ⟨some record'.status, (n.view id).hasConsole⟩) :
    Paces id r h r' h' n { n with registry := n.registry.put record' } := by
  have hkey : record'.id = id := hid.trans (hn.keyed id record hfind)
  have hself : (n.registry.put record').records.find? id = some record' :=
    Registry.find?_put_self hkey
  refine ⟨⟨rfl, rfl, fun j hj => ?_, fun _ _ => rfl, fun q hq => ?_,
    hn.signals.put hfind hkey hsignal, fun p q hp hq => ?_⟩, rfl, ?_⟩
  · exact Registry.find?_put_of_ne (hkey.symm ▸ hj)
  · exact Option.some.inj (hself.symm.trans hq) ▸ hkey
  · obtain rfl := Option.some.inj (hself.symm.trans hq)
    obtain rfl := Option.some.inj (hfind.symm.trans hp)
    exact hsignal
  · rw [view_of_find? (n := { n with registry := n.registry.put record' }) hself]
    exact hstride

/-- The record of the instance is changed in a way that nobody sees. -/
theorem amend (hn : n.Tidy ids) {record record' : Record Nat}
    (hfind : n.registry.records.find? id = some record) (hid : record'.id = record.id)
    (hsignal : record'.signal = record.signal) (hstatus : record'.status = record.status) :
    Paces id r h r h n { n with registry := n.registry.put record' } := by
  refine put hn hfind hid hsignal ?_
  rw [hstatus, view_of_find? hfind]
  exact .still

/-- A record is inserted for the instance, with the lease. -/
theorem insert (hn : n.Tidy ids) {spec : InstanceSpec} {lease : Lease} {time : Timestamp}
    (hnone : n.registry.records.find? id = none) (hholder : lease.holder = id) :
    Paces id (some .leasing) lease.holds (some .opening) 0 n { n with
      registry := { (n.registry.newRecord id spec lease time).2 with
        records := n.registry.records.insert id (n.registry.newRecord id spec lease time).1 } } := by
  have hinsert : (n.registry.newRecord id spec lease time).2.insert
      (n.registry.newRecord id spec lease time).1 = .ok
        { (n.registry.newRecord id spec lease time).2 with
          records := n.registry.records.insert id (n.registry.newRecord id spec lease time).1 } := by
    refine if_neg (Bool.eq_false_iff.1 ?_)
    rw [Registry.newRecord, Table.contains, hnone]
    rfl
  refine ⟨⟨rfl, rfl, fun j hj => ?_, fun _ _ => rfl, fun r hr => ?_, hn.signals.insert hinsert,
    fun q r hq _ => ?_⟩, rfl, ?_⟩
  · exact Table.find?_insert_of_ne _ _ hj
  · rw [Table.find?_insert_self, Option.some.injEq] at hr
    exact hr ▸ rfl
  · cases hnone.symm.trans hq
  · rw [view_of_find?_none hnone, view_of_find? (Table.find?_insert_self ..)]
    exact .insert hholder

/-- The record of the instance is taken out and apart. -/
theorem remove (hn : n.Tidy ids) {record : Record Nat}
    (hfind : n.registry.records.find? id = some record)
    (hstride : Stride id r h ⟨some record.status, (n.view id).hasConsole⟩ r' h'
      ⟨none, (n.view id).hasConsole⟩) :
    Paces id r h r' h' n { n with registry := n.registry.without id record } := by
  have hself : (n.registry.records.erase id).find? id = none := Table.find?_erase_self ..
  refine ⟨⟨rfl, rfl, fun j hj => Table.find?_erase_of_ne _ hj, fun _ _ => rfl, fun q hq => ?_,
    hn.signals.takeApart hfind, fun p q _ hq => ?_⟩, rfl, ?_⟩
  · cases hself.symm.trans hq
  · cases hself.symm.trans hq
  · rw [view_of_find? hfind, view_of_find?_none
      (n := { n with registry := n.registry.without id record }) hself]
    exact hstride

/-- The record of the instance moves on to another state. -/
theorem move (hn : n.Tidy ids) {record record' : Record Nat} {s : InstanceState}
    (hfind : n.registry.records.find? id = some record) (hstate : record.state = s)
    (hid : record'.id = record.id) (hsignal : record'.signal = record.signal)
    (hstride : Stride id r h ⟨some ⟨s, record.process.isSome, record.lease⟩, (n.view id).hasConsole⟩
      r' h' ⟨some record'.status, (n.view id).hasConsole⟩) :
    Paces id r h r' h' n { n with registry := n.registry.put record' } := by
  refine put hn hfind hid hsignal ?_
  subst hstate
  have hview : n.view id = ⟨some record.status, (n.view id).hasConsole⟩ := by
    rw [view_of_find? hfind]
  rw [hview]
  exact hstride

/-- The console of the instance is opened or given up. -/
theorem console (hn : n.Tidy ids) {b : Console.Hub}
    (hothers : ∀ j, j ≠ id → b.current.find? j = n.hub.current.find? j)
    (hstride : Stride id r h (n.view id) r' h'
      ⟨(n.view id).status, (b.current.find? id).isSome⟩) :
    Paces id r h r' h' n { n with hub := b } := by
  refine ⟨⟨rfl, rfl, fun _ _ => rfl, hothers, hn.keyed id, hn.signals, fun p q hp hq => ?_⟩,
    rfl, hstride⟩
  rw [hp, Option.some.injEq] at hq
  rw [hq]

end Paces

/-! ### One lemma for each kind of task -/

/-- The next step of a task that provisions an instance. -/
theorem stepProvision_paces (hn : n.Tidy ids) {spec : InstanceSpec} {phase phase' : ProvisionPhase}
    (ht : n.work? t = some (.provision id spec phase))
    (hstep : n.stepProvision id spec phase = some (m, phase')) :
    phase'.Proper id ∧ ∃ base, (base = n ∨ ∃ p, base = (n.spawn (.monitor id p .wait) false).2) ∧
      Paces id phase.role? phase.holds phase'.role? phase'.holds base m := by
  -- but for the step with which the instance runs, the base is the node itself
  have hself (h : phase'.Proper id ∧ Paces id phase.role? phase.holds phase'.role? phase'.holds n m) :
      phase'.Proper id ∧ ∃ base, (base = n ∨ ∃ p, base = (n.spawn (.monitor id p .wait) false).2) ∧
        Paces id phase.role? phase.holds phase'.role? phase'.holds base m :=
    ⟨h.1, n, .inl rfl, h.2⟩
  cases provisions_of_step hn ht hstep with
  | insert hnone => exact hself ⟨trivial, .insert hn hnone (hn.proper t _ ht)⟩
  | openConsole =>
    refine hself ⟨trivial, .console hn (fun j hj => Console.Hub.find?_openFor_of_ne _ _ hj) ?_⟩
    rw [Console.Hub.find?_openFor_self]
    exact .openConsole
  | expire => exact hself ⟨trivial, .still hn rfl rfl rfl rfl rfl⟩
  | attach hfind hstate =>
    refine hself ⟨trivial, .move hn hfind hstate rfl rfl ?_⟩
    simp only [Record.status, hstate]
    exact .attach
  | @enter process record hfind hstate =>
    -- the monitor is there before the instance runs
    have hbase : (n.spawn (.monitor id process .wait) false).2.Tidy ids :=
      hn.spawn (List.Subset.refl _) rfl trivial fun j q hq => by cases hq
    exact ⟨trivial, _, .inr ⟨_, rfl⟩, .move hbase hfind hstate rfl rfl .run⟩
  | fail hfind hstate => exact hself ⟨trivial, .move hn hfind hstate rfl rfl .fail⟩
  | miss hnone =>
    refine hself ⟨trivial, .look hn ?_⟩
    rw [view_of_find?_none hnone]
    exact .miss
  | withdraw hfind _ hlease =>
    exact hself ⟨⟨_, rfl, hn.holder_of_lease hfind hlease⟩,
      .remove hn hfind (.take (l := some _) hlease (.inl rfl))⟩
  | discard hfind _ hlease =>
    exact hself ⟨trivial, .remove hn hfind (.take (l := none) hlease (.inl rfl))⟩
  | closeConsole =>
    refine hself ⟨trivial, .console hn (fun j hj => Console.Hub.find?_remove_of_ne _ _ hj) ?_⟩
    rw [Console.Hub.find?_remove_self]
    exact .clear

/-- The next step of a monitor. Whoever is first takes the lease, the monitor or the one who
    shuts the instance down. -/
theorem stepMonitor_paces (hn : n.Tidy ids) {process : Nat} {phase phase' : MonitorPhase}
    (ht : n.work? t = some (.monitor id process phase))
    (hstep : n.stepMonitor id process phase = some (m, phase')) :
    phase'.Proper id ∧ Paces id none phase.holds none phase'.holds n m := by
  cases watches_of_step hstep with
  | wake | late => exact ⟨trivial, .still hn rfl rfl rfl rfl rfl⟩
  | fail hfind hstate =>
    exact ⟨fun l hl => hn.holder_of_lease hfind hl, .move hn hfind hstate rfl rfl .crash⟩
  | tell =>
    have hholder := hn.proper t _ ht _ rfl
    exact ⟨⟨_, rfl, hholder⟩, .still hn rfl rfl rfl (Console.Hub.current_note ..) rfl⟩
  | tellOnly => exact ⟨trivial, .still hn rfl rfl rfl (Console.Hub.current_note ..) rfl⟩
  | closeConsole => exact ⟨trivial, .still hn rfl rfl rfl (Console.Hub.current_close ..) rfl⟩

/-- The next step of a task that deprovisions an instance. -/
theorem stepDeprovision_paces (hn : n.Tidy ids) {timeout : Nat} {phase phase' : DeprovisionPhase}
    (ht : n.work? t = some (.deprovision id timeout phase))
    (hstep : n.stepDeprovision id timeout phase = some (m, phase')) :
    phase'.Proper id ∧ Paces id phase.role? phase.holds phase'.role? phase'.holds n m := by
  cases deprovisions_of_step hn ht hstep with
  | missing | rest | settled | wake | giveUp | unknown | early | see | follow | retry | lost | listen
  | unheard | heard | find | stop | stopped | strange =>
    exact ⟨trivial, .still hn rfl rfl rfl rfl rfl⟩
  | late hfind hfinal =>
    refine ⟨trivial, .look hn ?_⟩
    rw [view_of_find? hfind]
    exact .find hfinal
  | enter hfind hstate => exact ⟨trivial, .move hn hfind hstate rfl rfl .shutDown⟩
  | pass hnone =>
    refine ⟨trivial, .look hn ?_⟩
    rw [view_of_find?_none hnone]
    exact .pass
  | reap hfind _ hlease =>
    exact ⟨⟨_, rfl, hn.holder_of_lease hfind hlease⟩,
      .remove hn hfind (.take (l := some _) hlease (.inr rfl))⟩
  | clear hfind _ hlease =>
    exact ⟨trivial, .remove hn hfind (.take (l := none) hlease (.inr rfl))⟩
  | closeReaped =>
    refine ⟨trivial, .console hn (fun j hj => Console.Hub.find?_remove_of_ne _ _ hj) ?_⟩
    rw [Console.Hub.find?_remove_self]
    exact .clear
  | note hfind => exact ⟨trivial, .amend hn hfind rfl rfl rfl⟩
  | takeLease hfind hstate hlease =>
    refine ⟨⟨_, rfl, hn.holder_of_lease hfind hlease⟩, .move hn hfind hstate rfl rfl ?_⟩
    simp only [Record.status, hstate, hlease]
    exact .takeLease
  | enterStopped hfind hstate => exact ⟨trivial, .move hn hfind hstate rfl rfl .stop⟩
  | tell => exact ⟨trivial, .still hn rfl rfl rfl (Console.Hub.current_note ..) rfl⟩
  | closeConsole =>
    refine ⟨trivial, .console hn (fun j hj => Console.Hub.find?_remove_of_ne _ _ hj) ?_⟩
    rw [Console.Hub.find?_remove_self]
    exact .closeConsole
  | gone hnone =>
    refine ⟨trivial, .look hn ?_⟩
    rw [view_of_find?_none hnone]
    exact .withdraw
  | withdraw hfind => exact ⟨trivial, .remove hn hfind .withdraw⟩

/-- The next step of a task that publishes a port. -/
theorem stepForward_paces (hn : n.Tidy ids) {mapping : PortMapping} {hasCaller : Bool}
    {phase phase' : ForwardPhase}
    (hstep : n.stepForward id mapping hasCaller phase = some (m, phase')) :
    phase'.Proper id mapping ∧ Paces id none phase.holds none phase'.holds n m := by
  cases forwards_of_step hstep with
  | unknown | refuse | skip => exact ⟨trivial, .still hn rfl rfl rfl rfl rfl⟩
  | see => exact ⟨⟨_, rfl⟩, .still hn rfl rfl rfl rfl rfl⟩
  | add _ hadd =>
    rcases Registry.addPort_eq_ok hadd with ⟨rfl, -⟩ | ⟨record, ports, hfind, -, rfl⟩
    · exact ⟨trivial, .still hn rfl rfl rfl rfl rfl⟩
    · exact ⟨trivial, .amend hn hfind rfl rfl rfl⟩

/-- The next step of a task that waits for a report. -/
theorem stepReport_paces (hn : n.Tidy ids) {state : String} {timeout : Nat}
    {phase phase' : ReportPhase} (hstep : n.stepReport id state timeout phase = some (m, phase')) :
    Paces id none 0 none 0 n m := by
  cases phase with
  | ended => cases hstep
  | look =>
    rw [stepReport] at hstep
    split at hstep <;> cases hstep <;> exact .still hn rfl rfl rfl rfl rfl
  | subscribe =>
    rw [stepReport] at hstep
    split at hstep
    · cases hstep
      exact .still hn rfl rfl rfl rfl rfl
    · rename_i buffer sub hub hsubscribe
      have hcurrent := Console.Hub.current_subscribe id hsubscribe
      split at hstep <;> cases hstep
      · exact .still hn rfl rfl rfl ((Console.Hub.current_unsubscribe ..).trans hcurrent) rfl
      · exact .still hn rfl rfl rfl hcurrent rfl
  | follow sub deadline =>
    have hleft : ∀ sub, Paces id none 0 none 0 n { n with hub := n.hub.unsubscribe sub } :=
      fun sub => .still hn rfl rfl rfl (Console.Hub.current_unsubscribe ..) rfl
    have hstays : Paces id none 0 none 0 n n := .still hn rfl rfl rfl rfl rfl
    rw [stepReport] at hstep
    split at hstep
    · split at hstep <;> cases hstep
      · exact hleft _
      · exact hstays
    · cases hstep
      exact hstays
    · cases hstep
      exact hleft _
    · split at hstep <;> cases hstep
      exact hleft _

/-! ### Waiting for another task

A call that finds an instance being shut down waits until the record is gone: first it looks
for the signal of the record, and then it awaits the signal (`Work.Waits`).
-/

/-- Who begins to wait sees a record that is being shut down, and who begins to await a signal
    sees the record that has it. -/
def Learns (n : Node) (work work' : Work) : Prop :=
  ∀ id signal, work'.Waits id signal → work.Waits id signal ∨
    ∃ r, n.registry.records.find? id = some r ∧ (∀ s, signal = some s → r.signal = s) ∧
      (r.state = .deprovisioning ∨ work.Waits id none)

/-- What a call that deprovisions an instance learns by its next step. -/
theorem stepDeprovision_learns (hn : n.Tidy ids) {timeout : Nat}
    {phase phase' : DeprovisionPhase} (ht : n.work? t = some (.deprovision id timeout phase))
    (hstep : n.stepDeprovision id timeout phase = some (m, phase')) :
    n.Learns (.deprovision id timeout phase) (.deprovision id timeout phase') := by
  intro j signal hwaits
  cases deprovisions_of_step hn ht hstep with
  | follow hfind hstate =>
    obtain ⟨rfl, rfl⟩ := hwaits
    exact .inr ⟨_, hfind, nofun, .inl hstate⟩
  | listen hfind =>
    obtain ⟨rfl, rfl⟩ := hwaits
    exact .inr ⟨_, hfind, fun s hs => Option.some.inj hs, .inr ⟨rfl, rfl⟩⟩
  | _ => exact hwaits.elim

end Node

end VmNode
