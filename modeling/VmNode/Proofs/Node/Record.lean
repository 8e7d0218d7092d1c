import VmNode.Proofs.Node.Pass
import VmNode.Proofs.Node.Thorough

/-!
# What becomes of records

All that tasks do to the records of instances: they insert them, edit them (`Work.Edits`)
and take them out (`Work.Removes`), and each of it is done by tasks in certain phases only.
`Node.OnRecord` says what a move does to the record of one instance.

The state of a record only moves along the edges of `InstanceState.canMoveTo`
(`Work.Edits.state`), and only a record in a final state is taken out
(`Work.Removes.isFinal`).
-/

namespace VmNode

/-- What a task does to the record of its instance. -/
inductive Work.Edits (r : Record Nat) : Work → Record Nat → Prop
  /-- The record gets its process. -/
  | attach {id : InstanceId} {spec : InstanceSpec} {p : Nat} :
    r.state = .provisioning → r.process = none →
    Edits r (.provision id spec (.attach p)) { r with process := some p }
  /-- The instance runs. -/
  | enter {id : InstanceId} {spec : InstanceSpec} {p : Nat} : r.state = .provisioning →
    Edits r (.provision id spec (.enter p)) { r with state := .running }
  /-- The launch failed. -/
  | fail {id : InstanceId} {spec : InstanceSpec} {cause : Error} : r.state = .provisioning →
    Edits r (.provision id spec (.fail cause)) { r with state := .failed }
  /-- The process has gone away. -/
  | crash {id : InstanceId} {p : Nat} {reason : ExitReason} : r.state = .running →
    Edits r (.monitor id p (.fail reason))
      { r with state := .failed, exitReason := some reason, process := none, lease := none }
  /-- The instance begins to be shut down. -/
  | shutDown {id : InstanceId} {timeout : Nat} : r.state = .running →
    Edits r (.deprovision id timeout .enter) { r with state := .deprovisioning }
  /-- The exit reason is noted. -/
  | note {id : InstanceId} {timeout : Nat} {reason : ExitReason} : r.state = .deprovisioning →
    Edits r (.deprovision id timeout (.note reason)) { r with exitReason := some reason }
  /-- The lease is taken out. -/
  | takeLease {id : InstanceId} {timeout : Nat} {reason : ExitReason} :
    r.state = .deprovisioning →
    Edits r (.deprovision id timeout (.takeLease reason)) { r with lease := none }
  /-- The instance has stopped. -/
  | stop {id : InstanceId} {timeout : Nat} {reason : ExitReason} :
    r.state = .deprovisioning → r.lease = none →
    Edits r (.deprovision id timeout (.enterStopped reason)) { r with state := .stopped }
  /-- A port is added. -/
  | addPort {id : InstanceId} {mapping : PortMapping} {ports : List PortMapping} :
    mapping.Joins r.network.ports ports →
    Edits r (.forward id mapping .add) { r with network := { r.network with ports } }

/-- A task takes the record of its instance out. -/
inductive Work.Removes (r : Record Nat) : Work → Prop
  /-- The launch failed. -/
  | withdraw {id : InstanceId} {spec : InstanceSpec} {cause : Error} : r.state = .failed →
    Removes r (.provision id spec (.withdraw cause))
  /-- The instance is found to be in a final state. -/
  | reap {id : InstanceId} {timeout : Nat} {known : Option ExitReason} :
    r.state.isFinal = true → Removes r (.deprovision id timeout (.reap known))
  /-- The instance was shut down. -/
  | leave {id : InstanceId} {timeout : Nat} {reason : ExitReason} : r.state = .stopped →
    Removes r (.deprovision id timeout (.withdraw reason))

namespace Work

variable {work : Work} {r r' : Record Nat}

/-- No change of a record makes it that of another instance. -/
theorem Edits.id_eq (h : work.Edits r r') : r'.id = r.id := by
  cases h <;> rfl

/-- No change of a record gives it another signal. -/
theorem Edits.signal_eq (h : work.Edits r r') : r'.signal = r.signal := by
  cases h <;> rfl

/-- The state moves along an edge, or stays. -/
theorem Edits.state (h : work.Edits r r') :
    r'.state = r.state ∨ r.state.canMoveTo r'.state = true := by
  cases h with
  | attach | note | takeLease | addPort => exact .inl rfl
  | enter hstate | fail hstate | crash hstate | shutDown hstate | stop hstate =>
    exact .inr (by rw [hstate]; rfl)

/-- The lease stays, or is taken out. -/
theorem Edits.lease (h : work.Edits r r') : r'.lease = r.lease ∨ r'.lease = none := by
  cases h with
  | crash | takeLease => exact .inr rfl
  | attach | enter | fail | shutDown | note | stop | addPort => exact .inl rfl

/-- The ports stay, or one that is to be added joins them. -/
theorem Edits.ports (h : work.Edits r r') : r'.network.ports = r.network.ports ∨
    ∃ mapping, work = .forward work.subject mapping .add ∧
      mapping.Joins r.network.ports r'.network.ports := by
  cases h with
  | addPort hjoins => exact .inr ⟨_, rfl, hjoins⟩
  | _ => exact .inl rfl

/-- Only final records are taken out. -/
theorem Removes.isFinal (h : work.Removes r) : r.state.isFinal = true := by
  cases h with
  | withdraw hstate | leave hstate =>
    rw [hstate]
    rfl
  | reap hfinal => exact hfinal

end Work

namespace Node

variable {ids ids' : List InstanceId} {n m k : Node} {a : Move} {t : Nat} {work work' : Work}
variable {id : InstanceId}

/-! ### Registries -/

/-- What a task does to the registry. -/
inductive Registers (n : Node) (work : Work) : Registry Nat → Prop
  /-- Nothing. -/
  | still : Registers n work n.registry
  /-- A record is inserted. -/
  | insert {id : InstanceId} {spec : InstanceSpec} {lease : Lease} {time : Timestamp} :
    work = .provision id spec (.insert lease) → n.registry.records.find? id = none →
    Registers n work { (n.registry.newRecord id spec lease time).2 with
      records := n.registry.records.insert id (n.registry.newRecord id spec lease time).1 }
  /-- A record is edited. -/
  | put {r r' : Record Nat} : n.registry.records.find? work.subject = some r → work.Edits r r' →
    Registers n work (n.registry.put r')
  /-- A record is taken out and apart. -/
  | remove {r : Record Nat} : n.registry.records.find? work.subject = some r → work.Removes r →
    Registers n work (n.registry.without work.subject r)

/-- The steps of tasks are gone through once here, and what they do to the registry is one of four
    things. -/
theorem Advance.registers (hn : n.Tidy ids) (h : n.Advance a work k work') :
    n.Registers work k.registry := by
  cases h with
  | errand | answer | gather | report | launched | unlaunched => exact .still
  | provision h =>
    cases h with
    | openConsole | expire | miss | closeConsole => exact .still
    | insert hnone => exact .insert rfl hnone
    | attach hfind hstate hprocess => exact .put hfind (.attach hstate hprocess)
    | enter hfind hstate => exact .put hfind (.enter hstate)
    | fail hfind hstate => exact .put hfind (.fail hstate)
    | withdraw hfind hstate | discard hfind hstate => exact .remove hfind (.withdraw hstate)
  | monitor h =>
    cases h with
    | fail hfind hstate => exact .put hfind (.crash hstate)
    | _ => exact .still
  | deprovision h =>
    cases h with
    | enter hfind hstate => exact .put hfind (.shutDown hstate)
    | note hfind hstate => exact .put hfind (.note hstate)
    | takeLease hfind hstate => exact .put hfind (.takeLease hstate)
    | enterStopped hfind hstate hlease => exact .put hfind (.stop hstate hlease)
    | reap hfind hfinal | clear hfind hfinal => exact .remove hfind (.reap hfinal)
    | withdraw hfind hstate => exact .remove hfind (.leave hstate)
    | _ => exact .still
  | forward h =>
    cases h with
    | add _ hadd =>
      rcases Registry.addPort_eq_ok hadd with ⟨rfl, -⟩ | ⟨r, ports, hfind, hjoins, rfl⟩
      · exact .still
      · exact .put hfind (.addPort hjoins)
    | _ => exact .still
  | list =>
    obtain ⟨tasks, htasks⟩ := (spawnMembers_cases n.instanceIds hn.numbered).1
    rw [htasks]
    exact .still

/-- Only tasks that go on change the registry. -/
theorem Pass.registers (hn : n.Tidy ids) (h : n.Pass a m) : m.registry = n.registry ∨
    ∃ t work, a.task? = some t ∧ n.work? t = some work ∧ n.Registers work m.registry := by
  cases h with
  | @task _ t work work' k ha ht hadvance =>
    have hregisters := hadvance.registers hn
    exact .inr ⟨t, work, ha, ht, hregisters⟩
  | leave habandons => exact .inl habandons.registry
  | begin | process | print | pass => exact .inl rfl

/-! ### Records -/

/-- What a move does to the record of an instance. -/
inductive OnRecord (n : Node) (a : Move) (m : Node) (id : InstanceId) : Prop
  /-- Nothing. -/
  | idle : m.registry.records.find? id = n.registry.records.find? id → OnRecord n a m id
  /-- It is inserted. -/
  | inserted {t : Nat} {spec : InstanceSpec} {lease : Lease} {r : Record Nat} :
    a.task? = some t → n.work? t = some (.provision id spec (.insert lease)) →
    n.registry.records.find? id = none → m.registry.records.find? id = some r →
    r.state = .provisioning → r.process = none → r.network = lease.info → OnRecord n a m id
  /-- It is edited. -/
  | edited {t : Nat} {work : Work} {r r' : Record Nat} : a.task? = some t →
    n.work? t = some work → work.subject = id → n.registry.records.find? id = some r →
    m.registry.records.find? id = some r' → work.Edits r r' → OnRecord n a m id
  /-- It is taken out. -/
  | removed {t : Nat} {work : Work} {r : Record Nat} : a.task? = some t →
    n.work? t = some work → work.subject = id → n.registry.records.find? id = some r →
    m.registry.records.find? id = none → work.Removes r → OnRecord n a m id

/-- A record is touched by the task that works on its instance, and by no other. -/
theorem Pass.onRecord (hn : n.Tidy ids) (h : n.Pass a m) (id : InstanceId) :
    n.OnRecord a m id := by
  rcases h.registers hn with heq | ⟨t, work, ha, ht, hregisters⟩
  · exact .idle (by rw [heq])
  · generalize hg : m.registry = g at hregisters
    have hm : ∀ {o}, g.records.find? id = o → m.registry.records.find? id = o := fun h => by
      rw [hg, h]
    cases hregisters with
    | still => exact .idle (hm rfl)
    | @insert i spec lease time hwork hnone =>
      -- the record is that of the instance, or of another one
      by_cases hid : id = i
      · subst hid
        exact .inserted ha (hwork ▸ ht) hnone (hm (Table.find?_insert_self ..)) rfl rfl rfl
      · exact .idle (hm (Table.find?_insert_of_ne _ _ hid))
    | @put r r' hfind hedits =>
      have hkey : r'.id = work.subject := hedits.id_eq.trans (hn.keyed _ r hfind)
      by_cases hid : id = work.subject
      · subst hid
        exact .edited ha ht rfl hfind (hm (Registry.find?_put_self hkey)) hedits
      · exact .idle (hm (Registry.find?_put_of_ne (hkey.symm ▸ hid)))
    | @remove r hfind hremoves =>
      by_cases hid : id = work.subject
      · subst hid
        exact .removed ha ht rfl hfind (hm (Table.find?_erase_self ..)) hremoves
      · exact .idle (hm (Table.find?_erase_of_ne _ hid))

end Node

end VmNode
