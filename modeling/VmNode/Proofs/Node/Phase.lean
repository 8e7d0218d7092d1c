import VmNode.Proofs.Console.Hub
import VmNode.Proofs.Node.Tidy

/-!
# What a task does next

All that the next step of a task can do, in a node that is in order: to its phase, to the
record of its instance, and to the rest of the node. There is one relation for each kind of
task (`Node.Provisions`, `Node.Watches`, `Node.Deprovisions`, `Node.Forwards`) and one lemma
that its cases are all (`Node.provisions_of_step`, `Node.watches_of_step`,
`Node.deprovisions_of_step`, `Node.forwards_of_step`). Whatever is to hold after a step is
proved by going through these cases, and not by opening the step again.

What the registry would have refused is not among the cases: a task that relies on a record
finds it in the state that it relies on (`Node.Tidy.find?_of_launching`,
`Node.Tidy.find?_of_entering`, `Node.Tidy.find?_of_stopping`).
-/

namespace VmNode

/-- The registry without the record of an instance, which is taken apart. -/
def Registry.without {π : Type} (g : Registry π) (id : InstanceId) (r : Record π) : Registry π :=
  (Registry.takeApart { g with records := g.records.erase id } r).2

namespace Node

variable {ids : List InstanceId} {n m : Node} {id : InstanceId} {t : Nat}

/-! ### What a task finds -/

theorem view_of_find? {record : Record Nat} (hfind : n.registry.records.find? id = some record) :
    n.view id = ⟨some record.status, (n.hub.current.find? id).isSome⟩ := by
  rw [view, hfind]
  rfl

theorem view_of_find?_none (hfind : n.registry.records.find? id = none) :
    n.view id = ⟨none, (n.hub.current.find? id).isSome⟩ := by
  rw [view, hfind]
  rfl

theorem find?_of_view_status {s : Status} (hview : (n.view id).status = some s) :
    ∃ record, n.registry.records.find? id = some record ∧ record.status = s :=
  Option.map_eq_some_iff.1 hview

theorem find?_of_view_none (hview : (n.view id).status = none) :
    n.registry.records.find? id = none :=
  Option.map_eq_none_iff.1 hview

/-- A lease in a record is that of the instance. -/
theorem Tidy.holder_of_lease (hn : n.Tidy ids) {record : Record Nat} {l : Lease}
    (hfind : n.registry.records.find? id = some record) (hlease : record.lease = some l) :
    l.holder = id := by
  have hcovered := hn.covered id
  rw [view_of_find? hfind] at hcovered
  exact hcovered.1 l hlease

/-- A task finds of its instance what its role relies on. -/
theorem Tidy.fits_of_work (hn : n.Tidy ids) {work : Work} (ht : n.work? t = some work) {q : Role}
    (hq : work.role? id = some q) : q.Fits (n.view id) :=
  hn.fits t id q ((role?_of_work? ht id).trans hq)

section

variable {work : Work}

/-- Whoever launches an instance finds the record with the lease, and without a process. -/
theorem Tidy.find?_of_launching (hn : n.Tidy ids) (ht : n.work? t = some work)
    (hrole : work.role? id = some .launching) : ∃ r l, n.registry.records.find? id = some r ∧
      r.state = .provisioning ∧ r.process = none ∧ r.lease = some l := by
  obtain ⟨⟨l, hl⟩, -⟩ := hn.fits_of_work ht hrole
  obtain ⟨r, hfind, hstatus⟩ := find?_of_view_status hl
  obtain ⟨hstate, hprocess, hlease⟩ := Status.mk.inj hstatus
  exact ⟨r, l, hfind, hstate, by simpa using hprocess, hlease⟩

/-- Whoever is about to let an instance run finds the record with the process. -/
theorem Tidy.find?_of_entering (hn : n.Tidy ids) (ht : n.work? t = some work)
    (hrole : work.role? id = some .entering) : ∃ r p, n.registry.records.find? id = some r ∧
      r.state = .provisioning ∧ r.process = some p := by
  obtain ⟨⟨l, hl⟩, -⟩ := hn.fits_of_work ht hrole
  obtain ⟨r, hfind, hstatus⟩ := find?_of_view_status hl
  obtain ⟨hstate, hprocess, -⟩ := Status.mk.inj hstatus
  obtain ⟨p, hp⟩ := Option.isSome_iff_exists.1 hprocess
  exact ⟨r, p, hfind, hstate, hp⟩

/-- Whoever stops an instance finds the record with the process and the lease. -/
theorem Tidy.find?_of_stopping (hn : n.Tidy ids) (ht : n.work? t = some work)
    (hrole : work.role? id = some .stopping) : ∃ r p l, n.registry.records.find? id = some r ∧
      r.state = .deprovisioning ∧ r.process = some p ∧ r.lease = some l := by
  obtain ⟨⟨l, hl⟩, -⟩ := hn.fits_of_work ht hrole
  obtain ⟨r, hfind, hstatus⟩ := find?_of_view_status hl
  obtain ⟨hstate, hprocess, hlease⟩ := Status.mk.inj hstatus
  obtain ⟨p, hp⟩ := Option.isSome_iff_exists.1 hprocess
  exact ⟨r, p, l, hfind, hstate, hp, hlease⟩

end

/-! ### Provisioning -/

/-- The next step of a task that provisions an instance. -/
inductive Provisions (n : Node) (id : InstanceId) (spec : InstanceSpec) :
    ProvisionPhase → Node → ProvisionPhase → Prop
  /-- A record is inserted. -/
  | insert {lease : Lease} {time : Timestamp} : n.registry.records.find? id = none →
    Provisions n id spec (.insert lease)
      { n with registry := { (n.registry.newRecord id spec lease time).2 with
        records := n.registry.records.insert id (n.registry.newRecord id spec lease time).1 } }
      (.openConsole lease.info)
  /-- The console is opened. -/
  | openConsole {network : NetworkInfo} : Provisions n id spec (.openConsole network)
      { n with hub := (n.hub.openFor id).2 }
      (.launch network (n.hub.openFor id).1 (n.clock + n.config.launchTimeout))
  /-- The launcher has taken too long. -/
  | expire {network : NetworkInfo} {console : Console.Writer} {deadline : Nat} :
    deadline ≤ n.clock →
    Provisions n id spec (.launch network console deadline) n (.fail (launchError n.launchTimedOut))
  /-- The record gets its process. -/
  | attach {p : Nat} {r : Record Nat} : n.registry.records.find? id = some r →
    r.state = .provisioning → r.process = none →
    Provisions n id spec (.attach p)
      { n with registry := n.registry.put { r with process := some p } } (.enter p)
  /-- The instance runs, and a monitor watches over its process. -/
  | enter {p : Nat} {r : Record Nat} : n.registry.records.find? id = some r →
    r.state = .provisioning →
    Provisions n id spec (.enter p)
      (({ n with registry := n.registry.put { r with state := .running } } : Node).spawn
        (.monitor id p .wait) false).2 (.ended (.ok id))
  /-- The launch failed. -/
  | fail {cause : Error} {r : Record Nat} : n.registry.records.find? id = some r →
    r.state = .provisioning →
    Provisions n id spec (.fail cause)
      { n with registry := n.registry.put { r with state := .failed } } (.withdraw cause)
  /-- Somebody else has taken the record out. -/
  | miss {cause : Error} : n.registry.records.find? id = none →
    Provisions n id spec (.withdraw cause) n (.closeConsole cause)
  /-- The record is taken out with its lease. -/
  | withdraw {cause : Error} {r : Record Nat} {l : Lease} :
    n.registry.records.find? id = some r → r.state = .failed → r.lease = some l →
    Provisions n id spec (.withdraw cause) { n with registry := n.registry.without id r }
      (.giveBack (.toBegin (.release l)) cause)
  /-- The record is taken out, which has no lease. -/
  | discard {cause : Error} {r : Record Nat} : n.registry.records.find? id = some r →
    r.state = .failed → r.lease = none →
    Provisions n id spec (.withdraw cause) { n with registry := n.registry.without id r }
      (.closeConsole cause)
  /-- The console is given up. -/
  | closeConsole {cause : Error} : Provisions n id spec (.closeConsole cause)
      { n with hub := n.hub.remove id } (.ended (.error cause))

/-- Taking out the record of an instance that could not be launched. -/
theorem provisions_of_withdraw {spec : InstanceSpec} {cause : Error} {phase' : ProvisionPhase}
    (hfits : Role.failing.Fits (n.view id))
    (hstep : n.stepProvision id spec (.withdraw cause) = some (m, phase')) :
    n.Provisions id spec (.withdraw cause) m phase' := by
  rw [stepProvision] at hstep
  cases hfind : n.registry.records.find? id with
  | none =>
    simp only [Registry.remove, hfind] at hstep
    cases hstep
    exact .miss hfind
  | some record =>
    have hstate : record.state = .failed := by
      rw [view_of_find? hfind] at hfits
      rcases hfits with hs | ⟨⟨lease, hs⟩, -⟩
      · cases hs
      · exact (Status.mk.inj (Option.some.inj hs)).1
    simp only [Registry.remove, hfind, Registry.takeApart] at hstep
    cases hlease : record.lease with
    | none =>
      simp only [hlease] at hstep
      cases hstep
      exact .discard hfind hstate hlease
    | some l =>
      simp only [hlease] at hstep
      cases hstep
      exact .withdraw hfind hstate hlease

/-- The cases of `Provisions` are all that a task can do that provisions an instance. -/
theorem provisions_of_step (hn : n.Tidy ids) {spec : InstanceSpec}
    {phase phase' : ProvisionPhase} (ht : n.work? t = some (.provision id spec phase))
    (hstep : n.stepProvision id spec phase = some (m, phase')) :
    n.Provisions id spec phase m phase' := by
  have hfits : ∀ q, phase.role? = some q → q.Fits (n.view id) := fun q hq =>
    hn.fits_of_work ht ((if_pos rfl).trans hq)
  cases phase with
  | lease | refuse | giveBack | ended => cases hstep
  | insert lease =>
    -- the role relies on there being no record, so the insertion is not refused
    have hnone := find?_of_view_none (hfits .leasing rfl).1
    have hcontains : n.registry.records.contains id = false := by
      rw [Table.contains, hnone]
      rfl
    simp only [stepProvision, Registry.newRecord, Registry.insert, hcontains] at hstep
    cases hstep
    exact .insert hnone
  | openConsole network =>
    cases hstep
    exact .openConsole
  | launch network console deadline =>
    rw [stepProvision] at hstep
    split at hstep <;> cases hstep
    exact .expire ‹_›
  | attach process =>
    obtain ⟨record, l, hfind, hstate, hprocess, -⟩ := hn.find?_of_launching ht (if_pos rfl)
    rw [stepProvision, Registry.attach_of_find? hfind] at hstep
    cases hstep
    exact .attach hfind hstate hprocess
  | enter process =>
    obtain ⟨record, p, hfind, hstate, -⟩ := hn.find?_of_entering ht (if_pos rfl)
    rw [stepProvision, Registry.updateState_of_find? hfind (by rw [hstate]; rfl)] at hstep
    cases hstep
    exact .enter hfind hstate
  | fail cause =>
    obtain ⟨record, l, hfind, hstate, -⟩ := hn.find?_of_launching ht (if_pos rfl)
    have hupdate := Registry.updateState_of_find? (t := .failed) hfind (by rw [hstate]; rfl)
    simp only [stepProvision, hupdate] at hstep
    cases hstep
    exact .fail hfind hstate
  | withdraw cause => exact provisions_of_withdraw (hfits .failing rfl) hstep
  | closeConsole cause =>
    cases hstep
    exact .closeConsole

/-! ### Watching over a process -/

/-- The next step of a monitor. -/
inductive Watches (n : Node) (id : InstanceId) (process : Nat) :
    MonitorPhase → Node → MonitorPhase → Prop
  /-- The exit reason is published. -/
  | wake {reason : ExitReason} : n.exit? process = some reason →
    Watches n id process .wait n (.fail reason)
  /-- The process of a running instance has gone away. -/
  | fail {reason : ExitReason} {r : Record Nat} : n.registry.records.find? id = some r →
    r.state = .running →
    Watches n id process (.fail reason)
      { n with registry := n.registry.put { r with
        state := .failed, exitReason := some reason, process := none, lease := none } }
      (.tell reason r.lease)
  /-- Somebody else has moved the instance out of `running`. -/
  | late {reason : ExitReason} : (∀ r, n.registry.records.find? id = some r → r.state ≠ .running) →
    Watches n id process (.fail reason) n .ended
  /-- The console is told, and the lease is to be given back. -/
  | tell {reason : ExitReason} {l : Lease} {message : String} :
    Watches n id process (.tell reason (some l)) { n with hub := n.hub.note n.now id message }
      (.giveBack (.toBegin (.release l)))
  /-- The console is told, and there is no lease. -/
  | tellOnly {reason : ExitReason} {message : String} :
    Watches n id process (.tell reason none) { n with hub := n.hub.note n.now id message }
      .closeConsole
  /-- The console is closed. -/
  | closeConsole : Watches n id process .closeConsole { n with hub := n.hub.close id } .ended

/-- The cases of `Watches` are all that a monitor can do. -/
theorem watches_of_step {process : Nat} {phase phase' : MonitorPhase}
    (hstep : n.stepMonitor id process phase = some (m, phase')) :
    n.Watches id process phase m phase' := by
  cases phase with
  | giveBack | ended => cases hstep
  | wait =>
    obtain ⟨reason, hexit, heq⟩ := Option.map_eq_some_iff.1 hstep
    cases heq
    exact .wake hexit
  | fail reason =>
    rw [stepMonitor, Registry.failRunning] at hstep
    cases hfind : n.registry.records.find? id with
    | none =>
      simp only [hfind] at hstep
      cases hstep
      exact .late fun r hr => by cases hfind.symm.trans hr
    | some record =>
      simp only [hfind] at hstep
      by_cases hstate : record.state = .running
      · rw [if_pos hstate] at hstep
        cases hstep
        exact .fail hfind hstate
      · rw [if_neg hstate] at hstep
        cases hstep
        refine .late fun r hr => ?_
        obtain rfl := Option.some.inj (hfind.symm.trans hr)
        exact hstate
  | tell reason lease =>
    cases lease with
    | none =>
      cases hstep
      exact .tellOnly
    | some l =>
      cases hstep
      exact .tell
  | closeConsole =>
    cases hstep
    exact .closeConsole

/-! ### Deprovisioning -/

/-- The next step of a task that deprovisions an instance. -/
inductive Deprovisions (n : Node) (id : InstanceId) (timeout : Nat) :
    DeprovisionPhase → Node → DeprovisionPhase → Prop
  /-- A drain finds that the instance is gone. -/
  | missing {limit : Nat} : n.registry.records.find? id = none →
    Deprovisions n id timeout (.settle limit) n (.ended (.error (.instanceNotFound id)))
  /-- A drain finds that the instance is being provisioned. -/
  | rest {limit : Nat} {r : Record Nat} : n.registry.records.find? id = some r →
    r.state = .provisioning →
    Deprovisions n id timeout (.settle limit) n (.rest limit (n.clock + settlePause))
  /-- A drain finds that the instance is not being provisioned any more. -/
  | settled {limit : Nat} {r : Record Nat} : n.registry.records.find? id = some r →
    r.state ≠ .provisioning → Deprovisions n id timeout (.settle limit) n .look
  /-- A drain looks again. -/
  | wake {limit wake : Nat} : wake ≤ n.clock →
    Deprovisions n id timeout (.rest limit wake) n (.settle limit)
  /-- A drain gives up. -/
  | giveUp {limit wake : Nat} {message : String} : n.clock < wake → limit ≤ n.clock →
    Deprovisions n id timeout (.rest limit wake) n (.ended (.error (.timeout message)))
  /-- There is no instance. -/
  | unknown : n.registry.records.find? id = none →
    Deprovisions n id timeout .look n (.ended (.error (.instanceNotFound id)))
  /-- The instance is being provisioned. -/
  | early {r : Record Nat} : n.registry.records.find? id = some r → r.state = .provisioning →
    Deprovisions n id timeout .look n (.ended (.error (notRunning .provisioning)))
  /-- The instance is running. -/
  | see {r : Record Nat} : n.registry.records.find? id = some r → r.state = .running →
    Deprovisions n id timeout .look n .enter
  /-- Somebody else shuts the instance down. -/
  | follow {r : Record Nat} : n.registry.records.find? id = some r → r.state = .deprovisioning →
    Deprovisions n id timeout .look n .listen
  /-- The instance is in a final state. -/
  | late {r : Record Nat} : n.registry.records.find? id = some r → r.state.isFinal = true →
    Deprovisions n id timeout .look n (.reap r.exitReason)
  /-- The instance begins to be shut down. -/
  | enter {r : Record Nat} : n.registry.records.find? id = some r → r.state = .running →
    Deprovisions n id timeout .enter
      { n with registry := n.registry.put { r with state := .deprovisioning } } .find
  /-- Somebody else has moved the instance out of `running` meanwhile. -/
  | retry {r : Record Nat} : n.registry.records.find? id = some r → r.state ≠ .running →
    Deprovisions n id timeout .enter n .look
  /-- Somebody else has taken the record out meanwhile. -/
  | lost : n.registry.records.find? id = none →
    Deprovisions n id timeout .enter n (.ended (.error (.instanceNotFound id)))
  /-- The signal of the record is found. -/
  | listen {r : Record Nat} : n.registry.records.find? id = some r →
    Deprovisions n id timeout .listen n (.await r.signal)
  /-- The record is gone by now. -/
  | unheard : n.registry.records.find? id = none →
    Deprovisions n id timeout .listen n (.ended (.ok none))
  /-- The signal is raised. -/
  | heard {signal : Nat} : n.registry.signal signal ≠ .pending →
    Deprovisions n id timeout (.await signal) n (.ended (.ok none))
  /-- Somebody else has taken the final record out. -/
  | pass {known : Option ExitReason} : n.registry.records.find? id = none →
    Deprovisions n id timeout (.reap known) n (.ended (.ok known))
  /-- The final record is taken out with its lease. -/
  | reap {known : Option ExitReason} {r : Record Nat} {l : Lease} :
    n.registry.records.find? id = some r → r.state.isFinal = true → r.lease = some l →
    Deprovisions n id timeout (.reap known) { n with registry := n.registry.without id r }
      (.giveBackReaped (.toBegin (.release l)) (r.exitReason.or known))
  /-- The final record is taken out, which has no lease. -/
  | clear {known : Option ExitReason} {r : Record Nat} : n.registry.records.find? id = some r →
    r.state.isFinal = true → r.lease = none →
    Deprovisions n id timeout (.reap known) { n with registry := n.registry.without id r }
      (.closeReaped (r.exitReason.or known))
  /-- The console of an instance that was taken out is given up. -/
  | closeReaped {reason : Option ExitReason} : Deprovisions n id timeout (.closeReaped reason)
      { n with hub := n.hub.remove id } (.ended (.ok reason))
  /-- The process is found, and a call to stop it begins. -/
  | find {r : Record Nat} {p : Nat} : n.registry.records.find? id = some r →
    r.state = .deprovisioning → r.process = some p →
    Deprovisions n id timeout .find n (.stop p .ask)
  /-- The call to stop the process goes on. -/
  | stop {p : Nat} {stage stage' : Stop} {s s' : Supervisor} : n.supervisor? p = some s →
    stage.step n.clock timeout s = some (s', .inl stage') →
    Deprovisions n id timeout (.stop p stage) (n.setSupervisor p s') (.stop p stage')
  /-- The call to stop the process ends. -/
  | stopped {p : Nat} {stage : Stop} {s s' : Supervisor} {reason : ExitReason} :
    n.supervisor? p = some s → stage.step n.clock timeout s = some (s', .inr reason) →
    Deprovisions n id timeout (.stop p stage) (n.setSupervisor p s') (.note reason)
  /-- There is no process with the number. -/
  | strange {p : Nat} {stage : Stop} : n.supervisor? p = none →
    Deprovisions n id timeout (.stop p stage) n (.note (.crashed none))
  /-- The exit reason is noted. -/
  | note {reason : ExitReason} {r : Record Nat} : n.registry.records.find? id = some r →
    r.state = .deprovisioning →
    Deprovisions n id timeout (.note reason)
      { n with registry := n.registry.put { r with exitReason := some reason } } (.takeLease reason)
  /-- The lease is taken out of the record. -/
  | takeLease {reason : ExitReason} {r : Record Nat} {l : Lease} :
    n.registry.records.find? id = some r → r.state = .deprovisioning → r.lease = some l →
    Deprovisions n id timeout (.takeLease reason)
      { n with registry := n.registry.put { r with lease := none } }
      (.giveBack (.toBegin (.release l)) reason)
  /-- The instance has stopped. -/
  | enterStopped {reason : ExitReason} {r : Record Nat} : n.registry.records.find? id = some r →
    r.state = .deprovisioning → r.lease = none →
    Deprovisions n id timeout (.enterStopped reason)
      { n with registry := n.registry.put { r with state := .stopped } } (.tell reason)
  /-- The console is told. -/
  | tell {reason : ExitReason} {message : String} : Deprovisions n id timeout (.tell reason)
      { n with hub := n.hub.note n.now id message } (.closeConsole reason)
  /-- The console is given up. -/
  | closeConsole {reason : ExitReason} : Deprovisions n id timeout (.closeConsole reason)
      { n with hub := n.hub.remove id } (.withdraw reason)
  /-- Somebody else has taken out the record of an instance that has stopped. -/
  | gone {reason : ExitReason} : n.registry.records.find? id = none →
    Deprovisions n id timeout (.withdraw reason) n (.ended (.ok (some reason)))
  /-- The record of an instance that has stopped is taken out. -/
  | withdraw {reason : ExitReason} {r : Record Nat} : n.registry.records.find? id = some r →
    r.state = .stopped →
    Deprovisions n id timeout (.withdraw reason) { n with registry := n.registry.without id r }
      (.ended (.ok (some reason)))

/-- Reading the state of an instance. -/
theorem deprovisions_of_look {timeout : Nat} {phase' : DeprovisionPhase}
    (hstep : n.stepDeprovision id timeout .look = some (m, phase')) :
    n.Deprovisions id timeout .look m phase' := by
  rw [stepDeprovision, Registry.get] at hstep
  cases hfind : n.registry.records.find? id with
  | none =>
    rw [Registry.lookUp_of_find?_none hfind] at hstep
    cases hstep
    exact .unknown hfind
  | some record =>
    rw [Registry.lookUp_of_find? hfind] at hstep
    simp only [Functor.map, Except.map, Record.info] at hstep
    cases hstate : record.state with
    | provisioning =>
      simp only [hstate] at hstep
      cases hstep
      exact .early hfind hstate
    | running =>
      simp only [hstate] at hstep
      cases hstep
      exact .see hfind hstate
    | deprovisioning =>
      simp only [hstate] at hstep
      cases hstep
      exact .follow hfind hstate
    | stopped | failed =>
      simp only [hstate] at hstep
      cases hstep
      exact .late hfind (congrArg InstanceState.isFinal hstate)

/-- Moving an instance out of `running`. -/
theorem deprovisions_of_enter {timeout : Nat} {phase' : DeprovisionPhase}
    (hstep : n.stepDeprovision id timeout .enter = some (m, phase')) :
    n.Deprovisions id timeout .enter m phase' := by
  rw [stepDeprovision, Registry.transition] at hstep
  cases hfind : n.registry.records.find? id with
  | none =>
    rw [Registry.lookUp_of_find?_none hfind] at hstep
    cases hstep
    exact .lost hfind
  | some record =>
    rw [Registry.lookUp_of_find? hfind] at hstep
    simp only [bind, Except.bind, InstanceState.move] at hstep
    by_cases hstate : record.state = .running
    · rw [if_neg (not_not.2 hstate)] at hstep
      cases hstep
      exact .enter hfind hstate
    · rw [if_pos hstate] at hstep
      cases hstep
      exact .retry hfind hstate

/-- Taking the record of a final instance out. -/
theorem deprovisions_of_reap {timeout : Nat} {known : Option ExitReason}
    {phase' : DeprovisionPhase} (hfits : Role.reaping.Fits (n.view id))
    (hstep : n.stepDeprovision id timeout (.reap known) = some (m, phase')) :
    n.Deprovisions id timeout (.reap known) m phase' := by
  rw [stepDeprovision] at hstep
  cases hfind : n.registry.records.find? id with
  | none =>
    simp only [Registry.remove, hfind] at hstep
    cases hstep
    exact .pass hfind
  | some record =>
    have hfinal : record.state.isFinal = true := by
      rw [view_of_find? hfind] at hfits
      rcases hfits with hs | ⟨s, hs, hfinal⟩ <;> cases hs
      exact hfinal
    simp only [Registry.remove, hfind, Registry.takeApart] at hstep
    cases hlease : record.lease with
    | none =>
      simp only [hlease] at hstep
      cases hstep
      exact .clear hfind hfinal hlease
    | some l =>
      simp only [hlease] at hstep
      cases hstep
      exact .reap hfind hfinal hlease

/-- Looking at an instance on behalf of a drain. -/
theorem deprovisions_of_settle {timeout limit : Nat} {phase' : DeprovisionPhase}
    (hstep : n.stepDeprovision id timeout (.settle limit) = some (m, phase')) :
    n.Deprovisions id timeout (.settle limit) m phase' := by
  rw [stepDeprovision, Registry.state] at hstep
  cases hfind : n.registry.records.find? id with
  | none =>
    rw [Registry.lookUp_of_find?_none hfind] at hstep
    cases hstep
    exact .missing hfind
  | some record =>
    rw [Registry.lookUp_of_find? hfind] at hstep
    simp only [Functor.map, Except.map] at hstep
    by_cases hstate : record.state = .provisioning
    · simp only [hstate] at hstep
      cases hstep
      exact .rest hfind hstate
    · split at hstep <;> cases hstep
      · rename_i heq
        cases heq
      · rename_i heq
        exact absurd (Except.ok.inj heq) hstate
      · exact .settled hfind hstate

/-- Taking out the record of an instance that has stopped. -/
theorem deprovisions_of_withdraw {timeout : Nat} {reason : ExitReason} {phase' : DeprovisionPhase}
    (hfits : Role.leaving.Fits (n.view id))
    (hstep : n.stepDeprovision id timeout (.withdraw reason) = some (m, phase')) :
    n.Deprovisions id timeout (.withdraw reason) m phase' := by
  rw [stepDeprovision] at hstep
  cases hfind : n.registry.records.find? id with
  | none =>
    simp only [Registry.remove, hfind] at hstep
    cases hstep
    exact .gone hfind
  | some record =>
    have hstate : record.state = .stopped := by
      have hleaving := hfits.1
      rw [view_of_find? hfind] at hleaving
      rcases hleaving with hs | hs
      · cases hs
      · exact (Status.mk.inj (Option.some.inj hs)).1
    simp only [Registry.remove, hfind] at hstep
    cases hstep
    exact .withdraw hfind hstate

/-- Whoever shuts an instance down finds the record with the process and the lease, up to the
    step that takes the lease out. -/
theorem deprovisions_of_stopping (hn : n.Tidy ids) {timeout : Nat}
    {phase phase' : DeprovisionPhase} (ht : n.work? t = some (.deprovision id timeout phase))
    (hrole : phase.role? = some .stopping)
    (hstep : n.stepDeprovision id timeout phase = some (m, phase')) :
    n.Deprovisions id timeout phase m phase' := by
  obtain ⟨r, p, l, hfind, hstate, hprocess, hlease⟩ :=
    hn.find?_of_stopping ht ((if_pos rfl).trans hrole)
  cases phase with
  | find =>
    rw [stepDeprovision, Registry.process?, hfind, Option.bind_some, hprocess] at hstep
    cases hstep
    exact .find hfind hstate hprocess
  | stop process stage =>
    rw [stepDeprovision] at hstep
    split at hstep
    · cases hstep
      exact .strange ‹_›
    · split at hstep <;> cases hstep
      · exact .stop ‹_› ‹_›
      · exact .stopped ‹_› ‹_›
  | note reason =>
    simp only [stepDeprovision, Registry.setExitReason, hfind] at hstep
    cases hstep
    exact .note hfind hstate
  | takeLease reason =>
    simp only [stepDeprovision, Registry.takeLease, hfind, hlease] at hstep
    cases hstep
    exact .takeLease hfind hstate hlease
  | _ => cases hrole

/-- The instance has stopped, whose lease was given back. -/
theorem deprovisions_of_enterStopped {timeout : Nat} {reason : ExitReason}
    {phase' : DeprovisionPhase} (hfits : Role.returning.Fits (n.view id))
    (hstep : n.stepDeprovision id timeout (.enterStopped reason) = some (m, phase')) :
    n.Deprovisions id timeout (.enterStopped reason) m phase' := by
  obtain ⟨record, hfind, hstatus⟩ := find?_of_view_status hfits.1
  obtain ⟨hstate, -, hlease⟩ := Status.mk.inj hstatus
  simp only [stepDeprovision,
    Registry.updateState_of_find? (t := .stopped) hfind (by rw [hstate]; rfl)] at hstep
  cases hstep
  exact .enterStopped hfind hstate hlease

/-- The cases of `Deprovisions` are all that a task can do that deprovisions an instance. -/
theorem deprovisions_of_step (hn : n.Tidy ids) {timeout : Nat} {phase phase' : DeprovisionPhase}
    (ht : n.work? t = some (.deprovision id timeout phase))
    (hstep : n.stepDeprovision id timeout phase = some (m, phase')) :
    n.Deprovisions id timeout phase m phase' := by
  have hfits : ∀ q, phase.role? = some q → q.Fits (n.view id) := fun q hq =>
    hn.fits_of_work ht ((if_pos rfl).trans hq)
  cases phase with
  | giveBackReaped | giveBack | ended => cases hstep
  | settle limit => exact deprovisions_of_settle hstep
  | rest limit wake =>
    rw [stepDeprovision] at hstep
    split at hstep
    · cases hstep
      exact .wake ‹_›
    · split at hstep <;> cases hstep
      exact .giveUp (Nat.lt_of_not_le ‹_›) ‹_›
  | look => exact deprovisions_of_look hstep
  | enter => exact deprovisions_of_enter hstep
  | listen =>
    rw [stepDeprovision, Registry.signal?] at hstep
    cases hfind : n.registry.records.find? id with
    | none =>
      rw [hfind] at hstep
      cases hstep
      exact .unheard hfind
    | some record =>
      rw [hfind] at hstep
      cases hstep
      exact .listen hfind
  | await signal =>
    rw [stepDeprovision] at hstep
    split at hstep <;> cases hstep
    all_goals exact .heard (by simp [*])
  | reap known => exact deprovisions_of_reap (hfits .reaping rfl) hstep
  | closeReaped reason =>
    cases hstep
    exact .closeReaped
  | find | stop | note | takeLease => exact deprovisions_of_stopping hn ht rfl hstep
  | enterStopped reason => exact deprovisions_of_enterStopped (hfits .returning rfl) hstep
  | tell reason =>
    cases hstep
    exact .tell
  | closeConsole reason =>
    cases hstep
    exact .closeConsole
  | withdraw reason => exact deprovisions_of_withdraw (hfits .leaving rfl) hstep

/-! ### Serving an instance -/

/-- The next step of a task that publishes a port. -/
inductive Forwards (n : Node) (id : InstanceId) (mapping : PortMapping) (hasCaller : Bool) :
    ForwardPhase → Node → ForwardPhase → Prop
  /-- There is no instance. -/
  | unknown : n.registry.records.find? id = none →
    Forwards n id mapping hasCaller .look n (.ended (.error (.instanceNotFound id)))
  /-- The instance is running. -/
  | see {r : Record Nat} : n.registry.records.find? id = some r → r.state = .running →
    Forwards n id mapping hasCaller .look n (.work (.toBegin (.publish id r.network mapping)))
  /-- The instance is not running. -/
  | refuse {r : Record Nat} : n.registry.records.find? id = some r → r.state ≠ .running →
    Forwards n id mapping hasCaller .look n (.ended (.error (notRunning r.state)))
  /-- The port is added to the record. -/
  | add {g : Registry Nat} : hasCaller = true → n.registry.addPort id mapping = .ok g →
    Forwards n id mapping hasCaller .add { n with registry := g } (.ended (.ok ()))
  /-- There is no record to add the port to, or nobody who asks for that. -/
  | skip : hasCaller = false ∨ n.registry.records.find? id = none →
    Forwards n id mapping hasCaller .add n (.ended (.ok ()))

/-- The cases of `Forwards` are all that a task can do that publishes a port, apart from what the
    allocator does. -/
theorem forwards_of_step {mapping : PortMapping} {hasCaller : Bool} {phase phase' : ForwardPhase}
    (hstep : n.stepForward id mapping hasCaller phase = some (m, phase')) :
    n.Forwards id mapping hasCaller phase m phase' := by
  cases phase with
  | work | ended => cases hstep
  | look =>
    rw [stepForward, Registry.get] at hstep
    cases hfind : n.registry.records.find? id with
    | none =>
      rw [Registry.lookUp_of_find?_none hfind] at hstep
      cases hstep
      exact .unknown hfind
    | some r =>
      rw [Registry.lookUp_of_find? hfind] at hstep
      simp only [Functor.map, Except.map, Record.info] at hstep
      by_cases hstate : r.state = .running
      · rw [if_pos hstate] at hstep
        cases hstep
        exact .see hfind hstate
      · rw [if_neg hstate] at hstep
        cases hstep
        exact .refuse hfind hstate
  | add =>
    rw [stepForward] at hstep
    cases hasCaller with
    | false =>
      cases hstep
      exact .skip (.inl rfl)
    | true =>
      rw [if_pos rfl] at hstep
      cases hadd : n.registry.addPort id mapping with
      | ok g =>
        simp only [hadd] at hstep
        cases hstep
        exact .add rfl hadd
      | error e =>
        simp only [hadd] at hstep
        cases hstep
        refine .skip (.inr ?_)
        cases hfind : n.registry.records.find? id with
        | none => rfl
        | some r =>
          rw [Registry.addPort, Registry.lookUp_of_find? hfind] at hadd
          simp only [bind, Except.bind] at hadd
          split at hadd <;> cases hadd

/-- The next step of a task that waits for a report is one on the consoles. -/
theorem stepReport_eq_some {state : String} {timeout : Nat} {phase phase' : ReportPhase}
    (hstep : n.stepReport id state timeout phase = some (m, phase')) :
    ∃ hub, m = { n with hub } := by
  cases phase with
  | ended => cases hstep
  | look | subscribe | follow =>
    simp only [stepReport] at hstep
    repeat' split at hstep
    all_goals cases hstep
    all_goals exact ⟨_, rfl⟩

end Node

end VmNode
