import VmNode.Proofs.Network.Publish
import VmNode.Proofs.Node.Exclusive
import VmNode.Proofs.Node.Quiet

/-!
# Ports in records

A published port stands in two places: in the pool, with its rules, and in the record of the
instance. The call that has published it writes it into the record in a step of its own, once
the allocator has answered that the port is new, and it does so for its caller alone. So
whatever is in the record is in the pool (`Node.PortBooks.backed`), and a port that is in the
pool with its rules is in the record, is about to get there, or its caller has gone away
meanwhile (`Node.PortBooks.written`).

Hence the ports in the record of a running instance are some of those published for its slot,
in the same order, and all of them unless a caller went away (`Node.ports_of_play`). A port
whose caller has gone away stays in the pool alone: whoever publishes it once more is told that
it is there (`Node.forsaken`).
-/

namespace VmNode

/-! ### Ports with their rules -/

namespace Pool

/-- The instance holds a slot that has the port, with its rules. -/
def Written (p : Pool) (id : InstanceId) (m : PortMapping) : Prop :=
  ∃ s g rules, p.slots.find? s = some g ∧ g.holder = id ∧ rules ≠ [] ∧
    g.ports.find? m.hostPort = some ⟨m.guestPort, rules⟩

/-- As long as the instance holds a slot, the slot has the port, with its rules. -/
def Backs (p : Pool) (id : InstanceId) (m : PortMapping) : Prop :=
  ∃ rules, rules ≠ [] ∧ ∀ s g, p.slots.find? s = some g → g.holder = id →
    g.ports.find? m.hostPort = some ⟨m.guestPort, rules⟩

variable {p : Pool} {id : InstanceId} {s : Nat} {g : Holding} {m m' : PortMapping}

theorem mem_published (hfind : p.slots.find? s = some g) :
    m ∈ p.published s ↔
      ∃ rules, g.ports.find? m.hostPort = some ⟨m.guestPort, rules⟩ := by
  rw [published, hfind]
  simp only [List.mem_map, Prod.exists]
  constructor
  · rintro ⟨q, port, hport, rfl⟩
    exact ⟨port.rules, (Table.mem_entries_iff _).1 hport⟩
  · rintro ⟨rules, hport⟩
    exact ⟨_, _, (Table.mem_entries_iff _).2 hport, rfl⟩

theorem increasing_published (p : Pool) (s : Nat) : PortMapping.Increasing (p.published s) := by
  rw [published]
  cases p.slots.find? s with
  | none => exact .nil
  | some g => exact List.pairwise_map.2 (g.ports.sorted.imp Std.compare_eq_lt.1)

theorem Backs.mem_published (h : p.Backs id m) (hfind : p.slots.find? s = some g)
    (hholder : g.holder = id) : m ∈ p.published s := by
  obtain ⟨rules, -, hport⟩ := h
  exact (Pool.mem_published hfind).2 ⟨rules, hport s g hfind hholder⟩

/-- A port of the host is there for one port of the guest. -/
theorem Backs.eq (h : p.Backs id m) (h' : p.Backs id m') (hfind : p.slots.find? s = some g)
    (hholder : g.holder = id) (hport : m.hostPort = m'.hostPort) : m = m' := by
  obtain ⟨rules, -, hmine⟩ := h
  obtain ⟨rules', -, hmine'⟩ := h'
  have heq := (hmine s g hfind hholder).symm.trans (hport ▸ hmine' s g hfind hholder)
  cases m
  cases m'
  cases heq
  exact congrArg (PortMapping.mk · _) hport

end Pool

namespace Errand.Steps

variable {c : NetworkConfig} {ownerBase : Option Nat} {p p' : Pool} {e : Errand}
variable {progress : Errand.Progress} {id : InstanceId} {m : PortMapping}

/-- A port with its rules stays as long as its instance leases no other slot. -/
theorem backs (h : e.Steps c ownerBase p p' progress) (hp : p.Regular c ownerBase)
    (hfits : ∀ job, e = .going job → job.Fits p) (hlease : e ≠ .toBegin (.lease id))
    (hbacks : p.Backs id m) : p'.Backs id m := by
  obtain ⟨rules, hrules, hkept⟩ := hbacks
  refine ⟨rules, hrules, fun s => ?_⟩
  cases h with
  | begin hbegins => exact hbegins.keeps hp (fun heq => hlease (heq ▸ rfl)) (hkept s)
  | settle hsettles => exact hsettles.keeps (hfits _ rfl) hrules (hkept s)

/-- The rules of a port were written down before, or the call that publishes it has just done
    so. -/
theorem of_written (h : e.Steps c ownerBase p p' progress)
    (hfits : ∀ job, e = .going job → job.Fits p) (hwritten : p'.Written id m) :
    p.Written id m ∨
      (∃ network, e.call = .publish id network m) ∧ progress = .done (.ok (.published true)) := by
  obtain ⟨s, g', rules, hfind', rfl, hrules, hport'⟩ := hwritten
  cases h with
  | begin hbegins =>
    rcases hbegins.port_origin hfind' hport' with ⟨g, hfind, hholder, -, hport⟩ |
      ⟨_, _, _, _, hnone, -⟩
    · exact .inl ⟨s, g, rules, hfind, hholder, hrules, hport⟩
    · exact absurd hnone hrules
  | settle hsettles =>
    obtain ⟨g, port, hfind, hholder, -, hport, -, rfl | ⟨network, rfl, rfl⟩⟩ :=
      hsettles.port_origin (hfits _ rfl) hfind' hport'
    · exact .inl ⟨s, g, rules, hfind, hholder, hrules, hport⟩
    · exact .inr ⟨⟨network, congrArg (Call.publish · network m) hholder⟩, rfl⟩

/-- A port that is answered to be new has its rules. -/
theorem written_of_published (h : e.Steps c ownerBase p p' (.done (.ok (.published true))))
    (hfits : ∀ job, e = .going job → job.Fits p)
    (hwired : ∀ job, e = .going job → job.Wired c ownerBase p) {network : NetworkInfo}
    (hcall : e.call = .publish id network m) : p'.Written id m := by
  generalize hprogress : Errand.Progress.done _ = progress at h
  cases h with
  | @begin call _ progress hbegins =>
    cases progress <;> cases hprogress
    cases hbegins.eq_publish.1
  | @settle job _ progress hsettles =>
    cases progress <;> cases hprogress
    obtain ⟨-, i, n, m', rules, g, port, rfl, hfind, hholder, -, hport, hfind'⟩ :=
      hsettles.eq_publish
    cases hcall
    obtain rfl := Option.some.inj (hport.symm.trans (hfits _ rfl g hfind hholder))
    refine ⟨_, _, rules, hfind', hholder, fun hnone => ?_, Table.find?_insert_self ..⟩
    exact GuestLink.portRules_ne_nil _ _ _ ((hwired _ rfl).2.symm.trans hnone)

end Errand.Steps

/-! ### Calls that publish ports -/

/-- The call is publishing the port, or has done so and is about to write it into the record. -/
def ForwardPhase.isUnderWay : ForwardPhase → Bool
  | .work _ | .add => true
  | .look | .ended _ => false

/-- The task is publishing a port for the instance. -/
def Work.isPublishing (id : InstanceId) : Work → Bool
  | .forward i _ phase => i == id && phase.isUnderWay
  | _ => false

/-- Only a call that publishes a port has the allocator do so. -/
theorem Work.eq_forward {work : Work} {e : Errand} {id : InstanceId} {network : NetworkInfo}
    {m : PortMapping} (herrand : work.errand? = some e) (hproper : work.Proper)
    (hcall : e.call = .publish id network m) : work = .forward id m (.work e) := by
  cases work.sends herrand hproper with
  | lease hcall' => cases hcall.symm.trans hcall'
  | refuse hreturns | withdraw hreturns | watch hreturns | reap hreturns | stop hreturns =>
    -- giving a lease back is no call that publishes a port
    obtain ⟨l, hreturn, -⟩ := hreturns
    cases hcall.symm.trans hreturn
  | publish hcall' =>
    cases hcall.symm.trans hcall'
    rfl

/-- The errand of such a call is to publish the port. -/
theorem Work.Proper.of_forward {id : InstanceId} {mapping : PortMapping} {phase : ForwardPhase}
    {e : Errand} (h : (Work.forward id mapping phase).Proper)
    (herrand : (Work.forward id mapping phase).errand? = some e) :
    ∃ network, e.call = .publish id network mapping := by
  cases phase with
  | work => exact Option.some.inj herrand ▸ h
  | _ => cases herrand

/-- The call is about to write the port into the record once it is answered to be new. -/
theorem Work.of_resume_add {work : Work} {e : Errand} {progress : Errand.Progress}
    {id : InstanceId} {mapping : PortMapping} (herrand : work.errand? = some e)
    (h : .forward id mapping .add = work.resume progress) :
    progress = .done (.ok (.published true)) := by
  obtain ⟨phase, rfl, hphase⟩ := Work.of_resume_forward h
  cases phase with
  | work =>
    cases progress with
    | going => cases hphase
    | done outcome =>
      cases outcome with
      | error => cases hphase
      | ok reply =>
        cases reply with
        | leased | released => cases hphase
        | published isNew =>
          cases isNew with
          | false => cases hphase
          | true => rfl
  | _ => cases herrand

namespace Node

variable {ids : List InstanceId} {n m k : Node} {a : Move} {t : Nat} {id : InstanceId}
variable {mapping : PortMapping} {made : List Step}

/-- Some call is publishing a port for the instance. -/
def isPublishing (n : Node) (id : InstanceId) : Bool :=
  n.tasks.values.any fun task => task.work.isPublishing id

theorem isPublishing_of_work? {phase : ForwardPhase}
    (ht : n.work? t = some (.forward id mapping phase)) (hphase : phase.isUnderWay = true) :
    n.isPublishing id = true := by
  obtain ⟨task, hfind, hwork⟩ := Option.map_eq_some_iff.1 ht
  refine List.any_eq_true.2 ⟨task, ?_, by simp [hwork, Work.isPublishing, hphase]⟩
  exact List.mem_map.2 ⟨(t, task), (Table.mem_entries_iff _).2 hfind, rfl⟩

/-- In the step the caller of a call goes away that is publishing the port. -/
def Step.Forsakes (id : InstanceId) (mapping : PortMapping) (s : Step) : Prop :=
  ∃ t phase task, s.before.tasks.find? t = some ⟨.forward id mapping phase, true⟩ ∧
    phase.isUnderWay = true ∧ s.after.tasks.find? t = some task ∧ task.hasCaller = false

/-- How a call that publishes a port came to its phase. -/
theorem OnTask.of_forward (h : n.OnTask a m t) {phase' : ForwardPhase}
    (hm : m.work? t = some (.forward id mapping phase')) :
    n.work? t = some (.forward id mapping phase') ∨ (n.work? t = none ∧ phase' = .look) ∨
      ∃ phase k, n.work? t = some (.forward id mapping phase) ∧
        n.Advance a (.forward id mapping phase) k (.forward id mapping phase') ∧
          m = k.setWork t (.forward id mapping phase') := by
  cases h with
  | idle heq => exact .inl (heq.symm.trans hm)
  | begun hnone hw hbegun =>
    obtain rfl := Option.some.inj (hw.symm.trans hm)
    exact .inr (.inl ⟨hnone, hbegun.of_forward⟩)
  | dropped _ _ hgone => cases hgone.symm.trans hm
  | @goes w _ k _ ht hadvance hk hw =>
    obtain rfl := Option.some.inj (hw.symm.trans hm)
    have hwork : ∃ phase, w = .forward id mapping phase := by
      cases hadvance with
      | errand _ _ heq | answer _ _ heq =>
        obtain ⟨phase, rfl, -⟩ := Work.of_resume_forward heq
        exact ⟨phase, rfl⟩
      | forward => exact ⟨_, rfl⟩
    obtain ⟨phase, rfl⟩ := hwork
    exact .inr (.inr ⟨phase, k, ht, hadvance, hk⟩)

/-- A call that was begun has a task. -/
theorem exists_task_of_work? {work : Work} (h : n.work? t = some work) :
    ∃ hasCaller, n.tasks.find? t = some ⟨work, hasCaller⟩ := by
  obtain ⟨⟨_, hasCaller⟩, hfind, rfl⟩ := Option.map_eq_some_iff.1 h
  exact ⟨hasCaller, hfind⟩

/-- Only a caller that goes away forsakes a port. -/
theorem Legal.of_forsakes (h : Legal ids n a m)
    (hforsakes : (⟨n, a, m⟩ : Step).Forsakes id mapping) : ∃ u, a = .leave u := by
  obtain ⟨t, phase, task, ht, -, hm, hcaller⟩ := hforsakes
  obtain ⟨task', hm', hcases⟩ := h.pass.find?_tasks h.tidy ht
  obtain rfl := Option.some.inj (hm.symm.trans hm')
  rcases hcases with rfl | ⟨-, hsame⟩ | ⟨hleave, -⟩
  · cases hcaller
  · cases hcaller.symm.trans hsame
  · exact hleave

/-! ### The pool along a run -/

/-- A task that goes on changes the pool with its errand alone. -/
theorem Advance.pool (hn : n.Tidy ids) {work work' : Work} (h : n.Advance a work k work') :
    k.pool = n.pool ∨ ∃ e progress, work.errand? = some e ∧
      e.Steps n.config.network n.ownerBase n.pool k.pool progress ∧
        work' = work.resume progress := by
  cases h with
  | errand herrand hsteps hwork => exact .inr ⟨_, _, herrand, hsteps, hwork⟩
  | answer | gather | report | launched | unlaunched => exact .inl rfl
  | provision h => cases h <;> exact .inl rfl
  | monitor h => cases h <;> exact .inl rfl
  | deprovision h => cases h <;> exact .inl rfl
  | forward h => cases h <;> exact .inl rfl
  | list =>
    obtain ⟨tasks, htasks⟩ := (spawnMembers_cases n.instanceIds hn.numbered).1
    exact .inl (by rw [htasks])

/-- What a move does to the pool. -/
theorem Legal.pool (h : Legal ids n a m) : m.pool = n.pool ∨
    ∃ t work e progress, n.work? t = some work ∧ work.errand? = some e ∧
      e.Steps n.config.network n.ownerBase n.pool m.pool progress ∧
        m.work? t = some (work.resume progress) := by
  cases h.pass with
  | @task _ t work work' k ha ht hadvance =>
    refine (hadvance.pool h.tidy).imp id fun ⟨e, progress, herrand, hsteps, hwork⟩ => ?_
    have hk := hadvance.work?_self h.tidy ht ha
    exact ⟨t, work, e, progress, ht, herrand, hsteps, hwork ▸ work?_setWork_self hk work'⟩
  | begin => exact .inl rfl
  | leave habandons => exact .inl habandons.pool
  | process | print | pass => exact .inl rfl

/-- The pool is in order, and so are the calls in progress. -/
structure CallsFit (n : Node) : Prop where
  /-- Slots and ports are in order. -/
  regular : n.pool.Regular n.config.network n.ownerBase
  /-- A call finds the slot or the port that it has. -/
  fits : ∀ t job, n.job? t = some job → job.Fits n.pool
  /-- What a call has installed or is to remove are rules of its slot. -/
  wired : ∀ t job, n.job? t = some job → job.Wired n.config.network n.ownerBase n.pool
  /-- A port without rules is being published, unless its slot is being given back. -/
  making : ∀ s g q guestPort, n.pool.slots.find? s = some g → g.releasing = false →
    g.ports.find? q = some ⟨guestPort, []⟩ →
    ∃ t network phase, n.job? t = some (.publish g.holder network ⟨q, guestPort⟩ phase)

/-- The calls of the tasks are traffic along a run. -/
theorem Run.exists_traffic (h : Run made ids n) : ∃ c ownerBase t number,
    Traffic.Reachable c ownerBase t ∧ Mirrors ids n t number := by
  induction h with
  | start hstart => exact ⟨_, _, _, _, .start, .start hstart⟩
  | move _ hlegal ih =>
    obtain ⟨c, ownerBase, t, number, ht, hmirrors⟩ := ih
    obtain ⟨u, number', hu, -, hmirrors'⟩ :=
      hmirrors.move hlegal.tidy ht.orderly.sound hlegal.new hlegal.move
    rcases hu with rfl | ⟨event, hstep⟩
    · exact ⟨c, ownerBase, u, number', ht, hmirrors'⟩
    · exact ⟨c, ownerBase, u, number', ht.step hstep, hmirrors'⟩

theorem Run.callsFit (h : Run made ids n) : n.CallsFit := by
  obtain ⟨c, ownerBase, t, number, ht, hmirrors⟩ := h.exists_traffic
  have hcalled := hmirrors.jobs.isCalled
  refine ⟨?_, fun s job hjob => ?_, fun s job hjob => ?_, fun s g q guestPort hfind hfree hport => ?_⟩
  · rw [← hmirrors.pool, ← hmirrors.config, ← hmirrors.ownerBase]
    exact ht.orderly.regular
  · rw [← hmirrors.pool]
    exact ht.orderly.fits _ _ (hcalled s job hjob)
  · rw [← hmirrors.pool, ← hmirrors.config, ← hmirrors.ownerBase]
    exact ht.wired.jobs _ _ (hcalled s job hjob)
  · rw [← hmirrors.pool] at hfind
    obtain ⟨k, network, phase, hjob, -⟩ := ht.booked.making s g q guestPort hfind hfree hport
    obtain ⟨s', -, hjob'⟩ := hmirrors.jobs.isOwn k _ hjob
    exact ⟨s', network, phase, hjob'⟩

/-- A lease that is known has no ports. -/
theorem Run.ports_of_knows (h : Run made ids n) {l : Lease} (hl : n.Knows l) :
    l.info.ports = [] := by
  obtain ⟨_, _, _, _, -, hmirrors⟩ := h.exists_traffic
  exact hmirrors.plain l (hmirrors.granted l hl)

/-- A task that is on an errand is on its way with the call. -/
theorem CallsFit.fits_going (h : n.CallsFit) {work : Work} {e : Errand} (ht : n.work? t = some work)
    (herrand : work.errand? = some e) : ∀ job, e = .going job → job.Fits n.pool := by
  rintro job rfl
  exact h.fits t job (job?_of_going ht herrand)

/-- Ports with their rules stay, since an instance that is there leases no second slot. -/
theorem Legal.backs (h : Legal ids n a m) (hcalls : n.CallsFit) (hpast : Past ids n id)
    (hbacks : n.pool.Backs id mapping) : m.pool.Backs id mapping := by
  rcases h.pool with heq | ⟨t, work, e, progress, ht, herrand, hsteps, -⟩
  · rwa [heq]
  · refine hsteps.backs hcalls.regular (hcalls.fits_going ht herrand) ?_ hbacks
    rintro rfl
    have hrole := Work.role?_of_toBegin_lease herrand (h.tidy.proper t work ht)
    cases hpast.2 .asking (.of_work? ht hrole)

/-- Where a call has written a port into the record, the port is there. -/
theorem Forwards.recorded (hn : n.Tidy ids) {phase' : ForwardPhase}
    (h : n.Forwards id mapping true .add k phase') {r : Record Nat}
    (hfind : k.registry.records.find? id = some r) : mapping ∈ r.network.ports := by
  cases h with
  | skip hnone => cases (hnone.resolve_left nofun).symm.trans hfind
  | @add g _ hadd =>
    replace hfind : g.records.find? id = some r := hfind
    rcases Registry.addPort_eq_ok hadd with ⟨rfl, q, hq, hmem⟩ | ⟨q, ports, hq, hjoins, rfl⟩
    · obtain rfl := Option.some.inj (hq.symm.trans hfind)
      exact hmem
    · have hkey : ({ q with network := { q.network with ports } } : Record Nat).id = id :=
        hn.keyed id q hq
      rw [Registry.find?_put_self hkey, Option.some.injEq] at hfind
      subst hfind
      exact hjoins.mem_iff.2 (.inl rfl)

/-- A call that writes a port into the record does so, if there is one. -/
theorem Legal.recorded (h : Legal ids n a m) (ha : a.task? = some t)
    (ht : n.tasks.find? t = some ⟨.forward id mapping .add, true⟩) {r : Record Nat}
    (hfind : m.registry.records.find? id = some r) : mapping ∈ r.network.ports := by
  have hwork : n.work? t = some (.forward id mapping .add) := congrArg (Option.map Task.work) ht
  have hmove := h.move
  cases a with
  | run s =>
    -- the task writes the port into the record, as it has a caller
    obtain rfl := Option.some.inj ha
    replace hmove : n.run s = some m := hmove
    rw [run, ht] at hmove
    obtain ⟨⟨k, work'⟩, hstep, rfl⟩ := Option.map_eq_some_iff.1 hmove
    simp only [stepWork] at hstep
    obtain ⟨⟨k', phase'⟩, hphase, heq⟩ := Option.map_eq_some_iff.1 hstep
    cases heq
    exact (forwards_of_step hphase).recorded h.tidy hfind
  | host s result =>
    obtain rfl := Option.some.inj ha
    obtain ⟨work, e, progress, hw, herrand, -⟩ := answerHost_eq_some hmove
    cases hwork.symm.trans hw
    cases herrand
  | launched s result =>
    obtain rfl := Option.some.inj ha
    replace hmove : n.answerLaunch s result = some m := hmove
    rw [answerLaunch, ht] at hmove
    cases hmove
  | begin | leave | process | print | pass => cases ha

/-- An instance holds one slot at most. -/
theorem Tidy.backs_of_written (hn : n.Tidy ids) (h : n.pool.Written id mapping) :
    n.pool.Backs id mapping := by
  obtain ⟨s, g, rules, hfind, hholder, hrules, hport⟩ := h
  refine ⟨rules, hrules, fun s' g' hfind' hholder' => ?_⟩
  have hone := hn.single ⟨s, g.holder, g.releasing⟩ (Pool.mem_holds.2 ⟨g, hfind, rfl, rfl⟩)
    ⟨s', g'.holder, g'.releasing⟩ (Pool.mem_holds.2 ⟨g', hfind', rfl, rfl⟩)
    (hholder.trans hholder'.symm)
  obtain rfl : s = s' := congrArg Hold.slot hone
  obtain rfl := Option.some.inj (hfind.symm.trans hfind')
  exact hport

/-! ### Ports in the pool and in records -/

/-- How the ports in the records of a node go with those in its pool, after a run with these
    steps. -/
structure PortBooks (made : List Step) (ids : List InstanceId) (n : Node) : Prop where
  /-- Ports are published for instances that are there, or were. -/
  past : ∀ t id mapping phase, n.work? t = some (.forward id mapping phase) →
    phase.isUnderWay = true → Past ids n id
  /-- Whoever goes on without a caller had one before. -/
  forsaken : ∀ t id mapping phase, n.tasks.find? t = some ⟨.forward id mapping phase, false⟩ →
    ∃ s ∈ made, s.Forsakes id mapping
  /-- What is to be written into a record has its rules. -/
  backing : ∀ t id mapping, n.work? t = some (.forward id mapping .add) →
    n.pool.Backs id mapping
  /-- What is in a record has its rules. -/
  backed : ∀ id r, n.registry.records.find? id = some r →
    ∀ mapping ∈ r.network.ports, n.pool.Backs id mapping
  /-- The ports of a record that has its lease are in order, each once. -/
  increasing : ∀ id r, n.registry.records.find? id = some r → r.lease.isSome = true →
    PortMapping.Increasing r.network.ports
  /-- What has its rules is in the record, if there is one, or is to be written into it, or a
      caller went away. -/
  written : ∀ id mapping, n.pool.Written id mapping → Past ids n id ∧
    ((∀ r, n.registry.records.find? id = some r → mapping ∈ r.network.ports) ∨
      (∃ t, n.tasks.find? t = some ⟨.forward id mapping .add, true⟩) ∨
        ∃ s ∈ made, s.Forsakes id mapping)

namespace PortBooks

/-- Whoever has begun to publish a port found the instance running. -/
theorem past_legal (h : PortBooks made ids n) (hlegal : Legal ids n a m) {phase' : ForwardPhase}
    (hm : m.work? t = some (.forward id mapping phase')) (hphase : phase'.isUnderWay = true) :
    Past (ids ++ a.provision?.toList) m id := by
  refine hlegal.past ?_
  rcases (hlegal.onTask t).of_forward hm with ht | ⟨-, rfl⟩ | ⟨phase, k, ht, hadvance, -⟩
  · exact h.past t id mapping phase' ht hphase
  · cases hphase
  · cases hadvance with
    | errand herrand _ _ | answer herrand _ _ =>
      refine h.past t id mapping phase ht ?_
      cases phase <;> first | rfl | cases herrand
    | forward hstep =>
      cases hstep with
      | see hfind _ => exact hlegal.tidy.past_of_find? hfind
      | unknown | refuse | add | skip => cases hphase

/-- Whoever goes on without a caller has just lost it, or had lost it before. -/
theorem forsaken_legal (h : PortBooks made ids n) (hlegal : Legal ids n a m)
    {phase' : ForwardPhase} (hm : m.tasks.find? t = some ⟨.forward id mapping phase', false⟩) :
    ∃ s ∈ made ++ [⟨n, a, m⟩], s.Forsakes id mapping := by
  have hold : ∀ {phase}, n.tasks.find? t = some ⟨.forward id mapping phase, false⟩ →
      ∃ s ∈ made ++ [⟨n, a, m⟩], s.Forsakes id mapping := fun ht => by
    obtain ⟨s, hs, hforsakes⟩ := h.forsaken t id mapping _ ht
    exact ⟨s, List.mem_append_left _ hs, hforsakes⟩
  have hwork : m.work? t = some (.forward id mapping phase') := congrArg (Option.map Task.work) hm
  cases ht : n.tasks.find? t with
  | none =>
    -- a call that has just begun has its caller
    have hnone : n.work? t = none := congrArg (Option.map Task.work) ht
    cases hlegal.pass.hasCaller_of_begun hlegal.tidy hnone hm
  | some task =>
    obtain ⟨task', hm', hcases⟩ := hlegal.pass.find?_tasks hlegal.tidy ht
    obtain rfl := Option.some.inj (hm.symm.trans hm')
    rcases hcases with rfl | ⟨-, hcaller⟩ | ⟨-, -, halone⟩
    · exact hold ht
    · obtain ⟨phase, ht'⟩ : ∃ phase, n.work? t = some (.forward id mapping phase) := by
        rcases (hlegal.onTask t).of_forward hwork with ht' | ⟨hnone, -⟩ | ⟨phase, _, ht', -⟩
        · exact ⟨phase', ht'⟩
        · rw [work?, ht] at hnone
          cases hnone
        · exact ⟨phase, ht'⟩
      obtain ⟨hasCaller, hfind⟩ := exists_task_of_work? ht'
      obtain rfl := Option.some.inj (ht.symm.trans hfind)
      obtain rfl : false = hasCaller := hcaller
      exact hold hfind
    · obtain ⟨work, hasCaller⟩ := task
      have hbound : work.isBound = true ∧ work = .forward id mapping phase' := by
        rw [Task.alone] at halone
        cases hbound : work.isBound with
        | true => simpa [hbound] using congrArg Task.work halone.symm
        | false => simp [hbound] at halone
      obtain ⟨hbound, rfl⟩ := hbound
      cases hasCaller with
      | false => exact hold ht
      | true =>
        refine ⟨_, List.mem_append_right _ (List.mem_singleton_self _), t, phase', _, ht, ?_, hm, rfl⟩
        cases phase' <;> first | rfl | cases hbound

/-- Whoever is about to write a port into a record was answered that it is new. -/
theorem backing_legal (h : PortBooks made ids n) (hlegal : Legal ids n a m) (hcalls : n.CallsFit)
    (hm : m.work? t = some (.forward id mapping .add)) : m.pool.Backs id mapping := by
  rcases (hlegal.onTask t).of_forward hm with ht | ⟨-, hphase⟩ | ⟨phase, k, ht, hadvance, hk⟩
  · exact hlegal.backs hcalls (h.past t id mapping .add ht rfl) (h.backing t id mapping ht)
  · cases hphase
  · cases hadvance with
    | @errand _ _ _ e progress pool herrand hsteps heq =>
      obtain ⟨network, hcall⟩ := (hlegal.tidy.proper t _ ht).of_forward herrand
      obtain rfl := Work.of_resume_add herrand heq
      refine hlegal.after.backs_of_written ?_
      rw [hk]
      exact hsteps.written_of_published (hcalls.fits_going ht herrand)
        (fun job hjob => hcalls.wired t job (job?_of_going ht (hjob ▸ herrand))) hcall
    | answer herrand hanswer heq =>
      -- no call ends well with a step on the host
      obtain rfl := Work.of_resume_add herrand heq
      obtain ⟨job, -, -, hdone⟩ := Errand.answer_eq_some hanswer
      cases hprogress : job.answer n.config.network _ with
      | going => cases hdone.trans (congrArg Errand.Progress.ofCall hprogress)
      | done outcome =>
        rw [hprogress] at hdone
        cases hdone
        exact absurd hprogress (job.answer_ne_ok _ _ _)
    | forward hstep => cases hstep

/-- A port that is written into a record has its rules. -/
theorem backed_legal (h : PortBooks made ids n) (hlegal : Legal ids n a m) (hcalls : n.CallsFit)
    (hplain : ∀ l, n.Knows l → l.info.ports = []) {r' : Record Nat}
    (hfind' : m.registry.records.find? id = some r') (hmem : mapping ∈ r'.network.ports) :
    m.pool.Backs id mapping := by
  have hold : ∀ r, n.registry.records.find? id = some r → mapping ∈ r.network.ports →
      m.pool.Backs id mapping := fun r hfind hmem =>
    hlegal.backs hcalls (hlegal.tidy.past_of_find? hfind) (h.backed id r hfind mapping hmem)
  cases hlegal.onRecord id with
  | idle heq => exact hold r' (heq.symm.trans hfind') hmem
  | @inserted _ _ lease _ _ ht _ hm _ _ hnetwork =>
    -- a new record has no ports
    obtain rfl := Option.some.inj (hm.symm.trans hfind')
    rw [hnetwork, hplain lease (.inl ⟨_, _, ht, rfl⟩)] at hmem
    cases hmem
  | @edited t work r _ _ ht hid hfind hm hedits =>
    obtain rfl := Option.some.inj (hm.symm.trans hfind')
    rcases hedits.ports with hports | ⟨mapping', hwork, hjoins⟩
    · exact hold r hfind (hports ▸ hmem)
    · rcases hjoins.mem_iff.1 hmem with rfl | hmem
      · rw [hid] at hwork
        exact hlegal.backs hcalls (hlegal.tidy.past_of_find? hfind)
          (h.backing t id mapping (hwork ▸ ht))
      · exact hold r hfind hmem
  | removed _ _ _ _ hnone => cases hnone.symm.trans hfind'

/-- A port joins those of a record in its place. -/
theorem increasing_legal (h : PortBooks made ids n) (hlegal : Legal ids n a m)
    (hplain : ∀ l, n.Knows l → l.info.ports = []) {r' : Record Nat}
    (hfind' : m.registry.records.find? id = some r') (hlease : r'.lease.isSome = true) :
    PortMapping.Increasing r'.network.ports := by
  cases hlegal.onRecord id with
  | idle heq => exact h.increasing id r' (heq.symm.trans hfind') hlease
  | @inserted _ _ lease _ _ ht _ hm _ _ hnetwork =>
    obtain rfl := Option.some.inj (hm.symm.trans hfind')
    rw [hnetwork, hplain lease (.inl ⟨_, _, ht, rfl⟩)]
    exact .nil
  | @edited t work r q _ ht hid hfind hm hedits =>
    obtain rfl := Option.some.inj (hm.symm.trans hfind')
    have hsame : q.lease = r.lease := hedits.lease.resolve_right fun hnone => by
      rw [hnone] at hlease
      cases hlease
    have hincreasing := h.increasing id r hfind (hsame ▸ hlease)
    rcases hedits.ports with hports | ⟨mapping, hwork, hjoins⟩
    · exact hports ▸ hincreasing
    · rw [hid] at hwork
      refine hjoins.increasing hincreasing fun mapping' hmem hport => hjoins.new ?_
      -- the slot of the instance has the port of the host for one port of the guest
      obtain ⟨l, hl⟩ := Option.isSome_iff_exists.1 (hsame ▸ hlease)
      obtain ⟨g, hg, hholder, -⟩ :=
        Pool.mem_holds.1 (Multiset.singleton_le.1 (hlegal.tidy.lease_holds_le hfind hl))
      have hmine := hholder.trans (hlegal.tidy.holder_of_lease hfind hl)
      obtain rfl := (h.backed id r hfind mapping' hmem).eq
        (h.backing t id mapping (hwork ▸ ht)) hg hmine hport
      exact hmem
  | removed _ _ _ _ hnone => cases hnone.symm.trans hfind'

/-- What has its rules after a move had them before, or is about to be written into the record. -/
theorem written_legal (hlegal : Legal ids n a m) (hcalls : n.CallsFit)
    (hwritten : m.pool.Written id mapping) : n.pool.Written id mapping ∨
      ∃ t, m.work? t = some (.forward id mapping .add) := by
  rcases hlegal.pool with heq | ⟨t, work, e, progress, ht, herrand, hsteps, hm⟩
  · exact .inl (heq ▸ hwritten)
  · refine (hsteps.of_written (hcalls.fits_going ht herrand) hwritten).imp_right ?_
    rintro ⟨⟨network, hcall⟩, rfl⟩
    obtain rfl := Work.eq_forward herrand (hlegal.tidy.proper t work ht) hcall
    exact ⟨t, hm⟩

/-- A port that is to be written into a record gets there, unless the caller goes away. -/
theorem adding_legal (hlegal : Legal ids n a m)
    (ht : n.tasks.find? t = some ⟨.forward id mapping .add, true⟩) :
    (∀ r, m.registry.records.find? id = some r → mapping ∈ r.network.ports) ∨
      m.tasks.find? t = some ⟨.forward id mapping .add, true⟩ ∨
        (⟨n, a, m⟩ : Step).Forsakes id mapping := by
  obtain ⟨task', hm, rfl | ⟨ha, -⟩ | ⟨-, -, rfl⟩⟩ := hlegal.pass.find?_tasks hlegal.tidy ht
  · exact .inr (.inl hm)
  · exact .inl fun _ => hlegal.recorded ha ht
  · exact .inr (.inr ⟨t, .add, _, ht, rfl, hm, rfl⟩)

/-- A port that is in a record stays there as long as the record does. -/
theorem recorded_legal (hlegal : Legal ids n a m) (hpast : Past ids n id)
    (hmem : ∀ r, n.registry.records.find? id = some r → mapping ∈ r.network.ports) {r' : Record Nat}
    (hfind' : m.registry.records.find? id = some r') : mapping ∈ r'.network.ports := by
  cases hlegal.onRecord id with
  | idle heq => exact hmem r' (heq.symm.trans hfind')
  | inserted _ ht => cases hpast.2 .leasing (.of_work? ht (if_pos rfl))
  | @edited _ _ r q _ _ _ hfind hm hedits =>
    obtain rfl := Option.some.inj (hm.symm.trans hfind')
    rcases hedits.ports with hports | ⟨_, _, hjoins⟩
    · exact hports ▸ hmem r hfind
    · exact hjoins.mem_iff.2 (.inr (hmem r hfind))
  | removed _ _ _ _ hnone => cases hnone.symm.trans hfind'

/-- A move leaves the ports of the records in agreement with those of the pool. -/
theorem legal (h : PortBooks made ids n) (hlegal : Legal ids n a m) (hcalls : n.CallsFit)
    (hplain : ∀ l, n.Knows l → l.info.ports = []) :
    PortBooks (made ++ [⟨n, a, m⟩]) (ids ++ a.provision?.toList) m where
  past _ _ _ _ := h.past_legal hlegal
  forsaken _ _ _ _ := h.forsaken_legal hlegal
  backing _ _ _ := h.backing_legal hlegal hcalls
  backed _ _ hfind _ := h.backed_legal hlegal hcalls hplain hfind
  increasing _ _ := h.increasing_legal hlegal hplain
  written := by
    intro id mapping hwritten
    -- the rules were there before, or this move has written them down
    rcases written_legal hlegal hcalls hwritten with hold | ⟨t, ht⟩
    · obtain ⟨hpast, hrecorded | ⟨t, ht⟩ | ⟨s, hs, hforsakes⟩⟩ := h.written id mapping hold
      · exact ⟨hlegal.past hpast, .inl fun r => recorded_legal hlegal hpast hrecorded⟩
      · refine ⟨hlegal.past hpast, ?_⟩
        -- the call puts the port into the record, or goes on, or its caller goes away
        rcases adding_legal hlegal ht with hrecorded | hm | hforsakes
        · exact .inl hrecorded
        · exact .inr (.inl ⟨t, hm⟩)
        · exact .inr (.inr ⟨_, List.mem_append_right _ (List.mem_singleton_self _), hforsakes⟩)
      · exact ⟨hlegal.past hpast, .inr (.inr ⟨s, List.mem_append_left _ hs, hforsakes⟩)⟩
    · refine ⟨h.past_legal hlegal ht rfl, ?_⟩
      obtain ⟨hasCaller, hfind⟩ := exists_task_of_work? ht
      cases hasCaller with
      | true => exact .inr (.inl ⟨t, hfind⟩)
      | false => exact .inr (.inr (h.forsaken_legal hlegal hfind))

end PortBooks

theorem Run.portBooks (h : Run made ids n) : PortBooks made ids n := by
  induction h with
  | start hstart =>
    obtain rfl := start_eq_ok hstart
    exact ⟨fun _ _ _ _ h => (by cases h), fun _ _ _ _ h => (by cases h), fun _ _ _ h => (by cases h),
      fun _ _ h => (by cases h), fun _ _ h => (by cases h), fun _ _ ⟨_, _, _, h, _⟩ => (by cases h)⟩
  | move hrun hlegal ih => exact ih.legal hlegal hrun.callsFit fun _ => hrun.ports_of_knows

/-- The ports in the record of an instance agree with those published for its slot, as far as
    they can after these steps. -/
structure PortsAgree (made : List Step) (n : Node) (id : InstanceId)
    (recorded published : List PortMapping) : Prop where
  /-- Each port of the host is below those after it. -/
  increasing : PortMapping.Increasing recorded
  /-- What is recorded is published, and stands there in the same order. -/
  sublist : recorded.Sublist published
  /-- Once no call is publishing a port, whatever is not recorded was forsaken. -/
  missing : n.isPublishing id = false → ∀ mapping ∈ published, mapping ∉ recorded →
    ∃ s ∈ made, s.Forsakes id mapping
  /-- If nothing was forsaken either, the ports are the same. -/
  same : n.isPublishing id = false → (∀ s ∈ made, ∀ mapping, ¬ s.Forsakes id mapping) →
    recorded = published

/-- A port that is published and on nobody's way is in the record, unless it was forsaken. -/
theorem PortBooks.mem_or_forsaken (h : PortBooks made ids n) (hcalls : n.CallsFit)
    (hn : n.Tidy ids) (hquiet : n.isPublishing id = false) {r : Record Nat}
    (hfind : n.registry.records.find? id = some r) {s : Nat} {g : Holding}
    (hg : n.pool.slots.find? s = some g) (hholder : g.holder = id) (hfree : g.releasing = false)
    (hmem : mapping ∈ n.pool.published s) :
    mapping ∈ r.network.ports ∨ ∃ s ∈ made, s.Forsakes id mapping := by
  have hidle : ∀ {t phase}, n.work? t = some (.forward id mapping phase) →
      phase.isUnderWay = false := fun ht => by
    by_contra hphase
    rw [isPublishing_of_work? ht (by simpa using hphase)] at hquiet
    cases hquiet
  obtain ⟨rules, hport⟩ := (Pool.mem_published hg).1 hmem
  cases rules with
  | nil =>
    -- a port without rules is being published
    obtain ⟨t, network, phase, hjob⟩ := hcalls.making s g _ _ hg hfree hport
    obtain ⟨work, ht, herrand⟩ := errand?_of_job? hjob
    obtain rfl := Work.eq_forward herrand (hn.proper t work ht) rfl
    cases hidle (hholder ▸ ht)
  | cons rule rest =>
    have hwritten : n.pool.Written id mapping := ⟨s, g, _, hg, hholder, by simp, hport⟩
    obtain ⟨-, hrecorded | ⟨t, ht⟩ | hforsaken⟩ := h.written id mapping hwritten
    · exact .inl (hrecorded r hfind)
    · cases hidle (congrArg (Option.map Task.work) ht)
    · exact .inr hforsaken

/-- A running instance holds the slot that its record shows, and does not give it back. -/
theorem Run.holding_of_running (h : Run made ids n) {r : Record Nat}
    (hfind : n.registry.records.find? id = some r) (hrunning : r.state = .running) :
    r.lease.isSome = true ∧ ∃ g, n.pool.slots.find? r.network.slot.toNat = some g ∧
      g.holder = id ∧ g.releasing = false := by
  have hn := h.tidy
  have hcovered := hn.covered id
  simp only [view_of_find? hfind, View.Covered, Record.status, hrunning] at hcovered
  obtain ⟨l, hl⟩ := Option.isSome_iff_exists.1 hcovered.2.2.1
  have hmem := Multiset.singleton_le.1 (hn.lease_holds_le hfind hl)
  obtain ⟨c, ownerBase, t, number, ht, hmirrors⟩ := h.exists_traffic
  obtain ⟨g, hg, hholder, -⟩ :=
    hn.occupies ht hmirrors hfind hmem (hn.holder_of_lease hfind hl)
  have hid := hholder.trans (hn.keyed id r hfind)
  have hone := hn.single _ hmem ⟨_, g.holder, g.releasing⟩ (Pool.mem_holds.2 ⟨g, hg, rfl, rfl⟩)
    ((hn.holder_of_lease hfind hl).trans hid.symm)
  exact ⟨by rw [hl]; rfl, g, hg, hid, (congrArg Hold.isLeaving hone).symm⟩

/-- Whatever calls are made and however the steps of tasks fall between each other, as long as
    no two instances get one identifier, the ports in the record of a running instance are
    published for its slot, in the same order and none of them twice. Once no call is publishing
    a port for the instance, a port that is published and not in the record is one whose caller
    went away on the way; if no caller did, the ports are the same. -/
theorem ports_of_play {config : NodeConfig} {ownerBase : Option Nat} {start : Node}
    {moves : List Move} (hstart : Node.start config ownerBase = .ok start)
    (hids : (provisioned moves).Nodup) (hplay : start.play moves = some n) {r : Record Nat}
    (hfind : n.registry.records.find? id = some r) (hrunning : r.state = .running) :
    PortsAgree (start.steps moves) n id r.network.ports
      (n.pool.published r.network.slot.toNat) := by
  have hrun := run_of_play hstart hids hplay
  have hbooks := hrun.portBooks
  obtain ⟨hlease, g, hg, hholder, hfree⟩ := hrun.holding_of_running hfind hrunning
  have hpublished := n.pool.increasing_published r.network.slot.toNat
  have hincreasing := hbooks.increasing id r hfind hlease
  have hsub : r.network.ports ⊆ n.pool.published r.network.slot.toNat := fun mapping hmem =>
    (hbooks.backed id r hfind mapping hmem).mem_published hg hholder
  have hmissing : n.isPublishing id = false →
      ∀ mapping ∈ n.pool.published r.network.slot.toNat, mapping ∈ r.network.ports ∨
        ∃ s ∈ start.steps moves, s.Forsakes id mapping := fun hquiet mapping hmem =>
    hbooks.mem_or_forsaken hrun.callsFit hrun.tidy hquiet hfind hg hholder hfree hmem
  refine ⟨hincreasing, hincreasing.sublist hpublished hsub, fun hquiet mapping hmem hnot => ?_,
    fun hquiet hnone => hincreasing.eq hpublished fun mapping => ⟨fun h => hsub h, fun hmem => ?_⟩⟩
  · exact (hmissing hquiet mapping hmem).resolve_left hnot
  · refine (hmissing hquiet mapping hmem).resolve_right ?_
    rintro ⟨s, hs, hforsakes⟩
    exact hnone s hs mapping hforsakes

/-- Without callers that go away no port is forsaken. -/
theorem not_forsakes_of_play {config : NodeConfig} {ownerBase : Option Nat} {start : Node}
    {moves : List Move} (hstart : Node.start config ownerBase = .ok start)
    (hids : (provisioned moves).Nodup) (hplay : start.play moves = some n)
    (hleave : ∀ u, Move.leave u ∉ moves) :
    ∀ s ∈ start.steps moves, ∀ mapping, ¬ s.Forsakes id mapping := by
  intro s hs mapping hforsakes
  obtain ⟨_, _, _, hlegal⟩ := (run_of_play hstart hids hplay).of_mem hs
  obtain ⟨u, hu⟩ := hlegal.of_forsakes hforsakes
  exact hleave u (hu ▸ move_mem_of_mem_steps hs)

/-- A task publishes a port for the first instance, and other moves come in between before the
    host has done its part. -/
def publishing (t : Nat) (meanwhile : List Move) : List Move :=
  [.begin (.publish "i-1" ⟨80, 8080⟩), .run t, .run t] ++ meanwhile ++
    [.host t (.ok ()), .host t (.ok ()), .run t, .run t]

/-- A port that is published is in the record. -/
theorem ports_publishing : ∃ start n r, Node.start {} none = .ok start ∧
    start.play (raised ++ publishing 2 []) = some n ∧ n.registry.records.find? "i-1" = some r ∧
    r.state = .running ∧ n.pool.published r.network.slot.toNat = [⟨80, 8080⟩] ∧
    r.network.ports = n.pool.published r.network.slot.toNat := by
  let n := (blank.play (raised ++ publishing 2 [])).get (by decide +kernel)
  have hplay : blank.play (raised ++ publishing 2 []) = some n := (Option.some_get _).symm
  let r := (n.registry.records.find? "i-1").get (by decide +kernel)
  have hfind : n.registry.records.find? "i-1" = some r := (Option.some_get _).symm
  have hids : (provisioned (raised ++ publishing 2 [])).Nodup := by decide +kernel
  have hrunning : r.state = .running := by decide +kernel
  have hquiet : n.isPublishing "i-1" = false := by decide +kernel
  have hleave : ∀ u, Move.leave u ∉ raised ++ publishing 2 [] := by simp [raised, publishing]
  have hagree := ports_of_play start_blank hids hplay hfind hrunning
  exact ⟨blank, n, r, start_blank, hplay, hfind, hrunning, by decide +kernel,
    hagree.same hquiet (not_forsakes_of_play start_blank hids hplay hleave)⟩

/-- A caller goes away while its port is on the way, and another one publishes the same port
    once more. -/
def forsaken : List Move :=
  raised ++ publishing 2 [.leave 2] ++ [.begin (.publish "i-1" ⟨80, 8080⟩), .run 3, .run 3]

/-- A port whose caller has gone away is published, but the record of the instance does not show
    it, and no call is left that could write it there. Whoever publishes it once more is told
    that all is well, and the record stays as it is. -/
theorem unrecorded_forsaken : ∃ start n r, Node.start {} none = .ok start ∧
    start.play forsaken = some n ∧ n.isQuiet = true ∧ n.isPublishing "i-1" = false ∧
    n.work? 3 = some (.forward "i-1" ⟨80, 8080⟩ (.ended (.ok ()))) ∧
    n.registry.records.find? "i-1" = some r ∧ r.state = .running ∧ r.network.ports = [] ∧
    n.pool.published r.network.slot.toNat = [⟨80, 8080⟩] := by
  let n := (blank.play forsaken).get (by decide +kernel)
  let r := (n.registry.records.find? "i-1").get (by decide +kernel)
  exact ⟨blank, n, r, start_blank, (Option.some_get _).symm, by decide +kernel, by decide +kernel,
    by decide +kernel, (Option.some_get _).symm, by decide +kernel, by decide +kernel,
    by decide +kernel⟩

end Node

end VmNode
