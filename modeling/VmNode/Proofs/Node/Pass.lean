import VmNode.Proofs.Node.Move
import VmNode.Proofs.Process.Supervisor

/-!
# What a move does

All that a move of a node in order can do (`Node.Pass`, `Node.pass_of_move`): a task goes on
(`Node.Advance`), a call is made or abandoned, something happens to a supervisor, or nothing
happens that a task could see.

Most arguments are about one task or one process. `Node.OnTask` says what a move can do to a
task, and `Node.OnProcess` what it can do to the supervisor of a process.
-/

namespace VmNode

/-- The task that goes on with a move. -/
def Move.task? : Move → Option Nat
  | .run t | .host t _ | .launched t _ => some t
  | _ => none

/-- The work goes on when the caller of its task goes away. -/
def Work.isBound : Work → Bool
  | .deprovision _ _ (.settle _) | .deprovision _ _ (.rest ..) => false
  | .provision .. | .monitor .. | .deprovision .. | .forward _ _ (.work _) => true
  | .forward .. | .drain _ | .report .. | .gone => false

/-- What is left of a task whose caller has gone away. -/
def Task.alone (task : Task) : Task := ⟨if task.work.isBound then task.work else .gone, false⟩

namespace Node

variable {ids : List InstanceId} {n m k : Node} {a : Move} {t s p : Nat} {work work' w : Work}

/-- A task goes on with a move: what was left of its work before, the node afterwards except
    for the work that is left then, and that work. -/
inductive Advance (n : Node) : Move → Work → Node → Work → Prop
  /-- An errand takes a step on the pool. -/
  | errand {t : Nat} {work work' : Work} {e : Errand} {progress : Errand.Progress} {pool : Pool} :
    work.errand? = some e → e.Steps n.config.network n.ownerBase n.pool pool progress →
    work' = work.resume progress → Advance n (.run t) work { n with pool } work'
  /-- The host answers an errand. -/
  | answer {t : Nat} {result : Except Error Unit} {work work' : Work} {e : Errand}
    {progress : Errand.Progress} : work.errand? = some e →
    e.answer n.config.network result = some progress → work' = work.resume progress →
    Advance n (.host t result) work n work'
  /-- An instance is provisioned. -/
  | provision {t : Nat} {id : InstanceId} {spec : InstanceSpec} {phase phase' : ProvisionPhase}
    {k : Node} : n.Provisions id spec phase k phase' →
    Advance n (.run t) (.provision id spec phase) k (.provision id spec phase')
  /-- A process is watched over. -/
  | monitor {t : Nat} {id : InstanceId} {process : Nat} {phase phase' : MonitorPhase} {k : Node} :
    n.Watches id process phase k phase' →
    Advance n (.run t) (.monitor id process phase) k (.monitor id process phase')
  /-- An instance is deprovisioned. -/
  | deprovision {t : Nat} {id : InstanceId} {timeout : Nat} {phase phase' : DeprovisionPhase}
    {k : Node} : n.Deprovisions id timeout phase k phase' →
    Advance n (.run t) (.deprovision id timeout phase) k (.deprovision id timeout phase')
  /-- A port is published. -/
  | forward {t : Nat} {id : InstanceId} {mapping : PortMapping} {hasCaller : Bool}
    {phase phase' : ForwardPhase} {k : Node} : n.Forwards id mapping hasCaller phase k phase' →
    Advance n (.run t) (.forward id mapping phase) k (.forward id mapping phase')
  /-- A drain begins to deprovision the instances that there are. -/
  | list {t : Nat} : Advance n (.run t) (.drain .list) (n.spawnMembers n.instanceIds).1
      (.drain (.await (n.spawnMembers n.instanceIds).2))
  /-- A drain has waited for all of them. -/
  | gather {t : Nat} {members : List (InstanceId × Nat)} {summary : DrainSummary} :
    Advance n (.run t) (.drain (.await members)) n (.drain (.ended summary))
  /-- A report is waited for. -/
  | report {t : Nat} {id : InstanceId} {state : String} {timeout : Nat}
    {phase phase' : ReportPhase} {hub : Console.Hub} :
    Advance n (.run t) (.report id state timeout phase) { n with hub }
      (.report id state timeout phase')
  /-- The launcher brings a process up. -/
  | launched {t : Nat} {id : InstanceId} {spec : InstanceSpec} {network : NetworkInfo}
    {console : Console.Writer} {deadline : Nat} :
    Advance n (.launched t (.ok ())) (.provision id spec (.launch network console deadline))
      (n.setSupervisor n.processes.size .start)
      (.provision id spec (.attach n.processes.size))
  /-- The launcher fails. -/
  | unlaunched {t : Nat} {cause : Error} {id : InstanceId} {spec : InstanceSpec}
    {network : NetworkInfo} {console : Console.Writer} {deadline : Nat} :
    Advance n (.launched t (.error cause))
      (.provision id spec (.launch network console deadline)) n
      (.provision id spec (.fail (launchError cause)))

/-- The callers of some tasks go away. -/
structure Abandons (n m : Node) : Prop where
  /-- Records stay the same. -/
  registry : m.registry = n.registry
  /-- The pool stays the same. -/
  pool : m.pool = n.pool
  /-- Processes stay the same. -/
  processes : m.processes = n.processes
  /-- Instances have the consoles that they had. -/
  current : m.hub.current = n.hub.current
  /-- A task that was not over may have lost its caller. -/
  left : ∀ t, m.tasks.find? t = n.tasks.find? t ∨ ∃ task, n.tasks.find? t = some task ∧
    task.work.isOver = false ∧ m.tasks.find? t = some task.alone

/-- All that a move can do. -/
inductive Pass (n : Node) : Move → Node → Prop
  /-- A task goes on. -/
  | task {a : Move} {t : Nat} {work work' : Work} {k : Node} : a.task? = some t →
    n.work? t = some work → n.Advance a work k work' → Pass n a (k.setWork t work')
  /-- A call is made. -/
  | begin {r : Request} : Pass n (.begin r) (n.begin r).2
  /-- A caller goes away. -/
  | leave {t : Nat} {m : Node} : n.Abandons m → Pass n (.leave t) m
  /-- Something happens to the supervisor of a process. -/
  | process {p : Nat} {e : Supervisor.Event} {s s' : Supervisor} {act : Option Supervisor.Act} :
    isInner e = true → n.supervisor? p = some s → s.step e = some (s', act) →
    Pass n (.process p e) (n.setSupervisor p s')
  /-- A guest prints a line. -/
  | print {console : Console.Writer} {line : String} :
    Pass n (.print console line) { n with hub := n.hub.pushLine n.now console line }
  /-- Time passes. -/
  | pass {ms : Nat} : Pass n (.pass ms) { n with clock := n.clock + ms }

/-! ### Callers that go away -/

theorem Abandons.refl (n : Node) : n.Abandons n := ⟨rfl, rfl, rfl, rfl, fun _ => .inl rfl⟩

/-- Nobody is left alone twice. -/
theorem alone_alone (task : Task) : task.alone.alone = task.alone := by
  rw [Task.alone, Task.alone]
  cases hbound : task.work.isBound with
  | true => simp [hbound]
  | false => simp [Work.isBound]

/-- Callers may go away one after the other. -/
theorem Abandons.trans (h : n.Abandons k) (h' : k.Abandons m) : n.Abandons m := by
  refine ⟨h'.registry.trans h.registry, h'.pool.trans h.pool, h'.processes.trans h.processes,
    h'.current.trans h.current, fun t => ?_⟩
  rcases h'.left t with heq' | ⟨task', hk, hover', hm⟩
  · rw [heq']
    exact h.left t
  · rcases h.left t with heq | ⟨task, hn, hover, hk'⟩
    · exact .inr ⟨task', heq.symm.trans hk, hover', hm⟩
    · obtain rfl := Option.some.inj (hk.symm.trans hk')
      exact .inr ⟨task, hn, hover, hm.trans (congrArg some (alone_alone task))⟩

/-- The work of a task stays, or is dropped. -/
theorem Abandons.tasks (h : n.Abandons m) (t : Nat) : m.work? t = n.work? t ∨
    ∃ work, n.work? t = some work ∧ work.isBound = false ∧ m.work? t = some .gone := by
  rcases h.left t with heq | ⟨task, hn, -, hm⟩
  · exact .inl (by rw [work?, work?, heq])
  · rw [work?, work?, hn, hm, Option.map_some, Option.map_some, Task.alone]
    cases hbound : task.work.isBound with
    | true => exact .inl rfl
    | false => exact .inr ⟨task.work, rfl, hbound, rfl⟩

/-- Work goes on without its caller, or is dropped. -/
theorem leaveWork_snd (n : Node) (work : Work) :
    (n.leaveWork work).2 = if work.isBound then work else .gone := by
  cases work with
  | provision | monitor | drain | gone => rfl
  | deprovision id timeout phase => cases phase <;> rfl
  | forward id mapping phase => cases phase <;> rfl
  | report id state timeout phase => cases phase <;> rfl

theorem abandons_abandonTask (n : Node) (t : Nat) : n.Abandons (n.abandonTask t) := by
  rw [abandonTask]
  cases hfind : n.tasks.find? t with
  | none => exact .refl n
  | some task =>
    obtain ⟨b, hfst, hcurrent⟩ := leaveWork_fst n task.work
    simp only
    split
    · exact .refl n
    · rename_i hover
      rw [hfst, leaveWork_snd]
      refine ⟨rfl, rfl, rfl, hcurrent, fun s => ?_⟩
      by_cases hs : s = t
      · subst hs
        exact .inr ⟨task, hfind, by simpa using hover, Table.find?_insert_self ..⟩
      · exact .inl (Table.find?_insert_of_ne _ _ hs)

/-- When a caller goes away, tasks lose their caller, and nothing else changes. -/
theorem abandons_of_leave (h : n.leave t = some m) : n.Abandons m := by
  obtain ⟨task, -, rfl⟩ := Option.map_eq_some_iff.1 h
  have hmembers : ∀ (l : List Nat) (n : Node), n.Abandons (l.foldl abandonTask n) := by
    intro l
    induction l with
    | nil => exact Abandons.refl
    | cons s rest ih => exact fun n => (abandons_abandonTask n s).trans (ih _)
  exact (hmembers _ n).trans (abandons_abandonTask _ t)

/-! ### Errands -/

end Node

/-- The call has been on an errand that gives a lease back. -/
def DeprovisionPhase.isReturning : DeprovisionPhase → Bool
  | .giveBackReaped .. | .closeReaped _ | .giveBack .. | .enterStopped _ => true
  | _ => false

theorem DeprovisionPhase.isReturning_resume {phase : DeprovisionPhase} {e : Errand}
    (h : phase.errand? = some e) (progress : Errand.Progress) :
    (phase.resume progress).isReturning = true := by
  cases phase with
  | giveBackReaped | giveBack => cases progress <;> rfl
  | _ => cases h

namespace Work

variable {work : Work} {progress : Errand.Progress} {id : InstanceId}

theorem of_resume_provision {spec : InstanceSpec} {phase' : ProvisionPhase}
    (h : .provision id spec phase' = work.resume progress) :
    ∃ phase, work = .provision id spec phase ∧ phase' = phase.resume id progress := by
  cases work <;> cases h
  exact ⟨_, rfl, rfl⟩

theorem of_resume_monitor {p : Nat} {phase' : MonitorPhase}
    (h : .monitor id p phase' = work.resume progress) :
    ∃ phase, work = .monitor id p phase ∧ phase' = phase.resume progress := by
  cases work <;> cases h
  exact ⟨_, rfl, rfl⟩

theorem of_resume_deprovision {timeout : Nat} {phase' : DeprovisionPhase}
    (h : .deprovision id timeout phase' = work.resume progress) :
    ∃ phase, work = .deprovision id timeout phase ∧ phase' = phase.resume progress := by
  cases work <;> cases h
  exact ⟨_, rfl, rfl⟩

theorem of_resume_forward {mapping : PortMapping} {phase' : ForwardPhase}
    (h : .forward id mapping phase' = work.resume progress) :
    ∃ phase, work = .forward id mapping phase ∧ phase' = phase.resume progress := by
  cases work <;> cases h
  exact ⟨_, rfl, rfl⟩

end Work

namespace Node

variable {ids : List InstanceId} {n m k : Node} {a : Move} {t s p : Nat} {work work' w : Work}

/-! ### Moves -/

/-- A step of some work that is not on an errand. -/
theorem advance_of_stepWork {hasCaller : Bool} (hn : n.Tidy ids) (ht : n.work? t = some work)
    (hstep : n.stepWork hasCaller work = some (k, work')) : n.Advance (.run t) work k work' := by
  cases work with
  | gone => cases hstep
  | provision id spec phase =>
    obtain ⟨⟨k', phase'⟩, hphase, heq⟩ := Option.map_eq_some_iff.1 hstep
    cases heq
    exact .provision (provisions_of_step hn ht hphase)
  | monitor id process phase =>
    obtain ⟨⟨k', phase'⟩, hphase, heq⟩ := Option.map_eq_some_iff.1 hstep
    cases heq
    exact .monitor (watches_of_step hphase)
  | deprovision id timeout phase =>
    obtain ⟨⟨k', phase'⟩, hphase, heq⟩ := Option.map_eq_some_iff.1 hstep
    cases heq
    exact .deprovision (deprovisions_of_step hn ht hphase)
  | drain phase =>
    obtain ⟨⟨k', phase'⟩, hphase, heq⟩ := Option.map_eq_some_iff.1 hstep
    cases heq
    cases phase with
    | list =>
      cases hphase
      exact .list
    | await members =>
      obtain ⟨outcomes, -, heq⟩ := Option.map_eq_some_iff.1 hphase
      cases heq
      exact .gather
    | ended => cases hphase
  | forward id mapping phase =>
    obtain ⟨⟨k', phase'⟩, hphase, heq⟩ := Option.map_eq_some_iff.1 hstep
    cases heq
    exact .forward (forwards_of_step hphase)
  | report id state timeout phase =>
    obtain ⟨⟨k', phase'⟩, hphase, heq⟩ := Option.map_eq_some_iff.1 hstep
    cases heq
    obtain ⟨hub, rfl⟩ := stepReport_eq_some hphase
    exact .report

theorem pass_of_run (hn : n.Tidy ids) (h : n.run t = some m) : n.Pass (.run t) m := by
  obtain ⟨work, ht, ⟨e, k, progress, herrand, hstep, rfl⟩ | ⟨hasCaller, k, work', -, hstep, rfl⟩⟩ :=
    run_eq_some h
  · obtain ⟨pool, rfl, hsteps⟩ := stepErrand_eq_some hstep
    exact .task rfl ht (.errand herrand hsteps rfl)
  · exact .task rfl ht (advance_of_stepWork hn ht hstep)

theorem pass_of_answerLaunch {result : Except Error Unit} (h : n.answerLaunch t result = some m) :
    n.Pass (.launched t result) m := by
  rw [answerLaunch] at h
  split at h
  · rename_i id spec phase hasCaller hfind
    have ht : n.work? t = some (.provision id spec phase) := congrArg (Option.map Task.work) hfind
    obtain ⟨⟨k, phase'⟩, hend, rfl⟩ := Option.map_eq_some_iff.1 h
    cases phase with
    | launch network console deadline =>
      cases result with
      | ok =>
        cases hend
        exact .task rfl ht .launched
      | error cause =>
        cases hend
        exact .task rfl ht .unlaunched
    | _ => cases hend
  · cases h

/-- The cases of `Pass` are all moves of a node in order. -/
theorem pass_of_move (hn : n.Tidy ids) (h : n.move a = some m) : n.Pass a m := by
  cases a with
  | begin r =>
    obtain rfl := Option.some.inj h
    exact .begin
  | run t => exact pass_of_run hn h
  | host t result =>
    obtain ⟨work, e, progress, ht, herrand, hanswer, rfl⟩ := answerHost_eq_some h
    exact .task rfl ht (.answer herrand hanswer rfl)
  | launched t result => exact pass_of_answerLaunch h
  | leave t => exact .leave (abandons_of_leave h)
  | process p e =>
    -- what happens to a process happens to its supervisor
    obtain ⟨⟨k, act⟩, hstep, rfl⟩ := Option.map_eq_some_iff.1 h
    rw [stepProcess] at hstep
    split at hstep
    · rename_i hinner
      obtain ⟨s, hs, hstep⟩ := Option.bind_eq_some_iff.1 hstep
      obtain ⟨⟨s', act'⟩, hstep, heq⟩ := Option.map_eq_some_iff.1 hstep
      cases heq
      exact .process hinner hs hstep
    · cases hstep
  | print console line =>
    obtain rfl := Option.some.inj h
    exact .print
  | pass ms =>
    obtain rfl := Option.some.inj h
    exact .pass

/-! ### Tasks -/

/-- The work of a task that is begun with a move. -/
inductive Begun (n : Node) : Move → Work → Prop
  /-- A call is made. -/
  | call {r : Request} {w : Work} : w = n.workOf r → Begun n (.begin r) w
  /-- The process of an instance that runs from now on is watched over. -/
  | monitor {t p : Nat} {id : InstanceId} {spec : InstanceSpec} :
    n.work? t = some (.provision id spec (.enter p)) → Begun n (.run t) (.monitor id p .wait)
  /-- A drain deprovisions an instance. -/
  | member {t timeout limit : Nat} {id : InstanceId} :
    Begun n (.run t) (.deprovision id timeout (.settle limit))

/-- What a move does to a task. -/
inductive OnTask (n : Node) (a : Move) (m : Node) (t : Nat) : Prop
  /-- Nothing. -/
  | idle : m.work? t = n.work? t → OnTask n a m t
  /-- It is begun. -/
  | begun {w : Work} : n.work? t = none → m.work? t = some w → n.Begun a w → OnTask n a m t
  /-- It goes on. -/
  | goes {w w' : Work} {k : Node} : a.task? = some t → n.work? t = some w → n.Advance a w k w' →
    m = k.setWork t w' → m.work? t = some w' → OnTask n a m t
  /-- It is dropped. -/
  | dropped {w : Work} : n.work? t = some w → w.isBound = false → m.work? t = some .gone →
    OnTask n a m t

theorem work?_setWork_self (h : k.work? t = some work) (work' : Work) :
    (k.setWork t work').work? t = some work' := by
  obtain ⟨task, hfind, rfl⟩ := Option.map_eq_some_iff.1 h
  rw [work?, setWork, Table.find?_modify_self, hfind]
  rfl

theorem work?_setWork_of_ne (hs : s ≠ t) (work' : Work) :
    (k.setWork t work').work? s = k.work? s := by
  rw [work?, work?, setWork, Table.find?_modify_of_ne _ _ hs]

/-- A task that is begun gets the next number. -/
theorem work?_spawn_cases (hnumbered : n.tasks.IsNumbered) {hasCaller : Bool} (s : Nat) :
    (n.spawn w hasCaller).2.work? s = n.work? s ∨
      n.work? s = none ∧ (n.spawn w hasCaller).2.work? s = some w := by
  by_cases hs : s = n.tasks.size
  · refine .inr ⟨?_, ?_⟩
    · rw [work?, hs, hnumbered.find?_size]
      rfl
    · rw [work?, Node.spawn, hs, Table.find?_insert_self]
      rfl
  · exact .inl (by rw [work?, work?, Node.spawn, Table.find?_insert_of_ne _ _ hs])

/-- A drain begins tasks that wait as long as the node says. -/
theorem spawnMembers_cases (l : List InstanceId) : ∀ {n : Node}, n.tasks.IsNumbered →
    (∃ tasks, (n.spawnMembers l).1 = { n with tasks }) ∧
      ∀ s, (n.spawnMembers l).1.work? s = n.work? s ∨ n.work? s = none ∧
        ∃ id ∈ l, ∃ timeout, (n.spawnMembers l).1.work? s =
          some (.deprovision id timeout (.settle (n.clock + n.settleLimit))) := by
  induction l with
  | nil => exact fun _ => ⟨⟨_, rfl⟩, fun _ => .inl rfl⟩
  | cons id rest ih =>
    intro n hnumbered
    let settle : Work :=
      .deprovision id n.config.shutdownTimeout (.settle (n.clock + n.settleLimit))
    have hk : (n.spawn settle true).2.tasks.IsNumbered := hnumbered.insert_size _
    obtain ⟨⟨tasks, htasks⟩, hrest⟩ := ih hk
    refine ⟨⟨tasks, htasks⟩, fun s => ?_⟩
    have hspawn : (n.spawn settle true).2.work? s = n.work? s ∨
        n.work? s = none ∧ (n.spawn settle true).2.work? s = some settle :=
      work?_spawn_cases hnumbered s
    rcases hspawn with heq | ⟨hnone, hnew⟩
    · rcases hrest s with h | ⟨h, i, hi, h'⟩
      · exact .inl (h.trans heq)
      · exact .inr ⟨heq.symm.trans h, i, List.mem_cons_of_mem _ hi, h'⟩
    · rcases hrest s with h | ⟨h, -⟩
      · exact .inr ⟨hnone, id, List.mem_cons_self, _, h.trans hnew⟩
      · cases hnew.symm.trans h

/-- A task that goes on may begin others. -/
theorem Advance.work? (hn : n.Tidy ids) (h : n.Advance a work k work') (ht : n.work? t = some work)
    (ha : a.task? = some t) (s : Nat) :
    k.work? s = n.work? s ∨ n.work? s = none ∧ ∃ w, k.work? s = some w ∧ n.Begun a w := by
  cases h with
  | errand | answer | gather | report | launched | unlaunched => exact .inl rfl
  | provision h =>
    cases h with
    | @enter p r hfind hstate =>
      obtain rfl := Option.some.inj ha
      refine (work?_spawn_cases hn.numbered s).imp_right fun ⟨hnone, hnew⟩ => ?_
      exact ⟨hnone, _, hnew, .monitor ht⟩
    | _ => exact .inl rfl
  | monitor h => cases h <;> exact .inl rfl
  | deprovision h => cases h <;> exact .inl rfl
  | forward h => cases h <;> exact .inl rfl
  | list =>
    refine ((spawnMembers_cases _ hn.numbered).2 s).imp_right fun ⟨hnone, _, _, _, hnew⟩ => ?_
    exact ⟨hnone, _, hnew, .member⟩

/-- It is there after all that it has begun. -/
theorem Advance.work?_self (hn : n.Tidy ids) (h : n.Advance a work k work')
    (ht : n.work? t = some work) (ha : a.task? = some t) : k.work? t = some work := by
  rcases h.work? hn ht ha t with heq | ⟨hnone, -⟩
  · exact heq.trans ht
  · cases hnone.symm.trans ht

/-- Every move of a node is one of these things to a task. -/
theorem Pass.onTask (hn : n.Tidy ids) (h : n.Pass a m) (t : Nat) : n.OnTask a m t := by
  cases h with
  | @task a u work work' k ha hu hadvance =>
    by_cases ht : t = u
    · subst ht
      exact .goes ha hu hadvance rfl (work?_setWork_self (hadvance.work?_self hn hu ha) work')
    · rcases hadvance.work? hn hu ha t with hk | ⟨hnone, w, hk, hbegun⟩
      · exact .idle ((work?_setWork_of_ne ht work').trans hk)
      · exact .begun hnone ((work?_setWork_of_ne ht work').trans hk) hbegun
  | begin =>
    rcases work?_spawn_cases hn.numbered t with heq | ⟨hnone, hnew⟩
    · exact .idle heq
    · exact .begun hnone hnew (.call rfl)
  | leave habandons =>
    rcases habandons.tasks t with heq | ⟨work, ht, hbound, hgone⟩
    · exact .idle heq
    · exact .dropped ht hbound hgone
  | process | print | pass => exact .idle rfl

/-! ### Callers -/

theorem find?_tasks_spawn (hnumbered : n.tasks.IsNumbered) {hasCaller : Bool} {task : Task}
    (ht : n.tasks.find? t = some task) : (n.spawn w hasCaller).2.tasks.find? t = some task := by
  refine (Table.find?_insert_of_ne _ _ ?_).trans ht
  rintro rfl
  cases ht.symm.trans hnumbered.find?_size

theorem find?_tasks_spawnMembers {task : Task} (l : List InstanceId) : ∀ {n : Node},
    n.tasks.IsNumbered → n.tasks.find? t = some task →
      (n.spawnMembers l).1.tasks.find? t = some task := by
  induction l with
  | nil => exact fun _ ht => ht
  | cons id rest ih => exact fun hn ht => ih (hn.insert_size _) (find?_tasks_spawn hn ht)

/-- A task that goes on leaves those alone that are there. -/
theorem Advance.find?_tasks (hn : n.Tidy ids) (h : n.Advance a work k work') {task : Task}
    (ht : n.tasks.find? t = some task) : k.tasks.find? t = some task := by
  cases h with
  | errand | answer | gather | report | launched | unlaunched => exact ht
  | provision h =>
    cases h with
    | enter => exact find?_tasks_spawn hn.numbered ht
    | _ => exact ht
  | monitor h => cases h <;> exact ht
  | deprovision h => cases h <;> exact ht
  | forward h => cases h <;> exact ht
  | list => exact find?_tasks_spawnMembers _ hn.numbered ht

/-- A task has its caller for as long as the caller does not go away. -/
theorem Pass.find?_tasks (hn : n.Tidy ids) (h : n.Pass a m) {task : Task}
    (ht : n.tasks.find? t = some task) : ∃ task', m.tasks.find? t = some task' ∧
      (task' = task ∨ a.task? = some t ∧ task'.hasCaller = task.hasCaller ∨
        (∃ u, a = .leave u) ∧ task.work.isOver = false ∧ task' = task.alone) := by
  cases h with
  | @task _ u _ work' k ha hu hadvance =>
    have hk := hadvance.find?_tasks hn ht
    rw [setWork]
    by_cases htu : t = u
    · subst htu
      refine ⟨{ task with work := work' }, ?_, .inr (.inl ⟨ha, rfl⟩)⟩
      rw [Table.find?_modify_self, hk, Option.map_some]
    · refine ⟨task, ?_, .inl rfl⟩
      rw [Table.find?_modify_of_ne _ _ htu, hk]
  | begin => exact ⟨task, find?_tasks_spawn hn.numbered ht, .inl rfl⟩
  | leave habandons =>
    rcases habandons.left t with heq | ⟨task', ht', hover, halone⟩
    · exact ⟨task, heq.trans ht, .inl rfl⟩
    · obtain rfl := Option.some.inj (ht.symm.trans ht')
      exact ⟨task.alone, halone, .inr (.inr ⟨⟨_, rfl⟩, hover, rfl⟩)⟩
  | process | print | pass => exact ⟨task, ht, .inl rfl⟩

/-- A call that publishes a port has its caller when it begins. -/
theorem Pass.hasCaller_of_begun (hn : n.Tidy ids) (h : n.Pass a m) (hnone : n.work? t = none)
    {id : InstanceId} {mapping : PortMapping} {phase : ForwardPhase} {hasCaller : Bool}
    (hm : m.tasks.find? t = some ⟨.forward id mapping phase, hasCaller⟩) : hasCaller = true := by
  have hwork : m.work? t = some (.forward id mapping phase) := congrArg (Option.map Task.work) hm
  have hbegun : n.Begun a (.forward id mapping phase) := by
    cases h.onTask hn t with
    | idle heq => cases hwork.symm.trans (heq.trans hnone)
    | begun _ hw hbegun => exact Option.some.inj (hw.symm.trans hwork) ▸ hbegun
    | goes _ ht _ _ _ | dropped ht _ _ => cases hnone.symm.trans ht
  cases hbegun with
  | @call r =>
    cases h with
    | task ha => cases ha
    | begin =>
      by_cases ht : t = n.tasks.size
      · rw [Node.begin, spawn, ht, Table.find?_insert_self, Option.some.injEq] at hm
        exact (congrArg Task.hasCaller hm).symm
      · rw [Node.begin, spawn, Table.find?_insert_of_ne _ _ ht] at hm
        rw [work?, hm] at hnone
        cases hnone

/-! ### Where a task comes from -/

/-- A call that deprovisions an instance begins by looking at it. -/
theorem Begun.of_deprovision {id : InstanceId} {timeout : Nat} {phase : DeprovisionPhase}
    (h : n.Begun a (.deprovision id timeout phase)) :
    phase = .look ∨ ∃ limit, phase = .settle limit := by
  cases h with
  | @call r _ heq =>
    cases r with
    | deprovision =>
      cases heq
      exact .inl rfl
    | provision i spec =>
      rw [workOf] at heq
      split at heq <;> cases heq
    | drain | publish | awaitReport => cases heq
  | member => exact .inr ⟨_, rfl⟩

/-- A monitor begins when its instance is about to run. -/
theorem Begun.of_monitor {id : InstanceId} {phase : MonitorPhase}
    (h : n.Begun a (.monitor id p phase)) : phase = .wait ∧
      ∃ t spec, a.task? = some t ∧ n.work? t = some (.provision id spec (.enter p)) := by
  cases h with
  | @call r _ heq =>
    cases r with
    | provision i spec =>
      rw [workOf] at heq
      split at heq <;> cases heq
    | deprovision | drain | publish | awaitReport => cases heq
  | @monitor t _ _ spec ht => exact ⟨rfl, t, spec, rfl, ht⟩

/-- A call that provisions an instance begins by asking for a slot, or ends at once. -/
theorem Begun.of_provision {id : InstanceId} {spec : InstanceSpec} {phase : ProvisionPhase}
    (h : n.Begun a (.provision id spec phase)) : a.provision? = some id ∧
      (phase = .lease (.toBegin (.lease id)) ∨ ∃ cause, phase = .ended (.error cause)) := by
  cases h with
  | @call r _ heq =>
    cases r with
    | provision i spec =>
      rw [workOf] at heq
      split at heq <;> cases heq
      · exact ⟨rfl, .inl rfl⟩
      · exact ⟨rfl, .inr ⟨_, rfl⟩⟩
    | deprovision | drain | publish | awaitReport => cases heq

/-- A call that publishes a port begins by looking at the instance. -/
theorem Begun.of_forward {id : InstanceId} {mapping : PortMapping} {phase : ForwardPhase}
    (h : n.Begun a (.forward id mapping phase)) : phase = .look := by
  cases h with
  | @call r _ heq =>
    cases r with
    | provision i spec =>
      rw [workOf] at heq
      split at heq <;> cases heq
    | publish =>
      cases heq
      rfl
    | deprovision | drain | awaitReport => cases heq

/-- A drain begins by listing the instances. -/
theorem Begun.of_drain {phase : DrainPhase} (h : n.Begun a (.drain phase)) : phase = .list := by
  cases h with
  | @call r _ heq =>
    cases r with
    | provision i spec =>
      rw [workOf] at heq
      split at heq <;> cases heq
    | drain =>
      cases heq
      rfl
    | deprovision | publish | awaitReport => cases heq

/-- How a drain came to its phase. -/
theorem OnTask.of_drain (h : n.OnTask a m t) {phase' : DrainPhase}
    (hm : m.work? t = some (.drain phase')) : n.work? t = some (.drain phase') ∨
      phase' = .list ∨ ∃ phase k, a = .run t ∧ n.work? t = some (.drain phase) ∧
        n.Advance a (.drain phase) k (.drain phase') ∧ m = k.setWork t (.drain phase') := by
  cases h with
  | idle heq => exact .inl (heq.symm.trans hm)
  | begun _ hw hbegun =>
    obtain rfl := Option.some.inj (hw.symm.trans hm)
    exact .inr (.inl hbegun.of_drain)
  | dropped _ _ hgone => cases hgone.symm.trans hm
  | @goes w _ k ha ht hadvance hk hw =>
    obtain rfl := Option.some.inj (hw.symm.trans hm)
    refine .inr (.inr ?_)
    cases hadvance with
    | errand herrand _ heq | answer herrand _ heq =>
      cases w <;> cases heq
      cases herrand
    | list =>
      cases ha
      exact ⟨_, _, rfl, ht, .list, hk⟩
    | gather =>
      cases ha
      exact ⟨_, _, rfl, ht, .gather, hk⟩

/-- How a call that deprovisions an instance came to a phase that does not follow an errand. -/
theorem OnTask.of_deprovision (h : n.OnTask a m t) {id : InstanceId} {timeout : Nat}
    {phase' : DeprovisionPhase} (hm : m.work? t = some (.deprovision id timeout phase'))
    (hreturning : phase'.isReturning = false) :
    n.work? t = some (.deprovision id timeout phase') ∨
      (phase' = .look ∨ ∃ limit, phase' = .settle limit) ∨
        ∃ phase k, n.work? t = some (.deprovision id timeout phase) ∧
          n.Deprovisions id timeout phase k phase' ∧
            m = k.setWork t (.deprovision id timeout phase') := by
  cases h with
  | idle heq => exact .inl (heq.symm.trans hm)
  | begun _ hw hbegun =>
    obtain rfl := Option.some.inj (hw.symm.trans hm)
    exact .inr (.inl hbegun.of_deprovision)
  | dropped _ _ hgone => cases hgone.symm.trans hm
  | @goes _ _ k _ ht hadvance hk hw =>
    obtain rfl := Option.some.inj (hw.symm.trans hm)
    cases hadvance with
    | errand herrand _ heq | answer herrand _ heq =>
      obtain ⟨phase, rfl, rfl⟩ := Work.of_resume_deprovision heq
      rw [DeprovisionPhase.isReturning_resume herrand] at hreturning
      cases hreturning
    | @deprovision _ _ _ phase _ _ hsteps => exact .inr (.inr ⟨phase, k, ht, hsteps, hk⟩)

end Node

/-! ### Processes -/

/-- A request makes the supervisor do nothing yet. -/
theorem Supervisor.step_of_put {s s' : Supervisor} {r : StopRequest} (h : s.put r = some s') :
    s.step (.request r) = some (s', none) := by
  obtain ⟨⟨s'', act⟩, hstep, rfl⟩ := Option.map_eq_some_iff.1 h
  rw [hstep]
  cases steps_of_step hstep <;> rfl

/-- A step of a call that stops a process puts a request into the queue, or leaves the
    supervisor as it is. -/
theorem Stop.of_step {now timeout : Nat} {s s' : Supervisor} {stage : Stop}
    {next : Stop ⊕ ExitReason} (h : stage.step now timeout s = some (s', next)) :
    s' = s ∨ ∃ r, s.step (.request r) = some (s', none) := by
  cases stage with
  | ask =>
    -- the exit may be published already, and then there is nothing to ask for
    rw [step] at h
    split at h
    · cases h
      exact .inl rfl
    · obtain ⟨s'', hput, heq⟩ := Option.map_eq_some_iff.1 h
      cases heq
      exact .inr ⟨_, Supervisor.step_of_put hput⟩
  | await deadline =>
    -- the call looks at the exit and at the clock
    rw [step] at h
    split at h
    · cases h
      exact .inl rfl
    · split at h <;> cases h
      exact .inl rfl
  | escalate =>
    -- the request to kill is put into the queue
    obtain ⟨s'', hput, heq⟩ := Option.map_eq_some_iff.1 h
    cases heq
    exact .inr ⟨_, Supervisor.step_of_put hput⟩
  | reap =>
    obtain ⟨reason, -, heq⟩ := Option.map_eq_some_iff.1 h
    cases heq
    exact .inl rfl

namespace Node

variable {ids : List InstanceId} {n m k : Node} {a : Move} {p q : Nat} {work work' : Work}

/-- What a move does to the supervisors of all processes. -/
inductive Supervises (n : Node) : Move → Table Nat Supervisor → Prop
  /-- Nothing. -/
  | still {a : Move} : (∀ p e, a ≠ .process p e) → Supervises n a n.processes
  /-- The launcher brings a process up. -/
  | launched {t : Nat} :
    Supervises n (.launched t (.ok ())) (n.processes.insert n.processes.size .start)
  /-- A call puts a request into the queue of one. -/
  | request {a : Move} {p : Nat} {s s' : Supervisor} {r : StopRequest} :
    (∀ p e, a ≠ .process p e) → n.supervisor? p = some s →
    s.step (.request r) = some (s', none) → Supervises n a (n.processes.insert p s')
  /-- Something else happens to one. -/
  | event {p : Nat} {e : Supervisor.Event} {s s' : Supervisor} {act : Option Supervisor.Act} :
    isInner e = true → n.supervisor? p = some s → s.step e = some (s', act) →
    Supervises n (.process p e) (n.processes.insert p s')

/-- A call that stops a process has to do with the supervisor of it. -/
theorem supervises_of_stop (ha : ∀ p e, a ≠ .process p e) {now timeout : Nat} {s s' : Supervisor}
    {stage : Stop} {next : Stop ⊕ ExitReason} (hs : n.supervisor? p = some s)
    (hstep : stage.step now timeout s = some (s', next)) :
    n.Supervises a (n.processes.insert p s') := by
  rcases Stop.of_step hstep with rfl | ⟨r, hr⟩
  · have hsame : n.processes.insert p s' = n.processes := Table.insert_eq_self hs
    rw [hsame]
    exact .still ha
  · exact .request ha hs hr

/-- Only the launcher and calls that stop processes have to do with supervisors. -/
theorem Advance.supervises (hn : n.Tidy ids) (h : n.Advance a work k work') :
    n.Supervises a k.processes := by
  cases h with
  | errand | answer | gather | report | unlaunched => exact .still nofun
  | provision h => cases h <;> exact .still nofun
  | monitor h => cases h <;> exact .still nofun
  | forward h => cases h <;> exact .still nofun
  | deprovision h =>
    cases h with
    | stop hs hstep | stopped hs hstep => exact supervises_of_stop (by nofun) hs hstep
    | _ => exact .still nofun
  | list =>
    obtain ⟨tasks, htasks⟩ := (spawnMembers_cases n.instanceIds hn.numbered).1
    rw [htasks]
    exact .still nofun
  | launched => exact .launched

theorem Pass.supervises (hn : n.Tidy ids) (h : n.Pass a m) : n.Supervises a m.processes := by
  cases h with
  | task _ _ hadvance =>
    have hsupervises := hadvance.supervises hn
    exact hsupervises
  | begin => exact .still nofun
  | leave habandons =>
    rw [habandons.processes]
    exact .still nofun
  | process hinner hs hstep => exact .event hinner hs hstep
  | print | pass => exact .still nofun

/-- The processes keep their numbers. -/
theorem Supervises.isNumbered {u : Table Nat Supervisor} (h : n.Supervises a u)
    (hn : n.processes.IsNumbered) : u.IsNumbered := by
  cases h with
  | still => exact hn
  | launched => exact hn.insert_size _
  | request _ hs | event _ hs =>
    refine hn.insert ?_ _
    rw [show n.processes.find? _ = _ from hs]
    rfl

/-- What a move does to the supervisor of a process. -/
inductive OnProcess (n : Node) (a : Move) (m : Node) (p : Nat) : Prop
  /-- Nothing. -/
  | idle : (∀ e, a ≠ .process p e) → m.supervisor? p = n.supervisor? p → OnProcess n a m p
  /-- The launcher brings the process up. -/
  | launched {t : Nat} : a = .launched t (.ok ()) → p = n.processes.size →
    n.supervisor? p = none → m.supervisor? p = some .start → OnProcess n a m p
  /-- A call puts a request into its queue. -/
  | request {s s' : Supervisor} {r : StopRequest} : (∀ e, a ≠ .process p e) →
    n.supervisor? p = some s → s.step (.request r) = some (s', none) →
    m.supervisor? p = some s' → OnProcess n a m p
  /-- Something else happens to it. -/
  | event {e : Supervisor.Event} {s s' : Supervisor} {act : Option Supervisor.Act} :
    a = .process p e → isInner e = true → n.supervisor? p = some s →
    s.step e = some (s', act) → m.supervisor? p = some s' → OnProcess n a m p

/-- Every move of a node is one of these things to a process. -/
theorem Pass.onProcess (hn : n.Tidy ids) (hnumbered : n.processes.IsNumbered) (h : n.Pass a m)
    (p : Nat) : n.OnProcess a m p := by
  have hsupervises := h.supervises hn
  generalize hu : m.processes = u at hsupervises
  have hm : ∀ {o}, u.find? p = o → m.supervisor? p = o := fun h => by rw [supervisor?, hu, h]
  cases hsupervises with
  | still ha => exact .idle (ha p) (hm rfl)
  | launched =>
    by_cases hp : p = n.processes.size
    · subst hp
      exact .launched rfl rfl hnumbered.find?_size (hm (Table.find?_insert_self ..))
    · exact .idle nofun (hm (Table.find?_insert_of_ne _ _ hp))
  | @request _ q s s' r ha hs hstep =>
    by_cases hp : p = q
    · subst hp
      exact .request (ha p) hs hstep (hm (Table.find?_insert_self ..))
    · exact .idle (ha p) (hm (Table.find?_insert_of_ne _ _ hp))
  | @event q e s s' act hinner hs hstep =>
    by_cases hp : p = q
    · subst hp
      exact .event rfl hinner hs hstep (hm (Table.find?_insert_self ..))
    · refine .idle (fun e' he => hp ?_) (hm (Table.find?_insert_of_ne _ _ hp))
      cases he
      rfl

end Node

end VmNode
