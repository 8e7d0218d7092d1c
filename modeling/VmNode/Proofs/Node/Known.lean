import VmNode.Proofs.Node.Release

/-!
# Leases that a node knows

A lease passes from hand to hand: from the allocator to the task that provisions an
instance, into the record, and from there to whoever gives it back. Its network identity
stays in the record, for those who publish ports. A node knows a lease (`Node.Knows`) if it
is in somebody's hands or its network identity is.

A step that has nothing to do with the allocator is not seen by it (`Node.Unseen`): the pool
remains what it is, and so do the calls in progress; and no lease is known afterwards that
was not known before. All steps of tasks that are not on an errand are such
(`Node.Unseen.of_stepWork`), and so are the moves from outside except answers of the host
(`Node.Unseen.of_move`).
-/

namespace VmNode

/-- The lease that a call is about, unless it is one to get a lease. The ports that were
    published since make no difference. -/
def Call.about? : Call → Option Lease
  | .lease _ => none
  | .release l => some l
  | .publish id network _ => some ⟨id, { network with ports := [] }⟩

/-- The lease that an errand is going to be about. -/
def Errand.about? : Errand → Option Lease
  | .toBegin call => call.about?
  | .going _ => none

/-- The call in progress, if the errand has begun. -/
def Errand.job? : Errand → Option Job
  | .toBegin _ => none
  | .going job => some job

namespace Work

/-- The lease that a task has, or that its errand is going to be about. -/
def known? : Work → Option Lease
  | .provision _ _ (.insert l) => some l
  | .monitor _ _ (.tell _ lease) => lease
  | work => work.errand?.bind Errand.about?

/-- The call of a task that is in progress. -/
def job? (work : Work) : Option Job := work.errand?.bind Errand.job?

end Work

namespace Node

/-- The call of a task that is in progress. -/
def job? (n : Node) (t : Nat) : Option Job := (n.work? t).bind Work.job?

theorem job?_of_going {n : Node} {t : Nat} {work : Work} {job : Job} (h : n.work? t = some work)
    (herrand : work.errand? = some (.going job)) : n.job? t = some job := by
  rw [job?, h, Option.bind_some, Work.job?, herrand]
  rfl

/-- Who has a call in progress is on an errand with it. -/
theorem errand?_of_job? {n : Node} {t : Nat} {job : Job} (h : n.job? t = some job) :
    ∃ work, n.work? t = some work ∧ work.errand? = some (.going job) := by
  obtain ⟨work, ht, hjob⟩ := Option.bind_eq_some_iff.1 h
  obtain ⟨e, herrand, hjob⟩ := Option.bind_eq_some_iff.1 hjob
  cases e with
  | toBegin => cases hjob
  | going job' => exact ⟨work, ht, herrand.trans (congrArg (some ∘ Errand.going) (Option.some.inj hjob))⟩

/-- Some task or record knows the lease. -/
def Knows (n : Node) (l : Lease) : Prop :=
  (∃ t work, n.work? t = some work ∧ work.known? = some l) ∨ n.registry.Knows l

/-! ### Steps of tasks -/

variable {ids : List InstanceId} {n m k : Node} {t : Nat} {work work' : Work} {id : InstanceId}

/-- What a step of a task leaves as it is: the configuration, and what is known. -/
structure Learnt (work : Work) (n : Node) (work' : Work) (m : Node) : Prop where
  /-- The user of the first slot stays the same. -/
  ownerBase : m.ownerBase = n.ownerBase
  /-- The task is not on its way with a call. -/
  job : work'.job? = none
  /-- What the task or a record knows, one of them knew before. -/
  knows : ∀ l, work'.known? = some l ∨ m.registry.Knows l →
    work.known? = some l ∨ n.registry.Knows l

namespace Learnt

/-- The task knows nothing afterwards, and the registry not more. -/
theorem quiet (hjob : work'.job? = none) (hown : m.ownerBase = n.ownerBase)
    (hknown : work'.known? = none) (hregistry : ∀ l, m.registry.Knows l → n.registry.Knows l) :
    Learnt work n work' m := by
  refine ⟨hown, hjob, fun l hl => .inr ?_⟩
  rcases hl with hl | hl
  · rw [hknown] at hl
    cases hl
  · exact hregistry l hl

/-- The task knows the lease of a record afterwards, and the registry not more. -/
theorem taken {record : Record Nat} (hjob : work'.job? = none) (hown : m.ownerBase = n.ownerBase)
    (hfind : n.registry.records.find? id = some record) (hlease : record.lease = work'.known?)
    (hregistry : ∀ l, m.registry.Knows l → n.registry.Knows l) : Learnt work n work' m := by
  refine ⟨hown, hjob, fun l hl => .inr ?_⟩
  rcases hl with hl | hl
  · exact ⟨id, record, hfind, .inl (hlease.trans hl)⟩
  · exact hregistry l hl

end Learnt

/-- The next step of a task that provisions an instance. -/
theorem stepProvision_learnt (hn : n.Tidy ids) {spec : InstanceSpec} {phase phase' : ProvisionPhase}
    (ht : n.work? t = some (.provision id spec phase))
    (hstep : n.stepProvision id spec phase = some (m, phase'))
    (hplain : ∀ l, phase = .insert l → l.info.ports = []) :
    Learnt (.provision id spec phase) n (.provision id spec phase') m := by
  cases provisions_of_step hn ht hstep with
  | @insert lease =>
    -- the lease passes from the task into the record
    refine ⟨rfl, rfl, fun l hl => ?_⟩
    rcases hl with hl | hl
    · cases hl
    · exact (hl.of_insert (hn.proper t _ ht) (hplain lease rfl)).imp_left (congrArg some)
  | openConsole | expire | miss | closeConsole => exact .quiet rfl rfl rfl fun _ h => h
  | attach hfind | enter hfind | fail hfind =>
    exact .quiet rfl rfl rfl fun _ h => h.of_put hfind fun hr => hr
  | withdraw hfind _ hlease => exact .taken rfl rfl hfind hlease fun _ h => h.of_erase
  | discard => exact .quiet rfl rfl rfl fun _ h => h.of_erase

/-- The next step of a monitor. -/
theorem stepMonitor_learnt {process : Nat} {phase phase' : MonitorPhase}
    (hstep : n.stepMonitor id process phase = some (m, phase')) :
    Learnt (.monitor id process phase) n (.monitor id process phase') m := by
  cases watches_of_step hstep with
  | wake | late | tellOnly | closeConsole => exact .quiet rfl rfl rfl fun _ h => h
  | fail hfind =>
    -- the lease was in the record
    exact .taken rfl rfl hfind rfl fun l h =>
      h.of_put hfind fun hr => hr.imp_left fun hl => by cases hl
  | tell => exact ⟨rfl, rfl, fun _ h => h⟩

/-- The next step of a task that deprovisions an instance. -/
theorem stepDeprovision_learnt (hn : n.Tidy ids) {timeout : Nat} {phase phase' : DeprovisionPhase}
    (ht : n.work? t = some (.deprovision id timeout phase))
    (hstep : n.stepDeprovision id timeout phase = some (m, phase')) :
    Learnt (.deprovision id timeout phase) n (.deprovision id timeout phase') m := by
  cases deprovisions_of_step hn ht hstep with
  | missing | rest | settled | wake | giveUp | unknown | early | see | follow | late | retry | lost
  | listen | unheard | heard | pass | closeReaped | find | stop | stopped | strange | tell
  | closeConsole | gone => exact .quiet rfl rfl rfl fun _ h => h
  | enter hfind | note hfind | enterStopped hfind =>
    exact .quiet rfl rfl rfl fun _ h => h.of_put hfind fun hr => hr
  | reap hfind _ hlease => exact .taken rfl rfl hfind hlease fun _ h => h.of_erase
  | takeLease hfind _ hlease =>
    exact .taken rfl rfl hfind hlease fun l h =>
      h.of_put hfind fun hr => hr.imp_left fun hl => by cases hl
  | clear | withdraw => exact .quiet rfl rfl rfl fun _ h => h.of_erase

/-- The next step of a task that publishes a port. -/
theorem stepForward_learnt (hn : n.Tidy ids) {mapping : PortMapping} {hasCaller : Bool}
    {phase phase' : ForwardPhase}
    (hstep : n.stepForward id mapping hasCaller phase = some (m, phase')) :
    Learnt (.forward id mapping phase) n (.forward id mapping phase') m := by
  cases forwards_of_step hstep with
  | unknown | refuse | skip => exact .quiet rfl rfl rfl fun _ h => h
  | @see r hfind =>
    refine ⟨rfl, rfl, fun l hl => .inr ?_⟩
    rcases hl with hl | hl
    · -- the network identity is that in the record
      refine ⟨id, r, hfind, .inr ?_⟩
      rw [← Option.some.inj hl, Record.origin, hn.keyed id r hfind]
    · exact hl
  | add _ hadd => exact .quiet rfl rfl rfl fun _ h => h.of_addPort hadd

/-- The next step of a task that waits for a report. -/
theorem stepReport_learnt {state : String} {timeout : Nat} {phase phase' : ReportPhase}
    (hstep : n.stepReport id state timeout phase = some (m, phase')) :
    Learnt (.report id state timeout phase) n (.report id state timeout phase') m := by
  obtain ⟨hub, rfl⟩ := stepReport_eq_some hstep
  exact .quiet rfl rfl rfl fun _ h => h

/-! ### Moves that the allocator does not see -/

/-- The pool and the calls in progress remain what they are, and no other lease becomes
    known. -/
structure Unseen (n m : Node) : Prop where
  /-- The configuration stays the same. -/
  config : m.config = n.config
  /-- The user of the first slot stays the same. -/
  ownerBase : m.ownerBase = n.ownerBase
  /-- The pool stays the same. -/
  pool : m.pool = n.pool
  /-- Tasks have the calls in progress that they had. -/
  job? : ∀ s, m.job? s = n.job? s
  /-- No other lease becomes known. -/
  knows : ∀ l, m.Knows l → n.Knows l

namespace Unseen

theorem refl (n : Node) : Unseen n n := ⟨rfl, rfl, rfl, fun _ => rfl, fun _ h => h⟩

theorem trans (h : Unseen n k) (h' : Unseen k m) : Unseen n m :=
  ⟨h'.config.trans h.config, h'.ownerBase.trans h.ownerBase, h'.pool.trans h.pool,
    fun s => (h'.job? s).trans (h.job? s), fun l hl => h.knows l (h'.knows l hl)⟩

/-- One task goes on, and takes part in no call. -/
theorem turn (hturn : Turn t work work' n m) (howner : m.ownerBase = n.ownerBase)
    (hpool : m.pool = n.pool) (hjob : work'.job? = work.job?)
    (hknows : ∀ l, work'.known? = some l ∨ m.registry.Knows l →
      work.known? = some l ∨ n.registry.Knows l) : Unseen n m := by
  refine ⟨hturn.config, howner, hpool, fun s => ?_, fun l hl => ?_⟩
  · by_cases hs : s = t
    · rw [hs, Node.job?, Node.job?, hturn.before, hturn.after]
      exact hjob
    · rw [Node.job?, Node.job?, hturn.work?_of_ne hs]
  · have hmine : work.known? = some l ∨ n.registry.Knows l → n.Knows l := fun hl =>
      hl.imp_left fun hl => ⟨t, work, hturn.before, hl⟩
    rcases hl with ⟨s, w, hw, hl⟩ | hl
    · by_cases hs : s = t
      · rw [hs, hturn.after, Option.some.injEq] at hw
        exact hmine (hknows l (.inl (hw ▸ hl)))
      · exact .inl ⟨s, w, (hturn.work?_of_ne hs).symm.trans hw, hl⟩
    · exact hmine (hknows l (.inr hl))

/-- A task takes a step on its instance. -/
theorem setWork (ht : n.work? t = some work) (hjob : work.job? = none)
    (hconfig : m.config = n.config) (htasks : m.tasks = n.tasks) (hpool : m.pool = n.pool)
    (h : Learnt work n work' m) : Unseen n (m.setWork t work') :=
  .turn (.setWork ht htasks hconfig work') h.ownerBase hpool (h.job.trans hjob.symm) h.knows

/-- A task is begun that makes no call yet. -/
theorem spawn (hn : n.Tidy ids) {hasCaller : Bool} (hjob : work.job? = none)
    (hknown : work.known? = none) : Unseen n (n.spawn work hasCaller).2 := by
  refine ⟨rfl, rfl, rfl, fun s => ?_, fun l hl => hl.imp_left fun ⟨s, w, hw, hmine⟩ => ?_⟩
  · by_cases hs : s = n.tasks.size
    · rw [hs, Node.job?, Node.job?, work?, work?, Node.spawn, Table.find?_insert_self,
        hn.numbered.find?_size]
      exact hjob
    · rw [Node.job?, Node.job?, work?, work?, Node.spawn, Table.find?_insert_of_ne _ _ hs]
  · rcases of_work?_spawn hw with rfl | hw
    · cases hknown.symm.trans hmine
    · exact ⟨s, w, hw, hmine⟩

theorem spawnMembers (l : List InstanceId) :
    ∀ {n : Node}, n.Tidy ids → Unseen n (n.spawnMembers l).1 := by
  induction l with
  | nil => exact fun {n} _ => .refl n
  | cons id rest ih =>
    intro n hn
    exact (spawn hn rfl rfl).trans (ih (hn.change (.beginMember n id _ _)))

/-- A step of a task that is not on an errand. -/
theorem of_stepWork (hn : n.Tidy ids) (hplain : ∀ l, n.Knows l → l.info.ports = [])
    {hasCaller : Bool} (ht : n.work? t = some work) (hjob : work.job? = none)
    (hstep : n.stepWork hasCaller work = some (m, work')) : Unseen n (m.setWork t work') := by
  cases work with
  | gone => cases hstep
  | provision id spec phase =>
    -- a monitor may begin with the step, which knows nothing
    obtain ⟨⟨k, phase'⟩, hphase, heq⟩ := Option.map_eq_some_iff.1 hstep
    cases heq
    obtain ⟨-, base, hbase, htouches, htasks, -⟩ := stepProvision_paces hn ht hphase
    have hlearnt := stepProvision_learnt hn ht hphase fun l hl => hplain l ?_
    · rcases hbase with rfl | ⟨p, rfl⟩
      · exact .setWork ht hjob htouches.config htasks htouches.pool hlearnt
      · exact (spawn hn rfl rfl).trans (.setWork (work?_spawn hn ht) hjob htouches.config htasks
          htouches.pool ⟨hlearnt.ownerBase, hlearnt.job, hlearnt.knows⟩)
    · subst hl
      exact .inl ⟨t, _, ht, rfl⟩
  | monitor id process phase =>
    obtain ⟨⟨k, phase'⟩, hphase, heq⟩ := Option.map_eq_some_iff.1 hstep
    cases heq
    obtain ⟨-, htouches, htasks, -⟩ := stepMonitor_paces hn ht hphase
    exact .setWork ht hjob htouches.config htasks htouches.pool (stepMonitor_learnt hphase)
  | deprovision id timeout phase =>
    obtain ⟨⟨k, phase'⟩, hphase, heq⟩ := Option.map_eq_some_iff.1 hstep
    cases heq
    obtain ⟨-, htouches, htasks, -⟩ := stepDeprovision_paces hn ht hphase
    exact .setWork ht hjob htouches.config htasks htouches.pool (stepDeprovision_learnt hn ht hphase)
  | drain phase =>
    obtain ⟨⟨k, phase'⟩, hphase, heq⟩ := Option.map_eq_some_iff.1 hstep
    cases heq
    have hstill : ∀ {base : Node}, base.work? t = some (.drain phase) →
        Unseen base (base.setWork t (.drain phase')) := fun ht =>
      .setWork ht rfl rfl rfl rfl (.quiet rfl rfl rfl fun _ h => h)
    cases phase with
    | list =>
      -- the tasks that are begun know nothing
      cases hphase
      exact (spawnMembers _ hn).trans (hstill (work?_spawnMembers _ hn ht))
    | await members =>
      obtain ⟨outcomes, -, heq⟩ := Option.map_eq_some_iff.1 hphase
      cases heq
      exact hstill ht
    | ended => cases hphase
  | forward id mapping phase =>
    obtain ⟨⟨k, phase'⟩, hphase, heq⟩ := Option.map_eq_some_iff.1 hstep
    cases heq
    obtain ⟨-, htouches, htasks, -⟩ := stepForward_paces hn hphase
    exact .setWork ht hjob htouches.config htasks htouches.pool (stepForward_learnt hn hphase)
  | report id state timeout phase =>
    obtain ⟨⟨k, phase'⟩, hphase, heq⟩ := Option.map_eq_some_iff.1 hstep
    cases heq
    obtain ⟨htouches, htasks, -⟩ := stepReport_paces hn hphase
    exact .setWork ht hjob htouches.config htasks htouches.pool (stepReport_learnt hphase)

/-- The launcher answers a task. -/
theorem of_answerLaunch {result : Except Error Unit} (h : n.answerLaunch t result = some m) :
    Unseen n m := by
  rw [answerLaunch] at h
  split at h
  · rename_i id spec phase hasCaller hfind
    have ht : n.work? t = some (.provision id spec phase) := congrArg (Option.map Task.work) hfind
    obtain ⟨⟨k, phase'⟩, hend, rfl⟩ := Option.map_eq_some_iff.1 h
    cases phase with
    | launch network console deadline =>
      cases result with
      | ok | error =>
        cases hend
        exact .setWork ht rfl rfl rfl rfl (.quiet rfl rfl rfl fun _ h => h)
    | _ => cases hend
  · cases h

/-- Whoever loses the caller keeps the call in progress, and what is known. -/
theorem leaveWork_keeps (n : Node) (work : Work) :
    (n.leaveWork work).2.job? = work.job? ∧
      ∀ l, (n.leaveWork work).2.known? = some l → work.known? = some l := by
  cases work with
  | provision | monitor | drain | gone => exact ⟨rfl, fun _ h => h⟩
  | deprovision i timeout phase => cases phase <;> exact ⟨rfl, fun _ h => h⟩
  | forward i mapping phase => cases phase <;> exact ⟨rfl, fun _ h => h⟩
  | report i state timeout phase => cases phase <;> exact ⟨rfl, fun _ h => h⟩

theorem abandonTask (n : Node) (t : Nat) : Unseen n (n.abandonTask t) := by
  rw [Node.abandonTask]
  cases hfind : n.tasks.find? t with
  | none => exact .refl n
  | some task =>
    have ht : n.work? t = some task.work := congrArg (Option.map Task.work) hfind
    obtain ⟨hjob, hknows⟩ := leaveWork_keeps n task.work
    obtain ⟨b, hfst, -⟩ := leaveWork_fst n task.work
    simp only
    split
    · exact .refl n
    · rw [hfst]
      exact .turn (.insert ht (n.leaveWork task.work).2 false) rfl rfl hjob
        fun l hl => hl.imp_left (hknows l)

/-- The caller of a task goes away, and with it the callers of its members. -/
theorem of_leave (h : n.leave t = some m) : Unseen n m := by
  have hall : ∀ (l : List Nat) (k : Node), Unseen k (l.foldl Node.abandonTask k) := fun l => by
    induction l with
    | nil => exact .refl
    | cons s rest ih => exact fun k => (abandonTask k s).trans (ih _)
  obtain ⟨task, -, rfl⟩ := Option.map_eq_some_iff.1 h
  exact (hall _ n).trans (abandonTask _ t)

/-- A move is seen by the allocator only if it is a step of an errand. -/
theorem of_move {a : Move} (hn : n.Tidy ids) (hplain : ∀ l, n.Knows l → l.info.ports = [])
    (hmove : n.move a = some m) (hstep : n.errandStep? a = none) : Unseen n m := by
  have haside : ∀ {k : Node}, k.config = n.config → k.ownerBase = n.ownerBase → k.pool = n.pool →
      k.tasks = n.tasks → k.registry = n.registry → Unseen n k :=
    fun hconfig howner hpool htasks hregistry => by
      refine ⟨hconfig, howner, hpool, fun s => ?_, fun l hl => ?_⟩
      · rw [Node.job?, Node.job?, work?, work?, htasks]
      · rwa [Knows, hregistry, show work? _ = n.work? from funext fun s => by
          rw [work?, work?, htasks]] at hl
  cases a with
  | begin r =>
    obtain rfl := Option.some.inj hmove
    refine .spawn hn ?_ ?_
    · cases r with
      | provision id spec => rw [workOf]; split <;> rfl
      | deprovision | drain | publish | awaitReport => rfl
    · cases r with
      | provision id spec => rw [workOf]; split <;> rfl
      | deprovision | drain | publish | awaitReport => rfl
  | run t =>
    -- a task that makes no step of a call is not on an errand
    obtain ⟨work, ht, ⟨e, k, progress, herrand, hwork, rfl⟩ |
      ⟨hasCaller, k, work', herrand, hwork, rfl⟩⟩ := run_eq_some hmove
    · rw [errandStep?, ht, Option.bind_some, herrand, Option.bind_some, hwork] at hstep
      cases hstep
    · exact .of_stepWork hn hplain ht (by rw [Work.job?, herrand]; rfl) hwork
  | host t result =>
    -- an answer of the host is a step of a call
    obtain ⟨work, e, progress, ht, herrand, hanswer, rfl⟩ := answerHost_eq_some hmove
    rw [errandStep?, ht, Option.bind_some, herrand, Option.bind_some, hanswer] at hstep
    cases hstep
  | launched t result => exact .of_answerLaunch hmove
  | leave t => exact .of_leave hmove
  | process p e =>
    obtain ⟨⟨k, act⟩, hstep, rfl⟩ := Option.map_eq_some_iff.1 hmove
    rw [stepProcess] at hstep
    split at hstep
    · obtain ⟨s, -, hstep⟩ := Option.bind_eq_some_iff.1 hstep
      obtain ⟨s', -, heq⟩ := Option.map_eq_some_iff.1 hstep
      cases heq
      exact haside rfl rfl rfl rfl rfl
    · cases hstep
  | print console line =>
    obtain rfl := Option.some.inj hmove
    exact haside rfl rfl rfl rfl rfl
  | pass ms =>
    obtain rfl := Option.some.inj hmove
    exact haside rfl rfl rfl rfl rfl

end Unseen

end Node

end VmNode
