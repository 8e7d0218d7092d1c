import VmNode.Proofs.Node.Change

/-!
# Moves are changes

Each move of a node in order is a sequence of changes (`Node.Changes.of_move`): most are one
change, a task that begins others begins them first, and when a caller goes away, the tasks
that lose their caller change one after the other.

So a node that is in order stays in order whatever moves are made, as long as no identifier
is given to two instances (`Node.Tidy.play`).
-/

namespace VmNode

/-- The identifier of the instance that a move provisions. -/
def Move.provision? : Move → Option InstanceId
  | .begin (.provision id _) => some id
  | _ => none

/-- The identifiers of the instances that moves provision. -/
def provisioned (moves : List Move) : List InstanceId := moves.filterMap Move.provision?

namespace Node

/-- What moves one after the other make of a node, if they can be made. -/
def play (n : Node) : List Move → Option Node
  | [] => some n
  | a :: rest => (n.move a).bind fun m => m.play rest

variable {ids ids' : List InstanceId} {n m base : Node} {t : Nat} {work work' : Work}

/-! ### Steps of tasks -/

/-- A task that takes its next step goes on with its errand, or takes a step of its own. -/
theorem run_eq_some (h : n.run t = some m) : ∃ work, n.work? t = some work ∧
    ((∃ e k progress, work.errand? = some e ∧ n.stepErrand e = some (k, progress) ∧
      m = k.setWork t (work.resume progress)) ∨
    ∃ hasCaller k work', work.errand? = none ∧ n.stepWork hasCaller work = some (k, work') ∧
      m = k.setWork t work') := by
  rw [run] at h
  cases hfind : n.tasks.find? t with
  | none =>
    rw [hfind] at h
    cases h
  | some task =>
    rw [hfind] at h
    refine ⟨task.work, congrArg (Option.map Task.work) hfind, ?_⟩
    cases herrand : task.work.errand? with
    | some e =>
      simp only [herrand] at h
      obtain ⟨⟨k, progress⟩, hstep, rfl⟩ := Option.map_eq_some_iff.1 h
      exact .inl ⟨e, k, progress, rfl, hstep, rfl⟩
    | none =>
      simp only [herrand] at h
      obtain ⟨⟨k, work'⟩, hstep, rfl⟩ := Option.map_eq_some_iff.1 h
      exact .inr ⟨task.hasCaller, k, work', rfl, hstep, rfl⟩

/-- The host answers a task that is on an errand and waits for the host. -/
theorem answerHost_eq_some {result : Except Error Unit} (h : n.answerHost t result = some m) :
    ∃ work e progress, n.work? t = some work ∧ work.errand? = some e ∧
      e.answer n.config.network result = some progress ∧
        m = n.setWork t (work.resume progress) := by
  rw [answerHost] at h
  cases hfind : n.tasks.find? t with
  | none =>
    rw [hfind] at h
    cases h
  | some task =>
    rw [hfind] at h
    obtain ⟨progress, hanswer, rfl⟩ := Option.map_eq_some_iff.1 h
    obtain ⟨e, herrand, hanswer⟩ := Option.bind_eq_some_iff.1 hanswer
    exact ⟨task.work, e, progress, congrArg (Option.map Task.work) hfind, herrand, hanswer, rfl⟩

theorem Turn.setWork (ht : base.work? t = some work) (htasks : m.tasks = base.tasks)
    (hconfig : m.config = base.config) (work' : Work) :
    Turn t work work' base (m.setWork t work') := by
  obtain ⟨task, hfind, hwork⟩ := Option.map_eq_some_iff.1 ht
  refine ⟨hconfig, fun h => ?_, ht, ?_, fun s hs => ?_⟩
  · rw [Node.setWork, htasks]
    exact h.modify t _
  · rw [work?, Node.setWork, htasks, Table.find?_modify_self, hfind]
    rfl
  · rw [Node.setWork, htasks, Table.find?_modify_of_ne _ _ hs]

theorem work?_spawn (hn : n.Tidy ids) (ht : n.work? t = some work) {w : Work} {hasCaller : Bool} :
    (n.spawn w hasCaller).2.work? t = some work := by
  have hne : t ≠ n.tasks.size := by
    rintro rfl
    rw [work?, hn.numbered.find?_size] at ht
    cases ht
  rw [work?, spawn, Table.find?_insert_of_ne _ _ hne]
  exact ht

/-- A task that has nothing to do with instances is begun. -/
theorem Change.begin {hasCaller : Bool} (hholds : work.holds = 0) (hproper : work.Proper)
    (hwaits : ∀ id signal, ¬ work.Waits id signal) (hrole : ∀ id, work.role? id = none) :
    Change ids n ids (n.spawn work hasCaller).2 :=
  .spawn (List.Subset.refl _) hholds hproper hwaits fun id r hr => by
    rw [hrole] at hr
    cases hr

/-- A task takes a step on its instance, and goes on as it should. -/
theorem Change.paces {id : InstanceId} (ht : n.work? t = some work) (hid : work.subject = id)
    (hid' : work'.subject = id) (hproper : work'.Proper) (hlearns : n.Learns work work')
    (hpaces : Paces id (work.role? id) work.holds (work'.role? id) work'.holds n m) :
    Change ids n ids (m.setWork t work') := by
  obtain ⟨htouches, htasks, hstride⟩ := hpaces
  refine .stride (.setWork ht htasks htouches.config work') (htouches.withTasks _)
    (fun j hj => ⟨?_, ?_⟩) hproper hlearns hstride
  · exact Work.role?_of_ne_subject (hid.symm ▸ hj)
  · exact Work.role?_of_ne_subject (hid'.symm ▸ hj)

theorem Change.beginMember (n : Node) (id : InstanceId) (timeout limit : Nat) :
    Change ids n ids (n.spawn (.deprovision id timeout (.settle limit)) true).2 :=
  .begin rfl trivial (fun _ _ h => h) fun _ => ite_self none

theorem Change.beginMonitor (n : Node) (id : InstanceId) (process : Nat) :
    Change ids n ids (n.spawn (.monitor id process .wait) false).2 :=
  .begin rfl trivial (fun _ _ h => h) fun _ => rfl

/-- The members of a drain are begun one after the other. -/
theorem Changes.spawnMembers (l : List InstanceId) :
    ∀ n : Node, Changes ids n ids (n.spawnMembers l).1 := by
  induction l with
  | nil => exact fun _ => .refl
  | cons id rest ih =>
    intro n
    exact (Changes.single (.beginMember n id _ _)).trans (ih _)

theorem work?_spawnMembers (l : List InstanceId) :
    ∀ {n : Node}, n.Tidy ids → n.work? t = some work →
      (n.spawnMembers l).1.work? t = some work := by
  induction l with
  | nil => exact fun _ ht => ht
  | cons id rest ih =>
    intro n hn ht
    exact ih (hn.change (.beginMember n id _ _)) (work?_spawn hn ht)

/-- A step of a task that is not on an errand. -/
theorem Changes.of_stepWork {hasCaller : Bool} (hn : n.Tidy ids) (ht : n.work? t = some work)
    (hstep : n.stepWork hasCaller work = some (m, work')) :
    Changes ids n ids (m.setWork t work') := by
  cases work with
  | gone => cases hstep
  | provision id spec phase =>
    obtain ⟨⟨k, phase'⟩, hphase, heq⟩ := Option.map_eq_some_iff.1 hstep
    cases heq
    obtain ⟨hproper, base, hbase, hpaces⟩ := stepProvision_paces hn ht hphase
    have hmine : ∀ p : ProvisionPhase, (Work.provision id spec p).role? id = p.role? :=
      fun p => if_pos rfl
    rw [← hmine phase, ← hmine phase'] at hpaces
    rcases hbase with rfl | ⟨p, rfl⟩
    · exact .single (.paces ht rfl rfl hproper (fun _ _ h => h.elim) hpaces)
    · exact .step (.single (.beginMonitor n id p))
        (.paces (work?_spawn hn ht) rfl rfl hproper (fun _ _ h => h.elim) hpaces)
  | monitor id process phase =>
    obtain ⟨⟨k, phase'⟩, hphase, heq⟩ := Option.map_eq_some_iff.1 hstep
    cases heq
    obtain ⟨hproper, hpaces⟩ := stepMonitor_paces hn ht hphase
    exact .single (.paces ht rfl rfl hproper (fun _ _ h => h.elim) hpaces)
  | deprovision id timeout phase =>
    obtain ⟨⟨k, phase'⟩, hphase, heq⟩ := Option.map_eq_some_iff.1 hstep
    cases heq
    obtain ⟨hproper, hpaces⟩ := stepDeprovision_paces hn ht hphase
    have hmine : ∀ p : DeprovisionPhase, (Work.deprovision id timeout p).role? id = p.role? :=
      fun p => if_pos rfl
    rw [← hmine phase, ← hmine phase'] at hpaces
    exact .single (.paces ht rfl rfl hproper (stepDeprovision_learns hn ht hphase) hpaces)
  | drain phase =>
    obtain ⟨⟨k, phase'⟩, hphase, heq⟩ := Option.map_eq_some_iff.1 hstep
    cases heq
    have hstill : ∀ base : Node, base.Tidy ids → base.work? t = some (.drain phase) →
        Change ids base ids (base.setWork t (.drain phase')) := fun base hbase ht =>
      .paces ht rfl rfl trivial (fun _ _ h => h.elim) (.still hbase rfl rfl rfl rfl rfl)
    cases phase with
    | list =>
      cases hphase
      -- the members come first, and with them the task still has its work
      have hspawn : Changes ids n ids (n.spawnMembers n.instanceIds).1 := .spawnMembers _ n
      exact hspawn.step (hstill _ (hn.changes hspawn) (work?_spawnMembers _ hn ht))
    | await members =>
      obtain ⟨outcomes, -, heq⟩ := Option.map_eq_some_iff.1 hphase
      cases heq
      exact .single (hstill n hn ht)
    | ended => cases hphase
  | forward id mapping phase =>
    obtain ⟨⟨k, phase'⟩, hphase, heq⟩ := Option.map_eq_some_iff.1 hstep
    cases heq
    obtain ⟨hproper, hpaces⟩ := stepForward_paces hn hphase
    exact .single (.paces ht rfl rfl hproper (fun _ _ h => h.elim) hpaces)
  | report id state timeout phase =>
    obtain ⟨⟨k, phase'⟩, hphase, heq⟩ := Option.map_eq_some_iff.1 hstep
    cases heq
    exact .single (.paces ht rfl rfl trivial (fun _ _ h => h.elim) (stepReport_paces hn hphase))

/-- A task takes its next step. -/
theorem Changes.of_run (hn : n.Tidy ids) (hrun : n.run t = some m) : Changes ids n ids m := by
  obtain ⟨work, ht, ⟨e, k, progress, herrand, hstep, rfl⟩ | ⟨hasCaller, k, work', -, hstep, rfl⟩⟩ :=
    run_eq_some hrun
  · obtain ⟨p, rfl, hsteps⟩ := stepErrand_eq_some hstep
    have hturn := Turn.setWork (m := { n with pool := p }) ht rfl rfl (work.resume progress)
    exact .single (.carries (.of_steps hn hturn herrand rfl rfl hsteps))
  · exact .of_stepWork hn ht hstep

/-- The host answers a task. -/
theorem Changes.of_answerHost {result : Except Error Unit} (hn : n.Tidy ids)
    (h : n.answerHost t result = some m) : Changes ids n ids m := by
  obtain ⟨work, e, progress, ht, herrand, hanswer, rfl⟩ := answerHost_eq_some h
  exact .single (.carries (.of_answer hn (.setWork ht rfl rfl _) herrand rfl rfl rfl hanswer))

/-- The launcher answers a task. -/
theorem Changes.of_answerLaunch {result : Except Error Unit} (hn : n.Tidy ids)
    (h : n.answerLaunch t result = some m) : Changes ids n ids m := by
  rw [answerLaunch] at h
  split at h
  · rename_i id spec phase hasCaller hfind
    have ht : n.work? t = some (.provision id spec phase) := congrArg (Option.map Task.work) hfind
    obtain ⟨⟨k, phase'⟩, hend, rfl⟩ := Option.map_eq_some_iff.1 h
    cases phase with
    | launch network console deadline =>
      cases result with
      | ok | error =>
        cases hend
        exact .single (.paces ht rfl rfl trivial (fun _ _ h => h.elim)
          (.still hn rfl rfl rfl rfl rfl))
    | _ => cases hend
  · cases h

/-! ### Moves from outside -/

/-- Whose caller has gone away goes on, or had no part in the life of an instance. -/
theorem leaveWork_keeps (n : Node) (work : Work) (hproper : work.Proper) :
    (n.leaveWork work).2.Proper ∧ (n.leaveWork work).2.holds = work.holds ∧
      (∀ j, (n.leaveWork work).2.role? j = work.role? j) ∧
        n.Learns work (n.leaveWork work).2 := by
  cases work with
  | provision | monitor | gone => exact ⟨hproper, rfl, fun _ => rfl, fun _ _ h => h.elim⟩
  | drain => exact ⟨trivial, rfl, fun _ => rfl, fun _ _ h => h.elim⟩
  | deprovision i timeout phase =>
    cases phase with
    | settle | rest => exact ⟨trivial, rfl, fun _ => (ite_self none).symm, fun _ _ h => h.elim⟩
    | _ => exact ⟨hproper, rfl, fun _ => rfl, fun _ _ h => .inl h⟩
  | forward i mapping phase =>
    cases phase with
    | work => exact ⟨hproper, rfl, fun _ => rfl, fun _ _ h => h.elim⟩
    | _ => exact ⟨trivial, rfl, fun _ => rfl, fun _ _ h => h.elim⟩
  | report i state timeout phase =>
    cases phase <;> exact ⟨trivial, rfl, fun _ => rfl, fun _ _ h => h.elim⟩

/-- A caller that goes away ends a subscription at most. -/
theorem leaveWork_fst (n : Node) (work : Work) :
    ∃ b, (n.leaveWork work).1 = { n with hub := b } ∧ b.current = n.hub.current := by
  cases work with
  | report i state timeout phase =>
    cases phase with
    | follow sub deadline => exact ⟨_, rfl, Console.Hub.current_unsubscribe ..⟩
    | _ => exact ⟨_, rfl, rfl⟩
  | deprovision i timeout phase => cases phase <;> exact ⟨_, rfl, rfl⟩
  | forward i mapping phase => cases phase <;> exact ⟨_, rfl, rfl⟩
  | _ => exact ⟨_, rfl, rfl⟩

theorem Turn.insert {b : Console.Hub} (ht : n.work? t = some work) (work' : Work)
    (hasCaller : Bool) :
    Turn t work work' n { n with hub := b, tasks := n.tasks.insert t ⟨work', hasCaller⟩ } := by
  refine ⟨rfl, fun h => h.insert ?_ _, ht, ?_, fun s hs => Table.find?_insert_of_ne _ _ hs⟩
  · obtain ⟨task, hfind, -⟩ := Option.map_eq_some_iff.1 ht
    rw [hfind]
    rfl
  · rw [work?, Table.find?_insert_self]
    rfl

/-- The caller of one task goes away. -/
theorem Changes.abandonTask (hn : n.Tidy ids) (t : Nat) : Changes ids n ids (n.abandonTask t) := by
  rw [Node.abandonTask]
  cases hfind : n.tasks.find? t with
  | none => exact .refl
  | some task =>
    have ht : n.work? t = some task.work := congrArg (Option.map Task.work) hfind
    obtain ⟨hproper, hholds, hroles, hlearns⟩ := leaveWork_keeps n task.work (hn.proper t _ ht)
    obtain ⟨b, hfst, hcurrent⟩ := leaveWork_fst n task.work
    simp only
    split
    · exact .refl
    · rw [hfst]
      have hpaces : Paces task.work.subject (task.work.role? task.work.subject) task.work.holds
          (task.work.role? task.work.subject) task.work.holds n { n with hub := b } :=
        .still hn rfl rfl rfl hcurrent rfl
      obtain ⟨htouches, -, hstride⟩ := hpaces
      have hnone : ∀ j, j ≠ task.work.subject → task.work.role? j = none :=
        fun j hj => Work.role?_of_ne_subject hj
      refine .single (.stride (.insert ht (n.leaveWork task.work).2 false)
        (htouches.withTasks _) (fun j hj => ⟨hnone j hj, (hroles j).trans (hnone j hj)⟩) hproper
        hlearns ?_)
      rw [hroles, hholds]
      exact hstride

/-- The callers of several tasks go away, one after the other. -/
theorem Changes.abandonTasks (l : List Nat) :
    ∀ {n : Node}, n.Tidy ids → Changes ids n ids (l.foldl Node.abandonTask n) := by
  induction l with
  | nil => exact fun _ => .refl
  | cons t rest ih =>
    intro n hn
    have hfirst := Changes.abandonTask hn t
    exact hfirst.trans (ih (hn.changes hfirst))

/-- The caller of a task goes away, and with it the callers of its members. -/
theorem Changes.of_leave (hn : n.Tidy ids) (h : n.leave t = some m) : Changes ids n ids m := by
  obtain ⟨task, -, rfl⟩ := Option.map_eq_some_iff.1 h
  have hmembers := Changes.abandonTasks (members task.work) hn
  exact hmembers.trans (.abandonTask (hn.changes hmembers) t)

/-- A call is made. -/
theorem Change.of_begin (r : Request)
    (hnew : ∀ id, (Move.begin r).provision? = some id → id ∉ ids) :
    Change ids n (ids ++ (Move.begin r).provision?.toList) (n.begin r).2 := by
  have hnone : ∀ {work : Work}, work.holds = 0 → work.Proper →
      (∀ id signal, ¬ work.Waits id signal) → (∀ id, work.role? id = none) →
        Change ids n (ids ++ []) (n.spawn work true).2 :=
    fun hholds hproper hwaits hrole => by
      rw [List.append_nil]
      exact .begin hholds hproper hwaits hrole
  cases r with
  | deprovision => exact hnone rfl trivial (fun _ _ h => h) fun _ => ite_self none
  | drain | publish | awaitReport => exact hnone rfl trivial (fun _ _ h => h) fun _ => rfl
  | provision id spec =>
    refine .spawn (List.subset_append_left _ _) ?_ ?_ ?_ fun j q hq => ?_
    · rw [workOf]
      split <;> rfl
    · rw [workOf]
      split
      · rfl
      · trivial
    · rw [workOf]
      split <;> exact fun _ _ h => h
    · rw [workOf] at hq
      split at hq
      · rw [Work.role?] at hq
        split at hq
        · rename_i hid
          cases hq
          exact ⟨rfl, hid ▸ hnew id rfl, by simp [Move.provision?, hid]⟩
        · cases hq
      · rw [Work.role?] at hq
        split at hq <;> cases hq

/-- A move of a node in order is a sequence of changes. -/
theorem Changes.of_move {a : Move} (hn : n.Tidy ids)
    (hnew : ∀ id, a.provision? = some id → id ∉ ids) (hmove : n.move a = some m) :
    Changes ids n (ids ++ a.provision?.toList) m := by
  have hsame : ∀ {k : Node}, Changes ids n ids k → Changes ids n (ids ++ []) k := fun h => by
    rwa [List.append_nil]
  cases a with
  | begin r =>
    obtain rfl := Option.some.inj hmove
    exact .single (.of_begin r hnew)
  | run t => exact hsame (.of_run hn hmove)
  | host t result => exact hsame (.of_answerHost hn hmove)
  | launched t result => exact hsame (.of_answerLaunch hn hmove)
  | leave t => exact hsame (.of_leave hn hmove)
  | process p e =>
    obtain ⟨⟨k, act⟩, hstep, rfl⟩ := Option.map_eq_some_iff.1 hmove
    rw [stepProcess] at hstep
    split at hstep
    · obtain ⟨s, -, hstep⟩ := Option.bind_eq_some_iff.1 hstep
      obtain ⟨s', -, heq⟩ := Option.map_eq_some_iff.1 hstep
      cases heq
      exact hsame (.single (.aside rfl rfl rfl rfl rfl))
    · cases hstep
  | print console line =>
    obtain rfl := Option.some.inj hmove
    exact hsame (.single (.aside rfl rfl rfl rfl rfl))
  | pass ms =>
    obtain rfl := Option.some.inj hmove
    exact hsame (.single (.aside rfl rfl rfl rfl rfl))

/-- A node that was started has nothing yet. -/
theorem start_eq_ok {config : NodeConfig} {ownerBase : Option Nat}
    (h : Node.start config ownerBase = .ok n) :
    n = ⟨config, ownerBase, 0, .empty, .empty, .new config.console, .empty, .empty⟩ := by
  rw [start] at h
  cases hvalidate : config.validate with
  | error e =>
    rw [hvalidate] at h
    cases h
  | ok =>
    rw [hvalidate] at h
    cases h
    rfl

/-- So it is in order. -/
theorem tidy_start {config : NodeConfig} {ownerBase : Option Nat}
    (h : Node.start config ownerBase = .ok n) : n.Tidy [] := by
  obtain rfl := start_eq_ok h
  exact ⟨Table.isNumbered_empty, fun _ h => (by cases h), fun _ _ h => (by cases h),
    Registry.signalled_empty, fun _ _ h => (by cases h), fun _ _ _ h => (by cases h),
    fun _ _ _ _ _ _ h => (by cases h), fun _ h => (by cases h), rfl, fun _ h => (by cases h),
    fun _ ⟨_, h⟩ => (by cases h), fun _ _ => ⟨rfl, fun _ ⟨_, h⟩ => (by cases h),
      fun _ h => (by cases h)⟩⟩

/-- A node that was started with the default configuration. -/
def blank : Node := ⟨{}, none, 0, .empty, .empty, .new {}, .empty, .empty⟩

theorem start_blank : Node.start {} none = .ok blank := by
  have hvalidate : NodeConfig.validate {} = .ok () := by decide +kernel
  rw [start, hvalidate]
  rfl

/-! ### Moves one after the other -/

theorem append_provisioned_cons (ids : List InstanceId) (a : Move) (rest : List Move) :
    ids ++ provisioned (a :: rest) = ids ++ a.provision?.toList ++ provisioned rest := by
  rw [List.append_assoc, provisioned, provisioned, List.filterMap_cons]
  cases a.provision? <;> rfl

/-- An identifier that is given once was not given before. -/
theorem notMem_of_nodup {a : Move} {rest : List Move}
    (h : (ids ++ provisioned (a :: rest)).Nodup) : ∀ id, a.provision? = some id → id ∉ ids := by
  intro id hid hmem
  rw [append_provisioned_cons, hid] at h
  have hfirst := (List.nodup_append.1 h).1
  exact (List.nodup_append.1 hfirst).2.2 id hmem id (List.mem_singleton_self id) rfl

theorem play_concat {moves : List Move} {a : Move} :
    ∀ {n k m : Node}, n.play moves = some k → k.move a = some m →
      n.play (moves ++ [a]) = some m := by
  induction moves with
  | nil =>
    intro n k m hplay hmove
    obtain rfl := Option.some.inj hplay
    rw [List.nil_append, play, hmove]
    rfl
  | cons b rest ih =>
    intro n k m hplay hmove
    obtain ⟨v, hv, hrest⟩ := Option.bind_eq_some_iff.1 hplay
    rw [List.cons_append, play, hv]
    exact ih hrest hmove

/-- What every change keeps, moves keep that give no identifier to two instances. -/
theorem Tidy.play {P : List InstanceId → Node → Prop}
    (hstep : ∀ {ids n ids' m}, Tidy ids n → P ids n → Change ids n ids' m → P ids' m)
    {moves : List Move} : ∀ {ids : List InstanceId} {n : Node}, n.Tidy ids → P ids n →
      (ids ++ provisioned moves).Nodup → n.play moves = some m →
        m.Tidy (ids ++ provisioned moves) ∧ P (ids ++ provisioned moves) m := by
  -- the identifiers that were given so far grow along the run
  induction moves with
  | nil =>
    intro ids n hn hP _ hplay
    obtain rfl := Option.some.inj hplay
    rw [provisioned, List.filterMap_nil, List.append_nil]
    exact ⟨hn, hP⟩
  | cons a rest ih =>
    intro ids n hn hP hnodup hplay
    obtain ⟨k, hmove, hrest⟩ := Option.bind_eq_some_iff.1 hplay
    have hnew := notMem_of_nodup hnodup
    rw [append_provisioned_cons] at hnodup ⊢
    obtain ⟨hk, hPk⟩ := (Changes.of_move hn hnew hmove).induct hstep hn hP
    exact ih hk hPk hnodup hrest

end Node

end VmNode
