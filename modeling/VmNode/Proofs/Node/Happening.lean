import VmNode.Proofs.Console.Backlog
import VmNode.Proofs.Node.Pass

/-!
# What happens to a node in use

Apart from its moves, a node's consoles are written to by whoever launches its guests, and
followed by whoever asks for it (`Node.Happening`). All of it may happen in any order, and what
cannot be done at the time is left out (`Node.playFreely`): a task that is asked to go on while
it has to wait just waits on.

Whatever happens, the consoles show more of the past, time does not go back and tasks keep their
numbers (`Node.Sequel`). A task that waits for a report goes on by its own steps only, and loses
its work if its caller goes away (`Node.work?_stepFreely`).
-/

namespace VmNode

/-- Only the task itself takes the work on. -/
def Work.isSolitary : Work → Bool
  | .report .. | .gone => true
  | _ => false

/-- Solitary work is no errand. -/
theorem Work.errand?_of_isSolitary {work : Work} (h : work.isSolitary = true) :
    work.errand? = none := by
  cases work with
  | report | gone => rfl
  | provision | monitor | deprovision | drain | forward => cases h

namespace Node

open Console (Hub Writer Subscription)

/-- Something that happens to a node. -/
inductive Happening where
  /-- It makes a move. -/
  | move (a : Move)
  /-- Somebody who writes to a console puts a record into it. -/
  | push (w : Writer) (r : LogRecord)
  /-- Somebody begins to follow a console. -/
  | follow (id : InstanceId)
  /-- Somebody follows a console no more. -/
  | unfollow (s : Subscription)

/-- What becomes of a node when something happens. Nothing does if it cannot happen. -/
def stepFreely (n : Node) : Happening → Node
  | .move a => (n.move a).getD n
  | .push w r => { n with hub := n.hub.push w r }
  | .follow id =>
    match n.followLogs id with
    | .ok (_, m) => m
    | .error _ => n
  | .unfollow s => { n with hub := n.hub.unsubscribe s }

/-- What becomes of a node when one thing happens after the other. -/
def playFreely (n : Node) (happenings : List Happening) : Node := happenings.foldl stepFreely n

variable {n m k : Node} {t u : Nat} {work work' : Work} {id : InstanceId}

theorem playFreely_cons (n : Node) (h : Happening) (rest : List Happening) :
    n.playFreely (h :: rest) = (n.stepFreely h).playFreely rest := rfl

theorem playFreely_append (n : Node) (before later : List Happening) :
    n.playFreely (before ++ later) = (n.playFreely before).playFreely later := List.foldl_append

/-! ### What comes after a node -/

/-- A node comes after another one. -/
structure Sequel (n m : Node) : Prop where
  /-- Consoles have shown what they had shown before. -/
  hub : n.hub.Outgrows m.hub
  /-- Time does not go back. -/
  clock : n.clock ≤ m.clock
  /-- Tasks remain numbered. -/
  numbered : n.tasks.IsNumbered → m.tasks.IsNumbered

namespace Sequel

theorem refl (n : Node) : n.Sequel n := ⟨.refl _, Nat.le_refl _, fun h => h⟩

theorem trans (h : n.Sequel m) (h' : m.Sequel k) : n.Sequel k :=
  ⟨h.hub.trans h'.hub, h.clock.trans h'.clock, fun hn => h'.numbered (h.numbered hn)⟩

theorem of_eq (hhub : m.hub = n.hub) (hclock : m.clock = n.clock) (htasks : m.tasks = n.tasks) :
    n.Sequel m :=
  ⟨hhub ▸ .refl _, hclock.ge, fun hn => htasks ▸ hn⟩

/-- Something is done to the consoles. -/
theorem withHub {hub : Hub} (h : n.hub.Outgrows hub) : n.Sequel { n with hub } :=
  ⟨h, Nat.le_refl _, fun hn => hn⟩

end Sequel

/-- A node comes after another one, and all tasks have the same work to do. -/
structure Extends (n m : Node) : Prop extends n.Sequel m where
  /-- What a task had to do, it still has to do. -/
  work? : n.tasks.IsNumbered → ∀ t work, n.work? t = some work → m.work? t = some work

namespace Extends

theorem of_eq (hhub : m.hub = n.hub) (hclock : m.clock = n.clock) (htasks : m.tasks = n.tasks) :
    n.Extends m :=
  ⟨.of_eq hhub hclock htasks, fun _ t work ht => by rwa [Node.work?, htasks]⟩

theorem withHub {hub : Hub} (h : n.hub.Outgrows hub) : n.Extends { n with hub } :=
  ⟨.withHub h, fun _ _ _ ht => ht⟩

theorem trans (h : n.Extends m) (h' : m.Extends k) : n.Extends k :=
  ⟨h.toSequel.trans h'.toSequel, fun hn t work ht =>
    h'.work? (h.numbered hn) t work (h.work? hn t work ht)⟩

/-- A task is begun. -/
theorem spawn (n : Node) (work : Work) (hasCaller : Bool) :
    n.Extends (n.spawn work hasCaller).2 := by
  refine ⟨⟨.refl _, Nat.le_refl _, fun hn => hn.insert_size _⟩, fun hn t w ht => ?_⟩
  rcases work?_spawn_cases hn t with heq | ⟨hnone, -⟩
  · exact heq.trans ht
  · cases ht.symm.trans hnone

/-- New tasks leave the tasks that there are to their work. -/
theorem spawnMembers (ids : List InstanceId) : ∀ n : Node, n.Extends (n.spawnMembers ids).1 := by
  induction ids with
  | nil => exact fun _ => .of_eq rfl rfl rfl
  | cons id rest ih => exact fun n => (spawn n _ true).trans (ih _)

end Extends

/-! ### Steps of tasks -/

/-- A step of provisioning opens or gives up a console, or begins a monitor, or has nothing to do
    with consoles and tasks. -/
theorem extends_stepProvision {spec : InstanceSpec} {phase phase' : ProvisionPhase}
    (h : n.stepProvision id spec phase = some (k, phase')) : n.Extends k := by
  cases phase with
  | openConsole =>
    cases h
    exact .withHub (.openFor ..)
  | closeConsole =>
    cases h
    exact .withHub (.remove ..)
  | enter process =>
    simp only [stepProvision] at h
    split at h
    · rename_i registry _
      cases h
      have hregistry : n.Extends { n with registry } := .of_eq rfl rfl rfl
      exact hregistry.trans (.spawn ..)
    · cases h
      exact .of_eq rfl rfl rfl
  | lease | refuse | giveBack | ended => cases h
  | insert | launch | attach | fail | withdraw =>
    simp only [stepProvision] at h
    repeat' split at h
    all_goals cases h
    all_goals exact .of_eq rfl rfl rfl

/-- A launch that ends has nothing to do with consoles. -/
theorem extends_endLaunch {result : Except Error Unit} {phase phase' : ProvisionPhase}
    (h : n.endLaunch result phase = some (k, phase')) : n.Extends k := by
  cases phase with
  | launch => cases result <;> cases h <;> exact .of_eq rfl rfl rfl
  | _ => cases h

/-- A step of a monitor writes a note or closes a console, or has nothing to do with consoles. -/
theorem extends_stepMonitor {process : Nat} {phase phase' : MonitorPhase}
    (h : n.stepMonitor id process phase = some (k, phase')) : n.Extends k := by
  cases phase with
  | wait =>
    obtain ⟨reason, -, heq⟩ := Option.map_eq_some_iff.1 h
    cases heq
    exact .of_eq rfl rfl rfl
  | fail =>
    simp only [stepMonitor] at h
    split at h <;> cases h <;> exact .of_eq rfl rfl rfl
  | tell =>
    simp only [stepMonitor] at h
    split at h <;> cases h <;> exact .withHub (.note ..)
  | closeConsole =>
    cases h
    exact .withHub (.close ..)
  | giveBack | ended => cases h

/-- A step of a call that deprovisions writes a note or gives up a console, or has nothing to do
    with consoles. -/
theorem extends_stepDeprovision {timeout : Nat} {phase phase' : DeprovisionPhase}
    (h : n.stepDeprovision id timeout phase = some (k, phase')) : n.Extends k := by
  cases phase with
  | tell =>
    cases h
    exact .withHub (.note ..)
  | closeReaped | closeConsole =>
    cases h
    exact .withHub (.remove ..)
  | giveBackReaped | giveBack | ended => cases h
  | settle | rest | look | enter | listen | await | reap | find | stop | note | takeLease
  | enterStopped | withdraw =>
    simp only [stepDeprovision] at h
    repeat' split at h
    all_goals cases h
    all_goals exact .of_eq rfl rfl rfl

theorem extends_stepDrain {phase phase' : DrainPhase} (h : n.stepDrain phase = some (k, phase')) :
    n.Extends k := by
  cases phase with
  | list =>
    cases h
    exact .spawnMembers ..
  | await =>
    obtain ⟨outcomes, -, heq⟩ := Option.map_eq_some_iff.1 h
    cases heq
    exact .of_eq rfl rfl rfl
  | ended => cases h

theorem extends_stepForward {mapping : PortMapping} {hasCaller : Bool}
    {phase phase' : ForwardPhase}
    (h : n.stepForward id mapping hasCaller phase = some (k, phase')) : n.Extends k := by
  cases phase with
  | look | add =>
    simp only [stepForward] at h
    repeat' split at h
    all_goals cases h
    all_goals exact .of_eq rfl rfl rfl
  | work | ended => cases h

/-- A call that waits for a report follows the console or ceases to. -/
theorem extends_stepReport {state : String} {timeout : Nat} {phase phase' : ReportPhase}
    (h : n.stepReport id state timeout phase = some (k, phase')) : n.Extends k := by
  cases phase with
  | look =>
    simp only [stepReport] at h
    split at h <;> cases h <;> exact .of_eq rfl rfl rfl
  | subscribe =>
    simp only [stepReport] at h
    split at h
    · cases h
      exact .of_eq rfl rfl rfl
    · rename_i buffer sub hub hsub
      split at h <;> cases h
      · exact .withHub ((Hub.Outgrows.subscribe hsub).trans (.unsubscribe ..))
      · exact .withHub (.subscribe hsub)
  | follow =>
    simp only [stepReport] at h
    repeat' split at h
    all_goals cases h
    all_goals first | exact .of_eq rfl rfl rfl | exact .withHub (.unsubscribe ..)
  | ended => cases h

/-- A step of a task leaves the work of the others as it is, and the consoles show no less. -/
theorem extends_stepWork {hasCaller : Bool} (h : n.stepWork hasCaller work = some (k, work')) :
    n.Extends k := by
  cases work with
  | gone => cases h
  | provision | monitor | deprovision | drain | forward | report =>
    obtain ⟨⟨k', phase'⟩, hstep, heq⟩ := Option.map_eq_some_iff.1 h
    cases heq
    first
    | exact extends_stepProvision hstep
    | exact extends_stepMonitor hstep
    | exact extends_stepDeprovision hstep
    | exact extends_stepDrain hstep
    | exact extends_stepForward hstep
    | exact extends_stepReport hstep

theorem extends_stepProcess {p : Nat} {e : Supervisor.Event} {act : Option Supervisor.Act}
    (h : n.stepProcess p e = some (k, act)) : n.Extends k := by
  rw [stepProcess] at h
  split at h
  · obtain ⟨s, -, hs⟩ := Option.bind_eq_some_iff.1 h
    obtain ⟨⟨s', act'⟩, -, heq⟩ := Option.map_eq_some_iff.1 hs
    cases heq
    exact .of_eq rfl rfl rfl
  · cases h

/-! ### Moves -/

/-- A task goes on and everything else comes after what it was, or a caller goes away, or nothing
    happens to the tasks that there are. -/
theorem move_cases {a : Move} (h : n.move a = some m) : n.Extends m ∨
    (∃ t k work, a.task? = some t ∧ n.Extends k ∧ m = k.setWork t work) ∨
      ∃ t, a = .leave t ∧ n.leave t = some m := by
  cases a with
  | begin r =>
    cases h
    exact .inl (.spawn n _ true)
  | run t =>
    -- a step of an errand touches the pool only
    obtain ⟨work, -, ⟨e, k, progress, -, hstep, rfl⟩ | ⟨hasCaller, k, work', -, hstep, rfl⟩⟩ :=
      run_eq_some h
    · obtain ⟨pool, rfl, -⟩ := stepErrand_eq_some hstep
      exact .inr (.inl ⟨t, { n with pool }, _, rfl, .of_eq rfl rfl rfl, rfl⟩)
    · exact .inr (.inl ⟨t, k, work', rfl, extends_stepWork hstep, rfl⟩)
  | host t result =>
    obtain ⟨work, e, progress, -, -, -, rfl⟩ := answerHost_eq_some h
    exact .inr (.inl ⟨t, n, _, rfl, .of_eq rfl rfl rfl, rfl⟩)
  | launched t result =>
    -- a launch that has ended may leave a process
    simp only [Node.move, answerLaunch] at h
    split at h
    · obtain ⟨⟨k, phase'⟩, hend, rfl⟩ := Option.map_eq_some_iff.1 h
      exact .inr (.inl ⟨t, k, _, rfl, extends_endLaunch hend, rfl⟩)
    · cases h
  | leave t => exact .inr (.inr ⟨t, rfl, h⟩)
  | process p e =>
    obtain ⟨⟨k, act⟩, hstep, rfl⟩ := Option.map_eq_some_iff.1 h
    exact .inl (extends_stepProcess hstep)
  | print console line =>
    cases h
    exact .inl (.withHub (.push ..))
  | pass ms =>
    cases h
    exact .inl ⟨⟨.refl _, Nat.le_add_right .., fun hn => hn⟩, fun _ _ _ ht => ht⟩

/-- Solitary work is taken on by the task itself only. -/
theorem eq_run_of_task? {a : Move} (ht : n.work? t = some work) (hwork : work.isSolitary = true)
    (ha : a.task? = some t) (h : n.move a = some m) : a = .run t := by
  cases a with
  | run u =>
    cases ha
    rfl
  | host u result =>
    cases ha
    obtain ⟨w, e, progress, hw, herrand, -, -⟩ := answerHost_eq_some h
    obtain rfl := Option.some.inj (ht.symm.trans hw)
    rw [Work.errand?_of_isSolitary hwork] at herrand
    cases herrand
  | launched u result =>
    cases ha
    simp only [Node.move, answerLaunch] at h
    split at h
    · rename_i hfind
      rw [Node.work?, hfind] at ht
      cases ht
      cases hwork
    · cases h
  | begin | leave | process | print | pass => cases ha

/-! ### Callers -/

/-- Nothing but the follower of a console goes away with a caller. -/
theorem sequel_abandonTask (n : Node) (t : Nat) : n.Sequel (n.abandonTask t) := by
  rw [abandonTask]
  split
  · exact .refl n
  · rename_i task hfind
    split
    · exact .refl n
    · have hsome : (n.tasks.find? t).isSome := by
        rw [hfind]
        rfl
      have hhub : n.hub.Outgrows (n.leaveWork task.work).1.hub := by
        cases task.work with
        | report id state timeout phase =>
          cases phase with
          | follow => exact .unsubscribe ..
          | look | subscribe | ended => exact .refl _
        | deprovision id timeout phase => cases phase <;> exact .refl _
        | forward id mapping phase => cases phase <;> exact .refl _
        | provision | monitor | drain | gone => exact .refl _
      obtain ⟨hub, hfst, -⟩ := leaveWork_fst n task.work
      simp only
      rw [hfst] at hhub ⊢
      exact ⟨hhub, Nat.le_refl _, fun hn => hn.insert hsome _⟩

theorem sequel_leave (h : n.leave t = some m) : n.Sequel m := by
  obtain ⟨task, -, rfl⟩ := Option.map_eq_some_iff.1 h
  have hmembers : ∀ (l : List Nat) (n : Node), n.Sequel (l.foldl abandonTask n) := by
    intro l
    induction l with
    | nil => exact Sequel.refl
    | cons s rest ih => exact fun n => (sequel_abandonTask n s).trans (ih _)
  exact (hmembers _ n).trans (sequel_abandonTask _ t)

/-! ### Everything that happens -/

/-- Whatever move is made, the node comes after what it was. -/
theorem sequel_of_move {a : Move} (h : n.move a = some m) : n.Sequel m := by
  rcases move_cases h with hextends | ⟨t, k, work, -, hextends, rfl⟩ | ⟨t, -, hleave⟩
  · exact hextends.toSequel
  · exact hextends.toSequel.trans ⟨.refl _, Nat.le_refl _, fun hn => hn.modify t _⟩
  · exact sequel_leave hleave

/-- Who begins to follow a console changes nothing else. -/
theorem followLogs_eq_ok {s : Subscription} (h : n.followLogs id = .ok (s, m)) :
    ∃ hub, n.hub.Outgrows hub ∧ m = { n with hub } := by
  rw [followLogs] at h
  cases hget : n.registry.get id with
  | error e =>
    rw [hget] at h
    cases h
  | ok info =>
    rw [hget] at h
    cases hsub : n.hub.subscribe id with
    | error e =>
      simp only [hsub] at h
      cases h
    | ok found =>
      obtain ⟨buffer, sub, hub⟩ := found
      simp only [hsub] at h
      cases h
      exact ⟨hub, .subscribe hsub, rfl⟩

/-- Whatever happens, the node comes after what it was. -/
theorem sequel_stepFreely (n : Node) (h : Happening) : n.Sequel (n.stepFreely h) := by
  cases h with
  | move a =>
    rw [stepFreely]
    cases hmove : n.move a with
    | none => exact .refl n
    | some m => exact sequel_of_move hmove
  | push w r => exact .withHub (.push ..)
  | follow id =>
    rw [stepFreely]
    split
    · rename_i s m hfollow
      obtain ⟨hub, hgrows, rfl⟩ := followLogs_eq_ok hfollow
      exact .withHub hgrows
    · exact .refl n
  | unfollow s => exact .withHub (.unsubscribe ..)

/-- However much happens, the node comes after what it was. -/
theorem sequel_playFreely (happenings : List Happening) :
    ∀ n : Node, n.Sequel (n.playFreely happenings) := by
  induction happenings with
  | nil => exact Sequel.refl
  | cons h rest ih => exact fun n => (sequel_stepFreely n h).trans (ih _)

/-! ### Tasks that wait -/

/-- Nobody else takes solitary work on, but it is dropped if its caller goes away. -/
theorem work?_of_move {a : Move} (hn : n.tasks.IsNumbered) (ht : n.work? t = some work)
    (hwork : work.isSolitary = true) (h : n.move a = some m) :
    a = .run t ∨ m.work? t = some work ∨ m.work? t = some .gone := by
  rcases move_cases h with hextends | ⟨u, k, work', ha, hextends, rfl⟩ | ⟨u, -, hleave⟩
  · exact .inr (.inl (hextends.work? hn t work ht))
  · by_cases hu : t = u
    · exact .inl (eq_run_of_task? ht hwork (hu ▸ ha) h)
    · exact .inr (.inl ((work?_setWork_of_ne hu work').trans (hextends.work? hn t work ht)))
  · rcases (abandons_of_leave hleave).tasks t with heq | ⟨w, -, -, hgone⟩
    · exact .inr (.inl (heq.trans ht))
    · exact .inr (.inr hgone)

theorem work?_stepFreely (hn : n.tasks.IsNumbered) (ht : n.work? t = some work)
    (hwork : work.isSolitary = true) (h : Happening) : h = .move (.run t) ∨
      (n.stepFreely h).work? t = some work ∨ (n.stepFreely h).work? t = some .gone := by
  cases h with
  | move a =>
    rw [stepFreely]
    cases hmove : n.move a with
    | none => exact .inr (.inl ht)
    | some m =>
      rcases work?_of_move hn ht hwork hmove with rfl | hm
      · exact .inl rfl
      · exact .inr hm
  | push | unfollow => exact .inr (.inl ht)
  | follow id =>
    rw [stepFreely]
    split
    · rename_i s m hfollow
      obtain ⟨hub, -, rfl⟩ := followLogs_eq_ok hfollow
      exact .inr (.inl ht)
    · exact .inr (.inl ht)

/-- A call whose caller has gone away is over. -/
theorem gone_playFreely (happenings : List Happening) : ∀ {n : Node}, n.tasks.IsNumbered →
    n.work? t = some .gone → (n.playFreely happenings).work? t = some .gone := by
  induction happenings with
  | nil => exact fun _ ht => ht
  | cons h rest ih =>
    intro n hn ht
    refine ih ((sequel_stepFreely n h).numbered hn) ?_
    rcases work?_stepFreely hn ht rfl h with rfl | hm | hm
    · -- there is nothing left that it could go on with
      obtain ⟨task, hfind, hwork⟩ := Option.map_eq_some_iff.1 ht
      have hrun : n.run t = none := by
        simp only [run, hfind, hwork]
        rfl
      rw [stepFreely, Node.move, hrun]
      exact ht
    · exact hm
    · exact hm

/-! ### Nodes in use -/

/-- The tasks are numbered, and the consoles show what was put into them. -/
structure Sane (n : Node) : Prop where
  /-- Tasks are numbered in the order in which they were started. -/
  numbered : n.tasks.IsNumbered
  /-- Consoles show what was put into them. -/
  airs : ∃ chronicles, n.hub.Airs chronicles

/-- A node that comes after a sane one is sane. -/
theorem Sequel.sane (h : n.Sequel m) (hn : n.Sane) : m.Sane := by
  obtain ⟨chronicles, hairs⟩ := hn.airs
  obtain ⟨chronicles', hairs', -⟩ := h.hub.airs chronicles hairs
  exact ⟨h.numbered hn.numbered, chronicles', hairs'⟩

theorem sane_start {config : NodeConfig} {ownerBase : Option Nat}
    (hstart : Node.start config ownerBase = .ok n) : n.Sane := by
  obtain rfl := start_eq_ok hstart
  exact ⟨Table.isNumbered_empty, .empty, Hub.airs_new config.console⟩

/-- Whatever has happened to a node that was started, it is sane. -/
theorem Sane.playFreely (hn : n.Sane) (happenings : List Happening) :
    (n.playFreely happenings).Sane :=
  (sequel_playFreely happenings n).sane hn

/-- The channel of an instance is there. -/
theorem Sane.channel (hn : n.Sane) {k : Nat} (hk : n.hub.current.find? id = some k) :
    ∃ c, n.hub.channels.find? k = some c := by
  obtain ⟨chronicles, hairs⟩ := hn.airs
  exact Option.isSome_iff_exists.1 (hairs.sound.current id k hk)

end Node

end VmNode
