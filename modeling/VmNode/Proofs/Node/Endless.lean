import VmNode.Proofs.Node.Punctual
import VmNode.Proofs.Node.Queue

/-!
# Courses without end

A course of a node is a run that goes on for ever (`Node.Course`). In virtual time
(`Node.Course.InTime`) all of its steps are on time, and the clock gets beyond every time. So there
are moments as late as one likes in which no task can go on by itself
(`Node.Course.InTime.rests`), and a task whose work is left goes on with it, unless it is stuck
(`Node.Course.InTime.goes`).

What a node needs from outside is that the host answers, that supervisors come to an end with what
they are at, and that processes exit once they were killed (`Node.Course.Obliging`). Then a process
that is doomed is gone in the end (`Node.Course.InTime.exits_of_doomed`).

A list of moves after which a node is at rest, and which bring all that it waits for, is the
beginning of such a course (`Node.Fares.inTime`, `Node.Fares.obliging`).
-/

namespace VmNode

/-- The task that the host answers with a move. -/
def Move.host? : Move → Option Nat
  | .host t _ => some t
  | _ => none

/-- The process to whose supervisor something happens with a move. -/
def Move.process? : Move → Option Nat
  | .process p _ => some p
  | _ => none

/-- The process that exits with a move. -/
def Move.exit? : Move → Option Nat
  | .process p (.exit _) => some p
  | _ => none

namespace Node

/-- A run that goes on for ever: the node after so many moves, and the next move. -/
structure Course where
  /-- The node after so many moves. -/
  node : Nat → Node
  /-- The move that is made then. -/
  move : Nat → Move

namespace Course

/-- The step that is made after so many. -/
def step (c : Course) (i : Nat) : Step := ⟨c.node i, c.move i, c.node (i + 1)⟩

/-- The steps that are made first. -/
def made (c : Course) (i : Nat) : List Step := (List.range i).map c.step

/-- The identifiers of the instances that are provisioned in them. -/
def ids (c : Course) (i : Nat) : List InstanceId :=
  (List.range i).filterMap fun j => (c.move j).provision?

/-- The course of a node that was started, in virtual time. -/
structure InTime (c : Course) (config : NodeConfig) (ownerBase : Option Nat) : Prop where
  /-- The node was started. -/
  first : Node.start config ownerBase = .ok (c.node 0)
  /-- One move comes after the other. -/
  next : ∀ i, (c.node i).move (c.move i) = some (c.node (i + 1))
  /-- No identifier is given twice. -/
  fresh : ∀ i j id, (c.move i).provision? = some id → (c.move j).provision? = some id → i = j
  /-- No time passes while anybody can go on. -/
  timely : ∀ i, (c.step i).Timely
  /-- Time goes on for ever. -/
  endless : ∀ time, ∃ i, time ≤ (c.node i).clock

/-- The host, the supervisors and the processes do their part. -/
structure Obliging (c : Course) : Prop where
  /-- The host answers the steps that tasks wait for. -/
  host : ∀ i t, ((c.node i).hostCall? t).isSome = true →
    ∃ j result, i ≤ j ∧ c.move j = .host t result
  /-- A supervisor comes to an end with what it is at, and takes what is in its queue. -/
  supervisor : ∀ i p s, (c.node i).supervisor? p = some s → s.isBusy = true →
    ∃ j e, i ≤ j ∧ c.move j = .process p e
  /-- A process exits once it was killed. -/
  exits : ∀ i p s, (c.node i).supervisor? p = some s → s.phase = .watching → s.isKilled = true →
    ∃ j result, i ≤ j ∧ c.move j = .process p (.exit result)

variable {c : Course} {config : NodeConfig} {ownerBase : Option Nat} {i j t p : Nat}
variable {id : InstanceId} {w : Work}

theorem mem_ids : id ∈ c.ids i ↔ ∃ j < i, (c.move j).provision? = some id := by
  simp [ids]

theorem made_succ (c : Course) (i : Nat) : c.made (i + 1) = c.made i ++ [c.step i] := by
  rw [made, List.range_succ, List.map_append]
  rfl

theorem ids_succ (c : Course) (i : Nat) :
    c.ids (i + 1) = c.ids i ++ (c.move i).provision?.toList := by
  rw [ids, List.range_succ, List.filterMap_append]
  cases hid : (c.move i).provision? <;> simp [ids, hid]

/-- The work that is left of a task stays, and the task does not go on. -/
def Stuck (c : Course) (i t : Nat) (w : Work) : Prop :=
  ∀ j, i ≤ j → (c.node j).work? t = some w ∧ (c.move j).task? ≠ some t

/-- The work that is left of a task goes on without its caller, or its caller does not go away. -/
def Keeps (c : Course) (i t : Nat) (w : Work) : Prop :=
  w.isBound = true ∨ ∀ j, i ≤ j → (c.node (j + 1)).work? t ≠ some .gone

/-- In a step of the course a task goes on with its work. -/
structure Goes (c : Course) (i t : Nat) (w : Work) (k : Node) (w' : Work) : Prop where
  /-- It is the task that moves. -/
  task : (c.move i).task? = some t
  /-- What it had to do. -/
  before : (c.node i).work? t = some w
  /-- How it goes on. -/
  advance : (c.node i).Advance (c.move i) w k w'
  /-- Its work is what changes besides. -/
  next : c.node (i + 1) = k.setWork t w'
  /-- What it has left. -/
  after : (c.node (i + 1)).work? t = some w'

/-- How a call that deprovisions an instance goes on if it is not on an errand. -/
theorem Goes.deprovisions {k : Node} {w' : Work} {timeout : Nat} {phase : DeprovisionPhase}
    (h : c.Goes i t (.deprovision id timeout phase) k w') (herrand : phase.errand? = none) :
    c.move i = .run t ∧ ∃ phase', w' = .deprovision id timeout phase' ∧
      (c.node i).Deprovisions id timeout phase k phase' := by
  obtain ⟨htask, -, hadvance, -, -⟩ := h
  generalize c.move i = a at htask hadvance
  cases hadvance with
  | errand hsome | answer hsome => cases herrand.symm.trans hsome
  | deprovision hsteps =>
    cases htask
    exact ⟨rfl, _, rfl, hsteps⟩

namespace InTime

variable (h : c.InTime config ownerBase)
include h

theorem legal_of_run {made : List Step} (hrun : Run made (c.ids i) (c.node i)) :
    Legal (c.ids i) (c.node i) (c.move i) (c.node (i + 1)) := by
  refine ⟨hrun.tidy, hrun.numbered, fun id hid hmem => ?_, h.next i⟩
  obtain ⟨j, hj, hid'⟩ := mem_ids.1 hmem
  exact Nat.ne_of_lt hj (h.fresh j i id hid' hid)

/-- By induction, the moves made so far are a run. -/
theorem run (i : Nat) : Run (c.made i) (c.ids i) (c.node i) := by
  induction i with
  | zero => exact .start h.first
  | succ i ih =>
    rw [made_succ, ids_succ]
    exact ih.move (h.legal_of_run ih)

/-- Each move of the course is legal. -/
theorem legal (i : Nat) : Legal (c.ids i) (c.node i) (c.move i) (c.node (i + 1)) :=
  h.legal_of_run (h.run i)

theorem timely_of_mem {s : Step} (hs : s ∈ c.made i) : s.Timely := by
  obtain ⟨j, -, rfl⟩ := List.mem_map.1 hs
  exact h.timely j

/-! ### Later on -/

theorem clock_le (hij : i ≤ j) : (c.node i).clock ≤ (c.node j).clock := by
  induction j, hij using Nat.le_induction with
  | base => exact Nat.le_refl _
  | succ j _ ih => exact ih.trans ((h.legal j).frame.2 ▸ Nat.le_add_right _ _)

theorem config_eq (hij : i ≤ j) : (c.node j).config = (c.node i).config := by
  induction j, hij using Nat.le_induction with
  | base => rfl
  | succ j _ ih => exact (h.legal j).frame.1.trans ih

/-- An instance does not fall back later on. -/
theorem since_later {rank : Nat} (hsince : Since rank (c.ids i) (c.node i) id) (hij : i ≤ j) :
    Since rank (c.ids j) (c.node j) id := by
  induction j, hij using Nat.le_induction with
  | base => exact hsince
  | succ j _ ih => exact c.ids_succ j ▸ ih.legal (h.legal j)

/-- An exit reason that is published remains so later on. -/
theorem exit?_later {reason : ExitReason} (hexit : (c.node i).exit? p = some reason)
    (hij : i ≤ j) : (c.node j).exit? p = some reason := by
  induction j, hij using Nat.le_induction with
  | base => exact hexit
  | succ j _ ih => exact (h.legal j).exit? ih

/-! ### Tasks that go on -/

/-- There are moments as late as one likes in which no task can go on by itself. -/
theorem rests (i time : Nat) :
    ∃ j, i ≤ j ∧ time ≤ (c.node j).clock ∧ ∀ t, (c.node j).run t = none := by
  obtain ⟨k, hk⟩ := h.endless (max time ((c.node i).clock + 1))
  have hik : i ≤ k := Nat.le_of_not_le fun hki => by
    have := h.clock_le hki
    omega
  -- the clock gets beyond that time with the first move that takes time
  obtain ⟨l, hl⟩ := h.endless ((c.node k).clock + 1)
  obtain ⟨j, hjl, hj, hfirst⟩ : ∃ j, k ≤ j ∧ (c.node j).clock ≤ (c.node k).clock ∧
      (c.node k).clock < (c.node (j + 1)).clock := by
    by_contra hnone
    push Not at hnone
    have hstill : ∀ j, k ≤ j → (c.node j).clock ≤ (c.node k).clock := fun j hkj => by
      induction j, hkj using Nat.le_induction with
      | base => exact Nat.le_refl _
      | succ j hkj ih => exact hnone j hkj ih
    rcases Nat.le_total k l with hkl | hlk
    · exact Nat.lt_irrefl _ (hl.trans (hstill l hkl))
    · exact Nat.lt_irrefl _ (hl.trans (h.clock_le hlk))
  have hkj := h.clock_le hjl
  have helapsed := (h.legal j).frame.2
  refine ⟨j, hik.trans hjl, by omega, (h.timely j).idle ?_⟩
  show 0 < (c.move j).elapsed
  omega

/-- A task that is not stuck goes on in the end with the work that it has now. -/
theorem turn (ht : (c.node i).work? t = some w) (hkeeps : c.Keeps i t w) :
    (∃ j, i ≤ j ∧ (c.node j).work? t = some w ∧ (c.move j).task? = some t) ∨ c.Stuck i t w := by
  by_cases hgoes : ∃ j, i ≤ j ∧ (c.node j).work? t = some w ∧ (c.move j).task? = some t
  · exact .inl hgoes
  have hwork : ∀ j, i ≤ j → (c.node j).work? t = some w := fun j hij => by
    induction j, hij using Nat.le_induction with
    | base => exact ht
    | succ j hij ih =>
      cases (h.legal j).onTask t with
      | idle heq => exact heq.trans ih
      | begun hnone => cases hnone.symm.trans ih
      | goes ha => exact absurd ⟨j, hij, ih, ha⟩ hgoes
      | dropped hold hbound hgone =>
        obtain rfl := Option.some.inj (hold.symm.trans ih)
        rcases hkeeps with hkeeps | hkeeps
        · cases hbound.symm.trans hkeeps
        · exact absurd hgone (hkeeps j hij)
  exact .inr fun j hij => ⟨hwork j hij, fun ha => hgoes ⟨j, hij, hwork j hij, ha⟩⟩

/-- A task that is not stuck goes on with its work. -/
theorem goes (ht : (c.node i).work? t = some w) (hkeeps : c.Keeps i t w)
    (hstuck : ¬ c.Stuck i t w) : ∃ j k w', i ≤ j ∧ c.Goes j t w k w' := by
  rcases h.turn ht hkeeps with ⟨j, hij, hj, ha⟩ | hall
  · obtain ⟨work, k, w', hwork, hadvance, hk, hw'⟩ := (h.legal j).advance ha
    obtain rfl := Option.some.inj (hj.symm.trans hwork)
    exact ⟨j, k, w', hij, ha, hj, hadvance, hk, hw'⟩
  · exact absurd hall hstuck

/-- A task that can go on by itself, from some moment on, is not stuck. -/
theorem not_stuck (time : Nat) (hready : ∀ j, i ≤ j → time ≤ (c.node j).clock →
    (c.node j).work? t = some w → (c.node j).run t ≠ none) : ¬ c.Stuck i t w := fun hstuck => by
  obtain ⟨j, hij, htime, hrest⟩ := h.rests i time
  exact hready j hij htime (hstuck j hij).1 (hrest t)

/-! ### Processes that go away -/

variable {s : Supervisor}

/-- Something happens to the supervisor of a process. -/
theorem event {e : Supervisor.Event} (hs : (c.node i).supervisor? p = some s)
    (he : c.move i = .process p e) : isInner e = true ∧ ∃ s' act,
      s.Steps e s' act ∧ (c.node (i + 1)).supervisor? p = some s' := by
  cases (h.legal i).onProcess p with
  | idle hidle => exact absurd he (hidle e)
  | launched ha => cases ha.symm.trans he
  | request hidle => exact absurd he (hidle e)
  | event ha hinner hs' hstep hm =>
    cases ha.symm.trans he
    obtain rfl := Option.some.inj (hs'.symm.trans hs)
    exact ⟨hinner, _, _, Supervisor.steps_of_step hstep, hm⟩

/-- A doomed process stays so, and does not get further away from its end. -/
theorem doomed_later (hs : (c.node i).supervisor? p = some s) (hdoomed : s.Doomed) (hij : i ≤ j) :
    ∃ s', (c.node j).supervisor? p = some s' ∧ s'.Doomed ∧ s'.doom ≤ s.doom := by
  induction j, hij using Nat.le_induction with
  | base => exact ⟨s, hs, hdoomed, Nat.le_refl _⟩
  | succ j _ ih =>
    obtain ⟨k, hk, hdoomed, hle⟩ := ih
    obtain ⟨s', hs', hdoomed', hle'⟩ := (h.legal j).doomed hk hdoomed
    exact ⟨s', hs', hdoomed', hle'.trans hle⟩

/-- A process that was killed exits. -/
theorem doom_lt_of_killed (hobliging : c.Obliging) (hs : (c.node i).supervisor? p = some s)
    (hdoomed : s.Doomed) (hphase : s.phase = .watching) (hkilled : s.isKilled = true) :
    ∃ j s', i ≤ j ∧ (c.node j).supervisor? p = some s' ∧ s'.Doomed ∧ s'.doom < s.doom := by
  obtain ⟨j, result, hij, hexit⟩ := hobliging.exits i p s hs hphase hkilled
  obtain ⟨k, hk, hdoomed', hle⟩ := h.doomed_later hs hdoomed hij
  obtain ⟨-, s', act, hsteps, hs'⟩ := h.event hk hexit
  obtain ⟨hdoomed'', hdoom⟩ := hdoomed'.steps hsteps
  rcases hdoom with hlt | ⟨-, ⟨_, he⟩ | he | ⟨he, -⟩⟩
  · exact ⟨j + 1, s', hij.trans (Nat.le_succ j), hs', hdoomed'', by omega⟩
  · cases he
  · cases he
  · cases he

/-- As long as the exit reason of a doomed process is not published, it gets nearer to its end. -/
theorem doom_lt (hobliging : c.Obliging) (hs : (c.node i).supervisor? p = some s)
    (hdoomed : s.Doomed) (hexit : s.exit? = none) :
    ∃ j s', i ≤ j ∧ (c.node j).supervisor? p = some s' ∧ s'.Doomed ∧ s'.doom < s.doom := by
  rcases hdoomed.isBusy hexit with hbusy | ⟨hphase, hkilled⟩
  · obtain ⟨j, e, hij, he⟩ := hobliging.supervisor i p s hs hbusy
    obtain ⟨k, hk, hdoomed', hle⟩ := h.doomed_later hs hdoomed hij
    obtain ⟨hinner, s', act, hsteps, hs'⟩ := h.event hk he
    obtain ⟨hdoomed'', hdoom⟩ := hdoomed'.steps hsteps
    rcases hdoom with hlt | ⟨-, ⟨_, rfl⟩ | rfl | ⟨rfl, hkilled⟩⟩
    · exact ⟨j + 1, s', hij.trans (Nat.le_succ j), hs', hdoomed'', by omega⟩
    · cases hinner
    · cases hinner
    · -- only what comes after the kill is taken
      obtain ⟨l, s'', hjl, hs'', hdoomed₂, hlt⟩ :=
        h.doom_lt_of_killed hobliging hk hdoomed' hsteps.watching_of_take hkilled
      exact ⟨l, s'', hij.trans hjl, hs'', hdoomed₂, by omega⟩
  · exact h.doom_lt_of_killed hobliging hs hdoomed hphase hkilled

/-- A doomed process is gone in the end. -/
theorem exits_of_doomed (hobliging : c.Obliging) (hs : (c.node i).supervisor? p = some s)
    (hdoomed : s.Doomed) : ∃ j reason, i ≤ j ∧ (c.node j).exit? p = some reason := by
  induction hdoom : s.doom using Nat.strong_induction_on generalizing i s with
  | _ doom ih =>
    cases hexit : s.exit? with
    | some reason => exact ⟨i, reason, Nat.le_refl i, by rw [exit?, hs]; exact hexit⟩
    | none =>
      obtain ⟨j, s', hij, hs', hdoomed', hlt⟩ := h.doom_lt hobliging hs hdoomed hexit
      obtain ⟨k, reason, hjk, hreason⟩ := ih s'.doom (hdoom ▸ hlt) hs' hdoomed' rfl
      exact ⟨k, reason, hij.trans hjk, hreason⟩

end InTime

end Course

/-! ### Courses that come to rest -/

/-- All tasks have ended, and the exit reasons of all processes are published. -/
def AtRest (n : Node) : Prop :=
  (∀ e ∈ n.tasks.entries, e.2.work.isOver = true) ∧
    ∀ e ∈ n.processes.entries, e.2.exit?.isSome = true

/-- A move is made on time. -/
def OnTime (n : Node) (a : Move) : Prop :=
  (0 < a.elapsed → ∀ t ∈ n.tasks.keys, (n.run t).isNone = true) ∧
    ∀ e ∈ n.tasks.entries, ∀ time ∈ e.2.work.timers,
      n.clock < time → n.clock + a.elapsed ≤ time

/-- What a node waits for from outside is among the moves. -/
def Served (n : Node) (moves : List Move) : Prop :=
  (∀ t ∈ n.tasks.keys, (n.hostCall? t).isSome = true → ∃ a ∈ moves, a.host? = some t) ∧
    ∀ e ∈ n.processes.entries,
      (e.2.isBusy = true → ∃ a ∈ moves, a.process? = some e.1) ∧
        (e.2.phase = .watching ∧ e.2.isKilled = true → ∃ a ∈ moves, a.exit? = some e.1)

instance (n : Node) : Decidable n.AtRest := inferInstanceAs (Decidable (_ ∧ _))

instance (n : Node) (a : Move) : Decidable (n.OnTime a) := inferInstanceAs (Decidable (_ ∧ _))

instance (n : Node) (moves : List Move) : Decidable (n.Served moves) :=
  inferInstanceAs (Decidable (_ ∧ _))

/-- The moves can be made one after the other, all of them on time, what is waited for comes, and
    the node comes to rest. -/
def Fares (n : Node) : List Move → Prop
  | [] => n.AtRest
  | a :: rest => n.OnTime a ∧ n.Served (a :: rest) ∧ ∃ m ∈ n.move a, m.Fares rest

instance decidableFares : (n : Node) → (moves : List Move) → Decidable (n.Fares moves)
  | n, [] => inferInstanceAs (Decidable n.AtRest)
  | n, a :: rest =>
    have : ∀ m : Node, Decidable (m.Fares rest) := fun m => decidableFares m rest
    inferInstanceAs (Decidable (_ ∧ _ ∧ ∃ m ∈ n.move a, m.Fares rest))

variable {moves : List Move} {n m : Node} {w : Work} {id : InstanceId}

/-- A task that has ended is at nothing and has set nothing. -/
theorem Work.nothing_of_isOver (hover : w.isOver = true) : w.errand? = none ∧ w.timers = [] ∧
    ∀ (n : Node) (hasCaller : Bool), n.stepWork hasCaller w = none := by
  cases w with
  | gone => exact ⟨rfl, rfl, fun _ _ => rfl⟩
  | provision _ _ phase | monitor _ _ phase | deprovision _ _ phase | forward _ _ phase
  | report _ _ _ phase | drain phase =>
    cases phase with
    | ended => exact ⟨rfl, rfl, fun _ _ => rfl⟩
    | _ => cases hover

theorem OnTime.timely {a : Move} (h : n.OnTime a) : Step.Timely ⟨n, a, m⟩ := by
  refine ⟨fun hpos t => ?_, fun t w time ht htime => ?_⟩
  · cases hfind : n.tasks.find? t with
    | none => simp [run, hfind]
    | some task =>
      exact Option.isNone_iff_eq_none.1 (h.1 hpos t (n.tasks.mem_keys_iff.2 (hfind ▸ rfl)))
  · obtain ⟨task, hfind, rfl⟩ := Option.map_eq_some_iff.1 ht
    exact h.2 _ (n.tasks.mem_entries_iff.2 hfind) time htime

/-- Time may pass in a node that is at rest. -/
theorem AtRest.onTime (h : n.AtRest) (a : Move) : n.OnTime a := by
  refine ⟨fun _ t ht => ?_, fun e he time htime => ?_⟩
  · obtain ⟨task, hfind⟩ := Option.isSome_iff_exists.1 (n.tasks.mem_keys_iff.1 ht)
    obtain ⟨herrand, -, hstep⟩ :=
      Work.nothing_of_isOver (h.1 _ (n.tasks.mem_entries_iff.2 hfind))
    simp [run, hfind, herrand, hstep]
  · rw [(Work.nothing_of_isOver (h.1 e he)).2.1] at htime
    cases htime

/-- A node that is at rest waits for nothing. -/
theorem AtRest.served (h : n.AtRest) : n.Served [] := by
  refine ⟨fun t ht hcall => ?_, fun e he => ?_⟩
  · obtain ⟨task, hfind⟩ := Option.isSome_iff_exists.1 (n.tasks.mem_keys_iff.1 ht)
    have herrand := (Work.nothing_of_isOver (h.1 _ (n.tasks.mem_entries_iff.2 hfind))).1
    simp [hostCall?, hfind, herrand] at hcall
  · have hexit := h.2 e he
    cases hphase : e.2.phase with
    | ended =>
      rw [Supervisor.isBusy, hphase]
      exact ⟨fun hbusy => (by cases hbusy), fun hwatching => (by cases hwatching.1)⟩
    | watching | delivering | killing | cleaning =>
      rw [Supervisor.exit?, hphase] at hexit
      cases hexit

/-- A node that fares well makes the next move, or is at rest and lets time pass. -/
theorem Fares.next (h : n.Fares moves) : n.OnTime (moves.headD (.pass 1)) ∧ n.Served moves ∧
    ∃ m, n.move (moves.headD (.pass 1)) = some m ∧ m.Fares moves.tail := by
  cases moves with
  | nil => exact ⟨h.onTime _, h.served, _, rfl, h⟩
  | cons a rest => exact h

/-- What the first of the moves make of a node, and time after them. -/
def after (n : Node) (moves : List Move) : Nat → Node
  | 0 => n
  | i + 1 =>
    let m := n.after moves i
    (m.move (moves[i]?.getD (.pass 1))).getD m

/-- The moves are made, and then only time passes. -/
def Course.ofMoves (n : Node) (moves : List Move) : Course where
  node := n.after moves
  move i := moves[i]?.getD (.pass 1)

theorem move_ofMoves_of_lt {i : Nat} (hi : i < moves.length) :
    (Course.ofMoves n moves).move i = moves[i] := by
  show moves[i]?.getD _ = _
  rw [List.getElem?_eq_getElem hi]
  rfl

theorem move_ofMoves_of_le {i : Nat} (hi : moves.length ≤ i) :
    (Course.ofMoves n moves).move i = .pass 1 := by
  show moves[i]?.getD _ = _
  rw [List.getElem?_eq_none hi]
  rfl

/-- What is left of the moves fares as well. -/
theorem Fares.later (h : n.Fares moves) (i : Nat) : (n.after moves i).Fares (moves.drop i) := by
  induction i with
  | zero => exact h
  | succ i ih =>
    obtain ⟨-, -, m, hm, hrest⟩ := ih.next
    rw [List.headD_eq_head?_getD, List.head?_drop] at hm
    rw [after, hm, ← List.tail_drop]
    exact hrest

theorem Fares.step (h : n.Fares moves) (i : Nat) :
    ((Course.ofMoves n moves).step i).Timely ∧
      (n.after moves i).move ((Course.ofMoves n moves).move i) = some (n.after moves (i + 1)) := by
  obtain ⟨htime, -, m, hm, -⟩ := (h.later i).next
  rw [List.headD_eq_head?_getD, List.head?_drop] at htime hm
  refine ⟨htime.timely, hm.trans ?_⟩
  rw [after, hm]
  rfl

theorem Fares.clock (h : n.Fares moves) (i : Nat) :
    i ≤ (n.after moves i).clock + moves.length := by
  induction i with
  | zero => exact Nat.zero_le _
  | succ i ih =>
    rcases Nat.lt_or_ge i moves.length with hlt | hge
    · exact Nat.le_add_left_of_le hlt
    · have hnext := (h.step i).2
      rw [move_ofMoves_of_le hge] at hnext
      rw [← Option.some.inj hnext]
      show i + 1 ≤ _ + 1 + _
      omega

theorem fresh_ofMoves (hids : (provisioned moves).Nodup) {i j : Nat}
    (hi : ((Course.ofMoves n moves).move i).provision? = some id)
    (hj : ((Course.ofMoves n moves).move j).provision? = some id) : i = j := by
  have hget : ∀ {i}, ((Course.ofMoves n moves).move i).provision? = some id →
      ∃ hi : i < moves.length, moves[i].provision? = some id := fun {i} hi => by
    rcases Nat.lt_or_ge i moves.length with hlt | hge
    · exact ⟨hlt, move_ofMoves_of_lt hlt ▸ hi⟩
    · rw [move_ofMoves_of_le hge] at hi
      cases hi
  obtain ⟨hlt, hi⟩ := hget hi
  obtain ⟨hlt', hj⟩ := hget hj
  have hpair := List.pairwise_iff_getElem.1 (List.pairwise_filterMap.1 hids)
  rcases Nat.lt_trichotomy i j with hij | hij | hji
  · exact absurd rfl (hpair i j hlt hlt' hij id hi id hj)
  · exact hij
  · exact absurd rfl (hpair j i hlt' hlt hji id hj id hi)

/-- A node that fares well has a course in virtual time. -/
theorem Fares.inTime {config : NodeConfig} {ownerBase : Option Nat} (h : n.Fares moves)
    (hstart : Node.start config ownerBase = .ok n) (hids : (provisioned moves).Nodup) :
    (Course.ofMoves n moves).InTime config ownerBase := by
  refine ⟨hstart, fun i => (h.step i).2, fun _ _ _ => fresh_ofMoves hids, fun i => (h.step i).1,
    fun time => ⟨time + moves.length, ?_⟩⟩
  have := h.clock (time + moves.length)
  show _ ≤ (n.after moves _).clock
  omega

/-- What it waits for comes in that course. -/
theorem Fares.obliging (h : n.Fares moves) : (Course.ofMoves n moves).Obliging := by
  have hmem : ∀ {i a}, a ∈ moves.drop i → ∃ j, i ≤ j ∧ (Course.ofMoves n moves).move j = a :=
    fun {i a} ha => by
      obtain ⟨k, hk, rfl⟩ := List.mem_iff_getElem.1 ha
      rw [List.getElem_drop]
      exact ⟨i + k, Nat.le_add_right i k, move_ofMoves_of_lt _⟩
  -- the rest of the moves serves whoever waits, wherever the course has come to
  have hserved := fun i => (h.later i).next.2.1
  refine ⟨fun i t hcall => ?_, fun i p s hs hbusy => ?_, fun i p s hs hphase hkilled => ?_⟩
  · have ht : t ∈ (n.after moves i).tasks.keys := by
      obtain ⟨call, hcall⟩ := Option.isSome_iff_exists.1 hcall
      obtain ⟨task, hfind, -⟩ := Option.bind_eq_some_iff.1 hcall
      exact (Table.mem_keys_iff _).2 (Option.isSome_of_eq_some hfind)
    obtain ⟨a, ha, hhost⟩ := (hserved i).1 t ht hcall
    obtain ⟨j, hij, hj⟩ := hmem ha
    cases a with
    | host => cases hhost; exact ⟨j, _, hij, hj⟩
    | _ => cases hhost
  · obtain ⟨a, ha, hprocess⟩ := ((hserved i).2 _ (Table.mem_entries_iff _ |>.2 hs)).1 hbusy
    obtain ⟨j, hij, hj⟩ := hmem ha
    cases a with
    | process => cases hprocess; exact ⟨j, _, hij, hj⟩
    | _ => cases hprocess
  · obtain ⟨a, ha, hexit⟩ :=
      ((hserved i).2 _ (Table.mem_entries_iff _ |>.2 hs)).2 ⟨hphase, hkilled⟩
    obtain ⟨j, hij, hj⟩ := hmem ha
    cases a with
    | process _ e =>
      cases e with
      | exit => cases hexit; exact ⟨j, _, hij, hj⟩
      | _ => cases hexit
    | _ => cases hexit

end Node

end VmNode
