import VmNode.Proofs.Node.Record

/-!
# Runs

A run is a list of steps, each with the node before it and after it (`Node.steps`). What
holds along all runs of a node that was started, in which no identifier is given twice, is
proved by induction on `Node.Run`, which keeps the steps that were made so far.

An instance that has come far does not fall back (`Node.Since`), so what takes it on happens
once at most (`Node.Run.pairwise`). A process lives the life of a supervisor: what the supervisor
does along a run is all that can be read off its state (`Node.Run.acts_eq`), and before its
exit reason is published, the process has gone away and was cleaned up behind
(`Node.Run.exit_before_published`).
-/

namespace VmNode

namespace Node

/-- A move of a node, with the node before it and after it. -/
structure Step where
  /-- The node before the move. -/
  before : Node
  /-- The move. -/
  move : Move
  /-- The node after the move. -/
  after : Node

/-- The steps that moves one after the other make. -/
def steps (n : Node) : List Move → List Step
  | [] => []
  | a :: rest => (n.move a).elim [] fun m => ⟨n, a, m⟩ :: m.steps rest

/-- A node in order makes a move that gives no identifier twice. -/
structure Legal (ids : List InstanceId) (n : Node) (a : Move) (m : Node) : Prop where
  /-- The node is in order. -/
  tidy : n.Tidy ids
  /-- Processes are numbered in the order in which they were launched. -/
  numbered : n.processes.IsNumbered
  /-- The identifier of a new instance was not given before. -/
  new : ∀ id, a.provision? = some id → id ∉ ids
  /-- The move is possible, and leads to `m`. -/
  move : n.move a = some m

/-- A node was started, and has made these steps, in which it has provisioned instances with
    these identifiers. -/
inductive Run : List Step → List InstanceId → Node → Prop
  | start {config : NodeConfig} {ownerBase : Option Nat} {n : Node} :
    Node.start config ownerBase = .ok n → Run [] [] n
  | move {made : List Step} {ids : List InstanceId} {n m : Node} {a : Move} :
    Run made ids n → Legal ids n a m → Run (made ++ [⟨n, a, m⟩]) (ids ++ a.provision?.toList) m

variable {ids ids' : List InstanceId} {n m k : Node} {a : Move} {id : InstanceId} {t p : Nat}
variable {made : List Step} {moves : List Move}

namespace Legal

theorem pass (h : Legal ids n a m) : n.Pass a m := pass_of_move h.tidy h.move

theorem changes (h : Legal ids n a m) : Changes ids n (ids ++ a.provision?.toList) m :=
  Changes.of_move h.tidy h.new h.move

/-- A legal move leaves the node in order. -/
theorem after (h : Legal ids n a m) : m.Tidy (ids ++ a.provision?.toList) :=
  h.tidy.changes h.changes

theorem onTask (h : Legal ids n a m) (t : Nat) : n.OnTask a m t := h.pass.onTask h.tidy t

theorem onRecord (h : Legal ids n a m) (id : InstanceId) : n.OnRecord a m id :=
  h.pass.onRecord h.tidy id

theorem onProcess (h : Legal ids n a m) (p : Nat) : n.OnProcess a m p :=
  h.pass.onProcess h.tidy h.numbered p

theorem thorough (h : Legal ids n a m) (hn : n.Thorough ids) :
    m.Thorough (ids ++ a.provision?.toList) :=
  (h.changes.induct (P := fun ids n => n.Thorough ids) (fun hn h hchange => h.change hn hchange)
    h.tidy hn).2

theorem past (h : Legal ids n a m) (hpast : Past ids n id) :
    Past (ids ++ a.provision?.toList) m id :=
  (h.changes.induct (P := fun ids n => Past ids n id) (fun _ h hchange => h.change hchange)
    h.tidy hpast).2

/-- The task that a move lets go on does so. -/
theorem advance (h : Legal ids n a m) (ha : a.task? = some t) : ∃ work k work',
    n.work? t = some work ∧ n.Advance a work k work' ∧ m = k.setWork t work' ∧
      m.work? t = some work' := by
  cases h.pass with
  | @task _ u work work' k hu ht hadvance =>
    obtain rfl := Option.some.inj (ha.symm.trans hu)
    have hk := hadvance.work?_self h.tidy ht ha
    exact ⟨work, k, work', ht, hadvance, rfl, work?_setWork_self hk work'⟩
  | begin | leave | process | print | pass => cases ha

/-- An exit reason that is published stays. -/
theorem exit? (h : Legal ids n a m) {reason : ExitReason} (hexit : n.exit? p = some reason) :
    m.exit? p = some reason := by
  obtain ⟨s, hs, hreason⟩ := Option.bind_eq_some_iff.1 hexit
  have hstep : ∀ {e s' act}, s.step e = some (s', act) → m.supervisor? p = some s' →
      m.exit? p = some reason := fun hstep hs' => by
    rw [Node.exit?, hs', Option.bind_some]
    exact Supervisor.exit?_of_steps (Supervisor.steps_of_step hstep) hreason
  cases h.onProcess p with
  | idle _ heq => rw [Node.exit?, heq, hs, Option.bind_some, hreason]
  | launched _ _ hnone => cases hnone.symm.trans hs
  | request _ hs' hreq hm =>
    obtain rfl := Option.some.inj (hs.symm.trans hs')
    exact hstep hreq hm
  | event _ _ hs' hevent hm =>
    obtain rfl := Option.some.inj (hs.symm.trans hs')
    exact hstep hevent hm

end Legal

/-! ### Runs -/

/-- The node is in order along every run. -/
theorem Run.tidy (h : Run made ids n) : n.Tidy ids := by
  cases h with
  | start hstart => exact tidy_start hstart
  | move _ hlegal => exact hlegal.after

theorem Run.numbered (h : Run made ids n) : n.processes.IsNumbered := by
  cases h with
  | start hstart =>
    obtain rfl := start_eq_ok hstart
    exact Table.isNumbered_empty
  | move _ hlegal => exact (hlegal.pass.supervises hlegal.tidy).isNumbered hlegal.numbered

theorem Run.thorough (h : Run made ids n) : n.Thorough ids := by
  induction h with
  | start hstart => exact thorough_start hstart
  | move _ hlegal ih => exact hlegal.thorough ih

/-- A run goes on with moves that can be made and give new identifiers. -/
theorem Run.append (h : Run made ids n) (hids : (ids ++ provisioned moves).Nodup)
    (hplay : n.play moves = some m) :
    Run (made ++ n.steps moves) (ids ++ provisioned moves) m := by
  induction moves generalizing made ids n with
  | nil =>
    obtain rfl := Option.some.inj hplay
    simpa [steps, provisioned] using h
  | cons a rest ih =>
    obtain ⟨k, hmove, hrest⟩ := Option.bind_eq_some_iff.1 hplay
    have hlegal : Legal ids n a k := ⟨h.tidy, h.numbered, notMem_of_nodup hids, hmove⟩
    rw [append_provisioned_cons] at hids ⊢
    have := ih (h.move hlegal) hids hrest
    rwa [steps, hmove, Option.elim_some, List.append_cons]

/-- Moves that a node can make after its start make a run. -/
theorem run_of_play {config : NodeConfig} {ownerBase : Option Nat} {start : Node}
    (hstart : Node.start config ownerBase = .ok start) (hids : (provisioned moves).Nodup)
    (hplay : start.play moves = some n) : Run (start.steps moves) (provisioned moves) n := by
  simpa using (Run.start hstart).append hids hplay

theorem steps_concat : ∀ {n : Node}, n.play moves = some k → k.move a = some m →
    n.steps (moves ++ [a]) = n.steps moves ++ [⟨k, a, m⟩] := by
  induction moves with
  | nil =>
    intro n hplay hmove
    obtain rfl := Option.some.inj hplay
    simp only [List.nil_append, steps, hmove, Option.elim_some]
  | cons b rest ih =>
    intro n hplay hmove
    obtain ⟨v, hv, hrest⟩ := Option.bind_eq_some_iff.1 hplay
    rw [List.cons_append, steps, steps, hv, Option.elim_some, Option.elim_some, ih hrest hmove]
    rfl

theorem move_mem_of_mem_steps {s : Step} : ∀ {n : Node}, s ∈ n.steps moves → s.move ∈ moves := by
  induction moves with
  | nil => exact fun hs => by cases hs
  | cons a rest ih =>
    intro n hs
    rw [steps] at hs
    cases hmove : n.move a with
    | none =>
      rw [hmove] at hs
      cases hs
    | some k =>
      rw [hmove] at hs
      rcases List.mem_cons.1 hs with rfl | hs
      · exact List.mem_cons_self
      · exact List.mem_cons_of_mem a (ih hs)

/-- Each step of a run follows a shorter run. -/
theorem Run.split {before after : List Step} {s : Step} (h : Run made ids n)
    (hmade : made = before ++ s :: after) :
    ∃ ids', Run before ids' s.before ∧ Legal ids' s.before s.move s.after := by
  induction h generalizing after with
  | start => cases before <;> cases hmade
  | @move made ids n m a hrun hlegal ih =>
    rcases List.eq_nil_or_concat after with rfl | ⟨rest, last, rfl⟩
    · obtain ⟨rfl, hs⟩ := List.append_inj' hmade rfl
      obtain rfl := List.singleton_inj.1 hs
      exact ⟨ids, hrun, hlegal⟩
    · rw [List.concat_eq_append, ← List.cons_append, ← List.append_assoc] at hmade
      exact ih (List.append_inj' hmade rfl).1

/-- Every step of a run is a legal move of a node that another run leads to. -/
theorem Run.of_mem {s : Step} (h : Run made ids n) (hs : s ∈ made) :
    ∃ before ids', Run before ids' s.before ∧ Legal ids' s.before s.move s.after := by
  obtain ⟨before, after, hmade⟩ := List.append_of_mem hs
  obtain ⟨ids', hsplit⟩ := h.split hmade
  exact ⟨before, ids', hsplit⟩

/-- What a step brings about for good is there from then on. -/
theorem Run.lasts {B : Step → Prop} {Q : List InstanceId → Node → Prop}
    (hfirst : ∀ {ids n a m}, Legal ids n a m → B ⟨n, a, m⟩ → Q (ids ++ a.provision?.toList) m)
    (hkeep : ∀ {ids n a m}, Legal ids n a m → Q ids n → Q (ids ++ a.provision?.toList) m)
    (h : Run made ids n) : ∀ s ∈ made, B s → Q ids n := by
  induction h with
  | start => exact fun s hs => by cases hs
  | @move made ids n m a _ hlegal ih =>
    intro s hs hb
    rcases List.mem_append.1 hs with hs | hs
    · exact hkeep hlegal (ih s hs hb)
    · obtain rfl := List.mem_singleton.1 hs
      exact hfirst hlegal hb

/-- What rules something out for good is not followed by it. -/
theorem Run.pairwise {B B' : Step → Prop} {Q : List InstanceId → Node → Prop}
    (hfirst : ∀ {ids n a m}, Legal ids n a m → B ⟨n, a, m⟩ → Q (ids ++ a.provision?.toList) m)
    (hkeep : ∀ {ids n a m}, Legal ids n a m → Q ids n → Q (ids ++ a.provision?.toList) m)
    (hnever : ∀ {ids n a m}, Legal ids n a m → Q ids n → ¬ B' ⟨n, a, m⟩) (h : Run made ids n) :
    made.Pairwise fun s s' => ¬ (B s ∧ B' s') := by
  induction h with
  | start => exact .nil
  | @move made ids n m a hrun hlegal ih =>
    refine List.pairwise_append.2 ⟨ih, List.pairwise_singleton .., fun s hs s' hs' => ?_⟩
    obtain rfl := List.mem_singleton.1 hs'
    exact fun ⟨hb, hb'⟩ => hnever hlegal (hrun.lasts hfirst hkeep s hs hb) hb'

/-- A task that is not on an errand takes a step of its own. -/
theorem run_of_stepWork {work work' : Work} (ht : n.work? t = some work)
    (herrand : work.errand? = none)
    (hstep : ∀ hasCaller, n.stepWork hasCaller work = some (k, work')) :
    n.run t = some (k.setWork t work') := by
  obtain ⟨task, hfind, rfl⟩ := Option.map_eq_some_iff.1 ht
  simp only [run, hfind, herrand, hstep, Option.map_some]

/-! ### Instances that have come far -/

/-- The instance was provisioned, and its record, if it is there, has come at least so far. -/
def Since (rank : Nat) (ids : List InstanceId) (n : Node) (id : InstanceId) : Prop :=
  Past ids n id ∧ ∀ r, n.registry.records.find? id = some r → rank ≤ r.state.rank

/-- An instance whose record has the state has come so far. -/
theorem Tidy.since_of_find? (hn : n.Tidy ids) {r : Record Nat} {rank : Nat}
    (hfind : n.registry.records.find? id = some r) (hrank : rank ≤ r.state.rank) :
    Since rank ids n id := by
  refine ⟨hn.past_of_find? hfind, fun r' hfind' => ?_⟩
  obtain rfl := Option.some.inj (hfind.symm.trans hfind')
  exact hrank

/-- It has then come so far for good. -/
theorem Since.legal {rank : Nat} (h : Since rank ids n id) (hlegal : Legal ids n a m) :
    Since rank (ids ++ a.provision?.toList) m id := by
  refine ⟨hlegal.past h.1, fun r' hfind' => ?_⟩
  cases hlegal.onRecord id with
  | idle heq => exact h.2 r' (heq.symm.trans hfind')
  | inserted _ ht =>
    cases h.1.2 .leasing (.of_work? ht (if_pos rfl))
  | edited _ _ _ hfind hm hedits =>
    obtain rfl := Option.some.inj (hm.symm.trans hfind')
    rcases hedits.state with hstate | hmove
    · rw [hstate]
      exact h.2 _ hfind
    · exact (h.2 _ hfind).trans (InstanceState.rank_le_of_canMoveTo hmove)
  | removed _ _ _ _ hnone => cases hnone.symm.trans hfind'

/-! ### Processes -/

/-- What the supervisor of a process does in a step. -/
def Step.act? (p : Nat) : Step → Option Supervisor.Act
  | ⟨n, .process q e, _⟩ => if q = p then (n.stepProcess q e).bind (·.2) else none
  | _ => none

/-- What a supervisor has done along a run is what can be read off its state. -/
theorem Run.acts_eq (h : Run made ids n) (p : Nat) :
    made.filterMap (Step.act? p) = (n.supervisor? p).elim [] Supervisor.deeds := by
  induction h with
  | start hstart =>
    obtain rfl := start_eq_ok hstart
    rfl
  | @move made ids n m a hrun hlegal ih =>
    have hquiet : (∀ e, a ≠ .process p e) → Step.act? p ⟨n, a, m⟩ = none := fun ha => by
      cases a with
      | process q e =>
        refine if_neg ?_
        rintro rfl
        exact ha e rfl
      | _ => rfl
    rw [List.filterMap_append, ih, List.filterMap_cons]
    cases hlegal.onProcess p with
    | idle ha heq => simp [hquiet ha, heq]
    | launched ha _ hnone hm =>
      rw [hquiet (by rw [ha]; nofun), hm, hnone]
      rfl
    | request ha hs hreq hm =>
      -- a request changes the queue, and nothing is done yet
      have hdeeds := (Supervisor.steps_of_step hreq).deeds
      rw [hquiet ha, hs, hm]
      simpa using hdeeds.symm
    | @event e s s' act ha hinner hs hevent hm =>
      -- what the supervisor does in the step is what its state tells more
      have hact : Step.act? p ⟨n, a, m⟩ = act := by
        rw [ha]
        refine (if_pos rfl).trans ?_
        rw [stepProcess, if_pos hinner, hs, Option.bind_some, hevent]
        rfl
      have hdeeds := (Supervisor.steps_of_step hevent).deeds
      rw [hact, hs, hm, Option.elim_some, Option.elim_some, hdeeds]
      cases act <;> rfl

/-- A supervisor does nothing twice. -/
theorem Run.count_acts_le (h : Run made ids n) (p : Nat) (act : Supervisor.Act) :
    (made.filterMap (Step.act? p)).count act ≤ 1 := by
  rw [h.acts_eq]
  cases n.supervisor? p with
  | none => exact Nat.zero_le 1
  | some s => exact s.count_deeds_le act

/-- Along a run a process lives the life of a supervisor. -/
theorem Run.events (h : Run made ids n) : ∀ {s}, n.supervisor? p = some s →
    ∃ events, Supervisor.start.play events = some s ∧
      ((events.filter isInner).map (Move.process p)).Sublist (made.map Step.move) := by
  induction h with
  | start hstart =>
    obtain rfl := start_eq_ok hstart
    exact fun hs => by cases hs
  | @move made ids n m a hrun hlegal ih =>
    intro s hs
    have hmap : (made ++ [(⟨n, a, m⟩ : Step)]).map Step.move = made.map Step.move ++ [a] := by simp
    rw [hmap]
    cases hlegal.onProcess p with
    | idle _ heq =>
      obtain ⟨events, hplay, hsub⟩ := ih (heq.symm.trans hs)
      exact ⟨events, hplay, hsub.trans (List.sublist_append_left ..)⟩
    | launched _ _ _ hm =>
      -- nothing has happened to a new process
      obtain rfl := Option.some.inj (hm.symm.trans hs)
      exact ⟨[], rfl, List.nil_sublist _⟩
    | @request s' s'' r _ hs' hreq hm =>
      -- a request comes from a call, and is no move of the process
      obtain rfl := Option.some.inj (hm.symm.trans hs)
      obtain ⟨events, hplay, hsub⟩ := ih hs'
      refine ⟨events ++ [.request r], Supervisor.play_concat hplay hreq, ?_⟩
      rw [List.filter_append, List.filter_singleton]
      simpa [isInner] using hsub.trans (List.sublist_append_left ..)
    | @event e s' s'' act ha hinner hs' hevent hm =>
      -- the event is the move
      obtain rfl := Option.some.inj (hm.symm.trans hs)
      obtain ⟨events, hplay, hsub⟩ := ih hs'
      refine ⟨events ++ [e], Supervisor.play_concat hplay hevent, ?_⟩
      rw [List.filter_append, List.filter_singleton, hinner, ha, List.map_append]
      exact hsub.append (List.Sublist.refl _)

/-- Before the exit reason of a process is published, the process has gone away, and its
    supervisor has cleaned up behind it. -/
theorem Run.exit_before_published (h : Run made ids n) {reason : ExitReason}
    (hexit : n.exit? p = some reason) :
    ∃ result, [.process p (.exit result), .process p .cleaned].Sublist (made.map Step.move) := by
  obtain ⟨s, hs, hreason⟩ := Option.bind_eq_some_iff.1 hexit
  obtain ⟨events, hplay, hsub⟩ := h.events hs
  obtain ⟨result, hexits⟩ := Supervisor.exit_before_cleaned hplay rfl (by rw [hreason]; rfl)
  exact ⟨result, ((hexits.filter isInner).map _).trans hsub⟩

end Node

end VmNode
