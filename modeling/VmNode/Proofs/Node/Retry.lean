import VmNode.Proofs.Node.Gone
import VmNode.Proofs.Node.Run

/-!
# Calls that look again

A call that deprovisions an instance reads its state and, if it is `running`, tries to move it
on. Somebody else may be faster, and then the call looks again. It does so once at most: from
then on the instance has come further than `running`, for good (`Node.Run.tries`).

So reading the state takes two rounds at most and never waits, and what a call can fail with is
what it reads: that there is no instance, or that it is still being provisioned
(`Node.retries_of_play`).
-/

namespace VmNode

/-- The state of the instance is about to be read. -/
def Work.isLooking : Work → Bool
  | .deprovision _ _ .look => true
  | _ => false

/-- The instance may still be being provisioned, which a drain waits for. -/
def DeprovisionPhase.isSettling : DeprovisionPhase → Bool
  | .settle _ | .rest .. => true
  | _ => false

/-- How often a call can have read the state, by its phase, and how far its instance must have
    come then. -/
def DeprovisionPhase.Tries (come : Nat → Prop) (looks : Nat) : DeprovisionPhase → Prop
  | .settle _ | .rest .. => looks = 0
  | .look => looks = 0 ∨ looks = 1 ∧ come 2
  | .enter => looks = 1 ∧ come 1
  | _ => looks ≤ 2

theorem DeprovisionPhase.Tries.mono {come come' : Nat → Prop} {looks : Nat}
    {phase : DeprovisionPhase} (h : phase.Tries come looks)
    (hcome : ∀ rank, come rank → come' rank) : phase.Tries come' looks := by
  cases phase with
  | look => exact h.imp_right fun ⟨hlooks, h⟩ => ⟨hlooks, hcome 2 h⟩
  | enter => exact ⟨h.1, hcome 1 h.2⟩
  | _ => exact h

theorem DeprovisionPhase.Tries.le {come : Nat → Prop} {looks : Nat} {phase : DeprovisionPhase}
    (h : phase.Tries come looks) : looks ≤ 2 := by
  cases phase with
  | settle | rest => exact Nat.le_trans (Nat.le_of_eq h) (by decide)
  | look => rcases h with h | ⟨h, -⟩ <;> omega
  | enter => exact Nat.le_trans (Nat.le_of_eq h.1) (by decide)
  | _ => exact h

/-- Of the states that an instance has after being provisioned, all but `running` are beyond
    it. -/
theorem InstanceState.two_le_rank {s : InstanceState} (h : 1 ≤ s.rank) (hne : s ≠ .running) :
    2 ≤ s.rank := by
  revert h hne
  cases s <;> decide

namespace Node

variable {ids : List InstanceId} {n m k : Node} {a : Move} {id : InstanceId} {t count : Nat}
variable {made : List Step} {moves : List Move} {timeout : Nat} {phase phase' : DeprovisionPhase}

/-- In a step a task reads the state of its instance, at the head of its loop. -/
def Step.looks (t : Nat) (s : Step) : Bool :=
  s.move.task? == some t && (s.before.work? t).any Work.isLooking

/-- How often a task can have read the state of its instance. -/
def Tries (ids : List InstanceId) (n : Node) (count : Nat) : Work → Prop
  | .deprovision id _ phase => phase.Tries (fun rank => Since rank ids n id) count
  | _ => count = 0

theorem Tries.of_deprovision (h : Tries ids n count (.deprovision id timeout phase)) :
    phase.Tries (fun rank => Since rank ids n id) count := h

theorem Tries.le {work : Work} (h : Tries ids n count work) : count ≤ 2 := by
  cases work with
  | deprovision => exact h.of_deprovision.le
  | _ => exact Nat.le_trans (Nat.le_of_eq h) (by decide)

theorem Tries.legal {work : Work} (h : Tries ids n count work) (hlegal : Legal ids n a m) :
    Tries (ids ++ a.provision?.toList) m count work := by
  cases work with
  | deprovision => exact h.of_deprovision.mono fun _ hsince => hsince.legal hlegal
  | _ => exact h

/-- A call that goes on has read the state once more, if it was about to. -/
theorem Tries.deprovisions (h : Tries ids n count (.deprovision id timeout phase))
    (hlegal : Legal ids n a m) (hsteps : n.Deprovisions id timeout phase k phase') :
    Tries (ids ++ a.provision?.toList) m
      (count + if (Work.deprovision id timeout phase).isLooking then 1 else 0)
      (.deprovision id timeout phase') := by
  -- the instance comes so far as the record says that is found now
  have hsince : ∀ {r rank}, n.registry.records.find? id = some r → rank ≤ r.state.rank →
      Since rank (ids ++ a.provision?.toList) m id :=
    fun hfind hrank => (hlegal.tidy.since_of_find? hfind hrank).legal hlegal
  have hlooked : phase = .look → count + 1 ≤ 2 := by
    rintro rfl
    rcases h with h | ⟨h, -⟩ <;> omega
  cases hsteps with
  | rest | wake => exact h
  | settled => exact .inl h
  | @see r hfind hstate =>
    rcases h with rfl | ⟨-, hcome⟩
    · exact ⟨rfl, hsince hfind (by rw [hstate]; exact Nat.le_refl 1)⟩
    · -- the instance was further on already
      have hrank := hcome.2 r hfind
      rw [hstate] at hrank
      exact absurd hrank (by decide)
  | retry hfind hne =>
    obtain ⟨rfl, hcome⟩ := h
    exact .inr ⟨rfl, hsince hfind (InstanceState.two_le_rank (hcome.2 _ hfind) hne)⟩
  | unknown | early | follow | late => exact hlooked rfl
  | _ => exact h.le

/-- Nobody reads the state while a lease is given back. -/
theorem Tries.resume {work : Work} {e : Errand} {progress : Errand.Progress}
    (h : Tries ids n count work) (herrand : work.errand? = some e) : work.isLooking = false ∧
      ∀ ids m, Tries ids m count (work.resume progress) := by
  cases work with
  | deprovision id timeout phase =>
    have hle := h.le
    cases phase with
    | giveBackReaped | giveBack => exact ⟨rfl, fun _ _ => by cases progress <;> exact hle⟩
    | _ => cases herrand
  | _ => exact ⟨rfl, fun _ _ => h⟩

/-- Whatever happens, a call reads the state of its instance twice at most. -/
theorem Run.tries (h : Run made ids n) (t : Nat) :
    (n.work? t).elim (made.countP (Step.looks t) = 0)
      (Tries ids n (made.countP (Step.looks t))) := by
  induction h with
  | start hstart =>
    obtain rfl := start_eq_ok hstart
    exact rfl
  | @move made ids n m a hrun hlegal ih =>
    rw [List.countP_append, List.countP_singleton]
    by_cases ha : a.task? = some t
    · -- the task takes a step, which counts if it reads the state
      obtain ⟨work, k, work', ht, hadvance, rfl, hm⟩ := hlegal.advance ha
      have hlooks : Step.looks t ⟨n, a, k.setWork t work'⟩ = work.isLooking := by
        simp [Step.looks, ha, ht]
      rw [ht] at ih
      rw [hm, hlooks]
      cases hadvance with
      | deprovision hsteps => exact Tries.deprovisions ih hlegal hsteps
      | errand herrand _ heq | answer herrand _ heq =>
        obtain ⟨hstill, htries⟩ := Tries.resume ih herrand
        rw [hstill, heq]
        exact htries ..
      | _ => exact ih
    · -- somebody else moves, and the task is where it was, or begins, or loses its caller
      have hlooks : Step.looks t ⟨n, a, m⟩ = false := by simp [Step.looks, ha]
      rw [hlooks, if_neg Bool.false_ne_true, Nat.add_zero]
      cases hlegal.onTask t with
      | idle heq =>
        rw [heq]
        cases ht : n.work? t with
        | none =>
          rw [ht] at ih
          exact ih
        | some work =>
          rw [ht] at ih
          exact Tries.legal ih hlegal
      | @begun w hnone hw hbegun =>
        rw [hnone] at ih
        rw [hw]
        cases w with
        | deprovision =>
          rcases hbegun.of_deprovision with rfl | ⟨_, rfl⟩
          · exact .inl ih
          · exact ih
        | _ => exact ih
      | goes hgoes => exact absurd hgoes ha
      | @dropped w ht hbound hgone =>
        rw [ht] at ih
        rw [hgone]
        cases w with
        | deprovision _ _ phase => cases phase <;> first | exact ih | cases hbound
        | _ => exact ih

/-! ### What calls fail with -/

/-- A call fails in a step, by what it reads. -/
inductive Step.Fails (t : Nat) (id : InstanceId) (s : Step) : Error → Prop
  /-- There is no instance, neither when its state is read nor when it is moved on. -/
  | unknown {timeout : Nat} {phase : DeprovisionPhase} : phase = .look ∨ phase = .enter →
    s.before.work? t = some (.deprovision id timeout phase) →
    s.before.registry.records.find? id = none → Fails t id s (.instanceNotFound id)
  /-- The instance is being provisioned when its state is read. -/
  | early {timeout : Nat} {r : Record Nat} :
    s.before.work? t = some (.deprovision id timeout .look) →
    s.before.registry.records.find? id = some r → r.state = .provisioning →
    Fails t id s (notRunning .provisioning)

/-- A call fails in a step that a drain has begun, and while it waits for its instance to be
    provisioned. -/
inductive Step.Abandons (t : Nat) (id : InstanceId) (s : Step) : Error → Prop
  /-- There is no instance any more. -/
  | missing {timeout limit : Nat} :
    s.before.work? t = some (.deprovision id timeout (.settle limit)) →
    s.before.registry.records.find? id = none → Abandons t id s (.instanceNotFound id)
  /-- It has taken too long. -/
  | overdue {timeout limit wake : Nat} {message : String} :
    s.before.work? t = some (.deprovision id timeout (.rest limit wake)) →
    limit ≤ s.before.clock → Abandons t id s (.timeout message)

/-- Whoever waits is not done with waiting. -/
theorem Step.Abandons.isSettling {s : Step} {e : Error} (h : s.Abandons t id e)
    (ht : s.before.work? t = some (.deprovision id timeout phase)) : phase.isSettling = true := by
  cases h with
  | missing hold | overdue hold =>
    cases ht.symm.trans hold
    rfl

/-- Whoever waits does so from the beginning. -/
theorem Deprovisions.isSettling (h : n.Deprovisions id timeout phase m phase')
    (hphase : phase.isSettling = false) : phase'.isSettling = false := by
  cases h with
  | missing | rest | settled | wake | giveUp => cases hphase
  | _ => rfl

/-- A call that ends with an error in a step has failed in it. -/
theorem Legal.fails (h : Legal ids n a m) (ht : n.work? t = some (.deprovision id timeout phase))
    {e : Error} (hm : m.work? t = some (.deprovision id timeout (.ended (.error e))))
    (hgoing : phase ≠ .ended (.error e)) : a = .run t ∧
      (Step.Fails t id ⟨n, a, m⟩ e ∨ Step.Abandons t id ⟨n, a, m⟩ e) := by
  have hstay : ∀ {w}, m.work? t = some w → n.work? t = some w → False := fun hw hold => by
    cases hw.symm.trans hm
    cases ht.symm.trans hold
    exact hgoing rfl
  cases h.onTask t with
  | idle heq => exact (hstay hm (heq.symm.trans hm)).elim
  | begun hnone => cases hnone.symm.trans ht
  | dropped _ _ hgone => cases hgone.symm.trans hm
  | goes ha hold hadvance _ hw =>
    obtain rfl := Option.some.inj (hold.symm.trans ht)
    obtain rfl := Option.some.inj (hw.symm.trans hm)
    cases hadvance with
    | @errand _ _ _ _ progress _ herrand _ heq | @answer _ _ _ _ _ progress herrand _ heq =>
      -- whoever gives a lease back does not fail
      cases phase with
      | giveBackReaped | giveBack => cases progress <;> cases heq
      | _ => cases herrand
    | deprovision hsteps =>
      cases ha
      refine ⟨rfl, ?_⟩
      cases hsteps with
      | missing hnone => exact .inr (.missing ht hnone)
      | giveUp _ hlimit => exact .inr (.overdue ht hlimit)
      | unknown hnone => exact .inl (.unknown (.inl rfl) ht hnone)
      | lost hnone => exact .inl (.unknown (.inr rfl) ht hnone)
      | early hfind hstate => exact .inl (.early ht hfind hstate)

/-- A call that has ended with an error has failed in a step. -/
theorem Run.fails (h : Run made ids n) : ∀ {t id timeout e},
    n.work? t = some (.deprovision id timeout (.ended (.error e))) →
    ∃ s ∈ made, s.move = .run t ∧ (s.Fails t id e ∨ s.Abandons t id e) := by
  induction h with
  | start hstart =>
    obtain rfl := start_eq_ok hstart
    exact fun ht => by cases ht
  | @move made ids n m a hrun hlegal ih =>
    intro t id timeout e hm
    rcases (hlegal.onTask t).of_deprovision hm rfl with hold | hbegun | ⟨phase, k, ht, hsteps, -⟩
    · obtain ⟨s, hs, hfails⟩ := ih hold
      exact ⟨s, List.mem_append_left _ hs, hfails⟩
    · rcases hbegun with hphase | ⟨_, hphase⟩ <;> cases hphase
    · have hgoing : phase ≠ .ended (.error e) := fun heq => by
        subst heq
        cases hsteps
      obtain ⟨ha, hfails⟩ := hlegal.fails ht hm hgoing
      exact ⟨_, List.mem_append_right _ (List.mem_singleton_self _), ha, hfails⟩

/-- A call that was made stays a call, does not wait for an instance to be provisioned, and if it
    has failed then by what it has read. -/
theorem Run.calls (h : Run made ids n) : ∀ {s : Step} {id : InstanceId} {o : Option Nat},
    s ∈ made → s.move = .begin (.deprovision id o) →
    ∃ timeout phase, n.work? s.before.tasks.size = some (.deprovision id timeout phase) ∧
      phase.isSettling = false ∧ ∀ e, phase = .ended (.error e) →
        ∃ s' ∈ made, s'.move = .run s.before.tasks.size ∧ s'.Fails s.before.tasks.size id e := by
  induction h with
  | start => exact fun hs => by cases hs
  | @move made ids n m a hrun hlegal ih =>
    intro s id o hs ha
    rcases List.mem_append.1 hs with hs | hs
    · -- the call was made before this move
      obtain ⟨timeout, phase, ht, hsettling, hfails⟩ := ih hs ha
      cases hlegal.onTask s.before.tasks.size with
      | idle heq =>
        refine ⟨timeout, phase, heq.trans ht, hsettling, fun e he => ?_⟩
        obtain ⟨s', hs', hfails⟩ := hfails e he
        exact ⟨s', List.mem_append_left _ hs', hfails⟩
      -- the task is there already
      | begun hnone => cases hnone.symm.trans ht
      | dropped hold hbound =>
        obtain rfl := Option.some.inj (hold.symm.trans ht)
        cases phase with
        | settle | rest => cases hsettling
        | _ => cases hbound
      | goes _ hold hadvance _ hm =>
        obtain rfl := Option.some.inj (hold.symm.trans ht)
        -- whatever the call does next, it does not begin to wait for an instance to settle
        obtain ⟨phase', rfl, hsettling', hgoing⟩ : ∃ phase',
            _ = Work.deprovision id timeout phase' ∧ phase'.isSettling = false ∧
              ∀ e, phase ≠ .ended (.error e) := by
          cases hadvance with
          | @errand _ _ _ _ progress _ herrand _ heq | @answer _ _ _ _ _ progress herrand _ heq =>
            cases phase with
            | giveBackReaped | giveBack =>
              exact ⟨_, heq, by cases progress <;> rfl, fun e heq => by cases heq⟩
            | _ => cases herrand
          | deprovision hsteps =>
            exact ⟨_, rfl, hsteps.isSettling hsettling, fun e heq => by subst heq; cases hsteps⟩
        refine ⟨timeout, phase', hm, hsettling', fun e he => ?_⟩
        subst he
        obtain ⟨ha, hfails⟩ := hlegal.fails ht hm (hgoing e)
        refine ⟨_, List.mem_append_right _ (List.mem_singleton_self _), ha,
          hfails.resolve_right fun h => ?_⟩
        cases hsettling.symm.trans (h.isSettling ht)
    · -- the call is made by this move, and is yet to read the state
      obtain rfl := List.mem_singleton.1 hs
      subst ha
      obtain rfl := Option.some.inj hlegal.move
      exact ⟨_, .look, congrArg (Option.map Task.work) (Table.find?_insert_self ..), rfl,
        fun e he => by cases he⟩

/-- Reading the state of an instance does not wait, and neither does moving it on. -/
theorem exists_run_of_looking (ht : n.work? t = some (.deprovision id timeout phase))
    (hphase : phase = .look ∨ phase = .enter) : ∃ m, n.run t = some m := by
  have hstep : ∃ k phase', n.stepDeprovision id timeout phase = some (k, phase') := by
    rcases hphase with rfl | rfl
    · rw [stepDeprovision]
      split
      · exact ⟨_, _, rfl⟩
      · split <;> exact ⟨_, _, rfl⟩
    · rw [stepDeprovision]
      split <;> exact ⟨_, _, rfl⟩
  obtain ⟨k, phase', hstep⟩ := hstep
  have herrand : (Work.deprovision id timeout phase).errand? = none := by
    rcases hphase with rfl | rfl <;> rfl
  exact ⟨_, run_of_stepWork ht herrand fun _ => by rw [stepWork, hstep]; rfl⟩

/-- How calls that deprovision instances come through their loop, and what they fail with. -/
structure Retries (made : List Step) (n : Node) : Prop where
  /-- A task reads the state of its instance twice at most. -/
  twice : ∀ t, made.countP (Step.looks t) ≤ 2
  /-- Who has read it twice is out of the loop. -/
  left : ∀ t id timeout phase, n.work? t = some (.deprovision id timeout phase) →
    made.countP (Step.looks t) = 2 → phase ≠ .look ∧ phase ≠ .enter
  /-- In the loop a task can always go on. -/
  ready : ∀ t id timeout phase, n.work? t = some (.deprovision id timeout phase) →
    phase = .look ∨ phase = .enter → ∃ m, n.run t = some m
  /-- A task fails by what it reads in the loop, or in what a drain does before. -/
  fails : ∀ t id timeout e, n.work? t = some (.deprovision id timeout (.ended (.error e))) →
    ∃ s ∈ made, s.move = .run t ∧ (s.Fails t id e ∨ s.Abandons t id e)
  /-- A call that was made fails by what it reads in the loop. -/
  calls : ∀ s ∈ made, ∀ id o, s.move = .begin (.deprovision id o) →
    ∃ timeout phase, n.work? s.before.tasks.size = some (.deprovision id timeout phase) ∧
      ∀ e, phase = .ended (.error e) →
        ∃ s' ∈ made, s'.move = .run s.before.tasks.size ∧ s'.Fails s.before.tasks.size id e

/-- Whatever calls are made and however the steps of tasks fall between each other, as long as no
    two instances get one identifier, a call that deprovisions an instance reads its state twice
    at most, never waits in between, and fails only if it reads that there is no instance or that
    it is being provisioned. -/
theorem retries_of_play {config : NodeConfig} {ownerBase : Option Nat} {start : Node}
    (hstart : Node.start config ownerBase = .ok start) (hids : (provisioned moves).Nodup)
    (hplay : start.play moves = some n) : Retries (start.steps moves) n := by
  have hrun := run_of_play hstart hids hplay
  refine ⟨fun t => ?_, fun t id timeout phase ht htwice => ?_, fun _ _ _ _ => exists_run_of_looking,
    fun _ _ _ _ => hrun.fails, fun s hs id o ha => ?_⟩
  · have htries := hrun.tries t
    cases ht : n.work? t with
    | none =>
      rw [ht] at htries
      exact Nat.le_trans (Nat.le_of_eq htries) (by decide)
    | some work =>
      rw [ht] at htries
      exact Tries.le htries
  · have htries := hrun.tries t
    rw [ht, htwice] at htries
    constructor <;> rintro rfl
    · rcases htries with h | ⟨h, -⟩ <;> cases h
    · cases htries.1
  · obtain ⟨timeout, phase, ht, -, hfails⟩ := hrun.calls hs ha
    exact ⟨timeout, phase, ht, hfails⟩

/-- Two calls deprovision an instance, and the second is faster in moving it on. A third one is
    about an instance that there is not. -/
def overtaken : List Move :=
  raised ++ [.begin (.deprovision "i-1" none), .begin (.deprovision "i-1" none),
    .begin (.deprovision "i-2" none), .run 2, .run 3, .run 3, .run 2, .run 2, .run 4]

/-- The first call reads the state twice and then waits for the second; the third one fails. -/
theorem retries_overtaken : ∃ start n, Node.start {} none = .ok start ∧
    (provisioned overtaken).Nodup ∧ start.play overtaken = some n ∧
    Retries (start.steps overtaken) n ∧ (start.steps overtaken).countP (Step.looks 2) = 2 ∧
    n.work? 2 = some (.deprovision "i-1" 3000 .listen) ∧
    n.work? 4 = some (.deprovision "i-2" 3000 (.ended (.error (.instanceNotFound "i-2")))) := by
  let n := (blank.play overtaken).get (by decide +kernel)
  have hplay : blank.play overtaken = some n := (Option.some_get _).symm
  have hids : (provisioned overtaken).Nodup := by decide +kernel
  exact ⟨blank, n, start_blank, hids, hplay, retries_of_play start_blank hids hplay,
    by decide +kernel, by decide +kernel, by decide +kernel⟩

end Node

end VmNode
