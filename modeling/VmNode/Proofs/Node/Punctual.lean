import VmNode.Proofs.Node.Drain
import VmNode.Proofs.Node.Provision
import VmNode.Proofs.Node.Retry

/-!
# Steps on time

In virtual time a task that can go on does so at once, and whoever waits for a time goes on when
it has come: time passes only while no task can take a step, and never beyond a time for which a
task has set something (`Node.Step.Timely`).

Between the time when a record is inserted and the time when it leaves `provisioning`, the only
phase that lasts is the launch, which has a deadline. So if all steps are on time, no record is
`provisioning` for longer than a launch may take (`Node.Run.clock_le_of_provisioning`). The call
of a drain that lets an instance settle has more time than that (`Node.Run.patient`), and never
gives up (`Node.Run.not_timeout`), so a drain has no failures (`Node.Run.failures_eq_nil`).
-/

namespace VmNode

/-- How long a move takes, in milliseconds. -/
def Move.elapsed : Move → Nat
  | .pass ms => ms
  | _ => 0

/-- What a call that provisions an instance has come to at a time, if the record was inserted at
    the time `start` and a launch may take so long. -/
def ProvisionPhase.DueBy (start limit clock : Nat) : ProvisionPhase → Prop
  | .openConsole _ => clock = start
  | .launch _ _ deadline => deadline = start + limit ∧ clock ≤ deadline
  | .attach _ | .enter _ | .fail _ => clock ≤ start + limit
  | _ => True

/-- The call of a drain waits at least until `due`, and looks again before it gives up. -/
def DeprovisionPhase.Patient (due : Nat) : DeprovisionPhase → Prop
  | .settle limit => due ≤ limit
  | .rest limit wake => due ≤ limit ∧ wake ≤ limit
  | _ => True

namespace Node

variable {ids : List InstanceId} {n m k : Node} {a : Move} {id : InstanceId} {t d : Nat}
variable {made : List Step} {spec : InstanceSpec} {phase : ProvisionPhase} {work work' : Work}

/-- A step of virtual time. -/
structure Step.Timely (s : Step) : Prop where
  /-- Time passes only while no task can go on by itself. -/
  idle : 0 < s.move.elapsed → ∀ t, s.before.run t = none
  /-- It does not pass beyond a time for which a task has set something. -/
  timers : ∀ t work time, s.before.work? t = some work → time ∈ work.timers →
    s.before.clock < time → s.before.clock + s.move.elapsed ≤ time

/-! ### Time and configuration -/

theorem Advance.frame (hn : n.Tidy ids) (h : n.Advance a work k work') :
    k.config = n.config ∧ k.clock = n.clock ∧ a.elapsed = 0 := by
  cases h with
  | errand | answer | gather | report | launched | unlaunched => exact ⟨rfl, rfl, rfl⟩
  | provision h => cases h <;> exact ⟨rfl, rfl, rfl⟩
  | monitor h => cases h <;> exact ⟨rfl, rfl, rfl⟩
  | deprovision h => cases h <;> exact ⟨rfl, rfl, rfl⟩
  | forward h => cases h <;> exact ⟨rfl, rfl, rfl⟩
  | list =>
    obtain ⟨tasks, htasks⟩ := (spawnMembers_cases n.instanceIds hn.numbered).1
    rw [htasks]
    exact ⟨rfl, rfl, rfl⟩

theorem abandonTask_frame (n : Node) (t : Nat) :
    (n.abandonTask t).config = n.config ∧ (n.abandonTask t).clock = n.clock := by
  rw [abandonTask]
  cases n.tasks.find? t with
  | none => exact ⟨rfl, rfl⟩
  | some task =>
    obtain ⟨b, hfst, -⟩ := leaveWork_fst n task.work
    simp only
    split
    · exact ⟨rfl, rfl⟩
    · rw [hfst]
      exact ⟨rfl, rfl⟩

theorem leave_frame (h : n.leave t = some m) : m.config = n.config ∧ m.clock = n.clock := by
  obtain ⟨task, -, rfl⟩ := Option.map_eq_some_iff.1 h
  have hmembers : ∀ (l : List Nat) (n : Node),
      (l.foldl abandonTask n).config = n.config ∧ (l.foldl abandonTask n).clock = n.clock := by
    intro l
    induction l with
    | nil => exact fun _ => ⟨rfl, rfl⟩
    | cons s rest ih =>
      intro n
      obtain ⟨hconfig, hclock⟩ := abandonTask_frame n s
      exact ⟨(ih _).1.trans hconfig, (ih _).2.trans hclock⟩
  obtain ⟨hconfig, hclock⟩ := abandonTask_frame ((members task.work).foldl abandonTask n) t
  exact ⟨hconfig.trans (hmembers _ n).1, hclock.trans (hmembers _ n).2⟩

/-- No move changes the configuration, and only the passing of time changes the clock. -/
theorem Legal.frame (h : Legal ids n a m) :
    m.config = n.config ∧ m.clock = n.clock + a.elapsed := by
  cases h.pass with
  | task _ _ hadvance =>
    obtain ⟨hconfig, hclock, helapsed⟩ := hadvance.frame h.tidy
    rw [helapsed]
    exact ⟨hconfig, hclock⟩
  | leave => exact leave_frame h.move
  | begin | process | print | pass => exact ⟨rfl, rfl⟩

theorem Run.clock_le (h : Run made ids n) : ∀ {s}, s ∈ made → s.after.clock ≤ n.clock := by
  induction h with
  | start => exact fun hs => by cases hs
  | move _ hlegal ih =>
    intro s hs
    rcases List.mem_append.1 hs with hs | hs
    · exact (ih hs).trans (hlegal.frame.2 ▸ Nat.le_add_right _ _)
    · obtain rfl := List.mem_singleton.1 hs
      exact Nat.le_refl _

/-! ### Records that are `provisioning` -/

/-- A task that has a step of its own can go on. -/
theorem run_ne_none (ht : n.work? t = some work) (herrand : work.errand? = none)
    (hstep : ∀ hasCaller, (n.stepWork hasCaller work).isSome = true) : n.run t ≠ none := by
  obtain ⟨task, hfind, rfl⟩ := Option.map_eq_some_iff.1 ht
  obtain ⟨⟨k, work'⟩, hk⟩ := Option.isSome_iff_exists.1 (hstep task.hasCaller)
  simp [run, hfind, herrand, hk]

/-- Between the insertion and the end only the launch takes time, and not beyond its deadline. -/
theorem Step.Timely.dueBy (h : Step.Timely ⟨n, a, m⟩)
    (ht : n.work? t = some (.provision id spec phase)) {start limit : Nat}
    (hdue : phase.DueBy start limit n.clock) : phase.DueBy start limit (n.clock + a.elapsed) := by
  rcases Nat.eq_zero_or_pos a.elapsed with hzero | hpos
  · rwa [hzero]
  have hstill : n.run t = none := h.idle hpos t
  -- time passes only while no task can go on
  have hgoes : phase.errand? = none → (n.stepProvision id spec phase).isSome = true →
      phase.DueBy start limit (n.clock + a.elapsed) := fun herrand hstep =>
    absurd hstill (run_ne_none ht herrand fun _ => by rwa [stepWork, Option.isSome_map])
  cases phase with
  | launch network console deadline =>
    -- the launcher is at work, and time does not pass beyond the deadline
    by_cases hlate : deadline ≤ n.clock
    · exact hgoes rfl (by rw [stepProvision, if_pos hlate]; rfl)
    · exact ⟨hdue.1, h.timers t _ deadline ht (List.mem_singleton_self _) (Nat.lt_of_not_le hlate)⟩
  | openConsole => exact hgoes rfl rfl
  | attach process =>
    refine hgoes rfl ?_
    rw [stepProvision]
    split <;> rfl
  | enter process =>
    refine hgoes rfl ?_
    rw [stepProvision]
    split <;> rfl
  | fail cause => exact hgoes rfl rfl
  | _ => trivial

/-- What a call has come to that has inserted its record in a step. -/
theorem Run.dueBy (h : Run made ids n) : ∀ {s t spec phase}, (∀ s ∈ made, s.Timely) →
    s ∈ made → s.Inserts id → n.work? t = some (.provision id spec phase) →
    phase.DueBy s.after.clock n.config.launchTimeout n.clock := by
  induction h with
  | start => exact fun _ hs => by cases hs
  | @move made ids n m a hrun hlegal ih =>
    intro s t spec phase htimely hs hinserts hm
    have hbefore : ∀ s ∈ made, s.Timely := fun s hs => htimely s (List.mem_append_left _ hs)
    obtain ⟨hconfig, hclock⟩ := hlegal.frame
    rw [hconfig]
    rcases List.mem_append.1 hs with hmade | hs
    · rcases (hlegal.onTask t).of_provision hm with
        ht | ⟨-, hbegun⟩ | ⟨before, k, ha, ht, hadvance, -⟩
      · rw [hclock]
        exact (htimely _ (List.mem_append_right _ (List.mem_singleton_self _))).dueBy ht
          (ih hbefore hmade hinserts ht)
      · rcases hbegun.of_provision.2 with rfl | ⟨_, rfl⟩ <;> trivial
      · have hdue := ih hbefore hmade hinserts ht
        rw [hclock, (hadvance.frame hlegal.tidy).2.2, Nat.add_zero]
        cases hadvance with
        | errand herrand _ heq | answer herrand _ heq =>
          cases hrun.raises.resumes ht herrand heq <;> trivial
        | provision hsteps =>
          cases hsteps with
          | insert =>
            -- no record is inserted twice
            cases (hrun.past_of_inserts hmade hinserts).2 .leasing (.of_work? ht (if_pos rfl))
          | openConsole =>
            exact ⟨congrArg (· + _) hdue, Nat.le_add_right _ _⟩
          | expire => exact Nat.le_trans hdue.2 (Nat.le_of_eq hdue.1)
          | attach => exact hdue
          | enter | fail | miss | withdraw | discard | closeConsole => trivial
        | launched | unlaunched => exact Nat.le_trans hdue.2 (Nat.le_of_eq hdue.1)
    · obtain rfl := List.mem_singleton.1 hs
      -- the call has just inserted the record
      obtain ⟨u, _, lease, ha, hu⟩ := hlegal.of_inserts hinserts
      obtain ⟨work, k, work', hold, hadvance, -, hnew⟩ := hlegal.advance ha
      obtain rfl := Option.some.inj (hu.symm.trans hold)
      cases hadvance with
      | errand herrand | answer herrand => cases herrand
      | provision hsteps =>
        cases hsteps with
        | insert =>
          obtain rfl := (hrun.raises.legal hlegal).single _ _ _ _ _ _ _ hnew hm
          cases Option.some.inj (hnew.symm.trans hm)
          exact rfl

/-- While a record is `provisioning`, some call brings it up. -/
theorem Tidy.exists_raising (hn : n.Tidy ids) {r : Record Nat}
    (hfind : n.registry.records.find? id = some r) (hstate : r.state = .provisioning) :
    ∃ t spec phase role, n.work? t = some (.provision id spec phase) ∧
      phase.role? = some role ∧ role.isRaising = true := by
  have hcovered := hn.covered id
  rw [view_of_find? hfind] at hcovered
  have hroles := hcovered.2
  simp only [Record.status, hstate] at hroles
  have hraising : ∃ q, n.HasRole id q ∧ q.isRaising = true := by
    rcases hroles with h | h | h
    · exact ⟨_, h, rfl⟩
    · exact ⟨_, h, rfl⟩
    · exact ⟨_, h, rfl⟩
  obtain ⟨q, ⟨t, ht⟩, hq⟩ := hraising
  obtain ⟨work, hwork, hrole⟩ := Option.bind_eq_some_iff.1 ht
  obtain ⟨spec, phase, rfl, hphase⟩ := Work.provisions_of_role? hrole (.inr hq)
  exact ⟨t, spec, phase, q, hwork, hphase, hq⟩

/-- No record is `provisioning` for longer than a launch may take. -/
theorem Run.clock_le_of_provisioning (h : Run made ids n) (htimely : ∀ s ∈ made, s.Timely)
    {s : Step} (hs : s ∈ made) (hinserts : s.Inserts id) {r : Record Nat}
    (hfind : n.registry.records.find? id = some r) (hstate : r.state = .provisioning) :
    n.clock ≤ s.after.clock + n.config.launchTimeout := by
  obtain ⟨t, spec, phase, role, ht, hrole, hraising⟩ := h.tidy.exists_raising hfind hstate
  have hdue := h.dueBy htimely hs hinserts ht
  cases phase with
  | openConsole => exact Nat.le_trans (Nat.le_of_eq hdue) (Nat.le_add_right _ _)
  | launch => exact Nat.le_trans hdue.2 (Nat.le_of_eq hdue.1)
  | attach | enter | fail => exact hdue
  | lease e => cases e <;> cases hrole <;> cases hraising
  | insert | refuse | withdraw | giveBack | closeConsole | ended => cases hrole <;> cases hraising

/-! ### Drains -/

/-- A call that lets its instance settle was begun by a drain that has listed the instance. -/
theorem Legal.settle_of_begun (h : Legal ids n a m) (hnone : n.work? t = none) {timeout limit : Nat}
    (hm : m.work? t = some (.deprovision id timeout (.settle limit))) :
    id ∈ n.instanceIds ∧ limit = n.clock + n.settleLimit := by
  have hstill : m.work? t = n.work? t → id ∈ n.instanceIds ∧ limit = n.clock + n.settleLimit :=
    fun heq => by cases hnone.symm.trans (heq.symm.trans hm)
  cases h.pass with
  | @task _ u work work' k ha hu hadvance =>
    have hne : t ≠ u := fun heq => by cases (heq ▸ hnone).symm.trans hu
    rw [work?_setWork_of_ne hne] at hm hstill
    cases hadvance with
    | errand | answer | gather | report | launched | unlaunched => exact hstill rfl
    | provision hsteps =>
      cases hsteps with
      | @enter p r =>
        -- what begins besides is a monitor
        let j : Node := { n with registry := n.registry.put { r with state := .running } }
        rcases work?_spawn_cases (n := j) h.tidy.numbered t with heq | ⟨-, hnew⟩
        · exact hstill heq
        · cases hnew.symm.trans hm
      | _ => exact hstill rfl
    | monitor hsteps => cases hsteps <;> exact hstill rfl
    | deprovision hsteps => cases hsteps <;> exact hstill rfl
    | forward hsteps => cases hsteps <;> exact hstill rfl
    | list =>
      -- the drain begins a call for each instance that it lists
      rcases (spawnMembers_cases n.instanceIds h.tidy.numbered).2 t with heq | ⟨-, i, hi, _, hnew⟩
      · exact hstill heq
      · cases hnew.symm.trans hm
        exact ⟨hi, rfl⟩
  | @begin r =>
    -- a caller's own call does not let the instance settle
    rcases work?_spawn_cases h.tidy.numbered t with heq | ⟨-, hnew⟩
    · exact hstill heq
    · have heq := Option.some.inj (hnew.symm.trans hm)
      cases r with
      | provision i spec =>
        rw [workOf] at heq
        split at heq <;> cases heq
      | deprovision | drain | publish | awaitReport => cases heq
  | leave habandons =>
    rcases habandons.tasks t with heq | ⟨_, hold, -⟩
    · exact hstill heq
    · cases hnone.symm.trans hold
  | process | print | pass => exact hstill rfl

/-- A drain has more patience than the launch of an instance has time. -/
theorem Run.patient (h : Run made ids n) : ∀ {t id timeout phase}, (∀ s ∈ made, s.Timely) →
    n.work? t = some (.deprovision id timeout phase) → phase.isSettling = true →
    ∃ s ∈ made, s.Inserts id ∧
      phase.Patient (s.after.clock + n.config.launchTimeout + settlePause) := by
  induction h with
  | start hstart =>
    obtain rfl := start_eq_ok hstart
    exact fun _ ht => by cases ht
  | @move made ids n m a hrun hlegal ih =>
    intro t id timeout phase htimely hm hsettling
    have hbefore : ∀ s ∈ made, s.Timely := fun s hs => htimely s (List.mem_append_left _ hs)
    rw [hlegal.frame.1]
    have hlater : (∃ s ∈ made, s.Inserts id ∧
        phase.Patient (s.after.clock + n.config.launchTimeout + settlePause)) →
        ∃ s ∈ made ++ [(⟨n, a, m⟩ : Step)], s.Inserts id ∧
          phase.Patient (s.after.clock + n.config.launchTimeout + settlePause) :=
      fun ⟨s, hs, hpatient⟩ => ⟨s, List.mem_append_left _ hs, hpatient⟩
    refine hlater ?_
    cases hlegal.onTask t with
    | idle heq => exact ih hbefore (heq.symm.trans hm) hsettling
    | dropped _ _ hgone => cases hgone.symm.trans hm
    | begun hnone hw hbegun =>
      obtain rfl := Option.some.inj (hw.symm.trans hm)
      rcases hbegun.of_deprovision with rfl | ⟨limit, rfl⟩
      · cases hsettling
      · obtain ⟨hlisted, rfl⟩ := hlegal.settle_of_begun hnone hm
        obtain ⟨r, hfind⟩ := Option.isSome_iff_exists.1 ((hlegal.tidy.instanceIds.2 id).1 hlisted)
        obtain ⟨s, hs, hinserts⟩ := hrun.inserted hfind
        have hclock := hrun.clock_le hs
        refine ⟨s, hs, hinserts, ?_⟩
        simp only [DeprovisionPhase.Patient, settleLimit, settlePause, settleSlack]
        omega
    | goes _ ht hadvance _ hw =>
      obtain rfl := Option.some.inj (hw.symm.trans hm)
      cases hadvance with
      | errand herrand _ heq | answer herrand _ heq =>
        obtain ⟨before, rfl, rfl⟩ := Work.of_resume_deprovision heq
        cases before with
        | giveBackReaped | giveBack => cases ‹Errand.Progress› <;> cases hsettling
        | _ => cases herrand
      | deprovision hsteps =>
        cases hsteps with
        | rest hfind hstate =>
          -- the record is still `provisioning`, so the pause is over before the call gives up
          obtain ⟨s, hs, hinserts, hdue⟩ := ih hbefore ht rfl
          have hclock := hrun.clock_le_of_provisioning hbefore hs hinserts hfind hstate
          exact ⟨s, hs, hinserts, hdue, (Nat.add_le_add_right hclock _).trans hdue⟩
        | wake =>
          obtain ⟨s, hs, hinserts, hdue⟩ := ih hbefore ht rfl
          exact ⟨s, hs, hinserts, hdue.1⟩
        | _ => cases hsettling

/-- No call gives up waiting for an instance to be provisioned. -/
theorem Run.not_timeout (h : Run made ids n) : (∀ s ∈ made, s.Timely) →
    ∀ t id timeout why,
      n.work? t ≠ some (.deprovision id timeout (.ended (.error (.timeout why)))) := by
  induction h with
  | start hstart =>
    obtain rfl := start_eq_ok hstart
    exact fun _ _ _ _ _ ht => by cases ht
  | @move made ids n m a hrun hlegal ih =>
    intro htimely t id timeout why hm
    have hbefore : ∀ s ∈ made, s.Timely := fun s hs => htimely s (List.mem_append_left _ hs)
    rcases (hlegal.onTask t).of_deprovision hm rfl with hold | hnew | ⟨phase, k, ht, hsteps, -⟩
    · exact ih hbefore t id timeout why hold
    · rcases hnew with hnew | ⟨_, hnew⟩ <;> cases hnew
    · cases hsteps with
      | giveUp hwake hlimit =>
        obtain ⟨s, -, -, -, hpatient⟩ := hrun.patient hbefore ht rfl
        omega

/-- A drain that has ended has no failures. -/
theorem Run.failures_eq_nil (h : Run made ids n) : ∀ {summary}, (∀ s ∈ made, s.Timely) →
    n.work? d = some (.drain (.ended summary)) → summary.failures = [] := by
  induction h with
  | start hstart =>
    obtain rfl := start_eq_ok hstart
    exact fun _ hd => by cases hd
  | @move made ids n m a hrun hlegal ih =>
    intro summary htimely hd
    have hbefore : ∀ s ∈ made, s.Timely := fun s hs => htimely s (List.mem_append_left _ hs)
    rcases (hlegal.onTask d).of_drain hd with hold | hlist | ⟨phase, k, rfl, -, hadvance, -⟩
    · exact ih hbefore hold
    · cases hlist
    · cases hadvance with
      | errand herrand => cases herrand
      | gather =>
        obtain ⟨members, outcomes, ht, -, hcalls, rfl, -⟩ := hlegal.gathers hd
        refine List.eq_nil_iff_forall_not_mem.2 fun f hf => ?_
        obtain ⟨outcome, hmem, hcomplaint⟩ := DrainSummary.mem_failures.1 hf
        obtain ⟨u, hmember, htask⟩ := hcalls _ hmem
        obtain ⟨⟨timeout, hu⟩, ⟨why, rfl⟩ | ⟨hnone, -⟩⟩ :=
          ((hrun.attends ht).2 _ hmember).ended htask
        · exact hrun.not_timeout hbefore u f.1 timeout why hu
        · cases hnone.symm.trans hcomplaint

end Node

end VmNode
