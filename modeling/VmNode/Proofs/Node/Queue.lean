import VmNode.Proofs.Node.Guard
import VmNode.Proofs.Node.Wakeup
import VmNode.Proofs.Process.Doom

/-!
# Requests in the queues of supervisors

A process belongs to one instance (`Node.Run.launched_inj`), and one call at most stops it. So its
queue is empty until that call puts a request in, and holds two at most (`Node.Uncrowded`): the
call never has to wait for room (`Node.Run.isSome_put`). When the call awaits the exit for good, the
process is doomed (`Node.Run.doomed`).
-/

namespace VmNode

/-- How many requests a call that stops a process has put into the queue. -/
def Stop.requests : Stop → Nat
  | .ask => 0
  | .await _ | .escalate => 1
  | .reap => 2

theorem Supervisor.length_queue_of_put {s s' : Supervisor} {r : StopRequest}
    (h : s.put r = some s') : s'.queue.length ≤ s.queue.length + 1 := by
  cases steps_of_step (step_of_put h) with
  | late => exact Nat.le_succ _
  | request => exact Nat.le_of_eq (List.length_append ..)

/-- Only handles put requests into the queue. -/
theorem Supervisor.Steps.length_queue_le {s s' : Supervisor} {e : Event} {act : Option Act}
    (h : s.Steps e s' act) (hinner : Node.isInner e = true) :
    s'.queue.length ≤ s.queue.length := by
  cases h with
  | late | request | forsaken => cases hinner
  | skip _ hqueue | ask _ hqueue => exact hqueue ▸ Nat.le_succ _
  | kill _ hqueue =>
    rcases hqueue with hqueue | ⟨-, rfl⟩
    · exact hqueue ▸ Nat.le_succ _
    · exact Nat.zero_le _
  | deaf | delivery | killed | exit | cleaned => exact Nat.le_refl _

namespace Stop

variable {now timeout : Nat} {s s' : Supervisor} {stage stage' : Stop}

theorem requests_le_two (stage : Stop) : stage.requests ≤ 2 := by
  cases stage <;> simp [requests]

/-- All that a call that stops a process can do next. -/
inductive Steps (now timeout : Nat) (s : Supervisor) :
    Stop → Supervisor → Stop ⊕ ExitReason → Prop
  /-- The exit reason is published. -/
  | exit {stage : Stop} {reason : ExitReason} : s.exit? = some reason →
    Steps now timeout s stage s (.inr reason)
  /-- A request to shut down is put into the queue. -/
  | ask {s' : Supervisor} : s.put .shutdown = some s' →
    Steps now timeout s .ask s' (.inl (.await (now + timeout)))
  /-- The process is still there when the time is over. -/
  | late {deadline : Nat} : deadline ≤ now →
    Steps now timeout s (.await deadline) s (.inl .escalate)
  /-- A request to kill the process is put into the queue. -/
  | escalate {s' : Supervisor} : s.put .kill = some s' →
    Steps now timeout s .escalate s' (.inl .reap)

theorem steps_of_step {next : Stop ⊕ ExitReason} (h : stage.step now timeout s = some (s', next)) :
    Steps now timeout s stage s' next := by
  cases stage with
  | ask =>
    rw [step] at h
    split at h
    · cases h
      exact .exit ‹_›
    · obtain ⟨s'', hput, heq⟩ := Option.map_eq_some_iff.1 h
      cases heq
      exact .ask hput
  | await deadline =>
    rw [step] at h
    split at h
    · cases h
      exact .exit ‹_›
    · split at h <;> cases h
      exact .late ‹_›
  | escalate =>
    obtain ⟨s'', hput, heq⟩ := Option.map_eq_some_iff.1 h
    cases heq
    exact .escalate hput
  | reap =>
    obtain ⟨reason, hexit, heq⟩ := Option.map_eq_some_iff.1 h
    cases heq
    exact .exit hexit

theorem Steps.requests_le (h : Steps now timeout s stage s' (.inl stage')) :
    stage.requests ≤ stage'.requests := by
  cases h with
  | ask | escalate => exact Nat.le_succ _
  | late => exact Nat.le_refl _

/-- The queue of a call that goes on holds no more requests than the call has put in. -/
theorem Steps.length_queue_le (h : Steps now timeout s stage s' (.inl stage'))
    (hs : s.queue.length ≤ stage.requests) : s'.queue.length ≤ stage'.requests := by
  cases h with
  | ask hput | escalate hput =>
    exact (Supervisor.length_queue_of_put hput).trans (Nat.succ_le_succ hs)
  | late => exact hs

end Stop

namespace Node

variable {ids : List InstanceId} {n m : Node} {a : Move} {id id' : InstanceId} {t u p : Nat}
variable {made : List Step} {s s' : Supervisor} {timeout : Nat} {stage : Stop}

/-! ### Whose process it is -/

/-- A process belongs to one instance. -/
theorem Run.launched_inj (h : Run made ids n) (hp : Launched made id p)
    (hp' : Launched made id' p) : id = id' := by
  induction h with
  | start =>
    obtain ⟨s, hs, -⟩ := hp
    cases hs
  | @move made ids n m a hrun hlegal ih =>
    -- a process that is brought up was not there
    have hfresh : ∀ {i j}, Launched made i p → ¬ Step.Launches j p ⟨n, a, m⟩ := fun hi hj => by
      obtain ⟨-, -, -, -, -, -, -, hsize, -⟩ := hlegal.of_launches hj
      have hknown := hrun.guarded.known _ p hi
      rw [hsize, supervisor?, hlegal.numbered.find?_size] at hknown
      cases hknown
    rcases launched_concat.1 hp with hp | hp <;> rcases launched_concat.1 hp' with hp' | hp'
    · exact ih hp hp'
    · exact absurd hp' (hfresh hp)
    · exact absurd hp (hfresh hp')
    · -- one call goes on in a step
      have htask : ∀ {i}, Step.Launches i p ⟨n, a, m⟩ → ∃ t spec phase, a.task? = some t ∧
          n.work? t = some (.provision i spec phase) := fun hi => by
        obtain ⟨t, spec, _, _, _, ht, hm, -⟩ := hlegal.of_launches hi
        rcases (hlegal.onTask t).of_provision hm with hold | ⟨hnone, -⟩ | ⟨_, _, ha, hold, -⟩
        · cases ht.symm.trans hold
        · cases ht.symm.trans hnone
        · exact ⟨t, spec, _, ha, hold⟩
      obtain ⟨t, _, _, ha, ht⟩ := htask hp
      obtain ⟨t', _, _, ha', ht'⟩ := htask hp'
      obtain rfl := Option.some.inj (ha.symm.trans ha')
      cases ht.symm.trans ht'
      rfl

/-- One call at most takes care of an instance that is being shut down. -/
theorem Tidy.eq_of_felling (hn : n.Tidy ids) {q r : Role} (ht : n.role? t id = some q)
    (hu : n.role? u id = some r) (hq : q.isFelling = true) (hr : r.isFelling = true) : t = u := by
  by_contra hne
  rcases (hn.apart t u id q r hne ht hu).felling with h | h
  · cases h.symm.trans hq
  · cases h.symm.trans hr

/-! ### Room -/

/-- What a move does to the queue of a supervisor. -/
inductive OnQueue (n m : Node) (p : Nat) (s' : Supervisor) : Prop
  /-- No request is put into it. -/
  | kept {s : Supervisor} : n.supervisor? p = some s → s'.queue.length ≤ s.queue.length →
    OnQueue n m p s'
  /-- The process is brought up. -/
  | launched : s'.queue = [] → OnQueue n m p s'
  /-- A call that stops the process goes on. -/
  | stop {t timeout : Nat} {id : InstanceId} {stage stage' : Stop} {s : Supervisor} :
    n.work? t = some (.deprovision id timeout (.stop p stage)) →
    m.work? t = some (.deprovision id timeout (.stop p stage')) → n.supervisor? p = some s →
    Stop.Steps n.clock timeout s stage s' (.inl stage') → OnQueue n m p s'

theorem supervisor?_setSupervisor_self (n : Node) (p : Nat) (s : Supervisor) :
    (n.setSupervisor p s).supervisor? p = some s := Table.find?_insert_self ..

theorem supervisor?_setSupervisor_of_ne (n : Node) {p u : Nat} (s : Supervisor) (hne : p ≠ u) :
    (n.setSupervisor u s).supervisor? p = n.supervisor? p := Table.find?_insert_of_ne _ _ hne

/-- Most moves leave the queue of a process as it is: only a launch begins one, only the call that
    stops the process puts something in, and only the supervisor takes something out. -/
theorem Legal.onQueue (h : Legal ids n a m) (hm : m.supervisor? p = some s') :
    n.OnQueue m p s' := by
  have hstill : m.supervisor? p = n.supervisor? p → n.OnQueue m p s' := fun heq =>
    .kept (heq.symm.trans hm) (Nat.le_refl _)
  cases h.pass with
  | @task _ t work work' k ha ht hadvance =>
    have hwork : (k.setWork t work').work? t = some work' :=
      work?_setWork_self ((hadvance.work? h.tidy ht ha t).elim (fun h => h.trans ht)
        fun h => by cases h.1.symm.trans ht) work'
    cases hadvance with
    | errand | answer | gather | report | unlaunched => exact hstill rfl
    | provision hsteps => cases hsteps <;> exact hstill rfl
    | monitor hsteps => cases hsteps <;> exact hstill rfl
    | forward hsteps => cases hsteps <;> exact hstill rfl
    | list =>
      -- a drain begins other tasks, and leaves processes alone
      obtain ⟨tasks, htasks⟩ := (spawnMembers_cases n.instanceIds h.tidy.numbered).1
      exact hstill (by rw [supervisor?, setWork, htasks]; rfl)
    | launched =>
      -- the queue of a new process is empty
      by_cases hp : p = n.processes.size
      · subst hp
        obtain rfl := Option.some.inj ((n.supervisor?_setSupervisor_self _ _).symm.trans hm)
        exact .launched rfl
      · exact hstill (n.supervisor?_setSupervisor_of_ne _ hp)
    | deprovision hsteps =>
      cases hsteps with
      | @stop q stage stage' s s'' hs hstep =>
        -- a call to stop the process may put a request into its queue
        by_cases hp : p = q
        · subst hp
          obtain rfl := Option.some.inj ((n.supervisor?_setSupervisor_self p s'').symm.trans hm)
          exact .stop ht hwork hs (Stop.steps_of_step hstep)
        · exact hstill (n.supervisor?_setSupervisor_of_ne _ hp)
      | @stopped q stage s s'' reason hs hstep =>
        cases Stop.steps_of_step hstep with
        | exit =>
          -- the call only looks at the exit reason
          refine hstill ?_
          rw [supervisor?, setWork, setSupervisor, Table.insert_eq_self hs]
          rfl
      | _ => exact hstill rfl
  | process hinner hs hstep =>
    -- the supervisor takes requests out
    rename_i q e s s'' act
    by_cases hp : p = q
    · subst hp
      obtain rfl := Option.some.inj ((n.supervisor?_setSupervisor_self p s'').symm.trans hm)
      exact .kept hs ((Supervisor.steps_of_step hstep).length_queue_le hinner)
    · exact hstill (n.supervisor?_setSupervisor_of_ne _ hp)
  | leave habandons => exact hstill (by rw [supervisor?, habandons.processes]; rfl)
  | begin | print | pass => exact hstill rfl

/-- How many requests the queue of a process can hold along a run. -/
structure Uncrowded (made : List Step) (ids : List InstanceId) (n : Node) : Prop where
  /-- None, until the instance begins to be shut down. -/
  fresh : ∀ id p s, Launched made id p → ¬ Since 2 ids n id → n.supervisor? p = some s →
    s.queue = []
  /-- None, until the process is found by the call that shuts the instance down. -/
  found : ∀ t id timeout p s, n.work? t = some (.deprovision id timeout .find) →
    Launched made id p → n.supervisor? p = some s → s.queue = []
  /-- As many as that call has put in. -/
  stop : ∀ t id timeout p stage s, n.work? t = some (.deprovision id timeout (.stop p stage)) →
    n.supervisor? p = some s → s.queue.length ≤ stage.requests

/-- An empty queue stays empty while nobody stops the process. -/
theorem OnQueue.queue_eq_nil (h : n.OnQueue m p s')
    (hs : ∀ s, n.supervisor? p = some s → s.queue = [])
    (hnobody : ∀ t id timeout stage,
      n.work? t ≠ some (.deprovision id timeout (.stop p stage))) : s'.queue = [] := by
  cases h with
  | kept hn hle =>
    rw [hs _ hn] at hle
    exact List.length_eq_zero_iff.1 (Nat.le_zero.1 hle)
  | launched hempty => exact hempty
  | stop ht => exact absurd ht (hnobody _ _ _ _)

/-- The instance whose process somebody stops is being shut down, by that call alone. -/
theorem Run.of_stop (h : Run made ids n) (hp : Launched made id p)
    (hu : n.work? u = some (.deprovision id' timeout (.stop p stage))) :
    id' = id ∧ Since 2 ids n id ∧ ∀ t q, n.role? t id = some q → q.isFelling = true → t = u := by
  obtain rfl := h.launched_inj (h.guarded.stopping u id' timeout p stage hu) hp
  obtain ⟨r, -, -, hfind, hstate, -⟩ := h.tidy.find?_of_stopping hu (if_pos rfl)
  refine ⟨rfl, h.tidy.since_of_find? hfind (by rw [hstate]; exact Nat.le_refl 2), ?_⟩
  exact fun t q ht hq => h.tidy.eq_of_felling ht ((role?_of_work? hu id').trans (if_pos rfl)) hq rfl

/-- Whatever move is made, what is in the queue was put there by the call. -/
theorem Uncrowded.legal (h : Uncrowded made ids n) (hrun : Run made ids n)
    (hlegal : Legal ids n a m) :
    Uncrowded (made ++ [⟨n, a, m⟩]) (ids ++ a.provision?.toList) m := by
  -- a process that is brought up has an empty queue
  have hnew : ∀ {id p s'}, Step.Launches id p ⟨n, a, m⟩ → m.supervisor? p = some s' →
      s'.queue = [] := fun hp hs' => by
    obtain ⟨-, -, -, -, -, -, -, -, hstart, -⟩ := hlegal.of_launches hp
    obtain rfl := Option.some.inj (hstart.symm.trans hs')
    rfl
  refine ⟨fun id p s' hp hsince hs' => ?_, fun t id timeout p s' hm hp hs' => ?_,
    fun t id timeout p stage s' hm hs' => ?_⟩
  · rcases launched_concat.1 hp with hp | hp
    · have hbefore : ¬ Since 2 ids n id := fun hbefore => hsince (hbefore.legal hlegal)
      exact (hlegal.onQueue hs').queue_eq_nil (fun s => h.fresh id p s hp hbefore)
        fun u _ _ _ hu => hbefore (hrun.of_stop hp hu).2.1
    · exact hnew hp hs'
  · rcases launched_concat.1 hp with hp | hp
    · rcases (hlegal.onTask t).of_deprovision hm rfl with ht | hnew | ⟨phase, k, ht, hsteps, -⟩
      · refine (hlegal.onQueue hs').queue_eq_nil (fun s => h.found t id timeout p s ht hp)
          fun u _ _ _ hu => ?_
        obtain rfl := (hrun.of_stop hp hu).2.2 t _ ((role?_of_work? ht id).trans (if_pos rfl)) rfl
        cases ht.symm.trans hu
      · rcases hnew with hnew | ⟨_, hnew⟩ <;> cases hnew
      · cases hsteps with
        | enter hfind hstate =>
          have hbefore : ¬ Since 2 ids n id := fun hsince => hsince.not_runs ⟨_, hfind, hstate⟩
          exact (hlegal.onQueue hs').queue_eq_nil (fun s => h.fresh id p s hp hbefore)
            fun u _ _ _ hu => hbefore (hrun.of_stop hp hu).2.1
    · exact hnew hp hs'
  · -- the call that puts a request in is the one that stops the process
    have hmine : ∀ {phase}, n.work? t = some (.deprovision id timeout phase) →
        phase.role? = some .stopping → Launched made id p →
        (∀ s, n.supervisor? p = some s → s.queue.length ≤ stage.requests) →
        s'.queue.length ≤ stage.requests := fun {phase} ht hrole hp hle => by
      cases hlegal.onQueue hs' with
      | kept hs hkept => exact hkept.trans (hle _ hs)
      | launched hempty => exact hempty ▸ Nat.zero_le _
      | stop hu hu' hs hsteps =>
        obtain rfl := (hrun.of_stop hp hu).2.2 t _
          ((role?_of_work? ht id).trans ((if_pos rfl).trans hrole)) rfl
        cases hm.symm.trans hu'
        exact hsteps.length_queue_le (h.stop _ _ _ _ _ _ hu hs)
    rcases (hlegal.onTask t).of_deprovision hm rfl with ht | hnew | ⟨phase, k, ht, hsteps, -⟩
    · exact hmine ht rfl (hrun.guarded.stopping t id timeout p stage ht)
        fun s => h.stop t id timeout p stage s ht
    · rcases hnew with hnew | ⟨_, hnew⟩ <;> cases hnew
    · cases hsteps with
      | find hfind hstate hprocess =>
        have hp := hrun.guarded.attached id _ p hfind hprocess
        exact hmine ht rfl hp fun s hs => by
          rw [h.found t id timeout p s ht hp hs]
          exact Nat.zero_le _
      | stop hs hstep =>
        exact hmine ht rfl (hrun.guarded.stopping t id timeout p _ ht) fun s hs =>
          (h.stop t id timeout p _ s ht hs).trans (Stop.steps_of_step hstep).requests_le

/-- Queues are uncrowded along every run. -/
theorem Run.uncrowded (h : Run made ids n) : Uncrowded made ids n := by
  induction h with
  | start hstart =>
    obtain rfl := start_eq_ok hstart
    exact ⟨fun _ _ _ _ _ hs => (by cases hs), fun _ _ _ _ _ ht => (by cases ht),
      fun _ _ _ _ _ _ ht => (by cases ht)⟩
  | move hrun hlegal ih => exact ih.legal hrun hlegal

/-- There is room in the queue for whoever stops the process. -/
theorem Run.isSome_put (h : Run made ids n)
    (ht : n.work? t = some (.deprovision id timeout (.stop p stage)))
    (hs : n.supervisor? p = some s) (r : StopRequest) : (s.put r).isSome = true := by
  have hle := (h.uncrowded.stop t id timeout p stage s ht hs).trans stage.requests_le_two
  have hroom : s.hasRoom = true := by
    refine Bool.or_eq_true_iff.2 (.inr (decide_eq_true ?_))
    exact Nat.lt_of_le_of_lt hle (by decide)
  rw [Supervisor.put, Option.isSome_map, Supervisor.step, if_pos hroom]
  split <;> rfl

/-! ### Processes that will be killed -/

/-- A doomed process stays so, and does not get further away from its end. -/
theorem Legal.doomed (h : Legal ids n a m) (hs : n.supervisor? p = some s) (hdoomed : s.Doomed) :
    ∃ s', m.supervisor? p = some s' ∧ s'.Doomed ∧ s'.doom ≤ s.doom := by
  have hstep : ∀ {e s' act}, s.step e = some (s', act) → m.supervisor? p = some s' →
      ∃ s', m.supervisor? p = some s' ∧ s'.Doomed ∧ s'.doom ≤ s.doom := fun hstep hs' => by
    obtain ⟨hdoomed', hdoom⟩ := hdoomed.steps (Supervisor.steps_of_step hstep)
    exact ⟨_, hs', hdoomed', by omega⟩
  cases h.onProcess p with
  | idle _ heq => exact ⟨s, heq.trans hs, hdoomed, Nat.le_refl _⟩
  | launched _ _ hnone => cases hnone.symm.trans hs
  | request _ hs' hreq hm =>
    obtain rfl := Option.some.inj (hs.symm.trans hs')
    exact hstep hreq hm
  | event _ _ hs' hevent hm =>
    obtain rfl := Option.some.inj (hs.symm.trans hs')
    exact hstep hevent hm

/-- Whoever awaits the exit for good has asked for the process to be killed. -/
theorem Run.doomed (h : Run made ids n) : ∀ {t id timeout p},
    n.work? t = some (.deprovision id timeout (.stop p .reap)) →
    ∃ s, n.supervisor? p = some s ∧ s.Doomed := by
  induction h with
  | start hstart =>
    obtain rfl := start_eq_ok hstart
    exact fun ht => by cases ht
  | @move made ids n m a hrun hlegal ih =>
    intro t id timeout p hm
    rcases (hlegal.onTask t).of_deprovision hm rfl with ht | hnew | ⟨phase, k, ht, hsteps, rfl⟩
    · obtain ⟨s, hs, hdoomed⟩ := ih ht
      obtain ⟨s', hs', hdoomed', -⟩ := hlegal.doomed hs hdoomed
      exact ⟨s', hs', hdoomed'⟩
    · rcases hnew with hnew | ⟨_, hnew⟩ <;> cases hnew
    · cases hsteps with
      | stop hs hstep =>
        cases Stop.steps_of_step hstep with
        | escalate hput =>
          -- the call has put the request to kill into the queue, unless the process is gone
          refine ⟨_, Table.find?_insert_self .., ?_⟩
          cases Supervisor.steps_of_step (Supervisor.step_of_put hput) with
          | late hexit =>
            obtain ⟨reason, hreason⟩ := Option.isSome_iff_exists.1 hexit
            exact .inr (.inr (by rw [Supervisor.reason?_of_exit? hreason]; rfl))
          | request => exact .inr (.inl (List.mem_append_right _ (List.mem_singleton_self _)))

end Node

end VmNode
