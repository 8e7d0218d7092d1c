import VmNode.Proofs.Node.Gone
import VmNode.Proofs.Node.Run

/-!
# Shutting an instance down once

Many calls may deprovision one instance while its process goes away by itself. One of them at
most moves the instance out of `running`, or the monitor does, and the handle of the process
is asked once at most to shut it down (`Node.FelledOnce`).

A call that finds the instance being shut down waits until the record is gone. The record has
the signal that the call awaits, or the signal is raised (`Node.Awaited`), so nobody waits for
a record that has left the registry.
-/

namespace VmNode

/-- The call waits until somebody else has shut the instance down. -/
def DeprovisionPhase.isWaiting : DeprovisionPhase → Bool
  | .listen | .await _ => true
  | _ => false

namespace Node

variable {ids : List InstanceId} {n m : Node} {a : Move} {id : InstanceId} {t : Nat}
variable {made : List Step} {work : Work}

/-- The record of the instance is there and `running`. -/
def Runs (n : Node) (id : InstanceId) : Prop :=
  ∃ r, n.registry.records.find? id = some r ∧ r.state = .running

/-- A step moves the instance out of `running`. -/
def Step.Fells (id : InstanceId) (s : Step) : Prop := s.before.Runs id ∧ ¬ s.after.Runs id

/-- The task shuts the process of the instance down. -/
def IsStopping (n : Node) (id : InstanceId) (t : Nat) : Prop :=
  ∃ timeout p stage, n.work? t = some (.deprovision id timeout (.stop p stage))

/-- In a step some task begins to shut the process of the instance down. -/
def Step.Stops (id : InstanceId) (s : Step) : Prop :=
  ∃ t, ¬ s.before.IsStopping id t ∧ s.after.IsStopping id t

/-! ### One call shuts an instance down -/

/-- What moves an instance out of `running`. -/
theorem Legal.of_fells (h : Legal ids n a m) (hfells : Step.Fells id ⟨n, a, m⟩) :
    Since 2 (ids ++ a.provision?.toList) m id ∧ ∃ t, a.task? = some t ∧
      ((∃ timeout, n.work? t = some (.deprovision id timeout .enter)) ∨
        ∃ p reason, n.work? t = some (.monitor id p (.fail reason))) := by
  obtain ⟨⟨r, hfind, hstate⟩, hafter⟩ := hfells
  cases h.onRecord id with
  | idle heq => exact absurd ⟨r, heq.trans hfind, hstate⟩ hafter
  | inserted _ _ hnone => cases hnone.symm.trans hfind
  | removed _ _ _ hfind' _ hremoves =>
    -- the record of a running instance is not taken out
    obtain rfl := Option.some.inj (hfind.symm.trans hfind')
    have hfinal := hremoves.isFinal
    rw [hstate] at hfinal
    cases hfinal
  | @edited t work r' r'' ha ht hid hfind' hm hedits =>
    obtain rfl := Option.some.inj (hfind.symm.trans hfind')
    have hsince : 2 ≤ r''.state.rank → Since 2 (ids ++ a.provision?.toList) m id :=
      h.after.since_of_find? hm
    cases hedits with
    | attach hs | enter hs | fail hs | note hs | takeLease hs | stop hs =>
      cases hs.symm.trans hstate
    | addPort => exact absurd ⟨_, hm, hstate⟩ hafter
    | crash =>
      -- the monitor has the record fail
      obtain rfl := hid
      exact ⟨hsince (Nat.le_succ 2), t, ha, .inr ⟨_, _, ht⟩⟩
    | shutDown =>
      -- a call begins to shut the instance down
      obtain rfl := hid
      exact ⟨hsince (Nat.le_refl 2), t, ha, .inl ⟨_, ht⟩⟩

theorem Since.not_runs (h : Since 2 ids n id) : ¬ n.Runs id := fun ⟨r, hfind, hstate⟩ => by
  have := h.2 r hfind
  rw [hstate] at this
  exact absurd this (by decide)

theorem Run.fells_once (h : Run made ids n) (id : InstanceId) :
    made.Pairwise fun s s' => ¬ (s.Fells id ∧ s'.Fells id) :=
  h.pairwise (Q := fun ids n => Since 2 ids n id) (fun hlegal hfells => (hlegal.of_fells hfells).1)
    (fun hlegal hsince => hsince.legal hlegal) fun _ hsince hfells => hsince.not_runs hfells.1

/-- What begins to shut a process down. -/
theorem Legal.of_stops (h : Legal ids n a m) (hstops : Step.Stops id ⟨n, a, m⟩) :
    ∃ t timeout p, n.work? t = some (.deprovision id timeout .find) ∧
      m.work? t = some (.deprovision id timeout (.stop p .ask)) := by
  obtain ⟨t, hbefore, timeout, p, stage, hafter⟩ := hstops
  rcases (h.onTask t).of_deprovision hafter rfl with hold | hnew | ⟨phase, k, ht, hsteps, -⟩
  · exact absurd ⟨timeout, p, stage, hold⟩ hbefore
  · rcases hnew with hnew | ⟨limit, hnew⟩ <;> cases hnew
  · cases hsteps with
    | find => exact ⟨t, timeout, p, ht, hafter⟩
    | stop => exact absurd ⟨timeout, p, _, ht⟩ hbefore

/-- Nobody is about to look for the process of an instance that is being shut down. -/
def Found (ids : List InstanceId) (n : Node) (id : InstanceId) : Prop :=
  Since 2 ids n id ∧ ∀ t timeout, n.work? t ≠ some (.deprovision id timeout .find)

/-- Whoever begins to shut the process down was the one to look for it. -/
theorem Legal.found_of_stops (h : Legal ids n a m) (hstops : Step.Stops id ⟨n, a, m⟩) :
    Found (ids ++ a.provision?.toList) m id := by
  obtain ⟨t, timeout, p, ht, hm⟩ := h.of_stops hstops
  obtain ⟨r, -, -, hfind, hstate, -⟩ := h.tidy.find?_of_stopping ht (if_pos rfl)
  have hsince : Since 2 ids n id := h.tidy.since_of_find? hfind (by
    rw [hstate]
    exact Nat.le_refl 2)
  refine ⟨hsince.legal h, fun s timeout' hs => ?_⟩
  by_cases hst : s = t
  · rw [hst, hm] at hs
    cases hs
  · -- one task at most takes care of an instance that is being shut down
    have hapart := h.after.apart s t id .stopping .stopping hst
      ((role?_of_work? hs id).trans (if_pos rfl)) ((role?_of_work? hm id).trans (if_pos rfl))
    rcases hapart.felling with h | h <;> cases h

theorem Found.legal (h : Found ids n id) (hlegal : Legal ids n a m) :
    Found (ids ++ a.provision?.toList) m id := by
  refine ⟨h.1.legal hlegal, fun t timeout ht => ?_⟩
  rcases (hlegal.onTask t).of_deprovision ht rfl with hold | hnew | ⟨phase, k, -, hsteps, -⟩
  · exact h.2 t timeout hold
  · rcases hnew with hnew | ⟨limit, hnew⟩ <;> cases hnew
  · cases hsteps with
    | enter hfind hstate => exact h.1.not_runs ⟨_, hfind, hstate⟩

theorem Run.stops_once (h : Run made ids n) (id : InstanceId) :
    made.Pairwise fun s s' => ¬ (s.Stops id ∧ s'.Stops id) :=
  h.pairwise (Q := fun ids n => Found ids n id) (fun hlegal => hlegal.found_of_stops)
    (fun hlegal hfound => hfound.legal hlegal) fun hlegal hfound hstops => by
      obtain ⟨t, timeout, -, ht, -⟩ := hlegal.of_stops hstops
      exact hfound.2 t timeout ht

/-! ### The others wait -/

/-- The record of the instance has the signal, or the signal is raised. -/
def Awaited (n : Node) (id : InstanceId) (signal : Nat) : Prop :=
  (∃ r, n.registry.records.find? id = some r ∧ r.signal = signal) ∨
    n.registry.signals.find? signal = some .raised

/-- A record raises its signal when it is taken out, and signals remain raised. -/
theorem Awaited.legal {signal : Nat} (h : Awaited n id signal) (hlegal : Legal ids n a m) :
    Awaited m id signal := by
  rcases hlegal.pass.registers hlegal.tidy with heq | ⟨t, work, -, -, hregisters⟩
  · rwa [Awaited, heq]
  · generalize hg : m.registry = g at hregisters
    rw [Awaited, hg]
    cases hregisters with
    | still => exact h
    | @insert i spec lease time _ hnone =>
      -- a new record is that of another instance, and has a new signal
      rcases h with ⟨r, hfind, hsignal⟩ | hraised
      · have hid : id ≠ i := fun hid => by
          rw [hid, hnone] at hfind
          cases hfind
        exact .inl ⟨r, (Table.find?_insert_of_ne _ _ hid).trans hfind, hsignal⟩
      · have hne : signal ≠ n.registry.signals.size := fun heq => by
          rw [heq, hlegal.tidy.signals.numbered.find?_size] at hraised
          cases hraised
        exact .inr ((Table.find?_insert_of_ne _ _ hne).trans hraised)
    | @put r r' hfind hedits =>
      -- a record that is changed keeps its signal
      refine h.imp_left fun ⟨q, hq, hsignal⟩ => ?_
      have hkey := hedits.id_eq.trans (hlegal.tidy.keyed _ r hfind)
      by_cases hid : id = work.subject
      · subst hid
        obtain rfl := Option.some.inj (hfind.symm.trans hq)
        exact ⟨r', Registry.find?_put_self hkey, hedits.signal_eq.trans hsignal⟩
      · exact ⟨q, (Registry.find?_put_of_ne (hkey.symm ▸ hid)).trans hq, hsignal⟩
    | @remove r hfind _ =>
      -- a record that is taken out raises its signal
      have hself : (n.registry.without work.subject r).signals.find? r.signal = some .raised :=
        Table.find?_insert_self ..
      rcases h with ⟨q, hq, hsignal⟩ | hraised
      · by_cases hid : id = work.subject
        · subst hid
          obtain rfl := Option.some.inj (hfind.symm.trans hq)
          exact .inr (hsignal ▸ hself)
        · exact .inl ⟨q, (Table.find?_erase_of_ne _ hid).trans hq, hsignal⟩
      · refine .inr ?_
        by_cases hsame : signal = r.signal
        · exact hsame ▸ hself
        · exact (Table.find?_insert_of_ne _ _ hsame).trans hraised

theorem Run.awaited (h : Run made ids n) : ∀ {t timeout signal},
    n.work? t = some (.deprovision id timeout (.await signal)) → Awaited n id signal := by
  induction h with
  | start hstart =>
    obtain rfl := start_eq_ok hstart
    exact fun ht => by cases ht
  | move _ hlegal ih =>
    intro t timeout signal ht
    rcases (hlegal.onTask t).of_deprovision ht rfl with hold | hnew | ⟨phase, k, -, hsteps, -⟩
    · exact (ih hold).legal hlegal
    · rcases hnew with hnew | ⟨limit, hnew⟩ <;> cases hnew
    · cases hsteps with
      | listen hfind => exact Awaited.legal (.inl ⟨_, hfind, rfl⟩) hlegal

/-- A call that waits ends when the record is gone, and not before. -/
theorem Run.waits (h : Run made ids n) (hlegal : Legal ids n a m) {timeout : Nat}
    {phase : DeprovisionPhase} (ht : n.work? t = some (.deprovision id timeout phase))
    (hwaiting : phase.isWaiting = true) :
    ∃ phase', m.work? t = some (.deprovision id timeout phase') ∧ (phase'.isWaiting = true ∨
      phase' = .ended (.ok none) ∧ m.registry.records.find? id = none) := by
  cases hlegal.onTask t with
  | idle heq => exact ⟨phase, heq.trans ht, .inl hwaiting⟩
  | begun hnone => cases hnone.symm.trans ht
  | dropped hold hbound =>
    obtain rfl := Option.some.inj (ht.symm.trans hold)
    cases phase with
    | settle | rest => cases hwaiting
    | _ => cases hbound
  | goes _ hold hadvance hk hm =>
    obtain rfl := Option.some.inj (ht.symm.trans hold)
    cases hadvance with
    | errand herrand | answer herrand =>
      cases phase with
      | giveBackReaped | giveBack => cases hwaiting
      | _ => cases herrand
    | deprovision hsteps =>
      refine ⟨_, hm, ?_⟩
      cases hsteps with
      | listen => exact .inl rfl
      | unheard hnone =>
        subst hk
        exact .inr ⟨rfl, hnone⟩
      | heard hsignal =>
        rcases h.thorough.waits t _ id _ ht ⟨rfl, rfl⟩ with ⟨r, hfind, -, hr⟩ | ⟨hnone, -⟩
        · -- the signal of a record that is there is pending
          obtain rfl := hr _ rfl
          rw [Registry.signal, hlegal.tidy.signals.pending id r hfind] at hsignal
          exact absurd rfl hsignal
        · subst hk
          exact .inr ⟨rfl, hnone⟩
      | _ => cases hwaiting

/-- A call that finds the instance being shut down waits. -/
theorem Legal.follows (h : Legal ids n (.run t) m) {timeout : Nat} {r : Record Nat}
    (ht : n.work? t = some (.deprovision id timeout .look))
    (hfind : n.registry.records.find? id = some r) (hstate : r.state = .deprovisioning) :
    m.work? t = some (.deprovision id timeout .listen) := by
  obtain ⟨work, k, work', hold, hadvance, -, hm⟩ := h.advance rfl
  obtain rfl := Option.some.inj (ht.symm.trans hold)
  cases hadvance with
  | errand herrand => cases herrand
  | deprovision hsteps =>
    have hr : ∀ {r'}, n.registry.records.find? id = some r' → r'.state = .deprovisioning :=
      fun hfind' => Option.some.inj (hfind.symm.trans hfind') ▸ hstate
    cases hsteps with
    | follow => exact hm
    | unknown hnone => cases hnone.symm.trans hfind
    | early hfind' hs | see hfind' hs => cases (hr hfind').symm.trans hs
    | late hfind' hfinal =>
      rw [hr hfind'] at hfinal
      cases hfinal

/-- Who awaits the signal of a record that is gone has a step left. -/
theorem run_of_raised {timeout signal : Nat}
    (ht : n.work? t = some (.deprovision id timeout (.await signal)))
    (hraised : n.registry.signal signal = .raised) :
    ∃ m, n.run t = some m ∧ m.work? t = some (.deprovision id timeout (.ended (.ok none))) := by
  have hstep : n.stepDeprovision id timeout (.await signal) = some (n, .ended (.ok none)) := by
    rw [stepDeprovision, hraised]
  refine ⟨_, run_of_stepWork ht rfl fun _ => ?_, work?_setWork_self ht _⟩
  rw [stepWork, hstep]
  rfl

/-- A signal is awaited while somebody takes care of the record that has it, or it is raised. -/
theorem Run.awake (h : Run made ids n) {timeout signal : Nat}
    (ht : n.work? t = some (.deprovision id timeout (.await signal))) :
    (∃ r, n.registry.records.find? id = some r ∧ r.signal = signal ∧ ∃ u q, u ≠ t ∧
      n.role? u id = some q ∧ (q.isFelling = true ∨ q.isStopped = true)) ∨
    n.registry.records.find? id = none ∧ n.registry.signal signal = .raised := by
  rcases h.thorough.waits t _ id _ ht ⟨rfl, rfl⟩ with ⟨r, hfind, hstate, hr⟩ | ⟨hnone, -⟩
  · refine .inl ⟨r, hfind, hr signal rfl, ?_⟩
    have hcare : ∃ q, n.HasRole id q ∧ (q.isFelling = true ∨ q.isStopped = true) := by
      have hcovered := h.tidy.covered id
      rw [view_of_find? hfind] at hcovered
      have hroles := hcovered.2
      rcases hstate with hstate | hstate <;> simp only [Record.status, hstate] at hroles
      · rcases hroles with hrole | hrole
        · exact ⟨.stopping, hrole, .inl rfl⟩
        · exact ⟨.returning, hrole, .inl rfl⟩
      · rcases hroles with hrole | hrole
        · exact ⟨.stopped, hrole, .inr rfl⟩
        · exact ⟨.leaving, hrole, .inr rfl⟩
    obtain ⟨q, ⟨u, hu⟩, hq⟩ := hcare
    refine ⟨u, q, fun hut => ?_, hu, hq⟩
    -- who waits takes no part
    rw [hut, role?_of_work? ht, Work.role?, if_pos rfl] at hu
    cases hu
  · refine .inr ⟨hnone, ?_⟩
    rcases h.awaited ht with ⟨r, hfind, -⟩ | hraised
    · cases hnone.symm.trans hfind
    · rw [Registry.signal, hraised]
      rfl

/-! ### Along a run -/

/-- Along a run an instance is shut down once, and nobody who waits for that is forgotten. -/
structure FelledOnce (made : List Step) (n : Node) (id : InstanceId) : Prop where
  /-- No two steps move the instance out of `running`. -/
  fells : made.Pairwise fun s s' => ¬ (s.Fells id ∧ s'.Fells id)
  /-- Who does so is a call that deprovisions the instance, or its monitor. -/
  feller : ∀ s ∈ made, s.Fells id → ∃ t, s.move.task? = some t ∧
    ((∃ timeout, s.before.work? t = some (.deprovision id timeout .enter)) ∨
      ∃ p reason, s.before.work? t = some (.monitor id p (.fail reason)))
  /-- In no two steps somebody begins to shut the process down. -/
  stops : made.Pairwise fun s s' => ¬ (s.Stops id ∧ s'.Stops id)
  /-- The guest is asked to power off once at most. -/
  asked : ∀ p, (made.filterMap (Step.act? p)).count .sendShutdown ≤ 1
  /-- The process is killed once at most. -/
  killed : ∀ p, (made.filterMap (Step.act? p)).count .startKill ≤ 1
  /-- Whoever finds that the instance is being shut down waits. -/
  follows : ∀ s ∈ made, ∀ t timeout r, s.move = .run t →
    s.before.work? t = some (.deprovision id timeout .look) →
    s.before.registry.records.find? id = some r → r.state = .deprovisioning →
    s.after.work? t = some (.deprovision id timeout .listen)
  /-- Whoever waits does so until the record is gone. -/
  waits : ∀ s ∈ made, ∀ t timeout phase, s.before.work? t = some (.deprovision id timeout phase) →
    phase.isWaiting = true →
    ∃ phase', s.after.work? t = some (.deprovision id timeout phase') ∧
      (phase'.isWaiting = true ∨
        phase' = .ended (.ok none) ∧ s.after.registry.records.find? id = none)
  /-- Whoever awaits a signal does so while another task takes care of the record that has it;
      when the record is gone, the signal is raised, and the next step ends the call. -/
  awake : ∀ t timeout signal, n.work? t = some (.deprovision id timeout (.await signal)) →
    (∃ r, n.registry.records.find? id = some r ∧ r.signal = signal ∧ ∃ u q, u ≠ t ∧
      n.role? u id = some q ∧ (q.isFelling = true ∨ q.isStopped = true)) ∨
    n.registry.records.find? id = none ∧ n.registry.signal signal = .raised ∧
      ∃ m, n.run t = some m ∧ m.work? t = some (.deprovision id timeout (.ended (.ok none)))

/-- Whatever calls are made and however the steps of tasks fall between each other, as long as
    no two instances get one identifier, every instance is shut down once at most, and whoever
    waits for the end of another call is woken up. -/
theorem felledOnce_of_play {config : NodeConfig} {ownerBase : Option Nat} {start : Node}
    {moves : List Move} (hstart : Node.start config ownerBase = .ok start)
    (hids : (provisioned moves).Nodup) (hplay : start.play moves = some n) (id : InstanceId) :
    FelledOnce (start.steps moves) n id := by
  have hrun := run_of_play hstart hids hplay
  exact {
    fells := hrun.fells_once id
    feller := fun s hs hfells => by
      obtain ⟨_, _, -, hlegal⟩ := hrun.of_mem hs
      exact (hlegal.of_fells hfells).2
    stops := hrun.stops_once id
    asked := fun p => hrun.count_acts_le p _
    killed := fun p => hrun.count_acts_le p _
    follows := fun s hs t timeout r ha ht hfind hstate => by
      obtain ⟨_, _, -, hlegal⟩ := hrun.of_mem hs
      exact (ha ▸ hlegal).follows ht hfind hstate
    waits := fun s hs t timeout phase ht hwaiting => by
      obtain ⟨_, _, hbefore, hlegal⟩ := hrun.of_mem hs
      exact hbefore.waits hlegal ht hwaiting
    awake := fun t timeout signal ht => (hrun.awake ht).imp_right fun ⟨hnone, hraised⟩ =>
      ⟨hnone, hraised, run_of_raised ht hraised⟩ }

/-- One call shuts an instance down, and two calls and a drain come while it does so. -/
def crowd : List Move :=
  let ok : Move := .host 2 (.ok ())
  let deprovision : Move := .begin (.deprovision "i-1" none)
  raised ++ [deprovision, .run 2, .run 2, deprovision, deprovision, .begin .drain, .run 3, .run 3,
    .run 5, .run 6, .run 6, .run 6, .run 2, .run 2, .process 0 .take,
    .process 0 (.delivery .delivered), .process 0 (.exit (.exited (some 0))),
    .process 0 .cleaned, .run 2, .run 2, .run 2, .run 2, ok, ok, ok, ok, .run 2, .run 2, .run 2,
    .run 2, .run 2, .run 4]

/-- The first of them and the drain are woken up, and the second finds nothing any more. -/
theorem felledOnce_crowd : ∃ start n m, Node.start {} none = .ok start ∧
    start.play crowd = some n ∧ FelledOnce (start.steps crowd) n "i-1" ∧
    ((start.steps crowd).filterMap (Step.act? 0)).count .sendShutdown = 1 ∧
    n.work? 3 = some (.deprovision "i-1" 3000 (.await 0)) ∧ n.run 3 = some m ∧
    m.work? 3 = some (.deprovision "i-1" 3000 (.ended (.ok none))) := by
  let n := (blank.play crowd).get (by decide +kernel)
  have hplay : blank.play crowd = some n := (Option.some_get _).symm
  have hids : (provisioned crowd).Nodup := by decide +kernel
  have hfelled := felledOnce_of_play start_blank hids hplay "i-1"
  have ht : n.work? 3 = some (.deprovision "i-1" 3000 (.await 0)) := by decide +kernel
  have hgone : n.registry.records.find? "i-1" = none := by decide +kernel
  rcases hfelled.awake 3 3000 0 ht with ⟨r, hfind, -⟩ | ⟨-, -, m, hrun, hm⟩
  · cases hgone.symm.trans hfind
  · exact ⟨blank, n, m, start_blank, hplay, hfelled, by decide +kernel, ht, hrun, hm⟩

end Node

end VmNode
