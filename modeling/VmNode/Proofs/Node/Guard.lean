import VmNode.Proofs.Node.Raise
import VmNode.Proofs.Node.Gone
import VmNode.Proofs.Node.Release

/-!
# Leases outlive processes

Once a launch has brought up a process for an instance (`Node.Launched`), the record of the
instance keeps its lease until the exit reason of the process is published (`Node.Guarded`):
whoever takes the lease out of the record, or the record out of the registry, has seen that
reason, or comes after somebody who has. Since a lease that is given back is not in a record,
nobody gives it back before the process has gone away.
-/

namespace VmNode

/-- A process is up. -/
def ProvisionPhase.isUp : ProvisionPhase → Bool
  | .attach _ | .enter _ | .ended (.ok _) => true
  | _ => false

/-- The process that the call has, and that is to be in the record. -/
def ProvisionPhase.process? : ProvisionPhase → Option Nat
  | .attach p | .enter p => some p
  | _ => none

/-- The process is stopped, and the lease is still in the record. -/
def DeprovisionPhase.isAfterStop : DeprovisionPhase → Bool
  | .note _ | .takeLease _ => true
  | _ => false

namespace Node

variable {ids : List InstanceId} {n m k : Node} {a : Move} {id : InstanceId} {t p q : Nat}
variable {made : List Step} {work : Work}

/-- In a step a launch brings up a process for the instance. -/
def Step.Launches (id : InstanceId) (p : Nat) (s : Step) : Prop :=
  ∃ t spec network console deadline,
    s.before.work? t = some (.provision id spec (.launch network console deadline)) ∧
    s.after.work? t = some (.provision id spec (.attach p))

/-- A launch has brought up a process for the instance. -/
def Launched (made : List Step) (id : InstanceId) (p : Nat) : Prop := ∃ s ∈ made, s.Launches id p

/-- In a step somebody begins to give the lease of the instance back. -/
def Step.Releases (id : InstanceId) (s : Step) : Prop :=
  ∃ l progress, s.before.errandStep? s.move = some (.toBegin (.release l), progress) ∧
    l.holder = id

theorem Launched.append (h : Launched made id p) (later : List Step) :
    Launched (made ++ later) id p := by
  obtain ⟨s, hs, hlaunches⟩ := h
  exact ⟨s, List.mem_append_left _ hs, hlaunches⟩

theorem launched_concat {s : Step} :
    Launched (made ++ [s]) id p ↔ Launched made id p ∨ s.Launches id p := by
  constructor
  · rintro ⟨s', hs', hlaunches⟩
    rcases List.mem_append.1 hs' with hs' | hs'
    · exact .inl ⟨s', hs', hlaunches⟩
    · exact .inr (List.mem_singleton.1 hs' ▸ hlaunches)
  · rintro (h | h)
    · exact h.append [s]
    · exact ⟨s, List.mem_append_right _ (List.mem_singleton_self s), h⟩

/-- A process that is brought up gets the next number. -/
theorem Legal.of_launches (h : Legal ids n a m) (hlaunches : Step.Launches id p ⟨n, a, m⟩) :
    ∃ t spec network console deadline,
      n.work? t = some (.provision id spec (.launch network console deadline)) ∧
      m.work? t = some (.provision id spec (.attach p)) ∧ p = n.processes.size ∧
      m.supervisor? p = some .start ∧ m.registry = n.registry := by
  obtain ⟨t, spec, network, console, deadline, ht, hm⟩ := hlaunches
  refine ⟨t, spec, network, console, deadline, ht, hm, ?_⟩
  rcases (h.onTask t).of_provision hm with hold | ⟨hnone, -⟩ | ⟨phase, k, -, hold, hadvance, hk⟩
  · cases ht.symm.trans hold
  · cases ht.symm.trans hnone
  · cases Option.some.inj (ht.symm.trans hold)
    cases hadvance with
    | errand herrand | answer herrand => cases herrand
    | provision hsteps => cases hsteps
    | launched =>
      subst hk
      exact ⟨rfl, Table.find?_insert_self .., rfl⟩

/-- What has to do with a process that is up along a run, as long as its exit reason is not
    published. -/
structure Guarded (made : List Step) (ids : List InstanceId) (n : Node) : Prop where
  /-- The process has a supervisor. -/
  known : ∀ id p, Launched made id p → (n.supervisor? p).isSome = true
  /-- The instance has no other one. -/
  once : ∀ id p q, Launched made id p → Launched made id q → p = q
  /-- The instance was provisioned. -/
  own : ∀ id p, Launched made id p → id ∈ ids
  /-- The call that provisions the instance does not fail any more. -/
  up : ∀ id p t spec phase, Launched made id p → n.work? t = some (.provision id spec phase) →
    phase.isUp = true
  /-- What the record has for a process was brought up for the instance. -/
  attached : ∀ id r p, n.registry.records.find? id = some r → r.process = some p →
    Launched made id p
  /-- So was what the call has that provisions the instance. -/
  raised : ∀ t id spec phase p, n.work? t = some (.provision id spec phase) →
    phase.process? = some p → Launched made id p
  /-- So was what a monitor watches over, which goes on when the reason is published. -/
  watched : ∀ t id p phase, n.work? t = some (.monitor id p phase) →
    Launched made id p ∧ (phase ≠ .wait → (n.exit? p).isSome = true)
  /-- So was what a call stops. -/
  stopping : ∀ t id timeout p stage, n.work? t = some (.deprovision id timeout (.stop p stage)) →
    Launched made id p
  /-- A call that has stopped the process goes on when the reason is published. -/
  stopped : ∀ t id timeout phase, n.work? t = some (.deprovision id timeout phase) →
    phase.isAfterStop = true → ∃ p, Launched made id p ∧ (n.exit? p).isSome = true
  /-- Until then the record is there with the lease, and has the process or is about to get
      it. -/
  held : ∀ id p, Launched made id p → n.exit? p = none → ∃ r l,
    n.registry.records.find? id = some r ∧ r.lease = some l ∧ r.state.isLive = true ∧
      (r.process = some p ∨ ∃ t spec, n.work? t = some (.provision id spec (.attach p)))

/-- An exit reason that is published remains so. -/
theorem isSome_exit?_legal (hlegal : Legal ids n a m) (h : (n.exit? p).isSome = true) :
    (m.exit? p).isSome = true := by
  obtain ⟨reason, hreason⟩ := Option.isSome_iff_exists.1 h
  rw [hlegal.exit? hreason]
  rfl

namespace Guarded

variable {spec : InstanceSpec} {phase : ProvisionPhase} {r : Record Nat}

/-- A process that was launched has a supervisor. -/
theorem known_legal (h : Guarded made ids n) (hlegal : Legal ids n a m)
    (hp : Launched (made ++ [⟨n, a, m⟩]) id p) : (m.supervisor? p).isSome = true := by
  rcases launched_concat.1 hp with hp | hp
  · have hsome := h.known id p hp
    cases hlegal.onProcess p with
    | idle _ heq => rwa [heq]
    | launched _ _ _ hm | request _ _ _ hm | event _ _ _ _ hm =>
      rw [hm]
      rfl
  · obtain ⟨-, -, -, -, -, -, -, -, hm, -⟩ := hlegal.of_launches hp
    rw [hm]
    rfl

/-- The launcher is not at work for an instance that has a process. -/
theorem not_launches (h : Guarded made ids n) (hlegal : Legal ids n a m)
    (hp : Step.Launches id p ⟨n, a, m⟩) : ¬ Launched made id q := fun hq => by
  obtain ⟨t, spec, network, console, deadline, ht, -⟩ := hlegal.of_launches hp
  cases h.up id q t spec _ hq ht

/-- An instance has one process at most: its call launches one, and goes on. -/
theorem once_legal (h : Guarded made ids n) (hlegal : Legal ids n a m)
    (hp : Launched (made ++ [⟨n, a, m⟩]) id p) (hq : Launched (made ++ [⟨n, a, m⟩]) id q) :
    p = q := by
  rcases launched_concat.1 hp with hp | hp <;> rcases launched_concat.1 hq with hq | hq
  · exact h.once id p q hp hq
  · exact absurd hp (h.not_launches hlegal hq)
  · exact absurd hq (h.not_launches hlegal hp)
  · obtain ⟨-, -, -, -, -, -, -, rfl, -⟩ := hlegal.of_launches hp
    obtain ⟨-, -, -, -, -, -, -, rfl, -⟩ := hlegal.of_launches hq
    rfl

/-- The instance of a process was given its identifier before. -/
theorem own_legal (h : Guarded made ids n) (hraises : Raises ids n) (hlegal : Legal ids n a m)
    (hp : Launched (made ++ [⟨n, a, m⟩]) id p) : id ∈ ids := by
  rcases launched_concat.1 hp with hp | hp
  · exact h.own id p hp
  · obtain ⟨t, spec, _, _, _, ht, -⟩ := hlegal.of_launches hp
    exact hraises.own t id spec _ ht

/-- A call whose instance has a process has come further than the launch. -/
theorem up_legal (h : Guarded made ids n) (hraises : Raises ids n) (hlegal : Legal ids n a m)
    (hp : Launched (made ++ [⟨n, a, m⟩]) id p) (hm : m.work? t = some (.provision id spec phase)) :
    phase.isUp = true := by
  rcases launched_concat.1 hp with hp | hp
  · rcases (hlegal.onTask t).of_provision hm with ht | ⟨-, hbegun⟩ | ⟨before, k, -, ht, hadvance, -⟩
    · exact h.up id p t spec phase hp ht
    · exact absurd (h.own id p hp) (hlegal.new id hbegun.of_provision.1)
    · have hup := h.up id p t spec before hp ht
      cases hadvance with
      | errand herrand | answer herrand =>
        cases before with
        | attach | enter | ended => cases herrand
        | _ => cases hup
      | provision hsteps =>
        cases hsteps with
        | attach | enter => rfl
        | _ => cases hup
      | launched | unlaunched => cases hup
  · obtain ⟨u, _, _, _, _, -, hu, -⟩ := hlegal.of_launches hp
    obtain rfl := (hraises.legal hlegal).single t u id _ _ _ _ hm hu
    cases Option.some.inj (hm.symm.trans hu)
    rfl

/-- The process at hand was launched for the instance. -/
theorem raised_legal (h : Guarded made ids n) (hraises : Raises ids n) (hlegal : Legal ids n a m)
    (hm : m.work? t = some (.provision id spec phase)) (hp : phase.process? = some p) :
    Launched (made ++ [⟨n, a, m⟩]) id p := by
  rcases (hlegal.onTask t).of_provision hm with ht | ⟨-, hbegun⟩ | ⟨before, k, -, ht, hadvance, -⟩
  · exact (h.raised t id spec phase p ht hp).append _
  · rcases hbegun.of_provision.2 with rfl | ⟨cause, rfl⟩ <;> cases hp
  · cases hadvance with
    | errand herrand _ heq | answer herrand _ heq =>
      cases hraises.resumes ht herrand heq <;> cases hp
    | provision hsteps =>
      cases hsteps with
      | attach =>
        cases hp
        exact (h.raised t id spec _ p ht rfl).append _
      | _ => cases hp
    | launched =>
      cases hp
      exact launched_concat.2 (.inr ⟨t, spec, _, _, _, ht, hm⟩)
    | unlaunched => cases hp

/-- The process in a record was launched for the instance. -/
theorem attached_legal (h : Guarded made ids n) (hlegal : Legal ids n a m)
    (hfind : m.registry.records.find? id = some r) (hp : r.process = some p) :
    Launched made id p := by
  cases hlegal.onRecord id with
  | idle heq => exact h.attached id r p (heq.symm.trans hfind) hp
  | inserted _ _ _ hm _ hnone =>
    obtain rfl := Option.some.inj (hm.symm.trans hfind)
    cases hnone.symm.trans hp
  | removed _ _ _ _ hm => cases hm.symm.trans hfind
  | edited _ ht hid hold hm hedits =>
    obtain rfl := Option.some.inj (hm.symm.trans hfind)
    cases hedits with
    | attach =>
      cases hp
      obtain rfl := hid
      exact h.raised _ _ _ _ p ht rfl
    | crash => cases hp
    | enter | fail | shutDown | note | takeLease | stop | addPort => exact h.attached id _ p hold hp

/-- A monitor watches over a process that was launched, and when it has stopped waiting the exit
    reason is published. -/
theorem watched_legal (h : Guarded made ids n) (hlegal : Legal ids n a m) {phase : MonitorPhase}
    (hm : m.work? t = some (.monitor id p phase)) :
    Launched made id p ∧ (phase ≠ .wait → (m.exit? p).isSome = true) := by
  have hkeep : ∀ {before : MonitorPhase}, n.work? t = some (.monitor id p before) →
      (phase ≠ .wait → before ≠ .wait) →
      Launched made id p ∧ (phase ≠ .wait → (m.exit? p).isSome = true) := fun ht hphase =>
    (h.watched t id p _ ht).imp_right fun hexit hne =>
      isSome_exit?_legal hlegal (hexit (hphase hne))
  cases hlegal.onTask t with
  | idle heq => exact hkeep (heq.symm.trans hm) fun hne => hne
  | dropped _ _ hgone => cases hgone.symm.trans hm
  | begun _ hw hbegun =>
    -- a monitor is begun for a process that is in the record, which was launched
    obtain rfl := Option.some.inj (hw.symm.trans hm)
    obtain ⟨rfl, u, spec, -, hu⟩ := hbegun.of_monitor
    exact ⟨h.raised u id spec _ p hu rfl, fun hne => absurd rfl hne⟩
  | goes _ ht hadvance _ hw =>
    obtain rfl := Option.some.inj (hw.symm.trans hm)
    cases hadvance with
    | errand herrand _ heq | answer herrand _ heq =>
      -- a monitor that gives a lease back has been woken before
      obtain ⟨before, rfl, -⟩ := Work.of_resume_monitor heq
      refine hkeep ht fun _ hwait => ?_
      subst hwait
      cases herrand
    | monitor hsteps =>
      cases hsteps with
      | wake hexit =>
        -- the exit reason wakes it
        exact ⟨(h.watched t id p _ ht).1, fun _ => isSome_exit?_legal hlegal (by rw [hexit]; rfl)⟩
      | _ => exact hkeep ht fun _ => nofun

/-- The process that a call stops was launched for the instance. -/
theorem stopping_legal (h : Guarded made ids n) (hlegal : Legal ids n a m) {timeout : Nat}
    {stage : Stop} (hm : m.work? t = some (.deprovision id timeout (.stop p stage))) :
    Launched made id p := by
  rcases (hlegal.onTask t).of_deprovision hm rfl with ht | hnew | ⟨phase, k, ht, hsteps, -⟩
  · exact h.stopping t id timeout p stage ht
  · rcases hnew with hnew | ⟨_, hnew⟩ <;> cases hnew
  · cases hsteps with
    | find hfind _ hprocess => exact h.attached id _ p hfind hprocess
    | stop => exact h.stopping t id timeout p _ ht

/-- When a call has stopped the process, the exit reason is published. -/
theorem stopped_legal (h : Guarded made ids n) (hlegal : Legal ids n a m) {timeout : Nat}
    {phase : DeprovisionPhase} (hm : m.work? t = some (.deprovision id timeout phase))
    (hphase : phase.isAfterStop = true) :
    ∃ p, Launched made id p ∧ (m.exit? p).isSome = true := by
  have hkeep : ∀ {before : DeprovisionPhase}, n.work? t = some (.deprovision id timeout before) →
      before.isAfterStop = true → ∃ p, Launched made id p ∧ (m.exit? p).isSome = true :=
    fun ht hbefore => by
      obtain ⟨p, hp, hexit⟩ := h.stopped t id timeout _ ht hbefore
      exact ⟨p, hp, isSome_exit?_legal hlegal hexit⟩
  have hreturning : phase.isReturning = false := by cases phase <;> first | rfl | cases hphase
  rcases (hlegal.onTask t).of_deprovision hm hreturning with ht | hnew | ⟨before, k, ht, hsteps, -⟩
  · exact hkeep ht hphase
  · rcases hnew with rfl | ⟨_, rfl⟩ <;> cases hphase
  · cases hsteps with
    | @stopped q stage s s' reason hs hstep =>
      have hexit : n.exit? q = some reason := by
        rw [exit?, hs]
        exact Supervisor.exit?_of_stop hstep
      exact ⟨q, h.stopping t id timeout q stage ht, isSome_exit?_legal hlegal (by rw [hexit]; rfl)⟩
    | @strange q stage hs =>
      -- the process that is stopped is there
      have := h.known id q (h.stopping t id timeout q stage ht)
      rw [hs] at this
      cases this
    | note => exact hkeep ht rfl
    | _ => cases hphase

/-- Until the exit reason is published, nobody takes the lease or the record out. -/
theorem record_legal (h : Guarded made ids n) (hlegal : Legal ids n a m) {l : Lease}
    (hp : Launched made id p) (hexit : n.exit? p = none)
    (hfind : n.registry.records.find? id = some r) (hl : r.lease = some l)
    (hlive : r.state.isLive = true) :
    ∃ r', m.registry.records.find? id = some r' ∧ r'.lease = some l ∧ r'.state.isLive = true ∧
      (r'.process = r.process ∨ r'.process = some p) := by
  have hunseen : ∀ {q}, Launched made id q → ¬ (n.exit? q).isSome = true := fun hq hsome => by
    obtain rfl := h.once id p _ hp hq
    rw [hexit] at hsome
    cases hsome
  cases hlegal.onRecord id with
  | idle heq => exact ⟨r, heq.trans hfind, hl, hlive, .inl rfl⟩
  | inserted _ _ hnone => cases hnone.symm.trans hfind
  | removed _ _ _ hold _ hremoves =>
    obtain rfl := Option.some.inj (hfind.symm.trans hold)
    have hfinal := hremoves.isFinal
    rw [InstanceState.isFinal, hlive] at hfinal
    cases hfinal
  | edited _ ht hid hold hm hedits =>
    obtain rfl := Option.some.inj (hfind.symm.trans hold)
    obtain rfl := hid
    cases hedits with
    | @attach _ _ q =>
      -- the process that is attached is the one that was launched
      obtain rfl := h.once _ p q hp (h.raised _ _ _ _ q ht rfl)
      exact ⟨_, hm, hl, hlive, .inr rfl⟩
    | enter | shutDown => exact ⟨_, hm, hl, rfl, .inl rfl⟩
    | note | addPort => exact ⟨_, hm, hl, hlive, .inl rfl⟩
    | fail => cases h.up _ p _ _ _ hp ht
    | crash =>
      -- a monitor that fails the record has seen the exit reason
      obtain ⟨hq, hsome⟩ := h.watched _ _ _ _ ht
      exact absurd (hsome nofun) (hunseen hq)
    | takeLease =>
      -- so has a call that takes the lease out
      obtain ⟨q, hq, hsome⟩ := h.stopped _ _ _ _ ht rfl
      exact absurd hsome (hunseen hq)
    -- the record of an instance that stops has no lease any more
    | stop _ hnone => cases hnone.symm.trans hl

/-- The process gets into the record, or is about to. -/
theorem held_legal (h : Guarded made ids n) (hlegal : Legal ids n a m)
    (hp : Launched (made ++ [⟨n, a, m⟩]) id p) (hexit : m.exit? p = none) : ∃ r l,
    m.registry.records.find? id = some r ∧ r.lease = some l ∧ r.state.isLive = true ∧
      (r.process = some p ∨ ∃ t spec, m.work? t = some (.provision id spec (.attach p))) := by
  rcases launched_concat.1 hp with hp | hp
  · have hbefore : n.exit? p = none := Option.eq_none_iff_forall_ne_some.2 fun reason hreason => by
      cases hexit.symm.trans (hlegal.exit? hreason)
    obtain ⟨r, l, hfind, hl, hlive, hprocess⟩ := h.held id p hp hbefore
    obtain ⟨r', hfind', hl', hlive', hprocess'⟩ :=
      h.record_legal hlegal hp hbefore hfind hl hlive
    refine ⟨r', l, hfind', hl', hlive', ?_⟩
    rcases hprocess with hprocess | ⟨t, spec, ht⟩
    · exact .inl (hprocess'.elim (fun heq => heq.trans hprocess) fun heq => heq)
    · cases hlegal.onTask t with
      | idle heq => exact .inr ⟨t, spec, heq.trans ht⟩
      | begun hnone => cases hnone.symm.trans ht
      | dropped hold hbound =>
        obtain rfl := Option.some.inj (ht.symm.trans hold)
        cases hbound
      | goes _ hold hadvance hk _ =>
        obtain rfl := Option.some.inj (ht.symm.trans hold)
        cases hadvance with
        | errand herrand | answer herrand => cases herrand
        | provision hsteps =>
          cases hsteps with
          | attach hfind₀ =>
            subst hk
            have hkey := hlegal.tidy.keyed id _ hfind₀
            exact .inl (Option.some.inj (hfind'.symm.trans (Registry.find?_put_self hkey)) ▸ rfl)
  · -- the launcher was at work, so the record waits for its process
    obtain ⟨t, spec, _, _, _, ht, hm, -, -, hregistry⟩ := hlegal.of_launches hp
    obtain ⟨r, l, hfind, hstate, -, hl⟩ := hlegal.tidy.find?_of_launching ht (if_pos rfl)
    exact ⟨r, l, hregistry ▸ hfind, hl, by rw [hstate]; rfl, .inr ⟨t, spec, hm⟩⟩

/-- Every move of a run leaves leases guarded. -/
theorem legal (h : Guarded made ids n) (hraises : Raises ids n) (hlegal : Legal ids n a m) :
    Guarded (made ++ [⟨n, a, m⟩]) (ids ++ a.provision?.toList) m where
  known := fun _ _ hp => h.known_legal hlegal hp
  once := fun _ _ _ hp hq => h.once_legal hlegal hp hq
  own := fun _ _ hp => List.mem_append_left _ (h.own_legal hraises hlegal hp)
  up := fun _ _ _ _ _ hp hm => h.up_legal hraises hlegal hp hm
  attached := fun _ _ _ hfind hp => (h.attached_legal hlegal hfind hp).append _
  raised := fun _ _ _ _ _ hm hp => h.raised_legal hraises hlegal hm hp
  watched := fun _ _ _ _ hm => (h.watched_legal hlegal hm).imp_left fun hp => hp.append _
  stopping := fun _ _ _ _ _ hm => (h.stopping_legal hlegal hm).append _
  stopped := fun _ _ _ _ hm hphase => by
    obtain ⟨p, hp, hexit⟩ := h.stopped_legal hlegal hm hphase
    exact ⟨p, hp.append _, hexit⟩
  held := fun _ _ hp hexit => h.held_legal hlegal hp hexit

end Guarded

/-- Leases are guarded along every run. -/
theorem Run.guarded (h : Run made ids n) : Guarded made ids n := by
  induction h with
  | start hstart =>
    obtain rfl := start_eq_ok hstart
    have hnone : ∀ {id p}, ¬ Launched [] id p := fun ⟨_, hs, _⟩ => by cases hs
    exact ⟨fun _ _ hp => absurd hp hnone, fun _ _ _ hp => absurd hp hnone,
      fun _ _ hp => absurd hp hnone, fun _ _ _ _ _ hp => absurd hp hnone,
      fun _ _ _ h => (by cases h), fun _ _ _ _ _ h => (by cases h), fun _ _ _ _ h => (by cases h),
      fun _ _ _ _ _ h => (by cases h), fun _ _ _ _ h => (by cases h),
      fun _ _ hp => absurd hp hnone⟩
  | move hrun hlegal ih => exact ih.legal hrun.raises hlegal

/-! ### Leases that are given back -/

/-- A lease in a record holds its slot. -/
theorem Tidy.mem_holds_of_find? (hn : n.Tidy ids) {r : Record Nat} {l : Lease}
    (hfind : n.registry.records.find? id = some r) (hl : r.lease = some l) :
    (⟨l.slot, l.holder, false⟩ : Hold) ∈ n.pool.holds := by
  rw [hn.holds]
  refine Multiset.mem_add.2 (.inr (Table.mem_tally.2 ⟨id, r, hfind, ?_⟩))
  rw [hl]
  exact Multiset.mem_singleton_self _

/-- What a task holds is in no record. -/
theorem Tidy.holder_ne_of_lease (hn : n.Tidy ids) (ht : n.work? t = some work) {x : Hold}
    (hx : x ∈ work.holds) {r : Record Nat} {l : Lease}
    (hfind : n.registry.records.find? id = some r) (hl : r.lease = some l) : x.holder ≠ id := by
  intro hholder
  have hpool := Multiset.mem_of_le (hn.work_holds_le ht) hx
  have hstatus : (n.view id).status = some r.status := by rw [view_of_find? hfind]
  have hmem : x ∈ n.recordHolds := Table.mem_tally.2 ⟨id, r, hfind, by
    rw [hl]
    exact hn.mem_holds_of_lease hstatus hl hpool hholder⟩
  obtain ⟨task, htask, rfl⟩ := Option.map_eq_some_iff.1 ht
  have hmine : x ∈ n.taskHolds := Table.mem_tally.2 ⟨t, task, htask, hx⟩
  have hnodup := n.pool.nodup_holds
  rw [hn.holds] at hnodup
  exact Multiset.disjoint_left.1 (Multiset.nodup_add.1 hnodup).2.2 hmine hmem

/-- Whoever begins to give a lease back holds it. -/
theorem Step.Releases.holds {s : Step} (h : s.Releases id) : ∃ t work x,
    s.before.work? t = some work ∧ x ∈ work.holds ∧ x.holder = id := by
  obtain ⟨l, progress, hstep, rfl⟩ := h
  obtain ⟨t, work, ht, herrand, -⟩ := errandStep?_eq_some hstep
  refine ⟨t, work, ⟨l.slot, l.holder, false⟩, ht, ?_, rfl⟩
  rw [Work.holds_of_errand? herrand]
  exact Multiset.mem_singleton_self _

/-- A lease is given back when the exit reason of the process is published. -/
theorem Run.exit_before_release (h : Run made ids n) (hreleases : Step.Releases id ⟨n, a, m⟩)
    (hp : Launched made id p) : ∃ reason, n.exit? p = some reason := by
  by_contra hnone
  have hexit : n.exit? p = none :=
    Option.eq_none_iff_forall_ne_some.2 fun reason hreason => hnone ⟨reason, hreason⟩
  obtain ⟨r, l, hfind, hl, -⟩ := h.guarded.held id p hp hexit
  obtain ⟨t, work, x, ht, hx, hholder⟩ := hreleases.holds
  exact h.tidy.holder_ne_of_lease ht hx hfind hl hholder

/-- An instance whose lease is given back is not launched any more. -/
theorem Run.release_not_before_launch (h : Run made ids n) (id : InstanceId) (p : Nat) :
    made.Pairwise fun s s' => ¬ (s.Releases id ∧ s'.Launches id p) :=
  h.pairwise (Q := Spent [id]) (fun hlegal hreleases => by
      obtain ⟨l, progress, hstep, rfl⟩ := hreleases
      obtain ⟨hhold, hleaving⟩ := spent_of_release hlegal.tidy hlegal.move hstep
      have hasked := (hlegal.changes.induct (P := Asked l.holder)
        (fun _ h hchange => h.change hchange) hlegal.tidy (hlegal.tidy.asked_of_mem_holds hhold)).2
      intro i hi
      obtain rfl := List.mem_singleton.1 hi
      exact ⟨hasked, hleaving⟩)
    (fun hlegal hspent => hspent.changes hlegal.tidy hlegal.changes) fun hlegal hspent hp => by
      -- while the launcher is at work, the record has the lease, which is not given back
      obtain ⟨t, spec, _, _, _, ht, -⟩ := hlegal.of_launches hp
      obtain ⟨r, l, hfind, -, -, hl⟩ := hlegal.tidy.find?_of_launching ht (if_pos rfl)
      cases (hspent id (List.mem_singleton_self id)).2 _ (hlegal.tidy.mem_holds_of_find? hfind hl)
        (hlegal.tidy.holder_of_lease hfind hl)

/-- Whoever is to stop the process of an instance finds it. -/
theorem Run.process?_of_find (h : Run made ids n) {timeout : Nat}
    (ht : n.work? t = some (.deprovision id timeout .find)) :
    ∃ p, n.registry.process? id = some p ∧ Launched made id p := by
  obtain ⟨r, p, l, hfind, -, hp, -⟩ := h.tidy.find?_of_stopping ht (if_pos rfl)
  refine ⟨p, ?_, h.guarded.attached id r p hfind hp⟩
  rw [Registry.process?, hfind]
  exact hp

/-- Along a run no instance gives its lease back while its process is up. -/
structure ExitFirst (made : List Step) (n : Node) : Prop where
  /-- When somebody begins to give the lease of an instance back, the exit reason of its process
      is published: the process has gone away, and it was cleaned up behind it. -/
  released : ∀ before s after id p, made = before ++ s :: after → s.Releases id →
    Launched before id p → ∃ reason result, s.before.exit? p = some reason ∧
      [.process p (.exit result), .process p .cleaned].Sublist (before.map Step.move)
  /-- No process is brought up for an instance whose lease was given back. -/
  launched : ∀ id p, made.Pairwise fun s s' => ¬ (s.Releases id ∧ s'.Launches id p)
  /-- Whoever shuts an instance down finds its process. -/
  found : ∀ t id timeout, n.work? t = some (.deprovision id timeout .find) →
    ∃ p, n.registry.process? id = some p ∧ Launched made id p

/-- Whatever calls are made and however the steps of tasks fall between each other, as long as
    no two instances get one identifier, no lease is given back before the process that a launch
    has brought up for its instance has gone away. -/
theorem exitFirst_of_play {config : NodeConfig} {ownerBase : Option Nat} {start : Node}
    {moves : List Move} (hstart : Node.start config ownerBase = .ok start)
    (hids : (provisioned moves).Nodup) (hplay : start.play moves = some n) :
    ExitFirst (start.steps moves) n := by
  have hrun := run_of_play hstart hids hplay
  refine ⟨fun before s after id p hmade hreleases hp => ?_, hrun.release_not_before_launch,
    fun t id timeout ht => hrun.process?_of_find ht⟩
  obtain ⟨ids, hbefore, -⟩ := hrun.split hmade
  obtain ⟨reason, hreason⟩ := hbefore.exit_before_release hreleases hp
  obtain ⟨result, hresult⟩ := hbefore.exit_before_published hreason
  exact ⟨reason, result, hreason, hresult⟩

/-- The process of an instance crashes, and its monitor is about to give the lease back. -/
def mourned : List Move :=
  raised ++ [.process 0 (.exit (.exited (some 1))), .process 0 .cleaned, .run 1, .run 1, .run 1]

/-- By then the exit reason is published. -/
theorem exitFirst_mourned : ∃ start n m, Node.start {} none = .ok start ∧
    start.play mourned = some n ∧ n.run 1 = some m ∧ Step.Releases "i-1" ⟨n, .run 1, m⟩ ∧
    Launched (start.steps mourned) "i-1" 0 ∧ ExitFirst (start.steps (mourned ++ [.run 1])) m ∧
    ∃ reason, n.exit? 0 = some reason := by
  let n := (blank.play mourned).get (by decide +kernel)
  let m := (n.run 1).get (by decide +kernel)
  have hplay : blank.play mourned = some n := (Option.some_get _).symm
  have hrun : n.run 1 = some m := (Option.some_get _).symm
  have hids : (provisioned mourned).Nodup := by decide +kernel
  have hids' : (provisioned (mourned ++ [.run 1])).Nodup := by decide +kernel
  let l := ((blank.play raised).bind fun n => (n.registry.records.find? "i-1").bind
    Record.lease).get (by decide +kernel)
  have ht : n.work? 1 = some (.monitor "i-1" 0 (.giveBack (.toBegin (.release l)))) := by
    decide +kernel
  have hholder : l.holder = "i-1" := by decide +kernel
  have herrand : (n.errandStep? (.run 1)).map Prod.fst = some (.toBegin (.release l)) := by
    rw [errandStep?, ht]
    rfl
  have hreleases : Step.Releases "i-1" ⟨n, .run 1, m⟩ := by
    obtain ⟨⟨e, progress⟩, hstep, rfl⟩ := Option.map_eq_some_iff.1 herrand
    exact ⟨l, progress, hstep, hholder⟩
  -- the monitor watches over a process that was launched for the instance
  have hlaunched : Launched (blank.steps mourned) "i-1" 0 :=
    ((run_of_play start_blank hids hplay).guarded.watched 1 "i-1" 0 _ ht).1
  have hexit := exitFirst_of_play start_blank hids' (play_concat hplay hrun)
  obtain ⟨reason, -, hreason, -⟩ := hexit.released (blank.steps mourned) ⟨n, .run 1, m⟩ [] "i-1" 0
    (steps_concat hplay hrun) hreleases hlaunched
  exact ⟨blank, n, m, start_blank, hplay, hrun, hreleases, hlaunched, hexit, reason, hreason⟩

end Node

end VmNode
