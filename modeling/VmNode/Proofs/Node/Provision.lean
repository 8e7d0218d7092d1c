import VmNode.Proofs.Node.Guard

/-!
# What provisioning comes to

A record that is `provisioning` belongs to the call that inserted it: no other task changes it
or takes it out. So once a process is up, the call gets it into the record and the instance
runs. A call that fails leaves nothing behind (`Node.Void`): there is no record and no console,
and if a slot is still held for the instance, one other task gives it back. All of it is
`Node.Sound`.
-/

namespace VmNode

/-- The instance was found running, and a port is to be published. -/
def ForwardPhase.isOnWay : ForwardPhase → Bool
  | .work _ | .add => true
  | _ => false

/-- Whoever has no record yet, or brings it up, provisions the instance. -/
theorem Work.provisions_of_role? {work : Work} {id : InstanceId} {r : Role}
    (hr : work.role? id = some r) (hrole : r.isFresh = true ∨ r.isRaising = true) :
    ∃ spec phase, work = .provision id spec phase ∧ phase.role? = some r := by
  cases work with
  | provision i spec phase =>
    rw [role?] at hr
    split at hr
    · rename_i hid
      exact ⟨spec, phase, hid ▸ rfl, hr⟩
    · cases hr
  | deprovision i timeout phase =>
    rw [role?] at hr
    split at hr
    · cases phase <;> cases hr <;> rcases hrole with h | h <;> cases h
    · cases hr
  | monitor | forward | drain | report | gone => cases hr

/-- Where nothing is shown of an instance, and nobody is about to insert a record, nothing is
    shown afterwards. -/
theorem Stride.of_void {id : InstanceId} {r r' : Option Role} {h h' : Multiset Hold} {v v' : View}
    (hs : Stride id r h v r' h' v') (hv : ∀ q, r = some q → q.Fits v)
    (hr : ∀ q, r = some q → q.isFresh = false) (hvoid : v = ⟨none, false⟩) :
    v' = ⟨none, false⟩ := by
  cases hs with
  | insert => cases hr _ rfl
  | openConsole =>
    obtain ⟨⟨l, hl⟩, -⟩ : _ ∧ _ := hv _ rfl
    cases hl.symm.trans (congrArg View.status hvoid)
  | still => exact hvoid
  | closeConsole | clear | miss | pass | withdraw => cases hvoid; rfl
  | attach | run | fail | crash | shutDown | takeLease | stop | find | remove => cases hvoid

namespace Node

variable {ids ids' : List InstanceId} {n m k : Node} {a : Move} {id : InstanceId} {t p : Nat}
variable {made : List Step} {spec : InstanceSpec} {phase : ProvisionPhase} {r : Record Nat}

/-! ### Records that are `provisioning` -/

/-- In a step the record of the instance is inserted. -/
def Step.Inserts (id : InstanceId) (s : Step) : Prop :=
  s.before.registry.records.find? id = none ∧ (s.after.registry.records.find? id).isSome = true

/-- Whoever publishes a port has seen the instance run. -/
theorem Run.forwards (h : Run made ids n) : ∀ {t id mapping phase},
    n.work? t = some (.forward id mapping phase) → phase.isOnWay = true → Since 1 ids n id := by
  induction h with
  | start hstart =>
    obtain rfl := start_eq_ok hstart
    exact fun ht => by cases ht
  | @move made ids n m a hrun hlegal ih =>
    intro t id mapping phase hm hphase
    cases hlegal.onTask t with
    | idle heq => exact (ih (heq.symm.trans hm) hphase).legal hlegal
    | dropped _ _ hgone => cases hgone.symm.trans hm
    | begun _ hw hbegun =>
      obtain rfl := Option.some.inj (hw.symm.trans hm)
      obtain rfl := hbegun.of_forward
      cases hphase
    | goes _ ht hadvance _ hw =>
      obtain rfl := Option.some.inj (hw.symm.trans hm)
      cases hadvance with
      | errand herrand _ heq | answer herrand _ heq =>
        -- the errand began after the call had seen the instance run
        obtain ⟨before, rfl, -⟩ := Work.of_resume_forward heq
        refine (ih ht ?_).legal hlegal
        cases before with
        | work => rfl
        | _ => cases herrand
      | forward hsteps =>
        cases hsteps with
        | see hfind hstate =>
          -- now the call sees it run
          refine (hlegal.tidy.since_of_find? hfind ?_).legal hlegal
          rw [hstate]
          exact Nat.le_refl 1
        | _ => cases hphase

/-- A record that is `provisioning` is changed by the call that provisions the instance. -/
theorem Run.of_provisioning (h : Run made ids n) (hlegal : Legal ids n a m)
    (hfind : n.registry.records.find? id = some r) (hstate : r.state = .provisioning)
    (hchanged : m.registry.records.find? id ≠ some r) :
    ∃ t spec phase, a.task? = some t ∧ n.work? t = some (.provision id spec phase) := by
  cases hlegal.onRecord id with
  | idle heq => exact absurd (heq.trans hfind) hchanged
  | inserted _ _ hnone => cases hnone.symm.trans hfind
  | removed _ _ _ hold _ hremoves =>
    obtain rfl := Option.some.inj (hfind.symm.trans hold)
    have hfinal := hremoves.isFinal
    rw [hstate] at hfinal
    cases hfinal
  | edited ha ht hid hold _ hedits =>
    obtain rfl := Option.some.inj (hfind.symm.trans hold)
    obtain rfl := hid
    cases hedits with
    | attach | enter | fail => exact ⟨_, _, _, ha, ht⟩
    | crash hs | shutDown hs | note hs | takeLease hs | stop hs => cases hs.symm.trans hstate
    | addPort =>
      -- whoever publishes a port has seen the instance run
      have hrank := (h.forwards ht rfl).2 _ hfind
      rw [hstate] at hrank
      exact absurd hrank (by decide)

/-- Who inserts a record provisions the instance. -/
theorem Legal.of_inserts (h : Legal ids n a m) (hinserts : Step.Inserts id ⟨n, a, m⟩) :
    ∃ t spec lease, a.task? = some t ∧ n.work? t = some (.provision id spec (.insert lease)) := by
  obtain ⟨hnone, hsome⟩ := hinserts
  cases h.onRecord id with
  | idle heq =>
    rw [show m.registry.records.find? id = none from heq.trans hnone] at hsome
    cases hsome
  | inserted ha ht => exact ⟨_, _, _, ha, ht⟩
  | edited _ _ _ hfind | removed _ _ _ hfind => cases hnone.symm.trans hfind

/-- The call that has inserted a record is still there. -/
theorem Run.inserter (h : Run made ids n) : ∀ {s}, s ∈ made → s.Inserts id →
    ∃ t spec phase, s.move.task? = some t ∧ n.work? t = some (.provision id spec phase) := by
  induction h with
  | start => exact fun hs => by cases hs
  | @move made ids n m a hrun hlegal ih =>
    intro s hs hinserts
    have hstays : ∀ {t spec phase}, n.work? t = some (.provision id spec phase) →
        ∃ phase', m.work? t = some (.provision id spec phase') :=
      fun ht => (hlegal.onTask _).provision_stays ht
    rcases List.mem_append.1 hs with hs | hs
    · obtain ⟨t, spec, phase, ha, ht⟩ := ih hs hinserts
      exact ⟨t, spec, (hstays ht).imp fun _ hm => ⟨ha, hm⟩⟩
    · obtain rfl := List.mem_singleton.1 hs
      obtain ⟨t, spec, lease, ha, ht⟩ := hlegal.of_inserts hinserts
      exact ⟨t, spec, (hstays ht).imp fun _ hm => ⟨ha, hm⟩⟩

/-- A record that is there was inserted. -/
theorem Run.inserted (h : Run made ids n) : ∀ {r},
    n.registry.records.find? id = some r → ∃ s ∈ made, s.Inserts id := by
  induction h with
  | start hstart =>
    obtain rfl := start_eq_ok hstart
    exact fun hfind => by cases hfind
  | @move made ids n m a hrun hlegal ih =>
    intro r hfind
    have hold : ∀ {r}, n.registry.records.find? id = some r →
        ∃ s ∈ made ++ [(⟨n, a, m⟩ : Step)], s.Inserts id := fun hfind => by
      obtain ⟨s, hs, hinserts⟩ := ih hfind
      exact ⟨s, List.mem_append_left _ hs, hinserts⟩
    cases hlegal.onRecord id with
    | idle heq => exact hold (heq.symm.trans hfind)
    | edited _ _ _ hfind' => exact hold hfind'
    | removed _ _ _ _ hm => cases hm.symm.trans hfind
    | inserted _ _ hnone hm =>
      refine ⟨⟨n, a, m⟩, List.mem_append_right _ (List.mem_singleton_self _), hnone, ?_⟩
      rw [hm]
      rfl

theorem Legal.past_of_inserts (h : Legal ids n a m) (hinserts : Step.Inserts id ⟨n, a, m⟩) :
    Past (ids ++ a.provision?.toList) m id := by
  obtain ⟨r, hr⟩ := Option.isSome_iff_exists.1 hinserts.2
  exact h.after.past_of_find? hr

/-- Nobody is about to insert a record that was inserted before. -/
theorem Run.past_of_inserts (h : Run made ids n) {s : Step} (hs : s ∈ made)
    (hinserts : s.Inserts id) : Past ids n id :=
  h.lasts (Q := fun ids n => Past ids n id) (fun hlegal => hlegal.past_of_inserts)
    (fun hlegal => hlegal.past) s hs hinserts

/-- No record is inserted twice. -/
theorem Run.inserts_once (h : Run made ids n) (id : InstanceId) :
    made.Pairwise fun s s' => ¬ (s.Inserts id ∧ s'.Inserts id) :=
  h.pairwise (Q := fun ids n => Past ids n id) (fun hlegal => hlegal.past_of_inserts)
    (fun hlegal => hlegal.past) fun hlegal hpast hinserts => by
      obtain ⟨t, spec, lease, -, ht⟩ := hlegal.of_inserts hinserts
      cases hpast.2 .leasing (.of_work? ht (if_pos rfl))

/-! ### Calls that succeed -/

/-- A process that is up gets into the record. -/
theorem Run.attaches (h : Run made ids n)
    (ht : n.work? t = some (.provision id spec (.attach p))) :
    ∃ m r, n.run t = some m ∧ m.work? t = some (.provision id spec (.enter p)) ∧
      m.registry.records.find? id = some r ∧ r.state = .provisioning ∧ r.process = some p := by
  obtain ⟨r, l, hfind, hstate, -⟩ := h.tidy.find?_of_launching ht (if_pos rfl)
  let k : Node := { n with registry := n.registry.put { r with process := some p } }
  have hstep : n.stepProvision id spec (.attach p) = some (k, .enter p) := by
    rw [stepProvision, Registry.attach_of_find? hfind]
  refine ⟨k.setWork t _, _, run_of_stepWork (k := k) ht rfl (fun _ => ?_),
    work?_setWork_self (k := k) ht _, Registry.find?_put_self (h.tidy.keyed id r hfind), hstate,
    rfl⟩
  rw [stepWork, hstep]
  rfl

/-- The instance runs. -/
theorem Run.enters (h : Run made ids n)
    (ht : n.work? t = some (.provision id spec (.enter p))) :
    ∃ m r, n.run t = some m ∧ m.work? t = some (.provision id spec (.ended (.ok id))) ∧
      m.registry.records.find? id = some r ∧ r.state = .running ∧ r.process = some p := by
  obtain ⟨r, q, hfind, hstate, hq⟩ := h.tidy.find?_of_entering ht (if_pos rfl)
  -- the record has the process that was brought up for the instance
  obtain rfl := h.guarded.once id p q (h.guarded.raised t id spec _ p ht rfl)
    (h.guarded.attached id r q hfind hq)
  let j : Node := { n with registry := n.registry.put { r with state := .running } }
  let k : Node := (j.spawn (.monitor id p .wait) false).2
  have hstep : n.stepProvision id spec (.enter p) = some (k, .ended (.ok id)) := by
    rw [stepProvision, Registry.updateState_of_find? hfind (by rw [hstate]; rfl)]
  have hk : k.work? t = some (.provision id spec (.enter p)) :=
    (work?_spawn_cases (n := j) h.tidy.numbered t).elim (fun heq => heq.trans ht) fun hnew => by
      cases hnew.1.symm.trans ht
  refine ⟨k.setWork t _, _, run_of_stepWork (k := k) ht rfl (fun _ => ?_),
    work?_setWork_self hk _, Registry.find?_put_self (h.tidy.keyed id r hfind), rfl, hq⟩
  rw [stepWork, hstep]
  rfl

/-- An instance whose call ended well has run, with the process that was brought up for it. -/
theorem Run.succeeded (h : Run made ids n) : ∀ {t spec j},
    n.work? t = some (.provision id spec (.ended (.ok j))) → j = id ∧ ∃ s ∈ made, ∃ r p,
      s.move.task? = some t ∧ s.after.registry.records.find? id = some r ∧
        r.state = .running ∧ r.process = some p ∧ Launched made id p := by
  induction h with
  | start hstart =>
    obtain rfl := start_eq_ok hstart
    exact fun ht => by cases ht
  | @move made ids n m a hrun hlegal ih =>
    intro t spec j hm
    rcases (hlegal.onTask t).of_provision hm with ht | ⟨-, hbegun⟩ | ⟨phase, k, ha, ht, hadvance, -⟩
    · obtain ⟨hj, s, hs, r, p, hmove, hfind, hstate, hprocess, hp⟩ := ih ht
      exact ⟨hj, s, List.mem_append_left _ hs, r, p, hmove, hfind, hstate, hprocess, hp.append _⟩
    · rcases hbegun.of_provision.2 with hphase | ⟨_, hphase⟩ <;> cases hphase
    · cases hadvance with
      -- no errand ends the call well
      | errand herrand _ heq | answer herrand _ heq => cases hrun.raises.resumes ht herrand heq
      | provision hsteps =>
        cases hsteps with
        | @enter p =>
          -- the call ends when the instance begins to run
          have hp := hrun.guarded.raised t id spec _ p ht rfl
          obtain ⟨m', r, hm', -, hfind, hstate, hprocess⟩ := hrun.enters ht
          cases ha
          obtain rfl := Option.some.inj (hlegal.move.symm.trans hm')
          exact ⟨rfl, _, List.mem_append_right _ (List.mem_singleton_self _), r, p, rfl, hfind,
            hstate, hprocess, hp.append _⟩

/-! ### Calls that fail -/

/-- Nothing is shown of the instance, and nobody is about to insert a record for it. -/
def Void (ids : List InstanceId) (n : Node) (id : InstanceId) : Prop :=
  Past ids n id ∧ n.view id = ⟨none, false⟩

theorem Void.change (hn : n.Tidy ids) (h : Void ids n id) (hchange : Change ids n ids' m) :
    Void ids' m id := by
  refine ⟨h.1.change hchange, ?_⟩
  cases hchange with
  | @stride t work work' i _ hturn htouches _ _ _ hstride =>
    by_cases hid : id = i
    · subst hid
      exact hstride.of_void (fun q hq => hn.fits t id q (hturn.role?_before.trans hq))
        (fun q hq => h.1.2 q ⟨t, hturn.role?_before.trans hq⟩) h.2
    · exact (htouches.view hid).trans h.2
  | carries hcarries =>
    rw [view, hcarries.registry, hcarries.hub]
    exact h.2
  | spawn => exact h.2
  | aside _ _ _ hregistry hcurrent =>
    rw [view, hregistry, hcurrent]
    exact h.2

theorem Void.legal (h : Void ids n id) (hlegal : Legal ids n a m) :
    Void (ids ++ a.provision?.toList) m id :=
  (hlegal.changes.induct (P := fun ids n => Void ids n id)
    (fun hn h hchange => h.change hn hchange) hlegal.tidy h).2

/-- The call that provisions the instance is the only one that would insert a record. -/
theorem Raises.past (h : Raises ids n) (ht : n.work? t = some (.provision id spec phase))
    (hphase : ∀ r, phase.role? = some r → r.isFresh = false) : Past ids n id := by
  refine ⟨h.own t id spec phase ht, fun r hr => ?_⟩
  obtain ⟨s, hs⟩ := hr
  obtain ⟨work, hwork, hrole⟩ := Option.bind_eq_some_iff.1 hs
  by_contra hfresh
  obtain ⟨spec', phase', rfl, hr⟩ := Work.provisions_of_role? hrole (.inl (by simpa using hfresh))
  obtain rfl := h.single s t id _ _ _ _ hwork ht
  cases Option.some.inj (hwork.symm.trans ht)
  exact hfresh (hphase r hr)

/-- Nothing is shown of an instance whose call failed. -/
theorem Run.failed (h : Run made ids n) : ∀ {t spec cause},
    n.work? t = some (.provision id spec (.ended (.error cause))) → Void ids n id := by
  induction h with
  | start hstart =>
    obtain rfl := start_eq_ok hstart
    exact fun ht => by cases ht
  | @move made ids n m a hrun hlegal ih =>
    intro t spec cause hm
    have hpast : Past (ids ++ a.provision?.toList) m id :=
      (hrun.raises.legal hlegal).past hm nofun
    rcases (hlegal.onTask t).of_provision hm with ht | ⟨-, hbegun⟩ | ⟨phase, k, -, ht, hadvance, hk⟩
    · exact (ih ht).legal hlegal
    · -- the request was refused, and there never was an instance
      have ha := hbegun.of_provision.1
      cases a with
      | begin r =>
        obtain rfl := Option.some.inj hlegal.move
        exact ⟨hpast, (hlegal.tidy.strange id (hlegal.new id ha)).1⟩
      | _ => cases ha
    · subst hk
      have hfits : ∀ q, phase.role? = some q → q.Fits (n.view id) := fun q hq =>
        hlegal.tidy.fits_of_work ht ((if_pos rfl).trans hq)
      cases hadvance with
      | errand herrand _ heq | answer herrand _ heq =>
        cases hrun.raises.resumes ht herrand heq with
        | @unleased e =>
          -- no slot was got, and there is no record yet
          have hnone : Role.leasing.Fits (n.view id) := by
            cases e with
            | toBegin => exact hfits .asking rfl
            | going => exact hfits .leasing rfl
          exact ⟨hpast, congrArg₂ View.mk hnone.1 hnone.2⟩
      | provision hsteps =>
        cases hsteps with
        | closeConsole =>
          have hnone : (n.view id).status = none := hfits .clearing rfl
          have hclosed : (n.hub.remove id).current.find? id = none :=
            Console.Hub.find?_remove_self _ _
          exact ⟨hpast, congrArg₂ View.mk hnone (congrArg Option.isSome hclosed)⟩

/-- A task gives the slot of an instance back. -/
def Returns (n : Node) (id : InstanceId) (slot t : Nat) : Prop :=
  ∃ work e l, n.work? t = some work ∧ work.errand? = some e ∧ e.call = .release l ∧
    l.slot = slot ∧ l.holder = id

/-- Whoever gives a slot back has the hold on it. -/
theorem Returns.holds {slot : Nat} (h : n.Returns id slot t) :
    ∃ work x, n.work? t = some work ∧ x ∈ work.holds ∧ x.holder = id := by
  obtain ⟨work, e, l, ht, herrand, hcall, -, rfl⟩ := h
  obtain ⟨x, hx⟩ := Errand.exists_hold_of_release hcall
  refine ⟨work, x, ht, ?_, (Errand.slot_of_release hcall hx).2.symm⟩
  rw [Work.holds_of_errand? herrand]
  exact hx

/-- One task at most gives the slots of an instance back. -/
theorem Tidy.eq_of_returns (hn : n.Tidy ids) {s slot slot' : Nat} (hs : n.Returns id slot s)
    (ht : n.Returns id slot' t) : s = t := by
  obtain ⟨work, x, hs, hx, hholder⟩ := hs.holds
  obtain ⟨work', y, ht, hy, hholder'⟩ := ht.holds
  obtain rfl := hn.single x (Multiset.mem_of_le (hn.work_holds_le hs) hx) y
    (Multiset.mem_of_le (hn.work_holds_le ht) hy) (hholder.trans hholder'.symm)
  exact hn.eq_of_mem_work_holds hs ht hx hy

/-- If a slot is still held for an instance whose call failed, one task gives it back. -/
theorem Run.returns_of_failed (h : Run made ids n) {cause : Error}
    (ht : n.work? t = some (.provision id spec (.ended (.error cause)))) {slot : Nat} {g : Holding}
    (hslot : n.pool.slots.find? slot = some g) (hholder : g.holder = id) :
    ∃! u, n.Returns id slot u := by
  obtain ⟨hpast, hview⟩ := h.failed ht
  have hmem : (⟨slot, g.holder, g.releasing⟩ : Hold) ∈ n.pool.holds :=
    Pool.mem_holds.2 ⟨g, hslot, rfl, rfl⟩
  obtain ⟨u, work, l, hu, hgives, hl, hlholder⟩ := h.tidy.givesBack_of_mem_holds
    (find?_of_view_none (congrArg View.status hview)) hpast hmem hholder
  have hreturns : n.Returns id slot u := by
    rcases hgives with ⟨i, p, reason, rfl⟩ | ⟨e, herrand, hcall⟩
    · -- an instance that was never up has no monitor
      obtain rfl : l.holder = i := h.tidy.proper u _ hu l rfl
      subst hlholder
      cases h.guarded.up l.holder p t spec _ (h.guarded.watched u l.holder p _ hu).1 ht
    · exact ⟨work, e, l, hu, herrand, hcall, hl, hlholder⟩
  exact ⟨u, hreturns, fun v hv => h.tidy.eq_of_returns hv hreturns⟩

/-! ### All calls -/

/-- A record that is `provisioning` is changed and taken out by the call only that has inserted
    it. -/
theorem Run.inserter_of_provisioning (h : Run made ids n) (hlegal : Legal ids n a m)
    (hfind : n.registry.records.find? id = some r) (hstate : r.state = .provisioning)
    (hchanged : m.registry.records.find? id ≠ some r) :
    ∃ t spec phase, a.task? = some t ∧ n.work? t = some (.provision id spec phase) ∧
      ∃ s ∈ made, s.Inserts id ∧ s.move.task? = some t := by
  obtain ⟨t, spec, phase, ha, ht⟩ := h.of_provisioning hlegal hfind hstate hchanged
  obtain ⟨s, hs, hinserts⟩ := h.inserted hfind
  obtain ⟨t', _, _, hmove, ht'⟩ := h.inserter hs hinserts
  obtain rfl := h.raises.single t t' id _ _ _ _ ht ht'
  exact ⟨t, spec, phase, ha, ht, s, hs, hinserts, hmove⟩

/-- What a run makes of calls that provision instances. -/
structure Sound (made : List Step) (n : Node) : Prop where
  /-- A record is inserted once. -/
  once : ∀ id, made.Pairwise fun s s' => ¬ (s.Inserts id ∧ s'.Inserts id)
  /-- While it is `provisioning`, only the call that has inserted it changes it or takes it
      out. -/
  kept : ∀ before s after id r, made = before ++ s :: after →
    s.before.registry.records.find? id = some r → r.state = .provisioning →
    s.after.registry.records.find? id ≠ some r → ∃ t spec phase, s.move.task? = some t ∧
      s.before.work? t = some (.provision id spec phase) ∧
      ∃ s' ∈ before, s'.Inserts id ∧ s'.move.task? = some t
  /-- So a process that is up gets into the record, … -/
  attaches : ∀ t id spec p, n.work? t = some (.provision id spec (.attach p)) → ∃ m r,
    n.run t = some m ∧ m.work? t = some (.provision id spec (.enter p)) ∧
      m.registry.records.find? id = some r ∧ r.state = .provisioning ∧ r.process = some p
  /-- … and then the instance runs. -/
  enters : ∀ t id spec p, n.work? t = some (.provision id spec (.enter p)) → ∃ m r,
    n.run t = some m ∧ m.work? t = some (.provision id spec (.ended (.ok id))) ∧
      m.registry.records.find? id = some r ∧ r.state = .running ∧ r.process = some p
  /-- Until it is gone, a process that is up has a record. -/
  sheltered : ∀ id p, Launched made id p → n.exit? p = none → ∃ r,
    n.registry.records.find? id = some r ∧
      (r.process = some p ∨ ∃ t spec, n.work? t = some (.provision id spec (.attach p)))
  /-- A call that failed leaves neither a record nor a console, and if a slot is still held, one
      task gives it back. -/
  failed : ∀ t id spec cause, n.work? t = some (.provision id spec (.ended (.error cause))) →
    n.registry.records.find? id = none ∧ n.hub.current.find? id = none ∧
      ∀ slot g, n.pool.slots.find? slot = some g → g.holder = id → ∃! u, n.Returns id slot u
  /-- A call that did not fail has brought the instance to run, with the process that was brought
      up for it. -/
  succeeded : ∀ t id spec j, n.work? t = some (.provision id spec (.ended (.ok j))) → j = id ∧
    ∃ s ∈ made, ∃ r p, s.move.task? = some t ∧ s.after.registry.records.find? id = some r ∧
      r.state = .running ∧ r.process = some p ∧ Launched made id p

/-- Whatever calls are made and however the steps of tasks fall between each other, as long as
    no two instances get one identifier, a call that provisions an instance keeps its record to
    itself, and ends with an instance that ran or with nothing left behind. -/
theorem sound_of_play {config : NodeConfig} {ownerBase : Option Nat} {start : Node}
    {moves : List Move} (hstart : Node.start config ownerBase = .ok start)
    (hids : (provisioned moves).Nodup) (hplay : start.play moves = some n) :
    Sound (start.steps moves) n := by
  have hrun := run_of_play hstart hids hplay
  refine ⟨hrun.inserts_once, fun before s after id r hmade hfind hstate hchanged => ?_,
    fun t id spec p ht => hrun.attaches ht, fun t id spec p ht => hrun.enters ht,
    fun id p hp hexit => ?_, fun t id spec cause ht => ?_, fun t id spec j ht => hrun.succeeded ht⟩
  · obtain ⟨ids, hbefore, hlegal⟩ := hrun.split hmade
    exact hbefore.inserter_of_provisioning hlegal hfind hstate hchanged
  · obtain ⟨r, -, hfind, -, -, hprocess⟩ := hrun.guarded.held id p hp hexit
    exact ⟨r, hfind, hprocess⟩
  · obtain ⟨-, hview⟩ := hrun.failed ht
    have hclosed : (n.hub.current.find? id).isSome = false := congrArg View.hasConsole hview
    exact ⟨find?_of_view_none (congrArg View.status hview),
      Option.isNone_iff_eq_none.1 (Option.isSome_eq_false_iff.1 hclosed),
      fun slot g hslot hholder => hrun.returns_of_failed ht hslot hholder⟩

/-- The launch of an instance fails, and a call that finds the final record takes it out before
    the call that has inserted it does. -/
def reapedOnFailure : List Move :=
  let ok : Move := .host 0 (.ok ())
  [.begin (.provision "i-1" (.ofImage "app")), .run 0, ok, ok, ok, ok, .run 0, .run 0, .run 0,
    .launched 0 (.error (.launch "refused")), .run 0, .begin (.deprovision "i-1" none), .run 1,
    .run 1, .run 0, .run 0]

/-- Both calls have gone on so far, and it is the other one that gives the slot back. -/
theorem sound_reapedOnFailure : ∃ start n spec cause, Node.start {} none = .ok start ∧
    start.play reapedOnFailure = some n ∧
    n.work? 0 = some (.provision "i-1" spec (.ended (.error cause))) ∧
    Sound (start.steps reapedOnFailure) n ∧ ∃! u, n.Returns "i-1" 0 u := by
  let n := (blank.play reapedOnFailure).get (by decide +kernel)
  let g := (n.pool.slots.find? 0).get (by decide +kernel)
  have hplay : blank.play reapedOnFailure = some n := (Option.some_get _).symm
  have hslot : n.pool.slots.find? 0 = some g := (Option.some_get _).symm
  have hids : (provisioned reapedOnFailure).Nodup := by decide +kernel
  have hended : n.work? 0 = some (.provision "i-1" (.ofImage "app")
      (.ended (.error (.launch "refused")))) := by decide +kernel
  have hholder : g.holder = "i-1" := by decide +kernel
  have hsound := sound_of_play start_blank hids hplay
  exact ⟨blank, n, _, _, start_blank, hplay, hended, hsound,
    (hsound.failed 0 "i-1" _ _ hended).2.2 0 g hslot hholder⟩

end Node

end VmNode
