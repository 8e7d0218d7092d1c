import VmNode.Proofs.Node.Run

/-!
# Calls that provision instances

Every identifier belongs to one call that provisions an instance (`Node.Raises`), and such a
call stays until the end of the run, whatever becomes of its caller. So what one phase of the
call rules out, no other call brings about.
-/

namespace VmNode

/-- What a call that provisions an instance comes to by a step of an errand, unless its
    identifier was taken. -/
inductive ProvisionPhase.Resumes : ProvisionPhase → ProvisionPhase → Prop
  /-- A slot is being leased. -/
  | lease {e e' : Errand} : Resumes (.lease e) (.lease e')
  /-- It is leased. -/
  | leased {e : Errand} {l : Lease} : Resumes (.lease e) (.insert l)
  /-- It is not. -/
  | unleased {e : Errand} {cause : Error} : Resumes (.lease e) (.ended (.error cause))
  /-- The lease is being given back. -/
  | giveBack {e e' : Errand} {cause : Error} : Resumes (.giveBack e cause) (.giveBack e' cause)
  /-- It is given back. -/
  | gaveBack {e : Errand} {cause : Error} : Resumes (.giveBack e cause) (.closeConsole cause)

theorem ProvisionPhase.resumes {phase : ProvisionPhase} {e : Errand} (h : phase.errand? = some e)
    (hrefuse : ∀ e, phase ≠ .refuse e) (id : InstanceId) (progress : Errand.Progress) :
    phase.Resumes (phase.resume id progress) := by
  cases phase with
  | lease =>
    cases progress with
    | going => exact .lease
    | done outcome =>
      cases outcome with
      | error => exact .unleased
      | ok reply =>
        cases reply with
        | leased => exact .leased
        | released | published => exact .lease
  | refuse e => exact absurd rfl (hrefuse e)
  | giveBack =>
    cases progress with
    | going => exact .giveBack
    | done => exact .gaveBack
  | _ => cases h

namespace Node

variable {ids : List InstanceId} {n m k : Node} {a : Move} {id : InstanceId} {t p : Nat}
variable {made : List Step} {spec : InstanceSpec} {phase phase' : ProvisionPhase}

/-- How a call that provisions an instance came to its phase. -/
theorem OnTask.of_provision (h : n.OnTask a m t)
    (hm : m.work? t = some (.provision id spec phase')) :
    n.work? t = some (.provision id spec phase') ∨
      (n.work? t = none ∧ n.Begun a (.provision id spec phase')) ∨
        ∃ phase k, a.task? = some t ∧ n.work? t = some (.provision id spec phase) ∧
          n.Advance a (.provision id spec phase) k (.provision id spec phase') ∧
            m = k.setWork t (.provision id spec phase') := by
  cases h with
  | idle heq => exact .inl (heq.symm.trans hm)
  | begun hnone hw hbegun =>
    obtain rfl := Option.some.inj (hw.symm.trans hm)
    exact .inr (.inl ⟨hnone, hbegun⟩)
  | dropped _ _ hgone => cases hgone.symm.trans hm
  | @goes w _ k ha ht hadvance hk hw =>
    obtain rfl := Option.some.inj (hw.symm.trans hm)
    have hbefore : ∃ phase, w = .provision id spec phase := by
      cases hadvance with
      | errand _ _ heq | answer _ _ heq =>
        obtain ⟨phase, hwork, -⟩ := Work.of_resume_provision heq
        exact ⟨phase, hwork⟩
      | provision | launched | unlaunched => exact ⟨_, rfl⟩
    obtain ⟨phase, rfl⟩ := hbefore
    exact .inr (.inr ⟨phase, k, ha, ht, hadvance, hk⟩)

/-- A call that provisions an instance goes on to do so. -/
theorem OnTask.provision_stays (h : n.OnTask a m t)
    (ht : n.work? t = some (.provision id spec phase)) :
    ∃ phase', m.work? t = some (.provision id spec phase') := by
  cases h with
  | idle heq => exact ⟨phase, heq.trans ht⟩
  | begun hnone => cases hnone.symm.trans ht
  | dropped hold hbound =>
    obtain rfl := Option.some.inj (ht.symm.trans hold)
    cases hbound
  | goes _ hold hadvance _ hm =>
    obtain rfl := Option.some.inj (ht.symm.trans hold)
    cases hadvance with
    | errand _ _ heq | answer _ _ heq => exact ⟨_, hm.trans (congrArg some heq)⟩
    | provision | launched | unlaunched => exact ⟨_, hm⟩

/-- Every identifier belongs to one call that provisions an instance, and none is refused. -/
structure Raises (ids : List InstanceId) (n : Node) : Prop where
  /-- The identifier was given. -/
  own : ∀ t id spec phase, n.work? t = some (.provision id spec phase) → id ∈ ids
  /-- Two calls do not provision the same instance. -/
  single : ∀ s t id spec spec' phase phase', n.work? s = some (.provision id spec phase) →
    n.work? t = some (.provision id spec' phase') → s = t
  /-- The registry takes every new instance. -/
  unrefused : ∀ t id spec e, n.work? t ≠ some (.provision id spec (.refuse e))

/-- What becomes of such a call with a step of its errand. -/
theorem Raises.resumes (h : Raises ids n) (ht : n.work? t = some (.provision id spec phase))
    {e : Errand} {progress : Errand.Progress}
    (herrand : (Work.provision id spec phase).errand? = some e)
    (heq : .provision id spec phase' = (Work.provision id spec phase).resume progress) :
    phase.Resumes phase' := by
  obtain ⟨_, hwork, rfl⟩ := Work.of_resume_provision heq
  cases hwork
  exact ProvisionPhase.resumes herrand (fun e hphase => h.unrefused t id spec e (hphase ▸ ht)) id
    progress

theorem eq_size_of_spawn {work w : Work} {hasCaller : Bool}
    (h : (n.spawn work hasCaller).2.work? t = some w) (hnone : n.work? t = none) :
    t = n.tasks.size := by
  by_contra ht
  rw [work?, Node.spawn, Table.find?_insert_of_ne _ _ ht] at h
  cases hnone.symm.trans h

/-- A call that was not there before is the only one that begins. -/
theorem Legal.eq_size_of_begun (h : Legal ids n a m) {work : Work}
    (ha : a.provision? = some id) (hnone : n.work? t = none) (hm : m.work? t = some work) :
    t = n.tasks.size := by
  cases a with
  | begin r =>
    obtain rfl := Option.some.inj h.move
    exact eq_size_of_spawn hm hnone
  | _ => cases ha

/-- A new call gets a new identifier, so it has the instance to itself. -/
theorem Raises.legal (h : Raises ids n) (hlegal : Legal ids n a m) :
    Raises (ids ++ a.provision?.toList) m := by
  -- a call was there before, or begins for a new instance
  have hold : ∀ {t id spec phase}, m.work? t = some (.provision id spec phase) →
      (∃ phase, n.work? t = some (.provision id spec phase)) ∨
        t = n.tasks.size ∧ a.provision? = some id := fun {t id spec phase} hm => by
    rcases (hlegal.onTask t).of_provision hm with ht | ⟨hnone, hbegun⟩ | ⟨phase, _, _, ht, -⟩
    · exact .inl ⟨_, ht⟩
    · exact .inr ⟨hlegal.eq_size_of_begun hbegun.of_provision.1 hnone hm, hbegun.of_provision.1⟩
    · exact .inl ⟨phase, ht⟩
  refine ⟨fun t id spec phase hm => ?_, fun s t id spec spec' phase phase' hs ht => ?_,
    fun t id spec e hm => ?_⟩
  · rcases hold hm with ⟨phase, ht⟩ | ⟨-, ha⟩
    · exact List.mem_append_left _ (h.own t id spec phase ht)
    · rw [ha]
      exact List.mem_append_right _ (List.mem_singleton_self id)
  · rcases hold hs with ⟨_, hs⟩ | ⟨rfl, ha⟩
    · rcases hold ht with ⟨_, ht⟩ | ⟨-, ha⟩
      · exact h.single s t id _ _ _ _ hs ht
      · exact absurd (h.own s id _ _ hs) (hlegal.new id ha)
    · rcases hold ht with ⟨_, ht⟩ | ⟨rfl, -⟩
      · exact absurd (h.own t id _ _ ht) (hlegal.new id ha)
      · rfl
  · rcases (hlegal.onTask t).of_provision hm with ht | ⟨-, hbegun⟩ | ⟨phase, _, _, ht, hadvance, -⟩
    · exact h.unrefused t id spec e ht
    · rcases hbegun.of_provision.2 with hphase | ⟨_, hphase⟩ <;> cases hphase
    · cases hadvance with
      | errand herrand _ heq | answer herrand _ heq => cases h.resumes ht herrand heq
      | provision hsteps => cases hsteps

/-- Along every run identifiers belong to one call each. -/
theorem Run.raises (h : Run made ids n) : Raises ids n := by
  induction h with
  | start hstart =>
    obtain rfl := start_eq_ok hstart
    exact ⟨fun _ _ _ _ h => (by cases h), fun _ _ _ _ _ _ _ h => (by cases h),
      fun _ _ _ _ h => (by cases h)⟩
  | move _ hlegal ih => exact ih.legal hlegal

end Node

end VmNode
