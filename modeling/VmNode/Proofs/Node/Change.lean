import VmNode.Proofs.Node.Step

/-!
# Changes of a node

Every move of a node is a sequence of changes (`Node.Changes.of_move`), and of those there
are few kinds (`Node.Change`): a task takes a step on its instance, a task goes on with its
errand, a task is begun, or something happens that no instance sees. So what is to hold of
a node at all times needs to be proved of these changes only (`Node.Changes.induct`). The
first thing to hold is that the node is in order (`Node.Tidy.changes`).
-/

namespace VmNode.Node

variable {ids ids' : List InstanceId} {n m : Node} {t : Nat} {work work' : Work}

/-- The next step of an errand on the pool is one that a task can go on with. -/
theorem Carries.of_steps (hn : n.Tidy ids) {e : Errand} {progress : Errand.Progress}
    (hturn : Turn t work (work.resume progress) n m) (hwork : work.errand? = some e)
    (hregistry : m.registry = n.registry) (hhub : m.hub = n.hub)
    (hsteps : e.Steps n.config.network n.ownerBase n.pool m.pool progress) :
    Carries t work (work.resume progress) n m := by
  have hmine := hn.errand_holds_le hturn.before hwork
  have hproper := hn.proper t work hturn.before
  obtain ⟨hproper', hholds⟩ := Work.resume_proper hwork hproper hsteps.of
  have hroles := Work.resume_role? hwork hproper hsteps.of hsteps.ne_toBegin
  refine ⟨hturn, hregistry, hhub, hsteps.within hn.within, hproper', Work.not_waits_resume hwork,
    fun j => (hroles j).1, fun j => (hroles j).2, ?_, ?_, ?_⟩
  · rw [hholds, Work.holds_of_errand? hwork]
    exact hsteps.holds hn.within hmine
  · rw [hholds]
    exact fun x hx y hy => Errand.Progress.eq_of_mem_holds hx hy
  · rw [hholds, Work.holds_of_errand? hwork]
    intro x hx
    rcases hsteps.of_mem_holds hn.within hmine hx with ⟨y, hy, -, hholder⟩ | rfl
    · exact .inl ⟨y, hy, hholder⟩
    · exact .inr (Work.role?_of_toBegin_lease hwork hproper)

/-- So is an answer of the host. -/
theorem Carries.of_answer (hn : n.Tidy ids) {e : Errand} {progress : Errand.Progress}
    {result : Except Error Unit} (hturn : Turn t work (work.resume progress) n m)
    (hwork : work.errand? = some e) (hregistry : m.registry = n.registry) (hhub : m.hub = n.hub)
    (hpool : m.pool = n.pool) (hanswer : e.answer n.config.network result = some progress) :
    Carries t work (work.resume progress) n m := by
  have hproper := hn.proper t work hturn.before
  obtain ⟨hproper', hholds⟩ := Work.resume_proper hwork hproper (Errand.of_answer hanswer)
  have hroles := Work.resume_role? hwork hproper (Errand.of_answer hanswer)
    (Errand.ne_toBegin_of_answer hanswer)
  have hsame : (work.resume progress).holds = work.holds := by
    rw [hholds, Work.holds_of_errand? hwork, Errand.holds_answer hanswer]
  refine ⟨hturn, hregistry, hhub, hpool ▸ hn.within, hproper', Work.not_waits_resume hwork,
    fun j => (hroles j).1, fun j => (hroles j).2, ?_, ?_, ?_⟩
  · rw [hsame, hpool]
  · rw [hholds]
    exact fun x hx y hy => Errand.Progress.eq_of_mem_holds hx hy
  · rw [hsame]
    exact fun x hx => .inl ⟨x, hx, rfl, fun hleaving => hleaving⟩

/-- A change of a node that has provisioned instances with some identifiers, and the
    identifiers that it has provisioned instances with afterwards. -/
inductive Change (ids : List InstanceId) (n : Node) : List InstanceId → Node → Prop
  /-- A task takes a step on its instance. -/
  | stride {t : Nat} {work work' : Work} {id : InstanceId} {m : Node} :
    Turn t work work' n m → Touches id n m →
    (∀ j, j ≠ id → work.role? j = none ∧ work'.role? j = none) → work'.Proper →
    n.Learns work work' → Stride id (work.role? id) work.holds (n.view id) (work'.role? id)
      work'.holds (m.view id) → Change ids n ids m
  /-- A task goes on with its errand. -/
  | carries {t : Nat} {work work' : Work} {m : Node} : Carries t work work' n m → Change ids n ids m
  /-- A task is begun, perhaps for a new instance. -/
  | spawn {ids' : List InstanceId} {work : Work} {hasCaller : Bool} :
    ids ⊆ ids' → work.holds = 0 → work.Proper → (∀ id signal, ¬ work.Waits id signal) →
    (∀ id r, work.role? id = some r → r = .asking ∧ id ∉ ids ∧ id ∈ ids') →
    Change ids n ids' (n.spawn work hasCaller).2
  /-- Something else happens. -/
  | aside {m : Node} : m.config = n.config → m.tasks = n.tasks → m.pool = n.pool →
    m.registry = n.registry → m.hub.current = n.hub.current → Change ids n ids m

/-- Changes that follow each other. -/
inductive Changes (ids : List InstanceId) (n : Node) : List InstanceId → Node → Prop
  | refl : Changes ids n ids n
  | step {ids' ids'' : List InstanceId} {m k : Node} :
    Changes ids n ids' m → Change ids' m ids'' k → Changes ids n ids'' k

/-- A change leaves a node in order. -/
theorem Tidy.change (hn : n.Tidy ids) (h : Change ids n ids' m) : m.Tidy ids' := by
  cases h with
  | stride hturn htouches hroles hproper _ hstride =>
    have hsame : ∀ j, j ≠ _ → _ := fun j hj => (hroles j hj).2.trans (hroles j hj).1.symm
    exact Strides.tidy ⟨hturn, htouches, hsame, hproper, hstride⟩ hn
  | carries hcarries => exact hcarries.tidy hn
  | spawn hsub hholds hproper _ hroles => exact hn.spawn hsub hholds hproper hroles
  | aside hconfig htasks hpool hregistry hcurrent =>
    exact hn.congr hconfig htasks hpool hregistry hcurrent

namespace Changes

variable {ids'' : List InstanceId} {k : Node}

theorem single (h : Change ids n ids' m) : Changes ids n ids' m := .step .refl h

theorem trans (h : Changes ids n ids' m) (h' : Changes ids' m ids'' k) : Changes ids n ids'' k := by
  induction h' with
  | refl => exact h
  | step _ hchange ih => exact .step ih hchange

/-- What every change of a node in order keeps, all changes that follow each other keep. -/
theorem induct {P : List InstanceId → Node → Prop}
    (hstep : ∀ {ids n ids' m}, Tidy ids n → P ids n → Change ids n ids' m → P ids' m)
    (hn : n.Tidy ids) (hP : P ids n) (h : Changes ids n ids' m) : m.Tidy ids' ∧ P ids' m := by
  induction h with
  | refl => exact ⟨hn, hP⟩
  | step _ hchange ih => exact ⟨ih.1.change hchange, hstep ih.1 ih.2 hchange⟩

end Changes

theorem Tidy.changes (hn : n.Tidy ids) (h : Changes ids n ids' m) : m.Tidy ids' :=
  (h.induct (P := fun _ _ => True) (fun _ _ _ => trivial) hn trivial).1

/-! ### Holds -/

/-- A hold that is there after a change is one that was there before, perhaps being given back
    now, unless its instance asked for a slot. -/
theorem Change.of_mem_holds (hn : n.Tidy ids) (h : Change ids n ids' m) {x : Hold}
    (hx : x ∈ m.pool.holds) : (∃ y ∈ n.pool.holds, y.holder = x.holder ∧
      (y.isLeaving = true → x.isLeaving = true)) ∨ n.HasRole x.holder .asking := by
  cases h with
  | stride hturn htouches =>
    rw [htouches.pool] at hx
    exact .inl ⟨x, hx, rfl, fun hleaving => hleaving⟩
  | carries hcarries =>
    rcases hcarries.of_mem_holds hn hx with ⟨hx, -⟩ | hx
    · exact .inl ⟨x, hx, rfl, fun hleaving => hleaving⟩
    · -- whoever gets a hold by a step of its call has one for the instance, or asked for it
      rcases hcarries.new x hx with ⟨y, hy, hholder⟩ | hrole
      · exact .inl ⟨y, Multiset.mem_of_le (hn.work_holds_le hcarries.turn.before) hy, hholder⟩
      · exact .inr ⟨_, hcarries.turn.role?_before.trans hrole⟩
  | spawn => exact .inl ⟨x, hx, rfl, fun hleaving => hleaving⟩
  | aside _ _ hpool _ _ =>
    rw [hpool] at hx
    exact .inl ⟨x, hx, rfl, fun hleaving => hleaving⟩

/-- Who is new asks for a slot, and nobody else gets to do so. -/
theorem Change.of_hasRole_asking (h : Change ids n ids' m) {id : InstanceId}
    (hr : m.HasRole id .asking) : n.HasRole id .asking ∨ id ∉ ids := by
  cases h with
  | stride hturn _ hroles _ _ hstride =>
    exact .inl (hturn.of_hasRole_fresh (fun j hj => (hroles j hj).2.trans (hroles j hj).1.symm)
      hstride hr rfl)
  | carries hcarries =>
    rcases hcarries.of_hasRole hr with hr | ⟨heq, -⟩
    · exact .inl hr
    · cases heq
  | spawn _ _ _ _ hroles =>
    rcases of_hasRole_spawn hr with hr | hr
    · exact .inl hr
    · exact .inr (hroles id _ hr).2.1
  | aside _ htasks _ _ _ => exact .inl (hr.of_tasks htasks)

/-! ### Instances that have been there -/

theorem Change.subset (h : Change ids n ids' m) : ids ⊆ ids' := by
  cases h with
  | spawn hsub => exact hsub
  | stride | carries | aside => exact List.Subset.refl _

/-- The instance was provisioned and does not ask for a slot any more. -/
def Asked (id : InstanceId) (ids : List InstanceId) (n : Node) : Prop :=
  id ∈ ids ∧ ¬ n.HasRole id .asking

theorem Asked.change {id : InstanceId} (h : Asked id ids n) (hchange : Change ids n ids' m) :
    Asked id ids' m :=
  ⟨hchange.subset h.1, fun hr => (hchange.of_hasRole_asking hr).elim h.2 fun hnot => hnot h.1⟩

/-- An instance that has a hold has asked for it. -/
theorem Tidy.asked_of_mem_holds (hn : n.Tidy ids) {x : Hold} (hx : x ∈ n.pool.holds) :
    Asked x.holder ids n := by
  refine ⟨by_contra fun hnot => (hn.strange _ hnot).2.2 x hx rfl, fun hr => ?_⟩
  exact hn.asking _ hr x hx rfl

end VmNode.Node
