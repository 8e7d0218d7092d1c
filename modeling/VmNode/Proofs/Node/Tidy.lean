import VmNode.Proofs.Node.Errand
import VmNode.Proofs.Registry

/-!
# Nodes in order

A node is in order (`Node.Tidy`) if every slot that is held is in one hand: in that of a
task or in a record. Then every task finds of its instance what its role relies on, tasks
with roles that exclude each other do not work on one instance, and somebody looks after
each instance that is not in a state to stay in.

A task that takes a step on the registry or on the consoles leaves the node in order
(`Node.Strides.tidy`), and so do a step of its errand (`Node.Carries.tidy`) and a new task
(`Node.Tidy.spawn`).
-/

namespace VmNode

/-- Of roles for which there is no record, none counts. -/
theorem View.Covered.mono {id : InstanceId} {has has' : Role → Prop} {v : View}
    (h : v.Covered id has) (hmono : ∀ q, q.isFresh = false → has q → has' q) :
    v.Covered id has' := by
  obtain ⟨status, console⟩ := v
  cases status with
  | none => exact fun hconsole => hmono _ rfl (h hconsole)
  | some s =>
    obtain ⟨state, p, lease⟩ := s
    obtain ⟨hlease, hstate⟩ := h
    refine ⟨hlease, ?_⟩
    cases state with
    | provisioning => exact hstate.imp (hmono _ rfl) (Or.imp (hmono _ rfl) (hmono _ rfl))
    | running => exact hstate
    | deprovisioning | stopped => exact hstate.imp (hmono _ rfl) (hmono _ rfl)
    | failed => exact ⟨hstate.1, hstate.2.1.imp_right (hmono _ rfl), hstate.2.2⟩

namespace Node

/-- What is left of the work of a task. -/
def work? (n : Node) (t : Nat) : Option Work := (n.tasks.find? t).map Task.work

/-- The part that a task has in the life of an instance. -/
def role? (n : Node) (t : Nat) (id : InstanceId) : Option Role := (n.work? t).bind (Work.role? id)

/-- Some task has a role. -/
def HasRole (n : Node) (id : InstanceId) (r : Role) : Prop := ∃ t, n.role? t id = some r

theorem role?_of_work? {n : Node} {t : Nat} {work : Work} (h : n.work? t = some work)
    (id : InstanceId) : n.role? t id = work.role? id := by
  rw [role?, h, Option.bind_some]

theorem HasRole.of_work? {n : Node} {t : Nat} {work : Work} {id : InstanceId} {r : Role}
    (h : n.work? t = some work) (hr : work.role? id = some r) : n.HasRole id r :=
  ⟨t, (role?_of_work? h id).trans hr⟩

/-- Nodes with the same tasks. -/
theorem work?_congr {n m : Node} (h : m.tasks = n.tasks) (t : Nat) : m.work? t = n.work? t := by
  rw [work?, work?, h]

theorem HasRole.of_tasks {n m : Node} {id : InstanceId} {r : Role} (h : m.tasks = n.tasks)
    (hr : m.HasRole id r) : n.HasRole id r := by
  obtain ⟨t, ht⟩ := hr
  rw [role?, work?_congr h] at ht
  exact ⟨t, ht⟩

/-- The holds that tasks have. -/
def taskHolds (n : Node) : Multiset Hold := n.tasks.tally fun _ task => task.work.holds

/-- The holds in the records. -/
def recordHolds (n : Node) : Multiset Hold := n.registry.records.tally fun _ r => leaseHolds r.lease

/-- A node is in order, which has provisioned instances with these identifiers and no
    others. -/
structure Tidy (ids : List InstanceId) (n : Node) : Prop where
  /-- Tasks are numbered in the order in which they were started. -/
  numbered : n.tasks.IsNumbered
  /-- Slots are slots of the subnet. -/
  within : n.pool.Within n.config.network
  /-- A record is kept under the identifier of its instance. -/
  keyed : ∀ id r, n.registry.records.find? id = some r → r.id = id
  /-- Two records have different exit signals. -/
  signals : n.registry.Signalled
  /-- What a task has at hand goes with what it does. -/
  proper : ∀ t work, n.work? t = some work → work.Proper
  /-- What a task does for an instance goes with the record and the console of the instance. -/
  fits : ∀ t id r, n.role? t id = some r → r.Fits (n.view id)
  /-- Two tasks do not get in each other's way. -/
  apart : ∀ s t id r q, s ≠ t → n.role? s id = some r → n.role? t id = some q → r.Apart q
  /-- A record that is to change, or a console that is to close, has a task that will do it. -/
  covered : ∀ id, (n.view id).Covered id (n.HasRole id)
  /-- Every slot is held once, by a task or by a record. -/
  holds : n.pool.holds = n.taskHolds + n.recordHolds
  /-- An instance holds one slot at most. -/
  single : ∀ x ∈ n.pool.holds, ∀ y ∈ n.pool.holds, x.holder = y.holder → x = y
  /-- Whoever asks for a slot has none. -/
  asking : ∀ id, n.HasRole id .asking → ∀ x ∈ n.pool.holds, x.holder ≠ id
  /-- Nothing is known of an instance that nobody has provisioned. -/
  strange : ∀ id, id ∉ ids → n.view id = ⟨none, false⟩ ∧ (∀ r, ¬ n.HasRole id r) ∧
    ∀ x ∈ n.pool.holds, x.holder ≠ id

/-! ### One task goes on -/

/-- The work that is left of one task changes, and no other task does. -/
structure Turn (t : Nat) (work work' : Work) (n m : Node) : Prop where
  /-- The configuration stays the same. -/
  config : m.config = n.config
  /-- Tasks remain numbered. -/
  numbered : n.tasks.IsNumbered → m.tasks.IsNumbered
  /-- What the task had to do. -/
  before : n.work? t = some work
  /-- What it has left. -/
  after : m.work? t = some work'
  /-- Other tasks are as they were. -/
  others : ∀ s, s ≠ t → m.tasks.find? s = n.tasks.find? s

namespace Turn

variable {n m : Node} {t s : Nat} {work work' : Work} {id : InstanceId} {r : Role}

theorem role?_before (h : Turn t work work' n m) : n.role? t id = work.role? id :=
  role?_of_work? h.before id

theorem role?_after (h : Turn t work work' n m) : m.role? t id = work'.role? id :=
  role?_of_work? h.after id

theorem work?_of_ne (h : Turn t work work' n m) (hs : s ≠ t) : m.work? s = n.work? s := by
  rw [work?, work?, h.others s hs]

theorem role?_of_ne (h : Turn t work work' n m) (hs : s ≠ t) : m.role? s id = n.role? s id := by
  rw [role?, role?, h.work?_of_ne hs]

theorem taskHolds (h : Turn t work work' n m) :
    m.taskHolds + work.holds = n.taskHolds + work'.holds := by
  obtain ⟨task, hbefore, rfl⟩ := Option.map_eq_some_iff.1 h.before
  obtain ⟨task', hafter, rfl⟩ := Option.map_eq_some_iff.1 h.after
  have := Table.tally_add_of_agree (fun s hs => (h.others s hs).symm)
    fun _ (task : Task) => task.work.holds
  rwa [hbefore, hafter] at this

/-- A role that somebody has is that of this task or of another one. -/
theorem hasRole_before (h : Turn t work work' n m) (hr : n.HasRole id r) :
    work.role? id = some r ∨ ∃ s, s ≠ t ∧ n.role? s id = some r := by
  obtain ⟨s, hs⟩ := hr
  by_cases hst : s = t
  · exact .inl (by rwa [hst, h.role?_before] at hs)
  · exact .inr ⟨s, hst, hs⟩

theorem hasRole_after (h : Turn t work work' n m)
    (hr : work'.role? id = some r ∨ ∃ s, s ≠ t ∧ n.role? s id = some r) : m.HasRole id r := by
  rcases hr with hr | ⟨s, hs, hr⟩
  · exact ⟨t, h.role?_after.trans hr⟩
  · exact ⟨s, (h.role?_of_ne hs).trans hr⟩

/-- A role in the new node is that of this task or one that another task had before. -/
theorem of_hasRole_after (h : Turn t work work' n m) (hr : m.HasRole id r) :
    work'.role? id = some r ∨ ∃ s, s ≠ t ∧ n.role? s id = some r := by
  obtain ⟨s, hs⟩ := hr
  by_cases hst : s = t
  · exact .inl (by rwa [hst, h.role?_after] at hs)
  · exact .inr ⟨s, hst, by rwa [h.role?_of_ne hst] at hs⟩

theorem proper (h : Turn t work work' n m) (hn : ∀ s w, n.work? s = some w → w.Proper)
    (hproper : work'.Proper) : ∀ s w, m.work? s = some w → w.Proper := by
  intro s w hw
  by_cases hs : s = t
  · rw [hs, h.after, Option.some.injEq] at hw
    exact hw ▸ hproper
  · exact hn s w (h.work?_of_ne hs ▸ hw)

end Turn

theorem holds_view (n : Node) (id : InstanceId) :
    (n.view id).holds = (n.registry.records.find? id).elim 0 fun r => leaseHolds r.lease := by
  rw [View.holds, view]
  cases n.registry.records.find? id <;> rfl

theorem of_work?_spawn {n : Node} {work w : Work} {hasCaller : Bool} {t : Nat}
    (h : (n.spawn work hasCaller).2.work? t = some w) : w = work ∨ n.work? t = some w := by
  by_cases ht : t = n.tasks.size
  · rw [work?, Node.spawn, ht, Table.find?_insert_self, Option.map_some, Option.some.injEq] at h
    exact .inl h.symm
  · rw [work?, Node.spawn, Table.find?_insert_of_ne _ _ ht] at h
    exact .inr h

theorem of_hasRole_spawn {n : Node} {work : Work} {hasCaller : Bool} {id : InstanceId} {r : Role}
    (h : (n.spawn work hasCaller).2.HasRole id r) : n.HasRole id r ∨ work.role? id = some r := by
  obtain ⟨s, hs⟩ := h
  by_cases hsize : s = n.tasks.size
  · rw [role?, work?, Node.spawn, hsize, Table.find?_insert_self] at hs
    exact .inr hs
  · rw [role?, work?, Node.spawn, Table.find?_insert_of_ne _ _ hsize] at hs
    exact .inl ⟨s, hs⟩

/-! ### Steps on the registry and on the consoles -/

/-- A step changes what a node shows of one instance at most. -/
structure Touches (id : InstanceId) (n m : Node) : Prop where
  /-- The configuration stays the same. -/
  config : m.config = n.config
  /-- The pool stays the same. -/
  pool : m.pool = n.pool
  /-- Records of other instances stay the same. -/
  records : ∀ j, j ≠ id → m.registry.records.find? j = n.registry.records.find? j
  /-- Consoles of other instances stay the same. -/
  consoles : ∀ j, j ≠ id → m.hub.current.find? j = n.hub.current.find? j
  /-- The record is kept under the identifier of its instance. -/
  keyed : ∀ r, m.registry.records.find? id = some r → r.id = id
  /-- Two records have different exit signals. -/
  signals : m.registry.Signalled
  /-- A record keeps its exit signal. -/
  signal : ∀ q r, n.registry.records.find? id = some q → m.registry.records.find? id = some r →
    r.signal = q.signal

/-- What a step does to an instance does not depend on the tasks. -/
theorem Touches.withTasks {n m : Node} {id : InstanceId} (h : Touches id n m)
    (tasks : Table Nat Task) : Touches id n { m with tasks } :=
  ⟨h.config, h.pool, h.records, h.consoles, h.keyed, h.signals, h.signal⟩

theorem Touches.view {n m : Node} {id j : InstanceId} (h : Touches id n m) (hj : j ≠ id) :
    m.view j = n.view j := by
  rw [Node.view, Node.view, h.records j hj, h.consoles j hj]

end Node

/-- Whoever relies on there being no record yet goes on to do so. -/
theorem Role.Fits.leasing {r : Role} {v : View} (h : r.Fits v) (hfresh : r.isFresh = true) :
    Role.leasing.Fits v := by
  cases r <;> first | exact h | cases hfresh

/-- Nothing happens to an instance that there is not. -/
theorem Stride.of_strange {id : InstanceId} {r' : Option Role} {h h' : Multiset Hold} {v' : View}
    (hs : Stride id none h ⟨none, false⟩ r' h' v') : r' = none ∧ v' = ⟨none, false⟩ := by
  cases hs
  exact ⟨rfl, rfl⟩

/-- Whoever has no record after a task took a step on its instance had none before. -/
theorem Node.Turn.of_hasRole_fresh {n m : Node} {t : Nat} {work work' : Work} {id j : InstanceId}
    (hturn : Turn t work work' n m) (hroles : ∀ j, j ≠ id → work'.role? j = work.role? j)
    {h h' : Multiset Hold} {v v' : View}
    (hstride : Stride id (work.role? id) h v (work'.role? id) h' v') {r : Role}
    (hr : m.HasRole j r) (hfresh : r.isFresh = true) : n.HasRole j r := by
  rcases hturn.of_hasRole_after hr with hr | ⟨s, -, hr⟩
  · refine ⟨t, hturn.role?_before.trans ?_⟩
    by_cases hid : j = id
    · subst hid
      rw [hr] at hstride
      exact hstride.of_isFresh hfresh
    · exact (hroles j hid).symm.trans hr
  · exact ⟨s, hr⟩

namespace Node.Tidy

variable {ids : List InstanceId} {n m : Node} {t : Nat} {work work' : Work}

theorem work_holds_le (h : n.Tidy ids) (ht : n.work? t = some work) :
    work.holds ≤ n.pool.holds := by
  obtain ⟨task, htask, rfl⟩ := Option.map_eq_some_iff.1 ht
  have hle := Table.le_tally htask fun _ (task : Task) => task.work.holds
  rw [h.holds]
  exact hle.trans (Multiset.le_add_right _ _)

theorem errand_holds_le (h : n.Tidy ids) (ht : n.work? t = some work) {e : Errand}
    (herrand : work.errand? = some e) : e.holds ≤ n.pool.holds := by
  rw [← Work.holds_of_errand? herrand]
  exact h.work_holds_le ht

/-- The lease in a record is held. -/
theorem lease_holds_le (h : n.Tidy ids) {id : InstanceId} {r : Record Nat} {l : Lease}
    (hfind : n.registry.records.find? id = some r) (hlease : r.lease = some l) :
    l.holds ≤ n.pool.holds := by
  have hle := Table.le_tally hfind fun _ (r : Record Nat) => leaseHolds r.lease
  rw [hlease] at hle
  rw [h.holds]
  exact hle.trans (Multiset.le_add_left _ _)

end Node.Tidy

namespace Node

/-- A task takes a step on its instance, on the registry or on the consoles. -/
structure Strides (id : InstanceId) (t : Nat) (work work' : Work) (n m : Node) : Prop where
  /-- No other task takes part. -/
  turn : Turn t work work' n m
  /-- No other instance is touched. -/
  touches : Touches id n m
  /-- The task has no other part in the life of another instance. -/
  roles : ∀ j, j ≠ id → work'.role? j = work.role? j
  /-- What the task has at hand goes with what it does. -/
  proper : work'.Proper
  /-- The task goes from its role to another one, with the record and the console. -/
  stride : Stride id (work.role? id) work.holds (n.view id) (work'.role? id) work'.holds
    (m.view id)

namespace Strides

variable {ids : List InstanceId} {n m : Node} {t s s' : Nat} {work work' : Work}
variable {id j : InstanceId} {q r : Role}

/-- What is said of another instance remains as it was. -/
theorem role?_of_ne (h : Strides id t work work' n m) (hj : j ≠ id) (s : Nat) :
    m.role? s j = n.role? s j := by
  by_cases hs : s = t
  · rw [hs, h.turn.role?_before, h.turn.role?_after, h.roles j hj]
  · exact h.turn.role?_of_ne hs

/-- The task found what its role relies on. -/
theorem fits_before (h : Strides id t work work' n m) (hn : n.Tidy ids) :
    ∀ q, work.role? id = some q → q.Fits (n.view id) := fun q hq =>
  hn.fits t id q (h.turn.role?_before.trans hq)

/-- The task was apart from all others. -/
theorem apart_before (h : Strides id t work work' n m) (hn : n.Tidy ids) (hs : s ≠ t)
    (hq : n.role? s id = some q) : ∀ o, work.role? id = some o → o.Apart q := fun o ho =>
  hn.apart t s id o q hs.symm (h.turn.role?_before.trans ho) hq

/-- Every task finds what its role relies on. -/
theorem fits (h : Strides id t work work' n m) (hn : n.Tidy ids) (hq : m.role? s j = some q) :
    q.Fits (m.view j) := by
  by_cases hid : j = id
  · subst hid
    by_cases hs : s = t
    · rw [hs, h.turn.role?_after] at hq
      exact h.stride.fits (h.fits_before hn) (hn.covered j) q hq
    · rw [h.turn.role?_of_ne hs] at hq
      exact h.stride.fits_others (h.fits_before hn) (hn.fits s j q hq) (h.apart_before hn hs hq)
  · rw [h.role?_of_ne hid] at hq
    rw [h.touches.view hid]
    exact hn.fits s j q hq

/-- Tasks remain apart. -/
theorem apart (h : Strides id t work work' n m) (hn : n.Tidy ids) (hne : s ≠ s')
    (hr : m.role? s j = some r) (hq : m.role? s' j = some q) : r.Apart q := by
  by_cases hid : j = id
  · subst hid
    -- the step may be that of either task
    have hmine : ∀ s q, s ≠ t → n.role? s j = some q → ∀ o, work'.role? j = some o → o.Apart q :=
      fun s q hs hq => h.stride.apart (hn.fits s j q hq) (h.apart_before hn hs hq)
    by_cases hs : s = t
    · have hs' : s' ≠ t := fun heq => hne (hs.trans heq.symm)
      rw [hs, h.turn.role?_after] at hr
      rw [h.turn.role?_of_ne hs'] at hq
      exact hmine s' q hs' hq r hr
    · rw [h.turn.role?_of_ne hs] at hr
      by_cases hs' : s' = t
      · rw [hs', h.turn.role?_after] at hq
        exact (hmine s r hs hr q hq).symm
      · rw [h.turn.role?_of_ne hs'] at hq
        exact hn.apart s s' j r q hne hr hq
  · rw [h.role?_of_ne hid] at hr hq
    exact hn.apart s s' j r q hne hr hq

/-- Somebody looks after each instance. -/
theorem covered (h : Strides id t work work' n m) (hn : n.Tidy ids) (j : InstanceId) :
    (m.view j).Covered j (m.HasRole j) := by
  by_cases hid : j = id
  · subst hid
    have hbefore := (hn.covered j).mono fun q _ hq => h.turn.hasRole_before hq
    exact (h.stride.covered (h.fits_before hn) hbefore).mono fun q _ hq => h.turn.hasRole_after hq
  · rw [h.touches.view hid]
    exact (hn.covered j).mono fun q _ ⟨s, hs⟩ => ⟨s, (h.role?_of_ne hid s).trans hs⟩

/-- Every slot that is held is in one hand. Both sums change by what the instance has in the
    one place and in the other. -/
theorem holds (h : Strides id t work work' n m) (hn : n.Tidy ids) :
    m.pool.holds = m.taskHolds + m.recordHolds := by
  have htasks := h.turn.taskHolds
  have hrecords := Table.tally_add_of_agree (fun j hj => (h.touches.records j hj).symm)
    fun _ (r : Record Nat) => leaseHolds r.lease
  rw [← holds_view, ← holds_view] at hrecords
  have hlaw := h.stride.holds (h.fits_before hn)
  rw [h.touches.pool, hn.holds]
  refine add_right_cancel (b := work'.holds + (m.view id).holds) ?_
  calc n.taskHolds + n.recordHolds + (work'.holds + (m.view id).holds)
      = (n.taskHolds + work'.holds) + (n.recordHolds + (m.view id).holds) := add_add_add_comm ..
    _ = (m.taskHolds + work.holds) + (m.recordHolds + (n.view id).holds) := by
      rw [htasks, recordHolds, recordHolds, hrecords]
    _ = m.taskHolds + m.recordHolds + (work.holds + (n.view id).holds) := add_add_add_comm ..
    _ = m.taskHolds + m.recordHolds + (work'.holds + (m.view id).holds) := by rw [hlaw]

/-- An instance that there is not remains unknown: a task without a role takes no step on it. -/
theorem strange (h : Strides id t work work' n m) (hn : n.Tidy ids) (hj : j ∉ ids) :
    m.view j = ⟨none, false⟩ ∧ (∀ r, ¬ m.HasRole j r) ∧ ∀ x ∈ m.pool.holds, x.holder ≠ j := by
  obtain ⟨hview, hnone, hholds⟩ := hn.strange j hj
  rw [h.touches.pool]
  by_cases hid : j = id
  · subst hid
    have hrole : work.role? j = none := Option.eq_none_iff_forall_ne_some.2 fun q hq =>
      hnone q ⟨t, h.turn.role?_before.trans hq⟩
    have hstride := h.stride
    rw [hrole, hview] at hstride
    obtain ⟨hrole', hview'⟩ := hstride.of_strange
    refine ⟨hview', fun q hq => ?_, hholds⟩
    rcases h.turn.of_hasRole_after hq with hr | ⟨s, -, hr⟩
    · rw [hrole'] at hr
      cases hr
    · exact hnone q ⟨s, hr⟩
  · exact ⟨(h.touches.view hid).trans hview,
      fun q ⟨s, hs⟩ => hnone q ⟨s, (h.role?_of_ne hid s).symm.trans hs⟩, hholds⟩

/-- Such a step leaves the node in order. -/
theorem tidy (h : Strides id t work work' n m) (hn : n.Tidy ids) : m.Tidy ids where
  numbered := h.turn.numbered hn.numbered
  within := by
    rw [h.touches.pool, h.touches.config]
    exact hn.within
  keyed j r hr := by
    by_cases hid : j = id
    · exact hid ▸ h.touches.keyed r (hid ▸ hr)
    · exact hn.keyed j r (h.touches.records j hid ▸ hr)
  signals := h.touches.signals
  proper := h.turn.proper hn.proper h.proper
  fits _ _ _ hq := h.fits hn hq
  apart _ _ _ _ _ hne hr hq := h.apart hn hne hr hq
  covered := h.covered hn
  holds := h.holds hn
  single := by
    rw [h.touches.pool]
    exact hn.single
  asking j hj := by
    rw [h.touches.pool]
    exact hn.asking j (h.turn.of_hasRole_fresh h.roles h.stride hj rfl)
  strange _ hj := h.strange hn hj

end Strides

end Node

/-! ### Errands -/

namespace Node

variable {ids : List InstanceId} {n m : Node} {t s : Nat} {work work' : Work} {id : InstanceId}
variable {r q : Role}

/-- A task goes on with its errand. Its hold stays with its instance, unless the task asks for
    a slot and gets one. -/
structure Carries (t : Nat) (work work' : Work) (n m : Node) : Prop where
  /-- No other task takes part. -/
  turn : Turn t work work' n m
  /-- Records stay the same. -/
  registry : m.registry = n.registry
  /-- Consoles stay the same. -/
  hub : m.hub = n.hub
  /-- Slots are slots of the subnet. -/
  within : m.pool.Within n.config.network
  /-- What the task has at hand goes with what it does. -/
  proper : work'.Proper
  /-- The task does not wait for an exit. -/
  waits : ∀ id signal, ¬ work'.Waits id signal
  /-- Nobody gets to ask for a slot. -/
  asking : ∀ id, work'.role? id ≠ some .asking
  /-- The task keeps its role, or it had no record yet and goes on without one. -/
  roles : ∀ id, work'.role? id = work.role? id ∨
    (∃ r, work.role? id = some r ∧ r.isFresh = true) ∧
      (work'.role? id = some .leasing ∨ work'.role? id = none)
  /-- What the pool has more, the task has more. -/
  law : m.pool.holds + work.holds = n.pool.holds + work'.holds
  /-- The task has one hold at most. -/
  one : ∀ x ∈ work'.holds, ∀ y ∈ work'.holds, x = y
  /-- A hold of the task is the one it had, or that of the instance it asked a slot for. -/
  new : ∀ x ∈ work'.holds, (∃ y ∈ work.holds, y.holder = x.holder ∧
    (y.isLeaving = true → x.isLeaving = true)) ∨ work.role? x.holder = some .asking

namespace Carries

/-- A role of the task afterwards is one that it had, or follows one without a record. -/
theorem of_role? (h : Carries t work work' n m) (hq : work'.role? id = some q) :
    work.role? id = some q ∨ q = .leasing ∧ ∃ r, work.role? id = some r ∧ r.isFresh = true := by
  rcases h.roles id with heq | ⟨hfresh, heq | heq⟩
  · exact .inl (heq.symm.trans hq)
  · exact .inr ⟨Option.some.inj (hq.symm.trans heq), hfresh⟩
  · rw [heq] at hq
    cases hq

theorem of_hasRole (h : Carries t work work' n m) (hq : m.HasRole id q) :
    n.HasRole id q ∨ q = .leasing ∧ ∃ r, n.HasRole id r ∧ r.isFresh = true := by
  rcases h.turn.of_hasRole_after hq with hr | ⟨s, -, hr⟩
  · exact (h.of_role? hr).imp (fun hr => ⟨t, h.turn.role?_before.trans hr⟩)
      (And.imp_right fun ⟨r, hr, hfresh⟩ => ⟨r, ⟨t, h.turn.role?_before.trans hr⟩, hfresh⟩)
  · exact .inl ⟨s, hr⟩

/-- A role that relies on a record stays. -/
theorem hasRole (h : Carries t work work' n m) (hfresh : q.isFresh = false) (hq : n.HasRole id q) :
    m.HasRole id q := by
  refine h.turn.hasRole_after ((h.turn.hasRole_before hq).imp_left fun hr => ?_)
  rcases h.roles id with heq | ⟨⟨r, hr', hfresh'⟩, -⟩
  · exact heq.trans hr
  · rw [hr, Option.some.injEq] at hr'
    rw [hr', hfresh'] at hfresh
    cases hfresh

/-- Whoever has no record yet is alone. -/
theorem role?_ne (h : Carries t work work' n m) (hn : n.Tidy ids) (hr : work.role? id = some r)
    (hfresh : r.isFresh = true) (hs : s ≠ t) : n.role? s id ≠ some q := fun hq => by
  have := (hn.apart t s id r q hs.symm (h.turn.role?_before.trans hr) hq).fresh.1
  rw [hfresh] at this
  cases this

/-- All holds but that of the task stay. -/
theorem of_mem_holds (h : Carries t work work' n m) (hn : n.Tidy ids) {x : Hold}
    (hx : x ∈ m.pool.holds) : x ∈ n.pool.holds ∧ x ∉ work.holds ∨ x ∈ work'.holds := by
  -- the pool has what others have, and what this task has
  obtain ⟨rest, hrest⟩ := Multiset.le_iff_exists_add.1 (hn.work_holds_le h.turn.before)
  have hpool : m.pool.holds = rest + work'.holds := by
    have hlaw := h.law
    rw [hrest, add_assoc, add_comm] at hlaw
    exact add_left_cancel hlaw
  rw [hpool] at hx
  refine (Multiset.mem_add.1 hx).imp_left fun hx => ?_
  have hnodup := n.pool.nodup_holds
  rw [hrest, Multiset.nodup_add] at hnodup
  rw [hrest]
  exact ⟨Multiset.mem_add.2 (.inr hx), fun hmine => Multiset.disjoint_left.1 hnodup.2.2 hmine hx⟩

/-- The hold of the task is apart from all others. -/
theorem holder_ne (h : Carries t work work' n m) (hn : n.Tidy ids) {x y : Hold}
    (hx : x ∈ work'.holds) (hy : y ∈ n.pool.holds) (hother : y ∉ work.holds) :
    x.holder ≠ y.holder := fun heq => by
  rcases h.new x hx with ⟨z, hz, hholder, -⟩ | hrole
  · have hz' := Multiset.mem_of_le (hn.work_holds_le h.turn.before) hz
    obtain rfl := hn.single z hz' y hy (hholder.trans heq)
    exact hother hz
  · exact hn.asking _ ⟨t, h.turn.role?_before.trans hrole⟩ y hy heq.symm

/-- An instance without a hold gets none, unless this task asks for one. -/
theorem holder_ne_of_free (h : Carries t work work' n m) (hn : n.Tidy ids)
    (hfree : ∀ x ∈ n.pool.holds, x.holder ≠ id) (hasks : work.role? id ≠ some .asking) :
    ∀ x ∈ m.pool.holds, x.holder ≠ id := by
  rintro x hx rfl
  rcases h.of_mem_holds hn hx with ⟨hx, -⟩ | hx
  · exact hfree x hx rfl
  · rcases h.new x hx with ⟨y, hy, hholder, -⟩ | hrole
    · exact hfree y (Multiset.mem_of_le (hn.work_holds_le h.turn.before) hy) hholder
    · exact hasks hrole

/-- A step of its errand leaves the task and the node in order. -/
theorem tidy (h : Carries t work work' n m) (hn : n.Tidy ids) : m.Tidy ids := by
  have hturn := h.turn
  have hview : ∀ j, m.view j = n.view j := fun j => by rw [view, view, h.registry, h.hub]
  have hmyrole : ∀ j q, work.role? j = some q → n.HasRole j q := fun j q hq =>
    ⟨t, hturn.role?_before.trans hq⟩
  refine ⟨hturn.numbered hn.numbered, ?_, ?_, h.registry ▸ hn.signals,
    hturn.proper hn.proper h.proper, fun s j q hq => ?_, fun s s' j r q hne hr hq => ?_,
    fun j => ?_, ?_, fun x hx y hy heq => ?_,
    fun j hj => ?_, fun j hj => ?_⟩
  · rw [hturn.config]
    exact h.within
  · rw [h.registry]
    exact hn.keyed
  · rw [hview]
    by_cases hs : s = t
    · rw [hs, hturn.role?_after] at hq
      rcases h.of_role? hq with hr | ⟨rfl, r, hr, hfresh⟩
      · exact hn.fits t j q (hturn.role?_before.trans hr)
      · exact (hn.fits t j r (hturn.role?_before.trans hr)).leasing hfresh
    · exact hn.fits s j q (hturn.role?_of_ne hs ▸ hq)
  · -- a task that had no record yet was alone, so whatever it turns to is apart
    have hmove : ∀ s q o, s ≠ t → n.role? s j = some q → work'.role? j = some o → o.Apart q :=
      fun s q o hs hq ho => by
        rcases h.of_role? ho with hr | ⟨-, r, hr, hfresh⟩
        · exact hn.apart t s j o q hs.symm (hturn.role?_before.trans hr) hq
        · exact absurd hq (h.role?_ne hn hr hfresh hs)
    by_cases hs : s = t
    · have hs' : s' ≠ t := fun heq => hne (hs.trans heq.symm)
      rw [hs, hturn.role?_after] at hr
      exact hmove s' q r hs' (hturn.role?_of_ne hs' ▸ hq) hr
    · rw [hturn.role?_of_ne hs] at hr
      by_cases hs' : s' = t
      · rw [hs', hturn.role?_after] at hq
        exact (hmove s r q hs hr hq).symm
      · exact hn.apart s s' j r q hne hr (hturn.role?_of_ne hs' ▸ hq)
  · rw [hview]
    exact (hn.covered j).mono fun q hfresh hq => h.hasRole hfresh hq
  · -- what the pool has more, the task has more, and the records have what they had
    have htasks := hturn.taskHolds
    refine add_right_cancel (b := work.holds) ?_
    calc m.pool.holds + work.holds = n.taskHolds + n.recordHolds + work'.holds := by
          rw [h.law, hn.holds]
      _ = n.taskHolds + work'.holds + n.recordHolds := add_right_comm ..
      _ = m.taskHolds + work.holds + m.recordHolds := by
        rw [htasks, recordHolds, recordHolds, h.registry]
      _ = m.taskHolds + m.recordHolds + work.holds := add_right_comm ..
  · -- a hold that is new is for the instance whose slot was asked for, which had none
    rcases h.of_mem_holds hn hx with ⟨hx, hother⟩ | hx
    · rcases h.of_mem_holds hn hy with ⟨hy, -⟩ | hy
      · exact hn.single x hx y hy heq
      · exact absurd heq.symm (h.holder_ne hn hy hx hother)
    · rcases h.of_mem_holds hn hy with ⟨hy, hother⟩ | hy
      · exact absurd heq (h.holder_ne hn hx hy hother)
      · exact h.one x hx y hy
  · rcases hturn.of_hasRole_after hj with hr | ⟨s, hs, hr⟩
    · exact absurd hr (h.asking j)
    · exact h.holder_ne_of_free hn (hn.asking j ⟨s, hr⟩) fun hasks => h.role?_ne hn hasks rfl hs hr
  · obtain ⟨hnone, hroles, hholds⟩ := hn.strange j hj
    refine ⟨(hview j).trans hnone, fun q hq => ?_, h.holder_ne_of_free hn hholds fun hasks =>
      hroles _ (hmyrole j _ hasks)⟩
    rcases h.of_hasRole hq with hr | ⟨-, r, hr, -⟩
    · exact hroles q hr
    · exact hroles r hr

end Carries

end Node

namespace Node.Tidy

variable {ids : List InstanceId} {n m : Node} {work : Work}

/-! ### Other moves -/

/-- A node that differs in other respects is in order as well. -/
theorem congr (h : n.Tidy ids) (hconfig : m.config = n.config) (htasks : m.tasks = n.tasks)
    (hpool : m.pool = n.pool) (hregistry : m.registry = n.registry)
    (hcurrent : m.hub.current = n.hub.current) : m.Tidy ids := by
  have hview : ∀ j, m.view j = n.view j := fun j => by rw [view, view, hregistry, hcurrent]
  have hwork : m.work? = n.work? := funext (work?_congr htasks)
  have hrole : m.role? = n.role? := funext fun t => funext fun j => by rw [role?, role?, hwork]
  have hhas : m.HasRole = n.HasRole := funext fun j => funext fun r => by
    rw [HasRole, HasRole, hrole]
  obtain ⟨hnumbered, hwithin, hkeyed, hsignals, hproper, hfits, hapart, hcovered, hholds, hsingle,
    hasking, hstrange⟩ := h
  refine ⟨htasks ▸ hnumbered, ?_, hregistry ▸ hkeyed, hregistry ▸ hsignals, hwork ▸ hproper,
    fun t j r hr => ?_, hrole ▸ hapart, fun j => ?_, ?_, hpool ▸ hsingle, hhas ▸ hpool ▸ hasking,
    fun j hj => ?_⟩
  · rw [hpool, hconfig]
    exact hwithin
  · rw [hview]
    exact hfits t j r (hrole ▸ hr)
  · rw [hview, hhas]
    exact hcovered j
  · rw [hpool, hholds, taskHolds, taskHolds, recordHolds, recordHolds, htasks, hregistry]
  · rw [hview, hhas, hpool]
    exact hstrange j hj

/-- A new task has no part in the life of an instance, unless it asks for a slot for a new
    one. -/
theorem spawn (h : n.Tidy ids) {ids' : List InstanceId} (hsub : ids ⊆ ids') {hasCaller : Bool}
    (hholds : work.holds = 0) (hproper : work.Proper)
    (hroles : ∀ id r, work.role? id = some r → r = .asking ∧ id ∉ ids ∧ id ∈ ids') :
    Tidy ids' (n.spawn work hasCaller).2 := by
  have hstays : ∀ s, s ≠ n.tasks.size → (n.spawn work hasCaller).2.role? s = n.role? s :=
    fun s hs => funext fun j => by
      rw [role?, role?, work?, work?, Node.spawn, Table.find?_insert_of_ne _ _ hs]
  have hnew : ∀ j, (n.spawn work hasCaller).2.role? n.tasks.size j = work.role? j := fun j => by
    rw [role?, work?, Node.spawn, Table.find?_insert_self, Option.map_some, Option.bind_some]
  have hfresh : ∀ s, n.role? n.tasks.size s = none := fun s => by
    rw [role?, work?, h.numbered.find?_size, Option.map_none, Option.bind_none]
  refine ⟨h.numbered.insert_size _, h.within, h.keyed, h.signals, fun s w hw => ?_,
    fun s j r hr => ?_, fun s s' j r q hne hr hq => ?_, fun j => ?_, ?_, h.single,
    fun j hj => ?_, fun j hj => ?_⟩
  · rcases of_work?_spawn hw with rfl | hw
    · exact hproper
    · exact h.proper s w hw
  · by_cases hs : s = n.tasks.size
    · rw [hs, hnew] at hr
      obtain ⟨rfl, hid, -⟩ := hroles j r hr
      exact ⟨congrArg View.status (h.strange j hid).1, congrArg View.hasConsole (h.strange j hid).1⟩
    · rw [hstays s hs] at hr
      exact h.fits s j r hr
  · -- the new task is alone with an instance that there was not
    have halone : ∀ s q o, n.role? s j = some q → work.role? j ≠ some o := fun s q o hq ho =>
      (h.strange j (hroles j o ho).2.1).2.1 q ⟨s, hq⟩
    by_cases hs : s = n.tasks.size
    · have hs' : s' ≠ n.tasks.size := fun heq => hne (hs.trans heq.symm)
      rw [hs, hnew] at hr
      rw [hstays s' hs'] at hq
      exact absurd hr (halone s' q r hq)
    · rw [hstays s hs] at hr
      by_cases hs' : s' = n.tasks.size
      · rw [hs', hnew] at hq
        exact absurd hq (halone s r q hr)
      · rw [hstays s' hs'] at hq
        exact h.apart s s' j r q hne hr hq
  · refine (h.covered j).mono fun q _ ⟨s, hs⟩ => ⟨s, ?_⟩
    have hsize : s ≠ n.tasks.size := by
      rintro rfl
      rw [hfresh] at hs
      cases hs
    rw [hstays s hsize]
    exact hs
  · -- the new task holds nothing
    have htasks : (n.spawn work hasCaller).2.taskHolds = n.taskHolds + work.holds :=
      Table.tally_insert_of_none h.numbered.find?_size ⟨work, hasCaller⟩
        fun _ task => task.work.holds
    rw [htasks, hholds, add_zero]
    exact h.holds
  · rcases of_hasRole_spawn hj with hr | hr
    · exact h.asking j hr
    · exact (h.strange j (hroles j _ hr).2.1).2.2
  · -- an instance that is still strange is none that the task has a part in
    obtain ⟨hview, hnone, hfree⟩ := h.strange j fun hmem => hj (hsub hmem)
    refine ⟨hview, fun r hr => ?_, hfree⟩
    rcases of_hasRole_spawn hr with hr | hr
    · exact hnone r hr
    · exact hj (hroles j r hr).2.2

end Node.Tidy

end VmNode
