import VmNode.Proofs.Node.Traffic

/-!
# Instances that are shut down

An instance of the past (`Node.Past`) gets no slot any more. While it is being shut down,
the slot is in one hand: that of the record, or that of the task that shuts it down
(`Node.Thorough`). So once the record is `stopped` there is no slot, and whoever waits until
somebody else has shut the instance down returns when nothing is held for it.
-/

namespace VmNode

namespace Node

variable {ids ids' : List InstanceId} {n m : Node} {t : Nat} {work work' : Work} {id : InstanceId}

/-! ### Instances of the past -/

/-- The instance was provisioned, and nobody is about to insert a record for it. -/
def Past (ids : List InstanceId) (n : Node) (id : InstanceId) : Prop :=
  id ∈ ids ∧ ∀ r, n.HasRole id r → r.isFresh = false

/-- Where somebody relies on a record that is there or was there, nobody inserts one. -/
theorem Tidy.past (hn : n.Tidy ids) {q : Role} (hq : n.HasRole id q) (hfresh : q.isFresh = false) :
    Past ids n id := by
  refine ⟨by_contra fun hnot => (hn.strange id hnot).2.1 q hq, fun r hr => ?_⟩
  obtain ⟨s, hs⟩ := hr
  obtain ⟨s', hs'⟩ := hq
  by_cases heq : s = s'
  · rw [heq, hs', Option.some.injEq] at hs
    exact hs ▸ hfresh
  · exact (hn.apart s s' id r q heq hs hs').fresh.1

theorem Tidy.past_of_find? (hn : n.Tidy ids) {record : Record Nat}
    (hfind : n.registry.records.find? id = some record) : Past ids n id := by
  have hview := view_of_find? hfind
  refine ⟨by_contra fun hnot => ?_, fun r hr => ?_⟩
  · rw [(hn.strange id hnot).1] at hview
    cases hview
  · obtain ⟨s, hs⟩ := hr
    have hfits := hn.fits s id r hs
    rw [hview] at hfits
    cases r with
    | asking | leasing =>
      obtain ⟨h, -⟩ := hfits
      cases h
    | _ => rfl

/-- Who has no record yet had none before, or is new. -/
theorem Change.of_hasRole_fresh (h : Change ids n ids' m) {r : Role} (hr : m.HasRole id r)
    (hfresh : r.isFresh = true) : (∃ q, n.HasRole id q ∧ q.isFresh = true) ∨ id ∉ ids := by
  cases h with
  | stride hturn _ hroles _ _ hstride =>
    exact .inl ⟨r, hturn.of_hasRole_fresh
      (fun j hj => (hroles j hj).2.trans (hroles j hj).1.symm) hstride hr hfresh, hfresh⟩
  | carries hcarries =>
    rcases hcarries.of_hasRole hr with hr | ⟨-, q, hq⟩
    · exact .inl ⟨r, hr, hfresh⟩
    · exact .inl ⟨q, hq⟩
  | spawn _ _ _ _ hroles =>
    rcases of_hasRole_spawn hr with hr | hr
    · exact .inl ⟨r, hr, hfresh⟩
    · exact .inr (hroles id _ hr).2.1
  | aside _ htasks _ _ _ => exact .inl ⟨r, hr.of_tasks htasks, hfresh⟩

theorem Past.change (h : Past ids n id) (hchange : Change ids n ids' m) : Past ids' m id := by
  refine ⟨hchange.subset h.1, fun r hr => ?_⟩
  by_contra hfresh
  rcases hchange.of_hasRole_fresh hr (by simpa using hfresh) with ⟨q, hq, hfresh'⟩ | hnot
  · rw [h.2 q hq] at hfresh'
    cases hfresh'
  · exact hnot h.1

/-- An instance of the past that has no hold gets none. -/
theorem Past.free_change (hn : n.Tidy ids) (h : Past ids n id) (hchange : Change ids n ids' m)
    (hfree : ∀ x ∈ n.pool.holds, x.holder ≠ id) : ∀ x ∈ m.pool.holds, x.holder ≠ id := by
  rintro x hx rfl
  rcases hchange.of_mem_holds hn hx with ⟨y, hy, hholder, -⟩ | hr
  · exact hfree y hy hholder
  · cases h.2 _ hr

/-! ### Instances that are shut down -/

/-- The instance is being shut down or gone, and if its record is there, it has the signal
    that somebody awaits. -/
def Felled (ids : List InstanceId) (n : Node) (id : InstanceId) (signal : Option Nat) : Prop :=
  (∃ r, n.registry.records.find? id = some r ∧ (r.state = .deprovisioning ∨ r.state = .stopped) ∧
    ∀ s, signal = some s → r.signal = s) ∨
  n.registry.records.find? id = none ∧ Past ids n id ∧ ∀ x ∈ n.pool.holds, x.holder ≠ id

/-- Whoever shuts an instance down, or waits for that, returns when nothing is left. -/
structure Thorough (ids : List InstanceId) (n : Node) : Prop where
  /-- The task that gives the lease back has the only hold. -/
  returning : ∀ t work id, n.work? t = some work → work.role? id = some .returning →
    ∀ x ∈ n.pool.holds, x.holder = id → x ∈ work.holds
  /-- An instance that has stopped has no hold. -/
  stopped : ∀ id r, n.HasRole id r → r.isStopped = true → ∀ x ∈ n.pool.holds, x.holder ≠ id
  /-- Whoever waits for the end of an instance does so for one that is shut down. -/
  waits : ∀ t work id signal, n.work? t = some work → work.Waits id signal →
    Felled ids n id signal

/-- A record that has stopped has no hold either. -/
theorem Thorough.stopped_of_find? (h : n.Thorough ids) (hn : n.Tidy ids) {record : Record Nat}
    (hfind : n.registry.records.find? id = some record) (hstate : record.state = .stopped) :
    ∀ x ∈ n.pool.holds, x.holder ≠ id := by
  have hcovered := hn.covered id
  simp only [view_of_find? hfind, View.Covered, Record.status, hstate] at hcovered
  rcases hcovered.2 with hr | hr
  · exact h.stopped id _ hr rfl
  · exact h.stopped id _ hr rfl

/-- The hold of a lease in a record is the only one of the instance. -/
theorem Tidy.mem_holds_of_lease (hn : n.Tidy ids) {s : Status} {l : Lease}
    (hstatus : (n.view id).status = some s) (hlease : s.lease = some l) {x : Hold}
    (hx : x ∈ n.pool.holds) (hholder : x.holder = id) : x ∈ l.holds := by
  obtain ⟨record, hfind, rfl⟩ := find?_of_view_status hstatus
  have hl : record.lease = some l := hlease
  have hmem := Multiset.singleton_le.1 (hn.lease_holds_le hfind hl)
  obtain rfl := hn.single x hx _ hmem (hholder.trans (hn.holder_of_lease hfind hl).symm)
  exact Multiset.mem_singleton_self _

/-- An instance that is shut down remains so. -/
theorem Felled.change {signal : Option Nat} (hn : n.Tidy ids) (h : n.Thorough ids)
    (hfelled : Felled ids n id signal) (hchange : Change ids n ids' m) :
    Felled ids' m id signal := by
  have hsame : m.registry = n.registry → Felled ids' m id signal := fun hregistry => by
    rcases hfelled with hrecord | ⟨hnone, hpast, hfree⟩
    · exact .inl (hregistry ▸ hrecord)
    · exact .inr ⟨hregistry ▸ hnone, hpast.change hchange, hpast.free_change hn hchange hfree⟩
  cases hc : hchange with
  | carries hcarries => exact hsame hcarries.registry
  | spawn => exact hsame rfl
  | aside _ _ _ hregistry _ => exact hsame hregistry
  | @stride t work work' i _ hturn htouches hroles hproper _ hstride =>
    have hfits : ∀ q, work.role? i = some q → q.Fits (n.view i) := fun q hq =>
      hn.fits t i q (hturn.role?_before.trans hq)
    by_cases hid : id = i
    · subst hid
      rcases hfelled with ⟨r, hfind, hstate, hsignal⟩ | ⟨hnone, hpast, hfree⟩
      · have hstatus : (n.view id).status = some r.status := by rw [view_of_find? hfind]
        -- only an instance that has stopped loses its record, and by then it has no hold
        rcases hstride.of_felled hfits hstatus hstate with ⟨s', hs', hstate'⟩ | ⟨hs', hstopped⟩
        · obtain ⟨r', hfind', rfl⟩ := find?_of_view_status hs'
          exact .inl ⟨r', hfind', hstate', fun s hs =>
            (htouches.signal r r' hfind hfind').trans (hsignal s hs)⟩
        · have hpast := hn.past_of_find? hfind
          exact .inr ⟨find?_of_view_none hs', hpast.change hchange,
            hpast.free_change hn hchange (h.stopped_of_find? hn hfind hstopped)⟩
      · have hr : ∀ q, work.role? id = some q → q.isFresh = false := fun q hq =>
          hpast.2 q ⟨t, hturn.role?_before.trans hq⟩
        have hs' := hstride.status_eq_none hr (by rw [view_of_find?_none hnone])
        exact .inr ⟨find?_of_view_none hs', hpast.change hchange,
          hpast.free_change hn hchange hfree⟩
    · have hrecord := htouches.records id hid
      rcases hfelled with ⟨r, hfind, hr⟩ | ⟨hnone, hpast, hfree⟩
      · exact .inl ⟨r, hrecord.trans hfind, hr⟩
      · exact .inr ⟨hrecord.trans hnone, hpast.change hchange, hpast.free_change hn hchange hfree⟩

/-- A hold is that of one task. -/
theorem Tidy.eq_of_mem_work_holds (hn : n.Tidy ids) {s : Nat} (ht : n.work? t = some work)
    (hs : n.work? s = some work') {x : Hold} (hx : x ∈ work.holds) (hx' : x ∈ work'.holds) :
    t = s := by
  by_contra hne
  obtain ⟨task, htask, rfl⟩ := Option.map_eq_some_iff.1 ht
  obtain ⟨task', htask', rfl⟩ := Option.map_eq_some_iff.1 hs
  have hle : task.work.holds + task'.work.holds ≤ n.pool.holds := by
    rw [hn.holds]
    exact (Table.add_le_tally hne htask htask' fun _ (task : Task) => task.work.holds).trans
      (Multiset.le_add_right _ _)
  have hnodup := Multiset.nodup_of_le hle n.pool.nodup_holds
  exact Multiset.disjoint_left.1 (Multiset.nodup_add.1 hnodup).2.2 hx hx'

/-- The task that gives a lease back keeps the only hold. -/
theorem Thorough.returning_change (hn : n.Tidy ids) (h : n.Thorough ids)
    (hchange : Change ids n ids' m) (ht : m.work? t = some work)
    (hrole : work.role? id = some .returning) :
    ∀ x ∈ m.pool.holds, x.holder = id → x ∈ work.holds := by
  have hother : n.work? t = some work → m.pool = n.pool →
      ∀ x ∈ m.pool.holds, x.holder = id → x ∈ work.holds := fun ht hpool => by
    rw [hpool]
    exact h.returning t work id ht hrole
  cases hchange with
  | @stride u old new i _ hturn htouches hroles _ _ hstride =>
    by_cases hu : t = u
    · subst hu
      obtain rfl : new = work := Option.some.inj (hturn.after.symm.trans ht)
      obtain rfl : id = i := by_contra fun hid => by
        rw [(hroles id hid).2] at hrole
        cases hrole
      rw [hrole] at hstride
      rw [htouches.pool]
      rcases hstride.of_returning with ⟨hold, hholds⟩ | ⟨s, l, hs, hl, hholds⟩
      · rw [hholds]
        exact h.returning t old id hturn.before hold
      · rw [hholds]
        exact fun x hx hholder => hn.mem_holds_of_lease hs hl hx hholder
    · exact hother ((hturn.work?_of_ne hu).symm.trans ht) htouches.pool
  | @carries u old new _ hcarries =>
    intro x hx hholder
    by_cases hu : t = u
    · subst hu
      obtain rfl : new = work := Option.some.inj (hcarries.turn.after.symm.trans ht)
      have hold := (hcarries.of_role? hrole).resolve_right fun hr => by cases hr.1
      rcases hcarries.of_mem_holds hn hx with ⟨hx, hnot⟩ | hx
      · exact absurd (h.returning t old id hcarries.turn.before hold x hx hholder) hnot
      · exact hx
    · -- another task goes on, whose hold is not that of this instance
      have ht' := (hcarries.turn.work?_of_ne hu).symm.trans ht
      have hpast := hn.past (.of_work? ht' hrole) rfl
      rcases hcarries.of_mem_holds hn hx with ⟨hx, -⟩ | hx
      · exact h.returning t work id ht' hrole x hx hholder
      · rcases hcarries.new x hx with ⟨y, hy, hsame, -⟩ | hasks
        · have hy' := Multiset.mem_of_le (hn.work_holds_le hcarries.turn.before) hy
          have hmine := h.returning t work id ht' hrole y hy' (hsame.trans hholder)
          exact absurd (hn.eq_of_mem_work_holds ht' hcarries.turn.before hmine hy) hu
        · cases hpast.2 _ ⟨u, hcarries.turn.role?_before.trans (hholder ▸ hasks)⟩
  | spawn _ _ _ _ hroles =>
    rcases of_work?_spawn ht with rfl | ht
    · cases (hroles id _ hrole).1
    · exact hother ht rfl
  | aside _ htasks hpool _ _ => exact hother ((work?_congr htasks t).symm.trans ht) hpool

/-- An instance that has stopped has no hold. -/
theorem Thorough.stopped_change (hn : n.Tidy ids) (h : n.Thorough ids)
    (hchange : Change ids n ids' m) {r : Role} (hr : m.HasRole id r)
    (hstopped : r.isStopped = true) : ∀ x ∈ m.pool.holds, x.holder ≠ id := by
  have hfresh : ∀ q : Role, q.isStopped = true → q.isFresh = false := fun q hq => by
    cases q <;> first | rfl | cases hq
  have hbefore : ∀ q, n.HasRole id q → q.isStopped = true → ∀ x ∈ m.pool.holds, x.holder ≠ id :=
    fun q hq hs => (hn.past hq (hfresh q hs)).free_change hn hchange (h.stopped id q hq hs)
  cases hc : hchange with
  | @stride t work work' i _ hturn _ hroles _ _ hstride =>
    rcases hturn.of_hasRole_after hr with hr | ⟨s, -, hr⟩
    · obtain rfl : id = i := by_contra fun hid => by
        rw [(hroles id hid).2] at hr
        cases hr
      rw [hr] at hstride
      rcases hstride.of_isStopped hstopped with ⟨o, ho, hs⟩ | ⟨ho, hholds⟩
      · exact hbefore o ⟨t, hturn.role?_before.trans ho⟩ hs
      · -- the lease is given back, and there was no other hold
        have hpast := hn.past ⟨t, hturn.role?_before.trans ho⟩ rfl
        refine hpast.free_change hn hchange fun x hx hholder => ?_
        have := h.returning t work id hturn.before ho x hx hholder
        rw [hholds] at this
        cases this
    · exact hbefore r ⟨s, hr⟩ hstopped
  | carries hcarries =>
    rcases hcarries.of_hasRole hr with hr | ⟨rfl, -⟩
    · exact hbefore r hr hstopped
    · cases hstopped
  | spawn _ _ _ _ hroles =>
    rcases of_hasRole_spawn hr with hr | hr
    · exact hbefore r hr hstopped
    · obtain rfl := (hroles id r hr).1
      cases hstopped
  | aside _ htasks _ _ _ => exact hbefore r (hr.of_tasks htasks) hstopped

/-- Whoever waits, waits for an instance that is shut down. -/
theorem Thorough.waits_change (hn : n.Tidy ids) (h : n.Thorough ids) (hchange : Change ids n ids' m)
    {signal : Option Nat} (ht : m.work? t = some work) (hwaits : work.Waits id signal) :
    Felled ids' m id signal := by
  refine Felled.change hn h ?_ hchange
  cases hchange with
  | @stride u old new i _ hturn _ _ _ hlearns _ =>
    by_cases hu : t = u
    · subst hu
      obtain rfl : new = work := Option.some.inj (hturn.after.symm.trans ht)
      -- the task waited before, or it sees the record
      rcases hlearns id signal hwaits with hold | ⟨r, hfind, hsignal, hstate⟩
      · exact h.waits t old id signal hturn.before hold
      · refine .inl ⟨r, hfind, ?_, hsignal⟩
        rcases hstate with hstate | hold
        · exact .inl hstate
        · rcases h.waits t old id none hturn.before hold with ⟨r', hfind', hstate, -⟩ | ⟨hnone, -⟩
          · obtain rfl := Option.some.inj (hfind.symm.trans hfind')
            exact hstate
          · cases hnone.symm.trans hfind
    · exact h.waits t work id signal ((hturn.work?_of_ne hu).symm.trans ht) hwaits
  | @carries u old new _ hcarries =>
    -- nobody waits after a step of an errand
    by_cases hu : t = u
    · subst hu
      obtain rfl : new = work := Option.some.inj (hcarries.turn.after.symm.trans ht)
      exact absurd hwaits (hcarries.waits id signal)
    · exact h.waits t work id signal ((hcarries.turn.work?_of_ne hu).symm.trans ht) hwaits
  | spawn _ _ _ hnever _ =>
    -- nobody waits from the beginning
    rcases of_work?_spawn ht with rfl | ht
    · exact absurd hwaits (hnever id signal)
    · exact h.waits t work id signal ht hwaits
  | aside _ htasks _ _ _ =>
    exact h.waits t work id signal ((work?_congr htasks t).symm.trans ht) hwaits

theorem Thorough.change (hn : n.Tidy ids) (h : n.Thorough ids) (hchange : Change ids n ids' m) :
    m.Thorough ids' where
  returning := fun _ _ _ ht hrole => h.returning_change hn hchange ht hrole
  stopped := fun _ _ hr hstopped => h.stopped_change hn hchange hr hstopped
  waits := fun _ _ _ _ ht hwaits => h.waits_change hn hchange ht hwaits

theorem thorough_start {config : NodeConfig} {ownerBase : Option Nat}
    (h : Node.start config ownerBase = .ok n) : n.Thorough [] := by
  obtain rfl := start_eq_ok h
  refine ⟨fun _ _ _ hwork => ?_, fun _ _ hr => ?_, fun _ _ _ _ hwork => ?_⟩
  · cases hwork
  · obtain ⟨_, hs⟩ := hr
    cases hs
  · cases hwork

end Node

end VmNode
