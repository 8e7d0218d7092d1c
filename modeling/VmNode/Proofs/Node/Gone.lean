import VmNode.Proofs.Node.Thorough

/-!
# What is left of an instance that is gone

A call that has shut an instance down, or has waited for another one to do so, returns when
nothing holds a slot for the instance any more (`Node.Thorough`). A call that finds a final
record takes it out, but another task may have taken the lease out of the record before,
and may still be giving it back.

So whenever a call to deprovision an instance returns, there is no record of the instance,
and whatever slot is still held for it is in the hands of another task that gives it back.
The links and rules that stand on the host then stand for other instances, except those of
such a slot and those of a port that is on its way (`Node.gone_of_deprovisioned`). What the
host has refused to take down is left, for nobody tries again (`Node.left_behind`).
-/

namespace VmNode

/-- The task has taken the lease of an instance, and gives it back. -/
def Work.GivesBack (l : Lease) (work : Work) : Prop :=
  (∃ id process reason, work = .monitor id process (.tell reason (some l))) ∨
    ∃ e, work.errand? = some e ∧ e.call = .release l

/-- Whoever has a hold for an instance that has a record or had one gives a lease back. -/
theorem Work.givesBack_of_mem_holds {work : Work} {x : Hold} (hproper : work.Proper)
    (hrole : ∀ r, work.role? x.holder = some r → r.isFresh = false) (hx : x ∈ work.holds) :
    ∃ l, work.GivesBack l ∧ l.slot = x.slot ∧ l.holder = x.holder := by
  cases herrand : work.errand? with
  | some e =>
    rw [holds_of_errand? herrand] at hx
    cases sends herrand hproper with
    | lease hcall =>
      -- whoever asks for a slot has no record yet
      obtain ⟨hholder, job, rfl⟩ := Errand.holder_of_lease hcall hx
      cases hrole .leasing (if_pos hholder.symm)
    | refuse hreturns | withdraw hreturns | watch hreturns | reap hreturns | stop hreturns =>
      obtain ⟨l, hcall, -⟩ := hreturns
      exact ⟨l, .inr ⟨e, herrand, hcall⟩, Errand.slot_of_release hcall hx⟩
    | publish hcall =>
      rw [Errand.holds_of_publish hcall] at hx
      cases hx
  | none =>
    cases work with
    | provision id spec phase =>
      cases phase with
      | insert l =>
        -- whoever is about to insert the record has none yet
        have hholder : l.holder = id := hproper
        obtain rfl := Multiset.mem_singleton.1 hx
        cases hrole .leasing (if_pos hholder.symm)
      | lease | refuse | giveBack => cases herrand
      | _ => cases hx
    | monitor id process phase =>
      cases phase with
      | tell reason lease =>
        cases lease with
        | none => cases hx
        | some l =>
          obtain rfl := Multiset.mem_singleton.1 hx
          exact ⟨l, .inl ⟨id, process, reason, rfl⟩, rfl, rfl⟩
      | giveBack => cases herrand
      | _ => cases hx
    | deprovision id timeout phase =>
      cases phase with
      | giveBackReaped | giveBack => cases herrand
      | _ => cases hx
    | forward id mapping phase =>
      cases phase with
      | work => cases herrand
      | _ => cases hx
    | drain | report | gone => cases hx

/-- The call has found a final record, which it takes out. -/
def DeprovisionPhase.isReaping : DeprovisionPhase → Bool
  | .reap _ | .giveBackReaped .. | .closeReaped _ => true
  | _ => false

namespace Node

variable {ids ids' : List InstanceId} {n m : Node} {t : Nat} {work work' : Work} {id : InstanceId}

/-! ### The end of a call -/

/-- The last step of a call that deprovisions an instance is one of `Node.stepDeprovision`. -/
theorem stepDeprovision_of_run (hn : n.Tidy ids) {timeout : Nat} {phase : DeprovisionPhase}
    {outcome : Except Error (Option ExitReason)}
    (ht : n.work? t = some (.deprovision id timeout phase)) (hrun : n.run t = some m)
    (hended : m.work? t = some (.deprovision id timeout (.ended outcome))) :
    ∃ k, n.stepDeprovision id timeout phase = some (k, .ended outcome) ∧
      m.pool = k.pool ∧ m.registry = k.registry := by
  obtain ⟨work, hwork, ⟨e, k, progress, herrand, hstep, rfl⟩ | ⟨_, k, next, -, hstep, rfl⟩⟩ :=
    run_eq_some hrun
  · obtain rfl := Option.some.inj (ht.symm.trans hwork)
    obtain ⟨p, rfl, -⟩ := stepErrand_eq_some hstep
    -- an errand does not end the call
    have hturn := Turn.setWork (m := { n with pool := p }) ht rfl rfl
      ((Work.deprovision id timeout phase).resume progress)
    have hnext := Option.some.inj (hturn.after.symm.trans hended)
    cases phase with
    | giveBackReaped e reason | giveBack e reason => cases progress <;> cases hnext
    | _ => cases herrand
  · obtain rfl := Option.some.inj (ht.symm.trans hwork)
    obtain ⟨⟨k', phase'⟩, hphase, heq⟩ := Option.map_eq_some_iff.1 hstep
    cases heq
    obtain ⟨-, htouches, htasks, -⟩ := stepDeprovision_paces hn ht hphase
    have hturn := Turn.setWork ht htasks htouches.config (.deprovision id timeout phase')
    cases Option.some.inj (hturn.after.symm.trans hended)
    exact ⟨_, hphase, rfl, rfl⟩

/-- When a call to deprovision an instance ends well, the record of the instance is gone, and
    unless the call found a final record, so is every hold. -/
theorem Thorough.ended (hn : n.Tidy ids) (h : n.Thorough ids) {timeout : Nat}
    {phase : DeprovisionPhase} {reason : Option ExitReason}
    (ht : n.work? t = some (.deprovision id timeout phase))
    (hstep : n.stepDeprovision id timeout phase = some (m, .ended (.ok reason))) :
    m.registry.records.find? id = none ∧ Past ids n id ∧
      (phase.isReaping = false → ∀ x ∈ n.pool.holds, x.holder ≠ id) := by
  have hrole : ∀ q, phase.role? = some q → n.HasRole id q := fun q hq =>
    .of_work? ht ((if_pos rfl).trans hq)
  have hfits : ∀ q, phase.role? = some q → q.Fits (n.view id) := fun q hq =>
    hn.fits_of_work ht ((if_pos rfl).trans hq)
  -- these are the steps after which a call has ended well
  cases deprovisions_of_step hn ht hstep with
  | unheard hnone =>
    rcases h.waits t _ id none ht ⟨rfl, rfl⟩ with ⟨r, hfind, -⟩ | ⟨-, hpast, hfree⟩
    · cases hnone.symm.trans hfind
    · exact ⟨hnone, hpast, fun _ => hfree⟩
  | @heard signal hraised =>
    rcases h.waits t _ id (some signal) ht ⟨rfl, rfl⟩ with
      ⟨r, hfind, -, hsignal⟩ | ⟨hnone, hpast, hfree⟩
    · -- the signal of a record that is there is pending
      obtain rfl := hsignal signal rfl
      rw [Registry.signal, hn.signals.pending id r hfind] at hraised
      exact absurd rfl hraised
    · exact ⟨hnone, hpast, fun _ => hfree⟩
  | pass hnone => exact ⟨hnone, hn.past (hrole .reaping rfl) rfl, nofun⟩
  | closeReaped =>
    have hnone : (n.view id).status = none := hfits .clearing rfl
    exact ⟨find?_of_view_none hnone, hn.past (hrole .clearing rfl) rfl, nofun⟩
  | gone hnone =>
    exact ⟨hnone, hn.past (hrole .leaving rfl) rfl,
      fun _ => h.stopped id .leaving (hrole .leaving rfl) rfl⟩
  | withdraw =>
    exact ⟨Table.find?_erase_self .., hn.past (hrole .leaving rfl) rfl,
      fun _ => h.stopped id .leaving (hrole .leaving rfl) rfl⟩

/-- Without a record, whatever is held for an instance of the past is in the hands of a task
    that gives it back. -/
theorem Tidy.givesBack_of_mem_holds (hn : n.Tidy ids)
    (hnone : n.registry.records.find? id = none) (hpast : Past ids n id) {x : Hold}
    (hx : x ∈ n.pool.holds) (hholder : x.holder = id) :
    ∃ s work l, n.work? s = some work ∧ work.GivesBack l ∧ l.slot = x.slot ∧ l.holder = id := by
  subst hholder
  -- the hold is in a record or with a task, and there is no record
  rw [hn.holds] at hx
  rcases Multiset.mem_add.1 hx with hx | hx
  · obtain ⟨s, task, hfind, hx⟩ := Table.mem_tally.1 hx
    have hs : n.work? s = some task.work := congrArg (Option.map Task.work) hfind
    obtain ⟨l, hgives, hslot, hholder⟩ := Work.givesBack_of_mem_holds (hn.proper s _ hs)
      (fun r hr => hpast.2 r (.of_work? hs hr)) hx
    exact ⟨s, task.work, l, hs, hgives, hslot, hholder⟩
  · obtain ⟨j, record, hfind, hx⟩ := Table.mem_tally.1 hx
    cases hlease : record.lease with
    | none =>
      rw [hlease] at hx
      cases hx
    | some l =>
      rw [hlease] at hx
      obtain rfl := Multiset.mem_singleton.1 hx
      obtain rfl := hn.holder_of_lease hfind hlease
      cases hnone.symm.trans hfind

/-- Without a slot, an instance has no call in progress but those that publish ports. -/
theorem Tidy.publishes_of_job? (hn : n.Tidy ids) {s : Nat} {job : Job} (hjob : n.job? s = some job)
    (hfree : ∀ x ∈ n.pool.holds, x.holder ≠ job.call.holder) :
    ∃ id network mapping phase, job = .publish id network mapping phase := by
  obtain ⟨work, hwork, herrand⟩ := errand?_of_job? hjob
  have hle := hn.errand_holds_le hwork herrand
  cases job with
  | publish id network mapping phase => exact ⟨id, network, mapping, phase, rfl⟩
  | lease i slot link phase => exact absurd rfl (hfree _ (Multiset.singleton_le.1 hle))
  | release l link phase => exact absurd rfl (hfree _ (Multiset.singleton_le.1 hle))

/-- Whatever happens to a node, whenever a call to deprovision an instance ends well, there is
    no record of the instance. A slot is held for it only if the call found a final record, and
    another task, which has taken the lease, gives it back. And as long as the host takes down
    whatever it is asked to, everything that stands there stands for another instance, unless
    the instance has such a slot or a port that is on its way. -/
theorem gone_of_deprovisioned {config : NodeConfig} {ownerBase : Option Nat} {start : Node}
    {moves : List Move} {timeout : Nat} {phase : DeprovisionPhase} {reason : Option ExitReason}
    (hstart : Node.start config ownerBase = .ok start) (hids : (provisioned moves).Nodup)
    (hplay : start.play moves = some n) (ht : n.work? t = some (.deprovision id timeout phase))
    (hrun : n.run t = some m)
    (hended : m.work? t = some (.deprovision id timeout (.ended (.ok reason)))) :
    m.registry.records.find? id = none ∧
      (∀ slot g, m.pool.slots.find? slot = some g → g.holder = id → phase.isReaping = true ∧
        ∃ s work l, s ≠ t ∧ m.work? s = some work ∧ work.GivesBack l ∧ l.slot = slot ∧
          l.holder = id) ∧
      ((∀ e ∈ start.hostLog moves, e.1.isDeletion → e.2.isOk) →
        ∀ b ∈ standing (start.hostLog moves), ∃ j, m.StandsFor j b ∧
          (j = id → (∃ slot g, m.pool.slots.find? slot = some g ∧ g.holder = id) ∨
            ∃ s network mapping p, m.job? s = some (.publish id network mapping p))) := by
  obtain ⟨hn, hall⟩ := (tidy_start hstart).play (P := fun ids n => n.Thorough ids)
    (fun hn h hchange => h.change hn hchange) (thorough_start hstart) hids hplay
  obtain ⟨k, hstep, hpool, hregistry⟩ := stepDeprovision_of_run hn ht hrun hended
  obtain ⟨hnone, hpast, hfree⟩ := hall.ended hn ht hstep
  have hchanges := Changes.of_run hn hrun
  have hm := hn.changes hchanges
  have hsame : m.pool = n.pool := hpool.trans (stepDeprovision_paces hn ht hstep).2.touches.pool
  have hgone : m.registry.records.find? id = none := hregistry ▸ hnone
  have hpast' := (hchanges.induct (P := fun ids n => Past ids n id)
    (fun _ h hchange => h.change hchange) hn hpast).2
  refine ⟨hgone, fun slot g hfind hholder => ?_, fun hdel b hb => ?_⟩
  · have hmem : (⟨slot, g.holder, g.releasing⟩ : Hold) ∈ m.pool.holds :=
      Pool.mem_holds.2 ⟨g, hfind, rfl, rfl⟩
    refine ⟨by_contra fun hnot => ?_, ?_⟩
    · exact hfree (by simpa using hnot) _ (hsame ▸ hmem) hholder
    · obtain ⟨s, work, l, hs, hgives, hslot, hl⟩ :=
        hm.givesBack_of_mem_holds hgone hpast' hmem hholder
      refine ⟨s, work, l, fun heq => ?_, hs, hgives, hslot, hl⟩
      -- the call itself has ended
      rw [heq, hended, Option.some.injEq] at hs
      subst hs
      rcases hgives with ⟨_, _, _, h⟩ | ⟨_, h, -⟩ <;> cases h
  · have hids' : (provisioned (moves ++ [.run t])).Nodup := by
      rwa [provisioned, List.filterMap_append, List.filterMap_cons_none rfl, List.filterMap_nil,
        List.append_nil]
    -- the host has done the same work before the last step and after it
    rw [← hostLog_concat_run (s := t)] at hdel hb
    obtain ⟨j, hj⟩ := exists_standsFor hstart hids' (play_concat hplay hrun) hdel hb
    refine ⟨j, hj, ?_⟩
    rintro rfl
    rcases hj with ⟨slot, g, hfind, hholder, -⟩ | ⟨s, job, hjob, hholder, -⟩
    · exact .inl ⟨slot, g, hfind, hholder⟩
    · by_cases hslot : ∃ slot g, m.pool.slots.find? slot = some g ∧ g.holder = j
      · exact .inl hslot
      · obtain ⟨i, network, mapping, p, rfl⟩ := hm.publishes_of_job? hjob fun x hx heq => hslot (by
          obtain ⟨g, hfind, hg, -⟩ := Pool.mem_holds.1 hx
          exact ⟨x.slot, g, hfind, hg.trans (heq.trans hholder)⟩)
        obtain rfl : i = j := hholder
        exact .inr ⟨s, network, mapping, p, hjob⟩

/-- An instance is provisioned. -/
def raised : List Move :=
  let ok : Move := .host 0 (.ok ())
  [.begin (.provision "i-1" (.ofImage "app")), .run 0, ok, ok, ok, ok, .run 0, .run 0, .run 0,
    .launched 0 (.ok ()), .run 0, .run 0]

/-- A call shuts the instance down, up to its last step. The host answers the step that takes
    the link down. -/
def shutDown (unlinked : Except Error Unit) : List Move :=
  let ok : Move := .host 2 (.ok ())
  raised ++ [.begin (.deprovision "i-1" none), .run 2, .run 2, .run 2, .run 2, .process 0 .take,
    .process 0 (.delivery .delivered), .process 0 (.exit (.exited (some 0))), .process 0 .cleaned,
    .run 2, .run 2, .run 2, .run 2, ok, ok, ok, .host 2 unlinked, .run 2, .run 2, .run 2, .run 2]

/-- The process of the instance crashes. Its monitor has taken the lease and is about to give
    it back, when a call finds the final record and takes it out. -/
def reapDuringRelease : List Move :=
  raised ++ [.process 0 (.exit (.exited (some 1))), .process 0 .cleaned, .run 1, .run 1,
    .begin (.deprovision "i-1" none), .run 2, .run 2]

/-- Nothing is left of an instance that a call has shut down. -/
theorem gone_shutDown : ∃ start n m, Node.start {} none = .ok start ∧
    start.play (shutDown (.ok ())) = some n ∧ n.run 2 = some m ∧
    m.work? 2 = some (.deprovision "i-1" 3000 (.ended (.ok (some .clean)))) ∧
    m.registry.records.find? "i-1" = none ∧
    (∀ slot g, m.pool.slots.find? slot = some g → g.holder ≠ "i-1") ∧
    ∀ b ∈ standing (start.hostLog (shutDown (.ok ()))), ∃ j, m.StandsFor j b := by
  let n := (blank.play (shutDown (.ok ()))).get (by decide +kernel)
  let m := (n.run 2).get (by decide +kernel)
  have hplay : blank.play (shutDown (.ok ())) = some n := (Option.some_get _).symm
  have hrun : n.run 2 = some m := (Option.some_get _).symm
  have hids : (provisioned (shutDown (.ok ()))).Nodup := by decide +kernel
  have ht : n.work? 2 = some (.deprovision "i-1" 3000 (.withdraw .clean)) := by decide +kernel
  have hended : m.work? 2 = some (.deprovision "i-1" 3000 (.ended (.ok (some .clean)))) := by
    decide +kernel
  have hdel : ∀ e ∈ blank.hostLog (shutDown (.ok ())), e.1.isDeletion → e.2.isOk := by
    decide +kernel
  obtain ⟨hgone, hslots, hhost⟩ := gone_of_deprovisioned start_blank hids hplay ht hrun hended
  refine ⟨blank, n, m, start_blank, hplay, hrun, hended, hgone, fun slot g hfind hholder => ?_,
    fun b hb => ?_⟩
  · cases (hslots slot g hfind hholder).1
  · obtain ⟨j, hj, -⟩ := hhost hdel b hb
    exact ⟨j, hj⟩

/-- The link of an instance that was shut down is left on the host, if the host does not take
    it down. And when a call finds the record of an instance that crashed, it can end before
    the monitor has given the slot back. -/
theorem left_behind :
    (∃ start n m, Node.start {} none = .ok start ∧
      start.play (shutDown (.error (.network "busy"))) = some n ∧ n.run 2 = some m ∧
      m.work? 2 = some (.deprovision "i-1" 3000 (.ended (.ok (some .clean)))) ∧
      standing (start.hostLog (shutDown (.error (.network "busy")))) =
        [.createLink (Pool.linkFor {} none "i-1" 0)]) ∧
    ∃ start n m, Node.start {} none = .ok start ∧
      start.play reapDuringRelease = some n ∧ n.run 2 = some m ∧
      m.work? 2 = some (.deprovision "i-1" 3000 (.ended (.ok (some (.crashed (some 1)))))) ∧
      m.pool.holds = {⟨0, "i-1", false⟩} := by
  constructor
  · let n := (blank.play (shutDown (.error (.network "busy")))).get (by decide +kernel)
    let m := (n.run 2).get (by decide +kernel)
    refine ⟨blank, n, m, start_blank, (Option.some_get _).symm, (Option.some_get _).symm, ?_, ?_⟩
    all_goals decide +kernel
  · let n := (blank.play reapDuringRelease).get (by decide +kernel)
    let m := (n.run 2).get (by decide +kernel)
    refine ⟨blank, n, m, start_blank, (Option.some_get _).symm, (Option.some_get _).symm, ?_, ?_⟩
    all_goals decide +kernel

end Node

end VmNode
