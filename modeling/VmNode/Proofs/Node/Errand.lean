import VmNode.Proofs.Network.Traffic
import VmNode.Proofs.Node.Role

/-!
# Errands of tasks

A task that is on an errand makes a call to the allocator, one step after the other. Its
hold on a slot is that of the call (`Errand.holds`), or the lease that it keeps for itself
between two errands (`Work.holds`). Which call a task makes depends on its phase alone
(`Work.Proper`), so a call to give a lease back is made by a task that has this lease, and
such a call is never refused (`Errand.Steps.released`).
-/

namespace VmNode

/-! ### Steps of errands -/

namespace Errand

/-- The call of an errand. -/
def call : Errand → Call
  | .toBegin call => call
  | .going job => job.call

/-- The hold of an errand on a slot. -/
def holds : Errand → Multiset Hold
  | .toBegin call => call.holds
  | .going job => job.holds

/-- Whoever publishes a port has no hold for it. -/
theorem holds_of_publish {e : Errand} {id : InstanceId} {n : NetworkInfo} {m : PortMapping}
    (h : e.call = .publish id n m) : e.holds = 0 := by
  cases e with
  | toBegin call =>
    obtain rfl : call = .publish id n m := h
    rfl
  | going job => cases job <;> first | rfl | cases h

/-- Whoever leases a slot has a hold for the instance. -/
theorem holder_of_lease {e : Errand} {id : InstanceId} (h : e.call = .lease id) {x : Hold}
    (hx : x ∈ e.holds) : x.holder = id ∧ ∃ job, e = .going job := by
  cases e with
  | toBegin call =>
    obtain rfl : call = .lease id := h
    cases hx
  | going job =>
    cases job with
    | lease i slot link phase =>
      obtain rfl : i = id := Call.lease.inj h
      obtain rfl := Multiset.mem_singleton.1 hx
      exact ⟨rfl, _, rfl⟩
    | release | publish => cases h

/-- Whoever gives a lease back has the hold of the lease. -/
theorem slot_of_release {e : Errand} {l : Lease} (h : e.call = .release l) {x : Hold}
    (hx : x ∈ e.holds) : l.slot = x.slot ∧ l.holder = x.holder := by
  cases e with
  | toBegin call =>
    obtain rfl : call = .release l := h
    obtain rfl := Multiset.mem_singleton.1 hx
    exact ⟨rfl, rfl⟩
  | going job =>
    cases job with
    | release l' link phase =>
      obtain rfl : l' = l := Call.release.inj h
      obtain rfl := Multiset.mem_singleton.1 hx
      exact ⟨rfl, rfl⟩
    | lease | publish => cases h

theorem exists_hold_of_release {e : Errand} {l : Lease} (h : e.call = .release l) :
    ∃ x, x ∈ e.holds := by
  cases e with
  | toBegin call =>
    obtain rfl : call = .release l := h
    exact ⟨_, Multiset.mem_singleton_self _⟩
  | going job =>
    cases job with
    | release => exact ⟨_, Multiset.mem_singleton_self _⟩
    | lease | publish => cases h

namespace Progress

/-- The hold that an errand has, or hands over at its end. -/
def holds : Errand.Progress → Multiset Hold
  | .going errand => errand.holds
  | .done (.ok (.leased l)) => l.holds
  | .done _ => 0

theorem holds_ofCall (progress : VmNode.Progress) : (ofCall progress).holds = progress.holds := by
  cases progress with
  | going => rfl
  | done outcome =>
    cases outcome with
    | error => rfl
    | ok reply => cases reply <;> rfl

/-- An errand can have come this far with its call. -/
def Of (call : Call) : Errand.Progress → Prop
  | .going errand => errand.call = call
  | .done (.ok (.leased l)) => call = .lease l.holder
  | .done (.ok .released) => ∃ l, call = .release l
  | .done (.ok (.published _)) => ∃ id n m, call = .publish id n m
  | .done (.error _) => True

/-- An errand has one hold at most. -/
theorem eq_of_mem_holds {progress : Errand.Progress} {x y : Hold} (hx : x ∈ progress.holds)
    (hy : y ∈ progress.holds) : x = y := by
  have hone : progress.holds = 0 ∨ ∃ z, progress.holds = {z} := by
    cases progress with
    | going e =>
      cases e with
      | toBegin call => cases call <;> first | exact .inl rfl | exact .inr ⟨_, rfl⟩
      | going job => cases job <;> first | exact .inl rfl | exact .inr ⟨_, rfl⟩
    | done outcome =>
      cases outcome with
      | error => exact .inl rfl
      | ok reply => cases reply <;> first | exact .inl rfl | exact .inr ⟨_, rfl⟩
  rcases hone with h | ⟨z, h⟩
  · rw [h] at hx
    cases hx
  · rw [h, Multiset.mem_singleton] at hx hy
    exact hx.trans hy.symm

theorem of_ofCall {call : Call} {progress : VmNode.Progress} (h : progress.Of call) :
    (ofCall progress).Of call := by
  cases progress with
  | going => exact h
  | done outcome =>
    cases outcome with
    | error => trivial
    | ok reply => cases reply <;> exact h

end Progress

/-- The next step of an errand on the pool. -/
inductive Steps (c : NetworkConfig) (ownerBase : Option Nat) (p : Pool) :
    Errand → Pool → Errand.Progress → Prop
  | begin {call : Call} {p' : Pool} {progress : VmNode.Progress} :
    call.Begins c ownerBase p p' progress →
      Steps c ownerBase p (.toBegin call) p' (.ofCall progress)
  | settle {job : Job} {p' : Pool} {progress : VmNode.Progress} :
    job.Settles p p' progress → Steps c ownerBase p (.going job) p' (.ofCall progress)

namespace Steps

variable {c : NetworkConfig} {ownerBase : Option Nat} {p p' : Pool} {e : Errand}
variable {progress : Errand.Progress}

theorem of (h : e.Steps c ownerBase p p' progress) : progress.Of e.call := by
  cases h with
  | begin hbegins => exact Progress.of_ofCall hbegins.of
  | settle hsettles => exact Progress.of_ofCall hsettles.of

theorem ne_toBegin (h : e.Steps c ownerBase p p' progress) (call : Call) :
    progress ≠ .going (.toBegin call) := by
  cases h with
  | @begin call p' progress => cases progress <;> simp [Progress.ofCall]
  | @settle job p' progress => cases progress <;> simp [Progress.ofCall]

theorem within (h : e.Steps c ownerBase p p' progress) (hp : p.Within c) : p'.Within c := by
  cases h with
  | begin hbegins => exact hbegins.within hp
  | settle hsettles => exact hsettles.within hp

/-- What a step adds to the holds of the pool it adds to those of the errand. -/
theorem holds (h : e.Steps c ownerBase p p' progress) (hp : p.Within c)
    (hmine : e.holds ≤ p.holds) : p'.holds + e.holds = p.holds + progress.holds := by
  cases h with
  | begin hbegins =>
    rw [Progress.holds_ofCall]
    exact hbegins.holds hmine
  | settle hsettles =>
    rw [Progress.holds_ofCall]
    exact hsettles.holds hp hmine

/-- A lease that is in somebody's hands is given back without fail. -/
theorem released (h : e.Steps c ownerBase p p' progress) (hmine : e.holds ≤ p.holds) {l : Lease}
    (hcall : e.call = .release l) {outcome : Except Error Reply}
    (hdone : progress = .done outcome) : outcome = .ok .released := by
  cases h with
  | @begin call p' progress hbegins =>
    obtain rfl : call = .release l := hcall
    cases hbegins with
    | refused herr =>
      -- the hold is in the pool, so the lease is not refused
      obtain ⟨g, hfind, hholder, hfree⟩ := Pool.mem_holds.1 (Multiset.singleton_le.1 hmine)
      have := herr l rfl
      rw [Pool.beginRelease_of_held hfind hholder hfree] at this
      cases this
    | release => cases hdone
  | @settle job p' progress hsettles =>
    cases hsettles with
    | released =>
      cases hdone
      rfl
    | leased | unleased => cases hcall
    | published | orphaned | unpublished | forgotten => cases hcall

/-- Only an instance that asks for a slot gets a hold on one. -/
theorem of_mem_holds (h : e.Steps c ownerBase p p' progress) (hp : p.Within c)
    (hmine : e.holds ≤ p.holds) {x : Hold} (hx : x ∈ progress.holds) :
    (∃ y ∈ e.holds, y.slot = x.slot ∧ y.holder = x.holder ∧
      (y.isLeaving = true → x.isLeaving = true)) ∨ e = .toBegin (.lease x.holder) := by
  cases h with
  | begin hbegins =>
    rw [Progress.holds_ofCall] at hx
    cases hbegins with
    | refused | known | publish => simp [VmNode.Progress.holds, Job.holds] at hx
    | lease =>
      obtain rfl := Multiset.mem_singleton.1 hx
      exact .inr rfl
    | @release l g hfind hholder hfree =>
      obtain rfl := Multiset.mem_singleton.1 hx
      exact .inl ⟨⟨l.slot, l.holder, false⟩, Multiset.mem_singleton_self _, rfl, rfl, by simp⟩
  | settle hsettles =>
    rw [Progress.holds_ofCall] at hx
    exact .inl ⟨x, Multiset.mem_of_le (hsettles.progress_le hp hmine) hx, rfl, rfl, id⟩

end Steps

/-- A step of an errand on the host. -/
theorem answer_eq_some {c : NetworkConfig} {result : Except Error Unit} {e : Errand}
    {progress : Errand.Progress} (h : e.answer c result = some progress) :
    ∃ job, e = .going job ∧ job.hostCall?.isSome ∧ progress = .ofCall (job.answer c result) := by
  cases e with
  | toBegin => cases h
  | going job =>
    rw [answer] at h
    split at h
    · rename_i hhost
      exact ⟨job, rfl, hhost, (Option.some.inj h).symm⟩
    · cases h

theorem holds_answer {c : NetworkConfig} {result : Except Error Unit} {e : Errand}
    {progress : Errand.Progress} (h : e.answer c result = some progress) :
    progress.holds = e.holds := by
  obtain ⟨job, rfl, -, rfl⟩ := answer_eq_some h
  rw [Progress.holds_ofCall]
  exact job.holds_answer c result

theorem of_answer {c : NetworkConfig} {result : Except Error Unit} {e : Errand}
    {progress : Errand.Progress} (h : e.answer c result = some progress) : progress.Of e.call := by
  obtain ⟨job, rfl, -, rfl⟩ := answer_eq_some h
  exact Progress.of_ofCall (job.of_answer c result)

theorem ne_toBegin_of_answer {c : NetworkConfig} {result : Except Error Unit} {e : Errand}
    {progress : Errand.Progress} (h : e.answer c result = some progress) (call : Call) :
    progress ≠ .going (.toBegin call) := by
  obtain ⟨job, rfl, -, rfl⟩ := answer_eq_some h
  cases job.answer c result <;> simp [Progress.ofCall]

/-- The host does not end a call that gives a lease back. -/
theorem not_done_of_answer {c : NetworkConfig} {result : Except Error Unit} {e : Errand} {l : Lease}
    {outcome : Except Error Reply} (hcall : e.call = .release l) :
    e.answer c result ≠ some (.done outcome) := fun h => by
  obtain ⟨job, rfl, -, hdone⟩ := answer_eq_some h
  cases job with
  | release l' link phase => cases phase <;> cases hdone
  | lease | publish => cases hcall

end Errand

/-- The next step of an errand changes the pool and nothing else. -/
theorem Node.stepErrand_eq_some {n m : Node} {e : Errand} {progress : Errand.Progress}
    (h : n.stepErrand e = some (m, progress)) :
    ∃ p, m = { n with pool := p } ∧ e.Steps n.config.network n.ownerBase n.pool p progress := by
  cases e with
  | toBegin call =>
    simp only [stepErrand, Option.some.injEq, Prod.mk.injEq] at h
    obtain ⟨rfl, rfl⟩ := h
    exact ⟨_, rfl, .begin (call.begins ..)⟩
  | going job =>
    rw [stepErrand] at h
    split at h
    · cases h
    · rename_i hhost
      simp only [Option.some.injEq, Prod.mk.injEq] at h
      obtain ⟨rfl, rfl⟩ := h
      exact ⟨_, rfl, .settle (job.settles n.pool (by simpa using hhost))⟩

/-! ### Errands and tasks -/

/-- An errand gives back the lease of an instance. -/
def Errand.Returns (id : InstanceId) (e : Errand) : Prop := ∃ l, e.call = .release l ∧ l.holder = id

/-- An errand that leases a slot goes on doing so, and ends with a lease or with an error. -/
theorem Errand.Progress.of_lease {id : InstanceId} {progress : Errand.Progress}
    (hof : progress.Of (.lease id)) :
    (∃ e, progress = .going e ∧ e.call = .lease id) ∨
      (∃ l, progress = .done (.ok (.leased l)) ∧ l.holder = id) ∨
        ∃ cause, progress = .done (.error cause) := by
  cases progress with
  | going e => exact .inl ⟨e, rfl, hof⟩
  | done outcome =>
    cases outcome with
    | error cause => exact .inr (.inr ⟨cause, rfl⟩)
    | ok reply =>
      cases reply with
      | leased l => exact .inr (.inl ⟨l, rfl, (Call.lease.inj hof).symm⟩)
      | released =>
        obtain ⟨l, h⟩ := hof
        cases h
      | published isNew =>
        obtain ⟨i, n, m, h⟩ := hof
        cases h

/-- An errand that publishes a port goes on doing so, and ends with the port or with an error. -/
theorem Errand.Progress.of_publish {id : InstanceId} {n : NetworkInfo} {m : PortMapping}
    {progress : Errand.Progress} (hof : progress.Of (.publish id n m)) :
    (∃ e, progress = .going e ∧ e.call = .publish id n m) ∨
      (∃ isNew, progress = .done (.ok (.published isNew))) ∨
        ∃ cause, progress = .done (.error cause) := by
  cases progress with
  | going e => exact .inl ⟨e, rfl, hof⟩
  | done outcome =>
    cases outcome with
    | error cause => exact .inr (.inr ⟨cause, rfl⟩)
    | ok reply =>
      cases reply with
      | published isNew => exact .inr (.inl ⟨isNew, rfl⟩)
      | leased => cases hof
      | released =>
        obtain ⟨l, h⟩ := hof
        cases h

/-- An errand that gives a lease back goes on doing so, and ends with empty hands. -/
theorem Errand.Returns.progress {id : InstanceId} {e : Errand} {progress : Errand.Progress}
    (h : e.Returns id) (hof : progress.Of e.call) :
    (∃ e', progress = .going e' ∧ e'.Returns id) ∨
      ∃ outcome, progress = .done outcome ∧ progress.holds = 0 := by
  obtain ⟨l, hcall, hholder⟩ := h
  rw [hcall] at hof
  cases progress with
  | going e' => exact .inl ⟨e', rfl, l, hof, hholder⟩
  | done outcome =>
    refine .inr ⟨outcome, rfl, ?_⟩
    cases outcome with
    | error => rfl
    | ok reply =>
      cases reply with
      | leased => cases hof
      | released | published => rfl

namespace ProvisionPhase

/-- The hold that the task has. -/
def holds : ProvisionPhase → Multiset Hold
  | .lease e | .refuse e | .giveBack e _ => e.holds
  | .insert l => l.holds
  | _ => 0

/-- The part that the task has. -/
def role? : ProvisionPhase → Option Role
  | .lease (.toBegin _) => some .asking
  | .lease (.going _) | .insert _ => some .leasing
  | .openConsole _ => some .opening
  | .launch .. | .attach _ | .fail _ => some .launching
  | .enter _ => some .entering
  | .withdraw _ => some .failing
  | .giveBack .. | .closeConsole _ => some .clearing
  | .refuse _ | .ended _ => none

/-- The task does what it should for the instance. -/
def Proper (id : InstanceId) : ProvisionPhase → Prop
  | .lease e => e.call = .lease id
  | .insert l => l.holder = id
  | .refuse e | .giveBack e _ => e.Returns id
  | _ => True

end ProvisionPhase

namespace MonitorPhase

/-- The hold that the task has. -/
def holds : MonitorPhase → Multiset Hold
  | .tell _ lease => leaseHolds lease
  | .giveBack e => e.holds
  | _ => 0

/-- The task does what it should for the instance. -/
def Proper (id : InstanceId) : MonitorPhase → Prop
  | .tell _ lease => ∀ l, lease = some l → l.holder = id
  | .giveBack e => e.Returns id
  | _ => True

end MonitorPhase

namespace DeprovisionPhase

/-- The hold that the task has. -/
def holds : DeprovisionPhase → Multiset Hold
  | .giveBackReaped e _ | .giveBack e _ => e.holds
  | _ => 0

/-- The part that the task has. -/
def role? : DeprovisionPhase → Option Role
  | .reap _ => some .reaping
  | .giveBackReaped .. | .closeReaped _ => some .clearing
  | .find | .stop .. | .note _ | .takeLease _ => some .stopping
  | .giveBack .. | .enterStopped _ => some .returning
  | .tell _ | .closeConsole _ => some .stopped
  | .withdraw _ => some .leaving
  | .settle _ | .rest .. | .look | .enter | .listen | .await _ | .ended _ => none

/-- The task does what it should for the instance. -/
def Proper (id : InstanceId) : DeprovisionPhase → Prop
  | .giveBackReaped e _ | .giveBack e _ => e.Returns id
  | _ => True

end DeprovisionPhase

namespace ForwardPhase

/-- The hold that the task has. -/
def holds : ForwardPhase → Multiset Hold
  | .work e => e.holds
  | _ => 0

/-- The task does what it should for the instance. -/
def Proper (id : InstanceId) (mapping : PortMapping) : ForwardPhase → Prop
  | .work e => ∃ n, e.call = .publish id n mapping
  | _ => True

end ForwardPhase

namespace Work

/-- The hold that a task has on a slot. -/
def holds : Work → Multiset Hold
  | .provision _ _ phase => phase.holds
  | .monitor _ _ phase => phase.holds
  | .deprovision _ _ phase => phase.holds
  | .forward _ _ phase => phase.holds
  | .drain _ | .report .. | .gone => 0

/-- The part that a task has in the life of an instance. -/
def role? (id : InstanceId) : Work → Option Role
  | .provision i _ phase => if i = id then phase.role? else none
  | .deprovision i _ phase => if i = id then phase.role? else none
  | .monitor .. | .forward .. | .drain _ | .report .. | .gone => none

/-- The instance that a task works on. -/
def subject : Work → InstanceId
  | .provision id .. | .monitor id .. | .deprovision id .. | .forward id .. | .report id .. => id
  | .drain _ | .gone => ""

/-- A task has a part in the life of its own instance only. -/
theorem role?_of_ne_subject {work : Work} {id : InstanceId} (h : id ≠ work.subject) :
    work.role? id = none := by
  cases work with
  | provision | deprovision => exact if_neg (Ne.symm h)
  | monitor | forward | drain | report | gone => rfl

/-- The task waits until somebody else has taken the record of an instance out, and if it has
    found the signal of the record, for this signal. -/
def Waits (id : InstanceId) (signal : Option Nat) : Work → Prop
  | .deprovision i _ .listen => i = id ∧ signal = none
  | .deprovision i _ (.await s) => i = id ∧ signal = some s
  | _ => False

/-- A task is on no other errand than its phase says. -/
def Proper : Work → Prop
  | .provision id _ phase => phase.Proper id
  | .monitor id _ phase => phase.Proper id
  | .deprovision id _ phase => phase.Proper id
  | .forward id mapping phase => phase.Proper id mapping
  | .drain _ | .report .. | .gone => True

variable {work : Work} {e : Errand} {progress : Errand.Progress}

/-- A task that is on an errand has the hold of the errand and no other. -/
theorem holds_of_errand? (h : work.errand? = some e) : work.holds = e.holds := by
  cases work with
  | provision id spec phase => cases phase <;> cases h <;> rfl
  | monitor id process phase =>
    cases phase with
    | giveBack => cases h; rfl
    | _ => cases h
  | deprovision id timeout phase => cases phase <;> cases h <;> rfl
  | forward id mapping phase =>
    cases phase with
    | work => cases h; rfl
    | _ => cases h
  | drain | report | gone => cases h

/-- The errands that a task can be on that does what it should. -/
inductive Sends (e : Errand) : Work → Prop
  /-- A slot is leased. -/
  | lease {id : InstanceId} {spec : InstanceSpec} : e.call = .lease id →
    Sends e (.provision id spec (.lease e))
  /-- The identifier was taken, and the lease is given back. -/
  | refuse {id : InstanceId} {spec : InstanceSpec} : e.Returns id →
    Sends e (.provision id spec (.refuse e))
  /-- The launch failed, and the lease is given back. -/
  | withdraw {id : InstanceId} {spec : InstanceSpec} {cause : Error} : e.Returns id →
    Sends e (.provision id spec (.giveBack e cause))
  /-- The process has gone away, and the lease is given back. -/
  | watch {id : InstanceId} {process : Nat} : e.Returns id →
    Sends e (.monitor id process (.giveBack e))
  /-- A final record was taken out, and its lease is given back. -/
  | reap {id : InstanceId} {timeout : Nat} {reason : Option ExitReason} : e.Returns id →
    Sends e (.deprovision id timeout (.giveBackReaped e reason))
  /-- The process was stopped, and the lease is given back. -/
  | stop {id : InstanceId} {timeout : Nat} {reason : ExitReason} : e.Returns id →
    Sends e (.deprovision id timeout (.giveBack e reason))
  /-- A port is published. -/
  | publish {id : InstanceId} {n : NetworkInfo} {m : PortMapping} : e.call = .publish id n m →
    Sends e (.forward id m (.work e))

/-- The cases of `Sends` are all errands of such a task. -/
theorem sends (hwork : work.errand? = some e) (hproper : work.Proper) : work.Sends e := by
  cases work with
  | provision id spec phase =>
    cases phase with
    | lease | refuse | giveBack =>
      obtain rfl := Option.some.inj hwork
      first | exact .lease hproper | exact .refuse hproper | exact .withdraw hproper
    | _ => cases hwork
  | monitor id process phase =>
    cases phase with
    | giveBack =>
      obtain rfl := Option.some.inj hwork
      exact .watch hproper
    | _ => cases hwork
  | deprovision id timeout phase =>
    cases phase with
    | giveBackReaped | giveBack =>
      obtain rfl := Option.some.inj hwork
      first | exact .reap hproper | exact .stop hproper
    | _ => cases hwork
  | forward id mapping phase =>
    cases phase with
    | work =>
      obtain rfl := Option.some.inj hwork
      obtain ⟨n, hcall⟩ := hproper
      exact .publish hcall
    | _ => cases hwork
  | drain | report | gone => cases hwork

/-- After a step of its errand a task has what the errand has, or what it handed over, and
    goes on as it should. -/
theorem resume_proper (hwork : work.errand? = some e) (hproper : work.Proper)
    (hof : progress.Of e.call) :
    (work.resume progress).Proper ∧ (work.resume progress).holds = progress.holds := by
  cases sends hwork hproper with
  | lease hcall =>
    -- the call goes on, or the lease is handed over, or there is none
    rw [hcall] at hof
    rcases Errand.Progress.of_lease hof with ⟨e', rfl, he'⟩ | ⟨l, rfl, hl⟩ | ⟨cause, rfl⟩
    · exact ⟨he', rfl⟩
    · exact ⟨hl, rfl⟩
    · exact ⟨trivial, rfl⟩
  | refuse hreturns | withdraw hreturns | watch hreturns | reap hreturns | stop hreturns =>
    -- what is left of the errand still returns the lease
    rcases hreturns.progress hof with ⟨e', rfl, he'⟩ | ⟨outcome, rfl, hholds⟩
    · exact ⟨he', rfl⟩
    · exact ⟨trivial, hholds.symm⟩
  | publish hcall =>
    -- there is nothing to hold
    rw [hcall] at hof
    rcases Errand.Progress.of_publish hof with ⟨e', rfl, he'⟩ | ⟨isNew, rfl⟩ | ⟨cause, rfl⟩
    · exact ⟨⟨_, he'⟩, rfl⟩
    · cases isNew <;> exact ⟨trivial, rfl⟩
    · exact ⟨trivial, rfl⟩

/-- A step of its errand leaves a task its role, unless it leases a slot. Then the slot is
    asked for, and there will be a record or there will be none. -/
theorem resume_role? (hwork : work.errand? = some e) (hproper : work.Proper)
    (hof : progress.Of e.call) (hprogress : ∀ call, progress ≠ .going (.toBegin call))
    (id : InstanceId) : (work.resume progress).role? id ≠ some .asking ∧
      ((work.resume progress).role? id = work.role? id ∨
        (∃ r, work.role? id = some r ∧ r.isFresh = true) ∧
          ((work.resume progress).role? id = some .leasing ∨
            (work.resume progress).role? id = none)) := by
  cases sends hwork hproper with
  | @lease i spec hcall =>
    by_cases hi : i = id
    · subst hi
      simp only [resume, role?, if_true]
      have hfresh : ∃ r, (ProvisionPhase.lease e).role? = some r ∧ r.isFresh = true := by
        cases e <;> exact ⟨_, rfl, rfl⟩
      -- with a lease there will be a record, and without one there will be none
      rw [hcall] at hof
      rcases Errand.Progress.of_lease hof with ⟨e', rfl, -⟩ | ⟨l, rfl, -⟩ | ⟨cause, rfl⟩
      · cases e' with
        | toBegin call => exact absurd rfl (hprogress call)
        | going job => exact ⟨by simp [ProvisionPhase.resume, ProvisionPhase.role?],
            .inr ⟨hfresh, .inl rfl⟩⟩
      · exact ⟨by simp [ProvisionPhase.resume, ProvisionPhase.role?], .inr ⟨hfresh, .inl rfl⟩⟩
      · exact ⟨by simp [ProvisionPhase.resume, ProvisionPhase.role?], .inr ⟨hfresh, .inr rfl⟩⟩
    · simp [resume, role?, hi]
  | refuse | withdraw =>
    cases progress <;>
      exact ⟨by simp [resume, role?, ProvisionPhase.resume, ProvisionPhase.role?], .inl rfl⟩
  | reap | stop =>
    cases progress <;>
      exact ⟨by simp [resume, role?, DeprovisionPhase.resume, DeprovisionPhase.role?], .inl rfl⟩
  | watch | publish => exact ⟨by simp [resume, role?], .inl rfl⟩

/-- Nobody waits for another task after a step of an errand. -/
theorem not_waits_resume (hwork : work.errand? = some e) (id : InstanceId) (signal : Option Nat) :
    ¬ (work.resume progress).Waits id signal := by
  cases work with
  | deprovision i timeout phase =>
    cases phase with
    | giveBackReaped errand reason | giveBack errand reason => cases progress <;> exact fun h => h
    | _ => cases hwork
  | provision | monitor | forward => exact fun h => h
  | drain | report | gone => cases hwork

/-- Who asks for a slot has the role to do so. -/
theorem role?_of_toBegin_lease {id : InstanceId}
    (hwork : work.errand? = some (.toBegin (.lease id))) (hproper : work.Proper) :
    work.role? id = some .asking := by
  cases sends hwork hproper with
  | lease hcall =>
    cases hcall
    exact if_pos rfl
  | refuse hreturns | withdraw hreturns | watch hreturns | reap hreturns | stop hreturns =>
    -- whoever gives a lease back does not ask for one
    obtain ⟨l, hcall, -⟩ := hreturns
    cases hcall
  | publish hcall => cases hcall

end Work

end VmNode
