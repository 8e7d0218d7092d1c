import VmNode.Proofs.Network.Traffic

/-!
# Any callers

`Traffic.Reachable` has callers that lease for an instance once, and ask for nothing else
before its lease is granted. The allocator does not know of this: it takes any call, with
any lease and any network identity, at any time. `Traffic.Arises` is the traffic that
comes about with such callers, and it says in its first argument what they still refrain
from.

* `Traffic.Move`: everything that a caller, a call in progress or the host can do to it.
* `Traffic.Arises.of_moves`: what each move keeps holds of all traffic that arises.
* `Traffic.Arises.within`: whatever is asked, the slots that are held are slots of the
  subnet.
* `Traffic.Reachable.arises`: the callers of `Traffic.Reachable` are among them.
-/

namespace VmNode.Traffic

/-- A call begins, whoever makes it. -/
def enter (t : Traffic) (call : Call) : Traffic :=
  let (pool, progress) := call.begin t.config t.ownerBase t.pool
  { t with pool, calls := t.calls.insert t.calls.size call }.setProgress t.calls.size progress

/-- What an event makes of the traffic if callers make any call. -/
def stepFreely (t : Traffic) : Event → Option Traffic
  | .begin call => some (t.enter call)
  | .settle n => t.step (.settle n)
  | .answer n result => t.step (.answer n result)

/-- What such events make of the traffic, one after the other. -/
def playFreely (t : Traffic) : List Event → Option Traffic
  | [] => some t
  | e :: rest => (t.stepFreely e).bind fun u => u.playFreely rest

/-- The traffic that comes about when callers make any call that they may make. -/
inductive Arises (mayBegin : Traffic → Call → Prop) (c : NetworkConfig)
    (ownerBase : Option Nat) : Traffic → Prop
  | start : Arises mayBegin c ownerBase (start c ownerBase)
  | step {t u : Traffic} {e : Event} :
      Arises mayBegin c ownerBase t → (∀ call, e = .begin call → mayBegin t call) →
      t.stepFreely e = some u → Arises mayBegin c ownerBase u

/-- A move makes this of the traffic. -/
inductive Move (mayBegin : Traffic → Call → Prop) (t : Traffic) : Traffic → Prop
  /-- A call begins. -/
  | begin {call : Call} {p : Pool} {progress : Progress} :
      mayBegin t call → call.Begins t.config t.ownerBase t.pool p progress →
      Move mayBegin t
        ({ t with pool := p, calls := t.calls.insert t.calls.size call }.setProgress
          t.calls.size progress)
  /-- A call takes a step on the pool. -/
  | settle {n : Nat} {job : Job} {p : Pool} {progress : Progress} :
      t.jobs.find? n = some job → job.Settles t.pool p progress →
      Move mayBegin t ({ t with pool := p }.setProgress n progress)
  /-- The host makes a step for a call. -/
  | answer {n : Nat} {job : Job} {host : HostCall} {result : Except Error Unit} :
      t.jobs.find? n = some job → job.hostCall? = some host →
      Move mayBegin t ({ t with log := (host, result) :: t.log }.setProgress n
        (job.answer t.config result))

variable {mayBegin : Traffic → Call → Prop} {c : NetworkConfig} {ownerBase : Option Nat}
variable {t u : Traffic}

/-- The cases are all. -/
theorem move_of_stepFreely {e : Event} (hmay : ∀ call, e = .begin call → mayBegin t call)
    (h : t.stepFreely e = some u) : t.Move mayBegin u := by
  cases e with
  | begin call =>
    cases h
    exact .begin (hmay call rfl) (call.begins ..)
  | settle n =>
    rw [stepFreely, step] at h
    split at h
    · cases h
    · rename_i job hjob
      split at h
      · cases h
      · rename_i hhost
        cases h
        exact .settle hjob (job.settles t.pool hhost)
  | answer n result =>
    rw [stepFreely, step] at h
    split at h
    · cases h
    · rename_i job hjob
      split at h
      · cases h
      · rename_i host hhost
        cases h
        exact .answer hjob hhost

theorem Move.config (h : t.Move mayBegin u) :
    u.config = t.config ∧ u.ownerBase = t.ownerBase := by
  cases h <;> simp

/-! ### What arises -/

namespace Arises

/-- What holds at the start and is kept by each move holds of all traffic that arises. -/
theorem of_moves (h : Arises mayBegin c ownerBase t) (Inv : Traffic → Prop)
    (hstart : Inv (Traffic.start c ownerBase))
    (hmove : ∀ t u, Arises mayBegin c ownerBase t → Inv t → t.Move mayBegin u → Inv u) :
    Inv t := by
  induction h with
  | start => exact hstart
  | step h hmay hstep ih => exact hmove _ _ h ih (move_of_stepFreely hmay hstep)

theorem config (h : Arises mayBegin c ownerBase t) : t.config = c ∧ t.ownerBase = ownerBase :=
  h.of_moves (fun t => t.config = c ∧ t.ownerBase = ownerBase) ⟨rfl, rfl⟩ fun _ _ _ ih hmove =>
    ⟨hmove.config.1.trans ih.1, hmove.config.2.trans ih.2⟩

/-- Whatever is asked, the slots that are held are slots of the subnet. -/
theorem within (h : Arises mayBegin c ownerBase t) : t.pool.Within c := by
  refine h.of_moves (fun t => t.pool.Within c)
    (fun s hs => by simp [Traffic.start, Pool.empty] at hs) fun t u h ih hmove => ?_
  cases hmove with
  | begin hmay hbegins =>
    rw [pool_setProgress]
    exact h.config.1 ▸ hbegins.within (h.config.1.symm ▸ ih)
  | settle hjob hsettles =>
    rw [pool_setProgress]
    exact hsettles.within ih
  | answer => rwa [pool_setProgress]

/-- Events lead from traffic that arises to traffic that arises if any call may be made. -/
theorem playFreely {events : List Event} (h : Arises (fun _ _ => True) c ownerBase t)
    (hplay : t.playFreely events = some u) : Arises (fun _ _ => True) c ownerBase u := by
  induction events generalizing t with
  | nil => exact Option.some.inj hplay ▸ h
  | cons e rest ih =>
    obtain ⟨v, hstep, hrest⟩ := Option.bind_eq_some_iff.1 hplay
    exact ih (h.step (fun _ _ => trivial) hstep) hrest

end Arises

/-- Callers who lease for an instance once, and who have the leases that they use, are
    among those who make only calls that they may make. -/
theorem Reachable.arises (h : Reachable c ownerBase t)
    (hmay : ∀ t call, Reachable c ownerBase t → t.admits call → mayBegin t call) :
    Arises mayBegin c ownerBase t := by
  induction h with
  | start => exact .start
  | @step t u e h hstep ih =>
    cases e with
    | begin call =>
      rw [Traffic.step] at hstep
      split at hstep
      · rename_i hadmits
        exact ih.step (e := .begin call) (fun _ heq => by cases heq; exact hmay t call h hadmits)
          hstep
      · cases hstep
    | settle n => exact ih.step (e := .settle n) (fun _ heq => by cases heq) hstep
    | answer n result => exact ih.step (e := .answer n result) (fun _ heq => by cases heq) hstep

end VmNode.Traffic
