import VmNode.Proofs.Network.Traffic

/-!
# Reservations

A call that publishes a port has it reserved from its first step on. When the slot is given
back meanwhile the call relies on nothing any more (`Job.Fits`), but the reservation stays
with the slot until the slot is free, also while the call removes its rules again. So as
long as an instance holds its slot, the port of every call in progress is among the ports of
the slot, without rules, and no two calls in progress have the same one
(`Traffic.Reachable.reserved`).
-/

namespace VmNode

namespace Job

/-- The call, in a phase in which it relies on its reservation. -/
def reserving : Job → Job
  | .publish id n m _ => .publish id n m (.record [])
  | job => job

@[simp] theorem call_reserving (job : Job) : job.reserving.call = job.call := by
  cases job <;> rfl

/-- Every phase comes after one that relies on the reservation. -/
theorem follows_reserving (job : Job) : Follows job.reserving job := by
  cases job with
  | lease => exact .lease
  | release => exact .release
  | publish => exact .publish (by simp)

/-- A call reserves the same in all of its phases. -/
theorem Follows.reserving {a b : Job} (h : Follows a b) : Follows a.reserving b.reserving := by
  cases h with
  | lease => exact .lease
  | release => exact .release
  | publish | orphan => exact .publish (by simp)

end Job

/-- A call that begins reserves its port, and relies on it. -/
theorem Call.Begins.reserving {c : NetworkConfig} {ownerBase : Option Nat} {p p' : Pool}
    {call : Call} {job : Job} (h : call.Begins c ownerBase p p' (.going job)) :
    Job.Follows job job.reserving := by
  generalize hprog : Progress.going job = progress at h
  cases h with
  | refused | known => cases hprog
  | lease =>
    cases hprog
    exact .lease
  | release =>
    cases hprog
    exact .release
  | publish =>
    cases hprog
    exact .publish (by simp [PublishPhase.installing, Job.portRules])

namespace Traffic

/-- The ports that are being published are reserved, each for one call. -/
structure Reserved (t : Traffic) : Prop where
  /-- What a call has reserved is in the pool. -/
  fits : ∀ n job, t.jobs.find? n = some job → job.reserving.Fits t.pool
  /-- Two calls have not reserved the same. -/
  apart : ∀ m n a b, m ≠ n → t.jobs.find? m = some a → t.jobs.find? n = some b →
    a.reserving.Apart b.reserving

namespace Reserved

variable {t u : Traffic}

theorem start (c : NetworkConfig) (ownerBase : Option Nat) : (start c ownerBase).Reserved where
  fits := fun n job h => by simp [Traffic.start] at h
  apart := fun m n a b _ h => by simp [Traffic.start] at h

/-- One call takes a step, and all find their reservations. -/
theorem setProgress {n : Nat} {progress : Progress}
    (hmine : ∀ job, progress = .going job → job.reserving.Fits t.pool)
    (hothers : ∀ m j, m ≠ n → t.jobs.find? m = some j → j.reserving.Fits t.pool)
    (hapart : ∀ job, progress = .going job → ∀ m j, m ≠ n → t.jobs.find? m = some j →
      job.reserving.Apart j.reserving)
    (hbefore : ∀ m k a b, m ≠ k → t.jobs.find? m = some a → t.jobs.find? k = some b →
      a.reserving.Apart b.reserving) : (t.setProgress n progress).Reserved := by
  refine ⟨fun m job h => ?_, pairwise_jobs_setProgress (R := fun a b =>
    a.reserving.Apart b.reserving) (fun _ _ => Job.Apart.symm) hapart hbefore⟩
  rw [pool_setProgress]
  rcases find?_jobs_setProgress_eq_some h with ⟨-, hprog⟩ | ⟨hm, hold⟩
  · exact hmine job hprog
  · exact hothers m job hm hold

/-- Whatever happens, no two calls have reserved the same: what a call reserves is free at that
    time, and a call only gives up what is its own. -/
theorem turn (ht : t.Reserved) (hord : t.Orderly) (h : t.Turn u) :
    u.Reserved := by
  cases h with
  | @begin call p progress hadmits hbegins =>
    -- what the call reserves was free, so no other call has it
    have hbeside : ∀ m j, t.jobs.find? m = some j → j.reserving.call.Beside call := fun m j hj => by
      rw [Job.call_reserving]
      exact hord.sound.beside hadmits hj
    refine setProgress (fun job hprog => ?_) (fun m j _ hj => ?_) (fun job hprog m j _ hj => ?_)
      ht.apart
    · subst hprog
      exact hbegins.reserving.fits hbegins.fits_job
    · exact hbegins.fits hord.regular (ht.fits m j hj) (hbeside m j hj)
    · subst hprog
      exact hbegins.reserving.apart
        (hbegins.apart hord.regular (ht.fits m j hj) (hbeside m j hj))
  | @settle n job p progress hjob hsettles =>
    -- the call gives its reservation up when it ends, and nobody else's
    have hfits := hord.fits n job hjob
    refine setProgress (fun next hprog => ?_) (fun m j hm hj => ?_) (fun next hprog m j hm hj => ?_)
      ht.apart
    · subst hprog
      obtain ⟨rfl, hfollows⟩ := hsettles.follows
      exact hfollows.reserving.fits (ht.fits n job hjob)
    · exact hsettles.fits hfits (ht.fits m j hj)
        (job.follows_reserving.apart (ht.apart n m job j hm.symm hjob hj))
    · subst hprog
      exact hsettles.follows.2.reserving.apart (ht.apart n m job j hm.symm hjob hj)
  | @answer n job host result hjob hhost =>
    -- an answer of the host leaves all reservations as they are
    refine setProgress (fun next hprog => ?_) (fun m j _ hj => ht.fits m j hj)
      (fun next hprog m j hm hj => ?_) ht.apart
    · exact (Job.follows_answer hprog).reserving.fits (ht.fits n job hjob)
    · exact (Job.follows_answer hprog).reserving.apart (ht.apart n m job j hm.symm hjob hj)

end Reserved

/-- Along every course of the traffic, reserved ports are each for one call. -/
theorem Reachable.reserved {c : NetworkConfig} {ownerBase : Option Nat} {t : Traffic}
    (h : Reachable c ownerBase t) : t.Reserved := by
  induction h with
  | start => exact .start c ownerBase
  | step h hstep ih => exact ih.turn h.orderly (turn_of_step hstep)

end Traffic

end VmNode
