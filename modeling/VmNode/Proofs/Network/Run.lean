import VmNode.Proofs.Network.Live

/-!
# Calls from beginning to end

`Call.run` makes a call with nothing between its steps but what the host does, and the
host may do anything with the pool meanwhile. What such a call comes to is shown step by
step: a property of the world and of the job that each step keeps, and that gives what is
claimed of the end when there is no next step (`Job.run_meets`, `Call.run_meets`).

A call that takes down again what it has built remembers why (`Job.cause?`). The cause is
the error of the first step on the host that failed to build something (`Job.cause?_answer`),
so if a slot was taken and is not leased in the end, the host has answered with that error
(`Job.exists_error_of_run_lease`).
-/

namespace VmNode

/-- A call goes on with such a job, or has ended with such an outcome. -/
def Progress.Meets (I : Job → Prop) (Q : Except Error Reply → Prop) : Progress → Prop
  | .going job => I job
  | .done outcome => Q outcome

@[simp] theorem Progress.meets_going {I : Job → Prop} {Q : Except Error Reply → Prop} {job : Job} :
    (Progress.going job).Meets I Q ↔ I job := Iff.rfl

@[simp] theorem Progress.meets_done {I : Job → Prop} {Q : Except Error Reply → Prop}
    {outcome : Except Error Reply} : (Progress.done outcome).Meets I Q ↔ Q outcome := Iff.rfl

/-! ### Runs -/

section Run

variable {σ : Type} {c : NetworkConfig} {getPool : σ → Pool} {setPool : σ → Pool → σ}
variable {host : σ → HostCall → σ × Except Error Unit}
variable {I : σ → Job → Prop} {Q : σ → Except Error Reply → Prop}

/-- What each step of a job keeps, and what it comes to when the job ends. -/
theorem Job.run_meets
    (hanswer : ∀ s job call, I s job → job.hostCall? = some call →
      (job.answer c (host s call).2).Meets (I (host s call).1) (Q (host s call).1))
    (hsettle : ∀ s job, I s job → job.hostCall? = none →
      (job.settle (getPool s)).2.Meets (I (setPool s (job.settle (getPool s)).1))
        (Q (setPool s (job.settle (getPool s)).1)))
    {s : σ} {job : Job} (h : I s job) :
    Q (job.run c getPool setPool host s).1 (job.run c getPool setPool host s).2 := by
  -- on the bound of the steps that the job has left, with the run
  fun_induction Job.run c getPool setPool host s job with
  | case1 s job call hcall s' result hhost next hnext ih =>
    have hmeets := hanswer s job call h hcall
    rw [hhost, hnext] at hmeets
    exact ih hmeets
  | case2 s job call hcall s' result hhost outcome hdone =>
    have hmeets := hanswer s job call h hcall
    rw [hhost, hdone] at hmeets
    exact hmeets
  | case3 s job hcall p next hnext ih =>
    have hmeets := hsettle s job h hcall
    rw [hnext] at hmeets
    exact ih hmeets
  | case4 s job hcall p outcome hdone =>
    have hmeets := hsettle s job h hcall
    rw [hdone] at hmeets
    exact hmeets

/-- What the first step of a call brings about, and each later one keeps. -/
theorem Call.run_meets {ownerBase : Option Nat} {s : σ} {call : Call}
    (hbegin : (call.begin c ownerBase (getPool s)).2.Meets
      (I (setPool s (call.begin c ownerBase (getPool s)).1))
      (Q (setPool s (call.begin c ownerBase (getPool s)).1)))
    (hanswer : ∀ s job call, I s job → job.hostCall? = some call →
      (job.answer c (host s call).2).Meets (I (host s call).1) (Q (host s call).1))
    (hsettle : ∀ s job, I s job → job.hostCall? = none →
      (job.settle (getPool s)).2.Meets (I (setPool s (job.settle (getPool s)).1))
        (Q (setPool s (job.settle (getPool s)).1))) :
    Q (call.run c ownerBase getPool setPool host s).1
      (call.run c ownerBase getPool setPool host s).2 := by
  rw [Call.run]
  split
  · rename_i p job heq
    rw [heq] at hbegin
    exact Job.run_meets hanswer hsettle hbegin
  · rename_i p outcome heq
    rw [heq] at hbegin
    exact hbegin

end Run

/-! ### Why a call takes down what it has built -/

/-- The error that a step on the host has ended with. -/
def HostCall.error? : Except Error Unit → Option Error
  | .ok () => none
  | .error e => some e

/-- The error that made a lease fail. -/
def LeasePhase.cause? : LeasePhase → Option Error
  | .undo _ _ cause | .unlink cause | .abandon cause => some cause
  | .create | .install .. | .record _ => none

/-- The error that made the publishing of a port fail. -/
def PublishPhase.cause? : PublishPhase → Option Error
  | .undo _ _ cause | .abandon cause => some cause
  | .install .. | .record _ | .orphan .. => none

/-- The error that made a call fail. -/
def Job.cause? : Job → Option Error
  | .lease _ _ _ phase => phase.cause?
  | .release .. => none
  | .publish _ _ _ phase => phase.cause?

section Phases

variable (done rest : List FirewallRule) (cause : Error)

@[simp] theorem LeasePhase.cause?_installing : (installing done rest).cause? = none := by
  cases rest <;> rfl

@[simp] theorem LeasePhase.cause?_undoing : (undoing cause rest).cause? = some cause := by
  cases rest <;> rfl

@[simp] theorem PublishPhase.cause?_installing : (installing done rest).cause? = none := by
  cases rest <;> rfl

@[simp] theorem PublishPhase.cause?_undoing : (undoing cause rest).cause? = some cause := by
  cases rest <;> rfl

end Phases

namespace Job

/-- A call fails for the first step that did not build what it should, and from then on
    for no other cause. -/
theorem cause?_answer {c : NetworkConfig} {result : Except Error Unit} {job next : Job}
    {call : HostCall} (hcall : job.hostCall? = some call)
    (h : job.answer c result = .going next) :
    next.cause? = job.cause?.or (if call.isDeletion then none else HostCall.error? result) := by
  cases job with
  | lease id slot link phase =>
    cases phase with
    | record | abandon => cases hcall
    | create | install | undo | unlink =>
      cases hcall
      cases result <;> simp only [answer, Progress.going.injEq] at h <;> subst h <;>
        simp only [cause?, LeasePhase.cause?_installing, LeasePhase.cause?_undoing] <;> rfl
  | release l link phase =>
    cases phase with
    | vacate => cases hcall
    | remove | unlink =>
      cases hcall
      simp only [answer, Progress.going.injEq] at h
      subst h
      rfl
  | publish id n m phase =>
    cases phase with
    | record | abandon => cases hcall
    | install | undo =>
      cases hcall
      cases result <;> simp only [answer, Progress.going.injEq] at h <;> subst h <;>
        simp only [cause?, PublishPhase.cause?_installing, PublishPhase.cause?_undoing] <;> rfl
    | orphan rule rest =>
      cases hcall
      cases rest <;> simp only [answer, orphaned, reduceCtorEq, Progress.going.injEq] at h
      subst h
      rfl

/-- A later phase of a call is part of the same call. -/
theorem Follows.call {a b : Job} (h : Follows a b) : b.call = a.call := by
  cases h <;> rfl

/-- No lease ends with a step on the host. -/
theorem exists_going_of_isLease (c : NetworkConfig) (result : Except Error Unit) {job : Job}
    (h : job.call.isLease) : ∃ next, job.answer c result = .going next := by
  cases job with
  | lease id slot link phase => cases phase <;> cases result <;> exact ⟨_, rfl⟩
  | release | publish => cases h

section Lease

variable {σ : Type} {c : NetworkConfig} {getPool : σ → Pool} {setPool : σ → Pool → σ}
variable {host : σ → HostCall → σ × Except Error Unit} {s : σ}

/-- If a slot was taken and is not leased in the end, the host has answered with that error,
    whatever else has happened to the pool meanwhile. -/
theorem exists_error_of_run_lease {id : InstanceId} {slot : Nat} {link : GuestLink} {e : Error}
    (h : ((Job.lease id slot link .create).run c getPool setPool host s).2 = .error e) :
    ∃ s call, (host s call).2 = .error e := by
  let Failed (e : Error) : Prop := ∃ s call, (host s call).2 = .error e
  let I (_ : σ) (job : Job) : Prop := job.call.isLease ∧ ∀ e, job.cause? = some e → Failed e
  let Q (_ : σ) (outcome : Except Error Reply) : Prop := ∀ e, outcome = .error e → Failed e
  refine run_meets (I := I) (Q := Q) (fun s job call hjob hcall => ?_)
    (fun s job hjob hcall => ?_) ⟨rfl, fun e he => by cases he⟩ e h
  · -- a new cause is what the host has answered
    obtain ⟨hlease, hcause⟩ := hjob
    obtain ⟨next, hnext⟩ := exists_going_of_isLease c (host s call).2 hlease
    rw [hnext]
    refine ⟨(follows_answer hnext).call ▸ hlease, fun e he => ?_⟩
    rw [cause?_answer hcall hnext, Option.or_eq_some_iff] at he
    obtain he | ⟨-, he⟩ := he
    · exact hcause e he
    · refine ⟨s, call, ?_⟩
      split at he
      · cases he
      · cases hresult : (host s call).2 with
        | ok => simp [hresult, HostCall.error?] at he
        | error e' => simpa [hresult, HostCall.error?] using he
  · -- a lease ends well, or for its cause
    obtain ⟨hlease, hcause⟩ := hjob
    have hsettles := job.settles (getPool s) hcall
    generalize (job.settle (getPool s)).1 = p, (job.settle (getPool s)).2 = progress at hsettles
    cases hsettles with
    | leased => exact fun e he => by cases he
    | unleased => exact fun e he => hcause e (by cases he; rfl)
    | released | published | orphaned | unpublished | forgotten => cases hlease

end Lease

end Job

end VmNode
