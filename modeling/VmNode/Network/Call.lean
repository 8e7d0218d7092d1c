import VmNode.Network.Pool

/-!
# Calls in progress

Leasing a slot, giving one back and publishing a port each take several steps:
some under the lock of the pool, the others on the host, one command after the
other, with the lock free for other calls. A `Job` is a call between two steps.
What it waits for is told by `Job.hostCall?`: a step on the host, which may fail
(`Job.answer`), or none, and then its next step is one on the pool (`Job.settle`).

A call that fails takes down what it had built, in the opposite order, and
answers with the error that made it fail; errors of taking down are passed over.
-/

namespace VmNode

/-- A step on the host. -/
inductive HostCall where
  /-- Build a link. -/
  | createLink (link : GuestLink)
  /-- Take a link down. -/
  | deleteLink (link : GuestLink)
  /-- Append a rule to its chain. -/
  | appendRule (rule : FirewallRule)
  /-- Delete a rule from its chain. -/
  | deleteRule (rule : FirewallRule)
  deriving DecidableEq

/-- What is asked of the allocator. -/
inductive Call where
  /-- Lease a slot to an instance. -/
  | lease (id : InstanceId)
  /-- Give the slot of a lease back. -/
  | release (lease : Lease)
  /-- Publish a port of the host for an instance with that network identity. -/
  | publish (id : InstanceId) (network : NetworkInfo) (mapping : PortMapping)
  deriving DecidableEq

/-- What a call that succeeds answers. -/
inductive Reply where
  /-- The slot is leased. -/
  | leased (lease : Lease)
  /-- The slot is given back. -/
  | released
  /-- The port is published: by this call, or it was already. -/
  | published (isNew : Bool)
  deriving DecidableEq

/-- How far a lease has come. -/
inductive LeasePhase where
  /-- The link is being built. -/
  | create
  /-- A rule is being installed, after some and before others. -/
  | install (done : List FirewallRule) (rule : FirewallRule) (rest : List FirewallRule)
  /-- All rules are installed and have to be written down. -/
  | record (rules : List FirewallRule)
  /-- A rule is being removed again, before others. -/
  | undo (rule : FirewallRule) (rest : List FirewallRule) (cause : Error)
  /-- The link is being taken down again. -/
  | unlink (cause : Error)
  /-- The slot has to be freed again. -/
  | abandon (cause : Error)
  deriving DecidableEq

/-- How far giving a slot back has come. -/
inductive ReleasePhase where
  /-- A rule is being removed, before others. -/
  | remove (rule : FirewallRule) (rest : List FirewallRule)
  /-- The link is being taken down. -/
  | unlink
  /-- The slot has to be freed. -/
  | vacate
  deriving DecidableEq

/-- How far publishing a port has come. -/
inductive PublishPhase where
  /-- A rule is being installed, after some and before others. -/
  | install (done : List FirewallRule) (rule : FirewallRule) (rest : List FirewallRule)
  /-- All rules are installed and have to be written down. -/
  | record (rules : List FirewallRule)
  /-- A rule is being removed again, before others. -/
  | undo (rule : FirewallRule) (rest : List FirewallRule) (cause : Error)
  /-- The reservation has to be taken back. -/
  | abandon (cause : Error)
  /-- The slot was given back meanwhile: a rule is being removed, before others. -/
  | orphan (rule : FirewallRule) (rest : List FirewallRule)
  deriving DecidableEq

/-- A call in progress. -/
inductive Job where
  /-- A slot is being leased. -/
  | lease (id : InstanceId) (slot : Nat) (link : GuestLink) (phase : LeasePhase)
  /-- A slot is being given back. -/
  | release (lease : Lease) (link : GuestLink) (phase : ReleasePhase)
  /-- A port is being published. -/
  | publish (id : InstanceId) (network : NetworkInfo) (mapping : PortMapping)
      (phase : PublishPhase)
  deriving DecidableEq

/-- What has become of a call. -/
inductive Progress where
  /-- It goes on. -/
  | going (job : Job)
  /-- It has ended. -/
  | done (outcome : Except Error Reply)

/-! ### Phases -/

/-- The phase of a lease with these rules still to install. -/
def LeasePhase.installing (done : List FirewallRule) : List FirewallRule → LeasePhase
  | [] => .record done
  | rule :: rest => .install done rule rest

/-- The phase of a lease with these rules still to remove again. -/
def LeasePhase.undoing (cause : Error) : List FirewallRule → LeasePhase
  | [] => .unlink cause
  | rule :: rest => .undo rule rest cause

/-- The phase of giving a slot back with these rules still to remove. -/
def ReleasePhase.removing : List FirewallRule → ReleasePhase
  | [] => .unlink
  | rule :: rest => .remove rule rest

/-- The phase of publishing with these rules still to install. -/
def PublishPhase.installing (done : List FirewallRule) : List FirewallRule → PublishPhase
  | [] => .record done
  | rule :: rest => .install done rule rest

/-- The phase of publishing with these rules still to remove again. -/
def PublishPhase.undoing (cause : Error) : List FirewallRule → PublishPhase
  | [] => .abandon cause
  | rule :: rest => .undo rule rest cause

namespace Job

/-! ### Rules -/

/-- The rules that go with a link. -/
def leaseRules (c : NetworkConfig) (l : GuestLink) : List FirewallRule :=
  [.masquerade l.guest c.serviceInterface, .forwardEstablished,
    .forwardEgress l.hostLink c.serviceInterface]

/-- The rules of a published port. -/
def portRules (c : NetworkConfig) (hostLink : String) (n : NetworkInfo) (m : PortMapping) :
    List FirewallRule :=
  [.redirect c.serviceInterface m.hostPort n.guest m.guestPort,
    .forwardPublished c.serviceInterface hostLink n.guest m.guestPort]

/-- A port whose slot was given back meanwhile, with these rules still to remove. -/
def orphaned (id : InstanceId) (n : NetworkInfo) (m : PortMapping) :
    List FirewallRule → Progress
  | [] => .done (.error (.leaseNotAllocated id))
  | rule :: rest => .going (.publish id n m (.orphan rule rest))

/-! ### Steps -/

/-- The step on the host that a job waits for. -/
def hostCall? : Job → Option HostCall
  | .lease _ _ link phase => match phase with
    | .create => some (.createLink link)
    | .install _ rule _ => some (.appendRule rule)
    | .undo rule _ _ => some (.deleteRule rule)
    | .unlink _ => some (.deleteLink link)
    | .record _ | .abandon _ => none
  | .release _ link phase => match phase with
    | .remove rule _ => some (.deleteRule rule)
    | .unlink => some (.deleteLink link)
    | .vacate => none
  | .publish _ _ _ phase => match phase with
    | .install _ rule _ => some (.appendRule rule)
    | .undo rule _ _ | .orphan rule _ => some (.deleteRule rule)
    | .record _ | .abandon _ => none

/-- The lease of a slot. -/
def leaseOf (id : InstanceId) (slot : Nat) (l : GuestLink) : Lease :=
  ⟨id, ⟨UInt32.ofNat slot, l.guest, l.gateway, l.tap, l.netns, l.hostLink, []⟩⟩

/-- What becomes of a job when its step on the host is over. A job that does not
    wait for the host stays as it is. -/
def answer (c : NetworkConfig) (result : Except Error Unit) : Job → Progress
  | .lease id slot link phase =>
    let go := fun phase => Progress.going (.lease id slot link phase)
    match phase, result with
    | .create, .ok () => go (LeasePhase.installing [] (leaseRules c link))
    | .create, .error e => go (.abandon e)
    | .install done rule rest, .ok () => go (LeasePhase.installing (done ++ [rule]) rest)
    | .install done _ _, .error e => go (LeasePhase.undoing e done.reverse)
    | .undo _ rest cause, _ => go (LeasePhase.undoing cause rest)
    | .unlink cause, _ => go (.abandon cause)
    | phase, _ => go phase
  | .release l link phase =>
    let go := fun phase => Progress.going (.release l link phase)
    match phase with
    | .remove _ rest => go (ReleasePhase.removing rest)
    | .unlink => go .vacate
    | .vacate => go .vacate
  | .publish id n m phase =>
    let go := fun phase => Progress.going (.publish id n m phase)
    match phase, result with
    | .install done rule rest, .ok () => go (PublishPhase.installing (done ++ [rule]) rest)
    | .install done _ _, .error e => go (PublishPhase.undoing e done.reverse)
    | .undo _ rest cause, _ => go (PublishPhase.undoing cause rest)
    | .orphan _ rest, _ => orphaned id n m rest
    | phase, _ => go phase

/-- The next step of a job on the pool. A job that waits for the host stays as
    it is. -/
def settle (p : Pool) : Job → Pool × Progress
  | .lease id slot link (.record rules) =>
    (p.record slot rules, .done (.ok (.leased (leaseOf id slot link))))
  | .lease _ slot _ (.abandon cause) => (p.abandon slot, .done (.error cause))
  | .release l _ .vacate => (p.vacate l.slot, .done (.ok .released))
  | .publish id n m (.record rules) =>
    -- the slot may have been given back while the rules went in
    match p.recordPort? id n.slot.toNat m rules with
    | some p => (p, .done (.ok (.published true)))
    | none => (p, orphaned id n m rules.reverse)
  | .publish id n m (.abandon cause) => (p.abandonPort id n.slot.toNat m, .done (.error cause))
  | job => (p, .going job)

/-! ### Length -/

/-- A bound on the steps that a job has left. -/
def stepsLeft : Job → Nat
  | .lease _ _ _ phase => match phase with
    | .create => 16
    | .install done _ rest => done.length + 2 * rest.length + 5
    | .record _ | .abandon _ => 1
    | .undo _ rest _ => rest.length + 3
    | .unlink _ => 2
  | .release _ _ phase => match phase with
    | .remove _ rest => rest.length + 3
    | .unlink => 2
    | .vacate => 1
  | .publish _ _ _ phase => match phase with
    | .install done _ rest => 2 * done.length + 3 * rest.length + 8
    | .record rules => 2 * rules.length + 3
    | .undo _ rest _ => rest.length + 2
    | .abandon _ => 1
    | .orphan _ rest => rest.length + 2

theorem stepsLeft_answer {c : NetworkConfig} {result : Except Error Unit} {job next : Job}
    (hc : job.hostCall?.isSome) (h : job.answer c result = .going next) :
    next.stepsLeft < job.stepsLeft := by
  cases job with
  | lease id slot link phase =>
    cases phase with
    | create =>
      cases result <;> simp only [answer, Progress.going.injEq] at h <;> subst h <;>
        simp [stepsLeft, leaseRules, LeasePhase.installing]
    | install done rule rest =>
      cases result <;> simp only [answer, Progress.going.injEq] at h <;> subst h
      · rcases hr : done.reverse with _ | ⟨r, rs⟩
        · simp [stepsLeft, LeasePhase.undoing]
        · have : done.length = rs.length + 1 := by simpa using congrArg List.length hr
          simp [stepsLeft, LeasePhase.undoing]; omega
      · cases rest <;> simp [stepsLeft, LeasePhase.installing]; omega
    | record | abandon => simp [hostCall?] at hc
    | undo rule rest cause =>
      simp only [answer, Progress.going.injEq] at h; subst h
      cases rest <;> simp [stepsLeft, LeasePhase.undoing]
    | unlink cause =>
      simp only [answer, Progress.going.injEq] at h; subst h
      simp [stepsLeft]
  | release l link phase =>
    cases phase with
    | remove rule rest =>
      simp only [answer, Progress.going.injEq] at h; subst h
      cases rest <;> simp [stepsLeft, ReleasePhase.removing]
    | unlink => simp only [answer, Progress.going.injEq] at h; subst h; simp [stepsLeft]
    | vacate => simp [hostCall?] at hc
  | publish id n m phase =>
    cases phase with
    | install done rule rest =>
      cases result <;> simp only [answer, Progress.going.injEq] at h <;> subst h
      · rcases hr : done.reverse with _ | ⟨r, rs⟩
        · simp [stepsLeft, PublishPhase.undoing]
        · have : done.length = rs.length + 1 := by simpa using congrArg List.length hr
          simp [stepsLeft, PublishPhase.undoing]; omega
      · cases rest <;> simp [stepsLeft, PublishPhase.installing] <;> omega
    | record | abandon => simp [hostCall?] at hc
    | undo rule rest cause =>
      simp only [answer, Progress.going.injEq] at h; subst h
      cases rest <;> simp [stepsLeft, PublishPhase.undoing]
    | orphan rule rest =>
      cases rest <;> simp only [answer, orphaned, reduceCtorEq, Progress.going.injEq] at h
      subst h; simp [stepsLeft]

theorem stepsLeft_settle {p q : Pool} {job next : Job} (hc : job.hostCall? = none)
    (h : job.settle p = (q, .going next)) : next.stepsLeft < job.stepsLeft := by
  cases job with
  | lease id slot link phase => cases phase <;> simp_all [hostCall?, settle]
  | release l link phase => cases phase <;> simp_all [hostCall?, settle]
  | publish id n m phase =>
    cases phase with
    | record rules =>
      rw [settle] at h
      split at h
      · simp at h
      · rcases hr : rules.reverse with _ | ⟨r, rs⟩
        · simp [hr, orphaned] at h
        · have : rules.length = rs.length + 1 := by simpa using congrArg List.length hr
          simp only [hr, orphaned, Prod.mk.injEq, Progress.going.injEq] at h
          rw [← h.2]; simp [stepsLeft]; omega
    | abandon => simp [settle] at h
    | install | undo | orphan => simp [hostCall?] at hc

/-- Runs a job to its end with nothing between its steps but what the host does.
    The state `σ` of the world holds the pool; the host may change it. -/
def run {σ : Type} (c : NetworkConfig) (getPool : σ → Pool) (setPool : σ → Pool → σ)
    (host : σ → HostCall → σ × Except Error Unit) (s : σ) (job : Job) :
    σ × Except Error Reply :=
  match _hc : job.hostCall? with
  | some call =>
    let (s, result) := host s call
    match _h : job.answer c result with
    | .going next => run c getPool setPool host s next
    | .done outcome => (s, outcome)
  | none =>
    match _h : job.settle (getPool s) with
    | (p, .going next) => run c getPool setPool host (setPool s p) next
    | (p, .done outcome) => (setPool s p, outcome)
termination_by job.stepsLeft
decreasing_by
  · exact stepsLeft_answer (by simp [_hc]) _h
  · exact stepsLeft_settle _hc _h

end Job

/-- The first step of a call, on the pool. -/
def Call.begin (c : NetworkConfig) (ownerBase : Option Nat) (p : Pool) : Call → Pool × Progress
  | .lease id =>
    match p.take c ownerBase id with
    | .error e => (p, .done (.error e))
    | .ok (slot, link, p) => (p, .going (.lease id slot link .create))
  | .release l =>
    match p.beginRelease l with
    | .error e => (p, .done (.error e))
    | .ok (h, p) =>
      (p, .going (.release l h.link
        (ReleasePhase.removing ((Pool.portRules h).reverse ++ h.rules.reverse))))
  | .publish id n m =>
    if m.hostPort = 0 ∨ m.guestPort = 0 then
      (p, .done (.error (.invalidArgument "ports must be non-zero")))
    else
      match p.takePort id n.slot.toNat m with
      | .error e => (p, .done (.error e))
      | .ok (none, p) => (p, .done (.ok (.published false)))
      | .ok (some hostLink, p) =>
        (p, .going (.publish id n m
          (PublishPhase.installing [] (Job.portRules c hostLink n m))))

/-- Makes a call with nothing between its steps but what the host does. -/
def Call.run {σ : Type} (c : NetworkConfig) (ownerBase : Option Nat) (getPool : σ → Pool)
    (setPool : σ → Pool → σ) (host : σ → HostCall → σ × Except Error Unit) (s : σ) (call : Call) :
    σ × Except Error Reply :=
  match call.begin c ownerBase (getPool s) with
  | (p, .going job) => job.run c getPool setPool host (setPool s p)
  | (p, .done outcome) => (setPool s p, outcome)

end VmNode
