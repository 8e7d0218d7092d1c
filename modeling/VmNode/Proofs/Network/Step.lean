import VmNode.Network.Call
import VmNode.Proofs.Network.Pool

/-!
# Steps of calls on the pool

Everything that the first step of a call (`Call.Begins`) and a later step on the pool
(`Job.Settles`) can do: what has to hold of the pool for it, what it makes of the pool,
and what becomes of the call. Whatever is claimed of all steps is shown by going
through these cases. What becomes of a call is always something that can become of it
(`Progress.Of`).
-/

namespace VmNode

/-- The first step of a call makes this of the pool and of the call. -/
inductive Call.Begins (c : NetworkConfig) (ownerBase : Option Nat) (p : Pool) :
    Call → Pool → Progress → Prop
  /-- The call is refused. -/
  | refused {call : Call} {e : Error} :
      (∀ l, call = .release l → p.beginRelease l = .error e) →
      Begins c ownerBase p call p (.done (.error e))
  /-- The least free slot is taken. -/
  | lease {id : InstanceId} {slot : Nat} {link : GuestLink} :
      p.usesTap (GuestLink.tapOf id) = false → p.slots.find? slot = none → slot < c.slotCount →
      link = Pool.linkFor c ownerBase id slot →
      Begins c ownerBase p (.lease id)
        { p with slots := p.slots.insert slot ⟨id, link, [], .empty, false⟩ }
        (.going (.lease id slot link .create))
  /-- A slot begins to be given back. -/
  | release {l : Lease} {g : Holding} :
      p.slots.find? l.slot = some g → g.holder = l.holder → g.releasing = false →
      Begins c ownerBase p (.release l)
        { p with slots := p.slots.insert l.slot { g with releasing := true } }
        (.going (.release l g.link
          (ReleasePhase.removing ((Pool.portRules g).reverse ++ g.rules.reverse))))
  /-- The port is published already. -/
  | known {id : InstanceId} {n : NetworkInfo} {m : PortMapping} :
      p.isPublished id n.slot.toNat m = true →
      Begins c ownerBase p (.publish id n m) p (.done (.ok (.published false)))
  /-- A port is reserved. -/
  | publish {id : InstanceId} {n : NetworkInfo} {m : PortMapping} {g : Holding} :
      p.hostPorts.find? m.hostPort = none → p.slots.find? n.slot.toNat = some g →
      g.holder = id → g.releasing = false →
      Begins c ownerBase p (.publish id n m)
        ⟨p.slots.insert n.slot.toNat
            { g with ports := g.ports.insert m.hostPort ⟨m.guestPort, []⟩ },
          p.hostPorts.insert m.hostPort n.slot.toNat⟩
        (.going (.publish id n m
          (PublishPhase.installing [] (Job.portRules c g.link.hostLink n m))))

/-- The cases are all. -/
theorem Call.begins (c : NetworkConfig) (ownerBase : Option Nat) (p : Pool) (call : Call) :
    call.Begins c ownerBase p (call.begin c ownerBase p).1 (call.begin c ownerBase p).2 := by
  cases call with
  | lease id =>
    rw [Call.begin]
    split
    · exact .refused fun l h => by cases h
    · rename_i htake
      obtain ⟨htap, hnone, hlt, hlink, rfl⟩ := Pool.take_eq_ok htake
      exact .lease htap hnone hlt hlink
  | release l =>
    -- whoever shows a lease that the pool does not have is refused
    rw [Call.begin]
    split
    · rename_i e herr
      exact .refused fun l' h => by cases h; exact herr
    · rename_i hrel
      obtain ⟨hfind, hmine, hfree, rfl⟩ := Pool.beginRelease_eq_ok hrel
      exact .release hfind hmine hfree
  | publish id n m =>
    -- the port may be there already, and is not published again
    rw [Call.begin]
    split
    · exact .refused fun l h => by cases h
    · split
      · exact .refused fun l h => by cases h
      · rename_i htake
        obtain ⟨hknown, rfl⟩ := Pool.takePort_eq_ok_none htake
        exact .known hknown
      · rename_i htake
        obtain ⟨hport, g, hfind, hmine, hfree, rfl, rfl⟩ := Pool.takePort_eq_ok htake
        exact .publish hport hfind hmine hfree

/-- A later step of a call on the pool makes this of the pool and of the call. -/
inductive Job.Settles (p : Pool) : Job → Pool → Progress → Prop
  /-- The slot is leased. -/
  | leased {id : InstanceId} {slot : Nat} {link : GuestLink} {rules : List FirewallRule} :
      Settles p (.lease id slot link (.record rules)) (p.record slot rules)
        (.done (.ok (.leased (leaseOf id slot link))))
  /-- The slot could not be set up, and is free again. -/
  | unleased {id : InstanceId} {slot : Nat} {link : GuestLink} {cause : Error} :
      Settles p (.lease id slot link (.abandon cause)) (p.abandon slot) (.done (.error cause))
  /-- The slot is given back. -/
  | released {l : Lease} {link : GuestLink} :
      Settles p (.release l link .vacate) (p.vacate l.slot) (.done (.ok .released))
  /-- The port is published. -/
  | published {id : InstanceId} {n : NetworkInfo} {m : PortMapping} {rules : List FirewallRule}
      {g : Holding} {port : PublishedPort} :
      p.slots.find? n.slot.toNat = some g → g.holder = id → g.releasing = false →
      g.ports.find? m.hostPort = some port →
      Settles p (.publish id n m (.record rules))
        ⟨p.slots.insert n.slot.toNat
            { g with ports := g.ports.insert m.hostPort { port with rules } },
          p.hostPorts⟩
        (.done (.ok (.published true)))
  /-- The slot was given back meanwhile. -/
  | orphaned {id : InstanceId} {n : NetworkInfo} {m : PortMapping} {rules : List FirewallRule} :
      p.recordPort? id n.slot.toNat m rules = none →
      Settles p (.publish id n m (.record rules)) p (orphaned id n m rules.reverse)
  /-- The port could not be published, and is free again. -/
  | unpublished {id : InstanceId} {n : NetworkInfo} {m : PortMapping} {cause : Error}
      {g : Holding} :
      p.slots.find? n.slot.toNat = some g → g.holder = id →
      Settles p (.publish id n m (.abandon cause))
        ⟨p.slots.insert n.slot.toNat { g with ports := g.ports.erase m.hostPort },
          p.hostPorts.erase m.hostPort⟩
        (.done (.error cause))
  /-- The port could not be published, and the slot was given back meanwhile. -/
  | forgotten {id : InstanceId} {n : NetworkInfo} {m : PortMapping} {cause : Error} :
      p.heldBy? n.slot.toNat id = none →
      Settles p (.publish id n m (.abandon cause)) p (.done (.error cause))

/-- The cases are all. -/
theorem Job.settles (p : Pool) {job : Job} (h : job.hostCall? = none) :
    job.Settles p (job.settle p).1 (job.settle p).2 := by
  cases job with
  | lease id slot link phase =>
    cases phase with
    | record rules => exact .leased
    | abandon cause => exact .unleased
    | create | install | undo | unlink => simp [hostCall?] at h
  | release l link phase =>
    cases phase with
    | vacate => exact .released
    | remove | unlink => simp [hostCall?] at h
  | publish id n m phase =>
    cases phase with
    | record rules =>
      rw [settle]
      split
      · rename_i hrec
        obtain ⟨g, port, hfind, hmine, hfree, hport, rfl⟩ := Pool.recordPort?_eq_some hrec
        exact .published hfind hmine hfree hport
      · rename_i hrec
        exact .orphaned hrec
    | abandon cause =>
      rw [settle]
      rcases Pool.abandonPort_cases p id n.slot.toNat m with ⟨hheld, heq⟩ | ⟨g, hfind, hmine, heq⟩
      · rw [heq]
        exact .forgotten hheld
      · rw [heq]
        exact .unpublished hfind hmine
    | install | undo | orphan => simp [hostCall?] at h

/-! ### Calls and their progress -/

/-- The call that is in progress. -/
def Job.call : Job → Call
  | .lease id _ _ _ => .lease id
  | .release l _ _ => .release l
  | .publish id n m _ => .publish id n m

/-- A call can have come this far: its job is part of it, and it has the answer that such
    a call gets. A lease is granted to the instance that asked for it. -/
def Progress.Of (call : Call) : Progress → Prop
  | .going job => job.call = call
  | .done (.ok (.leased l)) => call = .lease l.holder
  | .done (.ok .released) => ∃ l, call = .release l
  | .done (.ok (.published _)) => ∃ id n m, call = .publish id n m
  | .done (.error _) => True

/-- Rules of a port without a slot are taken away by the call that made them. -/
theorem Progress.of_orphaned (id : InstanceId) (n : NetworkInfo) (m : PortMapping)
    (rules : List FirewallRule) : (Job.orphaned id n m rules).Of (.publish id n m) := by
  cases rules with
  | nil => trivial
  | cons => rfl

/-- A call that begins is in progress as that call, or has an answer of its kind. -/
theorem Call.Begins.of {c : NetworkConfig} {ownerBase : Option Nat} {p p' : Pool} {call : Call}
    {progress : Progress} (h : call.Begins c ownerBase p p' progress) : progress.Of call := by
  cases h with
  | refused => trivial
  | known => exact ⟨_, _, _, rfl⟩
  | lease | release | publish => rfl

/-- So is one that goes on with a step on the pool. -/
theorem Job.Settles.of {p p' : Pool} {job : Job} {progress : Progress}
    (h : job.Settles p p' progress) : progress.Of job.call := by
  cases h with
  | orphaned => exact Progress.of_orphaned ..
  | leased => rfl
  | released => exact ⟨_, rfl⟩
  | published => exact ⟨_, _, _, rfl⟩
  | unleased | unpublished | forgotten => trivial

/-- So is one that goes on with an answer of the host. -/
theorem Job.of_answer (c : NetworkConfig) (result : Except Error Unit) (job : Job) :
    (job.answer c result).Of job.call := by
  cases job with
  | lease id slot link phase => cases phase <;> cases result <;> rfl
  | release l link phase => cases phase <;> rfl
  | publish id n m phase =>
    cases phase with
    | orphan => exact Progress.of_orphaned ..
    | install | record | undo | abandon => cases result <;> rfl

/-! ### Calls that end well -/

namespace Job

/-- A port that was orphaned is not answered well. -/
theorem orphaned_ne_ok (id : InstanceId) (n : NetworkInfo) (m : PortMapping)
    (rules : List FirewallRule) (reply : Reply) : orphaned id n m rules ≠ .done (.ok reply) := by
  cases rules <;> simp [orphaned]

/-- No call ends well with a step on the host. -/
theorem answer_ne_ok (c : NetworkConfig) (result : Except Error Unit) (job : Job) (reply : Reply) :
    job.answer c result ≠ .done (.ok reply) := by
  cases job with
  | lease id slot link phase => cases phase <;> cases result <;> simp [answer]
  | release l link phase => cases phase <;> simp [answer]
  | publish id n m phase =>
    cases phase with
    | orphan => exact orphaned_ne_ok _ _ _ _ _
    | install | record | undo | abandon => cases result <;> simp [answer]

variable {p p' : Pool} {job : Job}

/-- A lease is granted for the slot that was set up. -/
theorem Settles.eq_leaseOf {l : Lease} (h : job.Settles p p' (.done (.ok (.leased l)))) :
    ∃ id slot link rules, job = .lease id slot link (.record rules) ∧ l = leaseOf id slot link := by
  generalize hprog : Progress.done _ = progress at h
  cases h with
  | @leased id slot link rules =>
    cases hprog
    exact ⟨id, slot, link, rules, rfl, rfl⟩
  | orphaned => exact absurd hprog.symm (orphaned_ne_ok _ _ _ _ _)
  | unleased | released | published | unpublished | forgotten => cases hprog

end Job

end VmNode
