import VmNode.Proofs.Network.Owner

/-!
# What stands on the host

A link or rule that was built on the host and not taken down again stands there. Each is
on the books of somebody: the pool has the links and the rules of the slots that are not
being given back (`Pool.stock`), and a call in progress has the rules that it installed
and did not write down yet, or has still to remove (`Job.loose`). A slot is in the pool
before its link is built and after it was taken down, and the call that does so knows that
it is missing (`Job.missing`).

Rules can be equal, so what stands there is counted. Every step, on the pool or on the
host, changes both sides of the balance alike (`Call.Begins.stock`, `Job.Settles.stock`,
`Job.stock_answer`), whatever the host answers, so they agree at every moment
(`Traffic.Reachable.balanced`).
-/

namespace VmNode

/-! ### Links and rules that stand on the host -/

namespace HostCall

/-- What a step builds on the host if it succeeds, as the step that builds it. -/
def built : HostCall → Multiset HostCall
  | .createLink l => {.createLink l}
  | .appendRule r => {.appendRule r}
  | .deleteLink _ | .deleteRule _ => 0

/-- What a step takes down. It is gone whatever the host answers: nobody tries again. -/
def removed : HostCall → Multiset HostCall
  | .createLink _ | .appendRule _ => 0
  | .deleteLink l => {.createLink l}
  | .deleteRule r => {.appendRule r}

/-- Rules that stand on the host. -/
def rules (l : List FirewallRule) : Multiset HostCall := (l.map appendRule : List HostCall)

@[simp] theorem rules_nil : rules [] = 0 := rfl

@[simp] theorem rules_cons (r : FirewallRule) (l : List FirewallRule) :
    rules (r :: l) = {.appendRule r} + rules l := rfl

/-- Rules that are installed after others add to them. -/
theorem rules_append (l m : List FirewallRule) : rules (l ++ m) = rules l + rules m := by
  rw [rules, List.map_append, ← Multiset.coe_add]
  rfl

/-- One more rule. -/
@[simp] theorem rules_concat (l : List FirewallRule) (r : FirewallRule) :
    rules (l ++ [r]) = {.appendRule r} + rules l := by
  rw [rules_append, add_comm]
  rfl

/-- In which order they are installed makes no difference to what stands there. -/
@[simp] theorem rules_reverse (l : List FirewallRule) : rules l.reverse = rules l := by
  rw [rules, List.map_reverse, Multiset.coe_reverse]
  rfl

/-- A rule stands there as often as it is on the list. -/
theorem count_rules (r : FirewallRule) (l : List FirewallRule) :
    (rules l).count (.appendRule r) = l.count r := by
  rw [rules, Multiset.coe_count]
  exact List.count_map_of_injective l appendRule (fun _ _ h => HostCall.appendRule.inj h) r

/-- Rules are no links. -/
theorem createLink_notMem_rules (link : GuestLink) (l : List FirewallRule) :
    .createLink link ∉ rules l := fun h => by
  obtain ⟨r, -, hr⟩ := List.mem_map.1 (Multiset.mem_coe.1 h)
  cases hr

end HostCall

/-- The link of a slot and the rules that are recorded for it. -/
def Holding.stock (g : Holding) : Multiset HostCall :=
  {.createLink g.link} + HostCall.rules (g.rules ++ Pool.portRules g)

/-- The rules of the ports are those of each port together. -/
theorem Holding.rules_portRules (g : Holding) :
    HostCall.rules (Pool.portRules g) = g.ports.tally fun _ port => HostCall.rules port.rules := by
  have hl : ∀ l : List (UInt16 × PublishedPort),
      HostCall.rules ((l.map (·.2)).flatMap (·.rules)) =
        (l.map fun e => HostCall.rules e.2.rules).sum := fun l => by
    induction l with
    | nil => rfl
    | cons e l ih => simp [HostCall.rules_append, ih]
  exact hl g.ports.entries

/-- A slot has its link, the rules that go with it, and those of its ports. -/
theorem Holding.stock_eq (g : Holding) : g.stock = {.createLink g.link} + HostCall.rules g.rules +
    g.ports.tally fun _ port => HostCall.rules port.rules := by
  rw [stock, HostCall.rules_append, rules_portRules, add_assoc]

/-- What the pool keeps of a slot. Once the slot is being given back, it is up to the call
    that does so. -/
def Holding.kept (g : Holding) : Multiset HostCall := if g.releasing then 0 else g.stock

/-- The links and rules that the pool has on its books. -/
def Pool.stock (p : Pool) : Multiset HostCall := p.slots.tally fun _ g => g.kept

/-! ### The books of a call -/

/-- The rules that a lease in that phase has installed and not written down. -/
def LeasePhase.loose : LeasePhase → Multiset HostCall
  | .install done _ _ => HostCall.rules done
  | .record rules => HostCall.rules rules
  | .undo rule rest _ => HostCall.rules (rule :: rest)
  | .create | .unlink _ | .abandon _ => 0

/-- The link of a lease that is not built yet, or taken down again. -/
def LeasePhase.missing (link : GuestLink) : LeasePhase → Multiset HostCall
  | .create | .abandon _ => {.createLink link}
  | .install .. | .record _ | .undo .. | .unlink _ => 0

/-- The link and the rules that have still to be taken down. -/
def ReleasePhase.loose (link : GuestLink) : ReleasePhase → Multiset HostCall
  | .remove rule rest => {.createLink link} + HostCall.rules (rule :: rest)
  | .unlink => {.createLink link}
  | .vacate => 0

/-- The rules of a port that are installed and not written down. -/
def PublishPhase.loose : PublishPhase → Multiset HostCall
  | .install done _ _ => HostCall.rules done
  | .record rules => HostCall.rules rules
  | .undo rule rest _ | .orphan rule rest => HostCall.rules (rule :: rest)
  | .abandon _ => 0

/-- The links and rules that stand on the host for a call in progress, and that are not on
    the books of the pool. -/
def Job.loose : Job → Multiset HostCall
  | .lease _ _ _ phase => phase.loose
  | .release _ link phase => phase.loose link
  | .publish _ _ _ phase => phase.loose

/-- The link that is on the books of the pool, but does not stand on the host. -/
def Job.missing : Job → Multiset HostCall
  | .lease _ _ link phase => phase.missing link
  | .release .. | .publish .. => 0

namespace Progress

/-- What stands on the host for a call, as long as it goes on. -/
def loose (progress : Progress) : Multiset HostCall := progress.job?.elim 0 Job.loose

/-- What is missing on the host for a call, as long as it goes on. -/
def missing (progress : Progress) : Multiset HostCall := progress.job?.elim 0 Job.missing

@[simp] theorem loose_going (job : Job) : (going job).loose = job.loose := rfl

@[simp] theorem loose_done (outcome : Except Error Reply) : (done outcome).loose = 0 := rfl

@[simp] theorem missing_going (job : Job) : (going job).missing = job.missing := rfl

@[simp] theorem missing_done (outcome : Except Error Reply) : (done outcome).missing = 0 := rfl

end Progress

section Phases

variable (done rest : List FirewallRule) (cause : Error)

@[simp] theorem LeasePhase.loose_installing :
    (installing done rest).loose = HostCall.rules done := by
  cases rest <;> rfl

@[simp] theorem LeasePhase.missing_installing (link : GuestLink) :
    (installing done rest).missing link = 0 := by
  cases rest <;> rfl

@[simp] theorem LeasePhase.loose_undoing :
    (undoing cause rest).loose = HostCall.rules rest := by
  cases rest <;> rfl

@[simp] theorem LeasePhase.missing_undoing (link : GuestLink) :
    (undoing cause rest).missing link = 0 := by
  cases rest <;> rfl

@[simp] theorem ReleasePhase.loose_removing (link : GuestLink) :
    (removing rest).loose link = {.createLink link} + HostCall.rules rest := by
  cases rest <;> rfl

@[simp] theorem PublishPhase.loose_installing :
    (installing done rest).loose = HostCall.rules done := by
  cases rest <;> rfl

@[simp] theorem PublishPhase.loose_undoing :
    (undoing cause rest).loose = HostCall.rules rest := by
  cases rest <;> rfl

/-- The rules of an orphaned port are still to be removed. -/
@[simp] theorem Progress.loose_orphaned (id : InstanceId) (n : NetworkInfo) (m : PortMapping) :
    (Job.orphaned id n m rest).loose = HostCall.rules rest := by
  cases rest <;> rfl

@[simp] theorem Progress.missing_orphaned (id : InstanceId) (n : NetworkInfo) (m : PortMapping) :
    (Job.orphaned id n m rest).missing = 0 := by
  cases rest <;> rfl

end Phases

/-! ### Steps on the host -/

/-- What a step on the host builds and takes down for a call, its books show afterwards. -/
theorem Job.stock_answer (c : NetworkConfig) (result : Except Error Unit) {job : Job}
    {host : HostCall} (hhost : job.hostCall? = some host) :
    (if result.isOk then host.built else 0) + (job.answer c result).missing + job.loose =
      host.removed + (job.answer c result).loose + job.missing := by
  cases job with
  | lease id slot link phase =>
    cases phase with
    | record | abandon => cases hhost
    | create | install | undo | unlink =>
      -- what is built is loose at once, and what is taken down was loose before
      cases hhost
      cases result <;>
        simp only [answer, loose, missing, Progress.loose_going, Progress.missing_going,
          LeasePhase.loose_installing, LeasePhase.missing_installing, LeasePhase.loose_undoing,
          LeasePhase.missing_undoing] <;>
        simp [LeasePhase.loose, LeasePhase.missing, HostCall.built, HostCall.removed,
          Except.isOk, Except.toBool]
  | release l link phase =>
    cases phase with
    | vacate => cases hhost
    | remove | unlink =>
      -- whatever the host answers, the call does not try again
      cases hhost
      simp only [answer, loose, missing, Progress.loose_going, Progress.missing_going,
        ReleasePhase.loose_removing]
      simp [ReleasePhase.loose, HostCall.built, HostCall.removed, Multiset.cons_swap]
  | publish id n m phase =>
    cases phase with
    | record | abandon => cases hhost
    | install | undo | orphan =>
      cases hhost
      cases result <;>
        simp only [answer, loose, missing, Progress.loose_going, Progress.missing_going,
          Progress.loose_orphaned, Progress.missing_orphaned, PublishPhase.loose_installing,
          PublishPhase.loose_undoing] <;>
        simp [PublishPhase.loose, HostCall.built, HostCall.removed, Except.isOk, Except.toBool]

/-! ### Steps on the pool -/

namespace Holding

variable {g : Holding} {q : UInt16}

/-- What a slot has is on the books of the pool as long as nobody gives it back. -/
theorem kept_of_free (h : g.releasing = false) : g.kept = g.stock := by
  simp [kept, h]

/-- Then it is on those of the call that does so. -/
theorem kept_of_leaving (h : g.releasing = true) : g.kept = 0 := by
  simp [kept, h]

/-- Slots with the same stock are kept alike. -/
theorem kept_congr {g' : Holding} (hleaving : g'.releasing = g.releasing)
    (hstock : g'.stock = g.stock) : g'.kept = g.kept := by
  rw [kept, kept, hleaving, hstock]

/-- A port that is reserved has no rules yet. -/
theorem stock_reserve (hq : g.ports.find? q = none) (guestPort : UInt16) :
    ({ g with ports := g.ports.insert q ⟨guestPort, []⟩ } : Holding).stock = g.stock := by
  rw [stock_eq, stock_eq, Table.tally_insert_of_none hq, HostCall.rules_nil, add_zero]

/-- The rules of a port are written down. -/
theorem stock_publish {guestPort : UInt16} (hq : g.ports.find? q = some ⟨guestPort, []⟩)
    (rules : List FirewallRule) :
    ({ g with ports := g.ports.insert q ⟨guestPort, rules⟩ } : Holding).stock =
      g.stock + HostCall.rules rules := by
  have hports := Table.tally_insert_of_some hq ⟨guestPort, rules⟩
    fun _ port => HostCall.rules port.rules
  rw [HostCall.rules_nil, add_zero] at hports
  rw [stock_eq, stock_eq, hports]
  exact (add_assoc _ _ _).symm

/-- A reservation is taken back. -/
theorem stock_unpublish {guestPort : UInt16} (hq : g.ports.find? q = some ⟨guestPort, []⟩) :
    ({ g with ports := g.ports.erase q } : Holding).stock = g.stock := by
  have hports := Table.tally_erase_of_some hq fun _ port => HostCall.rules port.rules
  rw [HostCall.rules_nil, add_zero] at hports
  rw [stock_eq, stock_eq, hports]

end Holding

section Steps

variable {c : NetworkConfig} {ownerBase : Option Nat} {p p' : Pool} {progress : Progress}

/-- A slot that is kept as before makes no difference. -/
theorem Pool.stock_insert {s : Nat} {g g' : Holding} (hfind : p.slots.find? s = some g)
    (hkept : g'.kept = g.kept) (ports : Table UInt16 Nat) :
    Pool.stock ⟨p.slots.insert s g', ports⟩ = p.stock := by
  have h := Table.tally_insert_of_some hfind g' fun _ g => g.kept
  rw [hkept] at h
  exact add_right_cancel h

/-- What the first step of a call takes off the books of the pool, the call has on its
    own. -/
theorem Call.Begins.stock {call : Call} (h : call.Begins c ownerBase p p' progress)
    (hp : p.Regular c ownerBase) : p'.stock + progress.loose = p.stock + progress.missing := by
  cases h with
  | refused | known => rfl
  | @lease id slot link htap hnone hlt hlink =>
    rw [Pool.stock, Table.tally_insert_of_none hnone, Holding.kept_of_free rfl]
    exact add_zero _
  | @release l g hfind hholder hfree =>
    -- the rules come off the books in the opposite order, which makes no difference
    have h := Table.tally_insert_of_some hfind { g with releasing := true } fun _ g => g.kept
    rw [Holding.kept_of_free hfree, Holding.kept_of_leaving rfl, Holding.stock,
      HostCall.rules_append, add_comm (HostCall.rules g.rules)] at h
    simp only [Progress.loose_going, Progress.missing_going, Job.loose, Job.missing,
      ReleasePhase.loose_removing, HostCall.rules_append, HostCall.rules_reverse]
    exact h
  | @publish id n m g hport hfind hholder hfree =>
    have hnone := hp.find?_ports_eq_none hport hfind
    have hkept : ({ g with ports := g.ports.insert m.hostPort ⟨m.guestPort, []⟩ } : Holding).kept =
        g.kept := Holding.kept_congr rfl (Holding.stock_reserve hnone _)
    rw [Pool.stock_insert hfind hkept, Progress.loose_going, Progress.missing_going, Job.loose,
      PublishPhase.loose_installing]
    rfl

/-- What a later step of a call takes off the books of the pool, the call has on its own,
    and the other way round. -/
theorem Job.Settles.stock {job : Job} (h : job.Settles p p' progress) (hjob : job.Fits p) :
    p'.stock + progress.loose + job.missing = p.stock + job.loose + progress.missing := by
  cases h with
  | @leased id slot link rules =>
    have h := Table.tally_modify hjob (fun h => { h with rules }) fun _ g => g.kept
    rw [Holding.kept_of_free rfl, Holding.kept_of_free rfl] at h
    have hstock : Holding.stock ⟨id, link, rules, .empty, false⟩ =
        Holding.stock ⟨id, link, [], .empty, false⟩ + HostCall.rules rules := by
      simp [Holding.stock_eq]
    rw [hstock, add_comm (Holding.stock _), ← add_assoc] at h
    have hrecord : (p.record slot rules).stock = p.stock + HostCall.rules rules :=
      add_right_cancel h
    exact (add_zero _).trans (congrArg (· + 0) hrecord)
  | @unleased id slot link cause =>
    -- all that is left of the slot is its link, which the call knows to be missing
    have h := Table.tally_erase_of_some hjob fun _ g => g.kept
    have hkept : Holding.kept ⟨id, link, [], .empty, false⟩ = {.createLink link} := by
      simp [Holding.kept, Holding.stock_eq]
    rw [hkept] at h
    simp only [Progress.loose_done, Progress.missing_done, loose, missing, LeasePhase.loose,
      LeasePhase.missing, add_zero]
    exact h
  | @released l link =>
    -- what the slot had is on the books of the call since it began
    obtain ⟨g, hfind, -, -, hleaving⟩ := hjob
    have h := Table.tally_erase_of_some hfind fun _ g => g.kept
    rw [Holding.kept_of_leaving hleaving, add_zero] at h
    exact congrArg (· + 0 + 0) h
  | @published id n m rules g port hfind hholder hfree hport =>
    -- the rules of the port pass from the call to the pool
    have hmine : g.ports.find? m.hostPort = some ⟨m.guestPort, []⟩ := hjob g hfind hholder
    obtain rfl := Option.some.inj (hport.symm.trans hmine)
    let g' : Holding := { g with ports := g.ports.insert m.hostPort ⟨m.guestPort, rules⟩ }
    have hfree' : g'.releasing = false := hfree
    have hstock : g'.stock = g.stock + HostCall.rules rules := Holding.stock_publish hmine rules
    have h := Table.tally_insert_of_some hfind g' fun _ g => g.kept
    rw [Holding.kept_of_free hfree, Holding.kept_of_free hfree', hstock, add_comm g.stock,
      ← add_assoc] at h
    exact (add_zero _).trans (congrArg (· + 0) (add_right_cancel h))
  | @orphaned id n m rules hlost =>
    simp [loose, missing, PublishPhase.loose]
  | @unpublished id n m cause g hfind hholder =>
    have hkept : ({ g with ports := g.ports.erase m.hostPort } : Holding).kept = g.kept :=
      Holding.kept_congr rfl (Holding.stock_unpublish (hjob g hfind hholder))
    rw [Pool.stock_insert hfind hkept]
    rfl
  | forgotten => rfl

end Steps

end VmNode
